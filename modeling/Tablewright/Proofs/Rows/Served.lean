import Tablewright.Proofs.Rows.Kept

/-! What a mapper of rows answers after any number of calls, against what a new one answers. A model
that a new mapper finds a shape for has that shape ever after. A model that it refuses may fare
otherwise later, in two ways: one without fields, met as a part in the meantime, is accepted; and
one with a composite part, known as such by then, is refused for nesting it and not for the table
that the part names. -/

namespace Tablewright

open ShapeCache

variable {schema : Schema} {ms : List Model} {cache cache' : ShapeCache} {m p : Model} {s : Shape}

inductive RowTask where
  | shape (target : RowTarget)
  | register (targets : List RowTarget)
  | map (columns : List String) (rows : List (List Value)) (target : Option RowTarget)
      (sources : List (String × String))

def look (schema : Schema) (cache : ShapeCache) (target : RowTarget) : ShapeCache :=
  (shapeOf schema cache target).2

def registered (schema : Schema) (cache : ShapeCache) : List RowTarget → List RowTarget
  | [] => []
  | target :: rest =>
    match (shapeOf schema cache target).1 with
    | .ok _ => target :: registered schema (look schema cache target) rest
    | .error _ => [target]

namespace RowTask

def targets : RowTask → List RowTarget
  | shape target => [target]
  | register targets => targets
  | map _ _ target _ => target.toList

def models (task : RowTask) : List Model := task.targets.flatMap (·.models)

def run (schema : Schema) (cache : ShapeCache) : RowTask → ShapeCache
  | shape target => (shapeOf schema cache target).2
  | register targets => (registerAll schema cache targets).2
  | map columns rows target sources => (mapRows schema cache columns rows target sources).2

def looked (schema : Schema) (cache : ShapeCache) : RowTask → List RowTarget
  | register targets => registered schema cache targets
  | task => task.targets

end RowTask

def served (schema : Schema) (tasks : List RowTask) : ShapeCache :=
  tasks.foldl (RowTask.run schema) []

def looked (schema : Schema) : ShapeCache → List RowTask → List RowTarget
  | _, [] => []
  | cache, task :: rest => task.looked schema cache ++ looked schema (task.run schema cache) rest

/-- The answer to a question for the shape of `m` after the tasks. -/
def answer (schema : Schema) (tasks : List RowTask) (m : Model) : Except ShapeError Shape :=
  (shapeOf schema (served schema tasks) (.model m)).1

section Looks

lemma registerAll_eq (targets : List RowTarget) :
    (registerAll schema cache targets).2 =
      (registered schema cache targets).foldl (look schema) cache := by
  induction targets generalizing cache with
  | nil => rfl
  | cons target rest ih =>
    rw [registerAll, registered]
    cases hshape : shapeOf schema cache target with
    | mk outcome cache' =>
      cases outcome with
      | ok s =>
        have hlook : look schema cache target = cache' := by rw [look, hshape]
        rw [List.foldl_cons, hlook]
        exact ih
      | error e => exact (congrArg Prod.snd hshape).symm

lemma registered_subset (targets : List RowTarget) :
    registered schema cache targets ⊆ targets := by
  induction targets generalizing cache with
  | nil => exact List.Subset.refl []
  | cons target rest ih =>
    rw [registered]
    split
    · exact List.cons_subset_cons target ih
    · exact List.cons_subset_cons target (List.nil_subset rest)

namespace RowTask

lemma run_eq (task : RowTask) :
    task.run schema cache = (task.looked schema cache).foldl (look schema) cache := by
  cases task with
  | shape target => rfl
  | register targets => exact registerAll_eq targets
  | map columns rows target sources =>
    cases target with
    | none =>
      rw [run, mapRows]
      split <;> rfl
    | some target =>
      change _ = (shapeOf schema cache target).2
      rw [run, mapRows]
      rcases shapeOf schema cache target with ⟨_ | s, cache'⟩
      · rfl
      · cases hresolve : s.resolve columns <;> simp only [hresolve]

lemma looked_subset (task : RowTask) : task.looked schema cache ⊆ task.targets := by
  cases task with
  | register targets => exact registered_subset targets
  | _ => exact List.Subset.refl _

end RowTask

lemma foldl_run (tasks : List RowTask) :
    tasks.foldl (RowTask.run schema) cache =
      (looked schema cache tasks).foldl (look schema) cache := by
  induction tasks generalizing cache with
  | nil => rfl
  | cons task rest ih => rw [List.foldl_cons, looked, List.foldl_append, ← task.run_eq, ih]

lemma looked_subset (tasks : List RowTask) :
    looked schema cache tasks ⊆ tasks.flatMap (·.targets) := by
  induction tasks generalizing cache with
  | nil => exact List.Subset.refl []
  | cons task rest ih =>
    rw [looked, List.flatMap_cons]
    exact List.append_subset.mpr ⟨fun t ht => List.mem_append_left _ (task.looked_subset ht),
      fun t ht => List.mem_append_right _ (ih ht)⟩

lemma grown_looks (hapart : ToldApart ms) (hcache : Sound schema ms cache)
    (hclosed : Closed schema ms cache) {targets : List RowTarget}
    (htargets : ∀ target ∈ targets, ∀ t ∈ target.models, t ∈ ms) :
    Grown schema ms (fun m => ∃ target ∈ targets, target.Leaves schema m) cache
      (targets.foldl (look schema) cache) := by
  induction targets generalizing cache with
  | nil => exact .refl hcache fun m _ ⟨_, h, _⟩ => absurd h List.not_mem_nil
  | cons target rest ih =>
    obtain ⟨hhere, hrest⟩ := List.forall_mem_cons.mp htargets
    have hfirst : Grown schema ms (RowTarget.Leaves schema · target) cache
        (look schema cache target) := grown_shapeOf hapart hcache hclosed hhere
    exact (hfirst.trans (ih hfirst.sound (hclosed.of_grown hfirst) hrest)).congr fun m _ => by simp

end Looks

section Outcome

lemma Shape.Fits.unique {s' : Shape} (h : s.Fits schema m) (h' : s'.Fits schema m) : s = s' := by
  cases s with
  | plain s =>
    have hflat : m.flat schema = true := Model.flat_iff.mpr ⟨s, h⟩
    cases s' with
    | plain s' => exact congrArg Shape.plain (Except.ok.inj (h.symm.trans h'))
    | composite =>
      rw [h'.2.1.flat_eq_false] at hflat
      cases hflat
  | composite m₁ parts =>
    obtain ⟨rfl, hcomposite, hparts⟩ := h
    cases s' with
    | plain s' =>
      have hflat : m₁.flat schema = true := Model.flat_iff.mpr ⟨s', h'⟩
      rw [hcomposite.flat_eq_false] at hflat
      cases hflat
    | composite m₂ parts' =>
      obtain ⟨rfl, -, hparts'⟩ := h'
      rw [Except.ok.inj (hparts.symm.trans hparts')]

lemma shapeOf_of_fits (hapart : ToldApart ms) (hcache : Sound schema ms cache) (hm : m ∈ ms)
    (hparts : ∀ p ∈ m.partModels, p ∈ ms) (hfields : m.fields ≠ []) (hs : s.Fits schema m) :
    (shapeOf schema cache (.model m)).1 = .ok s := by
  cases hget : get? cache m with
  | some s' => rw [shapeOf_of_kept hget, (hcache m hm s' hget).unique hs]
  | none =>
    rw [shapeOf_of_new hget]
    cases s with
    | plain s =>
      have hflat : m.flat schema = true := Model.flat_iff.mpr ⟨s, hs⟩
      have hnested : modelParts m = [] := by
        by_contra hnested
        rw [Model.flat_of_parts hnested] at hflat
        cases hflat
      rw [analyse_of_plain hfields hnested, plainShape_of_flat hcache hm hs]
      rfl
    | composite m' parts =>
      obtain ⟨rfl, hcomposite, hflat⟩ := hs
      rw [analyse_of_composite hcomposite,
        partShapes_of_flat hapart hcache (Model.part_mem hparts) hflat]
      rfl

lemma shapeOf_of_stumbles (hapart : ToldApart ms) (hcache : Sound schema ms cache) (hm : m ∈ ms)
    (hparts : ∀ p ∈ m.partModels, p ∈ ms) (h : m.StumblesOn schema p) :
    ∃ e, (shapeOf schema cache (.model m)).1 = .error e ∧ Refuses schema cache p e := by
  obtain ⟨hcomposite, hfind⟩ := h
  cases hget : get? cache m with
  | some s =>
    have hshape : m.HasShape schema := ⟨hcomposite.fields_ne_nil, s, hcache m hm s hget⟩
    rw [hcomposite.hasShape_iff, hfind] at hshape
    cases hshape
  | none =>
    obtain ⟨e, he, hrefuses⟩ := refuses_partShapes hapart hcache (Model.part_mem hparts) hfind
    rw [shapeOf_of_new hget, analyse_of_composite hcomposite, he]
    exact ⟨e, rfl, hrefuses⟩

lemma get?_of_shapeless (hcache : Sound schema ms cache) (hm : m ∈ ms) (hfields : m.fields ≠ [])
    (hshape : ¬ m.HasShape schema) : get? cache m = none := by
  by_contra hget
  obtain ⟨s, hs⟩ := Option.ne_none_iff_exists'.mp hget
  exact hshape ⟨hfields, s, hcache m hm s hs⟩

lemma shapeOf_congr (hcache : Sound schema ms cache) (hcache' : Sound schema ms cache')
    (hm : m ∈ ms) (hfields : m.fields ≠ []) (hcomposite : ¬ m.Composite)
    (hshape : ¬ m.HasShape schema) :
    (shapeOf schema cache (.model m)).1 = (shapeOf schema cache' (.model m)).1 := by
  have hnew := get?_of_shapeless hcache hm hfields hshape
  have hnew' := get?_of_shapeless hcache' hm hfields hshape
  rw [shapeOf_of_new hnew, shapeOf_of_new hnew']
  exact analyse_congr hcomposite hnew hnew'

lemma shapeOf_of_shapeless (hcache : Sound schema ms cache) (hm : m ∈ ms) (hfields : m.fields ≠ [])
    (hcomposite : ¬ m.Composite) (hshape : ¬ m.HasShape schema) :
    ∃ e, (shapeOf schema cache (.model m)).1 = .error e := by
  rw [shapeOf_of_new (get?_of_shapeless hcache hm hfields hshape)]
  by_cases hnested : modelParts m = []
  · rw [Model.hasShape_iff_of_not_composite hcomposite hfields, Bool.not_eq_true] at hshape
    obtain ⟨e, he, -⟩ := refuses_plainShape hcache hm hshape
    rw [analyse_of_plain hfields hnested, he]
    exact ⟨e, rfl⟩
  · rw [analyse_of_mixed hnested fun hall => hcomposite ⟨hnested, hall⟩]
    exact ⟨_, rfl⟩

lemma fits_of_shapeOf (hapart : ToldApart ms) (hcache : Sound schema ms cache) (hm : m ∈ ms)
    (hparts : ∀ p ∈ m.partModels, p ∈ ms) (h : (shapeOf schema cache (.model m)).1 = .ok s) :
    s.Fits schema m := by
  by_cases hfields : m.fields = []
  · cases hget : get? cache m with
    | some s' =>
      rw [shapeOf_of_kept hget] at h
      exact Except.ok.inj h ▸ hcache m hm s' hget
    | none =>
      rw [shapeOf_of_new hget, analyse_of_nil hfields] at h
      cases h
  by_cases hshape : m.HasShape schema
  · obtain ⟨-, s', hs'⟩ := hshape
    rw [shapeOf_of_fits hapart hcache hm hparts hfields hs'] at h
    exact Except.ok.inj h ▸ hs'
  by_cases hcomposite : m.Composite
  · rw [hcomposite.hasShape_iff] at hshape
    obtain ⟨p, hfind⟩ := Option.ne_none_iff_exists'.mp hshape
    obtain ⟨e, he, -⟩ := shapeOf_of_stumbles hapart hcache hm hparts ⟨hcomposite, hfind⟩
    rw [he] at h
    cases h
  · obtain ⟨e, he⟩ := shapeOf_of_shapeless hcache hm hfields hcomposite hshape
    rw [he] at h
    cases h

lemma Model.Composite.mapFields_eq {table : Option Table} (h : m.Composite) :
    mapFields m table m.fields = .error (notNestable m) := by
  have hall : ∀ f ∈ m.fields, (f.part?.map fun part => (f.key, part)).isSome :=
    List.filterMap_length_eq_length.mp h.all
  cases hfields : m.fields with
  | nil => exact absurd hfields h.fields_ne_nil
  | cons f rest =>
    have hpart : f.part?.isSome := by
      have hsome := hall f (hfields ▸ List.mem_cons_self)
      rwa [Option.isSome_map] at hsome
    simp only [mapFields, mapField, hpart, if_true, Except.bind]

lemma Model.Composite.analysePlain_eq (h : m.Composite) :
    analysePlain schema m = (boundTable schema m).bind fun _ => .error (notNestable m) := by
  rw [analysePlain]
  congr
  funext table
  rw [h.mapFields_eq]
  rfl

lemma boundTable_ne_notNestable {e : ShapeError} (h : boundTable schema m = .error e) :
    e ≠ notNestable m := by
  rw [boundTable] at h
  split at h
  · cases h
  · split at h
    · cases h
    · intro he
      -- the reasons differ in their first letters
      have hreason := (ShapeError.invalidModel.inj ((Except.error.inj h).trans he)).2
      have hfirst := congrArg (·.toList.head?) hreason
      simp [toString] at hfirst

end Outcome

section Served

variable {tasks : List RowTask} {targets : List RowTarget}

def mentioned (tasks : List RowTask) (m : Model) : List Model :=
  tasks.flatMap (·.models) ++ (m :: m.partModels)

lemma tasks_mentioned : ∀ task ∈ tasks, ∀ t ∈ task.models, t ∈ mentioned tasks m :=
  fun task htask _ ht => List.mem_append_left _ (List.mem_flatMap.mpr ⟨task, htask, ht⟩)

lemma self_mentioned : m ∈ mentioned tasks m := List.mem_append_right _ List.mem_cons_self

lemma parts_mentioned : ∀ p ∈ m.partModels, p ∈ mentioned tasks m :=
  fun _ hp => List.mem_append_right _ (List.mem_cons_of_mem m hp)

lemma sound_nil : Sound schema ms [] := fun _ _ _ h => nomatch h

lemma not_has_nil (m : Model) : ¬ has [] m = true := Bool.false_ne_true

lemma closed_nil : Closed schema ms [] := fun t _ h => absurd h (not_has_nil t)

lemma mem_of_looked (htasks : ∀ task ∈ tasks, ∀ t ∈ task.models, t ∈ ms) {target : RowTarget}
    (h : target ∈ looked schema cache tasks) : ∀ t ∈ target.models, t ∈ ms := by
  obtain ⟨task, htask, htarget⟩ := List.mem_flatMap.mp (looked_subset tasks h)
  exact fun t ht => htasks task htask t (List.mem_flatMap.mpr ⟨target, htarget, ht⟩)

lemma grown_served (schema : Schema) (hapart : ToldApart ms)
    (htasks : ∀ task ∈ tasks, ∀ t ∈ task.models, t ∈ ms) :
    Grown schema ms (fun m => ∃ target ∈ looked schema [] tasks, target.Leaves schema m) []
      (served schema tasks) := by
  rw [served, foldl_run]
  exact grown_looks hapart sound_nil closed_nil fun _ => mem_of_looked htasks

lemma leaves_iff_of_nil (hfields : m.fields = []) :
    (∃ target ∈ targets, target.Leaves schema m) ↔
      ∃ t, .model t ∈ targets ∧ t.Uncovers schema m := by
  constructor
  · rintro ⟨t | _, ht, ⟨rfl, hshape⟩ | huncovers⟩
    · exact absurd hfields hshape.1
    · exact ⟨t, ht, huncovers⟩
  · rintro ⟨t, ht, huncovers⟩
    exact ⟨.model t, ht, .inr huncovers⟩

lemma leaves_iff_of_unflat (hflat : p.flat schema = false) :
    (∃ target ∈ targets, target.Leaves schema p) ↔ .model p ∈ targets ∧ p.HasShape schema := by
  constructor
  · rintro ⟨t | _, ht, ⟨rfl, hshape⟩ | huncovers⟩
    · exact ⟨ht, hshape⟩
    · have hflat' : p.flat schema = true := List.mem_takeWhile_imp huncovers.2
      rw [hflat] at hflat'
      cases hflat'
  · rintro ⟨hp, hshape⟩
    exact ⟨.model p, hp, .inl ⟨rfl, hshape⟩⟩

lemma hasShape_iff_answer (hapart : ToldApart ms) (hp : p ∈ ms)
    (hparts : ∀ q ∈ p.partModels, q ∈ ms) :
    p.HasShape schema ↔ ∃ s, answer schema [] p = .ok s := by
  constructor
  · rintro ⟨hfields, s, hs⟩
    exact ⟨s, shapeOf_of_fits hapart sound_nil hp hparts hfields hs⟩
  · rintro ⟨s, hs⟩
    refine ⟨fun hfields => ?_, s, fits_of_shapeOf hapart sound_nil hp hparts hs⟩
    rw [answer, shapeOf_of_new rfl, analyse_of_nil hfields] at hs
    cases hs

lemma answer_eq_iff_of_nil (hapart : ToldApart ms)
    (htasks : ∀ task ∈ tasks, ∀ t ∈ task.models, t ∈ ms) (hm : m ∈ ms) (hfields : m.fields = []) :
    answer schema tasks m = answer schema [] m ↔
      ¬ ∃ t, .model t ∈ looked schema [] tasks ∧ t.Uncovers schema m := by
  have hgrown := grown_served schema hapart htasks
  have hhas := hgrown.has m hm
  rw [leaves_iff_of_nil hfields, or_iff_right (not_has_nil m)] at hhas
  have hfresh : get? (served schema []) m = none := rfl
  rw [← hhas, has, answer, answer, shapeOf_of_new hfresh, analyse_of_nil hfields]
  cases hget : get? (served schema tasks) m with
  | some s =>
    rw [shapeOf_of_kept hget]
    refine iff_of_false (fun h => ?_) (not_not_intro rfl)
    cases h
  | none =>
    rw [shapeOf_of_new hget, analyse_of_nil hfields]
    exact iff_of_true rfl Bool.false_ne_true

lemma Model.Composite.notNestable_eq_iff (hp : p.Composite) {e : ShapeError}
    (h : analysePlain schema p = .error e) :
    notNestable p = e ↔ ¬ ∃ e, boundTable schema p = .error e := by
  rw [hp.analysePlain_eq] at h
  cases hbound : boundTable schema p with
  | ok table =>
    rw [hbound] at h
    refine iff_of_true (Except.error.inj h) ?_
    rintro ⟨e, he⟩
    cases he
  | error e' =>
    rw [hbound] at h
    obtain rfl : e' = e := Except.error.inj h
    exact iff_of_false (boundTable_ne_notNestable hbound).symm (not_not_intro ⟨e', rfl⟩)

lemma Model.HasShape.composite (h : p.HasShape schema) (hflat : p.flat schema = false) :
    p.Composite := by
  by_contra hcomposite
  rw [Model.hasShape_iff_of_not_composite hcomposite h.1, hflat] at h
  cases h

lemma has_served_iff_of_unflat (hapart : ToldApart ms)
    (htasks : ∀ task ∈ tasks, ∀ t ∈ task.models, t ∈ ms) (hp : p ∈ ms)
    (hflat : p.flat schema = false) :
    has (served schema tasks) p = true ↔ .model p ∈ looked schema [] tasks ∧ p.HasShape schema := by
  have hhas := (grown_served schema hapart htasks).has p hp
  rwa [leaves_iff_of_unflat hflat, or_iff_right (not_has_nil p)] at hhas

lemma answer_eq_iff_of_stumbles (hapart : ToldApart ms)
    (htasks : ∀ task ∈ tasks, ∀ t ∈ task.models, t ∈ ms) (hm : m ∈ ms)
    (hparts : ∀ p ∈ m.partModels, p ∈ ms) (h : m.StumblesOn schema p) :
    answer schema tasks m = answer schema [] m ↔
      ¬ (.model p ∈ looked schema [] tasks ∧ (∃ s, answer schema [] p = .ok s) ∧
        ∃ e, boundTable schema p = .error e) := by
  have hgrown := grown_served schema hapart htasks
  obtain ⟨e, he, hrefuses⟩ := shapeOf_of_stumbles hapart hgrown.sound hm hparts h
  obtain ⟨fresh, hfresh, hanalyse⟩ := shapeOf_of_stumbles hapart sound_nil hm hparts h
  have hanalyse : analysePlain schema p = .error fresh := hanalyse
  have hp : p ∈ ms := hparts p (List.mem_of_find?_eq_some h.2)
  have hflat : p.flat schema = false := by simpa using List.find?_some h.2
  have hhas : has (served schema tasks) p = true ↔
      .model p ∈ looked schema [] tasks ∧ ∃ s, answer schema [] p = .ok s := by
    rw [has_served_iff_of_unflat hapart htasks hp hflat]
    refine and_congr_right fun hlooked => hasShape_iff_answer hapart hp fun q hq => ?_
    exact mem_of_looked htasks hlooked q (List.mem_cons_of_mem p hq)
  have hsame : answer schema tasks m = answer schema [] m ↔ e = fresh := by
    rw [answer, answer, he]
    exact (Eq.congr_right hfresh).trans (iff_of_eq (Except.error.injEq e fresh))
  rw [hsame, ← and_assoc, ← hhas]
  rw [Refuses] at hrefuses
  split at hrefuses
  · next hkept =>
    -- the part is kept, so it is refused as a composite; a new mapper looks at its table first
    have hshape := ((has_served_iff_of_unflat hapart htasks hp hflat).mp hkept).2
    rw [and_iff_right hkept, hrefuses]
    exact (hshape.composite hflat).notNestable_eq_iff hanalyse
  · next hkept =>
    -- the part is not kept, so both mappers look at it for themselves
    exact iff_of_true (Except.error.inj (hrefuses.symm.trans hanalyse)) fun h => hkept h.1

lemma answer_eq_of_hasShape (hapart : ToldApart ms)
    (htasks : ∀ task ∈ tasks, ∀ t ∈ task.models, t ∈ ms) (hm : m ∈ ms)
    (hparts : ∀ p ∈ m.partModels, p ∈ ms) (hshape : m.HasShape schema) :
    answer schema tasks m = answer schema [] m := by
  obtain ⟨hfields, s, hs⟩ := hshape
  have hgrown := grown_served schema hapart htasks
  calc answer schema tasks m
      = .ok s := shapeOf_of_fits hapart hgrown.sound hm hparts hfields hs
    _ = answer schema [] m := (shapeOf_of_fits hapart sound_nil hm hparts hfields hs).symm

lemma fits_of_answer (hapart : ToldApart (mentioned tasks m)) (h : answer schema tasks m = .ok s) :
    s.Fits schema m :=
  fits_of_shapeOf hapart (grown_served schema hapart tasks_mentioned).sound self_mentioned
    parts_mentioned h

/-- Whatever was asked before, a shape that a new mapper finds is found, and what a new mapper
answers is answered but to a model without fields that was met as a part, and to one that nests a
composite which was looked at and names a table that is not declared. -/
theorem answer_eq_iff (hapart : ToldApart (mentioned tasks m)) :
    (∀ s, answer schema [] m = .ok s → answer schema tasks m = .ok s) ∧
      (answer schema tasks m = answer schema [] m ↔
        ¬ (m.fields = [] ∧ ∃ t, .model t ∈ looked schema [] tasks ∧ t.Uncovers schema m) ∧
        ¬ ∃ p, m.StumblesOn schema p ∧ .model p ∈ looked schema [] tasks ∧
          (∃ s, answer schema [] p = .ok s) ∧ ∃ e, boundTable schema p = .error e) := by
  have hfound : m.HasShape schema → answer schema tasks m = answer schema [] m :=
    answer_eq_of_hasShape hapart tasks_mentioned self_mentioned parts_mentioned
  refine ⟨fun s hs => ?_, ?_⟩
  · rw [hfound ((hasShape_iff_answer hapart self_mentioned parts_mentioned).mpr ⟨s, hs⟩), hs]
  by_cases hfields : m.fields = []
  · rw [answer_eq_iff_of_nil hapart tasks_mentioned self_mentioned hfields, and_iff_right hfields]
    exact (and_iff_left fun ⟨_, hstumbles, _⟩ => hstumbles.1.fields_ne_nil hfields).symm
  rw [and_iff_right (hfields ·.1)]
  by_cases hcomposite : m.Composite
  · cases hfind : m.partModels.find? (fun p => !p.flat schema) with
    | some p =>
      rw [answer_eq_iff_of_stumbles hapart tasks_mentioned self_mentioned parts_mentioned
        ⟨hcomposite, hfind⟩]
      refine not_congr ⟨fun h => ⟨p, ⟨hcomposite, hfind⟩, h⟩, ?_⟩
      rintro ⟨q, ⟨-, hq⟩, h⟩
      obtain rfl := Option.some.inj (hq.symm.trans hfind)
      exact h
    | none =>
      refine iff_of_true (hfound (hcomposite.hasShape_iff.mpr hfind)) ?_
      rintro ⟨p, ⟨-, hp⟩, -⟩
      rw [hfind] at hp
      cases hp
  · refine iff_of_true ?_ fun ⟨_, hstumbles, _⟩ => hcomposite hstumbles.1
    by_cases hshape : m.HasShape schema
    · exact hfound hshape
    · have hgrown := grown_served schema hapart tasks_mentioned
      exact shapeOf_congr hgrown.sound sound_nil self_mentioned hfields hcomposite hshape

namespace Nested

def note : Table := ⟨"note", [{ name := "id", kind := .integer, primaryKey := true }]⟩

def notes : Schema := .ofDescriptions [note] []

def bare : Model := .mk 0 "Bare" none []

def wrap : Model := .mk 1 "Wrap" none [{ name := "part", type := .model bare }]

def line : Model := .mk 2 "Line" none [{ name := "id", type := .scalar .whole }]

def pair : Model := .mk 3 "Pair" (some "gone") [{ name := "line", type := .model line }]

def outer : Model := .mk 4 "Outer" none [{ name := "pair", type := .model pair }]

def calls : List RowTask :=
  [.map ["id"] [] (some (.model wrap)) [], .register [.model pair, .other "'pair'", .model outer]]

lemma toldApart : ToldApart (mentioned calls outer) := by
  have hmentioned : mentioned calls outer =
      [wrap, bare, pair, line, outer, pair, outer, pair] := rfl
  refine toldApart_of_nodup [bare, wrap, line, pair, outer] (by decide) ?_
  rw [hmentioned]
  simp

end Nested

open Nested in
theorem answer_eq_iff_nested : ToldApart (mentioned calls outer) ∧
    answer notes calls outer ≠ answer notes [] outer := by
  refine ⟨toldApart, fun h => ((answer_eq_iff toldApart).2.mp h).2 ?_⟩
  refine ⟨pair, ⟨⟨nofun, rfl⟩, rfl⟩, ?_, ⟨_, rfl⟩, ⟨_, rfl⟩⟩
  exact List.mem_cons_of_mem _ List.mem_cons_self

open Nested in
/-- A model without fields is refused, and accepted once it was met as a part. -/
theorem answer_of_part_without_fields : Schema.build [note] [] = .ok notes ∧
    answer notes [] bare = .error (.invalidModel "Bare" "model has no fields") ∧
    answer notes [.shape (.model wrap)] bare = .ok (.plain ⟨bare, [], none⟩) := ⟨rfl, rfl, rfl⟩

end Served

end Tablewright
