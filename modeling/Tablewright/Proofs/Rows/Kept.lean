import Mathlib.Data.List.Nodup
import Mathlib.Data.List.TakeWhile
import Tablewright.Proofs.Rows.Shape
import Tablewright.Rows.Mapping

namespace Tablewright

variable {schema : Schema} {ms : List Model} {cache cache' : ShapeCache} {m p t : Model}

/-- Models are told apart by their numbers. -/
def ToldApart (ms : List Model) : Prop := ∀ a ∈ ms, ∀ b ∈ ms, a.number = b.number → a = b

lemma toldApart_of_nodup (ns : List Model) (hns : (ns.map (·.number)).Nodup) (h : ms ⊆ ns) :
    ToldApart ms :=
  fun _ ha _ hb hnumber => List.inj_on_of_nodup_map hns (h ha) (h hb) hnumber

namespace ShapeCache

def has (cache : ShapeCache) (m : Model) : Bool := (get? cache m).isSome

def Sound (schema : Schema) (ms : List Model) (cache : ShapeCache) : Prop :=
  ∀ m ∈ ms, ∀ s, get? cache m = some s → s.Fits schema m

structure Grown (schema : Schema) (ms : List Model) (new : Model → Prop)
    (cache cache' : ShapeCache) : Prop where
  sound : Sound schema ms cache'
  has : ∀ m ∈ ms, has cache' m = true ↔ has cache m = true ∨ new m

namespace Grown

variable {new new' : Model → Prop}

lemma refl (h : Sound schema ms cache) (hnew : ∀ m ∈ ms, new m → ShapeCache.has cache m = true) :
    Grown schema ms new cache cache :=
  ⟨h, fun m hm => ⟨Or.inl, fun hm' => hm'.elim id (hnew m hm)⟩⟩

lemma trans {cache'' : ShapeCache} (h : Grown schema ms new cache cache')
    (h' : Grown schema ms new' cache' cache'') :
    Grown schema ms (fun m => new m ∨ new' m) cache cache'' :=
  ⟨h'.sound, fun m hm => by rw [h'.has m hm, h.has m hm, or_assoc]⟩

lemma congr (h : Grown schema ms new cache cache') (hnew : ∀ m ∈ ms, new m ↔ new' m) :
    Grown schema ms new' cache cache' :=
  ⟨h.sound, fun m hm => by rw [h.has m hm, hnew m hm]⟩

end Grown

lemma get?_keep {s : Shape} (hnew : get? cache s.model = none) (m : Model) :
    get? (keep cache s) m =
      (get? cache m).or (if m.number = s.model.number then some s else none) := by
  have hkeep : keep cache s = cache ++ [(s.model.number, s)] := by rw [keep, hnew]
  rw [hkeep, get?, List.lookup_append, List.lookup_cons, List.lookup_nil]
  by_cases h : m.number = s.model.number
  · rw [if_pos h, beq_iff_eq.mpr h, get?]
  · rw [if_neg h, beq_false_of_ne h, get?]

lemma grown_keep (hapart : ToldApart ms) (hcache : Sound schema ms cache) {s : Shape}
    (hs : s.model ∈ ms) (hfits : s.Fits schema s.model) :
    Grown schema ms (· = s.model) cache (keep cache s) := by
  cases hget : get? cache s.model with
  | some kept =>
    -- the first shape stays, whatever is found later
    have hkeep : keep cache s = cache := by rw [keep, hget]
    rw [hkeep]
    refine .refl hcache ?_
    rintro _ - rfl
    rw [has, hget]
    rfl
  | none =>
    refine ⟨fun m hm s' hs' => ?_, fun m hm => ?_⟩
    · rw [get?_keep hget] at hs'
      rcases Option.or_eq_some_iff.mp hs' with hs' | ⟨-, hs'⟩
      · exact hcache m hm s' hs'
      · split at hs'
        · next hnumber =>
          obtain rfl := Option.some.inj hs'
          exact hapart m hm s.model hs hnumber ▸ hfits
        · cases hs'
    · rw [has, get?_keep hget, Option.isSome_or, Bool.or_eq_true]
      refine or_congr_right ?_
      constructor
      · intro hsome
        split at hsome
        · next hnumber => exact hapart m hm s.model hs hnumber
        · cases hsome
      · rintro rfl
        rw [if_pos rfl]
        rfl

end ShapeCache

open ShapeCache

def Refuses (schema : Schema) (cache : ShapeCache) (p : Model) (e : ShapeError) : Prop :=
  if has cache p then e = notNestable p else analysePlain schema p = .error e

lemma plainShape_of_flat (hcache : Sound schema ms cache) (hp : p ∈ ms) {s : PlainShape}
    (hs : analysePlain schema p = .ok s) : (plainShape schema cache p).1 = .ok s := by
  rw [plainShape]
  split
  · next s' hget =>
    have hfits : analysePlain schema p = .ok s' := hcache p hp _ hget
    exact hfits.symm.trans hs
  · next m' parts hget =>
    have hcomposite : p.Composite := (hcache p hp _ hget).2.1
    have hflat : p.flat schema = true := Model.flat_iff.mpr ⟨s, hs⟩
    rw [hcomposite.flat_eq_false] at hflat
    cases hflat
  · rw [hs]

lemma refuses_plainShape (hcache : Sound schema ms cache) (hp : p ∈ ms)
    (hflat : p.flat schema = false) :
    ∃ e, (plainShape schema cache p).1 = .error e ∧ Refuses schema cache p e := by
  rw [plainShape]
  split
  · next s hget =>
    have hfits : analysePlain schema p = .ok s := hcache p hp _ hget
    rw [Model.flat, hfits] at hflat
    cases hflat
  · next m' parts hget =>
    have hhas : has cache p = true := by rw [has, hget]; rfl
    exact ⟨_, rfl, by rw [Refuses, if_pos hhas]⟩
  · next hget =>
    have hhas : ¬ has cache p = true := by rw [has, hget]; exact Bool.false_ne_true
    rw [Model.flat] at hflat
    cases hanalyse : analysePlain schema p with
    | ok s =>
      rw [hanalyse] at hflat
      cases hflat
    | error e => exact ⟨e, rfl, by rw [Refuses, if_neg hhas, hanalyse]⟩

lemma grown_plainShape (hapart : ToldApart ms) (hcache : Sound schema ms cache) (hp : p ∈ ms) :
    Grown schema ms (fun m => m = p ∧ p.flat schema = true) cache
      (plainShape schema cache p).2 := by
  have hidle : (p.flat schema = true → has cache p = true) →
      Grown schema ms (fun m => m = p ∧ p.flat schema = true) cache cache := by
    refine fun h => .refl hcache ?_
    rintro _ - ⟨rfl, hflat⟩
    exact h hflat
  rw [plainShape]
  split
  · next s hget => exact hidle fun _ => by rw [has, hget]; rfl
  · next m' parts hget => exact hidle fun _ => by rw [has, hget]; rfl
  · cases hanalyse : analysePlain schema p with
    | ok s =>
      obtain ⟨table, -, -, rfl⟩ := analysePlain_eq_ok_iff.mp hanalyse
      have hflat : p.flat schema = true := Model.flat_iff.mpr ⟨_, hanalyse⟩
      exact (grown_keep hapart hcache (s := .plain ⟨p, _, table⟩) hp hanalyse).congr fun _ _ =>
        (and_iff_left hflat).symm
    | error e =>
      refine hidle fun hflat => ?_
      rw [Model.flat, hanalyse] at hflat
      cases hflat

lemma Refuses.of_grown {new : Model → Prop} {e : ShapeError} (h : Refuses schema cache' p e)
    (hgrown : Grown schema ms new cache cache') (hp : p ∈ ms) (hnew : ¬ new p) :
    Refuses schema cache p e := by
  have hhas : has cache' p = has cache p := by
    rw [Bool.eq_iff_iff, hgrown.has p hp, or_iff_left hnew]
  rwa [Refuses, ← hhas]

section Parts

variable {key : String} {parts : List (String × Model)}

lemma partShapes_cons_of_error {e : ShapeError} (h : (plainShape schema cache p).1 = .error e) :
    partShapes schema cache ((key, p) :: parts) = (.error e, (plainShape schema cache p).2) := by
  rw [partShapes]
  split
  · next f cache' hrun =>
    rw [hrun] at h ⊢
    exact Prod.ext (congrArg Except.error (Except.error.inj h)) rfl
  · next s cache' hrun =>
    rw [hrun] at h
    cases h

lemma partShapes_cons_of_ok {s : PlainShape} (h : (plainShape schema cache p).1 = .ok s) :
    partShapes schema cache ((key, p) :: parts) =
      ((partShapes schema (plainShape schema cache p).2 parts).1.map
          fun others => (key, s) :: others,
        (partShapes schema (plainShape schema cache p).2 parts).2) := by
  rw [partShapes]
  split
  · next f cache' hrun =>
    rw [hrun] at h
    cases h
  · next s' cache' hrun =>
    rw [hrun] at h ⊢
    obtain rfl := Except.ok.inj h
    rcases partShapes schema cache' parts with ⟨_ | _, _⟩ <;> rfl

lemma grown_partShapes (hapart : ToldApart ms) (hcache : Sound schema ms cache)
    (hparts : ∀ q ∈ parts, q.2 ∈ ms) :
    Grown schema ms (· ∈ (parts.map (·.2)).takeWhile (·.flat schema)) cache
      (partShapes schema cache parts).2 := by
  induction parts generalizing cache with
  | nil => exact .refl hcache fun m _ hm => absurd hm List.not_mem_nil
  | cons q parts ih =>
    obtain ⟨key, p⟩ := q
    rw [List.forall_mem_cons] at hparts
    -- a part that is refused is the last one looked at, but what came before it is kept
    have hfirst := grown_plainShape hapart hcache hparts.1
    cases hflat : p.flat schema with
    | false =>
      obtain ⟨e, he, -⟩ := refuses_plainShape hcache hparts.1 hflat
      rw [partShapes_cons_of_error he]
      exact hfirst.congr fun m _ => by simp [hflat]
    | true =>
      obtain ⟨s, hs⟩ := Model.flat_iff.mp hflat
      rw [partShapes_cons_of_ok (plainShape_of_flat hcache hparts.1 hs)]
      exact (hfirst.trans (ih hfirst.sound hparts.2)).congr fun m _ => by simp [hflat]

lemma partShapes_of_flat (hapart : ToldApart ms) (hcache : Sound schema ms cache)
    (hparts : ∀ q ∈ parts, q.2 ∈ ms) {shapes : List (String × PlainShape)}
    (hshapes : flatParts schema parts = .ok shapes) :
    (partShapes schema cache parts).1 = .ok shapes := by
  induction parts generalizing cache shapes with
  | nil => exact hshapes
  | cons q parts ih =>
    obtain ⟨key, p⟩ := q
    rw [List.forall_mem_cons] at hparts
    obtain ⟨s, hs, hrest⟩ := bind_eq_ok_iff.mp hshapes
    obtain ⟨others, hothers, rfl⟩ := map_eq_ok_iff.mp hrest
    have hgrown := grown_plainShape hapart hcache hparts.1
    rw [partShapes_cons_of_ok (plainShape_of_flat hcache hparts.1 hs)]
    exact map_eq_ok_iff.mpr ⟨others, ih hgrown.sound hparts.2 hothers, rfl⟩

lemma refuses_partShapes (hapart : ToldApart ms) (hcache : Sound schema ms cache)
    (hparts : ∀ q ∈ parts, q.2 ∈ ms)
    (hp : (parts.map (·.2)).find? (fun p => !p.flat schema) = some p) :
    ∃ e, (partShapes schema cache parts).1 = .error e ∧ Refuses schema cache p e := by
  induction parts generalizing cache with
  | nil => cases hp
  | cons q parts ih =>
    obtain ⟨key, q⟩ := q
    rw [List.forall_mem_cons] at hparts
    rw [List.map_cons, List.find?_cons] at hp
    cases hflat : q.flat schema with
    | false =>
      rw [hflat] at hp
      obtain rfl := Option.some.inj hp
      obtain ⟨e, he, hrefuses⟩ := refuses_plainShape hcache hparts.1 hflat
      exact ⟨e, by rw [partShapes_cons_of_error he], hrefuses⟩
    | true =>
      rw [hflat] at hp
      obtain ⟨s, hs⟩ := Model.flat_iff.mp hflat
      have hgrown := grown_plainShape hapart hcache hparts.1
      obtain ⟨e, he, hrefuses⟩ := ih hgrown.sound hparts.2 hp
      have hmem : p ∈ ms := by
        obtain ⟨r, hr, rfl⟩ := List.mem_map.mp (List.mem_of_find?_eq_some hp)
        exact hparts.2 r hr
      have hunflat : p.flat schema = false := by simpa using List.find?_some hp
      -- `q` has a plain shape and `p` has none, so keeping `q` is not keeping `p`
      refine ⟨e, ?_, hrefuses.of_grown hgrown hmem ?_⟩
      · rw [partShapes_cons_of_ok (plainShape_of_flat hcache hparts.1 hs), he]
        rfl
      · rintro ⟨rfl, -⟩
        rw [hunflat] at hflat
        cases hflat

end Parts

namespace Model

/-- A part of `t` that is met, when the parts of `t` are looked at, before one without a plain
shape. -/
def Uncovers (schema : Schema) (t m : Model) : Prop :=
  t.Composite ∧ m ∈ t.partModels.takeWhile (·.flat schema)

def StumblesOn (schema : Schema) (m p : Model) : Prop :=
  m.Composite ∧ m.partModels.find? (fun p => !p.flat schema) = some p

def HasShape (schema : Schema) (m : Model) : Prop := m.fields ≠ [] ∧ ∃ s : Shape, s.Fits schema m

lemma part_mem (hparts : ∀ p ∈ m.partModels, p ∈ ms) : ∀ q ∈ modelParts m, q.2 ∈ ms :=
  fun q hq => hparts q.2 (List.mem_map_of_mem hq)

end Model

section Analysis

lemma analyse_of_nil (h : m.fields = []) :
    analyse schema cache m = (.error (.invalidModel m.name "model has no fields"), cache) := by
  simp [analyse, h]

lemma analyse_of_plain (h : m.fields ≠ []) (hparts : modelParts m = []) :
    analyse schema cache m =
      ((plainShape schema cache m).1.map .plain, (plainShape schema cache m).2) := by
  simp only [analyse, hparts, List.isEmpty_iff, h, if_false, if_true]
  rcases plainShape schema cache m with ⟨_ | _, _⟩ <;> rfl

lemma analyse_of_mixed (hparts : modelParts m ≠ [])
    (hlength : (modelParts m).length ≠ m.fields.length) :
    analyse schema cache m = (.error (.invalidModel m.name
      "composite models may only contain row model fields"), cache) := by
  have hfields : m.fields ≠ [] := by
    intro hfields
    rw [modelParts, hfields] at hparts
    exact hparts rfl
  simp [analyse, hfields, hparts, hlength]

lemma analyse_of_composite (h : m.Composite) :
    analyse schema cache m =
      ((partShapes schema cache (modelParts m)).1.map (.composite m),
        (partShapes schema cache (modelParts m)).2) := by
  simp only [analyse, List.isEmpty_iff, h.fields_ne_nil, h.parts, h.all, if_false, if_true]
  rcases partShapes schema cache (modelParts m) with ⟨_ | _, _⟩ <;> rfl

lemma shapeOf_of_kept {s : Shape} (h : get? cache m = some s) :
    shapeOf schema cache (.model m) = (.ok s, cache) := by
  rw [shapeOf, h]

lemma shapeOf_of_new (h : get? cache m = none) :
    shapeOf schema cache (.model m) = ((analyse schema cache m).1,
      match (analyse schema cache m).1 with
      | .ok s => keep (analyse schema cache m).2 s
      | .error _ => (analyse schema cache m).2) := by
  rw [shapeOf, h]
  rcases analyse schema cache m with ⟨_ | _, _⟩ <;> rfl

lemma analyse_congr (h : ¬ m.Composite) (hnew : get? cache m = none)
    (hnew' : get? cache' m = none) :
    (analyse schema cache m).1 = (analyse schema cache' m).1 := by
  by_cases hfields : m.fields = []
  · rw [analyse_of_nil hfields, analyse_of_nil hfields]
  by_cases hparts : modelParts m = []
  · rw [analyse_of_plain hfields hparts, analyse_of_plain hfields hparts, plainShape, hnew,
      plainShape, hnew']
    cases analysePlain schema m <;> rfl
  · have hlength : (modelParts m).length ≠ m.fields.length := fun hall => h ⟨hparts, hall⟩
    rw [analyse_of_mixed hparts hlength, analyse_of_mixed hparts hlength]

end Analysis

section Looking

lemma exists_flatParts_iff {parts : List (String × Model)} :
    (∃ shapes, flatParts schema parts = .ok shapes) ↔
      (parts.map (·.2)).find? (fun p => !p.flat schema) = none := by
  induction parts with
  | nil => exact iff_of_true ⟨[], rfl⟩ rfl
  | cons q parts ih =>
    obtain ⟨key, q⟩ := q
    rw [List.map_cons, List.find?_cons]
    cases hanalyse : analysePlain schema q with
    | error e => simp [flatParts, Model.flat, hanalyse, Except.bind, Except.isOk, Except.toBool]
    | ok s =>
      have hflat : q.flat schema = true := Model.flat_iff.mpr ⟨s, hanalyse⟩
      simp only [flatParts, bind_eq_ok_iff, map_eq_ok_iff, hanalyse, hflat, Bool.not_true, ← ih]
      constructor
      · rintro ⟨_, _, -, others, hothers, -⟩
        exact ⟨others, hothers⟩
      · rintro ⟨others, hothers⟩
        exact ⟨_, s, rfl, others, hothers, rfl⟩

namespace Model

lemma Composite.hasShape_iff (h : t.Composite) :
    t.HasShape schema ↔ t.partModels.find? (fun p => !p.flat schema) = none := by
  rw [partModels, ← exists_flatParts_iff]
  constructor
  · rintro ⟨-, s | ⟨_, shapes⟩, hs⟩
    · have hflat : t.flat schema = true := flat_iff.mpr ⟨s, hs⟩
      rw [h.flat_eq_false] at hflat
      cases hflat
    · exact ⟨shapes, hs.2.2⟩
  · rintro ⟨shapes, hshapes⟩
    exact ⟨h.fields_ne_nil, .composite t shapes, rfl, h, hshapes⟩

lemma hasShape_iff_of_not_composite (h : ¬ t.Composite) (hfields : t.fields ≠ []) :
    t.HasShape schema ↔ t.flat schema = true := by
  rw [flat_iff]
  constructor
  · rintro ⟨-, s | _, hs⟩
    · exact ⟨s, hs⟩
    · exact absurd hs.2.1 h
  · rintro ⟨s, hs⟩
    exact ⟨hfields, .plain s, hs⟩

end Model

def RowTarget.models : RowTarget → List Model
  | .model t => t :: t.partModels
  | .other _ => []

def RowTarget.Leaves (schema : Schema) (m : Model) : RowTarget → Prop
  | .model t => (m = t ∧ t.HasShape schema) ∨ t.Uncovers schema m
  | .other _ => False

lemma Model.Composite.leaves_iff (h : t.Composite) :
    RowTarget.Leaves schema m (.model t) ↔
      m ∈ t.partModels.takeWhile (·.flat schema) ∨ (m = t ∧ t.HasShape schema) := by
  rw [RowTarget.Leaves, Model.Uncovers, and_iff_right h, or_comm]

lemma grown_shapeOf_composite (hapart : ToldApart ms) (hcache : Sound schema ms cache)
    (ht : t ∈ ms) (hparts : ∀ p ∈ t.partModels, p ∈ ms) (hcomposite : t.Composite)
    (hnew : get? cache t = none) :
    Grown schema ms (RowTarget.Leaves schema · (.model t)) cache
      (shapeOf schema cache (.model t)).2 := by
  have hmem := Model.part_mem hparts
  have hgrown := grown_partShapes hapart hcache hmem
  rw [shapeOf_of_new hnew, analyse_of_composite hcomposite]
  cases hfind : t.partModels.find? (fun p => !p.flat schema) with
  | none =>
    obtain ⟨shapes, hshapes⟩ := exists_flatParts_iff.mpr hfind
    have hkeep := grown_keep hapart hgrown.sound (s := .composite t shapes) ht
      ⟨rfl, hcomposite, hshapes⟩
    rw [partShapes_of_flat hapart hcache hmem hshapes]
    refine (hgrown.trans hkeep).congr fun m _ => ?_
    rw [hcomposite.leaves_iff, and_iff_left (hcomposite.hasShape_iff.mpr hfind)]
    rfl
  | some p =>
    obtain ⟨e, he, -⟩ := refuses_partShapes hapart hcache hmem hfind
    have hshape : ¬ t.HasShape schema := by
      rw [hcomposite.hasShape_iff, hfind]
      exact nofun
    rw [he]
    refine hgrown.congr fun m _ => ?_
    rw [hcomposite.leaves_iff, or_iff_left (hshape ·.2)]
    rfl

lemma grown_shapeOf_plain (hapart : ToldApart ms) (hcache : Sound schema ms cache)
    (ht : t ∈ ms) (hcomposite : ¬ t.Composite) (hnew : get? cache t = none) :
    Grown schema ms (RowTarget.Leaves schema · (.model t)) cache
      (shapeOf schema cache (.model t)).2 := by
  have huncovers (m : Model) : ¬ t.Uncovers schema m := fun h => hcomposite h.1
  have hidle (hshape : ¬ t.HasShape schema) :
      Grown schema ms (RowTarget.Leaves schema · (.model t)) cache cache :=
    .refl hcache fun m _ h => h.elim (fun h => absurd h.2 hshape) (fun h => absurd h (huncovers m))
  rw [shapeOf_of_new hnew]
  by_cases hfields : t.fields = []
  · rw [analyse_of_nil hfields]
    exact hidle fun h => h.1 hfields
  have hshape : t.HasShape schema ↔ t.flat schema = true :=
    Model.hasShape_iff_of_not_composite hcomposite hfields
  by_cases hnested : modelParts t = []
  · rw [analyse_of_plain hfields hnested]
    have hgrown := grown_plainShape hapart hcache ht
    cases hanalyse : analysePlain schema t with
    | ok s =>
      have hflat : t.flat schema = true := Model.flat_iff.mpr ⟨s, hanalyse⟩
      obtain ⟨table, -, -, rfl⟩ := analysePlain_eq_ok_iff.mp hanalyse
      have hkeep := grown_keep hapart hgrown.sound (s := .plain ⟨t, _, table⟩) ht hanalyse
      rw [plainShape_of_flat hcache ht hanalyse]
      refine (hgrown.trans hkeep).congr fun m _ => ?_
      rw [RowTarget.Leaves, or_iff_left (huncovers m), hshape]
      simp only [hflat, and_true]
      exact or_self_iff
    | error e =>
      have hflat : t.flat schema = false := by rw [Model.flat, hanalyse]; rfl
      obtain ⟨e, he, -⟩ := refuses_plainShape hcache ht hflat
      rw [he]
      refine hgrown.congr fun m _ => ?_
      rw [RowTarget.Leaves, or_iff_left (huncovers m), hshape]
  · have hlength : (modelParts t).length ≠ t.fields.length := fun hall => hcomposite ⟨hnested, hall⟩
    rw [analyse_of_mixed hnested hlength]
    refine hidle ?_
    rw [hshape, Model.flat_of_parts hnested]
    exact Bool.false_ne_true

namespace ShapeCache

def Closed (schema : Schema) (ms : List Model) (cache : ShapeCache) : Prop :=
  ∀ t ∈ ms, has cache t = true → ∀ m ∈ ms, t.Uncovers schema m → has cache m = true

lemma Closed.of_grown {target : RowTarget} (h : Closed schema ms cache)
    (hgrown : Grown schema ms (RowTarget.Leaves schema · target) cache cache') :
    Closed schema ms cache' := by
  intro t ht hhas m hm huncovers
  rw [hgrown.has m hm]
  rcases (hgrown.has t ht).mp hhas with hhas | hleft
  · exact .inl (h t ht hhas m hm huncovers)
  cases target with
  | other _ => exact absurd hleft id
  | model u =>
    rcases hleft with ⟨rfl, -⟩ | hu
    · exact .inr (.inr huncovers)
    · -- parts are kept only if they are not composite themselves
      have hflat : t.flat schema = true := List.mem_takeWhile_imp hu.2
      rw [huncovers.1.flat_eq_false] at hflat
      cases hflat

end ShapeCache

lemma grown_shapeOf {target : RowTarget} (hapart : ToldApart ms) (hcache : Sound schema ms cache)
    (hclosed : Closed schema ms cache) (htarget : ∀ t ∈ target.models, t ∈ ms) :
    Grown schema ms (RowTarget.Leaves schema · target) cache (shapeOf schema cache target).2 := by
  cases target with
  | other shown => exact .refl hcache fun m _ h => absurd h id
  | model t =>
    obtain ⟨ht, hparts⟩ := List.forall_mem_cons.mp htarget
    cases hget : get? cache t with
    | some s =>
      have hhas : has cache t = true := by rw [has, hget]; rfl
      rw [shapeOf_of_kept hget]
      refine .refl hcache fun m hm hleft => ?_
      rcases hleft with ⟨rfl, -⟩ | huncovers
      · exact hhas
      · exact hclosed t ht hhas m hm huncovers
    | none =>
      by_cases hcomposite : t.Composite
      · exact grown_shapeOf_composite hapart hcache ht hparts hcomposite hget
      · exact grown_shapeOf_plain hapart hcache ht hcomposite hget

end Looking

end Tablewright
