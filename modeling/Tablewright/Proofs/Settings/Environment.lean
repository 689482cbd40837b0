import Tablewright.Proofs.Settings.Layer
import Tablewright.Proofs.Statement.Assigned

namespace Tablewright

open Layer (ofKeyed)

namespace Environment

def nameOf (sectionName field : String) : String := "rizz__" ++ sectionName ++ "__" ++ field

def given? (env : Environment) (sectionName field : String) : Option Value :=
  (latest (fun v => Text.lowercase v.1) (nameOf sectionName field) env).bind fun v =>
    readVariable {} (field == "outputs") v.2

/-- A variable that is for a field and has a value, or that is not for settings. -/
def Understood (name value : String) : Prop :=
  ¬ "rizz__".toList <+: name.toList ∨
    ∃ s ∈ sections, ∃ field ∈ s.2.1, name = nameOf s.1 field ∧
      (readVariable {} (field == "outputs") value).isSome

def Regular (env : Environment) : Prop := ∀ v ∈ env, Understood (Text.lowercase v.1) v.2

lemma visible_eq (env : Environment) :
    env.visible {} = env.foldl (fun vars v => Keyed.put (Text.lowercase v.1) v.2 vars) [] := by
  simp [visible, Naming.written]

lemma get?_visible (env : Environment) (name : String) :
    Keyed.get? (env.visible {}) name =
      (latest (fun v => Text.lowercase v.1) name env).map (·.2) := by
  rw [visible_eq]
  exact (Keyed.get?_foldl_put _ _ _ _ _).trans (Option.or_none ..)

lemma nodup_visible (env : Environment) : (Keyed.keys (env.visible {})).Nodup := by
  rw [visible_eq]
  exact List.foldlRecOn (motive := fun vars : Environment => (Keyed.keys vars).Nodup) env _
    List.nodup_nil fun vars h v _ => Keyed.nodup_keys_put _ _ h

lemma Regular.visible {env : Environment} (h : env.Regular) :
    ∀ v ∈ env.visible {}, Understood v.1 v.2 := by
  rw [visible_eq]
  refine List.foldlRecOn (motive := fun vars : Environment => ∀ v ∈ vars, Understood v.1 v.2) env _
    (List.forall_mem_nil _) fun vars ih v hv w hw => ?_
  obtain rfl | hw := Keyed.mem_put _ _ _ _ hw
  · exact h v hv
  · exact ih w hw

section Step

variable {s t : String × List String × List String} {field : String}

lemma nameOf_eq_append (hs : s ∈ sections) (field : String) :
    nameOf s.1 field = Naming.variable_ {} s.1 ++ "__" ++ field := by
  have hstart : ∀ s ∈ sections, "rizz__" ++ s.1 ++ "__" = Naming.variable_ {} s.1 ++ "__" := by
    decide +kernel
  rw [nameOf, hstart s hs]

lemma pieces_field (hs : s ∈ sections) (hfield : field ∈ s.2.1) :
    pieces "__".toList none (field.toList.length + 1) field.toList = [field.toList] := by
  have hpieces : ∀ s ∈ sections, ∀ field ∈ s.2.1,
      pieces "__".toList none (field.toList.length + 1) field.toList = [field.toList] := by
    decide +kernel
  exact hpieces s hs field hfield

lemma contains_field (hs : s ∈ sections) (hfield : field ∈ s.2.1) :
    s.2.2.contains field = (field == "outputs") := by
  have hcontains : ∀ s ∈ sections, ∀ field ∈ s.2.1,
      s.2.2.contains field = (field == "outputs") := by decide +kernel
  exact hcontains s hs field hfield

lemma nameOf_inj (hs : s ∈ sections) (ht : t ∈ sections) {other : String}
    (hfield : field ∈ s.2.1) (hother : other ∈ t.2.1) (h : nameOf s.1 field = nameOf t.1 other) :
    s = t ∧ field = other := by
  have hinj : ∀ s ∈ sections, ∀ t ∈ sections, ∀ field ∈ s.2.1, ∀ other ∈ t.2.1,
      nameOf s.1 field = nameOf t.1 other → s = t ∧ field = other := by decide +kernel
  exact hinj s hs t ht field hfield other hother h

lemma readInto_own (hs : s ∈ sections) (hfield : field ∈ s.2.1) {value : String} {w : Value}
    (hw : readVariable {} (field == "outputs") value = some w) (acc : Keyed Value) :
    readInto {} s.1 s.2.2 (ofKeyed acc) (nameOf s.1 field, value) =
      some (ofKeyed (acc.put field w)) := by
  have hbegins : (Naming.variable_ {} s.1 ++ "__").isPrefixOf (nameOf s.1 field) = true := by
    rw [nameOf_eq_append hs]
    generalize Naming.variable_ {} s.1 ++ "__" = start
    refine String.startsWith_string_iff.mpr ?_
    rw [String.toList_append]
    exact List.prefix_append _ _
  have hname : (nameOf s.1 field).toList.drop (Naming.variable_ {} s.1 ++ "__").length =
      field.toList := by
    rw [nameOf_eq_append hs]
    generalize Naming.variable_ {} s.1 ++ "__" = start
    rw [String.toList_append, ← String.length_toList]
    exact List.drop_left
  rw [readInto, if_pos hbegins]
  simp only [hname, pieces_field hs hfield, List.map_singleton, String.ofList_toList, isListPath,
    contains_field hs hfield, hw, Option.map_some, setUnder, Value.put_ofKeyed]

lemma readInto_of_not_prefix {name : String}
    (h : ¬ (Naming.variable_ {} s.1 ++ "__").toList <+: name.toList) (value : String)
    (layer : Layer) : readInto {} s.1 s.2.2 layer (name, value) = some layer :=
  if_neg fun hstart => h (String.startsWith_string_iff.mp hstart)

lemma readInto_other (hs : s ∈ sections) (ht : t ∈ sections) (hne : t ≠ s) (hfield : field ∈ t.2.1)
    (value : String) (layer : Layer) :
    readInto {} s.1 s.2.2 layer (nameOf t.1 field, value) = some layer := by
  have hbegins : ∀ s ∈ sections, ∀ t ∈ sections, t ≠ s → ∀ field ∈ t.2.1,
      ¬ (Naming.variable_ {} s.1 ++ "__").toList <+: (nameOf t.1 field).toList := by
    decide +kernel
  exact readInto_of_not_prefix (hbegins s hs t ht hne field hfield) value layer

lemma readInto_foreign (hs : s ∈ sections) {name : String} (h : ¬ "rizz__".toList <+: name.toList)
    (value : String) (layer : Layer) :
    readInto {} s.1 s.2.2 layer (name, value) = some layer := by
  have hstart : ∀ s ∈ sections,
      "rizz__".toList <+: (Naming.variable_ {} s.1 ++ "__").toList := by decide +kernel
  exact readInto_of_not_prefix (fun hbegins => h ((hstart s hs).trans hbegins)) value layer

lemma prefix_nameOf (sectionName field : String) :
    "rizz__".toList <+: (nameOf sectionName field).toList := by
  rw [nameOf, String.toList_append, String.toList_append, String.toList_append, List.append_assoc,
    List.append_assoc]
  exact List.prefix_append _ _

structure Gathered (s : String × List String × List String) (vars : Environment)
    (before fields : Keyed Value) : Prop where
  fold : vars.foldlM (readInto {} s.1 s.2.2) (ofKeyed before) = some (ofKeyed fields)
  known : ∀ k ∈ fields.keys, k ∈ s.2.1
  nodup : fields.keys.Nodup
  get? : ∀ field ∈ s.2.1, fields.get? field =
    ((Keyed.get? vars (nameOf s.1 field)).bind (readVariable {} (field == "outputs"))).or
      (before.get? field)

lemma Gathered.skip {vars : Environment} {before fields : Keyed Value} {name value : String}
    (h : Gathered s vars before fields) (hother : ∀ field ∈ s.2.1, name ≠ nameOf s.1 field)
    (hread : readInto {} s.1 s.2.2 (ofKeyed before) (name, value) = some (ofKeyed before)) :
    Gathered s ((name, value) :: vars) before fields where
  fold := by
    rw [List.foldlM_cons, hread]
    exact h.fold
  known := h.known
  nodup := h.nodup
  get? field hfield := by
    rw [h.get? field hfield, Keyed.get?_cons, if_neg (hother field hfield)]

lemma Gathered.take {vars : Environment} {before fields : Keyed Value} {value : String} {w : Value}
    (hs : s ∈ sections) (hfield : field ∈ s.2.1)
    (hw : readVariable {} (field == "outputs") value = some w)
    (hnew : nameOf s.1 field ∉ Keyed.keys vars) (h : Gathered s vars (before.put field w) fields) :
    Gathered s ((nameOf s.1 field, value) :: vars) before fields where
  fold := by
    rw [List.foldlM_cons, readInto_own hs hfield hw]
    exact h.fold
  known := h.known
  nodup := h.nodup
  get? other hother := by
    rw [h.get? other hother, Keyed.get?_cons, Keyed.get?_put]
    by_cases hsame : field = other
    · subst hsame
      rw [if_pos rfl, if_pos rfl, Keyed.get?_eq_none_iff.mpr hnew, Option.bind_some, hw]
      rfl
    · have hname : nameOf s.1 field ≠ nameOf s.1 other := fun hname =>
        hsame (nameOf_inj hs hs hfield hother hname).2
      rw [if_neg hsame, if_neg hname]

lemma exists_gathered (hs : s ∈ sections) {vars : Environment}
    (hvars : ∀ v ∈ vars, Understood v.1 v.2) (hnodup : (Keyed.keys vars).Nodup)
    {before : Keyed Value} (hknown : ∀ k ∈ before.keys, k ∈ s.2.1) (hkeys : before.keys.Nodup) :
    ∃ fields, Gathered s vars before fields := by
  -- `before` holds what earlier variables gave
  induction vars generalizing before with
  | nil => exact ⟨before, rfl, hknown, hkeys, fun _ _ => rfl⟩
  | cons v vars ih =>
    obtain ⟨name, value⟩ := v
    rw [List.forall_mem_cons] at hvars
    obtain ⟨hnew, hrest⟩ := List.nodup_cons.mp hnodup
    obtain hforeign | ⟨t, ht, field, hfield, hname, hvalue⟩ := hvars.1
    · obtain ⟨fields, hfields⟩ := ih hvars.2 hrest hknown hkeys
      refine ⟨fields, hfields.skip (fun field _ hname => ?_) (readInto_foreign hs hforeign value _)⟩
      exact hforeign (hname ▸ prefix_nameOf s.1 field)
    · obtain rfl : name = nameOf t.1 field := hname
      by_cases hts : t = s
      · subst hts
        obtain ⟨w, hw⟩ := Option.isSome_iff_exists.mp hvalue
        have hput : ∀ k ∈ (before.put field w).keys, k ∈ t.2.1 := fun k hk =>
          ((Keyed.mem_keys_put _ _ _ _).mp hk).elim (hknown k) fun hk => hk ▸ hfield
        obtain ⟨fields, hfields⟩ := ih hvars.2 hrest hput (Keyed.nodup_keys_put field w hkeys)
        exact ⟨fields, hfields.take hs hfield hw hnew⟩
      · obtain ⟨fields, hfields⟩ := ih hvars.2 hrest hknown hkeys
        refine ⟨fields, hfields.skip (fun other hother hname => ?_)
          (readInto_other hs ht hts hfield value _)⟩
        exact hts (nameOf_inj ht hs hfield hother hname).1

lemma Understood.ne_variable {name value : String} (h : Understood name value) (hs : s ∈ sections) :
    name ≠ Naming.variable_ {} s.1 := by
  rintro rfl
  obtain hforeign | ⟨t, ht, field, hfield, hname, -⟩ := h
  · have hbegins : ∀ s ∈ sections, "rizz__".toList <+: (Naming.variable_ {} s.1).toList := by
      decide +kernel
    exact hforeign (hbegins s hs)
  · have hdistinct : ∀ s ∈ sections, ∀ t ∈ sections, ∀ field ∈ t.2.1,
        Naming.variable_ {} s.1 ≠ nameOf t.1 field := by decide +kernel
    exact hdistinct s hs t ht field hfield hname

lemma find?_sameName (hs : s ∈ sections) (hfield : field ∈ s.2.1) :
    s.2.1.find? (Layer.sameName field) = some field := by
  have hfind : ∀ s ∈ sections, ∀ field ∈ s.2.1,
      s.2.1.find? (Layer.sameName field) = some field := by decide +kernel
  exact hfind s hs field hfield

lemma foldl_put_ofKeyed (hs : s ∈ sections) {renamed fields : Keyed Value}
    (hknown : ∀ k ∈ fields.keys, k ∈ s.2.1) (hnodup : (renamed.keys ++ fields.keys).Nodup) :
    (ofKeyed fields).foldl (fun renamed e => Value.put (fieldKey s.2.1 e.1) e.2 renamed)
      (ofKeyed renamed) = ofKeyed (renamed ++ fields) := by
  induction fields generalizing renamed with
  | nil =>
    rw [List.append_nil]
    rfl
  | cons e fields ih =>
    have hfresh : e.1 ∉ renamed.keys := fun hmem =>
      List.disjoint_of_nodup_append hnodup hmem List.mem_cons_self
    have hput : Value.put (.text e.1) e.2 (ofKeyed renamed) = ofKeyed (renamed ++ [e]) := by
      rw [Value.put_ofKeyed, Keyed.put_of_notMem _ _ _ hfresh]
    have hkeys : (Keyed.keys (renamed ++ [e]) ++ Keyed.keys fields).Nodup := by
      rwa [Keyed.keys, List.map_append, List.append_assoc]
    change (ofKeyed fields).foldl _
      (Value.put (fieldKey s.2.1 (.text e.1)) e.2 (ofKeyed renamed)) = _
    rw [fieldKey, find?_sameName hs (hknown e.1 List.mem_cons_self), Option.getD_some, hput,
      ih (fun k hk => hknown k (List.mem_cons_of_mem _ hk)) hkeys, List.append_assoc,
      List.singleton_append]

lemma withFieldNames_ofKeyed (hs : s ∈ sections) {fields : Keyed Value}
    (hknown : ∀ k ∈ fields.keys, k ∈ s.2.1) (hnodup : fields.keys.Nodup) :
    withFieldNames s.2.1 (ofKeyed fields) = ofKeyed fields := by
  change (ofKeyed fields).foldl _ (ofKeyed []) = ofKeyed ([] ++ fields)
  exact foldl_put_ofKeyed hs hknown hnodup

lemma exists_sectionValue (hs : s ∈ sections) {vars : Environment}
    (hvars : ∀ v ∈ vars, Understood v.1 v.2) (hnodup : (Keyed.keys vars).Nodup) :
    ∃ fields, Gathered s vars [] fields ∧ sectionValue? {} s.1 s.2.1 s.2.2 vars =
      some (if fields.isEmpty then none else some (.map (ofKeyed fields))) := by
  obtain ⟨fields, hfields⟩ : ∃ fields, Gathered s vars [] fields :=
    exists_gathered hs hvars hnodup (List.forall_mem_nil _) List.nodup_nil
  have hwhole : Keyed.get? vars (Naming.variable_ {} s.1) = none := by
    refine Keyed.get?_eq_none_iff.mpr fun hmem => ?_
    obtain ⟨v, hv, hname⟩ := List.mem_map.mp hmem
    exact (hvars v hv).ne_variable hs hname
  have hgathered : fields? {} s.1 s.2.2 vars = some (ofKeyed fields) :=
    (if_neg (by decide)).trans hfields.fold
  have hnames := withFieldNames_ofKeyed hs hfields.known hfields.nodup
  refine ⟨fields, hfields, ?_⟩
  rw [sectionValue?, hwhole, hgathered]
  change some (if (ofKeyed fields).isEmpty then none
    else some (Value.map (withFieldNames s.2.1 (ofKeyed fields)))) = _
  rw [hnames, ofKeyed, List.isEmpty_map]

end Step

def section? (vars : Environment) (name : String) : Option Value :=
  (sections.lookup name).bind fun s => (sectionValue? {} name s.1 s.2 vars).join

lemma Regular.exists_section {env : Environment} (h : env.Regular)
    {s : String × List String × List String} (hs : s ∈ sections)
    (hplain : ∀ field ∈ s.2.1, ∀ v ∈ env.given? s.1 field, v.Plain) :
    (∃ v, sectionValue? {} s.1 s.2.1 s.2.2 (env.visible {}) = some v) ∧
      IsSection s.2.1 (section? (env.visible {}) s.1) ∧
      ∀ field ∈ s.2.1,
        (section? (env.visible {}) s.1).bind (Value.field? field) = env.given? s.1 field := by
  obtain ⟨fields, hfields, hvalue⟩ := exists_sectionValue hs h.visible (nodup_visible env)
  have hlookup : ∀ s ∈ sections, sections.lookup s.1 = some s.2 := by decide +kernel
  have hsection : section? (env.visible {}) s.1 =
      if fields.isEmpty then none else some (.map (ofKeyed fields)) := by
    rw [Environment.section?, hlookup s hs, Option.bind_some, hvalue]
    rfl
  have hget : ∀ field ∈ s.2.1, fields.get? field = env.given? s.1 field := fun field hfield => by
    rw [hfields.get? field hfield, get?_visible, given?, Keyed.get?]
    cases latest (fun v => Text.lowercase v.1) (nameOf s.1 field) env <;> simp
  rw [hsection]
  refine ⟨⟨_, hvalue⟩, ?_, fun field hfield => ?_⟩
  · cases fields with
    | nil => rintro _ ⟨⟩
    | cons e rest =>
      rintro _ ⟨⟩
      refine ⟨_, rfl, hfields.known, hfields.nodup, fun d hd => ?_⟩
      have hmem : d.1 ∈ s.2.1 := hfields.known _ (List.mem_map_of_mem hd)
      refine hplain d.1 hmem d.2 ?_
      rw [← hget d.1 hmem]
      exact Keyed.get?_of_mem hfields.nodup hd
  · rw [← hget field hfield]
    cases fields with
    | nil => rfl
    | cons e rest => exact Value.find?_ofKeyed field (e :: rest)

lemma mapM_eq_ok {ε α β : Type} {f : α → Except ε β} {g : α → β} {items : List α}
    (h : ∀ a ∈ items, f a = .ok (g a)) : items.mapM f = .ok (items.map g) := by
  induction items with
  | nil => rfl
  | cons a items ih =>
    rw [List.forall_mem_cons] at h
    rw [List.mapM_cons, h.1, ih h.2]
    rfl

lemma layer_eq {env : Environment} (h : ∀ s ∈ sections, ∃ v,
    sectionValue? {} s.1 s.2.1 s.2.2 (env.visible {}) = some v) :
    env.layer {} =
      .ok (ofKeyed (Keyed.ofNames Settings.fieldNames (section? (env.visible {})))) := by
  have hsections : ∀ s ∈ sections, sections.lookup s.1 = some s.2 := by decide +kernel
  rw [layer, mapM_eq_ok (g := fun s =>
    (section? (env.visible {}) s.1).map fun v => (Value.text s.1, v))]
  · refine congrArg Except.ok ?_
    change _ = ofKeyed (Keyed.ofNames (sections.map (·.1)) (section? (env.visible {})))
    rw [ofKeyed, Keyed.ofNames, List.filterMap_map, List.filterMap_map, List.map_filterMap]
    simp [Function.comp_def]
  · intro s hs
    obtain ⟨v, hv⟩ := h s hs
    simp only [section?, hsections s hs, Option.bind_some, hv, Option.join_some]

end Environment

end Tablewright
