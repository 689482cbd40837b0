import Mathlib.Data.List.Pairwise
import Tablewright.Proofs.Rows.Filled
import Tablewright.Proofs.Rows.Joined

/-! Instances of a model that are written to the table that the model stands for, and the rows that
come back. An instance is given out under the names of its fields, while each field looks for the
column of its key: what is written comes back if and only if the two agree. -/

namespace Tablewright

open Model (Filled given acceptField)

variable {m : Model} {t : Table} {s : PlainShape} {o : m.Filled}

def Carries (assigned : List Assignment) (columns : List String) (row : List Value) : Prop :=
  row.length = columns.length ∧ ∀ a ∈ assigned, ∀ (k : Nat) c, columns[k]? = some c →
    Text.fold c = Text.fold a.1.name → ∃ v, row[k]? = some v ∧ a.2 = .param { value := some v }

/-- An instance can be written, each column is assigned the value of the field that reads it and
nothing else, and any row with what was assigned is mapped onto the instance again. -/
def ComesBack (t : Table) (s : PlainShape) (o : m.Filled) : Prop :=
  ∃ w, Insert.values { table := t } (.model o.dumped) = .ok w ∧
    (∀ a, a ∈ w.assignments ↔ a.1 ∈ t.allColumns ∧ ∃ p ∈ s.fields.zip o.fields,
      Text.fold p.1.column = Text.fold a.1.name ∧ a.2 = .param { value := some p.2.dumped }) ∧
    ∀ columns row, (columns.map Text.fold).Perm t.foldedNames → Carries w.assignments columns row →
      ∃ r, (Shape.plain s).resolve columns = .ok r ∧ r.build row = .ok o.record

structure Model.LinesUp (m : Model) : Prop where
  nonempty : m.fields ≠ []
  keys : ∀ f ∈ m.fields, f.inputName = f.key ∧ Text.fold f.name = Text.fold f.key
  distinct : (m.fields.map fun f => Text.fold f.name).Nodup
  fallbacks : ∀ f ∈ m.fields, ∀ v, f.fallback = some v → f.take v = .ok v

structure PlainShape.Stands (s : PlainShape) (m : Model) (t : Table) : Prop where
  of : s.Of t
  model : s.model = m
  fields : s.fields = m.fields.map (·.mapping)
  distinct : t.foldedNames.Nodup

namespace Model.Filled

def last (o : m.Filled) (column : String) : Option FilledField :=
  latest (fun p => Text.fold p.field.name) (Text.fold column) o.fields

def keyed (o : m.Filled) : List (String × Value) := o.fields.map fun p => (p.field.key, p.dumped)

lemma last_congr {c d : String} (h : Text.fold c = Text.fold d) : o.last c = o.last d := by
  rw [last, last, h]

lemma mem_fields {p : FilledField} (hp : p ∈ o.fields) : p.field ∈ m.fields :=
  o.ofModel ▸ List.mem_map_of_mem hp

lemma mem_assigned {a : Assignment} : a ∈ o.dumped.assigned t ↔
    a.1 ∈ t.allColumns ∧
      ∃ p, o.last a.1.name = some p ∧ a.2 = .param { value := some p.dumped } := by
  have hlatest (c : String) : latestFor c o.dumped.fields =
      (o.last c).map fun p => (p.field.name, p.dumped, p.given) := latest_map _ o.fields
  simp only [Instance.assigned, List.mem_filterMap, hlatest, Option.map_map,
    Option.map_eq_some_iff]
  constructor
  · rintro ⟨c, hc, p, hp, rfl⟩
    exact ⟨hc, p, hp, rfl⟩
  · rintro ⟨ha, p, hp, hvalue⟩
    exact ⟨a.1, ha, p, hp, Prod.ext rfl hvalue.symm⟩

lemma given_keyed (hkeys : ∀ f ∈ m.fields, f.inputName = f.key ∧ Text.fold f.name = Text.fold f.key)
    (hdistinct : (m.fields.map fun f => Text.fold f.name).Nodup) {p : FilledField}
    (hp : p ∈ o.fields) : given p.field.inputName o.keyed = some p.dumped := by
  have hnodup : (o.fields.map fun p => p.field.key).Nodup := by
    have hfold : (o.fields.map fun p => Text.fold p.field.key).Nodup := by
      rw [← o.ofModel, List.map_map] at hdistinct
      rwa [List.map_congr_left fun p hp => (hkeys _ (mem_fields hp)).2.symm]
    have hmap : (o.fields.map fun p => p.field.key).map Text.fold =
        o.fields.map fun p => Text.fold p.field.key := List.map_map
    exact List.Nodup.of_map _ (hmap ▸ hfold)
  rw [Model.given_eq, (hkeys _ (mem_fields hp)).1, keyed, latest_map]
  exact congrArg (Option.map _) (congrArg (Option.map _) (latest_of_nodup hnodup hp))

end Model.Filled

namespace PlainShape.Stands

variable (hs : s.Stands m t)
include hs

lemma fields_eq (o : m.Filled) : s.fields = o.fields.map fun p => p.field.mapping := by
  rw [hs.fields, ← o.ofModel, List.map_map]
  rfl

lemma mem_zip_iff {p : FieldMapping × FilledField} :
    p ∈ s.fields.zip o.fields ↔ p.2 ∈ o.fields ∧ p.1 = p.2.field.mapping := by
  have hzip : s.fields.zip o.fields = o.fields.map fun p => (p.field.mapping, p) := by
    calc s.fields.zip o.fields
        = (o.fields.map fun p => p.field.mapping).zip (o.fields.map id) := by
          rw [hs.fields_eq o, List.map_id]
      _ = o.fields.map fun p => (p.field.mapping, p) := List.zip_map'
  rw [hzip, List.mem_map]
  constructor
  · rintro ⟨q, hq, rfl⟩
    exact ⟨hq, rfl⟩
  · rintro ⟨hp, hmapping⟩
    exact ⟨p.2, hp, Prod.ext hmapping.symm rfl⟩

lemma exists_column {f : Field Model} (hf : f ∈ m.fields) :
    ∃ c ∈ t.columns, Text.fold c.name = Text.fold f.key := by
  have hmapping : f.mapping ∈ s.fields := hs.fields ▸ List.mem_map_of_mem hf
  have hname : Text.fold f.key ∈ t.foldedNames := hs.of.columns f.mapping hmapping
  rwa [Table.mem_foldedNames_iff, t.column?_isSome_iff] at hname

lemma exists_resolved {assigned : List Assignment} {columns : List String} {row : List Value}
    (hcolumns : (columns.map Text.fold).Perm t.foldedNames) (hrow : Carries assigned columns row)
    (hassigned : ∀ p ∈ o.fields, ∃ c, Text.fold c.name = Text.fold p.field.key ∧
      (c, Supply.param { value := some p.dumped }) ∈ assigned) :
    ∃ r, (Shape.plain s).resolve columns = .ok r ∧
      (r.build row = .ok o.record ↔ ∀ p ∈ o.fields, acceptField p.field o.keyed = .ok p.value) := by
  obtain ⟨hlength, hcarries⟩ := hrow
  have hplaced : ∀ p ∈ o.fields, row[0 + place columns p.field.key]? = some p.dumped := by
    intro p hp
    obtain ⟨c, hc, ha⟩ := hassigned p hp
    have hname : Text.fold p.field.key ∈ columns.map Text.fold := by
      obtain ⟨d, hd, hfold⟩ := hs.exists_column (Filled.mem_fields hp)
      rw [hcolumns.mem_iff, ← hfold]
      exact List.mem_map_of_mem (List.mem_map_of_mem hd)
    obtain ⟨d, hd, hfold⟩ := getElem?_place hname
    obtain ⟨v, hv, hsame⟩ := hcarries _ ha _ d hd (hfold.trans hc.symm)
    obtain rfl : p.dumped = v := by simpa using hsame
    rwa [Nat.zero_add]
  have hfields := hs.fields_eq o
  have hpicks : PlainShape.pickAll row
      (s.fields.map fun f => (f.column, 0 + place columns f.column)) = .ok o.keyed := by
    rw [pickAll_eq (n := (0 + place columns ·))]
    · rw [hfields, List.map_map]
      refine congrArg Except.ok (List.map_congr_left fun p hp => ?_)
      exact congrArg (p.field.key, ·) (congrArg (·.getD Value.null) (hplaced p hp))
    · rw [hfields, List.forall_mem_map]
      exact fun p hp => (List.getElem?_eq_some_iff.mp (hplaced p hp)).1
  have hresolve : s.resolve columns 0 = _ := hs.of.resolve_of_perm hcolumns hs.distinct
  refine ⟨.plain s _, by rw [Shape.resolve, hresolve]; rfl, ?_⟩
  rw [← Model.accept_eq_record_iff, Resolved.build, PlainShape.buildRow, hpicks, hs.model]
  exact mapError_eq_ok_iff

end PlainShape.Stands

namespace Model.Filled

def row (t : Table) (o : m.Filled) : List Value :=
  t.columns.map fun c => ((o.last c.name).map (·.dumped)).getD .null

lemma carries_row : Carries (o.dumped.assigned t) t.columnNames (o.row t) := by
  refine ⟨by rw [row, Table.columnNames, List.length_map, List.length_map], ?_⟩
  intro a ha k c hk hc
  obtain ⟨-, p, hp, hvalue⟩ := mem_assigned.mp ha
  rw [Table.columnNames, List.getElem?_map, Option.map_eq_some_iff] at hk
  obtain ⟨d, hd, rfl⟩ := hk
  refine ⟨p.dumped, ?_, hvalue⟩
  rw [row, List.getElem?_map, hd, Option.map_some, last_congr hc, hp]
  rfl

end Model.Filled

namespace ComesBack

lemma of_stands (h : ComesBack t s o) (hs : s.Stands m t) : m.fields ≠ [] ∧
    (∀ p ∈ o.fields, ∃ q, o.last p.field.key = some q ∧ q.dumped = p.dumped) ∧
    ∀ p ∈ o.fields, acceptField p.field o.keyed = .ok p.value := by
  obtain ⟨w, hw, hassigned, hreturned⟩ := h
  have hdistinct : ({ table := t } : Insert).table.foldedNames.Nodup := hs.distinct
  obtain ⟨hfields, -, rfl⟩ := (values_model_eq_ok_iff hdistinct).mp hw
  have hmem : ∀ p ∈ o.fields, ∃ c, Text.fold c.name = Text.fold p.field.key ∧
      (c, Supply.param { value := some p.dumped }) ∈ o.dumped.assigned t := by
    intro p hp
    obtain ⟨c, hc, hfold⟩ := hs.exists_column (Filled.mem_fields hp)
    refine ⟨t.column c, hfold, (hassigned _).mpr ⟨List.mem_map_of_mem hc, ?_⟩⟩
    exact ⟨(p.field.mapping, p), hs.mem_zip_iff.mpr ⟨hp, rfl⟩, hfold.symm, rfl⟩
  refine ⟨fun hnil => hfields ?_, fun p hp => ?_, ?_⟩
  · have hempty : o.fields = [] := List.map_eq_nil_iff.mp (o.ofModel.trans hnil)
    rw [Filled.dumped, hempty, List.map_nil]
  · obtain ⟨c, hfold, ha⟩ := hmem p hp
    obtain ⟨-, q, hq, hvalue⟩ := Filled.mem_assigned.mp ha
    have hdumped : p.dumped = q.dumped := by simpa using hvalue
    exact ⟨q, (Filled.last_congr hfold.symm).trans hq, hdumped.symm⟩
  · obtain ⟨r, hr, hbuild⟩ := hs.exists_resolved (List.Perm.refl _) Filled.carries_row hmem
    obtain ⟨r', hr', hback⟩ := hreturned t.columnNames _ (List.Perm.refl _) Filled.carries_row
    obtain rfl := Except.ok.inj (hr.symm.trans hr')
    exact hbuild.mp hback

end ComesBack

namespace Model.LinesUp

variable (h : m.LinesUp)
include h

lemma last_key {p : FilledField} (hp : p ∈ o.fields) : o.last p.field.key = some p := by
  have hdistinct := h.distinct
  rw [← o.ofModel, List.map_map] at hdistinct
  rw [← Filled.last_congr (h.keys _ (Filled.mem_fields hp)).2]
  exact latest_of_nodup hdistinct hp

lemma accepts {p : FilledField} (hp : p ∈ o.fields) :
    acceptField p.field o.keyed = .ok p.value := by
  rw [acceptField_of_given (Filled.given_keyed h.keys h.distinct hp)]
  obtain hread | ⟨hfallback, hdumped⟩ := p.sound
  · exact hread
  · rw [hdumped]
    exact h.fallbacks _ (Filled.mem_fields hp) _ hfallback

lemma comesBack (hs : s.Stands m t) (o : m.Filled) : ComesBack t s o := by
  have hdistinct : ({ table := t } : Insert).table.foldedNames.Nodup := hs.distinct
  have hw : Insert.values { table := t } (.model o.dumped) =
      .ok { table := t, assignments := o.dumped.assigned t } := by
    refine (values_model_eq_ok_iff hdistinct).mpr ⟨fun hnil => h.nonempty ?_, ?_, rfl⟩
    · rw [← o.ofModel, List.map_eq_nil_iff.mp hnil, List.map_nil]
    · refine List.forall_mem_map.mpr fun p hp => ?_
      obtain ⟨c, hc, hfold⟩ := hs.exists_column (Filled.mem_fields hp)
      refine (t.column?_isSome_iff _).mpr ⟨c, hc, hfold.trans ?_⟩
      exact (h.keys _ (Filled.mem_fields hp)).2.symm
  refine ⟨_, hw, fun a => ?_, fun columns row hcolumns hrow => ?_⟩
  · rw [Filled.mem_assigned]
    refine and_congr_right fun _ => ⟨?_, ?_⟩
    · rintro ⟨p, hp, hvalue⟩
      obtain ⟨hmem, hname⟩ := latest_eq_some hp
      refine ⟨(p.field.mapping, p), hs.mem_zip_iff.mpr ⟨hmem, rfl⟩, ?_, hvalue⟩
      exact (h.keys _ (Filled.mem_fields hmem)).2.symm.trans hname
    · rintro ⟨⟨mapping, p⟩, hp, hfold, hvalue⟩
      obtain ⟨hmem, hmapping⟩ := hs.mem_zip_iff.mp hp
      obtain rfl : mapping = p.field.mapping := hmapping
      exact ⟨p, (Filled.last_congr hfold).symm.trans (h.last_key hmem), hvalue⟩
  · have hmem : ∀ p ∈ o.fields, ∃ c, Text.fold c.name = Text.fold p.field.key ∧
        (c, Supply.param { value := some p.dumped }) ∈ o.dumped.assigned t := by
      intro p hp
      obtain ⟨c, hc, hfold⟩ := hs.exists_column (Filled.mem_fields hp)
      refine ⟨t.column c, hfold, Filled.mem_assigned.mpr ⟨List.mem_map_of_mem hc, p, ?_, rfl⟩⟩
      exact (Filled.last_congr hfold).trans (h.last_key hp)
    obtain ⟨r, hr, hbuild⟩ := hs.exists_resolved hcolumns hrow hmem
    exact ⟨r, hr, hbuild.mpr fun p hp => h.accepts hp⟩

end Model.LinesUp

lemma exists_filled {fs : List (Field Model)} (h : ∀ f ∈ fs, f.part? = none) :
    ∃ ps : List FilledField, ps.map (·.field) = fs := by
  induction fs with
  | nil => exact ⟨[], rfl⟩
  | cons f fs ih =>
    rw [List.forall_mem_cons] at h
    obtain ⟨v, -, -, hv, -⟩ := Field.exists_two h.1
    obtain ⟨ps, hps⟩ := ih h.2
    exact ⟨⟨f, v, v, true, .inl hv⟩ :: ps, by rw [List.map_cons, hps]⟩

section Around

variable {front back : List (Field Model)} {f : Field Model}

lemma exists_around (hplain : ∀ g ∈ m.fields, g.part? = none)
    (hfields : m.fields = front ++ f :: back) :
    ∃ A B : List FilledField, B.map (·.field) = back ∧
      ∀ p : FilledField, p.field = f → (A ++ p :: B).map (·.field) = m.fields := by
  obtain ⟨A, hA⟩ := exists_filled fun g hg =>
    hplain g (hfields ▸ List.mem_append_left (f :: back) hg)
  obtain ⟨B, hB⟩ := exists_filled fun g hg =>
    hplain g (hfields ▸ List.mem_append_right front (List.mem_cons_of_mem f hg))
  refine ⟨A, B, hB, fun p hp => ?_⟩
  rw [List.map_append, List.map_cons, hA, hB, hp, hfields]

lemma exists_two_fillings (hplain : ∀ g ∈ m.fields, g.part? = none)
    (hfields : m.fields = front ++ f :: back) :
    ∃ (A B : List FilledField) (o o' : m.Filled) (p q : FilledField),
      o.fields = A ++ p :: B ∧ o'.fields = A ++ q :: B ∧ p.field = f ∧ q.field = f ∧
        B.map (·.field) = back ∧ p.dumped ≠ q.dumped ∧ p.value ≠ q.value := by
  obtain ⟨A, B, hB, hall⟩ := exists_around hplain hfields
  have hf : f ∈ m.fields := hfields ▸ List.mem_append_right _ List.mem_cons_self
  obtain ⟨v, w, hne, hv, hw⟩ := Field.exists_two (hplain f hf)
  exact ⟨A, B, ⟨_, hall ⟨f, v, v, true, .inl hv⟩ rfl⟩, ⟨_, hall ⟨f, w, w, true, .inl hw⟩ rfl⟩, _, _,
    rfl, rfl, rfl, rfl, hB, hne, hne⟩

variable (hs : s.Stands m t) (hplain : ∀ f ∈ m.fields, f.part? = none)
  (h : ∀ o : m.Filled, ComesBack t s o)
include hs hplain h

lemma fold_name_eq (hfields : m.fields = front ++ f :: back) :
    Text.fold f.name = Text.fold f.key ∧ ∀ g ∈ back, Text.fold f.name ≠ Text.fold g.name := by
  obtain ⟨A, B, o, o', p, q, ho, ho', hp, hq, hB, hdumped, -⟩ := exists_two_fillings hplain hfields
  obtain ⟨-, hlast, -⟩ := (h o).of_stands hs
  obtain ⟨-, hlast', -⟩ := (h o').of_stands hs
  obtain ⟨r, hr, hrp⟩ := hlast p (ho ▸ List.mem_append_right A List.mem_cons_self)
  obtain ⟨r', hr', hrq⟩ := hlast' q (ho' ▸ List.mem_append_right A List.mem_cons_self)
  rw [Filled.last, ho, latest_append_cons, hp] at hr
  rw [Filled.last, ho', latest_append_cons, hq] at hr'
  have hne : r ≠ r' := by
    rintro rfl
    exact hdumped (hrp.symm.trans hrq)
  -- neither what stands behind the field nor what stands before it tells the two instances apart
  cases hback : latest (fun p => Text.fold p.field.name) (Text.fold f.key) B with
  | some b =>
    rw [hback, Option.some_or] at hr hr'
    exact absurd (Option.some.inj (hr.symm.trans hr')) hne
  | none =>
    by_cases hname : Text.fold f.name = Text.fold f.key
    · refine ⟨hname, fun g hg hsame => ?_⟩
      obtain ⟨b, hb, rfl⟩ := List.mem_map.mp (hB ▸ hg)
      have hsome : (latest (fun p => Text.fold p.field.name) (Text.fold f.key) B).isSome :=
        latest_isSome_iff.mpr ⟨b, hb, hsame.symm.trans hname⟩
      rw [hback] at hsome
      cases hsome
    · rw [hback, Option.none_or, if_neg hname] at hr hr'
      exact absurd (Option.some.inj (hr.symm.trans hr')) hne

lemma inputName_eq_key (hfields : m.fields = front ++ f :: back) : f.inputName = f.key := by
  obtain ⟨A, B, o, o', p, q, ho, ho', hp, hq, -, -, hvalue⟩ := exists_two_fillings hplain hfields
  obtain ⟨-, -, haccept⟩ := (h o).of_stands hs
  obtain ⟨-, -, haccept'⟩ := (h o').of_stands hs
  have hfound := haccept p (ho ▸ List.mem_append_right A List.mem_cons_self)
  have hfound' := haccept' q (ho' ▸ List.mem_append_right A List.mem_cons_self)
  rw [hp] at hfound
  rw [hq] at hfound'
  by_contra hne
  have hsame : given f.inputName o.keyed = given f.inputName o'.keyed := by
    simp only [Model.given_eq, Filled.keyed, ho, ho', List.map_append, List.map_cons,
      latest_append_cons, hp, hq, if_neg (Ne.symm hne)]
  exact hvalue (Except.ok.inj ((Model.acceptField_congr hsame hfound).symm.trans hfound'))

lemma distinct_names : (m.fields.map fun f => Text.fold f.name).Nodup := by
  rw [List.Nodup, List.pairwise_map, List.pairwise_iff_forall_sublist]
  intro f g hsub
  obtain ⟨r₁, r₂, hfields, hf, hg⟩ := List.cons_sublist_iff.mp hsub
  obtain ⟨front, middle, rfl⟩ := List.append_of_mem hf
  rw [List.append_assoc, List.cons_append] at hfields
  exact (fold_name_eq hs hplain h hfields).2 g
    (List.mem_append_right middle (List.singleton_sublist.mp hg))

lemma linesUp_of_comesBack : m.LinesUp := by
  have hkeys : ∀ f ∈ m.fields, f.inputName = f.key ∧ Text.fold f.name = Text.fold f.key := by
    intro f hf
    obtain ⟨front, back, hfields⟩ := List.append_of_mem hf
    exact ⟨inputName_eq_key hs hplain h hfields, (fold_name_eq hs hplain h hfields).1⟩
  have hdistinct := distinct_names hs hplain h
  refine ⟨?_, hkeys, hdistinct, fun f hf v hv => ?_⟩
  · obtain ⟨ps, hps⟩ := exists_filled hplain
    exact ((h ⟨ps, hps⟩).of_stands hs).1
  · obtain ⟨front, back, hfields⟩ := List.append_of_mem hf
    obtain ⟨A, B, -, hall⟩ := exists_around hplain hfields
    let p : FilledField := ⟨f, v, v, false, .inr ⟨hv, rfl⟩⟩
    let o : m.Filled := ⟨A ++ p :: B, hall p rfl⟩
    have hp : p ∈ o.fields := List.mem_append_right A List.mem_cons_self
    have haccept : acceptField f o.keyed = .ok v := ((h o).of_stands hs).2.2 p hp
    rwa [Model.acceptField_of_given (Filled.given_keyed hkeys hdistinct hp)] at haccept

end Around

/-- What instances write to the table that their model stands for comes back, whatever they hold, if
and only if the fields of the model are found under the names that they are given out with. -/
theorem comesBack_iff_linesUp {tables : List Table} {indexes : List Index} {declared : Schema}
    {tasks : List RowTask} (hb : Schema.build tables indexes = .ok declared) (ht : t ∈ tables)
    (hapart : ToldApart (mentioned tasks m)) (hbound : m.binding = some t.name)
    (hanswer : answer declared tasks m = .ok (.plain s)) :
    (∀ o : m.Filled, ComesBack t s o) ↔ m.LinesUp := by
  obtain ⟨hc, rfl⟩ := Schema.build_eq_ok_iff.mp hb
  have hplain : analysePlain _ m = .ok s := fits_of_answer hapart hanswer
  have hof := hc.analysePlain_of ht hbound hplain
  obtain ⟨table, -, hfits, rfl⟩ := analysePlain_eq_ok_iff.mp hplain
  have hs : PlainShape.Stands _ m t := ⟨hof, rfl, rfl, hc.distinct_columns ht⟩
  exact ⟨linesUp_of_comesBack hs fun f hf => (hfits f hf).scalar, fun h o => h.comesBack hs o⟩

namespace Aliased

def key : Column := { name := "id", kind := .integer, primaryKey := true }

def body : Column := { name := "body", kind := .text }

def note : Table := ⟨"note", [key, body]⟩

def declared : Schema := .ofDescriptions [note] []

def model (name column : String) : Model := .mk 0 "Note" (some "note")
  [{ name := "id", type := .scalar .whole },
    { name, type := .scalar .text, keyName := some column }]

def shape (name column : String) : PlainShape :=
  ⟨model name column, [⟨"id", true⟩, ⟨column, true⟩], some note⟩

lemma toldApart (name column : String) : ToldApart (mentioned [] (model name column)) :=
  toldApart_of_nodup [model name column] (by simp) (List.Subset.refl _)

def filled (name column : String) : (model name column).Filled where
  fields :=
    [⟨{ name := "id", type := .scalar .whole }, .int 1, .int 1, true, .inl rfl⟩,
      ⟨{ name, type := .scalar .text, keyName := some column }, .text "x", .text "x", true,
        .inl rfl⟩]
  ofModel := rfl

end Aliased

open Aliased in
theorem comesBack_iff_linesUp_case : Schema.build [note] [] = .ok Aliased.declared ∧
    ToldApart (mentioned [] (model "Body" "body")) ∧
    (model "Body" "body").binding = some note.name ∧
    answer Aliased.declared [] (model "Body" "body") = .ok (.plain (Aliased.shape "Body" "body")) ∧
    ∀ o : (model "Body" "body").Filled, ComesBack note (Aliased.shape "Body" "body") o := by
  have hb : Schema.build [note] [] = .ok Aliased.declared := rfl
  have hanswer : answer Aliased.declared [] (model "Body" "body") =
      .ok (.plain (Aliased.shape "Body" "body")) := rfl
  have hlines : (model "Body" "body").LinesUp :=
    ⟨by simp [model, Model.fields], by decide, by decide, by simp [model, Model.fields]⟩
  exact ⟨hb, toldApart _ _, rfl, hanswer,
    (comesBack_iff_linesUp hb List.mem_cons_self (toldApart _ _) rfl hanswer).mpr hlines⟩

open Aliased in
/-- A field with another name than its column is read from the column, but cannot be written. -/
theorem values_of_aliased : Schema.build [note] [] = .ok Aliased.declared ∧
    (model "text" "body").binding = some note.name ∧
    answer Aliased.declared [] (model "text" "body") = .ok (.plain (Aliased.shape "text" "body")) ∧
    Insert.values { table := note } (.model (filled "text" "body").dumped) =
      .error (.build (.unknownColumn "note" "text")) ∧
    ¬ ComesBack note (Aliased.shape "text" "body") (filled "text" "body") := by
  have hw : Insert.values { table := note } (.model (filled "text" "body").dumped) =
      .error (.build (.unknownColumn "note" "text")) := rfl
  refine ⟨rfl, rfl, rfl, hw, fun ⟨w, hvalues, _⟩ => ?_⟩
  cases hw.symm.trans hvalues

end Tablewright
