import Mathlib.Data.List.Forall2
import Tablewright.Proofs.Outcome
import Tablewright.Proofs.Statement.Assigned
import Tablewright.Rows.Model

namespace Tablewright

open Model (given accept acceptField acceptFields)

variable {f : Field Model} {row row' : List (String × Value)} {v d : Value}

namespace Field

def take (f : Field Model) (v : Value) : Except (List Issue) Value :=
  if f.optional && v matches .null then .ok .null
  else match f.type with
    | .scalar s => (s.accept v).mapError fun m => [⟨[f.inputName], m.kind, m.reason, v⟩]
    | .model m =>
      match v with
      | .record name fields =>
        if name = m.name then .ok (.record name fields)
        else .error [Model.misplaced m.name f.inputName v]
      | v =>
        match Model.entriesOf v with
        | none => .error [Model.misplaced m.name f.inputName v]
        | some row => (accept m row).mapError fun issues =>
          issues.map fun i => { i with place := f.inputName :: i.place }

lemma take_null (h : f.optional = true) : f.take .null = .ok .null := by simp [take, h]

lemma take_scalar {s : Scalar} (htype : f.type = .scalar s) (hnull : v ≠ .null)
    (hv : s.accept v = .ok v) : f.take v = .ok v := by
  have hread : (s.accept v).mapError (fun m => [⟨[f.inputName], m.kind, m.reason, v⟩]) =
      (.ok v : Except (List Issue) Value) := by
    rw [hv]
    rfl
  rw [take, Bool.and_false, if_neg Bool.false_ne_true, htype]
  · exact hread
  · exact hnull

lemma take_record {m : Model} (htype : f.type = .model m) (fields : List (String × Value)) :
    f.take (.record m.name fields) = .ok (.record m.name fields) := by
  simp [take, htype]

lemma exists_two (h : f.part? = none) :
    ∃ v w, v ≠ w ∧ f.take v = .ok v ∧ f.take w = .ok w := by
  cases htype : f.type with
  | scalar s =>
    have htwo : ∃ v w : Value, v ≠ w ∧ (v ≠ .null ∧ s.accept v = .ok v) ∧
        (w ≠ .null ∧ s.accept w = .ok w) := by
      cases s with
      | whole => exact ⟨.int 0, .int 1, by simp, ⟨nofun, rfl⟩, ⟨nofun, rfl⟩⟩
      | real => exact ⟨.real ⟨0⟩, .real ⟨1⟩, by simp, ⟨nofun, rfl⟩, ⟨nofun, rfl⟩⟩
      | text => exact ⟨.text "", .text "a", by simp, ⟨nofun, rfl⟩, ⟨nofun, rfl⟩⟩
      | truth => exact ⟨.bool false, .bool true, by simp, ⟨nofun, rfl⟩, ⟨nofun, rfl⟩⟩
      | bytes => exact ⟨.blob [], .blob [0], by simp, ⟨nofun, rfl⟩, ⟨nofun, rfl⟩⟩
      | anything => exact ⟨.int 0, .int 1, by simp, ⟨nofun, rfl⟩, ⟨nofun, rfl⟩⟩
    obtain ⟨v, w, hne, hv, hw⟩ := htwo
    exact ⟨v, w, hne, take_scalar htype hv.1 hv.2, take_scalar htype hw.1 hw.2⟩
  | model m =>
    have hoptional : f.optional = true := by
      rw [part?, htype] at h
      simpa using h
    exact ⟨.null, .record m.name [], nofun, take_null hoptional, take_record htype []⟩

end Field

structure FilledField where
  field : Field Model
  value : Value
  dumped : Value
  given : Bool
  sound : field.take dumped = .ok value ∨ field.fallback = some value ∧ dumped = value

namespace Model

structure Filled (m : Model) where
  fields : List FilledField
  ofModel : fields.map (·.field) = m.fields

namespace Filled

variable {m : Model} (o : m.Filled)

def dumped : Instance := ⟨o.fields.map fun p => (p.field.name, p.dumped, p.given)⟩

def record : Value := .record m.name (o.fields.map fun p => (p.field.name, p.value))

end Filled

lemma given_eq (key : String) (row : List (String × Value)) :
    given key row = (latest (·.1) key row).map (·.2) := by
  rw [given, latest]
  induction row.reverse with
  | nil => rfl
  | cons e row ih =>
    obtain ⟨k, v⟩ := e
    by_cases h : k = key
    · simp [h]
    · rw [List.lookup_cons, beq_false_of_ne (Ne.symm h), List.find?_cons_of_neg (by simpa using h),
        ih]

lemma acceptField_eq (f : Field Model) (row : List (String × Value)) :
    acceptField f row = match given f.inputName row, f.fallback with
      | none, some v => .ok v
      | none, none =>
        .error [⟨[f.inputName], "missing", "Field required",
          Value.map (row.map fun e => (.text e.1, e.2))⟩]
      | some v, _ => f.take v := by
  obtain ⟨name, type, optional, keyName, fallback⟩ := f
  cases type with
  | scalar s => rfl
  | model m => rfl

lemma acceptField_of_given (h : given f.inputName row = some d) : acceptField f row = f.take d := by
  rw [acceptField_eq, h]

lemma acceptField_congr (h : given f.inputName row = given f.inputName row')
    (hv : acceptField f row = .ok v) : acceptField f row' = .ok v := by
  rw [acceptField_eq] at hv ⊢
  rw [← h]
  cases hgiven : given f.inputName row with
  | some d =>
    rw [hgiven] at hv
    exact hv
  | none =>
    rw [hgiven] at hv
    cases hfallback : f.fallback with
    | some w =>
      rw [hfallback] at hv
      exact hv
    | none =>
      rw [hfallback] at hv
      cases hv

lemma length_acceptFields (fs : List (Field Model)) (row : List (String × Value)) :
    (acceptFields fs row).1.length ≤ fs.length := by
  induction fs with
  | nil => exact Nat.le_refl 0
  | cons f fs ih =>
    rw [acceptFields]
    cases acceptField f row with
    | ok v => exact Nat.succ_le_succ ih
    | error issues => exact Nat.le_succ_of_le ih

lemma acceptFields_eq_iff {ps : List FilledField} :
    acceptFields (ps.map (·.field)) row = (ps.map fun p => (p.field.name, p.value), []) ↔
      ∀ p ∈ ps, acceptField p.field row = .ok p.value := by
  induction ps with
  | nil => exact iff_of_true rfl (List.forall_mem_nil _)
  | cons p ps ih =>
    rw [List.forall_mem_cons, ← ih, List.map_cons, List.map_cons, acceptFields]
    cases acceptField p.field row with
    | ok v => simp [Prod.ext_iff, and_assoc]
    | error issues =>
      refine ⟨fun h => ?_, fun h => nomatch h.1⟩
      -- the field is missing from what was accepted
      have hlength := congrArg (fun r => r.1.length) h
      have hle := length_acceptFields (ps.map (·.field)) row
      simp only [List.length_map, List.length_cons] at hlength hle
      omega

lemma accept_eq_record_iff {m : Model} {o : m.Filled} :
    m.accept row = .ok o.record ↔ ∀ p ∈ o.fields, acceptField p.field row = .ok p.value := by
  rw [← acceptFields_eq_iff, o.ofModel, Filled.record]
  obtain ⟨number, name, binding, fields⟩ := m
  rw [accept, Model.fields, Model.name]
  rcases acceptFields fields row with ⟨values, _ | ⟨issue, issues⟩⟩
  · simp
  · simp

end Model

section Accepting

variable {m : Model} {fs : List (Field Model)} {entries held : List (String × Value)}
  {issues : List Issue}

lemma Model.ne_nil_of_accept (h : m.accept entries = .error issues) : issues ≠ [] := by
  obtain ⟨number, name, binding, fields⟩ := m
  rw [accept] at h
  generalize acceptFields fields entries = accepted at h
  rcases accepted with ⟨held, _ | ⟨issue, others⟩⟩
  · cases h
  · rw [← Except.error.inj h]
    exact List.cons_ne_nil issue others

lemma Field.ne_nil_of_take (h : f.take v = .error issues) : issues ≠ [] := by
  rw [take.eq_def] at h
  obtain ⟨-, h⟩ | ⟨-, h⟩ := ite_eq_iff.mp h
  · cases h
  cases htype : f.type with
  | scalar s =>
    simp only [htype] at h
    obtain ⟨misfit, -, rfl⟩ := mapError_eq_error_iff.mp h
    exact List.cons_ne_nil _ _
  | model m =>
    simp only [htype] at h
    split at h
    · split at h
      · cases h
      · rw [← Except.error.inj h]
        exact List.cons_ne_nil _ _
    · split at h
      · rw [← Except.error.inj h]
        exact List.cons_ne_nil _ _
      · obtain ⟨inner, hinner, rfl⟩ := mapError_eq_error_iff.mp h
        exact mt List.map_eq_nil_iff.mp (Model.ne_nil_of_accept hinner)

lemma Model.ne_nil_of_acceptField (h : acceptField f entries = .error issues) : issues ≠ [] := by
  rw [acceptField_eq] at h
  split at h
  · cases h
  · rw [← Except.error.inj h]
    exact List.cons_ne_nil _ _
  · exact f.ne_nil_of_take h

lemma Model.acceptFields_eq_iff_forall₂ :
    acceptFields fs entries = (held, []) ↔
      ∃ values, List.Forall₂ (fun f v => acceptField f entries = .ok v) fs values ∧
        held = (fs.map (·.name)).zip values := by
  induction fs generalizing held with
  | nil => simp [acceptFields, eq_comm]
  | cons f fs ih =>
    simp only [acceptFields, List.forall₂_cons_left_iff]
    cases hf : acceptField f entries with
    | error here =>
      have hne := ne_nil_of_acceptField hf
      simp [hne]
    | ok v =>
      rw [Prod.mk.injEq]
      constructor
      · rintro ⟨rfl, hissues⟩
        obtain ⟨values, hvalues, hothers⟩ := ih.mp (Prod.ext rfl hissues)
        exact ⟨v :: values, ⟨v, values, rfl, hvalues, rfl⟩, congrArg ((f.name, v) :: ·) hothers⟩
      · rintro ⟨_, ⟨w, values, hw, hvalues, rfl⟩, rfl⟩
        obtain rfl := Except.ok.inj hw
        rw [ih.mpr ⟨values, hvalues, rfl⟩]
        exact ⟨rfl, rfl⟩

lemma Model.accept_eq_ok_iff :
    m.accept entries = .ok v ↔
      ∃ values, List.Forall₂ (fun f w => acceptField f entries = .ok w) m.fields values ∧
        v = .record m.name ((m.fields.map (·.name)).zip values) := by
  have haccept : m.accept entries = .ok v ↔ ∃ held,
      acceptFields m.fields entries = (held, []) ∧ v = .record m.name held := by
    obtain ⟨number, name, binding, fields⟩ := m
    rw [accept, Model.fields, Model.name]
    rcases acceptFields fields entries with ⟨held, _ | ⟨issue, issues⟩⟩
    · simp [eq_comm]
    · simp
  rw [haccept]
  constructor
  · rintro ⟨held, hheld, rfl⟩
    obtain ⟨values, hvalues, rfl⟩ := acceptFields_eq_iff_forall₂.mp hheld
    exact ⟨values, hvalues, rfl⟩
  · rintro ⟨values, hvalues, rfl⟩
    exact ⟨_, acceptFields_eq_iff_forall₂.mpr ⟨values, hvalues, rfl⟩, rfl⟩

end Accepting

end Tablewright
