import Mathlib.Data.List.Forall2
import Tablewright.Proofs.Outcome
import Tablewright.Rows.Shape

namespace Tablewright

variable {schema : Schema} {m : Model} {s : PlainShape}

structure Field.Fits (table : Option Table) (f : Field Model) : Prop where
  scalar : f.part? = none
  column : ∀ t ∈ table, (t.column? f.key).isSome

def Field.mapping (f : Field Model) : FieldMapping := ⟨f.key, f.required⟩

lemma mapField_eq_ok_iff {table : Option Table} {f : Field Model} {mapping : FieldMapping} :
    mapField m table f = .ok mapping ↔ f.Fits table ∧ mapping = f.mapping := by
  cases hpart : f.part? with
  | some p =>
    simp only [mapField, hpart, Option.isSome_some, if_true]
    exact ⟨nofun, fun h => absurd (hpart.symm.trans h.1.scalar) nofun⟩
  | none =>
    cases table with
    | none =>
      simp only [mapField, hpart, Option.isSome_none, Bool.false_eq_true, if_false]
      exact ⟨fun h => ⟨⟨hpart, nofun⟩, (Except.ok.inj h).symm⟩,
        fun h => congrArg Except.ok h.2.symm⟩
    | some t =>
      by_cases hcolumn : (t.column? f.key).isSome
      · simp only [mapField, hpart, Option.isSome_none, Bool.false_eq_true, if_false,
          if_pos hcolumn]
        refine ⟨fun h => ⟨⟨hpart, ?_⟩, (Except.ok.inj h).symm⟩,
          fun h => congrArg Except.ok h.2.symm⟩
        rintro _ ⟨⟩
        exact hcolumn
      · simp only [mapField, hpart, Option.isSome_none, Bool.false_eq_true, if_false,
          if_neg hcolumn]
        exact ⟨nofun, fun h => absurd (h.1.column t rfl) hcolumn⟩

lemma mapFields_eq_ok_iff {table : Option Table} {fs : List (Field Model)}
    {mappings : List FieldMapping} :
    mapFields m table fs = .ok mappings ↔
      (∀ f ∈ fs, f.Fits table) ∧ mappings = fs.map (·.mapping) := by
  induction fs generalizing mappings with
  | nil => simp [mapFields, eq_comm]
  | cons f fs ih =>
    simp only [mapFields, bind_eq_ok_iff, map_eq_ok_iff, mapField_eq_ok_iff, ih,
      List.forall_mem_cons, List.map_cons]
    constructor
    · rintro ⟨_, ⟨hf, rfl⟩, _, ⟨hfs, rfl⟩, rfl⟩
      exact ⟨⟨hf, hfs⟩, rfl⟩
    · rintro ⟨⟨hf, hfs⟩, rfl⟩
      exact ⟨_, ⟨hf, rfl⟩, _, ⟨hfs, rfl⟩, rfl⟩

lemma analysePlain_eq_ok_iff : analysePlain schema m = .ok s ↔
    ∃ table, boundTable schema m = .ok table ∧ (∀ f ∈ m.fields, f.Fits table) ∧
      s = ⟨m, m.fields.map (·.mapping), table⟩ := by
  simp only [analysePlain, bind_eq_ok_iff, map_eq_ok_iff, mapFields_eq_ok_iff]
  constructor
  · rintro ⟨table, htable, _, ⟨hfields, rfl⟩, rfl⟩
    exact ⟨table, htable, hfields, rfl⟩
  · rintro ⟨table, htable, hfields, rfl⟩
    exact ⟨table, htable, _, ⟨hfields, rfl⟩, rfl⟩

namespace Model

def flat (schema : Schema) (m : Model) : Bool := (analysePlain schema m).isOk

structure Composite (m : Model) : Prop where
  parts : modelParts m ≠ []
  all : (modelParts m).length = m.fields.length

def partModels (m : Model) : List Model := (modelParts m).map (·.2)

lemma flat_iff : m.flat schema = true ↔ ∃ s, analysePlain schema m = .ok s := by
  rw [flat]
  cases analysePlain schema m with
  | ok s => exact iff_of_true rfl ⟨s, rfl⟩
  | error e => exact iff_of_false nofun nofun

lemma Composite.fields_ne_nil (h : m.Composite) : m.fields ≠ [] := by
  intro hfields
  refine h.parts ?_
  rw [modelParts, hfields, List.filterMap_nil]

lemma flat_of_parts (h : modelParts m ≠ []) : m.flat schema = false := by
  rw [Bool.eq_false_iff]
  intro hflat
  obtain ⟨s, hs⟩ := flat_iff.mp hflat
  obtain ⟨table, -, hfields, -⟩ := analysePlain_eq_ok_iff.mp hs
  refine h (List.filterMap_eq_nil_iff.mpr fun f hf => ?_)
  rw [(hfields f hf).scalar, Option.map_none]

lemma Composite.flat_eq_false (h : m.Composite) : m.flat schema = false := flat_of_parts h.parts

end Model

def flatParts (schema : Schema) :
    List (String × Model) → Except ShapeError (List (String × PlainShape))
  | [] => .ok []
  | (key, m) :: rest =>
    (analysePlain schema m).bind fun s =>
      (flatParts schema rest).map fun others => (key, s) :: others

lemma flatParts_eq_ok_iff {parts : List (String × Model)} {shapes : List (String × PlainShape)} :
    flatParts schema parts = .ok shapes ↔ List.Forall₂ (fun (p : String × Model) s =>
      p.1 = s.1 ∧ analysePlain schema p.2 = .ok s.2) parts shapes := by
  induction parts generalizing shapes with
  | nil => simp [flatParts, eq_comm]
  | cons p parts ih =>
    obtain ⟨key, m⟩ := p
    simp only [flatParts, bind_eq_ok_iff, map_eq_ok_iff, ih]
    constructor
    · rintro ⟨s, hs, others, hothers, rfl⟩
      exact .cons ⟨rfl, hs⟩ hothers
    · rintro (_ | ⟨⟨hkey, hs⟩, hothers⟩)
      exact ⟨_, hs, _, hothers, congrArg (· :: _) (Prod.ext hkey rfl)⟩

def Shape.Fits (schema : Schema) (m : Model) : Shape → Prop
  | plain s => analysePlain schema m = .ok s
  | composite m' parts => m' = m ∧ m.Composite ∧ flatParts schema (modelParts m) = .ok parts

end Tablewright
