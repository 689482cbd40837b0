import Mathlib.Algebra.GroupWithZero.Nat
import Mathlib.Data.List.SplitLengths
import Tablewright.Proofs.Rows.Matched

namespace Tablewright

variable {m : Model} {s : PlainShape} {parts : List (String × PlainShape)} {columns : List String}
  {row row' : List Value}

def Shape.mapRow (shape : Shape) (columns : List String) (row : List Value) :
    Except Failure Value :=
  ((shape.resolve columns).mapError .shape).bind (·.build row)

structure Share where
  shape : PlainShape
  columns : List String
  row : List Value

def Share.value (p : Share) : Except Failure Value := (Shape.plain p.shape).mapRow p.columns p.row

def widths (parts : List (String × PlainShape)) : List Nat := parts.map (·.2.width)

def shares (parts : List (String × PlainShape)) (columns : List String) (row : List Value) :
    List Share :=
  List.zipWith3 (fun p cs vs => ⟨p.2, cs, vs⟩) parts ((widths parts).splitLengths columns)
    ((widths parts).splitLengths row)

lemma shares_nil : shares [] columns row = [] := rfl

lemma shares_cons (p : String × PlainShape) : shares (p :: parts) columns row =
    ⟨p.2, columns.take p.2.width, row.take p.2.width⟩ ::
      shares parts (columns.drop p.2.width) (row.drop p.2.width) := by
  simp only [shares, widths, List.map_cons, List.splitLengths_cons, List.zipWith3]

lemma length_shares : (shares parts columns row).length = parts.length := by
  induction parts generalizing columns row with
  | nil => rfl
  | cons p parts ih => rw [shares_cons, List.length_cons, List.length_cons, ih]

namespace PlainShape

variable {picks : List Pick} {offset : Nat}

lemma pickAll_congr (h : ∀ p ∈ picks, row[p.2]? = row'[p.2]?) :
    pickAll row picks = pickAll row' picks := by
  induction picks with
  | nil => rfl
  | cons p picks ih =>
    rw [List.forall_mem_cons] at h
    rw [pickAll, pickAll, h.1, ih h.2]

lemma pickAll_drop (row : List Value) (offset : Nat) (picks : List Pick) :
    pickAll row (picks.map fun p => (p.1, offset + p.2)) = pickAll (row.drop offset) picks := by
  induction picks with
  | nil => rfl
  | cons p picks ih => rw [List.map_cons, pickAll, pickAll, List.getElem?_drop, ih]

lemma picked_offset (columns : List String) (offset : Nat) (fs : List FieldMapping) :
    picked columns offset fs = (picked columns 0 fs).map fun p => (p.1, offset + p.2) := by
  rw [picked, picked, List.map_filterMap]
  refine List.filterMap_congr fun f _ => ?_
  split
  · rw [Option.map_some, Nat.zero_add]
  · rfl

lemma lt_of_mem_picked {fs : List FieldMapping} {p : Pick} (h : p ∈ picked columns 0 fs) :
    p.2 < columns.length := by
  obtain ⟨f, -, hf⟩ := List.mem_filterMap.mp h
  split at hf
  · next hcolumn =>
    obtain ⟨c, hc, -⟩ := getElem?_place hcolumn
    rw [← Option.some.inj hf, Nat.zero_add]
    exact (List.getElem?_eq_some_iff.mp hc).1
  · cases hf

lemma buildRow_offset (s : PlainShape) (columns : List String) (offset : Nat) (row : List Value) :
    s.buildRow (picked columns offset s.fields) row =
      s.buildRow (picked columns 0 s.fields) ((row.drop offset).take columns.length) := by
  have htake : pickAll (row.drop offset) (picked columns 0 s.fields) =
      pickAll ((row.drop offset).take columns.length) (picked columns 0 s.fields) :=
    pickAll_congr fun p hp => (List.getElem?_take_of_lt (lt_of_mem_picked hp)).symm
  rw [buildRow, buildRow, picked_offset, pickAll_drop, htake]

lemma mapRow_eq (s : PlainShape) (columns : List String) (row : List Value) :
    (Shape.plain s).mapRow columns row =
      match s.refusal? columns with
      | some e => .error (.shape e)
      | none => s.buildRow (picked columns 0 s.fields) row := by
  rw [Shape.mapRow, resolve_plain]
  cases s.refusal? columns <;> rfl

end PlainShape

lemma Share.value_eq_ok_iff {offset : Nat} {v : Value} :
    (⟨s, columns, (row.drop offset).take columns.length⟩ : Share).value = .ok v ↔
      ∃ picks, s.resolve columns offset = .ok picks ∧ s.buildRow picks row = .ok v := by
  rw [Share.value, PlainShape.mapRow_eq, PlainShape.resolve_eq, ← PlainShape.buildRow_offset]
  cases s.refusal? columns with
  | none => simp
  | some e => simp

lemma resolveParts_build_iff {offset : Nat} {entries : List (String × Value)}
    (hcolumns : columns.length = (widths parts).sum) :
    (∃ picked, resolveParts offset parts columns = .ok picked ∧
        buildParts row picked = .ok entries) ↔
      ∃ values, List.Forall₂ (fun p v => p.value = .ok v) (shares parts columns (row.drop offset))
        values ∧ entries = (parts.map (·.1)).zip values := by
  -- `offset` counts the columns that earlier parts took up
  induction parts generalizing offset columns entries with
  | nil => simp [resolveParts, buildParts, shares_nil, eq_comm]
  | cons p parts ih =>
    obtain ⟨key, s⟩ := p
    have hsum : columns.length = s.width + (widths parts).sum := hcolumns
    have htake : (columns.take s.width).length = s.width := List.length_take_of_le (by omega)
    have hdrop : (columns.drop s.width).length = (widths parts).sum := by
      rw [List.length_drop]
      omega
    have hhead {v : Value} : (⟨s, columns.take s.width, (row.drop offset).take s.width⟩ :
        Share).value = .ok v ↔
          ∃ picks, s.resolve (columns.take s.width) offset = .ok picks ∧
            s.buildRow picks row = .ok v := by
      rw [← Share.value_eq_ok_iff, htake]
    simp only [shares_cons, List.drop_drop]
    constructor
    · rintro ⟨picked, hresolve, hbuild⟩
      obtain ⟨picks, hpicks, hresolve⟩ := bind_eq_ok_iff.mp hresolve
      obtain ⟨others, hothers, rfl⟩ := map_eq_ok_iff.mp hresolve
      obtain ⟨v, hv, hbuild⟩ := bind_eq_ok_iff.mp hbuild
      obtain ⟨rest, hrest, rfl⟩ := map_eq_ok_iff.mp hbuild
      obtain ⟨values, hvalues, rfl⟩ := (ih hdrop).mp ⟨others, hothers, hrest⟩
      exact ⟨v :: values, .cons (hhead.mpr ⟨picks, hpicks, hv⟩) hvalues, rfl⟩
    · rintro ⟨_, _ | ⟨hv, hvalues⟩, rfl⟩
      obtain ⟨picks, hpicks, hv⟩ := hhead.mp hv
      obtain ⟨others, hothers, hrest⟩ := (ih hdrop).mpr ⟨_, hvalues, rfl⟩
      refine ⟨(key, s, picks) :: others, ?_, ?_⟩
      · rw [resolveParts, hpicks, hothers]
        rfl
      · rw [buildParts, hv, hrest]
        rfl

/-- The slices come in the order of the parts, each as wide as its part, and there is nothing
between them, before or after. -/
structure Sliced (parts : List (String × PlainShape)) (columns : List String) (row : List Value)
    (ps : List Share) : Prop where
  shapes : ps.map (·.shape) = parts.map (·.2)
  columns : ps.flatMap (·.columns) = columns
  row : ps.flatMap (·.row) = row
  wide : ∀ p ∈ ps, p.columns.length = p.shape.width ∧ p.row.length = p.shape.width

lemma sliced_shares (hcolumns : columns.length = (widths parts).sum)
    (hrow : row.length = columns.length) :
    Sliced parts columns row (shares parts columns row) := by
  induction parts generalizing columns row with
  | nil =>
    obtain rfl : columns = [] := List.eq_nil_of_length_eq_zero hcolumns
    obtain rfl : row = [] := List.eq_nil_of_length_eq_zero hrow
    exact ⟨rfl, rfl, rfl, List.forall_mem_nil _⟩
  | cons p parts ih =>
    have hsum : columns.length = p.2.width + (widths parts).sum := hcolumns
    have hdrop : (columns.drop p.2.width).length = (widths parts).sum := by
      rw [List.length_drop]
      omega
    have hrest : (row.drop p.2.width).length = (columns.drop p.2.width).length := by
      rw [List.length_drop, List.length_drop, hrow]
    obtain ⟨hshapes, hjoined, hvalues, hwide⟩ := ih hdrop hrest
    rw [shares_cons]
    refine ⟨congrArg (p.2 :: ·) hshapes, ?_, ?_, List.forall_mem_cons.mpr ⟨⟨?_, ?_⟩, hwide⟩⟩
    · rw [List.flatMap_cons, hjoined, List.take_append_drop]
    · rw [List.flatMap_cons, hvalues, List.take_append_drop]
    · exact List.length_take_of_le (by omega)
    · exact List.length_take_of_le (by omega)

lemma width_composite_eq : (Shape.composite m parts).width = (widths parts).sum := by
  rw [Shape.width, widths, List.sum, List.foldr_map]

lemma PlainShape.code_of_refusal? {e : ShapeError} (h : s.refusal? columns = some e) :
    e.report.code ≠ .shapeWidth := by
  have hunfed (fs : List FieldMapping) (h : s.unfed? columns fs = some e) :
      e.report.code ≠ .shapeWidth := by
    induction fs with
    | nil => cases h
    | cons f fs ih =>
      rw [unfed?] at h
      split at h
      · split at h
        · obtain rfl := Option.some.inj h
          intro hcode
          cases hcode
        · exact ih h
      · exact ih h
      · obtain rfl := Option.some.inj h
        intro hcode
        cases hcode
  rw [refusal?] at h
  split at h
  · split at h
    · exact hunfed _ h
    · obtain rfl := Option.some.inj h
      intro hcode
      cases hcode
  · exact hunfed _ h

lemma code_of_resolveParts {offset : Nat} {e : ShapeError}
    (h : resolveParts offset parts columns = .error e) : e.report.code ≠ .shapeWidth := by
  induction parts generalizing offset columns with
  | nil => cases h
  | cons p parts ih =>
    obtain ⟨key, s⟩ := p
    obtain h | ⟨picks, -, h⟩ := bind_eq_error_iff.mp h
    · rw [PlainShape.resolve_eq] at h
      split at h
      · next hrefusal =>
        obtain rfl := Except.error.inj h
        exact PlainShape.code_of_refusal? hrefusal
      · cases h
    · exact ih (map_eq_error_iff.mp h)

lemma resolve_width_iff : (∃ e, (Shape.composite m parts).resolve columns = .error e ∧
    e.report.code = .shapeWidth) ↔ columns.length ≠ (widths parts).sum := by
  rw [Shape.resolve, width_composite_eq]
  by_cases h : (widths parts).sum = columns.length
  · rw [if_pos h]
    refine iff_of_false ?_ (not_not_intro h.symm)
    rintro ⟨e, he, hcode⟩
    exact code_of_resolveParts (map_eq_error_iff.mp he) hcode
  · rw [if_neg h]
    exact iff_of_true ⟨_, rfl, rfl⟩ (Ne.symm h)

end Tablewright
