import Mathlib.Data.List.Sort
import Mathlib.Data.String.Basic
import Mathlib.Tactic.Lemma
import Tablewright.Proofs.Rows.Shape
import Tablewright.Proofs.Schema.Declared
import Tablewright.Rows.Mapping

namespace Tablewright

variable {columns : List String} {offset : Nat} {name : String} {s : PlainShape} {t : Table}

def place (columns : List String) (name : String) : Nat :=
  columns.findIdx fun c => Text.fold c == Text.fold name

def occurrences (columns : List String) (name : String) : Nat :=
  (columns.map Text.fold).count (Text.fold name)

lemma occurrences_eq_one (hdistinct : (columns.map Text.fold).Nodup)
    (hname : Text.fold name ∈ columns.map Text.fold) : occurrences columns name = 1 :=
  List.count_eq_one_of_mem hdistinct hname

namespace PlainShape

lemma positions_cons (c : String) : positions (c :: columns) offset name =
    if Text.fold c = Text.fold name then offset :: positions columns (offset + 1) name
    else positions columns (offset + 1) name := by
  rw [positions, List.zipIdx_cons, List.filterMap_cons]
  by_cases h : Text.fold c = Text.fold name
  · simp only [if_pos h]
    rfl
  · simp only [if_neg h]
    rfl

lemma positions_eq_nil (h : Text.fold name ∉ columns.map Text.fold) :
    positions columns offset name = [] := by
  induction columns generalizing offset with
  | nil => rfl
  | cons c columns ih =>
    rw [List.map_cons, List.mem_cons, not_or] at h
    rw [positions_cons, if_neg (Ne.symm h.1), ih h.2]

lemma positions_eq_singleton (h : occurrences columns name = 1) :
    positions columns offset name = [offset + place columns name] := by
  induction columns generalizing offset with
  | nil => cases h
  | cons c columns ih =>
    rw [occurrences, List.map_cons, List.count_cons] at h
    rw [positions_cons, place, List.findIdx_cons]
    by_cases hname : Text.fold c = Text.fold name
    · rw [beq_iff_eq.mpr hname, if_pos rfl] at h
      have hnone := List.count_eq_zero.mp (Nat.succ.inj h)
      rw [if_pos hname, positions_eq_nil hnone, beq_iff_eq.mpr hname]
      rfl
    · rw [beq_false_of_ne hname, if_neg Bool.false_ne_true] at h
      rw [if_neg hname, beq_false_of_ne hname, ih h, place, cond_false]
      congr 1
      omega

lemma picks_eq {n : String → Nat} {fs : List FieldMapping}
    (h : ∀ f ∈ fs, positions columns offset f.column = [n f.column]) :
    s.picks columns offset fs = .ok (fs.map fun f => (f.column, n f.column)) := by
  induction fs with
  | nil => rfl
  | cons f fs ih =>
    rw [List.forall_mem_cons] at h
    simp only [picks, h.1, ih h.2]
    rfl

lemma foldedSorted_eq_iff {names others : List String} :
    foldedSorted names = foldedSorted others ↔
      (names.map Text.fold).Perm (others.map Text.fold) := by
  have hperm (names : List String) : (foldedSorted names).Perm (names.map Text.fold) :=
    List.mergeSort_perm _ _
  have hsorted (names : List String) : (foldedSorted names).Pairwise fun a b => a ≤ b := by
    rw [foldedSorted]
    exact List.pairwise_mergeSort' (· ≤ ·) (names.map Text.fold)
  constructor
  · intro h
    exact (hperm names).symm.trans (h ▸ hperm others)
  · intro h
    have hsame : (foldedSorted names).Perm (foldedSorted others) :=
      (hperm names).trans (h.trans (hperm others).symm)
    exact hsame.eq_of_pairwise (fun a b _ _ => String.le_antisymm) (hsorted names) (hsorted others)

structure Of (s : PlainShape) (t : Table) : Prop where
  table : s.table = some t
  columns : ∀ f ∈ s.fields, Text.fold f.column ∈ t.foldedNames

lemma Of.width_eq (h : s.Of t) : s.width = t.columnNames.length := by
  rw [width, h.table, Table.columnNames, List.length_map]

lemma Of.resolve_of_perm (h : s.Of t) (hcolumns : (columns.map Text.fold).Perm t.foldedNames)
    (hdistinct : t.foldedNames.Nodup) :
    s.resolve columns offset =
      .ok (s.fields.map fun f => (f.column, offset + place columns f.column)) := by
  have hsorted : foldedSorted t.columnNames = foldedSorted columns :=
    foldedSorted_eq_iff.mpr hcolumns.symm
  rw [resolve, h.table]
  refine (if_pos hsorted).trans (picks_eq (n := (offset + place columns ·)) fun f hf => ?_)
  exact positions_eq_singleton (occurrences_eq_one (hcolumns.nodup_iff.mpr hdistinct)
    (hcolumns.mem_iff.mpr (h.columns f hf)))

lemma Of.resolve_of_not_perm (h : s.Of t)
    (hcolumns : ¬ (columns.map Text.fold).Perm t.foldedNames) :
    s.resolve columns offset = .error (.columnSet s.model.name t.name t.columnNames columns) := by
  have hsorted : ¬ foldedSorted t.columnNames = foldedSorted columns :=
    fun hsame => hcolumns (foldedSorted_eq_iff.mp hsame).symm
  rw [resolve, h.table]
  exact if_neg hsorted

end PlainShape

lemma Schema.Consistent.analysePlain_of {tables : List Table} {indexes : List Index} {m : Model}
    (h : Schema.Consistent tables indexes) (ht : t ∈ tables) (hbound : m.binding = some t.name)
    (hs : analysePlain (Schema.ofDescriptions tables indexes) m = .ok s) : s.Of t := by
  obtain ⟨table, htable, hfields, rfl⟩ := analysePlain_eq_ok_iff.mp hs
  have hsome : table = some t := by
    rw [boundTable, hbound] at htable
    dsimp only at htable
    split at htable
    · next u hu => rw [← Except.ok.inj htable, h.eq_of_get? ht hu]
    · cases htable
  refine ⟨hsome, fun f hf => ?_⟩
  obtain ⟨g, hg, rfl⟩ := List.mem_map.mp hf
  exact Table.mem_foldedNames_iff.mpr ((hfields g hg).column t hsome)

end Tablewright
