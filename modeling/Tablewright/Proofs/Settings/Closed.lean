import Mathlib.Data.List.Basic
import Mathlib.Tactic.Lemma
import Tablewright.Value

namespace Tablewright.Value

mutual

/-- Every reference to a container is to one inside the value, or to one of the innermost ones
around it, of which there are as many as the depth. -/
def ClosedAt (depth : Nat) : Value → Prop
  | outer n => n < depth
  | list items => ItemsClosedAt (depth + 1) items
  | tuple items => ItemsClosedAt (depth + 1) items
  | map entries => EntriesClosedAt (depth + 1) entries
  | _ => True

def ItemsClosedAt (depth : Nat) : List Value → Prop
  | [] => True
  | v :: rest => v.ClosedAt depth ∧ ItemsClosedAt depth rest

def EntriesClosedAt (depth : Nat) : List (Value × Value) → Prop
  | [] => True
  | (_, v) :: rest => v.ClosedAt depth ∧ EntriesClosedAt depth rest

end

abbrev Closed (v : Value) : Prop := v.ClosedAt 0

section Replacing

variable {put : Nat → Value}

mutual

lemma ClosedAt.replaceOuter_eq :
    {depth : Nat} → {v : Value} → v.ClosedAt depth → v.replaceOuter put depth = v
  | depth, outer n, h => by
    rw [ClosedAt] at h
    rw [replaceOuter, if_neg (Nat.ne_of_lt h)]
  | depth, list items, h | depth, tuple items, h => by
    rw [ClosedAt] at h
    rw [replaceOuter, ItemsClosedAt.replaceItems_eq h]
  | depth, map entries, h => by
    rw [ClosedAt] at h
    rw [replaceOuter, EntriesClosedAt.replaceEntries_eq h]
  | _, null, _ | _, bool _, _ | _, int _, _ | _, real _, _ | _, text _, _ | _, codes _, _
  | _, blob _, _ | _, set _, _ | _, column _, _ | _, record _ _, _ | _, thing _, _ => by
    simp [replaceOuter]

lemma ItemsClosedAt.replaceItems_eq :
    {depth : Nat} → {items : List Value} → ItemsClosedAt depth items →
      replaceItems put depth items = items
  | _, [], _ => by rw [replaceItems]
  | _, v :: rest, h => by
    rw [ItemsClosedAt] at h
    rw [replaceItems, h.1.replaceOuter_eq, ItemsClosedAt.replaceItems_eq h.2]

lemma EntriesClosedAt.replaceEntries_eq :
    {depth : Nat} → {entries : List (Value × Value)} → EntriesClosedAt depth entries →
      replaceEntries put depth entries = entries
  | _, [], _ => by rw [replaceEntries]
  | _, (k, v) :: rest, h => by
    rw [EntriesClosedAt] at h
    rw [replaceEntries, h.1.replaceOuter_eq, EntriesClosedAt.replaceEntries_eq h.2]

end

end Replacing

lemma freeEntries_of_closed {entries : List (Value × Value)} (h : ∀ e ∈ entries, e.2.Closed) :
    freeEntries entries = entries := by
  have hitems : ∀ rebuild : List Value → Value,
      freeItems rebuild (entries.map (·.2)) = entries.map (·.2) := by
    intro rebuild
    rw [freeItems]
    refine Eq.trans (List.map_congr_left fun p hp => ?_) (List.zipIdx_map_fst ..)
    exact ClosedAt.replaceOuter_eq (List.forall_mem_map.mpr h _ (List.fst_mem_of_mem_zipIdx hp))
  rw [freeEntries, hitems]
  exact (List.zip_of_prod rfl rfl).symm

end Tablewright.Value
