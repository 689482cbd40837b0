import Mathlib.Data.List.Lex
import Tablewright.Proofs.Schema.Cycle

namespace Tablewright

/-- The tables with different names, each as it is given last and where its name is given first. -/
def survivors (tables : List Table) : List Table :=
  (tables.map fun t => Text.fold t.name).eraseDups.filterMap fun name =>
    latest (fun t => Text.fold t.name) name tables

lemma values_byFoldedName (tables : List Table) :
    (byFoldedName tables).values = survivors tables :=
  Keyed.values_ofList_eq _ tables

lemma survivors_distinct (tables : List Table) : DistinctNames (survivors tables) := by
  have hkeys : (survivors tables).map (fun t => Text.fold t.name) = (byFoldedName tables).keys := by
    rw [← values_byFoldedName, Keyed.values, List.map_map]
    exact List.map_congr_left fun e he => (Keyed.key_of_mem_ofList _ _ e he).symm
  rw [DistinctNames, hkeys]
  exact Keyed.nodup_keys_ofList _ tables

lemma DistinctNames.nodup {tables : List Table} (h : DistinctNames tables) : tables.Nodup :=
  List.Nodup.of_map _ h

section Respects

variable {tables before after order ordered left : List Table} {t : Table}

lemma Respects.not_waits (h : Respects tables (t :: order)) : ¬ t.Waits tables := by
  rintro ⟨u, hu, hrefers⟩
  exact absurd (h [] t order rfl u hu hrefers) List.not_mem_nil

lemma Respects.tail (h : Respects (before ++ t :: after) (t :: order))
    (hnew : t ∉ before ++ after) : Respects (before ++ after) order := by
  rintro front s back rfl u hu hrefers
  have hfront := h (t :: front) s back rfl u
    ((List.sublist_cons_self t after).append_left before |>.subset hu) hrefers
  exact (List.mem_cons.mp hfront).resolve_left fun he => hnew (he ▸ hu)

end Respects

namespace Rounds

variable {pending ordered left : List Table}

lemma eq_of_respects (h : Rounds pending ordered left) (hn : pending.Nodup)
    (hr : Respects pending pending) : ordered = pending ∧ left = [] := by
  induction h with
  | @ended pending hwait =>
    cases pending with
    | nil => exact ⟨rfl, rfl⟩
    | cons t rest => exact absurd (hwait t List.mem_cons_self) hr.not_waits
  | @place before after ordered left t hbefore _ _ ih =>
    cases before with
    | cons u before => exact absurd (hbefore u List.mem_cons_self) hr.not_waits
    | nil =>
      obtain ⟨hnew, hrest⟩ := List.nodup_cons.mp hn
      obtain ⟨rfl, rfl⟩ := ih hrest (hr.tail hnew)
      exact ⟨rfl, rfl⟩

lemma least {pos : Table → Nat} (h : Rounds pending ordered left)
    (hpos : pending.Pairwise fun t u => pos t < pos u) {other : List Table}
    (hperm : other.Perm ordered) (hother : Respects pending other) :
    other = ordered ∨ List.Lex (· < ·) (ordered.map pos) (other.map pos) := by
  induction h generalizing other with
  | ended _ => exact Or.inl hperm.eq_nil
  | @place before after ordered left t hbefore hready hrest ih =>
    cases other with
    | nil => exact absurd hperm.symm.eq_nil (List.cons_ne_nil _ _)
    | cons u other =>
      have hmem : u ∈ before ++ t :: after :=
        (hrest.place hbefore hready).perm.subset
          (List.mem_append_left _ (hperm.subset List.mem_cons_self))
      have hlate : u ∈ t :: after := (List.mem_append.mp hmem).resolve_left fun hu =>
        hother.not_waits (hbefore u hu)
      -- the other order takes the same table first and goes on, or it takes a later one
      rcases List.mem_cons.mp hlate with rfl | hu
      · have hn : (before ++ u :: after).Nodup :=
          hpos.imp fun hlt he => Nat.ne_of_lt hlt (congrArg pos he)
        have hnew := (List.nodup_cons.mp (List.nodup_middle.mp hn)).1
        have hrest := ih (hpos.sublist ((List.sublist_cons_self _ _).append_left _)) hperm.cons_inv
          (hother.tail hnew)
        exact hrest.imp (congrArg (u :: ·)) .cons
      · exact Or.inr (.rel ((List.pairwise_cons.mp (List.pairwise_append.mp hpos).2.1).1 u hu))

end Rounds

structure StableOrder (kept ordered left : List Table) : Prop where
  once : (ordered ++ left).Perm kept
  respects : Respects kept ordered
  inOrder : left.Sublist kept
  left_iff : ∀ t ∈ kept, t ∈ left ↔ ReachesCycle kept t
  least : ∀ other, other.Perm ordered → Respects kept other →
    other = ordered ∨ List.Lex (· < ·) (ordered.map kept.idxOf) (other.map kept.idxOf)
  unchanged : Respects kept kept → ordered = kept

lemma pairwise_idxOf {tables : List Table} (h : tables.Nodup) :
    tables.Pairwise fun t u => tables.idxOf t < tables.idxOf u := by
  rw [List.pairwise_iff_getElem]
  intro i j hi hj hlt
  rwa [h.idxOf_getElem, h.idxOf_getElem]

theorem orderByReferences_stable (tables : List Table) :
    DistinctNames (survivors tables) ∧ ∃ left,
      Rounds (survivors tables) (orderByReferences tables).ordered left ∧
      (orderByReferences tables).leftOver = left.map (·.name) ∧
      StableOrder (survivors tables) (orderByReferences tables).ordered left := by
  obtain ⟨left, hrounds, hleft⟩ := rounds_orderByReferences tables
  rw [values_byFoldedName] at hrounds
  have hn := (survivors_distinct tables).nodup
  refine ⟨survivors_distinct tables, left, hrounds, hleft, ?_⟩
  exact
    { once := hrounds.perm
      respects := hrounds.respects
      inOrder := hrounds.left_sublist
      left_iff := fun t ht => hrounds.mem_left_iff ht
      least := fun other hperm hother => hrounds.least (pairwise_idxOf hn) hperm hother
      unchanged := fun hr => (hrounds.eq_of_respects hn hr).1 }

def linked (name : String) (others : List String) : Table :=
  ⟨name, others.map fun other =>
    { name := other, kind := .integer, references := some ⟨other, "id"⟩ }⟩

example :
    orderByReferences [linked "page" ["Book"], linked "knot" ["loop"], linked "shelf" [],
        linked "loop" ["KNOT"], linked "book" ["shelf", "book"], linked "bow" ["loop"]] =
      ⟨[linked "shelf" [], linked "book" ["shelf", "book"], linked "page" ["Book"]],
        ["knot", "loop", "bow"]⟩ := by
  rfl

end Tablewright
