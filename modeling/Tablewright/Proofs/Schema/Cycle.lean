import Mathlib.Data.Set.Finite.Basic
import Mathlib.Dynamics.PeriodicPts.Defs
import Mathlib.Order.Preorder.Finite
import Tablewright.Proofs.Schema.Order

/-! Cycles of references. What the rounds leave are the tables from which a cycle is reached, so all
tables are placed if and only if there is none. -/

namespace Tablewright

open Relation (ReflTransGen)

lemma exists_next_of_chain {α : Type} {r : α → α → Prop} {c : Cycle α} (h : c.Chain r) {a : α}
    (ha : a ∈ c) : ∃ b ∈ c, r a b := by
  induction c using Quotient.inductionOn' with
  | h l =>
    obtain ⟨front, back, rfl⟩ := List.append_of_mem (Cycle.mem_coe_iff.mp ha)
    -- turned so that it begins with `a`, the list shows what comes after `a`
    have hturn : ((front ++ a :: back : List α) : Cycle α) = (a :: (back ++ front) : List α) :=
      Cycle.coe_eq_coe.mpr List.isRotated_append
    change Cycle.Chain r ((front ++ a :: back : List α) : Cycle α) at h
    change ∃ b ∈ ((front ++ a :: back : List α) : Cycle α), r a b
    rw [hturn] at h ⊢
    rw [Cycle.chain_coe_cons] at h
    cases hrest : back ++ front with
    | nil => exact ⟨a, by simp, by simpa [hrest] using h⟩
    | cons b rest => exact ⟨b, by simp, by simp_all⟩

/-- Distinct tables, two or more, each of which refers to the next one and the last to the first. -/
structure ReferenceCycle (tables : List Table) (c : Cycle Table) : Prop where
  among : ∀ t ∈ c, t ∈ tables
  distinct : c.Nodup
  several : 2 ≤ c.length
  refers : c.Chain Table.RefersTo

lemma ReferenceCycle.mono {tables more : List Table} {c : Cycle Table} (h : ReferenceCycle tables c)
    (hsub : tables ⊆ more) : ReferenceCycle more c :=
  ⟨fun t ht => hsub (h.among t ht), h.distinct, h.several, h.refers⟩

lemma ReferenceCycle.exists_mem {tables : List Table} {c : Cycle Table}
    (h : ReferenceCycle tables c) : ∃ t, t ∈ c := by
  cases c using Cycle.induction_on with
  | nil => exact absurd h.several (by decide)
  | cons t l _ => exact ⟨t, by simp⟩

def DependsOn (tables : List Table) (t u : Table) : Prop := u ∈ tables ∧ t.RefersTo u

def ReachesCycle (tables : List Table) (t : Table) : Prop :=
  ∃ c, ReferenceCycle tables c ∧ ∃ u ∈ c, ReflTransGen (DependsOn tables) t u

lemma exists_periodic {tables : List Table} {next : Table → Table}
    (hnext : ∀ t ∈ tables, next t ∈ tables) {t : Table} (ht : t ∈ tables) :
    ∃ n, next^[n] t ∈ Function.periodicPts next := by
  have hmem : ∀ n, next^[n] t ∈ {u | u ∈ tables} := fun n => Set.MapsTo.iterate hnext n ht
  obtain ⟨m, n, hlt, heq⟩ :=
    Set.Finite.exists_lt_map_eq_of_forall_mem hmem (List.finite_toSet tables)
  refine ⟨m, Function.mk_mem_periodicPts (Nat.sub_pos_of_lt hlt) ?_⟩
  rw [Function.IsPeriodicPt, Function.IsFixedPt, ← Function.iterate_add_apply,
    Nat.sub_add_cancel hlt.le, heq]

lemma referenceCycle_periodicOrbit {tables : List Table} {next : Table → Table} {t : Table}
    (hmem : ∀ n, next^[n] t ∈ tables) (hrefers : ∀ n, (next^[n] t).RefersTo (next^[n + 1] t))
    (ht : t ∈ Function.periodicPts next) :
    ReferenceCycle tables (Function.periodicOrbit next t) := by
  refine
    { among := fun u hu => ?_
      distinct := Function.nodup_periodicOrbit
      several := ?_
      refers := (Function.periodicOrbit_chain' _ ht).mpr hrefers }
  · obtain ⟨n, rfl⟩ := (Function.mem_periodicOrbit_iff ht).mp hu
    exact hmem n
  · rw [Function.periodicOrbit_length]
    have hpos := Function.minimalPeriod_pos_of_mem_periodicPts ht
    have hone : Function.minimalPeriod next t ≠ 1 := fun h => by
      have hfixed : next t = t := Function.minimalPeriod_eq_one_iff_isFixedPt.mp h
      have hself : t.RefersTo (next t) := hrefers 0
      rw [hfixed] at hself
      exact Table.not_refersTo_self _ hself
    omega

lemma reachesCycle_of_waits {tables stuck : List Table} (hsub : stuck ⊆ tables)
    (hwait : ∀ t ∈ stuck, t.Waits stuck) {t : Table} (ht : t ∈ stuck) : ReachesCycle tables t := by
  have hnext : ∀ u, ∃ v, u ∈ stuck → v ∈ stuck ∧ u.RefersTo v := fun u => by
    by_cases hu : u ∈ stuck
    · obtain ⟨v, hv⟩ := hwait u hu
      exact ⟨v, fun _ => hv⟩
    · exact ⟨u, fun h => absurd h hu⟩
  -- `next` goes from a table to one it waits for; among finitely many it comes round
  choose next hnext using hnext
  have hmem : ∀ n, next^[n] t ∈ stuck :=
    fun n => Set.MapsTo.iterate (fun u hu => (hnext u hu).1) n ht
  have hrefers : ∀ n, (next^[n] t).RefersTo (next^[n + 1] t) := fun n => by
    rw [Function.iterate_succ_apply']
    exact (hnext _ (hmem n)).2
  have hreach : ∀ n, ReflTransGen (DependsOn tables) t (next^[n] t) := fun n => by
    induction n with
    | zero => exact .refl
    | succ n ih => exact ih.tail ⟨hsub (hmem _), hrefers n⟩
  obtain ⟨m, hm⟩ := exists_periodic (fun u hu => (hnext u hu).1) ht
  refine ⟨_, referenceCycle_periodicOrbit (fun n => ?_) (fun n => ?_) hm, next^[m] t,
    Function.self_mem_periodicOrbit hm, hreach m⟩
  · rw [← Function.iterate_add_apply]
    exact hsub (hmem _)
  · rw [← Function.iterate_add_apply, ← Function.iterate_add_apply, Nat.add_right_comm]
    exact hrefers _

lemma Respects.acc {tables order : List Table} (h : Respects tables order) {t : Table}
    (ht : t ∈ order) : Acc (fun u t => DependsOn tables t u) t := by
  obtain ⟨before, after, heq⟩ := List.append_of_mem ht
  induction hn : before.length using Nat.strong_induction_on generalizing t before after with
  | _ n ih =>
    refine ⟨_, fun u ⟨hu, hrefers⟩ => ?_⟩
    obtain ⟨front, back, rfl⟩ := List.append_of_mem (h before t after heq u hu hrefers)
    have hlt : front.length < n := by simp at hn; omega
    exact ih _ hlt (by simp [heq]) front (back ++ t :: after) (by simp [heq]) rfl

lemma ReferenceCycle.not_acc {tables : List Table} {c : Cycle Table} (h : ReferenceCycle tables c)
    {t : Table} (ht : t ∈ c) : ¬ Acc (fun u t => DependsOn tables t u) t := by
  intro hacc
  induction hacc with
  | intro t _ ih =>
    obtain ⟨u, hu, hrefers⟩ := exists_next_of_chain h.refers ht
    exact ih u ⟨h.among u hu, hrefers⟩ hu

lemma not_reachesCycle_of_acc {tables : List Table} {t : Table}
    (h : Acc (fun u t => DependsOn tables t u) t) : ¬ ReachesCycle tables t := by
  rintro ⟨c, hc, u, hu, hreach⟩
  refine hc.not_acc hu ?_
  clear hu
  induction hreach with
  | refl => exact h
  | tail _ hstep ih => exact ih.inv hstep

namespace Rounds

variable {pending ordered left : List Table}

lemma waits_left (h : Rounds pending ordered left) : ∀ t ∈ left, t.Waits left := by
  induction h with
  | ended hwait => exact hwait
  | place _ _ _ ih => exact ih

lemma left_sublist (h : Rounds pending ordered left) : left.Sublist pending := by
  induction h with
  | ended _ => exact .refl _
  | place _ _ _ ih => exact ih.trans ((List.sublist_cons_self _ _).append_left _)

lemma mem_left_iff (h : Rounds pending ordered left) {t : Table} (ht : t ∈ pending) :
    t ∈ left ↔ ReachesCycle pending t := by
  refine ⟨reachesCycle_of_waits h.left_sublist.subset h.waits_left, fun hreach => ?_⟩
  rcases List.mem_append.mp (h.perm.mem_iff.mpr ht) with hplaced | hleft
  · exact absurd hreach (not_reachesCycle_of_acc (h.respects.acc hplaced))
  · exact hleft

lemma left_eq_nil_iff (h : Rounds pending ordered left) :
    left = [] ↔ ∀ c, ¬ ReferenceCycle pending c := by
  rw [List.eq_nil_iff_forall_not_mem]
  constructor
  · intro hnone c hc
    obtain ⟨t, ht⟩ := hc.exists_mem
    exact hnone t ((h.mem_left_iff (hc.among t ht)).mpr ⟨c, hc, t, ht, .refl⟩)
  · intro hnone t ht
    obtain ⟨c, hc, -⟩ := (h.mem_left_iff (h.left_sublist.subset ht)).mp ht
    exact hnone c hc

end Rounds

lemma leftOver_eq_nil_iff {tables : List Table} (h : DistinctNames tables) :
    (orderByReferences tables).leftOver = [] ↔ ∀ c, ¬ ReferenceCycle tables c := by
  obtain ⟨left, hrounds, hleft⟩ := rounds_orderByReferences tables
  rw [byFoldedName_values h] at hrounds
  rw [hleft, List.map_eq_nil_iff, hrounds.left_eq_nil_iff]

end Tablewright
