import Mathlib.Data.List.Basic
import Tablewright.Proofs.Outcome
import Tablewright.Statement.Term

namespace Tablewright

namespace Predicate

variable {good : Connective → List Predicate → Prop} {k : Connective} {p : Predicate}
  {ps items : List Predicate}

def connective? : Predicate → Option Connective
  | group k _ => some k
  | _ => none

def members (k : Connective) : Predicate → List Predicate
  | group k' items => if k' = k then items else [group k' items]
  | p => [p]

inductive Every (good : Connective → List Predicate → Prop) : Predicate → Prop
  | comparison (c : Comparison) : Every good (comparison c)
  | group {k : Connective} {items : List Predicate} : good k items →
      (∀ p ∈ items, Every good p) → Every good (group k items)

abbrev Whole (p : Predicate) : Prop := p.Every fun _ _ => True

abbrev Solid (p : Predicate) : Prop := p.Every fun _ items => items ≠ []

abbrev Wide (p : Predicate) : Prop := p.Every fun _ items => 2 ≤ items.length

abbrev Flat (p : Predicate) : Prop := p.Every fun k items => ∀ q ∈ items, q.connective? ≠ some k

lemma every_group_iff :
    (group k items).Every good ↔ good k items ∧ ∀ p ∈ items, p.Every good := by
  constructor
  · rintro ⟨⟩
    exact ⟨‹_›, ‹_›⟩
  · exact fun ⟨hgood, hitems⟩ => .group hgood hitems

namespace Every

lemma mono {good' : Connective → List Predicate → Prop} (h : p.Every good)
    (himp : ∀ k items, good k items → good' k items) : p.Every good' := by
  induction h with
  | comparison c => exact .comparison c
  | group hgood _ ih => exact .group (himp _ _ hgood) ih

lemma not_stray (h : p.Every good) (v : Value) : p ≠ stray v := by
  rintro rfl
  cases h

lemma members (h : p.Every good) : ∀ q ∈ p.members k, q.Every good := by
  cases h with
  | comparison c => exact List.forall_mem_singleton.mpr (.comparison c)
  | @group k' items hgood hitems =>
    rw [Predicate.members]
    split
    · exact hitems
    · exact List.forall_mem_singleton.mpr (.group hgood hitems)

end Every

lemma Solid.members_ne_nil (h : p.Solid) : p.members k ≠ [] := by
  cases h with
  | comparison c => exact List.cons_ne_nil _ _
  | @group k' items hne _ =>
    rw [members]
    split
    · exact hne
    · exact List.cons_ne_nil _ _

lemma Wide.solid (h : p.Wide) : p.Solid :=
  h.mono fun _ items hlength => List.ne_nil_of_length_pos (by omega)

lemma Flat.connective?_members (h : p.Flat) : ∀ q ∈ p.members k, q.connective? ≠ some k := by
  cases h with
  | comparison c => exact List.forall_mem_singleton.mpr nofun
  | @group k' items hkinds _ =>
    rw [members]
    split
    · next hk => exact hk ▸ hkinds
    · next hk => exact List.forall_mem_singleton.mpr fun h => hk (Option.some.inj h)

section Combine

lemma firstStray?_eq_none (h : ∀ p ∈ ps, ∀ v, p ≠ stray v) : firstStray? ps = none := by
  rw [firstStray?, List.findSome?_eq_none_iff]
  intro p hp
  cases p with
  | comparison c | group k items => rfl
  | stray v => exact absurd rfl (h _ hp v)

lemma combine_of_single (hps : ¬ ps.isEmpty) (hstray : firstStray? ps = none)
    (h : ps.flatMap (members k) = [p]) : combine k ps = .ok p := by
  rw [combine, if_neg hps, hstray]
  dsimp only
  split
  · next q hq =>
    obtain rfl := List.singleton_inj.mp (h.symm.trans hq)
    rfl
  · next hnot => exact absurd h (hnot p)

lemma combine_of_several (hps : ¬ ps.isEmpty) (hstray : firstStray? ps = none)
    (h : ∀ p, ps.flatMap (members k) ≠ [p]) :
    combine k ps = .ok (group k (ps.flatMap (members k))) := by
  rw [combine, if_neg hps, hstray]
  dsimp only
  split
  · next q hq => exact absurd hq (h q)
  · rfl

lemma combine_eq_ok (h : combine k ps = .ok p) :
    ps ≠ [] ∧ (ps.flatMap (members k) = [p] ∨
      (∀ q, ps.flatMap (members k) ≠ [q]) ∧ p = group k (ps.flatMap (members k))) := by
  by_cases hps : ps.isEmpty
  · rw [combine, if_pos hps] at h
    cases h
  refine ⟨by simpa using hps, ?_⟩
  cases hstray : firstStray? ps with
  | some e =>
    rw [combine, if_neg hps, hstray] at h
    cases h
  | none =>
    by_cases hsingle : ∃ q, ps.flatMap (members k) = [q]
    · obtain ⟨q, hq⟩ := hsingle
      rw [combine_of_single hps hstray hq] at h
      exact Or.inl (Except.ok.inj h ▸ hq)
    · rw [combine_of_several hps hstray (not_exists.mp hsingle)] at h
      exact Or.inr ⟨not_exists.mp hsingle, (Except.ok.inj h).symm⟩

lemma exists_combine (hps : ps ≠ []) (h : ∀ p ∈ ps, ∀ v, p ≠ stray v) :
    ∃ p, combine k ps = .ok p := by
  have hempty : ¬ ps.isEmpty := by simpa using hps
  by_cases hsingle : ∃ q, ps.flatMap (members k) = [q]
  · obtain ⟨q, hq⟩ := hsingle
    exact ⟨q, combine_of_single hempty (firstStray?_eq_none h) hq⟩
  · exact ⟨_, combine_of_several hempty (firstStray?_eq_none h) (not_exists.mp hsingle)⟩

lemma combine_eq_error {e : BuildError} (h : combine k ps = .error e) :
    ∃ reason, e = .invalid reason := by
  rw [combine] at h
  split at h
  · exact ⟨_, (Except.error.inj h).symm⟩
  · split at h
    · next _ hstray =>
      obtain rfl := Except.error.inj h
      obtain ⟨p, -, hp⟩ := List.exists_of_findSome?_eq_some hstray
      cases p with
      | stray v => exact ⟨_, (Option.some.inj hp).symm⟩
      | comparison c | group k items => cases hp
    · dsimp only at h
      split at h <;> cases h

lemma restrict_eq_error {filter : Option Predicate} {e : BuildError}
    (h : restrict filter p = .error e) : ∃ reason, e = .invalid reason := by
  cases filter with
  | none => cases h
  | some f => exact combine_eq_error h

lemma every_combine (hps : ∀ p ∈ ps, p.Every good)
    (hgood : (∀ q, ps.flatMap (members k) ≠ [q]) → good k (ps.flatMap (members k)))
    (h : combine k ps = .ok p) : p.Every good := by
  have hmembers : ∀ q ∈ ps.flatMap (members k), q.Every good := by
    intro q hq
    obtain ⟨p, hp, hq⟩ := List.mem_flatMap.mp hq
    exact (hps p hp).members q hq
  obtain ⟨-, hsingle | ⟨hseveral, rfl⟩⟩ := combine_eq_ok h
  · exact hmembers p (hsingle ▸ List.mem_singleton_self p)
  · exact .group (hgood hseveral) hmembers

lemma flatMap_members_ne_nil (hne : ps ≠ []) (hps : ∀ p ∈ ps, p.Solid) :
    ps.flatMap (members k) ≠ [] := by
  obtain ⟨p, hp⟩ := List.exists_mem_of_ne_nil ps hne
  obtain ⟨q, hq⟩ := List.exists_mem_of_ne_nil _ ((hps p hp).members_ne_nil (k := k))
  exact List.ne_nil_of_mem (List.mem_flatMap.mpr ⟨p, hp, hq⟩)

lemma solid_combine (hps : ∀ p ∈ ps, p.Solid) (h : combine k ps = .ok p) : p.Solid :=
  every_combine hps (fun _ => flatMap_members_ne_nil (combine_eq_ok h).1 hps) h

lemma wide_combine (hps : ∀ p ∈ ps, p.Wide) (h : combine k ps = .ok p) : p.Wide := by
  refine every_combine hps (fun hseveral => ?_) h
  have hne := flatMap_members_ne_nil (k := k) (combine_eq_ok h).1 fun p hp => (hps p hp).solid
  match hitems : ps.flatMap (members k) with
  | [] => exact absurd hitems hne
  | [q] => exact absurd hitems (hseveral q)
  | q :: r :: rest => exact Nat.le_add_left _ _

lemma flat_combine (hps : ∀ p ∈ ps, p.Flat) (h : combine k ps = .ok p) : p.Flat := by
  refine every_combine hps (fun _ q hq => ?_) h
  obtain ⟨p, hp, hq⟩ := List.mem_flatMap.mp hq
  exact (hps p hp).connective?_members q hq

end Combine

section Columns

lemma columnsOf_eq (items : List Predicate) : columnsOf items = items.flatMap (·.columns) := by
  induction items with
  | nil => rw [columnsOf, List.flatMap_nil]
  | cons p items ih => rw [columnsOf, ih, List.flatMap_cons]

lemma columnsOf_append (ps qs : List Predicate) :
    columnsOf (ps ++ qs) = columnsOf ps ++ columnsOf qs := by
  simp only [columnsOf_eq, List.flatMap_append]

lemma columnsOf_members (k : Connective) (p : Predicate) : columnsOf (p.members k) = p.columns := by
  cases p with
  | group k' items =>
    rw [members]
    split
    · rw [columns]
    · rw [columnsOf, columnsOf, List.append_nil]
  | comparison c | stray v => simp [members, columnsOf]

lemma columns_combine (h : combine k ps = .ok p) : p.columns = columnsOf ps := by
  have hmembers : columnsOf (ps.flatMap (members k)) = columnsOf ps := by
    simp only [columnsOf_eq, List.flatMap_assoc]
    exact List.flatMap_congr fun q _ => columnsOf_eq (q.members k) ▸ columnsOf_members k q
  obtain ⟨-, hsingle | ⟨-, rfl⟩⟩ := combine_eq_ok h
  · rw [← hmembers, hsingle, columnsOf, columnsOf, List.append_nil]
  · rw [columns, hmembers]

lemma columns_restrict {filter : Option Predicate} {p q : Predicate}
    (h : restrict filter p = .ok q) :
    q.columns = filter.toList.flatMap (·.columns) ++ p.columns := by
  cases filter with
  | none => exact Except.ok.inj h ▸ rfl
  | some f =>
    rw [columns_combine h, columnsOf_eq]
    simp

end Columns

end Predicate

namespace Term

variable {k : Connective} {ps : List Predicate} {p : Predicate}

lemma combine_predicates (k : Connective) (ps : List Predicate) :
    combine k (ps.map predicate) = (Predicate.combine k ps).map ofMember := by
  have hmembers : (ps.map predicate).map asMember = ps := by
    rw [List.map_map]
    exact List.map_id ps
  rw [combine, hmembers]

lemma ofMember_of_not_stray (h : ∀ v, p ≠ .stray v) : ofMember p = predicate p := by
  cases p with
  | comparison c | group k items => rfl
  | stray v => exact absurd rfl (h v)

end Term

end Tablewright
