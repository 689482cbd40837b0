import Tablewright.Proofs.Statement.Restriction

namespace Tablewright

namespace Predicate

variable {k : Connective} {p q r f g : Predicate} {ps qs ps' qs' : List Predicate}

/-- The second conditions have the columns and, opened, the members of the first. -/
structure Regroups (k : Connective) (ps qs : List Predicate) : Prop where
  columns : columnsOf qs = columnsOf ps
  members : openedMembers k qs = openedMembers k ps

lemma openedMembers_singleton (k : Connective) (p : Predicate) :
    openedMembers k [p] = p.opened.members k := by
  rw [openedMembers, openedMembers, List.append_nil]

lemma columnsOf_singleton (p : Predicate) : columnsOf [p] = p.columns := by
  rw [columnsOf, columnsOf, List.append_nil]

namespace Regroups

lemma refl (k : Connective) (ps : List Predicate) : Regroups k ps ps := ⟨rfl, rfl⟩

lemma append (h : Regroups k ps qs) (h' : Regroups k ps' qs') :
    Regroups k (ps ++ ps') (qs ++ qs') where
  columns := by rw [columnsOf_append, columnsOf_append, h.columns, h'.columns]
  members := by rw [openedMembers_append, openedMembers_append, h.members, h'.members]

lemma trans {rs : List Predicate} (h : Regroups k ps qs) (h' : Regroups k qs rs) :
    Regroups k ps rs where
  columns := h'.columns.trans h.columns
  members := h'.members.trans h.members

lemma combine (h : Regroups k ps qs) (hq : Predicate.combine k qs = .ok q) :
    Regroups k ps [q] where
  columns := by rw [columnsOf_singleton, columns_combine hq, h.columns]
  members := by
    obtain ⟨-, hsingle | ⟨-, rfl⟩⟩ := combine_eq_ok hq
    · rw [← hsingle, openedMembers_flatMap_members, h.members]
    · rw [openedMembers_singleton, opened, Predicate.members, if_pos rfl,
        openedMembers_flatMap_members, h.members]

end Regroups

lemma exists_combine_term (k : Connective) (hne : ps ≠ []) (hps : ∀ p ∈ ps, p.Solid) :
    ∃ q, Term.combine k (ps.map .predicate) = .ok (.predicate q) ∧ q.Solid ∧ Regroups k ps [q] := by
  obtain ⟨q, hq⟩ := exists_combine (k := k) hne fun p hp => (hps p hp).not_stray
  have hsolid := solid_combine hps hq
  refine ⟨q, ?_, hsolid, (Regroups.refl k ps).combine hq⟩
  rw [Term.combine_predicates, hq, Except.map, Term.ofMember_of_not_stray hsolid.not_stray]

lemma regroups_restrict {current : Option Predicate} (h : restrict current p = .ok q) :
    Regroups .and (current.toList ++ [p]) [q] := by
  cases current with
  | none =>
    obtain rfl := Except.ok.inj h
    exact .refl .and [p]
  | some f => exact (Regroups.refl .and [f, p]).combine h

lemma restrict_not_stray {current : Option Predicate} (hp : p.Solid)
    (h : restrict current p = .ok q) (v : Value) : q ≠ stray v := by
  cases current with
  | none => exact Except.ok.inj h ▸ hp.not_stray v
  | some f =>
    obtain ⟨-, hsingle | ⟨-, rfl⟩⟩ := combine_eq_ok h
    · obtain ⟨r, hr⟩ := List.exists_mem_of_ne_nil _ (hp.members_ne_nil (k := .and))
      have hmem : r ∈ [f, p].flatMap (members .and) := List.mem_flatMap.mpr ⟨p, by simp, hr⟩
      rw [hsingle, List.mem_singleton] at hmem
      exact hmem ▸ (hp.members r hr).not_stray v
    · exact nofun

lemma eq_group_of_members (h : 2 ≤ (p.members k).length) : p = group k (p.members k) := by
  cases p with
  | group k' items =>
    rw [members] at h ⊢
    split
    · next hk => rw [hk]
    · next hk =>
      simp [hk] at h
  | comparison c | stray v => exact absurd h (by simp [members])

lemma opened_eq_of_regroups (hq : Regroups k ps [q]) (h : 2 ≤ (openedMembers k ps).length) :
    q.opened = group k (openedMembers k ps) := by
  have hmembers := hq.members
  rw [openedMembers_singleton] at hmembers
  rw [← hmembers] at h ⊢
  exact eq_group_of_members h

lemma connective?_opened (p : Predicate) : p.opened.connective? = p.connective? := by
  cases p with
  | group k items => rw [opened, connective?, connective?]
  | comparison c | stray v => rw [opened]

lemma members_disjunction (h : p.connective? = some .or) : p.members .and = [p] := by
  cases p with
  | group k items =>
    obtain rfl := Option.some.inj h
    rfl
  | comparison c | stray v => cases h

lemma restrict_or_congr {current : Option Predicate} (hq : q.connective? = some .or)
    (hr : r.connective? = some .or) (h : q.opened = r.opened) (hf : restrict current q = .ok f)
    (hg : restrict current r = .ok g) : f.opened = g.opened := by
  cases current with
  | none => rwa [← Except.ok.inj hf, ← Except.ok.inj hg]
  | some p =>
    obtain ⟨-, hf⟩ := combine_eq_ok hf
    obtain ⟨-, hg⟩ := combine_eq_ok hg
    simp only [List.flatMap_cons, List.flatMap_nil, List.append_nil, members_disjunction hq,
      members_disjunction hr] at hf hg
    cases hp : p.members .and with
    | nil =>
      simp only [hp, List.nil_append] at hf hg
      obtain hf | ⟨hf, -⟩ := hf
      · obtain hg | ⟨hg, -⟩ := hg
        · rwa [← List.singleton_inj.mp hf, ← List.singleton_inj.mp hg]
        · exact absurd rfl (hg r)
      · exact absurd rfl (hf q)
    | cons i items =>
      simp only [hp, List.cons_append, List.cons.injEq, List.append_eq_nil_iff, List.cons_ne_nil,
        and_false, false_or] at hf hg
      rw [hf.2, hg.2, opened, opened, ← List.cons_append, ← List.cons_append, openedMembers_append,
        openedMembers_append, openedMembers_singleton, openedMembers_singleton, h]

inductive Composed : Predicate → Prop
  | compare {left right : Term} {operator : Value} {p : Predicate} :
      Term.compare left operator right = .ok p → Composed p
  | combine {k : Connective} {ps : List Predicate} {p : Predicate} :
      (∀ q ∈ ps, Composed q) → Term.combine k (ps.map .predicate) = .ok (.predicate p) →
      Composed p

lemma exists_comparison_of_compare {left right : Term} {operator : Value}
    (h : Term.compare left operator right = .ok p) : ∃ c, p = comparison c := by
  simp only [Term.compare] at h
  split at h
  · cases h
  · split at h
    · exact ⟨_, (Except.ok.inj h).symm⟩
    · cases h
  · cases h

lemma Composed.flat_and_wide (h : p.Composed) : p.Flat ∧ p.Wide := by
  induction h with
  | compare h =>
    obtain ⟨c, rfl⟩ := exists_comparison_of_compare h
    exact ⟨.comparison c, .comparison c⟩
  | @combine k ps p _ h ih =>
    rw [Term.combine_predicates] at h
    obtain ⟨q, hq, hp⟩ := map_eq_ok_iff.mp h
    have hwide := wide_combine (fun q hq => (ih q hq).2) hq
    rw [Term.ofMember_of_not_stray hwide.not_stray] at hp
    obtain rfl := Term.predicate.inj hp
    exact ⟨flat_combine (fun q hq => (ih q hq).1) hq, hwide⟩

end Predicate

/-- A way to put conditions together: each node takes one part or more. -/
inductive Grouping where
  | single (p : Predicate)
  | together (first : Grouping) (rest : List Grouping)

namespace Grouping

mutual

def leaves : Grouping → List Predicate
  | single p => [p]
  | together first rest => first.leaves ++ leavesOf rest

def leavesOf : List Grouping → List Predicate
  | [] => []
  | g :: rest => g.leaves ++ leavesOf rest

end

mutual

def build (k : Connective) : Grouping → Except BuildError Term
  | single p => .ok (.predicate p)
  | together first rest =>
    (first.build k).bind fun t => (buildAll k rest).bind fun ts => Term.combine k (t :: ts)

def buildAll (k : Connective) : List Grouping → Except BuildError (List Term)
  | [] => .ok []
  | g :: rest => (g.build k).bind fun t => (buildAll k rest).map (t :: ·)

end

open Predicate (Regroups)

mutual

lemma exists_build (k : Connective) : (g : Grouping) → (∀ p ∈ g.leaves, p.Solid) →
    ∃ q, g.build k = .ok (.predicate q) ∧ q.Solid ∧ Regroups k g.leaves [q]
  | single p, h => by
    rw [leaves] at h ⊢
    rw [build]
    exact ⟨p, rfl, List.forall_mem_singleton.mp h, .refl k [p]⟩
  | together first rest, h => by
    rw [leaves] at h ⊢
    rw [List.forall_mem_append] at h
    obtain ⟨q, hq, hsolid, hregroups⟩ := exists_build k first h.1
    obtain ⟨qs, hqs, hsolids, hregroups'⟩ := exists_buildAll k rest h.2
    obtain ⟨r, hr, hsolid, hjoined⟩ := Predicate.exists_combine_term k (List.cons_ne_nil q qs)
      (List.forall_mem_cons.mpr ⟨hsolid, hsolids⟩)
    refine ⟨r, ?_, hsolid, (hregroups.append hregroups').trans hjoined⟩
    rw [build, hq, hqs]
    exact hr

lemma exists_buildAll (k : Connective) : (gs : List Grouping) → (∀ p ∈ leavesOf gs, p.Solid) →
    ∃ qs : List Predicate, buildAll k gs = .ok (qs.map .predicate) ∧ (∀ q ∈ qs, q.Solid) ∧
      Regroups k (leavesOf gs) qs
  | [], _ => by
    rw [buildAll, leavesOf]
    exact ⟨[], rfl, List.forall_mem_nil _, .refl k []⟩
  | g :: rest, h => by
    rw [leavesOf] at h ⊢
    rw [List.forall_mem_append] at h
    obtain ⟨q, hq, hsolid, hregroups⟩ := exists_build k g h.1
    obtain ⟨qs, hqs, hsolids, hregroups'⟩ := exists_buildAll k rest h.2
    refine ⟨q :: qs, ?_, List.forall_mem_cons.mpr ⟨hsolid, hsolids⟩, hregroups.append hregroups'⟩
    rw [buildAll, hq, hqs]
    rfl

end

end Grouping

namespace Statement

open Predicate (Regroups)

variable {s : Statement} {p q r f g : Predicate} {ps : List Predicate}

lemma compile_filtered (h : f.opened = g.opened) :
    (s.filtered f).compile = (s.filtered g).compile := by
  apply compile_eq_of_opened
  cases s with
  | select s => simp [filtered, opened, Select.opened, h]
  | update s => simp [filtered, opened, Update.opened, h]
  | delete s => simp [filtered, opened, Delete.opened, h]
  | insert s | ddl d => rfl

lemma takes_restrictions (hs : ∀ v, s.filter ≠ some (.stray v)) (hp : p.Solid)
    (hps : ∀ q ∈ ps, q.Solid) :
    (∃ e, s.admits (Predicate.columnsOf (p :: ps)) = .error e ∧
      s.takes (restrictions (p :: ps)) = .error e) ∨
    s.admits (Predicate.columnsOf (p :: ps)) = .ok () ∧
      ∃ f, Regroups .and (s.filter.toList ++ p :: ps) [f] ∧
        s.takes (restrictions (p :: ps)) = .ok (s.filtered f) := by
  induction ps generalizing s p with
  | nil =>
    obtain ⟨f, hf, htakes⟩ := takes_restrictions_cons hs hp.not_stray
    rw [Predicate.columnsOf_singleton, htakes]
    cases s.admits p.columns with
    | error e => exact Or.inl ⟨e, rfl, rfl⟩
    | ok => exact Or.inr ⟨rfl, f, Predicate.regroups_restrict hf, rfl⟩
  | cons q ps ih =>
    obtain ⟨f, hf, htakes⟩ := takes_restrictions_cons hs hp.not_stray
    rw [List.forall_mem_cons] at hps
    rw [Predicate.columnsOf, admits_append, htakes]
    cases hadmits : s.admits p.columns with
    | error e => exact Or.inl ⟨e, rfl, rfl⟩
    | ok =>
      have hfilter := filter_filtered hadmits f
      have hf' : ∀ v, (s.filtered f).filter ≠ some (.stray v) := fun v h =>
        Predicate.restrict_not_stray hp hf v (Option.some.inj (hfilter.symm.trans h))
      obtain ⟨e, he, htaken⟩ | ⟨hok, g, hg, htaken⟩ := ih hf' hps.1 hps.2
      · rw [admits_filtered] at he
        exact Or.inl ⟨e, he, htaken⟩
      · rw [admits_filtered] at hok
        rw [filtered_filtered] at htaken
        rw [hfilter] at hg
        have hall := ((Predicate.regroups_restrict hf).append (.refl .and (q :: ps))).trans hg
        rw [List.append_assoc] at hall
        exact Or.inr ⟨hok, g, hall, htaken⟩

def compileAfter (s : Statement) (steps : List Step) : Except Failure Compiled :=
  (s.takes steps).bind compile

lemma compileAfter_and (hs : ∀ v, s.filter ≠ some (.stray v)) (hps : ∀ p ∈ ps, p.Solid)
    (hlength : 2 ≤ ps.length) (hq : q.Solid) (hregroups : Regroups .and ps [q]) :
    s.compileAfter [.restrict (.predicate q)] = s.compileAfter (restrictions ps) := by
  obtain ⟨p, ps, rfl⟩ := List.exists_cons_of_length_pos (by omega : 0 < ps.length)
  rw [compileAfter, compileAfter]
  have hsplit := List.forall_mem_cons.mp hps
  have hmembers : 2 ≤ (Predicate.openedMembers .and (s.filter.toList ++ p :: ps)).length := by
    have hmany := Predicate.length_openedMembers (k := .and) hps
    rw [Predicate.openedMembers_append, List.length_append]
    omega
  have hcolumns : Predicate.columnsOf [q] = Predicate.columnsOf (p :: ps) := hregroups.columns
  have hnone : ∀ r ∈ ([] : List Predicate), r.Solid := List.forall_mem_nil _
  have hsingle := takes_restrictions hs hq hnone
  have hchain := takes_restrictions hs hsplit.1 hsplit.2
  rw [hcolumns] at hsingle
  -- both ways look at the same columns, so both are refused or none is
  obtain ⟨e, he, htaken⟩ | ⟨hok, f, hf, htaken⟩ := hchain
  · obtain ⟨e', he', htaken'⟩ | ⟨hok', -⟩ := hsingle
    · obtain rfl := Except.error.inj (he.symm.trans he')
      rw [htaken]
      exact congrArg (Except.bind · compile) htaken'
    · cases he.symm.trans hok'
  · obtain ⟨e', he', -⟩ | ⟨-, g, hg, htaken'⟩ := hsingle
    · cases hok.symm.trans he'
    · have hgrouped := ((Regroups.refl .and s.filter.toList).append hregroups).trans hg
      have hopened : g.opened = f.opened := by
        rw [Predicate.opened_eq_of_regroups hgrouped hmembers,
          Predicate.opened_eq_of_regroups hf hmembers]
      rw [htaken]
      exact (congrArg (Except.bind · compile) htaken').trans (compile_filtered hopened)

lemma compileAfter_or (hs : ∀ v, s.filter ≠ some (.stray v)) (hq : q.connective? = some .or)
    (hr : r.connective? = some .or) (hopened : q.opened = r.opened) :
    s.compileAfter [.restrict (.predicate q)] = s.compileAfter [.restrict (.predicate r)] := by
  have hstray : ∀ {q : Predicate}, q.connective? = some .or → ∀ v, q ≠ .stray v := by
    rintro q hq v rfl
    cases hq
  obtain ⟨f, hf, htakes⟩ := takes_restrictions_cons hs (hstray hq)
  obtain ⟨g, hg, htakes'⟩ := takes_restrictions_cons hs (hstray hr)
  have hcolumns : q.columns = r.columns := by rw [← q.columns_opened, hopened, r.columns_opened]
  have hfiltered := compile_filtered (s := s) (Predicate.restrict_or_congr hq hr hopened hf hg)
  calc (s.takes (restrictions [q])).bind compile
      = (s.admits q.columns).bind fun _ => (s.filtered f).compile := by
        rw [htakes]
        cases s.admits q.columns <;> rfl
    _ = (s.admits r.columns).bind fun _ => (s.filtered g).compile := by rw [hcolumns, hfiltered]
    _ = (s.takes (restrictions [r])).bind compile := by
        rw [htakes']
        cases s.admits r.columns <;> rfl

/-- How conditions are grouped does not tell in what a statement compiles to, nor for `AND` whether
they were joined at all before the statement was restricted by them. What comparing and joining make
has no group in a group of its kind and none of less than two members. -/
theorem compileAfter_grouping (hs : ∀ v, s.filter ≠ some (.stray v)) {g : Grouping}
    (hlength : 2 ≤ g.leaves.length) (hsolid : ∀ p ∈ g.leaves, p.Solid) :
    (∀ k, ∃ t u, g.build k = .ok t ∧ Term.combine k (g.leaves.map .predicate) = .ok u ∧
      s.compileAfter [.restrict t] = s.compileAfter [.restrict u] ∧
      (k = .and → s.compileAfter (restrictions g.leaves) = s.compileAfter [.restrict u])) ∧
    ∀ p : Predicate, p.Composed → p.Flat ∧ p.Wide := by
  refine ⟨fun k => ?_, fun p hp => hp.flat_and_wide⟩
  obtain ⟨q, hq, hqsolid, hqgroups⟩ := g.exists_build k hsolid
  have hne : g.leaves ≠ [] := List.ne_nil_of_length_pos (by omega)
  obtain ⟨r, hr, hrsolid, hrgroups⟩ := Predicate.exists_combine_term k hne hsolid
  refine ⟨_, _, hq, hr, ?_⟩
  cases k with
  | and =>
    have hboth := compileAfter_and hs hsolid hlength hrsolid hrgroups
    exact ⟨(compileAfter_and hs hsolid hlength hqsolid hqgroups).trans hboth.symm,
      fun _ => hboth.symm⟩
  | or =>
    have hmembers := hlength.trans (Predicate.length_openedMembers (k := .or) hsolid)
    have hqopened := Predicate.opened_eq_of_regroups hqgroups hmembers
    have hropened := Predicate.opened_eq_of_regroups hrgroups hmembers
    refine ⟨compileAfter_or hs ?_ ?_ (hqopened.trans hropened.symm), nofun⟩
    · rw [← q.connective?_opened, hqopened, Predicate.connective?]
    · rw [← r.connective?_opened, hropened, Predicate.connective?]

end Statement

namespace Bracketed

open Moved (keyed isOne)

def selection : Statement := .select { source := some (keyed "a") }

def either : Predicate := .group .or [isOne "a", isOne "a"]

def grouping : Grouping :=
  .together (.single (isOne "a")) [.together (.single either) [.single (isOne "a")]]

lemma solid_leaves : ∀ p ∈ grouping.leaves, p.Solid := by
  have hone : (isOne "a").Solid := .comparison _
  have heither : either.Solid := .group (List.cons_ne_nil _ _) (by simpa using hone)
  change ∀ p ∈ [isOne "a", either, isOne "a"], p.Solid
  simp [hone, heither]

end Bracketed

open Bracketed in
theorem Statement.compileAfter_grouping_bracketed :
    (∀ v, selection.filter ≠ some (.stray v)) ∧ 2 ≤ grouping.leaves.length ∧
      (∀ p ∈ grouping.leaves, p.Solid) ∧
      (∀ k, ∃ t u, grouping.build k = .ok t ∧
        Term.combine k (grouping.leaves.map .predicate) = .ok u ∧
        selection.compileAfter [.restrict t] = selection.compileAfter [.restrict u] ∧
        (k = .and → selection.compileAfter (restrictions grouping.leaves) =
          selection.compileAfter [.restrict u])) ∧
      ∀ p : Predicate, p.Composed → p.Flat ∧ p.Wide := by
  have hs : ∀ v, selection.filter ≠ some (.stray v) := fun v h => by cases h
  have hlength : 2 ≤ grouping.leaves.length := by decide
  exact ⟨hs, hlength, solid_leaves, compileAfter_grouping hs hlength solid_leaves⟩

end Tablewright
