import Mathlib.Data.List.Induction
import Tablewright.Proofs.Statement.Assigned

namespace Tablewright

variable {t : Table} {entries others : List (Value × Supply)} {k : Value} {c d : TableColumn}

namespace Table

/-- What a key of a mapping stands for: a column under its name in any letter case, or the column
itself. -/
inductive Names (t : Table) : Value → TableColumn → Prop
  | name {s : String} {c : Column} : c ∈ t.columns → Text.fold c.name = Text.fold s →
      t.Names (.text s) (t.column c)
  | column {c : TableColumn} : c ∈ t.allColumns → t.Names (.column c) c

def IsKey (t : Table) (k : Value) : Prop := (∃ s, k = .text s) ∨ ∃ c ∈ t.allColumns, k = .column c

lemma Names.mem_allColumns (h : t.Names k c) : c ∈ t.allColumns := by
  cases h with
  | name hc _ => exact List.mem_map_of_mem hc
  | column hc => exact hc

lemma Names.unique (ht : t.foldedNames.Nodup) (hc : t.Names k c) (hd : t.Names k d) : c = d := by
  cases hc with
  | name hc hname =>
    cases hd with
    | name hd hname' => rw [column_eq_of_fold ht hc hd (hname.trans hname'.symm)]
  | column _ =>
    cases hd with
    | column _ => rfl

lemma resolve_eq_ok_iff (ht : t.foldedNames.Nodup) (hk : t.IsKey k) :
    (ColumnKey.ofValue k).resolve t = .ok c ↔ t.Names k c := by
  obtain ⟨s, rfl⟩ | ⟨d, hd, rfl⟩ := hk
  · rw [ColumnKey.ofValue, resolve_name_eq_ok_iff]
    constructor
    · rintro ⟨d, hd, rfl⟩
      exact .name (List.mem_of_find?_eq_some hd) (by simpa using List.find?_some hd)
    · intro hnames
      obtain @⟨_, column, hc, hname⟩ := hnames
      refine ⟨column, ?_, rfl⟩
      obtain ⟨d, hd⟩ := Option.isSome_iff_exists.mp
        ((t.column?_isSome_iff s).mpr ⟨column, hc, hname⟩)
      have hname' : Text.fold d.name = Text.fold s := by simpa using List.find?_some hd
      rw [hd, column_eq_of_fold ht hc (List.mem_of_find?_eq_some hd) (hname.trans hname'.symm)]
  · have htable : d.table = t.name := by
      obtain ⟨column, -, rfl⟩ := List.mem_map.mp hd
      rfl
    rw [ColumnKey.ofValue, ColumnKey.resolve, if_pos htable]
    constructor
    · rintro ⟨⟩
      exact .column hd
    · rintro ⟨⟩
      rfl

end Table

structure Assigns (t : Table) (entries : List (Value × Supply)) (assigned : List Assignment) :
    Prop where
  inOrder : (assigned.map (·.1)).Sublist t.allColumns
  once : (assigned.map (·.1)).Nodup
  named : ∀ c, c ∈ assigned.map (·.1) ↔ ∃ e ∈ entries, t.Names e.1 c
  last : ∀ c v, (c, v) ∈ assigned → ∃ front key back, entries = front ++ (key, v) :: back ∧
    t.Names key c ∧ ∀ e ∈ back, ¬ t.Names e.1 c

def Agree (t : Table) (entries : List (Value × Supply)) : Prop :=
  ∀ e ∈ entries, ∀ f ∈ entries, ∀ c, t.Names e.1 c → t.Names f.1 c → e.2 = f.2

def keyedEntries (entries : List (Value × Supply)) : List (ColumnKey × Supply) :=
  entries.map fun e => (.ofValue e.1, e.2)

section Settled

lemma mem_latestByColumn {pairs : List Assignment} {v : Supply} : (c, v) ∈ latestByColumn t pairs ↔
    c ∈ t.allColumns ∧ ∃ p, latest (·.1.name) c.name pairs = some p ∧ p.2 = v := by
  simp only [latestByColumn, List.mem_filterMap, Option.map_eq_some_iff, Prod.mk.injEq]
  constructor
  · rintro ⟨_, hc, p, hp, rfl, hv⟩
    exact ⟨hc, p, hp, hv⟩
  · rintro ⟨hc, p, hp, hv⟩
    exact ⟨c, hc, p, hp, rfl, hv⟩

lemma latestByColumn_inOrder (pairs : List Assignment) :
    ((latestByColumn t pairs).map (·.1)).Sublist t.allColumns := by
  have hfilter : (latestByColumn t pairs).map (·.1) =
      t.allColumns.filter fun c => (latest (·.1.name) c.name pairs).isSome := by
    rw [latestByColumn, List.map_filterMap, ← List.filterMap_eq_filter]
    refine List.filterMap_congr fun c _ => ?_
    cases hp : latest (·.1.name) c.name pairs <;> simp [Option.guard, hp]
  rw [hfilter]
  exact List.filter_sublist

lemma nodup_allColumns (ht : t.foldedNames.Nodup) : t.allColumns.Nodup := by
  have hnames : (t.allColumns.map fun c => Text.fold c.name) = t.foldedNames := by
    rw [Table.allColumns, Table.foldedNames, Table.columnNames, List.map_map, List.map_map]
    rfl
  exact List.Nodup.of_map _ (hnames ▸ ht)

lemma eq_of_name (ht : t.foldedNames.Nodup) (hc : c ∈ t.allColumns) (hd : d ∈ t.allColumns)
    (h : c.name = d.name) : c = d := by
  obtain ⟨column, hcolumn, rfl⟩ := List.mem_map.mp hc
  obtain ⟨column', hcolumn', rfl⟩ := List.mem_map.mp hd
  exact congrArg t.column (Table.column_eq_of_fold ht hcolumn hcolumn' (congrArg Text.fold h))

lemma resolved_eq_some_iff (ht : t.foldedNames.Nodup) (hk : t.IsKey k) {v : Supply}
    {p : Assignment} :
    ((ColumnKey.ofValue k).resolve t).toOption.map (·, v) = some p ↔
      t.Names k p.1 ∧ v = p.2 := by
  rw [← Table.resolve_eq_ok_iff ht hk]
  cases (ColumnKey.ofValue k).resolve t with
  | error f => exact ⟨nofun, fun h => nomatch h.1⟩
  | ok c => simp [Except.toOption, Prod.ext_iff]

lemma mem_resolvedEntries (ht : t.foldedNames.Nodup) (hkeys : ∀ e ∈ entries, t.IsKey e.1)
    {p : Assignment} : p ∈ resolvedEntries t (keyedEntries entries) ↔
      ∃ e ∈ entries, t.Names e.1 p.1 ∧ e.2 = p.2 := by
  rw [resolvedEntries, keyedEntries, List.filterMap_map, List.mem_filterMap]
  exact exists_congr fun e => and_congr_right fun he => resolved_eq_some_iff ht (hkeys e he)

lemma column_of_resolved (ht : t.foldedNames.Nodup) (hkeys : ∀ e ∈ entries, t.IsKey e.1)
    {p : Assignment} (hp : p ∈ resolvedEntries t (keyedEntries entries)) (hc : c ∈ t.allColumns)
    (hname : p.1.name = c.name) : p.1 = c := by
  obtain ⟨e, -, hnames, -⟩ := (mem_resolvedEntries ht hkeys).mp hp
  exact eq_of_name ht hnames.mem_allColumns hc hname

lemma mem_columns_latestByColumn (ht : t.foldedNames.Nodup)
    (hkeys : ∀ e ∈ entries, t.IsKey e.1) :
    c ∈ (latestByColumn t (resolvedEntries t (keyedEntries entries))).map (·.1) ↔
      ∃ e ∈ entries, t.Names e.1 c := by
  rw [List.mem_map]
  constructor
  · rintro ⟨⟨c, v⟩, hv, rfl⟩
    obtain ⟨hc, p, hp, -⟩ := mem_latestByColumn.mp hv
    obtain ⟨hmem, hname⟩ := latest_eq_some hp
    obtain ⟨e, he, hnames, -⟩ := (mem_resolvedEntries ht hkeys).mp hmem
    exact ⟨e, he, column_of_resolved ht hkeys hmem hc hname ▸ hnames⟩
  · rintro ⟨e, he, hnames⟩
    have hmem : (c, e.2) ∈ resolvedEntries t (keyedEntries entries) :=
      (mem_resolvedEntries ht hkeys).mpr ⟨e, he, hnames, rfl⟩
    have hsome : (latest (·.1.name) c.name (resolvedEntries t (keyedEntries entries))).isSome :=
      latest_isSome_iff.mpr ⟨_, hmem, rfl⟩
    obtain ⟨p, hp⟩ := Option.isSome_iff_exists.mp hsome
    exact ⟨(c, p.2), mem_latestByColumn.mpr ⟨hnames.mem_allColumns, p, hp, rfl⟩, rfl⟩

lemma last_of_mem_latestByColumn (ht : t.foldedNames.Nodup)
    (hkeys : ∀ e ∈ entries, t.IsKey e.1) {v : Supply}
    (hv : (c, v) ∈ latestByColumn t (resolvedEntries t (keyedEntries entries))) :
    ∃ front key back, entries = front ++ (key, v) :: back ∧ t.Names key c ∧
      ∀ e ∈ back, ¬ t.Names e.1 c := by
  obtain ⟨hc, p, hp, rfl⟩ := mem_latestByColumn.mp hv
  obtain ⟨hname, front, back, hpairs, hback⟩ := latest_eq_some_iff.mp hp
  have hpc : p.1 = c := column_of_resolved ht hkeys (latest_eq_some hp).1 hc hname
  -- the pairs go with the entries one by one
  rw [resolvedEntries, keyedEntries, List.filterMap_map] at hpairs
  obtain ⟨first, rest, rfl, -, hrest⟩ := List.filterMap_eq_append_iff.mp hpairs
  obtain ⟨skipped, e, last, rfl, -, he, hlast⟩ := List.filterMap_eq_cons_iff.mp hrest
  have hkeys' : ∀ f ∈ e :: last, t.IsKey f.1 := fun f hf =>
    hkeys f (List.mem_append_right _ (List.mem_append_right _ hf))
  obtain ⟨hnames, hvalue⟩ := (resolved_eq_some_iff ht (hkeys' e List.mem_cons_self)).mp he
  refine ⟨first ++ skipped, e.1, last, ?_, hpc ▸ hnames, fun f hf hfnames => ?_⟩
  · rw [List.append_assoc, ← hvalue]
  · refine hback (c, f.2) ?_ rfl
    rw [← hlast]
    exact List.mem_filterMap.mpr ⟨f, hf, (resolved_eq_some_iff ht
      (hkeys' f (List.mem_cons_of_mem e hf))).mpr ⟨hfnames, rfl⟩⟩

lemma assigns_latestByColumn (ht : t.foldedNames.Nodup) (hkeys : ∀ e ∈ entries, t.IsKey e.1) :
    Assigns t entries (latestByColumn t (resolvedEntries t (keyedEntries entries))) where
  inOrder := latestByColumn_inOrder _
  once := (latestByColumn_inOrder _).nodup (nodup_allColumns ht)
  named _ := mem_columns_latestByColumn ht hkeys
  last _ _ := last_of_mem_latestByColumn ht hkeys

lemma latestByColumn_congr {pairs pairs' : List Assignment} (hmem : ∀ p, p ∈ pairs ↔ p ∈ pairs')
    (hagree : ∀ p ∈ pairs, ∀ q ∈ pairs, p.1.name = q.1.name → p.2 = q.2) :
    latestByColumn t pairs = latestByColumn t pairs' := by
  refine List.filterMap_congr fun c _ => ?_
  cases hp : latest (·.1.name) c.name pairs with
  | none =>
    have hnone : latest (·.1.name) c.name pairs' = none := by
      rw [← Option.not_isSome_iff_eq_none, latest_isSome_iff]
      rintro ⟨q, hq, hname⟩
      have hsome : (latest (·.1.name) c.name pairs).isSome :=
        latest_isSome_iff.mpr ⟨q, (hmem q).mpr hq, hname⟩
      rw [hp] at hsome
      cases hsome
    rw [hnone]
  | some p =>
    -- both lists have a last pair for the column; it may be another one, but the two agree
    obtain ⟨hp, hpname⟩ := latest_eq_some hp
    have hsome : (latest (·.1.name) c.name pairs').isSome :=
      latest_isSome_iff.mpr ⟨p, (hmem p).mp hp, hpname⟩
    obtain ⟨q, hq⟩ := Option.isSome_iff_exists.mp hsome
    obtain ⟨hqmem, hqname⟩ := latest_eq_some hq
    rw [hq, Option.map_some, Option.map_some,
      hagree p hp q ((hmem q).mpr hqmem) (hpname.trans hqname.symm)]

end Settled

section Reordered

variable {assigned : List Assignment}

lemma assignments_keyedEntries_eq_ok_iff (ht : t.foldedNames.Nodup)
    (hkeys : ∀ e ∈ entries, t.IsKey e.1) :
    assignments t (keyedEntries entries) = .ok assigned ↔ entries ≠ [] ∧
      (∀ e ∈ entries, ∃ c, t.Names e.1 c) ∧
        assigned = latestByColumn t (resolvedEntries t (keyedEntries entries)) := by
  have hresolve : (∀ e ∈ keyedEntries entries, ∃ c, e.1.resolve t = .ok c) ↔
      ∀ e ∈ entries, ∃ c, t.Names e.1 c := by
    rw [keyedEntries, List.forall_mem_map]
    exact forall₂_congr fun e he => exists_congr fun c => Table.resolve_eq_ok_iff ht (hkeys e he)
  rw [assignments_eq_ok_iff, hresolve, keyedEntries, ne_eq, List.map_eq_nil_iff]

lemma Agree.latestByColumn_eq (h : Agree t entries) (ht : t.foldedNames.Nodup)
    (hkeys : ∀ e ∈ entries, t.IsKey e.1) (hperm : others.Perm entries) :
    latestByColumn t (resolvedEntries t (keyedEntries entries)) =
      latestByColumn t (resolvedEntries t (keyedEntries others)) := by
  refine latestByColumn_congr (fun p => ?_) fun p hp q hq hname => ?_
  · exact ((hperm.map _).filterMap _).symm.mem_iff
  · obtain ⟨e, he, hpnames, hpvalue⟩ := (mem_resolvedEntries ht hkeys).mp hp
    obtain ⟨f, hf, hqnames, hqvalue⟩ := (mem_resolvedEntries ht hkeys).mp hq
    have hcolumn := eq_of_name ht hpnames.mem_allColumns hqnames.mem_allColumns hname
    rw [← hpvalue, ← hqvalue]
    exact h e he f hf p.1 hpnames (hcolumn ▸ hqnames)

namespace Assigns

lemma value_unique (h : Assigns t entries assigned) {v w : Supply} (hv : (c, v) ∈ assigned)
    (hw : (c, w) ∈ assigned) : v = w :=
  congrArg Prod.snd (List.inj_on_of_nodup_map h.once hv hw rfl)

lemma keeps_iff (h : Assigns t entries assigned) :
    (∀ e ∈ entries, ∀ c, t.Names e.1 c → (c, e.2) ∈ assigned) ↔ Agree t entries := by
  constructor
  · intro hkeeps e he f hf c hec hfc
    exact h.value_unique (hkeeps e he c hec) (hkeeps f hf c hfc)
  · intro hagree e he c hec
    obtain ⟨⟨c, v⟩, hv, rfl⟩ := List.mem_map.mp ((h.named c).mpr ⟨e, he, hec⟩)
    obtain ⟨front, key, back, hentries, hnames, -⟩ := h.last c v hv
    have hmem : (key, v) ∈ entries := hentries ▸ List.mem_append_right _ List.mem_cons_self
    rw [hagree e he _ hmem c hec hnames]
    exact hv

lemma value_of_last {e : Value × Supply} {v : Supply} (h : Assigns t (others ++ [e]) assigned)
    (hnames : t.Names e.1 c) (hv : (c, v) ∈ assigned) : v = e.2 := by
  obtain ⟨front, key, back, hentries, -, hback⟩ := h.last c v hv
  cases back using List.reverseRecOn with
  | nil =>
    obtain ⟨-, hlast⟩ := List.append_inj' hentries rfl
    rw [List.singleton_inj.mp hlast]
  | append_singleton back f =>
    rw [← List.cons_append, ← List.append_assoc] at hentries
    obtain ⟨-, hlast⟩ := List.append_inj' hentries rfl
    rw [List.singleton_inj.mp hlast] at hnames
    exact absurd hnames (hback f (List.mem_append_right _ List.mem_cons_self))

end Assigns

lemma agree_of_reordered (ht : t.foldedNames.Nodup) (hkeys : ∀ e ∈ entries, t.IsKey e.1)
    (h : ∀ others : List (Value × Supply), others.Perm entries →
      assigned = latestByColumn t (resolvedEntries t (keyedEntries others))) : Agree t entries := by
  have hvalue : ∀ e ∈ entries, ∀ c v, t.Names e.1 c → (c, v) ∈ assigned → v = e.2 := by
    intro e he c v hnames hv
    obtain ⟨front, back, rfl⟩ := List.append_of_mem he
    have hmiddle : (front ++ e :: back).Perm (e :: (front ++ back)) := List.perm_middle
    have hperm : (front ++ back ++ [e]).Perm (front ++ e :: back) :=
      List.perm_append_comm.trans hmiddle.symm
    have hassigns : Assigns t (front ++ back ++ [e]) assigned := by
      rw [h _ hperm]
      exact assigns_latestByColumn ht fun f hf => hkeys f (hperm.subset hf)
    exact hassigns.value_of_last hnames hv
  have hassigns : Assigns t entries assigned := by
    rw [h entries (List.Perm.refl _)]
    exact assigns_latestByColumn ht hkeys
  intro e he f hf c hec hfc
  obtain ⟨⟨c, v⟩, hv, rfl⟩ := List.mem_map.mp ((hassigns.named c).mpr ⟨e, he, hec⟩)
  rw [← hvalue e he c v hec hv, hvalue f hf c v hfc hv]

end Reordered

def Term.mapping? : Term → Option (List (Value × Supply))
  | map entries => some (entries.map fun e => (e.1, e.2.asSupply))
  | .value (.map entries) => some (entries.map fun e => (e.1, (Term.value e.2).asSupply))
  | _ => none

lemma Term.mapping?_ofEntries (entries : List (Value × Supply)) :
    (Term.map (entries.map fun e => (e.1, .supply e.2))).mapping? = some entries := by
  rw [mapping?, List.map_map]
  exact congrArg some (List.map_id _)

lemma Term.assignments_of_mapping {given : Term} (h : given.mapping? = some entries) (t : Table)
    (givenOnly : Bool) :
    given.assignments t givenOnly = Tablewright.assignments t (keyedEntries entries) := by
  have hentries : given.assignmentEntries givenOnly = .ok (keyedEntries entries) := by
    unfold mapping? at h
    split at h
    · obtain rfl := Option.some.inj h
      rw [assignmentEntries, keyedEntries, List.map_map]
      rfl
    · obtain rfl := Option.some.inj h
      rw [assignmentEntries, keyedEntries, List.map_map]
      rfl
    · cases h
  rw [assignments, hentries]
  rfl

namespace Statement

def taking? : Statement → Option (Table × (Term → Step))
  | insert s => some (s.table, .values)
  | update s => some (s.table, .assign)
  | _ => none

def assigned : Statement → List Assignment
  | insert s => s.assignments
  | update s => s.assignments
  | _ => []

def assign (s : Statement) (assigned : List Assignment) : Statement :=
  match s with
  | insert s => insert { s with assignments := assigned }
  | update s => update { s with assignments := assigned }
  | s => s

variable {s : Statement} {take : Term → Step} {given : Term}

lemma assigned_assign (h : s.taking? = some (t, take)) (a : List Assignment) :
    (s.assign a).assigned = a := by
  cases s with
  | insert s => rfl
  | update s => rfl
  | _ => cases h

lemma step_take (h : s.taking? = some (t, take)) (hgiven : given.mapping? = some entries) :
    s.step (take given) = (Tablewright.assignments t (keyedEntries entries)).map s.assign := by
  cases s with
  | insert s =>
    obtain ⟨rfl, rfl⟩ := Prod.mk.inj (Option.some.inj h)
    rw [← Term.assignments_of_mapping hgiven _ false, step, Insert.values]
    cases given.assignments s.table false <;> rfl
  | update s =>
    obtain ⟨rfl, rfl⟩ := Prod.mk.inj (Option.some.inj h)
    rw [← Term.assignments_of_mapping hgiven _ true, step, Update.assign]
    cases given.assignments s.table true <;> rfl
  | _ => cases h

lemma step_take_eq_ok_iff (ht : t.foldedNames.Nodup) (hs : s.taking? = some (t, take))
    (hgiven : given.mapping? = some entries) (hkeys : ∀ e ∈ entries, t.IsKey e.1) {s' : Statement} :
    s.step (take given) = .ok s' ↔ entries ≠ [] ∧ (∀ e ∈ entries, ∃ c, t.Names e.1 c) ∧
      s.assign (latestByColumn t (resolvedEntries t (keyedEntries entries))) = s' := by
  rw [step_take hs hgiven, map_eq_ok_iff]
  simp only [assignments_keyedEntries_eq_ok_iff ht hkeys]
  constructor
  · rintro ⟨_, ⟨hentries, hall, rfl⟩, hs'⟩
    exact ⟨hentries, hall, hs'⟩
  · rintro ⟨hentries, hall, hs'⟩
    exact ⟨_, ⟨hentries, hall, rfl⟩, hs'⟩

/-- A mapping is taken if it has entries and all of its keys stand for columns. What is assigned
follows the order of the table, and of several entries for a column the last one counts; so no value
is lost if and only if the entries for each column agree, and only then does their order not
matter. -/
theorem assigned_iff_agree {tables : List Table} {indexes : List Index} {schema : Schema}
    (hschema : Schema.build tables indexes = .ok schema) (ht : t ∈ tables)
    (hs : s.taking? = some (t, take)) (hgiven : given.mapping? = some entries)
    (hkeys : ∀ e ∈ entries, t.IsKey e.1) :
    ((∃ s', s.step (take given) = .ok s') ↔
      entries ≠ [] ∧ ∀ e ∈ entries, ∃ c, t.Names e.1 c) ∧
    ∀ s', s.step (take given) = .ok s' → Assigns t entries s'.assigned ∧
      ((∀ e ∈ entries, ∀ c, t.Names e.1 c → (c, e.2) ∈ s'.assigned) ↔ Agree t entries) ∧
      ((∀ (other : Term) (others : List (Value × Supply)), other.mapping? = some others →
        others.Perm entries → s.step (take other) = .ok s') ↔ Agree t entries) := by
  obtain ⟨hconsistent, -⟩ := Schema.build_eq_ok_iff.mp hschema
  have hdistinct := hconsistent.distinct_columns ht
  have hstep {other : Term} {others : List (Value × Supply)}
      (hother : other.mapping? = some others) (hperm : others.Perm entries) (s' : Statement) :
      s.step (take other) = .ok s' ↔ entries ≠ [] ∧ (∀ e ∈ entries, ∃ c, t.Names e.1 c) ∧
        s.assign (latestByColumn t (resolvedEntries t (keyedEntries others))) = s' := by
    have hothers : ∀ e ∈ others, t.IsKey e.1 := fun e he => hkeys e (hperm.subset he)
    have hnames : (∀ e ∈ others, ∃ c, t.Names e.1 c) ↔ ∀ e ∈ entries, ∃ c, t.Names e.1 c :=
      forall_congr' fun e => imp_congr_left hperm.mem_iff
    have hnil : others ≠ [] ↔ entries ≠ [] := by
      rw [← List.length_pos_iff, ← List.length_pos_iff, hperm.length_eq]
    rw [step_take_eq_ok_iff hdistinct hs hother hothers, hnames, hnil]
  have hsame := hstep hgiven (List.Perm.refl entries)
  refine ⟨?_, fun s' hs' => ?_⟩
  · simp only [hsame]
    exact ⟨fun ⟨_, hentries, hall, _⟩ => ⟨hentries, hall⟩, fun ⟨hentries, hall⟩ =>
      ⟨_, hentries, hall, rfl⟩⟩
  · obtain ⟨hentries, hall, rfl⟩ := (hsame s').mp hs'
    have hassigns := assigns_latestByColumn hdistinct hkeys
    rw [assigned_assign hs]
    refine ⟨hassigns, hassigns.keeps_iff, fun h => ?_, fun hagree other others hother hperm => ?_⟩
    · have hlatest : ∀ others : List (Value × Supply), others.Perm entries →
          latestByColumn t (resolvedEntries t (keyedEntries entries)) =
            latestByColumn t (resolvedEntries t (keyedEntries others)) := by
        intro others hperm
        have hother := Term.mapping?_ofEntries others
        obtain ⟨-, -, hassigned⟩ := (hstep hother hperm _).mp (h _ others hother hperm)
        rw [← assigned_assign hs (latestByColumn t (resolvedEntries t (keyedEntries others))),
          hassigned, assigned_assign hs]
      exact agree_of_reordered hdistinct hkeys hlatest
    · rw [hstep hother hperm, hagree.latestByColumn_eq hdistinct hkeys hperm]
      exact ⟨hentries, hall, rfl⟩

end Statement

namespace Doubled

def key : Column := { name := "id", kind := .integer, primaryKey := true }

def body : Column := { name := "body", kind := .text }

def note : Table := ⟨"note", [key, body]⟩

def declared : Schema := .ofDescriptions [note] []

def adding : Statement := .insert { table := note }

def given : Value × Term := (.text "BODY", .value (.text "x"))

def numbered : Value × Term := (.column (note.column key), .supply (.literal (.int 1)))

def one : Value × Term := (.text "id", .supply (.literal (.int 1)))

def two : Value × Term := (.text "ID", .supply (.literal (.int 2)))

def lines : List (Value × Supply) :=
  [(.text "BODY", .param { value := some (.text "x") }),
    (.column (note.column key), .literal (.int 1))]

lemma names_body : note.Names (.text "BODY") (note.column body) :=
  .name (List.mem_cons_of_mem _ List.mem_cons_self) (by decide)

lemma names_key : note.Names (.column (note.column key)) (note.column key) :=
  .column List.mem_cons_self

lemma isKey : ∀ e ∈ lines, note.IsKey e.1 :=
  List.forall_mem_cons.mpr ⟨.inl ⟨_, rfl⟩, List.forall_mem_singleton.mpr
    (.inr ⟨_, List.mem_cons_self, rfl⟩)⟩

lemma agree : Agree note lines := by
  have hdistinct : note.foldedNames.Nodup := by decide
  have hapart : note.column body ≠ note.column key := by decide
  have hbody {c : TableColumn} (h : note.Names (.text "BODY") c) : c = note.column body :=
    h.unique hdistinct names_body
  have hkey {c : TableColumn} (h : note.Names (.column (note.column key)) c) :
      c = note.column key := h.unique hdistinct names_key
  intro e he f hf c hec hfc
  simp only [lines, List.mem_cons, List.not_mem_nil, or_false] at he hf
  obtain rfl | rfl := he <;> obtain rfl | rfl := hf
  · rfl
  · exact absurd ((hbody hec).symm.trans (hkey hfc)) hapart
  · exact absurd ((hbody hfc).symm.trans (hkey hec)) hapart
  · rfl

end Doubled

open Doubled in
theorem Statement.assigned_iff_agree_capitals : Schema.build [note] [] = .ok declared ∧
    ∃ s', adding.step (.values (.map [given, numbered])) = .ok s' ∧
      (note.column body, .param { value := some (.text "x") }) ∈ s'.assigned ∧
      adding.step (.values (.map [numbered, given])) = .ok s' := by
  have hschema : Schema.build [note] [] = .ok declared := rfl
  have hgiven : (Term.map [given, numbered]).mapping? = some lines := rfl
  obtain ⟨haccepts, hassigns⟩ := Statement.assigned_iff_agree (s := adding) (t := note)
    hschema List.mem_cons_self rfl hgiven isKey
  obtain ⟨s', hs'⟩ := haccepts.mpr ⟨List.cons_ne_nil _ _, List.forall_mem_cons.mpr
    ⟨⟨_, names_body⟩, List.forall_mem_singleton.mpr ⟨_, names_key⟩⟩⟩
  obtain ⟨-, hkeeps, horder⟩ := hassigns s' hs'
  exact ⟨hschema, s', hs', hkeeps.mpr agree _ List.mem_cons_self _ names_body,
    horder.mpr agree (.map [numbered, given]) _ rfl (List.Perm.swap _ _ _)⟩

open Doubled in
/-- Of two names for one column the first is lost, so their order decides what is written. -/
theorem Statement.assigned_overwritten : Schema.build [note] [] = .ok declared ∧
    note.Names (.text "id") (note.column key) ∧ note.Names (.text "ID") (note.column key) ∧
    adding.step (.values (.map [one, two])) = .ok (.insert
      { table := note, assignments := [(note.column key, .literal (.int 2))] }) ∧
    adding.step (.values (.map [two, one])) = .ok (.insert
      { table := note, assignments := [(note.column key, .literal (.int 1))] }) :=
  ⟨rfl, .name List.mem_cons_self rfl, .name List.mem_cons_self (by decide), rfl, rfl⟩

end Tablewright
