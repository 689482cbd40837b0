import Tablewright.Proofs.Database.Closed
import Tablewright.Proofs.Migration.Known

namespace Tablewright

namespace Text

lemma plain_append (s t : String) : plain (s ++ t) = plain s ++ plain t := by
  simp [plain]

lemma plain_intercalate (separator : String) (parts : List String) :
    plain (separator.intercalate parts) = (plain separator).intercalate (parts.map plain) := by
  induction parts with
  | nil => rfl
  | cons s rest ih =>
    cases rest with
    | nil => simp
    | cons t rest =>
      simp only [List.map_cons] at ih
      rw [String.intercalate_cons_cons, plain_append, plain_append, ih]
      simp only [List.map_cons, String.intercalate_cons_cons]

end Text

namespace Index

def SameName (i j : Index) : Prop := Text.plain i.name = Text.plain j.name

def SameTarget (i j : Index) : Prop :=
  Text.plain i.table = Text.plain j.table ∧ i.columns.map Text.plain = j.columns.map Text.plain

instance (i j : Index) : Decidable (i.SameName j) := inferInstanceAs (Decidable (_ = _))

instance (i j : Index) : Decidable (i.SameTarget j) := inferInstanceAs (Decidable (_ ∧ _))

lemma SameTarget.symm {i j : Index} (h : i.SameTarget j) : j.SameTarget i := ⟨h.1.symm, h.2.symm⟩

lemma SameTarget.trans {i j k : Index} (h : i.SameTarget j) (h' : j.SameTarget k) :
    i.SameTarget k := ⟨h.1.trans h'.1, h.2.trans h'.2⟩

lemma SameTarget.name {table other : String} {columns others : List String} {unique unique' : Bool}
    (h : (on table columns unique).SameTarget (on other others unique')) :
    (on table columns unique).SameName (on other others unique') := by
  obtain ⟨htable, hcolumns⟩ := h
  simp only [on] at htable hcolumns
  simp only [SameName, on, Text.plain_intercalate, List.map_cons, htable, hcolumns]

end Index

namespace LiveSchema

/-- What the engine makes of an index that is to be created if it does not exist. -/
def enter (s : LiveSchema) (i : Index) : LiveSchema :=
  if s.indexes.any fun e => Text.plain e.1 == Text.plain i.name then s
  else { s with indexes := s.indexes ++ [(i.name, i)] }

def enterAll (s : LiveSchema) (indexes : List Index) : LiveSchema := indexes.foldl enter s

structure Entered (indexes : List Index) (s : LiveSchema) : Prop where
  keyed : ∀ e ∈ s.indexes, e.1 = e.2.name ∧ e.2 ∈ indexes
  distinct : (s.indexes.map fun e => Text.plain e.1).Nodup

section

variable {s : LiveSchema} {i : Index} {indexes all : List Index}

lemma enter_of_known (h : ∃ e ∈ s.indexes, Text.plain e.1 = Text.plain i.name) : s.enter i = s :=
  if_pos (List.any_eq_true.mpr (by simpa using h))

lemma enter_of_new (h : ¬ ∃ e ∈ s.indexes, Text.plain e.1 = Text.plain i.name) :
    s.enter i = { s with indexes := s.indexes ++ [(i.name, i)] } := by
  refine if_neg fun hany => h ?_
  simpa using List.any_eq_true.mp hany

lemma subset_enter : s.indexes ⊆ (s.enter i).indexes := by
  by_cases h : ∃ e ∈ s.indexes, Text.plain e.1 = Text.plain i.name
  · rw [enter_of_known h]
    exact List.Subset.refl _
  · rw [enter_of_new h]
    exact List.subset_append_left _ _

lemma Entered.enter (h : s.Entered all) (hi : i ∈ all) :
    (s.enter i).Entered all ∧
      ∃ e ∈ (s.enter i).indexes, Text.plain e.1 = Text.plain i.name := by
  by_cases hknown : ∃ e ∈ s.indexes, Text.plain e.1 = Text.plain i.name
  · rw [enter_of_known hknown]
    exact ⟨h, hknown⟩
  · rw [enter_of_new hknown]
    refine ⟨⟨fun e he => ?_, ?_⟩, (i.name, i), by simp, rfl⟩
    · rcases List.mem_append.mp he with he | he
      · exact h.keyed e he
      · exact List.mem_singleton.mp he ▸ ⟨rfl, hi⟩
    · rw [List.map_append, List.nodup_append]
      refine ⟨h.distinct, List.nodup_singleton _, fun a ha b hb hab => hknown ?_⟩
      obtain ⟨e, he, rfl⟩ := List.mem_map.mp ha
      obtain rfl := List.mem_singleton.mp hb
      exact ⟨e, he, hab⟩

lemma Entered.enterAll (h : s.Entered all) (hall : indexes ⊆ all) :
    s.indexes ⊆ (s.enterAll indexes).indexes ∧ (s.enterAll indexes).Entered all ∧
      ∀ i ∈ indexes, ∃ e ∈ (s.enterAll indexes).indexes, e.2.SameName i := by
  induction indexes generalizing s with
  | nil => exact ⟨List.Subset.refl _, h, nofun⟩
  | cons i rest ih =>
    obtain ⟨hi, hrest⟩ := List.cons_subset.mp hall
    obtain ⟨hentered, e, he, hname⟩ := h.enter hi
    obtain ⟨hkept, hentered', hnamed⟩ := ih hentered hrest
    refine ⟨List.Subset.trans subset_enter hkept, hentered',
      List.forall_mem_cons.mpr ⟨⟨e, hkept he, ?_⟩, hnamed⟩⟩
    rw [Index.SameName, ← (hentered.keyed e he).1, hname]

lemma enterAll_indexed_iff (hs : s.indexes = [])
    (htarget : ∀ i ∈ indexes, ∀ j ∈ indexes, i.SameTarget j → i.SameName j) :
    (∀ i ∈ indexes, ∃ e ∈ (s.enterAll indexes).indexes, e.2.SameTarget i) ↔
      ∀ i ∈ indexes, ∀ j ∈ indexes, i.SameName j → i.SameTarget j := by
  have hempty : s.Entered indexes := ⟨by simp [hs], by simp [hs]⟩
  obtain ⟨-, hentered, hnamed⟩ := hempty.enterAll (List.Subset.refl _)
  constructor
  · intro hall i hi j hj hsame
    obtain ⟨e, he, hei⟩ := hall i hi
    obtain ⟨f, hf, hfj⟩ := hall j hj
    obtain ⟨hekey, hemem⟩ := hentered.keyed e he
    obtain ⟨hfkey, hfmem⟩ := hentered.keyed f hf
    -- both go by the name of `i`, so they are one index
    have hname : Text.plain e.1 = Text.plain f.1 := by
      rw [hekey, hfkey]
      exact (htarget _ hemem i hi hei).trans (hsame.trans (htarget _ hfmem j hj hfj).symm)
    obtain rfl : e = f := List.inj_on_of_nodup_map hentered.distinct he hf hname
    exact hei.symm.trans hfj
  · intro hdistinct i hi
    obtain ⟨e, he, hname⟩ := hnamed i hi
    exact ⟨e, he, hdistinct _ (hentered.keyed e he).2 i hi hname⟩

end

end LiveSchema

namespace Database

structure Wish where
  table : String
  columns : List String
  unique : Bool := false

def Wish.index (v : Wish) : Index := .on v.table v.columns v.unique

def createAll : List Wish → Job Database (List Index)
  | [] => return []
  | v :: rest => do
    let i ← createIndexOn v.table v.columns v.unique
    return i :: (← createAll rest)

section

variable {w w' : Exchange × Database}

lemma execute_ddl_eq_ok {d : Ddl} (hparams : d.sql.params = []) {count : Int}
    (h : (execute (.statement (.ddl d)) .nothing).run w = (.ok count, w')) :
    ∃ c result w₁, c.sql = d.text ∧ c.bind .nothing = .ok [] ∧
      (onWriter (Connection.write c (.sequence []))).run w = (.ok result, w₁) ∧ w'.1 = w₁.1 := by
  obtain ⟨c, hc, hsql, hslots, hwrite, hddl⟩ : ∃ c, (Query.statement (.ddl d)).compile = .ok c ∧
      c.sql = d.text ∧ c.slots = [] ∧ c.isWrite = true ∧ c.isDdl = true :=
    ⟨_, rfl, rfl, by simp [Sql.slots, hparams], rfl, rfl⟩
  have hbind : c.bind .nothing = .ok [] := by
    rw [Compiled.bind, hslots]
    rfl
  rw [execute, run_compile hc] at h
  obtain ⟨result, w₁, hrun, hcount⟩ := Job.run_bind_eq_ok h
  obtain rfl : w₁ = w' := congrArg Prod.snd hcount
  rw [run, Job.run_ofExcept_bind_of_ok hbind] at hrun
  obtain ⟨_, w₂, hopen, hwrites⟩ := Job.run_bind_eq_ok hrun
  obtain rfl : w = w₂ := by
    rw [run_ensureOpen] at hopen
    exact congrArg Prod.snd hopen
  rw [if_pos hwrite] at hwrites
  obtain ⟨result', w₃, hwritten, hclear⟩ := Job.run_bind_eq_ok hwrites
  rw [if_pos hddl] at hclear
  obtain rfl : (invalidateCaches w₃).2 = w₁ := congrArg Prod.snd hclear
  exact ⟨c, result', w₃, hsql, hbind, hwritten, rfl⟩

lemma createIndexOn_eq_ok {v : Wish} {i : Index} (hw : w.2.Sound)
    (h : (createIndexOn v.table v.columns v.unique).run w = (.ok i, w')) :
    i = v.index ∧ w'.2.Sound ∧ ∃ new, w'.1.events = w.1.events ++ new ∧
      ∀ before st, Store.Runs (.quiet before) new st →
        st = .quiet (before ++ [⟨(Ddl.createIndex v.index).text, []⟩]) := by
  have hsettles : Settles w w' := by
    have hwalk := walks_createIndexOn v.table v.columns v.unique w
    rw [h] at hwalk
    exact hwalk.along fun _ _ => settles_step
  obtain ⟨hsound, new, hevents, -⟩ := hsettles hw
  obtain ⟨⟨⟩, w₁, hcreate, hreturn⟩ := Job.run_bind_eq_ok h
  obtain ⟨hi, rfl⟩ := Prod.mk.inj hreturn
  rw [createIndex, Job.run_subject_bind] at hcreate
  obtain ⟨⟨⟩, -, hrest⟩ := Job.run_ofExcept_bind_eq_ok hcreate
  obtain ⟨count, w₃, hexecute, hdone⟩ := Job.run_bind_eq_ok hrest
  obtain rfl : w₃ = w₁ := congrArg Prod.snd hdone
  obtain ⟨c, result, w₄, hsql, hbind, hwritten, hx⟩ :=
    execute_ddl_eq_ok (params_createIndex v.index) hexecute
  refine ⟨(Except.ok.inj hi).symm, hsound, new, hevents, fun before st hst => ?_⟩
  have hstored := (written_onWriter hbind hw).stored before st
  rw [hwritten, ← hx, Exchange.since_eq hevents] at hstored
  obtain ⟨values, hvalues, rfl⟩ := hstored hst
  rw [hsql, ← Except.ok.inj (hbind.symm.trans hvalues)]

lemma createAll_eq_ok {wishes : List Wish} {made : List Index} (hw : w.2.Sound)
    (h : (createAll wishes).run w = (.ok made, w')) :
    made = wishes.map (·.index) ∧ ∃ new, w'.1.events = w.1.events ++ new ∧
      ∀ before st, Store.Runs (.quiet before) new st →
        st = .quiet (before ++ wishes.map fun v => ⟨(Ddl.createIndex v.index).text, []⟩) := by
  induction wishes generalizing w made with
  | nil =>
    obtain ⟨hmade, rfl⟩ := Prod.mk.inj h
    refine ⟨(Except.ok.inj hmade).symm, [], (List.append_nil _).symm, fun before st hst => ?_⟩
    rw [hst, List.map_nil, List.append_nil]
  | cons v rest ih =>
    obtain ⟨i, w₁, hfirst, hothers⟩ := Job.run_bind_eq_ok h
    obtain ⟨others, w₂, hrest, hreturn⟩ := Job.run_bind_eq_ok hothers
    obtain ⟨hmade, rfl⟩ := Prod.mk.inj hreturn
    obtain ⟨rfl, hsound, new, hevents, hnew⟩ := createIndexOn_eq_ok hw hfirst
    obtain ⟨rfl, new', hevents', hnew'⟩ := ih hsound hrest
    refine ⟨(Except.ok.inj hmade).symm, new ++ new', ?_, fun before st hst => ?_⟩
    · rw [hevents', hevents, List.append_assoc]
    · obtain ⟨m, hm, hst⟩ := steps_append.mp hst
      obtain rfl := hnew before m hm
      rw [hnew' _ st hst, List.map_cons, List.append_assoc, List.singleton_append]

end

lemma Wish.sameName_of_sameTarget {u v : Wish} (h : u.index.SameTarget v.index) :
    u.index.SameName v.index :=
  Index.SameTarget.name h

/-- Indexes are created one after another on a database that has none. When all calls have returned,
their statements are committed; the indexes are all there if and only if no two calls for different
columns have come to one name. -/
theorem createAll_indexed_iff {schema : Schema} {settings : DatabaseSettings} {x x₀ : Exchange}
    {d : Database} (hopen : (openMigrated schema settings).run (x, ()) = (.ok d, x₀, ()))
    (tasks : List Task) {wishes : List Wish} {made : List Index} {w' : Exchange × Database}
    {before : List Executed} {st st' : Store} {live : LiveSchema} :
    let w := serve tasks (x₀, d)
    Store.Runs (.quiet before) (x.since w.1) st →
    (createAll wishes).run w = (.ok made, w') →
    Store.Runs st (w.1.since w'.1) st' →
    live.indexes = [] →
    made = wishes.map (·.index) ∧
      st'.committed = st.committed ++ made.map (fun i => ⟨(Ddl.createIndex i).text, []⟩) ∧
      ((∀ v ∈ wishes, ∃ e ∈ (live.enterAll made).indexes, e.2.SameTarget v.index) ↔
        ∀ u ∈ wishes, ∀ v ∈ wishes,
          u.index.SameName v.index → u.index.SameTarget v.index) := by
  intro w hbefore hmade hruns hlive
  obtain ⟨hsound, before', rfl⟩ := serve_quiet hopen tasks hbefore
  obtain ⟨rfl, new, hevents, hstore⟩ := createAll_eq_ok hsound hmade
  rw [Exchange.since_eq hevents] at hruns
  refine ⟨rfl, ?_, ?_⟩
  · rw [hstore before' st' hruns, List.map_map]
    rfl
  · have htarget : ∀ i ∈ wishes.map (·.index), ∀ j ∈ wishes.map (·.index),
        i.SameTarget j → i.SameName j := by
      simp only [List.forall_mem_map]
      exact fun u _ v _ => Wish.sameName_of_sameTarget
    simpa only [List.forall_mem_map] using LiveSchema.enterAll_indexed_iff hlive htarget

namespace Access

def user : Table :=
  ⟨"user", [{ name := "id", kind := .integer, primaryKey := true },
    { name := "role_id", kind := .integer }]⟩

def userRole : Table :=
  ⟨"user_role", [{ name := "id", kind := .integer, primaryKey := true },
    { name := "label", kind := .text }]⟩

def declared : Schema := .ofDescriptions [user, userRole] []

def live : LiveSchema := .ofDescriptions [user, userRole] []

def apart : List Wish := [⟨"user", ["role_id"], false⟩, ⟨"user_role", ["label", "id"], true⟩]

def joined : List Wish := [⟨"user", ["role_id"], false⟩, ⟨"user_role", ["id"], false⟩]

end Access

open Access in
theorem createAll_indexed_iff_apart : ∃ d x made w' st st',
    (openMigrated Access.declared {}).run ({}, ()) = (.ok d, x, ()) ∧
      Store.Runs (.quiet []) (Exchange.since {} x) st ∧
      (createAll apart).run (x, d) = (.ok made, w') ∧
      Store.Runs st (x.since w'.1) st' ∧ Access.live.indexes = [] ∧
      ∀ v ∈ apart, ∃ e ∈ (Access.live.enterAll made).indexes, e.2.SameTarget v.index := by
  obtain ⟨d, x, hopen, made, hmade⟩ : ∃ d x,
      (openMigrated Access.declared {}).run ({}, ()) = (.ok d, x, ()) ∧
        ∃ made, ((createAll apart).run (x, d)).1.toOption = some made :=
    ⟨_, _, rfl, apart.map (·.index), by decide +kernel⟩
  obtain ⟨w', hrun⟩ := Job.exists_run_eq_ok hmade
  obtain ⟨st, hst⟩ := Store.exists_runs (.quiet []) (Exchange.since {} x)
  obtain ⟨st', hst'⟩ := Store.exists_runs st (x.since w'.1)
  have hlive : Access.live.indexes = [] := rfl
  obtain ⟨-, -, hall⟩ := createAll_indexed_iff hopen [] hst hrun hst' hlive
  exact ⟨d, x, made, w', st, st', hopen, hst, hrun, hst', hlive, hall.mpr (by decide +kernel)⟩

open Access in
/-- Both calls return, and the second table has no index. -/
theorem createAll_passes_over : ∃ d x made w',
    (openMigrated Access.declared {}).run ({}, ()) = (.ok d, x, ()) ∧
      (createAll joined).run (x, d) = (.ok made, w') ∧ Access.live.indexes = [] ∧
      ¬ ∀ v ∈ joined, ∃ e ∈ (Access.live.enterAll made).indexes, e.2.SameTarget v.index := by
  obtain ⟨d, x, hopen, hmade⟩ : ∃ d x,
      (openMigrated Access.declared {}).run ({}, ()) = (.ok d, x, ()) ∧
        ((createAll joined).run (x, d)).1.toOption = some (joined.map (·.index)) :=
    ⟨_, _, rfl, by decide +kernel⟩
  obtain ⟨w', hrun⟩ := Job.exists_run_eq_ok hmade
  exact ⟨d, x, _, w', hopen, hrun, rfl, by decide +kernel⟩

end Database

end Tablewright
