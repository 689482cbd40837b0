import Tablewright.Proofs.Schema.Live

namespace Tablewright.LiveSchema

variable {s : LiveSchema}

def creations (tables : List Table) : List Ddl := tables.map .createTable

def additions (columns : List (String × Column)) : List Ddl :=
  columns.map fun p => .addColumn p.1 p.2

lemma tableUnder_creations (key : String → String) {tables : List Table}
    (h : s.Runs (creations tables)) (name : String) :
    (s.applyAll (creations tables)).tableUnder key name =
      (s.tableUnder key name).or (tables.find? fun t => key t.name == key name) := by
  induction tables generalizing s with
  | nil => simp [creations]
  | cons t rest ih =>
    have hstep := tableUnder_createTable key h.1.1 name
    have hrest := ih h.2
    simp only [creations, List.map_cons, applyAll_cons] at hrest ⊢
    rw [hrest, hstep, Option.or_assoc]
    by_cases hn : key t.name = key name <;> simp [hn]

lemma tables_creations {tables : List Table} (h : s.Runs (creations tables)) :
    (s.applyAll (creations tables)).tables = s.tables ++ tables.map fun t => (t.name, t) := by
  induction tables generalizing s with
  | nil => simp [creations]
  | cons t rest ih =>
    have hput := Keyed.put_of_notMem t.name t s.tables (notMem_keys_of_findTable? h.1.1)
    have hrest := ih h.2
    simp only [creations, List.map_cons, applyAll_cons] at hrest ⊢
    rw [hrest, apply, hput, List.append_assoc, List.singleton_append]

lemma findTable?_creations {tables : List Table} (h : s.Runs (creations tables)) (name : String) :
    (s.applyAll (creations tables)).findTable? name =
      (s.findTable? name).or (tables.find? fun t => Text.fold t.name == Text.fold name) :=
  tableUnder_creations Text.fold h name

lemma runs_creations {available : String → Prop} {tables : List Table}
    (hf : Follows available tables) (hd : DistinctNames tables)
    (hnew : ∀ t ∈ tables, s.findTable? t.name = none)
    (hav : ∀ t ∈ tables, ∀ name ∈ t.referenced, available (Text.fold name) →
      (s.findTable? name).isSome) :
    s.Runs (creations tables) := by
  induction tables generalizing s available with
  | nil => trivial
  | cons t rest ih =>
    obtain ⟨hne, hrest⟩ := List.nodup_cons.mp hd
    have hcreate := hnew t List.mem_cons_self
    refine ⟨⟨hcreate, fun name hname => ?_⟩, ih hf.2 hrest ?_ ?_⟩
    · exact (hf.1 name hname).imp_right (hav t List.mem_cons_self name hname)
    · intro u hu
      have hdiff : Text.fold t.name ≠ Text.fold u.name := fun he =>
        hne (List.mem_map.mpr ⟨u, hu, he.symm⟩)
      rw [findTable?_createTable hcreate, hnew u (List.mem_cons_of_mem _ hu), if_neg hdiff]
      rfl
    · -- a name is available now because it was before or because it has just been created
      intro u hu name hname ha
      rw [findTable?_createTable hcreate, Option.isSome_or]
      rcases ha with ha | ha
      · simp [hav u (List.mem_cons_of_mem _ hu) name hname ha]
      · simp [ha]

def addedTo (t : Table) (columns : List (String × Column)) : List Column :=
  (columns.filter fun p => p.1 = t.name).map (·.2)

lemma mem_addedTo {t : Table} {columns : List (String × Column)} {c : Column} :
    c ∈ addedTo t columns ↔ (t.name, c) ∈ columns := by
  simp [addedTo]

lemma tableUnder_additions (key : String → String) (hs : s.Named)
    (columns : List (String × Column)) (name : String) :
    (s.applyAll (additions columns)).tableUnder key name =
      (s.tableUnder key name).map fun t => t.extend (addedTo t columns) := by
  induction columns generalizing s with
  | nil => simp [additions, addedTo, Table.extend]
  | cons p rest ih =>
    have hrest := ih (hs.apply (.addColumn p.1 p.2))
    simp only [additions, List.map_cons, applyAll_cons] at hrest ⊢
    rw [hrest, tableUnder_addColumn key hs]
    cases s.tableUnder key name with
    | none => rfl
    | some t =>
      by_cases hp : t.name = p.1
      · simp [hp, addedTo, Table.extend]
      · simp [hp, Ne.symm hp, addedTo]

lemma findTable?_additions (hs : s.Named) (columns : List (String × Column)) (name : String) :
    (s.applyAll (additions columns)).findTable? name =
      (s.findTable? name).map fun t => t.extend (addedTo t columns) :=
  tableUnder_additions Text.fold hs columns name

lemma runs_additions (hs : s.Named) {columns : List (String × Column)}
    (hd : columns.Pairwise fun p q => p.1 = q.1 → Text.fold p.2.name ≠ Text.fold q.2.name)
    (ht : ∀ p ∈ columns, ∃ t, s.findTable? p.1 = some t ∧ t.name = p.1 ∧
      t.column? p.2.name = none)
    (hr : ∀ p ∈ columns, ∀ r, p.2.references = some r → (s.findTable? r.table).isSome) :
    s.Runs (additions columns) := by
  induction columns generalizing s with
  | nil => trivial
  | cons p rest ih =>
    obtain ⟨hp, hrest⟩ := List.pairwise_cons.mp hd
    obtain ⟨t, hfound, hname, hlacks⟩ := ht p List.mem_cons_self
    refine ⟨⟨t, hfound, hname, hlacks, hr p List.mem_cons_self⟩,
      ih (hs.apply (.addColumn p.1 p.2)) hrest ?_ ?_⟩
    · intro q hq
      obtain ⟨u, hu, huname, hulacks⟩ := ht q (List.mem_cons_of_mem _ hq)
      refine ⟨if u.name = p.1 then u.extend [p.2] else u, ?_, ?_, ?_⟩
      · rw [findTable?_addColumn hs, hu]
        rfl
      · split <;> exact huname
      · split
        · next he =>
          have hdiff := hp q hq (he.symm.trans huname)
          rw [Table.extend_column?, hulacks]
          simp [hdiff]
        · exact hulacks
    · intro q hq r href
      rw [findTable?_addColumn hs, Option.isSome_map]
      exact hr q (List.mem_cons_of_mem _ hq) r href

def indexings (indexes : List Index) : List Ddl := indexes.map .createIndex

@[simp] lemma tables_indexings (indexes : List Index) :
    (s.applyAll (indexings indexes)).tables = s.tables := by
  induction indexes generalizing s with
  | nil => rfl
  | cons i rest ih => exact ih

@[simp] lemma tableUnder_indexings (key : String → String) (indexes : List Index) (name : String) :
    (s.applyAll (indexings indexes)).tableUnder key name = s.tableUnder key name := by
  rw [tableUnder, tables_indexings, tableUnder]

@[simp] lemma findTable?_indexings (indexes : List Index) (name : String) :
    (s.applyAll (indexings indexes)).findTable? name = s.findTable? name :=
  tableUnder_indexings Text.fold indexes name

@[simp] lemma indexes_creations (tables : List Table) :
    (s.applyAll (creations tables)).indexes = s.indexes := by
  induction tables generalizing s with
  | nil => rfl
  | cons t rest ih => exact ih

@[simp] lemma indexes_additions (columns : List (String × Column)) :
    (s.applyAll (additions columns)).indexes = s.indexes := by
  induction columns generalizing s with
  | nil => rfl
  | cons p rest ih => exact ih

lemma indexes_indexings {indexes : List Index} (h : s.Runs (indexings indexes)) :
    (s.applyAll (indexings indexes)).indexes = s.indexes ++ indexes.map fun i => (i.name, i) := by
  induction indexes generalizing s with
  | nil => simp [indexings]
  | cons i rest ih =>
    have hput := Keyed.put_of_notMem i.name i s.indexes (notMem_keys_of_hasIndex h.1.1)
    have hrest := ih h.2
    simp only [indexings, List.map_cons, applyAll_cons] at hrest ⊢
    rw [hrest, apply, hput, List.append_assoc, List.singleton_append]

lemma hasIndex_creations (tables : List Table) (name : String) :
    (s.applyAll (creations tables)).hasIndex name = s.hasIndex name := by
  rw [hasIndex, indexes_creations, hasIndex]

lemma hasIndex_additions (columns : List (String × Column)) (name : String) :
    (s.applyAll (additions columns)).hasIndex name = s.hasIndex name := by
  rw [hasIndex, indexes_additions, hasIndex]

lemma hasIndex_indexings {indexes : List Index} (h : s.Runs (indexings indexes)) (name : String) :
    (s.applyAll (indexings indexes)).hasIndex name =
      (s.hasIndex name || indexes.any fun i => Text.fold i.name == Text.fold name) := by
  rw [hasIndex, indexes_indexings h, List.any_append, List.any_map]
  rfl

lemma runs_indexings {indexes : List Index} (hd : (indexes.map fun i => Text.fold i.name).Nodup)
    (hnew : ∀ i ∈ indexes, s.hasIndex i.name = false)
    (ht : ∀ i ∈ indexes, ∃ t, s.findTable? i.table = some t ∧
      ∀ c ∈ i.columns, (t.column? c).isSome) :
    s.Runs (indexings indexes) := by
  induction indexes generalizing s with
  | nil => trivial
  | cons i rest ih =>
    obtain ⟨hne, hrest⟩ := List.nodup_cons.mp hd
    have hcreate := hnew i List.mem_cons_self
    refine ⟨⟨hcreate, ht i List.mem_cons_self⟩, ih hrest ?_ fun j hj =>
      ht j (List.mem_cons_of_mem _ hj)⟩
    intro j hj
    have hdiff : Text.fold i.name ≠ Text.fold j.name := fun he =>
      hne (List.mem_map.mpr ⟨j, hj, he.symm⟩)
    simp [hasIndex_createIndex hcreate, hnew j (List.mem_cons_of_mem _ hj), hdiff]

end Tablewright.LiveSchema
