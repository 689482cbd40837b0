import Mathlib.Data.List.Find
import Tablewright.Proofs.Migration.Columns

/-! What the engine knows by name once a plan has run. The engine overlooks the case of ASCII letters
and nothing else, where folding merges letters of every script and spells some of them out: it takes
for live what the engine does not find under the declared name. -/

namespace Tablewright

namespace Text

def plain (s : String) : String := String.ofList (s.toList.map Char.toLower)

def Ascii (s : String) : Prop := ∀ c ∈ s.toList, c.toNat < 128

lemma toLower_ofNat : ∀ n : Fin 128, (Char.ofNat n).toLower.toNat < 128 ∧
    (Char.ofNat n).toLower.toLower = (Char.ofNat n).toLower := by
  decide

lemma toLower_of_not_ascii {c : Char} (h : ¬ c.toNat < 128) : c.toLower = c := by
  have hlarge : ¬ (c.val ≥ 'A'.val ∧ c.val ≤ 'Z'.val) := fun hc =>
    h (Nat.lt_of_le_of_lt (UInt32.le_iff_toNat_le.mp hc.2) (by decide))
  exact dif_neg hlarge

lemma foldChar_toLower (c : Char) : foldChar c.toLower = foldChar c := by
  by_cases hc : c.toNat < 128
  · obtain ⟨hlow, hidem⟩ := toLower_ofNat ⟨c.toNat, hc⟩
    rw [Char.ofNat_toNat] at hlow hidem
    rw [foldChar, foldChar, if_pos hlow, if_pos hc, hidem]
  · rw [toLower_of_not_ascii hc]

lemma fold_plain (s : String) : fold (plain s) = fold s := by
  simp only [fold, foldChars, plain, String.toList_ofList, List.flatMap_map, foldChar_toLower]

lemma fold_eq_of_plain {s t : String} (h : plain s = plain t) : fold s = fold t := by
  rw [← fold_plain s, ← fold_plain t, h]

lemma fold_of_ascii {s : String} (h : Ascii s) : fold s = plain s := by
  have hchars : ∀ cs : List Char, (∀ c ∈ cs, c.toNat < 128) →
      foldChars cs = cs.map Char.toLower := by
    intro cs hcs
    induction cs with
    | nil => rfl
    | cons c rest ih =>
      obtain ⟨hc, hrest⟩ := List.forall_mem_cons.mp hcs
      have hhead : foldChar c = [c.toLower] := if_pos hc
      rw [foldChars, List.flatMap_cons, hhead, ← foldChars, ih hrest]
      rfl
  rw [fold, plain, hchars s.toList h]

lemma plain_eq_of_ascii {s t : String} (hs : Ascii s) (ht : Ascii t) :
    plain s = plain t ↔ fold s = fold t := by
  rw [fold_of_ascii hs, fold_of_ascii ht]

end Text

namespace LiveSchema

/-- Whether statements over the declared schema name only what the engine finds: each table, its
columns on the table that is found, and each index. -/
structure Knows (s : LiveSchema) (declared : Schema) : Prop where
  tables : ∀ t ∈ declared.tables.values, ∃ found, s.tableUnder Text.plain t.name = some found ∧
    ∀ c ∈ t.columns, ∃ d ∈ found.columns, Text.plain d.name = Text.plain c.name
  indexes : ∀ i ∈ declared.indexes.values, ∃ e ∈ s.indexes, Text.plain e.1 = Text.plain i.name

/-- Whether what a plan takes for live is there under a name that the engine takes for the declared
one. A column that is lacking will be added, to the table that the plan found. -/
structure Spells (s : LiveSchema) (declared : Schema) : Prop where
  tables : ∀ t ∈ declared.tables.values, ∀ existing, s.findTable? t.name = some existing →
    ∃ known, s.tableUnder Text.plain t.name = some known ∧ ∀ c ∈ t.columns,
      (∃ d ∈ known.columns, Text.plain d.name = Text.plain c.name) ∨
        known.name = existing.name ∧ existing.column? c.name = none
  indexes : ∀ i ∈ declared.indexes.values, s.hasIndex i.name = true →
    ∃ e ∈ s.indexes, Text.plain e.1 = Text.plain i.name

lemma findTable?_of_known {s : LiveSchema} {name : String} {t : Table}
    (h : s.tableUnder Text.plain name = some t) : (s.findTable? name).isSome := by
  obtain ⟨e, he, rfl⟩ := Option.map_eq_some_iff.mp h
  have hsame : Text.plain e.1 = Text.plain name := by simpa using List.find?_some he
  rw [findTable?, Option.isSome_map, List.find?_isSome]
  exact ⟨e, List.mem_of_find?_eq_some he, by simpa using Text.fold_eq_of_plain hsame⟩

end LiveSchema

open LiveSchema

section

variable {tables : List Table} {indexes : List Index} {live : LiveSchema} {declared : Schema}
  {plan : Plan}

lemma find?_creationOrder (hc : Schema.Consistent tables indexes)
    (hl : (orderByReferences (missingTables (.ofDescriptions tables indexes) live)).leftOver = [])
    {t : Table} (ht : t ∈ tables) :
    ((creationOrder (.ofDescriptions tables indexes) live).find?
        fun u => Text.plain u.name == Text.plain t.name) =
      if (live.findTable? t.name).isNone then some t else none := by
  cases hlive : live.findTable? t.name with
  | none =>
    exact (creationOrder_distinct hc hl).find?_under (fun _ _ => Text.fold_eq_of_plain)
      ((mem_creationOrder hc hl).mpr ⟨ht, hlive⟩)
  | some existing =>
    rw [Option.isNone_some, if_neg Bool.false_ne_true, List.find?_eq_none]
    intro u hu hsame
    obtain ⟨-, hmissing⟩ := (mem_creationOrder hc hl).mp hu
    rw [findTable?_congr live (Text.fold_eq_of_plain (by simpa using hsame)), hlive] at hmissing
    cases hmissing

lemma mem_addedTo_missingColumns (hn : live.Named) (hnames : DistinctNames tables)
    {t existing known : Table} (ht : t ∈ tables) (hlive : live.findTable? t.name = some existing)
    (hknown : Text.fold known.name = Text.fold t.name) {c : Column} :
    c ∈ addedTo known (missingColumns live tables) ↔
      known.name = existing.name ∧ c ∈ t.columns ∧ existing.column? c.name = none := by
  rw [mem_addedTo, mem_missingColumns]
  constructor
  · rintro ⟨u, hu, other, hother, hname, hcol, hnone⟩
    have hfold : Text.fold u.name = Text.fold t.name := by
      rw [← findTable?_name hn hother, hname, hknown]
    obtain rfl : u = t := List.inj_on_of_nodup_map hnames hu ht hfold
    obtain rfl : other = existing := Option.some.inj (hother.symm.trans hlive)
    exact ⟨hname.symm, hcol, hnone⟩
  · rintro ⟨hname, hcol, hnone⟩
    exact ⟨t, ht, existing, hlive, hname.symm, hcol, hnone⟩

lemma known_of_reconcile (hb : Schema.build tables indexes = .ok declared) (hn : live.Named)
    (hr : reconcile declared live = .ok plan) {t : Table} (ht : t ∈ tables) :
    (live.applyAll plan.operations).tableUnder Text.plain t.name =
      ((live.tableUnder Text.plain t.name).or
        (if (live.findTable? t.name).isNone then some t else none)).map
          fun u => u.extend (addedTo u (missingColumns live tables)) := by
  obtain ⟨hc, rfl⟩ := Schema.build_eq_ok_iff.mp hb
  obtain ⟨hl, hops⟩ := reconcile_eq_ok hr
  rw [hops, hc.values_tables, applyAll_append, applyAll_append, tableUnder_indexings,
    tableUnder_additions _ (hn.applyAll _), tableUnder_creations _ (runs_creationOrder hc hl),
    find?_creationOrder hc hl ht]

lemma known_of_created (hb : Schema.build tables indexes = .ok declared) (hn : live.Named)
    (hr : reconcile declared live = .ok plan) {t : Table} (ht : t ∈ tables)
    (hlive : live.findTable? t.name = none) :
    ∃ columns, (live.applyAll plan.operations).tableUnder Text.plain t.name =
      some (t.extend columns) := by
  have hnone : live.tableUnder Text.plain t.name = none := by
    refine Option.eq_none_iff_forall_ne_some.mpr fun u hu => ?_
    have hsome := findTable?_of_known hu
    rw [hlive] at hsome
    cases hsome
  rw [known_of_reconcile hb hn hr ht, hnone, hlive]
  exact ⟨_, rfl⟩

lemma known_of_found (hb : Schema.build tables indexes = .ok declared) (hn : live.Named)
    (hr : reconcile declared live = .ok plan) {t existing : Table} (ht : t ∈ tables)
    (hlive : live.findTable? t.name = some existing) :
    (live.applyAll plan.operations).tableUnder Text.plain t.name =
      (live.tableUnder Text.plain t.name).map
        fun u => u.extend (addedTo u (missingColumns live tables)) := by
  rw [known_of_reconcile hb hn hr ht, hlive]
  simp

lemma knows_column_iff (hn : live.Named) (hc : Schema.Consistent tables indexes)
    {t existing known : Table} (ht : t ∈ tables) (hlive : live.findTable? t.name = some existing)
    (hknown : live.tableUnder Text.plain t.name = some known) {c : Column} (hcol : c ∈ t.columns) :
    (∃ d ∈ (known.extend (addedTo known (missingColumns live tables))).columns,
        Text.plain d.name = Text.plain c.name) ↔
      (∃ d ∈ known.columns, Text.plain d.name = Text.plain c.name) ∨
        known.name = existing.name ∧ existing.column? c.name = none := by
  have hfold := Text.fold_eq_of_plain (tableUnder_name Text.plain hn hknown)
  have hadded := @mem_addedTo_missingColumns _ _ hn hc.names _ _ _ ht hlive hfold
  simp only [Table.extend, List.mem_append, or_and_right, exists_or, hadded]
  refine or_congr_right ⟨?_, fun h => ⟨c, ⟨h.1, hcol, h.2⟩, rfl⟩⟩
  rintro ⟨d, ⟨hname, -, hnone⟩, hsame⟩
  exact ⟨hname, existing.column?_congr (Text.fold_eq_of_plain hsame) ▸ hnone⟩

lemma indexes_of_reconcile (hb : Schema.build tables indexes = .ok declared) (hn : live.Named)
    (hr : reconcile declared live = .ok plan) :
    (live.applyAll plan.operations).indexes =
      live.indexes ++ (missingIndexes declared live).map fun i => (i.name, i) := by
  have hruns := runs_of_reconcile hb hn hr
  rw [(reconcile_eq_ok hr).2, runs_append] at hruns
  rw [(reconcile_eq_ok hr).2, applyAll_append, indexes_indexings hruns.2, applyAll_append,
    indexes_additions, indexes_creations]

lemma knows_index_iff (hb : Schema.build tables indexes = .ok declared) (hn : live.Named)
    (hr : reconcile declared live = .ok plan) {i : Index} (hi : i ∈ declared.indexes.values) :
    (∃ e ∈ (live.applyAll plan.operations).indexes, Text.plain e.1 = Text.plain i.name) ↔
      (live.hasIndex i.name = true → ∃ e ∈ live.indexes, Text.plain e.1 = Text.plain i.name) := by
  rw [indexes_of_reconcile hb hn hr]
  cases hlive : live.hasIndex i.name with
  | false =>
    have hmissing : i ∈ missingIndexes declared live := List.mem_filter.mpr ⟨hi, by simp [hlive]⟩
    refine iff_of_true ⟨(i.name, i), ?_, rfl⟩ nofun
    exact List.mem_append_right _ (List.mem_map.mpr ⟨i, hmissing, rfl⟩)
  | true =>
    constructor
    · rintro ⟨e, he, hsame⟩ -
      rcases List.mem_append.mp he with he | he
      · exact ⟨e, he, hsame⟩
      · -- an index by this name would have been live
        obtain ⟨j, hj, rfl⟩ := List.mem_map.mp he
        have hnew : live.hasIndex j.name = false := by simpa using (List.mem_filter.mp hj).2
        rw [hasIndex_congr live (Text.fold_eq_of_plain hsame), hlive] at hnew
        cases hnew
    · intro h
      obtain ⟨e, he, hsame⟩ := h rfl
      exact ⟨e, List.mem_append_left _ he, hsame⟩

end

/-- Everything that is declared is known to the engine after a plan if and only if the plan took
nothing for live but what the engine knows under the declared name. -/
theorem reconcile_knows_iff {tables liveTables : List Table} {indexes liveIndexes : List Index}
    {declared : Schema} {plan : Plan} (hb : Schema.build tables indexes = .ok declared)
    (hr : reconcile declared (.ofDescriptions liveTables liveIndexes) = .ok plan) :
    let live := LiveSchema.ofDescriptions liveTables liveIndexes
    (live.applyAll plan.operations).Knows declared ↔ live.Spells declared := by
  intro live
  have hn : live.Named := named_ofDescriptions liveTables liveIndexes
  obtain ⟨hc, hdeclared⟩ := Schema.build_eq_ok_iff.mp hb
  have htables : declared.tables.values = tables := hdeclared ▸ hc.values_tables
  constructor
  · rintro ⟨hknown, hindexed⟩
    rw [htables] at hknown
    refine ⟨fun t ht existing hlive => ?_, fun i hi => ?_⟩
    · rw [htables] at ht
      obtain ⟨found, hfound, hcolumns⟩ := hknown t ht
      rw [known_of_found hb hn hr ht hlive, Option.map_eq_some_iff] at hfound
      obtain ⟨known, hu, rfl⟩ := hfound
      refine ⟨known, hu, fun c hcol => ?_⟩
      exact (knows_column_iff hn hc ht hlive hu hcol).mp (hcolumns c hcol)
    · exact (knows_index_iff hb hn hr hi).mp (hindexed i hi)
  · rintro ⟨hspelled, hindexed⟩
    rw [htables] at hspelled
    refine ⟨fun t ht => ?_, fun i hi => ?_⟩
    · rw [htables] at ht
      cases hlive : live.findTable? t.name with
      | none =>
        obtain ⟨columns, hfound⟩ := known_of_created hb hn hr ht hlive
        exact ⟨_, hfound, fun c hcol => ⟨c, List.mem_append_left _ hcol, rfl⟩⟩
      | some existing =>
        obtain ⟨known, hu, hcolumns⟩ := hspelled t ht existing hlive
        refine ⟨_, by rw [known_of_found hb hn hr ht hlive, hu]; rfl, fun c hcol => ?_⟩
        exact (knows_column_iff hn hc ht hlive hu hcol).mpr (hcolumns c hcol)
    · exact (knows_index_iff hb hn hr hi).mpr (hindexed i hi)

namespace Menu

def keyed (name : String) : Column := { name := name, kind := .integer, primaryKey := true }

def price : Column := { name := "Prix été", kind := .real }

def declared : Schema := .ofDescriptions [⟨"cafÉ", [keyed "ID", price]⟩] []

def lower : Table := ⟨"café", [keyed "id"]⟩

def upper : Table := ⟨"CAFÉ", [keyed "id"]⟩

end Menu

open Menu in
theorem reconcile_knows_iff_menu :
    Schema.build [⟨"cafÉ", [keyed "ID", price]⟩] = .ok Menu.declared ∧
      reconcile Menu.declared (.ofDescriptions [upper] []) = .ok ⟨[.addColumn "CAFÉ" price]⟩ ∧
      ((LiveSchema.ofDescriptions [upper] []).applyAll [.addColumn "CAFÉ" price]).Knows
        Menu.declared := by
  have hb : Schema.build [⟨"cafÉ", [keyed "ID", price]⟩] = .ok Menu.declared := by rfl
  have hr : reconcile Menu.declared (.ofDescriptions [upper] []) =
      .ok ⟨[.addColumn "CAFÉ" price]⟩ := by rfl
  refine ⟨hb, hr, (reconcile_knows_iff hb hr).mpr ⟨?_, nofun⟩⟩
  intro t ht existing hlive
  obtain rfl : t = ⟨"cafÉ", [keyed "ID", price]⟩ := List.mem_singleton.mp ht
  obtain rfl : upper = existing := Option.some.inj hlive
  refine ⟨upper, by rfl, fun c hc => ?_⟩
  rcases List.mem_pair.mp hc with rfl | rfl
  · exact Or.inl ⟨keyed "id", List.mem_singleton_self _, by rfl⟩
  · exact Or.inr ⟨rfl, by rfl⟩

open Menu in
/-- Nothing is planned for a declared table that the engine does not know. -/
theorem reconcile_unknown_table :
    Schema.build [upper] = .ok (.ofDescriptions [upper] []) ∧
      reconcile (.ofDescriptions [upper] []) (.ofDescriptions [lower] []) = .ok ⟨[]⟩ ∧
      ¬ ((LiveSchema.ofDescriptions [lower] []).applyAll []).Knows
        (.ofDescriptions [upper] []) := by
  refine ⟨by rfl, by rfl, fun h => ?_⟩
  obtain ⟨found, hfound, -⟩ := h.tables upper (List.mem_singleton_self _)
  have hnone : (LiveSchema.ofDescriptions [lower] []).tableUnder Text.plain upper.name = none := by
    rfl
  rw [applyAll_nil, hnone] at hfound
  cases hfound

structure Schema.Ascii (s : Schema) : Prop where
  tables : ∀ t ∈ s.tables.values, Text.Ascii t.name ∧ ∀ c ∈ t.columns, Text.Ascii c.name
  indexes : ∀ i ∈ s.indexes.values, Text.Ascii i.name

structure LiveSchema.Ascii (s : LiveSchema) : Prop where
  tables : ∀ e ∈ s.tables, Text.Ascii e.1 ∧ ∀ c ∈ e.2.columns, Text.Ascii c.name
  indexes : ∀ e ∈ s.indexes, Text.Ascii e.1

/-- Among names in ASCII a plan and the engine tell the same ones apart. -/
theorem spells_of_ascii {live : LiveSchema} {declared : Schema} (hl : live.Ascii)
    (hd : declared.Ascii) : live.Spells declared := by
  constructor
  · intro t ht existing hlive
    have hsame : live.tableUnder Text.plain t.name = live.findTable? t.name := by
      rw [tableUnder, List.find?_congr, findTable?]
      intro e he
      rw [Bool.eq_iff_iff, beq_iff_eq, beq_iff_eq]
      exact Text.plain_eq_of_ascii (hl.tables e he).1 (hd.tables t ht).1
    refine ⟨existing, hsame.trans hlive, fun c hc => ?_⟩
    cases hfound : existing.column? c.name with
    | none => exact Or.inr ⟨rfl, rfl⟩
    | some d =>
      obtain ⟨e, he, rfl⟩ := Option.map_eq_some_iff.mp hlive
      have hmem : d ∈ e.2.columns := List.mem_of_find?_eq_some hfound
      have hfold : Text.fold d.name = Text.fold c.name := by simpa using List.find?_some hfound
      have hascii := (hl.tables e (List.mem_of_find?_eq_some he)).2 d hmem
      exact Or.inl ⟨d, hmem, (Text.plain_eq_of_ascii hascii ((hd.tables t ht).2 c hc)).mpr hfold⟩
  · intro i hi hlive
    obtain ⟨e, he, hfold⟩ := List.any_eq_true.mp hlive
    refine ⟨e, he, (Text.plain_eq_of_ascii (hl.indexes e he) (hd.indexes i hi)).mpr ?_⟩
    simpa using hfold

end Tablewright
