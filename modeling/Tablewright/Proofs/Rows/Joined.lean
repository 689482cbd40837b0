import Tablewright.Proofs.Rows.Resolved
import Tablewright.Proofs.Rows.Served
import Tablewright.Statement.Compiled

namespace Tablewright

open Model (given)

variable {columns before : List (String × String)} {ts : List Table} {s : PlainShape} {t : Table}

structure OnlyAt (columns : List (String × String)) (table name : String) (n : Nat) : Prop where
  here : ∃ c, columns[n]? = some (table, c) ∧ Text.fold c = Text.fold name
  only : ∀ k c, columns[k]? = some (table, c) → Text.fold c = Text.fold name → k = n

def Table.origins (t : Table) : List (String × String) := t.columnNames.map (t.name, ·)

lemma Table.fst_of_mem_origins {e : String × String} (h : e ∈ t.origins) : e.1 = t.name := by
  obtain ⟨c, -, rfl⟩ := List.mem_map.mp h
  rfl

section Places

variable {names : List String} {name : String}

lemma getElem?_place (h : Text.fold name ∈ names.map Text.fold) :
    ∃ c, names[place names name]? = some c ∧ Text.fold c = Text.fold name := by
  obtain ⟨c, hc, hname⟩ := List.mem_map.mp h
  have hlt : place names name < names.length :=
    List.findIdx_lt_length_of_exists ⟨c, hc, beq_iff_eq.mpr hname⟩
  exact ⟨_, List.getElem?_eq_getElem hlt, beq_iff_eq.mp (List.findIdx_getElem (w := hlt))⟩

lemma eq_place (hdistinct : (names.map Text.fold).Nodup) {k : Nat} {c : String}
    (hk : names[k]? = some c) (hc : Text.fold c = Text.fold name) : k = place names name := by
  have hname : Text.fold name ∈ names.map Text.fold :=
    List.mem_map.mpr ⟨c, List.mem_of_getElem? hk, hc⟩
  obtain ⟨d, hd, hfold⟩ := getElem?_place hname
  have hlt : k < (names.map Text.fold).length := by
    rw [List.length_map]
    exact (List.getElem?_eq_some_iff.mp hk).1
  refine (List.getElem?_inj hlt hdistinct).mp ?_
  rw [List.getElem?_map, List.getElem?_map, hk, hd, Option.map_some, Option.map_some, hc, hfold]

lemma onlyAt_append {after : List (String × String)}
    (hdistinct : t.foldedNames.Nodup)
    (hname : Text.fold name ∈ t.foldedNames) (hbefore : ∀ e ∈ before, e.1 ≠ t.name)
    (hafter : ∀ e ∈ after, e.1 ≠ t.name) :
    OnlyAt (before ++ (t.origins ++ after)) t.name name
      (before.length + place t.columnNames name) := by
  obtain ⟨c, hc, hfold⟩ := getElem?_place hname
  have hlength : t.origins.length = t.columnNames.length := List.length_map _
  have hlt := (List.getElem?_eq_some_iff.mp hc).1
  refine ⟨⟨c, ?_, hfold⟩, fun k d hk hd => ?_⟩
  · rw [List.getElem?_append_right (Nat.le_add_right _ _), Nat.add_sub_cancel_left,
      List.getElem?_append_left (hlength ▸ hlt), Table.origins, List.getElem?_map, hc,
      Option.map_some]
  -- a position before or after the table's own columns has a column of another table
  by_cases hfirst : k < before.length
  · rw [List.getElem?_append_left hfirst] at hk
    exact absurd rfl (hbefore _ (List.mem_of_getElem? hk))
  rw [List.getElem?_append_right (Nat.le_of_not_lt hfirst)] at hk
  by_cases hmiddle : k - before.length < t.origins.length
  · rw [List.getElem?_append_left hmiddle, Table.origins, List.getElem?_map,
      Option.map_eq_some_iff] at hk
    obtain ⟨e, he, heq⟩ := hk
    have hed : e = d := (Prod.ext_iff.mp heq).2
    have hplace := eq_place hdistinct he (hed ▸ hd)
    omega
  · rw [List.getElem?_append_right (Nat.le_of_not_lt hmiddle)] at hk
    exact absurd rfl (hafter _ (List.mem_of_getElem? hk))

end Places

section Parts

def PlainShape.Feeds (s : PlainShape) (columns : List (String × String)) (t : Table)
    (picks : List Pick) : Prop :=
  ∃ n : String → Nat, picks = (s.fields.map fun f => (f.column, n f.column)) ∧
    ∀ f ∈ s.fields, OnlyAt columns t.name f.column (n f.column)

lemma width_composite {m : Model} {parts : List (String × PlainShape)}
    (h : List.Forall₂ (fun p t => PlainShape.Of p.2 t) parts ts) :
    (Shape.composite m parts).width = (ts.flatMap (·.columnNames)).length := by
  induction h with
  | nil => rfl
  | cons hs _ ih =>
    rw [List.flatMap_cons, List.length_append, ← hs.width_eq, ← ih]
    rfl

lemma resolveParts_eq {parts : List (String × PlainShape)}
    (hparts : List.Forall₂ (fun p t => PlainShape.Of p.2 t) parts ts)
    (hdistinct : ∀ t ∈ ts, t.foldedNames.Nodup) (hnames : (ts.map (·.name)).Nodup)
    (hbefore : ∀ t ∈ ts, ∀ e ∈ before, e.1 ≠ t.name) :
    ∃ picked, resolveParts before.length parts (ts.flatMap (·.columnNames)) = .ok picked ∧
      picked.map (fun p => (p.1, p.2.1)) = parts ∧
      ∀ (i : Nat) (key : String) (s : PlainShape) (picks : List Pick) (t : Table),
        picked[i]? = some (key, s, picks) → ts[i]? = some t →
          s.Feeds (before ++ ts.flatMap (·.origins)) t picks := by
  -- `before` holds the columns that earlier parts took up
  induction hparts generalizing before with
  | nil => exact ⟨[], rfl, rfl, nofun⟩
  | @cons p t parts ts hs _ ih =>
    obtain ⟨key, s⟩ := p
    rw [List.forall_mem_cons] at hdistinct hbefore
    rw [List.map_cons, List.nodup_cons] at hnames
    have hlength : before.length + s.width = (before ++ t.origins).length := by
      rw [hs.width_eq, List.length_append, Table.origins, List.length_map]
    have hother : ∀ u ∈ ts, u.name ≠ t.name := fun u hu heq =>
      hnames.1 (List.mem_map.mpr ⟨u, hu, heq⟩)
    have hafter : ∀ e ∈ ts.flatMap (·.origins), e.1 ≠ t.name := by
      intro e he
      obtain ⟨u, hu, he⟩ := List.mem_flatMap.mp he
      exact u.fst_of_mem_origins he ▸ hother u hu
    have hhere : ∀ u ∈ ts, ∀ e ∈ before ++ t.origins, e.1 ≠ u.name := by
      intro u hu e he
      rcases List.mem_append.mp he with he | he
      · exact hbefore.2 u hu e he
      · exact t.fst_of_mem_origins he ▸ (hother u hu).symm
    obtain ⟨picked, hpicked, hshapes, hfeeds⟩ := ih hdistinct.2 hnames.2 hhere
    have hresolve : s.resolve t.columnNames before.length = _ :=
      hs.resolve_of_perm (.refl _) hdistinct.1
    let here : String → Nat := fun name => before.length + place t.columnNames name
    refine ⟨(key, s, s.fields.map fun f => (f.column, here f.column)) :: picked, ?_,
      congrArg ((key, s) :: ·) hshapes, ?_⟩
    · rw [List.flatMap_cons, resolveParts, hs.width_eq, List.take_left, List.drop_left,
        ← hs.width_eq, hlength, hpicked, hresolve]
      rfl
    · intro i key' s' picks t' hi ht'
      cases i with
      | zero =>
        cases hi
        cases ht'
        refine ⟨here, rfl, fun f hf => ?_⟩
        exact onlyAt_append hdistinct.1 (hs.columns f hf) hbefore.1 hafter
      | succ i =>
        rw [List.flatMap_cons, ← List.append_assoc]
        exact hfeeds i key' s' picks t' hi ht'

end Parts

section Values

variable {row : List Value} {key : String}

lemma given_eq_some {entries : List (String × Value)} {v : Value} (h : (key, v) ∈ entries)
    (honly : ∀ w, (key, w) ∈ entries → w = v) : given key entries = some v := by
  have hsome : (given key entries).isSome := by
    rw [given, List.lookup_isSome_iff]
    exact ⟨(key, v), List.mem_reverse.mpr h, beq_self_eq_true key⟩
  obtain ⟨w, hw⟩ := Option.isSome_iff_exists.mp hsome
  obtain ⟨front, back, heq, -⟩ := List.lookup_eq_some_iff.mp hw
  have hmem : (key, w) ∈ entries := by
    rw [← List.mem_reverse, heq]
    exact List.mem_append_right _ List.mem_cons_self
  rw [hw, honly w hmem]

lemma pickAll_eq {n : String → Nat} {fs : List FieldMapping}
    (h : ∀ f ∈ fs, n f.column < row.length) :
    PlainShape.pickAll row (fs.map fun f => (f.column, n f.column)) =
      .ok (fs.map fun f => (f.column, row[n f.column]?.getD .null)) := by
  induction fs with
  | nil => rfl
  | cons f fs ih =>
    rw [List.forall_mem_cons] at h
    simp only [List.map_cons, PlainShape.pickAll, List.getElem?_eq_getElem h.1, ih h.2]
    rfl

lemma PlainShape.Feeds.pickAll {s : PlainShape} {picks : List Pick} (h : s.Feeds columns t picks)
    (hrow : row.length = columns.length) :
    ∃ values, PlainShape.pickAll row picks = .ok values ∧ ∀ f ∈ s.fields, ∃ n,
      OnlyAt columns t.name f.column n ∧ given f.column values = row[n]? := by
  obtain ⟨n, rfl, honly⟩ := h
  have hlt : ∀ f ∈ s.fields, n f.column < row.length := by
    intro f hf
    obtain ⟨c, hc, -⟩ := (honly f hf).here
    rw [hrow]
    exact (List.getElem?_eq_some_iff.mp hc).1
  refine ⟨_, pickAll_eq hlt, fun f hf => ⟨n f.column, honly f hf, ?_⟩⟩
  rw [given_eq_some (v := row[n f.column]?.getD .null) (List.mem_map.mpr ⟨f, hf, rfl⟩),
    List.getElem?_eq_getElem (hlt f hf), Option.getD_some]
  intro w hw
  obtain ⟨g, -, hg⟩ := List.mem_map.mp hw
  have hcolumn : g.column = f.column := (Prod.ext_iff.mp hg).1
  have hvalue : row[n g.column]?.getD .null = w := (Prod.ext_iff.mp hg).2
  rw [← hvalue, hcolumn]

lemma buildParts_eq_ok {picked : List PartPicks} {instances : List (String × Value)}
    (h : buildParts row picked = .ok instances) :
    instances.map (·.1) = picked.map (·.1) ∧ ∀ p ∈ picked, ∃ v,
      p.2.1.buildRow p.2.2 row = .ok v ∧ (p.1, v) ∈ instances := by
  induction picked generalizing instances with
  | nil =>
    cases h
    exact ⟨rfl, List.forall_mem_nil _⟩
  | cons p picked ih =>
    obtain ⟨v, hv, hrest⟩ := bind_eq_ok_iff.mp h
    obtain ⟨others, hothers, rfl⟩ := map_eq_ok_iff.mp hrest
    obtain ⟨hkeys, hvalues⟩ := ih hothers
    refine ⟨congrArg (p.1 :: ·) hkeys, List.forall_mem_cons.mpr ⟨⟨v, hv, List.mem_cons_self⟩, ?_⟩⟩
    intro q hq
    obtain ⟨w, hw, hmem⟩ := hvalues q hq
    exact ⟨w, hw, List.mem_cons_of_mem _ hmem⟩

lemma given_of_buildParts {picked : List PartPicks} {instances : List (String × Value)}
    (h : buildParts row picked = .ok instances) (hkeys : (picked.map (·.1)).Nodup) :
    ∀ p ∈ picked, ∃ v, p.2.1.buildRow p.2.2 row = .ok v ∧ given p.1 instances = some v := by
  obtain ⟨hmap, hvalues⟩ := buildParts_eq_ok h
  intro p hp
  obtain ⟨v, hv, hmem⟩ := hvalues p hp
  refine ⟨v, hv, given_eq_some hmem fun w hw => ?_⟩
  exact (Prod.ext_iff.mp (List.inj_on_of_nodup_map (hmap ▸ hkeys) hw hmem rfl)).2

end Values

section Selection

variable {tables : List Table} {indexes : List Index} {schema : Schema} {p m : Model}

lemma Schema.Consistent.flatParts_of (h : Schema.Consistent tables indexes)
    {parts : List (String × Model)} {shapes : List (String × PlainShape)}
    (hflat : List.Forall₂ (fun (p : String × Model) s => p.1 = s.1 ∧
      analysePlain (Schema.ofDescriptions tables indexes) p.2 = .ok s.2) parts shapes)
    (hts : ∀ t ∈ ts, t ∈ tables) (hbound : parts.map (·.2.binding) = ts.map (some ·.name)) :
    List.Forall₂ (fun s t => PlainShape.Of s.2 t) shapes ts := by
  induction hflat generalizing ts with
  | nil =>
    rw [List.map_nil] at hbound
    rw [List.map_eq_nil_iff.mp hbound.symm]
    exact .nil
  | cons hs _ ih =>
    cases ts with
    | nil => cases hbound
    | cons t ts =>
      rw [List.forall_mem_cons] at hts
      rw [List.map_cons, List.map_cons, List.cons.injEq] at hbound
      exact .cons (h.analysePlain_of hts.1 hbound.1 hs.2) (ih hts.2 hbound.2)

lemma Select.columns_of_all {s : Select} (hitems : s.items = []) {c : Compiled}
    (hcompile : (Statement.select s).compile = .ok c) :
    c.columns = s.tables.flatMap (·.origins) := by
  obtain ⟨sql, -, rfl⟩ := map_eq_ok_iff.mp hcompile
  simp only [Statement.resultColumns, resultItems, hitems, List.isEmpty_nil, if_true,
    List.map_flatMap, List.map_map]
  congr 1
  funext t
  rw [Table.origins, Table.allColumns, Table.columnNames, List.map_map, List.map_map]
  rfl

lemma Table.map_origins : (ts.flatMap (·.origins)).map (·.2) = ts.flatMap (·.columnNames) := by
  simp [Table.origins, List.map_flatMap, Function.comp_def]

lemma Shape.Fits.exists_composite {shape : Shape} (h : shape.Fits schema m)
    (hparts : modelParts m ≠ []) : ∃ parts, shape = .composite m parts ∧
      flatParts schema (modelParts m) = .ok parts := by
  cases shape with
  | plain s =>
    have hflat : m.flat schema = true := Model.flat_iff.mpr ⟨s, h⟩
    rw [Model.flat_of_parts hparts] at hflat
    cases hflat
  | composite m' parts =>
    obtain ⟨rfl, -, hflat⟩ := h
    exact ⟨parts, rfl, hflat⟩

lemma Select.tables_ne_nil {s : Select} {c : Compiled}
    (hcompile : (Statement.select s).compile = .ok c) : s.tables ≠ [] := by
  obtain ⟨sql, hsql, -⟩ := map_eq_ok_iff.mp hcompile
  obtain ⟨source, hcheck, -⟩ := seq_eq_ok_iff.mp hsql
  rw [check] at hcheck
  split at hcheck
  · cases hcheck
  · next hsource =>
    rw [tables, hsource]
    exact nofun

lemma forall₂_getElem? {α β : Type} {R : α → β → Prop} {l : List α} {l' : List β}
    (h : List.Forall₂ R l l') {i : Nat} {a : α} (ha : l[i]? = some a) :
    ∃ b, l'[i]? = some b ∧ R a b := by
  induction h generalizing i with
  | nil => cases ha
  | cons hab _ ih =>
    cases i with
    | zero =>
      cases ha
      exact ⟨_, rfl, hab⟩
    | succ i => exact ih ha

namespace Remarks

def key : Column := { name := "id", kind := .integer, primaryKey := true }

def about : Column := { name := "post", kind := .integer }

def posts : Table := ⟨"posts", [key, { name := "Title", kind := .text }]⟩

def remarks : Table := ⟨"remarks", [{ name := "title", kind := .text }, key, about]⟩

def declared : Schema := .ofDescriptions [posts, remarks] []

def onPost : Predicate :=
  .comparison ⟨remarks.column about, .eq, .column (posts.column key)⟩

def both : Select := { source := some posts, joins := [⟨remarks, onPost⟩] }

def post : Model := .mk 0 "Post" (some "posts")
  [{ name := "title", type := .scalar .text }, { name := "ID", type := .scalar .whole }]

def remark : Model := .mk 1 "Remark" (some "remarks")
  [{ name := "post", type := .scalar .whole },
    { name := "text", type := .scalar .text, keyName := some "TITLE" }]

def pair : Model := .mk 2 "Pair" none
  [{ name := "post", type := .model post }, { name := "remark", type := .model remark }]

def calls : List RowTask := [.shape (.model remark)]

lemma toldApart : ToldApart (mentioned calls pair) := by
  have hmentioned : mentioned calls pair = [remark, pair, post, remark] := rfl
  refine toldApart_of_nodup [post, remark, pair] (by decide) ?_
  rw [hmentioned]
  simp

end Remarks

end Selection

end Tablewright
