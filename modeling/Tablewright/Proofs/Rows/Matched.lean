import Mathlib.Data.Fin.VecNotation
import Mathlib.Data.List.FinRange
import Tablewright.Proofs.Rows.Filled
import Tablewright.Proofs.Rows.Joined

namespace Tablewright

open Model (given)

variable {columns columns' : List String} {row row' : List Value} {name : String}
  {s : PlainShape} {m : Model} {t : Table} {schema : Schema}

def cell (columns : List String) (row : List Value) (name : String) : Option Value :=
  ((columns.zip row).find? fun e => Text.fold e.1 == Text.fold name).map (·.2)

def FieldMapping.Fed (f : FieldMapping) (columns : List String) : Prop :=
  occurrences columns f.column ≤ 1 ∧ (f.required = true → occurrences columns f.column = 1)

namespace Model

/-- The columns that rows of a model can have: those of the table that it stands for, or any that
feed its fields. -/
def Suits (tables : List Table) (m : Model) (columns : List String) : Prop :=
  match m.binding with
  | some name => ∃ t ∈ tables, t.name = name ∧ (columns.map Text.fold).Perm t.foldedNames
  | none => ∀ f ∈ m.fields, f.mapping.Fed columns

def cells (m : Model) (columns : List String) (row : List Value) : List (String × Value) :=
  m.fields.filterMap fun f => (cell columns row f.key).map (f.key, ·)

end Model

def Failure.code? (e : Failure) : Option Code := e.report?.map (·.code)

namespace PlainShape

def unfed? (s : PlainShape) (columns : List String) : List FieldMapping → Option ShapeError
  | [] => none
  | f :: rest =>
    match occurrences columns f.column with
    | 0 =>
      if f.required then some (.missingColumn s.model.name f.column f.column)
      else unfed? s columns rest
    | 1 => unfed? s columns rest
    | _ => some (.ambiguousColumn s.model.name f.column)

def refusal? (s : PlainShape) (columns : List String) : Option ShapeError :=
  match s.table with
  | some t =>
    if (columns.map Text.fold).Perm t.foldedNames then s.unfed? columns s.fields
    else some (.columnSet s.model.name t.name t.columnNames columns)
  | none => s.unfed? columns s.fields

def picked (columns : List String) (offset : Nat) (fs : List FieldMapping) : List Pick :=
  fs.filterMap fun f =>
    if Text.fold f.column ∈ columns.map Text.fold then
      some (f.column, offset + place columns f.column)
    else none

section Resolving

variable {offset : Nat} {fs : List FieldMapping}

lemma length_positions (columns : List String) (offset : Nat) (name : String) :
    (positions columns offset name).length = occurrences columns name := by
  induction columns generalizing offset with
  | nil => rfl
  | cons c columns ih =>
    rw [positions_cons, occurrences, List.map_cons, List.count_cons, ← occurrences]
    by_cases h : Text.fold c = Text.fold name
    · rw [if_pos h, List.length_cons, ih, beq_iff_eq.mpr h, if_pos rfl]
    · rw [if_neg h, ih, beq_false_of_ne h, if_neg Bool.false_ne_true, Nat.add_zero]

lemma picks_eq_unfed (s : PlainShape) (columns : List String) (offset : Nat)
    (fs : List FieldMapping) : s.picks columns offset fs =
      match s.unfed? columns fs with
      | some e => .error e
      | none => .ok (picked columns offset fs) := by
  induction fs with
  | nil => rfl
  | cons f fs ih =>
    have hlength := length_positions columns offset f.column
    match hcount : occurrences columns f.column with
    | 0 =>
      have hnone : ¬ Text.fold f.column ∈ columns.map Text.fold := List.count_eq_zero.mp hcount
      rw [hcount] at hlength
      have hpicked : picked columns offset (f :: fs) = picked columns offset fs :=
        List.filterMap_cons_none (if_neg hnone)
      simp only [picks, List.eq_nil_of_length_eq_zero hlength, unfed?, hcount, hpicked]
      split
      · rfl
      · exact ih
    | 1 =>
      have hpos : 0 < occurrences columns f.column := hcount ▸ Nat.one_pos
      have hsome : Text.fold f.column ∈ columns.map Text.fold := List.count_pos_iff.mp hpos
      have hpicked : picked columns offset (f :: fs) =
          (f.column, offset + place columns f.column) :: picked columns offset fs :=
        List.filterMap_cons_some (if_pos hsome)
      simp only [picks, positions_eq_singleton hcount, unfed?, hcount, hpicked, ih]
      cases s.unfed? columns fs <;> rfl
    | n + 2 =>
      obtain ⟨i, others, hpositions⟩ := List.exists_cons_of_length_eq_add_one (hlength.trans hcount)
      rw [hpositions, hcount] at hlength
      obtain ⟨j, rest, rfl⟩ := List.exists_cons_of_length_eq_add_one (Nat.succ.inj hlength)
      simp only [picks, hpositions, unfed?, hcount]

lemma resolve_eq (s : PlainShape) (columns : List String) (offset : Nat) :
    s.resolve columns offset =
      match s.refusal? columns with
      | some e => .error e
      | none => .ok (picked columns offset s.fields) := by
  rw [resolve, refusal?]
  cases s.table with
  | none => exact picks_eq_unfed s columns offset s.fields
  | some t =>
    have hsorted : foldedSorted t.columnNames = foldedSorted columns ↔
        (columns.map Text.fold).Perm t.foldedNames :=
      foldedSorted_eq_iff.trans List.perm_comm
    by_cases h : (columns.map Text.fold).Perm t.foldedNames
    · simp only [if_pos h, if_pos (hsorted.mpr h)]
      exact picks_eq_unfed s columns offset s.fields
    · simp only [if_neg h, if_neg (mt hsorted.mp h)]

lemma unfed?_eq_none_iff : s.unfed? columns fs = none ↔ ∀ f ∈ fs, f.Fed columns := by
  induction fs with
  | nil => exact iff_of_true rfl (List.forall_mem_nil _)
  | cons f fs ih =>
    rw [List.forall_mem_cons, ← ih, unfed?, FieldMapping.Fed]
    match hcount : occurrences columns f.column with
    | 0 => cases hrequired : f.required <;> simp
    | 1 => simp
    | n + 2 => simp

lemma unfed?_congr (h : ∀ name, occurrences columns name = occurrences columns' name) :
    s.unfed? columns fs = s.unfed? columns' fs := by
  induction fs with
  | nil => rfl
  | cons f fs ih => rw [unfed?, unfed?, h, ih]

lemma Of.refusal?_eq (h : s.Of t) (hdistinct : t.foldedNames.Nodup) :
    s.refusal? columns =
      if (columns.map Text.fold).Perm t.foldedNames then none
      else some (.columnSet s.model.name t.name t.columnNames columns) := by
  rw [refusal?, h.table]
  by_cases hcolumns : (columns.map Text.fold).Perm t.foldedNames
  · simp only [if_pos hcolumns]
    refine unfed?_eq_none_iff.mpr fun f hf => ?_
    have hone : occurrences columns f.column = 1 :=
      occurrences_eq_one (hcolumns.nodup_iff.mpr hdistinct)
        (hcolumns.mem_iff.mpr (h.columns f hf))
    exact ⟨hone.le, fun _ => hone⟩
  · simp only [if_neg hcolumns]

end Resolving

end PlainShape

section Cells

lemma cell_cons (c : String) (v : Value) : cell (c :: columns) (v :: row) name =
    if Text.fold c = Text.fold name then some v else cell columns row name := by
  by_cases h : Text.fold c = Text.fold name <;> simp [cell, h]

lemma cell_eq (hrow : row.length = columns.length) :
    cell columns row name = row[place columns name]? := by
  induction columns generalizing row with
  | nil =>
    rw [List.eq_nil_of_length_eq_zero hrow]
    rfl
  | cons c columns ih =>
    obtain ⟨v, row, rfl⟩ := List.exists_cons_of_length_eq_add_one hrow
    rw [cell_cons, place, List.findIdx_cons]
    by_cases h : Text.fold c = Text.fold name
    · rw [if_pos h, beq_iff_eq.mpr h]
      rfl
    · rw [if_neg h, beq_false_of_ne h, ih (Nat.succ.inj hrow)]
      rfl

lemma cell_eq_none (h : Text.fold name ∉ columns.map Text.fold) : cell columns row name = none := by
  rw [cell, Option.map_eq_none_iff, List.find?_eq_none]
  rintro ⟨c, v⟩ hc
  have hmem : c ∈ columns := (List.of_mem_zip hc).1
  simpa using fun hname => h (List.mem_map.mpr ⟨c, hmem, hname⟩)

lemma cell_congr (hone : occurrences columns name ≤ 1) (hrow : row.length = columns.length)
    (h : (columns.zip row).Perm (columns'.zip row')) :
    cell columns row name = cell columns' row' name := by
  let named (e : String × Value) : Bool := Text.fold e.1 == Text.fold name
  have hcount : ((columns.zip row).filter named).length = occurrences columns name := by
    have hcolumns : (columns.zip row).map Prod.fst = columns := List.map_fst_zip hrow.ge
    rw [← List.countP_eq_length_filter, occurrences, List.count, List.countP_map, ← hcolumns,
      List.countP_map, hcolumns]
    rfl
  have hfilter : (columns.zip row).filter named = (columns'.zip row').filter named := by
    have hperm := h.filter named
    cases hfiltered : (columns.zip row).filter named with
    | nil =>
      rw [hfiltered] at hperm
      exact hperm.nil_eq
    | cons e rest =>
      rw [hfiltered] at hperm hcount
      have hrest : rest = [] := List.eq_nil_of_length_eq_zero (by
        rw [List.length_cons] at hcount
        omega)
      rw [hrest] at hperm ⊢
      exact List.singleton_perm.mp hperm
  rw [cell, cell, ← List.head?_filter, ← List.head?_filter, hfilter]

end Cells

namespace Model

variable {key : String}

lemma given_eq_none {entries : List (String × Value)} (h : ∀ e ∈ entries, e.1 ≠ key) :
    given key entries = none := by
  rw [given, List.lookup_eq_none_iff]
  exact fun e he => by simpa using (h e (List.mem_reverse.mp he)).symm

lemma mem_cells {e : String × Value} : e ∈ m.cells columns row ↔
    ∃ f ∈ m.fields, f.key = e.1 ∧ cell columns row f.key = some e.2 := by
  obtain ⟨key, v⟩ := e
  simp only [cells, List.mem_filterMap, Option.map_eq_some_iff, Prod.mk.injEq]
  constructor
  · rintro ⟨f, hf, w, hw, rfl, rfl⟩
    exact ⟨f, hf, rfl, hw⟩
  · rintro ⟨f, hf, rfl, hv⟩
    exact ⟨f, hf, v, hv, rfl, rfl⟩

lemma given_cells {f : Field Model} (hf : f ∈ m.fields) :
    given f.key (m.cells columns row) = cell columns row f.key := by
  cases hcell : cell columns row f.key with
  | none =>
    refine given_eq_none fun e he hkey => ?_
    obtain ⟨g, -, hg, hv⟩ := mem_cells.mp he
    rw [hg, hkey, hcell] at hv
    cases hv
  | some v =>
    refine given_eq_some (mem_cells.mpr ⟨f, hf, rfl, hcell⟩) fun w hw => ?_
    obtain ⟨g, -, hg, hw⟩ := mem_cells.mp hw
    simp only at hg hw
    rw [hg, hcell] at hw
    exact (Option.some.inj hw).symm

end Model

namespace PlainShape

lemma pickAll_picked (hrow : row.length = columns.length) (fs : List FieldMapping) :
    pickAll row (picked columns 0 fs) =
      .ok (fs.filterMap fun f => (cell columns row f.column).map (f.column, ·)) := by
  induction fs with
  | nil => rfl
  | cons f fs ih =>
    by_cases h : Text.fold f.column ∈ columns.map Text.fold
    · obtain ⟨c, hc, -⟩ := getElem?_place h
      have hlt : place columns f.column < row.length :=
        hrow ▸ (List.getElem?_eq_some_iff.mp hc).1
      have hcell : (cell columns row f.column).map (f.column, ·) =
          some (f.column, row[place columns f.column]) := by
        rw [cell_eq hrow, List.getElem?_eq_getElem hlt, Option.map_some]
      have hpicked : picked columns 0 (f :: fs) =
          (f.column, 0 + place columns f.column) :: picked columns 0 fs :=
        List.filterMap_cons_some (if_pos h)
      rw [hpicked, Nat.zero_add, pickAll, List.getElem?_eq_getElem hlt, ih, List.filterMap_cons,
        hcell]
      rfl
    · have hcell : (cell columns row f.column).map (f.column, ·) = none := by
        rw [cell_eq_none h, Option.map_none]
      have hpicked : picked columns 0 (f :: fs) = picked columns 0 fs :=
        List.filterMap_cons_none (if_neg h)
      rw [hpicked, ih, List.filterMap_cons, hcell]

structure OfModel (s : PlainShape) (m : Model) : Prop where
  model : s.model = m
  fields : s.fields = m.fields.map (·.mapping)

namespace OfModel

variable (h : s.OfModel m)
include h

lemma build_eq (hrow : row.length = columns.length) :
    (Resolved.plain s (picked columns 0 s.fields)).build row =
      (m.accept (m.cells columns row)).mapError fun issues =>
        .shape (.invalidRow m.name issues) := by
  rw [Resolved.build, buildRow, pickAll_picked hrow, h.fields, h.model, List.filterMap_map]
  rfl

lemma cells_congr (hfed : ∀ f ∈ s.fields, f.Fed columns) (hrow : row.length = columns.length)
    (hzip : (columns.zip row).Perm (columns'.zip row')) :
    m.cells columns row = m.cells columns' row' := by
  rw [h.fields, List.forall_mem_map] at hfed
  refine List.filterMap_congr fun f hf => ?_
  have hcell : cell columns row f.key = cell columns' row' f.key :=
    cell_congr (hfed f hf).1 hrow hzip
  rw [hcell]

end OfModel

lemma fed_of_refusal? (h : s.refusal? columns = none) : ∀ f ∈ s.fields, f.Fed columns := by
  rw [refusal?] at h
  split at h
  · split at h
    · exact unfed?_eq_none_iff.mp h
    · cases h
  · exact unfed?_eq_none_iff.mp h

lemma code_refusal? (h : columns.Perm columns') :
    (s.refusal? columns).map (·.report.code) = (s.refusal? columns').map (·.report.code) := by
  have hunfed : s.unfed? columns s.fields = s.unfed? columns' s.fields :=
    unfed?_congr fun name => (h.map Text.fold).count_eq _
  rw [refusal?, refusal?, hunfed]
  cases s.table with
  | none => rfl
  | some t =>
    have hsame : (columns.map Text.fold).Perm t.foldedNames ↔
        (columns'.map Text.fold).Perm t.foldedNames :=
      ⟨(h.map Text.fold).symm.trans, (h.map Text.fold).trans⟩
    by_cases hcolumns : (columns.map Text.fold).Perm t.foldedNames
    · simp only [if_pos hcolumns, if_pos (hsame.mp hcolumns)]
    · simp only [if_neg hcolumns, if_neg (mt hsame.mpr hcolumns)]
      rfl

end PlainShape

section Rows

variable {tasks : List RowTask} {rows rows' : List (List Value)} {sources : List (String × String)}

def mappedAfter (schema : Schema) (tasks : List RowTask) (m : Model) (columns : List String)
    (rows : List (List Value)) (sources : List (String × String)) : Except Failure (List Value) :=
  (mapRows schema (served schema tasks) columns rows (some (.model m)) sources).1

lemma mappedAfter_eq (h : answer schema tasks m = .ok (.plain s)) :
    mappedAfter schema tasks m columns rows sources =
      match s.refusal? columns with
      | some e => .error (.shape e)
      | none => buildAll (.plain s (PlainShape.picked columns 0 s.fields)) rows := by
  rw [answer] at h
  rw [mappedAfter, mapRows]
  cases hshape : shapeOf schema (served schema tasks) (.model m) with
  | mk outcome cache =>
    rw [hshape] at h
    obtain rfl : outcome = .ok (.plain s) := h
    simp only [Shape.resolve, PlainShape.resolve_eq]
    cases s.refusal? columns <;> rfl

lemma buildAll_congr {r r' : Resolved}
    (h : List.Forall₂ (fun row row' => r.build row = r'.build row') rows rows') :
    buildAll r rows = buildAll r' rows' := by
  induction h with
  | nil => rfl
  | cons hrow _ ih => rw [buildAll, buildAll, hrow, ih]

lemma exists_of_buildAll_eq_error {r : Resolved} {e : Failure} (h : buildAll r rows = .error e) :
    ∃ row ∈ rows, r.build row = .error e := by
  induction rows with
  | nil => cases h
  | cons row rows ih =>
    obtain hrow | ⟨v, -, hrest⟩ := bind_eq_error_iff.mp h
    · exact ⟨row, List.mem_cons_self, hrow⟩
    · obtain ⟨row', hmem, hrow⟩ := ih (map_eq_error_iff.mp hrest)
      exact ⟨row', List.mem_cons_of_mem _ hmem, hrow⟩

lemma code_of_buildRow {picks : List Pick} {e : Failure} (h : s.buildRow picks row = .error e) :
    e.code? = none ∨ e.code? = some .shapeInvalidModel := by
  rw [PlainShape.buildRow] at h
  split at h
  · obtain rfl := Except.error.inj h
    exact Or.inl rfl
  · obtain ⟨issues, -, rfl⟩ := mapError_eq_error_iff.mp h
    exact Or.inr rfl

end Rows

section Matching

variable {tables : List Table} {indexes : List Index} {f : Field Model} {tasks : List RowTask}
  {rows : List (List Value)} {sources : List (String × String)}

lemma Field.inputName_eq_key (h : f.keyName ≠ some "") : f.inputName = f.key := by
  rw [inputName, key]
  cases hname : f.keyName with
  | none => rfl
  | some a =>
    have hne : a ≠ "" := fun ha => h (ha ▸ hname)
    simp [hne]

lemma Field.key_ne (h : f.name ≠ "") : f.key ≠ "" := by
  rw [key]
  split
  · next a _ => by_cases ha : a = "" <;> simp [ha, h]
  · exact h

lemma PlainShape.OfModel.of_analysePlain (h : analysePlain schema m = .ok s) : s.OfModel m := by
  obtain ⟨table, -, -, rfl⟩ := analysePlain_eq_ok_iff.mp h
  exact ⟨rfl, rfl⟩

lemma Schema.Consistent.exists_bound (hc : Schema.Consistent tables indexes)
    (h : analysePlain (Schema.ofDescriptions tables indexes) m = .ok s)
    (hbound : m.binding = some name) : ∃ t ∈ tables, t.name = name ∧ s.Of t := by
  obtain ⟨table, htable, -, -⟩ := analysePlain_eq_ok_iff.mp h
  rw [boundTable, hbound] at htable
  cases hget : (Schema.ofDescriptions tables indexes).tables.get? name with
  | none =>
    simp only [hget] at htable
    cases htable
  | some t =>
    obtain ⟨ht, rfl⟩ := hc.mem_of_get? hget
    exact ⟨t, ht, rfl, hc.analysePlain_of ht hbound h⟩

lemma Schema.Consistent.refusal?_eq_none_iff (hc : Schema.Consistent tables indexes)
    (h : analysePlain (Schema.ofDescriptions tables indexes) m = .ok s) :
    s.refusal? columns = none ↔ m.Suits tables columns := by
  rw [Model.Suits]
  cases hbinding : m.binding with
  | none =>
    obtain ⟨table, htable, -, rfl⟩ := analysePlain_eq_ok_iff.mp h
    rw [boundTable, hbinding] at htable
    obtain rfl : none = table := Except.ok.inj htable
    rw [PlainShape.refusal?]
    exact PlainShape.unfed?_eq_none_iff.trans List.forall_mem_map
  | some name =>
    obtain ⟨t, ht, rfl, hof⟩ := hc.exists_bound h hbinding
    rw [hof.refusal?_eq (hc.distinct_columns ht)]
    simp only [ite_eq_left_iff, reduceCtorEq, imp_false, not_not]
    constructor
    · exact fun hcolumns => ⟨t, ht, rfl, hcolumns⟩
    · rintro ⟨u, hu, hname, hcolumns⟩
      rwa [← List.inj_on_of_nodup_map hc.distinct_tables hu ht hname]

lemma zip_ofFn_perm {n : Nat} (σ : Equiv.Perm (Fin n)) (columns : Fin n → String)
    (row : Fin n → Value) : ((List.ofFn columns).zip (List.ofFn row)).Perm
      ((List.ofFn (columns ∘ σ)).zip (List.ofFn (row ∘ σ))) := by
  have hzip (columns : Fin n → String) (row : Fin n → Value) :
      (List.ofFn columns).zip (List.ofFn row) = List.ofFn fun i => (columns i, row i) := by
    apply List.ext_getElem <;> simp
  rw [hzip, hzip]
  exact (σ.ofFn_comp_perm fun i => (columns i, row i)).symm

lemma resolve_plain (s : PlainShape) (columns : List String) : (Shape.plain s).resolve columns =
    match s.refusal? columns with
    | some e => .error e
    | none => .ok (.plain s (PlainShape.picked columns 0 s.fields)) := by
  rw [Shape.resolve, PlainShape.resolve_eq]
  cases s.refusal? columns <;> rfl

lemma PlainShape.Of.code_of_mappedAfter (h : s.Of t) (hdistinct : t.foldedNames.Nodup)
    (hshape : answer schema tasks m = .ok (.plain s)) {e : Failure}
    (he : mappedAfter schema tasks m columns rows sources = .error e) :
    e.code? = some .shapeColumnSet ∨ e.code? = none ∨ e.code? = some .shapeInvalidModel := by
  rw [mappedAfter_eq hshape, h.refusal?_eq hdistinct] at he
  split at he
  · next hrefusal =>
    split at hrefusal
    · cases hrefusal
    · obtain rfl := Option.some.inj hrefusal
      obtain rfl := Except.error.inj he
      exact Or.inl rfl
  · obtain ⟨row, -, hrow⟩ := exists_of_buildAll_eq_error he
    exact Or.inr (code_of_buildRow hrow)

lemma PlainShape.OfModel.mappedAfter_turned (h : s.OfModel m)
    (hshape : answer schema tasks m = .ok (.plain s)) (sources' : List (String × String))
    {n : Nat} (σ : Equiv.Perm (Fin n)) (columns : Fin n → String) (rows : List (Fin n → Value)) :
    (mappedAfter schema tasks m (.ofFn columns) (rows.map .ofFn) sources).mapError (·.code?) =
      (mappedAfter schema tasks m (.ofFn (columns ∘ σ)) (rows.map fun row => .ofFn (row ∘ σ))
        sources').mapError (·.code?) := by
  have hcode := code_refusal? (s := s) (σ.ofFn_comp_perm columns)
  rw [mappedAfter_eq hshape, mappedAfter_eq hshape]
  cases hrefusal : s.refusal? (.ofFn columns) with
  | none =>
    rw [hrefusal, Option.map_none, Option.map_eq_none_iff] at hcode
    have hfed := fed_of_refusal? hrefusal
    have hrows : buildAll (.plain s (picked (.ofFn columns) 0 s.fields)) (rows.map .ofFn) =
        buildAll (.plain s (picked (.ofFn (columns ∘ σ)) 0 s.fields))
          (rows.map fun row => .ofFn (row ∘ σ)) := by
      refine buildAll_congr (List.forall₂_map_left_iff.mpr (List.forall₂_map_right_iff.mpr ?_))
      refine List.forall₂_same.mpr fun row _ => ?_
      rw [h.build_eq (by simp), h.build_eq (by simp),
        h.cells_congr hfed (by simp) (zip_ofFn_perm σ columns row)]
    rw [hcode, hrows]
  | some e =>
    rw [hrefusal, Option.map_some] at hcode
    obtain ⟨e', he', hreport⟩ := Option.map_eq_some_iff.mp hcode
    rw [he']
    exact congrArg (fun c => Except.error (some c)) hreport.symm

/-- The rows of a plain model are matched by the names of their columns. Each field is given the
value of its column, unless its alias is empty: then it is given none. -/
theorem plain_rows_matched (hschema : Schema.build tables indexes = .ok schema)
    (hapart : ToldApart (mentioned tasks m)) (hshape : answer schema tasks m = .ok (.plain s)) :
    (∀ columns, (∃ r, (Shape.plain s).resolve columns = .ok r) ↔ m.Suits tables columns) ∧
    (∀ columns r row, (Shape.plain s).resolve columns = .ok r → row.length = columns.length →
      r.build row = (m.accept (m.cells columns row)).mapError
        (fun issues => .shape (.invalidRow m.name issues)) ∧
      ∀ f ∈ m.fields,
        (f.keyName ≠ some "" →
          given f.inputName (m.cells columns row) = cell columns row f.key) ∧
        (f.keyName = some "" → (∀ g ∈ m.fields, g.name ≠ "") →
          given f.inputName (m.cells columns row) = none)) ∧
    (m.binding ≠ none → ∀ columns rows sources e,
      mappedAfter schema tasks m columns rows sources = .error e →
        e.code? ≠ some .shapeMissingColumn ∧ e.code? ≠ some .shapeAmbiguousColumn) ∧
    ∀ (n : Nat) (σ : Equiv.Perm (Fin n)) (columns : Fin n → String) (rows : List (Fin n → Value))
      (sources sources' : List (String × String)),
      (mappedAfter schema tasks m (.ofFn columns) (rows.map .ofFn) sources).mapError (·.code?) =
        (mappedAfter schema tasks m (.ofFn (columns ∘ σ)) (rows.map fun row => .ofFn (row ∘ σ))
          sources').mapError (·.code?) := by
  obtain ⟨hc, rfl⟩ := Schema.build_eq_ok_iff.mp hschema
  have hplain : analysePlain _ m = .ok s := fits_of_answer hapart hshape
  have hmodel := PlainShape.OfModel.of_analysePlain hplain
  refine ⟨fun columns => ?_, fun columns r row hr hrow => ⟨?_, fun f hf => ⟨fun hkey => ?_,
    fun hkey hnames => ?_⟩⟩, fun hbound columns rows sources e he => ?_,
    fun n σ columns rows sources sources' =>
      hmodel.mappedAfter_turned hshape sources' σ columns rows⟩
  · rw [← hc.refusal?_eq_none_iff hplain, resolve_plain]
    cases s.refusal? columns <;> simp
  · rw [resolve_plain] at hr
    cases hrefusal : s.refusal? columns with
    | some e =>
      rw [hrefusal] at hr
      cases hr
    | none =>
      rw [hrefusal] at hr
      obtain rfl := Except.ok.inj hr
      exact hmodel.build_eq hrow
  · rw [f.inputName_eq_key hkey, Model.given_cells hf]
  · refine Model.given_eq_none fun e he => ?_
    obtain ⟨g, hg, hname, -⟩ := Model.mem_cells.mp he
    rw [← hname, Field.inputName, hkey]
    exact Field.key_ne (hnames g hg)
  · obtain ⟨name, hname⟩ := Option.ne_none_iff_exists'.mp hbound
    obtain ⟨t, ht, -, hof⟩ := hc.exists_bound hplain hname
    obtain hcode | hcode | hcode := hof.code_of_mappedAfter (hc.distinct_columns ht) hshape he <;>
      simp [hcode]

end Matching

namespace Notes

def key : Column := { name := "id", kind := .integer, primaryKey := true }

def note : Table := ⟨"note", [key, { name := "body", kind := .text }]⟩

def declared : Schema := .ofDescriptions [note] []

def line : Model := .mk 0 "Line" (some "note")
  [{ name := "id", type := .scalar .whole },
    { name := "text", type := .scalar .text, keyName := some "Body" }]

def shape : PlainShape := ⟨line, [⟨"id", true⟩, ⟨"Body", true⟩], some note⟩

lemma toldApart : ToldApart (mentioned [] line) :=
  toldApart_of_nodup [line] (by decide) (List.Subset.refl _)

def view : Model := .mk 1 "View" none
  [{ name := "a", type := .scalar .whole, keyName := some "" }]

end Notes

open Notes in
theorem plain_rows_matched_capitals : Schema.build [note] [] = .ok Notes.declared ∧
    answer Notes.declared [] line = .ok (.plain Notes.shape) ∧
    (∃ r, (Shape.plain Notes.shape).resolve ["BODY", "Id"] = .ok r) ∧
    ∀ v w, given "Body" (line.cells ["BODY", "Id"] [w, v]) = some w ∧
      (mappedAfter Notes.declared [] line ["Id", "BODY"] [[v, w]] []).mapError (·.code?) =
      (mappedAfter Notes.declared [] line ["BODY", "Id"] [[w, v]] []).mapError (·.code?) := by
  have hschema : Schema.build [note] [] = .ok Notes.declared := rfl
  have hshape : answer Notes.declared [] line = .ok (.plain Notes.shape) := rfl
  obtain ⟨hresolves, hrows, -, hturned⟩ := plain_rows_matched hschema Notes.toldApart hshape
  have hsuits : line.Suits [note] ["BODY", "Id"] :=
    ⟨note, List.mem_cons_self, rfl, by decide⟩
  obtain ⟨r, hr⟩ := (hresolves _).mpr hsuits
  refine ⟨hschema, hshape, ⟨r, hr⟩, fun v w => ⟨?_, ?_⟩⟩
  · obtain ⟨-, hfields⟩ := hrows _ r [w, v] hr rfl
    have hcell : cell ["BODY", "Id"] [w, v] "Body" = some w :=
      (cell_cons "BODY" w).trans (if_pos (by decide))
    have htext := (hfields _ (List.mem_cons_of_mem _ List.mem_cons_self)).1 (by decide)
    exact htext.trans hcell
  · exact hturned 2 (Equiv.swap 0 1) !["Id", "BODY"] [![v, w]] [] []

open Notes in
/-- A field with an empty alias has its column, and its value is missing all the same. -/
theorem plain_rows_unheard : Schema.build [] [] = .ok (.ofDescriptions [] []) ∧
    answer (.ofDescriptions [] []) [] view = .ok (.plain ⟨view, [⟨"a", true⟩], none⟩) ∧
    view.Suits [] ["a"] ∧ cell ["a"] [.int 1] "a" = some (.int 1) ∧
    mappedAfter (.ofDescriptions [] []) [] view ["a"] [[.int 1]] [] =
      .error (.shape (.invalidRow "View"
        [⟨[""], "missing", "Field required", .map [(.text "a", .int 1)]⟩])) :=
  ⟨rfl, rfl, List.forall_mem_singleton.mpr ⟨by decide, fun _ => by decide⟩, rfl, rfl⟩

end Tablewright
