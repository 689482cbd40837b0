import Tablewright.Proofs.Rows.Share

namespace Tablewright

open Model (given acceptField)

variable {schema : Schema} {tasks : List RowTask} {m : Model} {s : PlainShape}
  {parts : List (String × PlainShape)} {columns : List String} {row : List Value}

section Assembling

variable {fs : List (Field Model)} {values : List Value}

def IsPart (f : Field Model) (p : String × PlainShape) : Prop :=
  p.1 = f.key ∧ f.part? = some p.2.model

lemma forall₂_isPart (hall : ∀ f ∈ fs, (f.part?.map fun part => (f.key, part)).isSome)
    (h : List.Forall₂ (fun (p : String × Model) s => p.1 = s.1 ∧ analysePlain schema p.2 = .ok s.2)
      (fs.filterMap fun f => f.part?.map fun part => (f.key, part)) parts) :
    List.Forall₂ IsPart fs parts := by
  induction fs generalizing parts with
  | nil =>
    obtain rfl := List.forall₂_nil_left_iff.mp h
    exact .nil
  | cons f fs ih =>
    rw [List.forall_mem_cons] at hall
    obtain ⟨⟨key, part⟩, hpart⟩ := Option.isSome_iff_exists.mp hall.1
    simp only [List.filterMap_cons, hpart] at h
    obtain ⟨p, rest, ⟨hkey, hplain⟩, hrest, rfl⟩ := List.forall₂_cons_left_iff.mp h
    obtain ⟨part, hf, heq⟩ := Option.map_eq_some_iff.mp hpart
    obtain ⟨rfl, rfl⟩ := Prod.mk.inj heq
    refine .cons ⟨hkey.symm, ?_⟩ (ih hall.2 hrest)
    rw [hf, (PlainShape.OfModel.of_analysePlain hplain).model]

lemma keys_of_isPart (h : List.Forall₂ IsPart fs parts) : parts.map (·.1) = fs.map (·.key) := by
  have hsame : List.Forall₂ (· = ·) (parts.map (·.1)) (fs.map (·.key)) :=
    List.forall₂_map_left_iff.mpr (List.forall₂_map_right_iff.mpr (h.flip.imp fun _ _ h => h.1))
  rwa [List.forall₂_eq_eq_eq] at hsame

lemma Shape.Fits.isPart {shape : Shape} (h : shape.Fits schema m) (hparts : shape.parts ≠ []) :
    shape = .composite m shape.parts ∧ List.Forall₂ IsPart m.fields shape.parts := by
  cases shape with
  | plain s => exact absurd rfl hparts
  | composite m' parts =>
    obtain ⟨rfl, hcomposite, hflat⟩ := h
    exact ⟨rfl, forall₂_isPart (List.filterMap_length_eq_length.mp hcomposite.all)
      (flatParts_eq_ok_iff.mp hflat)⟩

lemma PlainShape.exists_record_of_buildRow {picks : List Pick} {v : Value}
    (h : s.buildRow picks row = .ok v) : ∃ fields, v = .record s.model.name fields := by
  rw [buildRow] at h
  split at h
  · cases h
  · obtain ⟨values, -, rfl⟩ := Model.accept_eq_ok_iff.mp (mapError_eq_ok_iff.mp h)
    exact ⟨_, rfl⟩

lemma Share.exists_record {p : Share} {v : Value} (h : p.value = .ok v) :
    ∃ fields, v = .record p.shape.model.name fields := by
  rw [Share.value, PlainShape.mapRow_eq] at h
  split at h
  · cases h
  · exact PlainShape.exists_record_of_buildRow h

lemma Field.take_of_part {f : Field Model} {part : Model} (h : f.part? = some part)
    (fields : List (String × Value)) :
    f.take (.record part.name fields) = .ok (.record part.name fields) := by
  rw [part?] at h
  split at h
  · next hmodel =>
    split at h
    · cases h
    · obtain rfl := Option.some.inj h
      exact take_record hmodel fields
  · cases h

/-- What a field of a composite holds: what its part makes of its share. A field with an empty alias
holds what it falls back on, once its part is made. -/
def HoldsPart (f : Field Model) (p : Share) (held : Value) : Prop :=
  ∃ v, p.value = .ok v ∧ if f.keyName = some "" then f.fallback = some held else held = v

def Assembled (m : Model) (ps : List Share) (v : Value) : Prop :=
  ∃ held, List.Forall₂ (fun (e : Field Model × Share) => HoldsPart e.1 e.2) (m.fields.zip ps) held ∧
    v = .record m.name ((m.fields.map (·.name)).zip held)

lemma acceptField_eq_ok_iff {f : Field Model} {part : Model}
    {entries fields : List (String × Value)} {v : Value} (hpart : f.part? = some part)
    (hgiven : given f.key entries = some (.record part.name fields))
    (hmute : f.keyName = some "" → given f.inputName entries = none) :
    acceptField f entries = .ok v ↔
      if f.keyName = some "" then f.fallback = some v else v = .record part.name fields := by
  by_cases halias : f.keyName = some ""
  · rw [if_pos halias, Model.acceptField_eq, hmute halias]
    cases f.fallback <;> simp
  · rw [if_neg halias, Model.acceptField_of_given (f.inputName_eq_key halias ▸ hgiven),
      Field.take_of_part hpart]
    simp [eq_comm]

lemma forall₂_acceptField_iff {ps : List Share} {entries : List (String × Value)}
    {held : List Value} (hisPart : List.Forall₂ IsPart fs parts)
    (hps : ps.map (·.shape) = parts.map (·.2))
    (hvalues : List.Forall₂ (fun p v => p.value = .ok v) ps values)
    (hgiven : ∀ e ∈ (parts.map (·.1)).zip values, given e.1 entries = some e.2)
    (hmute : ∀ f ∈ fs, f.keyName = some "" → given f.inputName entries = none) :
    List.Forall₂ (fun f v => acceptField f entries = .ok v) fs held ↔
      List.Forall₂ (fun (e : Field Model × Share) => HoldsPart e.1 e.2) (fs.zip ps) held := by
  induction hisPart generalizing ps values held with
  | nil => simp
  | @cons f p fs parts hf _ ih =>
    obtain ⟨q, ps, rfl⟩ := List.exists_cons_of_ne_nil (l := ps) (by rintro rfl; cases hps)
    obtain ⟨v, values, hv, hothers, rfl⟩ := List.forall₂_cons_left_iff.mp hvalues
    obtain ⟨hshape, hps⟩ := List.cons.inj hps
    have hshape : q.shape = p.2 := hshape
    rw [List.map_cons, List.zip_cons_cons, List.forall_mem_cons] at hgiven
    rw [List.forall_mem_cons] at hmute
    obtain ⟨hkey, hpart⟩ := hf
    obtain ⟨fields, rfl⟩ := Share.exists_record hv
    rw [← hshape] at hpart
    have hhere (w : Value) : acceptField f entries = .ok w ↔ HoldsPart f q w := by
      rw [acceptField_eq_ok_iff hpart (hkey ▸ hgiven.1) hmute.1, HoldsPart, hv]
      simp
    rw [List.zip_cons_cons, List.forall₂_cons_left_iff, List.forall₂_cons_left_iff]
    simp only [hhere, ih hps hothers hgiven.2 hmute.2]

lemma exists_values_of_holdsPart {ps : List Share} {held : List Value}
    (hlength : ps.length = fs.length)
    (h : List.Forall₂ (fun (e : Field Model × Share) => HoldsPart e.1 e.2) (fs.zip ps) held) :
    ∃ values, List.Forall₂ (fun p v => p.value = .ok v) ps values := by
  induction ps generalizing fs held with
  | nil => exact ⟨[], .nil⟩
  | cons p ps ih =>
    obtain ⟨f, fs, rfl⟩ := List.exists_cons_of_length_eq_add_one hlength.symm
    obtain ⟨w, held, ⟨v, hv, -⟩, hrest, rfl⟩ := List.forall₂_cons_left_iff.mp h
    obtain ⟨values, hvalues⟩ := ih (Nat.succ.inj hlength) hrest
    exact ⟨v :: values, .cons hv hvalues⟩

lemma shapes_shares : (shares parts columns row).map (·.shape) = parts.map (·.2) := by
  induction parts generalizing columns row with
  | nil => rfl
  | cons p parts ih => rw [shares_cons, List.map_cons, List.map_cons, ih]

lemma accept_iff_assembled (hisPart : List.Forall₂ IsPart m.fields parts)
    (hkeys : (parts.map (·.1)).Nodup)
    (hnames : ∀ f ∈ m.fields, f.keyName = some "" → ∀ g ∈ m.fields, g.name ≠ "") {v : Value}
    (hvalues : List.Forall₂ (fun p v => p.value = .ok v) (shares parts columns row) values) :
    m.accept ((parts.map (·.1)).zip values) = .ok v ↔ Assembled m (shares parts columns row) v := by
  have hlength : (parts.map (·.1)).length = values.length := by
    rw [List.length_map, ← hvalues.length_eq, length_shares]
  have hgiven : ∀ e ∈ (parts.map (·.1)).zip values,
      given e.1 ((parts.map (·.1)).zip values) = some e.2 := by
    rintro ⟨key, w⟩ he
    refine given_eq_some he fun w' hw' => ?_
    have hnodup : (((parts.map (·.1)).zip values).map (·.1)).Nodup := by
      rwa [List.map_fst_zip hlength.le]
    exact (Prod.ext_iff.mp (List.inj_on_of_nodup_map hnodup hw' he rfl)).2
  -- a field with an empty alias listens to the empty name, which is the key of no part
  have hmute : ∀ f ∈ m.fields, f.keyName = some "" →
      given f.inputName ((parts.map (·.1)).zip values) = none := by
    intro f hf halias
    refine Model.given_eq_none fun e he => ?_
    have hkey : e.1 ∈ m.fields.map (·.key) := keys_of_isPart hisPart ▸ (List.of_mem_zip he).1
    obtain ⟨g, hg, hkey⟩ := List.mem_map.mp hkey
    rw [← hkey, Field.inputName, halias]
    exact Field.key_ne (hnames f hf halias g hg)
  rw [Model.accept_eq_ok_iff, Assembled]
  simp only [forall₂_acceptField_iff hisPart shapes_shares hvalues hgiven hmute]

end Assembling

section Slicing

variable {shape : Shape} {rows : List (List Value)}

lemma mapRow_composite_iff (hcolumns : columns.length = (widths parts).sum) {v : Value} :
    (Shape.composite m parts).mapRow columns row = .ok v ↔
      ∃ values, List.Forall₂ (fun p w => p.value = .ok w) (shares parts columns row) values ∧
        m.accept ((parts.map (·.1)).zip values) = .ok v := by
  have hresolve : (Shape.composite m parts).resolve columns =
      (resolveParts 0 parts columns).map (.composite m) := by
    rw [Shape.resolve, width_composite_eq, if_pos hcolumns.symm]
  have hparts {entries : List (String × Value)} :
      (∃ picked, resolveParts 0 parts columns = .ok picked ∧ buildParts row picked = .ok entries) ↔
        ∃ values, List.Forall₂ (fun p v => p.value = .ok v) (shares parts columns row) values ∧
          entries = (parts.map (·.1)).zip values := by
    have h := @resolveParts_build_iff parts columns row 0 entries hcolumns
    rwa [List.drop_zero] at h
  rw [Shape.mapRow, hresolve]
  simp only [bind_eq_ok_iff, mapError_eq_ok_iff, map_eq_ok_iff]
  constructor
  · rintro ⟨_, ⟨picked, hpicked, rfl⟩, hbuild⟩
    rw [Resolved.build] at hbuild
    split at hbuild
    · cases hbuild
    · next entries hentries =>
      obtain ⟨values, hvalues, rfl⟩ := hparts.mp ⟨picked, hpicked, hentries⟩
      exact ⟨values, hvalues, mapError_eq_ok_iff.mp hbuild⟩
  · rintro ⟨values, hvalues, haccept⟩
    obtain ⟨picked, hpicked, hentries⟩ := hparts.mpr ⟨values, hvalues, rfl⟩
    refine ⟨_, ⟨picked, hpicked, rfl⟩, ?_⟩
    rw [Resolved.build, hentries]
    exact mapError_eq_ok_iff.mpr haccept

lemma HoldsPart.unique {f : Field Model} {p : Share} {v w : Value} (hv : HoldsPart f p v)
    (hw : HoldsPart f p w) : v = w := by
  obtain ⟨a, ha, hv⟩ := hv
  obtain ⟨b, hb, hw⟩ := hw
  by_cases halias : f.keyName = some ""
  · rw [if_pos halias] at hv hw
    exact Option.some.inj (hv.symm.trans hw)
  · rw [if_neg halias] at hv hw
    rw [hv, hw]
    exact Except.ok.inj (ha.symm.trans hb)

lemma Assembled.getElem?_eq {ps ps' : List Share} {i : Nat} {name name' : String}
    {fields fields' : List (String × Value)} (h : Assembled m ps (.record name fields))
    (h' : Assembled m ps' (.record name' fields')) (hi : ps[i]? = ps'[i]?) :
    fields[i]? = fields'[i]? := by
  obtain ⟨held, hheld, heq⟩ := h
  obtain ⟨held', hheld', heq'⟩ := h'
  obtain ⟨-, rfl⟩ := Value.record.inj heq
  obtain ⟨-, rfl⟩ := Value.record.inj heq'
  have hzip : (m.fields.zip ps)[i]? = (m.fields.zip ps')[i]? := by
    rw [List.zip_eq_zipWith, List.zip_eq_zipWith, List.getElem?_zipWith, List.getElem?_zipWith, hi]
  have hsame : held[i]? = held'[i]? := by
    cases he : (m.fields.zip ps)[i]? with
    | none =>
      have hout := List.getElem?_eq_none_iff.mp he
      have hout' := List.getElem?_eq_none_iff.mp (hzip ▸ he)
      rw [List.getElem?_eq_none (hheld.length_eq ▸ hout),
        List.getElem?_eq_none (hheld'.length_eq ▸ hout')]
    | some e =>
      obtain ⟨v, hv, hholds⟩ := forall₂_getElem? hheld he
      obtain ⟨w, hw, hholds'⟩ := forall₂_getElem? hheld' (hzip ▸ he)
      rw [hv, hw, hholds.unique hholds']
  rw [List.zip_eq_zipWith, List.zip_eq_zipWith, List.getElem?_zipWith, List.getElem?_zipWith, hsame]

lemma buildAll_eq_ok_iff {r : Resolved} {instances : List Value} :
    buildAll r rows = .ok instances ↔
      List.Forall₂ (fun row v => r.build row = .ok v) rows instances := by
  induction rows generalizing instances with
  | nil => simp [buildAll, eq_comm]
  | cons row rows ih =>
    simp only [buildAll, bind_eq_ok_iff, map_eq_ok_iff, ih, List.forall₂_cons_left_iff]
    constructor
    · rintro ⟨v, hv, others, hothers, rfl⟩
      exact ⟨v, others, hv, hothers, rfl⟩
    · rintro ⟨v, others, hv, hothers, rfl⟩
      exact ⟨v, hv, others, hothers, rfl⟩

lemma mappedAfter_eq_ok_iff {sources : List (String × String)} {instances : List Value}
    (h : answer schema tasks m = .ok shape) :
    mappedAfter schema tasks m columns rows sources = .ok instances ↔
      (∃ r, shape.resolve columns = .ok r) ∧
        List.Forall₂ (fun row v => shape.mapRow columns row = .ok v) rows instances := by
  rw [answer] at h
  rw [mappedAfter, mapRows]
  rcases hshape : shapeOf schema (served schema tasks) (.model m) with ⟨outcome, cache⟩
  rw [hshape] at h
  obtain rfl : outcome = .ok shape := h
  cases hresolve : shape.resolve columns with
  | error e => simp [hresolve]
  | ok r =>
    have hrow (row : List Value) : shape.mapRow columns row = r.build row := by
      rw [Shape.mapRow, hresolve]
      rfl
    simp only [hresolve, hrow, buildAll_eq_ok_iff]
    exact (and_iff_right ⟨r, rfl⟩).symm

lemma forall_mem_value_iff {ps : List Share} : (∀ p ∈ ps, ∃ v, p.value = .ok v) ↔
    ∃ values, List.Forall₂ (fun p v => p.value = .ok v) ps values := by
  induction ps with
  | nil => simp
  | cons p ps ih =>
    rw [List.forall_mem_cons, ih]
    constructor
    · rintro ⟨⟨v, hv⟩, values, hvalues⟩
      exact ⟨v :: values, .cons hv hvalues⟩
    · rintro ⟨_, _ | ⟨hv, hvalues⟩⟩
      exact ⟨⟨_, hv⟩, _, hvalues⟩

lemma mapRow_iff_assembled (hisPart : List.Forall₂ IsPart m.fields parts)
    (hkeys : (parts.map (·.1)).Nodup)
    (hnames : ∀ f ∈ m.fields, f.keyName = some "" → ∀ g ∈ m.fields, g.name ≠ "")
    (hcolumns : columns.length = (widths parts).sum) {v : Value} :
    (Shape.composite m parts).mapRow columns row = .ok v ↔
      Assembled m (shares parts columns row) v := by
  rw [mapRow_composite_iff hcolumns]
  constructor
  · rintro ⟨values, hvalues, haccept⟩
    exact (accept_iff_assembled hisPart hkeys hnames hvalues).mp haccept
  · intro h
    obtain ⟨held, hheld, -⟩ := id h
    have hlength : (shares parts columns row).length = m.fields.length :=
      length_shares.trans hisPart.length_eq.symm
    obtain ⟨values, hvalues⟩ := exists_values_of_holdsPart hlength hheld
    exact ⟨values, hvalues, (accept_iff_assembled hisPart hkeys hnames hvalues).mpr h⟩

lemma exists_assembled_iff {ps : List Share} (hlength : ps.length = m.fields.length)
    (hheard : ∀ f ∈ m.fields, f.keyName ≠ some "") :
    (∃ v, Assembled m ps v) ↔ ∀ p ∈ ps, ∃ v, p.value = .ok v := by
  rw [forall_mem_value_iff]
  constructor
  · rintro ⟨v, held, hheld, -⟩
    exact exists_values_of_holdsPart hlength hheld
  · rintro ⟨values, hvalues⟩
    refine ⟨_, values, ?_, rfl⟩
    generalize m.fields = fs at hheard hlength
    induction hvalues generalizing fs with
    | nil => simp
    | @cons p v ps values hv _ ih =>
      obtain ⟨f, fs, rfl⟩ := List.exists_cons_of_length_eq_add_one hlength.symm
      rw [List.forall_mem_cons] at hheard
      refine .cons ⟨v, hv, ?_⟩ (ih fs hheard.2 (Nat.succ.inj hlength))
      rw [if_neg hheard.1]

/-- A composite takes as many columns as its parts together. They are cut into one slice for each
part, and each part makes of its slice what it makes of it alone; nothing else matters to it. The
row is mapped if and only if all parts are, unless a field has an empty alias: then the part is made
and not found. -/
theorem composite_rows_sliced (hapart : ToldApart (mentioned tasks m))
    (hshape : answer schema tasks m = .ok shape) (hparts : shape.parts ≠ [])
    (hkeys : (shape.parts.map (·.1)).Nodup) :
    (∀ columns rows sources instances,
      mappedAfter schema tasks m columns rows sources = .ok instances ↔
        (∃ r, shape.resolve columns = .ok r) ∧
          List.Forall₂ (fun row v => shape.mapRow columns row = .ok v) rows instances) ∧
    (∀ columns, (∃ e, shape.resolve columns = .error e ∧ e.report.code = .shapeWidth) ↔
      columns.length ≠ (widths shape.parts).sum) ∧
    ∀ columns row, columns.length = (widths shape.parts).sum → row.length = columns.length →
      Sliced shape.parts columns row (shares shape.parts columns row) ∧
      ((∀ f ∈ m.fields, f.keyName ≠ some "") →
        ((∃ v, shape.mapRow columns row = .ok v) ↔
          ∀ p ∈ shares shape.parts columns row, ∃ v, p.value = .ok v)) ∧
      ((∀ f ∈ m.fields, f.keyName = some "" → ∀ g ∈ m.fields, g.name ≠ "") →
        (∀ v, shape.mapRow columns row = .ok v ↔ Assembled m (shares shape.parts columns row) v) ∧
        ∀ columns' row' (i : Nat) fields fields', columns'.length = columns.length →
          row'.length = row.length →
          (shares shape.parts columns row)[i]? = (shares shape.parts columns' row')[i]? →
          shape.mapRow columns row = .ok (.record m.name fields) →
          shape.mapRow columns' row' = .ok (.record m.name fields') →
          fields[i]? = fields'[i]?) := by
  obtain ⟨hcomposite, hisPart⟩ := (fits_of_answer hapart hshape).isPart hparts
  refine ⟨fun columns rows sources instances => mappedAfter_eq_ok_iff hshape, fun columns => ?_,
    fun columns row hcolumns hrow => ⟨sliced_shares hcolumns hrow, fun hheard => ?_,
      fun hnames => ⟨fun v => ?_, fun columns' row' i fields fields' hcolumns' _ hi hv hv' => ?_⟩⟩⟩
  · rw [hcomposite]
    exact resolve_width_iff
  · have hlength : (shares shape.parts columns row).length = m.fields.length :=
      length_shares.trans hisPart.length_eq.symm
    rw [← exists_assembled_iff hlength hheard, hcomposite]
    exact exists_congr fun v => mapRow_iff_assembled hisPart hkeys
      (fun f hf halias => absurd halias (hheard f hf)) hcolumns
  · rw [hcomposite]
    exact mapRow_iff_assembled hisPart hkeys hnames hcolumns
  · rw [hcomposite] at hv hv'
    exact ((mapRow_iff_assembled hisPart hkeys hnames hcolumns).mp hv).getElem?_eq
      ((mapRow_iff_assembled hisPart hkeys hnames (hcolumns'.trans hcolumns)).mp hv') hi

end Slicing

namespace Points

def point : Model := .mk 0 "Point" none
  [{ name := "x", type := .scalar .whole }, { name := "label", type := .scalar .text }]

def blank : Model := .mk 1 "Blank" none []

def line : Model := .mk 2 "Line" none
  [{ name := "start", type := .model point }, { name := "gap", type := .model blank },
    { name := "stop", type := .model point, keyName := some "end" }]

def cut : List (String × PlainShape) :=
  let whole : PlainShape := ⟨point, [⟨"x", true⟩, ⟨"label", true⟩], none⟩
  [("start", whole), ("gap", ⟨blank, [], none⟩), ("end", whole)]

lemma toldApart : ToldApart (mentioned [] line) := by
  refine toldApart_of_nodup [point, blank, line] (by decide) ?_
  have hmentioned : mentioned [] line = [line, point, blank, point] := rfl
  rw [hmentioned]
  simp

def frame : Model := .mk 3 "Frame" none
  [{ name := "at", type := .model point, keyName := some "" }]

def framed : List (String × PlainShape) := [("at", ⟨point, [⟨"x", true⟩, ⟨"label", true⟩], none⟩)]

end Points

open Points in
theorem composite_rows_sliced_points : ToldApart (mentioned [] line) ∧
    answer (.ofDescriptions [] []) [] line = .ok (.composite line cut) ∧
    (cut.map (·.1)).Nodup ∧
    (∃ e, (Shape.composite line cut).resolve ["x", "label", "x"] = .error e ∧
      e.report.code = .shapeWidth) ∧
    (∃ v, (Shape.composite line cut).mapRow ["x", "label", "label", "X"]
      [.int 1, .text "a", .text "b", .int 2] = .ok v) ∧
    ∀ fields fields',
      (Shape.composite line cut).mapRow ["x", "label", "label", "X"]
        [.int 1, .text "a", .text "b", .int 2] = .ok (.record "Line" fields) →
      (Shape.composite line cut).mapRow ["Label", "x", "label", "X"]
        [.text "c", .int 3, .text "b", .int 2] = .ok (.record "Line" fields') →
      fields[2]? = fields'[2]? := by
  have hshape : answer (.ofDescriptions [] []) [] line = .ok (.composite line cut) := rfl
  have hkeys : (cut.map (·.1)).Nodup := by decide
  obtain ⟨-, hwidth, hrows⟩ := composite_rows_sliced toldApart hshape nofun hkeys
  obtain ⟨-, hmaps, hsame⟩ := hrows ["x", "label", "label", "X"]
    [.int 1, .text "a", .text "b", .int 2] rfl rfl
  have hheard : ∀ f ∈ line.fields, f.keyName ≠ some "" := by decide
  have hnames : ∀ f ∈ line.fields, f.keyName = some "" → ∀ g ∈ line.fields, g.name ≠ "" :=
    fun f hf halias => absurd halias (hheard f hf)
  refine ⟨toldApart, hshape, hkeys, (hwidth ["x", "label", "x"]).mpr (by decide),
    (hmaps hheard).mpr ?_, fun fields fields' h h' =>
      (hsame hnames).2 ["Label", "x", "label", "X"]
        [.text "c", .int 3, .text "b", .int 2] 2 fields fields' rfl rfl rfl h h'⟩
  exact forall_mem_value_iff.mpr ⟨_, .cons rfl (.cons rfl (.cons rfl .nil))⟩

open Points in
/-- The part of a field with an empty alias maps its slice, and the row is refused all the same. -/
theorem composite_part_unheard :
    answer (.ofDescriptions [] []) [] frame = .ok (.composite frame framed) ∧
    (framed.map (·.1)).Nodup ∧
    (∀ p ∈ shares framed ["x", "label"] [.int 1, .text "a"], ∃ v, p.value = .ok v) ∧
    ∃ issues, mappedAfter (.ofDescriptions [] []) [] frame ["x", "label"] [[.int 1, .text "a"]] [] =
      .error (.misfit issues) :=
  ⟨rfl, by decide, List.forall_mem_singleton.mpr ⟨_, rfl⟩, _, rfl⟩

end Tablewright
