import Tablewright.Proofs.Outcome
import Tablewright.Proofs.Settings.Environment
import Tablewright.Proofs.Settings.Reading
import Tablewright.Settings.Load

namespace Tablewright

open Layer (ofKeyed)

namespace Settings

def value? (s : Settings) (sectionName field : String) : Option Value :=
  if sectionName = "logging" then s.logging.entries.lookup field
  else if sectionName = "database" then s.database.entries.lookup field
  else none

def reading? (home sectionName field : String) (v : Value) : Option Value :=
  (ofEntries home [(.text sectionName, .map [(.text field, v)])]).good?.bind fun s =>
    s.value? sectionName field

structure Valid (home sectionName field : String) (v : Value) : Prop where
  closed : v.Closed
  isSome : (reading? home sectionName field v).isSome

lemma freeEntries_single {key v : Value} (h : v.Closed) :
    Value.freeEntries [(key, v)] = [(key, v)] :=
  Value.freeEntries_of_closed (List.forall_mem_singleton.mpr h)

lemma good?_ofEntries (home : String) (es : List (Value × Value)) :
    (ofEntries home es).good? =
      ((Value.find? "logging" es).elim (some {}) fun v => (LoggingSettings.check home v).good?).bind
        fun logging =>
          ((Value.find? "database" es).elim (some {}) fun v => (DatabaseSettings.check v).good?).map
            fun database => ⟨logging, database⟩ := by
  rw [ofEntries, Checked.good?_seq, Checked.good?_map, Checked.good?_field, Checked.good?_field]
  cases (Value.find? "logging" es).elim (some {}) fun v => (LoggingSettings.check home v).good? <;>
    rfl

lemma reading?_logging {home field : String} {v : Value} (h : v.Closed) :
    reading? home "logging" field v =
      (LoggingSettings.ofEntries home [(.text field, v)]).good?.bind fun s =>
        s.entries.lookup field := by
  rw [reading?, good?_ofEntries, Value.find?_single, Value.find?_single, if_pos rfl,
    if_neg (by decide)]
  rw [Option.elim_some, LoggingSettings.check, Checked.fields, freeEntries_single h]
  cases (LoggingSettings.ofEntries home [(.text field, v)]).good? <;> rfl

lemma reading?_database {home field : String} {v : Value} (h : v.Closed) :
    reading? home "database" field v =
      (DatabaseSettings.ofEntries [(.text field, v)]).good?.bind fun s =>
        s.entries.lookup field := by
  rw [reading?, good?_ofEntries, Value.find?_single, Value.find?_single, if_neg (by decide),
    if_pos rfl]
  rw [Option.elim_some, DatabaseSettings.check, Checked.fields, freeEntries_single h]
  cases (DatabaseSettings.ofEntries [(.text field, v)]).good? <;> rfl

lemma exists_section {α : Type} (name : String) {home sectionName : String} {names : List String}
    {read : List (Value × Value) → Checked α} {entries : α → List (String × Value)} {fallback : α}
    (h : FieldWise names read entries fallback)
    (hreading : ∀ {field v}, v.Closed → reading? home sectionName field v =
      (read [(.text field, v)]).good?.bind fun a => (entries a).lookup field)
    {v : Option Value} (hv : IsSection names v)
    (hvalid : ∀ field ∈ names, ∀ w ∈ v.bind (Value.field? field), Valid home sectionName field w) :
    ∃ a, (v.elim (some fallback) fun w => (Checked.fields name read w).good?) = some a ∧
      ∀ field ∈ names, (entries a).lookup field = (v.bind (Value.field? field)).elim
        ((entries fallback).lookup field) (reading? home sectionName field) := by
  cases v with
  | none => exact ⟨fallback, rfl, fun _ _ => rfl⟩
  | some w =>
    obtain ⟨fields, rfl, hfields⟩ := hv w rfl
    have hread : ∀ field ∈ names, ∀ w ∈ Value.find? field (ofKeyed fields),
        (read [(.text field, w)]).good?.isSome := by
      intro field hfield w hw
      have hw := hvalid field hfield w hw
      have hsome := hw.isSome
      rw [hreading hw.closed] at hsome
      exact Option.isSome_of_isSome_bind hsome
    obtain ⟨a, ha, hlookup⟩ := h.exists_good hread
    refine ⟨a, ?_, fun field hfield => ?_⟩
    · rw [Option.elim_some, Checked.fields, hfields.freeEntries_eq, ha]
    · rw [hlookup field hfield, Option.bind_some, Value.field?]
      cases hfind : Value.find? field (ofKeyed fields) with
      | none => rfl
      | some w => exact (hreading (hvalid field hfield w hfind).closed).symm

lemma exists_ofEntries {home : String} {es : List (Value × Value)}
    (hsections : ∀ s ∈ Environment.sections, IsSection s.2.1 (Value.find? s.1 es))
    (hvalid : ∀ s ∈ Environment.sections, ∀ field ∈ s.2.1,
      ∀ w ∈ (Value.find? s.1 es).bind (Value.field? field), Valid home s.1 field w) :
    ∃ t, (ofEntries home es).good? = some t ∧
      ∀ s ∈ Environment.sections, ∀ field ∈ s.2.1, t.value? s.1 field =
        ((Value.find? s.1 es).bind (Value.field? field)).elim (value? {} s.1 field)
          (reading? home s.1 field) := by
  rw [Environment.sections, List.forall_mem_cons, List.forall_mem_singleton] at hsections hvalid
  obtain ⟨logging, hlogging, hloggingFields⟩ :=
    exists_section "LoggingConfig" (LoggingSettings.fieldWise home) reading?_logging hsections.1
      hvalid.1
  obtain ⟨database, hdatabase, hdatabaseFields⟩ :=
    exists_section DatabaseSettings.name DatabaseSettings.fieldWise reading?_database hsections.2
      hvalid.2
  refine ⟨⟨logging, database⟩, ?_, ?_⟩
  · rw [good?_ofEntries]
    exact Option.bind_eq_some_iff.mpr ⟨logging, hlogging, Option.map_eq_some_iff.mpr
      ⟨database, hdatabase, rfl⟩⟩
  · rw [Environment.sections, List.forall_mem_cons, List.forall_mem_singleton]
    exact ⟨hloggingFields, hdatabaseFields⟩

lemma Valid.plain {home field : String} {s : String × List String × List String} {v : Value}
    (hs : s ∈ Environment.sections) (hfield : field ∈ s.2.1) (h : Valid home s.1 field v) :
    v.Plain := by
  refine ⟨h.closed, ?_⟩
  rintro es rfl
  have hnone : reading? home s.1 field (.map es) = none := by
    have hclosed := h.closed
    clear h
    simp only [Environment.sections, List.mem_cons, List.not_mem_nil, or_false] at hs
    obtain rfl | rfl := hs
    · rw [reading?_logging hclosed]
      simp only [LoggingSettings.fieldNames, List.mem_cons, List.not_mem_nil, or_false] at hfield
      obtain rfl | rfl := hfield <;> rfl
    · rw [reading?_database hclosed]
      simp only [DatabaseSettings.fieldNames, List.mem_cons, List.not_mem_nil, or_false] at hfield
      obtain rfl | rfl | rfl | rfl | rfl | rfl | rfl | rfl | rfl | rfl | rfl | rfl := hfield <;> rfl
  have hsome := h.isSome
  rw [hnone] at hsome
  cases hsome

section Layers

variable {layer : Layer}

lemma not_sameKey_of_regular (h : layer.Regular) {e : Value × Value} (he : e ∈ layer)
    {key : String} (hkey : key ∈ "config_path" :: readingKeys) :
    e.1.sameKey (.text key) = false := by
  obtain ⟨s, hs, hnamed, -⟩ := h e he
  obtain ⟨name, hname, hlower⟩ := Layer.isNamed_iff.mp hnamed
  have hdistinct : ∀ s ∈ Environment.sections, ∀ key ∈ "config_path" :: readingKeys,
      Text.lowercase s.1 ≠ Text.lowercase key := by decide +kernel
  rw [hname, Value.sameKey_text, beq_eq_false_iff_ne]
  rintro rfl
  exact hdistinct s hs name hkey hlower

lemma find?_eq_none_of_regular (h : layer.Regular) {key : String}
    (hkey : key ∈ "config_path" :: readingKeys) : Value.find? key layer = none := by
  rw [Value.find?, Option.map_eq_none_iff, List.find?_eq_none]
  exact fun e he => Bool.eq_false_iff.mp (not_sameKey_of_regular h he hkey)

lemma namingOf_of_regular (h : layer.Regular) : namingOf layer = {} := by
  have hnone : ∀ key ∈ ["_env_prefix", "_env_nested_delimiter", "_env_nested_max_split",
      "_case_sensitive", "_env_ignore_empty", "_env_parse_none_str"],
      Value.find? key layer = none := fun key hkey =>
    find?_eq_none_of_regular h (by revert key; decide +kernel)
  simp only [List.forall_mem_cons] at hnone
  obtain ⟨h1, h2, h3, h4, h5, h6, -⟩ := hnone
  simp only [namingOf, h1, h2, h3, h4, h5, h6]
  rfl

lemma sectionsOf_of_regular (h : layer.Regular) : sectionsOf layer = layer := by
  refine List.filter_eq_self.mpr fun e he => ?_
  rw [Bool.not_eq_true', List.any_eq_false]
  exact fun key hkey => Bool.eq_false_iff.mp
    (not_sameKey_of_regular h he (List.mem_cons_of_mem _ hkey))

lemma checkKeys_of_regular (h : layer.Regular) : Layer.checkKeys layer = .ok () := by
  induction layer with
  | nil => rfl
  | cons e layer ih =>
    obtain ⟨key, value⟩ := e
    obtain ⟨s, -, hnamed, -⟩ := h _ List.mem_cons_self
    obtain ⟨name, rfl, -⟩ := Layer.isNamed_iff.mp hnamed
    exact ih fun e he => h e (List.mem_cons_of_mem _ he)

lemma ofLayer_eq_ok {home : String} {entries : Keyed Value} {t : Settings}
    (hkeys : ∀ k ∈ entries.keys, k ∈ fieldNames)
    (ht : (ofEntries home (ofKeyed entries)).good? = some t) :
    ofLayer home (ofKeyed entries) = .ok t := by
  have hgood : ofEntries home (ofKeyed entries) = .good t := by
    cases hread : ofEntries home (ofKeyed entries) with
    | good s =>
      rw [hread] at ht
      exact congrArg Checked.good (Option.some.inj ht)
    | bad i others | broken e =>
      rw [hread] at ht
      cases ht
  have hextras : extras (ofKeyed entries) = [] := by
    rw [extras, List.map_eq_nil_iff, List.filter_eq_nil_iff]
    refine List.forall_mem_map.mpr fun e he => ?_
    have hname : e.1 ∈ fieldNames := hkeys _ (List.mem_map_of_mem he)
    simpa [Value.sameKey_text] using hname
  rw [ofLayer, hgood, hextras]

lemma allNamed_ofKeyed (entries : Keyed Value) : allNamed (ofKeyed entries) = true :=
  List.all_eq_true.mpr (List.forall_mem_map.mpr fun _ _ => rfl)

end Layers

/-- What the sources give for a field: the caller before the environment before the file. -/
def chosen? (h : Host) (given file : Layer) (sectionName field : String) : Option Value :=
  (given.given? sectionName field).or
    ((h.env.given? sectionName field).or (file.given? sectionName field))

def AllValid (home : String) (source : String → String → Option Value) : Prop :=
  ∀ s ∈ Environment.sections, ∀ field ∈ s.2.1, ∀ v ∈ source s.1 field, Valid home s.1 field v

lemma AllValid.plain {home : String} {source : String → String → Option Value}
    (h : AllValid home source) : ∀ s ∈ Environment.sections, ∀ field ∈ s.2.1,
      ∀ v ∈ source s.1 field, v.Plain :=
  fun s hs field hfield v hv => (h s hs field hfield v hv).plain hs hfield

section Resolving

variable {h : Host} {given file : Layer}

def merged (h : Host) (given file : Layer) : Keyed Value :=
  (Keyed.ofNames fieldNames given.section?).overlay
    ((Keyed.ofNames fieldNames (Environment.section? (h.env.visible {}))).overlay
      (Keyed.ofNames fieldNames file.section?))

lemma mem_keys_merged {key : String} (hkey : key ∈ (merged h given file).keys) :
    key ∈ fieldNames := by
  obtain hkey | hkey := Keyed.mem_keys_overlay hkey
  · exact Keyed.mem_keys_ofNames hkey
  · exact (Keyed.mem_keys_overlay hkey).elim Keyed.mem_keys_ofNames Keyed.mem_keys_ofNames

lemma find?_merged {name : String} (hname : name ∈ fieldNames) :
    Value.find? name (ofKeyed (merged h given file)) =
      Keyed.overlaid (given.section? name) (Keyed.overlaid
        (Environment.section? (h.env.visible {}) name) (file.section? name)) := by
  have hnames : fieldNames.Nodup := by decide
  rw [Value.find?_ofKeyed, merged, Keyed.get?_overlay (Keyed.nodup_keys_ofNames _ hnames),
    Keyed.get?_overlay (Keyed.nodup_keys_ofNames _ hnames), Keyed.get?_ofNames _ hname,
    Keyed.get?_ofNames _ hname, Keyed.get?_ofNames _ hname]

lemma resolve_eq (hgiven : given.Regular) (hfile : file.Regular)
    (henv : ∀ s ∈ Environment.sections, ∃ v,
      Environment.sectionValue? {} s.1 s.2.1 s.2.2 (h.env.visible {}) = some v) :
    resolve h given file = ofLayer h.home (ofKeyed (merged h given file)) := by
  have hlayer : Layer.overlay (Layer.withSections fieldNames (sectionsOf given))
      (Layer.overlay (ofKeyed (Keyed.ofNames fieldNames (Environment.section? (h.env.visible {}))))
        (Layer.withSections fieldNames file)) = ofKeyed (merged h given file) := by
    rw [sectionsOf_of_regular hgiven, hgiven.withSections, hfile.withSections, Layer.overlay,
      Layer.overlay, Layer.go_ofKeyed, Layer.go_ofKeyed]
    rfl
  rw [resolve, checkKeys_of_regular hfile, namingOf_of_regular hgiven, Environment.layer_eq henv]
  simp only [Except.mapError, bind, Except.bind, hlayer, allNamed_ofKeyed]
  rfl

lemma valid_of_chosen? (hgiven : AllValid h.home given.given?)
    (henv : AllValid h.home h.env.given?) (hfile : AllValid h.home file.given?)
    {s : String × List String × List String} (hs : s ∈ Environment.sections) {field : String}
    (hfield : field ∈ s.2.1) {v : Value} (hv : chosen? h given file s.1 field = some v) :
    Valid h.home s.1 field v := by
  rw [chosen?, Option.or_eq_some_iff, Option.or_eq_some_iff] at hv
  obtain hv | ⟨-, hv | ⟨-, hv⟩⟩ := hv
  · exact hgiven s hs field hfield v hv
  · exact henv s hs field hfield v hv
  · exact hfile s hs field hfield v hv

lemma merged_tells (hgiven : given.Regular) (henv : h.env.Regular) (hfile : file.Regular)
    (hgivenValid : AllValid h.home given.given?) (henvValid : AllValid h.home h.env.given?)
    (hfileValid : AllValid h.home file.given?) {s : String × List String × List String}
    (hs : s ∈ Environment.sections) :
    IsSection s.2.1 (Value.find? s.1 (ofKeyed (merged h given file))) ∧
      ∀ field ∈ s.2.1, (Value.find? s.1 (ofKeyed (merged h given file))).bind (Value.field? field) =
        chosen? h given file s.1 field := by
  have hname : s.1 ∈ fieldNames := List.mem_map_of_mem hs
  have hcaller := hgiven.isSection hs (hgivenValid.plain s hs)
  have hbottom := hfile.isSection hs (hfileValid.plain s hs)
  obtain ⟨-, hmiddle, htold⟩ := henv.exists_section hs (henvValid.plain s hs)
  obtain ⟨hlower, hlowerTold⟩ := hmiddle.overlaid hbottom
  obtain ⟨hall, hallTold⟩ := hcaller.overlaid hlower
  rw [find?_merged hname]
  refine ⟨hall, fun field hfield => ?_⟩
  rw [hallTold, hlowerTold, htold field hfield]
  rfl

lemma resolve_eq_ok (hgiven : given.Regular) (henv : h.env.Regular) (hfile : file.Regular)
    (hgivenValid : AllValid h.home given.given?) (henvValid : AllValid h.home h.env.given?)
    (hfileValid : AllValid h.home file.given?) :
    ∃ t, resolve h given file = .ok t ∧
      ∀ s ∈ Environment.sections, ∀ field ∈ s.2.1, t.value? s.1 field =
        (chosen? h given file s.1 field).elim (value? {} s.1 field)
          (reading? h.home s.1 field) := by
  have htold := fun {s} (hs : s ∈ Environment.sections) =>
    merged_tells hgiven henv hfile hgivenValid henvValid hfileValid hs
  have hvalid : ∀ s ∈ Environment.sections, ∀ field ∈ s.2.1,
      ∀ w ∈ (Value.find? s.1 (ofKeyed (merged h given file))).bind (Value.field? field),
        Valid h.home s.1 field w := by
    intro s hs field hfield w hw
    rw [(htold hs).2 field hfield] at hw
    exact valid_of_chosen? hgivenValid henvValid hfileValid hs hfield hw
  obtain ⟨t, ht, hfields⟩ := exists_ofEntries (fun s hs => (htold hs).1) hvalid
  refine ⟨t, ?_, fun s hs field hfield => ?_⟩
  · rw [resolve_eq hgiven hfile fun s hs => (henv.exists_section hs (henvValid.plain s hs)).1]
    exact ofLayer_eq_ok (fun _ => mem_keys_merged) ht
  · rw [hfields s hs field hfield, (htold hs).2 field hfield]

end Resolving

structure Call where
  host : Host
  path : Option String
  given : Layer

namespace Call

def run (c : Call) : StateM Layer (Except Failure Settings) :=
  (loading c.host c.path c.given).run

def result (c : Call) : Except Failure Settings := load c.host c.path c.given

lemma run_eq (c : Call) (before : Layer) : c.run.run before = (c.result, before) := by
  obtain ⟨h, path, given⟩ := c
  rw [run, result, load, loading]
  cases (Value.find? "config_path" given).isSome with
  | true => rfl
  | false =>
    simp only [Loading.ofExcept]
    cases readFile h path <;> rfl

lemma run_after_eq (earlier : List Call) (c : Call) (before : Layer) :
    (earlier.mapM run >>= fun _ => c.run).run before = (c.result, before) := by
  have hearlier : (earlier.mapM run).run before = (earlier.map result, before) := by
    induction earlier with
    | nil => rfl
    | cons d earlier ih =>
      have hrest : (earlier.mapM run >>= fun results => pure (d.result :: results)).run before =
          ((d :: earlier).map result, before) := by
        rw [StateT.run_bind, ih]
        rfl
      rw [List.mapM_cons, StateT.run_bind, run_eq]
      exact hrest
  rw [StateT.run_bind, hearlier]
  exact c.run_eq before

end Call

lemma load_eq_resolve {h : Host} {path : Option String} {given file : Layer}
    (hgiven : given.Regular) (hread : readFile h path = .ok file) :
    load h path given = resolve h given file := by
  rw [load, loading, find?_eq_none_of_regular hgiven List.mem_cons_self, Loading.ofExcept, hread]
  rfl

/-- Settings resolve field by field, whatever was loaded before: what the caller gives for a field
comes first, then what the environment gives for it, then what the file gives, then the default. -/
theorem load_resolves {h : Host} {path : Option String} {given file : Layer}
    (hread : readFile h path = .ok file) (hgiven : given.Regular) (henv : h.env.Regular)
    (hfile : file.Regular) (hgivenValid : AllValid h.home given.given?)
    (henvValid : AllValid h.home h.env.given?) (hfileValid : AllValid h.home file.given?) :
    (∀ (earlier : List Call) (c : Call) (before : Layer),
      (earlier.mapM Call.run >>= fun _ => c.run).run before = (c.result, before)) ∧
    ∃ t, Call.result ⟨h, path, given⟩ = .ok t ∧
      ∀ s ∈ Environment.sections, ∀ field ∈ s.2.1, t.value? s.1 field =
        (chosen? h given file s.1 field).elim (value? {} s.1 field)
          (reading? h.home s.1 field) := by
  refine ⟨Call.run_after_eq, ?_⟩
  rw [Call.result, load_eq_resolve hgiven hread]
  exact resolve_eq_ok hgiven henv hfile hgivenValid henvValid hfileValid

namespace Layered

def ofTexts (texts : Keyed (Keyed String)) : Layer :=
  ofKeyed (texts.map fun e => (e.1, .map (ofKeyed (e.2.map fun f => (f.1, .text f.2)))))

def texts? : Layer → Option (Keyed String)
  | [] => some []
  | (.text k, .text v) :: rest => (texts? rest).map ((k, v) :: ·)
  | _ => none

def sections? : Layer → Option (Keyed (Keyed String))
  | [] => some []
  | (.text k, .map es) :: rest =>
    (texts? es).bind fun fields => (sections? rest).map ((k, fields) :: ·)
  | _ => none

lemma eq_of_texts? {layer : Layer} {fields : Keyed String} (h : texts? layer = some fields) :
    layer = ofKeyed (fields.map fun f => (f.1, .text f.2)) := by
  fun_induction texts? layer generalizing fields with
  | case1 =>
    obtain rfl := Option.some.inj h
    rfl
  | case2 k v rest ih =>
    obtain ⟨others, hothers, rfl⟩ := Option.map_eq_some_iff.mp h
    exact congrArg ((Value.text k, Value.text v) :: ·) (ih hothers)
  | case3 => cases h

lemma eq_of_sections? {layer : Layer} {texts : Keyed (Keyed String)}
    (h : sections? layer = some texts) : layer = ofTexts texts := by
  fun_induction sections? layer generalizing texts with
  | case1 =>
    obtain rfl := Option.some.inj h
    rfl
  | case2 k es rest ih =>
    obtain ⟨fields, hfields, h⟩ := Option.bind_eq_some_iff.mp h
    obtain ⟨others, hothers, rfl⟩ := Option.map_eq_some_iff.mp h
    obtain rfl := eq_of_texts? hfields
    exact congrArg (_ :: ·) (ih hothers)
  | case3 => cases h

variable {texts : Keyed (Keyed String)}

lemma regular_ofTexts (h : ∀ e ∈ texts, ∃ s ∈ Environment.sections,
    Text.lowercase s.1 = Text.lowercase e.1 ∧ (∀ k ∈ e.2.keys, k ∈ s.2.1) ∧ e.2.keys.Nodup) :
    (ofTexts texts).Regular := by
  rw [ofTexts, ofKeyed, List.map_map]
  refine List.forall_mem_map.mpr fun e he => ?_
  obtain ⟨s, hs, hname, hknown, hnodup⟩ := h e he
  have hkeys : Keyed.keys (e.2.map fun f => (f.1, Value.text f.2)) = e.2.keys := by
    simp [Keyed.keys, Function.comp_def]
  refine ⟨s, hs, Layer.isNamed_iff.mpr ⟨e.1, rfl, hname⟩, _, rfl, ?_, ?_⟩
  · rwa [hkeys]
  · rwa [hkeys]

lemma allValid_ofTexts {home : String} (h : ∀ s ∈ Environment.sections, ∀ e ∈ texts,
    Text.lowercase s.1 = Text.lowercase e.1 → ∀ f ∈ e.2,
      (reading? home s.1 f.1 (.text f.2)).isSome) : AllValid home (ofTexts texts).given? := by
  intro s hs field hfield v hv
  obtain ⟨w, hw, hentry⟩ := Option.bind_eq_some_iff.mp hv
  obtain ⟨e, he, rfl⟩ := Option.map_eq_some_iff.mp hw
  have hnamed := List.find?_some he
  obtain ⟨d, hd, rfl⟩ := List.mem_map.mp (List.mem_of_find?_eq_some he)
  obtain ⟨e, hmem, rfl⟩ := List.mem_map.mp hd
  obtain ⟨name, hname, hlower⟩ := Layer.isNamed_iff.mp hnamed
  obtain rfl := Value.text.inj hname
  rw [Value.field?, Value.find?_ofKeyed] at hentry
  obtain ⟨f, hf, hfv⟩ := List.mem_map.mp (Keyed.mem_of_get? hentry)
  obtain ⟨rfl, rfl⟩ := Prod.mk.inj hfv
  exact ⟨by simp [Value.ClosedAt], h s hs e hmem hlower f hf⟩

lemma allValid_env {h : Host} (henv : ∀ v ∈ h.env, ∀ s ∈ Environment.sections,
    ∀ field ∈ s.2.1, Text.lowercase v.1 = Environment.nameOf s.1 field →
      field ≠ "outputs" ∧ (reading? h.home s.1 field (.text v.2)).isSome) :
    AllValid h.home h.env.given? := by
  intro s hs field hfield v hv
  obtain ⟨w, hw, hread⟩ := Option.bind_eq_some_iff.mp hv
  obtain ⟨hmem, hname⟩ := latest_eq_some hw
  obtain ⟨hne, hsome⟩ := henv w hmem s hs field hfield hname
  rw [beq_false_of_ne hne] at hread
  obtain rfl := Option.some.inj hread
  exact ⟨by simp [Value.ClosedAt], hsome⟩

def given : Layer := ofTexts [("database", [("path", "given.db")])]

def fileTexts : Keyed (Keyed String) :=
  [("Database", [("path", "file.db"), ("journal_mode", "DELETE"), ("synchronous", "FULL")]),
   ("logging", [("level", "DEBUG")])]

def host : Host where
  directory := "/work"
  home := "/home/ada"
  files :=
    [("/work/rizz.yaml", "Database:\n  path: file.db\n  journal_mode: DELETE\n" ++
      "  synchronous: FULL\nlogging:\n  level: DEBUG\n")]
  env :=
    [("LANG", "C"), ("RIZZ__DATABASE__PATH", "env.db"),
     ("rizz__Database__Journal_Mode", "MEMORY")]

lemma readFile_host : readFile host none = .ok (ofTexts fileTexts) := by
  have hread : (readFile host none).toOption.bind sections? = some fileTexts := by decide +kernel
  obtain ⟨layer, hlayer, hsections⟩ := Option.bind_eq_some_iff.mp hread
  cases hfile : readFile host none with
  | error e =>
    rw [hfile] at hlayer
    cases hlayer
  | ok found =>
    rw [hfile] at hlayer
    obtain rfl := Option.some.inj hlayer
    exact congrArg Except.ok (eq_of_sections? hsections)

end Layered

open Layered in
theorem load_resolves_layered :
    (∀ (earlier : List Call) (c : Call) (before : Layer),
      (earlier.mapM Call.run >>= fun _ => c.run).run before = (c.result, before)) ∧
    ∃ t, Call.result ⟨host, none, given⟩ = .ok t ∧
      t.value? "database" "path" = some (.text "given.db") ∧
      t.value? "database" "journal_mode" = some (.text "MEMORY") ∧
      t.value? "database" "synchronous" = some (.text "FULL") ∧
      t.value? "database" "read_only" = some (.bool false) ∧
      t.value? "logging" "level" = some (.text "DEBUG") := by
  have hgiven : given.Regular := regular_ofTexts (by decide +kernel)
  have hfile : (ofTexts fileTexts).Regular := regular_ofTexts (by decide +kernel)
  have henv : host.env.Regular := by
    unfold Environment.Regular Environment.Understood
    decide +kernel
  have hgivenValid : AllValid host.home given.given? := allValid_ofTexts (by decide +kernel)
  have hfileValid : AllValid host.home (ofTexts fileTexts).given? :=
    allValid_ofTexts (by decide +kernel)
  have henvValid : AllValid host.home host.env.given? := allValid_env (by decide +kernel)
  obtain ⟨hcalls, t, ht, hfields⟩ :=
    load_resolves readFile_host hgiven henv hfile hgivenValid henvValid hfileValid
  rw [Environment.sections, List.forall_mem_cons, List.forall_mem_singleton] at hfields
  refine ⟨hcalls, t, ht, ?_, ?_, ?_, ?_, ?_⟩
  · exact hfields.2 "path" (by decide)
  · exact hfields.2 "journal_mode" (by decide)
  · exact hfields.2 "synchronous" (by decide)
  · exact hfields.2 "read_only" (by decide)
  · exact hfields.1 "level" (by decide)

end Settings

end Tablewright
