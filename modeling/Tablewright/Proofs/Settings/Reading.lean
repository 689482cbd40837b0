import Tablewright.Proofs.Settings.Layer
import Tablewright.Settings.Model

namespace Tablewright

open Layer (ofKeyed)

lemma Value.find?_single (name key : String) (v : Value) :
    find? name [(.text key, v)] = if key = name then some v else none := by
  rw [find?, List.find?_singleton, sameKey_text]
  by_cases h : key = name <;> simp [h]

namespace Checked

variable {α β : Type}

def good? : Checked α → Option α
  | good a => some a
  | _ => none

lemma good?_map (f : α → β) (x : Checked α) : (f <$> x).good? = x.good?.map f := by
  cases x <;> rfl

lemma good?_seq (f : Checked (α → β)) (x : Checked α) :
    (f <*> x).good? = f.good?.bind fun g => x.good?.map g := by
  cases f <;> cases x <;> rfl

lemma good?_map_eq_some {f : α → β} {x : Checked α} {b : β} (h : (f <$> x).good? = some b) :
    ∃ a, x.good? = some a ∧ f a = b := by
  rw [good?_map] at h
  exact Option.map_eq_some_iff.mp h

lemma good?_seq_eq_some {f : Checked (α → β)} {x : Checked α} {b : β}
    (h : (f <*> x).good? = some b) : ∃ g a, f.good? = some g ∧ x.good? = some a ∧ g a = b := by
  rw [good?_seq] at h
  obtain ⟨g, hg, h⟩ := Option.bind_eq_some_iff.mp h
  obtain ⟨a, ha, hb⟩ := Option.map_eq_some_iff.mp h
  exact ⟨g, a, hg, ha, hb⟩

lemma bind_good?_map (f : α → β) (x : Checked α) {γ : Type} (next : β → Option γ) :
    (f <$> x).good?.bind next = x.good?.bind fun a => next (f a) := by
  cases x <;> rfl

lemma bind_good?_seq (f : Checked (α → β)) (x : Checked α) {γ : Type} (next : β → Option γ) :
    (f <*> x).good?.bind next = f.good?.bind fun g => x.good?.bind fun a => next (g a) := by
  cases f <;> cases x <;> rfl

lemma good?_field (entries : List (Value × Value)) (name : String) (fallback : α)
    (read : Value → Checked α) :
    (field entries name fallback read).good? =
      (Value.find? name entries).elim (some fallback) fun v => (read v).good? := by
  rw [field]
  cases Value.find? name entries with
  | none => rfl
  | some v =>
    change ((read v).under name).good? = (read v).good?
    cases read v <;> rfl

end Checked

/-- A field of a section: what it is if nothing is given for it, how it is read, and how it is
shown. -/
structure SectionField where
  {α : Type}
  name : String
  fallback : α
  read : Value → Checked α
  shown : α → Value

namespace SectionField

variable {p : SectionField} {fs : List SectionField} {es es' : List (Value × Value)}

def value? (p : SectionField) (es : List (Value × Value)) : Option Value :=
  (Checked.field es p.name p.fallback p.read).good?.map p.shown

def entries? (fs : List SectionField) (es : List (Value × Value)) :
    Option (List (String × Value)) :=
  fs.mapM fun p => (p.value? es).map (Prod.mk p.name)

lemma isSome_value? : (p.value? es).isSome ↔
    ∀ v ∈ Value.find? p.name es, (p.read v).good?.isSome := by
  rw [value?, Option.isSome_map, Checked.good?_field]
  cases Value.find? p.name es <;> simp

lemma value?_congr (h : Value.find? p.name es = Value.find? p.name es') :
    p.value? es = p.value? es' := by
  rw [value?, value?, Checked.good?_field, Checked.good?_field, h]

lemma entries?_cons (p : SectionField) (fs : List SectionField) (es : List (Value × Value)) :
    entries? (p :: fs) es =
      (p.value? es).bind fun v => (entries? fs es).map fun rest => (p.name, v) :: rest := by
  rw [entries?, List.mapM_cons, ← entries?]
  cases p.value? es <;> cases entries? fs es <;> rfl

/-- The fields one after another, each inside the one before it, as a reader of a section has them. -/
def collect {α : Type} (es : List (Value × Value)) :
    List SectionField → (List (String × Value) → Option α) → Option α
  | [], next => next []
  | p :: fs, next => (Checked.field es p.name p.fallback p.read).good?.bind fun a =>
      collect es fs fun rest => next ((p.name, p.shown a) :: rest)

lemma bind_entries? {α : Type} (fs : List SectionField) (es : List (Value × Value))
    (next : List (String × Value) → Option α) :
    (entries? fs es).bind next = collect es fs next := by
  induction fs generalizing next with
  | nil => rfl
  | cons p fs ih =>
    rw [entries?_cons, value?, collect]
    cases (Checked.field es p.name p.fallback p.read).good? with
    | none => rfl
    | some a =>
      rw [Option.bind_some, ← ih]
      cases entries? fs es <;> rfl

lemma entries?_eq_collect (fs : List SectionField) (es : List (Value × Value)) :
    entries? fs es = collect es fs some := by
  rw [← bind_entries?, Option.bind_fun_some]

lemma isSome_entries? : (entries? fs es).isSome ↔ ∀ p ∈ fs, (p.value? es).isSome := by
  induction fs with
  | nil => simp [entries?]
  | cons p fs ih =>
    rw [List.forall_mem_cons, ← ih, entries?_cons]
    cases p.value? es <;> simp

lemma lookup_of_entries? {entries : List (String × Value)} (h : entries? fs es = some entries)
    (hnodup : (fs.map (·.name)).Nodup) (hp : p ∈ fs) :
    entries.lookup p.name = p.value? es := by
  induction fs generalizing entries with
  | nil => cases hp
  | cons q fs ih =>
    rw [List.map_cons, List.nodup_cons] at hnodup
    rw [entries?_cons] at h
    obtain ⟨v, hv, h⟩ := Option.bind_eq_some_iff.mp h
    obtain ⟨others, hothers, rfl⟩ := Option.map_eq_some_iff.mp h
    rcases List.mem_cons.mp hp with rfl | hp
    · rw [List.lookup_cons_self, hv]
    · have hne : p.name ≠ q.name := fun heq => hnodup.1 (heq ▸ List.mem_map_of_mem hp)
      rw [List.lookup_cons, beq_false_of_ne hne]
      exact ih hothers hnodup.2 hp

end SectionField

structure FieldWise {α : Type} (names : List String) (read : List (Value × Value) → Checked α)
    (entries : α → List (String × Value)) (fallback : α) : Prop where
  isSome (es : List (Value × Value)) : (read es).good?.isSome ↔
    ∀ field ∈ names, ∀ v ∈ Value.find? field es, (read [(.text field, v)]).good?.isSome
  lookup {es es' : List (Value × Value)} {a b : α} (ha : (read es).good? = some a)
    (hb : (read es').good? = some b) {field : String} (hfield : field ∈ names)
    (h : Value.find? field es = Value.find? field es') :
    (entries a).lookup field = (entries b).lookup field
  empty : (read []).good? = some fallback

lemma FieldWise.exists_good {α : Type} {names : List String}
    {read : List (Value × Value) → Checked α} {entries : α → List (String × Value)} {fallback : α}
    (h : FieldWise names read entries fallback) {es : List (Value × Value)}
    (hvalid : ∀ field ∈ names, ∀ v ∈ Value.find? field es,
      (read [(.text field, v)]).good?.isSome) :
    ∃ a, (read es).good? = some a ∧ ∀ field ∈ names, (entries a).lookup field =
      (Value.find? field es).elim ((entries fallback).lookup field) fun v =>
        (read [(.text field, v)]).good?.bind fun b => (entries b).lookup field := by
  obtain ⟨a, ha⟩ := Option.isSome_iff_exists.mp ((h.isSome es).mpr hvalid)
  refine ⟨a, ha, fun field hfield => ?_⟩
  cases hfind : Value.find? field es with
  | none => exact h.lookup ha h.empty hfield hfind
  | some v =>
    obtain ⟨b, hb⟩ := Option.isSome_iff_exists.mp (hvalid field hfield v hfind)
    rw [Option.elim_some, hb, Option.bind_some]
    exact h.lookup ha hb hfield (by rw [hfind, Value.find?_single, if_pos rfl])

lemma FieldWise.of_fields {α : Type} {names : List String} {fs : List SectionField}
    {read : List (Value × Value) → Checked α} {entries : α → List (String × Value)} {fallback : α}
    (hnames : names = fs.map (·.name)) (hnodup : names.Nodup)
    (hread : ∀ es, (read es).good?.map entries = SectionField.entries? fs es)
    (hempty : (read []).good? = some fallback) : FieldWise names read entries fallback := by
  subst hnames
  have hsome (es : List (Value × Value)) : (read es).good?.isSome ↔
      ∀ p ∈ fs, ∀ v ∈ Value.find? p.name es, (p.read v).good?.isSome := by
    rw [← Option.isSome_map, hread, SectionField.isSome_entries?]
    simp only [SectionField.isSome_value?]
  have hlookup {es : List (Value × Value)} {a : α} (ha : (read es).good? = some a)
      {p : SectionField} (hp : p ∈ fs) : (entries a).lookup p.name = p.value? es := by
    refine SectionField.lookup_of_entries? ?_ hnodup hp
    rw [← hread, ha, Option.map_some]
  refine ⟨fun es => ?_, fun {es es' a b} ha hb {field} hfield h => ?_, hempty⟩
  · simp only [hsome, List.forall_mem_map, Value.find?_single]
    constructor
    · intro h p hp v hv q hq w hw
      obtain ⟨heq, rfl⟩ := Option.ite_some_none_eq_some.mp hw
      exact h q hq v (heq ▸ hv)
    · intro h p hp v hv
      exact h p hp v hv p hp v (if_pos rfl)
  · obtain ⟨p, hp, rfl⟩ := List.mem_map.mp hfield
    rw [hlookup ha hp, hlookup hb hp, SectionField.value?_congr h]

namespace DatabaseSettings

def fields : List SectionField :=
  let part {α : Type} (name : String) (fallback : α) (read : Value → Except Misfit α)
      (shown : α → Value) : SectionField := ⟨name, fallback, fun v => .ofMisfit v (read v), shown⟩
  let d : DatabaseSettings := {}
  [part "path" d.path Checked.text .text,
   part "journal_mode" d.journalMode Choice.accept fun m => .text (Choice.word m),
   part "synchronous" d.synchronous Choice.accept fun s => .text (Choice.word s),
   part "foreign_keys" d.foreignKeys Checked.truth .bool,
   part "busy_timeout_ms" d.busyTimeout Checked.whole .int,
   part "cache_size_kb" d.cacheSize Checked.whole .int,
   part "read_only" d.readOnly Checked.truth .bool,
   part "create_if_missing" d.createIfMissing Checked.truth .bool,
   part "read_pool_size" d.readPoolSize Checked.count fun n => .int n,
   part "max_retries" d.maxRetries Checked.count fun n => .int n,
   part "retry_base_delay_sec" d.retryBaseDelay Checked.real .real,
   part "retry_max_delay_sec" d.retryMaxDelay Checked.real .real]

lemma good?_ofEntries (es : List (Value × Value)) :
    (ofEntries es).good?.map entries = SectionField.entries? fields es := by
  rw [Option.map_eq_bind, SectionField.entries?_eq_collect, ofEntries]
  repeat rw [Checked.bind_good?_seq]
  rw [Checked.bind_good?_map]
  rfl

lemma fieldWise : FieldWise fieldNames ofEntries entries {} :=
  .of_fields rfl (by decide) good?_ofEntries rfl

end DatabaseSettings

namespace LoggingSettings

variable (home : String)

def fields : List SectionField :=
  let d : LoggingSettings := {}
  [⟨"level", d.level, fun v => .ofMisfit v (Choice.accept v), fun l => .text (Choice.word l)⟩,
   ⟨"outputs", d.outputs, Checked.list (LogOutput.check home), fun os =>
    .list (os.map fun o => Value.mapOf (o.entries.map fun e => (.text e.1, e.2)))⟩]

lemma good?_ofEntries (es : List (Value × Value)) :
    (ofEntries home es).good?.map entries = SectionField.entries? (fields home) es := by
  rw [Option.map_eq_bind, SectionField.entries?_eq_collect, ofEntries]
  repeat rw [Checked.bind_good?_seq]
  rw [Checked.bind_good?_map]
  rfl

lemma fieldWise : FieldWise fieldNames (ofEntries home) entries {} :=
  .of_fields rfl (by decide) (good?_ofEntries home) rfl

end LoggingSettings

end Tablewright
