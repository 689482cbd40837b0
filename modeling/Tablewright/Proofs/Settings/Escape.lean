import Tablewright.Proofs.Settings.Stray
import Tablewright.Proofs.Settings.Load

/-! How the loading of settings ends. Besides the errors in the configuration that it reports there
are faults that get past it: some from reading the file, some from the names that sections have,
some from variables that cannot be decoded, and those of outputs at a home that is not known. -/

namespace Tablewright

inductive FirstOf {α : Type} (p : α → Prop) : List α → α → Prop
  | head {a rest} : p a → FirstOf p (a :: rest) a
  | tail {a b rest} : ¬ p b → FirstOf p rest a → FirstOf p (b :: rest) a

lemma FirstOf.cons_iff {α : Type} {p : α → Prop} {a b : α} {rest : List α} :
    FirstOf p (b :: rest) a ↔ p b ∧ a = b ∨ ¬ p b ∧ FirstOf p rest a := by
  constructor
  · rintro (hp | ⟨hp, h⟩)
    · exact Or.inl ⟨hp, rfl⟩
    · exact Or.inr ⟨hp, h⟩
  · rintro (⟨hp, rfl⟩ | ⟨hp, h⟩)
    · exact .head hp
    · exact .tail hp h

lemma mapM_eq_error_iff {ε α β : Type} {f : α → Except ε β} {g : α → ε} {p : α → Prop}
    (h : ∀ a e, f a = .error e ↔ p a ∧ e = g a) {items : List α} {e : ε} :
    items.mapM f = .error e ↔ ∃ a, FirstOf p items a ∧ e = g a := by
  induction items with
  | nil => exact ⟨nofun, nofun⟩
  | cons a rest ih =>
    rw [List.mapM_cons, seq_eq_error_iff]
    cases ha : f a with
    | error d =>
      obtain ⟨hp, rfl⟩ := (h a d).mp ha
      simp [FirstOf.cons_iff, hp, eq_comm]
    | ok b =>
      have hp : ¬ p a := fun hp => by
        have herror := (h a (g a)).mpr ⟨hp, rfl⟩
        rw [ha] at herror
        cases herror
      have hrest : (List.cons b <$> rest.mapM f) = .error e ↔ rest.mapM f = .error e :=
        map_eq_error_iff
      simp [FirstOf.cons_iff, hp, hrest, ih]

def Value.HasCase (key : Value) : Prop :=
  (∃ s, key = .text s) ∨ (∃ cs, key = .codes cs) ∨ ∃ bytes, key = .blob bytes

lemma Layer.checkKeys_eq_error_iff {layer : Layer} {f : Fault} :
    checkKeys layer = .error f ↔
      ∃ e, FirstOf (fun e => ¬ e.1.HasCase) layer e ∧ f = .lacks e.1.fullKind "lower" := by
  induction layer with
  | nil => exact ⟨nofun, nofun⟩
  | cons e rest ih =>
    obtain ⟨key, v⟩ := e
    simp only [FirstOf.cons_iff, checkKeys]
    cases key <;> simp [Value.HasCase, ih, eq_comm]

lemma Layer.checkKeys_eq_ok_iff {layer : Layer} :
    checkKeys layer = .ok () ↔ ∀ e ∈ layer, e.1.HasCase := by
  induction layer with
  | nil => simp [checkKeys]
  | cons e rest ih =>
    obtain ⟨key, v⟩ := e
    simp only [List.forall_mem_cons, ← ih, checkKeys]
    cases key <;> simp [Value.HasCase]

namespace Environment

lemma pieces_ne_nil (delimiter : List Char) (most : Option Nat) (fuel : Nat) (cs : List Char) :
    pieces delimiter most fuel cs ≠ [] := by
  cases fuel with
  | zero => simp [pieces]
  | succ fuel =>
    cases cs with
    | nil => simp [pieces]
    | cons c cs =>
      rw [pieces]
      split
      · simp
      · split <;> simp

lemma pieces_eq_singleton_iff {delimiter : List Char} (hne : delimiter ≠ []) {most : Option Nat}
    {fuel : Nat} {cs p : List Char} (hfuel : cs.length < fuel) :
    pieces delimiter most fuel cs = [p] ↔ p = cs ∧ (most = some 1 ∨ ¬ delimiter <:+: cs) := by
  induction cs generalizing fuel p with
  | nil =>
    obtain ⟨fuel, rfl⟩ := Nat.exists_eq_add_of_lt hfuel
    simp [pieces, hne, eq_comm]
  | cons c cs ih =>
    obtain ⟨fuel, rfl⟩ := Nat.exists_eq_succ_of_ne_zero (Nat.ne_zero_of_lt hfuel)
    have hshort : cs.length < fuel := Nat.lt_of_succ_lt_succ hfuel
    rw [pieces, List.infix_cons_iff]
    split
    · next hsplit =>
      rw [Bool.and_eq_true, decide_eq_true_eq, List.isPrefixOf_iff_prefix] at hsplit
      simp [pieces_ne_nil, hsplit]
    · next hwhole =>
      rw [Bool.and_eq_true, decide_eq_true_eq, List.isPrefixOf_iff_prefix] at hwhole
      split
      · next hnil => exact (pieces_ne_nil _ _ _ _ hnil).elim
      · next q qs hrest =>
        have hsame : most = some 1 ∨ ¬ (delimiter <+: c :: cs ∨ delimiter <:+: cs) ↔
            most = some 1 ∨ ¬ delimiter <:+: cs := by tauto
        rw [hsame]
        constructor
        · intro h
          obtain ⟨rfl, rfl⟩ := List.cons.inj h
          exact ((ih hshort).mp hrest).imp_left (congrArg (c :: ·))
        · rintro ⟨rfl, hdelimiter⟩
          rw [(ih hshort).mpr ⟨rfl, hdelimiter⟩] at hrest
          obtain ⟨rfl, rfl⟩ := List.cons.inj hrest
          rfl

lemma readVariable_eq_none_iff {n : Naming} {isList : Bool} {s : String} :
    readVariable n isList s = none ↔ isList = true ∧ s ≠ "" ∧ Json.value? s = none := by
  rw [readVariable]
  split
  · next hlist =>
    rw [Bool.and_eq_true, Bool.not_eq_true', String.isEmpty_eq_false_iff] at hlist
    simp [hlist]
  · next hlist =>
    rw [Bool.and_eq_true, Bool.not_eq_true', String.isEmpty_eq_false_iff] at hlist
    split <;> simp_all

def Garbled (n : Naming) (sectionName : String) (lists : List String) (v : String × String) : Prop :=
  ∃ k ∈ lists, v.1 = n.variable_ sectionName ++ n.delimiter ++ k ∧
    (n.most = some 1 ∨ ¬ n.delimiter.toList <:+: k.toList) ∧ v.2 ≠ "" ∧ Json.value? v.2 = none

lemma isListPath_pieces_iff {lists : List String} {delimiter : List Char} (hne : delimiter ≠ [])
    {most : Option Nat} {cs : List Char} :
    isListPath lists ((pieces delimiter most (cs.length + 1) cs).map String.ofList) = true ↔
      ∃ k ∈ lists, k.toList = cs ∧ (most = some 1 ∨ ¬ delimiter <:+: k.toList) := by
  have hsingle (k : String) : (pieces delimiter most (cs.length + 1) cs).map String.ofList = [k] ↔
      k.toList = cs ∧ (most = some 1 ∨ ¬ delimiter <:+: k.toList) := by
    rw [List.map_eq_singleton_iff]
    constructor
    · rintro ⟨p, hp, rfl⟩
      obtain ⟨rfl, hwhole⟩ := (pieces_eq_singleton_iff hne (Nat.lt_succ_self _)).mp hp
      rw [String.toList_ofList]
      exact ⟨rfl, hwhole⟩
    · rintro ⟨rfl, hwhole⟩
      exact ⟨_, (pieces_eq_singleton_iff hne (Nat.lt_succ_self _)).mpr ⟨rfl, hwhole⟩,
        String.ofList_toList⟩
  have hpath (path : List String) : isListPath lists path = true ↔ ∃ k ∈ lists, path = [k] := by
    rcases path with _ | ⟨k, _ | ⟨_, _⟩⟩ <;> simp [isListPath]
  simp only [hpath, hsingle]

lemma readInto_eq_none_iff {n : Naming} {sectionName : String} {lists : List String}
    {layer : Layer} {v : String × String} (hne : n.delimiter ≠ "") :
    readInto n sectionName lists layer v = none ↔ Garbled n sectionName lists v := by
  have hdelimiter : n.delimiter.toList ≠ [] := by simpa using hne
  rw [readInto, Garbled]
  generalize n.variable_ sectionName ++ n.delimiter = start
  simp only []
  split
  · next hstart =>
    obtain ⟨rest, hrest⟩ := String.startsWith_string_iff.mp hstart
    have hname : v.1.toList.drop start.length = rest := by
      rw [← hrest, ← String.length_toList]
      exact List.drop_left
    have hwhole (k : String) : v.1 = start ++ k ↔ k.toList = rest := by
      rw [← String.toList_inj, ← hrest, String.toList_append, List.append_right_inj]
      exact eq_comm
    simp only [Option.map_eq_none_iff, readVariable_eq_none_iff, hname,
      isListPath_pieces_iff hdelimiter, hwhole]
    constructor
    · rintro ⟨⟨k, hk, hrest, hundivided⟩, hjson⟩
      exact ⟨k, hk, hrest, hundivided, hjson⟩
    · rintro ⟨k, hk, hrest, hundivided, hjson⟩
      exact ⟨⟨k, hk, hrest, hundivided⟩, hjson⟩
  · next hstart =>
    rw [eq_false (Option.some_ne_none layer), false_iff]
    rintro ⟨k, -, hname, -⟩
    refine hstart (String.startsWith_string_iff.mpr ?_)
    rw [hname, String.toList_append]
    exact List.prefix_append ..

lemma foldlM_eq_none_iff {α β : Type} {step : β → α → Option β} {p : α → Prop}
    (h : ∀ b a, step b a = none ↔ p a) {items : List α} {b : β} :
    items.foldlM step b = none ↔ ∃ a ∈ items, p a := by
  induction items generalizing b with
  | nil => simp
  | cons a rest ih =>
    rw [List.foldlM_cons, List.exists_mem_cons_iff, ← h b a]
    cases step b a with
    | none => simp
    | some c => simpa using ih

lemma fields?_eq_none_iff {n : Naming} {sectionName : String} {lists : List String}
    {vars : Environment} : fields? n sectionName lists vars = none ↔
      n.delimiter ≠ "" ∧ ∃ v ∈ vars, Garbled n sectionName lists v := by
  rw [fields?]
  split
  · next hempty => simp [String.isEmpty_iff.mp hempty]
  · next hempty =>
    have hne : n.delimiter ≠ "" := fun h => hempty (String.isEmpty_iff.mpr h)
    exact (foldlM_eq_none_iff (p := Garbled n sectionName lists)
      fun _ _ => readInto_eq_none_iff hne).trans (and_iff_right hne).symm

/-- A section cannot be decoded: its own variable is not JSON, or, unless that says by itself what
the section is, the variable of one of its lists is not. -/
inductive Undecodable (n : Naming) (vars : Environment) (s : String × List String × List String) :
    Prop
  | whole {text} (get : Keyed.get? vars (n.variable_ s.1) = some text)
      (word : n.noneWord ≠ some text) (json : Json.value? text = none)
  | list {v} (own : ∀ text ∈ Keyed.get? vars (n.variable_ s.1), n.noneWord ≠ some text ∧
        ∃ entries, Json.value? text = some (.map entries))
      (delimiter : n.delimiter ≠ "") (mem : v ∈ vars) (garbled : Garbled n s.1 s.2.2 v)

section Decoding

variable {n : Naming} {vars : Environment} {s : String × List String × List String}

lemma undecodable_iff_of_own {text : String}
    (hget : Keyed.get? vars (n.variable_ s.1) = some text) :
    Undecodable n vars s ↔ n.noneWord ≠ some text ∧ (Json.value? text = none ∨
      (∃ entries, Json.value? text = some (.map entries)) ∧ fields? n s.1 s.2.2 vars = none) := by
  rw [fields?_eq_none_iff]
  constructor
  · rintro (⟨htext, hword, hjson⟩ | ⟨hown, hdelimiter, hmem, hgarbled⟩)
    · obtain rfl := Option.some.inj (hget.symm.trans htext)
      exact ⟨hword, Or.inl hjson⟩
    · obtain ⟨hword, hentries⟩ := hown text hget
      exact ⟨hword, Or.inr ⟨hentries, hdelimiter, _, hmem, hgarbled⟩⟩
  · rintro ⟨hword, hjson | ⟨hentries, hdelimiter, v, hmem, hgarbled⟩⟩
    · exact .whole hget hword hjson
    · refine .list (fun t ht => ?_) hdelimiter hmem hgarbled
      obtain rfl := Option.some.inj (hget.symm.trans ht)
      exact ⟨hword, hentries⟩

lemma undecodable_iff_of_none (hget : Keyed.get? vars (n.variable_ s.1) = none) :
    Undecodable n vars s ↔ fields? n s.1 s.2.2 vars = none := by
  rw [fields?_eq_none_iff]
  constructor
  · rintro (⟨htext, -⟩ | ⟨-, hdelimiter, hmem, hgarbled⟩)
    · rw [hget] at htext
      cases htext
    · exact ⟨hdelimiter, _, hmem, hgarbled⟩
  · rintro ⟨hdelimiter, v, hmem, hgarbled⟩
    refine .list (fun t ht => ?_) hdelimiter hmem hgarbled
    rw [hget] at ht
    cases ht

lemma sectionValue?_eq_none_iff :
    sectionValue? n s.1 s.2.1 s.2.2 vars = none ↔ Undecodable n vars s := by
  rw [sectionValue?]
  simp only []
  split
  · next text hget =>
    rw [undecodable_iff_of_own hget]
    split
    · next hword => simp [hword]
    · next hword =>
      -- Of all that JSON can be, a map alone is filled up from the variables of the fields.
      rcases Json.value? text with _ | v
      · simp [hword]
      · cases v <;> cases fields? n s.1 s.2.2 vars <;> simp [hword]
  · next hget =>
    rw [undecodable_iff_of_none hget]
    cases fields? n s.1 s.2.2 vars <;> simp

end Decoding

lemma layer_eq_error_iff {n : Naming} {env : Environment} {f : Fault} : env.layer n = .error f ↔
    ∃ s, FirstOf (Undecodable n (env.visible n)) sections s ∧ f = .undecodable s.1 := by
  rw [layer]
  refine map_eq_error_iff.trans (mapM_eq_error_iff fun s e => ?_)
  obtain ⟨name, names, lists⟩ := s
  rw [← sectionValue?_eq_none_iff]
  dsimp only
  cases sectionValue? n name names lists (env.visible n) <;> simp [eq_comm]

end Environment

namespace Settings

def stacked (given env file : Layer) : Layer :=
  Layer.overlay (Layer.withSections fieldNames (sectionsOf given))
    (Layer.overlay env (Layer.withSections fieldNames file))

/-- Faults that keep the sources from making settings. The keys of the file are looked at first, then
the environment, then the names of all sections, and last what the sections hold. -/
inductive Unresolved (h : Host) (given file : Layer) : Fault → Prop
  | caseless {e} (first : FirstOf (fun e => ¬ e.1.HasCase) file e) :
      Unresolved h given file (.lacks e.1.fullKind "lower")
  | undecodable {s} (cased : ∀ e ∈ file, e.1.HasCase)
      (first : FirstOf (Environment.Undecodable (namingOf given) (h.env.visible (namingOf given)))
        Environment.sections s) : Unresolved h given file (.undecodable s.1)
  | nameless {env} (cased : ∀ e ∈ file, e.1.HasCase)
      (read : h.env.layer (namingOf given) = .ok env)
      (unnamed : allNamed (stacked given env file) = false) :
      Unresolved h given file .namelessSection
  | homeless {env} (cased : ∀ e ∈ file, e.1.HasCase)
      (read : h.env.layer (namingOf given) = .ok env)
      (named : allNamed (stacked given env file) = true)
      (strays : Strays h.home (stacked given env file)) : Unresolved h given file .homeless

section Resolving

variable {h : Host} {given file : Layer}

lemma resolve_of_caseless {f : Fault} (hkeys : Layer.checkKeys file = .error f) :
    resolve h given file = .error (.fault f) := by
  rw [resolve, hkeys]
  rfl

lemma resolve_of_undecodable {f : Fault} (hkeys : Layer.checkKeys file = .ok ())
    (henv : h.env.layer (namingOf given) = .error f) :
    resolve h given file = .error (.fault f) := by
  rw [resolve, hkeys, henv]
  rfl

lemma resolve_of_layer {env : Layer} (hkeys : Layer.checkKeys file = .ok ())
    (henv : h.env.layer (namingOf given) = .ok env) :
    resolve h given file =
      if allNamed (stacked given env file) then ofLayer h.home (stacked given env file)
      else .error (.fault .namelessSection) := by
  rw [resolve, hkeys, henv]
  change (if !allNamed (stacked given env file) then Except.error (.fault .namelessSection)
    else ofLayer h.home (stacked given env file)) = _
  cases allNamed (stacked given env file) <;> rfl

lemma resolve_eq_fault_iff {f : Fault} :
    resolve h given file = .error (.fault f) ↔ Unresolved h given file f := by
  constructor
  · intro hfault
    cases hkeys : Layer.checkKeys file with
    | error g =>
      obtain ⟨⟩ := hfault.symm.trans (resolve_of_caseless hkeys)
      obtain ⟨e, hfirst, rfl⟩ := Layer.checkKeys_eq_error_iff.mp hkeys
      exact .caseless hfirst
    | ok _ =>
      have hcased := Layer.checkKeys_eq_ok_iff.mp hkeys
      cases henv : h.env.layer (namingOf given) with
      | error g =>
        obtain ⟨⟩ := hfault.symm.trans (resolve_of_undecodable hkeys henv)
        obtain ⟨s, hfirst, rfl⟩ := Environment.layer_eq_error_iff.mp henv
        exact .undecodable hcased hfirst
      | ok env =>
        rw [resolve_of_layer hkeys henv] at hfault
        split at hfault
        · next hnamed =>
          obtain ⟨rfl, hstrays⟩ := ofLayer_eq_fault_iff.mp hfault
          exact .homeless hcased henv hnamed hstrays
        · next hunnamed =>
          obtain ⟨⟩ := hfault
          exact .nameless hcased henv (Bool.eq_false_iff.mpr hunnamed)
  · rintro (hfirst | ⟨hcased, hfirst⟩ | ⟨hcased, henv, hunnamed⟩ | ⟨hcased, henv, hnamed, hstrays⟩)
    · exact resolve_of_caseless (Layer.checkKeys_eq_error_iff.mpr ⟨_, hfirst, rfl⟩)
    · exact resolve_of_undecodable (Layer.checkKeys_eq_ok_iff.mpr hcased)
        (Environment.layer_eq_error_iff.mpr ⟨_, hfirst, rfl⟩)
    · rw [resolve_of_layer (Layer.checkKeys_eq_ok_iff.mpr hcased) henv, hunnamed]
      rfl
    · rw [resolve_of_layer (Layer.checkKeys_eq_ok_iff.mpr hcased) henv, if_pos hnamed]
      exact ofLayer_eq_fault_iff.mpr ⟨rfl, hstrays⟩

lemma resolve_error {e : Failure} (he : resolve h given file = .error e) :
    (∃ c, e = .config c) ∨ ∃ f, e = .fault f := by
  cases hkeys : Layer.checkKeys file with
  | error f => exact Or.inr ⟨f, Except.error.inj (he.symm.trans (resolve_of_caseless hkeys))⟩
  | ok _ =>
    cases henv : h.env.layer (namingOf given) with
    | error f =>
      exact Or.inr ⟨f, Except.error.inj (he.symm.trans (resolve_of_undecodable hkeys henv))⟩
    | ok env =>
      rw [resolve_of_layer hkeys henv] at he
      split at he
      · exact ofLayer_error he
      · exact Or.inr ⟨_, (Except.error.inj he).symm⟩

lemma admitted_of_resolve {s : Settings} (hs : resolve h given file = .ok s) : s.Admitted := by
  cases hkeys : Layer.checkKeys file with
  | error f => cases hs.symm.trans (resolve_of_caseless hkeys)
  | ok _ =>
    cases henv : h.env.layer (namingOf given) with
    | error f => cases hs.symm.trans (resolve_of_undecodable hkeys henv)
    | ok env =>
      rw [resolve_of_layer hkeys henv] at hs
      split at hs
      · exact admitted_of_ofLayer hs
      · cases hs

end Resolving

/-- Faults of a call for settings: the place of the file is given twice, the file is no text or has
something that is not read, or the sources do not make settings. -/
inductive Escapes (c : Call) : Fault → Prop
  | repeated (twice : (Value.find? "config_path" c.given).isSome) :
      Escapes c (.arguments "load_config" (.repeated "config_path"))
  | garbled {reason} (once : Value.find? "config_path" c.given = none)
      (file : c.host.file? (c.path.getD defaultFile) = some (.garbled reason)) :
      Escapes c (.garbled reason)
  | content {text f} (once : Value.find? "config_path" c.given = none)
      (file : c.host.file? (c.path.getD defaultFile) = some (.text text))
      (fault : Markup.valueOf (String.ofList (unixLines text.toList)) = .error (.fault f)) :
      Escapes c f
  | unresolved {file f} (once : Value.find? "config_path" c.given = none)
      (read : readFile c.host c.path = .ok file) (fault : Unresolved c.host c.given file f) :
      Escapes c f

lemma fileLayer_eq_fault_iff {path text : String} {f : Fault} :
    fileLayer path text = .error (.fault f) ↔
      Markup.valueOf (String.ofList (unixLines text.toList)) = .error (.fault f) := by
  unfold fileLayer
  split <;> simp_all

lemma fileLayer_error {path text : String} {e : Failure} (he : fileLayer path text = .error e) :
    (∃ c, e = .config c) ∨ ∃ f, e = .fault f := by
  unfold fileLayer at he
  split at he
  · exact Or.inl ⟨_, (Except.error.inj he).symm⟩
  · exact Or.inr ⟨_, (Except.error.inj he).symm⟩
  · cases he
  · cases he
  · exact Or.inl ⟨_, (Except.error.inj he).symm⟩

def Faulty (content : FileContent) (f : Fault) : Prop :=
  (∃ reason, content = .garbled reason ∧ f = .garbled reason) ∨
    ∃ text, content = .text text ∧
      Markup.valueOf (String.ofList (unixLines text.toList)) = .error (.fault f)

lemma contentLayer_eq_fault_iff {path : String} {content : FileContent} {f : Fault} :
    contentLayer path content = .error (.fault f) ↔ Faulty content f := by
  cases content with
  | text text => simp [contentLayer, Faulty, fileLayer_eq_fault_iff]
  | garbled reason => simp [contentLayer, Faulty, eq_comm]

lemma contentLayer_error {path : String} {content : FileContent} {e : Failure}
    (he : contentLayer path content = .error e) : (∃ c, e = .config c) ∨ ∃ f, e = .fault f := by
  cases content with
  | text text => exact fileLayer_error he
  | garbled reason => exact Or.inr ⟨_, (Except.error.inj he).symm⟩

lemma readFile_eq_fault_iff {h : Host} {path : Option String} {f : Fault} :
    readFile h path = .error (.fault f) ↔
      ∃ content, h.file? (path.getD defaultFile) = some content ∧ Faulty content f := by
  cases path with
  | none =>
    rw [readFile, Option.getD_none]
    cases h.file? defaultFile <;> simp [contentLayer_eq_fault_iff]
  | some path =>
    rw [readFile, Option.getD_some]
    cases h.file? path <;> simp [contentLayer_eq_fault_iff]

lemma readFile_error {h : Host} {path : Option String} {e : Failure}
    (he : readFile h path = .error e) : (∃ c, e = .config c) ∨ ∃ f, e = .fault f := by
  cases path with
  | none =>
    rw [readFile] at he
    split at he
    · exact contentLayer_error he
    · cases he
  | some path =>
    rw [readFile] at he
    split at he
    · exact contentLayer_error he
    · exact Or.inl ⟨_, (Except.error.inj he).symm⟩

namespace Call

variable {c : Call}

lemma result_of_repeated (htwice : (Value.find? "config_path" c.given).isSome) :
    c.result = .error (.fault (.arguments "load_config" (.repeated "config_path"))) := by
  rw [result, load, loading, if_pos htwice]
  rfl

lemma result_of_once (honce : Value.find? "config_path" c.given = none) :
    c.result = (readFile c.host c.path).bind fun file => resolve c.host c.given file := by
  rw [result, load, loading, honce]
  simp only [Loading.ofExcept]
  cases readFile c.host c.path <;> rfl

lemma result_eq_fault_iff {f : Fault} : c.result = .error (.fault f) ↔ Escapes c f := by
  constructor
  · intro hfault
    cases honce : Value.find? "config_path" c.given with
    | some v =>
      obtain ⟨⟩ := hfault.symm.trans (result_of_repeated (Option.isSome_iff_exists.mpr ⟨v, honce⟩))
      exact .repeated (Option.isSome_iff_exists.mpr ⟨v, honce⟩)
    | none =>
      rw [result_of_once honce, bind_eq_error_iff, readFile_eq_fault_iff] at hfault
      obtain ⟨content, hfile, hfaulty⟩ | ⟨file, hread, hfault⟩ := hfault
      · obtain ⟨reason, rfl, rfl⟩ | ⟨text, rfl, hcontent⟩ := hfaulty
        · exact .garbled honce hfile
        · exact .content honce hfile hcontent
      · exact .unresolved honce hread (resolve_eq_fault_iff.mp hfault)
  · rintro (htwice | ⟨honce, hfile⟩ | ⟨honce, hfile, hcontent⟩ | ⟨honce, hread, hfault⟩)
    · exact result_of_repeated htwice
    · rw [result_of_once honce, readFile_eq_fault_iff.mpr ⟨_, hfile, Or.inl ⟨_, rfl, rfl⟩⟩]
      rfl
    · rw [result_of_once honce, readFile_eq_fault_iff.mpr ⟨_, hfile, Or.inr ⟨_, rfl, hcontent⟩⟩]
      rfl
    · rw [result_of_once honce, hread]
      exact resolve_eq_fault_iff.mpr hfault

lemma result_error {e : Failure} (he : c.result = .error e) :
    (∃ k, e = .config k) ∨ ∃ f, e = .fault f := by
  cases honce : Value.find? "config_path" c.given with
  | some v =>
    have htwice := result_of_repeated (Option.isSome_iff_exists.mpr ⟨v, honce⟩)
    exact Or.inr ⟨_, Except.error.inj (he.symm.trans htwice)⟩
  | none =>
    rw [result_of_once honce, bind_eq_error_iff] at he
    obtain hread | ⟨file, -, hresolve⟩ := he
    · exact readFile_error hread
    · exact resolve_error hresolve

lemma admitted_of_result {s : Settings} (hs : c.result = .ok s) : s.Admitted := by
  cases honce : Value.find? "config_path" c.given with
  | some v => cases hs.symm.trans (result_of_repeated (Option.isSome_iff_exists.mpr ⟨v, honce⟩))
  | none =>
    rw [result_of_once honce, bind_eq_ok_iff] at hs
    obtain ⟨file, -, hresolve⟩ := hs
    exact admitted_of_resolve hresolve

/-- However a call for settings ends, the values in the place for a file are what they were before.
It gives settings whose fields all hold what they are declared for, or reports an error in the
configuration, unless a fault escapes; and these are all that do. -/
theorem result_eq_fault_iff_escapes (c : Call) (before : Layer) :
    c.run.run before = (c.result, before) ∧
    (∀ s, c.result = .ok s → s.Admitted) ∧
    (∀ e, c.result = .error e → (∃ k, e = .config k) ∨ ∃ f, e = .fault f) ∧
    ∀ f, c.result = .error (.fault f) ↔ Escapes c f :=
  ⟨c.run_eq before, fun _ => admitted_of_result, fun _ => result_error,
    fun _ => result_eq_fault_iff⟩

namespace Brace

def call : Call := ⟨⟨"/work", "/home/me", [], [("RIZZ__DATABASE", "\x7bbad")]⟩, none, []⟩

end Brace

open Brace in
/-- A section that is given by a variable which is not JSON is no error in the configuration. -/
theorem result_of_brace :
    call.result = .error (.fault (.undecodable "database")) ∧
      ¬ ∃ k, call.result = .error (.config k) := by
  have hread : readFile call.host call.path = .ok [] := by
    have hfile : call.host.file? defaultFile = none := by
      rw [Host.file?]
      cases call.host.place? defaultFile <;> rfl
    change readFile call.host none = .ok []
    rw [readFile, hfile]
  have hlayer : call.host.env.layer (namingOf call.given) = .error (.undecodable "database") := rfl
  have hresult : call.result = .error (.fault (.undecodable "database")) := by
    rw [result_of_once rfl, hread]
    exact resolve_of_undecodable rfl hlayer
  refine ⟨hresult, ?_⟩
  rintro ⟨k, hk⟩
  cases hresult.symm.trans hk

end Call

end Settings

end Tablewright
