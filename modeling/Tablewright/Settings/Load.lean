import Tablewright.Markup.Build
import Tablewright.Settings.Layer

namespace Tablewright

namespace Settings

def defaultFile : String := "rizz.yaml"

def unixLines : List Char → List Char
  | '\r' :: '\n' :: rest => '\n' :: unixLines rest
  | '\r' :: rest => '\n' :: unixLines rest
  | c :: rest => c :: unixLines rest
  | [] => []

def malformed : String := "<yaml>"

def fileLayer (path text : String) : Except Failure Layer :=
  match Markup.valueOf (String.ofList (unixLines text.toList)) with
  | .error .malformed => .error (.config (.unreadable path malformed))
  | .error (.fault f) => .error (.fault f)
  | .ok .null => .ok []
  | .ok (.map entries) => .ok (Value.freeEntries entries)
  | .ok v =>
    .error (.config (.unreadable path s!"expected a mapping at top level, got {v.kind}"))

def contentLayer (path : String) : FileContent → Except Failure Layer
  | .text text => fileLayer path text
  | .garbled reason => .error (.fault (.garbled reason))

/-- A file that is named must be there; without a name the default file may be missing. -/
def readFile (h : Host) : Option String → Except Failure Layer
  | none =>
    match h.file? defaultFile with
    | some content => contentLayer (Path.normal (h.directory ++ "/" ++ defaultFile)) content
    | none => .ok []
  | some path =>
    match h.file? path with
    | some content => contentLayer (Path.normal path) content
    | none => .error (.config (.fileNotFound (Path.normal path)))

def extras (layer : Layer) : List Issue :=
  (layer.filter fun e => !(fieldNames.any fun n => e.1.sameKey (.text n))).map fun e =>
    ⟨[e.1.displayed], "extra_forbidden", "Extra inputs are not permitted", e.2⟩

def ofLayer (home : String) (layer : Layer) : Except Failure Settings :=
  let report (i : Issue) : Failure :=
    .config (.invalidValue (String.intercalate "." i.place) i.input i.reason)
  match ofEntries home layer, extras layer with
  | .good s, [] => .ok s
  | .good _, i :: _ => .error (report i)
  | .bad i _, _ => .error (report i)
  | .broken f, _ => .error (.fault f)

def allNamed (layer : Layer) : Bool :=
  layer.all fun e => e.1 matches .text _ || e.1 matches .codes _

/-- What a caller may give besides sections: how the environment is to be read. The names of the
other things that concern the reading are known too, but change nothing. -/
def readingKeys : List String :=
  ["_case_sensitive", "_nested_model_default_partial_update", "_env_prefix", "_env_file",
   "_env_file_encoding", "_env_ignore_empty", "_env_nested_delimiter", "_env_nested_max_split",
   "_env_parse_none_str", "_env_parse_enums", "_secrets_dir", "_cli_prog_name",
   "_cli_parse_args", "_cli_settings_source", "_cli_parse_none_str", "_cli_hide_none_type",
   "_cli_avoid_json", "_cli_enforce_required", "_cli_use_class_docs_for_groups",
   "_cli_exit_on_error", "_cli_prefix", "_cli_flag_prefix_char", "_cli_implicit_flags",
   "_cli_ignore_unknown_args", "_cli_kebab_case", "_cli_shortcuts"]

def namingOf (given : Layer) : Naming :=
  let word (name : String) : Option String :=
    match Value.find? name given with
    | some (.text s) => some s
    | _ => none
  let flag (name : String) : Bool := (Value.find? name given).any (·.isTruthy)
  let d : Naming := {}
  { start := (word "_env_prefix").getD d.start
    delimiter := (word "_env_nested_delimiter").getD d.delimiter
    most := match Value.find? "_env_nested_max_split" given with
      | some (.int n) => if 0 < n then some n.toNat else none
      | some (.bool true) => some 1
      | _ => none
    exact := flag "_case_sensitive"
    ignoreEmpty := flag "_env_ignore_empty"
    noneWord := word "_env_parse_none_str" }

def sectionsOf (given : Layer) : Layer :=
  given.filter fun e => !readingKeys.any fun k => e.1.sameKey (.text k)

/-- A loading keeps the values of its file in a place that all loadings share. -/
abbrev Loading (α : Type) := ExceptT Failure (StateM Layer) α

namespace Loading

variable {α : Type}

def ofExcept (r : Except Failure α) : Loading α := ExceptT.mk (pure r)

def withFile (file : Layer) (work : Loading α) : Loading α := ExceptT.mk do
  let before ← get
  set file
  let r ← work.run
  set before
  return r

end Loading

def resolve (h : Host) (given file : Layer) : Except Failure Settings := do
  (Layer.checkKeys file).mapError .fault
  let env ← (h.env.layer (namingOf given)).mapError .fault
  let named := Layer.withSections fieldNames
  let layer := Layer.overlay (named (sectionsOf given)) (Layer.overlay env (named file))
  if !allNamed layer then throw (.fault .namelessSection)
  ofLayer h.home layer

/-- Loads the settings in effect. The place of the file is given apart from the sections, so it
cannot be given among them again. -/
def loading (h : Host) (path : Option String) (given : Layer) : Loading Settings := do
  if (Value.find? "config_path" given).isSome then
    throw (.fault (.arguments "load_config" (.repeated "config_path")))
  let file ← Loading.ofExcept (readFile h path)
  Loading.withFile file do Loading.ofExcept (resolve h given (← get))

def load (h : Host) (path : Option String) (given : Layer) : Except Failure Settings :=
  ((loading h path given).run []).1

end Settings

end Tablewright
