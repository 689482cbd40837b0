import Tablewright.Settings.Load

namespace Tablewright.Cli

structure Switch where
  key : String
  names : List String
  takesValue : Bool := false

structure Given where
  key : String
  value : String := ""

inductive Command where
  | inspect (database : String) (json : Bool)
  | plan (database target : String)
  | migrate (database target : String)
deriving DecidableEq, Repr

inductive Asked (α : Type) where
  | done (a : α)
  | help
  | version
  | misuse
  | broken (f : Fault)

def find? (options : List Switch) (name : String) : Option Switch :=
  options.find? fun o => o.names.contains name

def isLong (arg : String) : Bool := "--".isPrefixOf arg

/-- Looks the letters of a cluster up one by one; the first that takes a value takes the rest of the
cluster, or the next argument. -/
def takeLetters (options : List Switch) :
    List Char → List String → Option (List Given × List String)
  | [], rest => some ([], rest)
  | c :: cs, rest => do
    let o ← find? options (String.ofList ['-', c])
    if !o.takesValue then
      let (given, rest) ← takeLetters options cs rest
      return (⟨o.key, ""⟩ :: given, rest)
    else if !cs.isEmpty then return ([⟨o.key, String.ofList cs⟩], rest)
    else match rest with
      | v :: rest => return ([⟨o.key, v⟩], rest)
      | [] => none

def takeOption (options : List Switch) (arg : String) (rest : List String) :
    Option (List Given × List String) :=
  let (name, value) := match Text.cutFirst '=' arg.toList with
    | some (name, value) => (String.ofList name, some (String.ofList value))
    | none => (arg, none)
  match if isLong arg then find? options name else none with
  | none => if isLong arg then none else takeLetters options (arg.toList.drop 1) rest
  | some o =>
    match o.takesValue, value, rest with
    | true, some v, _ => some ([⟨o.key, v⟩], rest)
    | true, none, v :: rest => some ([⟨o.key, v⟩], rest)
    | true, none, [] => none
    | false, some _, _ => none
    | false, none, _ => some ([⟨o.key, ""⟩], rest)

/-- The options among some arguments, and the other arguments. Where arguments are not `mixed` with
options, the first one ends the options. -/
def scan (options : List Switch) (mixed : Bool) :
    Nat → List String → Option (List Given × List String)
  | 0, _ => none
  | _, [] => some ([], [])
  | fuel + 1, arg :: rest => do
    if arg = "--" then return ([], rest)
    else if "-".isPrefixOf arg && arg ≠ "-" then
      let (given, rest) ← takeOption options arg rest
      let (more, others) ← scan options mixed fuel rest
      return (given ++ more, others)
    else if mixed then
      let (given, others) ← scan options mixed fuel rest
      return (given, arg :: others)
    else return ([], arg :: rest)

def split (options : List Switch) (mixed : Bool) (args : List String) :
    Option (List Given × List String) := scan options mixed (args.length + 1) args

def hasKey (given : List Given) (key : String) : Bool := given.any (·.key = key)

def value? (given : List Given) (key : String) : Option String :=
  (given.reverse.find? (·.key = key)).map (·.value)

def eager? {α : Type} (given : List Given) : Option (Asked α) :=
  (given.find? fun g => g.key = "help" || g.key = "version").map fun g =>
    if g.key = "help" then .help else .version

def helpOption : Switch := ⟨"help", ["--help"], false⟩

def mainOptions : List Switch :=
  [⟨"version", ["--version"], false⟩, ⟨"verbose", ["-v", "--verbose"], false⟩,
   ⟨"config", ["--config"], true⟩, helpOption]

structure Preamble where
  verbose : Bool
  config : Option String
  command : String
  rest : List String

def commandNames : List String := ["inspect", "plan", "migrate"]

/-- A path that is given, if it is fit for its purpose. No path has a zero character in it. -/
def checkPath {α : Type} (fit : Bool) (path : String) (next : Asked α) : Asked α :=
  if path.contains '\x00' then .broken (.senseless "embedded null byte")
  else if fit then next else .misuse

def readOptions {α : Type} (h : Host) (args : List String)
    (next : List Given → List String → Asked α) : Asked α :=
  match split mainOptions false args with
  | none => .misuse
  | some (given, rest) =>
    match eager? given, value? given "config" with
    | some asked, _ => asked
    | none, some config => checkPath (h.hasFile config) config (next given rest)
    | none, none => next given rest

/-- The part of a command line up to its command. What looks like an option in the place of the
command, where it is none, is read as one after all. -/
def readPreamble (h : Host) (args : List String) : Asked Preamble :=
  readOptions h args fun given rest =>
    match rest with
    | [] => .misuse
    | command :: others =>
      if commandNames.contains command then
        .done ⟨hasKey given "verbose", value? given "config", command, others⟩
      else if "-".isPrefixOf command then readOptions h rest fun _ _ => .misuse
      else .misuse

/-- A command with its options and its one argument. A database that is inspected must be there, and
none may be a directory. -/
def readCommand (h : Host) (name : String) (args : List String) : Asked Command :=
  let inspects : Bool := name = "inspect"
  let options :=
    if inspects then [⟨"json", ["--json"], false⟩, helpOption]
    else [⟨"schema", ["--schema"], true⟩, helpOption]
  match split options true args with
  | none => .misuse
  | some (given, arguments) =>
    match eager? given, arguments with
    | some asked, _ => asked
    | none, [] => .misuse
    | none, path :: more =>
      let fit := if inspects then h.hasFile path else !h.hasDirectory path
      let database := Path.normal path
      checkPath fit path <|
        match more, value? given "schema" with
        | _ :: _, _ => .misuse
        | [], target =>
          if inspects then .done (.inspect database (hasKey given "json"))
          else match target with
            | none => .misuse
            | some target =>
              if name = "plan" then .done (.plan database target)
              else .done (.migrate database target)

end Tablewright.Cli
