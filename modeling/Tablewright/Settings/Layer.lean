import Tablewright.Json.Reader
import Tablewright.Settings.Host
import Tablewright.Settings.Model
import Tablewright.Text.CaseMap

/-! Layers of settings: what a file, the environment and the caller give. A higher layer hides a
lower one key by key, so a section given in both has the keys of both. -/

namespace Tablewright

abbrev Layer := List (Value × Value)

namespace Layer

/-- What a higher value leaves of a lower one: of two maps the keys of both, else the higher. -/
def overlayValue : (higher lower : Value) → Value
  | .map higher, .map lower => .map (go higher (Value.freeEntries lower))
  | higher, _ => higher
where
  go : List (Value × Value) → List (Value × Value) → List (Value × Value)
    | [], lower => lower
    | (k, v) :: rest, lower =>
      match lower.find? fun e => e.1.sameKey k with
      | some (_, old) => go rest (Value.put k (overlayValue v old) lower)
      | none => go rest (Value.put k v lower)

def overlay (higher lower : Layer) : Layer := overlayValue.go higher lower

def sameName (a b : String) : Bool := Text.lowercase a = Text.lowercase b

def isNamed (name : String) (e : Value × Value) : Bool :=
  match e.1 with
  | .text s => sameName name s
  | _ => false

/-- The known sections under their own names, then the rest. In a layer a section may be named in
any letter case; the first such key counts, and the others are passed over. -/
def withSections (names : List String) (layer : Layer) : Layer :=
  names.filterMap (fun n => (layer.find? (isNamed n)).map fun e => (.text n, e.2)) ++
    layer.filter fun e => !names.any fun n => isNamed n e

/-- Keys are looked at in any letter case, so the first one that has none is a fault. -/
def checkKeys : Layer → Except Fault Unit
  | [] => .ok ()
  | (k, _) :: rest =>
    match k with
    | .text _ | .codes _ | .blob _ => checkKeys rest
    | k => .error (.lacks k.fullKind "lower")

end Layer

/-- How the environment is read: what the names of variables start with, what stands between the
parts of a name, how many parts there are at most, whether letter case matters in names, whether
empty values count, and the word for nothing if there is one. -/
structure Naming where
  start : String := "RIZZ__"
  delimiter : String := "__"
  most : Option Nat := none
  exact : Bool := false
  ignoreEmpty : Bool := false
  noneWord : Option String := none

namespace Naming

def written (n : Naming) (name : String) : String := if n.exact then name else Text.lowercase name

def variable_ (n : Naming) (sectionName : String) : String := n.written (n.start ++ sectionName)

end Naming

namespace Environment

/-- The variables that count, under the names by which they are looked up. Of names that differ only
in letter case the last value counts. -/
def visible (n : Naming) (env : Environment) : Environment :=
  (env.filter fun v => !n.ignoreEmpty || !v.2.isEmpty).foldl
    (fun vars v => Keyed.put (n.written v.1) v.2 vars) []

/-- The pieces of a name between delimiters; if there is a greatest number of pieces, the last one
holds the rest. -/
def pieces (delimiter : List Char) : (most : Option Nat) → Nat → List Char → List (List Char)
  | _, 0, _ => [[]]
  | _, _, [] => [[]]
  | most, fuel + 1, c :: cs =>
    if most ≠ some 1 && delimiter.isPrefixOf (c :: cs) then
      [] :: pieces delimiter (most.map (· - 1)) fuel ((c :: cs).drop delimiter.length)
    else match pieces delimiter most fuel cs with
      | [] => [[c]]
      | p :: ps => (c :: p) :: ps

/-- Sets a value under a path of keys; a value that stands in the way keeps its place. -/
def setUnder : List String → Value → Layer → Layer
  | [], _, layer => layer
  | [k], v, layer => Value.put (.text k) v layer
  | k :: path, v, layer =>
    match Value.find? k layer with
    | some (.map inner) => Value.put (.text k) (.map (setUnder path v inner)) layer
    | some _ => layer
    | none => Value.put (.text k) (.map (setUnder path v [])) layer

def readVariable (n : Naming) (isList : Bool) (s : String) : Option Value :=
  if isList && !s.isEmpty then Json.value? s
  else if n.noneWord = some s then some .null
  else some (.text s)

def isListPath (lists : List String) : List String → Bool
  | [k] => lists.contains k
  | _ => false

def readInto (n : Naming) (sectionName : String) (lists : List String) (layer : Layer)
    (v : String × String) : Option Layer :=
  let start := n.variable_ sectionName ++ n.delimiter
  if start.isPrefixOf v.1 then
    let name := v.1.toList.drop start.length
    let path := (pieces n.delimiter.toList n.most (name.length + 1) name).map String.ofList
    (readVariable n (isListPath lists path) v.2).map fun value => setUnder path value layer
  else some layer

def fields? (n : Naming) (sectionName : String) (lists : List String) (vars : Environment) :
    Option Layer :=
  if n.delimiter.isEmpty then some [] else vars.foldlM (readInto n sectionName lists) []

/-- A key that differs from a field's name only in letter case is that field. -/
def fieldKey (names : List String) : Value → Value
  | .text s => .text ((names.find? (Layer.sameName s)).getD s)
  | k => k

def withFieldNames (names : List String) (layer : Layer) : Layer :=
  layer.foldl (fun renamed e => Value.put (fieldKey names e.1) e.2 renamed) []

def sectionValue? (n : Naming) (sectionName : String) (names lists : List String)
    (vars : Environment) : Option (Option Value) := do
  let own (v : Layer) : Option Value :=
    some (.map (if n.exact then v else withFieldNames names v))
  match Keyed.get? vars (n.variable_ sectionName) with
  | some s =>
    if n.noneWord = some s then return some .null
    match ← Json.value? s with
    | .null => return none
    | .map layer => return own (Layer.overlay (← fields? n sectionName lists vars) layer)
    | v => return some v
  | none =>
    let layer ← fields? n sectionName lists vars
    return if layer.isEmpty then none else own layer

def sections : List (String × List String × List String) :=
  [("logging", LoggingSettings.fieldNames, ["outputs"]),
   ("database", DatabaseSettings.fieldNames, [])]

def layer (n : Naming) (env : Environment) : Except Fault Layer := do
  let vars := env.visible n
  let found ← sections.mapM fun (name, names, lists) =>
    match sectionValue? n name names lists vars with
    | some v => .ok (v.map fun v => (Value.text name, v))
    | none => .error (.undecodable name)
  return found.filterMap id

end Environment

end Tablewright
