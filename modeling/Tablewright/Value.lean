import Tablewright.Number.Shortest
import Tablewright.Schema.Shown

namespace Tablewright

/-- Something captured as a value that is none of the plain kinds. All that can be seen of it is
what kind of thing it is, how it is shown inside a message, and how it reads on its own. -/
structure Thing where
  kind : String
  shown : String
  displayed : String
deriving DecidableEq, Repr

inductive Value where
  | null
  | bool (b : Bool)
  | int (n : Int)
  | real (x : Double)
  | text (s : String)
  /-- a text that no `String` holds, since halves of surrogate pairs are among its code points -/
  | codes (points : List Nat)
  | blob (bytes : List UInt8)
  | list (items : List Value)
  | tuple (items : List Value)
  | set (items : List Value)
  | map (entries : List (Value × Value))
  /-- a container around this place, counted from the innermost one: a collection may contain
  itself -/
  | outer (depth : Nat)
  | column (c : TableColumn)
  | record (model : String) (fields : List (String × Value))
  | thing (t : Thing)
deriving Repr, Inhabited

namespace Value

def kind : Value → String
  | null => "NoneType"
  | bool _ => "bool"
  | int _ => "int"
  | real _ => "float"
  | text _ => "str"
  | codes _ => "str"
  | blob _ => "bytes"
  | list _ => "list"
  | tuple _ => "tuple"
  | set _ => "set"
  | map _ => "dict"
  | outer _ => "object"
  | column _ => "ColumnRef"
  | record model _ => model
  | thing t => t.kind

def fullKind (v : Value) : String :=
  if v.kind = "date" || v.kind = "datetime" then "datetime." ++ v.kind else v.kind

def ofCodes (points : List Nat) : Value :=
  if points.all Nat.isValidChar then .text (String.ofList (points.map Char.ofNat))
  else .codes points

mutual

/-- How a value is shown inside a message. `around` holds the marks that stand for the containers
around it where one of them is met again. -/
def shownIn (around : List String) : Value → String
  | null => "None"
  | bool b => shownBool b
  | int n => toString n
  | real x => x.shown
  | text s => Text.shown s
  | codes points => Text.shownCodes points
  | blob bytes => Text.shownBytes bytes
  | list items => "[" ++ String.intercalate ", " (shownItems ("[...]" :: around) items) ++ "]"
  | tuple items => shownRow (shownItems ("(...)" :: around) items)
  | set items =>
    if items.isEmpty then "set()"
    else "\x7b" ++ String.intercalate ", " (shownItems ("set(...)" :: around) items) ++ "\x7d"
  | map entries =>
    "\x7b" ++ String.intercalate ", " (shownEntries ("\x7b...\x7d" :: around) entries) ++ "\x7d"
  | outer depth => around.getD depth "..."
  | column c => c.shown
  | record model fields =>
    model ++ "(" ++ String.intercalate ", " (shownFields around fields) ++ ")"
  | thing t => t.shown

def shownItems (around : List String) : List Value → List String
  | [] => []
  | v :: rest => v.shownIn around :: shownItems around rest

def shownEntries (around : List String) : List (Value × Value) → List String
  | [] => []
  | (k, v) :: rest =>
    (k.shownIn around ++ ": " ++ v.shownIn around) :: shownEntries around rest

def shownFields (around : List String) : List (String × Value) → List String
  | [] => []
  | (k, v) :: rest => (k ++ "=" ++ v.shownIn around) :: shownFields around rest

end

def shown (v : Value) : String := v.shownIn []

/-- How a value reads on its own: a text is not quoted. -/
def displayed : Value → String
  | text s => s
  | codes points => String.ofList (points.map Char.ofNat)
  | thing t => t.displayed
  | v => v.shown

def isTruthy : Value → Bool
  | null => false
  | bool b => b
  | int n => n != 0
  | real x => !x.same Double.zero
  | text s => !s.isEmpty
  | blob bytes => !bytes.isEmpty
  | list items => !items.isEmpty
  | tuple items => !items.isEmpty
  | set items => !items.isEmpty
  | map entries => !entries.isEmpty
  | _ => true

def asNumber? : Value → Option (Int ⊕ Double)
  | bool b => some (.inl (if b then 1 else 0))
  | int n => some (.inl n)
  | real x =>
    match x.toInt? with
    | some n => some (.inl n)
    | none => some (.inr x)
  | _ => none

def sameKey (a b : Value) : Bool :=
  match a.asNumber?, b.asNumber? with
  | some (.inl m), some (.inl n) => m == n
  | some (.inr x), some (.inr y) => x.same y
  | none, none =>
    match a, b with
    | null, null => true
    | text s, text t => s == t
    | codes s, codes t => s == t
    | blob s, blob t => s == t
    | column c, column d => c == d
    | thing s, thing t => s == t
    | _, _ => false
  | _, _ => false

def put (key value : Value) : List (Value × Value) → List (Value × Value)
  | [] => [(key, value)]
  | (k, v) :: rest => if k.sameKey key then (k, value) :: rest else (k, v) :: put key value rest

def mapOf (entries : List (Value × Value)) : Value :=
  .map (entries.foldl (fun m e => put e.1 e.2 m) [])

def find? (name : String) (entries : List (Value × Value)) : Option Value :=
  (entries.find? fun e => e.1.sameKey (.text name)).map (·.2)

/-- Why a value cannot be a key: its kind. Collections that can change are no keys. -/
def unhashable? : Value → Option String
  | list _ => some "list"
  | set _ => some "set"
  | map _ => some "dict"
  | record model _ => some model
  | _ => none

mutual

/-- Puts a value, which may depend on the depth of the place, where a container around this place is
meant. -/
def replaceOuter (put : Nat → Value) (depth : Nat) : Value → Value
  | outer n => if n = depth then put depth else .outer n
  | list items => .list (replaceItems put (depth + 1) items)
  | tuple items => .tuple (replaceItems put (depth + 1) items)
  | map entries => .map (replaceEntries put (depth + 1) entries)
  | v => v

def replaceItems (put : Nat → Value) (depth : Nat) : List Value → List Value
  | [] => []
  | v :: rest => v.replaceOuter put depth :: replaceItems put depth rest

def replaceEntries (put : Nat → Value) (depth : Nat) :
    List (Value × Value) → List (Value × Value)
  | [] => []
  | (k, v) :: rest => (k, v.replaceOuter put depth) :: replaceEntries put depth rest

end

/-- The items of a collection, each as a value of its own. Where an item contains the collection,
the collection is put there, and it contains that item in turn. -/
def freeItems (rebuild : List Value → Value) (items : List Value) : List Value :=
  items.zipIdx.map fun (v, n) =>
    v.replaceOuter (fun depth => rebuild (items.set n (.outer depth))) 0

def freeEntries (entries : List (Value × Value)) : List (Value × Value) :=
  let keys := entries.map (·.1)
  keys.zip (freeItems (fun values => .map (keys.zip values)) (entries.map (·.2)))

end Value

end Tablewright
