import Tablewright.Failure
import Tablewright.Scalar

namespace Tablewright

inductive FieldType (M : Type) where
  | scalar (s : Scalar)
  | model (m : M)
deriving Repr

structure Field (M : Type) where
  name : String
  type : FieldType M
  optional : Bool := false
  keyName : Option String := none
  fallback : Option Value := none
deriving Repr

/-- A model. Models are told apart by their numbers; two may have the same name. -/
inductive Model where
  | mk (number : Nat) (name : String) (binding : Option String) (fields : List (Field Model))
deriving Repr

namespace Field

variable {M : Type}

def inputName (f : Field M) : String := f.keyName.getD f.name

def key (f : Field M) : String :=
  match f.keyName with
  | some a => if a.isEmpty then f.name else a
  | none => f.name

def required (f : Field M) : Bool := f.fallback.isNone

/-- The model that a field holds an instance of. An optional model is a plain value. -/
def part? (f : Field M) : Option M :=
  match f.type with
  | .model m => if f.optional then none else some m
  | .scalar _ => none

end Field

namespace Model

def number : Model → Nat
  | mk number _ _ _ => number

def name : Model → String
  | mk _ name _ _ => name

def binding : Model → Option String
  | mk _ _ binding _ => binding

def fields : Model → List (Field Model)
  | mk _ _ _ fields => fields

/-- The value of a field under its key; of entries with the same key the last one counts. -/
def given (key : String) (row : List (String × Value)) : Option Value := row.reverse.lookup key

def misplaced (name key : String) (v : Value) : Issue :=
  ⟨[key], "model_type", s!"Input should be a valid dictionary or instance of {name}", v⟩

def entriesOf : Value → Option (List (String × Value))
  | .map entries => some (entries.filterMap fun e =>
      match e.1 with
      | .text s => some (s, e.2)
      | _ => none)
  | _ => none

mutual

def accept : Model → List (String × Value) → Except (List Issue) Value
  | mk _ name _ fields, row =>
    match acceptFields fields row with
    | (fields, []) => .ok (.record name fields)
    | (_, issues) => .error issues

def acceptFields : List (Field Model) → List (String × Value) → List (String × Value) × List Issue
  | [], _ => ([], [])
  | f :: rest, row =>
    let (fields, issues) := acceptFields rest row
    match acceptField f row with
    | .ok v => ((f.name, v) :: fields, issues)
    | .error here => (fields, here ++ issues)

def acceptField : Field Model → List (String × Value) → Except (List Issue) Value
  | ⟨name, type, optional, keyName, fallback⟩, row =>
    let key := Field.inputName ⟨name, type, optional, keyName, fallback⟩
    match given key row, fallback with
    | none, some v => .ok v
    | none, none =>
      let input := Value.map (row.map fun e => (.text e.1, e.2))
      .error [⟨[key], "missing", "Field required", input⟩]
    | some v, _ =>
      if optional && v matches .null then .ok .null
      else match type with
        | .scalar s =>
          (s.accept v).mapError fun m => [⟨[key], m.kind, m.reason, v⟩]
        | .model m =>
          match v with
          | .record name fields =>
            if name = m.name then .ok (.record name fields) else .error [misplaced m.name key v]
          | v =>
            match entriesOf v with
            | none => .error [misplaced m.name key v]
            | some row =>
              (accept m row).mapError fun issues =>
                issues.map fun i => { i with place := key :: i.place }

end

end Model

end Tablewright
