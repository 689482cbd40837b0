import Tablewright.Failure

namespace Tablewright

/-- A placeholder. Without a value one has to be supplied when the statement runs. -/
structure Param where
  value : Option Value := none
  name : Option String := none
deriving Repr, Inhabited

/-- What stands where a value belongs: a placeholder, or a value written into the text. -/
inductive Supply where
  | param (p : Param)
  | literal (v : Value)
deriving Repr

inductive Operand where
  | supply (s : Supply)
  | column (c : TableColumn)
deriving Repr

inductive Operator where
  | eq
  | ne
  | lt
  | le
  | gt
  | ge
  | like
  | is
  | isNot
deriving DecidableEq, Repr

namespace Operator

def text : Operator → String
  | eq => "="
  | ne => "!="
  | lt => "<"
  | le => "<="
  | gt => ">"
  | ge => ">="
  | like => "LIKE"
  | is => "IS"
  | isNot => "IS NOT"

def ofText? (s : String) : Option Operator :=
  [eq, ne, lt, le, gt, ge, like, is, isNot].find? (·.text == s)

end Operator

structure Comparison where
  column : TableColumn
  operator : Operator
  operand : Operand
deriving Repr

inductive Connective where
  | and
  | or
deriving DecidableEq, Repr

inductive Predicate where
  | comparison (c : Comparison)
  | group (k : Connective) (items : List Predicate)
  | stray (v : Value)
deriving Repr

def Connective.name : Connective → String
  | and => "AND"
  | or => "OR"

namespace Predicate

def notACondition (shown : String) : BuildError := .invalid ("Not a predicate: " ++ shown)

def firstStray? (ps : List Predicate) : Option BuildError :=
  ps.findSome? fun
    | stray v => some (notACondition v.shown)
    | _ => none

/-- Joins conditions into one. Members that are groups of the same kind give their own members, so
that groups stay flat; a single member stands for itself. -/
def combine (k : Connective) (ps : List Predicate) : Except BuildError Predicate :=
  if ps.isEmpty then .error (.invalid s!"{k.name} needs at least one predicate")
  else match firstStray? ps with
    | some e => .error e
    | none =>
      let items := ps.flatMap fun
        | group k' items => if k' = k then items else [group k' items]
        | p => [p]
      match items with
      | [p] => .ok p
      | items => .ok (group k items)

def restrict (current : Option Predicate) (p : Predicate) : Except BuildError Predicate :=
  match current with
  | none => .ok p
  | some q => combine .and [q, p]

def Operand.columns : Operand → List TableColumn
  | .supply _ => []
  | .column c => [c]

/-- What is met where the members of something are looked for that is no condition: a map has items,
but they are no members. -/
def strayFault : Value → Fault
  | .map _ => .unwalkable "builtin_function_or_method"
  | v => .lacks v.kind "items"

mutual

def columns : Predicate → List (Except Fault TableColumn)
  | comparison c => (c.column :: Operand.columns c.operand).map .ok
  | group _ items => columnsOf items
  | stray v => [.error (strayFault v)]

def columnsOf : List Predicate → List (Except Fault TableColumn)
  | [] => []
  | p :: rest => p.columns ++ columnsOf rest

end

end Predicate

end Tablewright
