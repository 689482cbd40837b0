import Tablewright.Signature
import Tablewright.Statement.Basic

namespace Tablewright

/-- The arguments of an operation of which all but the optional parameters must be given. -/
def takeArguments (operation : String) (receiver : Option String) (required : List String)
    (optional : List String) (args : List Term) : Except Failure (Arguments Term) :=
  let signature : Signature := { operation, receiver, required, optional }
  (signature.bind args).mapError .fault

def Opening.ofCall (name : String) (args : List Term) : Except Failure Opening := do
  if name = "select" then return .select args
  let table := (← takeArguments name none ["table"] [] args).get "table"
  return match name with
    | "update" => .update table
    | "delete_from" => .delete table
    | _ => .insert table

def Statement.steps : Statement → List (String × List String × List String)
  | .select _ =>
    [("from_", ["table"], []), ("inner_join", ["table", "on"], []), ("where", ["predicate"], []),
     ("order_by", ["column"], ["descending"]), ("limit", ["count"], [])]
  | .insert _ => [("values", ["values"], []), ("returning", [], [])]
  | .update _ => [("set", ["values"], []), ("where", ["predicate"], []), ("returning", [], [])]
  | .delete _ => [("where", ["predicate"], []), ("returning", [], [])]
  | .ddl _ => []

def Step.ofArguments (name : String) (a : Arguments Term) : Step :=
  match name with
  | "from_" => .source (a.get "table")
  | "inner_join" => .innerJoin (a.get "table") (a.get "on")
  | "where" => .restrict (a.get "predicate")
  | "order_by" => .sortBy (a.get "column") (a.get "descending").capture.isTruthy
  | "limit" => .limit (a.get "count")
  | "values" => .values (a.get "values")
  | "set" => .assign (a.get "values")
  | _ => .returning

/-- Takes the step of a name. Whether the statement has it comes before what it takes. -/
def Statement.call (s : Statement) (name : String) (args : List Term) :
    Except Failure Statement := do
  match s.steps.lookup name with
  | none => throw (.fault (.lacks s.kind name))
  | some (required, optional) =>
    let a ← takeArguments (s.kind ++ "." ++ name) (some "self") required optional args
    s.step (.ofArguments name a)

namespace Term

def mapOf (entries : List (Value × Term)) : Except Failure Term :=
  match entries.findSome? fun e => e.1.unhashable? with
  | some kind => .error (.fault (.unhashable kind))
  | none => .ok (.map (entries.foldl (fun m e => put e.1 e.2 m) []))

def comparisons : List (String × Operator × String) :=
  [("eq", .eq, "value"), ("ne", .ne, "value"), ("lt", .lt, "value"), ("le", .le, "value"),
   ("gt", .gt, "value"), ("ge", .ge, "value"), ("like", .like, "pattern")]

def nullTests : List (String × Operator) := [("is_null", .is), ("is_not_null", .isNot)]

/-- The condition of a name; a group that is made directly takes any members as they are. -/
def condition (name : String) (args : List Term) : Except Failure Term := do
  let take (required : List String) := takeArguments name none required [] args
  match comparisons.lookup name, nullTests.lookup name, name with
  | some (op, right), _, _ =>
    let a ← take ["column", right]
    return predicate (← compare (a.get "column") (.text op.text) (a.get right))
  | none, some op, _ =>
    let a ← take ["column"]
    return predicate (← compare (a.get "column") (.text op.text) (.supply (.literal .null)))
  | none, none, "compare" =>
    let a ← take ["column", "operator", "value"]
    return predicate (← compare (a.get "column") (a.get "operator").capture (a.get "value"))
  | none, none, "and_" => (combine .and args).mapError .build
  | none, none, "or_" => (combine .or args).mapError .build
  | none, none, "And" => return predicate (.group .and (args.map asMember))
  | none, none, "Or" => return predicate (.group .or (args.map asMember))
  | none, none, _ => throw (.fault (.unknownKey (Text.shown name)))

end Term

end Tablewright
