import Tablewright.Statement.Predicate

namespace Tablewright

structure Count where
  column : Option TableColumn := none
  label : String := "count"
deriving Repr

structure Instance where
  fields : List (String × Value × Bool)
deriving Repr

inductive Term where
  | value (v : Value)
  | table (t : Table)
  | column (c : TableColumn)
  | supply (s : Supply)
  | count (c : Count)
  | predicate (p : Predicate)
  | map (entries : List (Value × Term))
  | model (m : Instance)
deriving Repr, Inhabited

def shownValue : Option Value → String
  | none => "UNSET"
  | some v => v.shown

def Param.shown (p : Param) : String :=
  shownParts "Param" [("value", shownValue p.value), ("name", shownOption Text.shown p.name)]

def Supply.shown : Supply → String
  | .param p => p.shown
  | .literal v => shownParts "Literal" [("value", v.shown)]

def Operand.shown : Operand → String
  | .supply s => s.shown
  | .column c => c.shown

def Comparison.shown (c : Comparison) : String :=
  shownParts "Comparison" [("column", c.column.shown), ("operator", Text.shown c.operator.text),
    ("operand", c.operand.shown)]

def Connective.kind : Connective → String
  | and => "And"
  | or => "Or"

def Count.shown (c : Count) : String :=
  shownParts "Count" [("column", shownOption (·.shown) c.column), ("alias", Text.shown c.label)]

namespace Predicate

mutual

def shown : Predicate → String
  | comparison c => c.shown
  | group k items => shownParts k.kind [("items", shownRow (shownItems items))]
  | stray v => v.shown

def shownItems : List Predicate → List String
  | [] => []
  | p :: rest => p.shown :: shownItems rest

end

def kind : Predicate → String
  | comparison _ => "Comparison"
  | group k _ => k.kind
  | stray v => v.kind

end Predicate

namespace Instance

def shown (m : Instance) : String :=
  shownParts "Model" (m.fields.map fun f => (f.1, f.2.1.shown))

def entries (m : Instance) (givenOnly : Bool) : List (String × Value) :=
  (m.fields.filter fun f => f.2.2 || !givenOnly).map fun f => (f.1, f.2.1)

end Instance

namespace Term

def thing (kind shown : String) : Value := .thing ⟨kind, shown, shown⟩

mutual

def capture : Term → Value
  | value v => v
  | table t => thing "TableRef" t.shown
  | column c => .column c
  | supply (.param p) => thing "Param" p.shown
  | supply (.literal v) => thing "Literal" (Supply.literal v).shown
  | count c => thing "Count" c.shown
  | predicate (.stray v) => v
  | predicate p => thing p.kind p.shown
  | map entries => .map (captureEntries entries)
  | model m => thing "Model" m.shown

def captureEntries : List (Value × Term) → List (Value × Value)
  | [] => []
  | (k, t) :: rest => (k, t.capture) :: captureEntries rest

end

def shown (t : Term) : String := t.capture.shown

def displayed (t : Term) : String := t.capture.displayed

def notCompilable (t : Term) : BuildError := .invalid ("Cannot compile " ++ t.shown)

def notAStatement (v : Value) : BuildError := .invalid ("Not a statement: " ++ v.shown)

def put (key : Value) (t : Term) : List (Value × Term) → List (Value × Term)
  | [] => [(key, t)]
  | (k, u) :: rest => if k.sameKey key then (k, t) :: rest else (k, u) :: put key t rest

def asTable : Term → Except BuildError Table
  | table t => .ok t
  | t => .error (.invalid ("Expected a table from SchemaModel.table(), got " ++ t.shown))

def asMember : Term → Predicate
  | predicate p => p
  | t => .stray t.capture

def ofMember : Predicate → Term
  | .stray (.column c) => column c
  | .stray v => value v
  | p => predicate p

def asPredicate : Term → Except BuildError Predicate
  | predicate (.stray v) => .error (Predicate.notACondition v.shown)
  | predicate p => .ok p
  | t => .error (Predicate.notACondition t.shown)

/-- Anything that is no placeholder or literal becomes the value of a placeholder. -/
def asSupply : Term → Supply
  | supply s => s
  | t => .param { value := some t.capture }

def asOperand : Term → Operand
  | column c => .column c
  | t => .supply t.asSupply

def compare (left : Term) (operator : Value) (right : Term) : Except Failure Predicate :=
  let name := operator.displayed
  match left, operator.unhashable? with
  | column _, some kind => .error (.fault (.unhashable kind))
  | column c, none =>
    match Operator.ofText? name with
    | some op => .ok (.comparison ⟨c, op, right.asOperand⟩)
    | none => .error (.build (.invalid s!"Unsupported operator '{name}'"))
  | t, _ =>
    .error (.build (.invalid
      (s!"Left side of '{name}' must be a table column, got " ++ t.shown)))

def combine (k : Connective) (terms : List Term) : Except BuildError Term :=
  (Predicate.combine k (terms.map asMember)).map ofMember

def countOf (column : Term) (label : String) : Except BuildError Count :=
  match column with
  | .value .null => .ok ⟨none, label⟩
  | .column c => .ok ⟨some c, label⟩
  | t => .error (.invalid ("COUNT needs a table column, got " ++ t.shown))

end Term

end Tablewright
