import Mathlib.Data.List.Forall2
import Tablewright.Proofs.Statement.Token

/-! Conditions as a reader of SQL text understands them. A comparison binds tighter than `AND`, `AND`
tighter than `OR`, and parentheses tighter than either; truth has three values. -/

namespace Tablewright

inductive Truth where
  | no
  | unknown
  | yes
deriving DecidableEq, Repr

namespace Truth

def and : Truth → Truth → Truth
  | no, _ | _, no => no
  | yes, yes => yes
  | _, _ => unknown

def or : Truth → Truth → Truth
  | yes, _ | _, yes => yes
  | no, no => no
  | _, _ => unknown

end Truth

namespace Connective

def join : Connective → Truth → Truth → Truth
  | and => .and
  | or => .or

def unit : Connective → Truth
  | and => .yes
  | or => .no

@[simp] lemma unit_join (k : Connective) (a : Truth) : k.join k.unit a = a := by
  cases k <;> cases a <;> rfl

@[simp] lemma join_unit (k : Connective) (a : Truth) : k.join a k.unit = a := by
  cases k <;> cases a <;> rfl

lemma join_assoc (k : Connective) (a b c : Truth) :
    k.join (k.join a b) c = k.join a (k.join b c) := by
  cases k <;> cases a <;> cases b <;> cases c <;> rfl

end Connective

inductive Side where
  | hole
  | column (table name : List Char)
  | literal (ts : List Token)
deriving DecidableEq, Repr

structure Atom where
  table : List Char
  name : List Char
  operator : Operator
  right : Side
deriving DecidableEq, Repr

inductive Expression where
  | atom (a : Atom)
  | binary (k : Connective) (left right : Expression)
deriving DecidableEq, Repr

namespace Expression

def atoms : Expression → List Atom
  | atom a => [a]
  | binary _ left right => left.atoms ++ right.atoms

/-- The truth of an expression when its `n`-th comparison has the truth `v n`. -/
def value (v : Nat → Truth) : Expression → Truth
  | atom _ => v 0
  | binary k left right => k.join (left.value v) (right.value fun n => v (left.atoms.length + n))

def joined (k : Connective) (e : Expression) (es : List Expression) : Expression :=
  es.foldl (binary k) e

def valueAll (k : Connective) (v : Nat → Truth) : List Expression → Truth
  | [] => k.unit
  | e :: es => k.join (e.value v) (valueAll k (fun n => v (e.atoms.length + n)) es)

lemma atoms_joined (k : Connective) (e : Expression) (es : List Expression) :
    (joined k e es).atoms = e.atoms ++ es.flatMap (·.atoms) := by
  induction es generalizing e with
  | nil => simp [joined]
  | cons f es ih =>
    have hrest := ih (binary k e f)
    rw [joined] at hrest ⊢
    rw [List.foldl_cons, hrest, atoms, List.flatMap_cons, List.append_assoc]

lemma value_joined (k : Connective) (v : Nat → Truth) (e : Expression) (es : List Expression) :
    (joined k e es).value v = valueAll k v (e :: es) := by
  induction es generalizing e with
  | nil => simp [joined, valueAll]
  | cons f es ih =>
    have hrest := ih (binary k e f)
    rw [joined] at hrest ⊢
    simp only [List.foldl_cons, hrest, valueAll, value, atoms, List.length_append,
      Connective.join_assoc, Nat.add_assoc]

lemma valueAll_append (k : Connective) (v : Nat → Truth) (es fs : List Expression) :
    valueAll k v (es ++ fs) =
      k.join (valueAll k v es)
        (valueAll k (fun n => v ((es.flatMap (·.atoms)).length + n)) fs) := by
  induction es generalizing v with
  | nil => simp [valueAll]
  | cons e es ih =>
    simp only [List.cons_append, valueAll, ih, Connective.join_assoc, List.flatMap_cons,
      List.length_append, Nat.add_assoc]

end Expression

def side? : List Token → Option Side
  | [.hole] => some .hole
  | [.name t, .mark c, .name n] => if c = '.' then some (.column t n) else none
  | [.mark c, .number n] => if c = '-' then some (.literal [.mark c, .number n]) else none
  | [.number n] => some (.literal [.number n])
  | [.text t] => some (.literal [.text t])
  | [.blob ds] => some (.literal [.blob ds])
  | [.word w] => if w = ['N', 'U', 'L', 'L'] then some (.literal [.word w]) else none
  | _ => none

def Operator.tokens : Operator → List Token
  | eq => [.relation ['=']]
  | ne => [.relation ['!', '=']]
  | lt => [.relation ['<']]
  | le => [.relation ['<', '=']]
  | gt => [.relation ['>']]
  | ge => [.relation ['>', '=']]
  | like => [.word ['L', 'I', 'K', 'E']]
  | is => [.word ['I', 'S']]
  | isNot => [.word ['I', 'S'], .word ['N', 'O', 'T']]

/-- The operator at the beginning, and what follows it. `IS NOT` is looked for before `IS`. -/
def operator? (ts : List Token) : Option (Operator × List Token) :=
  [Operator.isNot, .is, .like, .eq, .ne, .lt, .le, .gt, .ge].findSome? fun o =>
    (o.tokens.isPrefixOf? ts).map fun rest => (o, rest)

def comparison? : List Token → Option Atom
  | .name t :: .mark c :: .name n :: rest =>
    if c = '.' then
      (operator? rest).bind fun found => (side? found.2).map fun right => ⟨t, n, found.1, right⟩
    else none
  | _ => none

def Side.tokens : Side → List Token
  | hole => [.hole]
  | column t n => [.name t, .mark '.', .name n]
  | literal ts => ts

def Atom.tokens (a : Atom) : List Token :=
  [.name a.table, .mark '.', .name a.name] ++ a.operator.tokens ++ a.right.tokens

def Token.connective? (t : Token) : Option Connective :=
  if t = .word ['A', 'N', 'D'] then some .and
  else if t = .word ['O', 'R'] then some .or
  else none

def Connective.token : Connective → Token
  | and => .word ['A', 'N', 'D']
  | or => .word ['O', 'R']

/-- What has been read between two parentheses: a disjunction, and after it a conjunction. -/
structure Level where
  disjunction : Option Expression := none
  conjunction : Option Expression := none
deriving Repr

namespace Level

def conjoin (l : Level) (e : Expression) : Expression :=
  match l.conjunction with
  | none => e
  | some d => .binary .and d e

def close (l : Level) (e : Expression) : Expression :=
  match l.disjunction with
  | none => l.conjoin e
  | some d => .binary .or d (l.conjoin e)

def after (l : Level) (e : Expression) : Connective → Level
  | .and => { l with conjunction := some (l.conjoin e) }
  | .or => { disjunction := some (l.close e) }

end Level

inductive Current where
  | reading (ts : List Token)
  | closed (e : Expression)
deriving Repr

def Current.expression? : Current → Option Expression
  | reading ts => (comparison? ts.reverse).map .atom
  | closed e => some e

/-- Reads an expression. The levels around the one at hand belong to parentheses that are open. -/
def parse : List Level → Level → Current → List Token → Option Expression
  | outer, l, now, [] => if outer.isEmpty then now.expression?.map l.close else none
  | outer, l, now, t :: rest =>
    match t.connective? with
    | some k => now.expression?.bind fun e => parse outer (l.after e k) (.reading []) rest
    | none =>
      if t = .mark '(' then
        match now with
        | .reading [] => parse (l :: outer) {} (.reading []) rest
        | _ => none
      else if t = .mark ')' then
        match outer with
        | [] => none
        | l' :: outer => now.expression?.bind fun e => parse outer l' (.closed (l.close e)) rest
      else
        match now with
        | .reading ts => parse outer l (.reading (t :: ts)) rest
        | .closed _ => none

def readExpression (sql : String) : Option Expression := parse [] {} (.reading []) (tokens sql)

end Tablewright
