import Tablewright.Failure
import Tablewright.Scalar

namespace Tablewright

inductive Checked (α : Type) where
  | good (a : α)
  | bad (first : Issue) (others : List Issue)
  | broken (f : Fault)

inductive Refusal where
  | misfit (m : Misfit)
  | fault (f : Fault)

namespace Checked

variable {α β : Type}

instance : Applicative Checked where
  pure := good
  seq f x :=
    match f with
    | broken e => broken e
    | good f =>
      match x () with
      | good a => good (f a)
      | bad i others => bad i others
      | broken e => broken e
    | bad i others =>
      match x () with
      | good _ => bad i others
      | bad j more => bad i (others ++ j :: more)
      | broken e => broken e

def toExcept : Checked α → Except Failure α
  | good a => .ok a
  | bad i others => .error (.misfit (i :: others))
  | broken f => .error (.fault f)

def ofRefusal (input : Value) : Except Refusal α → Checked α
  | .ok a => good a
  | .error (.misfit m) => bad ⟨[], m.kind, m.reason, input⟩ []
  | .error (.fault f) => broken f

def ofMisfit (input : Value) (r : Except Misfit α) : Checked α :=
  ofRefusal input (r.mapError .misfit)

def under (name : String) : Checked α → Checked α
  | good a => good a
  | bad i others => bad (lower i) (others.map lower)
  | broken f => broken f
where
  lower (i : Issue) : Issue := { i with place := name :: i.place }

def each (read : Value → Checked α) (start : Nat) : List Value → Checked (List α)
  | [] => good []
  | v :: rest => List.cons <$> (read v).under (toString start) <*> each read (start + 1) rest

def field (entries : List (Value × Value)) (name : String) (fallback : α)
    (read : Value → Checked α) : Checked α :=
  match Value.find? name entries with
  | some v => (read v).under name
  | none => good fallback

def fields (name : String) (read : List (Value × Value) → Checked α) : Value → Checked α
  | .map entries => read (Value.freeEntries entries)
  | v => ofMisfit v
    (.error ⟨"model_type", s!"Input should be a valid dictionary or instance of {name}"⟩)

def list (read : Value → Checked α) : Value → Checked (List α)
  | .list items => each read 0 (Value.freeItems .list items)
  | .tuple items => each read 0 (Value.freeItems .tuple items)
  | .set items => each read 0 items
  | v => ofMisfit v (.error ⟨"list_type", "Input should be a valid list"⟩)

def text (v : Value) : Except Misfit String :=
  (Scalar.text.accept v).bind fun
    | .text s => .ok s
    | _ => .error .textType

def whole (v : Value) : Except Misfit Int :=
  (Scalar.whole.accept v).bind fun
    | .int n => .ok n
    | _ => .error .wholeType

def real (v : Value) : Except Misfit Double :=
  (Scalar.real.accept v).bind fun
    | .real x => .ok x
    | _ => .error .realType

def truth (v : Value) : Except Misfit Bool :=
  (Scalar.truth.accept v).bind fun
    | .bool b => .ok b
    | _ => .error .truthType

def count (v : Value) : Except Misfit Nat :=
  (whole v).bind fun n =>
    if n < 0 then .error ⟨"value_error", s!"Value error, must be >= 0, got {n}"⟩
    else .ok n.toNat

end Checked

class Choice (α : Type) where
  all : List (String × α)

namespace Choice

variable {α : Type} [Choice α]

def listed : List String → String
  | [] => ""
  | [w] => s!"'{w}'"
  | [v, w] => s!"'{v}' or '{w}'"
  | w :: rest => s!"'{w}', " ++ listed rest

def read? (word : String) : Option α := (all (α := α)).lookup word

def accept : Value → Except Misfit α
  | .text s =>
    match read? s with
    | some a => .ok a
    | none => .error misfit
  | .codes _ => .error .textUnicode
  | _ => .error misfit
where
  misfit : Misfit :=
    ⟨"literal_error", "Input should be " ++ listed ((all (α := α)).map (·.1))⟩

def word [DecidableEq α] (a : α) : String :=
  ((all.find? fun e => e.2 = a).map (·.1)).getD ""

end Choice

end Tablewright
