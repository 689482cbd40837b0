import Tablewright.Number.Reading
import Tablewright.Value

namespace Tablewright.Json

abbrev Read := StateT (List Char) Option

def isSpace (c : Char) : Bool := c = ' ' || c = '\n' || c = '\r' || c = '\t'

def skipSpace : Read Unit := modify (·.dropWhile isSpace)

def accept (s : String) : Read Bool := do
  let cs ← get
  if s.toList.isPrefixOf cs then set (cs.drop s.length); return true else return false

def expect (s : String) : Read Unit := do
  if !(← accept s) then failure

def take : Read Char := do
  match ← get with
  | c :: rest => set rest; return c
  | [] => failure

def digits : Read (List Char) := do
  let cs ← get
  set (cs.dropWhile isDigit)
  return cs.takeWhile isDigit

def lift {α : Type} (x : Option α) : Read α :=
  match x with
  | some a => return a
  | none => failure

def isHexDigit (c : Char) : Bool := digitValue c < 16

def unit : Read Nat := do
  let cs ← get
  let code := cs.take 4
  if code.length < 4 || !code.all isHexDigit then failure
  set (cs.drop 4)
  return readBase 16 code

def isHigh (n : Nat) : Bool := 0xd800 ≤ n && n < 0xdc00

def isLow (n : Nat) : Bool := 0xdc00 ≤ n && n < 0xe000

/-- A code point. Beyond the first plane it is written as a pair of surrogates; half of a pair
stands for itself. -/
def codePoint : Read Nat := do
  let high ← unit
  let after ← get
  if isHigh high && (← accept "\\u") then
    let low ← unit
    if isLow low then return 0x10000 + (high - 0xd800) * 0x400 + (low - 0xdc00)
    set after
  return high

def escapes : List (Char × Char) :=
  [('"', '"'), ('\\', '\\'), ('/', '/'), ('b', '\x08'), ('f', '\x0c'), ('n', '\n'), ('r', '\r'),
   ('t', '\t')]

def quotedRest : Nat → Read (List Nat)
  | 0 => failure
  | fuel + 1 => do
    let c ← take
    if c = '"' then return []
    if c.toNat < 0x20 then failure
    let n ← if c ≠ '\\' then pure c.toNat else do
      let e ← take
      if e = 'u' then codePoint else (·.toNat) <$> lift (escapes.lookup e)
    return n :: (← quotedRest fuel)

def text : Read Value := do
  return Value.ofCodes (← quotedRest ((← get).length + 1))

def wholeDigits : Read (List Char) := do
  if ← accept "0" then return ['0']
  let ds ← digits
  if ds.isEmpty then failure
  return ds

def digitsAfter (mark : List Char → Option (List Char × List Char)) : Read (List Char) := do
  let cs ← get
  match mark cs with
  | some (read, rest) =>
    if rest.head?.any isDigit then
      set rest
      return read ++ (← digits)
    else return []
  | none => return []

def point : List Char → Option (List Char × List Char)
  | '.' :: rest => some (['.'], rest)
  | _ => none

def exponent : List Char → Option (List Char × List Char)
  | e :: rest =>
    if e ≠ 'e' && e ≠ 'E' then none
    else match rest with
      | '+' :: rest => some (['e', '+'], rest)
      | '-' :: rest => some (['e', '-'], rest)
      | rest => some (['e'], rest)
  | [] => none

def number : Read Value := do
  let negative ← accept "-"
  if negative && (← accept "Infinity") then return .real Double.infinity.neg
  let whole ← wholeDigits
  let places ← digitsAfter point
  let scale ← digitsAfter exponent
  if places.isEmpty && scale.isEmpty then return .int (signed negative (readNat whole))
  match readDecimal? (whole ++ places ++ scale) with
  | some (ds, exp) => return .real (Double.ofDecimal negative ds exp)
  | none => failure

def words : List (String × Value) :=
  [("null", .null), ("true", .bool true), ("false", .bool false), ("NaN", .real .notANumber),
   ("Infinity", .real .infinity)]

def word : List (String × Value) → Read Value
  | [] => number
  | (w, v) :: rest => do
    if ← accept w then return v else word rest

mutual

def value : Nat → Read Value
  | 0 => failure
  | fuel + 1 => do
    skipSpace
    if ← accept "\"" then return ← text
    if ← accept "[" then
      skipSpace
      if ← accept "]" then return .list []
      return .list (← items fuel)
    if ← accept "\x7b" then
      skipSpace
      if ← accept "\x7d" then return .map []
      return Value.mapOf (← entries fuel)
    word words

def items : Nat → Read (List Value)
  | 0 => failure
  | fuel + 1 => do
    let v ← value fuel
    skipSpace
    if ← accept "," then return v :: (← items fuel)
    expect "]"
    return [v]

def entries : Nat → Read (List (Value × Value))
  | 0 => failure
  | fuel + 1 => do
    skipSpace
    expect "\""
    let k ← text
    skipSpace
    expect ":"
    let v ← value fuel
    skipSpace
    if ← accept "," then return (k, v) :: (← entries fuel)
    expect "\x7d"
    return [(k, v)]

end

def value? (s : String) : Option Value := do
  let cs := s.toList
  let (v, rest) ← (value (cs.length + 1)).run cs
  if rest.all isSpace then some v else none

end Tablewright.Json
