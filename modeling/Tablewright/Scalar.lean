import Tablewright.Number.Reading
import Tablewright.Text.Blank
import Tablewright.Value

namespace Tablewright

inductive Scalar where
  | whole
  | real
  | text
  | truth
  | bytes
  | anything
deriving DecidableEq, Repr

structure Misfit where
  kind : String
  reason : String
deriving DecidableEq, Repr

namespace Misfit

def textType : Misfit := ⟨"string_type", "Input should be a valid string"⟩

def textUnicode : Misfit :=
  ⟨"string_unicode", "Input should be a valid string, unable to parse raw data as a unicode string"⟩

def wholeType : Misfit := ⟨"int_type", "Input should be a valid integer"⟩

def wholeParsing : Misfit :=
  ⟨"int_parsing", "Input should be a valid integer, unable to parse string as an integer"⟩

def wholeFraction : Misfit :=
  ⟨"int_from_float", "Input should be a valid integer, got a number with a fractional part"⟩

def wholeSize : Misfit :=
  ⟨"int_parsing_size", "Unable to parse input string as an integer, exceeded maximum size"⟩

def notFinite : Misfit := ⟨"finite_number", "Input should be a finite number"⟩

def realType : Misfit := ⟨"float_type", "Input should be a valid number"⟩

def realParsing : Misfit :=
  ⟨"float_parsing", "Input should be a valid number, unable to parse string as a number"⟩

def truthType : Misfit := ⟨"bool_type", "Input should be a valid boolean"⟩

def truthParsing : Misfit :=
  ⟨"bool_parsing", "Input should be a valid boolean, unable to interpret input"⟩

def bytesType : Misfit := ⟨"bytes_type", "Input should be a valid bytes"⟩

end Misfit

namespace Scalar

def decode? (bytes : List UInt8) : Option String := String.fromUTF8? ⟨bytes.toArray⟩

def encode (s : String) : List UInt8 := s.toUTF8.toList

/-- Without the underscores that group digits: single ones, and none at an end. -/
def dropGroups? (cs : List Char) : Option (List Char) :=
  let doubled := Text.containsChars ['_', '_'] cs
  if cs.head? = some '_' || cs.getLast? = some '_' || doubled || !cs.contains '_' then none
  else some (cs.filter (· ≠ '_'))

def isLeading (c : Char) : Bool := '1' ≤ c && c ≤ '9'

def bareWhole? (cs : List Char) : Option Int :=
  let (negative, digits) := match cs with
    | '-' :: rest => (true, rest)
    | _ => (false, cs)
  if digits = ['0'] || (digits.head?.any isLeading && digits.all isDigit) then
    some (signed negative (readNat digits))
  else none

def wholeLength : Nat := 4300

/-- Whether a text starts with more digits, counting the sign, than a whole number may have. -/
def startsTooLong (cs : List Char) : Bool :=
  let (sign, digits) := match cs with
    | '-' :: rest => (1, rest)
    | _ => (0, cs)
  digits.head?.any isLeading && wholeLength < sign + (digits.takeWhile isDigit).length

/-- The part of a number from the first digit that counts. Zeros and underscores stand before that
digit or before a minus sign; of zeros before a point, or before nothing, the last one stays. -/
def dropZerosFrom (last : Char) : List Char → Option (List Char)
  | [] => some [last]
  | c :: rest =>
    if c = '0' || c = '_' then dropZerosFrom c rest
    else if isLeading c || c = '-' then some (c :: rest)
    else if c = '.' then some (last :: c :: rest)
    else none

def dropLeadingZeros : List Char → Option (List Char)
  | [] => none
  | c :: rest =>
    if c = '0' then dropZerosFrom c rest
    else if isLeading c || c = '-' then some (c :: rest)
    else none

def dropZeroPlaces (cs : List Char) : List Char :=
  match Text.cutFirst '.' cs with
  | some (before, places) =>
    if !places.isEmpty && places.all (· = '0') then before else cs
  | none => cs

/-- A whole number in a text: blanks around it, a plus sign, zeros before it, zero places after a
point and grouping underscores do not matter. -/
def readWhole? (cs : List Char) : Option Int := do
  let trimmed := Text.dropEnds Text.isBlank cs
  let unsigned := if trimmed.head? = some '+' then trimmed.tail else trimmed
  let digits := dropZeroPlaces (← dropLeadingZeros unsigned)
  let digits := (dropGroups? digits).getD digits
  if digits.length ≤ wholeLength then bareWhole? digits else none

def wholeOfText (s : String) : Except Misfit Value :=
  let cs := s.toList
  if startsTooLong cs then .error .wholeSize
  else match (bareWhole? cs).or (readWhole? cs) with
    | some n => .ok (.int n)
    | none => .error .wholeParsing

def wholeLimit : Nat := 9223372036854775808

/-- The whole number that a real is; its size has to be below the limit on both sides. -/
def boundedWhole (x : Double) : Except Misfit Int :=
  if !x.isFinite then .error .notFinite
  else match x.toInt? with
    | none => .error .wholeFraction
    | some n => if n.natAbs < wholeLimit then .ok n else .error .wholeSize

def realOfText (s : String) : Except Misfit Value :=
  let cs := s.toList
  match (Double.read? (Text.dropEnds Text.isBlank cs)).or
      ((dropGroups? cs).bind Double.read?) with
  | some x => .ok (.real x)
  | none => .error .realParsing

def truthOfInt (n : Int) : Except Misfit Value :=
  if n = 0 then .ok (.bool false) else if n = 1 then .ok (.bool true) else .error .truthParsing

def truthWords : List (String × Bool) :=
  [("0", false), ("off", false), ("f", false), ("false", false), ("n", false), ("no", false),
   ("1", true), ("on", true), ("t", true), ("true", true), ("y", true), ("yes", true)]

def truthOfText (s : String) : Except Misfit Value :=
  match truthWords.lookup (String.ofList (s.toList.map Char.toLower)) with
  | some b => .ok (.bool b)
  | none => .error .truthParsing

def ofBytes (bytes : List UInt8) (misfit : Misfit) (read : String → Except Misfit Value) :
    Except Misfit Value :=
  match decode? bytes with
  | some s => read s
  | none => .error misfit

def accept : Scalar → Value → Except Misfit Value
  | anything, v => .ok v
  | _, .codes _ => .error .textUnicode
  | text, .text s => .ok (.text s)
  | text, .blob b => ofBytes b .textUnicode fun s => .ok (.text s)
  | text, _ => .error .textType
  | bytes, .blob b => .ok (.blob b)
  | bytes, .text s => .ok (.blob (encode s))
  | bytes, _ => .error .bytesType
  | whole, .int n => .ok (.int n)
  | whole, .bool b => .ok (.int (if b then 1 else 0))
  | whole, .real x => (boundedWhole x).map .int
  | whole, .text s => wholeOfText s
  | whole, .blob b => ofBytes b .wholeParsing wholeOfText
  | whole, _ => .error .wholeType
  | real, .real x => .ok (.real x)
  | real, .int n =>
    let x := Double.ofInt n
    if x.isFinite then .ok (.real x) else .error .realType
  | real, .bool b => .ok (.real (Double.ofInt (if b then 1 else 0)))
  | real, .text s => realOfText s
  | real, .blob b => ofBytes b .realParsing realOfText
  | real, _ => .error .realType
  | truth, .bool b => .ok (.bool b)
  | truth, .int n =>
    if -(wholeLimit : Int) ≤ n && n < wholeLimit then truthOfInt n else .error .truthType
  | truth, .real x =>
    match boundedWhole x with
    | .ok n => truthOfInt n
    | .error _ => .error .truthType
  | truth, .text s => truthOfText s
  | truth, .blob b => ofBytes b .truthParsing truthOfText
  | truth, _ => .error .truthType

end Scalar

end Tablewright
