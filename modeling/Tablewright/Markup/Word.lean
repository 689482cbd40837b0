import Tablewright.Markup.Flaw
import Tablewright.Markup.Moment
import Tablewright.Markup.Node
import Tablewright.Number.Numeral
import Tablewright.Text.Base64
import Tablewright.Text.CaseMap

namespace Tablewright.Markup

def spellings (word : String) : List String := [word, word.capitalize, word.map Char.toUpper]

def nullWords : List String := "" :: "~" :: spellings "null"

def truthOf? (word : String) : Option Bool :=
  if (["yes", "true", "on"].flatMap spellings).contains word then some true
  else if (["no", "false", "off"].flatMap spellings).contains word then some false
  else none

def isGrouped (digit : Char → Bool) (cs : List Char) : Bool :=
  cs.all fun c => digit c || c = '_'

def isGroupedFrom (first : Char → Bool) (cs : List Char) : Bool :=
  cs.head?.any first && isGrouped isDigit cs

def ungrouped (cs : List Char) : List Char := cs.filter (· ≠ '_')

def isSixtieth (cs : List Char) : Bool :=
  match cs with
  | [a] => isDigit a
  | [a, b] => isDigit a && a < '6' && isDigit b
  | _ => false

def readSixty (parts : List (List Char)) : Nat :=
  parts.foldl (fun n part => 60 * n + readNat part) 0

def isNatural (cs : List Char) : Bool :=
  let filled (p : Char → Bool) (digits : List Char) : Bool :=
    !digits.isEmpty && isGrouped p digits
  match cs with
  | ['0'] => true
  | '0' :: 'b' :: rest => filled (fun c => c = '0' || c = '1') rest
  | '0' :: 'x' :: rest => filled (fun c => digitValue c < 16) rest
  | '0' :: rest => isGrouped (fun c => '0' ≤ c && c ≤ '7') rest
  | _ =>
    match Text.splitChars ':' cs with
    | first :: others => isGroupedFrom isDigit first && others.all isSixtieth
    | [] => false

def isExponent : List Char → Bool
  | [] => true
  | e :: s :: rest =>
    (e = 'e' || e = 'E') && (s = '+' || s = '-') && !rest.isEmpty && rest.all isDigit
  | _ => false

def isDecimal (hasSign : Bool) (cs : List Char) : Bool :=
  match Text.cutFirst '.' cs with
  | none => false
  | some (whole, rest) =>
    let isPlace (c : Char) : Bool := isDigit c || c = '_'
    let places := rest.takeWhile isPlace
    let exponent := rest.dropWhile isPlace
    match Text.splitChars ':' whole with
    | [whole] =>
      (if whole.isEmpty then !hasSign && places.head?.any isDigit else isGroupedFrom isDigit whole)
        && isExponent exponent
    | first :: others => isGroupedFrom isDigit first && others.all isSixtieth && exponent.isEmpty
    | [] => false

def infinityWords : List String := [".inf", ".Inf", ".INF"]

def nanWords : List String := [".nan", ".NaN", ".NAN"]

/-- What a word is by its form. The mark of a missing tag is a word too, which means nothing. -/
def formOf (word : String) : NodeKind :=
  let cs := word.toList
  let rest := (takeSign cs).2
  if nullWords.contains word then .null
  else if (truthOf? word).isSome then .truth
  else if infinityWords.contains (String.ofList rest) || nanWords.contains word ||
      isDecimal (rest.length ≠ cs.length) rest then .real
  else if isNatural rest then .whole
  else if word = "<<" then .merge
  else if isMoment cs then .moment
  else if word = "=" then .standIn
  else if ["!", "&", "*"].contains word then .unknown
  else .text

def formOfPoints (points : List Nat) : NodeKind :=
  match Value.ofCodes points with
  | .text s =>
    match s.toList.reverse with
    | '\n' :: c :: rest => formOf (String.ofList (c :: rest).reverse)
    | '\n' :: [] => .text
    | _ => formOf s
  | _ => .text

def sixties (parts : List Int) : Int := parts.foldl (fun n part => 60 * n + part) 0

def realSixties (parts : List Double) : Except Fault Double := do
  let weigh (sum : Double × Nat) (part : Double) : Except Fault (Double × Nat) := do
    let unit := Double.ofInt sum.2
    if !unit.isFinite then throw .numberTooLarge
    return (sum.1.add (part.mul unit), sum.2 * 60)
  return (← parts.reverse.foldlM weigh (Double.zero, 1)).1

def signedWord (word : List Char) : Except Flaw (Bool × List Char) :=
  match word.filter (· ≠ '_') with
  | [] => .error (.fault (.pastEnd "string"))
  | cs => .ok (takeSign cs)

def wholeOf (word : List Char) : Except Flaw Value := do
  let (negative, cs) ← signedWord word
  let read (base : Nat) (cs : List Char) : Except Flaw Int :=
    (Numeral.whole base cs).mapError .senseless
  let size ← match cs with
    | [] => throw (.fault (.pastEnd "string"))
    | ['0'] => pure 0
    | '0' :: 'b' :: rest => read 2 rest
    | '0' :: 'x' :: rest => read 16 rest
    | '0' :: _ => read 8 cs
    | _ => pure (sixties (← (Text.splitChars ':' cs).mapM (read 10)))
  return .int (if negative then -size else size)

def realOf (word : List Char) : Except Flaw Value := do
  let (negative, cs) ← signedWord (Text.lowercase (String.ofList word)).toList
  let read (cs : List Char) : Except Flaw Double := (Numeral.real cs).mapError .senseless
  let size ←
    if cs = ".inf".toList then pure Double.infinity
    else if cs = ".nan".toList then pure Double.notANumber
    else match Text.splitChars ':' cs with
      | [_] => read cs
      | parts => (realSixties (← parts.mapM read)).mapError .fault
  return .real (if negative then size.neg else size)

def truthOf (word : String) : Except Flaw Value :=
  let lower := Text.lowercase word
  match truthOf? lower with
  | some b => .ok (.bool b)
  | none => .error (.fault (.unknownKey (Text.shown lower)))

def momentOf (word : List Char) : Except Flaw Value :=
  let cs := if word.getLast? = some '\n' then word.dropLast else word
  match moment? cs with
  | some r => r.mapError .senseless
  | none => .error (.fault (.lacks "NoneType" "groupdict"))

def scalarOf (kind : NodeKind) (points : List Nat) : Except Flaw Value :=
  let value := Value.ofCodes points
  let shown := Text.shownCodes points
  match kind, value with
  | .null, _ => .ok .null
  | .text, v => .ok v
  | .truth, .text s => truthOf s
  | .truth, _ => .error (.fault (.unknownKey shown))
  | .whole, .text s => wholeOf s.toList
  | .whole, _ => .error (.senseless s!"invalid literal for int() with base 10: {shown}")
  | .real, .text s => realOf s.toList
  | .real, _ => .error (.senseless s!"could not convert string to float: {shown}")
  | .moment, .text s => momentOf s.toList
  | .moment, _ => .error (.fault (.lacks "NoneType" "groupdict"))
  | .bytes, _ => (orMalformed (Text.base64? points)).map .blob
  | _, _ => .error .malformed

end Tablewright.Markup
