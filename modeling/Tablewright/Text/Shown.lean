import Tablewright.Text.Printable
import Tablewright.Text.Search

namespace Tablewright.Text

/-- A single quote, unless the text holds one and no double quote. -/
def shownQuote (cs : List Char) : Char :=
  if cs.contains '\'' && !cs.contains '"' then '"' else '\''

def showCode (n : Nat) : List Char :=
  if n < 0x100 then '\\' :: 'x' :: (hex 2 n).toList
  else if n < 0x10000 then '\\' :: 'u' :: (hex 4 n).toList
  else '\\' :: 'U' :: (hex 8 n).toList

def showChar (quote c : Char) : List Char :=
  if c = '\\' then ['\\', '\\']
  else if c = quote then ['\\', quote]
  else if c = '\n' then ['\\', 'n']
  else if c = '\r' then ['\\', 'r']
  else if c = '\t' then ['\\', 't']
  else if isPrintable c then [c]
  else showCode c.toNat

def shown (s : String) : String :=
  let quote := shownQuote s.toList
  String.ofList (quote :: s.toList.flatMap (showChar quote) ++ [quote])

def shownCodes (codes : List Nat) : String :=
  let quote := shownQuote (codes.map Char.ofNat)
  String.ofList (quote :: codes.flatMap (fun n =>
    if n.isValidChar then showChar quote (Char.ofNat n) else showCode n) ++ [quote])

def showByte (quote : Char) (b : UInt8) : List Char :=
  if b.toNat < 127 then showChar quote (Char.ofNat b.toNat) else showCode b.toNat

def shownBytes (bytes : List UInt8) : String :=
  let quote := shownQuote (bytes.map fun b => Char.ofNat b.toNat)
  String.ofList ('b' :: quote :: bytes.flatMap (showByte quote) ++ [quote])

end Tablewright.Text
