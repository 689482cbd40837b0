import Tablewright.Text.CaseMap
import Tablewright.Text.Search
import Tablewright.Value

/-! Telling from the text of an engine's error that the database is locked. The text holds the
statement and its parameters besides the message, so all of them count. -/

namespace Tablewright.Lock

def isLockText (s : String) : Bool :=
  let s := Text.lowercase s
  Text.contains "database is locked" s || Text.contains "database is busy" s

def shownParameters (values : List Value) : String :=
  let cs := (shownRow (values.map (·.shown))).toList
  if cs.length ≤ 300 then String.ofList cs
  else
    String.ofList (cs.take 150) ++ s!" ... ({cs.length - 300} characters truncated) ... " ++
      String.ofList (cs.drop (cs.length - 150))

def errorText (message sql : String) (values : List Value) : String :=
  "(builtins.Exception) " ++ message ++ "\n[SQL: " ++ sql ++ "]" ++
    if values.isEmpty then "" else "\n[parameters: " ++ shownParameters values ++ "]"

end Tablewright.Lock
