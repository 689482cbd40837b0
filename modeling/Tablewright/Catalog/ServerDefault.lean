import Tablewright.Fault
import Tablewright.Text.CaseMap
import Tablewright.Text.Doubled
import Tablewright.Text.WordChar

namespace Tablewright

inductive ServerDefault where
  | absent
  | text (s : String)
  | sql (s : String)
  | call (s : String)
deriving DecidableEq, Repr

namespace ServerDefault

def isNameChar (c : Char) : Bool := Text.isWordChar c || c = '$'

/-- Takes away the backslash that keeps a colon from starting the name of a parameter. There is no
such name where another colon follows it. -/
def plainColons : List Char → List Char
  | [] => []
  | '\\' :: ':' :: rest =>
    if (rest.dropWhile isNameChar).head? = some ':' then '\\' :: ':' :: plainColons rest
    else ':' :: plainColons rest
  | c :: rest => c :: plainColons rest

def clause : ServerDefault → Option String
  | absent => none
  | text s => some (Text.enclose '\'' s)
  | sql s => some (String.ofList (plainColons s.toList))
  | call s => some s

def knownCalls : List (String × String) :=
  [("current_date", "CURRENT_DATE"), ("current_time", "CURRENT_TIME"),
   ("current_timestamp", "CURRENT_TIMESTAMP"), ("current_user", "CURRENT_USER"),
   ("localtime", "LOCALTIME"), ("localtimestamp", "LOCALTIMESTAMP"),
   ("session_user", "SESSION_USER"), ("user", "USER"), ("sysdate", "sysdate"),
   ("cube", "CUBE()"), ("rollup", "ROLLUP()"), ("grouping_sets", "GROUPING SETS()"),
   ("count", "count(*)")] ++
  ["array_agg", "coalesce", "concat", "cume_dist", "dense_rank", "max", "min", "mode", "now",
   "percent_rank", "percentile_cont", "percentile_disc", "random", "rank", "sum"].map
    fun name => (name, name ++ "()")

/-- Known functions that cannot be called with nothing, and what they are called with. -/
def needyCalls : List (String × List String) :=
  [("aggregate_strings", ["clause", "separator"]), ("char_length", ["arg"]),
   ("next_value", ["seq"])]

def functionName (name : String) : String :=
  if name.toList.all fun c => c.isAlphanum || c = '_' || c = '$' then name
  else Text.enclose '"' name

/-- The call of a function. One underscore at the end of a name is left out, so that words with
another meaning can be named. -/
def ofFunction (given : String) : Except Fault ServerDefault :=
  let name :=
    if given.endsWith "_" then String.ofList given.toList.dropLast else given
  let known := Text.lowercase name
  match knownCalls.lookup known, needyCalls.lookup known with
  | some written, _ => .ok (call written)
  | none, some needs => .error (.arguments (known ++ ".__init__") (.missing needs))
  | none, none =>
    if name.isEmpty then .error (.pastEnd "string") else .ok (call (functionName name ++ "()"))

end ServerDefault

end Tablewright
