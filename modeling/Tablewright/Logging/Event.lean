import Tablewright.Logging.Scope
import Tablewright.Settings.Model
import Tablewright.Text.UpperCase

namespace Tablewright

def severities : List (String × Int) :=
  [("CRITICAL", 50), ("FATAL", 50), ("ERROR", 40), ("WARNING", 30), ("WARN", 30), ("INFO", 20),
   ("DEBUG", 10), ("NOTSET", 0)]

def severityOf (name : Option String) (fallback : Int) : Int :=
  (name.bind fun n => severities.lookup (Text.uppercase n)).getD fallback

namespace LogLevel

def severity : LogLevel → Int
  | debug => 10
  | info => 20
  | warning => 30
  | error => 40
  | critical => 50

def label : LogLevel → String
  | debug => "debug"
  | info => "info"
  | warning => "warning"
  | error => "error"
  | critical => "critical"

end LogLevel

def LogLevel.ofWord? : String → Option LogLevel
  | "debug" => some debug
  | "info" | "msg" => some info
  | "warning" | "warn" => some warning
  | "error" | "exception" => some error
  | "critical" | "fatal" => some critical
  | _ => none

structure LogEvent where
  level : LogLevel
  name : String
  fields : Keyed Value := []
  logger : Option String := none

/-- An event as it is written: as a record, or as a text of one line or more. The time, which comes
first, is left to whoever writes it. -/
inductive LogLine where
  | record (fields : Keyed Value)
  | text (s : String)
deriving Repr

def recordKey : Value → String
  | .null => "null"
  | .bool b => if b then "true" else "false"
  | v => v.displayed

mutual

def recordValue : Value → Value
  | .list items => .list (recordItems items)
  | .tuple items => .list (recordItems items)
  | .map entries => .map (recordEntries entries)
  | .blob bytes => .text (Text.shownBytes bytes)
  | .column c => .text c.shown
  | .record model fields => .text (Value.record model fields).shown
  | .thing t => .text t.shown
  | .set items => .text (Value.set items).shown
  | v => v

def recordItems : List Value → List Value
  | [] => []
  | v :: rest => recordValue v :: recordItems rest

def recordEntries : List (Value × Value) → List (Value × Value)
  | [] => []
  | (k, v) :: rest => (.text (recordKey k), recordValue v) :: recordEntries rest

end

namespace LogEvent

/-- The names that the logging itself uses; fields of these names are not shown. -/
def reserved : List String := ["timestamp", "_record", "_from_structlog"]

/-- All fields of an event. The event's own come after those given with it, and hide them; only a
given statement id stays. -/
def allFields (e : LogEvent) (tagging : Tagging) : Keyed Value :=
  let own : Keyed Value := match e.logger with
    | some name => if name.isEmpty then [] else [("logger", .text name)]
    | none => []
  let given := e.fields.foldl (fun fields f => Keyed.put f.1 f.2 fields) own
  let fields := Keyed.put "level" (.text e.level.label) (Keyed.put "event" (.text e.name) given)
  let ofId : StatementId → Value
    | .given v => v
    | .made n => .text (Text.hex 12 n)
  (tagging.tag ofId fields).filter fun f => !reserved.contains f.1

def placed : List String :=
  ["level", "event", "logger", "logger_name", "stack", "exception", "exc_info"]

/-- A value behind its name. A text is quoted if it could be taken for more than one. -/
def pairValue : Value → String
  | .text s => if s.toList.any " \t=\r\n\"'".toList.contains then Text.shown s else s
  | v => v.displayed

def something? (fields : Keyed Value) (name : String) : Option Value :=
  (fields.get? name).filter fun v => !(v matches .null)

def trace (fields : Keyed Value) : String :=
  let exception := something? fields "exception"
  let rule := String.ofList ('\n' :: '\n' :: List.replicate 79 '=') ++ "\n"
  let stack := match something? fields "stack" with
    | none => ""
    | some v =>
      let more := exception.isSome || (something? fields "exc_info").any (·.isTruthy)
      "\n" ++ v.displayed ++ if more then rule else ""
  stack ++ (exception.map fun v => "\n" ++ v.displayed).getD ""

def consoleText (fields : Keyed Value) : String :=
  let place (name before after : String) : List String :=
    ((fields.get? name).map fun v => before ++ v.displayed ++ after).toList
  let others := (Keyed.sorted (fields.filter fun f => !placed.contains f.1)).map fun f =>
    f.1 ++ "=" ++ pairValue f.2
  let parts := place "level" "[" "]" ++ place "event" "" "" ++ place "logger" "[" "]" ++
    place "logger_name" "[" "]" ++ others
  let line := String.intercalate " " (parts.filter fun p => !p.isEmpty)
  String.ofList (line.toList.reverse.dropWhile (· = ' ')).reverse ++ trace fields

def line (format : LogFormat) (fields : Keyed Value) : LogLine :=
  match format with
  | .json => .record (fields.map fun f => (f.1, recordValue f.2))
  | .console => .text (consoleText fields)

end LogEvent

end Tablewright
