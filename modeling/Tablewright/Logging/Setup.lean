import Tablewright.Logging.Event

namespace Tablewright

structure LogHandler where
  severity : Int
  format : LogFormat
  destination : String
deriving DecidableEq, Repr

def isStandardStream (destination : String) : Bool :=
  destination = "stderr" || destination = "stdout"

def sinkOf (destination : String) : String :=
  if isStandardStream destination then destination else Path.resolve "/" destination

namespace LogHandler

def isStream (h : LogHandler) : Bool := isStandardStream h.destination

def sink (h : LogHandler) : String := sinkOf h.destination

end LogHandler

structure LogSetup where
  severity : Int
  handlers : List LogHandler
deriving DecidableEq, Repr

namespace LogSetup

def quieted : List (String × Int) := [("sqlalchemy.engine", 30), ("sqlalchemy.pool", 30)]

def ofSettings (s : LoggingSettings) : LogSetup where
  severity := s.level.severity
  handlers := s.outputs.map fun o =>
    ⟨(o.level.getD s.level).severity, o.format, o.destination⟩

def kind (s : LogSetup) : String :=
  let level := match severities.find? (·.2 == s.severity) with
    | some (name, _) => name
    | none => "NOTSET"
  "BoundLoggerFilteringAt" ++ String.ofList (match level.toList with
    | c :: cs => c :: cs.map Char.toLower
    | [] => [])

def operation (s : LogSetup) (word : String) (level : LogLevel) : String :=
  if word = "exception" then word
  else if level.severity < s.severity then "_nop"
  else "_make_filtering_bound_logger.<locals>.make_method.<locals>.meth"

/-- The event that a word asks to log. Its fields are given to the operation that takes it, so none
can bear a name that the operation has a use for. The report of an exception asks for its trace. -/
def event (s : LogSetup) (word name : String) (fields : Keyed Value) (logger : Option String) :
    Except Fault LogEvent := do
  let some level := LogLevel.ofWord? word | throw (.lacks s.kind word)
  if let some f := fields.find? fun f => f.1 = "event" || f.1 = "self" then
    throw (.arguments (s.operation word level) (.repeated f.1))
  if s.severity ≤ level.severity && (fields.get? "method_name").isSome then
    throw (.arguments "BoundLoggerBase._proxy_to_logger" (.repeated "method_name"))
  let traced := word = "exception" && (fields.get? "exc_info").isNone
  let fields := if traced then fields.put "exc_info" (.bool true) else fields
  return { level, name, fields, logger }

def linesAt (s : LogSetup) (tagging : Tagging) (events : List LogEvent) (destination : String) :
    List LogLine :=
  events.flatMap fun e =>
    if e.level.severity < s.severity then []
    else
      let takes (h : LogHandler) : Bool :=
        h.sink = sinkOf destination && h.severity ≤ e.level.severity
      (s.handlers.filter takes).map fun h => LogEvent.line h.format (e.allFields tagging)

end LogSetup

def LoggingSettings.basic (home : String) (level : Value) (json : Bool) :
    Checked LoggingSettings :=
  let format : LogFormat := if json then .json else .console
  (fun s : LoggingSettings => { s with outputs := [{ format }] }) <$>
    LoggingSettings.ofEntries home [(.text "level", level)]

end Tablewright
