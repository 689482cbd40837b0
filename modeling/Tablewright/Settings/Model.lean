import Tablewright.Settings.Checked
import Tablewright.Settings.Path

namespace Tablewright

inductive JournalMode where
  | delete
  | truncate
  | persist
  | memory
  | wal
  | off
deriving DecidableEq, Repr

instance : Choice JournalMode where
  all := [("DELETE", .delete), ("TRUNCATE", .truncate), ("PERSIST", .persist),
    ("MEMORY", .memory), ("WAL", .wal), ("OFF", .off)]

inductive Synchronous where
  | off
  | normal
  | full
  | extra
deriving DecidableEq, Repr

instance : Choice Synchronous where
  all := [("OFF", .off), ("NORMAL", .normal), ("FULL", .full), ("EXTRA", .extra)]

inductive LogLevel where
  | debug
  | info
  | warning
  | error
  | critical
deriving DecidableEq, Repr

instance : Choice LogLevel where
  all := [("DEBUG", .debug), ("INFO", .info), ("WARNING", .warning), ("ERROR", .error),
    ("CRITICAL", .critical)]

inductive LogFormat where
  | json
  | console
deriving DecidableEq, Repr

instance : Choice LogFormat where
  all := [("json", .json), ("console", .console)]

structure DatabaseSettings where
  path : String := ":memory:"
  journalMode : JournalMode := .wal
  synchronous : Synchronous := .normal
  foreignKeys : Bool := true
  busyTimeout : Int := 30000
  cacheSize : Int := 64000
  readOnly : Bool := false
  createIfMissing : Bool := true
  readPoolSize : Nat := 4
  maxRetries : Nat := 3
  retryBaseDelay : Double := Double.ofDecimal false 1 (-1)
  retryMaxDelay : Double := Double.ofInt 2
deriving Repr

structure LogOutput where
  format : LogFormat := .console
  destination : String := "stderr"
  level : Option LogLevel := none
deriving DecidableEq, Repr

structure LoggingSettings where
  level : LogLevel := .info
  outputs : List LogOutput := [{}]
deriving DecidableEq, Repr

structure Settings where
  logging : LoggingSettings := {}
  database : DatabaseSettings := {}
deriving Repr

namespace DatabaseSettings

def isMemory (s : DatabaseSettings) : Bool := s.path = ":memory:"

def name : String := "DatabaseConfig"

def fieldNames : List String :=
  ["path", "journal_mode", "synchronous", "foreign_keys", "busy_timeout_ms", "cache_size_kb",
   "read_only", "create_if_missing", "read_pool_size", "max_retries", "retry_base_delay_sec",
   "retry_max_delay_sec"]

def ofEntries (entries : List (Value × Value)) : Checked DatabaseSettings :=
  let get {α : Type} (name : String) (fallback : α) (read : Value → Except Misfit α) : Checked α :=
    Checked.field entries name fallback fun v => .ofMisfit v (read v)
  let d : DatabaseSettings := {}
  DatabaseSettings.mk <$> get "path" d.path Checked.text
    <*> get "journal_mode" d.journalMode Choice.accept
    <*> get "synchronous" d.synchronous Choice.accept
    <*> get "foreign_keys" d.foreignKeys Checked.truth
    <*> get "busy_timeout_ms" d.busyTimeout Checked.whole
    <*> get "cache_size_kb" d.cacheSize Checked.whole
    <*> get "read_only" d.readOnly Checked.truth
    <*> get "create_if_missing" d.createIfMissing Checked.truth
    <*> get "read_pool_size" d.readPoolSize Checked.count
    <*> get "max_retries" d.maxRetries Checked.count
    <*> get "retry_base_delay_sec" d.retryBaseDelay Checked.real
    <*> get "retry_max_delay_sec" d.retryMaxDelay Checked.real

def check : Value → Checked DatabaseSettings := Checked.fields name ofEntries

def entries (s : DatabaseSettings) : List (String × Value) :=
  fieldNames.zip [.text s.path, .text (Choice.word s.journalMode),
    .text (Choice.word s.synchronous), .bool s.foreignKeys, .int s.busyTimeout, .int s.cacheSize,
    .bool s.readOnly, .bool s.createIfMissing, .int s.readPoolSize, .int s.maxRetries,
    .real s.retryBaseDelay, .real s.retryMaxDelay]

end DatabaseSettings

namespace LogOutput

def fieldNames : List String := ["format", "destination", "level"]

def readDestination (home : String) (v : Value) : Except Refusal String := do
  let s ← (Checked.text v).mapError .misfit
  if s = "stderr" || s = "stdout" then return s
  let path ← (Path.expandHome home s).mapError .fault
  if Path.isAbsolute path then return path
  .error (.misfit ⟨"value_error",
    s!"Value error, log file must be an absolute path, got {Text.shown s}"⟩)

def readLevel : Value → Except Misfit (Option LogLevel)
  | .null => .ok none
  | v => (Choice.accept v).map some

def ofEntries (home : String) (entries : List (Value × Value)) : Checked LogOutput :=
  let d : LogOutput := {}
  LogOutput.mk
    <$> Checked.field entries "format" d.format (fun v => .ofMisfit v (Choice.accept v))
    <*> Checked.field entries "destination" d.destination
      (fun v => .ofRefusal v (readDestination home v))
    <*> Checked.field entries "level" d.level (fun v => .ofMisfit v (readLevel v))

def check (home : String) : Value → Checked LogOutput :=
  Checked.fields "LogOutputConfig" (ofEntries home)

def entries (o : LogOutput) : List (String × Value) :=
  fieldNames.zip [.text (Choice.word o.format), .text o.destination,
    (o.level.map fun l => Value.text (Choice.word l)).getD .null]

end LogOutput

namespace LoggingSettings

def fieldNames : List String := ["level", "outputs"]

def ofEntries (home : String) (entries : List (Value × Value)) : Checked LoggingSettings :=
  let d : LoggingSettings := {}
  LoggingSettings.mk
    <$> Checked.field entries "level" d.level (fun v => .ofMisfit v (Choice.accept v))
    <*> Checked.field entries "outputs" d.outputs (Checked.list (LogOutput.check home))

def check (home : String) : Value → Checked LoggingSettings :=
  Checked.fields "LoggingConfig" (ofEntries home)

def entries (s : LoggingSettings) : List (String × Value) :=
  fieldNames.zip [.text (Choice.word s.level),
    .list (s.outputs.map fun o => Value.mapOf (o.entries.map fun e => (.text e.1, e.2)))]

end LoggingSettings

namespace Settings

def fieldNames : List String := ["logging", "database"]

def ofEntries (home : String) (entries : List (Value × Value)) : Checked Settings :=
  Settings.mk <$> Checked.field entries "logging" {} (LoggingSettings.check home)
    <*> Checked.field entries "database" {} DatabaseSettings.check

def check (home : String) : Value → Checked Settings :=
  Checked.fields "RizzConfig" (ofEntries home)

end Settings

end Tablewright
