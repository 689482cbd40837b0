import Tablewright.Settings.Model

namespace Tablewright

/-- A memory database has one connection for all; of a file database connections are queued. -/
inductive Pool where
  | single
  | queue (size : Nat)
deriving DecidableEq, Repr

namespace DatabaseSettings

def openMode (s : DatabaseSettings) : String :=
  if s.readOnly then "ro" else if s.createIfMissing then "rwc" else "rw"

def url (s : DatabaseSettings) (directory home : String) : Except Fault String := do
  if s.isMemory then return "sqlite://"
  if s.path.contains '\x00' then throw (.senseless "embedded null byte")
  let path := Path.resolve directory (← Path.expandHome home s.path)
  return s!"sqlite:///file:{path}?mode={s.openMode}&uri=true"

def pragmas (s : DatabaseSettings) : List String :=
  (if s.readOnly then [] else ["PRAGMA journal_mode=" ++ Choice.word s.journalMode]) ++
    [s!"PRAGMA busy_timeout={s.busyTimeout}", "PRAGMA synchronous=" ++ Choice.word s.synchronous,
     "PRAGMA foreign_keys=" ++ (if s.foreignKeys then "ON" else "OFF"),
     s!"PRAGMA cache_size=-{s.cacheSize}"]

def pool (s : DatabaseSettings) : Pool :=
  if s.isMemory then .single else .queue (s.readPoolSize + 1)

end DatabaseSettings

end Tablewright
