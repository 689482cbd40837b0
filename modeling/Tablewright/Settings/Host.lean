import Tablewright.Fault
import Tablewright.Schema.Keyed
import Tablewright.Settings.Path

namespace Tablewright

abbrev Environment := List (String × String)

/-- What a file holds: a text, or bytes that are none, and how they are found not to be. -/
inductive FileContent where
  | text (s : String)
  | garbled (reason : String)

instance : Coe String FileContent := ⟨.text⟩

/-- The working directory, the home directory, the files by their absolute path, and the
environment. -/
structure Host where
  directory : String
  home : String
  files : Keyed FileContent
  env : Environment

namespace Host

def pathOf (place : List String) : String := Path.join "/" place

def isDirectoryAt (h : Host) (place : List String) : Bool :=
  place.isPrefixOf (Path.climb [] (Path.parts h.directory)) ||
    h.files.any fun f => f.1 ≠ pathOf place && place.isPrefixOf (Path.parts f.1)

/-- Goes along a path. Only from a directory does a step lead on, even one that stays or goes up. -/
def walk (h : Host) : List String → List String → Option (List String)
  | place, [] => some place
  | place, step :: rest =>
    if !h.isDirectoryAt place then none
    else if step = "" || step = "." then walk h place rest
    else if step = ".." then walk h place.dropLast rest
    else walk h (place ++ [step]) rest

def place? (h : Host) (path : String) : Option (List String) :=
  let start := if Path.isAbsolute path then [] else Path.climb [] (Path.parts h.directory)
  if path.isEmpty then none else h.walk start (Text.split '/' path)

def file? (h : Host) (path : String) : Option FileContent :=
  (h.place? path).bind fun place => h.files.get? (pathOf place)

def hasFile (h : Host) (path : String) : Bool := (h.file? path).isSome

def hasDirectory (h : Host) (path : String) : Bool := (h.place? path).any h.isDirectoryAt

def has (h : Host) (path : String) : Bool := h.hasFile path || h.hasDirectory path

end Host

end Tablewright
