import Tablewright.Fault
import Tablewright.Text.Search

namespace Tablewright.Path

def parts (path : String) : List String :=
  (Text.split '/' path).filter fun p => p ≠ "" && p ≠ "."

def anchor (path : String) : String :=
  match (path.toList.takeWhile (· = '/')).length with
  | 0 => ""
  | 2 => "//"
  | _ => "/"

def isAbsolute (path : String) : Bool := "/".isPrefixOf path

def join (anchor : String) (parts : List String) : String :=
  if anchor.isEmpty && parts.isEmpty then "." else anchor ++ String.intercalate "/" parts

def normal (path : String) : String := join (anchor path) (parts path)

/-- The home directory of a user. Without a name it is the given one; of the users with a name only
the superuser is known. -/
def homeOf? (home user : String) : Option String :=
  if user.isEmpty then some home else if user = "root" then some "/root" else none

def expandHome (home path : String) : Except Fault String :=
  match anchor path, parts path with
  | "", first :: rest =>
    match first.toList with
    | '~' :: user =>
      match homeOf? home (String.ofList user) with
      | some home => .ok (join (anchor home) (parts home ++ rest))
      | none => .error .homeless
    | _ => .ok (join "" (first :: rest))
  | a, ps => .ok (join a ps)

def climb : List String → List String → List String
  | up, [] => up.reverse
  | up, p :: rest => climb (if p = ".." then up.tail else p :: up) rest

def resolve (directory path : String) : String :=
  let path := if isAbsolute path then path else directory ++ "/" ++ path
  join "/" (climb [] (parts path))

end Tablewright.Path
