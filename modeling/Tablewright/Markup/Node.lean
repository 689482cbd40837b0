
namespace Tablewright.Markup

inductive NodeKind where
  | null
  | truth
  | whole
  | real
  | bytes
  | moment
  | text
  | list
  /-- a list of pairs, each written as a map of one entry -/
  | pairs
  | set
  | map
  /-- as a key: the entries of other maps are taken in here -/
  | merge
  /-- as a key: the value that stands for the whole map where one value is wanted -/
  | standIn
  | unknown
deriving DecidableEq, Repr

namespace NodeKind

def family : String := "tag:yaml.org,2002:"

def known : List (String × NodeKind) :=
  [("null", null), ("bool", truth), ("int", whole), ("float", real), ("binary", bytes),
   ("timestamp", moment), ("str", text), ("seq", list), ("omap", pairs), ("pairs", pairs),
   ("set", set), ("map", map), ("merge", merge), ("value", standIn)]

def ofName (name : String) : NodeKind :=
  ((known.find? fun e => family ++ e.1 = name).map (·.2)).getD unknown

end NodeKind

inductive Content where
  | scalar (points : List Nat)
  | list (items : List Nat)
  | map (entries : List (Nat × Nat))
deriving DecidableEq, Repr

structure Node where
  kind : NodeKind
  content : Content
deriving DecidableEq, Repr

instance : Inhabited Node where
  default := ⟨.unknown, .scalar []⟩

abbrev Nodes := Array Node

end Tablewright.Markup
