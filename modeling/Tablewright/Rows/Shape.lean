import Tablewright.Rows.Model
import Tablewright.Schema.Declared

/-! Shapes: how a model takes up the columns of a result. A plain shape feeds each field from the
column of its name; a composite one hands consecutive runs of columns to its parts. Shapes are
worked out once per model and kept. -/

namespace Tablewright

structure FieldMapping where
  column : String
  required : Bool
deriving DecidableEq, Repr

structure PlainShape where
  model : Model
  fields : List FieldMapping
  table : Option Table := none
deriving Repr

inductive Shape where
  | plain (s : PlainShape)
  | composite (model : Model) (parts : List (String × PlainShape))
deriving Repr

namespace PlainShape

def width (s : PlainShape) : Nat :=
  match s.table with
  | some t => t.columns.length
  | none => s.fields.length

end PlainShape

namespace Shape

def model : Shape → Model
  | plain s => s.model
  | composite m _ => m

def isComposite : Shape → Bool
  | plain _ => false
  | composite _ parts => !parts.isEmpty

def parts : Shape → List (String × PlainShape)
  | plain _ => []
  | composite _ parts => parts

def width : Shape → Nat
  | plain s => s.width
  | composite _ parts => parts.foldr (fun p n => p.2.width + n) 0

end Shape

/-- The shapes found so far, by the number of the model. A shape once kept stays. -/
abbrev ShapeCache := List (Nat × Shape)

namespace ShapeCache

def get? (cache : ShapeCache) (m : Model) : Option Shape := List.lookup m.number cache

def keep (cache : ShapeCache) (s : Shape) : ShapeCache :=
  match get? cache s.model with
  | some _ => cache
  | none => cache ++ [(s.model.number, s)]

end ShapeCache

def boundTable (schema : Schema) (m : Model) : Except ShapeError (Option Table) :=
  match m.binding with
  | none => .ok none
  | some name =>
    match schema.tables.get? name with
    | some t => .ok (some t)
    | none => .error (.invalidModel m.name s!"bound to undeclared table '{name}'")

def notNestable (m : Model) : ShapeError :=
  .invalidModel m.name "composite models cannot be nested"

def mapField (m : Model) (table : Option Table) (f : Field Model) :
    Except ShapeError FieldMapping :=
  if f.part?.isSome then .error (notNestable m)
  else
    match table with
    | none => .ok ⟨f.key, f.required⟩
    | some t =>
      if (t.column? f.key).isSome then .ok ⟨f.key, f.required⟩
      else .error (.invalidModel m.name s!"field '{f.name}' has no column on '{t.name}'")

def mapFields (m : Model) (table : Option Table) :
    List (Field Model) → Except ShapeError (List FieldMapping)
  | [] => .ok []
  | f :: rest =>
    (mapField m table f).bind fun here =>
      (mapFields m table rest).map fun others => here :: others

def analysePlain (schema : Schema) (m : Model) : Except ShapeError PlainShape :=
  (boundTable schema m).bind fun table =>
    (mapFields m table m.fields).map fun fields => ⟨m, fields, table⟩

def plainShape (schema : Schema) (cache : ShapeCache) (m : Model) :
    Except ShapeError PlainShape × ShapeCache :=
  match ShapeCache.get? cache m with
  | some (.plain s) => (.ok s, cache)
  | some (.composite _ _) => (.error (notNestable m), cache)
  | none =>
    match analysePlain schema m with
    | .ok s => (.ok s, ShapeCache.keep cache (.plain s))
    | .error e => (.error e, cache)

/-- The plain shapes of the parts of a model. Those found before a failure are kept. -/
def partShapes (schema : Schema) (cache : ShapeCache) :
    List (String × Model) → Except ShapeError (List (String × PlainShape)) × ShapeCache
  | [] => (.ok [], cache)
  | (key, m) :: rest =>
    match plainShape schema cache m with
    | (.error e, cache) => (.error e, cache)
    | (.ok s, cache) =>
      match partShapes schema cache rest with
      | (.error e, cache) => (.error e, cache)
      | (.ok others, cache) => (.ok ((key, s) :: others), cache)

def modelParts (m : Model) : List (String × Model) :=
  m.fields.filterMap fun f => f.part?.map fun part => (f.key, part)

def analyse (schema : Schema) (cache : ShapeCache) (m : Model) :
    Except ShapeError Shape × ShapeCache :=
  let parts := modelParts m
  if m.fields.isEmpty then (.error (.invalidModel m.name "model has no fields"), cache)
  else if parts.isEmpty then
    match plainShape schema cache m with
    | (.ok s, cache) => (.ok (.plain s), cache)
    | (.error e, cache) => (.error e, cache)
  else if parts.length = m.fields.length then
    match partShapes schema cache parts with
    | (.ok parts, cache) => (.ok (.composite m parts), cache)
    | (.error e, cache) => (.error e, cache)
  else
    (.error (.invalidModel m.name "composite models may only contain row model fields"), cache)

inductive RowTarget where
  | model (m : Model)
  | other (shown : String)

def shapeOf (schema : Schema) (cache : ShapeCache) :
    RowTarget → Except ShapeError Shape × ShapeCache
  | .other shown => (.error (.invalidModel shown "not a pydantic model class"), cache)
  | .model m =>
    match ShapeCache.get? cache m with
    | some s => (.ok s, cache)
    | none =>
      match analyse schema cache m with
      | (.ok s, cache) => (.ok s, ShapeCache.keep cache s)
      | (.error e, cache) => (.error e, cache)

def registerAll (schema : Schema) (cache : ShapeCache) :
    List RowTarget → Except ShapeError Unit × ShapeCache
  | [] => (.ok (), cache)
  | t :: rest =>
    match shapeOf schema cache t with
    | (.ok _, cache) => registerAll schema cache rest
    | (.error e, cache) => (.error e, cache)

end Tablewright
