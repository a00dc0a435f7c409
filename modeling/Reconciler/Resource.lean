import Reconciler.Condition
import Reconciler.Document.Structural

/-! Resources: documents with a coordinate, a name and annotations. A list may also carry documents
that are no mapping; they have none of these. -/
namespace Reconciler

/-- A resource is its document. -/
structure Resource where
  root : Document
deriving DecidableEq, Inhabited

namespace Resource

def ownerAnnotation : String := "fnruntime.nephio.org/owner"

/-- Holds `true` on resources that are to be deleted. -/
def deleteAnnotation : String := "fnruntime.nephio.org/delete"

def pathAnnotation : String := "internal.config.kubernetes.io/path"

/-- Read where `pathAnnotation` is missing. -/
def legacyPathAnnotation : String := "config.kubernetes.io/path"

def ofDocument (d : Document) : Except Fault Resource :=
  if d.isObject then .ok ⟨d⟩ else .error (.resource .rootNotMapping)

def get? (r : Resource) (path : List String) : Option Document := r.root.get? path

def string? (r : Resource) (path : List String) : Option String := (r.get? path).bind (·.string?)

/-- An absent field and one that is not a string are empty. -/
def apiVersion (r : Resource) : String := (r.string? ["apiVersion"]).getD ""

def kind (r : Resource) : String := (r.string? ["kind"]).getD ""

def name (r : Resource) : String := (r.string? ["metadata", "name"]).getD ""

def space (r : Resource) : Option String := r.string? ["metadata", "namespace"]

def coordinate (r : Resource) : Coordinate := ⟨r.apiVersion, r.kind⟩

def reference (r : Resource) : Ref := ⟨r.coordinate, r.name, r.space⟩

/-- The reference without namespace, since condition types carry none. -/
def identity (r : Resource) : Ref := r.coordinate.named r.name

/-- Fails without change where a value on the way is not a mapping. -/
def set (r : Resource) (path : List String) (value : Document) : Except Fault Resource :=
  if path = [] then .error (.resource .emptyPath)
  else match r.root.set path value with
    | .ok root => .ok ⟨root⟩
    | .error place => .error (.resource (.notMapping place))

def remove (r : Resource) (path : List String) : Option Document × Resource :=
  match r.root.remove? path with
  | some (value, root) => (some value, ⟨root⟩)
  | none => (none, r)

def setName (r : Resource) (name : String) : Except Fault Resource :=
  r.set ["metadata", "name"] (.string name)

def annotation? (r : Resource) (key : String) : Option String :=
  r.string? ["metadata", "annotations", key]

def setAnnotation (r : Resource) (key value : String) : Except Fault Resource :=
  r.set ["metadata", "annotations", key] (.string value)

/-- Gives back what was removed, if it was a string. The mapping of annotations goes with its last
member. -/
def removeAnnotation (r : Resource) (key : String) : Option String × Resource :=
  match r.root.remove? ["metadata", "annotations", key] with
  | none => (none, r)
  | some (value, root) =>
    let rest : Resource := ⟨root⟩
    if root.get? ["metadata", "annotations"] = some (.object []) then
      (value.string?, (rest.remove ["metadata", "annotations"]).2)
    else (value.string?, rest)

def unannotated (r : Resource) (key : String) : Resource := (r.removeAnnotation key).2

def isOwnedBy (r : Resource) (owner : Ref) : Bool :=
  r.annotation? ownerAnnotation == some (Subject.singleType owner)

def setOwner (r : Resource) (owner : Ref) : Except Fault Resource :=
  r.setAnnotation ownerAnnotation (Subject.singleType owner)

def flagForDeletion (r : Resource) : Except Fault Resource := r.setAnnotation deleteAnnotation "true"

def isFlagged (r : Resource) : Bool := r.annotation? deleteAnnotation == some "true"

def packagePath (r : Resource) : Option String :=
  r.annotation? pathAnnotation <|> r.annotation? legacyPathAnnotation

def subtree (r : Resource) (field : String) : Except Fault (Option Document) :=
  match r.get? [field] with
  | none | some .null => .ok none
  | some (.object fields) => .ok (some (.object fields))
  | some _ => .error (.malformedSubtree r.reference.text field)

/-- Structural equality of one field; an absent field equals an absent one only. -/
def subtreeEq (a b : Resource) (field : String) : Except Fault Bool := do
  match ← a.subtree field, ← b.subtree field with
  | none, none => return true
  | some x, some y => return x.structuralEq y
  | _, _ => return false

end Resource

end Reconciler
