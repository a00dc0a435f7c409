import Reconciler.Fault
import Reconciler.SortedMap
import Reconciler.Text.Blank
import Reconciler.Text.Cut

/-! Coordinates name a class of resources, references one resource of a class. The wildcard
coordinate matches any class, but only for watches. -/
namespace Reconciler

/-- An API version and a kind. -/
structure Coordinate where
  apiVersion : String
  kind : String
deriving DecidableEq, Inhabited

/-- With an empty name only the coordinate is meant. -/
structure Ref extends Coordinate where
  name : String
  space : Option String
deriving DecidableEq, Inhabited

namespace Coordinate

def order : Coordinate → Coordinate → Ordering :=
  compareLex (compareOn (·.apiVersion)) (compareOn (·.kind))

instance : Ord Coordinate := ⟨order⟩

instance : Std.TransOrd Coordinate := inferInstanceAs (Std.TransCmp (compareLex _ _))

instance : Std.LawfulEqOrd Coordinate where
  eq_of_compare {a b} h := by
    obtain ⟨hv, hk⟩ := compareLex_eq_eq.1 h
    cases a
    cases b
    congr
    · exact @Std.LawfulEqCmp.eq_of_compare _ compare _ _ _ hv
    · exact @Std.LawfulEqCmp.eq_of_compare _ compare _ _ _ hk
  compare_self {_} := @Std.ReflCmp.compare_self _ (compareLex _ _) _ _

def wildcard : Coordinate := ⟨"*", "*"⟩

def isWildcard (c : Coordinate) : Bool := c == wildcard

def text (c : Coordinate) : String := c.apiVersion ++ "/" ++ c.kind

def toRef (c : Coordinate) : Ref := ⟨c, "", none⟩

/-- The reference of this class with the given name, in no namespace. -/
def named (c : Coordinate) (name : String) : Ref := ⟨c, name, none⟩

def isComplete (c : Coordinate) : Bool := !c.apiVersion.isEmpty && !c.kind.isEmpty

def check (c : Coordinate) : Except Fault Unit :=
  if c.isComplete then .ok () else .error (.incompleteCoordinate c.text)

def checkConcrete (c : Coordinate) : Except Fault Unit := do
  c.check
  if c.isWildcard then .error (.wildcardTarget c.text)

/-- Reads `apiVersion/kind`, cut at the last slash, or a lone star. Blanks around it are dropped. -/
def parse (key : String) : Except Fault Coordinate :=
  let key := Text.trimBlanks key.toList
  if key = ['*'] then .ok wildcard
  else match Text.cutLast '/' key with
    | some (apiVersion, kind) =>
      if apiVersion ≠ [] ∧ kind ≠ [] then .ok ⟨String.ofList apiVersion, String.ofList kind⟩
      else .error (.malformedCoordinate (String.ofList key))
    | none => .error (.malformedCoordinate (String.ofList key))

end Coordinate

namespace Ref

def order : Ref → Ref → Ordering :=
  compareLex (compareOn (·.toCoordinate)) (compareLex (compareOn (·.name)) (compareOn (·.space)))

instance : Ord Ref := ⟨order⟩

instance : Std.TransOrd Ref := inferInstanceAs (Std.TransCmp (compareLex _ _))

instance : Std.LawfulEqOrd Ref where
  eq_of_compare {a b} h := by
    obtain ⟨hc, h⟩ := compareLex_eq_eq.1 h
    obtain ⟨hn, hs⟩ := compareLex_eq_eq.1 h
    cases a
    cases b
    congr
    · exact @Std.LawfulEqCmp.eq_of_compare _ compare _ _ _ hc
    · exact @Std.LawfulEqCmp.eq_of_compare _ compare _ _ _ hn
    · exact @Std.LawfulEqCmp.eq_of_compare _ compare _ _ _ hs
  compare_self {_} := @Std.ReflCmp.compare_self _ (compareLex _ _) _ _

/-- `apiVersion/kind:namespace/name`; without a name the coordinate alone. -/
def text (r : Ref) : String :=
  if r.name.isEmpty then r.toCoordinate.text
  else match r.space with
    | some space => r.toCoordinate.text ++ ":" ++ space ++ "/" ++ r.name
    | none => r.toCoordinate.text ++ ":" ++ r.name

def withSpace (r : Ref) (space : String) : Ref := { r with space := some space }

def checkCoordinate (r : Ref) : Except Fault Unit :=
  if r.isComplete then .ok () else .error (.incompleteCoordinate r.text)

def checkNamed (r : Ref) : Except Fault Unit :=
  if r.isComplete && !r.name.isEmpty then .ok () else .error (.incompleteReference r.text)

/-- Only a named reference of a concrete class can be created, updated or deleted. -/
def checkTarget (r : Ref) : Except Fault Unit :=
  if r.isWildcard then .error (.wildcardTarget r.text) else r.checkNamed

def isTarget (r : Ref) : Bool := r.checkTarget.isOk

/-- An owner, or an owner and a child, all of them targets. -/
def isOwnerChild : List Ref → Bool
  | [owner] => owner.isTarget
  | [owner, child] => owner.isTarget && child.isTarget
  | _ => false

def ownerChildText : List Ref → String
  | [] => ""
  | owner :: children =>
    children.foldl (fun text r => text ++ s!" ownKind: {r.kind} ownName: {r.name}")
      s!"forKind: {owner.kind} forName: {owner.name}"

def toDocument (r : Ref) : Document :=
  .object (
    [("apiVersion", .string r.apiVersion), ("kind", .string r.kind)]
    ++ (if r.name.isEmpty then [] else [("name", .string r.name)])
    ++ r.space.toList.map fun space => ("namespace", .string space))

def decode : Decoder Ref :=
  .record "ObjectRef" 4
    (fun fields => do
      let apiVersion ← Decoder.field fields "apiVersion" .string
      let kind ← Decoder.field fields "kind" .string
      let name ← Decoder.field fields "name" .string
      let space ← Decoder.field fields "namespace" (.nullable .string)
      let apiVersion ← Decoder.required "apiVersion" apiVersion
      let kind ← Decoder.required "kind" kind
      return ⟨⟨apiVersion, kind⟩, name.getD "", space.getD none⟩)
    (fun items short => do
      let apiVersion ← Decoder.placed items 0 .string (.error (short 0))
      let kind ← Decoder.placed items 1 .string (.error (short 1))
      let name ← Decoder.placed items 2 .string (.ok "")
      let space ← Decoder.placed items 3 (.nullable .string) (.ok none)
      return ⟨⟨apiVersion, kind⟩, name, space⟩)

end Ref

end Reconciler
