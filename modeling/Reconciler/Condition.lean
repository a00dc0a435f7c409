import Reconciler.Reference

/-! Conditions, and the type strings that tell which resource a condition is about. -/
namespace Reconciler

inductive Status where
  | isTrue
  | isFalse
  | unknown
deriving DecidableEq, Inhabited

namespace Status

def text : Status → String
  | .isTrue => "True"
  | .isFalse => "False"
  | .unknown => "Unknown"

def decode : Decoder Status :=
  .variant [("True", .isTrue), ("False", .isFalse), ("Unknown", .unknown)]

end Status

/-- A record of the manifest. An empty reason differs from an absent one. -/
structure Condition where
  typeName : String
  status : Status
  reason : Option String
  message : String
deriving DecidableEq, Inhabited

namespace Condition

def isFalse (c : Condition) : Bool := c.status == .isFalse

def toDocument (c : Condition) : Document :=
  .object (
    (if c.message.isEmpty then [] else [("message", .string c.message)])
    ++ (c.reason.toList.map fun reason => ("reason", .string reason))
    ++ [("status", .string c.status.text), ("type", .string c.typeName)])

def decode : Decoder Condition :=
  .record "Condition" 4
    (fun fields => do
      let message ← Decoder.field fields "message" .string
      let reason ← Decoder.field fields "reason" (.nullable .string)
      let status ← Decoder.field fields "status" Status.decode
      let typeName ← Decoder.field fields "type" .string
      let typeName ← Decoder.required "type" typeName
      let status ← Decoder.required "status" status
      return ⟨typeName, status, reason.getD none, message.getD ""⟩)
    (fun items short => do
      let typeName ← Decoder.placed items 0 .string (.error (short 0))
      let status ← Decoder.placed items 1 Status.decode (.error (short 1))
      let reason ← Decoder.placed items 2 (.nullable .string) (.ok none)
      let message ← Decoder.placed items 3 .string (.ok "")
      return ⟨typeName, status, reason, message⟩)

end Condition

/-- What a condition is about: one resource, or a child of an owner. -/
inductive Subject where
  | single (target : Ref)
  | pair (owner child : Ref)
deriving DecidableEq

namespace Subject

/-- `apiVersion.kind.name` for one resource, without its namespace. -/
def singleType (r : Ref) : String := s!"{r.apiVersion}.{r.kind}.{r.name}"

def pairType (owner child : Ref) : String := s!"{singleType owner}_{singleType child}"

def typeName : Subject → String
  | .single target => singleType target
  | .pair owner child => pairType owner child

/-- The version is the segment between the first slash and the next dot, then come a kind without
dots and a name with any. No part may be empty. -/
def readSingle (cs : List Char) : Option Ref := do
  let (group, rest) := match Text.cutFirst '/' cs with
    | some (group, rest) => (some group, rest)
    | none => (none, cs)
  let (version, rest) ← Text.cutFirst '.' rest
  let (kind, name) ← Text.cutFirst '.' rest
  guard (version ≠ [] ∧ kind ≠ [] ∧ name ≠ [] ∧ group ≠ some [])
  let apiVersion := match group with
    | some group => group ++ '/' :: version
    | none => version
  return (⟨String.ofList apiVersion, String.ofList kind⟩ : Coordinate).named (String.ofList name)

/-- The subject of a condition type, if it has the form of one. The first underscore separates owner
and child. -/
def ofTypeName? (typeName : String) : Option Subject :=
  match Text.cutFirst '_' typeName.toList with
  | some (owner, child) => do return .pair (← readSingle owner) (← readSingle child)
  | none => (readSingle typeName.toList).map .single

end Subject

end Reconciler
