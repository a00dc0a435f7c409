import Reconciler.Document.Decode

/-! What can go wrong with documents, references and packages, and its wording. -/
namespace Reconciler

/-- Why a document is not usable as a resource, or an edit of it fails. -/
inductive ResourceFault where
  | rootNotMapping
  | emptyPath
  | notMapping (path : List String)
  | itemNotMapping (index : Nat)
  | other (text : String)
deriving DecidableEq

def ResourceFault.message : ResourceFault → String
  | .rootNotMapping => "document root must be a mapping"
  | .emptyPath => "empty field path"
  | .notMapping path => "field `" ++ ".".intercalate path ++ "` is not a mapping"
  | .itemNotMapping index => s!"items[{index}] is not a mapping"
  | .other text => text

/-- Why a document is not a package manifest. -/
inductive ManifestFault where
  | otherKind (coordinate : String)
  | conditionsNotList
  | conditions (cause : DecodeFault)
deriving DecidableEq

def ManifestFault.message : ManifestFault → String
  | .otherKind coordinate => s!"expected kpt.dev Kptfile, got {coordinate}"
  | .conditionsNotList => "status.conditions is not a list"
  | .conditions cause => s!"status.conditions: {cause.message}"

/-- All failures of the library. References are kept as they are shown. -/
inductive Fault where
  | emptyBatch
  | missingManifest
  | manifest (cause : ManifestFault)
  | incompleteCoordinate (shown : String)
  | malformedCoordinate (key : String)
  | incompleteReference (shown : String)
  | wildcardTarget (shown : String)
  | resource (cause : ResourceFault)
  | malformedSubtree (reference field : String)
  | yaml
  | decode (cause : DecodeFault)
deriving DecidableEq

namespace Fault

/-- The text of a YAML failure is left open. -/
def message : Fault → String
  | .emptyBatch => "no resources present in the resourcelist"
  | .missingManifest => "mandatory Kptfile is missing from the package"
  | .manifest cause => s!"invalid Kptfile: {cause.message}"
  | .incompleteCoordinate shown => s!"gvk not initialized, got: {shown}"
  | .malformedCoordinate key => s!"gvk not initialized, got: {key} (expect v1/Kind or group/v1/Kind)"
  | .incompleteReference shown => s!"gvk or name not initialized, got: {shown}"
  | .wildcardTarget shown => s!"wildcard reference cannot be used here: {shown}"
  | .resource cause => s!"invalid object: {cause.message}"
  | .malformedSubtree reference field => s!"field `{field}` of {reference} is not a mapping"
  | .yaml => "YAML error"
  | .decode cause => s!"JSON error: {cause.message}"

def chain : Fault → List String
  | .decode cause => [message (.decode cause), cause.message]
  | fault => [fault.message]

end Fault

/-- A failure that the caller of the library reports: messages from the outermost to the root
cause. -/
structure Failure where
  message : String
  causes : List String
deriving DecidableEq

namespace Failure

def line (f : Failure) : String := ": ".intercalate (f.message :: f.causes)

def within (f : Failure) (context : String) : Failure := ⟨context, f.message :: f.causes⟩

def ofFault (fault : Fault) : Failure := ⟨fault.message, fault.chain.drop 1⟩

end Failure

theorem exists_ok_of_isOk {ε α : Type} {x : Except ε α} (h : x.isOk = true) : ∃ a, x = .ok a := by
  cases x with
  | error fault => cases h
  | ok a => exact ⟨a, rfl⟩

end Reconciler
