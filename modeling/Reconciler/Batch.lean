import Reconciler.Manifest

/-! A batch of resources, as a function receives and returns it: ordered items, the function's own
configuration and the notices for the user. -/
namespace Reconciler

inductive Severity where
  | error
  | warning
  | info
deriving DecidableEq, Inhabited

namespace Severity

def text : Severity → String
  | .error => "error"
  | .warning => "warning"
  | .info => "info"

def decode : Decoder Severity := .variant [("error", .error), ("warning", .warning), ("info", .info)]

end Severity

/-- A message for the user, about a resource or about the whole batch. -/
structure Notice where
  message : String
  severity : Severity
  resource : Option Ref
deriving DecidableEq

namespace Notice

def toDocument (n : Notice) : Document :=
  .object (
    [("message", .string n.message), ("severity", .string n.severity.text)]
    ++ n.resource.toList.map fun r => ("resourceRef", r.toDocument))

def decode : Decoder Notice :=
  .record "FnResult" 3
    (fun fields => do
      let message ← Decoder.field fields "message" .string
      let resource ← Decoder.field fields "resourceRef" (.nullable Ref.decode)
      let severity ← Decoder.field fields "severity" Severity.decode
      let message ← Decoder.required "message" message
      let severity ← Decoder.required "severity" severity
      return ⟨message, severity, resource.getD none⟩)
    (fun items short => do
      let message ← Decoder.placed items 0 .string (.error (short 0))
      let severity ← Decoder.placed items 1 Severity.decode (.error (short 1))
      let resource ← Decoder.placed items 2 (.nullable Ref.decode) (.ok none)
      return ⟨message, severity, resource⟩)

end Notice

/-- The envelope. Items of a decoded batch may be any documents. -/
structure Batch where
  apiVersion : String
  kind : String
  items : List Resource
  functionConfig : Option Resource
  notices : List Notice
deriving DecidableEq

namespace Batch

def defaultApiVersion : String := "config.kubernetes.io/v1"

def defaultKind : String := "ResourceList"

def ofItems (items : List Resource) : Batch := ⟨defaultApiVersion, defaultKind, items, none, []⟩

instance : Inhabited Batch := ⟨ofItems []⟩

/-- The fields stand in the order of the format; an absent configuration and an empty list of
notices are left out. -/
def toDocument (b : Batch) : Document :=
  .object (
    [("apiVersion", .string b.apiVersion), ("kind", .string b.kind),
      ("items", .array (b.items.map (·.root)))]
    ++ (b.functionConfig.toList.map fun r => ("functionConfig", r.root))
    ++ (if b.notices.isEmpty then [] else [("results", .array (b.notices.map Notice.toDocument))]))

def decode : Decoder Batch :=
  .record "ResourceList" 5
    (fun fields => do
      let apiVersion ← Decoder.field fields "apiVersion" .string
      let functionConfig ← Decoder.field fields "functionConfig" (.nullable anyResource)
      let items ← Decoder.field fields "items" (.list anyResource)
      let kind ← Decoder.field fields "kind" .string
      let notices ← Decoder.field fields "results" (.list Notice.decode)
      return ⟨apiVersion.getD defaultApiVersion, kind.getD defaultKind, items.getD [],
        functionConfig.getD none, notices.getD []⟩)
    (fun items _ => do
      let apiVersion ← Decoder.placed items 0 .string (.ok defaultApiVersion)
      let kind ← Decoder.placed items 1 .string (.ok defaultKind)
      let resources ← Decoder.placed items 2 (.list anyResource) (.ok [])
      let functionConfig ← Decoder.placed items 3 (.nullable anyResource) (.ok none)
      let notices ← Decoder.placed items 4 (.list Notice.decode) (.ok [])
      return ⟨apiVersion, kind, resources, functionConfig, notices⟩)
where
  anyResource : Decoder Resource := fun d => .ok ⟨d⟩

def ofDocument (d : Document) : Except Fault Batch :=
  match (d.get? ["items"]).bind firstBad with
  | some index => .error (.resource (.itemNotMapping index))
  | none => (decode d).mapError .decode
where
  firstBad : Document → Option Nat
    | .array items => items.findIdx? fun item => !item.isObject
    | _ => none

def manifests (b : Batch) : List (Nat × Resource) :=
  (b.items.zipIdx.map fun e => (e.2, e.1)).filter fun e => Manifest.describes e.2

/-- The manifest at the root of the package: the one whose path says so, or the first one if no
manifest carries a path. -/
def rootManifest? (b : Batch) : Option (Nat × Resource) :=
  match b.manifests.find? fun e => e.2.packagePath == some Manifest.rootPath with
  | some root => some root
  | none => if b.manifests.all fun e => e.2.packagePath.isNone then b.manifests.head? else none

/-- The position of the first item with the identity of `r`; namespaces do not count. -/
def position? (b : Batch) (r : Ref) : Option Nat :=
  b.items.findIdx? fun item =>
    item.apiVersion == r.apiVersion && item.kind == r.kind && item.name == r.name

/-- `r` with the namespace of the item that it replaces, if it has none itself. -/
def keepSpace (old r : Resource) : Resource :=
  match r.space, old.space with
  | none, some space =>
    match r.set ["metadata", "namespace"] (.string space) with
    | .ok r => r
    | .error _ => r
  | _, _ => r

/-- Replaces the item with the identity of `r`, or appends `r`. The flag tells whether the batch
changed; an item that is alike is left as it is. -/
def write (b : Batch) (r : Resource) : Batch × Bool :=
  match b.position? r.reference with
  | none => ({ b with items := b.items ++ [r] }, true)
  | some index =>
    let old := b.items[index]?.getD default
    let new := keepSpace old r
    if old.root.alike new.root then (b, false) else ({ b with items := b.items.set index new }, true)

def notify (b : Batch) (message : String) (severity : Severity) (resource : Option Ref) : Batch :=
  { b with notices := b.notices ++ [⟨message, severity, resource⟩] }

def reportError (b : Batch) (message : String) (resource : Option Ref) : Batch :=
  b.notify message .error resource

def hasErrors (b : Batch) : Bool := b.notices.any fun n => n.severity == .error

end Batch

end Reconciler
