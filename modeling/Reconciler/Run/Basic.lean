import Reconciler.Batch
import Reconciler.Inventory.Classification

/-! The state of one run of a controller over a batch. -/
namespace Reconciler

/-- The last stage that a run has reached. -/
inductive Stage where
  | init
  | manifestLoaded
  | inventoryPopulated
  | globalWatchesCalled
  | childrenPopulated
  | childrenCommitted
  | generated
  | manifestWritten
  | aborted
deriving DecidableEq, Inhabited

def Stage.text : Stage → String
  | .init => "init"
  | .manifestLoaded => "manifest-loaded"
  | .inventoryPopulated => "inventory-populated"
  | .globalWatchesCalled => "global-watches-called"
  | .childrenPopulated => "children-populated"
  | .childrenCommitted => "children-committed"
  | .generated => "generated"
  | .manifestWritten => "manifest-written"
  | .aborted => "aborted"

/-- What a run did. `ready` is there once the package's readiness was looked at. -/
structure Report where
  stage : Stage
  unmatched : Nat
  objectsWritten : Nat
  conditionsWritten : Nat
  conditionsDeleted : Nat
  instanceFailures : Nat
  generated : Nat
  ready : Option Bool
deriving DecidableEq

namespace Report

instance : Inhabited Report := ⟨⟨.init, 0, 0, 0, 0, 0, 0, none⟩⟩

def isAborted (r : Report) : Bool := r.stage == .aborted

end Report

/-- A call of a callback with its arguments. -/
inductive Call where
  | watch (watched : Coordinate) (resource : Resource)
  | populate (governed : Resource)
  | generate (governed : Option Resource) (resources : List Resource)
deriving DecidableEq

/-- The manifest is held apart from the batch until it is written back. `failed` are the governed
resources with a failure; `calls` are the calls of callbacks so far. -/
structure Run where
  controller : Controller
  batch : Batch
  inventory : Inventory
  manifest : Manifest
  manifestIndex : Nat
  manifestRef : Ref
  failed : List Ref
  report : Report
  calls : List Call

namespace Run

/-- Checks the controller and loads the manifest. -/
def start (c : Controller) (b : Batch) : Except Fault Run := do
  c.check
  if b.items.isEmpty then throw .emptyBatch
  match b.rootManifest? with
  | none => throw .missingManifest
  | some (index, root) =>
    let manifest ← Manifest.ofResource root
    return {
      controller := c
      batch := b
      inventory := default
      manifest
      manifestIndex := index
      manifestRef := root.reference
      failed := []
      report := { (default : Report) with stage := .manifestLoaded }
      calls := [] }

def atStage (s : Run) (stage : Stage) : Run := { s with report := { s.report with stage } }

def logCall (s : Run) (call : Call) : Run := { s with calls := s.calls ++ [call] }

/-- Records a failure of one governed resource. The run goes on. -/
def fail (s : Run) (owner : Ref) (place : Ref) (message : String) : Run :=
  { s with
    failed := if owner ∈ s.failed then s.failed else s.failed ++ [owner]
    report := { s.report with instanceFailures := s.report.instanceFailures + 1 }
    batch := s.batch.reportError message (some place) }

/-- The full reference of a governed resource, as far as it is in the package. -/
def fullRef (s : Run) (owner : Ref) : Ref :=
  (((s.inventory.find? (.governed owner)).bind (·.existing)).map Resource.reference).getD owner

def failEntry (s : Run) (k : Inventory.Key) (message : String) : Run :=
  s.fail k.parent (s.fullRef k.parent) message

def writeItem (s : Run) (r : Resource) : Run :=
  let (batch, changed) := s.batch.write r
  { s with
    batch
    report := if changed then { s.report with objectsWritten := s.report.objectsWritten + 1 }
      else s.report }

def writeCondition (s : Run) (k : Inventory.Key) (c : Condition) : Run :=
  let (manifest, changed) := s.manifest.setCondition c
  { s with
    manifest
    inventory := s.inventory.setCondition k c
    report := if changed then { s.report with conditionsWritten := s.report.conditionsWritten + 1 }
      else s.report }

def deleteCondition (s : Run) (k : Inventory.Key) : Run :=
  let (manifest, changed) := s.manifest.deleteCondition k.conditionType
  { s with
    manifest
    inventory := s.inventory.clearCondition k
    report := if changed then { s.report with conditionsDeleted := s.report.conditionsDeleted + 1 }
      else s.report }

end Run

end Reconciler
