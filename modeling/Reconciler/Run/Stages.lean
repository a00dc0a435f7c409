import Reconciler.Run.Generation

/-! The stages of a run, in order, and the run as a whole. -/
namespace Reconciler.Run

open Inventory (Key)

def populateInventory (s : Run) : Run :=
  let items := (s.batch.items.zipIdx.filter fun e => e.2 != s.manifestIndex).map (·.1)
  let inventory := items.foldl (fun inv r => inv.observeResource s.controller r) s.inventory
  let inventory :=
    s.manifest.conditions.foldl (fun inv c => inv.observeCondition s.controller c) inventory
  { s with
    inventory
    report := { s.report with unmatched := inventory.unmatched, stage := .inventoryPopulated } }

def observedWatches (s : Run) : List (Coordinate × Resource) :=
  s.inventory.entries.entries.filterMap fun e =>
    if e.1.role = .watched then do
      let watched ← match e.1.owner with
        | some _ => s.controller.watchExact? e.1.target
        | none => s.controller.watchGlobal? e.1.target
      return (watched, ← e.2.existing)
    else none

/-- A watch that failed, and the resource that it failed for. -/
structure WatchFailure where
  failure : Failure
  resource : Ref
deriving DecidableEq

/-- Calls the callbacks in turn and stops at the first failure. -/
def callEach (s : Run) : List (Coordinate × Resource) → Except WatchFailure Unit × Run
  | [] => (.ok (), s.atStage .globalWatchesCalled)
  | (watched, r) :: rest =>
    match s.controller.watched.find? watched with
    | none => s.callEach rest
    | some callback =>
      let s := s.logCall (.watch watched r)
      match callback r with
      | .ok () => s.callEach rest
      | .error failure =>
        (.error ⟨failure.within s!"watch callback for {r.reference.text}", r.reference⟩, s)

def callWatches (s : Run) : Except WatchFailure Unit × Run := s.callEach s.observedWatches

/-- Records a desired child. A child without name takes the name of its parent. -/
def registerChild (parent : Resource) (s : Run) (child : Resource) : Run :=
  let owner := parent.identity
  match if child.name.isEmpty then child.setName parent.name else .ok child with
  | .error fault => s.fail owner parent.reference s!"child of {owner.text}: {fault.message}"
  | .ok child =>
    let target := child.identity
    match s.controller.exchange? target with
    | some exchange =>
      { s with inventory := s.inventory.addDesired (.owned owner target) (some exchange) child }
    | none => s.fail owner parent.reference s!"child {target.text} is not of an owned kind"

def populateParent (populate : Resource → Except Failure (List Resource)) (s : Run)
    (parent : Resource) : Run :=
  let s := s.logCall (.populate parent)
  match populate parent with
  | .ok children => children.foldl (registerChild parent) s
  | .error failure =>
    s.fail parent.identity parent.reference s!"populate children: {failure.line}"

def populateChildren (s : Run) : Run :=
  let parents := s.inventory.governed.filterMap fun e => e.2.existing
  let s := match s.controller.populate with
    | some populate => parents.foldl (populateParent populate) s
    | none => s
  s.atStage .childrenPopulated

def isSettled (s : Run) (k : Key) : Bool :=
  k.role == .owned && !k.owner.any fun owner => owner ∈ s.failed

/-- Commits the differences of the owned entries. Without a populate callback nothing is desired
and nothing is deleted. -/
def updateChildren (s : Run) : Run :=
  let s := if s.controller.populate.isSome then s.commit (s.inventory.plan s.isSettled) else s
  s.atStage .childrenCommitted

def writeManifest (s : Run) : Run :=
  let batch := match s.manifest.toResource with
    | .ok r => (s.batch.write r).1
    | .error fault => s.batch.reportError fault.message (some s.manifestRef)
  { s with batch }.atStage .manifestWritten

/-- What is left when a run is over. -/
structure Outcome where
  report : Report
  batch : Batch
  calls : List Call

def Outcome.ofRun (s : Run) : Outcome := ⟨s.report, s.batch, s.calls⟩

def settle (s : Run) : Run :=
  s.populateChildren.updateChildren.generateAll.writeManifest

/-- All stages. A failing watch aborts the run with one error and leaves the items alone. -/
def finish (s : Run) : Outcome :=
  match s.populateInventory.callWatches with
  | (.ok (), s) => .ofRun s.settle
  | (.error e, s) =>
    .ofRun ({ s with batch := s.batch.reportError e.failure.line (some e.resource) }.atStage .aborted)

end Run

/-- Runs a controller over a batch. A fatal fault at the start leaves one error and no other
change. -/
def Controller.run (c : Controller) (b : Batch) : Run.Outcome :=
  match Run.start c b with
  | .ok s => s.finish
  | .error fault =>
    ⟨{ (default : Report) with stage := .aborted }, b.reportError fault.message none, []⟩

end Reconciler
