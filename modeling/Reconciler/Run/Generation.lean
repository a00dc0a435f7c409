import Reconciler.Inventory.Readiness
import Reconciler.Run.Commit

/-! Generation of governed resources, as far as package and resource are ready. -/
namespace Reconciler.Run

open Inventory (Key Readiness)

variable (generate : Option Resource → List Resource → Except Failure (Option Resource))

def done (k : Key) : Condition := ⟨k.conditionType, .isTrue, none, "done"⟩

/-- The rendered resource as it is kept: never flagged, and its own owner when nothing is owned. -/
def rendered (c : Controller) (r : Ref) (o : Resource) : Except Fault Resource :=
  let o := o.unannotated Resource.deleteAnnotation
  if c.owned.isEmpty then o.setOwner r else .ok o

def accept (s : Run) (r : Ref) (o : Resource) : Run :=
  let k := Key.governed r
  let s := { s with
    report := { s.report with generated := s.report.generated + 1 }
    inventory := s.inventory.addDesired k none o }
  let s := s.writeCondition k (done k)
  s.commit (s.inventory.plan fun k' => k' == k)

def generateOne (s : Run) (r : Ref) (governed : Option Resource) (resources : List Resource) : Run :=
  let place := (governed.map Resource.reference).getD s.manifestRef
  let s := s.logCall (.generate governed resources)
  match generate governed resources with
  | .error failure => s.fail r place s!"error generating {r.text}: {failure.line}"
  | .ok none =>
    s.fail r place s!"cannot generate resource, generator returned nothing for {r.text}"
  | .ok (some o) =>
    match rendered s.controller r o with
    | .error fault => s.fail r place s!"error generating {r.text}: {fault.message}"
    | .ok o => s.accept r o

/-- A package without governed resources gets one that is named after it. -/
def generateSynthetic (s : Run) : Run :=
  if s.manifest.name.isEmpty then
    s.fail s.controller.governed.toRef s.manifestRef "package has no name to generate from"
  else s.generateOne generate (s.controller.governed.named s.manifest.name) none []

/-- A governed resource that is in the package: skipped after a failure, soft-deleted or left alone
when it is not ready, generated otherwise. -/
def generateReady (s : Run) (r : Ref) (readiness : Readiness) : Run :=
  match readiness.resource with
  | none => s
  | some governed =>
    if r ∈ s.failed then s
    else if !readiness.ready then
      if s.controller.owned.isEmpty then s.softDelete (.governed r) governed else s
    else s.generateOne generate r (some governed) readiness.resources

def retireGoverned (s : Run) (readiness : List (Ref × Readiness)) : Run :=
  if s.controller.owned.isEmpty then
    readiness.foldl (fun s e =>
      match e.2.resource with
      | some governed => s.softDelete (.governed e.1) governed
      | none => s) s
  else s

def dropOrphanConditions (s : Run) (readiness : List (Ref × Readiness)) : Run :=
  readiness.foldl (fun s e =>
    if e.2.resource.isNone then s.deleteCondition (.governed e.1) else s) s

/-- Nothing is generated while the package is not ready. -/
def generateAll (s : Run) : Run :=
  let ready := s.inventory.isReady
  let readiness := s.inventory.readyMap.entries
  let s := { s with report := { s.report with ready := some ready } }
  let s :=
    if !ready then
      let s := s.retireGoverned readiness
      { s with batch := s.batch.notify "dependencies not ready, generation skipped" .info none }
    else
      let s := s.dropOrphanConditions readiness
      match s.controller.generate with
      | none => s
      | some generate =>
        let s := if readiness.all fun e => e.2.resource.isNone then s.generateSynthetic generate
          else s
        readiness.foldl (fun s e => s.generateReady generate e.1 e.2) s
  s.atStage .generated

end Reconciler.Run
