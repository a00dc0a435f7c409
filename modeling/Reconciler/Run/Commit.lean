import Reconciler.Inventory.Plan
import Reconciler.Run.Basic

/-! Carrying out a plan on the batch, the manifest and the inventory. -/
namespace Reconciler.Run

open Inventory (Change Key Plan)

/-- The condition of a child that was written: it does not hold until somebody else says so. -/
def pending (k : Key) (reason message : String) : Condition :=
  ⟨k.conditionType, .isFalse, some reason, message⟩

/-- Flags a resource for deletion and writes it back. Its condition goes with it. One that is
flagged already is left alone. -/
def softDelete (s : Run) (k : Key) (r : Resource) : Run :=
  if r.isFlagged then s
  else match r.flagForDeletion with
    | .error fault => s.fail k.parent r.reference s!"{k.text}: {fault.message}"
    | .ok flagged =>
      let s := s.writeItem flagged
      { s with inventory := s.inventory.setResource k flagged }.deleteCondition k

/-- The resource of a change as it is written: never flagged, and annotated with its owner if it is
owned. -/
def prepared (change : Change) : Except Fault Resource :=
  let r := change.resource.unannotated Resource.deleteAnnotation
  if change.key.role = .owned then r.setOwner change.key.parent else .ok r

/-- Writes a created or updated resource. An update of an exchanged child invalidates its
condition. -/
def writeChange (isUpdate : Bool) (s : Run) (change : Change) : Run :=
  let k := change.key
  let refs := Ref.ownerChildText k.refs
  if !Ref.isOwnerChild k.refs then s.failEntry k s!"invalid reference, {refs}"
  else match prepared change with
    | .error fault => s.failEntry k s!"{refs}: {fault.message}"
    | .ok r =>
      let exchanged := k.role = .owned && change.exchange.any Exchange.hasCondition
      let s := if isUpdate && exchanged then s.writeCondition k (pending k "update" "update resource")
        else s
      if change.exchange.all Exchange.hasResource then
        let s := s.writeItem r
        { s with inventory := s.inventory.setResource k r }
      else s

/-- Faults first, then what goes, then what comes: conditions before resources. -/
def commit (s : Run) (p : Plan) : Run :=
  let s := p.faults.foldl
    (fun s f => s.failEntry f.1 s!"{Ref.ownerChildText f.1.refs}: {f.2.message}") s
  let s := p.staleConditions.foldl deleteCondition s
  let s := p.deletes.foldl (fun s change => s.softDelete change.key change.resource) s
  let s := p.newConditions.foldl
    (fun s k => s.writeCondition k (pending k "create" "create initial resource")) s
  let s := p.creates.foldl (writeChange false) s
  p.updates.foldl (writeChange true) s

end Reconciler.Run
