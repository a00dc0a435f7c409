import Reconciler.Inventory.Basic

/-! The actions that bring a package from its present to its desired state. -/
namespace Reconciler.Inventory

/-- A resource to write: the desired one for creations and updates, the present one for deletions. -/
structure Change where
  key : Key
  exchange : Option Exchange
  resource : Resource
deriving DecidableEq

/-- Entries that could not be compared have a fault and no action. -/
structure Plan where
  creates : List Change
  updates : List Change
  deletes : List Change
  newConditions : List Key
  staleConditions : List Key
  faults : List (Key × Fault)
deriving DecidableEq

namespace Plan

def empty : Plan := ⟨[], [], [], [], [], []⟩

def append (p q : Plan) : Plan :=
  ⟨p.creates ++ q.creates, p.updates ++ q.updates, p.deletes ++ q.deletes,
    p.newConditions ++ q.newConditions, p.staleConditions ++ q.staleConditions, p.faults ++ q.faults⟩

instance : Append Plan := ⟨append⟩

def actions (p : Plan) : Nat :=
  p.creates.length + p.updates.length + p.deletes.length + p.newConditions.length
    + p.staleConditions.length

/-- Faults are no actions. -/
def isEmpty (p : Plan) : Bool := p.actions == 0

end Plan

/-- Whether the desired resource differs from the present one. Governed resources compare as a
whole, others by their `spec`; one that is flagged for deletion always differs. -/
def isChanged (role : Role) (existing desired : Resource) : Except Fault Bool :=
  if existing.isFlagged then .ok true
  else match role with
    | .governed => .ok !existing.root.structuralEq desired.root
    | .owned | .watched => (!·) <$> existing.subtreeEq desired "spec"

/-- What happens to the resource of an entry. Only owned resources are deleted, and only once. -/
def resourcePlan (k : Key) (e : Entry) : Except Fault Plan :=
  let change (r : Resource) : Change := ⟨k, e.exchange, r⟩
  if k.role = .owned ∧ !e.hasResource then .ok .empty
  else match e.existing, e.desired with
    | none, some new => .ok { Plan.empty with creates := [change new] }
    | some old, none =>
      if k.role = .owned ∧ !old.isFlagged then .ok { Plan.empty with deletes := [change old] }
      else .ok .empty
    | some old, some new => do
      if ← isChanged k.role old new then return { Plan.empty with updates := [change new] }
      else return .empty
    | none, none => .ok .empty

/-- What happens to the condition of an entry. Only owned entries have one of their own. -/
def conditionPlan (k : Key) (e : Entry) : Plan :=
  if k.role = .owned ∧ e.hasCondition then
    match e.condition, e.desired with
    | none, some _ => { Plan.empty with newConditions := [k] }
    | some _, none => { Plan.empty with staleConditions := [k] }
    | _, _ => .empty
  else .empty

/-- An entry whose resources cannot be compared has no condition action either. -/
def entryPlan (k : Key) (e : Entry) : Plan :=
  match resourcePlan k e with
  | .ok plan => plan ++ conditionPlan k e
  | .error fault => { Plan.empty with faults := [(k, fault)] }

def plan (inv : Inventory) (test : Key → Bool) : Plan :=
  (inv.entries.entries.filter fun e => test e.1).foldl (fun p e => p ++ entryPlan e.1 e.2) .empty

end Reconciler.Inventory
