import Reconciler.Inventory.Basic

/-! When a package, and each governed resource in it, is ready to be generated. -/
namespace Reconciler.Inventory

/-- Whether a governed resource can be generated, and what it is generated from. -/
structure Readiness where
  ready : Bool
  resource : Option Resource
  owned : SortedMap Ref Resource
  watched : SortedMap Ref Resource

def Readiness.resources (r : Readiness) : List Resource := r.owned.values ++ r.watched.values

def conditionHolds (c : Option Condition) : Bool := c.any fun c => !c.isFalse

/-- A local child needs its resource, any other child its condition. -/
def childReady (e : Entry) : Bool :=
  if e.exchange = some .localOnly then e.existing.isSome else conditionHolds e.condition

def isRetired (e : Entry) : Bool := e.desired.isNone && e.existing.any Resource.isFlagged

/-- A global watch needs its resource, and its condition, if there is one, must not be false. -/
def watchReady (e : Entry) : Bool := e.existing.isSome && !e.condition.any Condition.isFalse

def isReady (inv : Inventory) : Bool := inv.globalWatches.all fun e => watchReady e.2

def present (entries : List (Ref × Entry)) : SortedMap Ref Resource :=
  .ofList (entries.filterMap fun e => e.2.existing.map fun r => (e.1, r))

/-- Only the direct children of the governed resource count. -/
def readiness (inv : Inventory) (owner : Ref) (e : Entry) : Readiness :=
  let owned := (inv.children .owned owner).filter fun child => !isRetired child.2
  let watched := inv.children .watched owner
  { ready := owned.all (fun child => childReady child.2)
      && watched.all (fun watch => conditionHolds watch.2.condition)
    resource := e.existing
    owned := present owned
    watched := present watched }

def readyMap (inv : Inventory) : SortedMap Ref Readiness :=
  .ofList (inv.governed.map fun e => (e.1, inv.readiness e.1 e.2))

end Reconciler.Inventory
