import Reconciler.Inventory.Basic

/-! Which entry a resource or a condition of a package belongs to. -/
namespace Reconciler

namespace Controller

/-- The owner that the annotation names, if the controller governs it. -/
def ownerOf (c : Controller) (r : Resource) : Option Ref := do
  match ← Subject.ofTypeName? (← r.annotation? Resource.ownerAnnotation) with
  | .single owner => if c.governs owner then some owner else none
  | .pair .. => none

/-- The entry of a resource. Owned resources need an owner; watched ones without an owner are
global. -/
def classifyResource (c : Controller) (r : Resource) :
    Option (Inventory.Key × Option Exchange) :=
  let target := r.identity
  if c.governs target then some (.governed target, none)
  else match c.exchange? target with
    | some exchange => (c.ownerOf r).map fun owner => (.owned owner target, some exchange)
    | none =>
      match c.ownerOf r, c.watchExact? target with
      | some owner, some _ => some (.watched (some owner) target, none)
      | _, _ => (c.watchGlobal? target).map fun _ => (.watched none target, none)

end Controller

namespace Inventory

/-- The entry of a condition. The wildcard takes only conditions of resources that were observed
before. -/
def classifyCondition (inv : Inventory) (c : Controller) (condition : Condition) :
    Option (Key × Option Exchange) := do
  match ← Subject.ofTypeName? condition.typeName with
  | .single target =>
    if c.governs target then some (.governed target, none)
    else
      let key := Key.watched none target
      if (c.watchExact? target).isSome || (inv.find? key).isSome then some (key, none) else none
  | .pair owner child =>
    if !c.governs owner then none
    else match c.exchange? child with
      | some exchange =>
        if exchange.hasCondition then some (.owned owner child, some exchange) else none
      | none => (c.watchExact? child).map fun _ => (.watched (some owner) child, none)

def observeResource (inv : Inventory) (c : Controller) (r : Resource) : Inventory :=
  match c.classifyResource r with
  | some (key, exchange) => inv.addResource key exchange r
  | none => inv.noteUnmatched

def observeCondition (inv : Inventory) (c : Controller) (condition : Condition) : Inventory :=
  match inv.classifyCondition c condition with
  | some (key, exchange) => inv.addCondition key exchange condition
  | none => inv.noteUnmatched

end Inventory

end Reconciler
