import Reconciler.Proofs.Inventory.Census
import Reconciler.Proofs.Frame

/-! Nothing is lost when a package is surveyed: each item but the root manifest and each condition of the
manifest is recorded in a slot of its own, or counted as unmatched. -/
namespace Reconciler

variable {c : Controller} {b : Batch} {s : Run} {r : Resource} {x : Condition}

private theorem Batch.length_others {index : Nat} (h : index < b.items.length) :
    (b.others index).length = b.items.length - 1 := by
  rw [others_eq_eraseIdx, List.length_eraseIdx, if_pos h]

namespace Controller

/-- What a survey makes of the items of a package, the root manifest apart, and of the conditions of
its manifest. -/
structure Accounted (c : Controller) (b : Batch) (s : Run) : Prop where
  /-- Each of them counts once, as unmatched or in the slot that it fills. -/
  census : s.populateInventory.inventory.unmatched + s.populateInventory.inventory.resourceCount +
    s.populateInventory.inventory.conditionCount =
      (b.items.length - 1) + s.manifest.conditions.length
  unmatched : s.populateInventory.report.unmatched = s.populateInventory.inventory.unmatched
  /-- An item that fits a class is recorded at one key, -/
  item : ∀ r ∈ b.others s.manifestIndex, c.classifyResource r = none ∨
    ∃ k, s.populateInventory.inventory.existing? k = some r ∧
      ∀ k', s.populateInventory.inventory.existing? k' = some r → k' = k
  /-- and nothing else is recorded as one. -/
  existing : ∀ k r, s.populateInventory.inventory.existing? k = some r →
    r ∈ b.others s.manifestIndex
  /-- It finds no other item in its slot. -/
  item_fresh : ∀ before r after, b.others s.manifestIndex = before ++ r :: after →
    ∀ k exchange, c.classifyResource r = some (k, exchange) →
      (Inventory.survey c before []).existing? k = none
  /-- A condition that fits a class once the items are recorded is recorded at one key, -/
  stated : ∀ x ∈ s.manifest.conditions,
    (Inventory.survey c (b.others s.manifestIndex) []).classifyCondition c x = none ∨
    ∃ k, s.populateInventory.inventory.condition? k = some x ∧
      ∀ k', s.populateInventory.inventory.condition? k' = some x → k' = k
  /-- and nothing else is recorded as one. -/
  condition : ∀ k x, s.populateInventory.inventory.condition? k = some x →
    x ∈ s.manifest.conditions
  /-- It finds no other condition in its slot. -/
  condition_fresh : ∀ before x after, s.manifest.conditions = before ++ x :: after →
    ∀ k exchange,
      (Inventory.survey c (b.others s.manifestIndex) before).classifyCondition c x =
        some (k, exchange) →
      (Inventory.survey c (b.others s.manifestIndex) before).condition? k = none

/-- With distinct identities and distinct condition types a survey accounts for all items and
conditions. -/
theorem survey_accounts (hs : Run.start c b = .ok s) (hb : (b.items.map Resource.identity).Nodup)
    (hm : (s.manifest.conditions.map Condition.typeName).Nodup) : Accounted c b s := by
  have hsurveyed := (surveyed_of_start hs).1
  have hinventory : s.populateInventory.inventory =
      Inventory.survey c (b.others s.manifestIndex) s.manifest.conditions := hsurveyed.inventory
  have hn := Batch.nodup_others hb s.manifestIndex
  constructor
  case census =>
    obtain ⟨hroot, -⟩ := Batch.rootManifest?_eq_some hsurveyed.root
    rw [← Batch.length_others (List.getElem?_eq_some_iff.1 hroot).1, hinventory]
    exact Inventory.census_survey hn hm
  case unmatched => rfl
  case item =>
    intro r hr
    rw [hinventory, ← Option.map_eq_none_iff (f := (·.1))]
    exact Inventory.existsUnique_existing?_survey hn hr
  case existing =>
    intro k r hr
    rw [hinventory] at hr
    exact (Inventory.mem_of_existing?_survey hr).1
  case item_fresh =>
    intro before r after hitems k exchange hk
    rw [hitems] at hn
    exact Inventory.existing?_survey_before hn (by rw [keyOf, hk]; rfl)
  case stated =>
    intro x hx
    rw [hinventory]
    exact Inventory.existsUnique_condition?_survey hm hx
  case condition =>
    intro k x hx
    rw [hinventory, Inventory.condition?_survey_eq_some hm] at hx
    exact hx.2.1
  case condition_fresh =>
    intro before x after hconditions k exchange hk
    rw [hconditions] at hm
    exact Inventory.condition?_survey_before hm hk

def observing : Controller := serving.watching .wildcard fun _ => .ok ()

def observedPackage : Batch :=
  .ofItems [manifestWith "v1.ConfigMap.settings" "True", .minimal ⟨"req/v1", "Interface"⟩ "a",
    .minimal ⟨"ipam/v1", "IPAllocation"⟩ "x", .minimal ⟨"v1", "ConfigMap"⟩ "settings"]

/-- Interface, settings and condition are recorded, and the allocation is left out. -/
theorem survey_accounts_observing : ∃ s, Run.start observing observedPackage = .ok s ∧
    Accounted observing observedPackage s ∧
    s.populateInventory.inventory.unmatched = 1 ∧
    s.populateInventory.inventory.resourceCount = 2 ∧
    s.populateInventory.inventory.conditionCount = 1 := by
  obtain ⟨s, hs, hm, hcounts⟩ : ∃ s, Run.start observing observedPackage = .ok s ∧
      (s.manifest.conditions.map Condition.typeName).Nodup ∧
      s.populateInventory.inventory.unmatched = 1 ∧
      s.populateInventory.inventory.resourceCount = 2 ∧
      s.populateInventory.inventory.conditionCount = 1 :=
    exists_started (by decide +kernel)
  exact ⟨s, hs, survey_accounts hs (by decide +kernel) hm, hcounts⟩

end Controller

end Reconciler
