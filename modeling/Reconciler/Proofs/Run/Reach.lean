import Reconciler.Proofs.Run.Children

/-! The states that a run can be in before its children are committed, however often and in which order
the package is surveyed, the watches are called and the children are asked for. -/
namespace Reconciler

open Inventory (Key Sound)

variable {c : Controller} {b : Batch} {s : Run} {parent child r : Resource}

namespace Controller

/-- Started, and led on by stages that commit nothing. -/
inductive Reaches (c : Controller) (b : Batch) : Run → Prop where
  | start {s : Run} : Run.start c b = .ok s → Reaches c b s
  | survey {s : Run} : Reaches c b s → Reaches c b s.populateInventory
  | watch {s : Run} : Reaches c b s → Reaches c b s.callWatches.2
  | populate {s : Run} : Reaches c b s → Reaches c b s.populateChildren

/-- The stages of a run are one of these ways. -/
theorem reaches_of_populated (h : c.populated b = some s) : c.Reaches b s := by
  obtain ⟨s₀, hs₀, rfl⟩ := Option.map_eq_some_iff.1 h
  rw [surveyed] at hs₀
  split at hs₀
  · cases hs₀
  · rename_i s₁ hstart
    have hwatched := (Reaches.start hstart).survey.watch
    split at hs₀
    · rename_i s₂ hw
      cases hs₀
      rw [hw] at hwatched
      exact hwatched.populate
    · cases hs₀

/-- The children that the callback asks for are documents as they can be read, with keys in order. -/
def AsksWellFormed (c : Controller) : Prop :=
  ∀ populate, c.populate = some populate → ∀ parent children, populate parent = .ok children →
    ∀ child ∈ children, child.root.WellFormed

end Controller

private theorem Resource.wellFormed_adopt (h : parent.adopt child = .ok r)
    (hc : child.root.WellFormed) :
    r.root.WellFormed := by
  rw [adopt] at h
  split at h
  · exact hc.set (v := .string parent.name) trivial (set_eq_ok h)
  · cases h
    exact hc

private theorem Controller.wellFormed_childrenOf (hw : c.AsksWellFormed)
    (h : r ∈ c.childrenOf parent) :
    r.root.WellFormed := by
  rw [childrenOf] at h
  split at h
  · cases h
  · rename_i populate hp
    split at h
    · cases h
    · rename_i children hchildren
      obtain ⟨child, hchild, hr⟩ := List.mem_filterMap.1 h
      exact Resource.wellFormed_adopt (register?_eq_some hr).1
        (hw populate hp parent children hchildren child hchild)

namespace Run

/-- What holds of all these states. -/
structure Prepared (c : Controller) (s : Run) : Prop where
  controller : s.controller = c
  sound : Sound c s.inventory
  governed : ∀ target g, s.inventory.existing? (.governed target) = some g →
    c.governs g.identity = true
  desired : ∀ k r, s.inventory.desired? k = some r → r.root.WellFormed

private theorem prepared_start (h : start c b = .ok s) : Prepared c s := by
  obtain ⟨-, index, root, manifest, -, -, rfl⟩ := start_eq_ok_iff.1 h
  exact ⟨rfl, Sound.empty c, fun _ _ h => (Option.some_ne_none _ h.symm).elim,
    fun _ _ h => (Option.some_ne_none _ h.symm).elim⟩

private theorem existing?_populateInventory (s : Run) (k : Key) :
    s.populateInventory.inventory.existing? k =
    ((s.batch.others s.manifestIndex).reverse.find? fun r => s.controller.keyOf r == some k).or
      (s.inventory.existing? k) :=
  (Inventory.others_observeConditions _).1.trans (Inventory.existing?_observeResources _ _)

private theorem desired?_populateInventory (s : Run) (k : Key) :
    s.populateInventory.inventory.desired? k = s.inventory.desired? k :=
  (Inventory.others_observeConditions _).2.trans (Inventory.others_observeResources _ _).2

private theorem Prepared.populateInventory (h : Prepared c s) : Prepared c s.populateInventory := by
  obtain ⟨rfl, hsound, hgoverned, hdesired⟩ := h
  refine ⟨rfl, (hsound.observeResources _).observeConditions _, fun target g hg => ?_,
    fun k r hr => hdesired k r (desired?_populateInventory s k ▸ hr)⟩
  rw [existing?_populateInventory] at hg
  rcases Option.or_eq_some_iff.1 hg with hnew | ⟨-, hold⟩
  · have hkey := List.find?_some
      (p := fun r => s.controller.keyOf r == some (.governed target)) hnew
    obtain ⟨hgov, hid⟩ := Controller.keyOf_governed_iff.1 (beq_iff_eq.1 hkey)
    rwa [hid]
  · exact hgoverned target g hold

private theorem Prepared.callWatches (h : Prepared c s) : Prepared c s.callWatches.2 := by
  obtain ⟨calls, stage, he, -⟩ := s.callEach_eq s.observedWatches
  rw [Run.callWatches, he]
  exact ⟨h.controller, h.sound, h.governed, h.desired⟩

private theorem Prepared.populateChildren (hw : c.AsksWellFormed) (h : Prepared c s) :
    Prepared c s.populateChildren := by
  obtain ⟨ha, hd, -, -⟩ := s.populateChildren_spec
  have hgoverned : ∀ g ∈ s.parents, c.governs g.identity = true := by
    intro g hg
    obtain ⟨target, hg⟩ := (mem_parents (h.controller ▸ h.sound)).1 hg
    exact h.governed target g hg
  refine ⟨ha.controller.trans h.controller, sound_populateChildren h.controller hgoverned h.sound,
    fun target g hg => ?_, fun k r hr => ?_⟩
  · rw [ha.existing?] at hg
    exact h.governed target g hg
  · rw [hd, h.controller] at hr
    rcases Option.or_eq_some_iff.1 hr with hnew | ⟨-, hold⟩
    · obtain ⟨g, -, hfound⟩ := List.exists_of_findSome?_eq_some hnew
      exact Controller.wellFormed_childrenOf hw
        (List.mem_reverse.1 (List.mem_of_find?_eq_some hfound))
    · exact h.desired k r hold

end Run

theorem Controller.Reaches.prepared (hw : c.AsksWellFormed) (h : c.Reaches b s) :
    Run.Prepared c s := by
  induction h with
  | start hs => exact Run.prepared_start hs
  | survey _ ih => exact ih.populateInventory
  | watch _ ih => exact ih.callWatches
  | populate _ ih => exact ih.populateChildren hw

end Reconciler
