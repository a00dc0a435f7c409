import Reconciler.Proofs.Frame
import Reconciler.Proofs.Run.Reach

/-! Committing the children settles what was planned for them: each action is carried out unless its
owner fails, and a plan that is made again for the other owners has no action. -/
namespace Reconciler

open Inventory (Action Due Key Plan Sound)

variable {c : Controller} {b : Batch} {s : Run} {p x : Ref} {exchange : Exchange} {a a' : Action}
  {k : Key} {new r : Resource}

namespace Inventory

/-- A plan without actions has nothing but faults. -/
theorem Plan.isEmpty_iff {plan : Plan} :
    plan.isEmpty = true ↔ ∀ a ∈ plan.schedule, ∃ k fault, a = .fault k fault := by
  simp only [Plan.isEmpty, Plan.actions, Plan.schedule, Plan.departures, Plan.arrivals, beq_iff_eq,
    Nat.add_eq_zero_iff, List.length_eq_zero_iff]
  constructor
  · rintro ⟨⟨⟨⟨hc, hu⟩, hd⟩, hn⟩, hs⟩ a ha
    simp only [hc, hu, hd, hn, hs, List.map_nil, List.append_nil, List.mem_map] at ha
    obtain ⟨⟨k, fault⟩, -, rfl⟩ := ha
    exact ⟨k, fault, rfl⟩
  · intro h
    simp only [List.mem_append, List.mem_map, or_imp, forall_and] at h
    obtain ⟨⟨⟨-, hs⟩, hd⟩, ⟨hn, hc⟩, hu⟩ := h
    have hnil {α : Type} {l : List α} {f : α → Action} (hf : ∀ y k fault, f y ≠ .fault k fault)
        (hl : ∀ a, (∃ y ∈ l, f y = a) → ∃ k fault, a = .fault k fault) : l = [] := by
      rw [List.eq_nil_iff_forall_not_mem]
      intro y hy
      obtain ⟨k, fault, he⟩ := hl _ ⟨y, hy, rfl⟩
      exact hf y k fault he
    exact ⟨⟨⟨⟨hnil (by simp) hc, hnil (by simp) hu⟩, hnil (by simp) hd⟩, hnil (by simp) hn⟩,
      hnil (by simp) hs⟩

/-- An action is achieved if the inventory holds at its key what the action was to bring about. A
fault is never achieved. -/
def Achieves (inv : Inventory) : Action → Prop
  | .fault .. => False
  | .drop k => inv.condition? k = none
  | .retire change => inv.condition? change.key = none ∧
      ∃ r, change.resource.flagForDeletion = .ok r ∧ inv.existing? change.key = some r
  | .announce k => (inv.condition? k).any Condition.isFalse = true
  | .write isUpdate change =>
      (∃ r, Run.prepared change = .ok r ∧ inv.existing? change.key = some r) ∧
        (isUpdate = true → change.exchange.any Exchange.hasCondition = true →
          (inv.condition? change.key).any Condition.isFalse = true)

private theorem Due.eq_of_item {e : Entry} (h : Due k e a) (h' : Due k e a')
    (hi : a.effect.item ≠ none) (hi' : a'.effect.item ≠ none) : a' = a := by
  rcases h.item_cases hi with ⟨old, rfl, -, -, hold, -, hd⟩ | ⟨new, rfl, -, hd⟩ <;>
    rcases h'.item_cases hi' with ⟨old', rfl, -, -, hold', -, hd'⟩ | ⟨new', rfl, -, hd'⟩
  · cases hold.symm.trans hold'
    rfl
  · cases hd.symm.trans hd'
  · cases hd.symm.trans hd'
  · cases hd.symm.trans hd'
    rfl

private theorem isChanged_renew (hw : new.root.WellFormed) (h : new.renew p = .ok r) :
    isChanged .owned r new ≠ .ok true := by
  have hspec := (Resource.sameBody_renew h).spec
  have hflag := Resource.isFlagged_renew h
  rw [isChanged, hflag]
  intro hchanged
  cases hs : r.subtreeEq new "spec" with
  | error fault =>
    rw [hs] at hchanged
    cases hchanged
  | ok same =>
    obtain ⟨-, y, -, hy, -⟩ := Resource.subtreeEq_eq_ok_iff.1 hs
    have hsame := Resource.subtreeEq_congr hspec (Resource.subtreeEq_self hw hy)
    rw [hsame] at hchanged
    cases hchanged

end Inventory

namespace Run

section Settled

variable (hs : Sound s.controller s.inventory) (hx : s.controller.exchange? x = some exchange)
include hs hx

private theorem due_of_mem (ha : a ∈ s.childActions) (hk : a.key = .owned p x) :
    Due (.owned p x) (s.childEntry p x exchange) a := by
  obtain ⟨-, q, y, exchange', -, -, hx', hdue⟩ := (mem_childActions hs).1 ha
  cases hdue.key_eq.symm.trans hk
  cases hx'.symm.trans hx
  exact hdue

private theorem existing?_of_action (ha : a ∈ s.childActions) (hk : a.key = .owned p x)
    (hi : a.effect.item = some r) :
    s.updateChildren.inventory.existing? (.owned p x) = some r := by
  have hne : a.effect.item ≠ none := by simp [hi]
  obtain ⟨a', ha', hk', hi', hlast⟩ := existing?_of_touched ⟨a, ha, hk, hne⟩
  cases (due_of_mem hs hx ha hk).eq_of_item (due_of_mem hs hx ha' hk') hne hi'
  rw [hlast, hi]

omit hx in
private theorem isFalse_of_touched (ht : s.TouchesCondition p x)
    (hd : s.inventory.desired? (.owned p x) = some new) :
    (s.updateChildren.inventory.condition? (.owned p x)).any Condition.isFalse = true := by
  obtain ⟨a, ha, hk, hlast⟩ := condition?_of_touched ht
  exact isFalse_of_desired hs ha hk hd hlast

omit hx in
private theorem eq_none_of_touched (ht : s.TouchesCondition p x)
    (hd : s.inventory.desired? (.owned p x) = none) :
    s.updateChildren.inventory.condition? (.owned p x) = none := by
  obtain ⟨a, ha, hk, hlast⟩ := condition?_of_touched ht
  exact condition_of_undesired hs ha hk hd hlast

variable (hpop : s.controller.populate.isSome = true) (hp : p ∉ s.updateChildren.failed)
  (hgov : s.controller.governs p = true)
include hpop hp hgov

private theorem carried_out (hdue : Due (.owned p x) (s.childEntry p x exchange) a) :
    a ∈ s.childActions ∧ a.key = .owned p x ∧ a.effect.rejected = false := by
  have ha := (mem_childActions hs).2 ⟨hpop, p, x, exchange, not_failed hp, hgov, hx, hdue⟩
  exact ⟨ha, hdue.key_eq, not_rejected hp ha hdue.key_eq⟩

private theorem achieves_of_due (hdue : Due (.owned p x) (s.childEntry p x exchange) a) :
    s.updateChildren.inventory.Achieves a := by
  obtain ⟨ha, hk, hrej⟩ := carried_out hs hx hpop hp hgov hdue
  cases hdue with
  | fault => cases hrej
  | drop _ _ _ hd => exact eq_none_of_touched hs ⟨_, ha, hk, by simp [Action.effect]⟩ hd
  | retire _ _ hold hf hd =>
    obtain ⟨flagged, hflag, he⟩ := Inventory.retireEffect_eq_of_not_rejected hf hrej
    refine ⟨eq_none_of_touched hs ⟨_, ha, hk, ?_⟩ hd, flagged, hflag,
      existing?_of_action hs hx ha hk ?_⟩
    · rw [Action.effect, he]
      exact Option.some_ne_none _
    · rw [Action.effect, he]
  | announce _ _ _ hd => exact isFalse_of_touched hs ⟨_, ha, hk, by simp [Action.effect]⟩ hd
  | create hm _ hd =>
    obtain ⟨r, hprep, hi⟩ := Inventory.writeEffect_of_not_rejected hrej (hm rfl)
    refine ⟨⟨r, hprep, existing?_of_action hs hx ha hk hi⟩, fun hu => ?_⟩
    cases hu
  | update hm _ hd _ =>
    obtain ⟨r, hprep, hi⟩ := Inventory.writeEffect_of_not_rejected hrej (hm rfl)
    refine ⟨⟨r, hprep, existing?_of_action hs hx ha hk hi⟩, fun _ hc => ?_⟩
    refine isFalse_of_touched hs ⟨_, ha, hk, ?_⟩ hd
    rw [Action.effect, Inventory.writeEffect_condition_of_update rfl hc hi]
    exact Option.some_ne_none _

private theorem condition?_of_undesired (hc : exchange.hasCondition = true)
    (hd : s.inventory.desired? (.owned p x) = none) :
    s.updateChildren.inventory.condition? (.owned p x) = none := by
  by_cases ht : s.TouchesCondition p x
  · exact eq_none_of_touched hs ht hd
  · rw [condition?_of_untouched ht]
    cases hold : s.inventory.condition? (.owned p x) with
    | none => rfl
    | some y =>
      obtain ⟨ha, hk, -⟩ := carried_out hs hx hpop hp hgov (.drop rfl hc hold hd)
      exact absurd ⟨_, ha, hk, by simp [Action.effect]⟩ ht

private theorem condition?_of_desired (hc : exchange.hasCondition = true)
    (hd : s.inventory.desired? (.owned p x) = some new) :
    s.updateChildren.inventory.condition? (.owned p x) ≠ none := by
  by_cases ht : s.TouchesCondition p x
  · intro hnone
    have hfalse := isFalse_of_touched hs ht hd
    rw [hnone] at hfalse
    cases hfalse
  · rw [condition?_of_untouched ht]
    intro hnone
    -- the child could be compared, as its owner would have failed otherwise
    obtain ⟨plan, hplan⟩ : ∃ plan, Inventory.resourcePlan (.owned p x) (s.childEntry p x exchange) =
        .ok plan := by
      cases hplan : Inventory.resourcePlan (.owned p x) (s.childEntry p x exchange) with
      | ok plan => exact ⟨plan, rfl⟩
      | error fault =>
        obtain ⟨hm, old, new', hold, hnew, hfault⟩ := Inventory.resourcePlan_eq_error_iff.1 hplan
        obtain ⟨-, -, hr⟩ := carried_out hs hx hpop hp hgov (.fault hm hold hnew hfault)
        cases hr
    obtain ⟨ha, hk, -⟩ := carried_out hs hx hpop hp hgov (.announce rfl hc hnone hd hplan)
    exact absurd ⟨_, ha, hk, by simp [Action.effect]⟩ ht

private theorem isFlagged_of_undesired (hm : exchange.hasResource = true)
    (hd : s.inventory.desired? (.owned p x) = none)
    (hr : s.updateChildren.inventory.existing? (.owned p x) = some r) : r.isFlagged = true := by
  by_cases ht : ∃ a ∈ s.childActions, a.key = .owned p x ∧ a.effect.item ≠ none
  · obtain ⟨a, ha, hk, hi, hlast⟩ := existing?_of_touched ht
    rw [hlast] at hr
    rcases (due_of_mem hs hx ha hk).item_cases hi with ⟨old, rfl, -⟩ | ⟨new, -, -, hnew⟩
    · exact Resource.isFlagged_flagForDeletion (Inventory.retireEffect_item hr).2
    · cases hnew.symm.trans hd
  · rw [existing?_of_untouched ht] at hr
    cases hf : r.isFlagged with
    | true => rfl
    | false =>
      obtain ⟨ha, hk, hrej⟩ := carried_out hs hx hpop hp hgov (.retire rfl hm hr hf hd)
      obtain ⟨flagged, -, hi⟩ := Inventory.retireEffect_of_not_rejected hf hrej
      exact absurd ⟨_, ha, hk, by simp [Action.effect, hi]⟩ ht

private theorem existing?_of_desired (hm : exchange.hasResource = true)
    (hd : s.inventory.desired? (.owned p x) = some new) (hw : new.root.WellFormed) :
    ∃ r, s.updateChildren.inventory.existing? (.owned p x) = some r ∧
      Inventory.isChanged .owned r new ≠ .ok true := by
  by_cases ht : ∃ a ∈ s.childActions, a.key = .owned p x ∧ a.effect.item ≠ none
  · obtain ⟨a, ha, hk, hi, hlast⟩ := existing?_of_touched ht
    obtain ⟨r, hr⟩ := Option.ne_none_iff_exists'.1 hi
    refine ⟨r, hlast.trans hr, ?_⟩
    rcases (due_of_mem hs hx ha hk).item_cases hi with ⟨-, -, -, -, -, -, hnone⟩ | ⟨_, rfl, -, hnew⟩
    · cases hnone.symm.trans hd
    · cases hnew.symm.trans hd
      obtain ⟨hprep, -⟩ := Inventory.writeEffect_item_iff.1 hr
      rw [prepared_owned] at hprep
      exact Inventory.isChanged_renew hw hprep
  · -- without a write the child was there, and equal to the desired one
    have hnot {isUpdate : Bool} (hdue : Due (.owned p x) (s.childEntry p x exchange)
        (.write isUpdate ⟨.owned p x, some exchange, new⟩)) : False := by
      obtain ⟨ha, hk, hrej⟩ := carried_out hs hx hpop hp hgov hdue
      obtain ⟨r, -, hi⟩ := Inventory.writeEffect_of_not_rejected hrej hm
      exact ht ⟨_, ha, hk, by simp [Action.effect, hi]⟩
    rw [existing?_of_untouched ht]
    cases hold : s.inventory.existing? (.owned p x) with
    | none => exact (hnot (.create (fun _ => hm) hold hd)).elim
    | some r => exact ⟨r, rfl, fun hc => hnot (.update (fun _ => hm) hold hd hc)⟩

end Settled

private theorem Prepared.achieves_of_mem (h : Prepared c s) (ha : a ∈ s.childActions) :
    a.key.parent ∈ s.updateChildren.failed ∨ s.updateChildren.inventory.Achieves a := by
  obtain ⟨rfl, hs, -, -⟩ := h
  obtain ⟨hpop, p, x, exchange, -, hgov, hx, hdue⟩ := (mem_childActions hs).1 ha
  by_cases hp : p ∈ s.updateChildren.failed
  · rw [hdue.key_eq]
    exact .inl hp
  · exact .inr (achieves_of_due hs hx hpop hp hgov hdue)

private theorem Prepared.fault_of_mem_updateChildren (h : Prepared c s)
    (hpop : c.populate.isSome = true)
    (ha : a ∈ s.updateChildren.childActions) : ∃ k fault, a = .fault k fault := by
  obtain ⟨rfl, hs, -, hw⟩ := h
  have ht : Sound s.updateChildren.controller s.updateChildren.inventory := by
    rw [controller_updateChildren]
    exact sound_updateChildren hs
  obtain ⟨-, p, x, exchange, hp, hgov, hx, hdue⟩ := (mem_childActions ht).1 ha
  rw [controller_updateChildren] at hgov hx
  have hsame := s.desired?_updateChildren (.owned p x)
  cases hdue with
  | fault => exact ⟨_, _, rfl⟩
  | drop _ hc hold hd =>
    have hnone := condition?_of_undesired hs hx hpop hp hgov hc (hsame.symm.trans hd)
    cases hnone.symm.trans hold
  | retire _ hm hold hf hd =>
    have hflag := isFlagged_of_undesired hs hx hpop hp hgov hm (hsame.symm.trans hd) hold
    rw [hf] at hflag
    cases hflag
  | announce _ hc hnone hd =>
    exact absurd hnone (condition?_of_desired hs hx hpop hp hgov hc (hsame.symm.trans hd))
  | create hm hnone hd =>
    have hd := hsame.symm.trans hd
    obtain ⟨r, hr, -⟩ := existing?_of_desired hs hx hpop hp hgov (hm rfl) hd (hw _ _ hd)
    cases hr.symm.trans hnone
  | update hm hold hd hc =>
    have hd := hsame.symm.trans hd
    obtain ⟨r, hr, hsettled⟩ := existing?_of_desired hs hx hpop hp hgov (hm rfl) hd (hw _ _ hd)
    cases hr.symm.trans hold
    exact absurd hc hsettled

end Run

namespace Controller

/-- From any state that a run can be in before its children are committed, the commit achieves what
is planned for owners that do not fail, and leaves nothing to do for them. -/
theorem commit_settles (h : c.Reaches b s) (hpop : c.populate.isSome = true)
    (hw : c.AsksWellFormed) :
    (∀ k, s.updateChildren.inventory.desired? k = s.inventory.desired? k) ∧
    (∀ a ∈ (s.inventory.plan s.isSettled).schedule, a.key.parent ∈ s.updateChildren.failed ∨
      s.updateChildren.inventory.Achieves a) ∧
    (s.updateChildren.inventory.plan s.updateChildren.isSettled).isEmpty = true := by
  have hprepared := h.prepared hw
  have hplan {t : Run} (hc : t.controller = c) : t.inventory.plan t.isSettled = t.childPlan := by
    rw [Run.childPlan, hc, if_pos hpop]
  refine ⟨s.desired?_updateChildren, fun a ha => ?_, ?_⟩
  · rw [hplan hprepared.controller] at ha
    exact hprepared.achieves_of_mem ha
  · rw [hplan (s.controller_updateChildren.trans hprepared.controller), Inventory.Plan.isEmpty_iff]
    exact fun a ha => hprepared.fault_of_mem_updateChildren hpop ha

def contestedPackage : Batch :=
  .ofItems [manifestWith "req/v1.Interface.a_ipam/v1.IPAllocation.y" "True",
    .minimal ⟨"req/v1", "Interface"⟩ "a", .minimal ⟨"req/v1", "Interface"⟩ "b"]

private theorem asksWellFormed_serving : serving.AsksWellFormed := by
  rintro _ ⟨⟩ parent _ ⟨⟩ child hchild
  cases List.mem_singleton.1 hchild
  exact Resource.wellFormed_minimal _ _

/-- The allocation is planned for both interfaces, and brought for both. -/
theorem commit_settles_serving : ∃ s, serving.populated contestedPackage = some s ∧
    (s.inventory.plan s.isSettled).actions = 5 ∧ s.updateChildren.failed = [] ∧
    (∀ a ∈ (s.inventory.plan s.isSettled).schedule, s.updateChildren.inventory.Achieves a) ∧
    (s.updateChildren.inventory.plan s.updateChildren.isSettled).isEmpty = true := by
  obtain ⟨s, hs, hactions, hfailed⟩ : ∃ s, serving.populated contestedPackage = some s ∧
      (s.inventory.plan s.isSettled).actions = 5 ∧ s.updateChildren.failed = [] := by
    decide +kernel
  obtain ⟨-, hachieved, hempty⟩ := commit_settles (reaches_of_populated hs) rfl asksWellFormed_serving
  refine ⟨s, hs, hactions, hfailed, fun a ha => (hachieved a ha).resolve_left ?_, hempty⟩
  rw [hfailed]
  exact List.not_mem_nil

end Controller

end Reconciler
