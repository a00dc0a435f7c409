import Reconciler.Proofs.Frame
import Reconciler.Proofs.Gating

/-! Children that a run writes: which of them have a false condition afterwards, so that their parents
are not generated in the same run. -/
namespace Reconciler

open Inventory (Action Due Key)

variable {c : Controller} {b : Batch} {s : Run} {p x : Ref} {a : Action} {new g : Resource}

namespace Run

/-- The commit of the children writes the child `x` of `p` into the batch. -/
def WritesChild (s : Run) (p x : Ref) : Prop :=
  ∃ a ∈ s.childActions, a.key = .owned p x ∧ a.isWrite = true ∧ a.effect.item.isSome = true

instance (s : Run) (p x : Ref) : Decidable (s.WritesChild p x) :=
  inferInstanceAs (Decidable (∃ a ∈ s.childActions, _))

end Run

namespace Controller.Gathered

variable (h : Gathered c b s)
include h

variable (hx : c.exchange? x = some .conditionAndResource) (hw : s.WritesChild p x)
include hx hw

private theorem due_of_writesChild : ∃ isUpdate new, s.inventory.desired? (.owned p x) = some new ∧
    (s.inventory.existing? (.owned p x)).isSome = isUpdate ∧ p ∉ s.failed ∧
    c.populate.isSome = true ∧ c.governs p = true ∧
    ∃ r, Action.write isUpdate ⟨.owned p x, some .conditionAndResource, new⟩ ∈ s.childActions ∧
      (Inventory.writeEffect isUpdate ⟨.owned p x, some .conditionAndResource, new⟩).item = some r := by
  obtain ⟨a, ha, hk, hwrite, hi⟩ := hw
  obtain ⟨hpop, q, z, exchange, hf, hgov, hexch, hdue⟩ := h.mem_childActions.1 ha
  cases hdue.key_eq.symm.trans hk
  rw [hx] at hexch
  cases hexch
  obtain ⟨r, hr⟩ := Option.isSome_iff_exists.1 hi
  rcases hdue.item_cases (by simp [hr]) with ⟨old, rfl, -⟩ | ⟨new, rfl, -, hd⟩
  · cases hwrite
  · exact ⟨_, new, hd, rfl, hf, hpop, hgov, r, ha, hr⟩

private theorem touchesCondition_iff : s.TouchesCondition p x ↔
    (s.inventory.existing? (.owned p x)).isSome = true ∨
      s.inventory.condition? (.owned p x) = none := by
  obtain ⟨isUpdate, new, hd, hex, hf, hpop, hgov, r, hmem, hr⟩ := h.due_of_writesChild hx hw
  constructor
  · rintro ⟨a, ha, hk, hc⟩
    obtain ⟨-, q, z, exchange, -, -, -, hdue⟩ := h.mem_childActions.1 ha
    cases hdue.key_eq.symm.trans hk
    cases hdue with
    | fault => exact absurd rfl hc
    | announce _ _ hnone => exact .inr hnone
    | drop _ _ _ hnone => cases hnone.symm.trans hd
    | retire _ _ _ _ hnone => cases hnone.symm.trans hd
    | create => exact absurd (Inventory.writeEffect_condition_of_create _) hc
    | update _ hold => exact .inl (Option.isSome_iff_exists.2 ⟨_, hold⟩)
  · intro hcases
    cases isUpdate with
    | true =>
      refine ⟨_, hmem, rfl, ?_⟩
      rw [Action.effect, Inventory.writeEffect_condition_of_update rfl rfl hr]
      simp
    | false =>
      have hnone : s.inventory.existing? (.owned p x) = none := by simpa using hex
      have hcond := hcases.resolve_left (by simp [hex])
      obtain ⟨plan, hplan⟩ : ∃ plan, Inventory.resourcePlan (.owned p x)
          (s.childEntry p x .conditionAndResource) = .ok plan := by
        cases hplan : Inventory.resourcePlan (.owned p x)
            (s.childEntry p x .conditionAndResource) with
        | ok plan => exact ⟨plan, rfl⟩
        | error fault =>
          obtain ⟨-, old, -, hold, -⟩ := Inventory.resourcePlan_eq_error_iff.1 hplan
          cases hold.symm.trans hnone
      refine ⟨.announce (.owned p x), ?_, rfl, by simp [Action.effect]⟩
      exact h.mem_childActions.2 ⟨hpop, p, x, _, hf, hgov, hx, .announce rfl rfl hcond hd hplan⟩

variable (hr : s.inventory.Readable)
include hr

private theorem readable_of_writesChild : (s.inventory.find? (.owned p x)).isSome = true ∧
    (Key.owned p x).subject.Readable ∧
    s.Agrees (fun x y => x.isSome = y.isSome) (.owned p x) := by
  obtain ⟨-, new, hd, -⟩ := h.due_of_writesChild hx hw
  have hk : (s.inventory.find? (.owned p x)).isSome = true :=
    h.sound.isSome_find?_iff.2 (.inr (.inr (by simp [hd])))
  have hread := hr.subject hk
  exact ⟨hk, hread, h.agrees_isSome hread
    (h.takes hread hk fun _ => by rw [Key.owned, hx]; rfl)⟩

private theorem isFalse_of_written :
    (s.updateChildren.manifest.condition? (Subject.pairType p x)).any Condition.isFalse = true ↔
      (s.inventory.existing? (.owned p x)).isSome = true ∨
        (s.manifest.condition? (Subject.pairType p x)).all Condition.isFalse = true := by
  obtain ⟨-, new, hd, -⟩ := h.due_of_writesChild hx hw
  obtain ⟨hk, -, hsame⟩ := h.readable_of_writesChild hx hw hr
  have htouch := h.touchesCondition_iff hx hw
  have hdist := hr.distinguishes h.sound hk
  rw [show Subject.pairType p x = (Key.owned p x).conditionType from rfl]
  by_cases ht : s.TouchesCondition p x
  · have hcases := htouch.1 ht
    obtain ⟨a, ha, hak, hlast⟩ := Run.findCondition_of_touched hdist ht
    refine iff_of_true (Run.isFalse_of_desired h.sound_self ha hak hd hlast) (hcases.imp id fun hnone => ?_)
    have hmanifest : s.manifest.condition? (Key.owned p x).conditionType = none := by
      rw [Run.Agrees, hnone, Option.isSome_none] at hsame
      exact Option.isSome_eq_false_iff.1 hsame.symm |> Option.isNone_iff_eq_none.1
    rw [hmanifest]
    rfl
  · have hkeep := Run.findCondition_of_untouched hdist ht
    rw [htouch, not_or] at ht
    obtain ⟨hnew, hsome⟩ := ht
    have hmanifest : (s.manifest.condition? (Key.owned p x).conditionType).isSome = true :=
      hsame.symm.trans (Option.isSome_iff_ne_none.2 hsome)
    obtain ⟨y, hy⟩ := Option.isSome_iff_exists.1 hmanifest
    rw [hkeep, hy]
    simp [hnew]

private theorem condition_of_generated (hp : c.populated b = some s)
    (hg : g ∈ (c.run b).generated) (hid : g.identity = p) :
    s.inventory.existing? (.owned p x) = none ∧
      ∃ y ∈ s.manifest.conditions, y.typeName = Subject.pairType p x ∧ y.isFalse = false := by
  subst hid
  obtain ⟨-, new, hd, -⟩ := h.due_of_writesChild hx hw
  have hholds := h.conditionHolds_of_generated hp hg hd (by simp [hx])
  by_cases ht : s.TouchesCondition g.identity x
  · obtain ⟨a, ha, hak, hlast⟩ := Run.condition?_of_touched ht
    have hfalse := Run.isFalse_of_desired h.sound_self ha hak hd hlast
    obtain ⟨y, hy, hyf⟩ := (Option.any_eq_true _ _).1 hfalse
    rw [hy] at hholds
    simp [Inventory.conditionHolds, hyf] at hholds
  · rw [Run.condition?_of_untouched ht] at hholds
    rw [h.touchesCondition_iff hx hw, not_or] at ht
    refine ⟨by simpa using ht.1, ?_⟩
    obtain ⟨hk, hread, -⟩ := h.readable_of_writesChild hx hw hr
    obtain ⟨y, hy, hyf⟩ := (Option.any_eq_true _ _).1 hholds
    rw [h.condition?_of_readable hread] at hy
    split at hy
    · have hm := List.mem_reverse.1 (List.mem_of_find?_eq_some hy)
      have htype := List.find?_some
        (p := fun y : Condition => y.typeName == (Key.owned g.identity x).conditionType) hy
      exact ⟨y, hm, beq_iff_eq.1 htype, by simpa using hyf⟩
    · cases hy

end Controller.Gathered

namespace Controller

/-- A written child has a false condition afterwards, unless it was created beside one that was not
false. Only then can its parent be generated in the same run. -/
theorem written_child_pending (hs : c.populated b = some s) (hr : s.inventory.Readable)
    (hx : c.exchange? x = some .conditionAndResource) (hw : s.WritesChild p x) :
    ((s.updateChildren.manifest.condition? (Subject.pairType p x)).any Condition.isFalse = true ↔
      (s.inventory.existing? (.owned p x)).isSome = true ∨
        (s.manifest.condition? (Subject.pairType p x)).all Condition.isFalse = true) ∧
    ∀ g ∈ (c.run b).generated, g.identity = p →
      s.inventory.existing? (.owned p x) = none ∧
        ∃ y ∈ s.manifest.conditions, y.typeName = Subject.pairType p x ∧ y.isFalse = false := by
  have h := gathered_spec hs
  exact ⟨h.isFalse_of_written hx hw hr, fun g hg hid => h.condition_of_generated hx hw hr hs hg hid⟩

def stalePackage (status : String) : Batch :=
  .ofItems [manifestWith "req/v1.Interface.a_ipam/v1.IPAllocation.x" status,
    .minimal ⟨"req/v1", "Interface"⟩ "a"]

/-- The allocation is created, its condition stays false, and the interface is not generated. -/
theorem written_child_pending_serving : ∃ s, serving.populated (stalePackage "False") = some s ∧
    (s.updateChildren.manifest.condition?
      "req/v1.Interface.a_ipam/v1.IPAllocation.x").any Condition.isFalse = true ∧
    ∀ g ∈ (serving.run (stalePackage "False")).generated,
      g.identity ≠ Coordinate.named ⟨"req/v1", "Interface"⟩ "a" := by
  obtain ⟨s, hs, hread, hwrites, hall⟩ : ∃ s, serving.populated (stalePackage "False") = some s ∧
      s.inventory.Readable ∧
      s.WritesChild (Coordinate.named ⟨"req/v1", "Interface"⟩ "a")
        (Coordinate.named ⟨"ipam/v1", "IPAllocation"⟩ "x") ∧
      ∀ y ∈ s.manifest.conditions, y.isFalse = true := by
    decide +kernel
  obtain ⟨hfalse, hgenerated⟩ := written_child_pending hs hread (by decide +kernel) hwrites
  refine ⟨s, hs, hfalse.2 (.inr ?_), fun g hg hid => ?_⟩
  · refine Option.all_eq_true _ _ |>.2 fun y hy => hall y ?_
    exact List.mem_of_find?_eq_some hy
  · obtain ⟨-, y, hy, -, hyf⟩ := hgenerated g hg hid
    rw [hall y hy] at hyf
    cases hyf

/-- The allocation is created, its condition stays true, and the interface is generated from it. -/
theorem created_child_ready : ∃ s, serving.populated (stalePackage "True") = some s ∧
    s.inventory.Readable ∧
    serving.exchange? (Coordinate.named ⟨"ipam/v1", "IPAllocation"⟩ "x") =
      some .conditionAndResource ∧
    s.WritesChild (Coordinate.named ⟨"req/v1", "Interface"⟩ "a")
      (Coordinate.named ⟨"ipam/v1", "IPAllocation"⟩ "x") ∧
    (s.updateChildren.manifest.condition?
      "req/v1.Interface.a_ipam/v1.IPAllocation.x").any Condition.isFalse = false ∧
    ∃ g ∈ (serving.run (stalePackage "True")).generated,
      g.identity = Coordinate.named ⟨"req/v1", "Interface"⟩ "a" := by
  decide +kernel

end Controller

end Reconciler
