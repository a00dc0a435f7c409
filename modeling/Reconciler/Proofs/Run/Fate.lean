import Reconciler.Proofs.Root
import Reconciler.Proofs.Run.Outcome

/-! What the commit of the children makes of the item at one identity: it stays, a child that some
governed resource desires takes its place, or it is flagged. -/
namespace Reconciler

open Inventory (Action Key)

variable {c : Controller} {b : Batch} {s : Run} {p q x : Ref} {new old r item : Resource}
  {old? new? : Option Resource}

namespace Run

/-- Desired children are well-formed, and neither governed nor manifests. -/
def DesiresLeaves (s : Run) : Prop :=
  ∀ p x new, s.inventory.desired? (.owned p x) = some new →
    new.root.WellFormed ∧ s.controller.governs x = false ∧ Manifest.describes new = false

/-- The item at an identity before and after the commit of the children. -/
inductive Fate (s : Run) (x : Ref) : Option Resource → Option Resource → Prop where
  | kept {old? : Option Resource} :
      (∀ a ∈ s.childActions, ∀ r, a.effect.item = some r → r.identity ≠ x) → Fate s x old? old?
  | brought {old? other? : Option Resource} {p : Ref} {new r : Resource} {isUpdate : Bool} :
      .write isUpdate ⟨.owned p x, s.controller.exchange? x, new⟩ ∈ s.childActions →
      s.Brings p x new r → Fate s x old? (some (Batch.merged other? r))
  | retired {old r : Resource} {other? : Option Resource} {q : Ref} : s.Retires q x old r →
      (∀ isUpdate change r, .write isUpdate change ∈ s.childActions →
        (Inventory.writeEffect isUpdate change).item = some r → r.identity ≠ x) →
      Fate s x (some old) (some (Batch.merged other? r))

end Run

namespace Controller.Populated

variable (h : Populated c b s)
include h

theorem identity_of_brings (hb : s.Brings p x new r) : new.identity = x ∧ r.identity = x := by
  have hid := (h.desired?_owned hb.desired).1
  exact ⟨hid, (Resource.sameBody_renew hb.renewed).identity.trans hid⟩

theorem identity_of_retires (hr : s.Retires q x old r) : r.identity = x :=
  (Resource.SameBody.annotated hr.flagged).identity.trans (h.existing?_owned hr.existing).2.1

/-- Whatever the commit does at an identity is one of the three. -/
theorem fate (hn : (b.items.map Resource.identity).Nodup) (x : Ref) :
    s.Fate x (Batch.itemAt b.items x) (Batch.itemAt s.updateChildren.batch.items x) := by
  by_cases hwrite : ∃ isUpdate change r, .write isUpdate change ∈ s.childActions ∧
      (Inventory.writeEffect isUpdate change).item = some r ∧ r.identity = x
  · obtain ⟨isUpdate, change, r, ha, hi, hid⟩ := hwrite
    obtain ⟨isUpdate, change, r, ha, hi, hid, other?, hitem⟩ := Run.itemAt_of_written ha hi hid
    subst hid
    rcases h.writes_cases ha hi with ⟨p, isUpdate', new, heq, hb⟩ | ⟨q, old, heq, -⟩
    · rw [hitem]
      cases heq
      rw [← h.controller] at ha
      exact .brought ha hb
    · cases heq
  · have hnot (isUpdate : Bool) (change : Inventory.Change) (r : Resource)
        (ha : .write isUpdate change ∈ s.childActions)
        (hi : (Inventory.writeEffect isUpdate change).item = some r) : r.identity ≠ x :=
      fun hid => hwrite ⟨isUpdate, change, r, ha, hi, hid⟩
    by_cases hretire : ∃ a ∈ s.childActions, ∃ r, a.effect.item = some r ∧ r.identity = x
    · obtain ⟨a, ha, r, hi, rfl⟩ := hretire
      rcases h.writes_cases ha hi with ⟨p, isUpdate, new, rfl, -⟩ | ⟨q, old, -, hr⟩
      · exact absurd rfl (hnot _ _ _ ha hi)
      · have hold := h.itemAt_existing?_owned hn hr.existing
        rw [h.items] at hold
        obtain ⟨other, hitem⟩ := h.itemAt_of_retired hn hnot ha hi rfl hold hr.flagged
        rw [hold, hitem]
        exact .retired hr hnot
    · rw [h.itemAt_of_untouched fun a ha r hi hid => hretire ⟨a, ha, r, hi, hid⟩]
      exact .kept fun a ha r hi hid => hretire ⟨a, ha, r, hi, hid⟩

end Controller.Populated

namespace Run

/-- A child that was brought belongs to the governed resource and is not flagged. -/
theorem Brings.merged (hb : s.Brings p x new r) (other? : Option Resource) :
    (Batch.merged other? r).annotation? Resource.ownerAnnotation = some (Subject.singleType p) ∧
      (Batch.merged other? r).isFlagged = false := by
  rw [Batch.annotation?_merged, Batch.isFlagged_merged]
  exact ⟨Resource.annotation?_renew hb.renewed, Resource.isFlagged_renew hb.renewed⟩

theorem Brings.isChanged (hb : s.Brings p x new r) (hw : new.root.WellFormed)
    (other? : Option Resource) :
    Inventory.isChanged .owned (Batch.merged other? r) new ≠ .ok true := by
  intro hc
  rw [Inventory.isChanged, if_neg (by simp [(hb.merged other?).2])] at hc
  have hbody := Resource.sameBody_renew hb.renewed
  cases hs : (Batch.merged other? r).subtreeEq new "spec" with
  | error fault =>
    rw [hs] at hc
    cases hc
  | ok same =>
    rw [hs] at hc
    obtain ⟨-, y, -, hy, -⟩ := Resource.subtreeEq_eq_ok_iff.1 hs
    have hself := Batch.subtreeEq_merged (Resource.wellFormed_renew hw hb.renewed)
      (Resource.subtree_congr hbody.spec hy) other?
    rw [Resource.subtreeEq_congr_right hbody.spec.symm hself] at hs
    cases hs
    cases hc

end Run

end Reconciler
