import Reconciler.Proofs.Run.Reconcile

/-! What the commit of the children leaves at one identity and under one condition type, by which
actions work there. -/
namespace Reconciler

open Inventory (Action Change Due Key Sound)

variable {c : Controller} {b : Batch} {s s' : Run} {p q x : Ref} {a : Action}
  {exchange : Exchange} {old new r : Resource}

namespace Run

/-- The governed resource `p` has not failed, and brings the desired child `new` as `r`. -/
structure Brings (s : Run) (p x : Ref) (new r : Resource) : Prop where
  settled : p ∉ s.failed
  exchange : (s.controller.exchange? x).any Exchange.hasResource = true
  target : Ref.isOwnerChild [p, x] = true
  desired : s.inventory.desired? (.owned p x) = some new
  renewed : new.renew p = .ok r

/-- The governed resource `p` has not failed, and flags the present child `old` that it no longer
desires as `r`. -/
structure Retires (s : Run) (p x : Ref) (old r : Resource) : Prop where
  settled : p ∉ s.failed
  exchange : (s.controller.exchange? x).any Exchange.hasResource = true
  existing : s.inventory.existing? (.owned p x) = some old
  desired : s.inventory.desired? (.owned p x) = none
  unflagged : old.isFlagged = false
  flagged : old.flagForDeletion = .ok r

/-- Where a creation or an update writes, the last of them shows. -/
theorem itemAt_of_written {isUpdate : Bool} {change : Change}
    (ha : .write isUpdate change ∈ s.childActions)
    (hi : (Inventory.writeEffect isUpdate change).item = some r) (hx : r.identity = x) :
    ∃ isUpdate change r, .write isUpdate change ∈ s.childActions ∧
      (Inventory.writeEffect isUpdate change).item = some r ∧ r.identity = x ∧
      ∃ old, Batch.itemAt s.updateChildren.batch.items x = some (Batch.merged old r) := by
  obtain ⟨s', ht, he⟩ := s.updateChildren_trace
  rw [childActions, Inventory.Plan.schedule, List.map_append] at ht
  obtain ⟨s₁, -, harrive⟩ := ht.split
  have hmem : .write isUpdate change ∈ s.childPlan.arrivals := by
    rw [childActions, Inventory.Plan.schedule, List.mem_append] at ha
    apply ha.resolve_left
    intro hdep
    simp [Inventory.Plan.departures] at hdep
  obtain ⟨e, he', r', hr', hid, old, hold⟩ := harrive.itemAt_of_touched
    ⟨_, List.mem_map_of_mem hmem, r, hi, hx⟩
  obtain ⟨a', ha', rfl⟩ := List.mem_map.1 he'
  have hin : a' ∈ s.childActions := List.mem_append_right _ ha'
  have harr := ha'
  simp only [Inventory.Plan.arrivals, List.mem_append, List.mem_map] at harr
  rw [he]
  rcases harr with (⟨k, -, rfl⟩ | ⟨change', -, rfl⟩) | ⟨change', -, rfl⟩
  · cases hr'
  · exact ⟨_, change', r', hin, hr', hid, old, hold⟩
  · exact ⟨_, change', r', hin, hr', hid, old, hold⟩

/-- A rejected action fails its owner. -/
theorem not_rejected (hp : p ∉ s.updateChildren.failed) (ha : a ∈ s.childActions)
    (hk : a.key = .owned p x) : a.effect.rejected = false := by
  obtain ⟨s', ht, he⟩ := s.updateChildren_trace
  rw [he] at hp
  cases hr : a.effect.rejected with
  | false => rfl
  | true =>
    refine absurd ((ht.mem_failed p).2 (.inr ⟨_, List.mem_map_of_mem ha, hr, ?_⟩)) hp
    rw [Action.key_effect, hk]
    rfl

/-- A failure stays known when the children are committed. -/
theorem mem_failed_updateChildren (hf : p ∈ s.failed) : p ∈ s.updateChildren.failed := by
  obtain ⟨s', ht, he⟩ := s.updateChildren_trace
  rw [he]
  exact (ht.mem_failed p).2 (.inl hf)

theorem not_failed (hp : p ∉ s.updateChildren.failed) : p ∉ s.failed :=
  fun hf => hp (mem_failed_updateChildren hf)

/-- An action puts or drops the condition of the child `x` of `p`. -/
def TouchesCondition (s : Run) (p x : Ref) : Prop :=
  ∃ a ∈ s.childActions, a.key = .owned p x ∧ a.effect.condition ≠ none

theorem condition?_of_touched (h : s.TouchesCondition p x) : ∃ a ∈ s.childActions,
    a.key = .owned p x ∧
      a.effect.condition = some (s.updateChildren.inventory.condition? (.owned p x)) := by
  obtain ⟨a, ha, hk, hc⟩ := h
  obtain ⟨s', ht, he⟩ := s.updateChildren_trace
  obtain ⟨e, he', hek, hlast⟩ := ht.condition?_of_touched (k := .owned p x)
    ⟨_, List.mem_map_of_mem ha, by rw [Action.key_effect, hk], hc⟩
  obtain ⟨a', ha', rfl⟩ := List.mem_map.1 he'
  rw [Action.key_effect] at hek
  rw [he]
  exact ⟨a', ha', hek, hlast⟩

theorem condition?_of_untouched (h : ¬ s.TouchesCondition p x) :
    s.updateChildren.inventory.condition? (.owned p x) = s.inventory.condition? (.owned p x) := by
  obtain ⟨s', ht, he⟩ := s.updateChildren_trace
  rw [he]
  apply ht.condition?_of_untouched
  intro e he' hk
  obtain ⟨a, ha, rfl⟩ := List.mem_map.1 he'
  rw [Action.key_effect] at hk
  exact Classical.not_not.1 fun hc => h ⟨a, ha, hk, hc⟩

/-- What the manifest records of it is what the last action has put, where the key is told apart from
others. -/
theorem findCondition_of_touched (hd : s.inventory.Distinguishes (.owned p x))
    (h : s.TouchesCondition p x) : ∃ a ∈ s.childActions, a.key = .owned p x ∧ a.effect.condition =
      some (s.updateChildren.manifest.condition? (Key.owned p x).conditionType) := by
  obtain ⟨a, ha, hk, hc⟩ := h
  obtain ⟨s', ht, he⟩ := s.updateChildren_trace
  obtain ⟨e, he', htype, hlast⟩ := ht.findCondition_of_touched (t := (Key.owned p x).conditionType)
    ⟨_, List.mem_map_of_mem ha, hc, by rw [Action.key_effect, hk]⟩
  obtain ⟨a', ha', rfl⟩ := List.mem_map.1 he'
  rw [Action.key_effect] at htype
  rw [he]
  exact ⟨a', ha', hd.eq (isSome_of_mem_childActions ha') htype, hlast⟩

theorem findCondition_of_untouched (hd : s.inventory.Distinguishes (.owned p x))
    (h : ¬ s.TouchesCondition p x) :
    s.updateChildren.manifest.condition? (Key.owned p x).conditionType =
      s.manifest.condition? (Key.owned p x).conditionType := by
  obtain ⟨s', ht, he⟩ := s.updateChildren_trace
  rw [he]
  apply ht.findCondition_of_untouched
  intro e he' hc htype
  obtain ⟨a, ha, rfl⟩ := List.mem_map.1 he'
  rw [Action.key_effect] at htype
  exact h ⟨a, ha, hd.eq (isSome_of_mem_childActions ha) htype, hc⟩

theorem existing?_of_touched (h : ∃ a ∈ s.childActions, a.key = .owned p x ∧ a.effect.item ≠ none) :
    ∃ a ∈ s.childActions, a.key = .owned p x ∧ a.effect.item ≠ none ∧
      s.updateChildren.inventory.existing? (.owned p x) = a.effect.item := by
  obtain ⟨a, ha, hk, hi⟩ := h
  obtain ⟨s', ht, he⟩ := s.updateChildren_trace
  obtain ⟨e, he', hek, hei, hlast⟩ := ht.existing?_of_touched (k := .owned p x)
    ⟨_, List.mem_map_of_mem ha, by rw [Action.key_effect, hk], hi⟩
  obtain ⟨a', ha', rfl⟩ := List.mem_map.1 he'
  rw [Action.key_effect] at hek
  rw [he]
  exact ⟨a', ha', hek, hei, hlast⟩

theorem existing?_of_untouched
    (h : ¬ ∃ a ∈ s.childActions, a.key = .owned p x ∧ a.effect.item ≠ none) :
    s.updateChildren.inventory.existing? (.owned p x) = s.inventory.existing? (.owned p x) := by
  obtain ⟨s', ht, he⟩ := s.updateChildren_trace
  rw [he]
  apply ht.existing?_of_untouched
  intro e he' hk
  obtain ⟨a, ha, rfl⟩ := List.mem_map.1 he'
  rw [Action.key_effect] at hk
  exact Classical.not_not.1 fun hi => h ⟨a, ha, hk, hi⟩

section Entry

variable (h : Sound s.controller s.inventory)
include h

/-- Whatever condition is put for a desired child is false, and none is taken away. -/
theorem isFalse_of_desired {y : Option Condition} (ha : a ∈ s.childActions)
    (hk : a.key = .owned p x) (hd : s.inventory.desired? (.owned p x) = some new)
    (hy : a.effect.condition = some y) : y.any Condition.isFalse = true := by
  cases y with
  | some x => exact Inventory.isFalse_of_effect hy
  | none =>
    obtain ⟨-, q, z, exchange, -, -, -, hdue⟩ := (mem_childActions h).1 ha
    cases hdue.key_eq.symm.trans hk
    cases hdue with
    | fault => cases hy
    | announce => cases hy
    | drop _ _ _ hnone => cases hnone.symm.trans hd
    | retire _ _ _ _ hnone => cases hnone.symm.trans hd
    | create => exact absurd hy (Inventory.writeEffect_condition_ne _ _)
    | update => exact absurd hy (Inventory.writeEffect_condition_ne _ _)

theorem condition_of_desired (ha : a ∈ s.childActions) (hk : a.key = .owned p x)
    (hd : s.inventory.desired? (.owned p x) = some new) : a.effect.condition ≠ some none := by
  intro hnone
  cases isFalse_of_desired h ha hk hd hnone

/-- Without a desired child there are only actions that take the condition away. -/
theorem condition_of_undesired {y : Option Condition} (ha : a ∈ s.childActions)
    (hk : a.key = .owned p x) (hd : s.inventory.desired? (.owned p x) = none)
    (hy : a.effect.condition = some y) : y = none := by
  obtain ⟨-, q, z, exchange, -, -, -, hdue⟩ := (mem_childActions h).1 ha
  cases hdue.key_eq.symm.trans hk
  cases hdue with
  | fault => cases hy
  | drop =>
    cases hy
    rfl
  | retire => exact Inventory.retireEffect_condition hy
  | announce _ _ _ hnew => cases hnew.symm.trans hd
  | create _ _ hnew => cases hnew.symm.trans hd
  | update _ _ hnew => cases hnew.symm.trans hd

end Entry

end Run

namespace Controller.Gathered

variable (h : Gathered c b s)
include h

theorem mem_childActions : a ∈ s.childActions ↔ c.populate.isSome = true ∧
    ∃ owner target exchange, owner ∉ s.failed ∧ c.governs owner = true ∧
      c.exchange? target = some exchange ∧
      Due (.owned owner target) (s.childEntry owner target exchange) a := by
  have hmem := Run.mem_childActions (a := a) h.sound_self
  rwa [h.controller] at hmem

/-- A present child is an item that names its owner. -/
theorem existing?_owned (hx : s.inventory.existing? (.owned p x) = some old) :
    old ∈ b.others s.manifestIndex ∧ old.identity = x ∧ c.governs x = false ∧
      c.governs p = true ∧ (c.exchange? x).isSome = true ∧
      old.annotation? Resource.ownerAnnotation = some (Subject.singleType p) := by
  obtain ⟨hm, hk⟩ := h.mem_of_existing? _ _ hx
  obtain ⟨hg, hexch, hid, ho⟩ := keyOf_owned_iff.1 hk
  obtain ⟨hp, typeName, ha, ht⟩ := ownerOf_eq_some_iff.1 ho
  refine ⟨hm, hid, hg, hp, hexch, ?_⟩
  rw [ha, ← Subject.typeName_of_ofTypeName? ht, Subject.typeName]

theorem itemAt_existing?_owned (hn : (b.items.map Resource.identity).Nodup)
    (hx : s.inventory.existing? (.owned p x) = some old) :
    Batch.itemAt s.batch.items x = some old := by
  obtain ⟨hm, rfl, -⟩ := h.existing?_owned hx
  rw [h.items]
  exact Batch.itemAt_of_mem hn (Batch.mem_of_mem_others hm)

/-- An item is present for one owner only. -/
theorem owner_unique (hn : (b.items.map Resource.identity).Nodup)
    (hp : s.inventory.existing? (.owned p x) = some old)
    (hq : s.inventory.existing? (.owned q x) = some new) : p = q ∧ old = new := by
  have hsame := (h.itemAt_existing?_owned hn hp).symm.trans (h.itemAt_existing?_owned hn hq)
  cases hsame
  have hkey := (h.mem_of_existing? _ _ hp).2.symm.trans (h.mem_of_existing? _ _ hq).2
  simp only [Key.owned, Option.some.injEq, Key.mk.injEq, and_true, true_and] at hkey
  exact ⟨hkey, rfl⟩

/-- A desired child is recorded under its own identity, for a governed resource that has it. -/
theorem mem_of_desired (hd : s.inventory.desired? (.owned p x) = some new) :
    new.identity = x ∧ c.governs p = true ∧
      ∃ g ∈ b.others s.manifestIndex, g.identity = p ∧ new ∈ c.childrenOf g := by
  obtain ⟨g, hm, hgov, hnew, hk⟩ := h.mem_of_desired? _ _ hd
  simp only [Key.owned, Key.mk.injEq, Option.some.injEq, true_and] at hk
  obtain ⟨rfl, rfl⟩ := hk
  exact ⟨rfl, hgov, g, hm, rfl, hnew⟩

/-- The actions that write at an identity: creations and updates of desired children, and
retirements of undesired ones. -/
theorem writes_cases (ha : a ∈ s.childActions) (hi : a.effect.item = some r) :
    (∃ p isUpdate new, a = .write isUpdate ⟨.owned p r.identity, c.exchange? r.identity, new⟩ ∧
        s.Brings p r.identity new r) ∨
      ∃ p old, a = .retire ⟨.owned p r.identity, c.exchange? r.identity, old⟩ ∧
        s.Retires p r.identity old r := by
  obtain ⟨-, p, x, exchange, hp, -, hexch, hdue⟩ := h.mem_childActions.1 ha
  have hres (hm : exchange.hasResource = true) :
      (s.controller.exchange? x).any Exchange.hasResource = true := by
    rw [h.controller, hexch]
    exact hm
  rcases hdue.item_cases (by simp [hi]) with ⟨old, rfl, -, hm, hex, hf, hd⟩ | ⟨new, rfl, -, hd⟩
  · right
    obtain ⟨-, hflag⟩ := Inventory.retireEffect_item hi
    have hid := (Resource.SameBody.annotated hflag).identity
    rw [(h.existing?_owned hex).2.1] at hid
    subst hid
    exact ⟨p, old, by rw [hexch]; rfl, hp, hres hm, hex, hd, hf, hflag⟩
  · left
    obtain ⟨hprep, hm, ho⟩ := Inventory.writeEffect_item_iff.1 hi
    rw [Run.prepared_owned] at hprep
    obtain rfl : r.identity = x := by
      rw [(Resource.sameBody_renew hprep).identity, (h.mem_of_desired hd).1]
    exact ⟨p, _, new, by rw [hexch]; rfl, hp, hres hm, ho, hd, hprep⟩

/-- What is due for a desired child that can be brought is done. -/
theorem mem_of_brings {isUpdate : Bool} (hb : s.Brings p x new r)
    (hdue : ∀ exchange, exchange.hasResource = true →
      Due (.owned p x) (s.childEntry p x exchange) (.write isUpdate ⟨.owned p x, some exchange, new⟩)) :
    ∃ a ∈ s.childActions, a.key = .owned p x ∧ a.isWrite = true ∧ a.effect.item = some r := by
  obtain ⟨-, hgov, g, -, -, hnew⟩ := h.mem_of_desired hb.desired
  have hres := hb.exchange
  rw [h.controller] at hres
  obtain ⟨exchange, hx, hm⟩ := (Option.any_eq_true _ _).1 hres
  refine ⟨_, h.mem_childActions.2 ⟨(mem_childrenOf hnew).1, p, x, exchange, hb.settled, hgov, hx,
    hdue exchange hm⟩, rfl, rfl, ?_⟩
  rw [Action.effect, Inventory.writeEffect_item_iff, Run.prepared_owned]
  exact ⟨hb.renewed, hm, hb.target⟩

/-- A present child is written only if it can be compared with the desired one, and differs. -/
theorem isChanged_of_write {isUpdate : Bool} {exchange : Option Exchange}
    (hw : .write isUpdate ⟨.owned p x, exchange, new⟩ ∈ s.childActions)
    (hex : s.inventory.existing? (.owned p x) = some old) :
    Inventory.isChanged .owned old new = .ok true := by
  obtain ⟨-, q, y, exchange', -, -, -, hdue⟩ := h.mem_childActions.1 hw
  cases hdue.key_eq
  cases hdue with
  | create _ hex' =>
    rw [show s.inventory.existing? (.owned p x) = none from hex'] at hex
    cases hex
  | update _ hex' _ hc =>
    rw [show s.inventory.existing? (.owned p x) = some _ from hex'] at hex
    cases hex
    exact hc

theorem itemAt_of_untouched
    (hu : ∀ a ∈ s.childActions, ∀ r, a.effect.item = some r → r.identity ≠ x) :
    Batch.itemAt s.updateChildren.batch.items x = Batch.itemAt b.items x := by
  obtain ⟨s', ht, he⟩ := s.updateChildren_trace
  rw [he, ← h.items]
  apply ht.itemAt_of_untouched
  intro e he'
  obtain ⟨a, ha, rfl⟩ := List.mem_map.1 he'
  exact hu a ha

/-- Where only a retirement writes, the flagged item shows. -/
theorem itemAt_of_retired (hn : (b.items.map Resource.identity).Nodup)
    (hw : ∀ isUpdate change r, .write isUpdate change ∈ s.childActions →
      (Inventory.writeEffect isUpdate change).item = some r → r.identity ≠ x)
    (ha : a ∈ s.childActions) (hi : a.effect.item = some r) (hx : r.identity = x)
    (hold : Batch.itemAt b.items x = some old) (hflag : old.flagForDeletion = .ok new) :
    ∃ old, Batch.itemAt s.updateChildren.batch.items x = some (Batch.merged old new) := by
  obtain ⟨s', ht, he⟩ := s.updateChildren_trace
  obtain ⟨e, he', r', hr', hid, old', hold'⟩ := ht.itemAt_of_touched
    ⟨_, List.mem_map_of_mem ha, r, hi, hx⟩
  obtain ⟨a', ha', rfl⟩ := List.mem_map.1 he'
  rcases h.writes_cases ha' hr' with ⟨p, isUpdate, new', rfl, -⟩ | ⟨p, o, rfl, hret⟩
  · exact absurd hid (hw _ _ _ ha' hr')
  · have hitem := h.itemAt_existing?_owned hn hret.existing
    rw [hid, h.items, hold] at hitem
    cases hitem
    have hfl := hret.flagged
    rw [hflag] at hfl
    cases hfl
    exact ⟨old', he ▸ hold'⟩

theorem nodup_updateChildren (hn : (b.items.map Resource.identity).Nodup) :
    (s.updateChildren.batch.items.map Resource.identity).Nodup := by
  obtain ⟨s', ht, he⟩ := s.updateChildren_trace
  rw [he]
  exact ht.nodup (by rwa [h.items])

end Controller.Gathered

/-- With distinct identities a desired child is the one that counts for its governed resource. -/
theorem Controller.Populated.desired?_owned (h : Populated c b s)
    (hd : s.inventory.desired? (.owned p x) = some new) :
    new.identity = x ∧ ∃ g, s.inventory.existing? (.governed p) = some g ∧ g.identity = p ∧
      c.desiredBy g x = some new := by
  obtain ⟨g, target, hk, hg, hnew⟩ := (h.desired _ _).1 hd
  simp only [Key.owned, Key.mk.injEq, Option.some.injEq, true_and] at hk
  obtain ⟨rfl, rfl⟩ := hk
  exact ⟨(desiredBy_eq_some hnew).2, g, hg, rfl, hnew⟩

end Reconciler
