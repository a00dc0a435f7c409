import Reconciler.Proofs.Run.Outcome

/-! The commit of the children converges: what a governed resource desires is there as it is
desired, and what it no longer desires is on its way out. -/
namespace Reconciler

open Inventory (Action Due Key Sound)

variable {c : Controller} {b : Batch} {s : Run} {p q x : Ref} {g child item : Resource}
  {exchange : Exchange}

namespace Batch

def governed (b : Batch) (c : Controller) (index : Nat) : List Resource :=
  (b.others index).filter fun r => c.governs r.identity

end Batch

namespace Controller

/-- The children that a governed resource desires: of those with one identity the last one. -/
def desiredOf (c : Controller) (g : Resource) : List Resource :=
  (c.childrenOf g).filter fun child => c.desiredBy g child.identity == some child

private theorem mem_desiredOf :
    child ∈ c.desiredOf g ↔ c.desiredBy g child.identity = some child := by
  rw [desiredOf, List.mem_filter, beq_iff_eq]
  exact ⟨fun h => h.2, fun h => ⟨(desiredBy_eq_some h).1, h⟩⟩

/-- Where the governed class is not owned, governed resources are nobody's children. -/
theorem exchange?_of_governs (howned : c.owned.contains c.governed = false)
    (hg : c.governs x = true) : c.exchange? x = none := by
  rw [governs, beq_iff_eq] at hg
  rwa [exchange?, ← hg, ← Option.isNone_iff_eq_none, ← Option.isSome_eq_false_iff]

end Controller

/-- The item of identity `x` is the child that `p` desires. -/
private structure Run.HoldsChild (t : Run) (p x : Ref) (child r : Resource) : Prop where
  item : Batch.itemAt t.batch.items x = some r
  owner : r.annotation? Resource.ownerAnnotation = some (Subject.singleType p)
  unflagged : r.isFlagged = false
  spec : r.subtreeEq child "spec" = .ok true

namespace Controller.Populated

variable (h : Populated c b s)
include h

theorem mem_governed : g ∈ b.governed c s.manifestIndex ↔
    s.inventory.existing? (.governed g.identity) = some g := by
  rw [h.existing, keyOf_governed_iff, Batch.governed, List.mem_filter]
  simp

private theorem desired?_of_desiredBy (hg : g ∈ b.governed c s.manifestIndex)
    (hd : c.desiredBy g x = some child) :
    s.inventory.desired? (.owned g.identity x) = some child :=
  (h.desired _ _).2 ⟨g, x, rfl, h.mem_governed.1 hg, hd⟩

private theorem exists_of_desired? (hd : s.inventory.desired? (.owned p x) = some child) :
    child.identity = x ∧ ∃ g ∈ b.governed c s.manifestIndex, g.identity = p ∧
      child ∈ c.desiredOf g := by
  obtain ⟨rfl, g, hg, rfl, hc⟩ := h.desired?_owned hd
  exact ⟨rfl, g, h.mem_governed.2 hg, rfl, mem_desiredOf.2 hc⟩

private theorem desired?_of_desiredBy_eq_none
    (hd : ∀ g ∈ b.governed c s.manifestIndex, g.identity = p →
    c.desiredBy g x = none) : s.inventory.desired? (.owned p x) = none := by
  cases hc : s.inventory.desired? (.owned p x) with
  | none => rfl
  | some child =>
    obtain ⟨-, g, hg, rfl, hdes⟩ := h.desired?_owned hc
    rw [hd g (h.mem_governed.2 hg) rfl] at hdes
    cases hdes

private theorem parent_unique
    (hone : ∀ g ∈ b.governed c s.manifestIndex, ∀ g' ∈ b.governed c s.manifestIndex,
      ∀ child ∈ c.desiredOf g, ∀ child' ∈ c.desiredOf g', child.identity = child'.identity → g = g')
    (hp : s.inventory.desired? (.owned p x) = some child)
    (hq : s.inventory.desired? (.owned q x) ≠ none) : q = p := by
  obtain ⟨child', hq⟩ := Option.ne_none_iff_exists'.1 hq
  obtain ⟨hid, g, hg, rfl, hc⟩ := h.exists_of_desired? hp
  obtain ⟨hid', g', hg', rfl, hc'⟩ := h.exists_of_desired? hq
  rw [hone g hg g' hg' child hc child' hc' (hid.trans hid'.symm)]

private theorem comparable (hg : p ∉ s.updateChildren.failed) (hpop : c.populate.isSome = true)
    (hgov : c.governs p = true) (hx : c.exchange? x = some exchange) :
    ∃ plan, Inventory.resourcePlan (.owned p x) (s.childEntry p x exchange) = .ok plan := by
  cases hplan : Inventory.resourcePlan (.owned p x) (s.childEntry p x exchange) with
  | ok plan => exact ⟨plan, rfl⟩
  | error fault =>
    obtain ⟨hm, old, new, hex, hnew, hc⟩ := Inventory.resourcePlan_eq_error_iff.1 hplan
    have ha := h.mem_childActions.2 ⟨hpop, p, x, exchange, Run.not_failed hg, hgov, hx,
      .fault hm hex hnew hc⟩
    have hrej := Run.not_rejected hg ha rfl
    cases hrej

section Item

variable (hd : s.inventory.desired? (.owned p x) = some child)
include hd

private theorem renew_of_written (hsole : ∀ q, s.inventory.desired? (.owned q x) ≠ none → q = p)
    {isUpdate : Bool} {change : Inventory.Change} {r : Resource}
    (ha : .write isUpdate change ∈ s.childActions)
    (hi : (Inventory.writeEffect isUpdate change).item = some r) (hid : r.identity = x) :
    child.renew p = .ok r := by
  subst hid
  rcases h.writes_cases ha hi with ⟨q, isUpdate', new, heq, hb⟩ | ⟨q, old, heq, -⟩
  · obtain rfl : q = p := hsole q (by simp [hb.desired])
    have hnew := hb.desired
    rw [hd] at hnew
    cases hnew
    exact hb.renewed
  · cases heq

private theorem converges_written (hsole : ∀ q, s.inventory.desired? (.owned q x) ≠ none → q = p)
    (hw : child.root.WellFormed) {spec : Option Document} (hspec : child.subtree "spec" = .ok spec)
    {isUpdate : Bool} {change : Inventory.Change} {r : Resource}
    (ha : .write isUpdate change ∈ s.childActions)
    (hi : (Inventory.writeEffect isUpdate change).item = some r) (hid : r.identity = x) :
    ∃ item, s.updateChildren.HoldsChild p x child item := by
  obtain ⟨_, _, r, ha, hi, hid, old, hold⟩ := Run.itemAt_of_written ha hi hid
  have hrenew := h.renew_of_written hd hsole ha hi hid
  have hbody := Resource.sameBody_renew hrenew
  have hsub := Resource.subtree_congr hbody.spec hspec
  exact ⟨_, {
    item := hold
    owner := by simpa using Resource.annotation?_renew hrenew
    unflagged := by simpa using Resource.isFlagged_renew hrenew
    spec := Resource.subtreeEq_congr_right hbody.spec.symm
      (Batch.subtreeEq_merged (Resource.wellFormed_renew hw hrenew) hsub old) }⟩

private theorem converges_unwritten (hn : (b.items.map Resource.identity).Nodup)
    (hp : p ∉ s.updateChildren.failed) (hpop : c.populate.isSome = true)
    (hgov : c.governs p = true) (hx : c.exchange? x = some exchange)
    (hres : exchange.hasResource = true)
    (hwrite : ¬ ∃ isUpdate change r, .write isUpdate change ∈ s.childActions ∧
      (Inventory.writeEffect isUpdate change).item = some r ∧ r.identity = x) :
    ∃ item, s.updateChildren.HoldsChild p x child item := by
  have hm : (s.childEntry p x exchange).materializes (.owned p x) := fun _ => hres
  have hnot {isUpdate : Bool} (hdue : Due (.owned p x) (s.childEntry p x exchange)
      (.write isUpdate ⟨.owned p x, some exchange, child⟩)) : False := by
    have ha := h.mem_childActions.2 ⟨hpop, p, x, exchange, Run.not_failed hp, hgov, hx, hdue⟩
    have hrej := Run.not_rejected hp ha rfl
    obtain ⟨r, hprep, hi⟩ := Inventory.writeEffect_of_not_rejected hrej hres
    have hid : r.identity = x := by
      rw [Run.prepared_owned] at hprep
      rw [(Resource.sameBody_renew hprep).identity, (h.desired?_owned hd).1]
    exact hwrite ⟨_, _, r, ha, hi, hid⟩
  obtain ⟨old, hex⟩ := Option.ne_none_iff_exists'.1 fun hex => hnot (.create hm hex hd)
  obtain ⟨plan, hplan⟩ := h.comparable hp hpop hgov hx
  cases hc : Inventory.isChanged .owned old child with
  | error fault =>
    have herr := Inventory.resourcePlan_eq_error_iff.2 ⟨hm, old, child, hex, hd, hc⟩
    rw [hplan] at herr
    cases herr
  | ok changed =>
    cases changed with
    | true => exact (hnot (.update hm hex hd hc)).elim
    | false =>
      obtain ⟨hflag, heq⟩ := Inventory.isChanged_owned_eq_false hc
      obtain ⟨-, hid, -, -, -, howner⟩ := h.existing?_owned hex
      refine ⟨old, ?_, howner, hflag, heq⟩
      rw [h.itemAt_of_untouched, ← h.items, h.itemAt_existing?_owned hn hex]
      rintro a ha r hi rfl
      rcases h.writes_cases ha hi with ⟨q, isUpdate, new, rfl, -⟩ | ⟨q, old', -, hret⟩
      · exact hwrite ⟨_, _, r, ha, hi, rfl⟩
      · obtain ⟨rfl, -⟩ := h.owner_unique hn hex hret.existing
        have hd' := hret.desired
        rw [hd] at hd'
        cases hd'

private theorem converges_item (hn : (b.items.map Resource.identity).Nodup)
    (hsole : ∀ q, s.inventory.desired? (.owned q x) ≠ none → q = p)
    (hp : p ∉ s.updateChildren.failed) (hpop : c.populate.isSome = true)
    (hgov : c.governs p = true) (hx : c.exchange? x = some exchange)
    (hres : exchange.hasResource = true) (hw : child.root.WellFormed) {spec : Option Document}
    (hspec : child.subtree "spec" = .ok spec) :
    ∃ item, s.updateChildren.HoldsChild p x child item := by
  by_cases hwrite : ∃ isUpdate change r, .write isUpdate change ∈ s.childActions ∧
      (Inventory.writeEffect isUpdate change).item = some r ∧ r.identity = x
  · obtain ⟨isUpdate, change, r, ha, hi, hid⟩ := hwrite
    exact h.converges_written hd hsole hw hspec ha hi hid
  · exact h.converges_unwritten hd hn hp hpop hgov hx hres hwrite

end Item

private theorem converges_condition (hr : s.inventory.Readable)
    (hp : p ∉ s.updateChildren.failed) (hpop : c.populate.isSome = true)
    (hgov : c.governs p = true) (hx : c.exchange? x = some exchange)
    (hcond : exchange.hasCondition = true) (hd : s.inventory.desired? (.owned p x) = some child) :
    (s.updateChildren.manifest.condition? (Key.owned p x).conditionType).isSome = true := by
  have hk : (s.inventory.find? (.owned p x)).isSome = true :=
    h.sound.isSome_find?_iff.2 (.inr (.inr (by simp [hd])))
  have hdist := hr.distinguishes h.sound hk
  by_cases ht : s.TouchesCondition p x
  · obtain ⟨a, ha, hak, hlast⟩ := Run.findCondition_of_touched hdist ht
    cases hfound : s.updateChildren.manifest.condition? (Key.owned p x).conditionType with
    | some y => rfl
    | none =>
      rw [hfound] at hlast
      exact absurd hlast (Run.condition_of_desired h.sound_self ha hak hd)
  · rw [Run.findCondition_of_untouched hdist ht]
    have htakes := h.takes (hr.subject hk) hk fun _ => by
      rw [show c.exchange? (Key.owned p x).target = _ from hx]
      exact hcond
    have hagree : _ = _ := h.agrees_isSome (hr.subject hk) htakes
    rw [Manifest.condition?, ← hagree]
    cases hcon : s.inventory.condition? (.owned p x) with
    | some y => rfl
    | none =>
      obtain ⟨plan, hplan⟩ := h.comparable hp hpop hgov hx
      have ha := h.mem_childActions.2 ⟨hpop, p, x, exchange, Run.not_failed hp, hgov, hx,
        .announce rfl hcond hcon hd hplan⟩
      exact absurd ⟨_, ha, rfl, by simp [Action.effect]⟩ ht

section Undesired

variable {owner : Ref} {item : Resource}

private theorem existing?_of_owned (hm : item ∈ b.others s.manifestIndex)
    (ho : c.ownerOf item = some owner)
    (hg : c.governs item.identity = false) (hx : c.exchange? item.identity = some exchange) :
    s.inventory.existing? (.owned owner item.identity) = some item :=
  (h.existing _ _).2 ⟨hm, keyOf_owned_iff.2 ⟨hg, by simp [hx], rfl, ho⟩⟩

private theorem condition?_of_undesired (hr : s.inventory.Readable)
    (hp : p ∉ s.updateChildren.failed)
    (hpop : c.populate.isSome = true) (hgov : c.governs p = true)
    (hx : c.exchange? x = some exchange) (hcond : exchange.hasCondition = true)
    (hex : s.inventory.existing? (.owned p x) = some item)
    (hd : s.inventory.desired? (.owned p x) = none) :
    s.updateChildren.manifest.condition? (Key.owned p x).conditionType = none := by
  have hk : (s.inventory.find? (.owned p x)).isSome = true :=
    h.sound.isSome_find?_iff.2 (.inr (.inl (by simp [hex])))
  have hdist := hr.distinguishes h.sound hk
  by_cases ht : s.TouchesCondition p x
  · obtain ⟨a, ha, hak, hlast⟩ := Run.findCondition_of_touched hdist ht
    exact Run.condition_of_undesired h.sound_self ha hak hd hlast
  · rw [Run.findCondition_of_untouched hdist ht]
    have htakes := h.takes (hr.subject hk) hk fun _ => by
      rw [show c.exchange? (Key.owned p x).target = _ from hx]
      exact hcond
    have hagree : _ = _ := h.agrees_isSome (hr.subject hk) htakes
    cases hcon : s.inventory.condition? (.owned p x) with
    | none =>
      rw [hcon] at hagree
      rw [Manifest.condition?]
      simpa using hagree.symm
    | some y =>
      have ha := h.mem_childActions.2 ⟨hpop, p, x, exchange, Run.not_failed hp, hgov, hx,
        .drop rfl hcond hcon hd⟩
      exact absurd ⟨_, ha, rfl, by simp [Action.effect]⟩ ht

private theorem itemAt_of_undesired (hn : (b.items.map Resource.identity).Nodup)
    (hp : p ∉ s.updateChildren.failed) (hpop : c.populate.isSome = true)
    (hgov : c.governs p = true) (hx : c.exchange? x = some exchange)
    (hres : exchange.hasResource = true) (hex : s.inventory.existing? (.owned p x) = some item)
    (hd : s.inventory.desired? (.owned p x) = none)
    (hnone : ∀ q, q ∉ s.failed → s.inventory.desired? (.owned q x) = none) :
    ∃ r, Batch.itemAt s.updateChildren.batch.items x = some r ∧ r.isFlagged = true ∧
      r.annotation? Resource.ownerAnnotation = some (Subject.singleType p) := by
  obtain ⟨-, hid, -, -, -, howner⟩ := h.existing?_owned hex
  have hold := h.itemAt_existing?_owned hn hex
  rw [h.items] at hold
  have hwrite (isUpdate : Bool) (change : Inventory.Change) (r : Resource)
      (ha : .write isUpdate change ∈ s.childActions)
      (hi : (Inventory.writeEffect isUpdate change).item = some r) : r.identity ≠ x := by
    rintro rfl
    rcases h.writes_cases ha hi with ⟨q, _, new, -, hb⟩ | ⟨q, old, heq, -⟩
    · have hnew := hb.desired
      rw [hnone q hb.settled] at hnew
      cases hnew
    · cases heq
  by_cases hf : item.isFlagged = true
  · refine ⟨item, ?_, hf, howner⟩
    rw [h.itemAt_of_untouched, hold]
    rintro a ha r hi rfl
    rcases h.writes_cases ha hi with ⟨q, _, new, rfl, -⟩ | ⟨q, old, -, hret⟩
    · exact hwrite _ _ _ ha hi rfl
    · obtain ⟨-, rfl⟩ := h.owner_unique hn hex hret.existing
      have hf' := hret.unflagged
      rw [hf] at hf'
      cases hf'
  · have hf : item.isFlagged = false := by simpa using hf
    have ha := h.mem_childActions.2 ⟨hpop, p, x, exchange, Run.not_failed hp, hgov, hx,
      .retire rfl hres hex hf hd⟩
    obtain ⟨flagged, hflag, hi⟩ := Inventory.retireEffect_of_not_rejected hf
      (Run.not_rejected hp ha rfl)
    have hidentity := (Resource.SameBody.annotated hflag).identity.trans hid
    obtain ⟨old, hitem⟩ := h.itemAt_of_retired hn hwrite ha hi hidentity hold hflag
    refine ⟨_, hitem, ?_, ?_⟩
    · rw [Batch.isFlagged_merged]
      exact Resource.isFlagged_flagForDeletion hflag
    · rw [Batch.annotation?_merged,
        Resource.annotation?_setAnnotation_of_ne hflag Resource.owner_ne_delete, howner]

end Undesired

end Controller.Populated

namespace Controller

/-- The children of a package are as the governed resources want them, where none of these has
failed. -/
structure Converged (c : Controller) (b : Batch) (s t : Run) : Prop where
  /-- A desired child that materializes is the one item of its identity. -/
  item : ∀ g ∈ b.governed c s.manifestIndex, g.identity ∉ t.failed → ∀ child ∈ c.desiredOf g,
    (c.exchange? child.identity).any Exchange.hasResource = true →
      ∃ item, t.batch.items.filter (fun r => r.identity == child.identity) = [item] ∧
        item.isOwnedBy g.identity = true ∧ item.isFlagged = false ∧
        item.subtreeEq child "spec" = .ok true
  /-- A desired child that exchanges conditions has one. -/
  condition : ∀ g ∈ b.governed c s.manifestIndex, g.identity ∉ t.failed → ∀ child ∈ c.desiredOf g,
    (c.exchange? child.identity).any Exchange.hasCondition = true →
      (t.manifest.condition? (Subject.pairType g.identity child.identity)).isSome = true
  /-- An undesired child has no condition, whether its owner is still there or gone. -/
  dropped : ∀ owner, owner ∉ t.failed → ∀ item ∈ b.others s.manifestIndex,
    c.ownerOf item = some owner → (c.exchange? item.identity).any Exchange.hasCondition = true →
      (∀ g ∈ b.governed c s.manifestIndex, g.identity = owner →
        c.desiredBy g item.identity = none) →
      t.manifest.condition? (Subject.pairType owner item.identity) = none
  /-- An undesired child that materializes is flagged, unless somebody else desires its identity. -/
  retired : ∀ owner, owner ∉ t.failed → ∀ item ∈ b.others s.manifestIndex,
    c.ownerOf item = some owner → (c.exchange? item.identity).any Exchange.hasResource = true →
      (∀ g ∈ b.governed c s.manifestIndex, g.identity ∉ s.failed →
        c.desiredBy g item.identity = none) →
      ∃ r, t.batch.items.filter (fun r => r.identity == item.identity) = [r] ∧
        r.isOwnedBy owner = true ∧ r.isFlagged = true

/-- Committing the children of a package leads to what its governed resources desire, as long as no
two of them desire the same. -/
theorem children_converge (hn : (b.items.map Resource.identity).Nodup)
    (hs : c.populated b = some s) (hpop : c.populate.isSome = true) (hr : s.inventory.Readable)
    (howned : c.owned.contains c.governed = false)
    (hone : ∀ g ∈ b.governed c s.manifestIndex, ∀ g' ∈ b.governed c s.manifestIndex,
      ∀ child ∈ c.desiredOf g, ∀ child' ∈ c.desiredOf g', child.identity = child'.identity → g = g')
    (hspec : ∀ g ∈ b.governed c s.manifestIndex, ∀ child ∈ c.desiredOf g,
      child.root.WellFormed ∧ ∃ spec, child.subtree "spec" = .ok spec) :
    Converged c b s s.updateChildren := by
  have h := populated_spec hn hs
  have hn' := h.nodup_updateChildren hn
  have hdesired {g child : Resource} (hg : g ∈ b.governed c s.manifestIndex)
      (hc : child ∈ c.desiredOf g) :
      c.governs g.identity = true ∧
        s.inventory.desired? (.owned g.identity child.identity) = some child :=
    ⟨(List.mem_filter.1 hg).2, h.desired?_of_desiredBy hg (mem_desiredOf.1 hc)⟩
  have hpresent {owner : Ref} {item : Resource} (hm : item ∈ b.others s.manifestIndex)
      (ho : c.ownerOf item = some owner) {exchange : Exchange}
      (hx : c.exchange? item.identity = some exchange) :
      s.inventory.existing? (.owned owner item.identity) = some item := by
    refine h.existing?_of_owned hm ho ?_ hx
    rw [← Bool.not_eq_true]
    intro hg
    rw [exchange?_of_governs howned hg] at hx
    cases hx
  constructor
  case item =>
    intro g hg hf child hc hany
    obtain ⟨hgov, hd⟩ := hdesired hg hc
    obtain ⟨exchange, hx, hres⟩ := (Option.any_eq_true _ _).1 hany
    obtain ⟨hw, spec, hspec⟩ := hspec g hg child hc
    obtain ⟨item, hitem⟩ := h.converges_item hd hn (fun q => h.parent_unique hone hd) hf hpop hgov
      hx hres hw hspec
    exact ⟨item, Batch.filter_identity hn' hitem.item, by simp [Resource.isOwnedBy, hitem.owner],
      hitem.unflagged, hitem.spec⟩
  case condition =>
    intro g hg hf child hc hany
    obtain ⟨hgov, hd⟩ := hdesired hg hc
    obtain ⟨exchange, hx, hcond⟩ := (Option.any_eq_true _ _).1 hany
    exact h.converges_condition hr hf hpop hgov hx hcond hd
  case dropped =>
    intro owner hf item hm ho hany hd
    obtain ⟨exchange, hx, hcond⟩ := (Option.any_eq_true _ _).1 hany
    have hgov := (ownerOf_eq_some_iff.1 ho).1
    exact h.condition?_of_undesired hr hf hpop hgov hx hcond (hpresent hm ho hx)
      (h.desired?_of_desiredBy_eq_none hd)
  case retired =>
    intro owner hf item hm ho hany hd
    obtain ⟨exchange, hx, hres⟩ := (Option.any_eq_true _ _).1 hany
    have hgov := (ownerOf_eq_some_iff.1 ho).1
    have hnone {q : Ref} (hq : q ∉ s.failed) :
        s.inventory.desired? (.owned q item.identity) = none :=
      h.desired?_of_desiredBy_eq_none fun g hg hid => hd g hg (hid ▸ hq)
    obtain ⟨r, hitem, hflag, howner⟩ := h.itemAt_of_undesired hn hf hpop hgov hx hres
      (hpresent hm ho hx) (hnone (Run.not_failed hf)) fun _ => hnone
    exact ⟨r, Batch.filter_identity hn' hitem, by simp [Resource.isOwnedBy, howner], hflag⟩

def allocating : Controller :=
  { (ofGoverned ⟨"req/v1", "Interface"⟩).owning ⟨"ipam/v1", "IPAllocation"⟩ .conditionAndResource with
    populate := some fun _ => .ok [.minimal ⟨"ipam/v1", "IPAllocation"⟩ "x"] }

def allocatingPackage : Batch :=
  .ofItems [.minimal ⟨"kpt.dev/v1", "Kptfile"⟩ "pkg", .minimal ⟨"req/v1", "Interface"⟩ "a",
    ⟨.object [("apiVersion", .string "ipam/v1"), ("kind", .string "IPAllocation"),
      ("metadata", .object [
        ("annotations", .object [(Resource.ownerAnnotation, .string "req/v1.Interface.a")]),
        ("name", .string "y")])]⟩]

/-- The allocation is created and the other one is flagged. -/
theorem children_converge_allocating : ∃ s, allocating.populated allocatingPackage = some s ∧
    Converged allocating allocatingPackage s s.updateChildren ∧
    s.updateChildren.failed = [] ∧ s.updateChildren.batch.items.map Resource.isFlagged =
      [false, false, true, false] := by
  let x : Resource := .minimal ⟨"ipam/v1", "IPAllocation"⟩ "x"
  obtain ⟨s, hs, hread, hundisputed, hall, hfailed, hflags⟩ : ∃ s,
      allocating.populated allocatingPackage = some s ∧ s.inventory.Readable ∧
      (∀ g ∈ allocatingPackage.governed allocating s.manifestIndex,
        ∀ g' ∈ allocatingPackage.governed allocating s.manifestIndex,
          ∀ child ∈ allocating.desiredOf g, ∀ child' ∈ allocating.desiredOf g',
            child.identity = child'.identity → g = g') ∧
      (∀ g ∈ allocatingPackage.governed allocating s.manifestIndex,
        ∀ child ∈ allocating.desiredOf g, child = x) ∧
      s.updateChildren.failed = [] ∧ s.updateChildren.batch.items.map Resource.isFlagged =
        [false, false, true, false] := by
    decide +kernel
  refine ⟨s, hs, children_converge (by decide +kernel) hs rfl hread (by decide) hundisputed ?_,
    hfailed, hflags⟩
  intro g hg child hc
  rw [hall g hg child hc]
  exact ⟨Resource.wellFormed_minimal _ _, none,
    Resource.subtree_eq_ok_iff.2 (.inl ⟨rfl, .inl (by decide +kernel)⟩)⟩

end Controller

end Reconciler
