import Reconciler.Proofs.Pending

/-! Children whose write is rejected. The owner fails and the child is not recorded, but a condition
that was announced for it has been put before, and stays. -/
namespace Reconciler

open Inventory (Action Change Due Key)

variable {c : Controller} {b : Batch} {s : Run} {change change' : Change} {a : Action} {k : Key}
  {e : Inventory.Entry} {isUpdate : Bool}

namespace Inventory

section Due

private theorem Due.of_write (h : Due k e (.write isUpdate change)) (ha : Due k e a) :
    a = .announce k ∨ a = .write isUpdate change := by
  cases h with
  | create _ hex hd =>
    cases ha with
    | fault _ hold => cases hold.symm.trans hex
    | drop _ _ _ hnone => cases hnone.symm.trans hd
    | retire _ _ _ _ hnone => cases hnone.symm.trans hd
    | announce => exact .inl rfl
    | create _ _ hd' =>
      cases hd'.symm.trans hd
      exact .inr rfl
    | update _ hold => cases hold.symm.trans hex
  | update _ hex hd hc =>
    cases ha with
    | fault _ hold hd' hc' =>
      cases hold.symm.trans hex
      cases hd'.symm.trans hd
      cases hc'.symm.trans hc
    | drop _ _ _ hnone => cases hnone.symm.trans hd
    | retire _ _ _ _ hnone => cases hnone.symm.trans hd
    | announce => exact .inl rfl
    | create _ hnone => cases hnone.symm.trans hex
    | update _ _ hd' =>
      cases hd'.symm.trans hd
      exact .inr rfl

private theorem Due.announce_iff (h : Due k e (.write isUpdate change)) : Due k e (.announce k) ↔
    k.role = .owned ∧ e.hasCondition = true ∧ e.condition = none := by
  constructor
  · intro ha
    cases ha with
    | announce hr hx hc => exact ⟨hr, hx, hc⟩
  · rintro ⟨hr, hx, hc⟩
    obtain ⟨new, hd, hplan⟩ : ∃ new, e.desired = some new ∧ ∃ plan, resourcePlan k e = .ok plan := by
      cases hp : resourcePlan k e with
      | ok plan =>
        cases h with
        | create _ _ hd => exact ⟨_, hd, plan, rfl⟩
        | update _ _ hd => exact ⟨_, hd, plan, rfl⟩
      | error fault =>
        obtain ⟨hm, old, new, hex, hd, hc⟩ := resourcePlan_eq_error_iff.1 hp
        rcases h.of_write (.fault hm hex hd hc) with hf | hf <;> cases hf
    obtain ⟨plan, hp⟩ := hplan
    exact .announce hr hx hc hd hp

end Due

end Inventory

namespace Run

/-- The resource of a change cannot be written: its references are no targets, or it cannot be
annotated with its owner. -/
def Rejects (change : Change) : Prop :=
  Ref.isOwnerChild change.key.refs = false ∨ ∃ fault, prepared change = .error fault

instance (change : Change) : Decidable (Rejects change) :=
  decidable_of_iff (Ref.isOwnerChild change.key.refs = false ∨ (prepared change).isOk = false) <| by
    rw [Rejects]
    cases prepared change <;> simp [Except.isOk, Except.toBool]

/-- A condition is announced for the child of a change: its class is exchanged by conditions, and
none is known. -/
def Announces (s : Run) (change : Change) : Prop :=
  change.exchange.any Exchange.hasCondition = true ∧ s.inventory.condition? change.key = none

instance (s : Run) (change : Change) : Decidable (s.Announces change) :=
  inferInstanceAs (Decidable (_ ∧ _))

private theorem effect_of_rejects (h : Rejects change) :
    (Action.write isUpdate change).effect = .reject change.key := by
  rcases Inventory.writeEffect_cases isUpdate change with ⟨-, he⟩ | ⟨ho, r, hprep, -⟩
  · exact he
  · rcases h with h | ⟨fault, h⟩
    · cases ho.symm.trans h
    · cases hprep.symm.trans h

private theorem exists_write_of_mem
    (h : change ∈ s.childPlan.creates ∨ change ∈ s.childPlan.updates) :
    ∃ isUpdate, Action.write isUpdate change ∈ s.childActions := by
  rcases h with h | h
  · exact ⟨false, by simp [childActions, Inventory.Plan.schedule, Inventory.Plan.arrivals, h]⟩
  · exact ⟨true, by simp [childActions, Inventory.Plan.schedule, Inventory.Plan.arrivals, h]⟩

end Run

namespace Controller

namespace Gathered

variable (h : Gathered c b s)
include h

private theorem due_of_write (ha : .write isUpdate change ∈ s.childActions) :
    ∃ p x exchange, change.key = .owned p x ∧ change.exchange = some exchange ∧
      c.exchange? x = some exchange ∧ ∀ a, a ∈ s.childActions ∧ a.key = change.key ↔
        Due change.key (s.childEntry p x exchange) a := by
  obtain ⟨hpop, p, x, exchange, hf, hgov, hexch, hdue⟩ := h.mem_childActions.1 ha
  obtain ⟨hk, hx⟩ : change.key = .owned p x ∧ change.exchange = some exchange := by
    cases hdue <;> exact ⟨rfl, rfl⟩
  refine ⟨p, x, exchange, hk, hx, hexch, fun a => ?_⟩
  rw [hk]
  constructor
  · rintro ⟨ha', hak⟩
    obtain ⟨-, q, y, exchange', -, -, hexch', hdue'⟩ := h.mem_childActions.1 ha'
    cases hdue'.key_eq.symm.trans hak
    cases hexch'.symm.trans hexch
    exact hdue'
  · intro hdue'
    exact ⟨h.mem_childActions.2 ⟨hpop, p, x, exchange, hf, hgov, hexch, hdue'⟩, hdue'.key_eq⟩

private theorem announce_mem_iff (ha : .write isUpdate change ∈ s.childActions) :
    .announce change.key ∈ s.childActions ↔ s.Announces change := by
  obtain ⟨p, x, exchange, hk, hx, -, hdue⟩ := h.due_of_write ha
  have hannounce := ((hdue _).1 ⟨ha, rfl⟩).announce_iff
  have hself : (Action.announce change.key).key = change.key := rfl
  rw [← hdue, and_iff_left hself] at hannounce
  rw [hannounce, Run.Announces, hk, hx]
  exact and_iff_right rfl

private theorem effect_of_rejected (ha : .write isUpdate change ∈ s.childActions)
    (hr : Run.Rejects change) (ha' : a ∈ s.childActions) (hk : a.key = change.key) :
    a.effect = .reject change.key ∨ s.Announces change ∧ a = .announce change.key := by
  obtain ⟨p, x, exchange, -, -, -, hdue⟩ := h.due_of_write ha
  rcases ((hdue _).1 ⟨ha, rfl⟩).of_write ((hdue a).1 ⟨ha', hk⟩) with rfl | rfl
  · exact .inr ⟨(h.announce_mem_iff ha).1 ha', rfl⟩
  · exact .inl (Run.effect_of_rejects hr)

private theorem touchesCondition_iff_announces (ha : .write isUpdate change ∈ s.childActions)
    (hr : Run.Rejects change) {p x : Ref} (hk : change.key = .owned p x) :
    s.TouchesCondition p x ↔ s.Announces change := by
  constructor
  · rintro ⟨a, ha', hak, hc⟩
    rcases h.effect_of_rejected ha hr ha' (hak.trans hk.symm) with he | ⟨hnew, -⟩
    · rw [he] at hc
      exact absurd rfl hc
    · exact hnew
  · exact fun hnew => ⟨_, (h.announce_mem_iff ha).2 hnew, hk, by simp [Action.effect]⟩

private theorem announces_iff (ha : .write isUpdate change ∈ s.childActions)
    (hr : change.key.subject.Readable) : s.Announces change ↔
      change.exchange.any Exchange.hasCondition = true ∧
        s.manifest.condition? change.key.conditionType = none := by
  obtain ⟨p, x, exchange, hk, hx, hexch, -⟩ := h.due_of_write ha
  have hpresent := Run.isSome_of_mem_childActions ha
  refine and_congr_right fun hcond => ?_
  have htakes := h.takes hr hpresent fun _ => by rwa [hk, Key.owned, hexch, ← hx]
  have hsame := h.agrees_isSome hr htakes
  rw [← Option.isNone_iff_eq_none, ← Option.isNone_iff_eq_none, ← Option.not_isSome,
    ← Option.not_isSome, Manifest.condition?, hsame]

end Gathered

/-- The owner of a rejected child fails. The record of its condition stays exactly if none is
announced for it, or the announced one was there already. -/
theorem rejected_child_record (hs : c.populated b = some s)
    (hm : change ∈ s.childPlan.creates ∨ change ∈ s.childPlan.updates) (hr : Run.Rejects change)
    (hd : s.inventory.Distinguishes change.key) :
    let t := change.key.conditionType
    let announced := Run.pending change.key "create" "create initial resource"
    change.key.parent ∈ s.updateChildren.failed ∧
    s.updateChildren.inventory.existing? change.key = s.inventory.existing? change.key ∧
    (s.Announces change → s.updateChildren.manifest.condition? t = some announced) ∧
    (s.updateChildren.manifest.condition? t = s.manifest.condition? t ↔
      ¬ s.Announces change ∨ s.manifest.condition? t = some announced) ∧
    (change.key.subject.Readable → (s.Announces change ↔
      change.exchange.any Exchange.hasCondition = true ∧ s.manifest.condition? t = none)) := by
  intro t announced
  have h := gathered_spec hs
  obtain ⟨isUpdate, ha⟩ := Run.exists_write_of_mem hm
  obtain ⟨p, x, -, hk, -⟩ := h.due_of_write ha
  have htouch := h.touchesCondition_iff_announces ha hr hk
  have ht : t = (Key.owned p x).conditionType := congrArg Key.conditionType hk
  have hput : s.Announces change → s.updateChildren.manifest.condition? t = some announced := by
    intro hnew
    obtain ⟨a, ha', hak, hlast⟩ := Run.findCondition_of_touched (hk ▸ hd) (htouch.2 hnew)
    rw [ht]
    rcases h.effect_of_rejected ha hr ha' (hak.trans hk.symm) with he | ⟨-, rfl⟩
    · rw [he] at hlast
      cases hlast
    · exact (Option.some.inj hlast).symm
  refine ⟨?failed, ?existing, hput, ?record, h.announces_iff ha⟩
  case failed =>
    rw [hk]
    refine Classical.not_not.1 fun hp => ?_
    have hrejected := Run.not_rejected hp ha hk
    rw [Run.effect_of_rejects hr] at hrejected
    cases hrejected
  case existing =>
    rw [hk]
    refine Run.existing?_of_untouched ?_
    rintro ⟨a, ha', hak, hi⟩
    rcases h.effect_of_rejected ha hr ha' (hak.trans hk.symm) with he | ⟨-, rfl⟩
    · rw [he] at hi
      exact hi rfl
    · exact hi rfl
  case record =>
    by_cases hnew : s.Announces change
    · rw [hput hnew]
      simp [hnew, eq_comm]
    · have hkept : s.updateChildren.manifest.condition? t = s.manifest.condition? t := by
        rw [ht]
        exact Run.findCondition_of_untouched (hk ▸ hd) (mt htouch.1 hnew)
      exact iff_of_true hkept (.inl hnew)

/-- An allocation whose annotations are no mapping, so that no owner can be put on it. -/
def spoiltAllocation : Resource :=
  ⟨.object [("apiVersion", .string "ipam/v1"), ("kind", .string "IPAllocation"),
    ("metadata", .object [("annotations", .string "none"), ("name", .string "x")])]⟩

def spoiling : Controller :=
  { (ofGoverned ⟨"req/v1", "Interface"⟩).owning ⟨"ipam/v1", "IPAllocation"⟩ .conditionAndResource with
    populate := some fun _ => .ok [spoiltAllocation] }

def spoiltChange : Change :=
  ⟨.owned (Coordinate.named ⟨"req/v1", "Interface"⟩ "a")
    (Coordinate.named ⟨"ipam/v1", "IPAllocation"⟩ "x"), some .conditionAndResource, spoiltAllocation⟩

/-- Where the manifest has a condition of the allocation, it stays. -/
theorem rejected_child_record_spoiling : ∃ s, spoiling.populated (stalePackage "True") = some s ∧
    Coordinate.named ⟨"req/v1", "Interface"⟩ "a" ∈ s.updateChildren.failed ∧
    s.updateChildren.manifest.condition? "req/v1.Interface.a_ipam/v1.IPAllocation.x" =
      s.manifest.condition? "req/v1.Interface.a_ipam/v1.IPAllocation.x" := by
  obtain ⟨s, hs, hm, hr, hd, hold⟩ : ∃ s, spoiling.populated (stalePackage "True") = some s ∧
      spoiltChange ∈ s.childPlan.creates ∧ Run.Rejects spoiltChange ∧
      s.inventory.Distinguishes spoiltChange.key ∧ ¬ s.Announces spoiltChange := by
    decide +kernel
  obtain ⟨hfailed, -, -, hrecord, -⟩ := rejected_child_record hs (.inl hm) hr hd
  exact ⟨s, hs, hfailed, hrecord.2 (.inl hold)⟩

def plainPackage : Batch :=
  .ofItems [.minimal ⟨"kpt.dev/v1", "Kptfile"⟩ "pkg", .minimal ⟨"req/v1", "Interface"⟩ "a"]

/-- Where the manifest has none, the rejected allocation leaves one behind. -/
theorem rejected_child_announced : ∃ s, spoiling.populated plainPackage = some s ∧
    spoiltChange ∈ s.childPlan.creates ∧ Run.Rejects spoiltChange ∧
    s.manifest.condition? spoiltChange.key.conditionType = none ∧
    s.updateChildren.manifest.condition? spoiltChange.key.conditionType =
      some ⟨"req/v1.Interface.a_ipam/v1.IPAllocation.x", .isFalse, some "create",
        "create initial resource"⟩ := by
  decide +kernel

end Controller

end Reconciler
