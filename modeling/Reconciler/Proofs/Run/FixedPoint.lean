import Reconciler.Proofs.Run.Again

/-! When the second run has nothing left to do: at each identity at most one governed resource brings a
child, and no other one has a condition to announce there. -/
namespace Reconciler

open Inventory (Action Due Key Sound)

variable {c : Controller} {b : Batch} {s s' : Run} {k : Key} {p q r x : Ref}
  {new old child item g o : Resource} {exchange : Exchange} {a : Action} {e : Effect}

namespace Run

/-- The governed resource `q` has not failed, and has not announced its desired child `x`, since the
present one could not be compared with it. -/
structure Withholds (s : Run) (q x : Ref) : Prop where
  settled : q ∉ s.failed
  exchange : s.controller.exchange? x = some .conditionAndResource
  incomparable : ∃ old new fault, s.inventory.existing? (.owned q x) = some old ∧
    s.inventory.desired? (.owned q x) = some new ∧
    Inventory.isChanged .owned old new = .error fault
  condition : s.inventory.condition? (.owned q x) = none

/-- Where a governed resource brings a child no other one does, nor does any other one still have to
announce its own child there. -/
def Undisputed (s : Run) : Prop := ∀ p q x new child, s.Brings p x new child →
  (∃ new' child', s.Brings q x new' child') ∨ s.manifest.IsStorable ∧ s.Withholds q x → q = p

end Run

namespace Controller.Again

variable (h : Again c b s s')
include h

section Items

variable (hu : s.Undisputed)
include hu

private theorem exists_of_brings (hb : s.Brings p x new child) :
    ∃ item, s'.inventory.existing? (.owned p x) = some item ∧
      ((∃ other?, item = Batch.merged other? child) ∨
        s.inventory.existing? (.owned p x) = some item ∧
          ∀ a ∈ s.childActions, ∀ r, a.effect.item = some r → r.identity ≠ x) := by
  obtain ⟨hwell, hgov, -⟩ := h.leaves _ _ _ hb.desired
  rw [h.first.controller] at hgov
  have hcreate (hex : s.inventory.existing? (.owned p x) = none) :=
    h.first.mem_of_brings hb fun exchange hm => .create (fun _ => hm) hex hb.desired
  have hid := (h.first.identity_of_brings hb).2
  have hfate := h.first.fate_final h.steady h.nodup hgov
  generalize hbefore : Batch.itemAt b.items x = before at hfate
  generalize hafter : Batch.itemAt s.final.batch.items x = after at hfate
  cases hfate with
  | kept hnot =>
    cases hex : s.inventory.existing? (.owned p x) with
    | none =>
      obtain ⟨a, ha, -, -, hi⟩ := hcreate hex
      exact absurd hid (hnot a ha child hi)
    | some old =>
      refine ⟨old, ?_, .inr ⟨rfl, hnot⟩⟩
      rw [h.existing?_of_kept (hafter.trans hbefore.symm), hex]
  | brought ha hb' =>
    cases hu _ _ _ _ _ hb' (.inl ⟨_, _, hb⟩)
    have hnew := hb.desired.symm.trans hb'.desired
    cases hnew
    have hchild := hb.renewed.symm.trans hb'.renewed
    cases hchild
    exact ⟨_, h.existing?_of_brought hb hafter, .inl ⟨_, rfl⟩⟩
  | retired hr hnot =>
    cases hex : s.inventory.existing? (.owned p x) with
    | none =>
      obtain ⟨a, ha, -, hw, hi⟩ := hcreate hex
      cases a with
      | write isUpdate change => exact absurd hid (hnot isUpdate change child ha hi)
      | _ => cases hw
    | some old =>
      obtain ⟨rfl, -⟩ := h.first.owner_unique h.nodup hex hr.existing
      have hd := hb.desired
      rw [hr.desired] at hd
      cases hd

private theorem not_brought_again (ha : a ∈ s'.childActions) (hw : a.isWrite = true)
    (hi : a.effect.item = some child) : False := by
  obtain ⟨-, p, x, exchange, hp, -, hx, hdue⟩ := h.second.mem_childActions.1 ha
  have hbrings {isUpdate : Bool} {new : Resource}
      (hm : (s'.childEntry p x exchange).materializes (.owned p x))
      (hd : s'.inventory.desired? (.owned p x) = some new)
      (hi : (Inventory.writeEffect isUpdate ⟨.owned p x, some exchange, new⟩).item = some child) :
      s.Brings p x new child := by
    obtain ⟨hprep, -, ho⟩ := Inventory.writeEffect_item_iff.1 hi
    rw [Run.prepared_owned] at hprep
    refine h.brings_iff.1 ⟨hp, ?_, ho, hd, hprep⟩
    rw [h.second.controller, hx]
    simpa [Inventory.Entry.hasResource, Run.childEntry] using hm rfl
  cases hdue with
  | create hm hex hd =>
    obtain ⟨item, hitem, -⟩ := h.exists_of_brings hu (hbrings hm hd hi)
    rw [show s'.inventory.existing? (.owned p x) = none from hex] at hitem
    cases hitem
  | update hm hex hd hc =>
    have hb := hbrings hm hd hi
    obtain ⟨item, hitem, hcase⟩ := h.exists_of_brings hu hb
    rw [show s'.inventory.existing? (.owned p x) = some _ from hex] at hitem
    cases hitem
    rcases hcase with ⟨other?, rfl⟩ | ⟨hex₀, hnot⟩
    · exact hb.isChanged (h.leaves _ _ _ hb.desired).1 other? hc
    · obtain ⟨a, ha, -, -, hi⟩ := h.first.mem_of_brings hb fun exchange hm =>
        .update (fun _ => hm) hex₀ hb.desired hc
      exact hnot a ha child hi (h.first.identity_of_brings hb).2
  | _ => cases hw

omit hu in
private theorem not_retired_again {change : Inventory.Change}
    (ha : .retire change ∈ s'.childActions) :
    False := by
  obtain ⟨hpop, p, x, exchange, hp, hgov, hx, hdue⟩ := h.second.mem_childActions.1 ha
  cases hdue with
  | @retire old _ hm hex hf hd =>
    have hex : s'.inventory.existing? (.owned p x) = some old := hex
    have hd : s.inventory.desired? (.owned p x) = none := (h.desired?_eq _).symm.trans hd
    have hgovx := (h.second.existing?_owned hex).2.2.1
    have hfate := h.first.fate_final h.steady h.nodup hgovx
    generalize hbefore : Batch.itemAt b.items x = before at hfate
    generalize hafter : Batch.itemAt s.final.batch.items x = after at hfate
    cases hfate with
    | kept hnot =>
      rw [h.existing?_of_kept (hafter.trans hbefore.symm)] at hex
      obtain ⟨-, hid, -, -, -, howner⟩ := h.first.existing?_owned hex
      obtain ⟨flagged, hflag⟩ := Resource.setAnnotation_isOk howner Resource.deleteAnnotation "true"
      have hmem := h.first.mem_childActions.2 ⟨hpop, p, x, exchange,
        fun hfail => hp ((h.mem_failed_iff (owned_of_exchange hx)).2 hfail), hgov, hx,
        .retire rfl hm hex hf hd⟩
      refine hnot _ hmem flagged ?_ ((Resource.SameBody.annotated hflag).identity.trans hid)
      rw [Action.effect, Inventory.retireEffect, if_neg (by simp [hf]), Resource.flagForDeletion, hflag]
    | brought _ hb =>
      obtain ⟨rfl, -⟩ := h.owner_unique hex (h.existing?_of_brought hb hafter)
      have hnew := hb.desired
      rw [hd] at hnew
      cases hnew
    | retired hr =>
      obtain ⟨-, rfl⟩ := h.owner_unique hex (h.existing?_of_retired hr hafter)
      rw [Batch.isFlagged_merged, Resource.isFlagged_flagForDeletion hr.flagged] at hf
      cases hf

private theorem item_of_action (ha : a ∈ s'.childActions) : a.effect.item = none := by
  cases hi : a.effect.item with
  | none => rfl
  | some child =>
    rcases h.second.writes_cases ha hi with ⟨p, isUpdate, new, rfl, -⟩ | ⟨p, old, rfl, -⟩
    · exact (h.not_brought_again hu ha rfl hi).elim
    · exact (h.not_retired_again ha).elim

end Items

section Conditions

variable (hs : s.manifest.IsStorable)
include hs

private theorem conditions_eq : s'.manifest.conditions = s.final.manifest.conditions := by
  have hstorable : s.final.manifest.IsStorable := by
    rwa [Manifest.IsStorable, h.source]
  rw [h.manifest, Run.conditionsAfter_of_storable hstorable]

/-- What the second run finds at a child that takes conditions. -/
theorem isSome_condition?_iff (hgov : c.governs p = true) (hx : c.exchange? x = some exchange)
    (hcond : exchange.hasCondition = true) (hread : (Key.owned p x).subject.Readable) :
    (s'.inventory.condition? (.owned p x)).isSome =
      (s.final.manifest.condition? (Key.owned p x).conditionType).isSome := by
  have hagree : _ = _ :=
    h.second.agrees_isSome hread (by simp [Inventory.takes, Key.owned, hgov, hx, hcond])
  rw [hagree, h.conditions_eq hs]
  rfl

omit hs in
private theorem withholds_of_isNone (hp : p ∉ s.failed) (hpop : c.populate.isSome = true)
    (hgov : c.governs p = true) (hx : c.exchange? x = some exchange)
    (hcond : exchange.hasCondition = true) (hd : s.inventory.desired? (.owned p x) = some new)
    (hnone : (s.final.manifest.condition? (Key.owned p x).conditionType).isSome = false) :
    s.Withholds p x := by
  have hk : (s.inventory.find? (.owned p x)).isSome = true :=
    h.first.sound.isSome_find?_iff.2 (.inr (.inr (by simp [hd])))
  have hread := h.legible _ hk (by simp [Key.owned])
  -- the run neither found a condition nor put one
  have hnot := fun hsome =>
    h.first.condition?_final_of_desired h.steady h.legible hgov hx hread hd hsome
  rw [hnone] at hnot
  have hcondition : s.inventory.condition? (.owned p x) = none := by
    have hagree : _ = _ :=
      h.first.agrees_isSome hread (by simp [Inventory.takes, Key.owned, hgov, hx, hcond])
    cases hcon : s.inventory.condition? (.owned p x) with
    | none => rfl
    | some y =>
      rw [hcon] at hagree
      exact absurd (hnot (.inl hagree.symm)) Bool.false_ne_true
  cases hplan : Inventory.resourcePlan (.owned p x) (s.childEntry p x exchange) with
  | ok plan =>
    have hdue := h.first.mem_childActions.2 ⟨hpop, p, x, exchange, hp, hgov, hx,
      .announce rfl hcond hcondition hd hplan⟩
    exact absurd (hnot (.inr ⟨_, hdue, rfl, by simp [Action.effect]⟩)) Bool.false_ne_true
  | error fault =>
    obtain ⟨hm, old, new, hex, hnew, hc⟩ := Inventory.resourcePlan_eq_error_iff.1 hplan
    have hres : exchange.hasResource = true := hm rfl
    refine ⟨hp, ?_, ⟨old, new, fault, hex, hnew, hc⟩, hcondition⟩
    rw [h.first.controller, hx]
    cases exchange with
    | conditionOnly => cases hres
    | conditionAndResource => rfl
    | localOnly => cases hcond

variable (hu : s.Undisputed)
include hu

private theorem existing?_of_withholds (hw : s.Withholds p x) :
    s'.inventory.existing? (.owned p x) = s.inventory.existing? (.owned p x) := by
  obtain ⟨old, new, fault, hex, hd, hc⟩ := hw.incomparable
  have hfate := h.first.fate_final h.steady h.nodup (h.first.existing?_owned hex).2.2.1
  generalize hbefore : Batch.itemAt b.items x = before at hfate
  generalize hafter : Batch.itemAt s.final.batch.items x = after at hfate
  cases hfate with
  | kept => exact h.existing?_of_kept (hafter.trans hbefore.symm)
  | brought ha hb =>
    cases hu _ _ _ _ _ hb (.inr ⟨hs, hw⟩)
    cases hd.symm.trans hb.desired
    cases hc.symm.trans (h.first.isChanged_of_write ha hex)
  | retired hr =>
    obtain ⟨rfl, -⟩ := h.first.owner_unique h.nodup hex hr.existing
    cases hr.desired.symm.trans hd

private theorem not_announced_again (ha : .announce k ∈ s'.childActions) : False := by
  obtain ⟨hpop, p, x, exchange, hp, hgov, hx, hdue⟩ := h.second.mem_childActions.1 ha
  cases hdue with
  | @announce new plan _ hcond hc hd hplan =>
    have hcond : exchange.hasCondition = true := hcond
    have hd : s.inventory.desired? (.owned p x) = some new := (h.desired?_eq _).symm.trans hd
    have hread := h.legible (.owned p x)
      (h.first.sound.isSome_find?_iff.2 (.inr (.inr (by simp [hd])))) (by simp [Key.owned])
    have hw : s.Withholds p x := by
      refine h.withholds_of_isNone (fun hf => hp ((h.mem_failed_iff (owned_of_exchange hx)).2 hf))
        hpop hgov hx hcond hd ?_
      rw [← h.isSome_condition?_iff hs hgov hx hcond hread,
        show s'.inventory.condition? (.owned p x) = none from hc]
      rfl
    obtain ⟨old, new', fault, hex, hnew, hfault⟩ := hw.incomparable
    have hres : exchange.hasResource = true := by
      have hboth := hw.exchange
      rw [h.first.controller, hx] at hboth
      cases hboth
      rfl
    have herr : Inventory.resourcePlan (.owned p x) (s'.childEntry p x exchange) = .error fault :=
      Inventory.resourcePlan_eq_error_iff.2 ⟨fun _ => hres, old, new',
        (h.existing?_of_withholds hs hu hw).trans hex, (h.desired?_eq _).trans hnew, hfault⟩
    rw [hplan] at herr
    cases herr

private theorem condition_of_action (ha : a ∈ s'.childActions) : a.effect.condition = none := by
  have hitem := h.item_of_action hu ha
  obtain ⟨hpop, p, x, exchange, hp, hgov, hx, hdue⟩ := h.second.mem_childActions.1 ha
  cases hdue with
  | fault => rfl
  | drop _ hcond hc hd =>
    have hc : s'.inventory.condition? (.owned p x) = some _ := hc
    have hread := h.second.readable_of_condition? (k := .owned p x) (by simp [hc])
    have hsome := h.isSome_condition?_iff hs hgov hx hcond hread
    rw [h.first.condition?_final_of_undesired h.steady h.legible hgov hx hread
      (fun hf => hp ((h.mem_failed_iff (owned_of_exchange hx)).2 hf)) hpop hcond
      ((h.desired?_eq _).symm.trans hd), hc] at hsome
    cases hsome
  | retire => exact (h.not_retired_again ha).elim
  | announce => exact (h.not_announced_again hs hu ha).elim
  | create hm => exact Inventory.writeEffect_condition_of_item_none (hm rfl) hitem
  | update hm => exact Inventory.writeEffect_condition_of_item_none (hm rfl) hitem

end Conditions

section Generation

/-- A governed reference that the second run has recorded is readable. -/
theorem readable_governed (hk : (s'.inventory.find? (.governed r)).isSome = true) :
    (Subject.single r).Readable := by
  rcases h.second.sound.isSome_find?_iff.1 hk with hc | hg | hd
  · exact h.second.readable_of_condition? (k := .governed r) hc
  · rw [h.existing?_governed, ne_eq, Option.map_eq_none_iff] at hg
    exact h.legible (.governed r) (h.first.sound.isSome_find?_iff.2 (.inr (.inl hg)))
      (by simp [Key.governed])
  · rw [h.desired?_eq] at hd
    exact h.legible (.governed r) (h.first.sound.isSome_find?_iff.2 (.inr (.inr hd)))
      (by simp [Key.governed])

private theorem written_of_renewal (he : s'.Renewal e) : e.Written s'.batch.items := by
  intro item hx
  obtain ⟨r, g', hg', hreg⟩ := he.item hx
  obtain ⟨hm, -, hid⟩ := h.second.existing?_governed.1 hg'
  have hxr := (Resource.sameBody_regenerated hreg).identity.trans hid
  refine ⟨g', ?_, ?_⟩
  · rw [h.second.items, hxr, ← hid]
    exact Batch.itemAt_of_mem h.keeps.nodup_writeManifest (Batch.mem_of_mem_others hm)
  · rw [h.existing?_governed] at hg'
    obtain ⟨g, hg, rfl⟩ := Option.map_eq_some_iff.1 hg'
    rw [h.verdict_eq] at hreg
    have hw := h.wellFormed g (Batch.mem_of_mem_others (h.first.existing?_governed.1 hg).1)
    exact Resource.merged_afterwards hw hreg

private theorem last_effect (hgov : c.governs r = true) (hr : (Subject.single r).Readable)
    (hren : s.Renewal e) (hk : e.key = .governed r) (hc : e.condition ≠ none) :
    ∃ e, s.Renewal e ∧ e.key = .governed r ∧
      e.condition = some (s.final.manifest.condition? (Key.governed r).conditionType) := by
  obtain ⟨e', he', hkey', hlast⟩ := h.first.condition?_final_of_touched h.steady h.legible
    (k := .governed r) hgov hr (h.first.mem_effects_of_renewal h.steady hren) hc hk
  refine ⟨e', h.first.renewal_of_governed h.steady he' (by simp [hlast]) ?_, hkey', hlast⟩
  rw [hkey']
  rfl

private theorem orphan_dropped (hready : s.inventory.isReady = true)
    (hr : (Subject.single r).Readable) (hgov : c.governs r = true)
    (hnone : s.inventory.existing? (.governed r) = none) :
    s.final.manifest.condition? (Key.governed r).conditionType = none := by
  by_cases hk : (s.inventory.find? (.governed r)).isSome = true
  · obtain ⟨e, hren, hkey, hlast⟩ := h.last_effect hgov hr (.orphan hready hk hnone) rfl (by simp)
    have hno {r' : Ref} {g : Resource} (hk' : Key.governed r' = .governed r)
        (hg : s.inventory.existing? (.governed r') = some g) : False := by
      rw [hk', hnone] at hg
      cases hg
    cases hren with
    | orphan => exact (Option.some.inj hlast).symm
    | retire hg => exact (hno (by simpa using hkey) hg).elim
    | done hg => exact (hno hkey hg).elim
    | update hg => exact (hno (by simpa using hkey) hg).elim
  · -- what was not recorded had no condition, and none was put
    rw [h.first.condition?_final_of_untouched h.steady h.legible (k := .governed r) hgov hr]
    · have hagree : _ = _ := h.first.agrees_isSome (k := .governed r) hr hgov
      have hcond : s.inventory.condition? (.governed r) = none :=
        Classical.not_not.1 fun hc => hk (h.first.sound.isSome_find?_iff.2 (.inl hc))
      rw [hcond] at hagree
      rw [Manifest.condition?]
      simpa using hagree.symm
    · intro e he hkey
      apply Classical.not_not.1
      intro hc
      have hren := h.first.renewal_of_governed h.steady he hc (by rw [hkey]; rfl)
      obtain ⟨r', hkey', hk'⟩ := h.first.key_of_renewal hren
      rw [hkey] at hkey'
      cases hkey'
      exact hk hk'

private theorem generated_done (hr : (Subject.single r).Readable)
    (hg : s.inventory.existing? (.governed r) = some g) (hv : s.verdict r = .renew)
    (ho : g.renew r = .ok o) : s.final.manifest.condition? (Key.governed r).conditionType =
      some (Run.done (.governed r)) := by
  obtain ⟨e, hren, hkey, hlast⟩ := h.last_effect (h.first.existing?_governed.1 hg).2.1 hr
    (.done hg hv ho) rfl (by simp)
  cases hren with
  | orphan _ _ hnone =>
    rw [show Key.governed _ = .governed r from hkey, hg] at hnone
    cases hnone
  | retire _ hv' =>
    rw [Inventory.key_retireEffect] at hkey
    cases hkey
    rw [hv] at hv'
    cases hv'
  | done =>
    cases hkey
    exact (Option.some.inj hlast).symm
  | update =>
    rw [Inventory.writeEffect_condition_of_ne (by simp [Key.governed])] at hlast
    cases hlast

private theorem stored_of_renewal (hs : s.manifest.IsStorable) (hren : s'.Renewal e) :
    e.Stored s'.manifest.conditions := by
  intro y hy
  rw [h.conditions_eq hs]
  cases hren with
  | orphan hall hk hnone =>
    cases hy
    rw [h.existing?_governed, Option.map_eq_none_iff] at hnone
    exact h.orphan_dropped (h.isReady_eq ▸ hall) (h.readable_governed hk) (h.second.sound.admits hk)
      hnone
  | @retire r g' hg' hv =>
    -- a resource that could be flagged was flagged by the first run
    cases hi : (Inventory.retireEffect (.governed r) g').item with
    | none =>
      rw [Inventory.retireEffect_condition_of_item_none hi] at hy
      cases hy
    | some flagged =>
      obtain ⟨hf, hflag⟩ := Inventory.retireEffect_item hi
      rw [h.existing?_governed] at hg'
      obtain ⟨g, hg, rfl⟩ := Option.map_eq_some_iff.1 hg'
      rw [h.verdict_eq] at hv
      rw [hv] at hi hf
      have hw := h.wellFormed g (Batch.mem_of_mem_others (h.first.existing?_governed.1 hg).1)
      have hmerged := Resource.merged_afterwards (v := .retire) hw hi
      have hflagged := Batch.isFlagged_merged (some (g.afterwards .retire r)) flagged
      rw [hmerged, hf, Resource.isFlagged_flagForDeletion (hv ▸ hflag)] at hflagged
      cases hflagged
  | @done r g' o' hg' hv ho' =>
    cases hy
    have hk : (s'.inventory.find? (.governed r)).isSome = true :=
      h.second.sound.isSome_find?_iff.2 (.inr (.inl (by simp [hg'])))
    rw [h.existing?_governed] at hg'
    obtain ⟨g, hg, rfl⟩ := Option.map_eq_some_iff.1 hg'
    rw [h.verdict_eq] at hv
    cases ho : g.renew r with
    | ok o => exact h.generated_done (h.readable_governed hk) hg hv ho
    | error fault =>
      rw [hv, Resource.afterwards, Resource.regenerated, ho] at ho'
      rw [ho] at ho'
      cases ho'
  | update =>
    rw [Inventory.writeEffect_condition_of_ne (by simp [Key.governed])] at hy
    cases hy

end Generation

section Undisputed

variable (hu : s.Undisputed)
include hu

private theorem items_final : s'.final.batch.items = s'.batch.items ∧
    s'.final.report.objectsWritten = s'.report.objectsWritten := by
  apply (h.second.trace_final h.steady).items_of_written
  intro e he
  rcases h.second.effects_cases h.steady he with ⟨a, ha, rfl⟩ | hren | ⟨hnone, -⟩
  · intro item hi
    rw [h.item_of_action hu ha] at hi
    cases hi
  · exact h.written_of_renewal hren
  · intro item hi
    rw [hnone] at hi
    cases hi

private theorem conditions_final (hs : s.manifest.IsStorable) :
    s'.final.manifest.conditions = s.final.manifest.conditions := by
  rw [← h.conditions_eq hs]
  apply (h.second.trace_final h.steady).conditions_of_stored
  intro e he
  rcases h.second.effects_cases h.steady he with ⟨a, ha, rfl⟩ | hren | ⟨-, hnone⟩
  · intro y hy
    rw [h.condition_of_action hs hu ha] at hy
    cases hy
  · exact h.stored_of_renewal hs hren
  · intro y hy
    rw [hnone] at hy
    cases hy

theorem objectsWritten_eq_zero : s'.final.writeManifest.report.objectsWritten = 0 :=
  (h.items_final hu).2.trans h.second.objectsWritten

/-- The second run leaves the items alone. -/
theorem items_eq : s'.final.writeManifest.batch.items = s.final.writeManifest.batch.items := by
  have hitems := (h.items_final hu).1
  rw [h.second.items] at hitems
  have hsource := h.source
  have hwell := h.wellFormed_source
  rw [← hsource] at hwell
  rw [Run.items_writeManifest_again, hitems]
  · rw [(h.second.trace_final h.steady).source, h.manifest]
  · intro hs
    exact h.conditions_final hu (by rwa [Manifest.IsStorable, ← hsource])
  · rw [hitems, Run.identity_rootAfter]
    exact Run.itemAt_writeManifest_self hwell h.keeps.root

end Undisputed

end Controller.Again

end Reconciler
