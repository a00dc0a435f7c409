import Reconciler.Proofs.Run.FixedPoint

/-! Where governed resources dispute a child, the second run still has something to do: it brings the
child once more, or it announces what the first one has withheld. -/
namespace Reconciler

open Inventory (Action Due Key Sound)

variable {c : Controller} {b : Batch} {s s' : Run} {k : Key} {p q x : Ref} {new child : Resource}

namespace Controller.Again

variable (h : Again c b s s')
include h

private theorem isSome_find?_of_existing? {item : Resource}
    (hex : s'.inventory.existing? (.owned p x) = some item) :
    (s.inventory.find? (.owned p x)).isSome = true := by
  have hgov := (h.second.existing?_owned hex).2.2.1
  have hfate := h.first.fate_final h.steady h.nodup hgov
  generalize hbefore : Batch.itemAt b.items x = before at hfate
  generalize hafter : Batch.itemAt s.final.batch.items x = after at hfate
  cases hfate with
  | kept =>
    rw [h.existing?_of_kept (hafter.trans hbefore.symm)] at hex
    exact h.first.sound.isSome_find?_iff.2 (.inr (.inl (by simp [hex])))
  | brought _ hb =>
    obtain ⟨rfl, -⟩ := h.owner_unique hex (h.existing?_of_brought hb hafter)
    exact h.first.sound.isSome_find?_iff.2 (.inr (.inr (by simp [hb.desired])))
  | retired hr =>
    obtain ⟨rfl, -⟩ := h.owner_unique hex (h.existing?_of_retired hr hafter)
    exact h.first.sound.isSome_find?_iff.2 (.inr (.inl (by simp [hr.existing])))

private theorem legible_second : s'.inventory.Legible := by
  intro k hk hrole
  rcases h.second.sound.isSome_find?_iff.1 hk with hc | hex | hd
  · exact h.second.readable_of_condition? hc
  · obtain ⟨item, hex⟩ := Option.ne_none_iff_exists'.1 hex
    have hadmits := h.second.sound.admits hk
    obtain ⟨role, owner, target⟩ := k
    cases role with
    | watched => exact absurd rfl hrole
    | governed =>
      cases owner with
      | some owner => exact hadmits.elim
      | none => exact h.readable_governed hk
    | owned =>
      cases owner with
      | none => exact hadmits.elim
      | some owner => exact h.legible _ (h.isSome_find?_of_existing? hex) hrole
  · rw [h.desired?_eq] at hd
    exact h.legible k (h.first.sound.isSome_find?_iff.2 (.inr (.inr hd))) hrole

private theorem leaves_second : s'.DesiresLeaves := by
  intro p x new hd
  rw [h.second.controller, ← h.first.controller]
  exact h.leaves p x new ((h.desired?_eq _).symm.trans hd)

section Written

variable (hz : s'.final.writeManifest.report.objectsWritten = 0)
include hz

private theorem exists_of_objectsWritten (hb : s.Brings p x new child) :
    ∃ item, s'.inventory.existing? (.owned p x) = some item := by
  cases hex : s'.inventory.existing? (.owned p x) with
  | some item => exact ⟨item, rfl⟩
  | none =>
    -- the child is created once more, and this is no change only if it is there already
    obtain ⟨a, ha, -, -, hi⟩ := h.second.mem_of_brings (h.brings_iff.2 hb) fun exchange hm =>
      .create (fun _ => hm) hex ((h.desired?_eq _).trans hb.desired)
    have hitem := (h.second.trace_final h.steady).itemAt_of_objectsWritten_eq
      (hz.trans h.second.objectsWritten.symm) _ (Run.mem_effects_of_action ha) child hi
    rw [(h.first.identity_of_brings hb).2, h.second.items, Run.itemAt_writeManifest_of_ne] at hitem
    · rw [h.existing?_of_brought hb hitem] at hex
      cases hex
    · rw [h.source]
      exact h.ne_source_of_brings hb

private theorem owner_of_brings {new' child' : Resource} (hb : s.Brings p x new child)
    (hb' : s.Brings q x new' child') : q = p := by
  obtain ⟨item, hp⟩ := h.exists_of_objectsWritten hz hb
  obtain ⟨item', hq⟩ := h.exists_of_objectsWritten hz hb'
  exact (h.owner_unique hq hp).1

end Written

section Announced

private theorem admits_of_withholds (hw : s.Withholds p x) : c.governs p = true ∧
    c.exchange? x = some .conditionAndResource ∧ (Key.owned p x).subject.Readable := by
  obtain ⟨old, new, fault, hex, -, -⟩ := hw.incomparable
  refine ⟨(h.first.existing?_owned hex).2.2.2.1, ?_, ?_⟩
  · rw [← h.first.controller]
    exact hw.exchange
  · exact h.legible _ (h.first.sound.isSome_find?_iff.2 (.inr (.inl (by simp [hex]))))
      (by simp [Key.owned])

private theorem condition?_of_withholds (hw : s.Withholds p x) :
    s.final.manifest.condition? (Key.owned p x).conditionType = none := by
  obtain ⟨hgov, hx, hread⟩ := h.admits_of_withholds hw
  obtain ⟨old, new, fault, hex, hd, hc⟩ := hw.incomparable
  have hfault : Inventory.resourcePlan (.owned p x) (s.childEntry p x .conditionAndResource) =
      .error fault := Inventory.resourcePlan_eq_error_iff.2 ⟨fun _ => rfl, old, new, hex, hd, hc⟩
  rcases h.first.condition?_final_cases h.steady h.legible hgov hx hread with
    ⟨a, ha, hak, hlast⟩ | ⟨hsame, -⟩
  · -- all that is due for the child is to report that it cannot be compared
    obtain ⟨-, p', x', exchange, -, -, hx', hdue⟩ := h.first.mem_childActions.1 ha
    cases hdue.key_eq.symm.trans hak
    cases hx.symm.trans hx'
    cases hdue with
    | fault => cases hlast
    | announce _ _ _ _ hplan => cases hfault.symm.trans hplan
    | drop _ _ _ hnone => cases hd.symm.trans hnone
    | retire _ _ _ _ hnone => cases hd.symm.trans hnone
    | create _ hnone => cases hex.symm.trans hnone
    | update _ hold hnew hchanged =>
      cases hex.symm.trans hold
      cases hd.symm.trans hnew
      cases hc.symm.trans hchanged
  · have hagree : _ = _ :=
      h.first.agrees_isSome hread (by simp [Inventory.takes, Key.owned, hgov, hx, Exchange.hasCondition])
    rw [hw.condition] at hagree
    rw [hsame, Manifest.condition?]
    simpa using hagree.symm

private theorem announced_of_withholds (hs : s.manifest.IsStorable) (hw : s.Withholds p x)
    (hex : s'.inventory.existing? (.owned p x) = none) :
    (s'.final.manifest.condition? (Key.owned p x).conditionType).isSome = true := by
  obtain ⟨hgov, hx, hread⟩ := h.admits_of_withholds hw
  obtain ⟨-, new, -, -, hd, -⟩ := hw.incomparable
  have hdesired : s'.inventory.desired? (.owned p x) = some new := (h.desired?_eq _).trans hd
  obtain ⟨-, g, -, -, hdes⟩ := h.first.desired?_owned hd
  have hcondition : s'.inventory.condition? (.owned p x) = none := by
    have hsome := h.isSome_condition?_iff hs hgov hx rfl hread
    rw [h.condition?_of_withholds hw] at hsome
    simpa using hsome
  refine h.second.condition?_final_of_desired h.steady h.legible_second hgov hx hread hdesired ?_
  cases hplan : Inventory.resourcePlan (.owned p x) (s'.childEntry p x .conditionAndResource) with
  | error fault =>
    obtain ⟨-, old, -, hold, -⟩ := Inventory.resourcePlan_eq_error_iff.1 hplan
    cases hex.symm.trans hold
  | ok plan =>
    refine .inr ⟨_, h.second.mem_childActions.2 ⟨(mem_childrenOf (desiredBy_eq_some hdes).1).1, p, x, _, ?_, hgov, hx,
      .announce rfl rfl hcondition hdesired hplan⟩, rfl, by simp [Action.effect]⟩
    intro hf
    exact hw.settled ((h.mem_failed_iff (owned_of_exchange hx)).1 hf)

end Announced

private theorem conditions_of_items (hs : s.manifest.IsStorable)
    (hi : s'.final.writeManifest.batch.items = s.final.writeManifest.batch.items) :
    s'.final.manifest.conditions = s.final.manifest.conditions := by
  have hkeeps := h.second.keeps_final h.steady h.leaves_second h.keeps.nodup_writeManifest
  have hwell : s.final.manifest.source.root.WellFormed := by
    rw [h.source]
    exact h.wellFormed_source
  have hsource : s'.final.manifest.source = s.final.rootAfter := by
    rw [(h.second.trace_final h.steady).source, h.manifest]
  have hroot : s'.final.rootAfter = s.final.rootAfter := by
    have hself := Run.itemAt_writeManifest_self (t := s'.final) (by
      rw [hsource]
      exact Run.wellFormed_rootAfter hwell) hkeeps.root
    rw [hi, hsource, Run.identity_rootAfter, Run.itemAt_writeManifest_self hwell h.keeps.root] at hself
    exact (Option.some.inj hself).symm
  have hstorable : s.final.manifest.IsStorable := by
    rwa [Manifest.IsStorable, h.source]
  have hstorable' : s'.final.manifest.IsStorable := by
    obtain ⟨r, hr⟩ := hstorable.toResource
    rw [Manifest.IsStorable, hsource, Run.rootAfter, hr]
    exact hstorable.of_toResource hr []
  have hd : Manifest.describes s.final.manifest.source = true := by
    rw [h.source]
    exact h.root.2
  have hload := Run.ofResource_rootAfter hd
  have hload' := Run.ofResource_rootAfter (t := s'.final) (by
    rw [hsource]
    exact (Manifest.ofResource_eq_ok hload).2)
  rw [hroot, hload] at hload'
  rw [← Run.conditionsAfter_of_storable hstorable, ← Run.conditionsAfter_of_storable hstorable']
  exact (congrArg Manifest.conditions (Except.ok.inj hload')).symm

/-- If the second run writes nothing and leaves the items alone then no child was disputed. -/
theorem undisputed (hz : s'.final.writeManifest.report.objectsWritten = 0)
    (hi : s'.final.writeManifest.batch.items = s.final.writeManifest.batch.items) :
    s.Undisputed := by
  rintro p q x new child hb (⟨new', child', hb'⟩ | ⟨hs, hw⟩)
  · exact h.owner_of_brings hz hb hb'
  · apply Classical.byContradiction
    intro hne
    obtain ⟨item, hp⟩ := h.exists_of_objectsWritten hz hb
    have hnone : s'.inventory.existing? (.owned q x) = none := by
      rw [Option.eq_none_iff_forall_ne_some]
      intro item' hq
      exact hne (h.owner_unique hq hp).1
    have hsome := h.announced_of_withholds hs hw hnone
    rw [Manifest.condition?, h.conditions_of_items hs hi, ← Manifest.condition?,
      h.condition?_of_withholds hw] at hsome
    cases hsome

end Controller.Again

end Reconciler
