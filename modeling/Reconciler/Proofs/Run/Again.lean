import Reconciler.Proofs.Run.Final

/-! A second run on what a first one has left finds the same parents, watches, desires and failures.
Each child that was brought or flagged it finds with the owner that did so. -/
namespace Reconciler

open Inventory (Action Due Key Sound)

variable {c : Controller} {b : Batch} {s s' : Run} {k : Key} {p q r x : Ref}
  {new old child item : Resource} {exchange : Exchange} {other? : Option Resource}

namespace Controller

private theorem keyOf_watched (h : c.keyOf item = some k) (hk : k.role = .watched) :
    c.governs item.identity = false ∧ c.exchange? item.identity = none := by
  obtain ⟨hadmits, ht⟩ := keyOf_eq_some h
  constructor
  · cases hg : c.governs item.identity with
    | false => rfl
    | true =>
      rw [keyOf_governed_iff.2 ⟨hg, rfl⟩] at h
      cases h
      cases hk
  · obtain ⟨role, owner, target⟩ := k
    cases hk
    cases ht
    cases owner with
    | some owner => exact hadmits.2.1
    | none =>
      obtain ⟨⟨key, e⟩, hclass, hkey⟩ := Option.map_eq_some_iff.1 h
      have hg : c.governs item.identity = false := hadmits
      rw [classifyResource, hg] at hclass
      simp only [Bool.false_eq_true, if_false] at hclass
      split at hclass
      · obtain ⟨owner, -, he⟩ := Option.map_eq_some_iff.1 hclass
        cases he
        cases hkey
      · assumption

theorem owned_of_exchange (h : c.exchange? x = some exchange) : c.owned.isEmpty = false := by
  cases ho : c.owned.isEmpty with
  | false => rfl
  | true =>
    rw [exchange?_of_isEmpty ho] at h
    cases h

/-- A run, and a second run on what the first one has left. -/
structure Again (c : Controller) (b : Batch) (s s' : Run) : Prop where
  steady : c.IsSteady
  nodup : (b.items.map Resource.identity).Nodup
  wellFormed : ∀ g ∈ b.items, g.root.WellFormed
  legible : s.inventory.Legible
  leaves : s.DesiresLeaves
  first : Populated c b s
  second : Populated c s.final.writeManifest.batch s'
  index : s'.manifestIndex = s.manifestIndex
  manifest : s'.manifest = ⟨s.final.rootAfter, s.final.conditionsAfter⟩

namespace Again

variable (h : Again c b s s')
include h

theorem source : s.final.manifest.source = s.manifest.source :=
  (h.first.trace_final h.steady).source

theorem root : b.items[s.manifestIndex]? = some s.manifest.source ∧
    Manifest.describes s.manifest.source = true :=
  Batch.rootManifest?_eq_some h.first.root

theorem wellFormed_source : s.manifest.source.root.WellFormed :=
  h.wellFormed _ (List.mem_of_getElem? h.root.1)

theorem keeps : Run.Keeps b s.final := h.first.keeps_final h.steady h.leaves h.nodup

private theorem existing?_iff : s.inventory.existing? k = some item ↔
    (Batch.itemAt b.items item.identity = some item ∧
      item.identity ≠ s.manifest.source.identity) ∧ c.keyOf item = some k := by
  rw [h.first.existing, Batch.mem_others_iff_itemAt h.nodup h.root.1]

private theorem existing?_iff' : s'.inventory.existing? k = some item ↔
    (Batch.itemAt s.final.batch.items item.identity = some item ∧
      item.identity ≠ s.manifest.source.identity) ∧ c.keyOf item = some k := by
  rw [h.second.existing, h.index,
    h.first.mem_others_writeManifest h.keeps h.source h.wellFormed_source]

/-- The second run finds the governed resources as generation has left them. -/
theorem existing?_governed : s'.inventory.existing? (.governed r) =
    (s.inventory.existing? (.governed r)).map fun g => g.afterwards (s.verdict r) r := by
  apply Option.ext
  intro g'
  rw [h.existing?_iff', keyOf_governed_iff]
  cases hg : s.inventory.existing? (.governed r) with
  | none =>
    simp only [Option.map_none, reduceCtorEq, iff_false]
    rintro ⟨⟨hitem, hne⟩, hgov, rfl⟩
    rw [h.first.itemAt_final_of_none h.steady h.leaves hgov hg] at hitem
    rw [h.existing?_iff.2 ⟨⟨hitem, hne⟩, keyOf_governed_iff.2 ⟨hgov, rfl⟩⟩] at hg
    cases hg
  | some g =>
    have hitem := h.first.itemAt_final_governed h.steady h.leaves h.nodup hg
    obtain ⟨⟨-, hne⟩, hkey⟩ := h.existing?_iff.1 hg
    obtain ⟨hgov, hid⟩ := keyOf_governed_iff.1 hkey
    simp only [Option.map_some, Option.some.injEq]
    constructor
    · rintro ⟨⟨hitem', -⟩, -, rfl⟩
      rw [hitem] at hitem'
      exact Option.some.inj hitem'
    · rintro rfl
      have hid' := (Resource.identity_afterwards (s.verdict r) r g).trans hid
      refine ⟨⟨?_, ?_⟩, hgov, hid'⟩
      · rw [hid', hitem]
      · rwa [hid', ← hid]

/-- Where the item stays the second run finds what the first one has found. -/
theorem existing?_of_kept
    (hkept : Batch.itemAt s.final.batch.items k.target = Batch.itemAt b.items k.target) :
    s'.inventory.existing? k = s.inventory.existing? k := by
  apply Option.ext
  intro item
  rw [h.existing?_iff', h.existing?_iff]
  apply and_congr_left
  intro hkey
  rw [← (keyOf_eq_some hkey).2, hkept]

private theorem existing?_watched (hk : k.role = .watched) :
    s'.inventory.existing? k = s.inventory.existing? k := by
  apply Option.ext
  intro item
  rw [h.existing?_iff', h.existing?_iff]
  apply and_congr_left
  intro hkey
  obtain ⟨hgov, hx⟩ := keyOf_watched hkey hk
  have hfate := h.first.fate_final h.steady h.nodup hgov
  rw [← h.first.controller] at hx
  generalize Batch.itemAt b.items item.identity = before at hfate ⊢
  generalize Batch.itemAt s.final.batch.items item.identity = after at hfate ⊢
  -- nothing of another class is written
  cases hfate with
  | kept => rfl
  | brought _ hb =>
    have hres := hb.exchange
    rw [hx] at hres
    cases hres
  | retired hr =>
    have hres := hr.exchange
    rw [hx] at hres
    cases hres

section Desired

private theorem governed_eq (ho : c.owned.isEmpty = false) (r : Ref) :
    s'.inventory.existing? (.governed r) = s.inventory.existing? (.governed r) := by
  have hgen : s.controller.generate = none := by
    rw [h.first.controller]
    apply h.steady.resolve_right
    intro hc
    rw [hc.owned] at ho
    cases ho
  have hv := Run.verdict_of_owned (by rwa [h.first.controller]) hgen r
  rw [h.existing?_governed, hv]
  cases s.inventory.existing? (.governed r) <;> rfl

theorem desired?_eq (k : Key) : s'.inventory.desired? k = s.inventory.desired? k := by
  cases ho : c.owned.isEmpty with
  | true => rw [h.first.desired?_eq_none ho, h.second.desired?_eq_none ho]
  | false =>
    apply Option.ext
    intro child
    rw [h.second.desired, h.first.desired]
    simp only [h.governed_eq ho]

theorem mem_failed_iff (ho : c.owned.isEmpty = false) : p ∈ s'.failed ↔ p ∈ s.failed := by
  rw [h.second.failed, h.first.failed, h.governed_eq ho]

/-- The second run has the same children to bring. -/
theorem brings_iff : s'.Brings p x new child ↔ s.Brings p x new child := by
  have hcontroller : s'.controller = s.controller :=
    h.second.controller.trans h.first.controller.symm
  have hmem (hres : (s.controller.exchange? x).any Exchange.hasResource = true) :
      p ∈ s'.failed ↔ p ∈ s.failed := by
    obtain ⟨exchange, hx, -⟩ := (Option.any_eq_true _ _).1 hres
    rw [h.first.controller] at hx
    exact h.mem_failed_iff (owned_of_exchange hx)
  constructor
  · intro hb
    have hres := hb.exchange
    rw [hcontroller] at hres
    exact ⟨fun hf => hb.settled ((hmem hres).2 hf), hres, hb.target,
      (h.desired?_eq _).symm.trans hb.desired, hb.renewed⟩
  · intro hb
    have hres := hb.exchange
    exact ⟨fun hf => hb.settled ((hmem hres).1 hf), by rwa [hcontroller], hb.target,
      (h.desired?_eq _).trans hb.desired, hb.renewed⟩

end Desired

section Owned

private theorem readable_owner (hk : (s.inventory.find? (.owned p x)).isSome = true) :
    (Subject.single p).Readable :=
  (h.legible _ hk (by simp [Key.owned])).of_pair

private theorem existing?_of_owner (hitem : Batch.itemAt s.final.batch.items x = some item)
    (hid : item.identity = x) (hne : x ≠ s.manifest.source.identity)
    (hgov : c.governs x = false) (hx : (s.controller.exchange? x).any Exchange.hasResource = true)
    (hp : c.governs p = true) (hread : (Subject.single p).Readable)
    (howner : item.annotation? Resource.ownerAnnotation = some (Subject.singleType p)) :
    s'.inventory.existing? (.owned p x) = some item := by
  subst hid
  rw [h.first.controller] at hx
  obtain ⟨exchange, hx, -⟩ := (Option.any_eq_true _ _).1 hx
  refine h.existing?_iff'.2 ⟨⟨hitem, hne⟩, keyOf_owned_iff.2 ⟨hgov, by simp [hx], rfl, ?_⟩⟩
  exact ownerOf_eq_some_iff.2 ⟨hp, _, howner, hread⟩

/-- No child is brought in the place of the root manifest. -/
theorem ne_source_of_brings (hb : s.Brings p x new child) : x ≠ s.manifest.source.identity := by
  intro hroot
  have hmark := Batch.mark_eq_none (hroot.symm.trans (h.first.identity_of_brings hb).1.symm)
    (h.leaves _ _ _ hb.desired).2.2
  rw [Batch.mark, if_pos h.root.2] at hmark
  cases hmark

/-- A child that was brought is found with the one that brought it. -/
theorem existing?_of_brought (hb : s.Brings p x new child)
    (hitem : Batch.itemAt s.final.batch.items x = some (Batch.merged other? child)) :
    s'.inventory.existing? (.owned p x) = some (Batch.merged other? child) := by
  obtain ⟨-, hid⟩ := h.first.identity_of_brings hb
  obtain ⟨-, hgov, -⟩ := h.leaves _ _ _ hb.desired
  rw [h.first.controller] at hgov
  obtain ⟨-, g, hg, -⟩ := h.first.desired?_owned hb.desired
  have hread : (Subject.single p).Readable :=
    h.readable_owner (x := x) (h.first.sound.isSome_find?_iff.2 (.inr (.inr (by simp [hb.desired]))))
  exact h.existing?_of_owner hitem (by rw [Batch.identity_merged, hid]) (h.ne_source_of_brings hb)
    hgov hb.exchange (h.first.existing?_governed.1 hg).2.1 hread (hb.merged other?).1

/-- A child that was flagged is found flagged, with the same owner. -/
theorem existing?_of_retired (hr : s.Retires q x old child)
    (hitem : Batch.itemAt s.final.batch.items x = some (Batch.merged other? child)) :
    s'.inventory.existing? (.owned q x) = some (Batch.merged other? child) := by
  obtain ⟨-, hid, hgov, hq, -, howner⟩ := h.first.existing?_owned hr.existing
  have hread : (Subject.single q).Readable :=
    h.readable_owner (x := x) (h.first.sound.isSome_find?_iff.2 (.inr (.inl (by simp [hr.existing]))))
  refine h.existing?_of_owner hitem ?_ ?_ hgov hr.exchange hq hread ?_
  · rw [Batch.identity_merged, h.first.identity_of_retires hr]
  · rw [← hid]
    exact (h.existing?_iff.1 hr.existing).1.2
  · rw [Batch.annotation?_merged,
      Resource.annotation?_setAnnotation_of_ne hr.flagged Resource.owner_ne_delete, howner]

/-- An item is found with one owner only. -/
theorem owner_unique (hp : s'.inventory.existing? (.owned p x) = some old)
    (hq : s'.inventory.existing? (.owned q x) = some new) : p = q ∧ old = new :=
  h.second.owner_unique h.keeps.nodup_writeManifest hp hq

end Owned

section Watched

private theorem condition?_watched (hk : k.role = .watched) :
    s'.inventory.condition? k = s.inventory.condition? k := by
  rw [h.second.condition, h.first.condition, h.existing?_watched hk, h.manifest]
  by_cases ht : Inventory.takes c (s.inventory.existing? k).isSome k = true
  · have hsame : s.final.conditionsAfter.filter
        (fun x => Subject.ofTypeName? x.typeName == some k.subject) =
        s.manifest.conditions.filter fun x => Subject.ofTypeName? x.typeName == some k.subject := by
      by_cases hs : s.final.manifest.IsStorable
      · rw [Run.conditionsAfter_of_storable hs]
        exact h.first.filter_final_of_watched h.steady h.legible (Inventory.Sound.takes_admits ht) hk
      · -- where conditions cannot be stored there are none before either
        have hd : Manifest.describes s.final.manifest.source = true := by
          rw [h.source]
          exact h.root.2
        have hbefore := Manifest.ofResource_of_not_storable hd hs
        have hafter := Run.ofResource_rootAfter hd
        rw [Run.rootAfter_of_not_storable hs, hbefore] at hafter
        rw [h.source, h.first.manifest] at hbefore
        rw [← show [] = s.final.conditionsAfter from
            congrArg Manifest.conditions (Except.ok.inj hafter),
          show s.manifest.conditions = [] from
            congrArg Manifest.conditions (Except.ok.inj hbefore)]
    rw [if_pos ht, if_pos ht, ← List.head?_filter, ← List.head?_filter, List.filter_reverse,
      List.filter_reverse, hsame]
  · rw [if_neg ht, if_neg ht]

private theorem sameAt_watched (hk : k.role = .watched) :
    Inventory.SameAt s.inventory s'.inventory k :=
  ⟨h.condition?_watched hk, h.existing?_watched hk, h.desired?_eq k⟩

/-- The second run finds the package as ready as before. -/
theorem isReady_eq : s'.inventory.isReady = s.inventory.isReady :=
  Inventory.isReady_congr h.first.sound h.second.sound fun _ => h.sameAt_watched rfl

/-- The second run finds the same resources ready. -/
theorem verdict_eq (r : Ref) : s'.verdict r = s.verdict r := by
  rw [Run.verdict, Run.verdict, h.isReady_eq, h.first.controller, h.second.controller]
  rcases h.steady with hg | hc
  · rw [hg]
    rfl
  · -- a controller that owns nothing has no children to wait for
    have hnone {inv : Inventory} (hs : Sound c inv) (target : Ref) :
        ¬ (inv.find? (.owned r target)).isSome = true := by
      intro hk
      have hx := (hs.admits hk).2
      rw [exchange?_of_isEmpty hc.owned] at hx
      cases hx
    have howned (target : Ref) :
        Inventory.SameAt s.inventory s'.inventory (.owned r target) := by
      refine .of_find? ?_
      rw [Option.not_isSome_iff_eq_none.1 (hnone h.second.sound target),
        Option.not_isSome_iff_eq_none.1 (hnone h.first.sound target)]
    rw [Inventory.ready_readiness_congr h.first.sound h.second.sound howned fun _ =>
      h.sameAt_watched rfl]

end Watched

end Again

theorem exists_again (hc : c.IsSteady) (hwatch : c.WatchesSucceed)
    (hn : (b.items.map Resource.identity).Nodup) (hw : ∀ g ∈ b.items, g.root.WellFormed)
    (hs : c.populated b = some s) (hlegible : s.inventory.Legible) (hleaves : s.DesiresLeaves) :
    ∃ s', Again c b s s' ∧ (c.run b).batch = s.final.writeManifest.batch ∧
      c.run (c.run b).batch = .ofRun s'.final.writeManifest := by
  have h := populated_spec hn hs
  have hsource := (h.trace_final hc).source
  have hwell := hw _ (List.mem_of_getElem? (Batch.rootManifest?_eq_some h.root).1)
  obtain ⟨s', hs', h', hindex, hmanifest⟩ :=
    h.populated_writeManifest (h.keeps_final hc hleaves hn) hwatch hsource hwell
  have hfirst : c.run b = .ofRun s.final.writeManifest :=
    run_of_reconciled (by rw [reconciled, hs]; rfl)
  have hsecond : c.run s.final.writeManifest.batch = .ofRun s'.final.writeManifest :=
    run_of_reconciled (by rw [reconciled, hs']; rfl)
  have hbatch : (c.run b).batch = s.final.writeManifest.batch := by
    rw [hfirst]
    rfl
  refine ⟨s', ⟨hc, hn, hw, hlegible, hleaves, h, h', hindex, hmanifest⟩, hbatch, ?_⟩
  rw [hbatch, hsecond]

/-- A run that is aborted is aborted again, and leaves everything alone. -/
theorem rerun_of_populated_eq_none (hwatch : c.WatchesSucceed) (hs : c.populated b = none) :
    (c.run (c.run b).batch).report.objectsWritten = 0 ∧
      (c.run (c.run b).batch).batch.items = (c.run b).batch.items := by
  cases hstart : Run.start c b with
  | ok s =>
    obtain ⟨s', hs'⟩ := populated_isSome hwatch hstart
    rw [hs] at hs'
    cases hs'
  | error fault =>
    have hrun : (c.run b).batch = b.reportError fault.message none := by
      rw [run, hstart]
    rw [hrun]
    cases hagain : Run.start c (b.reportError fault.message none) with
    | error fault' =>
      rw [run, hagain]
      exact ⟨rfl, rfl⟩
    | ok s =>
      -- an error that was reported does not change what the start looks at
      obtain ⟨hc, index, root, manifest, hroot, hm, -⟩ := Run.start_eq_ok_iff.1 hagain
      have hok : Run.start c b = .ok (Run.loaded c b index manifest) :=
        Run.start_eq_ok_iff.2 ⟨hc, index, root, manifest, hroot, hm, rfl⟩
      rw [hstart] at hok
      cases hok

end Controller

end Reconciler
