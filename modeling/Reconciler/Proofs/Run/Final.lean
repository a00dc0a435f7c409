import Reconciler.Proofs.Run.Fate
import Reconciler.Proofs.Run.Renewal
import Reconciler.Proofs.Run.Rerun
import Reconciler.Proofs.Run.Settled

/-! A run up to the manifest as one trace: first the children, then generation. Governed items are
left to generation, all others to the children. -/
namespace Reconciler

open Inventory (Action Key Sound)

variable {c : Controller} {b : Batch} {s : Run} {k : Key} {p r id : Ref} {g x : Resource}
  {e : Effect} {a : Action}

namespace Controller

/-- The controller owns nothing, asks for no children and renders what it governs as it is. -/
structure IsTerminal (c : Controller) : Prop where
  owned : c.owned.isEmpty = true
  populate : ∀ populate, c.populate = some populate → ∀ g, populate g = .ok []
  generate : ∃ generate, c.generate = some generate ∧ ∀ g resources, generate g resources = .ok g
  watches : c.WatchesSucceed

/-- The controller does not generate, or it is terminal. -/
def IsSteady (c : Controller) : Prop := c.generate = none ∨ c.IsTerminal

theorem exchange?_of_isEmpty (h : c.owned.isEmpty = true) (r : Ref) : c.exchange? r = none := by
  rw [SortedMap.isEmpty, List.isEmpty_iff] at h
  rw [exchange?, SortedMap.find?, h]
  rfl

end Controller

namespace Run

/-- The state of a run before the manifest is written. -/
def final (s : Run) : Run := s.updateChildren.generateAll

def effects (s : Run) : List Effect :=
  s.childActions.map Action.effect ++ s.updateChildren.generation

theorem mem_effects_of_action (ha : a ∈ s.childActions) : a.effect ∈ s.effects :=
  List.mem_append_left _ (List.mem_map_of_mem ha)

/-- Without owned classes governed resources are the only ones to be left or retired. -/
theorem verdict_of_owned (ho : s.controller.owned.isEmpty = false)
    (hg : s.controller.generate = none) (r : Ref) : s.verdict r = .leave := by
  rw [verdict, hg, ho]
  split <;> rfl

end Run

namespace Controller.Gathered

variable (h : Gathered c b s)
include h

section Empty

variable (ho : c.owned.isEmpty = true)
include ho

/-- Without owned classes there are no children. -/
theorem desired?_eq_none (k : Key) : s.inventory.desired? k = none := by
  cases hd : s.inventory.desired? k with
  | none => rfl
  | some child =>
    obtain ⟨g, -, -, hm, -⟩ := h.mem_of_desired? _ _ hd
    have hx := (mem_childrenOf hm).2
    rw [exchange?_of_isEmpty ho] at hx
    cases hx

theorem childActions_eq_nil : s.childActions = [] := by
  rw [List.eq_nil_iff_forall_not_mem]
  intro a ha
  obtain ⟨-, owner, target, exchange, -, -, hx, -⟩ := h.mem_childActions.1 ha
  rw [exchange?_of_isEmpty ho] at hx
  cases hx

theorem updateChildren_eq : s.updateChildren = s.atStage .childrenCommitted := by
  obtain ⟨s', ht, he⟩ := s.updateChildren_trace
  rw [h.childActions_eq_nil ho] at ht
  cases ht
  exact he

end Empty

theorem controller_updateChildren : s.updateChildren.controller = c :=
  (Run.controller_updateChildren s).trans h.controller

end Controller.Gathered

namespace Controller.Populated

variable (h : Populated c b s)
include h

private theorem failed_eq_nil (hc : c.IsTerminal) : s.failed = [] := by
  rw [List.eq_nil_iff_forall_not_mem]
  intro o ho
  obtain ⟨g, -, populate, hp, ⟨failure, he⟩ | ⟨children, he, child, hm, -⟩⟩ := (h.failed o).1 ho
  · rw [hc.populate populate hp g] at he
    cases he
  · rw [hc.populate populate hp g] at he
    cases he
    cases hm

variable (hc : c.IsSteady)
include hc

private theorem verdict_updateChildren (r : Ref) : s.updateChildren.verdict r = s.verdict r := by
  rw [Run.verdict, Run.verdict, Run.isReady_updateChildren, Run.controller_updateChildren, h.controller]
  rcases hc with hg | hc
  · rw [hg]
    rfl
  · rw [h.updateChildren_eq hc.owned]
    rfl

private theorem renewal_updateChildren_iff : s.updateChildren.Renewal e ↔ s.Renewal e := by
  have hready := s.isReady_updateChildren
  have hfind (r : Ref) : s.updateChildren.inventory.find? (.governed r) =
      s.inventory.find? (.governed r) :=
    Run.find?_updateChildren_of_ne (by simp [Key.governed])
  have hv := h.verdict_updateChildren hc
  exact ⟨.congr hready.symm (fun r => (hfind r).symm) fun r => (hv r).symm, .congr hready hfind hv⟩

private theorem trace_generation : Trace s.updateChildren.generation s.updateChildren s.final := by
  refine Run.trace_generateAll h.sound_updateChildren fun generate hg => ?_
  rw [Run.controller_updateChildren, h.controller] at hg ⊢
  rcases hc with hnone | hc
  · rw [hnone] at hg
    cases hg
  · obtain ⟨generate', hg', hecho⟩ := hc.generate
    rw [hg] at hg'
    cases hg'
    refine ⟨hc.owned, ?_, hecho⟩
    rw [h.updateChildren_eq hc.owned]
    exact h.failed_eq_nil hc

theorem trace_final : Trace s.effects s s.final := by
  obtain ⟨s', ht, he⟩ := s.updateChildren_trace
  refine ht.append ?_
  have hgen := h.trace_generation hc
  rw [he] at hgen ⊢
  cases hgen with
  | cons head tail =>
    refine .cons (Effect.Holds.of_idle ?_ head) tail
    exact Run.holds_quiet _ rfl rfl rfl rfl rfl rfl rfl

theorem mem_effects_of_renewal (he : s.Renewal e) : e ∈ s.effects :=
  List.mem_append_right _
    (Run.mem_generation h.sound_updateChildren ((h.renewal_updateChildren_iff hc).2 he))

/-- Effects are those of actions on children and the renewals; others do nothing. -/
theorem effects_cases (he : e ∈ s.effects) : (∃ a ∈ s.childActions, e = a.effect) ∨ s.Renewal e ∨
    e.item = none ∧ e.condition = none := by
  rcases List.mem_append.1 he with he | he
  · obtain ⟨a, ha, rfl⟩ := List.mem_map.1 he
    exact .inl ⟨a, ha, rfl⟩
  · refine .inr ?_
    rw [← h.renewal_updateChildren_iff hc]
    exact Run.renewal_of_mem h.sound_updateChildren he

section Items

omit hc in
private theorem item_of_renewal (he : s.Renewal e) (hx : e.item = some x) :
    c.governs x.identity = true ∧ ∃ g, s.inventory.existing? (.governed x.identity) = some g ∧
      g.regenerated (s.verdict x.identity) x.identity = some x := by
  obtain ⟨r, g, hg, hreg⟩ := he.item hx
  obtain ⟨-, hgov, hid⟩ := h.existing?_governed.1 hg
  have hxr : x.identity = r := (Resource.sameBody_regenerated hreg).identity.trans hid
  subst hxr
  exact ⟨hgov, g, hg, hreg⟩

variable (hl : s.DesiresLeaves)
include hl

omit hc in
private theorem governs_of_action (ha : a ∈ s.childActions) (hx : a.effect.item = some x) :
    c.governs x.identity = false := by
  rcases h.writes_cases ha hx with ⟨p, isUpdate, new, -, hb⟩ | ⟨p, old, -, hr⟩
  · have hgov := (hl _ _ _ hb.desired).2.1
    rwa [h.controller] at hgov
  · exact (h.existing?_owned hr.existing).2.2.1

private theorem regenerated_of_effect (he : e ∈ s.effects) (hx : e.item = some x)
    (hgov : c.governs x.identity = true) :
    ∃ g, s.inventory.existing? (.governed x.identity) = some g ∧
      g.regenerated (s.verdict x.identity) x.identity = some x := by
  rcases h.effects_cases hc he with ⟨a, ha, rfl⟩ | hren | ⟨hnone, -⟩
  · rw [h.governs_of_action hl ha hx] at hgov
    cases hgov
  · exact (h.item_of_renewal hren hx).2
  · rw [hnone] at hx
    cases hx

/-- A governed resource is left as generation leaves it. -/
theorem itemAt_final_governed (hn : (b.items.map Resource.identity).Nodup)
    (hg : s.inventory.existing? (.governed r) = some g) :
    Batch.itemAt s.final.batch.items r = some (g.afterwards (s.verdict r) r) := by
  have htrace := h.trace_final hc
  obtain ⟨hm, hgov, hid⟩ := h.existing?_governed.1 hg
  have hold : Batch.itemAt s.batch.items r = some g := by
    rw [h.items, ← hid]
    exact Batch.itemAt_of_mem hn (Batch.mem_of_mem_others hm)
  have hwritten {e : Effect} {x : Resource} (he : e ∈ s.effects) (hx : e.item = some x)
      (hxr : x.identity = r) : g.regenerated (s.verdict r) r = some x := by
    subst hxr
    obtain ⟨g', hg', hreg⟩ := h.regenerated_of_effect hc hl he hx hgov
    rw [hg] at hg'
    cases hg'
    exact hreg
  rw [Resource.afterwards]
  cases hreg : g.regenerated (s.verdict r) r with
  | none =>
    rw [htrace.itemAt_of_untouched, hold]
    intro e he x hx hxr
    have hsome := hwritten he hx hxr
    rw [hreg] at hsome
    cases hsome
  | some x =>
    have hxr := (Resource.sameBody_regenerated hreg).identity.trans hid
    obtain ⟨e, he, hx⟩ := Run.exists_renewal hg hreg
    rw [htrace.itemAt_of_same (r := x), hold]
    · intro e he x' hx' hxr'
      have hsome := hwritten he hx' hxr'
      rw [hreg] at hsome
      exact (Option.some.inj hsome).symm
    · exact ⟨e, h.mem_effects_of_renewal hc he, hx, hxr⟩

/-- Nothing is written for a governed reference without resource. -/
theorem itemAt_final_of_none (hgov : c.governs id = true)
    (hnone : s.inventory.existing? (.governed id) = none) :
    Batch.itemAt s.final.batch.items id = Batch.itemAt b.items id := by
  rw [(h.trace_final hc).itemAt_of_untouched, h.items]
  rintro e he x hx rfl
  obtain ⟨g, hg, -⟩ := h.regenerated_of_effect hc hl he hx hgov
  rw [hnone] at hg
  cases hg

omit hl in
/-- An item that is not governed is left as the children leave it. -/
theorem fate_final (hn : (b.items.map Resource.identity).Nodup) (hgov : c.governs id = false) :
    s.Fate id (Batch.itemAt b.items id) (Batch.itemAt s.final.batch.items id) := by
  have hsame : Batch.itemAt s.final.batch.items id =
      Batch.itemAt s.updateChildren.batch.items id := by
    refine (h.trace_generation hc).itemAt_of_untouched ?_
    rintro e he x hx rfl
    rcases Run.renewal_of_mem h.sound_updateChildren he with hren | ⟨hnone, -⟩
    · rw [(h.item_of_renewal ((h.renewal_updateChildren_iff hc).1 hren) hx).1] at hgov
      cases hgov
    · rw [hnone] at hx
      cases hx
  rw [hsame]
  exact h.fate hn id

omit hc in
private theorem mark_of_fate {old? : Option Resource} (hf : s.Fate id old? (some x))
    (hid : ∀ r, old? = some r → r.identity = id) : Batch.mark x = old?.bind Batch.mark := by
  cases hf with
  | kept => rfl
  | brought _ hb =>
    obtain ⟨hnew, hr⟩ := h.identity_of_brings hb
    have hd := (hl _ _ _ hb.desired).2.2
    rw [Batch.mark_merged, Batch.mark_eq_none (hr.trans hnew.symm) hd]
    cases old? with
    | none => rfl
    | some r => exact (Batch.mark_eq_none ((hid r rfl).trans hnew.symm) hd).symm
  | retired hr => rw [Batch.mark_merged, Batch.mark_setAnnotation hr.flagged (by decide)]; rfl

private theorem itemAt_final_root (hn : (b.items.map Resource.identity).Nodup) :
    Batch.itemAt s.final.batch.items s.manifest.source.identity = some s.manifest.source := by
  obtain ⟨hroot, hd⟩ := Batch.rootManifest?_eq_some h.root
  have hold := Batch.itemAt_of_mem hn (List.mem_of_getElem? hroot)
  have hothers {r : Resource} (hm : r ∈ b.others s.manifestIndex) :
      r.identity ≠ s.manifest.source.identity :=
    ((Batch.mem_others_iff_itemAt hn hroot).1 hm).2
  by_cases hgov : c.governs s.manifest.source.identity = true
  · rw [h.itemAt_final_of_none hc hl hgov, hold]
    rw [Option.eq_none_iff_forall_ne_some]
    intro g hg
    obtain ⟨hm, -, hid⟩ := h.existing?_governed.1 hg
    exact hothers hm hid
  · have hfate := h.fate_final hc hn ((Bool.not_eq_true _).mp hgov)
    rw [hold] at hfate
    generalize Batch.itemAt s.final.batch.items s.manifest.source.identity = after at hfate
    cases hfate with
    | kept => rfl
    | brought _ hb =>
      have hmark := Batch.mark_eq_none (h.identity_of_brings hb).1.symm (hl _ _ _ hb.desired).2.2
      rw [Batch.mark, if_pos hd] at hmark
      cases hmark
    | retired hr =>
      obtain ⟨hm, hid, -⟩ := h.existing?_owned hr.existing
      exact absurd hid (hothers hm)

/-- The run leaves the package in order for the next one. -/
theorem keeps_final (hn : (b.items.map Resource.identity).Nodup) : Run.Keeps b s.final := by
  have htrace := h.trace_final hc
  -- what stands at an identity afterwards is marked as what stood there before
  have hmark {id : Ref} {x : Resource} (hx : Batch.itemAt s.final.batch.items id = some x) :
      Batch.mark x = (Batch.itemAt b.items id).bind Batch.mark := by
    by_cases hgov : c.governs id = true
    · cases hg : s.inventory.existing? (.governed id) with
      | none =>
        rw [h.itemAt_final_of_none hc hl hgov hg] at hx
        rw [hx]
        rfl
      | some g =>
        obtain ⟨hm, -, hid⟩ := h.existing?_governed.1 hg
        have hold := Batch.itemAt_of_mem hn (Batch.mem_of_mem_others hm)
        rw [h.itemAt_final_governed hc hl hn hg] at hx
        cases hx
        rw [← hid, hold, Option.bind_some, Resource.mark_afterwards]
    · have hfate := h.fate_final hc hn ((Bool.not_eq_true _).mp hgov)
      rw [hx] at hfate
      exact h.mark_of_fate hl hfate fun r hr => (Batch.itemAt_eq_some hr).2
  exact {
    root := by
      rw [htrace.source]
      exact h.itemAt_final_root hc hl hn
    identities := h.items ▸ htrace.identities_prefix
    nodup := htrace.nodup (by rwa [h.items])
    kept := by
      intro r hr r' hr'
      rw [hmark hr', Batch.itemAt_of_mem hn hr]
      rfl
    added := by
      intro r' hr' hnew
      have hself := Batch.itemAt_of_mem (htrace.nodup (by rwa [h.items])) hr'
      have hnone : Batch.itemAt b.items r'.identity = none :=
        Batch.itemAt_eq_none.2 fun item hi hid => hnew (List.mem_map.2 ⟨item, hi, hid⟩)
      rw [hmark hself, hnone]
      rfl }

end Items

section Conditions

omit hc in
/-- Renewals work at recorded keys of governed resources. -/
theorem key_of_renewal (he : s.Renewal e) :
    ∃ r, e.key = .governed r ∧ (s.inventory.find? (.governed r)).isSome = true := by
  have hsome {r : Ref} {g : Resource} (hg : s.inventory.existing? (.governed r) = some g) :
      (s.inventory.find? (.governed r)).isSome = true :=
    h.sound.isSome_find?_iff.2 (.inr (.inl (by simp [hg])))
  cases he with
  | orphan _ hk => exact ⟨_, rfl, hk⟩
  | retire hg => exact ⟨_, Inventory.key_retireEffect _ _, hsome hg⟩
  | done hg => exact ⟨_, rfl, hsome hg⟩
  | update hg => exact ⟨_, Inventory.key_writeEffect _ _, hsome hg⟩

private theorem key_of_condition (he : e ∈ s.effects) (hcond : e.condition ≠ none) :
    (s.inventory.find? e.key).isSome = true ∧ e.key.role ≠ .watched := by
  rcases h.effects_cases hc he with ⟨a, ha, rfl⟩ | hren | ⟨-, hnone⟩
  · rw [Action.key_effect, Run.role_of_mem_childActions ha]
    exact ⟨Run.isSome_of_mem_childActions ha, by simp⟩
  · obtain ⟨r, hkey, hk⟩ := h.key_of_renewal hren
    rw [hkey]
    exact ⟨hk, by simp [Key.governed]⟩
  · exact absurd hnone hcond

private theorem action_of_owned (he : e ∈ s.effects) (hcond : e.condition ≠ none)
    (hk : e.key.role = .owned) : ∃ a ∈ s.childActions, e = a.effect := by
  rcases h.effects_cases hc he with ha | hren | ⟨-, hnone⟩
  · exact ha
  · obtain ⟨r, hkey, -⟩ := h.key_of_renewal hren
    rw [hkey] at hk
    cases hk
  · exact absurd hnone hcond

theorem renewal_of_governed (he : e ∈ s.effects) (hcond : e.condition ≠ none)
    (hk : e.key.role = .governed) : s.Renewal e := by
  rcases h.effects_cases hc he with ⟨a, ha, rfl⟩ | hren | ⟨-, hnone⟩
  · rw [Action.key_effect, Run.role_of_mem_childActions ha] at hk
    cases hk
  · exact hren
  · exact absurd hnone hcond

variable (hr : s.inventory.Legible)
include hr

/-- The conditions about a watched resource are neither changed nor reordered. -/
theorem filter_final_of_watched (hk : c.Admits k) (hrole : k.role = .watched) :
    s.final.manifest.conditions.filter
        (fun x => Subject.ofTypeName? x.typeName == some k.subject) =
      s.manifest.conditions.filter fun x => Subject.ofTypeName? x.typeName == some k.subject := by
  refine (h.trace_final hc).conditions_of_untouched
    (fun t => Subject.ofTypeName? t == some k.subject) fun e he hcond => ?_
  obtain ⟨hpresent, hne⟩ := h.key_of_condition hc he hcond
  rw [beq_eq_false_iff_ne, Key.conditionType, (hr _ hpresent hne : _ = _)]
  intro heq
  rw [(h.sound.admits hpresent).eq_of_subject_eq hk (Option.some.inj heq)] at hne
  exact hne hrole

variable (hk : c.Admits k) (hread : k.subject.Readable)
include hk hread

private theorem key_eq (he : e ∈ s.effects) (hcond : e.condition ≠ none)
    (ht : e.key.conditionType = k.conditionType) : e.key = k := by
  obtain ⟨hpresent, hne⟩ := h.key_of_condition hc he hcond
  exact (h.sound.admits hpresent).eq_of_conditionType_eq hk (hr _ hpresent hne) hread ht

theorem condition?_final_of_untouched
    (hu : ∀ e ∈ s.effects, e.key = k → e.condition = none) :
    s.final.manifest.condition? k.conditionType = s.manifest.condition? k.conditionType :=
  (h.trace_final hc).findCondition_of_untouched fun _ he hcond ht =>
    hcond (hu _ he (h.key_eq hc hr hk hread he hcond ht))

theorem condition?_final_of_touched (he : e ∈ s.effects) (hcond : e.condition ≠ none)
    (hek : e.key = k) : ∃ e ∈ s.effects, e.key = k ∧
      e.condition = some (s.final.manifest.condition? k.conditionType) := by
  obtain ⟨e', he', ht, hlast⟩ := (h.trace_final hc).findCondition_of_touched
    (t := k.conditionType) ⟨e, he, hcond, by rw [hek]⟩
  exact ⟨e', he', h.key_eq hc hr hk hread he' (by simp [hlast]) ht, hlast⟩

end Conditions

section Children

variable {x : Ref} {new : Resource} {exchange : Exchange} (hr : s.inventory.Legible)
  (hgov : c.governs p = true) (hx : c.exchange? x = some exchange)
  (hread : (Key.owned p x).subject.Readable)
include hr hgov hx hread

/-- Either an action on the child was the last to work on its condition, or none works on it. -/
theorem condition?_final_cases :
    (∃ a ∈ s.childActions, a.key = .owned p x ∧ a.effect.condition =
        some (s.final.manifest.condition? (Key.owned p x).conditionType)) ∨
      s.final.manifest.condition? (Key.owned p x).conditionType =
          s.manifest.condition? (Key.owned p x).conditionType ∧
        ∀ a ∈ s.childActions, a.key = .owned p x → a.effect.condition = none := by
  have hk : c.Admits (.owned p x) := ⟨hgov, by simp [hx]⟩
  by_cases ht : ∃ a ∈ s.childActions, a.key = .owned p x ∧ a.effect.condition ≠ none
  · obtain ⟨a, ha, hak, hne⟩ := ht
    obtain ⟨e, he, hek, hlast⟩ := h.condition?_final_of_touched hc hr hk hread
      (Run.mem_effects_of_action ha) hne (by rw [Action.key_effect, hak])
    obtain ⟨a', ha', rfl⟩ := h.action_of_owned hc he (by simp [hlast]) (by rw [hek]; rfl)
    rw [Action.key_effect] at hek
    exact .inl ⟨a', ha', hek, hlast⟩
  · have hnone (a : Action) (ha : a ∈ s.childActions) (hak : a.key = .owned p x) :
        a.effect.condition = none :=
      Classical.not_not.1 fun hne => ht ⟨a, ha, hak, hne⟩
    refine .inr ⟨h.condition?_final_of_untouched hc hr hk hread fun e he hek => ?_, hnone⟩
    apply Classical.not_not.1
    intro hne
    obtain ⟨a, ha, rfl⟩ := h.action_of_owned hc he hne (by rw [hek]; rfl)
    rw [Action.key_effect] at hek
    exact hne (hnone a ha hek)

/-- A desired child keeps the condition that it has or that is put for it. -/
theorem condition?_final_of_desired (hd : s.inventory.desired? (.owned p x) = some new)
    (hsome : (s.manifest.condition? (Key.owned p x).conditionType).isSome = true ∨
      ∃ a ∈ s.childActions, a.key = .owned p x ∧ a.effect.condition ≠ none) :
    (s.final.manifest.condition? (Key.owned p x).conditionType).isSome = true := by
  rcases h.condition?_final_cases hc hr hgov hx hread with ⟨a, ha, hak, hlast⟩ | ⟨hsame, hnone⟩
  · have hne := Run.condition_of_desired h.sound_self ha hak hd
    rw [hlast] at hne
    rw [Option.isSome_iff_ne_none]
    intro he
    exact hne (congrArg some he)
  · rw [hsame]
    refine hsome.resolve_right ?_
    rintro ⟨a, ha, hak, hne⟩
    exact hne (hnone a ha hak)

/-- A child that is not desired loses its condition. -/
theorem condition?_final_of_undesired (hp : p ∉ s.failed) (hpop : c.populate.isSome = true)
    (hcond : exchange.hasCondition = true) (hd : s.inventory.desired? (.owned p x) = none) :
    s.final.manifest.condition? (Key.owned p x).conditionType = none := by
  rcases h.condition?_final_cases hc hr hgov hx hread with ⟨a, ha, hak, hlast⟩ | ⟨hsame, hnone⟩
  · exact Run.condition_of_undesired h.sound_self ha hak hd hlast
  · have hagree : _ = _ := h.agrees_isSome hread (by simp [Inventory.takes, Key.owned, hgov, hx, hcond])
    cases hcon : s.inventory.condition? (.owned p x) with
    | none =>
      rw [hcon] at hagree
      rw [hsame, Manifest.condition?]
      simpa using hagree.symm
    | some y =>
      have ha := h.mem_childActions.2 ⟨hpop, p, x, exchange, hp, hgov, hx, .drop rfl hcond hcon hd⟩
      have hdropped := hnone _ ha rfl
      cases hdropped

end Children

end Controller.Populated

end Reconciler
