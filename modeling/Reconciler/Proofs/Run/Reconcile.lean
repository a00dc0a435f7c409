import Reconciler.Proofs.Inventory.Readiness
import Reconciler.Proofs.Run.Commit
import Reconciler.Proofs.Run.Children

/-! The commit of the children as a trace, and the agreement of inventory and manifest before and
after it. -/
namespace Reconciler

open Inventory (Action Due Key Sound)

variable {c : Controller} {b : Batch} {s s' : Run} {k k' : Key} {a : Action}

namespace Controller

/-- Admitted keys are told apart by their subjects. -/
theorem Admits.eq_of_subject_eq (h : c.Admits k) (h' : c.Admits k') (hs : k.subject = k'.subject) :
    k = k' := by
  obtain ⟨role, owner, target⟩ := k
  obtain ⟨role', owner', target'⟩ := k'
  cases owner <;> cases owner' <;> simp only [Key.subject, reduceCtorEq, Subject.single.injEq,
    Subject.pair.injEq] at hs
  · subst hs
    cases role <;> cases role' <;> simp_all [Admits]
  · obtain ⟨rfl, rfl⟩ := hs
    cases role <;> cases role' <;> simp_all [Admits]

/-- Admitted keys with readable subjects are told apart by their condition types. -/
theorem Admits.eq_of_conditionType_eq (h : c.Admits k) (h' : c.Admits k')
    (hr : k.subject.Readable) (hr' : k'.subject.Readable)
    (ht : k.conditionType = k'.conditionType) : k = k' :=
  h.eq_of_subject_eq h' (hr.eq_of_typeName_eq hr' ht)

/-- The state of a run once the children were committed, unless the run is aborted before. -/
def reconciled (c : Controller) (b : Batch) : Option Run := (c.populated b).map Run.updateChildren

/-- A run that is not aborted before generates and writes the manifest. -/
theorem run_of_reconciled {t : Run} (h : c.reconciled b = some t) :
    c.run b = .ofRun t.generateAll.writeManifest := by
  obtain ⟨s, hs, rfl⟩ := Option.map_eq_some_iff.1 h
  obtain ⟨s₀, hs₀, rfl⟩ := Option.map_eq_some_iff.1 hs
  rw [surveyed] at hs₀
  rw [run]
  cases hstart : Run.start c b with
  | error fault =>
    rw [hstart] at hs₀
    cases hs₀
  | ok s₁ =>
    rw [hstart] at hs₀
    simp only at hs₀ ⊢
    rw [Run.finish]
    cases hw : s₁.populateInventory.callWatches with
    | mk verdict s₂ =>
      rw [hw] at hs₀
      cases verdict with
      | error failure => cases hs₀
      | ok _ =>
        cases hs₀
        rfl

end Controller

namespace Inventory

def Readable (inv : Inventory) : Prop := ∀ k ∈ inv.entries.keys, k.subject.Readable

instance (inv : Inventory) : Decidable inv.Readable :=
  inferInstanceAs (Decidable (∀ k ∈ inv.entries.keys, k.subject.Readable))

theorem Readable.subject {inv : Inventory} (h : inv.Readable) (hk : (inv.find? k).isSome = true) :
    k.subject.Readable := by
  obtain ⟨e, he⟩ := Option.isSome_iff_exists.1 hk
  exact h k (List.mem_map.2 ⟨(k, e), SortedMap.find?_eq_some_iff.1 he, rfl⟩)

/-- No other entry has a condition of the type that a key has. -/
def Distinguishes (inv : Inventory) (k : Key) : Prop :=
  ∀ k' ∈ inv.entries.keys, k'.conditionType = k.conditionType → k' = k

instance (inv : Inventory) (k : Key) : Decidable (inv.Distinguishes k) :=
  inferInstanceAs (Decidable (∀ k' ∈ inv.entries.keys, _))

theorem Distinguishes.eq {inv : Inventory} {k' : Key} (h : inv.Distinguishes k)
    (hk : (inv.find? k').isSome = true) (ht : k'.conditionType = k.conditionType) : k' = k := by
  obtain ⟨e, he⟩ := Option.isSome_iff_exists.1 hk
  exact h k' (List.mem_map.2 ⟨(k', e), SortedMap.find?_eq_some_iff.1 he, rfl⟩) ht

theorem Readable.distinguishes {inv : Inventory} (h : inv.Readable) (hs : Sound c inv)
    (hk : (inv.find? k).isSome = true) : inv.Distinguishes k := by
  intro k' hk' ht
  obtain ⟨⟨k', e⟩, he, rfl⟩ := List.mem_map.1 hk'
  have hpresent : (inv.find? k').isSome = true :=
    Option.isSome_iff_exists.2 ⟨e, SortedMap.find?_eq_some_iff.2 he⟩
  exact (hs.admits hpresent).eq_of_conditionType_eq (hs.admits hk) (h.subject hpresent)
    (h.subject hk) ht

/-- The keys of governed and of owned entries are readable. -/
def Legible (inv : Inventory) : Prop :=
  ∀ k, (inv.find? k).isSome = true → k.role ≠ .watched → k.subject.Readable

theorem Readable.legible {inv : Inventory} (h : inv.Readable) : inv.Legible :=
  fun _ hk _ => h.subject hk

end Inventory

namespace Run

def childPlan (s : Run) : Inventory.Plan :=
  if s.controller.populate.isSome then s.inventory.plan s.isSettled else .empty

def childActions (s : Run) : List Action := s.childPlan.schedule

theorem updateChildren_trace (s : Run) : ∃ s', Trace (s.childActions.map Action.effect) s s' ∧
    s.updateChildren = s'.atStage .childrenCommitted := by
  rw [childActions, childPlan, updateChildren]
  split
  · exact ⟨_, s.trace_commit _, rfl⟩
  · exact ⟨s, .nil s, rfl⟩

theorem isSome_of_mem_childActions (ha : a ∈ s.childActions) :
    (s.inventory.find? a.key).isSome = true := by
  rw [childActions, childPlan] at ha
  split at ha
  · obtain ⟨e, hf, -⟩ := Inventory.mem_schedule_plan.1 ha
    rw [hf]
    rfl
  · cases ha

theorem role_of_mem_childActions (ha : a ∈ s.childActions) : a.key.role = .owned := by
  rw [childActions, childPlan] at ha
  split at ha
  · obtain ⟨-, -, hsettled, -⟩ := Inventory.mem_schedule_plan.1 ha
    rw [isSettled, Bool.and_eq_true, beq_iff_eq] at hsettled
    exact hsettled.1
  · cases ha

def childEntry (s : Run) (owner target : Ref) (exchange : Exchange) : Inventory.Entry :=
  ⟨s.inventory.condition? (.owned owner target), s.inventory.existing? (.owned owner target),
    s.inventory.desired? (.owned owner target), some exchange⟩

/-- The actions are those that are due for the children of governed resources that have not
failed. -/
theorem mem_childActions (h : Sound s.controller s.inventory) : a ∈ s.childActions ↔
    s.controller.populate.isSome = true ∧ ∃ owner target exchange, owner ∉ s.failed ∧
      s.controller.governs owner = true ∧ s.controller.exchange? target = some exchange ∧
      Due (.owned owner target) (s.childEntry owner target exchange) a := by
  rw [childActions, childPlan]
  by_cases hp : s.controller.populate.isSome = true
  · rw [if_pos hp]
    simp only [hp, true_and]
    constructor
    · intro ha
      obtain ⟨e, he, -, -⟩ := Inventory.mem_schedule_plan.1 ha
      have hadmits := (h _ e he).1
      obtain ⟨ht, hdue⟩ := h.mem_schedule_plan.1 ha
      simp only [isSettled, Bool.and_eq_true, beq_iff_eq, Bool.not_eq_true', Option.any_eq_false] at ht
      obtain ⟨hrole, hfail⟩ := ht
      generalize a.key = k at *
      obtain ⟨role, owner, target⟩ := k
      cases hrole
      cases owner with
      | none => exact hadmits.elim
      | some owner =>
        obtain ⟨x, hx⟩ := Option.isSome_iff_exists.1 hadmits.2
        refine ⟨owner, target, x, by simpa using hfail, hadmits.1, hx, ?_⟩
        rw [childEntry, ← hx]
        exact hdue
    · rintro ⟨owner, target, x, hf, -, hx, hdue⟩
      rw [childEntry, ← hx] at hdue
      have hk := hdue.key_eq
      exact h.mem_schedule_plan.2 ⟨by simp [isSettled, hk, Key.owned, hf], hk ▸ hdue⟩
  · simp [hp, Inventory.Plan.schedule, Inventory.Plan.departures, Inventory.Plan.arrivals,
      Inventory.Plan.empty]

theorem controller_updateChildren (s : Run) : s.updateChildren.controller = s.controller := by
  obtain ⟨s', ht, he⟩ := s.updateChildren_trace
  rw [he]
  exact ht.controller

theorem source_updateChildren (s : Run) : s.updateChildren.manifest.source = s.manifest.source := by
  obtain ⟨s', ht, he⟩ := s.updateChildren_trace
  rw [he]
  exact ht.source

theorem calls_updateChildren (s : Run) : s.updateChildren.calls = s.calls := by
  rw [updateChildren]
  split
  · exact calls_commit _ _
  · rfl

theorem desired?_updateChildren (s : Run) (k : Key) :
    s.updateChildren.inventory.desired? k = s.inventory.desired? k := by
  rw [updateChildren]
  split
  · exact desired?_commit _ _ _
  · rfl

theorem sound_updateChildren (h : Sound c s.inventory) : Sound c s.updateChildren.inventory := by
  rw [updateChildren]
  split
  · exact sound_commit h _
  · exact h

/-- What is known of a key is left alone unless an action works on it. -/
theorem find?_updateChildren (hk : ∀ a ∈ s.childActions, a.key ≠ k) :
    s.updateChildren.inventory.find? k = s.inventory.find? k := by
  obtain ⟨s', ht, he⟩ := s.updateChildren_trace
  rw [he]
  apply ht.find?_of_untouched
  intro e he'
  obtain ⟨a, ha, rfl⟩ := List.mem_map.1 he'
  rw [Action.key_effect]
  exact hk a ha

/-- Only what is known of children changes while these are committed. -/
theorem find?_updateChildren_of_ne (hk : k.role ≠ .owned) :
    s.updateChildren.inventory.find? k = s.inventory.find? k :=
  find?_updateChildren fun _ ha he => hk (he ▸ role_of_mem_childActions ha)

theorem isReady_updateChildren (s : Run) :
    s.updateChildren.inventory.isReady = s.inventory.isReady :=
  Inventory.isReady_of_find? fun target => find?_updateChildren_of_ne (by simp [Key.watched])

/-- No entry is added while the children are committed. -/
theorem isSome_find?_updateChildren (hk : (s.updateChildren.inventory.find? k).isSome = true) :
    (s.inventory.find? k).isSome = true := by
  rw [updateChildren] at hk
  split at hk
  · exact isSome_find?_commit hk
  · exact hk

/-- Inventory and manifest stay in agreement at every key while the children are committed. -/
theorem agrees_updateChildren {agree : Option Condition → Option Condition → Prop}
    (hrefl : ∀ x, agree x x) (h : Sound s.controller s.inventory) (hr : s.inventory.Readable)
    (hk : s.controller.Admits k) (hkr : k.subject.Readable) (hs : s.Agrees agree k) :
    s.updateChildren.Agrees agree k := by
  obtain ⟨s', ht, he⟩ := s.updateChildren_trace
  suffices s'.Agrees agree k by rwa [he]
  apply ht.agrees hrefl hs
  intro e he' _ htype
  obtain ⟨a, ha, rfl⟩ := List.mem_map.1 he'
  rw [Action.key_effect] at htype ⊢
  have hpresent := isSome_of_mem_childActions ha
  exact (h.admits hpresent).eq_of_conditionType_eq hk (hr.subject hpresent) hkr htype

end Run

namespace Controller.Gathered

variable (h : Gathered c b s)
include h

theorem sound_updateChildren : Sound s.updateChildren.controller s.updateChildren.inventory := by
  rw [Run.controller_updateChildren]
  exact Run.sound_updateChildren h.sound_self

/-- Every entry takes conditions, unless it stands for a child without. -/
theorem takes (hr : k.subject.Readable) (hk : (s.inventory.find? k).isSome = true)
    (hx : k.role = .owned → (c.exchange? k.target).any Exchange.hasCondition = true) :
    Inventory.takes c (s.inventory.existing? k).isSome k = true := by
  have hadmits := h.sound.admits hk
  obtain ⟨role, owner, target⟩ := k
  cases role <;> cases owner <;> simp only [Admits] at hadmits
  · exact hadmits
  · rename_i owner
    simp only [Inventory.takes, hadmits, Bool.true_and]
    exact hx rfl
  · -- a watch without owner is there for its item or its condition, as nothing is desired of it
    by_cases htake : Inventory.takes c (s.inventory.existing? ⟨.watched, none, target⟩).isSome
        ⟨.watched, none, target⟩ = true
    · exact htake
    · have hcond := h.condition?_of_readable hr
      rw [if_neg htake] at hcond
      have hdes : s.inventory.desired? ⟨.watched, none, target⟩ = none := by
        cases hd : s.inventory.desired? ⟨.watched, none, target⟩ with
        | none => rfl
        | some r =>
          obtain ⟨g, -, -, -, hkey⟩ := h.mem_of_desired? _ _ hd
          cases hkey
      have hex := (h.sound.isSome_find?_iff.1 hk).resolve_left (fun hne => hne hcond)
      have hex := hex.resolve_right fun hne => hne hdes
      simp [Inventory.takes, hadmits, Option.isSome_iff_ne_none.2 hex]
  · simp [Inventory.takes, hadmits]

/-- Of conditions with distinct types the inventory holds the one of the manifest. -/
theorem agrees (hn : (s.manifest.conditions.map Condition.typeName).Nodup)
    (hr : k.subject.Readable)
    (ht : Inventory.takes c (s.inventory.existing? k).isSome k = true) : s.Agrees Eq k := by
  rw [Run.Agrees, h.condition?_of_readable hr, if_pos ht, SortedMap.find?_reverse hn]
  · rfl
  · intro x y hx hy
    exact (beq_iff_eq.1 hx).trans (beq_iff_eq.1 hy).symm

/-- With distinct types every entry agrees with the manifest, unless it is that of a local child. -/
theorem agrees_of_isSome (hn : (s.manifest.conditions.map Condition.typeName).Nodup)
    (hr : k.subject.Readable) (hk : (s.inventory.find? k).isSome = true)
    (hx : k.role = .owned → c.exchange? k.target ≠ some .localOnly) : s.Agrees Eq k := by
  refine h.agrees hn hr (h.takes hr hk fun hrole => ?_)
  have hadmits := h.sound.admits hk
  obtain ⟨role, owner, target⟩ := k
  cases hrole
  cases owner with
  | none => exact hadmits.elim
  | some owner =>
    obtain ⟨x, hexch⟩ := Option.isSome_iff_exists.1 hadmits.2
    have hlocal := hx rfl
    simp only at hlocal
    rw [hexch] at hlocal ⊢
    cases x with
    | localOnly => exact absurd rfl hlocal
    | conditionOnly => rfl
    | conditionAndResource => rfl

/-- The inventory holds a condition exactly if the manifest does, also where types stand repeatedly. -/
theorem agrees_isSome (hr : k.subject.Readable)
    (ht : Inventory.takes c (s.inventory.existing? k).isSome k = true) :
    s.Agrees (fun x y => x.isSome = y.isSome) k := by
  rw [Run.Agrees, h.condition?_of_readable hr, if_pos ht, Manifest.findCondition]
  simp [List.isSome_find?]

end Controller.Gathered

end Reconciler
