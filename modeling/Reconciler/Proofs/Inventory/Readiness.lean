import Reconciler.Inventory.Readiness
import Reconciler.Proofs.Inventory.Entries

/-! Readiness in terms of the entries: which global watches, children and watches it asks for. -/
namespace Reconciler.Inventory

variable {c : Controller} {inv : Inventory} {role : Role} {owner target : Ref} {e : Entry}

section Select

private theorem mem_children : (target, e) ∈ inv.children role owner ↔
    inv.find? ⟨role, some owner, target⟩ = some e := by
  rw [find?, SortedMap.find?_eq_some_iff]
  simp only [children, select, List.mem_map, List.mem_filter, Bool.and_eq_true, beq_iff_eq,
    Prod.mk.injEq]
  constructor
  · rintro ⟨⟨⟨role', owner', target'⟩, e'⟩, ⟨hm, hr, ho⟩, ht, he⟩
    cases hr
    cases ho
    cases ht
    cases he
    exact hm
  · intro hm
    exact ⟨_, ⟨hm, rfl, rfl⟩, rfl, rfl⟩

private theorem mem_globalWatches : (target, e) ∈ inv.globalWatches ↔
    inv.find? (.watched none target) = some e := by
  rw [find?, SortedMap.find?_eq_some_iff]
  simp only [globalWatches, select, Key.isGlobalWatch, List.mem_map, List.mem_filter,
    Bool.and_eq_true, beq_iff_eq, Option.isNone_iff_eq_none, Prod.mk.injEq]
  constructor
  · rintro ⟨⟨⟨role', owner', target'⟩, e'⟩, ⟨hm, hr, ho⟩, ht, he⟩
    cases hr
    cases ho
    cases ht
    cases he
    exact hm
  · intro hm
    exact ⟨_, ⟨hm, rfl, rfl⟩, rfl, rfl⟩

private theorem mem_governed (h : Sound c inv) : (target, e) ∈ inv.governed ↔
    inv.find? (.governed target) = some e := by
  rw [find?, SortedMap.find?_eq_some_iff]
  simp only [governed, select, List.mem_map, List.mem_filter, beq_iff_eq, Prod.mk.injEq]
  constructor
  · rintro ⟨⟨⟨role', owner', target'⟩, e'⟩, ⟨hm, hr⟩, ht, he⟩
    cases hr
    cases ht
    cases he
    cases owner' with
    | none => exact hm
    | some o => exact (h _ _ (SortedMap.find?_eq_some_iff.2 hm)).1.elim
  · intro hm
    exact ⟨_, ⟨hm, rfl⟩, rfl, rfl⟩

private theorem nodup_governed (h : Sound c inv) : (inv.governed.map (·.1)).Nodup := by
  have hkeys : inv.entries.entries.Pairwise fun a b => a.1 ≠ b.1 :=
    List.pairwise_map.1 (List.nodup_iff_pairwise_ne.1 inv.entries.keys_nodup)
  rw [governed, select, List.map_map, List.nodup_iff_pairwise_ne, List.pairwise_map]
  refine List.Pairwise.imp_of_mem ?_ (hkeys.filter _)
  intro a b ha hb hne heq
  have hgoverned (e : Key × Entry) (he : e ∈ inv.entries.entries.filter fun e => e.1.role == .governed) :
      e.1 = .governed e.1.target := by
    obtain ⟨hm, hr⟩ := List.mem_filter.1 he
    have hadmits := (h _ _ (SortedMap.find?_eq_some_iff.2 hm)).1
    obtain ⟨⟨role, owner, target⟩, e⟩ := e
    rw [beq_iff_eq] at hr
    cases hr
    cases owner with
    | none => rfl
    | some o => exact hadmits.elim
  have htarget : a.1.target = b.1.target := heq
  exact hne (by rw [hgoverned a ha, hgoverned b hb, htarget])

end Select

/-- A package is ready when each global watch has its resource and no false condition. -/
theorem isReady_iff : inv.isReady = true ↔ ∀ target,
    (inv.find? (.watched none target)).isSome = true →
      inv.existing? (.watched none target) ≠ none ∧
        (inv.condition? (.watched none target)).any Condition.isFalse = false := by
  rw [isReady, List.all_eq_true]
  constructor
  · intro h target hk
    obtain ⟨e, he⟩ := Option.isSome_iff_exists.1 hk
    have hw := h (target, e) (mem_globalWatches.2 he)
    rw [existing?, condition?, entryAt_of_find? he]
    simpa [watchReady, Option.isSome_iff_ne_none] using hw
  · rintro h ⟨target, e⟩ hm
    have he := mem_globalWatches.1 hm
    have hw := h target (by rw [he]; rfl)
    rw [existing?, condition?, entryAt_of_find? he] at hw
    simpa [watchReady, Option.isSome_iff_ne_none] using hw

/-- The entries of global watches decide on it. -/
theorem isReady_of_find? {inv' : Inventory} (h : ∀ target,
    inv'.find? (.watched none target) = inv.find? (.watched none target)) :
    inv'.isReady = inv.isReady := by
  rw [Bool.eq_iff_iff, isReady_iff, isReady_iff]
  apply forall_congr'
  intro target
  rw [existing?, existing?, condition?, condition?, entryAt, entryAt, h target]

def Retired (inv : Inventory) (k : Key) : Prop :=
  inv.desired? k = none ∧ (inv.existing? k).any Resource.isFlagged = true

private theorem retired_iff {k : Key} (he : inv.find? k = some e) :
    inv.Retired k ↔ isRetired e = true := by
  rw [Retired, desired?, existing?, entryAt_of_find? he, isRetired, Bool.and_eq_true,
    Option.isNone_iff_eq_none]

private theorem childReady_iff (h : Sound c inv) (he : inv.find? (.owned owner target) = some e) :
    childReady e = true ↔
      if c.exchange? target = some .localOnly then inv.existing? (.owned owner target) ≠ none
      else conditionHolds (inv.condition? (.owned owner target)) = true := by
  have hx : e.exchange = c.exchange? target := by
    rw [(h _ _ he).2.1]
    rfl
  rw [childReady, hx, existing?, condition?, entryAt_of_find? he]
  split
  · exact Option.isSome_iff_ne_none
  · rfl

/-- A governed resource is ready when each child that is not retired is, and each of its watches has
a condition that is not false. -/
theorem ready_readiness_iff (h : Sound c inv) : (inv.readiness owner e).ready = true ↔
    (∀ target, (inv.find? (.owned owner target)).isSome = true →
      ¬ inv.Retired (.owned owner target) →
        if c.exchange? target = some .localOnly then inv.existing? (.owned owner target) ≠ none
        else conditionHolds (inv.condition? (.owned owner target)) = true) ∧
    ∀ target, (inv.find? (.watched (some owner) target)).isSome = true →
      conditionHolds (inv.condition? (.watched (some owner) target)) = true := by
  simp only [readiness, Bool.and_eq_true, List.all_eq_true, List.mem_filter, Bool.not_eq_true']
  refine and_congr ⟨fun hall target hk hret => ?_, fun hall => ?_⟩
    ⟨fun hall target hk => ?_, fun hall => ?_⟩
  · obtain ⟨e', he'⟩ := Option.isSome_iff_exists.1 hk
    rw [retired_iff he', Bool.not_eq_true] at hret
    exact (childReady_iff h he').1 (hall (target, e') ⟨mem_children.2 he', hret⟩)
  · rintro ⟨target, e'⟩ ⟨hm, hret⟩
    have he' : inv.find? (.owned owner target) = some e' := mem_children.1 hm
    refine (childReady_iff h he').2 (hall target (by simp [he']) ?_)
    rwa [retired_iff he', Bool.not_eq_true]
  · obtain ⟨e', he'⟩ := Option.isSome_iff_exists.1 hk
    rw [condition?, entryAt_of_find? he']
    exact hall (target, e') (mem_children.2 he')
  · rintro ⟨target, e'⟩ hm
    have he' : inv.find? (.watched (some owner) target) = some e' := mem_children.1 hm
    have hwatch := hall target (by simp [he'])
    rwa [condition?, entryAt_of_find? he'] at hwatch

/-- A governed resource is generated from resources of its children and watches. -/
theorem mem_resources {r : Resource} (h : r ∈ (inv.readiness owner e).resources) :
    ∃ k, k.owner = some owner ∧ inv.existing? k = some r := by
  have hpresent {role : Role} {entries : List (Ref × Entry)}
      (hsub : ∀ child ∈ entries, child ∈ inv.children role owner) (h : r ∈ (present entries).values) :
      ∃ k, k.owner = some owner ∧ inv.existing? k = some r := by
    obtain ⟨⟨target, _⟩, hm, rfl⟩ := List.mem_map.1 h
    obtain ⟨⟨target', child⟩, hchild, he⟩ :=
      List.mem_filterMap.1 (SortedMap.mem_of_mem_entries_ofList hm)
    obtain ⟨r', hr', he⟩ := Option.map_eq_some_iff.1 he
    cases he
    have hfind := mem_children.1 (hsub _ hchild)
    exact ⟨_, rfl, by rw [existing?, entryAt_of_find? hfind, hr']⟩
  rw [Readiness.resources, List.mem_append] at h
  rcases h with h | h
  · exact hpresent (fun child hm => (List.mem_filter.1 hm).1) h
  · exact hpresent (fun child hm => hm) h

section Congr

variable {inv' : Inventory}

def SameAt (inv inv' : Inventory) (k : Key) : Prop :=
  inv'.condition? k = inv.condition? k ∧ inv'.existing? k = inv.existing? k ∧
    inv'.desired? k = inv.desired? k

private theorem SameAt.isSome {k : Key} (hs : SameAt inv inv' k) (h : Sound c inv)
    (h' : Sound c inv') :
    (inv'.find? k).isSome = (inv.find? k).isSome := by
  rw [Bool.eq_iff_iff, h.isSome_find?_iff, h'.isSome_find?_iff, hs.1, hs.2.1, hs.2.2]

theorem SameAt.of_find? {k : Key} (h : inv'.find? k = inv.find? k) : SameAt inv inv' k := by
  rw [SameAt, condition?, existing?, desired?, entryAt, h]
  exact ⟨rfl, rfl, rfl⟩

/-- Whether a package is ready depends on its global watches. -/
theorem isReady_congr (h : Sound c inv) (h' : Sound c inv')
    (hs : ∀ target, SameAt inv inv' (.watched none target)) : inv'.isReady = inv.isReady := by
  rw [Bool.eq_iff_iff, isReady_iff, isReady_iff]
  apply forall_congr'
  intro target
  rw [(hs target).isSome h h', (hs target).1, (hs target).2.1]

/-- Whether a governed resource is ready depends on its children and watches. -/
theorem ready_readiness_congr (h : Sound c inv) (h' : Sound c inv') {e' : Entry}
    (howned : ∀ target, SameAt inv inv' (.owned owner target))
    (hwatched : ∀ target, SameAt inv inv' (.watched (some owner) target)) :
    (inv'.readiness owner e').ready = (inv.readiness owner e).ready := by
  rw [Bool.eq_iff_iff, ready_readiness_iff h, ready_readiness_iff h']
  refine and_congr (forall_congr' fun target => ?_) (forall_congr' fun target => ?_)
  · rw [(howned target).isSome h h', Retired, Retired, (howned target).1, (howned target).2.1,
      (howned target).2.2]
  · rw [(hwatched target).isSome h h', (hwatched target).1]

end Congr

theorem mem_readyMap (h : Sound c inv) {readiness : Readiness} :
    (target, readiness) ∈ inv.readyMap.entries ↔
      ∃ e, inv.find? (.governed target) = some e ∧ readiness = inv.readiness target e := by
  rw [readyMap, SortedMap.mem_entries_ofList]
  · simp only [List.mem_map, Prod.exists, Prod.mk.injEq]
    constructor
    · rintro ⟨target', e, hm, rfl, rfl⟩
      exact ⟨e, (mem_governed h).1 hm, rfl⟩
    · rintro ⟨e, he, rfl⟩
      exact ⟨target, e, (mem_governed h).2 he, rfl, rfl⟩
  · rw [List.map_map]
    exact nodup_governed h

end Reconciler.Inventory
