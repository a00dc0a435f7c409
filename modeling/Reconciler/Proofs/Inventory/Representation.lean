import Reconciler.Proofs.Inventory.Survey

/-! The representation of an inventory: at which keys there are entries, and what their slots hold. Every
change of the inventory keeps it. -/
namespace Reconciler

variable {c : Controller} {k : Inventory.Key} {r : Resource}

private theorem Inventory.Key.eq_of_isGlobalWatch (h : k.isGlobalWatch = true) :
    k = .watched none k.target := by
  obtain ⟨role, owner, target⟩ := k
  rw [isGlobalWatch, Bool.and_eq_true, beq_iff_eq, Option.isNone_iff_eq_none] at h
  obtain ⟨rfl, rfl⟩ := h
  rfl

namespace Controller

open Inventory (Key)

/-- The target of the key is of a class of the controller, whose entries are exchanged in this way. -/
inductive Classifies (c : Controller) : Key → Option Exchange → Prop where
  | governed {target : Ref} : c.governs target = true → c.Classifies (.governed target) none
  | owned {owner target : Ref} {exchange : Exchange} : c.governs owner = true →
      c.exchange? target = some exchange → c.Classifies (.owned owner target) (some exchange)
  | watched {owner target : Ref} : c.governs owner = true → c.exchange? target = none →
      (c.watchExact? target).isSome = true → c.Classifies (.watched (some owner) target) none
  | globallyWatched {target : Ref} : c.governs target = false →
      (c.watchGlobal? target).isSome = true → c.Classifies (.watched none target) none

/-- An entry can stand at the key. Neither owner nor target has a namespace, as condition types have
none. -/
structure Places (c : Controller) (k : Key) : Prop where
  classified : c.Classifies k (c.exchangeOf k)
  space : ∀ ref ∈ k.refs, ref.space = none

private theorem Places.admits (h : c.Places k) : c.Admits k := by
  obtain ⟨hk, -⟩ := h
  generalize c.exchangeOf k = exchange at hk
  cases hk with
  | governed hg => exact hg
  | owned hg hx => exact ⟨hg, by rw [hx]; rfl⟩
  | watched hg hx hw => exact ⟨hg, hx, hw⟩
  | globallyWatched hg _ => exact hg

theorem Places.governed {target : Ref} (hg : c.governs target = true) (hs : target.space = none) :
    c.Places (.governed target) where
  classified := .governed hg
  space ref href := by
    cases List.mem_singleton.1 href
    exact hs

/-- An admitted key is classified once a target without owner is watched. -/
theorem Admits.classifies (h : c.Admits k)
    (hw : k.isGlobalWatch = true → (c.watchGlobal? k.target).isSome = true) :
    c.Classifies k (c.exchangeOf k) := by
  obtain ⟨role, owner, target⟩ := k
  cases role <;> cases owner
  case governed.none => exact .governed h
  case governed.some => exact h.elim
  case owned.none => exact h.elim
  case owned.some owner =>
    obtain ⟨x, hx⟩ := Option.isSome_iff_exists.1 h.2
    rw [exchangeOf, if_pos rfl, hx]
    exact .owned h.1 hx
  case watched.none => exact .globallyWatched h (hw rfl)
  case watched.some owner => exact .watched h.1 h.2.1 h.2.2

private theorem ownerOf_of_keyOf {owner : Ref} (h : c.keyOf r = some k)
    (ho : k.owner = some owner) :
    c.ownerOf r = some owner := by
  obtain ⟨⟨k', x⟩, hr, rfl⟩ := Option.map_eq_some_iff.1 h
  rw [classifyResource] at hr
  split at hr
  · cases hr
    cases ho
  · split at hr
    · obtain ⟨p, hp, he⟩ := Option.map_eq_some_iff.1 hr
      cases he
      exact hp.trans ho
    · split at hr
      · rename_i p _ hp _
        cases hr
        exact hp.trans ho
      · obtain ⟨-, -, he⟩ := Option.map_eq_some_iff.1 hr
        cases he
        cases ho

theorem watchGlobal?_of_keyOf (h : c.keyOf r = some k) (hk : k.isGlobalWatch = true) :
    (c.watchGlobal? k.target).isSome = true := by
  rw [Inventory.Key.eq_of_isGlobalWatch hk] at h
  exact (keyOf_global_iff.1 h).2.2.2.1

/-- A resource is recorded where an entry can stand. -/
theorem places_of_keyOf (h : c.keyOf r = some k) : c.Places k := by
  obtain ⟨hadmits, htarget⟩ := keyOf_eq_some h
  constructor
  case classified => exact hadmits.classifies (watchGlobal?_of_keyOf h)
  case space =>
    intro ref href
    rcases List.mem_append.1 href with ho | ht
    · obtain ⟨-, typeName, -, hread⟩ :=
        ownerOf_eq_some_iff.1 (ownerOf_of_keyOf h (Option.mem_toList.1 ho))
      exact Subject.space_of_single hread
    · rw [List.mem_singleton.1 ht, htarget]
      rfl

end Controller

namespace Inventory

variable {inv : Inventory} {exchange : Option Exchange} {condition : Condition} {e : Entry}

/-- What is read as the subject of a key tells that there are no namespaces. -/
theorem Key.space_of_subject {typeName : String}
    (h : Subject.ofTypeName? typeName = some k.subject) : ∀ ref ∈ k.refs, ref.space = none := by
  obtain ⟨role, owner, target⟩ := k
  cases owner with
  | none => simpa [Key.refs] using Subject.space_of_single h
  | some owner => simpa [Key.refs] using Subject.space_of_pair h

/-- A watch without owner takes conditions of what is watched, or of what was seen. -/
theorem watchGlobal?_of_takes {seen : Bool} (hk : k.isGlobalWatch = true)
    (ht : takes c seen k = true) : (c.watchGlobal? k.target).isSome = true ∨ seen = true := by
  rw [Inventory.Key.eq_of_isGlobalWatch hk] at ht
  simp only [takes, Key.watched, Bool.and_eq_true, Bool.or_eq_true] at ht
  exact ht.2.imp_left fun hw => Controller.watchGlobal?_isSome.2 (.inl hw)

/-- The entry belongs at its key. Something is there, and each slot holds what the key names; of what is
watched nothing is desired. -/
structure Fits (c : Controller) (k : Key) (e : Entry) : Prop where
  filled : e.isEmpty = false
  space : ∀ ref ∈ k.refs, ref.space = none
  classified : c.Classifies k e.exchange
  undesired : k.role = .watched → e.desired = none
  existing : ∀ r, e.existing = some r → r.identity = k.target
  desired : ∀ r, e.desired = some r → r.identity = k.target
  condition : ∀ x, e.condition = some x → x.typeName = k.conditionType

/-- Every entry can stand at its key, and the three maps hold what the keys name. -/
structure Represented (c : Controller) (inv : Inventory) : Prop where
  sound : Sound c inv
  placed : ∀ k, (inv.find? k).isSome = true → c.Places k
  existing : ∀ k r, inv.existing? k = some r → r.identity = k.target
  desired : ∀ k r, inv.desired? k = some r → k.role ≠ .watched ∧ r.identity = k.target
  condition : ∀ k x, inv.condition? k = some x → x.typeName = k.conditionType

namespace Represented

theorem fits (h : Represented c inv) (hf : inv.find? k = some e) : Fits c k e := by
  obtain ⟨-, hx, hfilled⟩ := h.sound k e hf
  have hplaced := h.placed k (by rw [hf]; rfl)
  have hexisting := h.existing k
  have hdesired := h.desired k
  have hcondition := h.condition k
  rw [existing?, entryAt_of_find? hf] at hexisting
  rw [desired?, entryAt_of_find? hf] at hdesired
  rw [condition?, entryAt_of_find? hf] at hcondition
  exact {
    filled := hfilled
    space := hplaced.space
    classified := hx ▸ hplaced.classified
    undesired hrole := Option.eq_none_iff_forall_ne_some.2 fun r hr => (hdesired r hr).1 hrole
    existing := hexisting
    desired := fun r hr => (hdesired r hr).2
    condition := hcondition }

private theorem placed_update (h : Represented c inv) (hk : c.Places k) {f : Entry → Entry}
    {k' : Key} (hk' : ((inv.update k f).find? k').isSome = true) : c.Places k' := by
  by_cases he : k' = k
  · exact he ▸ hk
  · rw [find?_update_of_ne he] at hk'
    exact h.placed k' hk'

theorem addResource (h : Represented c inv) (hk : c.Places k) (hx : exchange = c.exchangeOf k)
    (hr : r.identity = k.target) : Represented c (inv.addResource k exchange r) where
  sound := h.sound.addResource hk.admits hx
  placed _ := h.placed_update hk
  existing k' r' hr' := by
    rw [existing?_addResource] at hr'
    split at hr'
    · rename_i he
      cases hr'
      rw [he, hr]
    · exact h.existing k' r' hr'
  desired k' r' hr' := h.desired k' r' (desired?_addResource.symm.trans hr')
  condition k' x hx' := h.condition k' x (condition?_addResource.symm.trans hx')

theorem addCondition (h : Represented c inv) (hk : c.Places k) (hx : exchange = c.exchangeOf k)
    (ht : condition.typeName = k.conditionType) :
    Represented c (inv.addCondition k exchange condition) where
  sound := h.sound.addCondition hk.admits hx
  placed _ := h.placed_update hk
  existing k' r' hr' := h.existing k' r' (existing?_addCondition.symm.trans hr')
  desired k' r' hr' := h.desired k' r' (desired?_addCondition.symm.trans hr')
  condition k' x hx' := by
    rw [condition?_addCondition] at hx'
    split at hx'
    · rename_i he
      cases hx'
      rw [he, ht]
    · exact h.condition k' x hx'

theorem addDesired (h : Represented c inv) (hk : c.Places k) (hx : exchange = c.exchangeOf k)
    (hw : k.role ≠ .watched) (hr : r.identity = k.target) :
    Represented c (inv.addDesired k exchange r) where
  sound := h.sound.addDesired hk.admits hx
  placed _ := h.placed_update hk
  existing k' r' hr' := h.existing k' r' (existing?_addDesired.symm.trans hr')
  desired k' r' hr' := by
    rw [desired?_addDesired] at hr'
    split at hr'
    · rename_i he
      cases hr'
      rw [he]
      exact ⟨hw, hr⟩
    · exact h.desired k' r' hr'
  condition k' x hx' := h.condition k' x (condition?_addDesired.symm.trans hx')

theorem clearCondition (h : Represented c inv) (k : Key) : Represented c (inv.clearCondition k) where
  sound := h.sound.clearCondition k
  placed k' hk' := by
    by_cases he : k' = k
    · subst he
      obtain ⟨e, hf⟩ := Option.isSome_iff_exists.1 hk'
      obtain ⟨e₀, hf₀, -, -⟩ := find?_clearCondition_self hf
      exact h.placed k' (by rw [hf₀]; rfl)
    · rw [find?_clearCondition_of_ne he] at hk'
      exact h.placed k' hk'
  existing k' r' hr' := h.existing k' r' (existing?_clearCondition.symm.trans hr')
  desired k' r' hr' := h.desired k' r' (desired?_clearCondition.symm.trans hr')
  condition k' x hx' := by
    rw [condition?_clearCondition] at hx'
    split at hx'
    · cases hx'
    · exact h.condition k' x hx'

end Represented

end Inventory

end Reconciler
