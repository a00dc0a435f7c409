import Reconciler.Proofs.Inventory.Entries
import Reconciler.Proofs.TypeName

/-! What is recorded when all items and all conditions of a package are observed: at each key the
item and the condition that belong there, and nothing else. -/
namespace Reconciler

variable {c : Controller} {k : Inventory.Key} {r : Resource} {exchange : Option Exchange}

namespace Controller

open Inventory (Key)

def keyOf (c : Controller) (r : Resource) : Option Key := (c.classifyResource r).map (·.1)

/-- The owner is governed, and the annotation is read as this owner. -/
theorem ownerOf_eq_some_iff {owner : Ref} : c.ownerOf r = some owner ↔
    c.governs owner = true ∧ ∃ typeName, r.annotation? Resource.ownerAnnotation = some typeName ∧
      Subject.ofTypeName? typeName = some (.single owner) := by
  simp only [ownerOf, Option.bind_eq_bind, Option.bind_eq_some_iff]
  constructor
  · rintro ⟨typeName, ha, subject, hs, h⟩
    cases subject with
    | single o =>
      simp only [Option.ite_none_right_eq_some, Option.some.injEq] at h
      obtain ⟨hg, rfl⟩ := h
      exact ⟨hg, typeName, ha, hs⟩
    | pair o t => cases h
  · rintro ⟨hg, typeName, ha, hs⟩
    exact ⟨typeName, ha, _, hs, by simp [hg]⟩

private theorem classifyResource_eq_some (h : c.classifyResource r = some (k, exchange)) :
    c.Admits k ∧ exchange = c.exchangeOf k ∧ k.target = r.identity := by
  rw [classifyResource] at h
  split at h
  · rename_i hg
    cases h
    exact ⟨hg, rfl, rfl⟩
  · rename_i hg
    have hg : c.governs r.identity = false := by simpa using hg
    split at h
    · rename_i x hx
      obtain ⟨owner, ho, he⟩ := Option.map_eq_some_iff.1 h
      cases he
      exact ⟨⟨(ownerOf_eq_some_iff.1 ho).1, by rw [hx]; rfl⟩, by simp [exchangeOf, Key.owned, hx], rfl⟩
    · rename_i hx
      split at h
      · rename_i owner watched ho hw
        cases h
        exact ⟨⟨(ownerOf_eq_some_iff.1 ho).1, hx, by rw [hw]; rfl⟩, rfl, rfl⟩
      · obtain ⟨-, -, he⟩ := Option.map_eq_some_iff.1 h
        cases he
        exact ⟨hg, rfl, rfl⟩

theorem keyOf_eq_some (h : c.keyOf r = some k) : c.Admits k ∧ k.target = r.identity := by
  obtain ⟨⟨k', x⟩, hr, rfl⟩ := Option.map_eq_some_iff.1 h
  obtain ⟨ha, -, ht⟩ := classifyResource_eq_some hr
  exact ⟨ha, ht⟩

theorem keyOf_governed_iff {target : Ref} :
    c.keyOf r = some (.governed target) ↔ c.governs target = true ∧ r.identity = target := by
  constructor
  · intro h
    obtain ⟨ha, ht⟩ := keyOf_eq_some h
    exact ⟨ha, ht.symm⟩
  · rintro ⟨hg, rfl⟩
    rw [keyOf, classifyResource, if_pos hg]
    rfl

/-- Owned items are those that name a governed owner. -/
theorem keyOf_owned_iff {owner target : Ref} : c.keyOf r = some (.owned owner target) ↔
    c.governs target = false ∧ (c.exchange? target).isSome = true ∧ r.identity = target ∧
      c.ownerOf r = some owner := by
  constructor
  · intro h
    obtain ⟨⟨k, x⟩, hr, hk⟩ := Option.map_eq_some_iff.1 h
    obtain ⟨-, -, ht⟩ := classifyResource_eq_some hr
    cases hk
    cases ht
    rw [classifyResource] at hr
    split at hr
    · cases hr
    · rename_i hg
      split at hr
      · rename_i x hx
        obtain ⟨owner, ho, he⟩ := Option.map_eq_some_iff.1 hr
        cases he
        exact ⟨(Bool.not_eq_true _).mp hg, Option.isSome_iff_exists.2 ⟨x, hx⟩, rfl, ho⟩
      · split at hr
        · cases hr
        · obtain ⟨-, -, he⟩ := Option.map_eq_some_iff.1 hr
          cases he
  · rintro ⟨hg, hx, rfl, ho⟩
    obtain ⟨x, hx⟩ := Option.isSome_iff_exists.1 hx
    rw [keyOf, classifyResource]
    simp [hg, hx, ho]

theorem watchGlobal?_isSome {target : Ref} : (c.watchGlobal? target).isSome = true ↔
    (c.watchExact? target).isSome = true ∨ c.watched.contains .wildcard = true := by
  rw [watchGlobal?]
  cases c.watchExact? target with
  | some watched => simp
  | none =>
    by_cases hw : c.watched.contains .wildcard = true
    · simp [hw]
    · simp [hw]

/-- Global watches are neither governed nor of an owned class, and name no governed owner unless only
the wildcard watches them. -/
theorem keyOf_global_iff {target : Ref} : c.keyOf r = some (.watched none target) ↔
    r.identity = target ∧ c.governs target = false ∧ c.exchange? target = none ∧
      (c.watchGlobal? target).isSome = true ∧
      (c.ownerOf r = none ∨ c.watchExact? target = none) := by
  constructor
  · intro h
    obtain ⟨hg, ht⟩ := keyOf_eq_some h
    change target = r.identity at ht
    change c.governs target = false at hg
    subst ht
    rw [keyOf, classifyResource, hg] at h
    cases hx : c.exchange? r.identity with
    | some x =>
      cases ho : c.ownerOf r <;> simp [hx, ho, Key.owned, Key.watched] at h
    | none =>
      cases ho : c.ownerOf r with
      | none => simpa [hx, ho, hg, Option.isSome_iff_exists] using h
      | some owner =>
        cases hw : c.watchExact? r.identity with
        | none => simpa [hx, ho, hw, hg, Option.isSome_iff_exists] using h
        | some watched => simp [hx, ho, hw, Key.watched] at h
  · rintro ⟨rfl, hg, hx, hw, ho⟩
    obtain ⟨watched, hw⟩ := Option.isSome_iff_exists.1 hw
    rw [keyOf, classifyResource]
    rcases ho with ho | ho
    · simp [hg, hx, ho, hw]
    · simp [hg, hx, ho, hw]

end Controller

namespace Inventory

variable {inv : Inventory} {items : List Resource} {conditions : List Condition}
  {condition : Condition}

/-- Conditions about the subject of a key are recorded at the key. That something was seen there
before matters only for watches of the wildcard. -/
def takes (c : Controller) (seen : Bool) : Key → Bool
  | ⟨.governed, none, target⟩ => c.governs target
  | ⟨.owned, some owner, target⟩ =>
    c.governs owner && (c.exchange? target).any Exchange.hasCondition
  | ⟨.watched, none, target⟩ => !c.governs target && ((c.watchExact? target).isSome || seen)
  | ⟨.watched, some owner, target⟩ =>
    c.governs owner && (c.exchange? target).isNone && (c.watchExact? target).isSome
  | _ => false

/-- A condition is recorded at the one key with its subject that takes conditions. -/
theorem classifyCondition_eq_some_iff :
    inv.classifyCondition c condition = some (k, exchange) ↔
      Subject.ofTypeName? condition.typeName = some k.subject ∧ takes c (inv.find? k).isSome k = true ∧
        exchange = c.exchangeOf k := by
  obtain ⟨role, owner, target⟩ := k
  rw [classifyCondition]
  cases hs : Subject.ofTypeName? condition.typeName with
  | none => simp
  | some subject =>
    simp only [Option.bind_eq_bind, Option.bind_some]
    cases subject with
    | single t =>
      by_cases hg : c.governs t = true
      · cases role <;> cases owner <;>
          simp [Key.subject, takes, Key.governed, Controller.exchangeOf, hg] <;> grind
      · by_cases hw : (c.watchExact? t).isSome || (inv.find? (.watched none t)).isSome
        · cases role <;> cases owner <;>
            simp [Key.subject, takes, Key.watched, Controller.exchangeOf, hg] <;> grind [Key.watched]
        · cases role <;> cases owner <;>
            simp [Key.subject, takes, Key.watched, Controller.exchangeOf, hg] <;> grind [Key.watched]
    | pair o t =>
      by_cases hg : c.governs o = true
      · cases hx : c.exchange? t <;> cases hw : c.watchExact? t <;> cases role <;> cases owner <;>
          simp [Key.subject, takes, Key.owned, Key.watched, Controller.exchangeOf, hg, hx, hw] <;>
          grind
      · cases role <;> cases owner <;>
          simp [Key.subject, takes, Controller.exchangeOf, hg] <;> grind

theorem Sound.takes_admits {seen : Bool} (h : takes c seen k = true) : c.Admits k := by
  obtain ⟨role, owner, target⟩ := k
  cases role <;> cases owner <;> simp_all [takes, Controller.Admits]
  · rename_i owner
    cases hx : c.exchange? target <;> simp_all

def survey (c : Controller) (items : List Resource) (conditions : List Condition) : Inventory :=
  conditions.foldl (fun inv x => inv.observeCondition c x)
    (items.foldl (fun inv r => inv.observeResource c r) default)

section Items

private theorem observeResource_of_keyOf (inv : Inventory) (h : c.keyOf r = some k) :
    ∃ x, x = c.exchangeOf k ∧ c.Admits k ∧ inv.observeResource c r = inv.addResource k x r := by
  obtain ⟨⟨k', x⟩, hr, rfl⟩ := Option.map_eq_some_iff.1 h
  obtain ⟨ha, hx, -⟩ := Controller.classifyResource_eq_some hr
  exact ⟨x, hx, ha, by rw [observeResource, hr]⟩

private theorem observeResource_of_keyOf_none (h : c.keyOf r = none) :
    inv.observeResource c r = inv.noteUnmatched := by
  rw [observeResource, Option.map_eq_none_iff.1 h]

private theorem existing?_observeResource : (inv.observeResource c r).existing? k =
    if c.keyOf r = some k then some r else inv.existing? k := by
  cases h : c.keyOf r with
  | none =>
    rw [observeResource_of_keyOf_none h]
    rfl
  | some k' =>
    obtain ⟨x, -, -, he⟩ := observeResource_of_keyOf inv h
    rw [he, existing?_addResource]
    by_cases hk : k = k'
    · simp [hk]
    · simp [hk, Ne.symm hk]

private theorem others_observeResource (inv : Inventory) (r : Resource) (k : Key) :
    (inv.observeResource c r).condition? k = inv.condition? k ∧
    (inv.observeResource c r).desired? k = inv.desired? k := by
  cases h : c.keyOf r with
  | none =>
    rw [observeResource_of_keyOf_none h]
    exact ⟨rfl, rfl⟩
  | some k' =>
    obtain ⟨x, -, -, he⟩ := observeResource_of_keyOf inv h
    rw [he]
    exact ⟨condition?_addResource, desired?_addResource⟩

private theorem Sound.observeResource (h : Sound c inv) (r : Resource) :
    Sound c (inv.observeResource c r) := by
  cases hr : c.keyOf r with
  | none =>
    rw [observeResource_of_keyOf_none hr]
    exact h
  | some k' =>
    obtain ⟨x, hx, ha, he⟩ := observeResource_of_keyOf inv hr
    rw [he]
    exact h.addResource ha hx

theorem Sound.observeResources (h : Sound c inv) (items : List Resource) :
    Sound c (items.foldl (fun inv r => inv.observeResource c r) inv) := by
  induction items generalizing inv with
  | nil => exact h
  | cons r items ih => exact ih (h.observeResource r)

theorem others_observeResources (items : List Resource) (inv : Inventory) :
    let inv' := items.foldl (fun inv r => inv.observeResource c r) inv
    inv'.condition? k = inv.condition? k ∧ inv'.desired? k = inv.desired? k := by
  induction items generalizing inv with
  | nil => exact ⟨rfl, rfl⟩
  | cons r items ih =>
    obtain ⟨hc, hd⟩ := ih (inv.observeResource c r)
    obtain ⟨hc', hd'⟩ := others_observeResource (c := c) inv r k
    exact ⟨hc.trans hc', hd.trans hd'⟩

/-- The last of the items that belong to a key is recorded at it. -/
theorem existing?_observeResources (items : List Resource) (inv : Inventory) :
    (items.foldl (fun inv r => inv.observeResource c r) inv).existing? k =
      (items.reverse.find? fun r => c.keyOf r == some k).or (inv.existing? k) := by
  induction items generalizing inv with
  | nil => simp
  | cons x items ih =>
    rw [List.foldl_cons, ih, existing?_observeResource, List.reverse_cons, List.find?_append]
    by_cases hx : c.keyOf x = some k
    · simp [hx]
    · simp [hx]

end Items

section Conditions

private theorem observeCondition_of_classify
    (h : inv.classifyCondition c condition = some (k, exchange)) :
    inv.observeCondition c condition = inv.addCondition k exchange condition := by
  rw [observeCondition, h]

private theorem observeCondition_of_none (h : inv.classifyCondition c condition = none) :
    inv.observeCondition c condition = inv.noteUnmatched := by
  rw [observeCondition, h]

private theorem others_observeCondition (inv : Inventory) (condition : Condition) (k : Key) :
    (inv.observeCondition c condition).existing? k = inv.existing? k ∧
      (inv.observeCondition c condition).desired? k = inv.desired? k := by
  cases h : inv.classifyCondition c condition with
  | none =>
    rw [observeCondition_of_none h]
    exact ⟨rfl, rfl⟩
  | some e =>
    rw [observeCondition_of_classify h]
    exact ⟨existing?_addCondition, desired?_addCondition⟩

private theorem Sound.observeCondition (h : Sound c inv) (condition : Condition) :
    Sound c (inv.observeCondition c condition) := by
  cases hx : inv.classifyCondition c condition with
  | none =>
    rw [observeCondition_of_none hx]
    exact h
  | some e =>
    obtain ⟨-, ht, he⟩ := classifyCondition_eq_some_iff.1 hx
    rw [observeCondition_of_classify hx]
    exact h.addCondition (takes_admits ht) he

private theorem takes_observeCondition :
    takes c ((inv.observeCondition c condition).find? k).isSome k =
      takes c (inv.find? k).isSome k := by
  cases h : inv.classifyCondition c condition with
  | none =>
    rw [observeCondition_of_none h]
    rfl
  | some e =>
    obtain ⟨k', x⟩ := e
    rw [observeCondition_of_classify h, addCondition]
    by_cases hk : k = k'
    · subst hk
      have ht := (classifyCondition_eq_some_iff.1 h).2.1
      rw [ht, find?_update_self]
      obtain ⟨role, owner, target⟩ := k
      cases role <;> cases owner <;> simp_all [takes]
    · rw [find?_update_of_ne hk]

private theorem condition?_observeCondition : (inv.observeCondition c condition).condition? k =
    if Subject.ofTypeName? condition.typeName = some k.subject ∧ takes c (inv.find? k).isSome k = true
    then some condition else inv.condition? k := by
  cases h : inv.classifyCondition c condition with
  | none =>
    rw [observeCondition_of_none h, if_neg]
    · rfl
    · rintro ⟨hs, ht⟩
      have hk := classifyCondition_eq_some_iff.2 ⟨hs, ht, rfl⟩
      rw [h] at hk
      cases hk
  | some e =>
    obtain ⟨k', x⟩ := e
    rw [observeCondition_of_classify h, condition?_addCondition]
    by_cases hk : k = k'
    · subst hk
      obtain ⟨hs, ht, -⟩ := classifyCondition_eq_some_iff.1 h
      rw [if_pos rfl, if_pos ⟨hs, ht⟩]
    · rw [if_neg hk, if_neg]
      rintro ⟨hs, ht⟩
      have he := classifyCondition_eq_some_iff.2 ⟨hs, ht, rfl⟩
      rw [h] at he
      cases he
      exact hk rfl

theorem others_observeConditions (inv : Inventory) :
    let inv' := conditions.foldl (fun inv x => inv.observeCondition c x) inv
    inv'.existing? k = inv.existing? k ∧ inv'.desired? k = inv.desired? k := by
  induction conditions generalizing inv with
  | nil => exact ⟨rfl, rfl⟩
  | cons x conditions ih =>
    obtain ⟨he, hd⟩ := ih (inv.observeCondition c x)
    obtain ⟨he', hd'⟩ := others_observeCondition (c := c) inv x k
    exact ⟨he.trans he', hd.trans hd'⟩

theorem Sound.observeConditions (h : Sound c inv) (conditions : List Condition) :
    Sound c (conditions.foldl (fun inv x => inv.observeCondition c x) inv) := by
  induction conditions generalizing inv with
  | nil => exact h
  | cons x conditions ih => exact ih (h.observeCondition x)

private theorem condition?_observeConditions :
    (conditions.foldl (fun inv x => inv.observeCondition c x) inv).condition? k =
      if takes c (inv.find? k).isSome k = true then
        (conditions.reverse.find? fun x => Subject.ofTypeName? x.typeName == some k.subject).or
          (inv.condition? k)
      else inv.condition? k := by
  induction conditions generalizing inv with
  | nil => simp
  | cons x conditions ih =>
    rw [List.foldl_cons, ih, takes_observeCondition, condition?_observeCondition,
      List.reverse_cons, List.find?_append]
    by_cases ht : takes c (inv.find? k).isSome k = true
    · by_cases hs : Subject.ofTypeName? x.typeName = some k.subject
      · simp [ht, hs]
      · simp [ht, hs]
    · simp [ht]

end Conditions

section Survey

theorem sound_survey (c : Controller) (items : List Resource) (conditions : List Condition) :
    Sound c (survey c items conditions) :=
  ((Sound.empty c).observeResources items).observeConditions conditions

@[simp] theorem desired?_survey : (survey c items conditions).desired? k = none := by
  rw [survey, (others_observeConditions _).2, (others_observeResources _ _).2]
  rfl

/-- The last of the items that belong to a key is recorded at it. -/
theorem existing?_survey_eq : (survey c items conditions).existing? k =
    items.reverse.find? fun r => c.keyOf r == some k := by
  rw [survey, (others_observeConditions _).1, existing?_observeResources]
  exact Option.or_none ..

/-- Only items that belong to a key are recorded at it. -/
theorem mem_of_existing?_survey (h : (survey c items conditions).existing? k = some r) :
    r ∈ items ∧ c.keyOf r = some k := by
  rw [existing?_survey_eq] at h
  exact ⟨List.mem_reverse.1 (List.mem_of_find?_eq_some h), by simpa using List.find?_some h⟩

/-- With distinct identities each item is recorded at its key. -/
theorem existing?_survey (hn : (items.map Resource.identity).Nodup) :
    (survey c items conditions).existing? k = some r ↔ r ∈ items ∧ c.keyOf r = some k := by
  rw [existing?_survey_eq, SortedMap.find?_reverse_eq_some hn]
  · simp
  · intro x y hx hy
    rw [beq_iff_eq] at hx hy
    exact (Controller.keyOf_eq_some hx).2.symm.trans (Controller.keyOf_eq_some hy).2

/-- At a key that takes conditions the last one about its subject is recorded. -/
theorem condition?_survey : (survey c items conditions).condition? k =
    if takes c ((survey c items conditions).existing? k).isSome k = true then
      conditions.reverse.find? fun x => Subject.ofTypeName? x.typeName == some k.subject
    else none := by
  have hothers := others_observeResources (c := c) (k := k) items default
  have hsound := (Sound.empty c).observeResources items
  rw [survey, condition?_observeConditions, (others_observeConditions _).1]
  -- before the conditions an entry is there exactly if an item was recorded
  generalize items.foldl (fun (inv : Inventory) r => inv.observeResource c r) default = inv
    at hothers hsound ⊢
  have hc : inv.condition? k = none := hothers.1
  have hd : inv.desired? k = none := hothers.2
  have hseen : (inv.find? k).isSome = (inv.existing? k).isSome := by
    rw [Bool.eq_iff_iff, hsound.isSome_find?_iff, hc, hd]
    simp [Option.isSome_iff_ne_none]
  rw [hseen, hc, Option.or_none]

/-- Where no two conditions have one type, the condition about the subject of a key is recorded at
it if the key takes conditions. -/
theorem condition?_survey_eq_some (hn : (conditions.map Condition.typeName).Nodup) :
    (survey c items conditions).condition? k = some condition ↔
      takes c ((survey c items conditions).existing? k).isSome k = true ∧ condition ∈ conditions ∧
        Subject.ofTypeName? condition.typeName = some k.subject := by
  rw [condition?_survey]
  by_cases ht : takes c ((survey c items conditions).existing? k).isSome k = true
  · rw [if_pos ht, SortedMap.find?_reverse_eq_some hn]
    · simp [ht]
    · intro x y hx hy
      rw [beq_iff_eq] at hx hy
      exact (Subject.typeName_of_ofTypeName? hx).symm.trans (Subject.typeName_of_ofTypeName? hy)
  · simp [ht]

end Survey

end Inventory

end Reconciler
