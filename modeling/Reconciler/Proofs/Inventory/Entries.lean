import Reconciler.Inventory.Classification
import Reconciler.Proofs.SortedMap

/-! The inventory as three maps from keys: present conditions, present resources and desired
resources. Every operation changes one of them at one key. -/
namespace Reconciler

namespace Controller

open Inventory (Key)

def exchangeOf (c : Controller) (k : Key) : Option Exchange :=
  if k.role = .owned then c.exchange? k.target else none

def Admits (c : Controller) : Key → Prop
  | ⟨.governed, none, target⟩ => c.governs target = true
  | ⟨.owned, some owner, target⟩ => c.governs owner = true ∧ (c.exchange? target).isSome = true
  | ⟨.watched, none, target⟩ => c.governs target = false
  | ⟨.watched, some owner, target⟩ =>
    c.governs owner = true ∧ c.exchange? target = none ∧ (c.watchExact? target).isSome = true
  | _ => False

end Controller

namespace Inventory

variable {c : Controller} {inv : Inventory} {k k' : Key} {exchange : Option Exchange}
  {r : Resource} {condition : Condition}

def entryAt (inv : Inventory) (k : Key) : Entry := (inv.find? k).getD .blank

def condition? (inv : Inventory) (k : Key) : Option Condition := (inv.entryAt k).condition

def existing? (inv : Inventory) (k : Key) : Option Resource := (inv.entryAt k).existing

def desired? (inv : Inventory) (k : Key) : Option Resource := (inv.entryAt k).desired

section Maps

variable {f : Entry → Entry}

theorem entryAt_of_find? {e : Entry} (h : inv.find? k = some e) : inv.entryAt k = e := by
  rw [entryAt, h, Option.getD_some]

theorem find?_update_self : (inv.update k f).find? k = some (f (inv.entryAt k)) :=
  SortedMap.find?_insert_self ..

theorem find?_update_of_ne (h : k' ≠ k) : (inv.update k f).find? k' = inv.find? k' :=
  SortedMap.find?_insert_of_ne _ h _

private theorem entryAt_update :
    (inv.update k f).entryAt k' = if k' = k then f (inv.entryAt k) else inv.entryAt k' := by
  by_cases h : k' = k
  · subst h
    rw [if_pos rfl, entryAt_of_find? find?_update_self]
  · rw [if_neg h, entryAt, find?_update_of_ne h, ← entryAt]

private theorem field_update {α : Type} (field : Entry → α) (h : ∀ e, field (f e) = field e) :
    field ((inv.update k f).entryAt k') = field (inv.entryAt k') := by
  rw [entryAt_update]
  split
  · rename_i hk
    rw [hk, h]
  · rfl

@[simp] theorem condition?_addResource :
    (inv.addResource k exchange r).condition? k' = inv.condition? k' :=
  field_update Entry.condition fun _ => rfl

@[simp] theorem existing?_addResource :
    (inv.addResource k exchange r).existing? k' = if k' = k then some r else inv.existing? k' := by
  simp only [existing?, addResource, entryAt_update]
  split <;> rfl

@[simp] theorem desired?_addResource :
    (inv.addResource k exchange r).desired? k' = inv.desired? k' :=
  field_update Entry.desired fun _ => rfl

@[simp] theorem condition?_addCondition : (inv.addCondition k exchange condition).condition? k' =
    if k' = k then some condition else inv.condition? k' := by
  simp only [condition?, addCondition, entryAt_update]
  split <;> rfl

@[simp] theorem existing?_addCondition :
    (inv.addCondition k exchange condition).existing? k' = inv.existing? k' :=
  field_update Entry.existing fun _ => rfl

@[simp] theorem desired?_addCondition :
    (inv.addCondition k exchange condition).desired? k' = inv.desired? k' :=
  field_update Entry.desired fun _ => rfl

@[simp] theorem condition?_addDesired :
    (inv.addDesired k exchange r).condition? k' = inv.condition? k' :=
  field_update Entry.condition fun _ => rfl

@[simp] theorem existing?_addDesired :
    (inv.addDesired k exchange r).existing? k' = inv.existing? k' :=
  field_update Entry.existing fun _ => rfl

@[simp] theorem desired?_addDesired :
    (inv.addDesired k exchange r).desired? k' = if k' = k then some r else inv.desired? k' := by
  simp only [desired?, addDesired, entryAt_update]
  split <;> rfl

@[simp] theorem condition?_setResource :
    (inv.setResource k r).condition? k' = inv.condition? k' :=
  field_update Entry.condition fun _ => rfl

@[simp] theorem existing?_setResource :
    (inv.setResource k r).existing? k' = if k' = k then some r else inv.existing? k' := by
  simp only [existing?, setResource, entryAt_update]
  split <;> rfl

@[simp] theorem desired?_setResource : (inv.setResource k r).desired? k' = inv.desired? k' :=
  field_update Entry.desired fun _ => rfl

@[simp] theorem condition?_setCondition : (inv.setCondition k condition).condition? k' =
    if k' = k then some condition else inv.condition? k' := by
  simp only [condition?, setCondition, entryAt_update]
  split <;> rfl

@[simp] theorem existing?_setCondition :
    (inv.setCondition k condition).existing? k' = inv.existing? k' :=
  field_update Entry.existing fun _ => rfl

@[simp] theorem desired?_setCondition :
    (inv.setCondition k condition).desired? k' = inv.desired? k' :=
  field_update Entry.desired fun _ => rfl

private theorem clearCondition_cases (inv : Inventory) (k : Key) :
    (inv.find? k = none ∧ inv.clearCondition k = inv) ∨
    (∃ e, inv.find? k = some e ∧ { e with condition := none }.isEmpty = true ∧
      inv.clearCondition k = { inv with entries := inv.entries.erase k }) ∨
    (∃ e, inv.find? k = some e ∧ { e with condition := none }.isEmpty = false ∧
      inv.clearCondition k =
        { inv with entries := inv.entries.insert k { e with condition := none } }) := by
  rw [clearCondition]
  cases h : inv.find? k with
  | none => exact .inl ⟨rfl, rfl⟩
  | some e =>
    by_cases he : { e with condition := none : Entry }.isEmpty = true
    · exact .inr (.inl ⟨e, rfl, he, by simp [he]⟩)
    · exact .inr (.inr ⟨e, rfl, by simpa using he, by simp [he]⟩)

theorem find?_clearCondition_of_ne (h : k' ≠ k) :
    (inv.clearCondition k).find? k' = inv.find? k' := by
  rcases clearCondition_cases inv k with ⟨-, he⟩ | ⟨e, -, -, he⟩ | ⟨e, -, -, he⟩
  · rw [he]
  · rw [he]
    exact SortedMap.find?_erase_of_ne _ h
  · rw [he]
    exact SortedMap.find?_insert_of_ne _ h _

theorem find?_clearCondition_self {e : Entry} (h : (inv.clearCondition k).find? k = some e) :
    ∃ e₀, inv.find? k = some e₀ ∧ e = { e₀ with condition := none } ∧ e.isEmpty = false := by
  rcases clearCondition_cases inv k with ⟨hn, he⟩ | ⟨e₀, -, -, he⟩ | ⟨e₀, hf, hne, he⟩
  · rw [he, hn] at h
    cases h
  · rw [he] at h
    exact absurd (h.symm.trans (SortedMap.find?_erase_self inv.entries k)) (by simp)
  · rw [he] at h
    cases h.symm.trans (SortedMap.find?_insert_self inv.entries k _)
    exact ⟨e₀, hf, rfl, hne⟩

private theorem slots_clearCondition_self (inv : Inventory) (k : Key) :
    (inv.clearCondition k).condition? k = none ∧
      (inv.clearCondition k).existing? k = inv.existing? k ∧
      (inv.clearCondition k).desired? k = inv.desired? k := by
  rcases clearCondition_cases inv k with ⟨hn, he⟩ | ⟨e, hf, hempty, he⟩ | ⟨e, hf, -, he⟩
  · rw [he]
    simp [condition?, existing?, desired?, entryAt, hn, Entry.blank]
  · have hnone : (inv.clearCondition k).find? k = none := by
      rw [he]
      exact SortedMap.find?_erase_self ..
    simp only [Entry.isEmpty, Option.isNone_none, Bool.true_and, Bool.and_eq_true,
      Option.isNone_iff_eq_none] at hempty
    simp [condition?, existing?, desired?, entryAt, hnone, hf, hempty, Entry.blank]
  · have hsome : (inv.clearCondition k).find? k = some { e with condition := none } := by
      rw [he]
      exact SortedMap.find?_insert_self ..
    simp [condition?, existing?, desired?, entryAt, hsome, hf]

private theorem entryAt_clearCondition_of_ne (h : k' ≠ k) :
    (inv.clearCondition k).entryAt k' = inv.entryAt k' := by
  rw [entryAt, find?_clearCondition_of_ne h, ← entryAt]

@[simp] theorem condition?_clearCondition : (inv.clearCondition k).condition? k' =
    if k' = k then none else inv.condition? k' := by
  split
  · rename_i h
    rw [h, (slots_clearCondition_self inv k).1]
  · rename_i h
    rw [condition?, entryAt_clearCondition_of_ne h, ← condition?]

@[simp] theorem existing?_clearCondition :
    (inv.clearCondition k).existing? k' = inv.existing? k' := by
  by_cases h : k' = k
  · rw [h, (slots_clearCondition_self inv k).2.1]
  · rw [existing?, entryAt_clearCondition_of_ne h, ← existing?]

@[simp] theorem desired?_clearCondition :
    (inv.clearCondition k).desired? k' = inv.desired? k' := by
  by_cases h : k' = k
  · rw [h, (slots_clearCondition_self inv k).2.2]
  · rw [desired?, entryAt_clearCondition_of_ne h, ← desired?]

end Maps

/-- Every entry stands at a key that the controller admits, is exchanged accordingly and holds
something. -/
def Sound (c : Controller) (inv : Inventory) : Prop :=
  ∀ k e, inv.find? k = some e → c.Admits k ∧ e.exchange = c.exchangeOf k ∧ e.isEmpty = false

namespace Sound

theorem empty (c : Controller) : Sound c default := by
  intro k e h
  cases h

private theorem update {f : Entry → Entry} (h : Sound c inv) (hk : c.Admits k)
    (hx : (f (inv.entryAt k)).exchange = c.exchangeOf k)
    (he : (f (inv.entryAt k)).isEmpty = false) : Sound c (inv.update k f) := by
  intro k' e hf
  by_cases hk' : k' = k
  · subst hk'
    rw [find?_update_self] at hf
    cases hf
    exact ⟨hk, hx, he⟩
  · rw [find?_update_of_ne hk'] at hf
    exact h k' e hf

private theorem exchange_declare (h : Sound c inv) (hx : exchange = c.exchangeOf k) :
    ((inv.entryAt k).declare exchange).exchange = c.exchangeOf k := by
  subst hx
  rw [Entry.declare]
  cases hx : c.exchangeOf k with
  | some x => rfl
  | none =>
    cases hf : inv.find? k with
    | none => rw [entryAt, hf]; rfl
    | some e =>
      rw [entryAt_of_find? hf, (h k e hf).2.1, hx]
      rfl

theorem addResource (h : Sound c inv) (hk : c.Admits k) (hx : exchange = c.exchangeOf k) :
    Sound c (inv.addResource k exchange r) :=
  h.update hk (h.exchange_declare hx) (by simp [Entry.isEmpty])

theorem addCondition (h : Sound c inv) (hk : c.Admits k) (hx : exchange = c.exchangeOf k) :
    Sound c (inv.addCondition k exchange condition) :=
  h.update hk (h.exchange_declare hx) (by simp [Entry.isEmpty])

theorem addDesired (h : Sound c inv) (hk : c.Admits k) (hx : exchange = c.exchangeOf k) :
    Sound c (inv.addDesired k exchange r) :=
  h.update hk (h.exchange_declare hx) (by simp [Entry.isEmpty])

theorem setResource (h : Sound c inv) (hk : (inv.find? k).isSome = true) :
    Sound c (inv.setResource k r) := by
  obtain ⟨e, hf⟩ := Option.isSome_iff_exists.1 hk
  obtain ⟨ha, hx, -⟩ := h k e hf
  exact h.update ha (by rw [entryAt_of_find? hf, hx]) (by simp [Entry.isEmpty])

theorem setCondition (h : Sound c inv) (hk : (inv.find? k).isSome = true) :
    Sound c (inv.setCondition k condition) := by
  obtain ⟨e, hf⟩ := Option.isSome_iff_exists.1 hk
  obtain ⟨ha, hx, -⟩ := h k e hf
  exact h.update ha (by rw [entryAt_of_find? hf, hx]) (by simp [Entry.isEmpty])

theorem clearCondition (h : Sound c inv) (k : Key) : Sound c (inv.clearCondition k) := by
  intro k' e hf
  by_cases hk : k' = k
  · subst hk
    obtain ⟨e₀, hf₀, rfl, hne⟩ := find?_clearCondition_self hf
    obtain ⟨ha, hx, -⟩ := h k' e₀ hf₀
    exact ⟨ha, hx, hne⟩
  · rw [find?_clearCondition_of_ne hk] at hf
    exact h k' e hf

theorem isSome_find?_iff (h : Sound c inv) : (inv.find? k).isSome = true ↔
    inv.condition? k ≠ none ∨ inv.existing? k ≠ none ∨ inv.desired? k ≠ none := by
  cases hf : inv.find? k with
  | none => simp [condition?, existing?, desired?, entryAt, hf, Entry.blank]
  | some e =>
    have hne := (h k e hf).2.2
    simp only [Option.isSome_some, condition?, existing?, desired?, entryAt_of_find? hf, true_iff]
    cases hc : e.condition with
    | some _ => exact .inl (by simp)
    | none =>
      cases hx : e.existing with
      | some _ => exact .inr (.inl (by simp))
      | none =>
        refine .inr (.inr fun hd => ?_)
        rw [Entry.isEmpty, hc, hx, hd] at hne
        cases hne

theorem admits (h : Sound c inv) (hk : (inv.find? k).isSome = true) : c.Admits k := by
  obtain ⟨e, hf⟩ := Option.isSome_iff_exists.1 hk
  exact (h k e hf).1

end Sound

end Inventory

end Reconciler
