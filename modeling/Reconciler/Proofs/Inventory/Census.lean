import Reconciler.Proofs.Inventory.Survey

/-! How much an inventory holds. An observation that finds its slot empty adds one: to the resources, to
the conditions, or to what fits no class. -/
namespace Reconciler

namespace Inventory

variable {c : Controller} {inv : Inventory} {k : Key} {exchange : Option Exchange} {r : Resource}
  {x : Condition}

def resourceCount (inv : Inventory) : Nat := inv.entries.values.countP fun e => e.existing.isSome

def conditionCount (inv : Inventory) : Nat := inv.entries.values.countP fun e => e.condition.isSome

/-- All that was observed: what is recorded, and what fits no class. -/
def census (inv : Inventory) : Nat := inv.unmatched + inv.resourceCount + inv.conditionCount

private theorem countP_update (inv : Inventory) (k : Key) {p : Entry → Bool} (hp : p .blank = false)
    (f : Entry → Entry) :
    (inv.update k f).entries.values.countP p + (p (inv.entryAt k)).toNat =
      inv.entries.values.countP p + (p (f (inv.entryAt k))).toNat := by
  have hold : (inv.entries.find? k).any p = p (inv.entryAt k) := by
    rw [entryAt, find?]
    cases inv.entries.find? k with
    | none => exact hp.symm
    | some e => rfl
  rw [← hold]
  exact SortedMap.countP_insert ..

private theorem census_update {f : Entry → Entry}
    (hf : (f (inv.entryAt k)).existing.isSome.toNat + (f (inv.entryAt k)).condition.isSome.toNat =
      (inv.entryAt k).existing.isSome.toNat + (inv.entryAt k).condition.isSome.toNat + 1) :
    (inv.update k f).census = inv.census + 1 := by
  have hresources : (inv.update k f).resourceCount + _ = inv.resourceCount + _ :=
    countP_update inv k rfl f
  have hconditions : (inv.update k f).conditionCount + _ = inv.conditionCount + _ :=
    countP_update inv k rfl f
  have hunmatched : (inv.update k f).unmatched = inv.unmatched := rfl
  rw [census, census, hunmatched]
  omega

private theorem census_addResource (h : inv.existing? k = none) :
    (inv.addResource k exchange r).census = inv.census + 1 := by
  refine census_update ?_
  rw [existing?] at h
  simp only [h, Entry.declare, Option.isSome_some, Option.isSome_none, Bool.toNat_true,
    Bool.toNat_false]
  omega

private theorem census_addCondition (h : inv.condition? k = none) :
    (inv.addCondition k exchange x).census = inv.census + 1 := by
  refine census_update ?_
  rw [condition?] at h
  simp only [h, Entry.declare, Option.isSome_some, Option.isSome_none, Bool.toNat_true,
    Bool.toNat_false]

private theorem census_noteUnmatched (inv : Inventory) :
    inv.noteUnmatched.census = inv.census + 1 := by
  simp only [census, noteUnmatched, resourceCount, conditionCount]
  omega

private theorem census_observeResource (h : ∀ k, c.keyOf r = some k → inv.existing? k = none) :
    (inv.observeResource c r).census = inv.census + 1 := by
  rw [observeResource]
  split
  · rename_i k exchange hr
    exact census_addResource (h k (by rw [Controller.keyOf, hr]; rfl))
  · exact census_noteUnmatched inv

private theorem census_observeCondition
    (h : ∀ k exchange, inv.classifyCondition c x = some (k, exchange) → inv.condition? k = none) :
    (inv.observeCondition c x).census = inv.census + 1 := by
  rw [observeCondition]
  split
  · rename_i k exchange hx
    exact census_addCondition (h k exchange hx)
  · exact census_noteUnmatched inv

section Survey

variable {items before after : List Resource} {conditions earlier later : List Condition}

/-- An item with an identity of its own finds its slot empty. -/
theorem existing?_survey_before (hn : ((before ++ r :: after).map Resource.identity).Nodup)
    (hk : c.keyOf r = some k) : (survey c before []).existing? k = none := by
  cases hex : (survey c before []).existing? k with
  | none => rfl
  | some r' =>
    obtain ⟨hm, hk'⟩ := mem_of_existing?_survey hex
    have hid : r'.identity = r.identity :=
      (Controller.keyOf_eq_some hk').2.symm.trans (Controller.keyOf_eq_some hk).2
    rw [List.map_append, List.map_cons, List.nodup_append] at hn
    exact absurd hid (hn.2.2 _ (List.mem_map_of_mem hm) _ List.mem_cons_self)

/-- A condition with a type of its own finds its slot empty. -/
theorem condition?_survey_before (hn : ((earlier ++ x :: later).map Condition.typeName).Nodup)
    (hx : (survey c items earlier).classifyCondition c x = some (k, exchange)) :
    (survey c items earlier).condition? k = none := by
  have hsubject := (classifyCondition_eq_some_iff.1 hx).1
  rw [List.map_append, List.map_cons, List.nodup_append] at hn
  cases hy : (survey c items earlier).condition? k with
  | none => rfl
  | some y =>
    obtain ⟨-, hm, hsubject'⟩ := (condition?_survey_eq_some hn.1).1 hy
    have htype : y.typeName = x.typeName :=
      (Subject.typeName_of_ofTypeName? hsubject').symm.trans (Subject.typeName_of_ofTypeName? hsubject)
    exact absurd htype (hn.2.2 _ (List.mem_map_of_mem hm) _ List.mem_cons_self)

private theorem census_observeResources (before after : List Resource)
    (hn : ((before ++ after).map Resource.identity).Nodup) :
    (survey c (before ++ after) []).census = (survey c before []).census + after.length := by
  induction after generalizing before with
  | nil => simp
  | cons r after ih =>
    have hstep : survey c (before ++ [r]) [] = (survey c before []).observeResource c r := by
      simp [survey]
    have hrest := ih (before ++ [r]) (by simpa using hn)
    rw [List.append_assoc, List.singleton_append, hstep,
      census_observeResource fun k hk => existing?_survey_before hn hk] at hrest
    rw [hrest, List.length_cons]
    omega

private theorem census_observeConditions (items : List Resource) (earlier later : List Condition)
    (hn : ((earlier ++ later).map Condition.typeName).Nodup) :
    (survey c items (earlier ++ later)).census = (survey c items earlier).census + later.length := by
  induction later generalizing earlier with
  | nil => simp
  | cons x later ih =>
    have hstep : survey c items (earlier ++ [x]) = (survey c items earlier).observeCondition c x := by
      simp [survey]
    have hrest := ih (earlier ++ [x]) (by simpa using hn)
    rw [List.append_assoc, List.singleton_append, hstep,
      census_observeCondition fun k exchange hk => condition?_survey_before hn hk] at hrest
    rw [hrest, List.length_cons]
    omega

/-- With distinct identities and distinct condition types every observation counts. -/
theorem census_survey (hn : (items.map Resource.identity).Nodup)
    (hm : (conditions.map Condition.typeName).Nodup) :
    (survey c items conditions).census = items.length + conditions.length := by
  have hitems := census_observeResources (c := c) [] items hn
  have hconditions := census_observeConditions (c := c) items [] conditions hm
  rw [List.nil_append] at hitems hconditions
  rw [hconditions, hitems, show (survey c [] []).census = 0 from rfl, Nat.zero_add]

/-- With distinct identities an item is recorded at one key, unless it fits no class. -/
theorem existsUnique_existing?_survey (hn : (items.map Resource.identity).Nodup) (hr : r ∈ items) :
    c.keyOf r = none ∨ ∃ k, (survey c items conditions).existing? k = some r ∧
      ∀ k', (survey c items conditions).existing? k' = some r → k' = k := by
  cases hk : c.keyOf r with
  | none => exact .inl rfl
  | some k =>
    refine .inr ⟨k, (existing?_survey hn).2 ⟨hr, hk⟩, fun k' hk' => ?_⟩
    have hkey := ((existing?_survey hn).1 hk').2
    rw [hk, Option.some.injEq] at hkey
    exact hkey.symm

private theorem isSome_find?_survey_items (items : List Resource) (conditions : List Condition) :
    ((survey c items []).find? k).isSome = ((survey c items conditions).existing? k).isSome := by
  have hsame : (survey c items conditions).existing? k = (survey c items []).existing? k := by
    rw [existing?_survey_eq, existing?_survey_eq]
  have hnone : (survey c items []).condition? k = none := by simp [condition?_survey]
  rw [Bool.eq_iff_iff, (sound_survey c items []).isSome_find?_iff, hnone, desired?_survey, hsame]
  simp [Option.isSome_iff_ne_none]

/-- With distinct types a condition is recorded at one key, unless it fits no class once all items are
recorded. -/
theorem existsUnique_condition?_survey (hm : (conditions.map Condition.typeName).Nodup)
    (hx : x ∈ conditions) : (survey c items []).classifyCondition c x = none ∨
      ∃ k, (survey c items conditions).condition? k = some x ∧
        ∀ k', (survey c items conditions).condition? k' = some x → k' = k := by
  have hclass (k : Key) : (survey c items conditions).condition? k = some x ↔
      (survey c items []).classifyCondition c x = some (k, c.exchangeOf k) := by
    rw [condition?_survey_eq_some hm, classifyCondition_eq_some_iff,
      isSome_find?_survey_items items conditions]
    simp [hx, and_comm]
  cases hk : (survey c items []).classifyCondition c x with
  | none => exact .inl rfl
  | some e =>
    obtain ⟨k, exchange⟩ := e
    obtain ⟨-, -, rfl⟩ := classifyCondition_eq_some_iff.1 hk
    refine .inr ⟨k, (hclass k).2 hk, fun k' hk' => ?_⟩
    have hkey := (hclass k').1 hk'
    rw [hk, Option.some.injEq, Prod.mk.injEq] at hkey
    exact hkey.1.symm

end Survey

end Inventory

end Reconciler
