import Mathlib.Logic.Function.Basic
import Reconciler.Proofs.Manifest

/-! The conditions of a manifest under edits. The list stands for a map from types, in which the
first condition of a type counts. -/
namespace Reconciler.Manifest

/-- A change of the conditions. -/
inductive Edit where
  | put (c : Condition)
  | drop (typeName : String)
deriving DecidableEq

def edit (m : Manifest) : Edit → Manifest
  | .put c => (m.setCondition c).1
  | .drop typeName => (m.deleteCondition typeName).1

def edited (m : Manifest) (edits : List Edit) : Manifest := edits.foldl edit m

theorem source_edited (m : Manifest) (edits : List Edit) : (m.edited edits).source = m.source := by
  induction edits generalizing m with
  | nil => rfl
  | cons e edits ih =>
    refine (ih (m.edit e)).trans ?_
    cases e <;> rfl

theorem edited_append (m : Manifest) (edits edits' : List Edit) :
    m.edited (edits ++ edits') = (m.edited edits).edited edits' := List.foldl_append

variable {m : Manifest} {c : Condition} {conditions : List Condition} {e : Edit}

namespace Edit

def typeName : Edit → String
  | .put c => c.typeName
  | .drop typeName => typeName

def record : Edit → Option Condition
  | .put c => some c
  | .drop _ => none

/-- The types in their order after the edit: those that are there keep their places, a new one comes
last. -/
def order (types : List String) : Edit → List String
  | .put c => if c.typeName ∈ types then types else types ++ [c.typeName]
  | .drop typeName => types.filter (· != typeName)

/-- What an edit makes of a list of conditions: one takes the place of the first of its type or
comes last, and a dropped type leaves all others. -/
inductive Turns : Edit → List Condition → List Condition → Prop where
  | replace {c x : Condition} {before after : List Condition} : x.typeName = c.typeName →
      (∀ y ∈ before, y.typeName ≠ c.typeName) →
      Turns (.put c) (before ++ x :: after) (before ++ c :: after)
  | append {c : Condition} {conditions : List Condition} :
      (∀ y ∈ conditions, y.typeName ≠ c.typeName) → Turns (.put c) conditions (conditions ++ [c])
  | drop {typeName : String} {conditions : List Condition} :
      Turns (.drop typeName) conditions (conditions.filter fun x => x.typeName != typeName)

end Edit

def call (m : Manifest) : Edit → Manifest × Bool
  | .put c => m.setCondition c
  | .drop typeName => m.deleteCondition typeName

private theorem edit_eq (m : Manifest) (e : Edit) : m.edit e = (m.call e).1 := by
  cases e <;> rfl

section Step

private theorem putCondition_of_absent (h : ∀ x ∈ conditions, x.typeName ≠ c.typeName) :
    (putCondition c conditions).1 = conditions ++ [c] := by
  induction conditions with
  | nil => rfl
  | cons x xs ih =>
    rw [List.forall_mem_cons] at h
    rw [putCondition, if_neg h.1, List.cons_append, ← ih h.2]

theorem putCondition_of_present {before after : List Condition} {x : Condition}
    (hx : x.typeName = c.typeName) (hb : ∀ y ∈ before, y.typeName ≠ c.typeName) :
    (putCondition c (before ++ x :: after)).1 = before ++ c :: after := by
  induction before with
  | nil =>
    rw [List.nil_append, putCondition, if_pos hx]
    split
    · rename_i he
      rw [he, List.nil_append]
    · rfl
  | cons y before ih =>
    rw [List.forall_mem_cons] at hb
    rw [List.cons_append, putCondition, if_neg hb.1, List.cons_append, ← ih hb.2]

private theorem turns_put (c : Condition) (conditions : List Condition) :
    (Edit.put c).Turns conditions (putCondition c conditions).1 := by
  cases hf : findCondition conditions c.typeName with
  | none =>
    have hnone := findCondition_eq_none.1 hf
    rw [putCondition_of_absent hnone]
    exact .append hnone
  | some x =>
    obtain ⟨before, after, rfl, hx, hb⟩ := findCondition_eq_some_iff.1 hf
    rw [putCondition_of_present hx hb]
    exact .replace hx hb

private theorem turns_call (m : Manifest) (e : Edit) :
    e.Turns m.conditions (m.call e).1.conditions := by
  cases e with
  | put c => exact turns_put c m.conditions
  | drop typeName => exact .drop

private theorem condition?_call (m : Manifest) (e : Edit) :
    (m.call e).1.condition? = Function.update m.condition? e.typeName e.record := by
  funext t
  by_cases ht : t = e.typeName
  · subst ht
    rw [Function.update_self]
    cases e with
    | put c => exact findCondition_put_self c m.conditions
    | drop typeName => exact findCondition_drop_self typeName m.conditions
  · rw [Function.update_of_ne ht]
    cases e with
    | put c => exact findCondition_put_of_ne m.conditions ht
    | drop typeName => exact findCondition_drop_of_ne m.conditions ht

private theorem call_of_condition? (h : m.condition? e.typeName = e.record) : (m.call e).1 = m := by
  obtain ⟨source, conditions⟩ := m
  cases e with
  | put c => exact congrArg (Manifest.mk source) (putCondition_of_find h)
  | drop typeName => exact congrArg (Manifest.mk source) (dropCondition_of_absent h)

private theorem changed_put (c : Condition) (conditions : List Condition) :
    (putCondition c conditions).2 = true ↔ (putCondition c conditions).1 ≠ conditions := by
  induction conditions with
  | nil => simp [putCondition]
  | cons x xs ih =>
    by_cases ht : x.typeName = c.typeName
    · by_cases hx : x = c
      · simp [putCondition, hx]
      · simp [putCondition, ht, hx, Ne.symm hx]
    · simpa [putCondition, ht] using ih

private theorem changed_drop (typeName : String) (conditions : List Condition) :
    (dropCondition typeName conditions).2 = true ↔
      (dropCondition typeName conditions).1 ≠ conditions := by
  constructor
  · intro hflag heq
    rw [dropCondition] at hflag heq
    simp only at heq
    simp [heq] at hflag
  · intro hne
    rw [← Bool.not_eq_false]
    exact fun hflag => hne (dropCondition_of_unchanged hflag)

private theorem changed_call (m : Manifest) (e : Edit) :
    (m.call e).2 = true ↔ (m.call e).1.conditions ≠ m.conditions := by
  cases e with
  | put c => exact changed_put c m.conditions
  | drop typeName => exact changed_drop typeName m.conditions

private theorem call_call (m : Manifest) (e : Edit) :
    (m.call e).1.call e = ((m.call e).1, false) := by
  have hsame : ((m.call e).1.call e).1 = (m.call e).1 := by
    refine call_of_condition? ?_
    rw [condition?_call, Function.update_self]
  refine Prod.ext hsame ?_
  rw [← Bool.not_eq_true, changed_call, hsame]
  exact fun hne => hne rfl

private theorem Edit.Turns.types {before after : List Condition} (h : e.Turns before after) :
    after.map Condition.typeName = e.order (before.map Condition.typeName) := by
  cases h with
  | replace hc => simp [Edit.order, hc]
  | @append c _ hnone =>
    have hnot : c.typeName ∉ before.map Condition.typeName := by simpa using hnone
    rw [Edit.order, if_neg hnot, List.map_append, List.map_singleton]
  | drop => rw [Edit.order, List.filter_map]; rfl

private theorem Edit.nodup_order {types : List String} (h : types.Nodup) (e : Edit) :
    (e.order types).Nodup := by
  cases e with
  | put c =>
    rw [Edit.order]
    split
    · exact h
    · rename_i hnot
      exact List.nodup_append.2 ⟨h, by simp, by grind⟩
  | drop typeName => exact h.filter _

private theorem filter_call {test : String → Bool} (h : test e.typeName = false) :
    (m.call e).1.conditions.filter (fun x => test x.typeName) =
      m.conditions.filter fun x => test x.typeName := by
  cases e with
  | put c => exact filter_put h
  | drop typeName => exact filter_drop h

/-- What one edit does to a manifest, and what the call tells. -/
structure Effect (e : Edit) (m m' : Manifest) (changed : Bool) : Prop where
  /-- The type is looked up as it was edited, every other type as before. -/
  condition? : m'.condition? = Function.update m.condition? e.typeName e.record
  turns : e.Turns m.conditions m'.conditions
  changed_iff : changed = true ↔ m'.conditions ≠ m.conditions
  /-- The second time nothing changes. -/
  again : m'.call e = (m', false)

end Step

section Sequence

variable {edits : List Edit}

private theorem condition?_edited (m : Manifest) (edits : List Edit) : (m.edited edits).condition? =
    edits.foldl (fun found e => Function.update found e.typeName e.record) m.condition? := by
  induction edits generalizing m with
  | nil => rfl
  | cons e edits ih =>
    refine (ih (m.edit e)).trans ?_
    rw [edit_eq, condition?_call, List.foldl_cons]

private theorem types_edited (m : Manifest) (edits : List Edit) :
    (m.edited edits).conditions.map Condition.typeName =
      edits.foldl (fun types e => e.order types) (m.conditions.map Condition.typeName) := by
  induction edits generalizing m with
  | nil => rfl
  | cons e edits ih =>
    refine (ih (m.edit e)).trans ?_
    rw [edit_eq, (turns_call m e).types, List.foldl_cons]

private theorem nodup_edited (h : (m.conditions.map Condition.typeName).Nodup) (edits : List Edit) :
    ((m.edited edits).conditions.map Condition.typeName).Nodup := by
  induction edits generalizing m with
  | nil => exact h
  | cons e edits ih =>
    refine ih ?_
    rw [edit_eq, (turns_call m e).types]
    exact e.nodup_order h

private theorem filter_edited (test : String → Bool) (h : ∀ e ∈ edits, test e.typeName = false)
    (m : Manifest) : (m.edited edits).conditions.filter (fun x => test x.typeName) =
      m.conditions.filter fun x => test x.typeName := by
  induction edits generalizing m with
  | nil => rfl
  | cons e edits ih =>
    rw [List.forall_mem_cons] at h
    refine (ih h.2 (m.edit e)).trans ?_
    rw [edit_eq, filter_call h.1]

/-- Edits treat a list of conditions as a map that keeps its order: an edited type is found as it
was put, in its place or last, and all others stay. -/
theorem conditions_kept_as_map (m : Manifest) (edits : List Edit) :
    (m.edited edits).condition? =
      edits.foldl (fun found e => Function.update found e.typeName e.record) m.condition? ∧
    (m.edited edits).conditions.map Condition.typeName =
      edits.foldl (fun types e => e.order types) (m.conditions.map Condition.typeName) ∧
    (m.edited edits).conditions.filter (fun x => x.typeName ∉ edits.map Edit.typeName) =
      m.conditions.filter (fun x => x.typeName ∉ edits.map Edit.typeName) ∧
    ((m.conditions.map Condition.typeName).Nodup →
      ((m.edited edits).conditions.map Condition.typeName).Nodup) ∧
    ∀ e, Effect e (m.edited edits) ((m.edited edits).call e).1 ((m.edited edits).call e).2 := by
  refine ⟨condition?_edited m edits, types_edited m edits, ?_, fun h => nodup_edited h edits,
    fun e => ?_⟩
  · refine filter_edited (fun t => t ∉ edits.map Edit.typeName) (fun e he => ?_) m
    simpa using ⟨e, he, rfl⟩
  · exact {
      condition? := condition?_call _ e
      turns := turns_call _ e
      changed_iff := changed_call _ e
      again := call_call _ e }

/-- A type that is dropped and put again comes last. -/
theorem conditions_kept_as_map_readmitting :
    let m : Manifest := ⟨.minimal ⟨"kpt.dev/v1", "Kptfile"⟩ "pkg",
      [⟨"Ready", .isTrue, none, ""⟩, ⟨"Synced", .isFalse, some "", "pending"⟩]⟩
    let edits : List Edit := [.drop "Ready", .put ⟨"Synced", .isTrue, none, ""⟩,
      .put ⟨"Ready", .unknown, none, ""⟩]
    (m.conditions.map Condition.typeName).Nodup ∧
    ((m.edited edits).conditions.map Condition.typeName).Nodup ∧
    (m.edited edits).conditions.map Condition.typeName = ["Synced", "Ready"] := by
  intro m edits
  obtain ⟨-, htypes, -, hnodup, -⟩ := conditions_kept_as_map m edits
  have hm : (m.conditions.map Condition.typeName).Nodup := by decide
  exact ⟨hm, hnodup hm, htypes.trans (by decide)⟩

end Sequence

end Reconciler.Manifest
