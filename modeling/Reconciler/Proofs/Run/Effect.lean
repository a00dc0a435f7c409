import Reconciler.Run.Basic
import Reconciler.Proofs.Batch
import Reconciler.Proofs.Manifest
import Reconciler.Proofs.Inventory.Entries

/-! What one action does to a run, and what a sequence of actions does: items change only where they
are written, conditions only where their key is touched, and inventory and manifest stay in
agreement. -/
namespace Reconciler

open Inventory (Key)

/-- One action at one key: the item that it writes, the condition that it puts or drops, and whether
it is recorded as a failure instead. -/
structure Effect where
  key : Key
  item : Option Resource
  condition : Option (Option Condition)
  rejected : Bool
deriving DecidableEq

namespace Effect

variable {e : Effect} {s s' : Run} {id : Ref} {t : String} {k : Key}

def idle (k : Key) : Effect := ⟨k, none, none, false⟩

theorem mem_between_idle {es : List Effect} :
    e ∈ idle k :: es ++ [idle k] ↔ e = idle k ∨ e ∈ es := by
  rw [List.cons_append, List.mem_cons, List.mem_append, List.mem_singleton, or_left_comm, or_self,
    or_comm]

def reject (k : Key) : Effect := ⟨k, none, none, true⟩

def writeTo (e : Effect) (b : Batch) : Batch × Bool :=
  match e.item with
  | none => (b, false)
  | some r => b.write r

def storeIn (e : Effect) (conditions : List Condition) : List Condition :=
  match e.condition with
  | none => conditions
  | some none => (Manifest.dropCondition e.key.conditionType conditions).1
  | some (some x) => (Manifest.putCondition x conditions).1

/-- The effect leads from one state to the other. Reports, notices and calls are left open. -/
structure Holds (e : Effect) (s s' : Run) : Prop where
  controller : s'.controller = s.controller
  manifestIndex : s'.manifestIndex = s.manifestIndex
  source : s'.manifest.source = s.manifest.source
  items : s'.batch.items = (e.writeTo s.batch).1.items
  objectsWritten : s'.report.objectsWritten =
    s.report.objectsWritten + (e.writeTo s.batch).2.toNat
  conditions : s'.manifest.conditions = e.storeIn s.manifest.conditions
  typeName : ∀ x, e.condition = some (some x) → x.typeName = e.key.conditionType
  failed : ∀ o, o ∈ s'.failed ↔ o ∈ s.failed ∨ e.rejected = true ∧ o = e.key.parent
  elsewhere : ∀ k, k ≠ e.key → s'.inventory.find? k = s.inventory.find? k
  existing : s'.inventory.existing? e.key = e.item.or (s.inventory.existing? e.key)
  condition : s'.inventory.condition? e.key = e.condition.getD (s.inventory.condition? e.key)

def itemAfter (e : Effect) (id : Ref) (old : Option Resource) : Option Resource :=
  match e.item with
  | none => old
  | some r => if r.identity = id then some (Batch.merged old r) else old

theorem Holds.itemAt (h : e.Holds s s') (id : Ref) : Batch.itemAt s'.batch.items id =
    e.itemAfter id (Batch.itemAt s.batch.items id) := by
  rw [h.items, writeTo, itemAfter]
  cases e.item with
  | none => rfl
  | some r =>
    by_cases hid : r.identity = id
    · subst hid
      simp only [if_true]
      exact Batch.itemAt_write_self _ r
    · simp only [if_neg hid]
      exact Batch.itemAt_write_of_ne _ (Ne.symm hid)

theorem Holds.identities_prefix (h : e.Holds s s') :
    s.batch.items.map Resource.identity <+: s'.batch.items.map Resource.identity := by
  rw [h.items, writeTo]
  cases e.item with
  | none => exact List.prefix_refl _
  | some r => exact Batch.identities_prefix_write _ r

private theorem Holds.nodup (h : e.Holds s s') (hn : (s.batch.items.map Resource.identity).Nodup) :
    (s'.batch.items.map Resource.identity).Nodup := by
  rw [h.items, writeTo]
  cases e.item with
  | none => exact hn
  | some r => exact Batch.nodup_write hn r

private theorem findCondition_storeIn_of_ne (ht : ∀ x, e.condition = some (some x) →
    x.typeName = e.key.conditionType) (conditions : List Condition) (h : t ≠ e.key.conditionType) :
    Manifest.findCondition (e.storeIn conditions) t = Manifest.findCondition conditions t := by
  rw [storeIn]
  split
  · rfl
  · exact Manifest.findCondition_drop_of_ne _ h
  · rename_i x hx
    exact Manifest.findCondition_put_of_ne _ (by rwa [ht x hx])

private theorem findCondition_storeIn_self (ht : ∀ x, e.condition = some (some x) →
    x.typeName = e.key.conditionType) (conditions : List Condition) :
    Manifest.findCondition (e.storeIn conditions) e.key.conditionType =
      e.condition.getD (Manifest.findCondition conditions e.key.conditionType) := by
  rw [storeIn]
  split
  · rename_i hx
    rw [hx]
    rfl
  · rename_i hx
    rw [hx, Manifest.findCondition_drop_self]
    rfl
  · rename_i x hx
    rw [hx, ← ht x hx, Manifest.findCondition_put_self]
    rfl

theorem filter_storeIn {test : String → Bool} (ht : ∀ x, e.condition = some (some x) →
    x.typeName = e.key.conditionType) (conditions : List Condition)
    (h : test e.key.conditionType = false) :
    (e.storeIn conditions).filter (fun x => test x.typeName) =
      conditions.filter fun x => test x.typeName := by
  rw [storeIn]
  split
  · rfl
  · exact Manifest.filter_drop h
  · rename_i x hx
    exact Manifest.filter_put (by rwa [ht x hx])

theorem Holds.existing?_of_ne (h : e.Holds s s') (hk : k ≠ e.key) :
    s'.inventory.existing? k = s.inventory.existing? k := by
  rw [Inventory.existing?, Inventory.entryAt, h.elsewhere k hk, ← Inventory.entryAt,
    ← Inventory.existing?]

theorem Holds.condition?_of_ne (h : e.Holds s s') (hk : k ≠ e.key) :
    s'.inventory.condition? k = s.inventory.condition? k := by
  rw [Inventory.condition?, Inventory.entryAt, h.elsewhere k hk, ← Inventory.entryAt,
    ← Inventory.condition?]

private theorem writeTo_of_item_none (h : e.item = none) (b : Batch) :
    e.writeTo b = (b, false) := by
  rw [writeTo, h]

private theorem writeTo_congr (e : Effect) {b b' : Batch} (h : b.items = b'.items) :
    (e.writeTo b).1.items = (e.writeTo b').1.items ∧ (e.writeTo b).2 = (e.writeTo b').2 := by
  rw [writeTo, writeTo]
  split
  · exact ⟨h, rfl⟩
  · exact Batch.write_congr h _

/-- Two effects at one key as one, as long as they do not work on the same. -/
def join (e e' : Effect) : Effect where
  key := e.key
  item := e.item.or e'.item
  condition := e.condition.or e'.condition
  rejected := e.rejected || e'.rejected

theorem Holds.join {e' : Effect} {s'' : Run} (h : e.Holds s s') (h' : e'.Holds s' s'')
    (hk : e'.key = e.key) (hi : e.item = none ∨ e'.item = none)
    (hc : e.condition = none ∨ e'.condition = none) : (e.join e').Holds s s'' := by
  have hwrite : ((e.join e').writeTo s.batch).1.items = (e'.writeTo s'.batch).1.items ∧
      ((e.join e').writeTo s.batch).2.toNat =
        (e.writeTo s.batch).2.toNat + (e'.writeTo s'.batch).2.toNat := by
    rcases hi with hi | hi
    · have hitems : s'.batch.items = s.batch.items := by rw [h.items, writeTo_of_item_none hi]
      have hsame : (e.join e').writeTo s.batch = e'.writeTo s.batch := by
        rw [writeTo, writeTo, Effect.join, hi, Option.none_or]
      obtain ⟨hwi, hwc⟩ := e'.writeTo_congr hitems
      rw [hsame, hwi, hwc, writeTo_of_item_none hi, Bool.toNat_false, Nat.zero_add]
      exact ⟨rfl, rfl⟩
    · have hsame : (e.join e').writeTo s.batch = e.writeTo s.batch := by
        rw [writeTo, writeTo, Effect.join, hi, Option.or_none]
      rw [hsame, writeTo_of_item_none hi]
      exact ⟨h.items.symm, rfl⟩
  have hstore (conditions : List Condition) :
      (e.join e').storeIn conditions = e'.storeIn (e.storeIn conditions) := by
    rcases hc with hc | hc
    · rw [storeIn, storeIn, storeIn, Effect.join, hc, hk, Option.none_or]
    · rw [storeIn, storeIn, storeIn, Effect.join, hc, Option.or_none]
  exact {
    controller := h'.controller.trans h.controller
    manifestIndex := h'.manifestIndex.trans h.manifestIndex
    source := h'.source.trans h.source
    items := by rw [h'.items, hwrite.1]
    objectsWritten := by rw [h'.objectsWritten, h.objectsWritten, hwrite.2, Nat.add_assoc]
    conditions := by rw [h'.conditions, h.conditions, hstore]
    typeName := by
      intro x hx
      rcases Option.or_eq_some_iff.1 hx with hx | ⟨-, hx⟩
      · exact h.typeName x hx
      · rw [h'.typeName x hx, hk]
        rfl
    failed := fun o => by simp [h'.failed, h.failed, Effect.join, hk, or_and_right, or_assoc]
    elsewhere := fun k' hk' =>
      (h'.elsewhere k' (hk ▸ hk')).trans (h.elsewhere k' hk')
    existing := by
      have he := h'.existing
      rw [hk, h.existing] at he
      rw [show (e.join e').key = e.key from rfl, he, Effect.join]
      rcases hi with hi | hi <;> simp [hi]
    condition := by
      have he := h'.condition
      rw [hk, h.condition] at he
      rw [show (e.join e').key = e.key from rfl, he, Effect.join]
      rcases hc with hc | hc <;> simp [hc] }

end Effect

/-- Inventory and manifest tell the same about the condition of a key, as far as `agree` looks. -/
def Run.Agrees (agree : Option Condition → Option Condition → Prop) (s : Run) (k : Key) : Prop :=
  agree (s.inventory.condition? k) (Manifest.findCondition s.manifest.conditions k.conditionType)

private theorem Effect.Holds.agrees {agree : Option Condition → Option Condition → Prop}
    (hrefl : ∀ x, agree x x) {e : Effect} {s s' : Run} {k : Key} (h : e.Holds s s')
    (hs : s.Agrees agree k)
    (hk : e.condition ≠ none → e.key.conditionType = k.conditionType → e.key = k) :
    s'.Agrees agree k := by
  rw [Run.Agrees, h.conditions]
  by_cases he : k = e.key
  · subst he
    rw [h.condition, Effect.findCondition_storeIn_self h.typeName]
    cases e.condition with
    | none => exact hs
    | some x => exact hrefl x
  · rw [h.condition?_of_ne he]
    by_cases hc : e.condition = none
    · rw [Effect.storeIn, hc]
      exact hs
    · rw [Effect.findCondition_storeIn_of_ne h.typeName]
      · exact hs
      · intro ht
        exact he (hk hc ht.symm).symm

/-- The effects lead, in turn, from one state to the other. -/
inductive Trace : List Effect → Run → Run → Prop where
  | nil (s : Run) : Trace [] s s
  | cons {e : Effect} {es : List Effect} {s s' s'' : Run} :
      e.Holds s s' → Trace es s' s'' → Trace (e :: es) s s''

namespace Trace

variable {es es' : List Effect} {s s' s'' : Run} {id : Ref} {t : String} {k : Key}

theorem append (h : Trace es s s') (h' : Trace es' s' s'') : Trace (es ++ es') s s'' := by
  induction h with
  | nil s => exact h'
  | cons head _ ih => exact .cons head (ih h')

theorem split (h : Trace (es ++ es') s s'') : ∃ s', Trace es s s' ∧ Trace es' s' s'' := by
  induction es generalizing s with
  | nil => exact ⟨s, .nil s, h⟩
  | cons e es ih =>
    cases h with
    | cons head tail =>
      obtain ⟨s', hes, hes'⟩ := ih tail
      exact ⟨s', .cons head hes, hes'⟩

theorem controller (h : Trace es s s') : s'.controller = s.controller := by
  induction h with
  | nil s => rfl
  | cons head _ ih => exact ih.trans head.controller

theorem source (h : Trace es s s') : s'.manifest.source = s.manifest.source := by
  induction h with
  | nil s => rfl
  | cons head _ ih => exact ih.trans head.source

section Items

theorem identities_prefix (h : Trace es s s') :
    s.batch.items.map Resource.identity <+: s'.batch.items.map Resource.identity := by
  induction h with
  | nil s => exact List.prefix_refl _
  | cons head _ ih => exact head.identities_prefix.trans ih

theorem nodup (h : Trace es s s') (hn : (s.batch.items.map Resource.identity).Nodup) :
    (s'.batch.items.map Resource.identity).Nodup := by
  induction h with
  | nil s => exact hn
  | cons head _ ih => exact ih (head.nodup hn)

/-- If all that is written at an identity is written at one key, the effects at this key make the
item. -/
theorem itemAt_of_keyed (h : Trace es s s')
    (hk : ∀ e ∈ es, ∀ r, e.item = some r → r.identity = id → e.key = k) :
    Batch.itemAt s'.batch.items id = (es.filter fun e => e.key == k).foldl
      (fun old e => e.itemAfter id old) (Batch.itemAt s.batch.items id) := by
  induction h with
  | nil s => rfl
  | cons head _ ih =>
    rename_i e es _ _ _ _
    rw [ih fun e' he' => hk e' (List.mem_cons_of_mem _ he'), head.itemAt]
    by_cases he : e.key = k
    · rw [List.filter_cons_of_pos (by simpa using he), List.foldl_cons]
    · rw [List.filter_cons_of_neg (by simpa using he), Effect.itemAfter]
      split
      · rfl
      · rename_i r hr
        rw [if_neg fun hid => he (hk e List.mem_cons_self r hr hid)]

theorem itemAt_of_untouched (h : Trace es s s')
    (hn : ∀ e ∈ es, ∀ r, e.item = some r → r.identity ≠ id) :
    Batch.itemAt s'.batch.items id = Batch.itemAt s.batch.items id := by
  induction h with
  | nil s => rfl
  | cons head _ ih =>
    rename_i e es _ _ _ _
    have he (old : Option Resource) : e.itemAfter id old = old := by
      rw [Effect.itemAfter]
      split
      · rfl
      · rename_i r hr
        exact if_neg (hn e List.mem_cons_self r hr)
    rw [ih fun e' he' => hn e' (List.mem_cons_of_mem _ he'), head.itemAt, he]

/-- The last resource that is written at an identity shows. -/
theorem itemAt_of_touched (h : Trace es s s')
    (ht : ∃ e ∈ es, ∃ r, e.item = some r ∧ r.identity = id) :
    ∃ e ∈ es, ∃ r, e.item = some r ∧ r.identity = id ∧
      ∃ old, Batch.itemAt s'.batch.items id = some (Batch.merged old r) := by
  induction h with
  | nil s =>
    obtain ⟨e, he, -⟩ := ht
    cases he
  | cons head tail ih =>
    rename_i e es _ _ _
    by_cases hrest : ∃ e' ∈ es, ∃ r, e'.item = some r ∧ r.identity = id
    · obtain ⟨e', he', rest⟩ := ih hrest
      exact ⟨e', List.mem_cons_of_mem _ he', rest⟩
    · obtain ⟨e', he', r, hr, hid⟩ := ht
      rcases List.mem_cons.1 he' with rfl | he'
      · refine ⟨e', List.mem_cons_self, r, hr, hid, ?_⟩
        rw [tail.itemAt_of_untouched, head.itemAt, Effect.itemAfter, hr]
        · exact ⟨_, if_pos hid⟩
        · intro e₁ he₁ r₁ hr₁ hid₁
          exact hrest ⟨e₁, he₁, r₁, hr₁, hid₁⟩
      · exact absurd ⟨e', he', r, hr, hid⟩ hrest

private theorem objectsWritten_le (h : Trace es s s') :
    s.report.objectsWritten ≤ s'.report.objectsWritten := by
  induction h with
  | nil s => exact Nat.le_refl _
  | cons head _ ih =>
    have hle := head.objectsWritten
    omega

/-- When nothing counts as written then every write found what it brings. -/
theorem itemAt_of_objectsWritten_eq (h : Trace es s s')
    (ho : s'.report.objectsWritten = s.report.objectsWritten) :
    ∀ e ∈ es, ∀ r, e.item = some r → Batch.itemAt s.batch.items r.identity =
      some (Batch.merged (Batch.itemAt s.batch.items r.identity) r) := by
  induction h with
  | nil s => simp
  | cons head tail ih =>
    rename_i e es s s' _
    have hle := tail.objectsWritten_le
    have hstep := head.objectsWritten
    have hsame : (e.writeTo s.batch).2 = false := by
      cases hw : (e.writeTo s.batch).2 with
      | false => rfl
      | true =>
        rw [hw, Bool.toNat_true] at hstep
        omega
    have hitems : s'.batch.items = s.batch.items := by
      rw [head.items]
      rw [Effect.writeTo] at hsame ⊢
      split
      · rfl
      · rename_i r hr
        rw [hr] at hsame
        rw [Batch.write_eq_of_unchanged hsame]
    have ho' : s'.report.objectsWritten = s.report.objectsWritten := by
      rw [hsame, Bool.toNat_false] at hstep
      omega
    intro e' he' r hr
    rcases List.mem_cons.1 he' with rfl | he'
    · have hafter := head.itemAt r.identity
      rw [hitems, Effect.itemAfter, hr] at hafter
      simpa using hafter
    · rw [← hitems]
      exact ih (by omega) e' he' r hr

end Items

section Conditions

theorem findCondition_of_untouched (h : Trace es s s')
    (hn : ∀ e ∈ es, e.condition ≠ none → e.key.conditionType ≠ t) :
    Manifest.findCondition s'.manifest.conditions t =
      Manifest.findCondition s.manifest.conditions t := by
  induction h with
  | nil s => rfl
  | cons head _ ih =>
    rename_i e es _ _ _ _
    rw [ih fun e' he' => hn e' (List.mem_cons_of_mem _ he'), head.conditions]
    by_cases hc : e.condition = none
    · rw [Effect.storeIn, hc]
    · exact Effect.findCondition_storeIn_of_ne head.typeName _
        (Ne.symm (hn e List.mem_cons_self hc))

/-- If all that is put and dropped under the type of a key is so at the key itself, the effects at this
key make the condition. -/
theorem findCondition_of_keyed (h : Trace es s s')
    (hk : ∀ e ∈ es, e.condition ≠ none → e.key.conditionType = k.conditionType → e.key = k) :
    Manifest.findCondition s'.manifest.conditions k.conditionType =
      (es.filter fun e => e.key == k).foldl (fun old e => e.condition.getD old)
        (Manifest.findCondition s.manifest.conditions k.conditionType) := by
  induction h with
  | nil s => rfl
  | cons head _ ih =>
    rename_i e es _ _ _ _
    rw [ih fun e' he' => hk e' (List.mem_cons_of_mem _ he'), head.conditions]
    by_cases he : e.key = k
    · subst he
      rw [List.filter_cons_of_pos (by simp), List.foldl_cons,
        Effect.findCondition_storeIn_self head.typeName]
    · rw [List.filter_cons_of_neg (by simpa using he)]
      by_cases hc : e.condition = none
      · rw [Effect.storeIn, hc]
      · rw [Effect.findCondition_storeIn_of_ne head.typeName]
        exact fun ht => he (hk e List.mem_cons_self hc ht.symm)

theorem conditions_of_untouched (h : Trace es s s') (test : String → Bool)
    (hn : ∀ e ∈ es, e.condition ≠ none → test e.key.conditionType = false) :
    s'.manifest.conditions.filter (fun x => test x.typeName) =
      s.manifest.conditions.filter fun x => test x.typeName := by
  induction h with
  | nil s => rfl
  | cons head _ ih =>
    rename_i e es _ _ _ _
    rw [ih fun e' he' => hn e' (List.mem_cons_of_mem _ he'), head.conditions]
    by_cases hc : e.condition = none
    · rw [Effect.storeIn, hc]
    · exact Effect.filter_storeIn head.typeName _ (hn e List.mem_cons_self hc)

/-- The last condition that is put or dropped under a type shows. -/
theorem findCondition_of_touched (h : Trace es s s')
    (ht : ∃ e ∈ es, e.condition ≠ none ∧ e.key.conditionType = t) :
    ∃ e ∈ es, e.key.conditionType = t ∧
      e.condition = some (Manifest.findCondition s'.manifest.conditions t) := by
  induction h with
  | nil s =>
    obtain ⟨e, he, -⟩ := ht
    cases he
  | cons head tail ih =>
    rename_i e es _ _ _
    by_cases hrest : ∃ e' ∈ es, e'.condition ≠ none ∧ e'.key.conditionType = t
    · obtain ⟨e', he', hlast⟩ := ih hrest
      exact ⟨e', List.mem_cons_of_mem _ he', hlast⟩
    · obtain ⟨e', he', hc, rfl⟩ := ht
      rcases List.mem_cons.1 he' with rfl | he'
      · refine ⟨e', List.mem_cons_self, rfl, ?_⟩
        have hkeep := tail.findCondition_of_untouched (t := e'.key.conditionType)
          fun e₁ he₁ hc₁ heq => hrest ⟨e₁, he₁, hc₁, heq⟩
        rw [hkeep, head.conditions, Effect.findCondition_storeIn_self head.typeName]
        obtain ⟨x, hx⟩ := Option.ne_none_iff_exists'.1 hc
        rw [hx, Option.getD_some]
      · exact absurd ⟨e', he', hc, rfl⟩ hrest

end Conditions

section Inventory

theorem find?_of_untouched (h : Trace es s s') (hn : ∀ e ∈ es, e.key ≠ k) :
    s'.inventory.find? k = s.inventory.find? k := by
  induction h with
  | nil s => rfl
  | cons head _ ih =>
    rename_i e es _ _ _ _
    rw [ih fun e' he' => hn e' (List.mem_cons_of_mem _ he'),
      head.elsewhere k (Ne.symm (hn e List.mem_cons_self))]

theorem condition?_of_untouched (h : Trace es s s')
    (hn : ∀ e ∈ es, e.key = k → e.condition = none) :
    s'.inventory.condition? k = s.inventory.condition? k := by
  induction h with
  | nil s => rfl
  | cons head _ ih =>
    rename_i e es _ _ _ _
    rw [ih fun e' he' => hn e' (List.mem_cons_of_mem _ he')]
    by_cases hk : k = e.key
    · subst hk
      rw [head.condition, hn e List.mem_cons_self rfl]
      rfl
    · exact head.condition?_of_ne hk

theorem existing?_of_untouched (h : Trace es s s') (hn : ∀ e ∈ es, e.key = k → e.item = none) :
    s'.inventory.existing? k = s.inventory.existing? k := by
  induction h with
  | nil s => rfl
  | cons head _ ih =>
    rename_i e es _ _ _ _
    rw [ih fun e' he' => hn e' (List.mem_cons_of_mem _ he')]
    by_cases hk : k = e.key
    · subst hk
      rw [head.existing, hn e List.mem_cons_self rfl]
      rfl
    · exact head.existing?_of_ne hk

theorem condition?_of_touched (h : Trace es s s')
    (ht : ∃ e ∈ es, e.key = k ∧ e.condition ≠ none) :
    ∃ e ∈ es, e.key = k ∧ e.condition = some (s'.inventory.condition? k) := by
  induction h with
  | nil s =>
    obtain ⟨e, he, -⟩ := ht
    cases he
  | cons head tail ih =>
    rename_i e es _ _ _
    by_cases hrest : ∃ e' ∈ es, e'.key = k ∧ e'.condition ≠ none
    · obtain ⟨e', he', hlast⟩ := ih hrest
      exact ⟨e', List.mem_cons_of_mem _ he', hlast⟩
    · obtain ⟨e', he', rfl, hc⟩ := ht
      rcases List.mem_cons.1 he' with rfl | he'
      · refine ⟨e', List.mem_cons_self, rfl, ?_⟩
        obtain ⟨x, hx⟩ := Option.ne_none_iff_exists'.1 hc
        rw [tail.condition?_of_untouched fun e₁ he₁ hk => ?_, head.condition, hx, Option.getD_some]
        exact Classical.not_not.1 fun hc₁ => hrest ⟨e₁, he₁, hk, hc₁⟩
      · exact absurd ⟨e', he', rfl, hc⟩ hrest

theorem existing?_of_touched (h : Trace es s s')
    (ht : ∃ e ∈ es, e.key = k ∧ e.item ≠ none) :
    ∃ e ∈ es, e.key = k ∧ e.item ≠ none ∧ s'.inventory.existing? k = e.item := by
  induction h with
  | nil s =>
    obtain ⟨e, he, -⟩ := ht
    cases he
  | cons head tail ih =>
    rename_i e es _ _ _
    by_cases hrest : ∃ e' ∈ es, e'.key = k ∧ e'.item ≠ none
    · obtain ⟨e', he', hlast⟩ := ih hrest
      exact ⟨e', List.mem_cons_of_mem _ he', hlast⟩
    · obtain ⟨e', he', rfl, hi⟩ := ht
      rcases List.mem_cons.1 he' with rfl | he'
      · refine ⟨e', List.mem_cons_self, rfl, hi, ?_⟩
        obtain ⟨r, hr⟩ := Option.ne_none_iff_exists'.1 hi
        rw [tail.existing?_of_untouched fun e₁ he₁ hk => ?_, head.existing, hr, Option.some_or]
        exact Classical.not_not.1 fun hi₁ => hrest ⟨e₁, he₁, hk, hi₁⟩
      · exact absurd ⟨e', he', rfl, hi⟩ hrest

theorem mem_failed (h : Trace es s s') (o : Ref) : o ∈ s'.failed ↔
    o ∈ s.failed ∨ ∃ e ∈ es, e.rejected = true ∧ o = e.key.parent := by
  induction h with
  | nil s => simp
  | cons head _ ih => simp [ih, head.failed, or_assoc]

/-- Agreement of inventory and manifest lasts as long as no condition is put or dropped under the type
at another key. -/
theorem agrees {agree : Option Condition → Option Condition → Prop} (hrefl : ∀ x, agree x x)
    (h : Trace es s s') (hs : s.Agrees agree k)
    (hn : ∀ e ∈ es, e.condition ≠ none → e.key.conditionType = k.conditionType → e.key = k) :
    s'.Agrees agree k := by
  induction h with
  | nil s => exact hs
  | cons head _ ih =>
    rename_i e es _ _ _ _
    exact ih (head.agrees hrefl hs (hn e List.mem_cons_self))
      fun e' he' => hn e' (List.mem_cons_of_mem _ he')

end Inventory

end Trace

end Reconciler
