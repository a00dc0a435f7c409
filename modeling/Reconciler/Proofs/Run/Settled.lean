import Reconciler.Proofs.Run.Effect

/-! Effects that find done what they would do. A trace of such effects changes nothing, and a trace
whose writes at one identity all bring the same leaves just that. -/
namespace Reconciler

variable {e : Effect} {es : List Effect} {s s' : Run} {id : Ref} {r : Resource}

namespace Effect

def Written (e : Effect) (items : List Resource) : Prop :=
  ∀ r, e.item = some r → ∃ old, Batch.itemAt items r.identity = some old ∧
    Batch.merged (some old) r = old

/-- The condition that the effect puts is there already, and the one that it drops is not. -/
def Stored (e : Effect) (conditions : List Condition) : Prop :=
  ∀ x, e.condition = some x → Manifest.findCondition conditions e.key.conditionType = x

private theorem Written.writeTo {b : Batch} (h : e.Written b.items) : e.writeTo b = (b, false) := by
  rw [Effect.writeTo]
  split
  · rfl
  · rename_i r hr
    obtain ⟨old, hold, hm⟩ := h r hr
    exact Batch.write_of_merged hold hm

private theorem Stored.storeIn {conditions : List Condition} (h : e.Stored conditions)
    (ht : ∀ x, e.condition = some (some x) → x.typeName = e.key.conditionType) :
    e.storeIn conditions = conditions := by
  rw [Effect.storeIn]
  split
  · rfl
  · rename_i hx
    exact Manifest.dropCondition_of_absent (h none hx)
  · rename_i x hx
    refine Manifest.putCondition_of_find ?_
    rw [ht x hx]
    exact h (some x) hx

end Effect

namespace Trace

/-- Where each resource is there already nothing is written. -/
theorem items_of_written (h : Trace es s s') (hw : ∀ e ∈ es, e.Written s.batch.items) :
    s'.batch.items = s.batch.items ∧ s'.report.objectsWritten = s.report.objectsWritten := by
  induction h with
  | nil s => exact ⟨rfl, rfl⟩
  | cons head tail ih =>
    rename_i e es _ _ _
    have he := (hw e List.mem_cons_self).writeTo
    have hitems := head.items
    have hcount := head.objectsWritten
    rw [he] at hitems hcount
    obtain ⟨hi, ho⟩ := ih fun e' he' => hitems ▸ hw e' (List.mem_cons_of_mem _ he')
    exact ⟨hi.trans hitems, ho.trans hcount⟩

theorem conditions_of_stored (h : Trace es s s')
    (hs : ∀ e ∈ es, e.Stored s.manifest.conditions) :
    s'.manifest.conditions = s.manifest.conditions := by
  induction h with
  | nil s => rfl
  | cons head tail ih =>
    rename_i e es _ _ _
    have hsame := head.conditions.trans ((hs e List.mem_cons_self).storeIn head.typeName)
    exact (ih fun e' he' => hsame ▸ hs e' (List.mem_cons_of_mem _ he')).trans hsame

/-- When all writes at an identity bring the same resource, that one shows. -/
theorem itemAt_of_same (h : Trace es s s')
    (hsame : ∀ e ∈ es, ∀ r', e.item = some r' → r'.identity = id → r' = r)
    (ht : ∃ e ∈ es, e.item = some r ∧ r.identity = id) :
    Batch.itemAt s'.batch.items id = some (Batch.merged (Batch.itemAt s.batch.items id) r) := by
  induction h with
  | nil s =>
    obtain ⟨e, he, -⟩ := ht
    cases he
  | cons head tail ih =>
    rename_i e es s s' _
    have hrest := ih fun e' he' => hsame e' (List.mem_cons_of_mem _ he')
    -- a first write is found again by all later ones
    have hstep : Batch.itemAt s'.batch.items id = Batch.itemAt s.batch.items id ∨
        Batch.itemAt s'.batch.items id =
          some (Batch.merged (Batch.itemAt s.batch.items id) r) := by
      rw [head.itemAt, Effect.itemAfter]
      split
      · exact .inl rfl
      · rename_i r' hr'
        by_cases hid : r'.identity = id
        · rw [if_pos hid, hsame e List.mem_cons_self r' hr' hid]
          exact .inr rfl
        · exact .inl (if_neg hid)
    by_cases hlater : ∃ e' ∈ es, e'.item = some r ∧ r.identity = id
    · rw [hrest hlater]
      rcases hstep with he | he
      · rw [he]
      · rw [he, Batch.merged_merged]
    · obtain ⟨e', he', hr, hid⟩ := ht
      have hfirst : e' = e := (List.mem_cons.1 he').resolve_right fun he => hlater ⟨e', he, hr, hid⟩
      subst hfirst
      rw [tail.itemAt_of_untouched, head.itemAt, Effect.itemAfter, hr]
      · exact if_pos hid
      · intro e₁ he₁ r₁ hr₁ hid₁
        have hr₁' := hsame e₁ (List.mem_cons_of_mem _ he₁) r₁ hr₁ hid₁
        subst hr₁'
        exact hlater ⟨e₁, he₁, hr₁, hid⟩

end Trace

end Reconciler
