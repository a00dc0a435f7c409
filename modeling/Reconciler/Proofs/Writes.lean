import Reconciler.Proofs.Batch

/-! Writing one resource after another into a batch. Nothing is removed or reordered, and an item
changes only where something with its identity is written. -/
namespace Reconciler.Batch

variable {P Q R : Resource → Prop} {items items' items'' : List Resource} {b : Batch}
  {r old : Resource} {i : Nat}

/-- A write leaves the item at a position alone, or brings a resource with its identity there, if it
is the first item with this identity. -/
theorem getElem?_write (hi : b.items[i]? = some old) (r : Resource) :
    (b.write r).1.items[i]? = some old ∨
      r.identity = old.identity ∧ (b.write r).1.items[i]? = some (keepSpace old r) ∧
        ∀ j x, j < i → b.items[j]? = some x → x.identity ≠ r.identity := by
  rcases write_cases b r with ⟨-, hw⟩ | ⟨before, first, after, hb, hnone, hid, hw⟩
  · left
    rw [hw, List.getElem?_append_left (List.getElem?_eq_some_iff.1 hi).1, hi]
  · rw [hw]
    split
    · exact .inl hi
    · rw [hb] at hi
      by_cases hfirst : i = before.length
      · subst hfirst
        have hold : first = old := by simpa using hi
        subst hold
        refine .inr ⟨hid.symm, by simp, fun j x hj hx => hnone x ?_⟩
        rw [hb, List.getElem?_append_left hj] at hx
        exact List.mem_of_getElem? hx
      · left
        rw [← hi]
        rcases Nat.lt_or_gt_of_ne hfirst with hlt | hgt
        · rw [List.getElem?_append_left hlt, List.getElem?_append_left hlt]
        · obtain ⟨n, rfl⟩ := Nat.exists_eq_add_of_lt hgt
          simp [List.getElem?_append_right, Nat.add_assoc]

/-- A write takes the first place of its identity. -/
theorem items_write_first {j : Nat} (hj : b.items[j]? = some old) (hid : old.identity = r.identity)
    (hfirst : ∀ (i : Nat) x, i < j → b.items[i]? = some x → x.identity ≠ r.identity) :
    (b.write r).1.items = b.items.set j (merged (some old) r) := by
  obtain ⟨hlt, hget⟩ := List.getElem?_eq_some_iff.1 hj
  have hposition : b.position? r.reference = some j := by
    rw [position?_reference, List.findIdx?_eq_some_iff_getElem]
    refine ⟨hlt, by simp [hget, hid], fun i hi => ?_⟩
    simpa using hfirst i _ hi (List.getElem?_eq_getElem (by omega))
  rw [write, hposition, merged]
  simp only [hj, Option.getD_some]
  split
  · rw [← hget, List.set_getElem_self]
  · rfl

/-- Resources of one kind are written, in turn. -/
inductive Written (P : Resource → Prop) (items : List Resource) : List Resource → Prop where
  | refl : Written P items items
  | write {b : Batch} {r : Resource} :
      Written P items b.items → P r → Written P items (b.write r).1.items

namespace Written

theorem trans (h : Written P items items') (h' : Written P items' items'') :
    Written P items items'' := by
  induction h' with
  | refl => exact h
  | write _ hr ih => exact .write ih hr

theorem mono (hPQ : ∀ r, P r → Q r) (h : Written P items items') : Written Q items items' := by
  induction h with
  | refl => exact .refl
  | write _ hr ih => exact .write ih (hPQ _ hr)

/-- What holds of the item at a position lasts, as long as the writes at its identity keep it. -/
theorem getElem? (h : Written P items items') (hi : items[i]? = some r) (hr : R r)
    (hstep : ∀ old new, R old → P new → new.identity = old.identity → R (keepSpace old new)) :
    ∃ r', items'[i]? = some r' ∧ R r' := by
  induction h with
  | refl => exact ⟨r, hi, hr⟩
  | @write b new _ hnew ih =>
    obtain ⟨old, hold, hR⟩ := ih
    rcases getElem?_write hold new with hsame | ⟨hid, hput, -⟩
    · exact ⟨old, hsame, hR⟩
    · exact ⟨_, hput, hstep old new hR hnew hid⟩

/-- An item stays as it is unless something with its identity is written. -/
theorem getElem?_of_ne (h : Written P items items') (hi : items[i]? = some r)
    (hne : ∀ new, P new → new.identity ≠ r.identity) : items'[i]? = some r := by
  obtain ⟨r', hi', rfl⟩ := h.getElem? (R := (· = r)) hi rfl fun old new hold hnew hid =>
    absurd (hold ▸ hid) (hne new hnew)
  exact hi'

/-- An item that comes after another one with its identity stays as it is. -/
theorem getElem?_of_later {j : Nat} {x : Resource} (h : Written P items items')
    (hi : items[i]? = some r) (hj : j < i) (hx : items[j]? = some x)
    (hid : x.identity = r.identity) : items'[i]? = some r := by
  induction h with
  | refl => exact hi
  | @write b new hb _ ih =>
    rcases getElem?_write ih new with hsame | ⟨hnew, -, hfirst⟩
    · exact hsame
    · obtain ⟨x', hx', hid'⟩ := hb.getElem? (R := (·.identity = r.identity)) hx hid
        fun old new hold _ hno => by rw [identity_keepSpace, hno, hold]
      exact absurd (hid'.trans hnew.symm) (hfirst j x' hj hx')

/-- Every position keeps its identity. What is appended has an identity of its own. -/
theorem identities (h : Written P items items') : ∃ added,
    items'.map Resource.identity = items.map Resource.identity ++ added ∧ added.Nodup ∧
      (∀ id ∈ added, id ∉ items.map Resource.identity) ∧ ∀ id ∈ added, ∃ r, P r ∧ r.identity = id := by
  induction h with
  | refl => exact ⟨[], by simp⟩
  | @write b r _ hr ih =>
    obtain ⟨added, hitems, hn, hnew, hP⟩ := ih
    rcases identities_write b r with hsame | ⟨hmem, happend⟩
    · exact ⟨added, hsame.trans hitems, hn, hnew, hP⟩
    · rw [hitems, List.mem_append, not_or] at hmem
      refine ⟨added ++ [r.identity], by rw [happend, hitems, List.append_assoc], ?_, ?_, ?_⟩
      · refine List.nodup_append.2 ⟨hn, by simp, ?_⟩
        rintro id hid _ hr rfl
        exact hmem.2 (List.mem_singleton.1 hr ▸ hid)
      · intro id hid
        rcases List.mem_append.1 hid with hid | hid
        · exact hnew id hid
        · exact List.mem_singleton.1 hid ▸ hmem.1
      · intro id hid
        rcases List.mem_append.1 hid with hid | hid
        · exact hP id hid
        · exact ⟨r, hr, (List.mem_singleton.1 hid).symm⟩

/-- What stands behind the old items has an identity that was written. -/
theorem getElem?_of_none (h : Written P items items') (hi : items[i]? = none)
    (hi' : items'[i]? = some r) : ∃ new, P new ∧ new.identity = r.identity := by
  obtain ⟨added, hitems, -, -, hadded⟩ := h.identities
  have hid : (items'.map Resource.identity)[i]? = some r.identity := by simp [hi']
  rw [hitems, List.getElem?_append_right (by simpa using hi)] at hid
  exact hadded _ (List.mem_of_getElem? hid)

theorem identities_eq (h : Written P items items')
    (hP : ∀ r, P r → r.identity ∈ items.map Resource.identity) :
    items'.map Resource.identity = items.map Resource.identity := by
  obtain ⟨added, hitems, -, hnew, hadded⟩ := h.identities
  have hnil : added = [] := by
    rw [List.eq_nil_iff_forall_not_mem]
    intro id hid
    obtain ⟨r, hr, rfl⟩ := hadded id hid
    exact hnew _ hid (hP r hr)
  rw [hitems, hnil, List.append_nil]

end Written

end Reconciler.Batch
