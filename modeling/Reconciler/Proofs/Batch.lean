import Reconciler.Proofs.Resource

/-! The batch as a map from identities to items: what a write does to the item of each identity, and
that it neither removes nor reorders anything. -/
namespace Reconciler

namespace Batch

variable {r old : Resource} {id : Ref}

def itemAt (items : List Resource) (id : Ref) : Option Resource :=
  items.find? fun item => item.identity == id

theorem itemAt_eq_some {items : List Resource} {item : Resource}
    (h : itemAt items id = some item) : item ∈ items ∧ item.identity = id := by
  have hid := List.find?_some (p := fun item : Resource => item.identity == id) h
  exact ⟨List.mem_of_find?_eq_some h, beq_iff_eq.1 hid⟩

theorem itemAt_eq_none {items : List Resource} :
    itemAt items id = none ↔ ∀ item ∈ items, item.identity ≠ id := by
  simp [itemAt, List.find?_eq_none]

private theorem itemAt_of_split {before after : List Resource}
    (hb : ∀ item ∈ before, item.identity ≠ id) (hid : old.identity = id) :
    itemAt (before ++ old :: after) id = some old := by
  have hbefore : before.find? (fun item => item.identity == id) = none := by
    simpa using hb
  simp [itemAt, List.find?_append, hbefore, hid]

theorem identity_eq_iff (a b : Resource) : a.identity = b.identity ↔
    a.apiVersion = b.apiVersion ∧ a.kind = b.kind ∧ a.name = b.name := by
  simp [Resource.identity, Resource.coordinate, Coordinate.named, and_assoc]

theorem position?_reference (b : Batch) (r : Resource) :
    b.position? r.reference = b.items.findIdx? fun item => item.identity == r.identity := by
  have hp : (fun item : Resource => item.apiVersion == r.reference.apiVersion &&
      item.kind == r.reference.kind && item.name == r.reference.name) =
      fun item => item.identity == r.identity := by
    funext item
    rw [Bool.eq_iff_iff]
    simp [identity_eq_iff, Resource.reference, Resource.coordinate, and_assoc]
  rw [position?, hp]

private theorem position?_eq_none {b : Batch} (h : ∀ item ∈ b.items, item.identity ≠ r.identity) :
    b.position? r.reference = none := by
  rw [position?_reference, List.findIdx?_eq_none_iff]
  simpa using h

theorem position?_of_split {b : Batch} {before after : List Resource}
    (hi : b.items = before ++ old :: after) (hb : ∀ item ∈ before, item.identity ≠ r.identity)
    (hid : old.identity = r.identity) : b.position? r.reference = some before.length := by
  rw [position?_reference, hi, List.findIdx?_append, List.findIdx?_eq_none_iff.2]
  · simp [List.findIdx?_cons, hid]
  · simpa using hb

/-! Keeping the namespace. -/

private theorem keepSpace_cases (old r : Resource) : keepSpace old r = r ∨
    r.space = none ∧ ∃ space, old.space = some space ∧
      r.set ["metadata", "namespace"] (.string space) = .ok (keepSpace old r) := by
  rw [keepSpace]
  split
  · rename_i space hr ho
    split
    · rename_i r' h
      exact .inr ⟨hr, space, ho, h⟩
    · exact .inl rfl
  · exact .inl rfl

theorem keepSpace_of_space_eq (h : old.space = r.space) : keepSpace old r = r := by
  rcases keepSpace_cases old r with he | ⟨hr, space, ho, -⟩
  · exact he
  · rw [h, hr] at ho
    cases ho

theorem space_keepSpace (old r : Resource) :
    (keepSpace old r).space = r.space ∨ (keepSpace old r).space = old.space := by
  rcases keepSpace_cases old r with he | ⟨-, space, ho, h⟩
  · rw [he]
    exact .inl rfl
  · exact .inr ((Resource.space_of_set h).trans ho.symm)

/-- The namespace can be kept unless the metadata are there and are not a mapping. -/
theorem keepSpace_eq (hr : r.root.isObject = true)
    (hm : (r.get? ["metadata"]).all Document.isObject = true) (old : Resource) :
    match r.space, old.space with
    | none, some space =>
      r.set ["metadata", "namespace"] (.string space) = .ok (keepSpace old r)
    | _, _ => keepSpace old r = r := by
  rw [keepSpace]
  cases r.space with
  | some space => rfl
  | none =>
    cases old.space with
    | none => rfl
    | some space =>
      have hset := Resource.set_pair hr "metadata" "namespace" (.string space)
      rw [if_pos hm] at hset
      obtain ⟨r', hset⟩ := hset
      simp only [hset]

theorem space_keepSpace_of_mapping (hr : r.root.isObject = true)
    (hm : (r.get? ["metadata"]).all Document.isObject = true) (old : Resource) :
    (keepSpace old r).space = r.space.or old.space := by
  have heq := keepSpace_eq hr hm old
  split at heq
  · rename_i space hspace hold
    rw [hspace, hold, Option.none_or, Resource.space_of_set heq]
  · rename_i hnot
    rw [heq]
    cases hspace : r.space with
    | some space => rfl
    | none =>
      cases hold : old.space with
      | none => rfl
      | some space => exact absurd hold (hnot space hspace)

theorem get?_keepSpace (old r : Resource) {q : List String}
    (hq : Document.Diverge ["metadata", "namespace"] q) :
    (keepSpace old r).get? q = r.get? q := by
  rcases keepSpace_cases old r with he | ⟨-, space, -, h⟩
  · rw [he]
  · exact Document.get?_set_of_diverge (Resource.set_eq_ok h) hq

private theorem string?_keepSpace (old r : Resource) {q : List String}
    (hq : Document.Diverge ["metadata", "namespace"] q) :
    (keepSpace old r).string? q = r.string? q := by
  rw [Resource.string?, get?_keepSpace old r hq, Resource.string?]

@[simp] theorem identity_keepSpace (old r : Resource) : (keepSpace old r).identity = r.identity := by
  rw [identity_eq_iff]
  simp only [Resource.apiVersion, Resource.kind, Resource.name,
    string?_keepSpace old r (q := ["apiVersion"]) (by decide),
    string?_keepSpace old r (q := ["kind"]) (by decide),
    string?_keepSpace old r (q := ["metadata", "name"]) (by decide), and_self]

@[simp] theorem annotation?_keepSpace (old r : Resource) (key : String) :
    (keepSpace old r).annotation? key = r.annotation? key :=
  string?_keepSpace old r (by simp [Document.Diverge, List.cons_prefix_cons])

theorem wellFormed_keepSpace (hr : r.root.WellFormed) (old : Resource) :
    (keepSpace old r).root.WellFormed := by
  rcases keepSpace_cases old r with he | ⟨-, space, -, h⟩
  · rwa [he]
  · exact hr.set (v := .string space) trivial (Resource.set_eq_ok h)

/-! Writing. -/

/-- What stands in the batch once `r` is written over an item: the item itself if the two are
alike. -/
def merged : Option Resource → Resource → Resource
  | none, r => r
  | some old, r => if old.root.alike (keepSpace old r).root then old else keepSpace old r

/-- Either the old item is alike and stays, or the new one takes its place. -/
theorem merged_cases (old? : Option Resource) (r : Resource) :
    (old? = none ∧ merged old? r = r) ∨ ∃ old, old? = some old ∧
      ((old.root.alike (keepSpace old r).root = true ∧ merged old? r = old) ∨
        (old.root.alike (keepSpace old r).root = false ∧ merged old? r = keepSpace old r)) := by
  cases old? with
  | none => exact .inl ⟨rfl, rfl⟩
  | some old =>
    refine .inr ⟨old, rfl, ?_⟩
    by_cases ha : old.root.alike (keepSpace old r).root = true
    · exact .inl ⟨ha, if_pos ha⟩
    · exact .inr ⟨by simpa using ha, if_neg ha⟩

private theorem keepSpace_keepSpace (old r : Resource) :
    keepSpace (keepSpace old r) r = keepSpace old r := by
  rcases keepSpace_cases old r with he | ⟨hr, space, -, h⟩
  · rw [he, keepSpace_of_space_eq rfl]
  · rw [keepSpace]
    simp only [hr, Resource.space_of_set h, h]

/-- Writing a resource again finds what the first write has left. -/
theorem merged_merged (old? : Option Resource) (r : Resource) :
    merged (some (merged old? r)) r = merged old? r := by
  rcases merged_cases old? r with ⟨-, he⟩ | ⟨old, -, ⟨ha, he⟩ | ⟨-, he⟩⟩
  · rw [he, merged, keepSpace_of_space_eq rfl, if_pos (Document.alike_refl _)]
  · rw [he, merged, if_pos ha]
  · rw [he, merged, keepSpace_keepSpace, if_pos (Document.alike_refl _)]

@[simp] theorem identity_merged (old? : Option Resource) (r : Resource) :
    (merged old? r).identity = r.identity := by
  rcases merged_cases old? r with ⟨-, he⟩ | ⟨old, -, ⟨ha, he⟩ | ⟨-, he⟩⟩
  · rw [he]
  · rw [he, Resource.identity_alike ha, identity_keepSpace]
  · rw [he, identity_keepSpace]

@[simp] theorem annotation?_merged (old? : Option Resource) (r : Resource) (key : String) :
    (merged old? r).annotation? key = r.annotation? key := by
  rcases merged_cases old? r with ⟨-, he⟩ | ⟨old, -, ⟨ha, he⟩ | ⟨-, he⟩⟩
  · rw [he]
  · rw [he, Resource.annotation?_alike ha, annotation?_keepSpace]
  · rw [he, annotation?_keepSpace]

@[simp] theorem isFlagged_merged (old? : Option Resource) (r : Resource) :
    (merged old? r).isFlagged = r.isFlagged := by
  rw [Resource.isFlagged, annotation?_merged, Resource.isFlagged]

/-- The `spec` that stands in the batch after a write equals the one that was written. -/
theorem subtreeEq_merged {x : Option Document} (hr : r.root.WellFormed)
    (hx : r.subtree "spec" = .ok x) (old? : Option Resource) :
    (merged old? r).subtreeEq r "spec" = .ok true := by
  have hspec (old : Resource) : (keepSpace old r).get? ["spec"] = r.get? ["spec"] :=
    get?_keepSpace old r (by decide)
  rcases merged_cases old? r with ⟨-, he⟩ | ⟨old, -, ⟨ha, he⟩ | ⟨-, he⟩⟩
  · rw [he]
    exact Resource.subtreeEq_self hr hx
  · rw [he]
    exact Resource.subtreeEq_congr_right (hspec old).symm
      (Resource.subtreeEq_of_alike (wellFormed_keepSpace hr old) ha
        (Resource.subtree_congr (hspec old) hx))
  · rw [he]
    exact Resource.subtreeEq_congr (hspec old) (Resource.subtreeEq_self hr hx)

/-- A write appends, or it replaces the first item of its identity. -/
theorem write_cases (b : Batch) (r : Resource) :
    ((∀ item ∈ b.items, item.identity ≠ r.identity) ∧
      b.write r = ({ b with items := b.items ++ [r] }, true)) ∨
    ∃ before old after, b.items = before ++ old :: after ∧
      (∀ item ∈ before, item.identity ≠ r.identity) ∧ old.identity = r.identity ∧
      b.write r = if old.root.alike (keepSpace old r).root then (b, false)
        else ({ b with items := before ++ keepSpace old r :: after }, true) := by
  cases h : b.items.find? fun item => item.identity == r.identity with
  | none =>
    have hn := itemAt_eq_none.1 h
    exact .inl ⟨hn, by rw [write, position?_eq_none hn]⟩
  | some old =>
    obtain ⟨hid, before, after, hi, hb⟩ := List.find?_eq_some_iff_append.1 h
    have hb : ∀ item ∈ before, item.identity ≠ r.identity := by simpa using hb
    have hid : old.identity = r.identity := by simpa using hid
    refine .inr ⟨before, old, after, hi, hb, hid, ?_⟩
    rw [write, position?_of_split hi hb hid]
    simp [hi]

theorem write_congr {b b' : Batch} (h : b.items = b'.items) (r : Resource) :
    (b.write r).1.items = (b'.write r).1.items ∧ (b.write r).2 = (b'.write r).2 := by
  have hp : b.position? r.reference = b'.position? r.reference := by
    rw [position?, position?, h]
  rw [write, write, hp, h]
  split
  · exact ⟨rfl, rfl⟩
  · simp only
    split
    · exact ⟨h, rfl⟩
    · exact ⟨rfl, rfl⟩

theorem itemAt_write_self (b : Batch) (r : Resource) :
    itemAt (b.write r).1.items r.identity = some (merged (itemAt b.items r.identity) r) := by
  rcases write_cases b r with ⟨hn, hw⟩ | ⟨before, old, after, hi, hb, hid, hw⟩
  · have hnone := itemAt_eq_none.2 hn
    rw [hw, hnone]
    rw [itemAt] at hnone
    simp [itemAt, merged, List.find?_append, hnone]
  · have hold : itemAt b.items r.identity = some old := hi ▸ itemAt_of_split hb hid
    rw [hold, hw, merged]
    split
    · exact hold
    · exact itemAt_of_split hb (identity_keepSpace old r)

theorem itemAt_write_of_ne (b : Batch) (h : id ≠ r.identity) :
    itemAt (b.write r).1.items id = itemAt b.items id := by
  rcases write_cases b r with ⟨-, hw⟩ | ⟨before, old, after, hi, -, hid, hw⟩
  · rw [hw]
    simp [itemAt, List.find?_append, Ne.symm h]
  · rw [hw]
    split
    · rfl
    · simp only [itemAt, hi, List.find?_append, List.find?_cons, identity_keepSpace, hid,
        beq_eq_false_iff_ne.2 (Ne.symm h)]

/-- Nothing is added where the identity is there. -/
theorem identities_write_eq (b : Batch) (r : Resource) :
    (b.write r).1.items.map Resource.identity =
      if r.identity ∈ b.items.map Resource.identity then b.items.map Resource.identity
      else b.items.map Resource.identity ++ [r.identity] := by
  rcases write_cases b r with ⟨hn, hw⟩ | ⟨before, old, after, hi, -, hid, hw⟩
  · have hnot : r.identity ∉ b.items.map Resource.identity := by
      rintro hm
      obtain ⟨item, hitem, he⟩ := List.mem_map.1 hm
      exact hn item hitem he
    rw [if_neg hnot, hw]
    simp
  · have hmem : r.identity ∈ b.items.map Resource.identity := by
      rw [hi, ← hid]
      simp
    rw [if_pos hmem, hw]
    split
    · rfl
    · simp [hi, hid]

/-- A write keeps the identity of every item, in order, and adds at most a new one at the end. -/
theorem identities_write (b : Batch) (r : Resource) :
    (b.write r).1.items.map Resource.identity = b.items.map Resource.identity ∨
      r.identity ∉ b.items.map Resource.identity ∧
      (b.write r).1.items.map Resource.identity = b.items.map Resource.identity ++ [r.identity] := by
  rw [identities_write_eq]
  by_cases hm : r.identity ∈ b.items.map Resource.identity
  · exact .inl (if_pos hm)
  · exact .inr ⟨hm, if_neg hm⟩

theorem identities_prefix_write (b : Batch) (r : Resource) :
    b.items.map Resource.identity <+: (b.write r).1.items.map Resource.identity := by
  rcases identities_write b r with h | ⟨-, h⟩
  · exact ⟨[], by rw [List.append_nil, h]⟩
  · exact ⟨_, h.symm⟩

theorem nodup_write {b : Batch} (h : (b.items.map Resource.identity).Nodup) (r : Resource) :
    ((b.write r).1.items.map Resource.identity).Nodup := by
  rcases identities_write b r with he | ⟨hn, he⟩
  · rwa [he]
  · rw [he]
    refine List.nodup_append.2 ⟨h, by simp, ?_⟩
    rintro a ha _ hb rfl
    rw [List.mem_singleton] at hb
    exact hn (hb ▸ ha)

theorem write_of_merged {b : Batch} (h : itemAt b.items r.identity = some old)
    (hm : merged (some old) r = old) : b.write r = (b, false) := by
  have ha : old.root.alike (keepSpace old r).root = true := by
    rw [merged] at hm
    split at hm
    · rename_i ha
      exact ha
    · rw [hm]
      exact Document.alike_refl _
  rcases write_cases b r with ⟨hn, -⟩ | ⟨before, old', after, hi, hb, hid, hw⟩
  · rw [itemAt_eq_none.2 hn] at h
    cases h
  · have hold : itemAt b.items r.identity = some old' := hi ▸ itemAt_of_split hb hid
    rw [h] at hold
    cases hold
    rw [hw, if_pos ha]

/-- A resource that was written is there already when it is written again. -/
theorem write_write (b : Batch) (r : Resource) : (b.write r).1.write r = ((b.write r).1, false) :=
  write_of_merged (itemAt_write_self b r) (merged_merged _ r)

theorem write_eq_of_unchanged {b : Batch} (h : (b.write r).2 = false) : (b.write r).1 = b := by
  rcases write_cases b r with ⟨-, hw⟩ | ⟨before, old, after, -, -, -, hw⟩
  · rw [hw] at h
    cases h
  · rw [hw] at h ⊢
    split
    · rfl
    · rename_i ha
      rw [if_neg ha] at h
      cases h

theorem itemAt_of_mem {items : List Resource} (h : (items.map Resource.identity).Nodup)
    {item : Resource} (hi : item ∈ items) : itemAt items item.identity = some item := by
  obtain ⟨before, after, rfl⟩ := List.append_of_mem hi
  rw [List.map_append, List.nodup_append] at h
  exact itemAt_of_split (fun x hx => h.2.2 _ (List.mem_map_of_mem hx) _ (by simp)) rfl

/-- With distinct identities there is at most one item of each. -/
theorem filter_identity {items : List Resource} (h : (items.map Resource.identity).Nodup)
    {item : Resource} (hi : itemAt items id = some item) :
    items.filter (fun x => x.identity == id) = [item] := by
  obtain ⟨hm, rfl⟩ := itemAt_eq_some hi
  exact SortedMap.filter_of_nodup_map h hm

end Batch

end Reconciler
