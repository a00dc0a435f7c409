import Reconciler.SortedMap

/-! Look-ups against the list of entries: a map holds exactly the entries that are found in it. -/
namespace Reconciler.SortedMap

variable {κ ν : Type} [Ord κ] [Std.LawfulEqOrd κ]

omit [Ord κ] [Std.LawfulEqOrd κ] in
theorem filter_of_nodup_map [BEq κ] [LawfulBEq κ] {f : ν → κ} {l : List ν} (h : (l.map f).Nodup)
    {a : ν} (ha : a ∈ l) : l.filter (fun x => f x == f a) = [a] := by
  obtain ⟨before, after, rfl⟩ := List.append_of_mem ha
  rw [List.map_append, List.map_cons, List.nodup_append, List.nodup_cons] at h
  obtain ⟨-, ⟨hafter, -⟩, hbefore⟩ := h
  have hb : before.filter (fun x => f x == f a) = [] := by
    rw [List.filter_eq_nil_iff]
    intro x hx
    simpa using hbefore _ (List.mem_map_of_mem hx) _ List.mem_cons_self
  have ha : after.filter (fun x => f x == f a) = [] := by
    rw [List.filter_eq_nil_iff]
    intro x hx he
    exact hafter (beq_iff_eq.1 he ▸ List.mem_map_of_mem hx)
  simp [hb, ha]

omit [Ord κ] [Std.LawfulEqOrd κ] in
/-- Where all elements that pass a test have one image and images are distinct, the search from the
end finds each element that passes. -/
theorem find?_reverse_eq_some [BEq κ] [LawfulBEq κ] {f : ν → κ} {l : List ν} (h : (l.map f).Nodup)
    {p : ν → Bool} (hp : ∀ x y, p x = true → p y = true → f x = f y) {a : ν} :
    l.reverse.find? p = some a ↔ a ∈ l ∧ p a = true := by
  constructor
  · intro hf
    exact ⟨List.mem_reverse.1 (List.mem_of_find?_eq_some hf), List.find?_some hf⟩
  · rintro ⟨ha, hpa⟩
    have hsome : (l.reverse.find? p).isSome = true :=
      List.find?_isSome.2 ⟨a, List.mem_reverse.2 ha, hpa⟩
    obtain ⟨x, hx⟩ := Option.isSome_iff_exists.1 hsome
    have hm : x ∈ l.filter fun y => f y == f a :=
      List.mem_filter.2 ⟨List.mem_reverse.1 (List.mem_of_find?_eq_some hx),
        beq_iff_eq.2 (hp x a (List.find?_some hx) hpa)⟩
    rw [filter_of_nodup_map h ha, List.mem_singleton] at hm
    rw [hx, hm]

omit [Ord κ] [Std.LawfulEqOrd κ] in
theorem find?_reverse [BEq κ] [LawfulBEq κ] {f : ν → κ} {l : List ν} (h : (l.map f).Nodup)
    {p : ν → Bool} (hp : ∀ x y, p x = true → p y = true → f x = f y) :
    l.reverse.find? p = l.find? p := by
  have hreverse : (l.reverse.map f).Nodup := by
    rw [List.map_reverse, List.nodup_iff_pairwise_ne, List.pairwise_reverse]
    exact h.imp Ne.symm
  ext a
  have hlast := find?_reverse_eq_some hreverse hp (a := a)
  rw [List.reverse_reverse, List.mem_reverse] at hlast
  rw [find?_reverse_eq_some h hp, hlast]

theorem mem_of_findEntry {k : κ} {v : ν} {es : List (κ × ν)} (h : findEntry k es = some v) :
    (k, v) ∈ es := by
  induction es with
  | nil => simp [findEntry] at h
  | cons e es ih =>
    rw [findEntry] at h
    split at h
    · rename_i hk
      have hk := Std.LawfulEqCmp.eq_of_compare hk
      obtain ⟨k', v'⟩ := e
      cases h
      subst hk
      exact List.mem_cons_self
    · exact List.mem_cons_of_mem _ (ih h)

theorem findEntry_eq_some_iff {k : κ} {v : ν} {es : List (κ × ν)} (hn : (es.map (·.1)).Nodup) :
    findEntry k es = some v ↔ (k, v) ∈ es := by
  refine ⟨mem_of_findEntry, fun h => ?_⟩
  induction es with
  | nil => cases h
  | cons e es ih =>
    rw [List.map_cons, List.nodup_cons] at hn
    rw [findEntry]
    rcases List.mem_cons.1 h with rfl | h
    · simp
    · have hne : compare k e.1 ≠ .eq := by
        intro hk
        rw [← Std.LawfulEqCmp.eq_of_compare hk] at hn
        exact hn.1 (List.mem_map_of_mem h)
      rw [if_neg hne, ih hn.2 h]

omit [Std.LawfulEqOrd κ] in
theorem nodup_of_sorted [Std.ReflOrd κ] {es : List (κ × ν)}
    (hs : es.Pairwise fun a b => compare a.1 b.1 = .lt) : (es.map (·.1)).Nodup := by
  rw [List.nodup_iff_pairwise_ne, List.pairwise_map]
  refine hs.imp ?_
  intro a b hlt heq
  rw [heq, Std.ReflOrd.compare_self] at hlt
  cases hlt

theorem findEntry_of_mem {k : κ} {v : ν} {es : List (κ × ν)}
    (hs : es.Pairwise fun a b => compare a.1 b.1 = .lt) (h : (k, v) ∈ es) :
    findEntry k es = some v :=
  (findEntry_eq_some_iff (nodup_of_sorted hs)).2 h

theorem findEntry_eq_none_iff {k : κ} {es : List (κ × ν)} :
    findEntry k es = none ↔ ∀ e ∈ es, e.1 ≠ k := by
  have hne (a b : κ) : compare a b = .eq ↔ a = b := Std.LawfulEqCmp.compare_eq_iff_eq
  induction es with
  | nil => simp [findEntry]
  | cons e es ih =>
    by_cases hk : k = e.1
    · simp [findEntry, hk]
    · simp [findEntry, hne, hk, ih, Ne.symm hk]

theorem find?_eq_some_iff {m : SortedMap κ ν} {k : κ} {v : ν} :
    m.find? k = some v ↔ (k, v) ∈ m.entries :=
  ⟨mem_of_findEntry, findEntry_of_mem m.sorted⟩

section Trans

theorem insertEntry_insertEntry (k : κ) (v w : ν) (es : List (κ × ν)) :
    insertEntry k w (insertEntry k v es) = insertEntry k w es := by
  induction es with
  | nil => simp [insertEntry]
  | cons e es ih =>
    rw [insertEntry, insertEntry]
    cases hk : compare k e.1 with
    | lt => simp [insertEntry]
    | eq => simp [insertEntry]
    | gt => simp [insertEntry, hk, ih]

/-- What is put at a key is seen at that key only. -/
theorem filter_insertEntry [BEq κ] [LawfulBEq κ] (k : κ) (v : ν) (es : List (κ × ν)) :
    (insertEntry k v es).filter (fun e => e.1 != k) = es.filter fun e => e.1 != k := by
  induction es with
  | nil => simp [insertEntry]
  | cons e es ih =>
    rw [insertEntry]
    cases hk : compare k e.1 with
    | lt => simp
    | eq => simp [← Std.LawfulEqCmp.eq_of_compare hk]
    | gt => simp [ih, List.filter_cons]

variable [Std.TransOrd κ]

theorem insertEntry_of_findEntry {k : κ} {v : ν} {es : List (κ × ν)}
    (hs : es.Pairwise fun a b => compare a.1 b.1 = .lt) (h : findEntry k es = some v) :
    insertEntry k v es = es := by
  induction es with
  | nil => simp [findEntry] at h
  | cons e es ih =>
    rw [List.pairwise_cons] at hs
    by_cases hk : compare k e.1 = .eq
    · have he := Std.LawfulEqCmp.eq_of_compare hk
      obtain ⟨k', v'⟩ := e
      subst he
      simp [findEntry] at h
      simp [insertEntry, h]
    · rw [findEntry, if_neg hk] at h
      have hlt : compare e.1 k = .lt := hs.1 _ (mem_of_findEntry h)
      have hgt : compare k e.1 = .gt := Std.OrientedCmp.gt_of_lt hlt
      rw [insertEntry, hgt, ih hs.2 h]

private theorem mem_foldl_insert {l : List (κ × ν)} (hl : (l.map (·.1)).Nodup) (m : SortedMap κ ν)
    (hm : ∀ e ∈ l, m.find? e.1 = none) (k : κ) (v : ν) :
    (l.foldl (fun m e => m.insert e.1 e.2) m).find? k = some v ↔
      (k, v) ∈ l ∨ m.find? k = some v := by
  induction l generalizing m with
  | nil => simp
  | cons e l ih =>
    obtain ⟨ke, ve⟩ := e
    rw [List.map_cons, List.nodup_cons] at hl
    have hne (e' : κ × ν) (he' : e' ∈ l) : e'.1 ≠ ke :=
      fun h => hl.1 (List.mem_map.2 ⟨e', he', h⟩)
    rw [List.foldl_cons, ih hl.2]
    · by_cases hk : k = ke
      · subst hk
        have hnot : ∀ w, (k, w) ∉ l := fun w hw => hne _ hw rfl
        have hnone := hm (k, ve) List.mem_cons_self
        simp only at hnone
        simp [hnot, hnone, eq_comm]
      · simp [find?_insert_of_ne _ hk, hk]
    · intro e' he'
      rw [find?_insert_of_ne _ (hne e' he')]
      exact hm e' (List.mem_cons_of_mem _ he')

/-- Pairs with different keys are the entries of their map. -/
theorem mem_entries_ofList {l : List (κ × ν)} (hl : (l.map (·.1)).Nodup) (k : κ) (v : ν) :
    (k, v) ∈ (ofList l).entries ↔ (k, v) ∈ l := by
  rw [← find?_eq_some_iff, ofList, mem_foldl_insert hl _ fun e _ => find?_empty e.1, find?_empty]
  simp

/-- The entries of the map of a list are among its pairs. -/
theorem mem_of_mem_entries_ofList {l : List (κ × ν)} {e : κ × ν} (h : e ∈ (ofList l).entries) :
    e ∈ l := by
  have hfold (l : List (κ × ν)) (m : SortedMap κ ν)
      (h : e ∈ (l.foldl (fun m e => m.insert e.1 e.2) m).entries) : e ∈ m.entries ∨ e ∈ l := by
    induction l generalizing m with
    | nil => exact .inl h
    | cons e' l ih =>
      rcases ih _ h with hm | hl
      · rcases mem_insertEntry hm with rfl | hm
        · exact .inr List.mem_cons_self
        · exact .inl hm
      · exact .inr (List.mem_cons_of_mem _ hl)
  rcases hfold l ∅ h with hm | hl
  · cases hm
  · exact hl

omit [Std.TransOrd κ] in
theorem keys_nodup (m : SortedMap κ ν) : m.keys.Nodup := nodup_of_sorted m.sorted

omit [Std.TransOrd κ] in
theorem filter_key [BEq κ] [LawfulBEq κ] {m : SortedMap κ ν} {k : κ} {v : ν}
    (h : m.find? k = some v) : m.entries.filter (fun e => e.1 == k) = [(k, v)] :=
  filter_of_nodup_map (f := Prod.fst) m.keys_nodup (find?_eq_some_iff.1 h)

omit [Std.TransOrd κ] in
private theorem filter_key_eq_nil [BEq κ] [LawfulBEq κ] {m : SortedMap κ ν} {k : κ}
    (h : m.find? k = none) :
    m.entries.filter (fun e => e.1 == k) = [] := by
  rw [List.filter_eq_nil_iff]
  rintro ⟨k', v⟩ he hk
  cases beq_iff_eq.1 hk
  rw [find?_eq_some_iff.2 he] at h
  cases h

omit [Std.TransOrd κ] in
/-- Of what is made of the entries of a map, what belongs to a key is made of its entry. -/
theorem filter_flatMap [BEq κ] [LawfulBEq κ] {α : Type} {m : SortedMap κ ν} {k : κ} {f : κ × ν → List α}
    {p : α → Bool} (hp : ∀ e ∈ m.entries, ∀ x ∈ f e, p x = (e.1 == k)) :
    (m.entries.flatMap f).filter p = ((m.find? k).map fun v => f (k, v)).getD [] := by
  have hfilter : (m.entries.flatMap f).filter p =
      (m.entries.filter fun e => e.1 == k).flatMap f := by
    rw [List.filter_flatMap]
    generalize m.entries = entries at hp
    induction entries with
    | nil => rfl
    | cons e entries ih =>
      have hhead := hp e List.mem_cons_self
      rw [List.flatMap_cons, ih fun e' he' => hp e' (List.mem_cons_of_mem _ he'), List.filter_cons]
      split
      · rename_i hk
        rw [List.flatMap_cons, List.filter_eq_self.2 fun x hx => (hhead x hx).trans hk]
      · rename_i hk
        rw [List.filter_eq_nil_iff.2 fun x hx => by rwa [hhead x hx], List.nil_append]
  rw [hfilter]
  cases hf : m.find? k with
  | none =>
    rw [filter_key_eq_nil hf]
    rfl
  | some v =>
    rw [filter_key hf, List.flatMap_singleton]
    rfl

omit [Std.TransOrd κ] in
private theorem entries_nodup (m : SortedMap κ ν) : m.entries.Nodup :=
  (List.pairwise_map.1 m.keys_nodup).imp fun hne heq => hne (congrArg Prod.fst heq)

/-- Maps with the same look-ups are equal. -/
theorem ext_find? {m m' : SortedMap κ ν} (h : ∀ k, m.find? k = m'.find? k) : m = m' := by
  have hperm : m.entries.Perm m'.entries := by
    refine (List.perm_ext_iff_of_nodup m.entries_nodup m'.entries_nodup).2 ?_
    rintro ⟨k, v⟩
    rw [← find?_eq_some_iff, ← find?_eq_some_iff, h]
  have hentries : m.entries = m'.entries := by
    refine hperm.eq_of_pairwise (fun a b _ _ hab hba => ?_) m.sorted m'.sorted
    rw [Std.OrientedCmp.gt_of_lt hab] at hba
    cases hba
  cases m
  cases m'
  cases hentries
  rfl

theorem find?_ofList {l : List (κ × ν)} (hl : (l.map (·.1)).Nodup) (k : κ) :
    (ofList l).find? k = findEntry k l := by
  ext v
  rw [find?_eq_some_iff, mem_entries_ofList hl, findEntry_eq_some_iff hl]

theorem ofList_entries (m : SortedMap κ ν) : ofList m.entries = m :=
  ext_find? fun k => find?_ofList m.keys_nodup k

section Count

variable {k : κ} {v : ν}

private theorem findEntry_eq_none_of_lt {e : κ × ν} {es : List (κ × ν)} (hk : compare k e.1 = .lt)
    (hs : (e :: es).Pairwise fun a b => compare a.1 b.1 = .lt) : findEntry k (e :: es) = none := by
  have hne {a : κ} (ha : compare k a = .lt) : a ≠ k := by
    rintro rfl
    rw [Std.ReflOrd.compare_self] at ha
    cases ha
  rw [findEntry_eq_none_iff]
  intro a ha
  rcases List.mem_cons.1 ha with rfl | ha
  · exact hne hk
  · exact hne (Std.TransCmp.lt_trans hk (List.rel_of_pairwise_cons hs ha))

private theorem countP_insertEntry (p : ν → Bool) {es : List (κ × ν)}
    (hs : es.Pairwise fun a b => compare a.1 b.1 = .lt) :
    (insertEntry k v es).countP (fun e => p e.2) + ((findEntry k es).any p).toNat =
      es.countP (fun e => p e.2) + (p v).toNat := by
  induction es with
  | nil => cases hv : p v <;> simp [insertEntry, findEntry, hv]
  | cons e es ih =>
    rw [insertEntry]
    split
    · rename_i hk
      rw [findEntry_eq_none_of_lt hk hs, List.countP_cons]
      cases p v <;> rfl
    · rename_i hk
      rw [findEntry, if_pos hk, List.countP_cons, List.countP_cons, Option.any_some]
      cases p v <;> cases p e.2 <;> simp
    · rename_i hk
      rw [findEntry, if_neg (by simp [hk]), List.countP_cons, List.countP_cons]
      have hrest := ih (List.pairwise_cons.1 hs).2
      omega

/-- The value that is put counts, in the place of the one that it replaces. -/
theorem countP_insert (m : SortedMap κ ν) (p : ν → Bool) :
    (m.insert k v).values.countP p + ((m.find? k).any p).toNat =
      m.values.countP p + (p v).toNat := by
  rw [values, values, List.countP_map, List.countP_map]
  exact countP_insertEntry p m.sorted

end Count

end Trans

end Reconciler.SortedMap
