import Reconciler.Proofs.Batch

/-! Which item is the root manifest depends on nothing but which items are manifests and what their
paths are. -/
namespace Reconciler

theorem Manifest.describes_congr {r r' : Resource} (hid : r'.identity = r.identity) :
    describes r' = describes r := by
  obtain ⟨hv, hk, -⟩ := (Batch.identity_eq_iff _ _).1 hid
  rw [describes, describes, hv, hk]

namespace Batch

variable {b b' : Batch} {r r' root : Resource} {index : Nat}

/-- All that decides about an item as root manifest: the path, if it is a manifest at all. -/
def mark (r : Resource) : Option (Option String) :=
  if Manifest.describes r then some r.packagePath else none

theorem mark_congr (hid : r'.identity = r.identity)
    (hp : ∀ key ∈ [Resource.pathAnnotation, Resource.legacyPathAnnotation],
      r'.annotation? key = r.annotation? key) : mark r' = mark r := by
  have hpath : r'.packagePath = r.packagePath := by
    rw [Resource.packagePath, Resource.packagePath, hp _ (by simp), hp _ (by simp)]
  rw [mark, mark, Manifest.describes_congr hid, hpath]

/-- No item with the identity of something else is a manifest. -/
theorem mark_eq_none (hid : r'.identity = r.identity) (hd : Manifest.describes r = false) :
    mark r' = none := by
  rw [mark, Manifest.describes_congr hid, if_neg (by simp [hd])]

theorem mark_setAnnotation {key value : String} (h : r.setAnnotation key value = .ok r')
    (hk : key ∉ [Resource.pathAnnotation, Resource.legacyPathAnnotation]) : mark r' = mark r :=
  mark_congr (Resource.SameBody.annotated h).identity fun _ hkey =>
    Resource.annotation?_setAnnotation_of_ne h fun he => hk (he ▸ hkey)

theorem mark_merged (old? : Option Resource) (r : Resource) : mark (merged old? r) = mark r :=
  mark_congr (identity_merged old? r) fun _ _ => annotation?_merged old? r _

def marked (marks : List (Option (Option String))) : List (Nat × Option String) :=
  marks.zipIdx.filterMap fun e => e.1.map fun path => (e.2, path)

private def rootIndex? (marks : List (Option (Option String))) : Option Nat :=
  match (marked marks).find? fun e => e.2 == some Manifest.rootPath with
  | some root => some root.1
  | none =>
    if (marked marks).all fun e => e.2.isNone then (marked marks).head?.map (·.1) else none

private theorem mem_manifests {i : Nat} :
    (i, r) ∈ b.manifests ↔ b.items[i]? = some r ∧ Manifest.describes r = true := by
  rw [manifests, List.mem_filter, List.mem_map]
  constructor
  · rintro ⟨⟨⟨r, i⟩, hi, he⟩, hd⟩
    cases he
    exact ⟨List.mem_zipIdx_iff_getElem?.1 hi, hd⟩
  · rintro ⟨hi, hd⟩
    exact ⟨⟨(r, i), List.mem_zipIdx_iff_getElem?.2 hi, rfl⟩, hd⟩

private theorem manifests_sorted (b : Batch) : b.manifests.Pairwise fun e e' => e.1 < e'.1 := by
  refine List.Pairwise.filter _ ?_
  have hpositions : b.items.zipIdx.map (Prod.fst ∘ fun e => (e.2, e.1)) =
      List.range' 0 b.items.length := List.zipIdx_map_snd ..
  rw [← List.pairwise_map (f := Prod.fst) (R := (· < ·)), List.map_map, hpositions]
  exact List.pairwise_lt_range'

theorem rootManifest?_eq_some (h : b.rootManifest? = some (index, root)) :
    b.items[index]? = some root ∧ Manifest.describes root = true := by
  rw [← mem_manifests]
  rw [rootManifest?] at h
  split at h
  · rename_i found hf
    cases h
    exact List.mem_of_find?_eq_some hf
  · split at h
    · exact List.mem_of_head? h
    · cases h

/-- A manifest before the one at the root has another path. -/
theorem packagePath_ne_of_lt {i : Nat} (hroot : b.rootManifest? = some (index, root))
    (hi : b.items[i]? = some r) (hd : Manifest.describes r = true) (hlt : i < index) :
    r.packagePath ≠ root.packagePath := by
  have hbefore (before after : List (Nat × Resource))
      (he : b.manifests = before ++ (index, root) :: after) : (i, r) ∈ before := by
    have hm : (i, r) ∈ b.manifests := mem_manifests.2 ⟨hi, hd⟩
    have hsorted := b.manifests_sorted
    rw [he] at hm hsorted
    rcases List.mem_append.1 hm with hm | hm
    · exact hm
    · rcases List.mem_cons.1 hm with heq | hm
      · cases heq
        omega
      · have hgt : index < i := (List.pairwise_cons.1 (List.pairwise_append.1 hsorted).2.1).1 _ hm
        omega
  rw [rootManifest?] at hroot
  split at hroot
  · rename_i found hf
    cases hroot
    obtain ⟨hp, before, after, he, hnone⟩ := List.find?_eq_some_iff_append.1 hf
    have hne := hnone _ (hbefore _ _ he)
    intro heq
    rw [beq_iff_eq] at hp
    simp [heq, hp] at hne
  · split at hroot
    · obtain ⟨rest, he⟩ := List.head?_eq_some_iff.1 hroot
      cases hbefore [] rest he
    · cases hroot

private theorem manifests_map (b : Batch) :
    b.manifests.map (fun e => (e.1, e.2.packagePath)) = marked (b.items.map mark) := by
  rw [manifests, marked, List.zipIdx_map, List.filterMap_map, List.filter_map, List.map_map,
    ← List.filterMap_eq_map, ← List.filterMap_eq_filter, List.filterMap_filterMap]
  congr 1
  funext ⟨r, i⟩
  by_cases hd : Manifest.describes r = true
  · simp [mark, hd, Option.guard]
  · simp [mark, hd, Option.guard]

private theorem rootManifest?_index (b : Batch) :
    b.rootManifest?.map (·.1) = rootIndex? (b.items.map mark) := by
  have hp : (fun e : Nat × Resource => e.2.packagePath == some Manifest.rootPath) =
      (fun e : Nat × Option String => e.2 == some Manifest.rootPath) ∘
        fun e => (e.1, e.2.packagePath) := rfl
  rw [rootIndex?, ← manifests_map, List.find?_map, ← hp, rootManifest?]
  cases b.manifests.find? fun e => e.2.packagePath == some Manifest.rootPath with
  | some root => rfl
  | none =>
    simp only [Option.map_none, List.all_map, List.head?_map, Option.map_map]
    split
    · rename_i hall
      rw [if_pos (by simpa [Function.comp_def] using hall)]
      rfl
    · rename_i hall
      rw [if_neg (by simpa [Function.comp_def] using hall)]
      rfl

private theorem rootIndex?_append (marks : List (Option (Option String))) (n : Nat) :
    rootIndex? (marks ++ List.replicate n none) = rootIndex? marks := by
  have hm : marked (marks ++ List.replicate n none) = marked marks := by
    rw [marked, List.zipIdx_append, List.filterMap_append, ← marked, List.filterMap_eq_nil_iff.2,
      List.append_nil]
    rintro ⟨m, i⟩ hm
    have hnone := List.fst_mem_of_mem_zipIdx hm
    rw [List.mem_replicate] at hnone
    rw [show m = none from hnone.2]
    rfl
  rw [rootIndex?, rootIndex?, hm]

/-- The root manifest keeps its place as long as no item is marked anew. -/
theorem rootManifest?_congr (hroot : b.rootManifest? = some (index, root))
    (hkeep : ∀ (i : Nat) r, b.items[i]? = some r → ∃ r', b'.items[i]? = some r' ∧ mark r' = mark r)
    (hnew : ∀ (i : Nat) r', b.items[i]? = none → b'.items[i]? = some r' → mark r' = none)
    (hr : b'.items[index]? = some r) : b'.rootManifest? = some (index, r) := by
  have hmarks : b'.items.map mark =
      b.items.map mark ++ List.replicate (b'.items.length - b.items.length) none := by
    apply List.ext_getElem?
    intro i
    rw [List.getElem?_map]
    cases hi : b.items[i]? with
    | some r =>
      obtain ⟨r', hi', hm⟩ := hkeep i r hi
      have hlt := (List.getElem?_eq_some_iff.1 hi).1
      rw [hi', List.getElem?_append_left (by simpa using hlt), List.getElem?_map, hi]
      exact congrArg some hm
    | none =>
      have hge := List.getElem?_eq_none_iff.1 hi
      rw [List.getElem?_append_right (by simpa using hge), List.getElem?_replicate]
      cases hi' : b'.items[i]? with
      | some r' =>
        have hlt := (List.getElem?_eq_some_iff.1 hi').1
        rw [if_pos (by simp; omega)]
        exact congrArg some (hnew i r' hi hi')
      | none =>
        have hge' := List.getElem?_eq_none_iff.1 hi'
        rw [if_neg (by simp; omega)]
        rfl
  have hindex : b'.rootManifest?.map (·.1) = some index := by
    rw [rootManifest?_index, hmarks, rootIndex?_append, ← rootManifest?_index, hroot]
    rfl
  obtain ⟨⟨index', r'⟩, hroot', he⟩ := Option.map_eq_some_iff.1 hindex
  cases he
  have hr' := (rootManifest?_eq_some hroot').1
  rw [hr] at hr'
  cases hr'
  exact hroot'

end Batch

end Reconciler
