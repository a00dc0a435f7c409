import Reconciler.Proofs.Run.Children

/-! The package that a run leaves: the manifest is written last, and the next run finds the root
manifest at its place and loads the conditions that were written. -/
namespace Reconciler

variable {c : Controller} {b : Batch} {s t u : Run} {r : Resource} {id : Ref}

namespace Batch

/-- With distinct identities the items but one are those of the other identities. -/
theorem mem_others_iff_itemAt {index : Nat} {root : Resource}
    (hn : (b.items.map Resource.identity).Nodup) (hroot : b.items[index]? = some root) :
    r ∈ b.others index ↔ itemAt b.items r.identity = some r ∧ r.identity ≠ root.identity := by
  rw [mem_others]
  constructor
  · rintro ⟨i, hi, hne⟩
    have hlt := (List.getElem?_eq_some_iff.1 hi).1
    refine ⟨itemAt_of_mem hn (List.mem_of_getElem? hi), fun hid => hne ?_⟩
    refine (List.getElem?_inj (by simpa using hlt) hn).1 ?_
    rw [List.getElem?_map, List.getElem?_map, hi, hroot, Option.map_some, Option.map_some, hid]
  · rintro ⟨hitem, hne⟩
    obtain ⟨i, hi⟩ := List.getElem?_of_mem (itemAt_eq_some hitem).1
    refine ⟨i, hi, ?_⟩
    rintro rfl
    rw [hi] at hroot
    cases hroot
    exact hne rfl

end Batch

section Manifest

variable {m : Manifest}

private theorem Manifest.string?_toResource (h : m.toResource = .ok r) {q : List String}
    (hq : Document.Diverge ["status"] q) : r.string? q = m.source.string? q := by
  rw [Resource.string?, Resource.string?, get?_toResource h hq]

theorem Manifest.identity_toResource (h : m.toResource = .ok r) :
    r.identity = m.source.identity := by
  rw [Batch.identity_eq_iff]
  exact ⟨congrArg (·.getD "") (string?_toResource h (by decide)),
    congrArg (·.getD "") (string?_toResource h (by decide)),
    congrArg (·.getD "") (string?_toResource h (by decide))⟩

theorem Manifest.space_toResource (h : m.toResource = .ok r) : r.space = m.source.space :=
  string?_toResource h (by decide)

theorem Manifest.mark_toResource (h : m.toResource = .ok r) : Batch.mark r = Batch.mark m.source :=
  Batch.mark_congr (identity_toResource h) fun _ _ =>
    string?_toResource h (by simp [Document.Diverge, List.cons_prefix_cons])

end Manifest

namespace Run

def rootAfter (t : Run) : Resource :=
  match t.manifest.toResource with
  | .ok r => r
  | .error _ => t.manifest.source

/-- The conditions that the next run loads. -/
def conditionsAfter (t : Run) : List Condition :=
  match t.manifest.toResource with
  | .ok _ => t.manifest.conditions
  | .error _ => []

theorem identity_rootAfter (t : Run) : t.rootAfter.identity = t.manifest.source.identity := by
  rw [rootAfter]
  split
  · rename_i r h
    exact Manifest.identity_toResource h
  · rfl

private theorem mark_rootAfter (t : Run) :
    Batch.mark t.rootAfter = Batch.mark t.manifest.source := by
  rw [rootAfter]
  split
  · rename_i r h
    exact Manifest.mark_toResource h
  · rfl

theorem ofResource_rootAfter (hd : Manifest.describes t.manifest.source = true) :
    Manifest.ofResource t.rootAfter = .ok ⟨t.rootAfter, t.conditionsAfter⟩ := by
  rw [rootAfter, conditionsAfter]
  split
  · rename_i r h
    exact Manifest.ofResource_toResource hd h
  · rename_i fault h
    apply Manifest.ofResource_of_not_storable hd
    intro hs
    obtain ⟨r, hr⟩ := hs.toResource
    rw [h] at hr
    cases hr

theorem conditionsAfter_of_storable (h : t.manifest.IsStorable) :
    t.conditionsAfter = t.manifest.conditions := by
  obtain ⟨r, hr⟩ := h.toResource
  rw [conditionsAfter, hr]

theorem rootAfter_of_not_storable (h : ¬ t.manifest.IsStorable) :
    t.rootAfter = t.manifest.source := by
  rw [rootAfter]
  split
  · rename_i r hr
    exact Manifest.eq_source_of_not_storable h hr
  · rfl

theorem wellFormed_rootAfter (hw : t.manifest.source.root.WellFormed) :
    t.rootAfter.root.WellFormed := by
  rw [rootAfter]
  split
  · rename_i r h
    exact Manifest.wellFormed_toResource hw h
  · exact hw

theorem items_writeManifest (t : Run) : t.writeManifest.batch.items =
    match t.manifest.toResource with
    | .ok r => (t.batch.write r).1.items
    | .error _ => t.batch.items := by
  rw [writeManifest]
  cases t.manifest.toResource <;> rfl

theorem itemAt_writeManifest_of_ne (hid : id ≠ t.manifest.source.identity) :
    Batch.itemAt t.writeManifest.batch.items id = Batch.itemAt t.batch.items id := by
  rw [items_writeManifest]
  split
  · rename_i r h
    exact Batch.itemAt_write_of_ne _ (by rwa [Manifest.identity_toResource h])
  · rfl

/-- The manifest stands where its source stood. -/
theorem itemAt_writeManifest_self (hw : t.manifest.source.root.WellFormed)
    (hroot : Batch.itemAt t.batch.items t.manifest.source.identity = some t.manifest.source) :
    Batch.itemAt t.writeManifest.batch.items t.manifest.source.identity = some t.rootAfter := by
  rw [items_writeManifest, rootAfter]
  split
  · rename_i r h
    have hid := Manifest.identity_toResource h
    rw [← hid, Batch.itemAt_write_self, hid, hroot, Batch.merged,
      Batch.keepSpace_of_space_eq (Manifest.space_toResource h).symm]
    split
    · rename_i ha
      rw [Manifest.eq_source_of_alike hw h ha]
    · rfl
  · exact hroot

theorem identities_writeManifest
    (hroot : t.manifest.source.identity ∈ t.batch.items.map Resource.identity) :
    t.writeManifest.batch.items.map Resource.identity = t.batch.items.map Resource.identity := by
  rw [items_writeManifest]
  split
  · rename_i r h
    rw [Batch.identities_write_eq, Manifest.identity_toResource h, if_pos hroot]
  · rfl

/-- A manifest that was loaded from what a run has written is written as it is, or not at all. -/
theorem items_writeManifest_again (hsource : u.manifest.source = t.rootAfter)
    (hconditions : t.manifest.IsStorable → u.manifest.conditions = t.manifest.conditions)
    (hroot : Batch.itemAt u.batch.items t.rootAfter.identity = some t.rootAfter) :
    u.writeManifest.batch.items = u.batch.items := by
  have hsame {r : Resource} (hr : u.manifest.toResource = .ok r) : r = t.rootAfter := by
    by_cases hs : t.manifest.IsStorable
    · obtain ⟨root, h⟩ := hs.toResource
      have hroot : t.rootAfter = root := by rw [rootAfter, h]
      rw [show u.manifest = ⟨root, t.manifest.conditions⟩ by
        rw [← hconditions hs, ← hroot, ← hsource], Manifest.toResource_toResource h] at hr
      rw [hroot]
      exact (Except.ok.inj hr).symm
    · have hnot : ¬ u.manifest.IsStorable := by
        rwa [Manifest.IsStorable, hsource, rootAfter_of_not_storable hs]
      rw [Manifest.eq_source_of_not_storable hnot hr, hsource]
  rw [items_writeManifest]
  split
  · rename_i r hr
    cases hsame hr
    rw [Batch.write_of_merged hroot]
    rw [Batch.merged, Batch.keepSpace_of_space_eq rfl, if_pos (Document.alike_refl _)]
  · rfl

/-- The run has kept the items of the package in their places, and neither written to its manifest
nor made a manifest of anything. -/
structure Keeps (b : Batch) (t : Run) : Prop where
  root : Batch.itemAt t.batch.items t.manifest.source.identity = some t.manifest.source
  identities : b.items.map Resource.identity <+: t.batch.items.map Resource.identity
  nodup : (t.batch.items.map Resource.identity).Nodup
  kept : ∀ r ∈ b.items, ∀ r', Batch.itemAt t.batch.items r.identity = some r' →
    Batch.mark r' = Batch.mark r
  added : ∀ r' ∈ t.batch.items, r'.identity ∉ b.items.map Resource.identity → Batch.mark r' = none

namespace Keeps

variable {index : Nat} (h : Keeps b t)
include h

private theorem mark_writeManifest {r' : Resource} (hw : t.manifest.source.root.WellFormed)
    (hr : Batch.itemAt t.writeManifest.batch.items id = some r') :
    ∃ r, Batch.itemAt t.batch.items id = some r ∧ Batch.mark r' = Batch.mark r := by
  by_cases hid : id = t.manifest.source.identity
  · subst hid
    rw [itemAt_writeManifest_self hw h.root] at hr
    cases hr
    exact ⟨_, h.root, t.mark_rootAfter⟩
  · rw [itemAt_writeManifest_of_ne hid] at hr
    exact ⟨r', hr, rfl⟩

private theorem identities_writeManifest_self :
    t.writeManifest.batch.items.map Resource.identity = t.batch.items.map Resource.identity :=
  identities_writeManifest (List.mem_map_of_mem (Batch.itemAt_eq_some h.root).1)

theorem nodup_writeManifest :
    (t.writeManifest.batch.items.map Resource.identity).Nodup := by
  rw [h.identities_writeManifest_self]
  exact h.nodup

private theorem rootManifest? (hw : t.manifest.source.root.WellFormed)
    (hroot : b.rootManifest? = some (index, t.manifest.source)) :
    t.writeManifest.batch.rootManifest? = some (index, t.rootAfter) := by
  have hids := h.identities_writeManifest_self
  have hnodup := h.nodup_writeManifest
  -- an item of the package stands under its identity at its place
  have hplace (i : Nat) (r : Resource) (hi : b.items[i]? = some r) :
      ∃ r', t.writeManifest.batch.items[i]? = some r' ∧ r'.identity = r.identity := by
    have hlt := (List.getElem?_eq_some_iff.1 hi).1
    have hpre := (hids ▸ h.identities).getElem (i := i) (by simpa using hlt)
    have hlen := (hids ▸ h.identities).length_le
    simp only [List.length_map] at hlen
    refine ⟨t.writeManifest.batch.items[i], List.getElem?_eq_getElem (by omega), ?_⟩
    rw [List.getElem_map, List.getElem_map] at hpre
    rw [← hpre, (List.getElem?_eq_some_iff.1 hi).2]
  have hself {i : Nat} {r' : Resource} (hi : t.writeManifest.batch.items[i]? = some r') :
      Batch.itemAt t.writeManifest.batch.items r'.identity = some r' :=
    Batch.itemAt_of_mem hnodup (List.mem_of_getElem? hi)
  refine Batch.rootManifest?_congr hroot (fun i r hi => ?_) (fun i r' hi hi' => ?_) ?_
  · obtain ⟨r', hi', hid⟩ := hplace i r hi
    obtain ⟨r₁, hr₁, hm⟩ := h.mark_writeManifest hw (hself hi')
    rw [hid] at hr₁
    exact ⟨r', hi', hm.trans (h.kept r (List.mem_of_getElem? hi) r₁ hr₁)⟩
  · obtain ⟨r₁, hr₁, hm⟩ := h.mark_writeManifest hw (hself hi')
    obtain ⟨hmem, hid⟩ := Batch.itemAt_eq_some hr₁
    refine hm.trans (h.added r₁ hmem fun hold => ?_)
    -- an item behind the package cannot share an identity with one in it
    obtain ⟨r, hr, hrid⟩ := List.mem_map.1 hold
    obtain ⟨j, hj⟩ := List.getElem?_of_mem hr
    obtain ⟨r₂, hj', hid₂⟩ := hplace j r hj
    have hsame := (hself hj').symm.trans (hid₂.trans (hrid.trans hid) ▸ hself hi')
    have hij : j = i := by
      have hlt := (List.getElem?_eq_some_iff.1 hj').1
      refine (List.getElem?_inj (by simpa using hlt) hnodup).1 ?_
      rw [List.getElem?_map, List.getElem?_map, hj', hi', hsame]
    rw [← hij, hj] at hi
    cases hi
  · obtain ⟨hi, -⟩ := Batch.rootManifest?_eq_some hroot
    obtain ⟨r', hi', hid⟩ := hplace index _ hi
    have hr' := hself hi'
    rw [hid, itemAt_writeManifest_self hw h.root] at hr'
    rw [hi', hr']

end Keeps

end Run

namespace Controller

def WatchesSucceed (c : Controller) : Prop :=
  ∀ watched callback, c.watched.find? watched = some callback → ∀ r, callback r = .ok ()

theorem populated_isSome (hw : c.WatchesSucceed) (h : Run.start c b = .ok s) :
    ∃ s', c.populated b = some s' := by
  obtain ⟨s', hs'⟩ := surveyed_isSome hw h
  exact ⟨_, by rw [populated, hs']; rfl⟩

namespace Populated

variable {s' : Run} (h : Populated c b s) (hk : Run.Keeps b t)
include h hk

/-- The next run starts on what a run has left, with the manifest at the same place. -/
theorem populated_writeManifest (hw : c.WatchesSucceed)
    (hsource : t.manifest.source = s.manifest.source) (hwell : s.manifest.source.root.WellFormed) :
    ∃ s', c.populated t.writeManifest.batch = some s' ∧
      Populated c t.writeManifest.batch s' ∧ s'.manifestIndex = s.manifestIndex ∧
      s'.manifest = ⟨t.rootAfter, t.conditionsAfter⟩ := by
  have hroot := hk.rootManifest? (hsource ▸ hwell) (hsource ▸ h.root)
  have hd : Manifest.describes t.manifest.source = true := by
    rw [hsource]
    exact (Manifest.ofResource_eq_ok h.manifest).2
  have hstart := Run.start_eq_ok_iff.2 ⟨h.check, _, _, _, hroot, Run.ofResource_rootAfter hd, rfl⟩
  obtain ⟨s', hs'⟩ := populated_isSome hw hstart
  have h' := populated_spec hk.nodup_writeManifest hs'
  have hroot' := h'.root
  rw [hroot] at hroot'
  obtain ⟨hindex, hsource'⟩ := Prod.mk.inj (Option.some.inj hroot')
  have hload := h'.manifest
  rw [← hsource', Run.ofResource_rootAfter hd] at hload
  exact ⟨s', hs', h', hindex.symm, (Except.ok.inj hload).symm⟩

/-- The items that the next run looks at are those of the run, the manifest apart. -/
theorem mem_others_writeManifest (hsource : t.manifest.source = s.manifest.source)
    (hwell : s.manifest.source.root.WellFormed) {r : Resource} :
    r ∈ t.writeManifest.batch.others s.manifestIndex ↔
      Batch.itemAt t.batch.items r.identity = some r ∧
        r.identity ≠ s.manifest.source.identity := by
  have hroot := hk.rootManifest? (hsource ▸ hwell) (hsource ▸ h.root)
  rw [Batch.mem_others_iff_itemAt hk.nodup_writeManifest (Batch.rootManifest?_eq_some hroot).1,
    Run.identity_rootAfter, hsource]
  apply and_congr_left
  intro hne
  rw [Run.itemAt_writeManifest_of_ne (by rwa [hsource])]

end Populated

end Controller

end Reconciler
