import Reconciler.Proofs.Frame
import Reconciler.Proofs.Gating
import Reconciler.Proofs.Run.States

/-! Inventory and batch tell the same about the resources of all entries, at the end of each stage of a
run, but for the namespace: a write puts the old one into the item, and not into the entry. -/
namespace Reconciler

open Inventory (Action Key Readiness Sound)

variable {c : Controller} {b : Batch} {s s' t : Run} {r : Ref} {k : Key} {e : Effect}
  {item old x : Resource}

namespace Resource

/-- The item is the resource, with the item's own namespace if the resource has none. -/
def Shows (item x : Resource) : Prop := item.root.alike (Batch.keepSpace item x).root = true

instance (item x : Resource) : Decidable (item.Shows x) := inferInstanceAs (Decidable (_ = true))

private theorem shows_self (x : Resource) : x.Shows x := by
  rw [Shows, Batch.keepSpace_of_space_eq rfl]
  exact Document.alike_refl _

private theorem Shows.alike_iff (h : item.Shows x) :
    item.root.alike x.root = true ↔ item.space = x.space := by
  constructor
  · intro ha
    exact Document.string?_alike ha _
  · intro hs
    rwa [Shows, Batch.keepSpace_of_space_eq hs] at h

private theorem shows_merged (old? : Option Resource) (x : Resource) :
    (Batch.merged old? x).Shows x := by
  have hagain := Batch.merged_merged old? x
  rw [Batch.merged] at hagain
  split at hagain
  · assumption
  · rw [Shows, hagain]
    exact Document.alike_refl _

end Resource

namespace Run

/-- The batch has an item of the key's identity that shows the resource `x`, unless it shows that of
another governed or owned entry under the identity. -/
def Accounts (t : Run) (k : Key) (x : Resource) : Prop :=
  ∃ item, Batch.itemAt t.batch.items k.target = some item ∧
    ((item.Shows x ∧ (item.root.alike x.root = true ↔ item.space = x.space)) ∨
      ∃ k' x', k' ≠ k ∧ k'.role ≠ .watched ∧ k'.target = k.target ∧
        t.inventory.existing? k' = some x' ∧ item.Shows x')

def Tallies (t : Run) (k : Key) : Prop :=
  ∀ x, t.inventory.existing? k = some x → x.identity = k.target ∧ t.Accounts k x

end Run

namespace Effect

/-- What is written has the identity of the entry that it is written for. -/
def IsKeyed (e : Effect) : Prop :=
  ∀ x, e.item = some x → e.key.role ≠ .watched ∧ x.identity = e.key.target

private theorem Holds.tallies (h : e.Holds s s') (he : e.IsKeyed) (hs : s.Tallies k) :
    s'.Tallies k := by
  intro x hx
  by_cases hwrite : ∃ y, e.item = some y ∧ y.identity = k.target
  · obtain ⟨y, hy, hid⟩ := hwrite
    obtain ⟨hrole, htarget⟩ := he y hy
    have hput : s'.inventory.existing? e.key = some y := by
      rw [h.existing, hy]
      rfl
    have hitem : Batch.itemAt s'.batch.items k.target =
        some (Batch.merged (Batch.itemAt s.batch.items k.target) y) := by
      rw [h.itemAt, itemAfter, hy]
      exact if_pos hid
    have hshows := Resource.shows_merged (Batch.itemAt s.batch.items k.target) y
    by_cases hkey : e.key = k
    · subst hkey
      rw [hput] at hx
      cases hx
      exact ⟨htarget, _, hitem, .inl ⟨hshows, hshows.alike_iff⟩⟩
    · rw [h.existing?_of_ne (Ne.symm hkey)] at hx
      exact ⟨(hs x hx).1, _, hitem, .inr ⟨e.key, y, hkey, hrole, htarget.symm.trans hid, hput, hshows⟩⟩
  · -- nothing under the identity changes
    have hkeep {k' : Key} (ht : k'.target = k.target) :
        s'.inventory.existing? k' = s.inventory.existing? k' := by
      by_cases hk : k' = e.key
      · subst hk
        rw [h.existing]
        cases hy : e.item with
        | none => rfl
        | some y => exact absurd ⟨y, hy, (he y hy).2.trans ht⟩ hwrite
      · exact h.existing?_of_ne hk
    have hitem : Batch.itemAt s'.batch.items k.target = Batch.itemAt s.batch.items k.target := by
      rw [h.itemAt, itemAfter]
      split
      · rfl
      · rename_i y hy
        exact if_neg fun hid => hwrite ⟨y, hy, hid⟩
    rw [hkeep rfl] at hx
    obtain ⟨hid, item, hi, hshown⟩ := hs x hx
    refine ⟨hid, item, hitem.trans hi, hshown.imp_right ?_⟩
    rintro ⟨k', x', hne, hrole, ht, hx', hshows⟩
    exact ⟨k', x', hne, hrole, ht, (hkeep ht).trans hx', hshows⟩

end Effect

private theorem Trace.tallies {es : List Effect} (h : Trace es s s') (he : ∀ e ∈ es, e.IsKeyed)
    (hs : s.Tallies k) : s'.Tallies k := by
  induction h with
  | nil s => exact hs
  | cons head _ ih =>
    exact ih (fun e' he' => he e' (List.mem_cons_of_mem _ he'))
      (head.tallies (he _ List.mem_cons_self) hs)

namespace Controller

def RendersOwn (c : Controller) : Prop :=
  ∀ generate, c.generate = some generate → ∀ governed resources answer,
    c.governs governed.identity = true →
    generate (some governed) resources = .ok (some answer) → answer.identity = governed.identity

def RendersPackage (c : Controller) (package : String) : Prop :=
  ∀ generate, c.generate = some generate → ∀ answer, generate none [] = .ok (some answer) →
    answer.identity = c.governed.named package

end Controller

namespace Run

private theorem isKeyed_of_item_none (h : e.item = none) : e.IsKeyed := by
  intro x hx
  rw [h] at hx
  cases hx

private theorem isKeyed_retireEffect {g : Resource} (h : g.identity = r) :
    (Inventory.retireEffect (.governed r) g).IsKeyed := by
  intro x hx
  obtain ⟨-, hflag⟩ := Inventory.retireEffect_item hx
  rw [Inventory.key_retireEffect]
  exact ⟨by simp [Key.governed], (Resource.SameBody.annotated hflag).identity.trans h⟩

theorem isKeyed_of_response
    {generate : Option Resource → List Resource → Except Failure (Option Resource)}
    {governed : Option Resource} {resources : List Resource}
    (h : ∀ answer, generate governed resources = .ok (some answer) → answer.identity = r)
    (he : e ∈ response c generate r governed resources) : e.IsKeyed := by
  rcases response_cases he with rfl | ⟨answer, o, hanswer, hr, rfl | ⟨isUpdate, rfl⟩⟩
  · exact isKeyed_of_item_none rfl
  · exact isKeyed_of_item_none rfl
  · intro x hx
    obtain ⟨hprep, -⟩ := Inventory.writeEffect_item_iff.1 hx
    rw [Inventory.key_writeEffect]
    refine ⟨by simp [Key.governed], ?_⟩
    rw [(sameBody_prepared hprep).identity, (sameBody_rendered hr).identity, h answer hanswer]
    rfl

/-- Responses write what they are asked for, if the callback does. -/
theorem isKeyed_of_responses (hs : Sound s.controller s.inventory)
    (hown : s.controller.RendersOwn)
    (hafter : (∀ r, s.inventory.existing? (.governed r) = none) →
      s.controller.RendersPackage s.manifest.name)
    (hid : ∀ r g, s.inventory.existing? (.governed r) = some g → g.identity = r)
    (he : e ∈ s.responses) : e.IsKeyed := by
  have hlisted {entry : Ref × Readiness} (hm : entry ∈ s.inventory.readyMap.entries) {g : Resource}
      (hg : entry.2.resource = some g) :
      g.identity = entry.1 ∧ s.controller.governs g.identity = true := by
    have hgid := hid _ _ ((existing?_of_readyMap hs hm).trans hg)
    obtain ⟨found, hf, -⟩ := (Inventory.mem_readyMap hs).1 hm
    exact ⟨hgid, hgid ▸ (hs _ _ hf).1⟩
  rcases mem_responses he with ⟨entry, -, -, rfl⟩ | ⟨generate, hgen, hall, he⟩ |
    ⟨generate, hgen, entry, hm, he⟩ | ⟨-, entry, hm, g, hg, rfl⟩
  · exact isKeyed_of_item_none rfl
  · rw [synthesis] at he
    split at he
    · cases List.mem_singleton.1 he
      exact isKeyed_of_item_none rfl
    · exact isKeyed_of_response (hafter (fun r => existing?_of_all_none hs hall) generate hgen) he
  · rw [attempt] at he
    split at he
    · cases he
    · rename_i g hg
      obtain ⟨hgid, hgov⟩ := hlisted hm hg
      split at he
      · cases he
      · split at he
        · exact isKeyed_of_response
            (fun answer ha => (hown generate hgen g _ answer hgov ha).trans hgid) he
        · split at he
          · cases List.mem_singleton.1 he
            exact isKeyed_retireEffect hgid
          · cases he
  · exact isKeyed_retireEffect (hlisted hm hg).1

end Run

namespace Controller

namespace Gathered

variable (h : Gathered c b s)
include h

private theorem tallies (hn : (b.items.map Resource.identity).Nodup) (k : Key) : s.Tallies k := by
  intro x hx
  obtain ⟨hm, hk⟩ := h.mem_of_existing? k x hx
  have ht := (keyOf_eq_some hk).2
  have hitem : Batch.itemAt s.batch.items k.target = some x := by
    rw [h.items, ht]
    exact Batch.itemAt_of_mem hn (Batch.mem_of_mem_others hm)
  have hshows := x.shows_self
  exact ⟨ht.symm, x, hitem, .inl ⟨hshows, hshows.alike_iff⟩⟩

theorem tallies_updateChildren (hn : (b.items.map Resource.identity).Nodup) (k : Key) :
    s.updateChildren.Tallies k := by
  obtain ⟨s', ht, he⟩ := s.updateChildren_trace
  rw [he]
  refine ht.tallies (fun e he => ?_) (h.tallies hn k)
  obtain ⟨a, ha, rfl⟩ := List.mem_map.1 he
  intro x hx
  rw [Action.key_effect]
  rcases h.writes_cases ha hx with ⟨p, isUpdate, new, rfl, -⟩ | ⟨p, old, rfl, -⟩
  · exact ⟨by simp [Action.key, Key.owned], rfl⟩
  · exact ⟨by simp [Action.key, Key.owned], rfl⟩

private theorem tallies_final (hn : (b.items.map Resource.identity).Nodup) (hown : c.RendersOwn)
    (hafter : c.RendersPackage s.manifest.source.name) (k : Key) : s.final.Tallies k := by
  have hsound := h.sound_updateChildren
  have hcontroller : s.updateChildren.controller = c := by
    rw [Run.controller_updateChildren, h.controller]
  refine (Run.trace_responses hsound default).tallies (fun e he => ?_)
    (h.tallies_updateChildren hn k)
  by_cases hitem : e.item = none
  · intro x hx
    rw [hitem] at hx
    cases hx
  · refine Run.isKeyed_of_responses hsound (hcontroller ▸ hown) ?_ (fun r g hg => ?_)
      (Run.mem_responses_of_touching he (.inl hitem))
    · rw [hcontroller, Manifest.name, Run.source_updateChildren]
      exact fun _ => hafter
    · exact (h.tallies_updateChildren hn _ g hg).1

end Gathered

private theorem tallies_writeManifest (hk : k.target ≠ t.manifest.source.identity)
    (ht : t.Tallies k) :
    t.writeManifest.Tallies k := by
  intro x hx
  obtain ⟨hid, item, hitem, hshown⟩ := ht x hx
  exact ⟨hid, item, (Run.itemAt_writeManifest_of_ne hk).trans hitem, hshown⟩

/-- At the end of each stage the item of an entry's identity is the entry's resource, in the
namespace of the item if the resource has none. -/
theorem resources_agree (hn : (b.items.map Resource.identity).Nodup) (hown : c.RendersOwn)
    (hafter : ∀ index root, b.rootManifest? = some (index, root) → c.RendersPackage root.name) :
    (∀ t ∈ c.states b, ∀ k x, t.inventory.existing? k = some x →
      (t.report.stage = .manifestWritten → k.target ≠ t.manifest.source.identity) →
      x.identity = k.target ∧ t.Accounts k x) ∧
    ∀ g resources, .generate (some g) resources ∈ (c.run b).calls →
      ∃ t ∈ c.states b, t.report.stage = .childrenCommitted ∧ ∀ x ∈ g :: resources, ∃ k,
        (k = .governed g.identity ∨ k.owner = some g.identity) ∧ k.target = x.identity ∧
          t.inventory.existing? k = some x ∧ t.Accounts k x := by
  constructor
  · intro t ht k x hx hk
    rcases states_cases ht with ⟨h, -⟩ | ⟨s, hs, hcases⟩
    · exact h.tallies hn k x hx
    · have h := gathered_spec hs
      have hfinal := h.tallies_final hn hown (hafter _ _ h.root) k
      rcases hcases with rfl | rfl | rfl | rfl
      · exact h.tallies hn k x hx
      · exact h.tallies_updateChildren hn k x hx
      · exact hfinal x hx
      · exact tallies_writeManifest (t := s.final) (hk rfl) hfinal x hx
  · intro g resources hcall
    obtain ⟨s, hs⟩ := populated_of_mem_calls hcall
    have h := gathered_spec hs
    obtain ⟨r, e, he, hg, -, -, -, rfl⟩ :=
      (Run.mem_generations h.sound_updateChildren).1 (h.mem_generations_of_mem_calls hs hcall)
    have hpresent : s.updateChildren.inventory.existing? (.governed r) = some g := by
      rw [Inventory.existing?, Inventory.entryAt_of_find? he, hg]
    have hgr : g.identity = r := (h.tallies_updateChildren hn _ g hpresent).1
    refine ⟨_, (mem_states hs).2.1, rfl, fun x hx => ?_⟩
    obtain ⟨k, hk, hxk⟩ : ∃ k, (k = .governed g.identity ∨ k.owner = some g.identity) ∧
        s.updateChildren.inventory.existing? k = some x := by
      rw [hgr]
      rcases List.mem_cons.1 hx with rfl | hx
      · exact ⟨_, .inl rfl, hpresent⟩
      · obtain ⟨k, hk, hxk⟩ := Inventory.mem_resources hx
        exact ⟨k, .inr hk, hxk⟩
    obtain ⟨hid, haccounts⟩ := h.tallies_updateChildren hn k x hxk
    exact ⟨k, hk, hid.symm, hxk, haccounts⟩

def leasing : Controller :=
  { (ofGoverned ⟨"req/v1", "Interface"⟩).owning ⟨"ipam/v1", "IPAllocation"⟩ .localOnly with
    populate := some fun _ => .ok [allocation [("name", .string "x")] "new"]
    generate := some fun governed _ => .ok governed }
where
  allocation (metadata : List (String × Document)) (pool : String) : Resource :=
    ⟨.object [("apiVersion", .string "ipam/v1"), ("kind", .string "IPAllocation"),
      ("metadata", .object metadata), ("spec", .object [("prefix", .string pool)])]⟩

def leasedPackage : Batch :=
  .ofItems [.minimal ⟨"kpt.dev/v1", "Kptfile"⟩ "pkg", .minimal ⟨"req/v1", "Interface"⟩ "a",
    leasing.allocation (annotated [("namespace", .string "north")]) "old"]
where
  annotated (rest : List (String × Document)) : List (String × Document) :=
    [("annotations", .object [(Resource.ownerAnnotation, .string "req/v1.Interface.a")]),
      ("name", .string "x")] ++ rest

private theorem rendersOwn_leasing : leasing.RendersOwn := by
  rintro _ ⟨⟩ governed resources answer - ⟨⟩
  rfl

/-- The allocation that is recorded last stands in the batch. -/
theorem resources_agree_leasing : ∃ t ∈ leasing.states leasedPackage, ∃ k x,
    k.role = .owned ∧ t.inventory.existing? k = some x ∧ x.space = none ∧ t.Accounts k x := by
  let k : Key := .owned (Coordinate.named ⟨"req/v1", "Interface"⟩ "a")
    (Coordinate.named ⟨"ipam/v1", "IPAllocation"⟩ "x")
  obtain ⟨s, hs, hroot, x, hx, hspace⟩ : ∃ s, leasing.populated leasedPackage = some s ∧
      k.target ≠ s.final.writeManifest.manifest.source.identity ∧
      ∃ x, s.final.writeManifest.inventory.existing? k = some x ∧ x.space = none := by
    decide +kernel
  have hmem := (mem_states hs).2.2.2
  have hafter (index : Nat) (root : Resource)
      (_ : leasedPackage.rootManifest? = some (index, root)) : leasing.RendersPackage root.name := by
    rintro _ ⟨⟩ answer ⟨⟩
  exact ⟨_, hmem, k, x, rfl, hx, hspace,
    ((resources_agree (by decide +kernel) rendersOwn_leasing hafter).1 _ hmem k x hx
      fun _ => hroot).2⟩

/-- The callback gets the updated allocation without the namespace that it has in the batch. -/
theorem namespace_withheld : (leasedPackage.items.map Resource.identity).Nodup ∧
    leasing.RendersOwn ∧ ∃ g x item, .generate (some g) [x] ∈ (leasing.run leasedPackage).calls ∧
      Batch.itemAt (leasing.run leasedPackage).batch.items x.identity = some item ∧
      item.space = some "north" ∧ x.space = none := by
  refine ⟨by decide +kernel, rendersOwn_leasing, .minimal ⟨"req/v1", "Interface"⟩ "a",
    leasing.allocation (leasedPackage.annotated []) "new",
    leasing.allocation (leasedPackage.annotated [("namespace", .string "north")]) "new", ?_⟩
  decide +kernel

end Controller

end Reconciler
