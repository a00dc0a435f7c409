import Reconciler.Proofs.Convergence
import Reconciler.Proofs.Run.Notices
import Reconciler.Proofs.Tally

/-! A governed resource that misdeclares its children is left as it was: neither its item nor its
children nor their conditions are touched, and it is not generated. -/
namespace Reconciler

open Inventory (Key)

variable {c : Controller} {b : Batch} {s : Run} {g x : Resource} {k k' : Key} {p : Ref} {e : Effect}

namespace Inventory.Key

private theorem takeWhile_conditionType (h : (Subject.single k.parent).Readable) :
    k.conditionType.toList.takeWhile (· != '_') = (Subject.singleType k.parent).toList := by
  have hsep : ∀ ch ∈ (Subject.singleType k.parent).toList, (ch != '_') = true := by
    intro ch hch
    rw [bne_iff_ne]
    rintro rfl
    exact ((Subject.Readable.single_iff _).1 h).1 hch
  obtain ⟨rest, hrest, hstop⟩ : ∃ rest,
      k.conditionType.toList = (Subject.singleType k.parent).toList ++ rest ∧
        rest.takeWhile (· != '_') = [] := by
    obtain ⟨role, owner, target⟩ := k
    cases owner with
    | none => exact ⟨[], (List.append_nil _).symm, rfl⟩
    | some owner => exact ⟨_, Subject.toList_pairType owner target, by simp⟩
  rw [hrest, List.takeWhile_append_of_pos hsep, hstop, List.append_nil]

private theorem parent_eq_of_conditionType_eq (h : (Subject.single k.parent).Readable)
    (h' : (Subject.single k'.parent).Readable) (he : k.conditionType = k'.conditionType) :
    k.parent = k'.parent := by
  have htype : Subject.singleType k.parent = Subject.singleType k'.parent := by
    rw [← String.toList_inj, ← takeWhile_conditionType h, ← takeWhile_conditionType h', he]
  exact Subject.single.inj (h.eq_of_typeName_eq h' htype)

end Inventory.Key

namespace Run

private theorem responses_of_failed (hs : Inventory.Sound s.controller s.inventory)
    (ho : s.controller.owned.isEmpty = false) (hf : p ∈ s.failed)
    (hp : s.inventory.existing? (.governed p) = some g) (he : e ∈ s.responses) :
    ∃ r, r ≠ p ∧ e.key = .governed r ∧ (s.inventory.find? (.governed r)).isSome = true ∧
      (e.item = none ∨ ∃ generate governed resources, s.controller.generate = some generate ∧
        s.inventory.existing? (.governed r) = some governed ∧
        e ∈ response s.controller generate r (some governed) resources) := by
  have hfind {entry : Ref × Inventory.Readiness} (hm : entry ∈ s.inventory.readyMap.entries) :
      (s.inventory.find? (.governed entry.1)).isSome = true := by
    obtain ⟨found, hfound, -⟩ := (Inventory.mem_readyMap hs).1 hm
    simp [hfound]
  rcases mem_responses he with ⟨entry, hm, hnone, rfl⟩ | ⟨generate, -, hall, -⟩ |
    ⟨generate, hgen, entry, hm, he⟩ | ⟨hempty, -⟩
  · refine ⟨entry.1, ?_, rfl, hfind hm, .inl rfl⟩
    rintro rfl
    rw [existing?_of_readyMap hs hm, hnone] at hp
    cases hp
  · rw [existing?_of_all_none hs hall] at hp
    cases hp
  · have hkey := key_of_attempt he
    rw [attempt] at he
    split at he
    · cases he
    · rename_i governed hg
      split at he
      · cases he
      · rename_i hsettled
        have hne : entry.1 ≠ p := by
          rintro rfl
          exact hsettled hf
        split at he
        · exact ⟨entry.1, hne, hkey, hfind hm, .inr ⟨generate, governed, _, hgen,
            (existing?_of_readyMap hs hm).trans hg, he⟩⟩
        · rw [ho] at he
          cases he
  · rw [ho] at hempty
    cases hempty

/-- The effect works on the condition of another readable parent, and brings another governed
resource, or a child of a governed resource without failure. -/
private structure Spares (s : Run) (p : Ref) (e : Effect) : Prop where
  condition : e.condition ≠ none →
    (Subject.single e.key.parent).Readable ∧ e.key.parent ≠ p
  item : ∀ x, e.item = some x →
    (x.identity ≠ p ∧ (s.inventory.existing? (.governed x.identity)).isSome = true) ∨
      (s.controller.exchange? x.identity).isSome = true ∧ ∃ q, q ∉ s.failed ∧
        ((∃ old, s.inventory.existing? (.owned q x.identity) = some old) ∨
          ∃ new, s.inventory.desired? (.owned q x.identity) = some new)

end Run

namespace Controller

/-- The references of the governed resources of a package are read back from their types. -/
def ReadableGoverned (c : Controller) (b : Batch) (index : Nat) : Prop :=
  ∀ g ∈ b.governed c index, (Subject.single g.identity).Readable

instance (c : Controller) (b : Batch) (index : Nat) : Decidable (c.ReadableGoverned b index) :=
  inferInstanceAs (Decidable (∀ g ∈ b.governed c index, (Subject.single g.identity).Readable))

private theorem readable_parent_of_keyOf {index : Nat} (hread : c.ReadableGoverned b index)
    (hm : x ∈ b.others index) (hk : c.keyOf x = some k) (hrole : k.role ≠ .watched) :
    (Subject.single k.parent).Readable := by
  obtain ⟨hadmits, -⟩ := keyOf_eq_some hk
  obtain ⟨role, owner, target⟩ := k
  cases role with
  | governed =>
    cases owner with
    | none =>
      obtain ⟨hgov, rfl⟩ := keyOf_governed_iff.1 hk
      exact hread x (List.mem_filter.2 ⟨hm, hgov⟩)
    | some owner => exact hadmits.elim
  | owned =>
    cases owner with
    | none => exact hadmits.elim
    | some owner =>
      obtain ⟨-, -, -, howner⟩ := keyOf_owned_iff.1 hk
      obtain ⟨-, typeName, -, ht⟩ := ownerOf_eq_some_iff.1 howner
      exact Subject.readable_of_ofTypeName? ht
  | watched => exact absurd rfl hrole

namespace Gathered

variable (h : Gathered c b s)
include h

private theorem readable_parent (hread : c.ReadableGoverned b s.manifestIndex)
    (hk : (s.inventory.find? k).isSome = true) (hrole : k.role ≠ .watched) :
    (Subject.single k.parent).Readable := by
  rcases h.sound.isSome_find?_iff.1 hk with hcond | hex | hd
  · have hsubject := h.readable_of_condition? hcond
    obtain ⟨role, owner, target⟩ := k
    cases owner with
    | none => exact hsubject
    | some owner => exact hsubject.of_pair
  · obtain ⟨x, hx⟩ := Option.ne_none_iff_exists'.1 hex
    obtain ⟨hm, hkey⟩ := h.mem_of_existing? _ _ hx
    exact readable_parent_of_keyOf hread hm hkey hrole
  · obtain ⟨x, hx⟩ := Option.ne_none_iff_exists'.1 hd
    obtain ⟨g, hm, hgov, -, rfl⟩ := h.mem_of_desired? _ _ hx
    exact hread g (List.mem_filter.2 ⟨hm, hgov⟩)

private theorem spares_of_arises (hread : c.ReadableGoverned b s.manifestIndex)
    (ho : c.owned.isEmpty = false)
    (hf : p ∈ s.failed) (hp : s.inventory.existing? (.governed p) = some g)
    (hgen : ∀ generate, c.generate = some generate → ∀ r governed, r ≠ p →
      s.inventory.existing? (.governed r) = some governed → ∀ resources answer,
        generate (some governed) resources = .ok (some answer) → answer.identity = r)
    (he : s.Arises e) : s.Spares p e := by
  rcases he with ⟨a, ha, rfl⟩ | rfl | he
  · -- actions are due for the children of governed resources without failure only
    have hfound := Run.isSome_of_mem_childActions ha
    have hrole := Run.role_of_mem_childActions ha
    obtain ⟨-, q, target, exchange, hq, -, -, hdue⟩ := h.mem_childActions.1 ha
    constructor
    · intro _
      rw [Inventory.Action.key_effect]
      refine ⟨h.readable_parent hread hfound (by simp [hrole]), ?_⟩
      rw [hdue.key_eq]
      rintro rfl
      exact hq hf
    · intro x hx
      right
      rcases h.writes_cases ha hx with ⟨q, isUpdate, new, -, hb⟩ | ⟨q, old, -, hr⟩
      · exact ⟨Option.isSome_of_any hb.exchange, q, hb.settled, .inr ⟨_, hb.desired⟩⟩
      · exact ⟨Option.isSome_of_any hr.exchange, q, hr.settled, .inl ⟨_, hr.existing⟩⟩
  · exact ⟨fun hcond => absurd rfl hcond, fun x hx => nomatch hx⟩
  · have hcontroller : s.updateChildren.controller = c :=
      s.controller_updateChildren.trans h.controller
    obtain ⟨r, hne, hkey, hfound, hitem⟩ := Run.responses_of_failed h.sound_updateChildren
      (hcontroller ▸ ho) (Run.mem_failed_updateChildren hf)
      ((h.existing?_governed_updateChildren p).trans hp) he
    rw [h.governed_updateChildren] at hfound
    constructor
    · intro _
      rw [hkey]
      exact ⟨h.readable_parent hread hfound (by simp [Key.governed]), hne⟩
    · intro x hx
      left
      rcases hitem with hnone | ⟨generate, governed, resources, hg, hpresent, hresponse⟩
      · rw [hnone] at hx
        cases hx
      · rw [h.existing?_governed_updateChildren] at hpresent
        obtain ⟨-, hid⟩ := Run.isKeyed_of_response
          (hgen generate (hcontroller ▸ hg) r governed hne hpresent resources) hresponse x hx
        rw [hkey] at hid
        change x.identity = r at hid
        subst hid
        exact ⟨hne, by simp [hpresent]⟩

end Gathered

section Spared

variable (h : Populated c b s) (hn : (b.items.map Resource.identity).Nodup)
  (hg : g ∈ b.governed c s.manifestIndex) (ht : Run.Through (s.Spares g.identity) s s.final)
include h ht

private theorem Populated.item_of_spared (hx : c.exchange? g.identity = none)
    (hroot : g.identity ≠ s.manifest.source.identity) {i : Nat} (hi : b.items[i]? = some g) :
    s.final.writeManifest.batch.items[i]? = some g := by
  refine h.getElem?_writeManifest_of_ne ht hi hroot fun e new he hnew hid => ?_
  rcases he.item new hnew with ⟨hne, -⟩ | ⟨hexchange, -⟩
  · exact hne hid
  · rw [hid, h.controller, hx] at hexchange
    cases hexchange

include hn hg in
private theorem Populated.owned_of_spared (hread : c.ReadableGoverned b s.manifestIndex)
    (hf : g.identity ∈ s.failed) {i : Nat} (hi : b.items[i]? = some x)
    (hroot : x.identity ≠ s.manifest.source.identity) (hgov : c.governs x.identity = false)
    (hown : x.isOwnedBy g.identity = true)
    (hnone : ∀ g' ∈ b.governed c s.manifestIndex, ¬ c.Misdeclares g' →
      c.desiredBy g' x.identity = none) :
    s.final.writeManifest.batch.items[i]? = some x := by
  refine h.getElem?_writeManifest_of_ne ht hi hroot fun e new he hnew hid => ?_
  rcases he.item new hnew with ⟨-, hpresent⟩ | ⟨-, q, hq, ⟨old, hold⟩ | ⟨child, hchild⟩⟩
  · obtain ⟨g', hg'⟩ := Option.isSome_iff_exists.1 hpresent
    have hgov' := (h.existing?_governed.1 hg').2.1
    rw [hid, hgov] at hgov'
    cases hgov'
  · -- the item has one owner only
    obtain ⟨hm, hold', -, -, -, howner⟩ := h.existing?_owned hold
    have hsame : some old = some x := by
      rw [← Batch.itemAt_of_mem hn (Batch.mem_of_mem_others hm), hold', hid,
        Batch.itemAt_of_mem hn (List.mem_of_getElem? hi)]
    cases hsame
    rw [Resource.isOwnedBy, howner, beq_iff_eq, Option.some.injEq] at hown
    have hq' : (Subject.single q).Readable :=
      readable_parent_of_keyOf (k := .owned q new.identity) hread hm
        (h.mem_of_existing? _ _ hold).2 (by simp [Key.owned])
    exact hq (Subject.single.inj (hq'.eq_of_typeName_eq (hread g hg) hown) ▸ hf)
  · obtain ⟨-, g', hg', rfl, hd⟩ := h.desired?_owned hchild
    have hm : ¬ c.Misdeclares g' := fun hm => hq ((h.failed _).2 ⟨g', hg', hm⟩)
    rw [hid, hnone g' (h.mem_governed.2 hg') hm] at hd
    cases hd

omit h in
include hg in
private theorem conditions_of_spared (hread : c.ReadableGoverned b s.manifestIndex)
    (hk : k.parent = g.identity) :
    s.final.manifest.conditions.filter (fun x => x.typeName == k.conditionType) =
      s.manifest.conditions.filter fun x => x.typeName == k.conditionType := by
  refine ht.conditions (· == k.conditionType) fun e he hcond => ?_
  obtain ⟨hparent, hne⟩ := he.condition hcond
  rw [beq_eq_false_iff_ne]
  intro htype
  exact hne ((Inventory.Key.parent_eq_of_conditionType_eq hparent (hk ▸ hread g hg) htype).trans hk)

include hn in
private theorem Populated.manifest_of_spared (hw : s.manifest.source.root.WellFormed)
    (hx : c.exchange? s.manifest.source.identity = none) :
    Batch.itemAt s.final.writeManifest.batch.items s.manifest.source.identity =
      some s.final.rootAfter ∧
    Manifest.ofResource s.final.rootAfter = .ok ⟨s.final.rootAfter, s.final.conditionsAfter⟩ ∧
    (s.final.conditionsAfter = s.final.manifest.conditions ∨
      s.final.conditionsAfter = s.manifest.conditions) := by
  obtain ⟨hroot, hd⟩ := Batch.rootManifest?_eq_some h.root
  have hsource := ht.source
  have hload := Run.ofResource_rootAfter (t := s.final) (by rwa [hsource])
  refine ⟨?_, hload, ?_⟩
  · have hkept : Batch.itemAt s.final.batch.items s.manifest.source.identity =
        some s.manifest.source := by
      rw [ht.itemAt, h.items]
      · exact Batch.itemAt_of_mem hn (List.mem_of_getElem? hroot)
      · intro e new he hnew hid
        rcases he.item new hnew with ⟨-, hpresent⟩ | ⟨hexchange, -⟩
        · obtain ⟨g', hg'⟩ := Option.isSome_iff_exists.1 hpresent
          obtain ⟨hm, -, hid'⟩ := h.existing?_governed.1 hg'
          exact ((Batch.mem_others_iff_itemAt hn hroot).1 hm).2 (hid'.trans hid)
        · rw [hid, h.controller, hx] at hexchange
          cases hexchange
    rw [← hsource] at hkept hw ⊢
    exact Run.itemAt_writeManifest_self hw hkept
  · rw [Run.conditionsAfter]
    split
    · exact .inl rfl
    · rename_i fault hfault
      rw [Run.rootAfter, Run.conditionsAfter, hfault] at hload
      simp only [hsource, h.manifest] at hload
      exact .inr (congrArg Manifest.conditions (Except.ok.inj hload)).symm

end Spared

/-- What a run leaves of a governed resource as it was. -/
structure LeavesAlone (c : Controller) (b : Batch) (s : Run) (g : Resource) : Prop where
  /-- Its item is the same. -/
  item : ∀ i : Nat, b.items[i]? = some g → (c.run b).batch.items[i]? = some g
  /-- So is each item that it owns, governed ones and the manifest apart, unless a governed resource
  without failure desires it. -/
  owned : ∀ (i : Nat) r, b.items[i]? = some r → i ≠ s.manifestIndex → c.governs r.identity = false →
    r.isOwnedBy g.identity = true →
    (∀ g' ∈ b.governed c s.manifestIndex, ¬ c.Misdeclares g' → c.desiredBy g' r.identity = none) →
    (c.run b).batch.items[i]? = some r
  /-- So are its condition and those about it and a child, when the run ends, -/
  conditions : ∀ k : Key, k.parent = g.identity →
    s.final.writeManifest.manifest.conditions.filter (fun x => x.typeName == k.conditionType) =
      s.manifest.conditions.filter fun x => x.typeName == k.conditionType
  /-- and in the manifest in the batch too, unless manifests are owned. -/
  stored : s.manifest.source.root.WellFormed → c.exchange? s.manifest.source.identity = none →
    ∃ m : Manifest, Batch.itemAt (c.run b).batch.items s.manifest.source.identity = some m.source ∧
      Manifest.ofResource m.source = .ok m ∧ ∀ k : Key, k.parent = g.identity →
        m.conditions.filter (fun x => x.typeName == k.conditionType) =
          s.manifest.conditions.filter fun x => x.typeName == k.conditionType
  /-- It is not handed to the generation callback. -/
  generate : ∀ g' resources, .generate (some g') resources ∈ (c.run b).calls →
    g'.identity ≠ g.identity
  /-- An error about it is added. -/
  reported : ∃ added, (c.run b).batch.notices = b.notices ++ added ∧
    ∃ n ∈ added, n.severity = .error ∧ n.resource = some g.reference

/-- A governed resource whose children could not be got or recorded is left alone, with all that
belongs to it, as long as the others are rendered under their own identities. -/
theorem misdeclared_left_alone (hn : (b.items.map Resource.identity).Nodup)
    (hs : c.populated b = some s) (hread : c.ReadableGoverned b s.manifestIndex)
    (ho : c.owned.isEmpty = false) (hx : c.owned.contains c.governed = false)
    (hg : g ∈ b.governed c s.manifestIndex) (hm : c.Misdeclares g)
    (hgen : ∀ generate, c.generate = some generate → ∀ g' ∈ b.governed c s.manifestIndex,
      g'.identity ≠ g.identity → ∀ resources answer,
        generate (some g') resources = .ok (some answer) → answer.identity = g'.identity) :
    LeavesAlone c b s g := by
  have h := populated_spec hn hs
  have hpresent := h.mem_governed.1 hg
  have hfailed : g.identity ∈ s.failed := (h.failed _).2 ⟨g, hpresent, hm⟩
  obtain ⟨hother, hgov⟩ := List.mem_filter.1 hg
  have hroot := (Batch.rootManifest?_eq_some h.root).1
  have hexchange := exchange?_of_governs hx hgov
  have ht : Run.Through (s.Spares g.identity) s s.final := by
    refine h.through_arising.mono fun e he =>
      h.spares_of_arises hread ho hfailed hpresent (fun generate hc r governed hne hex => ?_) he
    obtain ⟨hmem, hgr, rfl⟩ := h.existing?_governed.1 hex
    exact hgen generate hc governed (List.mem_filter.2 ⟨hmem, hgr⟩) hne
  have hrun := run_eq_of_populated hs
  constructor
  case item =>
    intro i hi
    rw [hrun]
    exact h.item_of_spared ht hexchange ((Batch.mem_others_iff_itemAt hn hroot).1 hother).2 hi
  case owned =>
    intro i r hi hne hgr hown hnone
    rw [hrun]
    have hr := (Batch.mem_others_iff_itemAt hn hroot).1 (Batch.mem_others.2 ⟨i, hi, hne⟩)
    exact h.owned_of_spared hn hg ht hread hfailed hi hr.2 hgr hown hnone
  case conditions =>
    intro k hk
    exact conditions_of_spared hg ht hread hk
  case stored =>
    intro hw hmanifest
    rw [hrun]
    obtain ⟨hitem, hload, hconditions⟩ := h.manifest_of_spared hn ht hw hmanifest
    refine ⟨⟨s.final.rootAfter, s.final.conditionsAfter⟩, hitem, hload, fun k hk => ?_⟩
    rcases hconditions with he | he
    · rw [he]
      exact conditions_of_spared hg ht hread hk
    · rw [he]
  case generate =>
    intro g' resources hcall hid
    obtain ⟨r, entry, hentry, hex, -, hsettled, -⟩ :=
      (Run.mem_generations h.sound_updateChildren).1 (h.mem_generations_of_mem_calls hs hcall)
    have hpresent' : s.inventory.existing? (.governed r) = some g' := by
      rw [← h.existing?_governed_updateChildren, Inventory.existing?,
        Inventory.entryAt_of_find? hentry, hex]
    obtain ⟨-, -, rfl⟩ := h.existing?_governed.1 hpresent'
    exact hsettled (Run.mem_failed_updateChildren (hid ▸ hfailed))
  case reported =>
    have hrecalls : Run.Recalls s s.final.writeManifest :=
      (s.recalls_updateChildren.trans s.updateChildren.recalls_generateAll).trans
        s.final.recalls_writeManifest
    rw [hrun]
    obtain ⟨told, htold⟩ := hrecalls
    obtain ⟨added, hadded, n, hmem, herror⟩ := reports_of_misdeclares hs hpresent hm
    refine ⟨added ++ told, ?_, n, List.mem_append_left _ hmem, herror⟩
    rw [← List.append_assoc, ← hadded]
    exact htold.symm

/-- Interfaces ask for an allocation named after them, and are rendered as they are. Interface `a`
asks for a cluster as well, which is not owned. -/
def overreaching : Controller :=
  { (ofGoverned ⟨"req/v1", "Interface"⟩).owning ⟨"ipam/v1", "IPAllocation"⟩ .conditionAndResource with
    populate := some fun g => .ok (.minimal ⟨"ipam/v1", "IPAllocation"⟩ g.name ::
      if g.name = "a" then [.minimal ⟨"infra/v1", "Cluster"⟩ "edge"] else [])
    generate := some fun governed _ => .ok governed }

def formerAllocation : Resource :=
  ⟨.object [("apiVersion", .string "ipam/v1"), ("kind", .string "IPAllocation"),
    ("metadata", .object [
      ("annotations", .object [(Resource.ownerAnnotation, .string "req/v1.Interface.a")]),
      ("name", .string "x")])]⟩

def overreachedPackage : Batch :=
  .ofItems [manifestWith "req/v1.Interface.a_ipam/v1.IPAllocation.x" "True",
    .minimal ⟨"req/v1", "Interface"⟩ "a", .minimal ⟨"req/v1", "Interface"⟩ "b", formerAllocation]

/-- Interface `b` gets its allocation. Interface `a` gets none, keeps the one that it has, and is
reported. -/
theorem misdeclared_left_alone_overreaching :
    ∃ s, overreaching.populated overreachedPackage = some s ∧
      LeavesAlone overreaching overreachedPackage s (.minimal ⟨"req/v1", "Interface"⟩ "a") ∧
      (overreaching.run overreachedPackage).batch.items[3]? = some formerAllocation ∧
      (overreaching.run overreachedPackage).batch.items.map Resource.name =
        ["pkg", "a", "b", "x", "b"] := by
  obtain ⟨s, hs, hindex, hread, hg, hnone⟩ : ∃ s,
      overreaching.populated overreachedPackage = some s ∧ s.manifestIndex = 0 ∧
      overreaching.ReadableGoverned overreachedPackage s.manifestIndex ∧
      .minimal ⟨"req/v1", "Interface"⟩ "a" ∈
        overreachedPackage.governed overreaching s.manifestIndex ∧
      ∀ g ∈ overreachedPackage.governed overreaching s.manifestIndex,
        overreaching.desiredBy g formerAllocation.identity = none := by
    decide +kernel
  have halone := misdeclared_left_alone (by decide +kernel) hs hread (by decide) (by decide) hg
    ⟨_, rfl, .inr ⟨_, rfl, _, List.mem_cons_of_mem _ List.mem_cons_self, by decide +kernel⟩⟩
    fun _ hc g' _ _ resources answer hanswer => by
      cases hc
      cases hanswer
      rfl
  refine ⟨s, hs, halone, ?_, by decide +kernel⟩
  exact halone.owned 3 formerAllocation rfl (by simp [hindex]) (by decide +kernel) (by decide +kernel)
    fun g hg' _ => hnone g hg'

end Controller

end Reconciler
