import Reconciler.Proofs.Frame
import Reconciler.Proofs.Inventory.Readiness

/-! What keeps a package from being ready. A global watch takes its condition by the type alone, and
its resource also by its annotation and the owned classes. -/
namespace Reconciler

open Inventory (Key)

namespace Inventory

private theorem isReady_eq_false_iff {inv : Inventory} : inv.isReady = false ↔ ∃ target,
    (inv.find? (.watched none target)).isSome = true ∧
      (inv.existing? (.watched none target) = none ∨
        ∃ x, inv.condition? (.watched none target) = some x ∧ x.isFalse = true) := by
  rw [← Bool.not_eq_true, isReady_iff]
  constructor
  · intro h
    refine Classical.byContradiction fun hn => h fun target hk => ?_
    constructor
    · intro hex
      exact hn ⟨target, hk, .inl hex⟩
    · rw [← Bool.not_eq_true, Option.any_eq_true]
      intro hfalse
      exact hn ⟨target, hk, .inr hfalse⟩
  · rintro ⟨target, hk, hcause⟩ h
    obtain ⟨hex, hcond⟩ := h target hk
    rcases hcause with hnone | ⟨x, hx, hfalse⟩
    · exact hex hnone
    · rw [hx, Option.any_some, hfalse] at hcond
      cases hcond

end Inventory

namespace Controller

variable {c : Controller} {b : Batch} {s : Run}

/-- Conditions of the reference are recorded as global: its class is watched, or everything is and
it is among the items. -/
def Watches (c : Controller) (items : List Resource) (target : Ref) : Prop :=
  c.governs target = false ∧ ((c.watchExact? target).isSome = true ∨
    c.watched.contains .wildcard = true ∧ c.exchange? target = none ∧
      ∃ r ∈ items, r.identity = target)

/-- The class of the resource is watched, but it is recorded elsewhere than its condition: it is of
an owned class, or its annotation names a governed owner. -/
def Displaces (c : Controller) (r : Resource) : Prop :=
  (c.watchExact? r.identity).isSome = true ∧
    ((c.exchange? r.identity).isSome = true ∨ (c.ownerOf r).isSome = true)

private theorem keyOf_global_of_watches {items : List Resource} {r : Resource}
    (h : c.Watches items r.identity) :
    c.keyOf r = some (.watched none r.identity) ↔ ¬ c.Displaces r := by
  obtain ⟨hg, hwatches⟩ := h
  rw [keyOf_global_iff, watchGlobal?_isSome, Displaces]
  cases hw : c.watchExact? r.identity with
  | some watched =>
    simp [hg]
  | none =>
    -- only the wildcard watches the item, and it asks for no owner
    obtain ⟨hwild, hx, -⟩ := hwatches.resolve_left (by simp [hw])
    simp [hg, hwild, hx]

variable {items : List Resource} {conditions : List Condition} {target : Ref}

private theorem takes_global_iff (hn : (items.map Resource.identity).Nodup) :
    Inventory.takes c ((Inventory.survey c items conditions).existing? (.watched none target)).isSome
      (.watched none target) = true ↔ c.Watches items target := by
  change (!c.governs target && ((c.watchExact? target).isSome || _)) = true ↔ _
  rw [Bool.and_eq_true, Bool.not_eq_true', Bool.or_eq_true, Watches]
  refine and_congr_right fun hg => ?_
  cases hw : c.watchExact? target with
  | some watched => simp
  | none =>
    simp only [Option.isSome_none, Bool.false_eq_true, false_or, Option.isSome_iff_exists,
      Inventory.existing?_survey hn]
    constructor
    · rintro ⟨r, hr, hk⟩
      obtain ⟨hid, -, hx, hglobal, -⟩ := keyOf_global_iff.1 hk
      rw [watchGlobal?_isSome, hw] at hglobal
      exact ⟨hglobal.resolve_left (by simp), hx, r, hr, hid⟩
    · rintro ⟨hwild, hx, r, hr, hid⟩
      refine ⟨r, hr, keyOf_global_iff.2 ⟨hid, hg, hx, ?_, .inr hw⟩⟩
      exact watchGlobal?_isSome.2 (.inr hwild)

private theorem existing?_global_eq_none_iff (hn : (items.map Resource.identity).Nodup)
    (h : c.Watches items target) :
    (Inventory.survey c items conditions).existing? (.watched none target) = none ↔
      (∀ r ∈ items, r.identity ≠ target) ∨ ∃ r ∈ items, r.identity = target ∧ c.Displaces r := by
  rw [Option.eq_none_iff_forall_ne_some]
  simp only [ne_eq, Inventory.existing?_survey hn, not_and]
  constructor
  · intro hnot
    by_cases hitem : ∃ r ∈ items, r.identity = target
    · obtain ⟨r, hr, rfl⟩ := hitem
      have hkey := hnot r hr
      rw [keyOf_global_of_watches h, Classical.not_not] at hkey
      exact .inr ⟨r, hr, rfl, hkey⟩
    · exact .inl fun r hr hid => hitem ⟨r, hr, hid⟩
  · rintro (hnone | ⟨r, hr, rfl, hdisplaced⟩) r' hr' hk
    · exact hnone r' hr' (keyOf_eq_some hk).2.symm
    · have hid : r'.identity = r.identity := (keyOf_eq_some hk).2.symm
      have hsame : some r' = some r := by
        rw [← Batch.itemAt_of_mem hn hr', hid, Batch.itemAt_of_mem hn hr]
      cases hsame
      exact (keyOf_global_of_watches h).1 hk hdisplaced

/-- A package is not ready exactly if a condition about a watched reference is false, or the
reference has no item, or its item is displaced. -/
theorem blocked_iff (hs : Run.start c b = .ok s) (hb : (b.items.map Resource.identity).Nodup)
    (hm : (s.manifest.conditions.map Condition.typeName).Nodup) :
    s.populateInventory.inventory.isReady = false ↔
      ∃ x ∈ s.manifest.conditions, ∃ target,
        Subject.ofTypeName? x.typeName = some (.single target) ∧
        c.Watches (b.others s.manifestIndex) target ∧
        (x.isFalse = true ∨ (∀ r ∈ b.others s.manifestIndex, r.identity ≠ target) ∨
          ∃ r ∈ b.others s.manifestIndex, r.identity = target ∧ c.Displaces r) := by
  have hn := Batch.nodup_others hb s.manifestIndex
  have hsurvey : s.populateInventory.inventory =
      Inventory.survey c (b.others s.manifestIndex) s.manifest.conditions :=
    (surveyed_of_start hs).1.inventory
  have hcondition (target : Ref) (x : Condition) :
      s.populateInventory.inventory.condition? (.watched none target) = some x ↔
        c.Watches (b.others s.manifestIndex) target ∧ x ∈ s.manifest.conditions ∧
          Subject.ofTypeName? x.typeName = some (.single target) := by
    rw [hsurvey, Inventory.condition?_survey_eq_some hm, takes_global_iff hn]
    rfl
  have hmissing (target : Ref) (h : c.Watches (b.others s.manifestIndex) target) :
      s.populateInventory.inventory.existing? (.watched none target) = none ↔
        (∀ r ∈ b.others s.manifestIndex, r.identity ≠ target) ∨
          ∃ r ∈ b.others s.manifestIndex, r.identity = target ∧ c.Displaces r := by
    rw [hsurvey]
    exact existing?_global_eq_none_iff hn h
  have hentry (target : Ref) :
      (s.populateInventory.inventory.find? (.watched none target)).isSome = true ↔
        s.populateInventory.inventory.condition? (.watched none target) ≠ none ∨
          s.populateInventory.inventory.existing? (.watched none target) ≠ none := by
    rw [hsurvey, (Inventory.sound_survey c _ _).isSome_find?_iff, Inventory.desired?_survey]
    simp
  rw [Inventory.isReady_eq_false_iff]
  constructor
  · rintro ⟨target, hk, hnone | ⟨x, hx, hfalse⟩⟩
    · -- an entry without resource is there for its condition
      have hsome := ((hentry target).1 hk).resolve_right (by simp [hnone])
      obtain ⟨x, hx⟩ := Option.ne_none_iff_exists'.1 hsome
      obtain ⟨hwatches, hmem, hread⟩ := (hcondition target x).1 hx
      exact ⟨x, hmem, target, hread, hwatches, .inr ((hmissing target hwatches).1 hnone)⟩
    · obtain ⟨hwatches, hmem, hread⟩ := (hcondition target x).1 hx
      exact ⟨x, hmem, target, hread, hwatches, .inl hfalse⟩
  · rintro ⟨x, hmem, target, hread, hwatches, hcause⟩
    have hx := (hcondition target x).2 ⟨hwatches, hmem, hread⟩
    refine ⟨target, (hentry target).2 (.inl (by simp [hx])), ?_⟩
    rcases hcause with hfalse | hnone
    · exact .inr ⟨x, hx, hfalse⟩
    · exact .inl ((hmissing target hwatches).2 hnone)

def awaiting : Controller :=
  (ofGoverned ⟨"req/v1", "Interface"⟩).watching ⟨"infra/v1", "Cluster"⟩ fun _ => .ok ()

def awaitingOwn : Controller := awaiting.owning ⟨"infra/v1", "Cluster"⟩ .localOnly

def assignedCluster : Resource :=
  ⟨.object [("apiVersion", .string "infra/v1"), ("kind", .string "Cluster"),
    ("metadata", .object [
      ("annotations", .object [(Resource.ownerAnnotation, .string "req/v1.Interface.a")]),
      ("name", .string "edge")])]⟩

def upPackage (clusters : List Resource) : Batch :=
  .ofItems (manifestWith "infra/v1.Cluster.edge" "True" :: clusters)

/-- Without the cluster the package is blocked. -/
theorem blocked_iff_absent : ∃ s, Run.start awaiting (upPackage []) = .ok s ∧
    ((upPackage []).items.map Resource.identity).Nodup ∧
    (s.manifest.conditions.map Condition.typeName).Nodup ∧
    s.populateInventory.inventory.isReady = false := by
  obtain ⟨s, hs, hm, hx, hnone⟩ : ∃ s, Run.start awaiting (upPackage []) = .ok s ∧
      (s.manifest.conditions.map Condition.typeName).Nodup ∧
      ⟨"infra/v1.Cluster.edge", .isTrue, none, ""⟩ ∈ s.manifest.conditions ∧
      ∀ r ∈ (upPackage []).others s.manifestIndex,
        r.identity ≠ ⟨⟨"infra/v1", "Cluster"⟩, "edge", none⟩ :=
    exists_started (by decide +kernel)
  have hb : ((upPackage []).items.map Resource.identity).Nodup := by decide +kernel
  refine ⟨s, hs, hb, hm, (blocked_iff hs hb hm).2 ⟨_, hx, _, by decide +kernel, ?_, .inr (.inl hnone)⟩⟩
  exact ⟨by decide, .inl (by decide)⟩

def BlocksUp (c : Controller) (cluster : Resource) : Prop :=
  ∃ s, Run.start c (upPackage [cluster]) = .ok s ∧
    ((upPackage [cluster]).items.map Resource.identity).Nodup ∧
    (s.manifest.conditions.map Condition.typeName).Nodup ∧
    s.populateInventory.inventory.isReady = false ∧
    ∀ x ∈ s.manifest.conditions, x.status = .isTrue ∧
      ∃ r ∈ (upPackage [cluster]).others s.manifestIndex,
        Subject.ofTypeName? x.typeName = some (.single r.identity)

/-- A cluster that is there and up blocks the package where it belongs to an interface, and where
clusters are owned as well as watched. -/
theorem blocked_by_displaced : BlocksUp awaiting assignedCluster ∧
    BlocksUp awaitingOwn assignedCluster ∧
    BlocksUp awaitingOwn (.minimal ⟨"infra/v1", "Cluster"⟩ "edge") :=
  ⟨exists_started (by decide +kernel), exists_started (by decide +kernel),
    exists_started (by decide +kernel)⟩

end Controller

end Reconciler
