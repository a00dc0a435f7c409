import Reconciler.Run.Stages
import Reconciler.Proofs.Root
import Reconciler.Proofs.Manifest
import Reconciler.Proofs.Inventory.Survey

/-! The stages of a run before anything is written: the manifest is loaded, the package is surveyed
and the watches are called. -/
namespace Reconciler

variable {c : Controller} {b : Batch} {s : Run}

namespace Batch

def others (b : Batch) (index : Nat) : List Resource :=
  (b.items.zipIdx.filter fun e => e.2 != index).map (·.1)

theorem mem_others {index : Nat} {r : Resource} :
    r ∈ b.others index ↔ ∃ i, b.items[i]? = some r ∧ i ≠ index := by
  simp only [others, List.mem_map, List.mem_filter, Prod.exists, List.mem_zipIdx_iff_getElem?,
    bne_iff_ne, ne_eq]
  constructor
  · rintro ⟨_, i, ⟨hi, hne⟩, rfl⟩
    exact ⟨i, hi, hne⟩
  · rintro ⟨i, hi, hne⟩
    exact ⟨r, i, ⟨hi, hne⟩, rfl⟩

theorem mem_of_mem_others {index : Nat} {r : Resource} (h : r ∈ b.others index) : r ∈ b.items := by
  obtain ⟨i, hi, -⟩ := mem_others.1 h
  exact List.mem_of_getElem? hi

private theorem zipIdx_filter_ne {α : Type} (l : List α) (n i : Nat) :
    ((l.zipIdx n).filter fun e => e.2 != n + i).map (·.1) = l.eraseIdx i := by
  induction l generalizing n i with
  | nil => rfl
  | cons x l ih =>
    rw [List.zipIdx_cons, List.filter_cons]
    cases i with
    | zero =>
      have hlater : (l.zipIdx (n + 1)).filter (fun e => e.2 != n) = l.zipIdx (n + 1) := by
        rw [List.filter_eq_self]
        intro e he
        have hle := List.le_snd_of_mem_zipIdx he
        rw [bne_iff_ne]
        omega
      simp [hlater]
    | succ i =>
      have hne : (n != n + (i + 1)) = true := by
        rw [bne_iff_ne]
        omega
      have hrest := ih (n + 1) i
      rw [show n + 1 + i = n + (i + 1) by omega] at hrest
      rw [if_pos hne, List.map_cons, hrest, List.eraseIdx_cons_succ]

/-- The others are the items without the one at this index. -/
theorem others_eq_eraseIdx (b : Batch) (index : Nat) : b.others index = b.items.eraseIdx index := by
  have herase := zipIdx_filter_ne b.items 0 index
  rwa [Nat.zero_add] at herase

theorem nodup_others (h : (b.items.map Resource.identity).Nodup) (index : Nat) :
    ((b.others index).map Resource.identity).Nodup := by
  rw [others_eq_eraseIdx]
  exact ((List.eraseIdx_sublist b.items index).map _).nodup h

end Batch

namespace Run

def loaded (c : Controller) (b : Batch) (index : Nat) (manifest : Manifest) : Run where
  controller := c
  batch := b
  inventory := default
  manifest
  manifestIndex := index
  manifestRef := manifest.source.reference
  failed := []
  report := { (default : Report) with stage := .manifestLoaded }
  calls := []

/-- A run starts with a valid controller and a root manifest whose conditions can be read. -/
theorem start_eq_ok_iff : start c b = .ok s ↔ c.check = .ok () ∧ ∃ index root manifest,
    b.rootManifest? = some (index, root) ∧ Manifest.ofResource root = .ok manifest ∧
      s = loaded c b index manifest := by
  rw [start]
  cases hc : c.check with
  | error fault => simp [bind, Except.bind]
  | ok _ =>
    by_cases he : b.items.isEmpty = true
    · have hroot : b.rootManifest? = none := by
        rw [List.isEmpty_iff] at he
        simp [Batch.rootManifest?, Batch.manifests, he]
      simp [bind, Except.bind, he, hroot, throw, throwThe, MonadExceptOf.throw]
    · cases hr : b.rootManifest? with
      | none => simp [bind, Except.bind, he, throw, throwThe, MonadExceptOf.throw]
      | some e =>
        obtain ⟨index, root⟩ := e
        cases hm : Manifest.ofResource root with
        | error fault => simp [bind, Except.bind, he, hm]
        | ok manifest =>
          have hsource := (Manifest.ofResource_eq_ok hm).1
          subst hsource
          simp only [bind, Except.bind, he, hm, pure, Except.pure, Except.ok.injEq, true_and,
            Bool.false_eq_true, if_false]
          constructor
          · intro h
            exact ⟨index, manifest.source, manifest, rfl, hm, h.symm⟩
          · rintro ⟨index', root', manifest', hr', hm', rfl⟩
            cases hr'
            rw [hm] at hm'
            cases hm'
            rfl

theorem callEach_eq (s : Run) (watches : List (Coordinate × Resource)) :
    ∃ calls stage, (s.callEach watches).2 =
      { s with calls := s.calls ++ calls, report := { s.report with stage } } ∧
      ∀ call ∈ calls, ∃ watched r, call = .watch watched r := by
  induction watches generalizing s with
  | nil => exact ⟨[], .globalWatchesCalled, by simp [callEach, atStage], by simp⟩
  | cons e rest ih =>
    obtain ⟨watched, r⟩ := e
    rw [callEach]
    cases hf : s.controller.watched.find? watched with
    | none => exact ih s
    | some callback =>
      simp only
      cases callback r with
      | error failure =>
        refine ⟨[.watch watched r], s.report.stage, rfl, ?_⟩
        simp
      | ok _ =>
        obtain ⟨calls, stage, he, hw⟩ := ih (s.logCall (.watch watched r))
        refine ⟨.watch watched r :: calls, stage, ?_, ?_⟩
        · rw [he]
          simp [logCall]
        · intro call hcall
          rcases List.mem_cons.1 hcall with rfl | hcall
          · exact ⟨watched, r, rfl⟩
          · exact hw call hcall

private theorem callEach_isOk {s : Run} (watches : List (Coordinate × Resource))
    (h : ∀ watched callback, s.controller.watched.find? watched = some callback →
      ∀ r, callback r = .ok ()) : (s.callEach watches).1 = .ok () := by
  induction watches generalizing s with
  | nil => rfl
  | cons e rest ih =>
    obtain ⟨watched, r⟩ := e
    rw [callEach]
    cases hf : s.controller.watched.find? watched with
    | none => exact ih h
    | some callback =>
      simp only [h watched callback hf r]
      exact ih h

end Run

namespace Controller

theorem exists_started {p : Run → Prop} [DecidablePred p]
    (h : (Run.start c b).toOption.any (fun s => decide (p s)) = true) :
    ∃ s, Run.start c b = .ok s ∧ p s := by
  cases hs : Run.start c b with
  | error fault =>
    rw [hs] at h
    cases h
  | ok s =>
    rw [hs] at h
    exact ⟨s, rfl, of_decide_eq_true h⟩

/-- The state of a run after the watches, unless the run is aborted before. -/
def surveyed (c : Controller) (b : Batch) : Option Run :=
  match Run.start c b with
  | .error _ => none
  | .ok s =>
    match s.populateInventory.callWatches with
    | (.ok (), s) => some s
    | (.error _, _) => none

/-- What is known of a run after the watches. -/
structure Surveyed (c : Controller) (b : Batch) (s : Run) : Prop where
  check : c.check = .ok ()
  controller : s.controller = c
  batch : s.batch = b
  root : b.rootManifest? = some (s.manifestIndex, s.manifest.source)
  manifest : Manifest.ofResource s.manifest.source = .ok s.manifest
  inventory : s.inventory =
    Inventory.survey c (b.others s.manifestIndex) s.manifest.conditions
  failed : s.failed = []
  objectsWritten : s.report.objectsWritten = 0
  calls : ∀ call ∈ s.calls, ∃ watched r, call = .watch watched r

/-- Calling the watches, whether or not they succeed, leaves the survey alone. -/
theorem surveyed_of_start (h : Run.start c b = .ok s) :
    Surveyed c b s.populateInventory ∧ Surveyed c b s.populateInventory.callWatches.2 := by
  obtain ⟨hc, index, root, manifest, hr, hm, rfl⟩ := Run.start_eq_ok_iff.1 h
  have hsource := (Manifest.ofResource_eq_ok hm).1
  subst hsource
  have hsurveyed : Surveyed c b (Run.loaded c b index manifest).populateInventory := {
    check := hc
    controller := rfl
    batch := rfl
    root := hr
    manifest := hm
    inventory := rfl
    failed := rfl
    objectsWritten := rfl
    calls := by simp [Run.populateInventory, Run.loaded] }
  refine ⟨hsurveyed, ?_⟩
  obtain ⟨calls, stage, he, hcalls⟩ := Run.callEach_eq
    (Run.loaded c b index manifest).populateInventory
    (Run.loaded c b index manifest).populateInventory.observedWatches
  rw [Run.callWatches, he]
  exact { hsurveyed with calls := by simpa [Run.populateInventory, Run.loaded] using hcalls }

theorem surveyed_spec (h : c.surveyed b = some s) : Surveyed c b s := by
  rw [surveyed] at h
  split at h
  · cases h
  · rename_i s₀ hs
    have hspec := (surveyed_of_start hs).2
    split at h
    · rename_i s₁ hw
      cases h
      rw [hw] at hspec
      exact hspec
    · cases h

/-- A run whose watches succeed gets past them as soon as it starts. -/
theorem surveyed_isSome (hw : ∀ watched callback, c.watched.find? watched = some callback →
    ∀ r, callback r = .ok ()) (h : Run.start c b = .ok s) : ∃ s', c.surveyed b = some s' := by
  obtain ⟨-, index, root, manifest, -, -, rfl⟩ := Run.start_eq_ok_iff.1 h
  have hok := Run.callEach_isOk (s := (Run.loaded c b index manifest).populateInventory)
    (Run.loaded c b index manifest).populateInventory.observedWatches hw
  rw [surveyed, h]
  simp only [Run.callWatches]
  split
  · exact ⟨_, rfl⟩
  · rename_i he
    rw [he] at hok
    cases hok

end Controller

end Reconciler
