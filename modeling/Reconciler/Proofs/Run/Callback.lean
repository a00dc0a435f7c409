import Reconciler.Proofs.Run.States

/-! Only generation asks the generation callback: with another callback a run passes through the same
states up to there. -/
namespace Reconciler

open Inventory (Change Key Plan)

variable {c : Controller} {b : Batch}
  (f : Option Resource → List Resource → Except Failure (Option Resource))

namespace Controller

def generating (c : Controller) : Controller := { c with generate := some f }

end Controller

namespace Run

def generating (s : Run) : Run := { s with controller := s.controller.generating f }

private theorem start_generating (c : Controller) (b : Batch) :
    start (c.generating f) b = (start c b).map (generating f) := by
  rw [start, start, show (c.generating f).check = c.check from rfl]
  cases c.check with
  | error fault => rfl
  | ok _ =>
    cases b.items.isEmpty with
    | true => rfl
    | false =>
      cases b.rootManifest? with
      | none => rfl
      | some root =>
        cases hm : Manifest.ofResource root.2 with
        | error fault =>
          simp only [hm]
          rfl
        | ok manifest =>
          simp only [hm]
          rfl

private theorem populateInventory_generating (s : Run) :
    (s.generating f).populateInventory = s.populateInventory.generating f := rfl

private theorem callEach_generating (s : Run) (watches : List (Coordinate × Resource)) :
    (s.generating f).callEach watches =
      ((s.callEach watches).1, (s.callEach watches).2.generating f) := by
  induction watches generalizing s with
  | nil => rfl
  | cons watch watches ih =>
    obtain ⟨watched, r⟩ := watch
    rw [callEach, callEach, show (s.generating f).controller.watched = s.controller.watched from rfl]
    cases s.controller.watched.find? watched with
    | none => exact ih s
    | some callback =>
      cases hr : callback r with
      | ok _ =>
        simp only [hr]
        exact ih (s.logCall (.watch watched r))
      | error failure =>
        simp only [hr]
        rfl

private theorem callWatches_generating (s : Run) :
    (s.generating f).callWatches = (s.callWatches.1, s.callWatches.2.generating f) :=
  callEach_generating f s s.observedWatches

private theorem foldl_generating {α : Type} {step : Run → α → Run}
    (hstep : ∀ s a, step (s.generating f) a = (step s a).generating f) (l : List α) (s : Run) :
    l.foldl step (s.generating f) = (l.foldl step s).generating f :=
  List.foldl_hom (generating f) hstep

private theorem registerChild_generating (parent : Resource) (s : Run) (child : Resource) :
    registerChild parent (s.generating f) child = (registerChild parent s child).generating f := by
  simp only [registerChild]
  split
  · rfl
  · rename_i child _
    rw [show (s.generating f).controller.exchange? child.identity =
      s.controller.exchange? child.identity from rfl]
    split
    · rfl
    · rfl

private theorem populateParent_generating (populate : Resource → Except Failure (List Resource))
    (s : Run)
    (parent : Resource) : populateParent populate (s.generating f) parent =
      (populateParent populate s parent).generating f := by
  simp only [populateParent]
  split
  · rename_i children _
    exact foldl_generating f (registerChild_generating f parent) children (s.logCall _)
  · rfl

private theorem populateChildren_generating (s : Run) :
    (s.generating f).populateChildren = s.populateChildren.generating f := by
  rw [populateChildren, populateChildren,
    show (s.generating f).controller.populate = s.controller.populate from rfl]
  cases s.controller.populate with
  | none => rfl
  | some populate =>
    exact congrArg (atStage · .childrenPopulated)
      (foldl_generating f (populateParent_generating f populate) _ s)

private theorem softDelete_generating (s : Run) (k : Key) (r : Resource) :
    (s.generating f).softDelete k r = (s.softDelete k r).generating f := by
  rw [softDelete, softDelete]
  split
  · rfl
  · split
    · rfl
    · rfl

private theorem writeChange_generating (isUpdate : Bool) (s : Run) (change : Change) :
    writeChange isUpdate (s.generating f) change = (writeChange isUpdate s change).generating f := by
  simp only [writeChange]
  split
  · rfl
  · split
    · rfl
    · split
      · split
        · rfl
        · rfl
      · split
        · rfl
        · rfl

private theorem commit_generating (s : Run) (p : Plan) :
    (s.generating f).commit p = (s.commit p).generating f := by
  simp only [commit]
  rw [foldl_generating f (fun _ _ => rfl), foldl_generating f (fun _ _ => rfl),
    foldl_generating f fun s change => softDelete_generating f s change.key change.resource,
    foldl_generating f (fun _ _ => rfl), foldl_generating f (writeChange_generating f false),
    foldl_generating f (writeChange_generating f true)]

theorem updateChildren_generating (s : Run) :
    (s.generating f).updateChildren = s.updateChildren.generating f := by
  rw [updateChildren, updateChildren,
    show (s.generating f).controller.populate = s.controller.populate from rfl]
  split
  · exact congrArg (atStage · .childrenCommitted) (commit_generating f s _)
  · rfl

end Run

namespace Controller

private theorem surveyed_generating (c : Controller) (b : Batch) :
    (c.generating f).surveyed b = (c.surveyed b).map (Run.generating f) := by
  rw [surveyed, surveyed, Run.start_generating]
  cases Run.start c b with
  | error fault => rfl
  | ok s =>
    simp only [Except.map]
    rw [Run.populateInventory_generating, Run.callWatches_generating]
    cases hw : s.populateInventory.callWatches with
    | mk verdict s' => cases verdict <;> rfl

theorem populated_generating (c : Controller) (b : Batch) :
    (c.generating f).populated b = (c.populated b).map (Run.generating f) := by
  rw [populated, populated, surveyed_generating, Option.map_map, Option.map_map]
  congr 1
  funext s
  exact Run.populateChildren_generating f s

/-- A run that does not get past the watches does not ask the generation callback. -/
theorem states_generating (h : c.populated b = none) :
    (c.generating f).states b = (c.states b).map (Run.generating f) := by
  rw [populated, Option.map_eq_none_iff, surveyed] at h
  rw [states, states, Run.start_generating]
  cases hstart : Run.start c b with
  | error fault => rfl
  | ok s =>
    rw [hstart] at h
    simp only [Except.map] at h ⊢
    rw [Run.populateInventory_generating, Run.callWatches_generating]
    cases hw : s.populateInventory.callWatches with
    | mk verdict s' =>
      rw [hw] at h
      cases verdict with
      | error e => rfl
      | ok _ => cases h

end Controller

end Reconciler
