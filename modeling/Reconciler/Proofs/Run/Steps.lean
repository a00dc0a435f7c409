import Mathlib.Logic.Relation
import Reconciler.Proofs.Run.Generation

/-! What a run is made of, whatever the callbacks answer: items, conditions, notices and counters
change through five operations only. What each of them keeps, a run keeps. -/
namespace Reconciler

open Inventory (Action Key Plan Readiness)

variable {c : Controller} {b : Batch} {s s' : Run}
  {generate : Option Resource → List Resource → Except Failure (Option Resource)}
  {populate : Resource → Except Failure (List Resource)}

def Report.counters (r : Report) : Nat × Nat × Nat × Nat :=
  (r.objectsWritten, r.conditionsWritten, r.conditionsDeleted, r.instanceFailures)

theorem Report.counters_eq_iff {r : Report} {written put dropped failures : Nat} :
    r.counters = (written, put, dropped, failures) ↔ r.objectsWritten = written ∧
      r.conditionsWritten = put ∧ r.conditionsDeleted = dropped ∧ r.instanceFailures = failures := by
  simp [counters]

namespace Run

/-- A single change. A silent one is to inventory, calls or progress. -/
inductive Step : Run → Run → Prop where
  | silent {s s' : Run} (batch : s'.batch = s.batch) (manifest : s'.manifest = s.manifest)
      (counters : s'.report.counters = s.report.counters) : Step s s'
  | fail (s : Run) (owner place : Ref) (message : String) : Step s (s.fail owner place message)
  | inform (s : Run) (message : String) :
      Step s { s with batch := s.batch.notify message .info none }
  | writeItem (s : Run) (r : Resource) : Step s (s.writeItem r)
  | writeCondition (s : Run) (k : Key) (x : Condition) : Step s (s.writeCondition k x)
  | deleteCondition (s : Run) (k : Key) : Step s (s.deleteCondition k)

def Steps : Run → Run → Prop := Relation.ReflTransGen Step

namespace Steps

private theorem refl (s : Run) : Steps s s := Relation.ReflTransGen.refl

private theorem step (h : Step s s') : Steps s s' := Relation.ReflTransGen.single h

theorem trans {s'' : Run} (h : Steps s s') (h' : Steps s' s'') : Steps s s'' :=
  Relation.ReflTransGen.trans h h'

theorem foldl {α : Type} {op : Run → α → Run} (h : ∀ s a, Steps s (op s a)) (s : Run)
    (l : List α) : Steps s (l.foldl op s) := by
  induction l generalizing s with
  | nil => exact refl s
  | cons a l ih => exact (h s a).trans (ih _)

end Steps

section Commit

private theorem steps_store (s : Run) (k : Key) (r : Resource) :
    Steps s { s.writeItem r with inventory := s.inventory.setResource k r } :=
  (Steps.step (.writeItem s r)).trans (.step (.silent rfl rfl rfl))

private theorem steps_softDelete (s : Run) (k : Key) (r : Resource) :
    Steps s (s.softDelete k r) := by
  rw [softDelete]
  split
  · exact .refl s
  · split
    · exact .step (.fail ..)
    · exact (steps_store s k _).trans (.step (.deleteCondition _ k))

private theorem steps_perform (s : Run) (a : Action) : Steps s (s.perform a) := by
  cases a with
  | fault k fault => exact .step (.fail ..)
  | drop k => exact .step (.deleteCondition s k)
  | announce k => exact .step (.writeCondition s k _)
  | retire change => exact steps_softDelete ..
  | write isUpdate change =>
    rw [perform, writeChange]
    simp only
    split
    · exact .step (.fail ..)
    · split
      · exact .step (.fail ..)
      · rename_i r _
        -- first the condition of an updated child, then the resource
        split
        · split
          · exact (Steps.step (.writeCondition s _ _)).trans (steps_store _ _ r)
          · exact steps_store s _ r
        · split
          · exact .step (.writeCondition s _ _)
          · exact .refl s

private theorem steps_commit (s : Run) (p : Plan) : Steps s (s.commit p) := by
  rw [commit_eq_foldl]
  exact .foldl steps_perform s p.schedule

theorem steps_updateChildren (s : Run) : Steps s s.updateChildren := by
  have hstage (s' : Run) : Steps s' (s'.atStage .childrenCommitted) := .step (.silent rfl rfl rfl)
  rw [updateChildren]
  split
  · exact (steps_commit ..).trans (hstage _)
  · exact hstage s

end Commit

section Generation

private theorem steps_accept (s : Run) (r : Ref) (o : Resource) : Steps s (s.accept r o) := by
  have hcounted : Steps s { s with
      report := { s.report with generated := s.report.generated + 1 }
      inventory := s.inventory.addDesired (.governed r) none o } := .step (.silent rfl rfl rfl)
  exact (hcounted.trans (.step (.writeCondition _ _ _))).trans (steps_commit ..)

private theorem steps_generateOne (s : Run) (r : Ref) (governed : Option Resource)
    (resources : List Resource) : Steps s (s.generateOne generate r governed resources) := by
  have hlog : Steps s (s.logCall (.generate governed resources)) := .step (.silent rfl rfl rfl)
  rw [generateOne]
  refine hlog.trans ?_
  split
  · exact .step (.fail ..)
  · exact .step (.fail ..)
  · split
    · exact .step (.fail ..)
    · exact steps_accept ..

private theorem steps_generateSynthetic (s : Run) : Steps s (s.generateSynthetic generate) := by
  rw [generateSynthetic]
  split
  · exact .step (.fail ..)
  · exact steps_generateOne ..

private theorem steps_generateReady (s : Run) (r : Ref) (readiness : Readiness) :
    Steps s (s.generateReady generate r readiness) := by
  rw [generateReady]
  split
  · exact .refl s
  · split
    · exact .refl s
    · split
      · split
        · exact steps_softDelete ..
        · exact .refl s
      · exact steps_generateOne ..

private theorem steps_retireGoverned (s : Run) (entries : List (Ref × Readiness)) :
    Steps s (s.retireGoverned entries) := by
  rw [retireGoverned]
  split
  · refine .foldl (fun s e => ?_) s entries
    split
    · exact steps_softDelete ..
    · exact .refl s
  · exact .refl s

private theorem steps_dropOrphanConditions (s : Run) (entries : List (Ref × Readiness)) :
    Steps s (s.dropOrphanConditions entries) := by
  refine .foldl (fun s e => ?_) s entries
  split
  · exact .step (.deleteCondition s _)
  · exact .refl s

theorem steps_generateAll (s : Run) : Steps s s.generateAll := by
  have hjudged : Steps s s.judged := .step (.silent rfl rfl rfl)
  have hstage (s' : Run) : Steps s' (s'.atStage .generated) := .step (.silent rfl rfl rfl)
  by_cases hr : s.inventory.isReady = true
  · rw [generateAll_of_ready hr]
    have hdropped := hjudged.trans (steps_dropOrphanConditions _ s.inventory.readyMap.entries)
    refine (hdropped.trans ?_).trans (hstage _)
    cases s.controller.generate with
    | none => exact .refl _
    | some generate =>
      refine Steps.trans ?_ (.foldl (fun s (e : Ref × Readiness) =>
        steps_generateReady s e.1 e.2) _ s.inventory.readyMap.entries)
      split
      · exact steps_generateSynthetic _
      · exact .refl _
  · rw [generateAll_of_not_ready (by simpa using hr)]
    have hretired := hjudged.trans (steps_retireGoverned _ s.inventory.readyMap.entries)
    exact (hretired.trans (.step (.inform ..))).trans (hstage _)

end Generation

section Populate

theorem steps_registerChild (parent : Resource) (s : Run) (child : Resource) :
    Steps s (registerChild parent s child) := by
  cases h : s.controller.register? parent child with
  | none =>
    obtain ⟨message, he⟩ := registerChild_of_none h
    rw [he]
    exact .step (.fail ..)
  | some r =>
    rw [registerChild_of_some h]
    exact .step (.silent rfl rfl rfl)

theorem steps_populateParent (s : Run) (parent : Resource) :
    Steps s (populateParent populate s parent) := by
  have hlog : Steps s (s.logCall (.populate parent)) := .step (.silent rfl rfl rfl)
  rw [populateParent]
  refine hlog.trans ?_
  cases populate parent with
  | ok children => exact .foldl (steps_registerChild parent) _ children
  | error failure => exact .step (.fail ..)

theorem steps_populateChildren (s : Run) : Steps s s.populateChildren := by
  have hstage (s' : Run) : Steps s' (s'.atStage .childrenPopulated) := .step (.silent rfl rfl rfl)
  rw [populateChildren]
  refine Steps.trans ?_ (hstage _)
  cases s.controller.populate with
  | none => exact .refl s
  | some populate => exact .foldl steps_populateParent s _

theorem steps_callWatches (s : Run) : Steps s s.populateInventory.callWatches.2 := by
  obtain ⟨calls, stage, he, -⟩ :=
    callEach_eq s.populateInventory s.populateInventory.observedWatches
  rw [callWatches, he]
  exact .step (.silent rfl rfl rfl)

end Populate

end Run

end Reconciler
