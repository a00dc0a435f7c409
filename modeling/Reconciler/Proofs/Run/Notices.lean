import Reconciler.Proofs.Run.Steps

/-! What a run tells the user: notices are added, never taken back, and a governed resource whose
children cannot be recorded gets an error of its own. -/
namespace Reconciler

open Inventory (Action Key Plan Readiness)

variable {c : Controller} {b : Batch} {s s' s'' : Run} {place : Ref} {g : Resource}
  {generate : Option Resource → List Resource → Except Failure (Option Resource)}
  {populate : Resource → Except Failure (List Resource)}

@[simp] theorem Batch.notices_write (b : Batch) (r : Resource) :
    (b.write r).1.notices = b.notices := by
  rw [write]
  split
  · rfl
  · simp only
    split <;> rfl

namespace Run

def Recalls (s s' : Run) : Prop := s.batch.notices <+: s'.batch.notices

/-- An error about the resource is added from one state to the other. -/
private def Reports (s s' : Run) (place : Ref) : Prop :=
  ∃ added, s'.batch.notices = s.batch.notices ++ added ∧
    ∃ n ∈ added, n.severity = .error ∧ n.resource = some place

namespace Recalls

private theorem refl (s : Run) : Recalls s s := List.prefix_refl _

private theorem of_eq (h : s'.batch.notices = s.batch.notices) : Recalls s s' :=
  ⟨[], by rw [h, List.append_nil]⟩

theorem trans (h : Recalls s s') (h' : Recalls s' s'') : Recalls s s'' := List.IsPrefix.trans h h'

end Recalls

private theorem Reports.recalls_trans (h : Recalls s s') (h' : Reports s' s'' place) :
    Reports s s'' place := by
  obtain ⟨told, htold⟩ := h
  obtain ⟨added, hadded, n, hn, herror⟩ := h'
  refine ⟨told ++ added, ?_, n, List.mem_append_right _ hn, herror⟩
  rw [hadded, ← htold, List.append_assoc]

private theorem Reports.trans_recalls (h : Reports s s' place) (h' : Recalls s' s'') :
    Reports s s'' place := by
  obtain ⟨added, hadded, n, hn, herror⟩ := h
  obtain ⟨told, htold⟩ := h'
  refine ⟨added ++ told, ?_, n, List.mem_append_left _ hn, herror⟩
  rw [← htold, hadded, List.append_assoc]

private theorem reports_fail (s : Run) (owner place : Ref) (message : String) :
    Reports s (s.fail owner place message) place :=
  ⟨_, rfl, _, List.mem_singleton_self _, rfl, rfl⟩

private theorem Step.recalls (h : Step s s') : Recalls s s' := by
  cases h with
  | silent batch => exact .of_eq (congrArg Batch.notices batch)
  | fail => exact List.prefix_append _ _
  | inform => exact List.prefix_append _ _
  | writeItem r => exact .of_eq (Batch.notices_write ..)
  | writeCondition k x => exact .refl s
  | deleteCondition k => exact .refl s

private theorem Steps.recalls (h : Steps s s') : Recalls s s' := by
  induction h with
  | refl => exact .refl s
  | tail _ hstep ih => exact ih.trans hstep.recalls

private theorem Reports.foldl {α : Type} {op : Run → α → Run} (h : ∀ s a, Steps s (op s a))
    {a : α} {before after : List α}
    (ha : Reports (before.foldl op s) (op (before.foldl op s) a) place) :
    Reports s ((before ++ a :: after).foldl op s) place := by
  rw [List.foldl_append, List.foldl_cons]
  exact (recalls_trans (Steps.foldl h s before).recalls ha).trans_recalls
    (Steps.foldl h _ after).recalls

theorem recalls_updateChildren (s : Run) : Recalls s s.updateChildren :=
  s.steps_updateChildren.recalls

theorem recalls_generateAll (s : Run) : Recalls s s.generateAll :=
  s.steps_generateAll.recalls

theorem recalls_writeManifest (s : Run) : Recalls s s.writeManifest := by
  rw [writeManifest]
  cases s.manifest.toResource with
  | ok r => simp [Recalls, atStage]
  | error fault => exact List.prefix_append _ _

section Populate

private theorem reports_populateParent (hp : s.controller.populate = some populate)
    (hm : s.controller.Misdeclares g) : Reports s (populateParent populate s g) g.reference := by
  have hlog : Recalls s (s.logCall (.populate g)) := .refl s
  obtain ⟨_, hp', hfail⟩ := hm
  rw [hp] at hp'
  cases hp'
  rw [populateParent]
  rcases hfail with ⟨failure, he⟩ | ⟨children, he, child, hchild, hnone⟩
  · simp only [he]
    exact (reports_fail ..).recalls_trans hlog
  · simp only [he]
    -- the children before it do not change what can be recorded
    obtain ⟨before, after, rfl⟩ := List.append_of_mem hchild
    refine Reports.recalls_trans hlog (.foldl (steps_registerChild g) ?_)
    have hasked := asked_registerChildren before (s.logCall (.populate g)) g
    obtain ⟨message, hfailed⟩ := registerChild_of_none (hasked.controller ▸ hnone)
    rw [hfailed]
    exact reports_fail ..

private theorem reports_populateChildren (hg : g ∈ s.parents) (hm : s.controller.Misdeclares g) :
    Reports s s.populateChildren g.reference := by
  obtain ⟨populate, hp, -⟩ := id hm
  have heach : Reports s (s.parents.foldl (populateParent populate) s) g.reference := by
    obtain ⟨before, after, hparents⟩ := List.append_of_mem hg
    rw [hparents]
    refine .foldl steps_populateParent ?_
    have hasked := (populateParents_spec hp before).1
    exact reports_populateParent (hasked.controller ▸ hp) (hasked.controller ▸ hm)
  rw [populateChildren, hp]
  exact heach

end Populate

end Run

namespace Controller

/-- Nothing is told before the children are asked for, and a governed resource that misdeclares them
is reported. -/
theorem reports_of_misdeclares (hs : c.populated b = some s)
    (hg : s.inventory.existing? (.governed g.identity) = some g) (hm : c.Misdeclares g) :
    ∃ added, s.batch.notices = b.notices ++ added ∧
      ∃ n ∈ added, n.severity = .error ∧ n.resource = some g.reference := by
  obtain ⟨s₀, hs₀, rfl⟩ := Option.map_eq_some_iff.1 hs
  have hspec := surveyed_spec hs₀
  have hparent : g ∈ s₀.parents :=
    hspec.gathered.mem_parents.2 (s₀.populateChildren_spec.1.existing? _ ▸ hg)
  have hreport := Run.reports_populateChildren hparent (hspec.controller ▸ hm)
  rw [Run.Reports, hspec.batch] at hreport
  exact hreport

end Controller

end Reconciler
