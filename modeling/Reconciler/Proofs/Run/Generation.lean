import Reconciler.Proofs.Inventory.Readiness
import Reconciler.Proofs.Run.Reconcile

/-! Which calls generation makes: one for each governed resource that is present, has not failed and
is ready, in the order of references, or else one for the package. It counts the calls whose answers
it keeps. -/
namespace Reconciler

open Inventory (Action Key Readiness Sound)

variable {s s' s'' : Run} {r o : Ref} {readiness : Readiness}
  {generate : Option Resource → List Resource → Except Failure (Option Resource)}

namespace Run

section Requests

/-- A call of the generation callback: the reference that it is for, and its arguments. -/
structure Request where
  target : Ref
  governed : Option Resource
  resources : List Resource

namespace Request

def call (q : Request) : Call := .generate q.governed q.resources

def kept? (q : Request) (c : Controller)
    (generate : Option Resource → List Resource → Except Failure (Option Resource)) :
    Option Resource :=
  match generate q.governed q.resources with
  | .ok (some answer) => (rendered c q.target answer).toOption
  | _ => none

end Request

variable {qs qs' : List Request}

/-- Nothing is asked and nothing counts as generated. -/
structure Unasked (s s' : Run) : Prop where
  calls : s'.calls = s.calls
  generated : s'.report.generated = s.report.generated
  controller : s'.controller = s.controller

private theorem Unasked.refl (s : Run) : Unasked s s := ⟨rfl, rfl, rfl⟩

private theorem Unasked.trans (h : Unasked s s') (h' : Unasked s' s'') : Unasked s s'' :=
  ⟨h'.calls.trans h.calls, h'.generated.trans h.generated, h'.controller.trans h.controller⟩

private theorem Unasked.foldl {α : Type} {op : Run → α → Run} (h : ∀ s a, Unasked s (op s a))
    (s : Run)
    (l : List α) : Unasked s (l.foldl op s) := by
  induction l generalizing s with
  | nil => exact .refl s
  | cons a l ih => exact (h s a).trans (ih _)

/-- The callback is asked with these requests in turn, and the answers that are kept count. -/
structure Consults (generate : Option Resource → List Resource → Except Failure (Option Resource))
    (qs : List Request) (s s' : Run) : Prop where
  calls : s'.calls = s.calls ++ qs.map Request.call
  generated : s'.report.generated =
    s.report.generated + qs.countP fun q => (q.kept? s.controller generate).isSome
  controller : s'.controller = s.controller

private theorem Unasked.consults (h : Unasked s s') : Consults generate [] s s' :=
  ⟨by simp [h.calls], by simp [h.generated], h.controller⟩

private theorem Consults.append (h : Consults generate qs s s')
    (h' : Consults generate qs' s' s'') :
    Consults generate (qs ++ qs') s s'' where
  calls := by rw [h'.calls, h.calls, List.map_append, List.append_assoc]
  generated := by
    rw [h'.generated, h.generated, h.controller, List.countP_append, Nat.add_assoc]
  controller := h'.controller.trans h.controller

end Requests

section Calls

private theorem unasked_softDelete (s : Run) (k : Key) (r : Resource) :
    Unasked s (s.softDelete k r) :=
  ⟨s.calls_perform (.retire ⟨k, none, r⟩), congrArg (·.2.1) (s.remarks_perform (.retire ⟨k, none, r⟩)),
    (s.holds_softDelete k r).controller⟩

private theorem mem_failed_softDelete (s : Run) (k : Key) (r : Resource) (h : o ≠ k.parent) :
    o ∈ (s.softDelete k r).failed ↔ o ∈ s.failed := by
  rw [(s.holds_softDelete k r).failed, Inventory.key_retireEffect]
  simp [h]

private theorem mem_failed_accept (s : Run) (new : Resource) (h : o ≠ r) :
    o ∈ (s.accept r new).failed ↔ o ∈ s.failed := by
  refine ((trace_commit _ _).mem_failed o).trans ⟨fun hf => hf.resolve_right ?_, .inl⟩
  rintro ⟨e, he, -, ho⟩
  obtain ⟨a, ha, rfl⟩ := List.mem_map.1 he
  obtain ⟨-, -, hk, -⟩ := Inventory.mem_schedule_plan.1 ha
  rw [Action.key_effect, beq_iff_eq.1 hk] at ho
  exact h ho

private theorem consults_generateOne (s : Run) (r : Ref) (governed : Option Resource)
    (resources : List Resource) : Consults generate [⟨r, governed, resources⟩] s
      (s.generateOne generate r governed resources) := by
  rw [generateOne]
  cases hg : generate governed resources with
  | error failure => exact ⟨rfl, by simp [Request.kept?, hg, fail, logCall], rfl⟩
  | ok answer? =>
    cases answer? with
    | none => exact ⟨rfl, by simp [Request.kept?, hg, fail, logCall], rfl⟩
    | some answer =>
      simp only [show (s.logCall _).controller = s.controller from rfl]
      cases hr : rendered s.controller r answer with
      | error fault =>
        exact ⟨rfl, by simp [Request.kept?, hg, hr, fail, logCall, Except.toOption], rfl⟩
      | ok o =>
        refine ⟨calls_commit _ _, ?_, (trace_commit _ _).controller⟩
        simp only [Request.kept?, hg, hr, Except.toOption, List.countP_singleton, Option.isSome_some,
          if_true]
        exact congrArg (·.2.1) ((remarks_commit _ _).trans (remarks_writeCondition _ _ _))

private theorem mem_failed_generateOne (s : Run) (governed : Option Resource)
    (resources : List Resource)
    (h : o ≠ r) : o ∈ (s.generateOne generate r governed resources).failed ↔ o ∈ s.failed := by
  have hfail (s : Run) (place : Ref) (message : String) :
      o ∈ (s.fail r place message).failed ↔ o ∈ s.failed := by
    have hk : (Key.governed r).parent = r := rfl
    exact ((holds_reject hk s).failed o).trans ⟨fun hf => hf.resolve_right fun he => h he.2, .inl⟩
  rw [generateOne]
  split
  · exact hfail _ _ _
  · exact hfail _ _ _
  · split
    · exact hfail _ _ _
    · exact mem_failed_accept _ _ h

def generated? (failed : List Ref) (r : Ref) (readiness : Readiness) : Option Resource :=
  if r ∉ failed ∧ readiness.ready = true then readiness.resource else none

def request? (failed : List Ref) (r : Ref) (readiness : Readiness) : Option Request :=
  (generated? failed r readiness).map fun governed => ⟨r, some governed, readiness.resources⟩

theorem consults_generateReady (s : Run) (r : Ref) (readiness : Readiness) :
    Consults generate (request? s.failed r readiness).toList s
      (s.generateReady generate r readiness) := by
  rw [generateReady, request?, generated?]
  cases readiness.resource with
  | none =>
    simp only [ite_self, Option.map_none, Option.toList_none]
    exact (Unasked.refl s).consults
  | some governed =>
    simp only
    by_cases hf : r ∈ s.failed
    · simp only [hf, not_true_eq_false, false_and, if_true, if_false, Option.map_none,
        Option.toList_none]
      exact (Unasked.refl s).consults
    · by_cases hr : readiness.ready = true
      · simp only [hf, hr, not_false_eq_true, and_self, if_true, if_false, Bool.not_true,
          Bool.false_eq_true, Option.map_some, Option.toList_some]
        exact consults_generateOne _ _ _ _
      · have hnot : (!readiness.ready) = true := by simpa using hr
        rw [if_neg hf, if_pos hnot, if_neg fun hg => hr hg.2]
        refine Unasked.consults ?_
        split
        · exact unasked_softDelete _ _ _
        · exact .refl s

private theorem mem_failed_generateReady (s : Run) (readiness : Readiness) (h : o ≠ r) :
    o ∈ (s.generateReady generate r readiness).failed ↔ o ∈ s.failed := by
  rw [generateReady]
  split
  · rfl
  · split
    · rfl
    · split
      · split
        · exact mem_failed_softDelete _ _ _ h
        · rfl
      · exact mem_failed_generateOne _ _ _ h

private theorem consults_generateEach (failed : List Ref) (entries : List (Ref × Readiness))
    (hn : (entries.map (·.1)).Nodup) (s : Run)
    (hf : ∀ e ∈ entries, e.1 ∈ s.failed ↔ e.1 ∈ failed) :
    Consults generate (entries.filterMap fun e => request? failed e.1 e.2) s
      (entries.foldl (fun s e => s.generateReady generate e.1 e.2) s) := by
  induction entries generalizing s with
  | nil => exact (Unasked.refl s).consults
  | cons e entries ih =>
    rw [List.map_cons, List.nodup_cons] at hn
    have hrest : ∀ e' ∈ entries,
        e'.1 ∈ (s.generateReady generate e.1 e.2).failed ↔ e'.1 ∈ failed := by
      intro e' he'
      have hne : e'.1 ≠ e.1 := fun heq => hn.1 (heq ▸ List.mem_map_of_mem he')
      rw [mem_failed_generateReady s e.2 hne, hf e' (List.mem_cons_of_mem _ he')]
    have hself : request? s.failed e.1 e.2 = request? failed e.1 e.2 := by
      simp only [request?, generated?, hf e List.mem_cons_self]
    have happend := (s.consults_generateReady e.1 e.2).append (ih hn.2 _ hrest)
    rw [hself] at happend
    rw [List.foldl_cons, List.filterMap_cons]
    cases hq : request? failed e.1 e.2 with
    | none => rwa [hq] at happend
    | some q => rwa [hq] at happend

private theorem unasked_retireGoverned (s : Run) (entries : List (Ref × Readiness)) :
    Unasked s (s.retireGoverned entries) := by
  rw [retireGoverned]
  split
  · refine .foldl (fun s e => ?_) s entries
    split
    · exact unasked_softDelete _ _ _
    · exact .refl s
  · exact .refl s

theorem unasked_dropOrphanConditions (s : Run) (entries : List (Ref × Readiness)) :
    Unasked s (s.dropOrphanConditions entries) := by
  refine .foldl (fun s e => ?_) s entries
  split
  · exact ⟨rfl, congrArg (·.2.1) (s.remarks_deleteCondition _), rfl⟩
  · exact .refl s

theorem dropOrphanConditions_frame (s : Run) (entries : List (Ref × Readiness)) :
    (s.dropOrphanConditions entries).failed = s.failed ∧
      (s.dropOrphanConditions entries).manifest.source = s.manifest.source := by
  rw [dropOrphanConditions]
  induction entries generalizing s with
  | nil => exact ⟨rfl, rfl⟩
  | cons e entries ih =>
    obtain ⟨hf, hm⟩ := ih (if e.2.resource.isNone then s.deleteCondition (.governed e.1) else s)
    rw [List.foldl_cons, hf, hm]
    split <;> exact ⟨rfl, rfl⟩

theorem consults_generateSynthetic (s : Run) : Consults generate
    (if s.manifest.name.isEmpty then []
      else [⟨s.controller.governed.named s.manifest.name, none, []⟩]) s
    (s.generateSynthetic generate) := by
  rw [generateSynthetic]
  split
  · exact Unasked.consults ⟨rfl, rfl, rfl⟩
  · exact consults_generateOne _ _ _ _

section Stages

def judged (s : Run) : Run :=
  { s with report := { s.report with ready := some s.inventory.isReady } }

theorem generateAll_of_not_ready (hr : s.inventory.isReady = false) : s.generateAll =
    Run.atStage { s.judged.retireGoverned s.inventory.readyMap.entries with
      batch := (s.judged.retireGoverned s.inventory.readyMap.entries).batch.notify
        "dependencies not ready, generation skipped" .info none } .generated := by
  simp only [generateAll, judged, hr, Bool.not_false, if_true]

theorem generateAll_of_ready (hr : s.inventory.isReady = true) : s.generateAll =
    let dropped := s.judged.dropOrphanConditions s.inventory.readyMap.entries
    Run.atStage (match s.controller.generate with
      | none => dropped
      | some generate => s.inventory.readyMap.entries.foldl
          (fun s e => s.generateReady generate e.1 e.2)
          (if s.inventory.readyMap.entries.all fun e => e.2.resource.isNone then
            dropped.generateSynthetic generate else dropped)) .generated := by
  have hc := (s.judged.unasked_dropOrphanConditions s.inventory.readyMap.entries).controller
  rw [show s.controller = s.judged.controller from rfl, ← hc]
  exact congrArg (Run.atStage · .generated) (if_neg (by simp [hr]))

end Stages

private theorem unasked_judged (s : Run) : Unasked s s.judged := ⟨rfl, rfl, rfl⟩

private theorem unasked_generated (s : Run) (b : Batch) :
    Unasked s ({ s with batch := b }.atStage .generated) := ⟨rfl, rfl, rfl⟩

private theorem unasked_of_not_ready (hr : s.inventory.isReady = false) :
    Unasked s s.generateAll := by
  rw [generateAll_of_not_ready hr]
  exact (s.unasked_judged.trans (unasked_retireGoverned _ _)).trans (unasked_generated _ _)

theorem unasked_generateAll (hg : s.controller.generate = none) : Unasked s s.generateAll := by
  by_cases hr : s.inventory.isReady = true
  · rw [generateAll_of_ready hr, hg]
    exact (s.unasked_judged.trans (unasked_dropOrphanConditions _ _)).trans
      (unasked_generated _ (s.judged.dropOrphanConditions _).batch)
  · exact unasked_of_not_ready (by simpa using hr)

def generations (s : Run) : List (Resource × List Resource) :=
  if s.inventory.isReady then
    s.inventory.readyMap.entries.filterMap fun e =>
      (generated? s.failed e.1 e.2).map fun governed => (governed, e.2.resources)
  else []

/-- All calls, in the order in which they are made: without a governed resource in the package there
can be one for the package itself. -/
def requests (s : Run) : List Request :=
  if s.inventory.isReady then
    (if (s.inventory.readyMap.entries.all fun e => e.2.resource.isNone) && !s.manifest.name.isEmpty
      then [⟨s.controller.governed.named s.manifest.name, none, []⟩] else []) ++
    s.inventory.readyMap.entries.filterMap fun e => request? s.failed e.1 e.2
  else []

/-- Generation makes the requests, and no other calls. -/
theorem consults_generateAll (hg : s.controller.generate = some generate) :
    Consults generate s.requests s s.generateAll := by
  have hn := s.inventory.readyMap.keys_nodup
  by_cases hr : s.inventory.isReady = true
  · let dropped := s.judged.dropOrphanConditions s.inventory.readyMap.entries
    obtain ⟨hfailed, hsource⟩ := s.judged.dropOrphanConditions_frame s.inventory.readyMap.entries
    have hdropped : Unasked s dropped := s.unasked_judged.trans (unasked_dropOrphanConditions _ _)
    have hend (t : Run) (h : Consults generate s.requests s t) :
        Consults generate s.requests s (t.atStage .generated) :=
      ⟨h.calls, h.generated, h.controller⟩
    rw [generateAll_of_ready hr, hg]
    refine hend _ ?_
    rw [requests, if_pos hr]
    simp only
    by_cases hnone : (s.inventory.readyMap.entries.all fun e => e.2.resource.isNone) = true
    · -- without any governed resource there is nothing to ask for but the package
      have hempty (failed : List Ref) :
          (s.inventory.readyMap.entries.filterMap fun e => request? failed e.1 e.2) = [] := by
        rw [List.filterMap_eq_nil_iff]
        intro e he
        have hres := List.all_eq_true.1 hnone e he
        rw [Option.isNone_iff_eq_none] at hres
        simp [request?, generated?, hres]
      have hsynthetic : Consults generate _ s (dropped.generateSynthetic generate) :=
        hdropped.consults.append dropped.consults_generateSynthetic
      have heach : Consults generate _ (dropped.generateSynthetic generate) _ :=
        consults_generateEach (dropped.generateSynthetic generate).failed _ hn _ fun _ _ => Iff.rfl
      have hname : dropped.manifest.name = s.manifest.name := by
        rw [Manifest.name, Manifest.name, hsource]
        rfl
      have hboth := hsynthetic.append heach
      rw [hempty, hname, hdropped.controller] at hboth
      rw [hempty, if_pos hnone, hnone]
      cases hunnamed : s.manifest.name.isEmpty with
      | true => simpa [hunnamed] using hboth
      | false => simpa [hunnamed] using hboth
    · rw [if_neg hnone, if_neg (by simp [hnone]), List.nil_append]
      refine hdropped.consults.append (consults_generateEach s.failed _ hn dropped fun e _ => ?_)
      rw [show dropped.failed = s.failed from hfailed]
  · rw [requests, if_neg hr]
    exact (unasked_of_not_ready (by simpa using hr)).consults

/-- The calls for governed resources, and before them at most one without. -/
theorem calls_generateAll (hg : s.controller.generate = some generate) : ∃ synthetic : List Call,
      (∀ call ∈ synthetic, call = .generate none []) ∧ s.generateAll.calls = s.calls ++ synthetic ++
        s.generations.map fun e => .generate (some e.1) e.2 := by
  rw [(consults_generateAll hg).calls, requests, generations]
  split
  · rw [List.map_append, ← List.append_assoc]
    refine ⟨_, ?_, congrArg _ ?_⟩
    · intro call hcall
      split at hcall
      · exact List.mem_singleton.1 hcall
      · cases hcall
    · simp [List.map_filterMap, request?, Request.call, Function.comp_def]
  · exact ⟨[], by simp⟩

end Calls

end Run

end Reconciler
