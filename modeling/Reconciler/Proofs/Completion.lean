import Mathlib.Data.List.Nodup
import Reconciler.Proofs.Run.Handling

/-! What generation leaves behind of a governed resource that it fails for. An answer is kept before
it is written, and rejected then if its reference is no target. -/
namespace Reconciler

open Inventory (Action Key Sound)

variable {c : Controller} {b : Batch} {s : Run} {r : Ref} {o : Resource} {e : Effect}
  {generate : Option Resource → List Resource → Except Failure (Option Resource)}

namespace Run

section Answered

def answered (s : Run) : List Ref :=
  match s.controller.generate with
  | none => []
  | some generate =>
    (s.requests.filter fun q => (q.kept? s.controller generate).isSome).map Request.target

private theorem mem_answered :
    r ∈ s.answered ↔ ∃ generate q, s.controller.generate = some generate ∧
    q ∈ s.requests ∧ q.target = r ∧ (q.kept? s.controller generate).isSome = true := by
  rw [answered]
  cases s.controller.generate with
  | none => simp
  | some generate =>
    constructor
    · intro hr
      obtain ⟨q, hq, rfl⟩ := List.mem_map.1 hr
      obtain ⟨hq, hkept⟩ := List.mem_filter.1 hq
      exact ⟨generate, q, rfl, hq, rfl, hkept⟩
    · rintro ⟨_, q, hgen, hq, rfl, hkept⟩
      cases hgen
      exact List.mem_map_of_mem (List.mem_filter.2 ⟨hq, hkept⟩)

private theorem target_mem_answered {q : Request} (hgen : s.controller.generate = some generate)
    (hq : q ∈ s.requests) :
    q.target ∈ s.answered ↔ (q.kept? s.controller generate).isSome = true := by
  rw [mem_answered]
  constructor
  · rintro ⟨generate', q', hgen', hq', ht, hkept⟩
    cases hgen.symm.trans hgen'
    rwa [← List.inj_on_of_nodup_map s.nodup_targets hq' hq ht]
  · intro hkept
    exact ⟨generate, q, hgen, hq, rfl, hkept⟩

private theorem nodup_answered (s : Run) : s.answered.Nodup := by
  rw [answered]
  split
  · exact .nil
  · exact (List.filter_sublist.map _).nodup s.nodup_targets

private theorem generated_generateAll (s : Run) :
    s.generateAll.report.generated = s.report.generated + s.answered.length := by
  rw [answered]
  cases hg : s.controller.generate with
  | none => exact (unasked_generateAll hg).generated
  | some generate =>
    rw [(consults_generateAll hg).generated, List.length_map, List.countP_eq_length_filter]

/-- An answer that is kept is accepted, and anything else is rejected. -/
theorem response_of_kept? (c : Controller) (q : Request)
    (generate : Option Resource → List Resource → Except Failure (Option Resource)) :
    response c generate q.target q.governed q.resources =
      match q.kept? c generate with
      | none => [.reject (.governed q.target)]
      | some o => acceptance q.target q.governed o := by
  rw [response, Request.kept?]
  cases generate q.governed q.resources with
  | error failure => rfl
  | ok answer? =>
    cases answer? with
    | none => rfl
    | some answer =>
      simp only
      cases rendered c q.target answer <;> rfl

end Answered

section Fails

/-- Generation records a failure of the governed reference. -/
def Fails (s : Run) (r : Ref) : Prop := ∃ e ∈ s.responses, e.rejected = true ∧ e.key = .governed r

instance (s : Run) (r : Ref) : Decidable (s.Fails r) :=
  inferInstanceAs (Decidable (∃ e ∈ s.responses, _))

/-- The failures are those from before and those of generation. -/
theorem mem_failed_generateAll (h : Sound s.controller s.inventory) :
    r ∈ s.generateAll.failed ↔ r ∈ s.failed ∨ s.Fails r := by
  rw [(trace_responses h default).mem_failed r]
  refine or_congr_right ⟨?_, ?_⟩
  · rintro ⟨e, he, hrejected, hparent⟩
    rcases Effect.mem_between_idle.1 he with rfl | he
    · cases hrejected
    · obtain ⟨r', hkey, -⟩ := key_of_responses h he
      rw [hkey] at hparent
      exact ⟨e, he, hrejected, hparent ▸ hkey⟩
  · rintro ⟨e, he, hrejected, hkey⟩
    exact ⟨e, Effect.mem_between_idle.2 (.inr he), hrejected, by rw [hkey]; rfl⟩

private theorem acceptance_of_rejected {governed : Option Resource}
    (he : e ∈ acceptance r governed o) (hrejected : e.rejected = true) : r.isTarget = false ∧
      acceptance r governed o =
        [⟨.governed r, none, some (some (done (.governed r))), false⟩, .reject (.governed r)] := by
  rw [acceptance, List.mem_cons] at he
  rcases he with rfl | he
  · cases hrejected
  · rw [Inventory.delivery_eq] at he
    split at he
    · rename_i hdue
      rw [List.map_singleton, Action.effect, Inventory.writeEffect_governed] at he
      have hwrite := List.mem_singleton.1 he
      rw [hwrite] at hrejected
      split at hrejected
      · cases hrejected
      · rename_i htarget
        refine ⟨by simpa using htarget, ?_⟩
        rw [acceptance, Inventory.delivery_eq, if_pos hdue, List.map_singleton, Action.effect,
          Inventory.writeEffect_governed, if_neg htarget]
    · cases he

private theorem responsesAt_of_fails (h : s.Fails r) : ∃ drops,
    (∀ e ∈ drops, e = ⟨.governed r, none, some none, false⟩) ∧
      if r ∈ s.answered then r.isTarget = false ∧ s.responsesAt r =
        drops ++ [⟨.governed r, none, some (some (done (.governed r))), false⟩, .reject (.governed r)]
      else s.responsesAt r = drops ++ [.reject (.governed r)] := by
  obtain ⟨e, he, hrejected, hkey⟩ := h
  have hat := mem_responsesAt.2 ⟨he, hkey⟩
  -- the failure is none of the drops, so it comes after them
  have hlast {drops rest : List Effect} (hdrops : ∀ e ∈ drops, e ∈ s.dropsAt r)
      (hes : s.responsesAt r = drops ++ rest) : e ∈ rest := by
    rw [hes, List.mem_append] at hat
    refine hat.resolve_left fun hdrop => ?_
    rw [eq_of_mem_dropsAt (hdrops e hdrop)] at hrejected
    cases hrejected
  rcases s.responsesAt_cases r with ⟨generate, q, hgen, hq, rfl⟩ | ⟨hnot, drops, rest, hdrops, hes, hrest⟩
  · have hes := responsesAt_of_request hgen hq
    have hresponse := hlast (fun e he => he) hes
    refine ⟨s.dropsAt q.target, fun e he => eq_of_mem_dropsAt he, ?_⟩
    rw [hes]
    simp only [target_mem_answered hgen hq]
    rw [response_of_kept?] at hresponse ⊢
    cases hkept : q.kept? s.controller generate with
    | none => simp
    | some o =>
      simp only [hkept] at hresponse
      obtain ⟨htarget, haccepted⟩ := acceptance_of_rejected hresponse hrejected
      simp [htarget, haccepted]
  · have hunanswered : r ∉ s.answered := by
      intro hanswered
      obtain ⟨generate, q, hgen, hq, ht, -⟩ := mem_answered.1 hanswered
      exact hnot ⟨generate, q, hgen, hq, ht⟩
    refine ⟨drops, fun e he => eq_of_mem_dropsAt (hdrops e he), ?_⟩
    rw [if_neg hunanswered]
    have hmem := hlast hdrops hes
    rcases hrest with rfl | rfl | ⟨-, g, -, -, rfl⟩
    · cases hmem
    · exact hes
    · cases List.mem_singleton.1 hmem
      rw [hes, Inventory.retireEffect_of_rejected hrejected]

private theorem item_of_fails (h : s.Fails r) (he : e ∈ s.responsesAt r) : e.item = none := by
  obtain ⟨drops, hdrops, hes⟩ := responsesAt_of_fails h
  have hitem (e : Effect) (he : e ∈ drops) : e.item = none := by rw [hdrops e he]
  split at hes
  · simp only [hes.2, List.mem_append, List.mem_cons, List.not_mem_nil, or_false] at he
    rcases he with hdrop | rfl | rfl
    · exact hitem e hdrop
    · rfl
    · rfl
  · simp only [hes, List.mem_append, List.mem_singleton] at he
    rcases he with hdrop | rfl
    · exact hitem e hdrop
    · rfl

private theorem condition_of_fails (h : s.Fails r) (old : Option Condition) :
    let new := (s.responsesAt r).foldl (fun old e => e.condition.getD old) old
    if r ∈ s.answered then new = some (done (.governed r)) else new = old ∨ new = none := by
  intro new
  obtain ⟨drops, hdrops, hes⟩ := responsesAt_of_fails h
  by_cases hanswered : r ∈ s.answered
  · rw [if_pos hanswered] at hes ⊢
    simp only [new, hes.2, List.foldl_append, List.foldl_cons, List.foldl_nil]
    rfl
  · rw [if_neg hanswered] at hes ⊢
    simp only [new, hes, List.foldl_append, List.foldl_cons, List.foldl_nil]
    change drops.foldl _ old = old ∨ drops.foldl _ old = none
    clear hes new
    induction drops generalizing old with
    | nil => exact .inl rfl
    | cons e drops ih =>
      rw [List.foldl_cons, hdrops e List.mem_cons_self]
      exact .inr ((ih none fun e' he' => hdrops e' (List.mem_cons_of_mem _ he')).elim id id)

end Fails

section Counter

private theorem generated_registerChild (parent : Resource) (s : Run) (child : Resource) :
    (registerChild parent s child).report.generated = s.report.generated := by
  rw [registerChild]
  split
  · rfl
  · simp only
    split <;> rfl

private theorem generated_populateParent {populate : Resource → Except Failure (List Resource)}
    (s : Run)
    (parent : Resource) : (populateParent populate s parent).report.generated = s.report.generated := by
  rw [populateParent]
  split
  · rename_i children _
    refine List.foldlRecOn (motive := fun t : Run => t.report.generated = s.report.generated) children _
      rfl fun t ht child _ => ?_
    exact (generated_registerChild parent t child).trans ht
  · rfl

private theorem generated_populateChildren (s : Run) :
    s.populateChildren.report.generated = s.report.generated := by
  rw [populateChildren]
  simp only [atStage]
  split
  · refine List.foldlRecOn (motive := fun t : Run => t.report.generated = s.report.generated) _ _
      rfl fun t ht parent _ => ?_
    exact (generated_populateParent t parent).trans ht
  · rfl

private theorem generated_updateChildren (s : Run) :
    s.updateChildren.report.generated = s.report.generated := by
  rw [updateChildren]
  simp only [atStage]
  split
  · exact congrArg (·.2.1) (remarks_commit _ _)
  · rfl

private theorem condition?_updateChildren {t : String} {x : Condition}
    (h : s.updateChildren.manifest.condition? t = some x) (hx : x.isFalse = false) :
    s.manifest.condition? t = some x := by
  obtain ⟨s', ht, he⟩ := s.updateChildren_trace
  rw [he] at h
  by_cases htouch : ∃ e ∈ s.childActions.map Action.effect, e.condition ≠ none ∧ e.key.conditionType = t
  · obtain ⟨e, he', -, hlast⟩ := ht.findCondition_of_touched htouch
    obtain ⟨a, -, rfl⟩ := List.mem_map.1 he'
    have hput : a.effect.condition = some (some x) := hlast.trans (congrArg some h)
    rw [Inventory.isFalse_of_effect hput] at hx
    cases hx
  · rw [Manifest.condition?, ← ht.findCondition_of_untouched fun e he' hc ht => htouch ⟨e, he', hc, ht⟩]
    exact h

end Counter

end Run

namespace Controller

private theorem generated_of_populated (hs : c.populated b = some s) : s.report.generated = 0 := by
  obtain ⟨s₁, hs₁, rfl⟩ := Option.map_eq_some_iff.1 hs
  rw [Run.generated_populateChildren]
  rw [surveyed] at hs₁
  split at hs₁
  · cases hs₁
  · rename_i s₀ hstart
    obtain ⟨-, index, root, manifest, -, -, rfl⟩ := Run.start_eq_ok_iff.1 hstart
    obtain ⟨calls, stage, hcalls, -⟩ := Run.callEach_eq
      (Run.loaded c b index manifest).populateInventory
      (Run.loaded c b index manifest).populateInventory.observedWatches
    split at hs₁
    · rename_i hw
      cases hs₁
      rw [← Run.callWatches, hw] at hcalls
      simp only at hcalls
      rw [hcalls]
      rfl
    · cases hs₁

/-- A failed generation is recorded, and writes nothing for its reference. It is counted and marked
as done only if its answer was kept for a reference that is no target. -/
theorem failed_generation_record (hs : c.populated b = some s) (hf : s.updateChildren.Fails r) :
    r ∈ s.final.failed ∧
    (∀ e ∈ s.updateChildren.responses, e.key = .governed r → e.item = none) ∧
    (∀ id, Batch.itemAt s.final.batch.items id = Batch.itemAt s.updateChildren.batch.items id ∨
      ∃ e ∈ s.updateChildren.responses, e.key ≠ .governed r ∧
        ∃ new, e.item = some new ∧ new.identity = id) ∧
    (c.run b).report.generated = s.updateChildren.answered.length ∧
    s.updateChildren.answered.Nodup ∧
    if r ∈ s.updateChildren.answered then r.isTarget = false ∧
      s.final.manifest.condition? (Subject.singleType r) = some (Run.done (.governed r))
    else
      (s.final.manifest.condition? (Subject.singleType r) =
          s.updateChildren.manifest.condition? (Subject.singleType r) ∨
        s.final.manifest.condition? (Subject.singleType r) = none) ∧
      ∀ x, s.final.manifest.condition? (Subject.singleType r) = some x → x.isFalse = false →
        s.manifest.condition? (Subject.singleType r) = some x := by
  have h := gathered_spec hs
  obtain ⟨e, he, hrejected, hkey⟩ := hf
  obtain ⟨r', hkey', hgov, hspace⟩ := Run.space_of_responses h.represented_updateChildren he
  cases hkey.symm.trans hkey'
  have htrace := Run.trace_responses h.sound_updateChildren (.governed r)
  have hitem : ∀ e ∈ s.updateChildren.responses, e.key = .governed r → e.item = none :=
    fun e' he' hk => Run.item_of_fails ⟨e, he, hrejected, hkey⟩ (Run.mem_responsesAt.2 ⟨he', hk⟩)
  refine ⟨?failed, hitem, ?elsewhere, ?counted, s.updateChildren.nodup_answered, ?condition⟩
  case failed =>
    exact (Run.mem_failed_generateAll h.sound_updateChildren).2 (.inr ⟨e, he, hrejected, hkey⟩)
  case elsewhere =>
    intro id
    by_cases hwritten : ∃ e ∈ s.updateChildren.responses, ∃ new, e.item = some new ∧ new.identity = id
    · obtain ⟨e', he', new, hnew, hid⟩ := hwritten
      refine .inr ⟨e', he', fun hk => ?_, new, hnew, hid⟩
      rw [hitem e' he' hk] at hnew
      cases hnew
    · refine .inl (htrace.itemAt_of_untouched fun e' he' new hnew hid => hwritten ⟨e', ?_, new, hnew, hid⟩)
      exact Run.mem_responses_of_touching he' (.inl (by simp [hnew]))
  case counted =>
    rw [run_eq_of_populated hs]
    change s.updateChildren.generateAll.report.generated = _
    rw [Run.generated_generateAll, Run.generated_updateChildren, generated_of_populated hs, Nat.zero_add]
  case condition =>
    have hcondition := Run.condition?_generateAll h.represented_updateChildren hgov hspace
    have hcases := Run.condition_of_fails ⟨e, he, hrejected, hkey⟩
      (s.updateChildren.manifest.condition? (Subject.singleType r))
    simp only [← hcondition] at hcases
    obtain ⟨drops, -, hes⟩ := Run.responsesAt_of_fails ⟨e, he, hrejected, hkey⟩
    split at hes
    · rename_i hanswered
      rw [if_pos hanswered] at hcases ⊢
      exact ⟨hes.1, hcases⟩
    · rename_i hanswered
      rw [if_neg hanswered] at hcases ⊢
      refine ⟨hcases, fun x hx htrue => ?_⟩
      rcases hcases with hsame | hnone
      · exact Run.condition?_updateChildren (hsame.symm.trans hx) htrue
      · cases hnone.symm.trans hx

def declining : Controller := { rendering with generate := some fun _ _ => .ok none }

def renderedPackage : Batch :=
  .ofItems [manifestWith "req/v1.Interface.a" "True", .minimal ⟨"req/v1", "Interface"⟩ "a"]

/-- The interface fails, is not counted, and keeps its condition from before. -/
theorem failed_generation_record_declining : ∃ s, declining.populated renderedPackage = some s ∧
    s.updateChildren.Fails (Coordinate.named ⟨"req/v1", "Interface"⟩ "a") ∧
    Coordinate.named ⟨"req/v1", "Interface"⟩ "a" ∈ s.final.failed ∧
    (declining.run renderedPackage).report.generated = 0 ∧
    s.final.manifest.condition? "req/v1.Interface.a" ≠ none ∧
    s.final.manifest.condition? "req/v1.Interface.a" =
      s.updateChildren.manifest.condition? "req/v1.Interface.a" := by
  obtain ⟨s, hs, hfails, hanswered, hkept⟩ : ∃ s, declining.populated renderedPackage = some s ∧
      s.updateChildren.Fails (Coordinate.named ⟨"req/v1", "Interface"⟩ "a") ∧
      s.updateChildren.answered = [] ∧
      s.final.manifest.condition? "req/v1.Interface.a" ≠ none := by
    decide +kernel
  obtain ⟨hfailed, -, -, hcount, -, hcondition⟩ := failed_generation_record hs hfails
  rw [hanswered] at hcount hcondition
  rw [if_neg List.not_mem_nil] at hcondition
  exact ⟨s, hs, hfails, hfailed, hcount, hkept, hcondition.1.resolve_right hkept⟩

def namelessPackage : Batch :=
  .ofItems [.minimal ⟨"kpt.dev/v1", "Kptfile"⟩ "pkg",
    ⟨.object [("apiVersion", .string "req/v1"), ("kind", .string "Interface")]⟩]

/-- The interface without name fails, and is counted and marked as done all the same. -/
theorem failed_generation_announced : ∃ s, rendering.populated namelessPackage = some s ∧
    s.updateChildren.Fails (⟨"req/v1", "Interface"⟩ : Coordinate).toRef ∧
    s.manifest.condition? "req/v1.Interface." = none ∧
    s.final.manifest.condition? "req/v1.Interface." =
      some ⟨"req/v1.Interface.", .isTrue, none, "done"⟩ ∧
    (rendering.run namelessPackage).report.generated = 1 := by
  decide +kernel

end Controller

end Reconciler
