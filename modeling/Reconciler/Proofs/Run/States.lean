import Reconciler.Proofs.Run.Passage

/-! The states of a run at the ends of its stages. -/
namespace Reconciler.Controller

variable {c : Controller} {b : Batch} {t : Run}

/-- The states in which the stages of a run end, from the survey of the package on. -/
def states (c : Controller) (b : Batch) : List Run :=
  match Run.start c b with
  | .error _ => []
  | .ok s =>
    s.populateInventory ::
      match s.populateInventory.callWatches with
      | (.ok (), s) =>
        let s' := s.populateChildren
        [s, s', s'.updateChildren, s'.final, s'.final.writeManifest]
      | (.error e, s) =>
        [{ s with batch := s.batch.reportError e.failure.line (some e.resource) }.atStage .aborted]

/-- A state is one from before the children were asked for, or one of the four after that. -/
theorem states_cases (ht : t ∈ c.states b) :
    (Gathered c b t ∧ ∀ k, t.inventory.desired? k = none) ∨
      ∃ s, c.populated b = some s ∧
        (t = s ∨ t = s.updateChildren ∨ t = s.final ∨ t = s.final.writeManifest) := by
  rw [states] at ht
  cases hstart : Run.start c b with
  | error fault =>
    rw [hstart] at ht
    cases ht
  | ok s =>
    simp only [hstart] at ht
    obtain ⟨hsurveyed, hcalled⟩ := surveyed_of_start hstart
    rcases List.mem_cons.1 ht with rfl | ht
    · exact .inl ⟨hsurveyed.gathered, hsurveyed.desired?⟩
    · cases hw : s.populateInventory.callWatches with
      | mk verdict s' =>
        rw [hw] at ht hcalled
        cases verdict with
        | error e =>
          cases List.mem_singleton.1 ht
          exact .inl ⟨{ hcalled.gathered with }, hcalled.desired?⟩
        | ok _ =>
          simp only [List.mem_cons, List.not_mem_nil, or_false] at ht
          rcases ht with rfl | ht
          · exact .inl ⟨hcalled.gathered, hcalled.desired?⟩
          · refine .inr ⟨s'.populateChildren, ?_, ht⟩
            rw [populated, surveyed, hstart]
            simp only [hw]
            rfl

private theorem states_of_populated {s : Run} (hs : c.populated b = some s) : ∃ before,
    c.states b = before ++ [s, s.updateChildren, s.final, s.final.writeManifest] := by
  obtain ⟨s₀, hs₀, rfl⟩ := Option.map_eq_some_iff.1 hs
  rw [surveyed] at hs₀
  rw [states]
  cases hstart : Run.start c b with
  | error fault =>
    rw [hstart] at hs₀
    cases hs₀
  | ok s₁ =>
    rw [hstart] at hs₀
    simp only at hs₀ ⊢
    cases hw : s₁.populateInventory.callWatches with
    | mk verdict s₂ =>
      rw [hw] at hs₀
      cases verdict with
      | error e => cases hs₀
      | ok _ =>
        cases hs₀
        exact ⟨[_, _], rfl⟩

theorem mem_states {s : Run} (hs : c.populated b = some s) :
    s ∈ c.states b ∧ s.updateChildren ∈ c.states b ∧ s.final ∈ c.states b ∧
      s.final.writeManifest ∈ c.states b := by
  obtain ⟨before, hstates⟩ := states_of_populated hs
  simp [hstates]

theorem getLast?_states {s : Run} (hs : c.populated b = some s) :
    (c.states b).getLast? = some s.final.writeManifest := by
  obtain ⟨before, hstates⟩ := states_of_populated hs
  simp [hstates]

theorem populated_of_mem_calls {governed : Option Resource} {resources : List Resource}
    (hm : .generate governed resources ∈ (c.run b).calls) : ∃ s, c.populated b = some s := by
  rw [run] at hm
  rw [populated, surveyed]
  cases hstart : Run.start c b with
  | error fault =>
    rw [hstart] at hm
    cases hm
  | ok s =>
    rw [hstart] at hm
    have hcalled := (surveyed_of_start hstart).2.gathered.calls
    simp only [Run.finish] at hm ⊢
    cases hw : s.populateInventory.callWatches with
    | mk verdict s' =>
      rw [hw] at hm hcalled
      cases verdict with
      | error e => exact absurd rfl (hcalled _ hm _ _)
      | ok _ => exact ⟨_, rfl⟩

end Reconciler.Controller
