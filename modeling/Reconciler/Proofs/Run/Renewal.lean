import Reconciler.Proofs.Run.Response

/-! The generation stage of a controller that does not generate, or that owns nothing and renders
each governed resource as it is: a trace of effects read off the readiness of the package. -/
namespace Reconciler

open Inventory (Action Key Plan Readiness Sound)

variable {c : Controller} {s s' : Run} {r : Ref} {g o x : Resource} {readiness : Readiness}
  {generate : Option Resource → List Resource → Except Failure (Option Resource)} {e : Effect}

namespace Run

/-- The effects of handling one governed resource: it is flagged while it is not ready, and else
marked as done and updated as far as it is outdated. -/
def renewal (r : Ref) (readiness : Readiness) : List Effect :=
  match readiness.resource with
  | none => []
  | some g =>
    if readiness.ready then
      match g.renew r with
      | .error _ => [.reject (.governed r)]
      | .ok o =>
        ⟨.governed r, none, some (some (done (.governed r))), false⟩ ::
          if g.isOutdated o then [Inventory.writeEffect true ⟨.governed r, none, o⟩] else []
    else [Inventory.retireEffect (.governed r) g]

/-- The effects of generation on what is governed. Without any governed resource a synthetic one is
tried, in vain. -/
def renewals (s : Run) : List Effect :=
  let entries := s.inventory.readyMap.entries
  if s.inventory.isReady then
    orphanDrops entries ++
    if s.controller.generate.isSome then
      (if entries.all fun e => e.2.resource.isNone then
        [.reject (.governed (if s.manifest.name.isEmpty then s.controller.governed.toRef
          else s.controller.governed.named s.manifest.name))] else []) ++
      entries.flatMap fun e => renewal e.1 e.2
    else []
  else if s.controller.owned.isEmpty then retirements entries
  else []

/-- All effects of generation, in turn, between two silent ones that stand for notices and report. -/
def generation (s : Run) : List Effect := .idle default :: s.renewals ++ [.idle default]

section Echo

variable (hecho : ∀ g resources, generate g resources = .ok g)
include hecho

private theorem attempt_eq_renewal (ho : c.owned.isEmpty = true) (r : Ref) (readiness : Readiness) :
    attempt c [] generate r readiness = renewal r readiness := by
  rw [attempt, renewal]
  cases readiness.resource with
  | none => rfl
  | some g =>
    simp only [List.not_mem_nil, if_false, ho, if_true]
    split
    · rw [response, hecho]
      simp only [rendered, ho, if_true, Resource.renew]
      cases (g.unannotated Resource.deleteAnnotation).setOwner r with
      | error fault => rfl
      | ok o =>
        simp only [acceptance, Inventory.delivery]
        split <;> rfl
    · rfl

private theorem synthesis_eq (s : Run) : s.synthesis generate =
    [.reject (.governed (if s.manifest.name.isEmpty then s.controller.governed.toRef
      else s.controller.governed.named s.manifest.name))] := by
  rw [synthesis]
  split
  · rfl
  · rw [response, hecho]

end Echo

private theorem responses_eq (hgenerate : ∀ generate, s.controller.generate = some generate →
    s.controller.owned.isEmpty = true ∧ s.failed = [] ∧
      ∀ g resources, generate g resources = .ok g) : s.responses = s.renewals := by
  rw [responses, renewals]
  cases hg : s.controller.generate with
  | none => rfl
  | some generate =>
    obtain ⟨ho, hf, hecho⟩ := hgenerate generate hg
    simp only [hf, attempt_eq_renewal hecho ho, synthesis_eq hecho, Option.isSome_some, if_true]

theorem trace_generateAll (hs : Sound s.controller s.inventory)
    (hgenerate : ∀ generate, s.controller.generate = some generate →
      s.controller.owned.isEmpty = true ∧ s.failed = [] ∧
        ∀ g resources, generate g resources = .ok g) :
    Trace s.generation s s.generateAll := by
  rw [generation, ← responses_eq hgenerate]
  exact trace_responses hs default

section Cases

def verdict (s : Run) (r : Ref) : Verdict :=
  if s.inventory.isReady then
    if s.controller.generate.isNone then .leave
    else if (s.inventory.readiness r .blank).ready then .renew
    else .retire
  else if s.controller.owned.isEmpty then .retire
  else .leave

/-- The effects of generation that work on an item or on a condition. -/
inductive Renewal (s : Run) : Effect → Prop where
  | orphan {r : Ref} : s.inventory.isReady = true →
      (s.inventory.find? (.governed r)).isSome = true →
      s.inventory.existing? (.governed r) = none → Renewal s ⟨.governed r, none, some none, false⟩
  | retire {r : Ref} {g : Resource} : s.inventory.existing? (.governed r) = some g →
      s.verdict r = .retire → Renewal s (Inventory.retireEffect (.governed r) g)
  | done {r : Ref} {g o : Resource} : s.inventory.existing? (.governed r) = some g →
      s.verdict r = .renew → g.renew r = .ok o →
      Renewal s ⟨.governed r, none, some (some (done (.governed r))), false⟩
  | update {r : Ref} {g o : Resource} : s.inventory.existing? (.governed r) = some g →
      s.verdict r = .renew → g.renew r = .ok o → g.isOutdated o = true →
      Renewal s (Inventory.writeEffect true ⟨.governed r, none, o⟩)

section Members

variable (hs : Sound s.controller s.inventory)
include hs

private theorem mem_readyMap_iff : (r, readiness) ∈ s.inventory.readyMap.entries ↔
    (s.inventory.find? (.governed r)).isSome = true ∧
      readiness = s.inventory.readiness r (s.inventory.entryAt (.governed r)) := by
  rw [Inventory.mem_readyMap hs]
  constructor
  · rintro ⟨entry, hf, rfl⟩
    rw [hf, Inventory.entryAt_of_find? hf]
    exact ⟨rfl, rfl⟩
  · rintro ⟨hk, rfl⟩
    obtain ⟨entry, hf⟩ := Option.isSome_iff_exists.1 hk
    rw [Inventory.entryAt_of_find? hf]
    exact ⟨entry, hf, rfl⟩

private theorem isSome_of_existing? (hg : s.inventory.existing? (.governed r) = some g) :
    (s.inventory.find? (.governed r)).isSome = true :=
  hs.isSome_find?_iff.2 (.inr (.inl (by simp [hg])))

omit hs in
private theorem mem_renewal (hall : s.inventory.isReady = true)
    (hgen : s.controller.generate.isSome = true) (hg : s.inventory.existing? (.governed r) = some g) :
    e ∈ renewal r (s.inventory.readiness r (s.inventory.entryAt (.governed r))) ↔
      match s.verdict r with
      | .leave => False
      | .retire => e = Inventory.retireEffect (.governed r) g
      | .renew => (∃ fault, g.renew r = .error fault ∧ e = .reject (.governed r)) ∨
          ∃ o, g.renew r = .ok o ∧
            (e = ⟨.governed r, none, some (some (done (.governed r))), false⟩ ∨
              g.isOutdated o = true ∧ e = Inventory.writeEffect true ⟨.governed r, none, o⟩) := by
  have hresource : (s.inventory.readiness r (s.inventory.entryAt (.governed r))).resource =
      some g := hg
  have hready : (s.inventory.readiness r (s.inventory.entryAt (.governed r))).ready =
      (s.inventory.readiness r .blank).ready := rfl
  have hnone : s.controller.generate.isNone = false := by simpa using hgen
  rw [renewal, hresource, hready, verdict, hall, if_pos rfl, hnone]
  simp only [Bool.false_eq_true, if_false]
  by_cases hr : (s.inventory.readiness r .blank).ready = true
  · simp only [if_pos hr]
    cases g.renew r with
    | error fault => simp
    | ok o => cases g.isOutdated o <;> simp
  · simp only [if_neg hr, List.mem_singleton]

omit hs in
private theorem renewal_of_mem_renewal (hall : s.inventory.isReady = true)
    (hgen : s.controller.generate.isSome = true)
    (he : e ∈ renewal r (s.inventory.readiness r (s.inventory.entryAt (.governed r)))) :
    s.Renewal e ∨ e.item = none ∧ e.condition = none := by
  cases hg : s.inventory.existing? (.governed r) with
  | none =>
    rw [renewal, show (Inventory.readiness ..).resource = none from hg] at he
    cases he
  | some g =>
    rw [mem_renewal hall hgen hg] at he
    cases hv : s.verdict r with
    | leave => simp only [hv] at he
    | retire =>
      simp only [hv] at he
      exact .inl (he ▸ .retire hg hv)
    | renew =>
      simp only [hv] at he
      rcases he with ⟨fault, -, rfl⟩ | ⟨o, ho, rfl | ⟨hout, rfl⟩⟩
      · exact .inr ⟨rfl, rfl⟩
      · exact .inl (.done hg hv ho)
      · exact .inl (.update hg hv ho hout)

private theorem renewal_of_mem_renewals (he : e ∈ s.renewals) :
    s.Renewal e ∨ e.item = none ∧ e.condition = none := by
  rw [renewals] at he
  by_cases hready : s.inventory.isReady = true
  · simp only [if_pos hready, List.mem_append] at he
    rcases he with he | he
    · obtain ⟨⟨r, readiness⟩, hm, hnone, rfl⟩ := mem_orphanDrops.1 he
      obtain ⟨hk, rfl⟩ := (mem_readyMap_iff hs).1 hm
      exact .inl (.orphan hready hk hnone)
    · split at he
      · rename_i hgen
        rcases List.mem_append.1 he with he | he
        · split at he
          · cases List.mem_singleton.1 he
            exact .inr ⟨rfl, rfl⟩
          · cases he
        · obtain ⟨⟨r, readiness⟩, hm, he⟩ := List.mem_flatMap.1 he
          obtain ⟨-, rfl⟩ := (mem_readyMap_iff hs).1 hm
          exact renewal_of_mem_renewal hready hgen he
      · cases he
  · simp only [if_neg hready] at he
    split at he
    · rename_i ho
      obtain ⟨⟨r, readiness⟩, hm, g, hg, rfl⟩ := mem_retirements.1 he
      obtain ⟨-, rfl⟩ := (mem_readyMap_iff hs).1 hm
      refine .inl (.retire hg ?_)
      rw [verdict, if_neg hready, if_pos ho]
    · cases he

omit hs in
private theorem ready_of_renew (hv : s.verdict r = .renew) :
    s.inventory.isReady = true ∧ s.controller.generate.isSome = true := by
  rw [verdict] at hv
  split at hv
  · rename_i hall
    split at hv
    · cases hv
    · rename_i hgen
      exact ⟨hall, by simpa [Option.isSome_iff_ne_none] using hgen⟩
  · split at hv <;> cases hv

private theorem mem_renewals (he : s.Renewal e) : e ∈ s.renewals := by
  have hmem {r : Ref} (hk : (s.inventory.find? (.governed r)).isSome = true) :=
    (mem_readyMap_iff hs).2 ⟨hk, rfl⟩
  -- in a ready package the governed resource has its turn
  have hlast {r : Ref} {g : Resource} (hg : s.inventory.existing? (.governed r) = some g)
      (hall : s.inventory.isReady = true) (hgen : s.controller.generate.isSome = true)
      (he : e ∈ renewal r (s.inventory.readiness r (s.inventory.entryAt (.governed r)))) :
      e ∈ s.renewals := by
    simp only [renewals, if_pos hall, if_pos hgen, List.mem_append]
    exact .inr (.inr (List.mem_flatMap.2 ⟨_, hmem (isSome_of_existing? hs hg), he⟩))
  cases he with
  | @orphan r hall hk hnone =>
    simp only [renewals, if_pos hall, List.mem_append]
    exact .inl (mem_orphanDrops.2 ⟨_, hmem hk, hnone, rfl⟩)
  | @retire r g hg hv =>
    by_cases hall : s.inventory.isReady = true
    · by_cases hgen : s.controller.generate.isSome = true
      · exact hlast hg hall hgen (by rw [mem_renewal hall hgen hg, hv])
      · rw [verdict, if_pos hall, if_pos (by simpa using hgen)] at hv
        cases hv
    · rw [verdict, if_neg hall] at hv
      split at hv
      · rename_i ho
        simp only [renewals, if_neg hall, if_pos ho]
        exact mem_retirements.2 ⟨_, hmem (isSome_of_existing? hs hg), g, hg, rfl⟩
      · cases hv
  | done hg hv ho =>
    obtain ⟨hall, hgen⟩ := ready_of_renew hv
    exact hlast hg hall hgen (by simp [mem_renewal hall hgen hg, hv, ho])
  | update hg hv ho hout =>
    obtain ⟨hall, hgen⟩ := ready_of_renew hv
    exact hlast hg hall hgen (by simp [mem_renewal hall hgen hg, hv, ho, hout])

/-- Generation works on items and conditions by renewals only. -/
theorem renewal_of_mem (he : e ∈ s.generation) :
    s.Renewal e ∨ e.item = none ∧ e.condition = none := by
  rcases Effect.mem_between_idle.1 he with rfl | he
  · exact .inr ⟨rfl, rfl⟩
  · exact renewal_of_mem_renewals hs he

theorem mem_generation (he : s.Renewal e) : e ∈ s.generation :=
  List.mem_append_left _ (List.mem_cons_of_mem _ (mem_renewals hs he))

end Members

/-- Renewals depend on what is known of governed references. -/
theorem Renewal.congr (hready : s'.inventory.isReady = s.inventory.isReady)
    (hfind : ∀ r, s'.inventory.find? (.governed r) = s.inventory.find? (.governed r))
    (hv : ∀ r, s'.verdict r = s.verdict r) (he : s.Renewal e) : s'.Renewal e := by
  have hex (r : Ref) : s'.inventory.existing? (.governed r) = s.inventory.existing? (.governed r) :=
    (Inventory.SameAt.of_find? (hfind r)).2.1
  cases he with
  | @orphan r hall hk hnone =>
    exact .orphan (hready.trans hall) (by rwa [hfind]) ((hex r).trans hnone)
  | @retire r _ hg h => exact .retire ((hex r).trans hg) ((hv r).trans h)
  | @done r _ _ hg h ho => exact .done ((hex r).trans hg) ((hv r).trans h) ho
  | @update r _ _ hg h ho hout => exact .update ((hex r).trans hg) ((hv r).trans h) ho hout

/-- The items that generation writes are those of present governed resources. -/
theorem Renewal.item (h : s.Renewal e) (hx : e.item = some x) :
    ∃ r g, s.inventory.existing? (.governed r) = some g ∧
      g.regenerated (s.verdict r) r = some x := by
  cases h with
  | orphan => cases hx
  | done => cases hx
  | retire hg hv =>
    refine ⟨_, _, hg, ?_⟩
    rw [hv]
    exact hx
  | update hg hv ho hout =>
    refine ⟨_, _, hg, ?_⟩
    rw [hv, Resource.regenerated]
    simp only [ho, if_pos hout]
    exact hx

theorem exists_renewal (hg : s.inventory.existing? (.governed r) = some g)
    (hx : g.regenerated (s.verdict r) r = some x) : ∃ e, s.Renewal e ∧ e.item = some x := by
  cases hv : s.verdict r with
  | leave =>
    rw [hv] at hx
    cases hx
  | retire =>
    rw [hv] at hx
    exact ⟨_, .retire hg hv, hx⟩
  | renew =>
    rw [hv, Resource.regenerated] at hx
    split at hx
    · cases hx
    · rename_i o ho
      split at hx
      · rename_i hout
        exact ⟨_, .update hg hv ho hout, hx⟩
      · cases hx

end Cases

end Run

end Reconciler
