import Reconciler.Proofs.Run.Final
import Reconciler.Proofs.Writes

/-! A run of any controller as one passage: which kinds of effects it is made of, whatever the
callbacks answer, and which resources it writes into the batch. -/
namespace Reconciler

open Inventory (Action Key Readiness Sound)

variable {c : Controller} {b : Batch} {s s' s'' : Run} {r : Ref} {o x : Resource} {e : Effect}
  {P Q : Effect → Prop}

namespace Run

def Through (P : Effect → Prop) (s s' : Run) : Prop := ∃ es, (∀ e ∈ es, P e) ∧ Trace es s s'

namespace Through

private theorem step (h : e.Holds s s') (he : P e) : Through P s s' :=
  ⟨[e], by simpa using he, .cons h (.nil s')⟩

private theorem trans (h : Through P s s') (h' : Through P s' s'') : Through P s s'' := by
  obtain ⟨es, hes, ht⟩ := h
  obtain ⟨es', hes', ht'⟩ := h'
  refine ⟨es ++ es', fun e he => ?_, ht.append ht'⟩
  exact (List.mem_append.1 he).elim (hes e) (hes' e)

theorem mono (hPQ : ∀ e, P e → Q e) (h : Through P s s') : Through Q s s' := by
  obtain ⟨es, hes, ht⟩ := h
  exact ⟨es, fun e he => hPQ e (hes e he), ht⟩

theorem source (h : Through P s s') : s'.manifest.source = s.manifest.source := by
  obtain ⟨es, -, ht⟩ := h
  exact ht.source

/-- The resources that the effects bring are written into the batch. -/
theorem written (h : Through P s s') :
    Batch.Written (fun r => ∃ e, P e ∧ e.item = some r) s.batch.items s'.batch.items := by
  obtain ⟨es, hes, ht⟩ := h
  induction ht with
  | nil s => exact .refl
  | @cons e es s s' _ head _ ih =>
    refine Batch.Written.trans ?_ (ih fun e' he' => hes e' (List.mem_cons_of_mem _ he'))
    rw [head.items, Effect.writeTo]
    cases hi : e.item with
    | none => exact .refl
    | some r => exact .write .refl ⟨e, hes e List.mem_cons_self, hi⟩

/-- An identity that no effect writes at keeps its item. -/
theorem itemAt (h : Through P s s') {id : Ref}
    (hn : ∀ e r, P e → e.item = some r → r.identity ≠ id) :
    Batch.itemAt s'.batch.items id = Batch.itemAt s.batch.items id := by
  obtain ⟨es, hes, ht⟩ := h
  exact ht.itemAt_of_untouched fun e he r hr => hn e r (hes e he) hr

theorem conditions (h : Through P s s') (test : String → Bool)
    (hn : ∀ e, P e → e.condition ≠ none → test e.key.conditionType = false) :
    s'.manifest.conditions.filter (fun x => test x.typeName) =
      s.manifest.conditions.filter fun x => test x.typeName := by
  obtain ⟨es, hes, ht⟩ := h
  exact ht.conditions_of_untouched test fun e he => hn e (hes e he)

end Through

/-- What generation can do from a state: conditions of governed resources change, governed resources
are flagged where nothing is owned, and answers are written. -/
inductive Rendering (s : Run) : Effect → Prop where
  | quiet {e : Effect} : e.item = none → e.condition = none → Rendering s e
  | orphan {r : Ref} : s.controller.governs r = true → Rendering s ⟨.governed r, none, some none, false⟩
  | flag {r : Ref} {g : Resource} : s.controller.owned.isEmpty = true →
      s.inventory.existing? (.governed r) = some g → s.controller.governs r = true →
      Rendering s (Inventory.retireEffect (.governed r) g)
  | done {r : Ref} : s.controller.governs r = true →
      Rendering s ⟨.governed r, none, some (some (done (.governed r))), false⟩
  | answer {generate : Option Resource → List Resource → Except Failure (Option Resource)}
      {isUpdate : Bool} {exchange : Option Exchange} {r : Ref} {governed : Option Resource}
      {resources : List Resource} {answer o : Resource} : s.controller.generate = some generate →
      (∀ g, governed = some g → s.inventory.existing? (.governed r) = some g) →
      generate governed resources = .ok (some answer) → rendered s.controller r answer = .ok o →
      Rendering s (Inventory.writeEffect isUpdate ⟨.governed r, exchange, o⟩)

section Generation

variable {generate : Option Resource → List Resource → Except Failure (Option Resource)}

private theorem rendering_of_response {governed : Option Resource} {resources : List Resource}
    (hgen : s.controller.generate = some generate) (hgov : s.controller.governs r = true)
    (hg : ∀ g, governed = some g → s.inventory.existing? (.governed r) = some g)
    (he : e ∈ response s.controller generate r governed resources) : s.Rendering e := by
  rcases response_cases he with rfl | ⟨answer, o, hanswer, hr, rfl | ⟨isUpdate, rfl⟩⟩
  · exact .quiet rfl rfl
  · exact .done hgov
  · exact .answer hgen hg hanswer hr

theorem rendering_of_responses (hs : Sound s.controller s.inventory) (he : e ∈ s.responses) :
    s.Rendering e := by
  have hgov {e : Ref × Readiness} (he : e ∈ s.inventory.readyMap.entries) :
      s.controller.governs e.1 = true := by
    obtain ⟨entry, hf, -⟩ := (Inventory.mem_readyMap hs).1 he
    exact (hs _ _ hf).1
  rcases mem_responses he with ⟨entry, hm, -, rfl⟩ | ⟨generate, hgen, -, he⟩ |
    ⟨generate, hgen, entry, hm, he⟩ | ⟨ho, entry, hm, g, hg, rfl⟩
  · exact .orphan (hgov hm)
  · rw [synthesis] at he
    split at he
    · cases List.mem_singleton.1 he
      exact .quiet rfl rfl
    · exact rendering_of_response hgen (beq_self_eq_true _) (by simp) he
  · have hpresent := existing?_of_readyMap hs hm
    rw [attempt] at he
    split at he
    · cases he
    · rename_i g hg
      rw [hg] at hpresent
      split at he
      · cases he
      · split at he
        · refine rendering_of_response hgen (hgov hm) ?_ he
          rintro _ ⟨⟩
          exact hpresent
        · split at he
          · rename_i ho
            cases List.mem_singleton.1 he
            exact .flag ho hpresent (hgov hm)
          · cases he
  · exact .flag ho ((existing?_of_readyMap hs hm).trans hg) (hgov hm)

end Generation

private theorem through_responses (hs : Sound s.controller s.inventory) :
    Through (fun e => e = .idle default ∨ e ∈ s.responses) s s.generateAll :=
  ⟨_, fun _ he => Effect.mem_between_idle.1 he, trace_responses hs default⟩

private theorem Rendering.congr (hc : s'.controller = s.controller)
    (hex : ∀ r, s'.inventory.existing? (.governed r) = s.inventory.existing? (.governed r))
    (h : s'.Rendering e) : s.Rendering e := by
  cases h with
  | quiet hi hcond => exact .quiet hi hcond
  | orphan hgov => exact .orphan (hc ▸ hgov)
  | flag ho hg hgov => exact .flag (hc ▸ ho) (hex _ ▸ hg) (hc ▸ hgov)
  | done hgov => exact .done (hc ▸ hgov)
  | answer hgen hg hanswer hr =>
    exact .answer (hc ▸ hgen) (fun g hgg => hex _ ▸ hg g hgg) hanswer (hc ▸ hr)

/-- Rendering changes annotations only. -/
theorem sameBody_rendered (h : rendered c r x = .ok o) : Resource.SameBody x o :=
  Resource.sameBody_kept h

/-- What generation writes is made of a present governed resource, or of an answer of the callback. -/
theorem Rendering.item (h : s.Rendering e) (hx : e.item = some x) :
    (s.controller.owned.isEmpty = true ∧
      ∃ r g, s.inventory.existing? (.governed r) = some g ∧ Resource.SameBody g x) ∨
    ∃ generate r governed resources answer, s.controller.generate = some generate ∧
      (∀ g, governed = some g → s.inventory.existing? (.governed r) = some g) ∧
      generate governed resources = .ok (some answer) ∧ Resource.SameBody answer x := by
  cases h with
  | quiet hi => cases hi.symm.trans hx
  | orphan => cases hx
  | done => cases hx
  | flag ho hg =>
    obtain ⟨-, hflag⟩ := Inventory.retireEffect_item hx
    exact .inl ⟨ho, _, _, hg, Resource.SameBody.annotated hflag⟩
  | answer hgen hg hanswer hr =>
    obtain ⟨hprep, -⟩ := Inventory.writeEffect_item_iff.1 hx
    rw [prepared_governed] at hprep
    cases hprep
    refine .inr ⟨_, _, _, _, _, hgen, hg, hanswer, ?_⟩
    exact (sameBody_rendered hr).trans (Resource.SameBody.unannotated _ _)

theorem Rendering.condition (h : s.Rendering e) (hcond : e.condition ≠ none) :
    ∃ r, s.controller.governs r = true ∧ e.key = .governed r := by
  cases h with
  | quiet _ hnone => exact absurd hnone hcond
  | orphan hgov => exact ⟨_, hgov, rfl⟩
  | flag _ _ hgov => exact ⟨_, hgov, Inventory.key_retireEffect _ _⟩
  | done hgov => exact ⟨_, hgov, rfl⟩
  | answer => exact absurd (Inventory.writeEffect_condition_of_ne (by simp [Key.governed])) hcond

def Involves (s : Run) (e : Effect) : Prop :=
  (∃ a ∈ s.childActions, e = a.effect) ∨ s.Rendering e

/-- The effects that a run has then: actions on children, and responses once these are committed. -/
def Arises (s : Run) (e : Effect) : Prop :=
  (∃ a ∈ s.childActions, e = a.effect) ∨ e = .idle default ∨ e ∈ s.updateChildren.responses

/-- The resources that a run can write then: those of its effects, and the manifest. -/
def Writes (s : Run) (r : Resource) : Prop :=
  (∃ e, s.Involves e ∧ e.item = some r) ∨
    ∃ m : Manifest, m.source = s.manifest.source ∧ m.toResource = .ok r

end Run

namespace Controller

/-- All that a run does before the manifest is written. -/
theorem Gathered.through_arising (h : Gathered c b s) : Run.Through s.Arises s s.final := by
  obtain ⟨s', ht, he⟩ := s.updateChildren_trace
  have hchildren : Run.Through s.Arises s s.updateChildren := by
    rw [he]
    refine Run.Through.trans ⟨_, fun e he' => ?_, ht⟩ (.step (e := .idle default)
      (Run.holds_quiet _ rfl rfl rfl rfl rfl rfl rfl) (.inr (.inl rfl)))
    obtain ⟨a, ha, rfl⟩ := List.mem_map.1 he'
    exact .inl ⟨a, ha, rfl⟩
  exact hchildren.trans ((Run.through_responses h.sound_updateChildren).mono fun _ => .inr)

/-- Whatever the callbacks answer, all effects are among those that a run can have. -/
theorem Gathered.through_final (h : Gathered c b s) : Run.Through s.Involves s s.final := by
  refine h.through_arising.mono fun e he => ?_
  rcases he with ha | rfl | he
  · exact .inl ha
  · exact .inr (.quiet rfl rfl)
  · refine .inr ((Run.rendering_of_responses h.sound_updateChildren he).congr
      s.controller_updateChildren fun r => ?_)
    exact (Inventory.SameAt.of_find? (Run.find?_updateChildren_of_ne (by simp [Key.governed]))).2.1

theorem run_eq_of_populated (hs : c.populated b = some s) : c.run b = .ofRun s.final.writeManifest :=
  run_of_reconciled (by rw [reconciled, hs]; rfl)

private theorem Gathered.written_writeManifest (h : Gathered c b s) (ht : Run.Through P s s.final) :
    Batch.Written (fun x => (∃ e, P e ∧ e.item = some x) ∨
      ∃ m : Manifest, m.source = s.manifest.source ∧ m.toResource = .ok x)
      b.items s.final.writeManifest.batch.items := by
  have hwritten := ht.written
  rw [h.items] at hwritten
  rw [Run.items_writeManifest]
  split
  · rename_i r hr
    exact .write (hwritten.mono fun _ => .inl) (.inr ⟨_, ht.source, hr⟩)
  · exact hwritten.mono fun _ => .inl

/-- Where the effects write nothing at an identity, and the manifest has another one, the item stays. -/
theorem Gathered.getElem?_writeManifest_of_ne (h : Gathered c b s) (ht : Run.Through P s s.final) {i : Nat}
    (hi : b.items[i]? = some x) (hroot : x.identity ≠ s.manifest.source.identity)
    (hne : ∀ e new, P e → e.item = some new → new.identity ≠ x.identity) :
    s.final.writeManifest.batch.items[i]? = some x := by
  refine (h.written_writeManifest ht).getElem?_of_ne hi fun new hnew hid => ?_
  rcases hnew with ⟨e, he, hitem⟩ | ⟨m, hsource, hm⟩
  · exact hne e new he hitem hid
  · rw [Manifest.identity_toResource hm, hsource] at hid
    exact hroot hid.symm

/-- A run that gets past the watches writes its resources in turn, and is not aborted. -/
theorem run_of_populated (hs : c.populated b = some s) :
    c.run b = .ofRun s.final.writeManifest ∧ (c.run b).report.isAborted = false ∧
      Batch.Written s.Writes b.items (c.run b).batch.items := by
  have h := gathered_spec hs
  rw [run_eq_of_populated hs]
  exact ⟨rfl, rfl, h.written_writeManifest h.through_final⟩

/-- A run that does not get past the watches is aborted and leaves the items alone. -/
theorem run_of_populated_eq_none (hs : c.populated b = none) :
    (c.run b).report.isAborted = true ∧ (c.run b).batch.items = b.items := by
  rw [populated, Option.map_eq_none_iff, surveyed] at hs
  rw [run]
  cases hstart : Run.start c b with
  | error fault => exact ⟨rfl, rfl⟩
  | ok s =>
    rw [hstart] at hs
    simp only at hs ⊢
    obtain ⟨-, index, root, manifest, -, -, rfl⟩ := Run.start_eq_ok_iff.1 hstart
    obtain ⟨calls, stage, hcalls, -⟩ := Run.callEach_eq
      (Run.loaded c b index manifest).populateInventory
      (Run.loaded c b index manifest).populateInventory.observedWatches
    rw [Run.finish]
    cases hw : (Run.loaded c b index manifest).populateInventory.callWatches with
    | mk verdict s' =>
      rw [hw] at hs
      rw [← Run.callWatches, hw] at hcalls
      cases verdict with
      | ok _ => cases hs
      | error failure =>
        subst hcalls
        exact ⟨rfl, rfl⟩

/-- In any case a run is a series of writes. -/
theorem written_run (c : Controller) (b : Batch) :
    ∃ P, Batch.Written P b.items (c.run b).batch.items := by
  cases hs : c.populated b with
  | none =>
    rw [(run_of_populated_eq_none hs).2]
    exact ⟨fun _ => False, .refl⟩
  | some s => exact ⟨s.Writes, (run_of_populated hs).2.2⟩

end Controller

end Reconciler
