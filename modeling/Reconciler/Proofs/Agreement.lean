import Reconciler.Proofs.Frame
import Reconciler.Proofs.Gating
import Reconciler.Proofs.Run.States

/-! Inventory and manifest tell the same about the conditions of all entries, at the end of each stage
of a run. The two are changed separately; they stay together as no two keys share a condition type. -/
namespace Reconciler

open Inventory (Key Sound)

variable {c : Controller} {b : Batch} {s : Run} {k : Key} {e : Effect}

private theorem Inventory.isSome_of_condition? {inv : Inventory} (h : inv.condition? k ≠ none) :
    (inv.find? k).isSome = true := by
  cases hf : inv.find? k with
  | some entry => rfl
  | none =>
    rw [Inventory.condition?, Inventory.entryAt, hf] at h
    exact absurd rfl h

namespace Run

section Generation

variable (hs : Sound s.controller s.inventory)
include hs

private theorem readable_of_responses (hr : s.inventory.Readable)
    (hr' : s.generateAll.inventory.Readable) (he : e ∈ s.responses) (hcond : e.condition ≠ none) :
    e.key.subject.Readable := by
  obtain ⟨e', he', hk, hlast⟩ := (trace_responses hs e.key).condition?_of_touched
    ⟨e, List.mem_cons_of_mem _ (List.mem_append_left _ he), rfl, hcond⟩
  obtain ⟨r, hkr, -, hlisted⟩ := key_of_responses hs
    (mem_responses_of_touching he' (.inr (by rw [hlast]; simp)))
  rw [← hk]
  -- there is an entry before generation, or after it
  rcases hlisted with hpresent | hput
  · rw [hkr]
    exact hr.subject hpresent
  · rw [hk]
    refine hr'.subject (Inventory.isSome_of_condition? fun hnone => hput ?_)
    rw [hlast, hnone]

private theorem agrees_generateAll (hr : s.inventory.Readable)
    (hr' : s.generateAll.inventory.Readable)
    (hk : s.controller.Admits k) (hkr : k.subject.Readable) (ha : s.Agrees Eq k) :
    s.generateAll.Agrees Eq k := by
  refine (trace_responses hs k).agrees (fun _ => rfl) ha fun e he hcond htype => ?_
  have he := mem_responses_of_touching he (.inr hcond)
  have hread := readable_of_responses hs hr hr' he hcond
  obtain ⟨r, hkey, hgov, -⟩ := key_of_responses hs he
  rw [hkey] at htype hread ⊢
  exact Controller.Admits.eq_of_conditionType_eq hgov hk hread hkr htype

private theorem admits_generateAll (hk : (s.generateAll.inventory.find? k).isSome = true) :
    s.controller.Admits k := by
  let governed := Key.governed s.controller.governed.toRef
  by_cases htouched : ∃ e ∈ Effect.idle governed :: s.responses ++ [.idle governed], e.key = k
  · have hgoverned : s.controller.Admits governed := beq_self_eq_true _
    obtain ⟨e, he, rfl⟩ := htouched
    rcases Effect.mem_between_idle.1 he with rfl | he
    · exact hgoverned
    · obtain ⟨r, hkey, hgov, -⟩ := key_of_responses hs he
      rw [hkey]
      exact hgov
  · rw [(trace_responses hs governed).find?_of_untouched
      fun e he hek => htouched ⟨e, he, hek⟩] at hk
    exact hs.admits hk

end Generation

end Run

namespace Controller

private theorem Gathered.agrees_final (h : Gathered c b s)
    (hn : (s.manifest.conditions.map Condition.typeName).Nodup) (hr : s.inventory.Readable)
    (hr' : s.updateChildren.inventory.Readable) (hr'' : s.final.inventory.Readable)
    (hk : (s.final.inventory.find? k).isSome = true)
    (hx : k.role = .owned → c.exchange? k.target ≠ some .localOnly) : s.final.Agrees Eq k := by
  have hsound := h.sound_updateChildren
  have hadmits := Run.admits_generateAll hsound hk
  have hkr := hr''.subject hk
  refine Run.agrees_generateAll hsound hr' hr'' hadmits hkr ?_
  rw [Run.controller_updateChildren] at hadmits
  refine Run.agrees_updateChildren (fun _ => rfl) h.sound_self hr hadmits hkr ?_
  by_cases hrole : k.role = .governed
  · -- a governed key takes conditions, whether or not there is an entry yet
    obtain ⟨role, owner, target⟩ := k
    cases hrole
    cases owner with
    | some owner => exact hadmits.elim
    | none =>
      rw [h.controller] at hadmits
      exact h.agrees hn hkr hadmits
  · refine h.agrees_of_isSome hn hkr (Run.isSome_find?_updateChildren ?_) hx
    rwa [← Run.find?_generateAll hsound hrole]

/-- At the end of each stage every entry that is not of a local child holds the condition that the
manifest stores under its type. -/
theorem conditions_agree
    (hn : ∀ index root m, b.rootManifest? = some (index, root) → Manifest.ofResource root = .ok m →
      (m.conditions.map Condition.typeName).Nodup)
    (hr : ∀ t ∈ c.states b, t.inventory.Readable) :
    ∀ t ∈ c.states b, ∀ k e, t.inventory.find? k = some e → e.exchange ≠ some .localOnly →
      e.condition = t.manifest.condition? k.conditionType := by
  intro t ht k e hf hx
  have hk : (t.inventory.find? k).isSome = true := by rw [hf]; rfl
  have hcond : t.inventory.condition? k = e.condition := by
    rw [Inventory.condition?, Inventory.entryAt_of_find? hf]
  -- how an entry is exchanged can be read off its key
  have hlocal (hs : Sound c t.inventory) (hrole : k.role = .owned) :
      c.exchange? k.target ≠ some .localOnly := by
    rwa [(hs k e hf).2.1, exchangeOf, if_pos hrole] at hx
  rw [← hcond]
  rcases states_cases ht with ⟨h, -⟩ | ⟨s, hs, hcases⟩
  · exact h.agrees_of_isSome (hn _ _ _ h.root h.manifest) ((hr t ht).subject hk) hk
      (hlocal h.sound)
  · have h := gathered_spec hs
    obtain ⟨hmem, hmem', hmem'', -⟩ := mem_states hs
    have hn := hn _ _ _ h.root h.manifest
    have hsound := Run.sound_updateChildren h.sound
    have hfinal (hk : (s.final.inventory.find? k).isSome = true)
        (hf : s.final.inventory.find? k = some e) : s.final.Agrees Eq k := by
      refine h.agrees_final hn (hr _ hmem) (hr _ hmem') (hr _ hmem'') hk fun hrole => ?_
      rw [Run.final, Run.find?_generateAll (by
        rw [Run.controller_updateChildren, h.controller]
        exact hsound) (by simp [hrole])] at hf
      rwa [(hsound k e hf).2.1, exchangeOf, if_pos hrole] at hx
    rcases hcases with rfl | rfl | rfl | rfl
    · exact h.agrees_of_isSome hn ((hr _ ht).subject hk) hk (hlocal h.sound)
    · exact h.agrees_updateChildren (hr _ hmem) hn hk (hlocal hsound)
    · exact hfinal hk hf
    · exact hfinal hk hf

/-- When the allocation is created its condition is stored in the inventory and in the manifest. -/
theorem conditions_agree_serving : ∃ t ∈ serving.states mixedPackage, ∃ k e x,
    k.role = .owned ∧ t.inventory.find? k = some e ∧ e.condition = some x ∧
      t.manifest.condition? k.conditionType = some x := by
  let k : Key := .owned (Coordinate.named ⟨"req/v1", "Interface"⟩ "a")
    (Coordinate.named ⟨"ipam/v1", "IPAllocation"⟩ "x")
  obtain ⟨s, hs, e, hf, hcond, hlocal⟩ : ∃ s, serving.populated mixedPackage = some s ∧
      ∃ e, s.updateChildren.inventory.find? k = some e ∧ e.condition.isSome = true ∧
      e.exchange ≠ some .localOnly := by
    decide +kernel
  obtain ⟨x, hx⟩ := Option.isSome_iff_exists.1 hcond
  have hmem := (mem_states hs).2.1
  refine ⟨_, hmem, k, e, x, rfl, hf, hx, ?_⟩
  have hdistinct : (mixedPackage.rootManifest?.map fun root => Manifest.ofResource root.2).all
      fun m? => m?.toOption.all fun m => (m.conditions.map Condition.typeName).Nodup := by
    decide +kernel
  rw [← hx, conditions_agree (fun index root m hroot hm => ?_) (by decide +kernel) _ hmem k e hf
    hlocal]
  rw [hroot, Option.map_some, Option.all_some, hm] at hdistinct
  exact of_decide_eq_true hdistinct

end Controller

end Reconciler
