import Reconciler.Proofs.Representation

/-! How generation handles one governed reference. What it does there is told by the reference alone:
a call of the callback, a retirement, the drop of a condition without resource, or nothing. -/
namespace Reconciler

open Inventory (Key Readiness Represented Sound)

variable {c : Controller} {b : Batch} {s : Run} {r : Ref} {g x : Resource} {e : Effect}
  {q : Run.Request} {readiness : Readiness}
  {generate : Option Resource → List Resource → Except Failure (Option Resource)}

namespace Run

section Requests

/-- A request is for the package if none of its governed resources is there, or else for one that has
not failed and is ready. -/
theorem mem_requests : q ∈ s.requests ↔ s.inventory.isReady = true ∧
    ((∀ e ∈ s.inventory.readyMap.entries, e.2.resource = none) ∧ s.manifest.name.isEmpty = false ∧
        q = ⟨s.controller.governed.named s.manifest.name, none, []⟩ ∨
      ∃ readiness g, (q.target, readiness) ∈ s.inventory.readyMap.entries ∧
        readiness.resource = some g ∧ q.target ∉ s.failed ∧ readiness.ready = true ∧
          q = ⟨q.target, some g, readiness.resources⟩) := by
  rw [requests]
  by_cases hr : s.inventory.isReady = true
  · simp only [hr, if_true, true_and, List.mem_append, List.mem_filterMap]
    refine or_congr ?_ ?_
    · simp only [List.mem_ite_nil_right, List.mem_singleton, Bool.and_eq_true, Bool.not_eq_true',
        List.all_eq_true, Option.isNone_iff_eq_none, and_assoc]
    · constructor
      · rintro ⟨⟨r, readiness⟩, hm, hq⟩
        obtain ⟨g, hg, rfl⟩ := Option.map_eq_some_iff.1 hq
        obtain ⟨⟨hf, hready⟩, hres⟩ := Option.ite_none_right_eq_some.1 hg
        exact ⟨readiness, g, hm, hres, hf, hready, rfl⟩
      · rintro ⟨readiness, g, hm, hres, hf, hready, hq⟩
        refine ⟨_, hm, ?_⟩
        rw [request?, generated?, if_pos ⟨hf, hready⟩, hres, Option.map_some, ← hq]
  · simp [hr]

/-- There is at most one request for a reference. -/
theorem nodup_targets (s : Run) : (s.requests.map Request.target).Nodup := by
  rw [requests]
  split
  · by_cases hnone : (s.inventory.readyMap.entries.all fun e => e.2.resource.isNone) = true
    · have hempty : (s.inventory.readyMap.entries.filterMap fun e => request? s.failed e.1 e.2) = [] := by
        rw [List.filterMap_eq_nil_iff]
        intro e he
        have hres := Option.isNone_iff_eq_none.1 (List.all_eq_true.1 hnone e he)
        simp [request?, generated?, hres]
      rw [hempty, List.append_nil]
      split <;> simp
    · rw [if_neg (by simp [hnone]), List.nil_append]
      refine s.inventory.readyMap.keys_nodup.sublist ?_
      rw [SortedMap.keys]
      generalize s.inventory.readyMap.entries = entries
      induction entries with
      | nil => exact .slnil
      | cons e entries ih =>
        rw [List.filterMap_cons]
        cases hq : request? s.failed e.1 e.2 with
        | none => exact ih.cons _
        | some q =>
          obtain ⟨g, -, rfl⟩ := Option.map_eq_some_iff.1 hq
          exact ih.cons_cons _
  · simp

end Requests

section Effects

def responsesAt (s : Run) (r : Ref) : List Effect := s.responses.filter fun e => e.key == .governed r

theorem mem_responsesAt : e ∈ s.responsesAt r ↔ e ∈ s.responses ∧ e.key = .governed r := by
  rw [responsesAt, List.mem_filter, beq_iff_eq]

def dropsAt (s : Run) (r : Ref) : List Effect :=
  ((s.inventory.readyMap.find? r).map fun readiness =>
    if readiness.resource.isNone then [⟨.governed r, none, some none, false⟩] else []).getD []

theorem eq_of_mem_dropsAt (he : e ∈ s.dropsAt r) : e = ⟨.governed r, none, some none, false⟩ := by
  rw [dropsAt] at he
  cases hf : s.inventory.readyMap.find? r with
  | none =>
    rw [hf] at he
    cases he
  | some readiness =>
    rw [hf, Option.map_some, Option.getD_some] at he
    split at he
    · exact List.mem_singleton.1 he
    · cases he

private theorem dropsAt_of_present (hm : (r, readiness) ∈ s.inventory.readyMap.entries)
    (hg : readiness.resource = some g) : s.dropsAt r = [] := by
  rw [dropsAt, SortedMap.find?_eq_some_iff.2 hm, Option.map_some, hg]
  rfl

private theorem responsesAt_eq (s : Run) (r : Ref) : s.responsesAt r =
    if s.inventory.isReady then s.dropsAt r ++
      match s.controller.generate with
      | none => []
      | some generate =>
        ((if s.inventory.readyMap.entries.all fun e => e.2.resource.isNone then s.synthesis generate
          else []).filter fun e => e.key == .governed r) ++
        ((s.inventory.readyMap.find? r).map fun readiness =>
          attempt s.controller s.failed generate r readiness).getD []
    else if s.controller.owned.isEmpty then
      ((s.inventory.readyMap.find? r).map fun readiness =>
        readiness.resource.toList.map (Inventory.retireEffect (.governed r))).getD []
    else [] := by
  have hkey {k : Key} {r' : Ref} (hk : k = .governed r') : (k == .governed r) = (r' == r) := by
    subst hk
    rw [Bool.eq_iff_iff, beq_iff_eq, beq_iff_eq]
    exact ⟨congrArg Key.target, congrArg Key.governed⟩
  rw [responsesAt, responses]
  by_cases hr : s.inventory.isReady = true
  · simp only [hr, if_true, List.filter_append]
    have hdrops : (orphanDrops s.inventory.readyMap.entries).filter (fun e => e.key == .governed r) =
        s.dropsAt r := by
      refine SortedMap.filter_flatMap fun e _ x hx => hkey ?_
      split at hx
      · rw [List.mem_singleton.1 hx]
      · cases hx
    rw [hdrops]
    cases s.controller.generate with
    | none => rfl
    | some generate =>
      have hattempts : (s.inventory.readyMap.entries.flatMap fun e =>
          attempt s.controller s.failed generate e.1 e.2).filter (fun e => e.key == .governed r) =
            ((s.inventory.readyMap.find? r).map fun readiness =>
              attempt s.controller s.failed generate r readiness).getD [] :=
        SortedMap.filter_flatMap fun e _ x hx => hkey (key_of_attempt hx)
      simp only [List.filter_append, hattempts]
  · rw [if_neg hr, if_neg hr]
    split
    · refine SortedMap.filter_flatMap fun e _ x hx => hkey ?_
      obtain ⟨g, -, rfl⟩ := List.mem_map.1 hx
      exact Inventory.key_retireEffect _ _
    · rfl

/-- What is there is attempted in a ready package, and retired in another one. -/
theorem responsesAt_of_present (hm : (r, readiness) ∈ s.inventory.readyMap.entries)
    (hg : readiness.resource = some g) : s.responsesAt r =
      if s.inventory.isReady then
        match s.controller.generate with
        | none => []
        | some generate => attempt s.controller s.failed generate r readiness
      else if s.controller.owned.isEmpty then [Inventory.retireEffect (.governed r) g] else [] := by
  have hsome : ¬ (s.inventory.readyMap.entries.all fun e => e.2.resource.isNone) = true := by
    intro hall
    have hnone := List.all_eq_true.1 hall _ hm
    rw [hg] at hnone
    cases hnone
  rw [responsesAt_eq, dropsAt_of_present hm hg, SortedMap.find?_eq_some_iff.2 hm]
  simp only [if_neg hsome, List.filter_nil, List.nil_append, Option.map_some, Option.getD_some, hg,
    Option.toList_some, List.map_cons, List.map_nil]

private theorem attempts_eq_nil (hall : ∀ e ∈ s.inventory.readyMap.entries, e.2.resource = none)
    (generate : Option Resource → List Resource → Except Failure (Option Resource)) (r : Ref) :
    ((s.inventory.readyMap.find? r).map fun readiness =>
      attempt s.controller s.failed generate r readiness).getD [] = [] := by
  cases hf : s.inventory.readyMap.find? r with
  | none => rfl
  | some readiness =>
    rw [Option.map_some, Option.getD_some, attempt, hall _ (SortedMap.find?_eq_some_iff.1 hf)]

theorem responsesAt_of_request (hgen : s.controller.generate = some generate) (hq : q ∈ s.requests) :
    s.responsesAt q.target = s.dropsAt q.target ++
      response s.controller generate q.target q.governed q.resources := by
  obtain ⟨hr, ⟨hnone, hname, rfl⟩ | ⟨readiness, g, hm, hg, hf, hready, he⟩⟩ := mem_requests.1 hq
  · have hall : (s.inventory.readyMap.entries.all fun e => e.2.resource.isNone) = true :=
      List.all_eq_true.2 fun e he => Option.isNone_iff_eq_none.2 (hnone e he)
    rw [responsesAt_eq, if_pos hr, hgen]
    simp only [if_pos hall]
    rw [attempts_eq_nil hnone, List.append_nil, synthesis, if_neg (by simp [hname]),
      List.filter_eq_self.2]
    exact fun e he => beq_iff_eq.2 (key_of_response he)
  · rw [responsesAt_of_present hm hg, if_pos hr, hgen, dropsAt_of_present hm hg, List.nil_append, he]
    simp only
    rw [attempt, hg]
    simp only
    rw [if_neg hf, if_pos hready]

section Unasked

variable (hr : s.inventory.isReady = true) (hnot : ∀ q ∈ s.requests, q.target ≠ r)
include hr hnot

private theorem synthesis_of_unasked
    (hnone : ∀ e ∈ s.inventory.readyMap.entries, e.2.resource = none)
    (generate : Option Resource → List Resource → Except Failure (Option Resource)) :
    (s.synthesis generate).filter (fun e => e.key == .governed r) = [] ∨
      (s.synthesis generate).filter (fun e => e.key == .governed r) = [.reject (.governed r)] := by
  rw [synthesis]
  split
  · by_cases ht : s.controller.governed.toRef = r
    · subst ht
      exact .inr (List.filter_eq_self.2 (by simp [Effect.reject]))
    · refine .inl (List.filter_eq_nil_iff.2 ?_)
      simpa [Effect.reject, Key.governed] using ht
  · rename_i hname
    have hne := hnot _ (mem_requests.2 ⟨hr, .inl ⟨hnone, by simpa using hname, rfl⟩⟩)
    refine .inl (List.filter_eq_nil_iff.2 fun e he => ?_)
    rw [key_of_response he]
    simpa [Key.governed] using hne

private theorem attempts_of_unasked {es : List Effect}
    (hes : ((s.inventory.readyMap.find? r).map fun readiness =>
        attempt s.controller s.failed generate r readiness).getD [] = es) :
    es = [] ∨ ∃ readiness g, (r, readiness) ∈ s.inventory.readyMap.entries ∧
      readiness.resource = some g ∧ es = [Inventory.retireEffect (.governed r) g] := by
  subst hes
  cases hf : s.inventory.readyMap.find? r with
  | none => exact .inl rfl
  | some readiness =>
    rw [Option.map_some, Option.getD_some, attempt]
    have hm := SortedMap.find?_eq_some_iff.1 hf
    cases hg : readiness.resource with
    | none => exact .inl rfl
    | some g =>
      simp only
      split
      · exact .inl rfl
      · rename_i hfailed
        split
        · rename_i hready
          exact absurd rfl (hnot ⟨r, some g, readiness.resources⟩ (mem_requests.2
            ⟨hr, .inr ⟨readiness, g, hm, hg, hfailed, hready, rfl⟩⟩))
        · split
          · exact .inr ⟨readiness, g, hm, hg, rfl⟩
          · exact .inl rfl

end Unasked

/-- Where nothing is requested for a reference there is at most a failure for want of a name, or a
retirement, once a condition without resource is dropped. -/
theorem responsesAt_cases (s : Run) (r : Ref) :
    let asked := ∃ generate q, s.controller.generate = some generate ∧ q ∈ s.requests ∧ q.target = r
    asked ∨ ¬ asked ∧ ∃ drops rest, (∀ e ∈ drops, e ∈ s.dropsAt r) ∧
      s.responsesAt r = drops ++ rest ∧ (rest = [] ∨ rest = [.reject (.governed r)] ∨
        ∃ readiness g, (r, readiness) ∈ s.inventory.readyMap.entries ∧
          readiness.resource = some g ∧ rest = [Inventory.retireEffect (.governed r) g]) := by
  intro asked
  by_cases hreq : asked
  · exact .inl hreq
  refine .inr ⟨hreq, ?_⟩
  rw [responsesAt_eq]
  by_cases hr : s.inventory.isReady = true
  · rw [if_pos hr]
    refine ⟨s.dropsAt r, _, fun e he => he, rfl, ?_⟩
    cases hgen : s.controller.generate with
    | none => exact .inl rfl
    | some generate =>
      have hnot (q : Request) (hq : q ∈ s.requests) : q.target ≠ r :=
        fun ht => hreq ⟨generate, q, hgen, hq, ht⟩
      by_cases hall : (s.inventory.readyMap.entries.all fun e => e.2.resource.isNone) = true
      · have hnone : ∀ e ∈ s.inventory.readyMap.entries, e.2.resource = none := fun e he =>
          Option.isNone_iff_eq_none.1 (List.all_eq_true.1 hall e he)
        simp only [if_pos hall, attempts_eq_nil hnone, List.append_nil]
        exact (synthesis_of_unasked hr hnot hnone generate).imp_right .inl
      · simp only [if_neg hall, List.filter_nil, List.nil_append]
        exact (attempts_of_unasked hr hnot rfl).imp_right .inr
  · rw [if_neg hr]
    refine ⟨[], _, by simp, (List.nil_append _).symm, ?_⟩
    split
    · cases hf : s.inventory.readyMap.find? r with
      | none => exact .inl rfl
      | some readiness =>
        rw [Option.map_some, Option.getD_some]
        cases hg : readiness.resource with
        | none => exact .inl rfl
        | some g => exact .inr (.inr ⟨readiness, g, SortedMap.find?_eq_some_iff.1 hf, hg, rfl⟩)
    · exact .inl rfl

/-- A condition that is put is that of a governed reference without namespace. -/
theorem space_of_responses (h : Represented s.controller s.inventory) (he : e ∈ s.responses) :
    ∃ r, e.key = .governed r ∧ s.controller.governs r = true ∧ r.space = none := by
  have hlisted {entry : Ref × Readiness} (hm : entry ∈ s.inventory.readyMap.entries)
      (hk : e.key = .governed entry.1) : ∃ r, e.key = .governed r ∧
        s.controller.governs r = true ∧ r.space = none := by
    obtain ⟨found, hf, -⟩ := (Inventory.mem_readyMap h.sound).1 hm
    exact ⟨entry.1, hk, (h.sound _ _ hf).1,
      (h.placed _ (by rw [hf]; rfl)).space _ List.mem_cons_self⟩
  rcases mem_responses he with ⟨entry, hm, -, rfl⟩ | ⟨generate, -, -, he⟩ |
    ⟨generate, -, entry, hm, he⟩ | ⟨-, entry, hm, g, -, rfl⟩
  · exact hlisted hm rfl
  · rw [synthesis] at he
    split at he
    · cases List.mem_singleton.1 he
      exact ⟨_, rfl, beq_self_eq_true _, rfl⟩
    · exact ⟨_, key_of_response he, beq_self_eq_true _, rfl⟩
  · exact hlisted hm (key_of_attempt he)
  · exact hlisted hm (Inventory.key_retireEffect _ _)

/-- What is written is written for its own identity, or is the answer to a request. -/
theorem key_of_item (h : Represented s.controller s.inventory) (he : e ∈ s.responses)
    (hx : e.item = some x) : e.key = .governed x.identity ∨
      ∃ generate, s.controller.generate = some generate ∧ ∃ q ∈ s.requests, ∃ answer,
        generate q.governed q.resources = .ok (some answer) ∧ e.key = .governed q.target ∧
          x.identity = answer.identity := by
  obtain ⟨r, hkey, -⟩ := space_of_responses h he
  have hat := mem_responsesAt.2 ⟨he, hkey⟩
  have hdrop {e : Effect} (hm : e ∈ s.dropsAt r) : e.item = none := by rw [eq_of_mem_dropsAt hm]
  rcases s.responsesAt_cases r with ⟨generate, q, hgen, hq, rfl⟩ | ⟨-, drops, rest, hdrops, hes, hrest⟩
  · rw [responsesAt_of_request hgen hq, List.mem_append] at hat
    rcases hat with hm | hresponse
    · cases (hdrop hm).symm.trans hx
    · rcases response_cases hresponse with rfl | ⟨answer, o, hanswer, ho, rfl | ⟨isUpdate, rfl⟩⟩
      · cases hx
      · cases hx
      · refine .inr ⟨generate, hgen, q, hq, answer, hanswer, hkey, ?_⟩
        obtain ⟨hprep, -⟩ := Inventory.writeEffect_item_iff.1 hx
        exact (sameBody_prepared hprep).identity.trans (sameBody_rendered ho).identity
  · rw [hes, List.mem_append] at hat
    rcases hat with hm | hlast
    · cases (hdrop (hdrops e hm)).symm.trans hx
    · rcases hrest with rfl | rfl | ⟨readiness, g, hm, hg, rfl⟩
      · cases hlast
      · cases List.mem_singleton.1 hlast
        cases hx
      · cases List.mem_singleton.1 hlast
        obtain ⟨-, hflag⟩ := Inventory.retireEffect_item hx
        have hid : g.identity = r :=
          h.existing (.governed r) g ((existing?_of_readyMap h.sound hm).trans hg)
        rw [hkey, (Resource.SameBody.annotated hflag).identity, hid]
        exact .inl rfl

end Effects

section Trace

private theorem filter_between_idle (s : Run) (r : Ref) :
    (Effect.idle (.watched none r) :: s.responses ++ [Effect.idle (.watched none r)]).filter
      (fun e => e.key == Key.governed r) = s.responsesAt r := by
  have hkey : ((Effect.idle (.watched none r)).key == Key.governed r) = false := by
    simp [Effect.idle, Key.governed, Key.watched]
  simp only [List.cons_append, List.filter_cons, List.filter_append, List.filter_nil, hkey,
    Bool.false_eq_true, if_false, List.append_nil, responsesAt]

/-- The effects of generation at a reference make its condition. -/
theorem condition?_generateAll (h : Represented s.controller s.inventory)
    (hgov : s.controller.governs r = true) (hspace : r.space = none) :
    s.generateAll.manifest.condition? (Subject.singleType r) =
      (s.responsesAt r).foldl (fun old e => e.condition.getD old)
        (s.manifest.condition? (Subject.singleType r)) := by
  rw [← filter_between_idle]
  refine (trace_responses h.sound _).findCondition_of_keyed (k := .governed r) fun e he hcond ht => ?_
  obtain ⟨r', hk, hgov', hspace'⟩ := space_of_responses h (mem_responses_of_touching he (.inr hcond))
  rw [hk] at ht ⊢
  have hcoordinate : r'.toCoordinate = r.toCoordinate :=
    (beq_iff_eq.1 hgov').symm.trans (beq_iff_eq.1 hgov)
  rw [Subject.eq_of_singleType_eq hcoordinate (hspace'.trans hspace.symm) ht]

/-- If all that generation writes at an identity is written for one reference, the effects at this
reference make the item. -/
theorem itemAt_generateAll (h : Sound s.controller s.inventory) {id : Ref}
    (hk : ∀ e ∈ s.responses, ∀ x, e.item = some x → x.identity = id → e.key = .governed r) :
    Batch.itemAt s.generateAll.batch.items id = (s.responsesAt r).foldl
      (fun old e => e.itemAfter id old) (Batch.itemAt s.batch.items id) := by
  rw [← filter_between_idle]
  refine (trace_responses h _).itemAt_of_keyed fun e he x hx => ?_
  exact hk e (mem_responses_of_touching he (.inl (by simp [hx]))) x hx

end Trace

end Run

end Reconciler
