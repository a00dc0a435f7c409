import Reconciler.Proofs.Completion
import Reconciler.Proofs.Overwriting

/-! What stands at the identity of a governed resource when generation ends, once the callback has
answered for it. -/
namespace Reconciler

open Document (Diverge)
open Inventory (Key)

variable {c : Controller} {b : Batch} {s : Run} {r : Ref} {answer g o old x : Resource}
  {space? : Option String} {q : Run.Request} {governed : Option Resource} {resources : List Resource}
  {generate : Option Resource → List Resource → Except Failure (Option Resource)} {e : Effect}

private theorem Ref.name_ne_of_isTarget (h : r.isTarget = true) : r.name ≠ "" := by
  intro hname
  rw [Ref.isTarget, Ref.checkTarget] at h
  split at h
  · cases h
  · rw [Ref.checkNamed, if_neg (by simp [hname])] at h
    cases h

private theorem Batch.space_keepSpace_of_name (h : x.name ≠ "") (old : Resource) :
    (keepSpace old x).space = x.space.or old.space := by
  have hname : x.root.get? ["metadata", "name"] ≠ none := by
    intro hnone
    rw [Resource.name, Resource.string?, Resource.get?, hnone] at h
    exact h rfl
  obtain ⟨d, hd⟩ := Option.ne_none_iff_exists'.1 hname
  obtain ⟨fields, hf, -⟩ := Document.get?_concat_eq_some (p := ["metadata"]) hd
  obtain ⟨root, hroot, -⟩ := Document.get?_concat_eq_some (p := []) hf
  rw [Document.get?_nil] at hroot
  refine space_keepSpace_of_mapping ?_ ?_ old
  · rw [Option.some.inj hroot]
    rfl
  · rw [Resource.get?, hf]
    rfl

private theorem Resource.space_of_structuralEq (h : g.root.structuralEq o.root = true)
    (ho : o.space = none) :
    g.space = none := by
  rw [Option.eq_none_iff_forall_ne_some]
  intro space hg
  have hspace := Document.string?_of_structuralEq h hg
  cases hspace.symm.trans ho

namespace Run

/-- The answer of the callback for a governed reference as it is to show in an item that had a
namespace or not. -/
structure IsRendition (c : Controller) (r : Ref) (answer : Resource) (space? : Option String)
    (x : Resource) : Prop where
  body : ∀ path, Diverge ["metadata", "annotations"] path → Diverge ["metadata", "namespace"] path →
    x.get? path = answer.get? path
  space : x.space = answer.space.or space?
  annotation : ∀ key, x.get? ["metadata", "annotations", key] =
    if key = Resource.deleteAnnotation then none
    else if key = Resource.ownerAnnotation ∧ c.owned.isEmpty = true then
      some (.string (Subject.singleType r))
    else answer.get? ["metadata", "annotations", key]

section Rendered

variable (h : rendered c r answer = .ok o)
include h

private theorem annotation_rendered (key : String) : o.get? ["metadata", "annotations", key] =
    if key = Resource.deleteAnnotation then none
    else if key = Resource.ownerAnnotation ∧ c.owned.isEmpty = true then
      some (.string (Subject.singleType r))
    else answer.get? ["metadata", "annotations", key] := by
  have hwithout : (answer.unannotated Resource.deleteAnnotation).get?
      ["metadata", "annotations", key] = if key = Resource.deleteAnnotation then none
        else answer.get? ["metadata", "annotations", key] := by
    split
    · rename_i hdelete
      rw [hdelete, Resource.get?_unannotated_self]
    · rename_i hdelete
      rw [Resource.get?_unannotated_of_ne answer hdelete]
  rw [rendered] at h
  split at h
  · rename_i ho
    by_cases howner : key = Resource.ownerAnnotation
    · subst howner
      rw [if_neg Resource.owner_ne_delete, if_pos ⟨rfl, ho⟩]
      exact Document.get?_set (Resource.set_eq_ok h)
    · rw [Resource.get?_setAnnotation_of_ne h howner, hwithout, if_neg (c := _ ∧ _) fun hk => howner hk.1]
  · rename_i ho
    cases h
    rw [hwithout, if_neg (c := _ ∧ _) fun hk => ho hk.2]

private theorem isFlagged_rendered : o.isFlagged = false := by
  rw [Resource.isFlagged, Resource.annotation?, Resource.string?, annotation_rendered h, if_pos rfl]
  rfl

private theorem unannotated_rendered : o.unannotated Resource.deleteAnnotation = o := by
  rw [rendered] at h
  split at h
  · exact Resource.unannotated_renew h
  · cases h
    exact Resource.unannotated_of_get? (Resource.get?_unannotated_self ..)

private theorem wellFormed_rendered (hw : answer.root.WellFormed) : o.root.WellFormed := by
  rw [rendered] at h
  split at h
  · exact Resource.wellFormed_renew hw h
  · cases h
    exact Resource.wellFormed_unannotated hw _

private theorem isRendition_rendered (hspace : answer.space = none → space? = none) :
    IsRendition c r answer space? o where
  body path hpath _ := sameBody_rendered h path hpath
  space := by
    rw [(sameBody_rendered h).space]
    cases hs : answer.space with
    | none => rw [hspace hs, Option.none_or]
    | some space => rfl
  annotation := annotation_rendered h

private theorem isRendition_keepSpace (hname : answer.name ≠ "") (old : Resource) :
    IsRendition c r answer old.space (Batch.keepSpace old o) where
  body path hpath hspace := by
    rw [Batch.get?_keepSpace old o hspace, sameBody_rendered h path hpath]
  space := by
    have hbody := sameBody_rendered h
    rw [Batch.space_keepSpace_of_name (by rwa [hbody.name]), hbody.space]
  annotation key := by
    rw [Batch.get?_keepSpace old o (by simp [Diverge, List.cons_prefix_cons]), annotation_rendered h]

private theorem shown_merged (hw : answer.root.WellFormed) (hname : answer.name ≠ "")
    (old? : Option Resource) : (Batch.merged old? o).isFlagged = false ∧
      ∃ x, IsRendition c r answer (old?.bind Resource.space) x ∧
        (Batch.merged old? o).root.structuralEq x.root = true := by
  have hwo := wellFormed_rendered h hw
  refine ⟨by rw [Batch.isFlagged_merged, isFlagged_rendered h], ?_⟩
  rcases Batch.merged_cases old? o with ⟨rfl, he⟩ | ⟨old, rfl, ⟨halike, he⟩ | ⟨-, he⟩⟩
  · exact ⟨o, isRendition_rendered h fun _ => rfl, by rw [he, Document.structuralEq_refl hwo]⟩
  · refine ⟨_, isRendition_keepSpace h hname old, ?_⟩
    rw [he, Document.structuralEq_of_alike _ _ (Batch.wellFormed_keepSpace hwo old) halike]
  · refine ⟨_, isRendition_keepSpace h hname old, ?_⟩
    rw [he, Document.structuralEq_refl (Batch.wellFormed_keepSpace hwo old)]

private theorem shown_of_current (hg : g.isOutdated o = false) : g.isFlagged = false ∧
    ∃ x, IsRendition c r answer g.space x ∧ g.root.structuralEq x.root = true := by
  rw [Resource.isOutdated, Bool.or_eq_false_iff, Bool.not_eq_false'] at hg
  refine ⟨hg.1, o, isRendition_rendered h fun hspace => ?_, hg.2⟩
  exact Resource.space_of_structuralEq hg.2 ((sameBody_rendered h).space.trans hspace)

end Rendered

private theorem kept?_of_answer (hgen : s.controller.generate = some generate) (hq : q ∈ s.requests)
    (hanswer : generate q.governed q.resources = .ok (some answer)) (hf : ¬ s.Fails q.target) :
    ∃ o, rendered s.controller q.target answer = .ok o ∧
      q.kept? s.controller generate = some o := by
  have hkept : q.kept? s.controller generate =
      (rendered s.controller q.target answer).toOption := by rw [Request.kept?, hanswer]
  cases ho : rendered s.controller q.target answer with
  | ok o => exact ⟨o, rfl, by rw [hkept, ho]; rfl⟩
  | error fault =>
    have hes := responsesAt_of_request hgen hq
    rw [response_of_kept?, hkept, ho] at hes
    have hat : .reject (.governed q.target) ∈ s.responsesAt q.target := by
      simp [hes, Except.toOption]
    exact absurd ⟨_, (mem_responsesAt.1 hat).1, rfl, rfl⟩ hf

section Kept

variable (hgen : s.controller.generate = some generate) (hq : q ∈ s.requests)
  (hkept : q.kept? s.controller generate = some o)
include hgen hq hkept

private theorem responsesAt_of_kept : s.responsesAt q.target =
    s.dropsAt q.target ++ acceptance q.target q.governed o := by
  rw [responsesAt_of_request hgen hq, response_of_kept?, hkept]

private theorem condition_of_kept (old : Option Condition) :
    (s.responsesAt q.target).foldl (fun old e => e.condition.getD old) old =
      some (done (.governed q.target)) := by
  rw [responsesAt_of_kept hgen hq hkept, List.foldl_append, acceptance, List.foldl_cons,
    Inventory.delivery_eq]
  split
  · rw [List.map_singleton, List.foldl_cons, List.foldl_nil, Inventory.Action.effect,
      Inventory.writeEffect_condition_of_ne (by simp [Key.governed])]
    rfl
  · rfl

private theorem item_of_kept (hid : o.identity = q.target)
    (hwithout : o.unannotated Resource.deleteAnnotation = o) (hf : ¬ s.Fails q.target)
    (old? : Option Resource) :
    let new? := (s.responsesAt q.target).foldl (fun old e => e.itemAfter q.target old) old?
    if q.governed.all (fun g => g.isOutdated o) then
      q.target.isTarget = true ∧ new? = some (Batch.merged old? o)
    else new? = old? := by
  intro new?
  have hes := responsesAt_of_kept hgen hq hkept
  have hdrops : (s.dropsAt q.target).foldl (fun old e => e.itemAfter q.target old) old? = old? := by
    refine List.foldlRecOn (motive := fun x => x = old?) _ _ rfl fun x hx e he => ?_
    rw [eq_of_mem_dropsAt he, hx]
    rfl
  have hnew : new? = (acceptance q.target q.governed o).foldl
      (fun old e => e.itemAfter q.target old) old? := by
    simp only [new?, hes, List.foldl_append, hdrops]
  rw [acceptance, List.foldl_cons, Inventory.delivery_eq] at hnew
  rw [acceptance, Inventory.delivery_eq] at hes
  split
  · rename_i hdue
    rw [if_pos hdue, List.map_singleton, Inventory.Action.effect, Inventory.writeEffect_governed] at hes hnew
    have htarget : q.target.isTarget = true := by
      refine Classical.not_not.1 fun hnot => hf ⟨.reject (.governed q.target), ?_, rfl, rfl⟩
      rw [if_neg hnot] at hes
      have hat : .reject (.governed q.target) ∈ s.responsesAt q.target := by simp [hes]
      exact (mem_responsesAt.1 hat).1
    rw [if_pos htarget, hwithout, List.foldl_cons, List.foldl_nil] at hnew
    refine ⟨htarget, hnew.trans ?_⟩
    simp [Effect.itemAfter, hid]
  · rename_i hdue
    rw [if_neg hdue] at hnew
    exact hnew

end Kept

end Run

namespace Controller

namespace Gathered

variable (h : Gathered c b s)
include h

/-- The calls of the generation callback are the requests. -/
theorem mem_requests_iff (hs : c.populated b = some s) (hgen : c.generate = some generate) :
    .generate governed resources ∈ (c.run b).calls ↔
      ∃ q ∈ s.updateChildren.requests, q.governed = governed ∧ q.resources = resources := by
  have hconsults := Run.consults_generateAll (s := s.updateChildren)
    (by rw [h.controller_updateChildren, hgen])
  have hcalls : (c.run b).calls = s.calls ++ s.updateChildren.requests.map Run.Request.call := by
    rw [run_eq_of_populated hs]
    exact hconsults.calls.trans (by rw [Run.calls_updateChildren])
  rw [hcalls, List.mem_append, List.mem_map]
  constructor
  · rintro (hm | ⟨q, hq, hcall⟩)
    · exact absurd rfl (h.calls _ hm _ _)
    · cases hcall
      exact ⟨q, hq, rfl, rfl⟩
  · rintro ⟨q, hq, rfl, rfl⟩
    exact .inr ⟨q, hq, rfl⟩

private theorem target_of_request (hq : q ∈ s.updateChildren.requests) :
    c.governs q.target = true ∧ q.target.space = none ∧
    q.target = (q.governed.map Resource.identity).getD (c.governed.named s.manifest.source.name) ∧
    ∀ g, q.governed = some g → g ∈ b.others s.manifestIndex := by
  have hc := h.controller_updateChildren
  obtain ⟨-, ⟨-, -, rfl⟩ | ⟨readiness, g, hm, hg, -, -, he⟩⟩ := Run.mem_requests.1 hq
  · rw [hc, Manifest.name, Run.source_updateChildren]
    exact ⟨beq_self_eq_true _, rfl, rfl, fun g hg => by cases hg⟩
  · have hex := (Run.existing?_of_readyMap h.sound_updateChildren hm).trans hg
    rw [h.existing?_governed_updateChildren] at hex
    obtain ⟨hothers, hgov, hid⟩ := h.mem_of_governed hex
    have hid : g.identity = q.target := hid
    refine ⟨hgov, by rw [← hid]; rfl, by rw [he]; exact hid.symm, fun g' hg' => ?_⟩
    rw [he] at hg'
    cases hg'
    exact hothers

private theorem key_of_asked (hs : c.populated b = some s)
    (ha : c.RendersAsked s.manifest.source.name (c.run b).calls)
    (he : e ∈ s.updateChildren.responses) (hx : e.item = some x) : e.key = .governed x.identity := by
  rcases Run.key_of_item h.represented_updateChildren he hx with
    hkey | ⟨generate, hgen, q, hq, answer, hanswer, hkey, hid⟩
  · exact hkey
  · rw [h.controller_updateChildren] at hgen
    have hcall := (h.mem_requests_iff hs hgen).2 ⟨q, hq, rfl, rfl⟩
    obtain ⟨-, -, htarget, -⟩ := h.target_of_request hq
    rw [hkey, hid, htarget, ha generate hgen _ _ _ hcall hanswer]

private theorem itemAt_updateChildren_of_governs (hgov : c.governs r = true)
    (ho : ¬ s.Overwrites r) :
    Batch.itemAt s.updateChildren.batch.items r = Batch.itemAt b.items r := by
  obtain ⟨s', ht, he⟩ := s.updateChildren_trace
  rw [he, ← h.items]
  refine ht.itemAt_of_untouched fun e he' new hnew hid => ?_
  obtain ⟨a, ha, rfl⟩ := List.mem_map.1 he'
  subst hid
  exact ho (h.overwrites_of_writes ha hnew hgov)

end Gathered

/-- Where the callback has answered without failure the item shows the answer in its own namespace,
and is done. Only a child may have overwritten it instead. -/
theorem answer_shown_unless_overwritten (hn : (b.items.map Resource.identity).Nodup)
    (hs : c.populated b = some s) (hgen : c.generate = some generate)
    (ha : c.RendersAsked s.manifest.source.name (c.run b).calls)
    (hcall : .generate governed resources ∈ (c.run b).calls)
    (hr : r = (governed.map Resource.identity).getD (c.governed.named s.manifest.source.name))
    (hanswer : generate governed resources = .ok (some answer)) (hw : answer.root.WellFormed)
    (hf : r ∉ s.final.failed) :
    let old? := Batch.itemAt s.updateChildren.batch.items r
    (¬ s.Overwrites r → old? = Batch.itemAt b.items r) ∧
    s.final.manifest.condition? (Subject.singleType r) = some (Run.done (.governed r)) ∧
    ∃ item, Batch.itemAt s.final.batch.items r = some item ∧ item.isFlagged = false ∧
      ((∃ x, Run.IsRendition c r answer (old?.bind Resource.space) x ∧
        item.root.structuralEq x.root = true) ∨ s.Overwrites r ∧ old? = some item) := by
  intro old?
  have h := gathered_spec hs
  have hc := h.controller_updateChildren
  have hid : answer.identity = r := (ha generate hgen _ _ _ hcall hanswer).trans hr.symm
  obtain ⟨q, hq, rfl, rfl⟩ := (h.mem_requests_iff hs hgen).1 hcall
  obtain ⟨hgov, hspace, htarget, hothers⟩ := h.target_of_request hq
  obtain rfl : q.target = r := htarget.trans hr.symm
  have hgen : s.updateChildren.controller.generate = some generate := hc ▸ hgen
  have hfails : ¬ s.updateChildren.Fails q.target := fun hfails =>
    hf ((Run.mem_failed_generateAll h.sound_updateChildren).2 (.inr hfails))
  obtain ⟨o, ho, hkept⟩ := Run.kept?_of_answer hgen hq hanswer hfails
  rw [hc] at ho
  have hkeep := h.itemAt_updateChildren_of_governs hgov
  refine ⟨hkeep, ?condition, ?item⟩
  case condition =>
    refine (Run.condition?_generateAll h.represented_updateChildren (hc ▸ hgov) hspace).trans ?_
    exact Run.condition_of_kept hgen hq hkept _
  case item =>
    have hwritten : Batch.itemAt s.final.batch.items q.target = _ :=
      Run.itemAt_generateAll h.sound_updateChildren fun e he x hx hxid => by
        rw [h.key_of_asked hs ha he hx, hxid]
    have hnew := Run.item_of_kept hgen hq hkept ((Run.sameBody_rendered ho).identity.trans hid)
      (Run.unannotated_rendered ho) hfails old?
    simp only at hnew
    rw [← hwritten] at hnew
    by_cases hdue : q.governed.all (fun g => g.isOutdated o) = true
    · rw [if_pos hdue] at hnew
      obtain ⟨hflag, hshown⟩ := Run.shown_merged ho hw (Ref.name_ne_of_isTarget (hid ▸ hnew.1)) old?
      exact ⟨_, hnew.2, hflag, .inl hshown⟩
    · rw [if_neg hdue] at hnew
      obtain ⟨g, hg, hcurrent⟩ : ∃ g, q.governed = some g ∧ g.isOutdated o = false := by
        simpa [Option.all_eq_false] using hdue
      by_cases hover : s.Overwrites q.target
      · obtain ⟨p, new, x, hb, old, hitem, -⟩ := h.itemAt_of_overwrites hgov hover
        refine ⟨_, hnew.trans hitem, ?_, .inr ⟨hover, hitem⟩⟩
        rw [Batch.isFlagged_merged, Resource.isFlagged_renew hb.renewed]
      · have hstood : old? = some g := by
          rw [hg] at htarget
          refine (hkeep hover).trans ?_
          rw [htarget]
          exact Batch.itemAt_of_mem hn (Batch.mem_of_mem_others (hothers g hg))
        obtain ⟨hflag, hshown⟩ := Run.shown_of_current ho hcurrent
        refine ⟨g, hnew.trans hstood, hflag, .inl ?_⟩
        rw [hstood]
        exact hshown

def restoring : Controller :=
  { rendering with
    generate := some fun governed _ =>
      .ok (governed.map fun g => .minimal ⟨"req/v1", "Interface"⟩ g.name) }

def flaggedInterface : Resource :=
  ⟨.object [("apiVersion", .string "req/v1"), ("kind", .string "Interface"),
    ("metadata", .object [("annotations", .object [(Resource.deleteAnnotation, .string "true")]),
      ("name", .string "a"), ("namespace", .string "edge")])]⟩

def flaggedPackage : Batch := .ofItems [.minimal ⟨"kpt.dev/v1", "Kptfile"⟩ "pkg", flaggedInterface]

/-- The interface is answered, stays in its namespace, and is no longer flagged. -/
theorem answer_shown_unless_overwritten_restoring : ∃ s, restoring.populated flaggedPackage = some s ∧
    s.final.manifest.condition? "req/v1.Interface.a" =
      some ⟨"req/v1.Interface.a", .isTrue, none, "done"⟩ ∧
    ∃ item x : Resource, Batch.itemAt s.final.batch.items flaggedInterface.identity = some item ∧
      item.isFlagged = false ∧ x.space = some "edge" ∧ x.annotation? Resource.ownerAnnotation =
        some "req/v1.Interface.a" ∧ item.root.structuralEq x.root = true := by
  let answer : Resource := .minimal ⟨"req/v1", "Interface"⟩ "a"
  obtain ⟨s, hs, hfailed⟩ : ∃ s, restoring.populated flaggedPackage = some s ∧
      s.final.failed = [] := by
    decide +kernel
  have hcalls : (restoring.run flaggedPackage).calls =
      [.populate flaggedInterface, .generate (some flaggedInterface) []] := by decide +kernel
  have hasked : restoring.RendersAsked s.manifest.source.name (restoring.run flaggedPackage).calls := by
    rintro _ ⟨⟩ governed resources x hcall hx
    have hargs : governed = some flaggedInterface ∧ resources = [] := by simpa [hcalls] using hcall
    obtain ⟨rfl, rfl⟩ := hargs
    cases hx
    exact show answer.identity = flaggedInterface.identity by decide
  have hcall : .generate (some flaggedInterface) [] ∈ (restoring.run flaggedPackage).calls := by
    simp [hcalls]
  have hw : answer.root.WellFormed := Resource.wellFormed_minimal _ _
  have hf : flaggedInterface.identity ∉ s.final.failed := by simp [hfailed]
  obtain ⟨hkept, hcondition, item, hitem, hflag, hshown⟩ :=
    answer_shown_unless_overwritten (by decide +kernel) hs rfl hasked hcall rfl rfl hw hf
  have hnot : ¬ s.Overwrites flaggedInterface.identity := fun ho => by
    have hexchange := ((gathered_spec hs).declared_of_overwrites ho).1
    cases hexchange
  obtain ⟨x, hx, heq⟩ := hshown.resolve_right fun ho => hnot ho.1
  refine ⟨s, hs, hcondition, item, x, hitem, hflag, ?_, ?_, heq⟩
  · rw [hx.space, show Batch.itemAt _ _ = _ from hkept hnot]
    exact show answer.space.or ((Batch.itemAt flaggedPackage.items flaggedInterface.identity).bind
      Resource.space) = some "edge" by decide +kernel
  · rw [Resource.annotation?, Resource.string?, hx.annotation, if_neg Resource.owner_ne_delete,
      if_pos ⟨rfl, rfl⟩]
    rfl

/-- Interfaces own interfaces. Interface `a` asks for interface `b` with an attachment, and all of them
are answered as they are. -/
def overlapping : Controller :=
  { reflecting with
    populate := some fun g => .ok (if g.name = "a" then [attached] else [])
    generate := some fun governed _ => .ok governed }
where
  attached : Resource :=
    ⟨.object [("apiVersion", .string "req/v1"), ("kind", .string "Interface"),
      ("metadata", .object [("name", .string "b")]),
      ("spec", .object [("attachment", .string "none")])]⟩

/-- Interface `b` is answered without attachment, but still shows the child with one. -/
theorem answer_not_shown : ¬ ∀ (c : Controller) (b : Batch) (s : Run)
    (generate : Option Resource → List Resource → Except Failure (Option Resource))
    (g answer : Resource) (resources : List Resource), c.check = .ok () →
    (b.items.map Resource.identity).Nodup → c.populated b = some s → c.generate = some generate →
    c.RendersAsked s.manifest.source.name (c.run b).calls →
    .generate (some g) resources ∈ (c.run b).calls → generate (some g) resources = .ok (some answer) →
    answer.root.WellFormed → g.identity ∉ s.final.failed →
    ∃ item x, Batch.itemAt s.final.batch.items g.identity = some item ∧
      Run.IsRendition c g.identity answer ((Batch.itemAt b.items g.identity).bind Resource.space) x ∧
      item.root.structuralEq x.root = true := by
  intro hshown
  let asked : Resource := .minimal ⟨"req/v1", "Interface"⟩ "b"
  obtain ⟨s, hs, hfailed, hspec⟩ : ∃ s, overlapping.populated reflectedPackage = some s ∧
      s.final.failed = [] ∧ (Batch.itemAt s.final.batch.items asked.identity).bind
        (fun item => item.string? ["spec", "attachment"]) = some "none" := by
    decide +kernel
  have hasked : overlapping.RendersAsked s.manifest.source.name (overlapping.run reflectedPackage).calls := by
    rintro _ ⟨⟩ governed resources answer - ⟨⟩
    rfl
  obtain ⟨item, x, hitem, hx, heq⟩ := hshown overlapping reflectedPackage s _ asked asked [] rfl
    (by decide +kernel) hs rfl hasked (by decide +kernel) rfl (Resource.wellFormed_minimal _ _)
    (by simp [hfailed])
  rw [hitem, Option.bind_some] at hspec
  have hattached := Document.string?_of_structuralEq heq hspec
  rw [show x.root.get? ["spec", "attachment"] = none from hx.body _ (by decide) (by decide)] at hattached
  cases hattached

end Controller

end Reconciler
