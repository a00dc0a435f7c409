import Reconciler.Proofs.Rendition

/-! What becomes of governed resources that generation does not come to, where nothing is owned. They
are flagged for deletion, and their conditions go when they are flagged. A resource that was flagged
before keeps the condition that it has. -/
namespace Reconciler

open Inventory (Key Readiness)

variable {c : Controller} {b : Batch} {s : Run} {r : Ref} {g : Resource} {readiness : Readiness}

namespace Inventory

private theorem retireEffect_outcome {k : Key} (h : (retireEffect k g).rejected = false)
    (old : Option Condition) :
    (retireEffect k g).condition.getD old = (if g.isFlagged then old else none) ∧
    ∃ item, (retireEffect k g).itemAfter g.identity (some g) = some item ∧ item.isFlagged = true := by
  by_cases hf : g.isFlagged = true
  · rw [retireEffect_of_flagged hf, if_pos hf]
    exact ⟨rfl, g, rfl, hf⟩
  · obtain ⟨flagged, hflag, he⟩ := retireEffect_eq_of_not_rejected (by simpa using hf) h
    have hid : flagged.identity = g.identity := (Resource.SameBody.annotated hflag).identity
    rw [he, if_neg hf]
    refine ⟨rfl, Batch.merged (some g) flagged, if_pos hid, ?_⟩
    rw [Batch.isFlagged_merged, Resource.isFlagged_flagForDeletion hflag]

end Inventory

namespace Run

/-- Generation does not come to this reference: the package is not ready, or else there is a callback
and the reference is not ready. -/
def Waits (s : Run) (r : Ref) : Prop :=
  s.inventory.isReady = false ∨ s.controller.generate.isSome = true ∧
    (s.inventory.readyMap.find? r).any (fun readiness => !readiness.ready) = true

instance (s : Run) (r : Ref) : Decidable (s.Waits r) :=
  inferInstanceAs (Decidable (_ ∨ _))

private theorem responsesAt_of_waits (hm : (r, readiness) ∈ s.inventory.readyMap.entries)
    (hg : readiness.resource = some g) (ho : s.controller.owned.isEmpty = true) (hf : r ∉ s.failed)
    (hw : s.Waits r) : s.responsesAt r = [Inventory.retireEffect (.governed r) g] := by
  rw [responsesAt_of_present hm hg]
  rcases hw with hready | ⟨hgen, hready⟩
  · rw [if_neg (by simp [hready]), if_pos ho]
  · obtain ⟨generate, hgen⟩ := Option.isSome_iff_exists.1 hgen
    rw [SortedMap.find?_eq_some_iff.2 hm, Option.any_some, Bool.not_eq_true'] at hready
    by_cases hr : s.inventory.isReady = true
    · rw [if_pos hr, hgen]
      simp only
      rw [attempt, hg]
      simp only
      rw [if_neg hf, if_neg (by simp [hready]), if_pos ho]
    · rw [if_neg hr, if_pos ho]

end Run

namespace Controller

/-- In these calls the generation callback has answered with a resource of this identity. -/
def Answers (c : Controller) (calls : List Call) (r : Ref) : Prop :=
  ∃ generate, c.generate = some generate ∧ ∃ governed resources answer,
    .generate governed resources ∈ calls ∧ generate governed resources = .ok (some answer) ∧
      answer.identity = r

/-- Where nothing is owned, a governed resource that waits and has not failed is flagged when
generation ends, unless another answer takes its place. Its condition goes unless it was flagged
before. -/
theorem flagged_while_waiting (hn : (b.items.map Resource.identity).Nodup)
    (hs : c.populated b = some s) (ho : c.owned.isEmpty = true) (hg : g ∈ b.others s.manifestIndex)
    (hgov : c.governs g.identity = true) (hw : s.updateChildren.Waits g.identity)
    (hf : g.identity ∉ s.final.failed) :
    (c.Answers (c.run b).calls g.identity ∨
      ∃ item, Batch.itemAt s.final.batch.items g.identity = some item ∧ item.isFlagged = true) ∧
    s.final.manifest.condition? (Subject.singleType g.identity) =
      if g.isFlagged then s.manifest.condition? (Subject.singleType g.identity) else none := by
  have h := populated_spec hn hs
  have hc := h.controller_updateChildren
  have hex : s.updateChildren.inventory.existing? (.governed g.identity) = some g :=
    (h.existing?_governed_updateChildren _).trans (h.existing?_governed.2 ⟨hg, hgov, rfl⟩)
  obtain ⟨readiness, hm, hresource⟩ := Run.exists_readiness h.sound_updateChildren hex
  obtain ⟨hunfailed, hunfails⟩ :=
    not_or.1 fun hfails => hf ((Run.mem_failed_generateAll h.sound_updateChildren).2 hfails)
  have hes := Run.responsesAt_of_waits hm hresource (hc ▸ ho) hunfailed hw
  have hat : Inventory.retireEffect (.governed g.identity) g ∈ s.updateChildren.responses :=
    (Run.mem_responsesAt.1 (by rw [hes]; exact List.mem_singleton_self _)).1
  have hrejected : (Inventory.retireEffect (.governed g.identity) g).rejected = false := by
    rw [← Bool.not_eq_true]
    exact fun hrejected => hunfails ⟨_, hat, hrejected, Inventory.key_retireEffect _ _⟩
  obtain ⟨hcondition, hflagged⟩ := Inventory.retireEffect_outcome hrejected
    (s.updateChildren.manifest.condition? (Subject.singleType g.identity))
  refine ⟨?item, ?condition⟩
  case condition =>
    have hmanifest : s.updateChildren.manifest = s.manifest := by rw [h.updateChildren_eq ho]; rfl
    refine (Run.condition?_generateAll h.represented_updateChildren (hc ▸ hgov) rfl).trans ?_
    rw [hes, List.foldl_cons, List.foldl_nil, hcondition, hmanifest]
  case item =>
    by_cases hanswers : c.Answers (c.run b).calls g.identity
    · exact .inl hanswers
    refine .inr ?_
    have hbefore : Batch.itemAt s.updateChildren.batch.items g.identity = some g := by
      rw [h.updateChildren_eq ho]
      exact (congrArg (Batch.itemAt · _) h.items).trans (Batch.itemAt_of_mem hn (Batch.mem_of_mem_others hg))
    have hafter : Batch.itemAt s.final.batch.items g.identity = _ :=
      Run.itemAt_generateAll h.sound_updateChildren fun e he x hx hid => by
        rcases Run.key_of_item h.represented_updateChildren he hx with
          hkey | ⟨generate, hgen, q, hq, answer, hanswer, -, hanswered⟩
        · rw [hkey, hid]
        · rw [hc] at hgen
          exact absurd ⟨generate, hgen, q.governed, q.resources, answer,
            (h.mem_requests_iff hs hgen).2 ⟨q, hq, rfl, rfl⟩, hanswer, hanswered ▸ hid⟩ hanswers
    rw [hafter, hes, List.foldl_cons, List.foldl_nil, hbefore]
    exact hflagged

def expecting : Controller := rendering.watching ⟨"infra/v1", "Cluster"⟩ fun _ => .ok ()

def expectingPackage (g : Resource) : Batch := .ofItems [noted, g]
where
  noted : Resource :=
    ⟨.object [("apiVersion", .string "kpt.dev/v1"), ("kind", .string "Kptfile"),
      ("metadata", .object [("name", .string "pkg")]),
      ("status", .object [("conditions", .array [
        .object [("status", .string "True"), ("type", .string "infra/v1.Cluster.edge")],
        .object [("message", .string "done"), ("status", .string "True"),
          ("type", .string "req/v1.Interface.a")]])])]⟩

/-- The interface is flagged, and is no longer done. -/
theorem flagged_while_waiting_expecting : ∃ s,
    expecting.populated (expectingPackage (.minimal ⟨"req/v1", "Interface"⟩ "a")) = some s ∧
    (s.manifest.condition? "req/v1.Interface.a").isSome = true ∧
    s.final.manifest.condition? "req/v1.Interface.a" = none ∧
    ∃ item, Batch.itemAt s.final.batch.items (Coordinate.named ⟨"req/v1", "Interface"⟩ "a") =
      some item ∧ item.isFlagged = true := by
  let g : Resource := .minimal ⟨"req/v1", "Interface"⟩ "a"
  obtain ⟨s, hs, hg, hw, hf, hnoted⟩ : ∃ s, expecting.populated (expectingPackage g) = some s ∧
      g ∈ (expectingPackage g).others s.manifestIndex ∧
      s.updateChildren.Waits g.identity ∧ g.identity ∉ s.final.failed ∧
      (s.manifest.condition? "req/v1.Interface.a").isSome = true := by
    decide +kernel
  obtain ⟨hitem, hcondition⟩ :=
    flagged_while_waiting (by decide +kernel) hs rfl hg (by decide +kernel) hw hf
  refine ⟨s, hs, hnoted, hcondition, hitem.resolve_left ?_⟩
  rintro ⟨generate, -, governed, resources, answer, hcall, -⟩
  have hcalls : (expecting.run (expectingPackage g)).calls = [.populate g] := by decide +kernel
  rw [hcalls] at hcall
  cases List.mem_singleton.1 hcall

/-- An interface that is flagged already stays done. -/
theorem condition_outlives_flag : ¬ ∀ (c : Controller) (b : Batch) (s : Run) (g : Resource),
    c.check = .ok () → (b.items.map Resource.identity).Nodup → c.populated b = some s →
    c.owned.isEmpty = true → g ∈ b.others s.manifestIndex → c.governs g.identity = true →
    s.updateChildren.Waits g.identity → g.identity ∉ s.final.failed →
    s.final.manifest.condition? (Subject.singleType g.identity) = none := by
  intro hgone
  obtain ⟨s, hs, hg, hw, hf, hstays⟩ : ∃ s,
      expecting.populated (expectingPackage flaggedInterface) = some s ∧
      flaggedInterface ∈ (expectingPackage flaggedInterface).others s.manifestIndex ∧
      s.updateChildren.Waits flaggedInterface.identity ∧
      flaggedInterface.identity ∉ s.final.failed ∧
      s.final.manifest.condition? (Subject.singleType flaggedInterface.identity) ≠ none := by
    decide +kernel
  exact hstays (hgone expecting _ s _ rfl (by decide +kernel) hs rfl hg (by decide +kernel) hw hf)

end Controller

end Reconciler
