import Reconciler.Proofs.Edits

/-! A manifest that is loaded, edited and written. What is written is loaded with the edited conditions,
and nothing else in the document has changed. -/
namespace Reconciler.Manifest

variable {m : Manifest} {root r : Resource}

/-- A manifest that was loaded and edited is written so that it is loaded again with its conditions
and its name. Apart from the conditions it reads as before. -/
theorem rewritten_faithfully (hload : ofResource root = .ok m) (edits : List Edit)
    (hwrite : (m.edited edits).toResource = .ok r) :
    (∃ m', ofResource r = .ok m' ∧ m'.conditions = (m.edited edits).conditions ∧
      m'.name = m.name ∧ m'.toResource = .ok r) ∧
    (∀ q, Document.Diverge ["status", "conditions"] q → r.get? q = root.get? q) ∧
    (r.get? ["status"] = none ↔ (m.edited edits).conditions = [] ∧
      ∀ status, root.get? ["status"] = some status → HoldsOnlyConditions status) := by
  obtain ⟨hroot, hd⟩ := ofResource_eq_ok hload
  have hsource : (m.edited edits).source = root := (m.source_edited edits).trans hroot
  have hplaces (q : List String) (hq : Document.Diverge ["status", "conditions"] q) :
      r.get? q = root.get? q := by
    rw [get?_toResource_of_diverge hwrite hq, hsource]
  refine ⟨⟨_, ofResource_toResource (by rwa [hsource]) hwrite, rfl, ?_, toResource_toResource hwrite⟩,
    hplaces, ?_⟩
  · rw [name, name, hroot, Resource.name, Resource.name, Resource.string?, Resource.string?,
      hplaces _ (by decide)]
  · rw [get?_status_eq_none_iff hwrite, hsource]

def activeManifest : Resource :=
  ⟨.object [("apiVersion", .string "kpt.dev/v1"), ("kind", .string "Kptfile"),
    ("metadata", .object [("name", .string "pkg")]),
    ("status", .object [("conditions", conditionsDocument [⟨"Ready", .isTrue, some "", "done"⟩]),
      ("phase", .string "active")])]⟩

/-- The conditions change, one with an empty and one without a reason, and the rest of the status
stays. -/
theorem rewritten_faithfully_restating :
    let m : Manifest := ⟨activeManifest, [⟨"Ready", .isTrue, some "", "done"⟩]⟩
    let edits : List Edit := [.put ⟨"Synced", .unknown, none, ""⟩, .put ⟨"Ready", .isFalse, some "", ""⟩]
    ofResource activeManifest = .ok m ∧ ∃ r, (m.edited edits).toResource = .ok r ∧
      (∃ m', ofResource r = .ok m' ∧ m'.toResource = .ok r ∧ m'.conditions =
        [⟨"Ready", .isFalse, some "", ""⟩, ⟨"Synced", .unknown, none, ""⟩]) ∧
      r.get? ["status", "phase"] = some (.string "active") ∧ r.get? ["status"] ≠ none := by
  intro m edits
  have hload : ofResource activeManifest = .ok m :=
    ofResource_of_get? (by decide +kernel) (by decide +kernel)
  refine ⟨hload, ?_⟩
  obtain ⟨r, hwrite⟩ := exists_ok_of_isOk
    (show (m.edited edits).toResource.isOk = true by decide +kernel)
  obtain ⟨⟨m', hm', hconditions, -, hr⟩, hplaces, hstatus⟩ := rewritten_faithfully hload edits hwrite
  refine ⟨r, hwrite, ⟨m', hm', hr, hconditions.trans (by decide +kernel)⟩, ?_, ?_⟩
  · rw [hplaces _ (by decide)]
    decide +kernel
  · rw [Ne, hstatus]
    exact fun h => absurd h.1 (by decide +kernel)

end Reconciler.Manifest
