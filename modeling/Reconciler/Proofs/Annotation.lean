import Reconciler.Proofs.Resource

/-! Setting an annotation and removing it. Together they leave no trace where the annotation is new,
also when the mapping of annotations comes and goes with it. -/
namespace Reconciler.Resource

variable {r r' : Resource} {key value : String} {fields members : List (String × Document)}

section First

variable (hm : r.get? ["metadata"] = some (.object fields))
  (ha : r.get? ["metadata", "annotations"] = none)

include ha

private theorem setAnnotation_first (key value : String) : r.setAnnotation key value =
    r.set ["metadata", "annotations"] (.object [(key, .string value)]) := by
  have hset : r.root.set ["metadata", "annotations", key] (.string value) =
      r.root.set ["metadata", "annotations"] (.object [(key, .string value)]) :=
    Document.set_concat_of_get? ha key (.string value)
  rw [Resource.setAnnotation, set, set, hset]
  rfl

include hm

private theorem setAnnotation_first_isOk (key value : String) :
    ∃ r', r.setAnnotation key value = .ok r' := by
  rw [setAnnotation_first ha]
  exact set_concat_isOk hm "annotations" _

private theorem unannotated_first (hr : r.root.WellFormed)
    (h : r.setAnnotation key value = .ok r') : r'.unannotated key = r := by
  rw [setAnnotation_first ha] at h
  have hlast : r'.get? ["metadata", "annotations"] = some (.object [(key, .string value)]) :=
    Document.get?_set (set_eq_ok h)
  have hremove : r'.root.remove? ["metadata", "annotations"] =
      some (.object [(key, .string value)], r.root) :=
    Document.remove?_of_set_concat hr hm ha (set_eq_ok h)
  rw [unannotated_of_last hlast, remove, hremove]

end First

section Further

variable (ha : r.get? ["metadata", "annotations"] = some (.object members))
  (hmembers : members ≠ []) (hkey : r.get? ["metadata", "annotations", key] = none)

include ha hmembers hkey

private theorem unannotated_further (hr : r.root.WellFormed)
    (h : r.setAnnotation key value = .ok r') : r'.unannotated key = r := by
  have hremove : r'.root.remove? ["metadata", "annotations", key] =
      some (.string value, r.root) :=
    Document.remove?_of_set_concat hr ha hkey (set_eq_ok h)
  have hfull : r.root.get? ["metadata", "annotations"] ≠ some (.object []) := by
    rw [show r.root.get? ["metadata", "annotations"] = some (.object members) from ha]
    simpa using hmembers
  rw [unannotated, removeAnnotation, hremove]
  dsimp only
  rw [if_neg hfull]

end Further

/-- Removing an annotation that was set gives back its value and the resource as it was. Any removal
leaves the other annotations, and no empty mapping. -/
theorem annotation_undone (r : Resource) (key : String) :
    (∀ value fields, r.root.WellFormed → r.get? ["metadata"] = some (.object fields) →
      (r.get? ["metadata", "annotations"] = none ∨ ∃ members, members ≠ [] ∧
        r.get? ["metadata", "annotations"] = some (.object members) ∧
        r.get? ["metadata", "annotations", key] = none) →
      ∃ r', r.setAnnotation key value = .ok r' ∧ r'.removeAnnotation key = (some value, r)) ∧
    let rest := (r.removeAnnotation key).2
    (r.removeAnnotation key).1 = r.annotation? key ∧
    rest.annotation? key = none ∧
    (∀ key', key' ≠ key →
      rest.get? ["metadata", "annotations", key'] = r.get? ["metadata", "annotations", key']) ∧
    (rest.remove ["metadata", "annotations"]).2 = (r.remove ["metadata", "annotations"]).2 ∧
    SameBody r rest ∧
    (rest.get? ["metadata", "annotations"] = some (.object []) ↔
      r.get? ["metadata", "annotations"] = some (.object [])) := by
  refine ⟨fun value fields hr hm hplace => ?_, removeAnnotation_fst r key,
    annotation?_unannotated_self r key, fun key' hne => get?_unannotated_of_ne r hne,
    remove_unannotated r key, SameBody.unannotated r key,
    unannotated_empty_iff r key⟩
  have hset : ∃ r', r.setAnnotation key value = .ok r' ∧ r'.unannotated key = r := by
    rcases hplace with ha | ⟨members, hmembers, ha, hkey⟩
    · obtain ⟨r', h⟩ := setAnnotation_first_isOk hm ha key value
      exact ⟨r', h, unannotated_first hm ha hr h⟩
    · obtain ⟨r', h⟩ := set_concat_isOk ha key (.string value)
      exact ⟨r', h, unannotated_further ha hmembers hkey hr h⟩
  obtain ⟨r', h, hwithout⟩ := hset
  have hvalue := (removeAnnotation_fst r' key).trans (annotation?_setAnnotation_self h)
  exact ⟨r', h, Prod.ext hvalue hwithout⟩

/-- A resource without annotations is flagged for deletion and loses the flag again. -/
theorem annotation_undone_flag :
    let r := minimal ⟨"req/v1", "Interface"⟩ "a"
    r.root.WellFormed ∧ r.get? ["metadata"] = some (.object [("name", .string "a")]) ∧
    r.get? ["metadata", "annotations"] = none ∧
    ∃ r', r.flagForDeletion = .ok r' ∧ r'.isFlagged = true ∧
      r'.removeAnnotation deleteAnnotation = (some "true", r) := by
  have hr := wellFormed_minimal ⟨"req/v1", "Interface"⟩ "a"
  obtain ⟨r', h, hremove⟩ :=
    (annotation_undone _ deleteAnnotation).1 "true" _ hr rfl (.inl (by decide))
  exact ⟨hr, rfl, by decide, r', h, isFlagged_flagForDeletion h, hremove⟩

end Reconciler.Resource
