import Reconciler.Proofs.Blocking
import Reconciler.Proofs.Edits

/-! Conditions of one type. A manifest may hold several of them: it looks up and replaces the first one,
while the inventory records the last one. The two are the same unless the conditions of the type
conflict. -/
namespace Reconciler

open Inventory (Key)

namespace Manifest

variable {conditions : List Condition} {t : String} {first last : Condition}

def lastCondition (conditions : List Condition) (typeName : String) : Option Condition :=
  findCondition conditions.reverse typeName

/-- The first and the last condition of the type differ. -/
def Conflicts (conditions : List Condition) (typeName : String) : Prop :=
  ∃ before first between last after, conditions = before ++ first :: (between ++ last :: after) ∧
    (∀ x ∈ before ++ after, x.typeName ≠ typeName) ∧ first.typeName = typeName ∧
    last.typeName = typeName ∧ first ≠ last

private theorem lastCondition_split {before after : List Condition}
    (hfirst : first.typeName = t) (hlast : lastCondition (before ++ first :: after) t = some last) :
    (last = first ∧ ∀ x ∈ after, x.typeName ≠ t) ∨
      ∃ between rest, after = between ++ last :: rest ∧ last.typeName = t ∧
        ∀ x ∈ rest, x.typeName ≠ t := by
  rw [lastCondition, List.reverse_append, List.reverse_cons, findCondition, List.append_assoc,
    List.find?_append] at hlast
  cases hafter : findCondition after.reverse t with
  | none =>
    have hnone := findCondition_eq_none.1 hafter
    rw [findCondition] at hafter
    refine .inl ⟨?_, fun x hx => hnone x (List.mem_reverse.2 hx)⟩
    simpa [hafter, hfirst, eq_comm] using hlast
  | some x =>
    rw [findCondition] at hafter
    obtain ⟨rest, between, he, hx, hrest⟩ := findCondition_eq_some_iff.1 hafter
    have hxl : x = last := by simpa [hafter] using hlast
    subst hxl
    refine .inr ⟨between.reverse, rest.reverse, ?_, hx, fun y hy => hrest y (List.mem_reverse.1 hy)⟩
    rw [← List.reverse_reverse after, he]
    simp

private theorem lastCondition_of_split {before after : List Condition} (hlast : last.typeName = t)
    (ha : ∀ x ∈ after, x.typeName ≠ t) : lastCondition (before ++ last :: after) t = some last := by
  rw [lastCondition, findCondition_eq_some_iff]
  exact ⟨after.reverse, before.reverse, by simp, hlast, fun x hx => ha x (List.mem_reverse.1 hx)⟩

private theorem eq_iff_not_conflicts (hfirst : findCondition conditions t = some first)
    (hlast : lastCondition conditions t = some last) : first = last ↔ ¬ Conflicts conditions t := by
  obtain ⟨before, after, rfl, hf, hb⟩ := findCondition_eq_some_iff.1 hfirst
  constructor
  · rintro rfl ⟨before', x, between, y, after', he, hothers, hx, hy, hne⟩
    rw [List.forall_mem_append] at hothers
    refine hne ?_
    have hxf : some x = some first := by
      rw [← hfirst, he]
      exact (findCondition_eq_some_iff.2 ⟨before', _, rfl, hx, hothers.1⟩).symm
    have hyf : some y = some first := by
      rw [← hlast, he, ← List.cons_append, ← List.append_assoc]
      exact (lastCondition_of_split hy hothers.2).symm
    rw [Option.some.inj hxf, Option.some.inj hyf]
  · intro hnot
    rcases lastCondition_split hf hlast with ⟨he, -⟩ | ⟨between, rest, rfl, hl, hrest⟩
    · exact he.symm
    · refine Classical.byContradiction fun hne =>
        hnot ⟨before, first, between, last, rest, rfl, ?_, hf, hl, hne⟩
      exact List.forall_mem_append.2 ⟨hb, hrest⟩

private theorem exists_findCondition_of_last (h : lastCondition conditions t = some last) :
    ∃ first, findCondition conditions t = some first := by
  have htype := List.find?_some (p := fun x : Condition => x.typeName == t) h
  have hmem := List.mem_reverse.1 (List.mem_of_find?_eq_some h)
  exact Option.isSome_iff_exists.1 (List.find?_isSome.2 ⟨last, hmem, htype⟩)

private theorem not_conflicts_of_nodup (h : (conditions.map Condition.typeName).Nodup) :
    ¬ Conflicts conditions t := by
  rintro ⟨before, x, between, y, after, rfl, -, rfl, hy, -⟩
  simp [List.nodup_append, hy] at h

end Manifest

namespace Inventory

variable {c : Controller} {items : List Resource} {conditions : List Condition} {k : Key}
  {x : Condition}

private theorem condition?_survey_eq_some_iff : (survey c items conditions).condition? k = some x ↔
    takes c ((survey c items conditions).existing? k).isSome k = true ∧ k.subject.Readable ∧
      Manifest.lastCondition conditions k.conditionType = some x := by
  rw [condition?_survey]
  by_cases hr : k.subject.Readable
  · have hp : (fun x : Condition => Subject.ofTypeName? x.typeName == some k.subject) =
        fun x => x.typeName == k.conditionType := by
      funext x
      rw [Bool.eq_iff_iff, beq_iff_eq, beq_iff_eq]
      exact hr.ofTypeName?_eq_iff x.typeName
    simp [hp, hr, Manifest.lastCondition, Manifest.findCondition]
  · have hnone : conditions.reverse.find?
        (fun x => Subject.ofTypeName? x.typeName == some k.subject) = none := by
      rw [List.find?_eq_none]
      intro x _ hx
      exact hr (Subject.readable_of_ofTypeName? (beq_iff_eq.1 hx))
    simp [hnone, hr]

end Inventory

namespace Controller

variable {c : Controller} {b : Batch} {s : Run}

/-- An entry records the last condition of its type, while the manifest looks up the first one. The
two are the same exactly if they do not conflict. -/
theorem recorded_condition_last (hs : Run.start c b = .ok s) (k : Key) (x : Condition) :
    (s.populateInventory.inventory.condition? k = some x ↔
      Inventory.takes c (s.populateInventory.inventory.existing? k).isSome k = true ∧
        k.subject.Readable ∧
        Manifest.lastCondition s.manifest.conditions k.conditionType = some x) ∧
    (s.populateInventory.inventory.condition? k = some x →
      ∃ before first after, s.manifest.conditions = before ++ first :: after ∧
        s.manifest.condition? k.conditionType = some first ∧
        (∀ y : Condition, y.typeName = k.conditionType →
          (s.manifest.setCondition y).1.conditions = before ++ y :: after) ∧
        (first = x ↔ ¬ Manifest.Conflicts s.manifest.conditions k.conditionType)) ∧
    ((s.manifest.conditions.map Condition.typeName).Nodup →
      ∀ t, ¬ Manifest.Conflicts s.manifest.conditions t) := by
  have hrecorded : s.populateInventory.inventory.condition? k = some x ↔
      Inventory.takes c (s.populateInventory.inventory.existing? k).isSome k = true ∧
        k.subject.Readable ∧
        Manifest.lastCondition s.manifest.conditions k.conditionType = some x := by
    rw [show s.populateInventory.inventory =
      Inventory.survey c (b.others s.manifestIndex) s.manifest.conditions from
        (surveyed_of_start hs).1.inventory]
    exact Inventory.condition?_survey_eq_some_iff
  refine ⟨hrecorded, fun hx => ?_, fun hn t => Manifest.not_conflicts_of_nodup hn⟩
  obtain ⟨-, -, hlast⟩ := hrecorded.1 hx
  obtain ⟨first, hfirst⟩ := Manifest.exists_findCondition_of_last hlast
  obtain ⟨before, after, hsplit, hf, hb⟩ := Manifest.findCondition_eq_some_iff.1 hfirst
  refine ⟨before, first, after, hsplit, hfirst, fun y hy => ?_,
    Manifest.eq_iff_not_conflicts hfirst hlast⟩
  rw [← hy] at hf hb
  exact (congrArg (fun l => (Manifest.putCondition y l).1) hsplit).trans
    (Manifest.putCondition_of_present hf hb)

def waveringPackage : Batch :=
  .ofItems [⟨.object [("apiVersion", .string "kpt.dev/v1"), ("kind", .string "Kptfile"),
      ("metadata", .object [("name", .string "pkg")]),
      ("status", .object [("conditions", .array [
        .object [("status", .string "True"), ("type", .string "infra/v1.Cluster.edge")],
        .object [("status", .string "False"), ("type", .string "infra/v1.Cluster.edge")]])])]⟩,
    .minimal ⟨"infra/v1", "Cluster"⟩ "edge"]

def waveringKey : Key := .watched none ⟨⟨"infra/v1", "Cluster"⟩, "edge", none⟩

/-- The entry of the cluster holds the second condition, the manifest looks up and replaces the first
one. -/
theorem recorded_condition_last_wavering : ∃ s, Run.start awaiting waveringPackage = .ok s ∧
    s.populateInventory.inventory.condition? waveringKey =
      some ⟨"infra/v1.Cluster.edge", .isFalse, none, ""⟩ ∧
    s.manifest.condition? waveringKey.conditionType =
      some ⟨"infra/v1.Cluster.edge", .isTrue, none, ""⟩ ∧
    Manifest.Conflicts s.manifest.conditions waveringKey.conditionType := by
  obtain ⟨s, hs, htakes, hlast, hfirst⟩ := exists_started (c := awaiting) (b := waveringPackage)
    (p := fun s => Inventory.takes awaiting
        (s.populateInventory.inventory.existing? waveringKey).isSome waveringKey = true ∧
      Manifest.lastCondition s.manifest.conditions waveringKey.conditionType =
        some ⟨"infra/v1.Cluster.edge", .isFalse, none, ""⟩ ∧
      s.manifest.condition? waveringKey.conditionType =
        some ⟨"infra/v1.Cluster.edge", .isTrue, none, ""⟩) (by decide +kernel)
  obtain ⟨hrecorded, hfound, -⟩ := recorded_condition_last hs waveringKey
    ⟨"infra/v1.Cluster.edge", .isFalse, none, ""⟩
  have hx := hrecorded.2 ⟨htakes, by decide +kernel, hlast⟩
  obtain ⟨before, first, after, -, hf, -, hsame⟩ := hfound hx
  refine ⟨s, hs, hx, hfirst, ?_⟩
  have hne : first ≠ ⟨"infra/v1.Cluster.edge", .isFalse, none, ""⟩ := by
    rw [hfirst] at hf
    cases hf
    decide
  exact Classical.not_not.1 fun hnot => hne (hsame.2 hnot)

/-- The package is blocked by the second condition, although the manifest looks up the first one. -/
theorem readiness_of_repeated_condition :
    (¬ ∀ c b s k x, Run.start c b = .ok s →
      s.populateInventory.inventory.condition? k = some x →
      s.manifest.condition? k.conditionType = some x) ∧
    ∃ s, Run.start awaiting waveringPackage = .ok s ∧
      (s.manifest.condition? "infra/v1.Cluster.edge").any Condition.isFalse = false ∧
      s.populateInventory.inventory.isReady = false := by
  constructor
  · intro hall
    obtain ⟨s, hs, hx, hfirst⟩ : ∃ s, Run.start awaiting waveringPackage = .ok s ∧
        s.populateInventory.inventory.condition? waveringKey =
          some ⟨"infra/v1.Cluster.edge", .isFalse, none, ""⟩ ∧
        s.manifest.condition? waveringKey.conditionType ≠
          some ⟨"infra/v1.Cluster.edge", .isFalse, none, ""⟩ := exists_started (by decide +kernel)
    exact hfirst (hall _ _ s _ _ hs hx)
  · exact exists_started (by decide +kernel)

end Controller

end Reconciler
