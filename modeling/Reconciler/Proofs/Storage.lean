import Reconciler.Proofs.Edits
import Reconciler.Proofs.Report
import Reconciler.Proofs.Terminal

/-! When the conditions of a loaded manifest can be written back. Loading takes a status of any
shape, while writing puts the conditions into a mapping. -/
namespace Reconciler

variable {c : Controller} {b : Batch} {s s' : Run} {root r : Resource} {m : Manifest}

namespace Manifest

/-- The status is a mapping, if there is one. -/
def HasStatusMapping (root : Resource) : Prop := (root.get? ["status"]).all Document.isObject = true

instance (root : Resource) : Decidable (HasStatusMapping root) := inferInstanceAs (Decidable (_ = true))

private theorem isObject_of_describes (hd : describes root = true) : root.root.isObject = true := by
  obtain ⟨root⟩ := root
  cases root with
  | object fields => rfl
  | null | bool _ | number _ | string _ | array _ =>
    rw [describes, Bool.and_eq_true] at hd
    cases hd.1

private theorem set_conditions (hd : describes root = true) (value : Document) :
    if HasStatusMapping root then ∃ r, root.set ["status", "conditions"] value = .ok r
    else root.set ["status", "conditions"] value = .error (.resource (.notMapping ["status"])) :=
  Resource.set_pair (isObject_of_describes hd) "status" "conditions" value

private theorem toResource_cases (hd : describes m.source = true) :
    if m.conditions = [] ∨ HasStatusMapping m.source then ∃ r, m.toResource = .ok r
    else m.toResource = .error (.resource (.notMapping ["status"])) := by
  by_cases hc : m.conditions = []
  · obtain ⟨source, conditions⟩ := m
    cases hc
    rw [if_pos (.inl rfl)]
    exact ⟨_, toResource_nil source⟩
  · have hset := set_conditions hd (conditionsDocument m.conditions)
    simpa only [hc, false_or, toResource_of_ne_nil hc] using hset

private theorem conditions_of_not_hasStatusMapping (h : ofResource root = .ok m)
    (hm : ¬ HasStatusMapping root) : m.conditions = [] := by
  have hnone : root.get? ["status", "conditions"] = none := by
    cases hg : root.get? ["status", "conditions"] with
    | none => rfl
    | some d =>
      obtain ⟨fields, hf, -⟩ := Document.get?_concat_eq_some (p := ["status"]) hg
      exact absurd (by rw [HasStatusMapping, Resource.get?, hf]; rfl) hm
  rw [ofResource, hnone] at h
  split at h
  · cases h
  · cases h
    rfl

private theorem conditionsField_of_alike {field : Option Document} {conditions : List Condition}
    (h : Document.OptionAlike field (conditionsField conditions)) :
    field = conditionsField conditions := by
  rw [conditionsField] at h ⊢
  split at h
  · cases field with
    | none => exact (if_pos ‹_›).symm
    | some d => cases h
  · cases field with
    | none => cases h
    | some d =>
      rw [if_neg ‹_›, Document.eq_of_alike _ _ (numberFree_conditionsDocument conditions) h]

private theorem ofResource_merged (hd : describes m.source = true) (h : m.toResource = .ok r)
    (old? : Option Resource) :
    ofResource (Batch.merged old? r) = .ok ⟨Batch.merged old? r, m.conditions⟩ := by
  have hget := get?_toResource_conditions h
  have hkept (old : Resource) : (Batch.keepSpace old r).get? ["status", "conditions"] =
      r.get? ["status", "conditions"] := Batch.get?_keepSpace old r (by decide)
  refine ofResource_of_get? ?_ ?_
  · rw [describes_congr (Batch.identity_merged old? r), describes_congr (identity_toResource h), hd]
  · rcases Batch.merged_cases old? r with ⟨-, he⟩ | ⟨old, -, ⟨ha, he⟩ | ⟨-, he⟩⟩
    · rw [he, hget]
    · rw [he]
      refine conditionsField_of_alike ?_
      rw [← hget, ← hkept old]
      exact Document.get?_alike ha _
    · rw [he, hkept, hget]

end Manifest

namespace Run

open Manifest (HasStatusMapping)

private theorem Step.edited (h : Step s s') : ∃ edits, s'.manifest = s.manifest.edited edits := by
  cases h with
  | silent _ manifest => exact ⟨[], manifest⟩
  | fail => exact ⟨[], rfl⟩
  | inform => exact ⟨[], rfl⟩
  | writeItem => exact ⟨[], rfl⟩
  | writeCondition k x => exact ⟨[.put x], rfl⟩
  | deleteCondition k => exact ⟨[.drop k.conditionType], rfl⟩

private theorem Steps.edited (h : Steps s s') : ∃ edits, s'.manifest = s.manifest.edited edits := by
  induction h with
  | refl => exact ⟨[], rfl⟩
  | tail _ hstep ih =>
    obtain ⟨edits, he⟩ := ih
    obtain ⟨edits', he'⟩ := hstep.edited
    exact ⟨edits ++ edits', by rw [he', he, Manifest.edited_append]⟩

private theorem writeManifest_cases (s : Run) (hd : Manifest.describes s.manifest.source = true) :
    if s.manifest.conditions = [] ∨ HasStatusMapping s.manifest.source then
      s.writeManifest.batch.notices = s.batch.notices ∧ ∃ item,
        Batch.itemAt s.writeManifest.batch.items s.manifest.source.identity = some item ∧
          Manifest.ofResource item = .ok ⟨item, s.manifest.conditions⟩
    else s.writeManifest.batch = s.batch.reportError
      "invalid object: field `status` is not a mapping" (some s.manifestRef) := by
  have hcases := Manifest.toResource_cases hd
  split at hcases
  · rename_i hplace
    obtain ⟨r, hr⟩ := hcases
    rw [if_pos hplace, writeManifest, hr]
    have hitem := Batch.itemAt_write_self s.batch r
    rw [Manifest.identity_toResource hr] at hitem
    exact ⟨Batch.notices_write s.batch r, _, hitem, Manifest.ofResource_merged hd hr _⟩
  · rename_i hplace
    rw [if_neg hplace, writeManifest, hcases]
    rfl

end Run

namespace Controller

open Manifest (HasStatusMapping)

private theorem populated_of_start {s₀ : Run} (hstart : Run.start c b = .ok s₀)
    (hs : c.populated b = some s) : s = s₀.populateInventory.callWatches.2.populateChildren := by
  obtain ⟨s₁, hs₁, rfl⟩ := Option.map_eq_some_iff.1 hs
  rw [surveyed, hstart] at hs₁
  simp only at hs₁
  split at hs₁
  · rename_i hw
    cases hs₁
    rw [hw]
  · cases hs₁

/-- A loaded manifest can be written exactly if no conditions are left or its status, if there is
one, is a mapping. Otherwise the conditions of a run are lost. -/
theorem written_iff_hasStatusMapping (hload : Manifest.ofResource root = .ok m) :
    (∀ edits, (∃ r, (m.edited edits).toResource = .ok r) ↔
      (m.edited edits).conditions = [] ∨ HasStatusMapping root) ∧
    ∀ c b s₀, Run.start c b = .ok s₀ → s₀.manifest = m →
      ((c.run b).report.isAborted = true ∧ (c.run b).batch.items = b.items) ∨
      ∃ s edits, c.populated b = some s ∧ s.final.manifest = m.edited edits ∧
        if (m.edited edits).conditions = [] ∨ HasStatusMapping root then
          (c.run b).batch.notices = s.final.batch.notices ∧ ∃ item,
            Batch.itemAt (c.run b).batch.items root.identity = some item ∧
              Manifest.ofResource item = .ok ⟨item, (m.edited edits).conditions⟩
        else m.conditions = [] ∧ (c.run b).batch = s.final.batch.reportError
          "invalid object: field `status` is not a mapping" (some s.final.manifestRef) := by
  obtain ⟨hsource, hd⟩ := Manifest.ofResource_eq_ok hload
  have hedited (edits : List Manifest.Edit) : (m.edited edits).source = root :=
    (m.source_edited edits).trans hsource
  constructor
  · intro edits
    have hcases := Manifest.toResource_cases (m := m.edited edits) (hedited edits ▸ hd)
    rw [hedited] at hcases
    split at hcases
    · exact iff_of_true hcases ‹_›
    · rename_i hplace
      refine iff_of_false ?_ hplace
      rintro ⟨r, hr⟩
      cases hcases.symm.trans hr
  · rintro c b s₀ hstart rfl
    cases hs : c.populated b with
    | none => exact .inl (run_of_populated_eq_none hs)
    | some s =>
      obtain ⟨edits, he⟩ := s₀.steps_final.edited
      rw [← populated_of_start hstart hs] at he
      refine .inr ⟨s, edits, rfl, he, ?_⟩
      have hcases := s.final.writeManifest_cases (by rwa [he, hedited])
      rw [he, hedited] at hcases
      rw [run_eq_of_populated hs]
      split at hcases
      · rwa [if_pos ‹_›]
      · rename_i hplace
        rw [if_neg hplace]
        exact ⟨Manifest.conditions_of_not_hasStatusMapping hload fun hm => hplace (.inr hm), hcases⟩

def blankManifest : Resource :=
  ⟨.object [("apiVersion", .string "kpt.dev/v1"), ("kind", .string "Kptfile"),
    ("metadata", .object [("name", .string "pkg")]), ("status", .null)]⟩

def blankPackage : Batch := .ofItems [blankManifest, .minimal ⟨"req/v1", "Interface"⟩ "a"]

private theorem ofResource_blankManifest :
    Manifest.ofResource blankManifest = .ok ⟨blankManifest, []⟩ :=
  Manifest.ofResource_of_get? (by decide +kernel) (by decide +kernel)

/-- The condition of the rendered interface is lost. One that is put and dropped again does no harm. -/
theorem written_iff_hasStatusMapping_blank :
    Manifest.ofResource blankManifest = .ok ⟨blankManifest, []⟩ ∧
    (∃ r, ((⟨blankManifest, []⟩ : Manifest).edited
      [.put ⟨"Ready", .isTrue, none, ""⟩, .drop "Ready"]).toResource = .ok r) ∧
    ∃ s₀ s, Run.start rendering blankPackage = .ok s₀ ∧ s₀.manifest = ⟨blankManifest, []⟩ ∧
      rendering.populated blankPackage = some s ∧ s.final.manifest.conditions ≠ [] ∧
      (rendering.run blankPackage).batch = s.final.batch.reportError
        "invalid object: field `status` is not a mapping" (some s.final.manifestRef) := by
  obtain ⟨hwritten, hrun⟩ := written_iff_hasStatusMapping ofResource_blankManifest
  obtain ⟨s₀, hstart, hmanifest⟩ := exists_started (c := rendering) (b := blankPackage)
    (p := fun s => s.manifest = ⟨blankManifest, []⟩) (by decide +kernel)
  refine ⟨ofResource_blankManifest, (hwritten _).2 (.inl (by decide +kernel)), s₀, ?_⟩
  rcases hrun _ _ s₀ hstart hmanifest with ⟨habort, -⟩ | ⟨s, edits, hs, he, hcases⟩
  · exact absurd habort (by decide +kernel)
  · have hrendered : ∀ s, rendering.populated blankPackage = some s →
        s.final.manifest.conditions ≠ [] := by
      decide +kernel
    have hput := hrendered s hs
    rw [he] at hput
    rw [if_neg (by simp only [hput, false_or]; decide +kernel)] at hcases
    exact ⟨s, hstart, hmanifest, hs, he ▸ hput, hcases.2⟩

/-- A manifest is loaded with a null status and cannot be written with a condition. A run leaves it
without the condition of the interface that it rendered. -/
theorem loaded_manifest_unwritten :
    (¬ ∀ root m edits, Manifest.ofResource root = .ok m →
      ∃ r, (m.edited edits).toResource = .ok r) ∧
    (rendering.run blankPackage).report.conditionsWritten = 1 ∧
    (rendering.run blankPackage).batch.items[0]? = some blankManifest := by
  refine ⟨fun hall => ?_, by decide +kernel, by decide +kernel⟩
  obtain ⟨r, hr⟩ := hall _ _ [.put ⟨"Ready", .isTrue, none, ""⟩] ofResource_blankManifest
  have hfault : ((⟨blankManifest, []⟩ : Manifest).edited
      [.put ⟨"Ready", .isTrue, none, ""⟩]).toResource.isOk = false := by decide +kernel
  rw [hr] at hfault
  cases hfault

end Controller

end Reconciler
