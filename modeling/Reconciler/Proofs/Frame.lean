import Reconciler.Proofs.Run.Passage

/-! What a run leaves alone, whatever its callbacks answer: the order and the identities of the items,
all items that are neither governed nor owned, and all conditions about something else. -/
namespace Reconciler

open Inventory (Key)

variable {c : Controller} {b : Batch} {s : Run} {r : Ref} {x : Resource} {k : Key} {e : Effect}

namespace Controller

/-- Nothing is removed or reordered. What is appended has identities of its own, so that distinct
identities stay distinct. -/
theorem run_extends (c : Controller) (b : Batch) :
    (∃ kept added, (c.run b).batch.items = kept ++ added ∧
      kept.map Resource.identity = b.items.map Resource.identity ∧
      (added.map Resource.identity).Nodup ∧
      ∀ r ∈ added, r.identity ∉ b.items.map Resource.identity) ∧
    (((c.run b).batch.items.map Resource.identity).Nodup ↔
      (b.items.map Resource.identity).Nodup) := by
  obtain ⟨P, hw⟩ := c.written_run b
  obtain ⟨ids, hids, hn, hnew, -⟩ := hw.identities
  obtain ⟨kept, added, hitems, hkept, rfl⟩ := List.map_eq_append_iff.1 hids
  constructor
  · exact ⟨kept, added, hitems, hkept, hn, fun r hr => hnew _ (List.mem_map_of_mem hr)⟩
  · rw [hids, List.nodup_append]
    constructor
    · exact And.left
    · intro hb
      refine ⟨hb, hn, ?_⟩
      rintro id hid _ hadd rfl
      exact hnew id hadd hid

/-- The generation callback answers with nothing but resources of the governed class. -/
def RendersGoverned (c : Controller) : Prop :=
  ∀ generate, c.generate = some generate → ∀ governed resources answer,
    (∀ g ∈ governed, c.governs g.identity = true) →
    generate governed resources = .ok (some answer) → c.governs answer.identity = true

def typeStem (c : Controller) : String := s!"{c.governed.apiVersion}.{c.governed.kind}."

/-- The condition is about something else than a governed resource or one of its children. -/
def isForeign (c : Controller) (x : Condition) : Bool := !x.typeName.startsWith c.typeStem

private theorem singleType_of_governs (h : c.governs r = true) :
    c.typeStem.toList <+: (Subject.singleType r).toList := by
  rw [governs, beq_iff_eq] at h
  have hstem : c.typeStem.toList =
      r.apiVersion.toList ++ '.' :: (r.kind.toList ++ ['.']) := by
    rw [typeStem, h]
    change (r.apiVersion ++ "." ++ r.kind ++ ".").toList = _
    simp [String.toList_append]
  refine ⟨r.name.toList, ?_⟩
  rw [hstem, Subject.toList_singleType]
  simp

private theorem startsWith_conditionType (h : c.governs k.parent = true) :
    k.conditionType.startsWith c.typeStem = true := by
  rw [String.startsWith_string_iff]
  obtain ⟨role, owner, target⟩ := k
  cases owner with
  | none => exact singleType_of_governs h
  | some owner =>
    refine (singleType_of_governs (r := owner) h).trans ?_
    rw [Key.conditionType, Key.subject, Subject.typeName, Subject.toList_pairType]
    exact List.prefix_append _ _

namespace Gathered

variable (h : Gathered c b s)
include h

private theorem governs_of_condition (he : s.Involves e) (hcond : e.condition ≠ none) :
    c.governs e.key.parent = true := by
  rcases he with ⟨a, ha, rfl⟩ | hren
  · obtain ⟨-, owner, target, exchange, -, hgov, -, hdue⟩ := h.mem_childActions.1 ha
    rw [Inventory.Action.key_effect, hdue.key_eq]
    exact hgov
  · obtain ⟨r, hgov, hk⟩ := hren.condition hcond
    rw [h.controller] at hgov
    rw [hk]
    exact hgov

/-- What an effect brings is governed, or owned with a resource. -/
theorem identity_of_involves (hgen : c.RendersGoverned) (he : s.Involves e) (hx : e.item = some x) :
    c.governs x.identity = true ∨
      (c.exchange? x.identity).any Exchange.hasResource = true := by
  rcases he with ⟨a, ha, rfl⟩ | hren
  · right
    rw [← h.controller]
    rcases h.writes_cases ha hx with ⟨p, isUpdate, new, -, hb⟩ | ⟨p, old, -, hr⟩
    · exact hb.exchange
    · exact hr.exchange
  · left
    rcases hren.item hx with ⟨-, r, g, hg, hbody⟩ |
        ⟨generate, r, governed, resources, answer, hc, hpresent, hanswer, hbody⟩
    · obtain ⟨-, hgov, hid⟩ := h.mem_of_governed hg
      rwa [hbody.identity, hid]
    · rw [h.controller] at hc
      rw [hbody.identity]
      refine hgen generate hc governed resources answer (fun g hg => ?_) hanswer
      obtain ⟨-, hgov, rfl⟩ := h.mem_of_governed (hpresent g hg)
      exact hgov

private theorem identity_of_writes (hgen : c.RendersGoverned) (hw : s.Writes x) :
    c.governs x.identity = true ∨ (c.exchange? x.identity).any Exchange.hasResource = true ∨
      Manifest.describes x = true := by
  rcases hw with ⟨e, he, hx⟩ | ⟨m, hsource, hm⟩
  · exact (h.identity_of_involves hgen he hx).imp_right .inl
  · right; right
    have hd := (Manifest.ofResource_eq_ok h.manifest).2
    rwa [Manifest.describes_congr (Manifest.identity_toResource hm), hsource]

end Gathered

/-- Items that are neither manifests nor governed nor owned with a resource stay as they are. A run
that is not aborted keeps all foreign conditions, in order. -/
theorem run_frame (hgen : c.RendersGoverned) :
    (∀ (i : Nat) (r : Resource), b.items[i]? = some r → Manifest.describes r = false →
      c.governs r.identity = false → (c.exchange? r.identity).any Exchange.hasResource = false →
      (c.run b).batch.items[i]? = some r) ∧
    ((c.run b).report.isAborted = false → ∃ s, c.populated b = some s ∧
      c.run b = .ofRun s.final.writeManifest ∧
      b.rootManifest? = some (s.manifestIndex, s.manifest.source) ∧
      Manifest.ofResource s.manifest.source = .ok s.manifest ∧
      s.final.writeManifest.manifest.conditions.filter c.isForeign =
        s.manifest.conditions.filter c.isForeign) := by
  cases hs : c.populated b with
  | none =>
    obtain ⟨habort, hitems⟩ := run_of_populated_eq_none hs
    refine ⟨fun i r hi _ _ _ => by rw [hitems, hi], fun hnot => ?_⟩
    rw [habort] at hnot
    cases hnot
  | some s =>
    have h := gathered_spec hs
    obtain ⟨hrun, -, hwritten⟩ := run_of_populated hs
    constructor
    · intro i r hi hd hgov hx
      refine hwritten.getElem?_of_ne hi fun new hnew hid => ?_
      rcases h.identity_of_writes hgen hnew with hg | ho | hm
      · rw [hid, hgov] at hg
        cases hg
      · rw [hid, hx] at ho
        cases ho
      · rw [Manifest.describes_congr hid, hd] at hm
        cases hm
    · intro _
      refine ⟨s, rfl, hrun, h.root, h.manifest, ?_⟩
      refine h.through_final.conditions (fun t => !t.startsWith c.typeStem) fun e he hcond => ?_
      rw [startsWith_conditionType (h.governs_of_condition he hcond)]
      rfl

/-- Interfaces ask for an allocation, and are rendered as they are. -/
def serving : Controller :=
  { (ofGoverned ⟨"req/v1", "Interface"⟩).owning ⟨"ipam/v1", "IPAllocation"⟩ .conditionAndResource with
    populate := some fun _ => .ok [.minimal ⟨"ipam/v1", "IPAllocation"⟩ "x"]
    generate := some fun governed _ => .ok governed }

def manifestWith (typeName status : String) : Resource :=
  ⟨.object [("apiVersion", .string "kpt.dev/v1"), ("kind", .string "Kptfile"),
    ("metadata", .object [("name", .string "pkg")]),
    ("status", .object [("conditions", .array [.object [("status", .string status),
      ("type", .string typeName)]])])]⟩

def mixedPackage : Batch :=
  .ofItems [manifestWith "Ready" "False", .minimal ⟨"req/v1", "Interface"⟩ "a",
    .minimal ⟨"v1", "ConfigMap"⟩ "settings"]

theorem rendersGoverned_serving : serving.RendersGoverned := by
  rintro _ ⟨⟩ governed resources answer hgov ⟨⟩
  exact hgov answer rfl

/-- The allocation is created, and the settings and the condition are left alone. -/
theorem run_frame_serving :
    (serving.run mixedPackage).batch.items.length = 4 ∧
    (serving.run mixedPackage).batch.items[2]? = some (.minimal ⟨"v1", "ConfigMap"⟩ "settings") ∧
    ∃ s, serving.populated mixedPackage = some s ∧
      s.final.writeManifest.manifest.conditions.filter serving.isForeign =
        [⟨"Ready", .isFalse, none, ""⟩] := by
  obtain ⟨hitems, hconditions⟩ := run_frame (b := mixedPackage) rendersGoverned_serving
  obtain ⟨s, hs, -, -, -, hkept⟩ := hconditions (by decide +kernel)
  refine ⟨by decide +kernel, ?_, s, hs, ?_⟩
  · exact hitems 2 _ rfl (by decide +kernel) (by decide +kernel) (by decide +kernel)
  · have hloaded : ∀ s, serving.populated mixedPackage = some s →
        s.manifest.conditions.filter serving.isForeign = [⟨"Ready", .isFalse, none, ""⟩] := by
      decide +kernel
    exact hkept.trans (hloaded s hs)

end Controller

end Reconciler
