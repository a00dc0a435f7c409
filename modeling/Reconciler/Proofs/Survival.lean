import Reconciler.Proofs.Run.Passage
import Reconciler.Proofs.Terminal

/-! Controllers that own nothing and render what they govern as it is, whether or not their watches
succeed: which items keep their references and their content, when several items may differ in
nothing but their namespaces. -/
namespace Reconciler

variable {c : Controller} {b : Batch} {s : Run} {r x : Resource} {i : Nat}

namespace Controller

/-- The controller owns nothing, and its generation callback, if there is one, answers with what it
is given. -/
structure Echoes (c : Controller) : Prop where
  owned : c.owned.isEmpty = true
  generate : ∀ generate, c.generate = some generate → ∀ governed resources,
    (∀ g ∈ governed, c.governs g.identity = true) → generate governed resources = .ok governed

private theorem Gathered.source_of_writes (h : Gathered c b s) (hc : c.Echoes) (hw : s.Writes x) :
    (∃ g ∈ b.others s.manifestIndex, c.governs g.identity = true ∧ Resource.SameBody g x) ∨
      ∃ m : Manifest, m.source = s.manifest.source ∧ m.toResource = .ok x := by
  rcases hw with ⟨e, ⟨a, ha, -⟩ | hren, hx⟩ | hm
  · rw [h.childActions_eq_nil hc.owned] at ha
    cases ha
  · left
    have hgoverned {r : Ref} {g : Resource} (hg : s.inventory.existing? (.governed r) = some g) :
        g ∈ b.others s.manifestIndex ∧ c.governs g.identity = true := by
      obtain ⟨hm, hgov, rfl⟩ := h.mem_of_governed hg
      exact ⟨hm, hgov⟩
    rcases hren.item hx with ⟨-, r, g, hg, hbody⟩ |
        ⟨generate, r, governed, resources, answer, hgen, hpresent, hanswer, hbody⟩
    · obtain ⟨hm, hgov⟩ := hgoverned hg
      exact ⟨g, hm, hgov, hbody⟩
    · rw [h.controller] at hgen
      rw [hc.generate generate hgen governed resources
        fun g hg => (hgoverned (hpresent g hg)).2] at hanswer
      obtain ⟨hm, hgov⟩ := hgoverned (hpresent answer (Except.ok.inj hanswer))
      exact ⟨answer, hm, hgov, hbody⟩
  · exact .inr hm

/-- An item keeps its identity, and a namespace that an item of it had. While it shares its identity
with none it keeps its content, up to annotations and a manifest's status. -/
structure Survives (c : Controller) (b : Batch) (i : Nat) (r r' : Resource) : Prop where
  identity : r'.identity = r.identity
  space : ∃ x ∈ b.items, x.identity = r.identity ∧ r'.space = x.space
  untouched : c.governs r.identity = false → Manifest.describes r = false → r' = r
  content : (∀ j x, b.items[j]? = some x → x.identity = r.identity → j = i) →
    ∀ q, Document.Diverge ["metadata", "annotations"] q →
      (Manifest.describes r = true → Document.Diverge ["status"] q) → r'.get? q = r.get? q

private theorem Survives.refl (c : Controller) (hi : b.items[i]? = some r) : Survives c b i r r :=
  ⟨rfl, ⟨r, List.mem_of_getElem? hi, rfl, rfl⟩, fun _ _ => rfl, fun _ _ _ _ => rfl⟩

private theorem Survives.write {old new : Resource} (h : Gathered c b s) (hc : c.Echoes)
    (hi : b.items[i]? = some r) (hold : Survives c b i r old) (hnew : s.Writes new)
    (hid : new.identity = old.identity) : Survives c b i r (Batch.keepSpace old new) := by
  have hid := hid.trans hold.identity
  -- the item that the write is made of
  obtain ⟨j, y, hj, hy, hspace, hclass, hcontent⟩ : ∃ j y, b.items[j]? = some y ∧
      y.identity = r.identity ∧ new.space = y.space ∧
      (c.governs r.identity = true ∨ Manifest.describes r = true) ∧
      ∀ q, Document.Diverge ["metadata", "annotations"] q →
        (Manifest.describes y = true → Document.Diverge ["status"] q) → new.get? q = y.get? q := by
    rcases h.source_of_writes hc hnew with ⟨g, hg, hgov, hbody⟩ | ⟨m, hsource, hm⟩
    · obtain ⟨j, hj, -⟩ := Batch.mem_others.1 hg
      have hgr : g.identity = r.identity := hbody.identity.symm.trans hid
      exact ⟨j, g, hj, hgr, hbody.space, .inl (hgr ▸ hgov), fun q hq _ => hbody q hq⟩
    · obtain ⟨hj, hd⟩ := Batch.rootManifest?_eq_some h.root
      have hmr : s.manifest.source.identity = r.identity := by
        rw [← hsource, ← Manifest.identity_toResource hm, hid]
      refine ⟨_, _, hj, hmr, ?_, .inr ?_, fun q _ hq => ?_⟩
      · rw [Manifest.space_toResource hm, hsource]
      · rw [← Manifest.describes_congr hmr, hd]
      · rw [Manifest.get?_toResource hm (hq hd), hsource]
  refine ⟨by rw [Batch.identity_keepSpace, hid], ?_, fun hgov hd => ?_, fun hone q hq hstatus => ?_⟩
  · rcases Batch.space_keepSpace old new with he | he
    · exact ⟨y, List.mem_of_getElem? hj, hy, he.trans hspace⟩
    · rw [he]
      exact hold.space
  · rcases hclass with hg | hm
    · rw [hgov] at hg
      cases hg
    · rw [hd] at hm
      cases hm
  · -- there is no other item, and so no other namespace either
    obtain rfl := hone j y hj hy
    cases hi.symm.trans hj
    obtain ⟨x, hx, hxr, hox⟩ := hold.space
    obtain ⟨l, hl⟩ := List.mem_iff_getElem?.1 hx
    obtain rfl := hone l x hl hxr
    cases hi.symm.trans hl
    rw [Batch.keepSpace_of_space_eq (hox.trans hspace.symm)]
    exact hcontent q hq hstatus

/-- Items keep their places, and none is added. The references are those from before as long as
governed items and manifests with one identity share their namespace. -/
theorem run_survives (hc : c.Echoes) :
    (c.run b).batch.items.length = b.items.length ∧
    (∀ (i : Nat) (r : Resource), b.items[i]? = some r →
      (∃ r', (c.run b).batch.items[i]? = some r' ∧ Survives c b i r r') ∧
      ∀ j x, j < i → b.items[j]? = some x → x.identity = r.identity →
        (c.run b).batch.items[i]? = some r) ∧
    ((∀ r ∈ b.items, c.governs r.identity = true ∨ Manifest.describes r = true →
        ∀ x ∈ b.items, x.identity = r.identity → x.space = r.space) →
      (c.run b).batch.items.map Resource.reference = b.items.map Resource.reference) := by
  have hlength : (c.run b).batch.items.length = b.items.length := by
    cases hs : c.populated b with
    | none => rw [(run_of_populated_eq_none hs).2]
    | some s =>
      have h := gathered_spec hs
      have hids := (run_of_populated hs).2.2.identities_eq fun x hx => by
        rcases h.source_of_writes hc hx with ⟨g, hg, -, hbody⟩ | ⟨m, hsource, hm⟩
        · rw [hbody.identity]
          exact List.mem_map_of_mem (Batch.mem_of_mem_others hg)
        · rw [Manifest.identity_toResource hm, hsource]
          exact List.mem_map_of_mem (List.mem_of_getElem? (Batch.rootManifest?_eq_some h.root).1)
      simpa using congrArg List.length hids
  have hsurvives : ∀ (i : Nat) (r : Resource), b.items[i]? = some r →
      ∃ r', (c.run b).batch.items[i]? = some r' ∧ Survives c b i r r' := by
    intro i r hi
    cases hs : c.populated b with
    | none => exact ⟨r, by rw [(run_of_populated_eq_none hs).2, hi], .refl c hi⟩
    | some s =>
      exact (run_of_populated hs).2.2.getElem? hi (.refl c hi) fun old new hold hnew hid =>
        hold.write (gathered_spec hs) hc hi hnew hid
  obtain ⟨P, hwritten⟩ := written_run c b
  refine ⟨hlength, fun i r hi => ⟨hsurvives i r hi, fun j x hj hx hid =>
    hwritten.getElem?_of_later hi hj hx hid⟩, fun hshare => List.ext_getElem? fun i => ?_⟩
  rw [List.getElem?_map, List.getElem?_map]
  cases hi : b.items[i]? with
  | none =>
    rw [List.getElem?_eq_none_iff] at hi
    rw [List.getElem?_eq_none (by omega)]
  | some r =>
    obtain ⟨r', hi', hr⟩ := hsurvives i r hi
    rw [hi', Option.map_some, Option.map_some, Option.some.injEq]
    by_cases hclass : c.governs r.identity = true ∨ Manifest.describes r = true
    · obtain ⟨x, hx, hxr, hspace⟩ := hr.space
      have hxs := hshare r (List.mem_of_getElem? hi) hclass x hx hxr
      exact (Resource.reference_eq_iff _ _).2 ⟨hr.identity, hspace.trans hxs⟩
    · rw [not_or, Bool.not_eq_true, Bool.not_eq_true] at hclass
      rw [hr.untouched hclass.1 hclass.2]

def spacedPackage (first second : String) : Batch :=
  .ofItems [.minimal ⟨"kpt.dev/v1", "Kptfile"⟩ "pkg", interface first "north",
    interface second "south"]
where
  interface (name space : String) : Resource :=
    ⟨.object [("apiVersion", .string "req/v1"), ("kind", .string "Interface"),
      ("metadata", .object [("name", .string name), ("namespace", .string space)])]⟩

private theorem echoes_rendering : rendering.Echoes := by
  refine ⟨rfl, ?_⟩
  rintro _ ⟨⟩ governed resources -
  rfl

def twinPackage : Batch :=
  .ofItems [kptfile "sub/Kptfile" "north", kptfile "Kptfile" "south"]
where
  kptfile (path space : String) : Resource :=
    ⟨.object [("apiVersion", .string "kpt.dev/v1"), ("kind", .string "Kptfile"),
      ("metadata", .object [
        ("annotations", .object [(Resource.pathAnnotation, .string path)]),
        ("name", .string "pkg"), ("namespace", .string space)])]⟩

/-- Interfaces with names of their own are annotated, each in its namespace. -/
theorem run_survives_rendering :
    (rendering.run (spacedPackage "a" "b")).batch.items ≠ (spacedPackage "a" "b").items ∧
    (rendering.run (spacedPackage "a" "b")).batch.items.map Resource.reference =
      (spacedPackage "a" "b").items.map Resource.reference :=
  ⟨by decide +kernel, (run_survives echoes_rendering).2.2 (by decide +kernel)⟩

/-- Of two interfaces, or of two manifests, that differ in nothing but their namespaces the second
one is written over the first one. -/
theorem run_loses_namespace : rendering.Echoes ∧
    (rendering.run (spacedPackage "a" "a")).report.isAborted = false ∧
    ¬ ((rendering.run (spacedPackage "a" "a")).batch.items.map Resource.reference).Perm
      ((spacedPackage "a" "a").items.map Resource.reference) ∧
    (rendering.run (spacedPackage "a" "a")).batch.items.map Resource.space =
      [none, some "south", some "south"] ∧
    (rendering.run twinPackage).batch.items.map Resource.space = [some "south", some "south"] :=
  ⟨echoes_rendering, by decide +kernel, by decide +kernel, by decide +kernel, by decide +kernel⟩

end Controller

end Reconciler
