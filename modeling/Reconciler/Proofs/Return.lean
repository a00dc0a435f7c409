import Reconciler.Proofs.Document.Sorted
import Reconciler.Proofs.Frame

/-! Where the manifest goes when it is written back: to the first item with its identity, while it
was loaded from the place that its path tells. -/
namespace Reconciler

variable {c : Controller} {b out : Batch} {s t : Run} {r old x : Resource} {index j : Nat}

namespace Batch

private theorem exists_position (hx : b.items[index]? = some x) :
    ∃ j old, b.position? x.reference = some j ∧
    j ≤ index ∧ b.items[j]? = some old ∧ old.identity = x.identity ∧
      ∀ (i : Nat) y, i < j → b.items[i]? = some y → y.identity ≠ x.identity := by
  obtain ⟨hlt, hget⟩ := List.getElem?_eq_some_iff.1 hx
  cases hj : b.position? x.reference with
  | none =>
    rw [position?_reference, List.findIdx?_eq_none_iff] at hj
    have hne := hj x (List.mem_of_getElem? hx)
    simp at hne
  | some j =>
    rw [position?_reference, List.findIdx?_eq_some_iff_getElem] at hj
    obtain ⟨hlen, hid, hfirst⟩ := hj
    have hfirst : ∀ (i : Nat) y, i < j → b.items[i]? = some y → y.identity ≠ x.identity := by
      intro i y hi hy
      obtain ⟨hi', rfl⟩ := List.getElem?_eq_some_iff.1 hy
      simpa using hfirst i hi
    refine ⟨j, b.items[j], rfl, ?_, List.getElem?_eq_getElem hlen, by simpa using hid, hfirst⟩
    exact Nat.le_of_not_lt fun hi => hfirst index x hi hx rfl

/-- The manifest of a package was written back: it stands at its place, the other manifests are what
they were, and the root manifest is found where it was. -/
structure Returned (b out : Batch) (index : Nat) (r : Resource) : Prop where
  written : out.items[index]? = some r
  others : ∀ (i : Nat) x, i ≠ index → b.items[i]? = some x → Manifest.describes x = true →
    out.items[i]? = some x
  root : out.rootManifest?.map (·.1) = some index

end Batch

namespace Run

/-- The items of a package have kept their places and identities, its manifests are what they were,
and there are no new ones. -/
private structure KeepsManifests (b : Batch) (t : Run) : Prop where
  kept : ∀ (i : Nat) x, b.items[i]? = some x → ∃ x', t.batch.items[i]? = some x' ∧
    x'.identity = x.identity ∧ (Manifest.describes x = true → x' = x)
  added : ∀ (i : Nat) x, b.items[i]? = none → t.batch.items[i]? = some x →
    Manifest.describes x = false

namespace KeepsManifests

variable (h : KeepsManifests b t)
include h

private theorem getElem? {i : Nat} (hi : b.items[i]? = some x) (hd : Manifest.describes x = true) :
    t.batch.items[i]? = some x := by
  obtain ⟨x', hi', -, hsame⟩ := h.kept i x hi
  rw [hi', hsame hd]

private theorem items_writeManifest (hj : b.items[j]? = some old)
    (hid : old.identity = t.manifest.source.identity)
    (hfirst : ∀ (i : Nat) x, i < j → b.items[i]? = some x →
      x.identity ≠ t.manifest.source.identity)
    (hd : Manifest.describes t.manifest.source = true) (hr : t.manifest.toResource = .ok r) :
    t.writeManifest.batch.items = t.batch.items.set j (Batch.merged (some old) r) := by
  have hrid := Manifest.identity_toResource hr
  have hdold : Manifest.describes old = true := by rw [Manifest.describes_congr hid, hd]
  have hitems := t.items_writeManifest
  rw [hr] at hitems
  refine hitems.trans (Batch.items_write_first (h.getElem? hj hdold) (hid.trans hrid.symm) ?_)
  intro i x hi hx
  obtain ⟨hlt, -⟩ := List.getElem?_eq_some_iff.1 hj
  obtain ⟨x', hx', hidx, -⟩ := h.kept i _ (List.getElem?_eq_getElem (by omega))
  rw [hx] at hx'
  cases hx'
  rw [hidx, hrid]
  exact hfirst i _ hi (List.getElem?_eq_getElem (by omega))

private theorem returned (hroot : b.rootManifest? = some (index, t.manifest.source))
    (hw : t.manifest.source.root.WellFormed) (hr : t.manifest.toResource = .ok r)
    (hfirst : ∀ (i : Nat) x, i < index → b.items[i]? = some x →
      x.identity ≠ t.manifest.source.identity) :
    Batch.Returned b t.writeManifest.batch index r := by
  obtain ⟨hi, hd⟩ := Batch.rootManifest?_eq_some hroot
  obtain ⟨hlt, -⟩ := List.getElem?_eq_some_iff.1 (h.getElem? hi hd)
  have hmerged : Batch.merged (some t.manifest.source) r = r := by
    rw [Batch.merged, Batch.keepSpace_of_space_eq (Manifest.space_toResource hr).symm]
    split
    · rename_i ha
      exact (Manifest.eq_source_of_alike hw hr ha).symm
    · rfl
  have hitems : t.writeManifest.batch.items = t.batch.items.set index r := by
    rw [h.items_writeManifest hi rfl hfirst hd hr, hmerged]
  have hwritten : t.writeManifest.batch.items[index]? = some r := by
    rw [hitems, List.getElem?_set_self hlt]
  have hother {i : Nat} (hne : i ≠ index) :
      t.writeManifest.batch.items[i]? = t.batch.items[i]? := by
    rw [hitems, List.getElem?_set_ne hne.symm]
  refine ⟨hwritten, fun i x hne hx hdx => by rw [hother hne, h.getElem? hx hdx], ?_⟩
  rw [Batch.rootManifest?_congr hroot (fun i x hx => ?_) (fun i x hx hx' => ?_) hwritten]
  · rfl
  · by_cases hne : i = index
    · subst hne
      rw [hi] at hx
      cases hx
      exact ⟨r, hwritten, Manifest.mark_toResource hr⟩
    · obtain ⟨x', hx', hid, hsame⟩ := h.kept i x hx
      refine ⟨x', by rw [hother hne, hx'], ?_⟩
      by_cases hdx : Manifest.describes x = true
      · rw [hsame hdx]
      · rw [Batch.mark_eq_none hid (by simpa using hdx), Batch.mark_eq_none rfl (by simpa using hdx)]
  · have hne : i ≠ index := by
      rintro rfl
      rw [hi] at hx
      cases hx
    exact Batch.mark_eq_none rfl (h.added i x hx (by rwa [← hother hne]))

private theorem not_returned (hroot : b.rootManifest? = some (index, t.manifest.source))
    (hr : t.manifest.toResource = .ok r) (hj : b.items[j]? = some old) (hlt : j < index)
    (hid : old.identity = t.manifest.source.identity)
    (hfirst : ∀ (i : Nat) x, i < j → b.items[i]? = some x →
      x.identity ≠ t.manifest.source.identity) :
    ¬ Batch.Returned b t.writeManifest.batch index r := by
  intro hreturned
  obtain ⟨-, hd⟩ := Batch.rootManifest?_eq_some hroot
  have hdold : Manifest.describes old = true := by rw [Manifest.describes_congr hid, hd]
  obtain ⟨hlen, -⟩ := List.getElem?_eq_some_iff.1 (h.getElem? hj hdold)
  have hlost : Batch.merged (some old) r = old := by
    have hkept := hreturned.others j old (by omega) hj hdold
    rw [h.items_writeManifest hj hid hfirst hd hr, List.getElem?_set_self hlen] at hkept
    exact Option.some.inj hkept
  have hmark : Batch.mark old = Batch.mark t.manifest.source := by
    rw [← hlost, Batch.mark_merged, Manifest.mark_toResource hr]
  rw [Batch.mark, Batch.mark, if_pos hdold, if_pos hd] at hmark
  exact Batch.packagePath_ne_of_lt hroot hj hdold hlt (Option.some.inj hmark)

end KeepsManifests

end Run

namespace Controller

/-- No manifest is of the governed class or of an owned one. -/
def SparesManifests (c : Controller) : Prop :=
  ∀ r, Manifest.describes r = true → c.governs r.identity = false ∧ c.exchange? r.identity = none

private theorem Gathered.keepsManifests (h : Gathered c b s) (hspare : c.SparesManifests)
    (hgen : c.RendersGoverned) : Run.KeepsManifests b s.final := by
  have hwritten := h.through_final.written
  rw [h.items] at hwritten
  have hnot {new : Resource} (hnew : ∃ e, s.Involves e ∧ e.item = some new) :
      Manifest.describes new = false := by
    obtain ⟨e, he, hx⟩ := hnew
    rw [← Bool.not_eq_true]
    intro hd
    obtain ⟨hgov, howned⟩ := hspare new hd
    rcases h.identity_of_involves hgen he hx with hg | ho
    · rw [hgov] at hg
      cases hg
    · rw [howned] at ho
      cases ho
  constructor
  · intro i x hi
    by_cases hd : Manifest.describes x = true
    · refine ⟨x, hwritten.getElem?_of_ne hi fun new hnew hid => ?_, rfl, fun _ => rfl⟩
      have hfalse := hnot hnew
      rw [Manifest.describes_congr hid, hd] at hfalse
      cases hfalse
    · obtain ⟨x', hi', hid⟩ := hwritten.getElem? (R := (·.identity = x.identity)) hi rfl
        fun old new hold _ hno => by rw [Batch.identity_keepSpace, hno, hold]
      exact ⟨x', hi', hid, fun hd' => absurd hd' hd⟩
  · intro i x hi hi'
    obtain ⟨new, hnew, hid⟩ := hwritten.getElem?_of_none hi hi'
    rw [← Manifest.describes_congr hid]
    exact hnot hnew

/-- A run that is not aborted writes its manifest back exactly if no item before the root manifest
shares its identity. Of the other manifests only such an item can change. -/
theorem manifest_returned_iff (hspare : c.SparesManifests) (hgen : c.RendersGoverned)
    (hw : ∀ x ∈ b.items, x.root.WellFormed) (hrun : (c.run b).report.isAborted = false) :
    ∃ s, c.populated b = some s ∧ c.run b = .ofRun s.final.writeManifest ∧
      b.rootManifest? = some (s.manifestIndex, s.manifest.source) ∧
      ∀ r, s.final.manifest.toResource = .ok r →
        (Batch.Returned b (c.run b).batch s.manifestIndex r ↔
          ∀ (i : Nat) x, i < s.manifestIndex → b.items[i]? = some x →
            x.identity ≠ s.manifest.source.identity) ∧
        ∃ j old, b.position? s.manifest.source.reference = some j ∧ b.items[j]? = some old ∧
          (c.run b).batch.items[j]? = some (Batch.merged (some old) r) ∧
          ∀ (i : Nat) x, i ≠ j → b.items[i]? = some x → Manifest.describes x = true →
            (c.run b).batch.items[i]? = some x := by
  cases hs : c.populated b with
  | none =>
    rw [(run_of_populated_eq_none hs).1] at hrun
    cases hrun
  | some s =>
    have h := gathered_spec hs
    have hkeep := h.keepsManifests hspare hgen
    have hsource : s.final.manifest.source = s.manifest.source := h.through_final.source
    have heq := (run_of_populated hs).1
    refine ⟨s, rfl, heq, h.root, fun r hr => ?_⟩
    obtain ⟨hi, hd⟩ := Batch.rootManifest?_eq_some h.root
    obtain ⟨j, old, hposition, hle, hj, hid, hfirst⟩ := Batch.exists_position hi
    have hdold : Manifest.describes old = true := by rw [Manifest.describes_congr hid, hd]
    rw [heq]
    constructor
    · have hroot := h.root
      rw [← hsource] at hroot hid hfirst ⊢
      constructor
      · intro hreturned i x hlt hx hidx
        have hji : j ≤ i := Nat.le_of_not_lt fun hlt => hfirst i x hlt hx hidx
        exact hkeep.not_returned hroot hr hj (by omega) hid hfirst hreturned
      · exact hkeep.returned hroot (hsource ▸ hw _ (List.mem_of_getElem? hi)) hr
    · have hitems : (Run.Outcome.ofRun s.final.writeManifest).batch.items =
          s.final.batch.items.set j (Batch.merged (some old) r) :=
        hkeep.items_writeManifest hj (hsource ▸ hid) (hsource ▸ hfirst) (hsource ▸ hd) hr
      obtain ⟨hlen, -⟩ := List.getElem?_eq_some_iff.1 (hkeep.getElem? hj hdold)
      refine ⟨j, old, hposition, hj, by rw [hitems, List.getElem?_set_self hlen], ?_⟩
      intro i x hne hx hdx
      rw [hitems, List.getElem?_set_ne hne.symm, hkeep.getElem? hx hdx]

/-- A package that holds another one, whose manifest comes first. -/
def nestedPackage (name : String) : Batch :=
  .ofItems [kptfile "sub/Kptfile" name, kptfile "Kptfile" "pkg",
    .minimal ⟨"req/v1", "Interface"⟩ "a"]
where
  kptfile (path name : String) : Resource :=
    ⟨.object [("apiVersion", .string "kpt.dev/v1"), ("kind", .string "Kptfile"),
      ("metadata", .object [
        ("annotations", .object [(Resource.pathAnnotation, .string path)]),
        ("name", .string name)])]⟩

private theorem sparesManifests_serving : serving.SparesManifests := by
  intro r hd
  simp only [Manifest.describes, Bool.and_eq_true, beq_iff_eq] at hd
  have hne (kind : String) (hk : "Kptfile" ≠ kind) (apiVersion : String) :
      r.identity.toCoordinate ≠ ⟨apiVersion, kind⟩ := by
    intro he
    exact hk (hd.1.symm.trans (congrArg Coordinate.kind he))
  constructor
  · exact beq_eq_false_iff_ne.2 (hne "Interface" (by decide) "req/v1").symm
  · exact SortedMap.find?_insert_of_ne ∅ (hne "IPAllocation" (by decide) "ipam/v1") _

/-- The manifest of a package that holds another one changes and is written back, as their names
differ. -/
theorem manifest_returned_serving :
    (serving.run (nestedPackage "sub")).batch.items[1]? ≠ (nestedPackage "sub").items[1]? ∧
    ∃ s r, serving.populated (nestedPackage "sub") = some s ∧
      s.final.manifest.toResource = .ok r ∧
      Batch.Returned (nestedPackage "sub") (serving.run (nestedPackage "sub")).batch 1 r := by
  obtain ⟨s, hs, hok, hchanges⟩ : ∃ s, serving.populated (nestedPackage "sub") = some s ∧
      s.final.manifest.toResource.isOk = true ∧
      s.final.writeManifest.batch.items[1]? ≠ (nestedPackage "sub").items[1]? := by
    decide +kernel
  obtain ⟨heq, hrun, -⟩ := run_of_populated hs
  obtain ⟨_, hs', -, hroot, hreturned⟩ := manifest_returned_iff sparesManifests_serving
    rendersGoverned_serving (by decide +kernel) hrun
  cases hs.symm.trans hs'
  obtain ⟨r, hr⟩ := exists_ok_of_isOk hok
  have hindex : (nestedPackage "sub").rootManifest? =
      some (1, nestedPackage.kptfile "Kptfile" "pkg") := by
    decide +kernel
  rw [hindex, Option.some.injEq, Prod.mk.injEq] at hroot
  have hiff := (hreturned r hr).1
  rw [← hroot.1, ← hroot.2] at hiff
  refine ⟨heq ▸ hchanges, s, r, hs, hr, hiff.2 fun i x hi hx => ?_⟩
  obtain rfl : i = 0 := by omega
  cases hx
  decide +kernel

/-- If the inner package has the same name, the manifest of the package is written over the inner
one, and its own place keeps the old one. -/
theorem manifest_misplaced : serving.SparesManifests ∧ serving.RendersGoverned ∧
    (serving.run (nestedPackage "pkg")).report.isAborted = false ∧
    (nestedPackage "pkg").rootManifest? = some (1, nestedPackage.kptfile "Kptfile" "pkg") ∧
    (∃ s r, serving.populated (nestedPackage "pkg") = some s ∧
      s.final.manifest.toResource = .ok r ∧
      (serving.run (nestedPackage "pkg")).batch.items[1]? ≠ some r) ∧
    (serving.run (nestedPackage "pkg")).batch.items[0]? ≠ (nestedPackage "pkg").items[0]? ∧
    (serving.run (nestedPackage "pkg")).batch.rootManifest?.map (·.1) = some 0 := by
  obtain ⟨s, hs, hok, hstale, hlost, hroot⟩ : ∃ s,
      serving.populated (nestedPackage "pkg") = some s ∧
      s.final.manifest.toResource.isOk = true ∧
      s.final.writeManifest.batch.items[1]? ≠ s.final.manifest.toResource.toOption ∧
      s.final.writeManifest.batch.items[0]? ≠ (nestedPackage "pkg").items[0]? ∧
      s.final.writeManifest.batch.rootManifest?.map (·.1) = some 0 := by
    decide +kernel
  obtain ⟨heq, hrun, -⟩ := run_of_populated hs
  obtain ⟨r, hr⟩ := exists_ok_of_isOk hok
  rw [hr] at hstale
  rw [heq] at hrun ⊢
  exact ⟨sparesManifests_serving, rendersGoverned_serving, hrun, by decide +kernel,
    ⟨s, r, hs, hr, hstale⟩, hlost, hroot⟩

end Controller

end Reconciler
