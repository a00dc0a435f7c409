import Reconciler.Proofs.Convergence
import Reconciler.Proofs.Document.Sorted
import Reconciler.Proofs.Run.Dispute

/-! Controllers that do not generate: a second run has nothing to do exactly if no child is disputed
between governed resources. -/
namespace Reconciler

variable {c : Controller} {b : Batch} {s : Run}

namespace Controller

/-- The second run writes nothing and leaves the items alone exactly if the first one had each child
brought by one governed resource, and no condition withheld by another. -/
theorem rerun_unchanged_iff (hgen : c.generate = none) (hwatch : c.WatchesSucceed)
    (hn : (b.items.map Resource.identity).Nodup) (hw : ∀ g ∈ b.items, g.root.WellFormed)
    (hs : ∀ s, c.populated b = some s → s.inventory.Readable ∧ s.DesiresLeaves) :
    ((c.run (c.run b).batch).report.objectsWritten = 0 ∧
        (c.run (c.run b).batch).batch.items = (c.run b).batch.items) ↔
      ∀ s, c.populated b = some s → s.Undisputed := by
  cases hpop : c.populated b with
  | none =>
    refine iff_of_true (rerun_of_populated_eq_none hwatch hpop) ?_
    intro s hs
    cases hs
  | some s =>
    obtain ⟨hread, hleaves⟩ := hs s hpop
    obtain ⟨s', h, hfirst, hsecond⟩ :=
      exists_again (.inl hgen) hwatch hn hw hpop hread.legible hleaves
    rw [hsecond, hfirst]
    constructor
    · rintro ⟨hz, hi⟩ _ ⟨⟩
      exact h.undisputed hz hi
    · intro hu
      exact ⟨h.objectsWritten_eq_zero (hu s rfl), h.items_eq (hu s rfl)⟩

private theorem childrenOf_allocating (g : Resource) :
    allocating.childrenOf g = [.minimal ⟨"ipam/v1", "IPAllocation"⟩ "x"] := by
  have hname : (Resource.minimal ⟨"ipam/v1", "IPAllocation"⟩ "x").name.isEmpty = false := by
    decide +kernel
  have hx : (allocating.exchange? (Resource.minimal ⟨"ipam/v1", "IPAllocation"⟩ "x").identity).isSome =
      true := by
    decide +kernel
  rw [childrenOf]
  change [Resource.minimal ⟨"ipam/v1", "IPAllocation"⟩ "x"].filterMap (allocating.register? g) = _
  simp [register?, Resource.adopt, hname, hx]

private theorem leaves_allocating (hn : (b.items.map Resource.identity).Nodup)
    (hs : allocating.populated b = some s) : s.DesiresLeaves := by
  intro p x new hd
  have h := populated_spec hn hs
  obtain ⟨rfl, g, -, -, hdes⟩ := h.desired?_owned hd
  have hm := (desiredBy_eq_some hdes).1
  rw [childrenOf_allocating, List.mem_singleton] at hm
  subst hm
  rw [h.controller]
  exact ⟨Resource.wellFormed_minimal _ _, by decide +kernel, by decide +kernel⟩

/-- The allocation is created and the other one flagged by the first run, and the second one finds
nothing to do. -/
theorem rerun_unchanged_iff_allocating :
    (allocating.run allocatingPackage).batch.items ≠ allocatingPackage.items ∧
    (allocating.run (allocating.run allocatingPackage).batch).batch.items =
      (allocating.run allocatingPackage).batch.items ∧
    ∀ s, allocating.populated allocatingPackage = some s → s.Undisputed := by
  have hsame : (allocating.run (allocating.run allocatingPackage).batch).report.objectsWritten = 0 ∧
      (allocating.run (allocating.run allocatingPackage).batch).batch.items =
        (allocating.run allocatingPackage).batch.items := by
    decide +kernel
  refine ⟨by decide +kernel, hsame.2,
    (rerun_unchanged_iff rfl ?_ (by decide +kernel) (by decide +kernel) ?_).1 hsame⟩
  · rintro _ _ ⟨⟩
  · have hread : ∀ s, allocating.populated allocatingPackage = some s → s.inventory.Readable := by
      decide +kernel
    exact fun s hs => ⟨hread s hs, leaves_allocating (by decide +kernel) hs⟩

def sharedPackage : Batch :=
  .ofItems [.minimal ⟨"kpt.dev/v1", "Kptfile"⟩ "pkg", .minimal ⟨"req/v1", "Interface"⟩ "a",
    .minimal ⟨"req/v1", "Interface"⟩ "b"]

/-- A shared allocation is written by each run, for the interface that does not own it. -/
theorem rerun_shared : allocating.generate = none ∧ allocating.WatchesSucceed ∧
    (sharedPackage.items.map Resource.identity).Nodup ∧
    (∃ s, allocating.populated sharedPackage = some s ∧ s.inventory.Readable) ∧
    (allocating.run (allocating.run sharedPackage).batch).report.objectsWritten = 1 ∧
    (allocating.run sharedPackage).batch.items.map (·.annotation? Resource.ownerAnnotation) =
      [none, none, none, some "req/v1.Interface.b"] ∧
    (allocating.run (allocating.run sharedPackage).batch).batch.items.map
        (·.annotation? Resource.ownerAnnotation) =
      [none, none, none, some "req/v1.Interface.a"] := by
  refine ⟨rfl, ?_, by decide +kernel⟩
  rintro _ _ ⟨⟩

end Controller

end Reconciler
