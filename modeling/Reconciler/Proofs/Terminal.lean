import Reconciler.Proofs.Document.Sorted
import Reconciler.Proofs.Run.FixedPoint

/-! Controllers that own nothing and render each governed resource as it is: the second run finds
everything as the first one has left it. -/
namespace Reconciler

open Inventory (Key)

variable {c : Controller} {b : Batch} {s : Run} {p x : Ref} {new child : Resource}

namespace Controller

section Populated

variable (h : Populated c b s) (hc : c.IsTerminal)
include h hc

private theorem legible_of_terminal
    (hr : ∀ g ∈ b.items, c.governs g.identity = true → (Subject.single g.identity).Readable) :
    s.inventory.Legible := by
  intro k hk hrole
  have hadmits := h.sound.admits hk
  rcases h.sound.isSome_find?_iff.1 hk with hcond | hex | hd
  · exact h.readable_of_condition? hcond
  · obtain ⟨role, owner, target⟩ := k
    cases role with
    | watched => exact absurd rfl hrole
    | governed =>
      cases owner with
      | some owner => exact hadmits.elim
      | none =>
        obtain ⟨g, hg⟩ := Option.ne_none_iff_exists'.1 hex
        obtain ⟨hm, hgov, hid⟩ := h.existing?_governed.1 hg
        rw [← hid] at hgov
        have hread := hr g (Batch.mem_of_mem_others hm) hgov
        rwa [hid] at hread
    | owned =>
      cases owner with
      | none => exact hadmits.elim
      | some owner =>
        have hx := hadmits.2
        rw [exchange?_of_isEmpty hc.owned] at hx
        cases hx
  · exact absurd (h.desired?_eq_none hc.owned k) hd

private theorem leaves_of_terminal : s.DesiresLeaves := by
  intro p x new hd
  rw [h.desired?_eq_none hc.owned] at hd
  cases hd

private theorem undisputed_of_terminal : s.Undisputed := by
  intro p q x new child hb
  have hd := hb.desired
  rw [h.desired?_eq_none hc.owned] at hd
  cases hd

end Populated

/-- Running a terminal controller twice gives the items of running it once, whether it starts, is
ready, or fails for some of the resources. -/
theorem run_run (hc : c.IsTerminal) (hn : (b.items.map Resource.identity).Nodup)
    (hw : ∀ g ∈ b.items, g.root.WellFormed)
    (hr : ∀ g ∈ b.items, c.governs g.identity = true → (Subject.single g.identity).Readable) :
    (c.run (c.run b).batch).batch.items = (c.run b).batch.items := by
  cases hs : c.populated b with
  | none => exact (rerun_of_populated_eq_none hc.watches hs).2
  | some s =>
    have h := populated_spec hn hs
    obtain ⟨s', hagain, hfirst, hsecond⟩ := exists_again (.inr hc) hc.watches hn hw hs
      (legible_of_terminal h hc hr) (leaves_of_terminal h hc)
    rw [hsecond, hfirst]
    exact hagain.items_eq (undisputed_of_terminal h hc)

def rendering : Controller :=
  { ofGoverned ⟨"req/v1", "Interface"⟩ with
    populate := some fun _ => .ok []
    generate := some fun governed _ => .ok governed }

def renderingPackage : Batch :=
  .ofItems [.minimal ⟨"kpt.dev/v1", "Kptfile"⟩ "pkg", .minimal ⟨"req/v1", "Interface"⟩ "a"]

/-- The first run changes the package, the second one does not. -/
theorem run_run_rendering : (rendering.run renderingPackage).batch.items ≠ renderingPackage.items ∧
    (rendering.run (rendering.run renderingPackage).batch).batch.items =
      (rendering.run renderingPackage).batch.items := by
  have hterminal : rendering.IsTerminal := by
    refine ⟨rfl, ?_, ⟨_, rfl, fun _ _ => rfl⟩, ?_⟩
    · rintro _ ⟨⟩ g
      rfl
    · rintro _ _ ⟨⟩
  exact ⟨by decide +kernel,
    run_run hterminal (by decide +kernel) (by decide +kernel) (by decide +kernel)⟩

end Controller

end Reconciler
