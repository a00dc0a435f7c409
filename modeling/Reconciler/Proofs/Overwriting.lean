import Reconciler.Proofs.Frame

/-! What a run does to items of the governed class: generation renders or flags them, and a child of
an owned class with their identity overwrites them. -/
namespace Reconciler

open Inventory (Due)

variable {c : Controller} {b : Batch} {s : Run} {r x : Ref} {item new : Resource}

namespace Run

/-- A governed resource without failure brings a desired child with this identity. -/
def Overwrites (s : Run) (x : Ref) : Prop := ∃ p new r, s.Brings p x new r

/-- Generation writes at this identity: it flags a present governed resource, or brings an answer of
the callback. -/
def Renders (s : Run) (x : Ref) : Prop :=
  ∃ e ∈ s.responses, s.Rendering e ∧ ∃ new, e.item = some new ∧ new.identity = x

end Run

namespace Controller

namespace Gathered

variable (h : Gathered c b s)
include h

/-- The child is declared by a governed item, and its class is owned with its resources. -/
theorem declared_of_overwrites (ho : s.Overwrites x) :
    (c.exchange? x).any Exchange.hasResource = true ∧
      ∃ g ∈ b.others s.manifestIndex, c.governs g.identity = true ∧
        ∃ child ∈ c.childrenOf g, child.identity = x := by
  obtain ⟨p, new, r, hb⟩ := ho
  obtain ⟨hid, hgov, g, hg, rfl, hnew⟩ := h.mem_of_desired hb.desired
  exact ⟨h.controller ▸ hb.exchange, g, hg, hgov, new, hnew, hid⟩

private theorem existing?_owned_of_governs (hx : c.governs x = true) (p : Ref) :
    s.inventory.existing? (.owned p x) = none := by
  cases hex : s.inventory.existing? (.owned p x) with
  | none => rfl
  | some old =>
    obtain ⟨-, -, hgov, -⟩ := h.existing?_owned hex
    rw [hx] at hgov
    cases hgov

/-- At a governed identity the commit of the children writes nothing but children with it. -/
theorem overwrites_of_writes {a : Inventory.Action} (ha : a ∈ s.childActions)
    (hi : a.effect.item = some new) (hgov : c.governs new.identity = true) :
    s.Overwrites new.identity := by
  rcases h.writes_cases ha hi with ⟨p, isUpdate, child, -, hb⟩ | ⟨p, old, -, hr⟩
  · exact ⟨p, child, new, hb⟩
  · have hex := hr.existing
    rw [h.existing?_owned_of_governs hgov] at hex
    cases hex

private theorem getElem?_updateChildren_of_governs (hgov : c.governs item.identity = true)
    (ho : ¬ s.Overwrites item.identity) {i : Nat} (hi : b.items[i]? = some item) :
    s.updateChildren.batch.items[i]? = some item := by
  obtain ⟨s', ht, he⟩ := s.updateChildren_trace
  have hthrough : Run.Through (fun e => ∃ a ∈ s.childActions, e = a.effect) s s' := by
    refine ⟨_, fun e he' => ?_, ht⟩
    obtain ⟨a, ha, rfl⟩ := List.mem_map.1 he'
    exact ⟨a, ha, rfl⟩
  rw [he]
  rw [← h.items] at hi
  refine hthrough.written.getElem?_of_ne hi ?_
  rintro new ⟨_, ⟨a, ha, rfl⟩, hnew⟩ hid
  exact ho (hid ▸ h.overwrites_of_writes ha hnew (hid ▸ hgov))

/-- An overwritten item shows a child, which names its owner. -/
theorem itemAt_of_overwrites (hgov : c.governs x = true) (ho : s.Overwrites x) :
    ∃ p new r, s.Brings p x new r ∧ ∃ old,
      Batch.itemAt s.updateChildren.batch.items x = some (Batch.merged old r) ∧
        (Batch.merged old r).isOwnedBy p = true := by
  obtain ⟨p, new, r, hb⟩ := ho
  -- a desired child that is not present is created
  obtain ⟨a, ha, -, hwrite, hitem⟩ := h.mem_of_brings hb fun exchange hm =>
    .create (fun _ => hm) (h.existing?_owned_of_governs hgov p) hb.desired
  have hid : r.identity = x := by
    rw [(Resource.sameBody_renew hb.renewed).identity, (h.mem_of_desired hb.desired).1]
  cases a with
  | write isUpdate change =>
    obtain ⟨isUpdate, change, r', ha', hr', rfl, old, hold⟩ := Run.itemAt_of_written ha hitem hid
    rcases h.writes_cases ha' hr' with ⟨q, _, child, -, hb'⟩ | ⟨q, _, heq, -⟩
    · refine ⟨q, child, r', hb', old, hold, ?_⟩
      rw [Resource.isOwnedBy, Batch.annotation?_merged, Resource.annotation?_renew hb'.renewed,
        beq_self_eq_true]
    · cases heq
  | fault => cases hwrite
  | drop => cases hwrite
  | retire => cases hwrite
  | announce => cases hwrite

end Gathered

/-- A governed item is changed only where a child of an owned class has its identity, where
generation renders or flags it, or where it is the manifest. -/
theorem governed_kept_unless_overwritten (hs : c.populated b = some s) :
    (∀ (i : Nat) item, b.items[i]? = some item → c.governs item.identity = true →
      s.Overwrites item.identity ∨ s.updateChildren.batch.items[i]? = some item) ∧
    (∀ x, c.governs x = true → s.Overwrites x →
      ((c.exchange? x).any Exchange.hasResource = true ∧
        ∃ g ∈ b.others s.manifestIndex, c.governs g.identity = true ∧
          ∃ child ∈ c.childrenOf g, child.identity = x) ∧
      ∃ p new r, s.Brings p x new r ∧ ∃ old,
        Batch.itemAt s.updateChildren.batch.items x = some (Batch.merged old r) ∧
          (Batch.merged old r).isOwnedBy p = true) ∧
    ∀ (i : Nat) item, b.items[i]? = some item → c.governs item.identity = true →
      item.identity ≠ s.manifest.source.identity →
      s.Overwrites item.identity ∨ s.updateChildren.Renders item.identity ∨
        (c.run b).batch.items[i]? = some item := by
  have h := gathered_spec hs
  refine ⟨fun i item hi hgov => ?_, fun x hgov ho => ?_, fun i item hi hgov hroot => ?_⟩
  · by_cases ho : s.Overwrites item.identity
    · exact .inl ho
    · exact .inr (h.getElem?_updateChildren_of_governs hgov ho hi)
  · exact ⟨h.declared_of_overwrites ho, h.itemAt_of_overwrites hgov ho⟩
  · by_cases ho : s.Overwrites item.identity
    · exact .inl ho
    by_cases hr : s.updateChildren.Renders item.identity
    · exact .inr (.inl hr)
    refine .inr (.inr ?_)
    rw [run_eq_of_populated hs]
    refine h.getElem?_writeManifest_of_ne h.through_arising hi hroot fun e new he hnew hid => ?_
    rcases he with ⟨a, ha, rfl⟩ | rfl | he
    · exact ho (hid ▸ h.overwrites_of_writes ha hnew (hid ▸ hgov))
    · cases hnew
    · exact hr ⟨e, he, Run.rendering_of_responses h.sound_updateChildren he, new, hnew, hid⟩

def reflecting : Controller :=
  { (ofGoverned ⟨"req/v1", "Interface"⟩).owning ⟨"req/v1", "Interface"⟩ .localOnly with
    populate := some fun g => .ok (if g.name = "a" then [nameless] else []) }
where
  nameless : Resource :=
    ⟨.object [("apiVersion", .string "req/v1"), ("kind", .string "Interface"),
      ("spec", .object [("attachment", .string "none")])]⟩

def reflectedPackage : Batch :=
  .ofItems [.minimal ⟨"kpt.dev/v1", "Kptfile"⟩ "pkg", .minimal ⟨"req/v1", "Interface"⟩ "a",
    .minimal ⟨"req/v1", "Interface"⟩ "b"]

/-- Interface `b` is kept, and interface `a` shows the child that it asks for. -/
theorem governed_kept_unless_overwritten_reflecting :
    (reflecting.run reflectedPackage).batch.items[2]? =
      some (.minimal ⟨"req/v1", "Interface"⟩ "b") ∧
    ∃ s, reflecting.populated reflectedPackage = some s ∧
      s.updateChildren.batch.items[2]? = some (.minimal ⟨"req/v1", "Interface"⟩ "b") ∧
      ∃ p item, item.isOwnedBy p = true ∧
        Batch.itemAt s.updateChildren.batch.items (Coordinate.named ⟨"req/v1", "Interface"⟩ "a") =
          some item := by
  let a : Ref := Coordinate.named ⟨"req/v1", "Interface"⟩ "a"
  let kept : Resource := .minimal ⟨"req/v1", "Interface"⟩ "b"
  obtain ⟨s, hs, hroot, hdeclared, hresponses, hfailed, hexchange, new, hnew, hok⟩ : ∃ s,
      reflecting.populated reflectedPackage = some s ∧
      kept.identity ≠ s.manifest.source.identity ∧
      (∀ g ∈ reflectedPackage.others s.manifestIndex, ∀ child ∈ reflecting.childrenOf g,
        child.identity ≠ kept.identity) ∧
      (∀ e ∈ s.updateChildren.responses, e.item = none) ∧ s.failed = [] ∧
      (s.controller.exchange? a).any Exchange.hasResource = true ∧
      ∃ new, s.inventory.desired? (.owned a a) = some new ∧ (new.renew a).isOk = true := by
    decide +kernel
  obtain ⟨hcommit, hshown, hrun⟩ := governed_kept_unless_overwritten hs
  have hnot : ¬ s.Overwrites kept.identity := by
    intro ho
    obtain ⟨⟨-, g, hg, -, child, hchild, hid⟩, -⟩ := hshown _ (by decide +kernel) ho
    exact hdeclared g hg child hchild hid
  have hrendered : ¬ s.updateChildren.Renders kept.identity := by
    rintro ⟨e, he, -, new, hnew, -⟩
    rw [hresponses e he] at hnew
    cases hnew
  have hover : s.Overwrites a := by
    obtain ⟨r, hr⟩ := exists_ok_of_isOk hok
    exact ⟨a, new, r, by simp [hfailed], hexchange, by decide +kernel, hnew, hr⟩
  refine ⟨((hrun 2 kept rfl (by decide +kernel) hroot).resolve_left hnot).resolve_left hrendered, s,
    hs, (hcommit 2 kept rfl (by decide +kernel)).resolve_left hnot, ?_⟩
  obtain ⟨-, p, new, r, -, old, hitem, howned⟩ := hshown a (by decide) hover
  exact ⟨p, _, howned, hitem⟩

/-- A child without name takes the place of the governed resource that asks for it, although governed
comes before owned wherever items are told apart. -/
theorem governed_overwritten : ¬ ∀ (c : Controller) (b : Batch) (s : Run), c.check = .ok () →
    c.populated b = some s → ∀ (i : Nat) item, b.items[i]? = some item →
      c.governs item.identity = true → s.updateChildren.batch.items[i]? = some item := by
  intro hkeep
  obtain ⟨s, hs, hchanged⟩ : ∃ s, reflecting.populated reflectedPackage = some s ∧
      s.updateChildren.batch.items[1]? ≠ some (.minimal ⟨"req/v1", "Interface"⟩ "a") := by
    decide +kernel
  exact hchanged (hkeep reflecting reflectedPackage s rfl hs 1 _ rfl (by decide +kernel))

end Controller

end Reconciler
