import Reconciler.Proofs.Run.Generation

/-! Which governed resources are generated, in terms of the batch and the manifest that the commit
of the children leaves. -/
namespace Reconciler

open Inventory (Key Sound)

variable {c : Controller} {b : Batch} {s t : Run} {r : Ref} {k : Key}

namespace Run

/-- The condition of a key in the manifest is there and not false. -/
def Holds (t : Run) (k : Key) : Prop :=
  Inventory.conditionHolds (t.manifest.condition? k.conditionType) = true

/-- What generating a governed resource waits for: it has not failed, no global watch is missing or
false, and neither is a watch of it or a child that is not retired. -/
def Gate (t : Run) (r : Ref) : Prop :=
  (∀ k ∈ t.inventory.entries.keys, k.isGlobalWatch = true → t.inventory.existing? k ≠ none ∧
    (t.manifest.condition? k.conditionType).any Condition.isFalse = false) ∧
  r ∉ t.failed ∧
  (∀ k ∈ t.inventory.entries.keys, k.role = .owned → k.owner = some r →
    ¬ t.inventory.Retired k → if t.controller.exchange? k.target = some .localOnly
      then t.inventory.existing? k ≠ none else t.Holds k) ∧
  ∀ k ∈ t.inventory.entries.keys, k.role = .watched → k.owner = some r → t.Holds k

instance (t : Run) (k : Key) : Decidable (t.Holds k) := inferInstanceAs (Decidable (_ = _))

instance (inv : Inventory) (k : Key) : Decidable (inv.Retired k) :=
  inferInstanceAs (Decidable (_ ∧ _))

instance (t : Run) (r : Ref) : Decidable (t.Gate r) := inferInstanceAs (Decidable (_ ∧ _))

def Outcome.generated (o : Outcome) : List Resource :=
  o.calls.filterMap fun
    | .generate governed _ => governed
    | _ => none

private theorem mem_keys : k ∈ t.inventory.entries.keys ↔ (t.inventory.find? k).isSome = true := by
  rw [SortedMap.keys, List.mem_map]
  constructor
  · rintro ⟨⟨k', e⟩, hm, rfl⟩
    rw [Inventory.find?, SortedMap.find?_eq_some_iff.2 hm]
    rfl
  · intro h
    obtain ⟨e, he⟩ := Option.isSome_iff_exists.1 h
    exact ⟨(k, e), SortedMap.find?_eq_some_iff.1 he, rfl⟩

private theorem gate_iff (h : Sound t.controller t.inventory)
    (ha : ∀ k, (t.inventory.find? k).isSome = true →
      (k.role = .owned → t.controller.exchange? k.target ≠ some .localOnly) → t.Agrees Eq k)
    (e : Inventory.Entry) : t.Gate r ↔
      t.inventory.isReady = true ∧ r ∉ t.failed ∧ (t.inventory.readiness r e).ready = true := by
  rw [Gate, Inventory.isReady_iff, Inventory.ready_readiness_iff h]
  simp only [mem_keys]
  refine and_congr ⟨fun hall target hk => ?_, fun hall k hk hw => ?_⟩
    (and_congr Iff.rfl (and_congr ⟨fun hall target hk hret => ?_, fun hall k hk hrole ho hret => ?_⟩
      ⟨fun hall target hk => ?_, fun hall k hk hrole ho => ?_⟩))
  · have hw := hall _ hk rfl
    rwa [Manifest.condition?, ← ha _ hk (by simp [Key.watched])] at hw
  · obtain ⟨role, owner, target⟩ := k
    simp only [Key.isGlobalWatch, Bool.and_eq_true, beq_iff_eq, Option.isNone_iff_eq_none] at hw
    obtain ⟨rfl, rfl⟩ := hw
    rw [Manifest.condition?, ← ha _ hk (by simp)]
    exact hall target hk
  · have hchild : if t.controller.exchange? target = some .localOnly
        then t.inventory.existing? (.owned r target) ≠ none else t.Holds (.owned r target) :=
      hall _ hk rfl rfl hret
    by_cases hl : t.controller.exchange? target = some .localOnly
    · rwa [if_pos hl] at hchild ⊢
    · rw [if_neg hl, Holds, Manifest.condition?, ← ha _ hk fun _ => hl] at hchild
      rwa [if_neg hl]
  · obtain ⟨role, owner, target⟩ := k
    cases hrole
    cases ho
    have hchild := hall target hk hret
    change if t.controller.exchange? target = some .localOnly then _ else _
    by_cases hl : t.controller.exchange? target = some .localOnly
    · rwa [if_pos hl] at hchild ⊢
    · rw [if_neg hl] at hchild
      rw [if_neg hl, Holds, Manifest.condition?, ← ha _ hk fun _ => hl]
      exact hchild
  · have hw := hall _ hk rfl rfl
    rwa [Holds, Manifest.condition?, ← ha _ hk (by simp [Key.watched])] at hw
  · obtain ⟨role, owner, target⟩ := k
    cases hrole
    cases ho
    rw [Holds, Manifest.condition?, ← ha _ hk (by simp)]
    exact hall target hk

theorem mem_generations (h : Sound t.controller t.inventory) {g : Resource}
    {resources : List Resource} : (g, resources) ∈ t.generations ↔ ∃ r e,
      t.inventory.find? (.governed r) = some e ∧ e.existing = some g ∧
        t.inventory.isReady = true ∧ r ∉ t.failed ∧ (t.inventory.readiness r e).ready = true ∧
          resources = (t.inventory.readiness r e).resources := by
  rw [generations]
  by_cases hr : t.inventory.isReady = true
  · simp only [hr, if_true, List.mem_filterMap, Prod.exists, Inventory.mem_readyMap h, generated?,
      Option.map_eq_some_iff, Option.ite_none_right_eq_some, Prod.mk.injEq, true_and]
    constructor
    · rintro ⟨r, _, ⟨e, he, rfl⟩, g', ⟨⟨hf, hready⟩, hg⟩, rfl, rfl⟩
      exact ⟨r, e, he, hg, hf, hready, rfl⟩
    · rintro ⟨r, e, he, hg, hf, hready, rfl⟩
      exact ⟨r, _, ⟨e, he, rfl⟩, g, ⟨⟨hf, hready⟩, hg⟩, rfl, rfl⟩
  · simp [hr]

private theorem generations_sorted (h : Sound t.controller t.inventory)
    (hself : ∀ r g, t.inventory.existing? (.governed r) = some g → g.identity = r) :
    (t.generations.map fun e => e.1.identity).Pairwise fun a b => compare a b = .lt := by
  rw [generations]
  split
  · rw [List.pairwise_map, List.pairwise_filterMap]
    refine List.Pairwise.imp_of_mem ?_ t.inventory.readyMap.sorted
    rintro ⟨r, readiness⟩ ⟨r', readiness'⟩ hm hm' hlt x hx x' hx'
    have hid {r : Ref} {readiness : Inventory.Readiness} {x : Resource × List Resource}
        (hm : (r, readiness) ∈ t.inventory.readyMap.entries)
        (hx : (generated? t.failed r readiness).map (fun g => (g, readiness.resources)) = some x) :
        x.1.identity = r := by
      obtain ⟨e, he, rfl⟩ := (Inventory.mem_readyMap h).1 hm
      obtain ⟨g, hg, rfl⟩ := Option.map_eq_some_iff.1 hx
      rw [generated?, Option.ite_none_right_eq_some] at hg
      exact hself r g (by rw [Inventory.existing?, Inventory.entryAt_of_find? he]; exact hg.2)
    rw [hid hm hx, hid hm' hx']
    exact hlt
  · simp

end Run

namespace Controller

namespace Gathered

variable (h : Gathered c b s)
include h

theorem governed_updateChildren (r : Ref) :
    s.updateChildren.inventory.find? (.governed r) = s.inventory.find? (.governed r) := by
  apply Run.find?_updateChildren
  intro a ha hk
  obtain ⟨-, owner, target, x, -, -, -, hdue⟩ :=
    (Run.mem_childActions (by rw [h.controller]; exact h.sound)).1 ha
  have hkey := hdue.key_eq
  rw [hk] at hkey
  cases hkey

theorem existing?_governed_updateChildren (r : Ref) :
    s.updateChildren.inventory.existing? (.governed r) = s.inventory.existing? (.governed r) :=
  (Inventory.SameAt.of_find? (h.governed_updateChildren r)).2.1

theorem agrees_updateChildren (hr : s.inventory.Readable)
    (hn : (s.manifest.conditions.map Condition.typeName).Nodup)
    (hk : (s.updateChildren.inventory.find? k).isSome = true)
    (hx : k.role = .owned → c.exchange? k.target ≠ some .localOnly) :
    s.updateChildren.Agrees Eq k := by
  have hk := Run.isSome_find?_updateChildren hk
  have hkr := hr.subject hk
  exact Run.agrees_updateChildren (fun _ => rfl) h.sound_self hr (h.sound_self.admits hk) hkr
    (h.agrees_of_isSome hn hkr hk hx)

private theorem identity_updateChildren {i : Nat} (hi : i < b.items.length) :
    ∃ r, s.updateChildren.batch.items[i]? = some r ∧ r.identity = b.items[i].identity := by
  obtain ⟨s', ht, he⟩ := s.updateChildren_trace
  have hprefix : b.items.map Resource.identity <+: s'.batch.items.map Resource.identity := by
    rw [← h.items]
    exact ht.identities_prefix
  have hlen := hprefix.length_le
  rw [List.length_map, List.length_map] at hlen
  have hid := hprefix.getElem (i := i) (by simpa using hi)
  rw [List.getElem_map, List.getElem_map] at hid
  rw [he]
  change ∃ r, s'.batch.items[i]? = some r ∧ _
  exact ⟨s'.batch.items[i], List.getElem?_eq_getElem (by omega), hid.symm⟩

private theorem generated_ofRun : (Run.Outcome.ofRun s).generated = [] := by
  rw [Run.Outcome.generated, List.filterMap_eq_nil_iff]
  intro call hcall
  cases call with
  | generate governed resources => exact absurd rfl (h.calls _ hcall governed resources)
  | watch watched r => rfl
  | populate governed => rfl

private theorem calls_run_of_none (hp : c.populated b = some s) (hg : c.generate = none) :
    (c.run b).calls = s.calls := by
  have hrun := run_of_reconciled (c := c) (b := b) (t := s.updateChildren) (by rw [reconciled, hp]; rfl)
  rw [hrun, ← Run.calls_updateChildren]
  exact (Run.unasked_generateAll (by rw [Run.controller_updateChildren, h.controller, hg])).calls

private theorem calls_run
    {generate : Option Resource → List Resource → Except Failure (Option Resource)}
    (hp : c.populated b = some s) (hg : c.generate = some generate) : ∃ synthetic : List Call,
      (∀ call ∈ synthetic, call = .generate none []) ∧ (c.run b).calls = s.calls ++ synthetic ++
        s.updateChildren.generations.map fun e => .generate (some e.1) e.2 := by
  have hrun := run_of_reconciled (c := c) (b := b) (t := s.updateChildren) (by rw [reconciled, hp]; rfl)
  have hgt : s.updateChildren.controller.generate = some generate := by
    rw [Run.controller_updateChildren, h.controller, hg]
  obtain ⟨synthetic, hsyn, hcalls⟩ := Run.calls_generateAll hgt
  refine ⟨synthetic, hsyn, ?_⟩
  rw [hrun, ← Run.calls_updateChildren]
  exact hcalls

theorem mem_generations_of_mem_calls {g : Resource} {resources : List Resource}
    (hp : c.populated b = some s) (hm : .generate (some g) resources ∈ (c.run b).calls) :
    (g, resources) ∈ s.updateChildren.generations := by
  cases hg : c.generate with
  | none =>
    rw [h.calls_run_of_none hp hg] at hm
    exact absurd rfl (h.calls _ hm _ _)
  | some generate =>
    obtain ⟨synthetic, hsyn, hcalls⟩ := h.calls_run hp hg
    rw [hcalls, List.mem_append, List.mem_append] at hm
    rcases hm with (hm | hm) | hm
    · exact absurd rfl (h.calls _ hm _ _)
    · cases hsyn _ hm
    · obtain ⟨call, hcall, he⟩ := List.mem_map.1 hm
      cases he
      exact hcall

private theorem generated_run_of_none (hp : c.populated b = some s) (hg : c.generate = none) :
    (c.run b).generated = [] := by
  rw [Run.Outcome.generated, h.calls_run_of_none hp hg]
  exact h.generated_ofRun

private theorem generated_run (hp : c.populated b = some s)
    (hg : c.generate.isSome = true) :
    (c.run b).generated = s.updateChildren.generations.map (·.1) := by
  obtain ⟨generate, hg⟩ := Option.isSome_iff_exists.1 hg
  obtain ⟨synthetic, hsyn, hcalls⟩ := h.calls_run hp hg
  rw [Run.Outcome.generated, hcalls, List.filterMap_append, List.filterMap_append]
  have hbefore : (s.calls.filterMap fun
      | Call.generate governed _ => governed
      | _ => none) = [] := h.generated_ofRun
  have hsynthetic : (synthetic.filterMap fun
      | Call.generate governed _ => governed
      | _ => none) = [] := by
    rw [List.filterMap_eq_nil_iff]
    intro call hcall
    rw [hsyn call hcall]
  rw [hbefore, hsynthetic, List.filterMap_map]
  exact congrFun (List.filterMap_eq_map (f := Prod.fst)) _

/-- The desired children of a generated resource that exchange conditions have one that holds. -/
theorem conditionHolds_of_generated {g new : Resource} {x : Ref} (hp : c.populated b = some s)
    (hg : g ∈ (c.run b).generated)
    (hd : s.inventory.desired? (.owned g.identity x) = some new)
    (hx : c.exchange? x ≠ some .localOnly) : Inventory.conditionHolds
      (s.updateChildren.inventory.condition? (.owned g.identity x)) = true := by
  cases hgen : c.generate with
  | none =>
    rw [h.generated_run_of_none hp hgen] at hg
    cases hg
  | some generate =>
    have hsound := Run.sound_updateChildren h.sound
    have hdesired : s.updateChildren.inventory.desired? (.owned g.identity x) = some new := by
      rw [Run.desired?_updateChildren, hd]
    rw [h.generated_run hp (by rw [hgen]; rfl)] at hg
    obtain ⟨⟨g', resources⟩, hm, hgg⟩ := List.mem_map.1 hg
    obtain rfl : g' = g := hgg
    obtain ⟨r, e, he, hge, -, -, hready, -⟩ := (Run.mem_generations (by
      rwa [Run.controller_updateChildren, h.controller])).1 hm
    have hpresent : s.inventory.existing? (.governed r) = some g' := by
      rw [h.governed_updateChildren] at he
      rw [Inventory.existing?, Inventory.entryAt_of_find? he, hge]
    obtain ⟨-, -, rfl⟩ := h.mem_of_governed hpresent
    have hchild := ((Inventory.ready_readiness_iff hsound).1 hready).1 x
      (hsound.isSome_find?_iff.2 (.inr (.inr (by simp [hdesired]))))
      (fun hretired => by simp [hretired.1] at hdesired)
    rwa [if_neg hx] at hchild

end Gathered

namespace Populated

variable (h : Populated c b s)
include h

private theorem exists_governed_iff : (∃ g, s.inventory.existing? (.governed r) = some g) ↔
    c.governs r = true ∧ ∃ i g, i < b.items.length ∧ i ≠ s.manifestIndex ∧
      s.updateChildren.batch.items[i]? = some g ∧ g.identity = r := by
  constructor
  · rintro ⟨g, hex⟩
    obtain ⟨ho, hgov, rfl⟩ := h.existing?_governed.1 hex
    obtain ⟨i, hi, hne⟩ := Batch.mem_others.1 ho
    obtain ⟨hlt, hi⟩ := List.getElem?_eq_some_iff.1 hi
    obtain ⟨g', hget, hid⟩ := h.identity_updateChildren hlt
    exact ⟨hgov, i, g', hlt, hne, hget, by rw [hid, hi]⟩
  · rintro ⟨hgov, i, g, hlt, hne, hget, hgr⟩
    obtain ⟨g', hget', hid⟩ := h.identity_updateChildren hlt
    cases hget.symm.trans hget'
    exact ⟨b.items[i], h.existing?_governed.2
      ⟨Batch.mem_others.2 ⟨i, List.getElem?_eq_getElem hlt, hne⟩, hgov, hid.symm.trans hgr⟩⟩

private theorem mem_generated_iff (hp : c.populated b = some s) (hg : c.generate.isSome = true)
    (ht : (s.manifest.conditions.map Condition.typeName).Nodup) (hr : s.inventory.Readable)
    {g : Resource} : g ∈ (c.run b).generated ↔
      s.inventory.existing? (.governed g.identity) = some g ∧ s.updateChildren.Gate g.identity := by
  have hgate (r : Ref) (e : Inventory.Entry) : s.updateChildren.Gate r ↔
      s.updateChildren.inventory.isReady = true ∧ r ∉ s.updateChildren.failed ∧
        (s.updateChildren.inventory.readiness r e).ready = true := by
    refine Run.gate_iff h.sound_updateChildren (fun k hk hx => h.agrees_updateChildren hr ht hk ?_) e
    rwa [Run.controller_updateChildren, h.controller] at hx
  rw [h.generated_run hp hg, ← h.existing?_governed_updateChildren]
  simp only [List.mem_map, Prod.exists, exists_and_right, exists_eq_right,
    Run.mem_generations h.sound_updateChildren]
  constructor
  · rintro ⟨resources, r, e, he, hge, hready, hf, hres, -⟩
    have hex : s.updateChildren.inventory.existing? (.governed r) = some g := by
      rw [Inventory.existing?, Inventory.entryAt_of_find? he, hge]
    obtain ⟨-, -, rfl⟩ := h.existing?_governed.1 ((h.existing?_governed_updateChildren r).symm.trans hex)
    exact ⟨hex, (hgate _ e).2 ⟨hready, hf, hres⟩⟩
  · rintro ⟨hex, hopen⟩
    cases he : s.updateChildren.inventory.find? (.governed g.identity) with
    | none =>
      rw [Inventory.existing?, Inventory.entryAt, he] at hex
      cases hex
    | some e =>
      rw [Inventory.existing?, Inventory.entryAt_of_find? he] at hex
      obtain ⟨hready, hf, hres⟩ := (hgate _ e).1 hopen
      exact ⟨_, g.identity, e, he, hex, hready, hf, hres, rfl⟩

end Populated

/-- A governed resource of the package is generated exactly if its gate stands open when generation
starts, at most once, in the order of references. -/
theorem generated_iff_gate (hn : (b.items.map Resource.identity).Nodup)
    (hp : c.populated b = some s) (hg : c.generate.isSome = true)
    (ht : (s.manifest.conditions.map Condition.typeName).Nodup) (hr : s.inventory.Readable) :
    (∀ r, (∃ g ∈ (c.run b).generated, g.identity = r) ↔
      c.governs r = true ∧ (∃ i g, i < b.items.length ∧ i ≠ s.manifestIndex ∧
        s.updateChildren.batch.items[i]? = some g ∧ g.identity = r) ∧ s.updateChildren.Gate r) ∧
    ((c.run b).generated.map Resource.identity).Pairwise (fun a b => compare a b = .lt) ∧
    ∀ g ∈ (c.run b).generated, g ∈ b.others s.manifestIndex := by
  have h := populated_spec hn hp
  have hmem {g : Resource} := h.mem_generated_iff hp hg ht hr (g := g)
  refine ⟨fun r => ?_, ?_, fun g hg' => (h.existing?_governed.1 (hmem.1 hg').1).1⟩
  · constructor
    · rintro ⟨g, hg', rfl⟩
      obtain ⟨hex, hopen⟩ := hmem.1 hg'
      obtain ⟨hgov, hplace⟩ := h.exists_governed_iff.1 ⟨g, hex⟩
      exact ⟨hgov, hplace, hopen⟩
    · rintro ⟨hgov, hplace, hopen⟩
      obtain ⟨g, hex⟩ := h.exists_governed_iff.2 ⟨hgov, hplace⟩
      obtain ⟨-, -, rfl⟩ := h.existing?_governed.1 hex
      exact ⟨g, hmem.2 ⟨hex, hopen⟩, rfl⟩
  · rw [h.generated_run hp hg, List.map_map]
    apply Run.generations_sorted h.sound_updateChildren
    intro r g hex
    rw [h.existing?_governed_updateChildren] at hex
    exact (h.existing?_governed.1 hex).2.2

def nesting : Controller :=
  { (ofGoverned ⟨"req/v1", "Interface"⟩).owning ⟨"req/v1", "Interface"⟩ .localOnly with
    populate := some fun parent => .ok (if parent.name = "a"
      then [.minimal ⟨"req/v1", "Interface"⟩ "b"] else [])
    generate := some fun governed _ => .ok governed }

def nestingPackage : Batch :=
  .ofItems [.minimal ⟨"kpt.dev/v1", "Kptfile"⟩ "pkg", .minimal ⟨"req/v1", "Interface"⟩ "a"]

/-- The first interface is generated. -/
theorem generated_iff_gate_nesting : ∃ g ∈ (nesting.run nestingPackage).generated,
    g.identity = Coordinate.named ⟨"req/v1", "Interface"⟩ "a" := by
  let a : Resource := .minimal ⟨"req/v1", "Interface"⟩ "a"
  obtain ⟨s, hs, htypes, hread, hplace, hitem, hgate⟩ : ∃ s,
      nesting.populated nestingPackage = some s ∧
      (s.manifest.conditions.map Condition.typeName).Nodup ∧ s.inventory.Readable ∧
      1 ≠ s.manifestIndex ∧ s.updateChildren.batch.items[1]? = some a ∧
      s.updateChildren.Gate a.identity := by
    decide +kernel
  exact ((generated_iff_gate (by decide +kernel) hs rfl htypes hread).1 a.identity).2
    ⟨by decide +kernel, ⟨1, a, by decide +kernel, hplace, hitem, rfl⟩, hgate⟩

/-- An interface that is created in the run itself stands at an open gate and is not generated. -/
theorem created_not_generated : ∃ s, nesting.populated nestingPackage = some s ∧
    (nestingPackage.items.map Resource.identity).Nodup ∧
    (s.manifest.conditions.map Condition.typeName).Nodup ∧ s.inventory.Readable ∧
    nesting.governs (Coordinate.named ⟨"req/v1", "Interface"⟩ "b") = true ∧
    (∃ g ∈ s.updateChildren.batch.items,
      g.identity = Coordinate.named ⟨"req/v1", "Interface"⟩ "b") ∧
    s.updateChildren.Gate (Coordinate.named ⟨"req/v1", "Interface"⟩ "b") ∧
    ¬ ∃ g ∈ (nesting.run nestingPackage).generated,
      g.identity = Coordinate.named ⟨"req/v1", "Interface"⟩ "b" := by
  decide +kernel

end Controller

end Reconciler
