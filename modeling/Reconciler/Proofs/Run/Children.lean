import Reconciler.Proofs.Run.Survey

/-! The children that governed resources ask for. Of the children with one identity the last one is
desired, and asking changes nothing else but the failures. -/
namespace Reconciler

open Inventory (Key Sound)

variable {c : Controller} {b : Batch} {s : Run} {parent child : Resource}

def Resource.adopt (parent child : Resource) : Except Fault Resource :=
  if child.name.isEmpty then child.setName parent.name else .ok child

namespace Controller

/-- A child as it is recorded, if it can be named and is of an owned class. -/
def register? (c : Controller) (parent child : Resource) : Option Resource :=
  match parent.adopt child with
  | .error _ => none
  | .ok child => if (c.exchange? child.identity).isSome then some child else none

def childrenOf (c : Controller) (parent : Resource) : List Resource :=
  match c.populate with
  | none => []
  | some populate =>
    match populate parent with
    | .error _ => []
    | .ok children => children.filterMap (c.register? parent)

/-- The desired child with an identity: the last one counts. -/
def desiredBy (c : Controller) (parent : Resource) (target : Ref) : Option Resource :=
  (c.childrenOf parent).reverse.find? fun child => child.identity == target

/-- The governed resource gives no children, or one that cannot be recorded. -/
def Misdeclares (c : Controller) (parent : Resource) : Prop :=
  ∃ populate, c.populate = some populate ∧ ((∃ failure, populate parent = .error failure) ∨
    ∃ children, populate parent = .ok children ∧
      ∃ child ∈ children, c.register? parent child = none)

theorem register?_eq_some {r : Resource} (h : c.register? parent child = some r) :
    parent.adopt child = .ok r ∧ (c.exchange? r.identity).isSome = true := by
  rw [register?] at h
  split at h
  · cases h
  · rename_i r' hr
    simp only [Option.ite_none_right_eq_some, Option.some.injEq] at h
    exact ⟨h.2 ▸ hr, h.2 ▸ h.1⟩

theorem desiredBy_eq_some {target : Ref} {r : Resource} (h : c.desiredBy parent target = some r) :
    r ∈ c.childrenOf parent ∧ r.identity = target := by
  have hid := List.find?_some (p := fun child : Resource => child.identity == target) h
  exact ⟨List.mem_reverse.1 (List.mem_of_find?_eq_some h), beq_iff_eq.1 hid⟩

/-- Only a controller that asks for children has some, of the classes that it owns. -/
theorem mem_childrenOf {r : Resource} (hm : r ∈ c.childrenOf parent) :
    c.populate.isSome = true ∧ (c.exchange? r.identity).isSome = true := by
  rw [childrenOf] at hm
  cases hp : c.populate with
  | none =>
    rw [hp] at hm
    cases hm
  | some populate =>
    rw [hp] at hm
    simp only at hm
    split at hm
    · cases hm
    · obtain ⟨child, -, hr⟩ := List.mem_filterMap.1 hm
      exact ⟨rfl, (register?_eq_some hr).2⟩

end Controller

namespace Run

/-- Asking for children leaves all but failures and desired resources alone. -/
structure Asked (s s' : Run) : Prop where
  controller : s'.controller = s.controller
  manifestIndex : s'.manifestIndex = s.manifestIndex
  manifest : s'.manifest = s.manifest
  items : s'.batch.items = s.batch.items
  objectsWritten : s'.report.objectsWritten = s.report.objectsWritten
  existing? : ∀ k, s'.inventory.existing? k = s.inventory.existing? k
  condition? : ∀ k, s'.inventory.condition? k = s.inventory.condition? k

private theorem Asked.refl (s : Run) : Asked s s :=
  ⟨rfl, rfl, rfl, rfl, rfl, fun _ => rfl, fun _ => rfl⟩

private theorem Asked.trans {s' s'' : Run} (h : Asked s s') (h' : Asked s' s'') : Asked s s'' where
  controller := h'.controller.trans h.controller
  manifestIndex := h'.manifestIndex.trans h.manifestIndex
  manifest := h'.manifest.trans h.manifest
  items := h'.items.trans h.items
  objectsWritten := h'.objectsWritten.trans h.objectsWritten
  existing? k := (h'.existing? k).trans (h.existing? k)
  condition? k := (h'.condition? k).trans (h.condition? k)

private theorem asked_fail (s : Run) (owner place : Ref) (message : String) :
    Asked s (s.fail owner place message) :=
  ⟨rfl, rfl, rfl, rfl, rfl, fun _ => rfl, fun _ => rfl⟩

private theorem asked_logCall (s : Run) (call : Call) : Asked s (s.logCall call) :=
  ⟨rfl, rfl, rfl, rfl, rfl, fun _ => rfl, fun _ => rfl⟩

private theorem mem_failed_fail {s : Run} {owner place o : Ref} {message : String} :
    o ∈ (s.fail owner place message).failed ↔ o ∈ s.failed ∨ o = owner := by
  rw [fail]
  simp only
  split
  · rename_i hm
    exact ⟨.inl, fun h => h.elim id fun he => he ▸ hm⟩
  · simp

section RegisterChild

theorem registerChild_of_none (h : s.controller.register? parent child = none) :
    ∃ message, registerChild parent s child = s.fail parent.identity parent.reference message := by
  simp only [Controller.register?, Resource.adopt] at h
  rw [registerChild]
  simp only
  split
  · exact ⟨_, rfl⟩
  · rename_i r hr
    rw [hr] at h
    simp only [ite_eq_right_iff, reduceCtorEq, imp_false, Bool.not_eq_true,
      Option.isSome_eq_false_iff, Option.isNone_iff_eq_none] at h
    rw [h]
    exact ⟨_, rfl⟩

theorem registerChild_of_some {r : Resource}
    (h : s.controller.register? parent child = some r) :
    registerChild parent s child = { s with
      inventory := s.inventory.addDesired (.owned parent.identity r.identity)
        (s.controller.exchange? r.identity) r } := by
  obtain ⟨hr, hx⟩ := Controller.register?_eq_some h
  obtain ⟨x, hx⟩ := Option.isSome_iff_exists.1 hx
  rw [Resource.adopt] at hr
  rw [registerChild, hr]
  simp only [hx]

private theorem asked_registerChild (s : Run) (parent child : Resource) :
    Asked s (registerChild parent s child) := by
  cases h : s.controller.register? parent child with
  | none =>
    obtain ⟨message, he⟩ := registerChild_of_none h
    rw [he]
    exact asked_fail ..
  | some r =>
    rw [registerChild_of_some h]
    exact ⟨rfl, rfl, rfl, rfl, rfl, fun _ => Inventory.existing?_addDesired,
      fun _ => Inventory.condition?_addDesired⟩

theorem asked_registerChildren (children : List Resource) (s : Run) (parent : Resource) :
    Asked s (children.foldl (registerChild parent) s) := by
  induction children generalizing s with
  | nil => exact .refl s
  | cons child children ih => exact (asked_registerChild s parent child).trans (ih _)

private theorem desired?_registerChildren (children : List Resource) (s : Run) (parent : Resource)
    (k : Key) : (children.foldl (registerChild parent) s).inventory.desired? k =
      (((children.filterMap (s.controller.register? parent)).reverse.find? fun r =>
        decide (k = .owned parent.identity r.identity)).or (s.inventory.desired? k)) := by
  induction children generalizing s with
  | nil => rfl
  | cons child children ih =>
    rw [List.foldl_cons, ih, (asked_registerChild s parent child).controller]
    cases h : s.controller.register? parent child with
    | none =>
      obtain ⟨message, he⟩ := registerChild_of_none h
      rw [he, List.filterMap_cons_none h]
      rfl
    | some r =>
      rw [registerChild_of_some h, List.filterMap_cons_some h, List.reverse_cons,
        List.find?_append, Inventory.desired?_addDesired, Option.or_assoc]
      by_cases hk : k = .owned parent.identity r.identity
      · simp [hk]
      · simp [hk]

private theorem failed_registerChildren (children : List Resource) (s : Run) (parent : Resource)
    (o : Ref) : o ∈ (children.foldl (registerChild parent) s).failed ↔ o ∈ s.failed ∨
      o = parent.identity ∧ ∃ child ∈ children, s.controller.register? parent child = none := by
  induction children generalizing s with
  | nil => simp
  | cons child children ih =>
    rw [List.foldl_cons, ih, (asked_registerChild s parent child).controller]
    cases h : s.controller.register? parent child with
    | none =>
      obtain ⟨message, he⟩ := registerChild_of_none h
      rw [he, mem_failed_fail]
      simp only [List.mem_cons, exists_eq_or_imp, h, true_or, and_true]
      grind
    | some r =>
      rw [registerChild_of_some h]
      simp [h]

private theorem sound_registerChildren (children : List Resource) {s : Run} {parent : Resource}
    (hg : c.governs parent.identity = true) (hc : s.controller = c) (h : Sound c s.inventory) :
    Sound c (children.foldl (registerChild parent) s).inventory := by
  induction children generalizing s with
  | nil => exact h
  | cons child children ih =>
    refine ih ((asked_registerChild s parent child).controller.trans hc) ?_
    cases hr : s.controller.register? parent child with
    | none =>
      obtain ⟨message, he⟩ := registerChild_of_none hr
      rw [he]
      exact h
    | some r =>
      rw [registerChild_of_some hr, hc]
      have hx := (Controller.register?_eq_some hr).2
      rw [hc] at hx
      exact h.addDesired ⟨hg, hx⟩ (by simp [Controller.exchangeOf, Key.owned])

private theorem calls_registerChildren (children : List Resource) (s : Run) (parent : Resource) :
    (children.foldl (registerChild parent) s).calls = s.calls := by
  induction children generalizing s with
  | nil => rfl
  | cons child children ih =>
    rw [List.foldl_cons, ih]
    cases h : s.controller.register? parent child with
    | none =>
      obtain ⟨message, he⟩ := registerChild_of_none h
      rw [he]
      rfl
    | some r => rw [registerChild_of_some h]

end RegisterChild

section PopulateParent

variable {populate : Resource → Except Failure (List Resource)}

private theorem populateParent_spec (hp : s.controller.populate = some populate)
    (parent : Resource) : Asked s (populateParent populate s parent) ∧
      (∀ k, (populateParent populate s parent).inventory.desired? k =
        ((s.controller.childrenOf parent).reverse.find? fun r =>
          decide (k = .owned parent.identity r.identity)).or (s.inventory.desired? k)) ∧
      (∀ o, o ∈ (populateParent populate s parent).failed ↔
        o ∈ s.failed ∨ o = parent.identity ∧ s.controller.Misdeclares parent) ∧
      (populateParent populate s parent).calls = s.calls ++ [.populate parent] := by
  rw [populateParent, Controller.childrenOf, hp]
  simp only
  have hmis : s.controller.Misdeclares parent ↔ ((∃ failure, populate parent = .error failure) ∨
      ∃ children, populate parent = .ok children ∧
        ∃ child ∈ children, s.controller.register? parent child = none) := by
    simp [Controller.Misdeclares, hp]
  rw [hmis]
  have hlog := asked_logCall s (.populate parent)
  cases he : populate parent with
  | error failure =>
    refine ⟨hlog.trans (asked_fail ..), fun k => rfl, fun o => ?_, rfl⟩
    simp only [mem_failed_fail]
    simp [logCall]
  | ok children =>
    refine ⟨hlog.trans (asked_registerChildren children _ parent),
      desired?_registerChildren children (s.logCall (.populate parent)) parent, fun o => ?_,
      calls_registerChildren children (s.logCall (.populate parent)) parent⟩
    simp only [failed_registerChildren]
    simp [logCall]

private theorem sound_populateParent (hc : s.controller = c)
    (hg : c.governs parent.identity = true) (h : Sound c s.inventory) :
    Sound c (populateParent populate s parent).inventory := by
  rw [populateParent]
  cases populate parent with
  | error failure => exact h
  | ok children => exact sound_registerChildren children hg hc h

end PopulateParent

section PopulateChildren

def parents (s : Run) : List Resource := s.inventory.governed.filterMap fun e => e.2.existing

theorem mem_parents {g : Resource} (h : Sound s.controller s.inventory) : g ∈ s.parents ↔
    ∃ target, s.inventory.existing? (.governed target) = some g := by
  simp only [parents, Inventory.governed, Inventory.select, List.mem_filterMap, List.mem_map,
    List.mem_filter, beq_iff_eq]
  constructor
  · rintro ⟨_, ⟨⟨k, e⟩, ⟨hm, hr⟩, rfl⟩, hg⟩
    have hf := SortedMap.find?_eq_some_iff.2 hm
    obtain ⟨ha, -, -⟩ := h k e hf
    obtain ⟨role, owner, target⟩ := k
    cases hr
    cases owner with
    | some o => exact ha.elim
    | none =>
      have hf : s.inventory.find? (.governed target) = some e := hf
      refine ⟨target, ?_⟩
      rw [Inventory.existing?, Inventory.entryAt_of_find? hf]
      exact hg
  · rintro ⟨target, hg⟩
    cases hf : s.inventory.find? (.governed target) with
    | none =>
      rw [Inventory.existing?, Inventory.entryAt, hf] at hg
      cases hg
    | some e =>
      rw [Inventory.existing?, Inventory.entryAt_of_find? hf] at hg
      exact ⟨(target, e), ⟨(.governed target, e),
        ⟨SortedMap.find?_eq_some_iff.1 hf, rfl⟩, rfl⟩, hg⟩

theorem populateParents_spec {populate : Resource → Except Failure (List Resource)}
    (hp : s.controller.populate = some populate) (parents : List Resource) :
    let s' := parents.foldl (populateParent populate) s
    Asked s s' ∧
      (∀ k, s'.inventory.desired? k = (parents.reverse.findSome? fun parent =>
        (s.controller.childrenOf parent).reverse.find? fun r =>
          decide (k = .owned parent.identity r.identity)).or (s.inventory.desired? k)) ∧
      (∀ o, o ∈ s'.failed ↔ o ∈ s.failed ∨
        ∃ parent ∈ parents, o = parent.identity ∧ s.controller.Misdeclares parent) ∧
      s'.calls = s.calls ++ parents.map .populate := by
  induction parents generalizing s with
  | nil => exact ⟨.refl s, fun k => rfl, fun o => by simp, by simp⟩
  | cons parent parents ih =>
    obtain ⟨ha, hd, hf, hcalls⟩ := populateParent_spec hp parent
    obtain ⟨ha', hd', hf', hcalls'⟩ := ih (s := populateParent populate s parent)
      (by rw [ha.controller, hp])
    rw [ha.controller] at hd' hf'
    refine ⟨ha.trans ha', fun k => ?_, fun o => ?_, ?_⟩
    · rw [List.foldl_cons, hd', hd, List.reverse_cons, List.findSome?_append, Option.or_assoc]
      simp
    · rw [List.foldl_cons, hf', hf]
      simp [or_assoc]
    · rw [List.foldl_cons, hcalls', hcalls]
      simp

private theorem sound_populateParents {populate : Resource → Except Failure (List Resource)}
    (hp : s.controller.populate = some populate) (hc : s.controller = c) (parents : List Resource)
    (hg : ∀ parent ∈ parents, c.governs parent.identity = true) (h : Sound c s.inventory) :
    Sound c (parents.foldl (populateParent populate) s).inventory := by
  induction parents generalizing s with
  | nil => exact h
  | cons parent parents ih =>
    have ha := (populateParent_spec hp parent).1
    refine ih (by rw [ha.controller, hp]) (ha.controller.trans hc)
      (fun p hm => hg p (List.mem_cons_of_mem _ hm)) ?_
    exact sound_populateParent hc (hg parent List.mem_cons_self) h

/-- What asking for the children does. -/
theorem populateChildren_spec (s : Run) : Asked s s.populateChildren ∧
    (∀ k, s.populateChildren.inventory.desired? k = (s.parents.reverse.findSome? fun parent =>
      (s.controller.childrenOf parent).reverse.find? fun r =>
        decide (k = .owned parent.identity r.identity)).or (s.inventory.desired? k)) ∧
    (∀ o, o ∈ s.populateChildren.failed ↔ o ∈ s.failed ∨
      ∃ parent ∈ s.parents, o = parent.identity ∧ s.controller.Misdeclares parent) ∧
    (∀ call ∈ s.populateChildren.calls, call ∈ s.calls ∨ ∃ parent, call = .populate parent) := by
  rw [populateChildren]
  cases hp : s.controller.populate with
  | none =>
    refine ⟨⟨rfl, rfl, rfl, rfl, rfl, fun _ => rfl, fun _ => rfl⟩, fun k => ?_, fun o => ?_,
      fun call hcall => .inl hcall⟩
    · have hnone : (s.parents.reverse.findSome? fun parent =>
          (s.controller.childrenOf parent).reverse.find? fun r =>
            decide (k = .owned parent.identity r.identity)) = none := by
        simp [List.findSome?_eq_none_iff, Controller.childrenOf, hp]
      rw [hnone]
      rfl
    · simp [Controller.Misdeclares, hp, atStage]
  | some populate =>
    obtain ⟨ha, hd, hf, hcalls⟩ := populateParents_spec hp s.parents
    refine ⟨⟨ha.controller, ha.manifestIndex, ha.manifest, ha.items, ha.objectsWritten,
      ha.existing?, ha.condition?⟩, hd, hf, fun call hcall => ?_⟩
    have hcall : call ∈ (s.parents.foldl (populateParent populate) s).calls := hcall
    rw [hcalls, List.mem_append, List.mem_map] at hcall
    rcases hcall with hcall | ⟨parent, -, he⟩
    · exact .inl hcall
    · exact .inr ⟨parent, he.symm⟩

theorem sound_populateChildren (hc : s.controller = c)
    (hg : ∀ parent ∈ s.parents, c.governs parent.identity = true) (h : Sound c s.inventory) :
    Sound c s.populateChildren.inventory := by
  rw [populateChildren]
  cases hp : s.controller.populate with
  | none => exact h
  | some populate => exact sound_populateParents hp hc _ hg h

end PopulateChildren

end Run

namespace Controller

/-- The state of a run once the children were asked for, unless the run is aborted before. -/
def populated (c : Controller) (b : Batch) : Option Run :=
  (c.surveyed b).map Run.populateChildren

/-- What is known of a run once the children were asked for, whether or not items share identities:
what stands at a key belongs there. -/
structure Gathered (c : Controller) (b : Batch) (s : Run) : Prop where
  check : c.check = .ok ()
  controller : s.controller = c
  items : s.batch.items = b.items
  root : b.rootManifest? = some (s.manifestIndex, s.manifest.source)
  manifest : Manifest.ofResource s.manifest.source = .ok s.manifest
  sound : Sound c s.inventory
  mem_of_existing? : ∀ k r, s.inventory.existing? k = some r →
    r ∈ b.others s.manifestIndex ∧ c.keyOf r = some k
  mem_of_desired? : ∀ k r, s.inventory.desired? k = some r → ∃ g ∈ b.others s.manifestIndex,
    c.governs g.identity = true ∧ r ∈ c.childrenOf g ∧ k = .owned g.identity r.identity
  condition : ∀ k, s.inventory.condition? k =
    if Inventory.takes c (s.inventory.existing? k).isSome k = true then
      s.manifest.conditions.reverse.find? fun x =>
        Subject.ofTypeName? x.typeName == some k.subject
    else none
  calls : ∀ call ∈ s.calls, ∀ governed resources, call ≠ .generate governed resources

/-- What is known in addition if no two items share an identity: each item stands at its key, and
each desired child at its parent. -/
structure Populated (c : Controller) (b : Batch) (s : Run) : Prop extends Gathered c b s where
  existing : ∀ k r, s.inventory.existing? k = some r ↔
    r ∈ b.others s.manifestIndex ∧ c.keyOf r = some k
  desired : ∀ k r, s.inventory.desired? k = some r ↔ ∃ g target, k = .owned g.identity target ∧
    s.inventory.existing? (.governed g.identity) = some g ∧ c.desiredBy g target = some r
  failed : ∀ o, o ∈ s.failed ↔
    ∃ g, s.inventory.existing? (.governed o) = some g ∧ c.Misdeclares g
  objectsWritten : s.report.objectsWritten = 0

private theorem find?_owned (l : List Resource) (p : Ref) (k : Key) (r : Resource) :
    (l.reverse.find? fun x => decide (k = .owned p x.identity)) = some r ↔
      ∃ target, k = .owned p target ∧
        (l.reverse.find? fun x => x.identity == target) = some r := by
  have hp (target : Ref) : (fun x : Resource => decide (Key.owned p target = .owned p x.identity)) =
      fun x => x.identity == target := by
    funext x
    rw [Bool.eq_iff_iff, decide_eq_true_iff, beq_iff_eq]
    simp only [Key.owned, Key.mk.injEq, true_and]
    exact eq_comm
  constructor
  · intro h
    have hk := List.find?_some (p := fun x : Resource => decide (k = .owned p x.identity)) h
    simp only [decide_eq_true_eq] at hk
    subst hk
    exact ⟨r.identity, rfl, hp r.identity ▸ h⟩
  · rintro ⟨target, rfl, h⟩
    exact hp target ▸ h

private theorem findSome?_owned {parents : List Resource}
    (hone : ∀ g ∈ parents, ∀ g' ∈ parents, g'.identity = g.identity → g' = g) (k : Key)
    (r : Resource) :
    (parents.reverse.findSome? fun parent => (c.childrenOf parent).reverse.find? fun x =>
        decide (k = .owned parent.identity x.identity)) = some r ↔
      ∃ g ∈ parents, ∃ target, k = .owned g.identity target ∧ c.desiredBy g target = some r := by
  constructor
  · intro hfound
    obtain ⟨g, hg, hr⟩ := List.exists_of_findSome?_eq_some hfound
    obtain ⟨target, hk, hr⟩ := (find?_owned _ _ _ _).1 hr
    exact ⟨g, List.mem_reverse.1 hg, target, hk, hr⟩
  · rintro ⟨g, hg, target, rfl, hr⟩
    have hfind := (find?_owned _ g.identity _ _).2 ⟨target, rfl, hr⟩
    cases hfound : parents.reverse.findSome? fun parent =>
        (c.childrenOf parent).reverse.find? fun x =>
          decide (Key.owned g.identity target = .owned parent.identity x.identity) with
    | none =>
      rw [List.findSome?_eq_none_iff] at hfound
      rw [hfound g (List.mem_reverse.2 hg)] at hfind
      cases hfind
    | some r' =>
      obtain ⟨g', hg', hr'⟩ := List.exists_of_findSome?_eq_some hfound
      obtain ⟨target', hk, -⟩ := (find?_owned _ _ _ _).1 hr'
      have hid : g'.identity = g.identity := by
        simp only [Key.owned, Key.mk.injEq, Option.some.injEq, true_and] at hk
        exact hk.1.symm
      rw [hone g hg g' (List.mem_reverse.1 hg') hid] at hr'
      exact hr'.symm.trans hfind

theorem Surveyed.desired? (h : Surveyed c b s) (k : Key) : s.inventory.desired? k = none := by
  rw [h.inventory, Inventory.desired?_survey]

theorem Surveyed.gathered (h : Surveyed c b s) : Gathered c b s where
  check := h.check
  controller := h.controller
  items := congrArg Batch.items h.batch
  root := h.root
  manifest := h.manifest
  sound := by
    rw [h.inventory]
    exact Inventory.sound_survey _ _ _
  mem_of_existing? k r hr := by
    rw [h.inventory] at hr
    exact Inventory.mem_of_existing?_survey hr
  mem_of_desired? k r hr := by
    rw [h.desired?] at hr
    cases hr
  condition k := by rw [h.inventory, Inventory.condition?_survey]
  calls := by
    rintro call hcall governed resources rfl
    obtain ⟨watched, r, he⟩ := h.calls _ hcall
    cases he

namespace Gathered

variable (h : Gathered c b s) {k : Key} {r : Ref} {g : Resource}
include h

theorem sound_self : Sound s.controller s.inventory :=
  h.controller ▸ h.sound

/-- What is recorded as a governed resource is governed, and recorded under its own identity. -/
theorem mem_of_governed (hg : s.inventory.existing? (.governed r) = some g) :
    g ∈ b.others s.manifestIndex ∧ c.governs r = true ∧ g.identity = r := by
  obtain ⟨hm, hk⟩ := h.mem_of_existing? _ _ hg
  exact ⟨hm, keyOf_governed_iff.1 hk⟩

theorem mem_parents : g ∈ s.parents ↔ s.inventory.existing? (.governed g.identity) = some g := by
  rw [Run.mem_parents h.sound_self]
  constructor
  · rintro ⟨target, hg⟩
    obtain ⟨-, -, rfl⟩ := h.mem_of_governed hg
    exact hg
  · intro hg
    exact ⟨_, hg⟩

private theorem parent_eq_of_identity {g' : Resource} (hg : g ∈ s.parents) (hg' : g' ∈ s.parents)
    (hid : g'.identity = g.identity) : g' = g := by
  have hrec := h.mem_parents.1 hg'
  rw [hid, h.mem_parents.1 hg] at hrec
  exact (Option.some.inj hrec).symm

end Gathered

theorem gathered_spec (h : c.populated b = some s) : Gathered c b s := by
  obtain ⟨s₀, hs₀, rfl⟩ := Option.map_eq_some_iff.1 h
  have hspec := surveyed_spec hs₀
  have h₀ := hspec.gathered
  have hparents {g : Resource} (hg : g ∈ s₀.parents) :
      g ∈ b.others s₀.manifestIndex ∧ c.governs g.identity = true := by
    obtain ⟨hm, hgov, -⟩ := h₀.mem_of_governed (h₀.mem_parents.1 hg)
    exact ⟨hm, hgov⟩
  obtain ⟨ha, hd, -, hcalls⟩ := s₀.populateChildren_spec
  rw [h₀.controller] at hd
  exact {
    check := h₀.check
    controller := ha.controller.trans h₀.controller
    items := ha.items.trans h₀.items
    root := by rw [ha.manifestIndex, ha.manifest, h₀.root]
    manifest := by rw [ha.manifest, h₀.manifest]
    sound := Run.sound_populateChildren h₀.controller (fun g hg => (hparents hg).2) h₀.sound
    mem_of_existing? := by
      intro k r hr
      rw [ha.existing?] at hr
      rw [ha.manifestIndex]
      exact h₀.mem_of_existing? k r hr
    mem_of_desired? := by
      intro k r hr
      rw [hd, hspec.desired?, Option.or_none] at hr
      obtain ⟨g, hg, hr⟩ := List.exists_of_findSome?_eq_some hr
      obtain ⟨hm, hgov⟩ := hparents (List.mem_reverse.1 hg)
      have hk := List.find?_some (p := fun x : Resource => decide (k = .owned g.identity x.identity)) hr
      rw [ha.manifestIndex]
      exact ⟨g, hm, hgov, List.mem_reverse.1 (List.mem_of_find?_eq_some hr), of_decide_eq_true hk⟩
    condition := by
      intro k
      rw [ha.condition?, ha.existing?, ha.manifest, h₀.condition]
    calls := by
      rintro call hcall governed resources rfl
      rcases hcalls _ hcall with hcall | ⟨parent, he⟩
      · exact h₀.calls _ hcall governed resources rfl
      · cases he }

theorem populated_spec (hn : (b.items.map Resource.identity).Nodup)
    (h : c.populated b = some s) : Populated c b s := by
  have hgathered := gathered_spec h
  obtain ⟨s₀, hs₀, rfl⟩ := Option.map_eq_some_iff.1 h
  have hspec := surveyed_spec hs₀
  have h₀ := hspec.gathered
  obtain ⟨ha, hd, hf, -⟩ := s₀.populateChildren_spec
  rw [hspec.controller] at hd hf
  exact {
    toGathered := hgathered
    existing := by
      intro k r
      rw [ha.existing?, hspec.inventory, Inventory.existing?_survey (Batch.nodup_others hn _),
        ha.manifestIndex]
    desired := by
      intro k r
      rw [hd, hspec.inventory, Inventory.desired?_survey, Option.or_none,
        findSome?_owned fun g hg g' hg' => h₀.parent_eq_of_identity hg hg']
      constructor
      · rintro ⟨g, hg, target, hk, hr⟩
        exact ⟨g, target, hk, (ha.existing? _).trans (h₀.mem_parents.1 hg), hr⟩
      · rintro ⟨g, target, hk, hg, hr⟩
        rw [ha.existing?] at hg
        exact ⟨g, h₀.mem_parents.2 hg, target, hk, hr⟩
    failed := by
      intro o
      rw [hf, hspec.failed]
      simp only [List.not_mem_nil, false_or, ha.existing?]
      constructor
      · rintro ⟨g, hg, rfl, hm⟩
        exact ⟨g, h₀.mem_parents.1 hg, hm⟩
      · rintro ⟨g, hg, hm⟩
        obtain ⟨-, -, rfl⟩ := h₀.mem_of_governed hg
        exact ⟨g, h₀.mem_parents.2 hg, rfl, hm⟩
    objectsWritten := ha.objectsWritten.trans hspec.objectsWritten }

theorem Populated.existing?_governed (h : Populated c b s) {r : Ref} {g : Resource} :
    s.inventory.existing? (.governed r) = some g ↔
      g ∈ b.others s.manifestIndex ∧ c.governs r = true ∧ g.identity = r := by
  rw [h.existing, keyOf_governed_iff]

namespace Gathered

variable (h : Gathered c b s) {k : Key}
include h

/-- A readable key takes the last condition of its type. -/
theorem condition?_of_readable (hk : k.subject.Readable) :
    s.inventory.condition? k =
      if Inventory.takes c (s.inventory.existing? k).isSome k = true then
        s.manifest.conditions.reverse.find? fun x => x.typeName == k.conditionType
      else none := by
  have hp : (fun x : Condition => Subject.ofTypeName? x.typeName == some k.subject) =
      fun x => x.typeName == k.conditionType := by
    funext x
    rw [Bool.eq_iff_iff, beq_iff_eq, beq_iff_eq, hk.ofTypeName?_eq_iff, Key.conditionType]
  rw [h.condition, hp]

/-- What a condition is recorded for is readable. -/
theorem readable_of_condition? (hk : s.inventory.condition? k ≠ none) : k.subject.Readable := by
  obtain ⟨x, hx⟩ := Option.ne_none_iff_exists'.1 hk
  rw [h.condition] at hx
  split at hx
  · have hs := List.find?_some (p := fun x : Condition =>
      Subject.ofTypeName? x.typeName == some k.subject) hx
    exact Subject.readable_of_ofTypeName? (beq_iff_eq.1 hs)
  · cases hx

end Gathered

end Controller

end Reconciler
