import Reconciler.Proofs.Run.Callback
import Reconciler.Proofs.Survival
import Reconciler.Proofs.Tally

/-! What the generation callback answers for one governed resource matters for this resource only: two
runs whose callbacks differ there leave the same behind everywhere else. -/
namespace Reconciler

open Inventory (Key Readiness Sound)

variable {c : Controller} {b : Batch} {s s' t t' : Run} {p r : Ref} {e : Effect}
  {f f' : Option Resource → List Resource → Except Failure (Option Resource)}

private theorem Batch.getElem?_congr {items items' : List Resource} {j : Nat}
    (hids : items'.map Resource.identity = items.map Resource.identity)
    (hn : (items.map Resource.identity).Nodup)
    (h : ∀ id, (items.map Resource.identity)[j]? = some id → itemAt items' id = itemAt items id) :
    items'[j]? = items[j]? := by
  have hj : (items'.map Resource.identity)[j]? = (items.map Resource.identity)[j]? := by rw [hids]
  rw [List.getElem?_map, List.getElem?_map] at hj
  cases hx : items[j]? with
  | none => simpa [hx] using hj
  | some x =>
    rw [hx, Option.map_some] at hj
    obtain ⟨x', hx', hid⟩ := Option.map_eq_some_iff.1 hj
    have hsame := h x.identity (by rw [List.getElem?_map, hx, Option.map_some])
    rw [itemAt_of_mem hn (List.mem_of_getElem? hx), ← hid,
      itemAt_of_mem (hids ▸ hn) (List.mem_of_getElem? hx')] at hsame
    rw [hx', hsame]

/-- What there is beside a governed resource: the identities of all items in order, the items of the
other identities, and the conditions of the other types in order. -/
structure Surroundings where
  identities : List Ref
  item : Ref → Option Resource
  conditions : List Condition

/-- The condition is about something else than the governed resource `p`. -/
def Condition.isBeside (p : Ref) (x : Condition) : Bool := x.typeName != Subject.singleType p

namespace Run

private def surroundings (p : Ref) (s : Run) : Surroundings where
  identities := s.batch.items.map Resource.identity
  item id := if id = p then none else Batch.itemAt s.batch.items id
  conditions := s.manifest.conditions.filter (·.isBeside p)

end Run

namespace Effect

/-- What the effect makes of the surroundings of another governed resource. -/
private def actOn (p : Ref) (v : Surroundings) (e : Effect) : Surroundings where
  identities :=
    match e.item with
    | none => v.identities
    | some x => if x.identity ∈ v.identities then v.identities else v.identities ++ [x.identity]
  item id := if id = p then none else e.itemAfter id (v.item id)
  conditions := (e.storeIn v.conditions).filter (·.isBeside p)

private theorem filter_storeIn_filter (e : Effect) (p : Ref) (conditions : List Condition) :
    (e.storeIn (conditions.filter (·.isBeside p))).filter (·.isBeside p) =
      (e.storeIn conditions).filter (·.isBeside p) := by
  rw [storeIn, storeIn]
  split
  · rw [List.filter_filter]
    simp only [Bool.and_self]
  · rw [Manifest.dropCondition, Manifest.dropCondition, List.filter_filter, List.filter_filter,
      List.filter_filter]
    refine List.filter_congr fun x _ => ?_
    cases x.isBeside p <;> simp
  · exact Manifest.filter_put_filter (fun t => t != Subject.singleType p) _ _

private theorem Holds.surroundings (h : e.Holds s s') (p : Ref) :
    s'.surroundings p = e.actOn p (s.surroundings p) := by
  rw [Run.surroundings, actOn, Surroundings.mk.injEq]
  refine ⟨?_, ?_, ?_⟩
  · rw [h.items, writeTo]
    cases e.item with
    | none => rfl
    | some x => exact Batch.identities_write_eq _ x
  · funext id
    by_cases hid : id = p
    · simp only [if_pos hid]
    · simp only [if_neg hid, h.itemAt, Run.surroundings]
  · rw [h.conditions]
    exact (e.filter_storeIn_filter p _).symm

private theorem Holds.surroundings_self (h : e.Holds s s') (hk : e.key = .governed p)
    (he : e.IsKeyed)
    (hp : p ∈ s.batch.items.map Resource.identity) : s'.surroundings p = s.surroundings p := by
  have hitem (x : Resource) (hx : e.item = some x) : x.identity = p := by
    rw [(he x hx).2, hk]
    rfl
  rw [Run.surroundings, Run.surroundings, Surroundings.mk.injEq]
  refine ⟨?_, ?_, ?_⟩
  · rw [h.items, writeTo]
    cases hx : e.item with
    | none => rfl
    | some x =>
      simp only
      rw [Batch.identities_write_eq, hitem x hx, if_pos hp]
  · funext id
    by_cases hid : id = p
    · simp only [if_pos hid]
    · simp only [if_neg hid]
      rw [h.itemAt, itemAfter]
      split
      · rfl
      · rename_i x hx
        exact if_neg fun hxid => hid (hxid.symm.trans (hitem x hx))
  · rw [h.conditions]
    refine @filter_storeIn e (fun t => t != Subject.singleType p) h.typeName _ ?_
    rw [hk]
    exact bne_self_eq_false _

end Effect

private theorem Trace.surroundings {es : List Effect} (h : Trace es s s')
    (he : ∀ e ∈ es, e.key = .governed p → e.IsKeyed)
    (hp : p ∈ s.batch.items.map Resource.identity) : s'.surroundings p =
      (es.filter fun e => e.key != .governed p).foldl (Effect.actOn p) (s.surroundings p) := by
  induction h with
  | nil s => rfl
  | cons head _ ih =>
    rename_i e es _ _ _ _
    rw [ih (fun e' he' => he e' (List.mem_cons_of_mem _ he'))
      (head.identities_prefix.subset hp)]
    by_cases hk : e.key = .governed p
    · rw [List.filter_cons_of_neg (by simp [hk]),
        head.surroundings_self hk (he e List.mem_cons_self hk) hp]
    · rw [List.filter_cons_of_pos (by simpa using hk), List.foldl_cons, head.surroundings p]

namespace Run

private theorem attempt_congr {readiness : Readiness} {failed : List Ref}
    (h : ∀ g, readiness.resource = some g → ∀ resources, f (some g) resources = f' (some g) resources) :
    attempt c failed f r readiness = attempt c failed f' r readiness := by
  rw [attempt, attempt]
  cases hg : readiness.resource with
  | none => rfl
  | some g => simp only [response, h g hg]

private theorem filter_responses {g : Resource} (hs : Sound s.controller s.inventory)
    (hp : s.inventory.existing? (.governed p) = some g)
    (hid : ∀ r g, s.inventory.existing? (.governed r) = some g → g.identity = r)
    (hagree : ∀ g resources, g.identity ≠ p → f (some g) resources = f' (some g) resources) :
    (s.generating f).responses.filter (fun e => e.key != .governed p) =
      (s.generating f').responses.filter fun e => e.key != .governed p := by
  have hsome : ¬ (s.inventory.readyMap.entries.all fun e => e.2.resource.isNone) = true := by
    intro hall
    rw [existing?_of_all_none hs fun e he =>
      Option.isNone_iff_eq_none.1 (List.all_eq_true.1 hall e he)] at hp
    cases hp
  have hresponses (f : Option Resource → List Resource → Except Failure (Option Resource)) :
      (s.generating f).responses = if s.inventory.isReady then
        orphanDrops s.inventory.readyMap.entries ++ s.inventory.readyMap.entries.flatMap fun e =>
          attempt s.controller s.failed f e.1 e.2
      else if s.controller.owned.isEmpty then retirements s.inventory.readyMap.entries else [] := by
    by_cases hr : s.inventory.isReady = true
    · rw [if_pos hr]
      refine (if_pos hr).trans (congrArg (orphanDrops _ ++ ·) ?_)
      exact (congrArg (· ++ _) (if_neg hsome)).trans (List.nil_append _)
    · rw [if_neg hr]
      exact if_neg hr
  rw [hresponses, hresponses]
  split
  · rw [List.filter_append, List.filter_append, List.filter_flatMap, List.filter_flatMap,
      List.flatMap_def, List.flatMap_def]
    refine congrArg (_ ++ List.flatten ·) (List.map_congr_left fun entry hm => ?_)
    by_cases hk : entry.1 = p
    · have hnone (f : Option Resource → List Resource → Except Failure (Option Resource)) :
          (attempt s.controller s.failed f entry.1 entry.2).filter
            (fun e => e.key != .governed p) = [] := by
        refine List.filter_eq_nil_iff.2 fun e he => ?_
        simp [key_of_attempt he, hk]
      rw [hnone, hnone]
    · rw [attempt_congr fun g hg resources => hagree g resources ?_]
      rwa [hid _ _ ((existing?_of_readyMap hs hm).trans hg)]
  · rfl

end Run

namespace Controller

namespace Gathered

variable (h : Gathered c b s)
include h

private theorem identities_final :
    b.items.map Resource.identity <+: s.final.batch.items.map Resource.identity := by
  obtain ⟨es, -, ht⟩ := h.through_final
  rw [← h.items]
  exact ht.identities_prefix

private theorem nodup_final (hn : (b.items.map Resource.identity).Nodup) :
    (s.final.batch.items.map Resource.identity).Nodup := by
  obtain ⟨es, -, ht⟩ := h.through_final
  refine ht.nodup ?_
  rwa [h.items]

private theorem getElem?_final {i j : Nat} {g : Resource}
    (hn : (b.items.map Resource.identity).Nodup)
    (hi : b.items[i]? = some g)
    (hj : (s.final.batch.items.map Resource.identity)[j]? = some g.identity) : j = i := by
  have hi' : (s.final.batch.items.map Resource.identity)[i]? = some g.identity := by
    obtain ⟨added, hadded⟩ := h.identities_final
    rw [← hadded, List.getElem?_append_left, List.getElem?_map, hi, Option.map_some]
    rw [List.length_map]
    exact (List.getElem?_eq_some_iff.1 hi).1
  exact (List.getElem?_inj (List.getElem?_eq_some_iff.1 hj).1 (h.nodup_final hn)).1 (hj.trans hi'.symm)

private theorem identities_writeManifest : s.final.writeManifest.batch.items.map Resource.identity =
    s.final.batch.items.map Resource.identity := by
  refine Run.identities_writeManifest ?_
  rw [h.through_final.source]
  refine h.identities_final.subset (List.mem_map_of_mem ?_)
  exact List.mem_of_getElem? (Batch.rootManifest?_eq_some h.root).1

private theorem getElem?_writeManifest {c' : Controller} {i j : Nat} {g : Resource}
    (h' : Gathered c' b s')
    (hn : (b.items.map Resource.identity).Nodup) (hi : b.items[i]? = some g)
    (hsame : s.final.surroundings g.identity = s'.final.surroundings g.identity) (hj : j ≠ i)
    (hne : ∀ root, b.rootManifest? ≠ some (j, root)) :
    s.final.writeManifest.batch.items[j]? = s'.final.writeManifest.batch.items[j]? := by
  have hroot := h.root
  have hindex := h'.root
  rw [hroot, Option.some.injEq, Prod.mk.injEq] at hindex
  refine Batch.getElem?_congr ?_ ?_ fun id hid => ?_
  · rw [h.identities_writeManifest, h'.identities_writeManifest]
    exact congrArg Surroundings.identities hsame
  · rw [h'.identities_writeManifest]
    exact h'.nodup_final hn
  · rw [h'.identities_writeManifest] at hid
    have hidg : id ≠ g.identity := by
      rintro rfl
      exact hj (h'.getElem?_final hn hi hid)
    have hidm : id ≠ s.manifest.source.identity := by
      rintro rfl
      refine hne s.manifest.source ?_
      rw [h'.getElem?_final hn (Batch.rootManifest?_eq_some hroot).1 hid, hroot]
    have hitem := congrFun (congrArg Surroundings.item hsame) id
    simp only [Run.surroundings, if_neg hidg] at hitem
    rw [Run.itemAt_writeManifest_of_ne (by rwa [h.through_final.source]),
      Run.itemAt_writeManifest_of_ne (by rwa [h'.through_final.source, ← hindex.2]), hitem]

end Gathered

namespace Populated

variable {g : Resource} (h : Populated c b s) (hn : (b.items.map Resource.identity).Nodup)
  (hg : s.inventory.existing? (.governed p) = some g)
include h hn hg

private theorem surroundings_final (hf : (c.generating f).RendersOwn) :
    (s.generating f).final.surroundings p =
      ((s.updateChildren.generating f).responses.filter fun e => e.key != .governed p).foldl
        (Effect.actOn p) (s.updateChildren.surroundings p) := by
  have hsound : Sound (s.updateChildren.generating f).controller
      (s.updateChildren.generating f).inventory := h.sound_updateChildren
  have hcontroller : (s.updateChildren.generating f).controller = c.generating f := by
    change s.updateChildren.controller.generating f = _
    rw [Run.controller_updateChildren, h.controller]
  have hpresent : s.updateChildren.inventory.existing? (.governed p) = some g :=
    (h.existing?_governed_updateChildren p).trans hg
  have hmem : p ∈ s.updateChildren.batch.items.map Resource.identity := by
    obtain ⟨hm, -, rfl⟩ := h.existing?_governed.1 hg
    obtain ⟨s', ht, he⟩ := s.updateChildren_trace
    rw [he]
    refine ht.identities_prefix.subset (List.mem_map_of_mem ?_)
    rw [h.items]
    exact Batch.mem_of_mem_others hm
  have htrace := Run.trace_responses hsound (.governed p)
  rw [Run.final, Run.updateChildren_generating, htrace.surroundings (fun e he _ x hx => ?_) hmem]
  · rw [List.cons_append, List.filter_cons_of_neg (by simp [Effect.idle]), List.filter_append,
      List.filter_cons_of_neg (by simp [Effect.idle]), List.filter_nil, List.append_nil]
    rfl
  · refine Run.isKeyed_of_responses hsound (hcontroller ▸ hf) (fun hnone => ?_) (fun r g hg => ?_)
      (Run.mem_responses_of_touching he (.inl (by simp [hx]))) x hx
    · exact absurd ((hnone p).symm.trans hpresent) (by simp)
    · exact (h.tallies_updateChildren hn _ g hg).1

private theorem surroundings_congr (hf : (c.generating f).RendersOwn)
    (hf' : (c.generating f').RendersOwn)
    (hagree : ∀ g resources, g.identity ≠ p → f (some g) resources = f' (some g) resources) :
    (s.generating f).final.surroundings p = (s.generating f').final.surroundings p := by
  rw [h.surroundings_final hn hg hf, h.surroundings_final hn hg hf',
    Run.filter_responses h.sound_updateChildren ((h.existing?_governed_updateChildren _).trans hg)
      (fun r g hr => (h.tallies_updateChildren hn _ g hr).1) hagree]

end Populated

/-- Two runs whose generation callbacks differ for one governed resource leave the same items but
its own and the manifest's, and the same conditions but its own. -/
theorem run_isolated {i : Nat} {g : Resource} (hn : (b.items.map Resource.identity).Nodup)
    (hi : b.items[i]? = some g) (hgov : c.governs g.identity = true)
    (hspare : ∀ r, Manifest.describes r = true → c.governs r.identity = false)
    (hf : (c.generating f).RendersOwn) (hf' : (c.generating f').RendersOwn)
    (hagree : ∀ g' resources, g'.identity ≠ g.identity →
      f (some g') resources = f' (some g') resources) :
    (∀ j, j ≠ i → (∀ root, b.rootManifest? ≠ some (j, root)) →
      ((c.generating f).run b).batch.items[j]? = ((c.generating f').run b).batch.items[j]?) ∧
    ((c.generating f).states b).getLast?.map
        (fun t => t.manifest.conditions.filter (·.isBeside g.identity)) =
      ((c.generating f').states b).getLast?.map
        fun t => t.manifest.conditions.filter (·.isBeside g.identity) := by
  cases hs : c.populated b with
  | none =>
    have hnone (f : Option Resource → List Resource → Except Failure (Option Resource)) :
        (c.generating f).populated b = none := by rw [populated_generating, hs, Option.map_none]
    constructor
    · intro j _ _
      rw [(run_of_populated_eq_none (hnone f)).2, (run_of_populated_eq_none (hnone f')).2]
    · rw [states_generating f hs, states_generating f' hs, List.getLast?_map, List.getLast?_map,
        Option.map_map, Option.map_map]
      rfl
  | some s =>
    have hsome (f : Option Resource → List Resource → Except Failure (Option Resource)) :
        (c.generating f).populated b = some (s.generating f) := by
      rw [populated_generating, hs, Option.map_some]
    have h := populated_spec hn hs
    obtain ⟨hroot, hd⟩ := Batch.rootManifest?_eq_some h.root
    have hother : i ≠ s.manifestIndex := by
      rintro rfl
      rw [hroot] at hi
      cases hi
      rw [hspare _ hd] at hgov
      cases hgov
    have hg : s.inventory.existing? (.governed g.identity) = some g :=
      h.existing?_governed.2 ⟨Batch.mem_others.2 ⟨i, hi, hother⟩, hgov, rfl⟩
    have hsame := h.surroundings_congr hn hg hf hf' hagree
    constructor
    · intro j hj hne
      rw [(run_of_populated (hsome f)).1, (run_of_populated (hsome f')).1]
      exact (gathered_spec (hsome f)).getElem?_writeManifest (gathered_spec (hsome f')) hn hi hsame
        hj hne
    · rw [getLast?_states (hsome f), getLast?_states (hsome f')]
      exact congrArg some (congrArg Surroundings.conditions hsame)

def echo (governed : Option Resource) (_ : List Resource) : Except Failure (Option Resource) :=
  .ok governed

def falter (governed : Option Resource) (_ : List Resource) : Except Failure (Option Resource) :=
  if governed.map Resource.identity = some (Coordinate.named ⟨"req/v1", "Interface"⟩ "a")
  then .error ⟨"no capacity", []⟩ else .ok governed

/-- Of two interfaces the first one fails or not. The second one is annotated in both cases. -/
theorem run_isolated_rendering :
    ((rendering.generating echo).run (spacedPackage "a" "b")).batch.items[1]? ≠
      ((rendering.generating falter).run (spacedPackage "a" "b")).batch.items[1]? ∧
    ((rendering.generating echo).run (spacedPackage "a" "b")).batch.items[2]? =
      ((rendering.generating falter).run (spacedPackage "a" "b")).batch.items[2]? ∧
    ((rendering.generating echo).run (spacedPackage "a" "b")).batch.items[2]? ≠
      (spacedPackage "a" "b").items[2]? := by
  have hspare : ∀ r, Manifest.describes r = true → rendering.governs r.identity = false := by
    intro r hd
    simp only [Manifest.describes, Bool.and_eq_true, beq_iff_eq] at hd
    refine beq_eq_false_iff_ne.2 fun he => ?_
    have hkind : "Interface" = r.kind := congrArg Coordinate.kind he
    rw [hd.1] at hkind
    exact absurd hkind (by decide)
  have hecho : (rendering.generating echo).RendersOwn := by
    rintro _ ⟨⟩ governed resources answer - ⟨⟩
    rfl
  have hfalter : (rendering.generating falter).RendersOwn := by
    rintro _ ⟨⟩ governed resources answer - hanswer
    rw [falter] at hanswer
    split at hanswer
    · cases hanswer
    · cases hanswer
      rfl
  refine ⟨by decide +kernel, ?_, by decide +kernel⟩
  refine (run_isolated (i := 1) (by decide +kernel) rfl (by decide +kernel) hspare hecho hfalter
    fun g resources hg => ?_).1 2 (by decide) fun root hroot => ?_
  · refine (if_neg fun he => hg ?_).symm
    exact (Option.some.inj he).trans (by decide +kernel)
  · have hindex : (spacedPackage "a" "b").rootManifest?.map (·.1) = some 0 := by decide +kernel
    rw [hroot] at hindex
    cases hindex

end Controller

end Reconciler
