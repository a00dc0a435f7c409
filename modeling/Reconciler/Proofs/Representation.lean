import Reconciler.Proofs.Inventory.Representation
import Reconciler.Proofs.Tally
import Reconciler.Proofs.Terminal

/-! The inventory keeps its representation at the end of each stage of a run, if the generation callback
answers with what it is asked to render. -/
namespace Reconciler

open Inventory (Action Key Readiness Represented)

variable {c : Controller} {b : Batch} {s s' t : Run} {k : Key} {r : Ref} {g o : Resource} {e : Effect}
  {test : Key → Bool} {package : String}

/-- What the slots of a key hold belongs to the key. -/
private structure Run.Names (s : Run) (k : Key) : Prop where
  existing : ∀ r, s.inventory.existing? k = some r → r.identity = k.target
  condition : ∀ x, s.inventory.condition? k = some x → x.typeName = k.conditionType

private theorem Effect.Holds.names (h : e.Holds s s') (he : e.IsKeyed) (hs : s.Names k) :
    s'.Names k := by
  by_cases hk : k = e.key
  · subst hk
    constructor
    case existing =>
      intro r hr
      rw [h.existing] at hr
      rcases Option.or_eq_some_iff.1 hr with hr | ⟨-, hr⟩
      · exact (he r hr).2
      · exact hs.existing r hr
    case condition =>
      intro x hx
      rw [h.condition] at hx
      cases hc : e.condition with
      | none =>
        rw [hc] at hx
        exact hs.condition x hx
      | some y =>
        rw [hc, Option.getD_some] at hx
        exact h.typeName x (by rw [hc, hx])
  · constructor
    case existing =>
      rw [h.existing?_of_ne hk]
      exact hs.existing
    case condition =>
      rw [h.condition?_of_ne hk]
      exact hs.condition

private theorem Trace.names {es : List Effect} (h : Trace es s s') (he : ∀ e ∈ es, e.IsKeyed)
    (hs : s.Names k) : s'.Names k := by
  induction h with
  | nil s => exact hs
  | cons head _ ih =>
    exact ih (fun e' he' => he e' (List.mem_cons_of_mem _ he'))
      (head.names (he _ List.mem_cons_self) hs)

private theorem Inventory.Represented.isKeyed {inv : Inventory} (h : Represented c inv) {a : Action}
    (ha : a ∈ (inv.plan test).schedule) : a.effect.IsKeyed := by
  obtain ⟨entry, hf, -, hdue⟩ := Inventory.mem_schedule_plan.1 ha
  have hfits := h.fits hf
  intro x hx
  rw [Action.key_effect]
  generalize hk : a.key = k at *
  rcases hdue.item_cases (by simp [hx]) with ⟨old, rfl, hrole, -, hold, -⟩ | ⟨new, rfl, -, hnew⟩
  · obtain ⟨-, hflag⟩ := Inventory.retireEffect_item hx
    rw [(Resource.SameBody.annotated hflag).identity]
    exact ⟨by simp [hrole], hfits.existing _ hold⟩
  · -- what is desired is not watched, and belongs to its key
    obtain ⟨hprep, -⟩ := Inventory.writeEffect_item_iff.1 hx
    refine ⟨fun hrole => ?_, (Run.sameBody_prepared hprep).identity.trans (hfits.desired _ hnew)⟩
    cases hnew.symm.trans (hfits.undesired hrole)

namespace Controller

/-- In these calls the generation callback answers with what it is asked to render: the governed
resource, or else the one that is named after the package. -/
def RendersAsked (c : Controller) (package : String) (calls : List Call) : Prop :=
  ∀ generate, c.generate = some generate → ∀ governed resources answer,
    .generate governed resources ∈ calls → generate governed resources = .ok (some answer) →
      answer.identity = (governed.map Resource.identity).getD (c.governed.named package)

private theorem RendersAsked.mono {calls calls' : List Call} (h : c.RendersAsked package calls')
    (hc : calls ⊆ calls') : c.RendersAsked package calls :=
  fun generate hgen governed resources answer hcall =>
    h generate hgen governed resources answer (hc hcall)

end Controller

namespace Run

section Commit

private theorem represented_commit (h : Represented c s.inventory) (test : Key → Bool) :
    Represented c (s.commit (s.inventory.plan test)).inventory := by
  have hnames (k : Key) : (s.commit (s.inventory.plan test)).Names k := by
    refine (s.trace_commit _).names (fun e he => ?_) ⟨h.existing k, h.condition k⟩
    obtain ⟨a, ha, rfl⟩ := List.mem_map.1 he
    exact h.isKeyed ha
  exact {
    sound := sound_commit h.sound test
    placed := fun k hk => h.placed k (isSome_find?_commit hk)
    existing := fun k => (hnames k).existing
    desired := fun k r hr => h.desired k r ((desired?_commit ..).symm.trans hr)
    condition := fun k => (hnames k).condition }

private theorem represented_updateChildren (h : Represented c s.inventory) :
    Represented c s.updateChildren.inventory := by
  rw [updateChildren]
  split
  · exact represented_commit h _
  · exact h

end Commit

section Generation

variable {governed : Option Resource} {resources : List Resource}
  {generate : Option Resource → List Resource → Except Failure (Option Resource)}

private theorem represented_softDelete (h : Represented c s.inventory) (hk : c.Places (.governed r))
    (hg : g.identity = r) : Represented c (s.softDelete (.governed r) g).inventory := by
  rw [softDelete]
  split
  · exact h
  · split
    · exact h
    · rename_i flagged hflag
      exact (h.addResource hk rfl
        ((Resource.SameBody.annotated hflag).identity.trans hg)).clearCondition _

private theorem represented_accept (h : Represented c s.inventory) (hk : c.Places (.governed r))
    (ho : o.identity = r) : Represented c (s.accept r o).inventory :=
  represented_commit (s := s.accepted r o)
    ((h.addDesired hk rfl (by simp [Key.governed]) ho).addCondition hk rfl rfl) _

private theorem represented_generateOne (h : Represented c s.inventory)
    (hk : c.Places (.governed r))
    (ha : ∀ answer, generate governed resources = .ok (some answer) → answer.identity = r) :
    Represented c (s.generateOne generate r governed resources).inventory := by
  rw [generateOne]
  split
  · exact h
  · exact h
  · rename_i answer hanswer
    split
    · exact h
    · rename_i o ho
      exact represented_accept (s := s.logCall _) h hk
        ((sameBody_rendered ho).identity.trans (ha answer hanswer))

private def Listed (c : Controller) (e : Ref × Readiness) : Prop :=
  c.Places (.governed e.1) ∧ ∀ g, e.2.resource = some g → g.identity = e.1

private theorem listed_of_readyMap (h : Represented c s.inventory) {e : Ref × Readiness}
    (he : e ∈ s.inventory.readyMap.entries) : Listed c e := by
  obtain ⟨entry, hf, -⟩ := (Inventory.mem_readyMap h.sound).1 he
  refine ⟨h.placed _ (by rw [hf]; rfl), fun g hg => ?_⟩
  exact h.existing (.governed e.1) g ((existing?_of_readyMap h.sound he).trans hg)

private theorem represented_retireGoverned (entries : List (Ref × Readiness))
    (h : Represented c s.inventory) (he : ∀ e ∈ entries, Listed c e) :
    Represented c (s.retireGoverned entries).inventory := by
  rw [retireGoverned]
  split
  · refine List.foldlRecOn (motive := fun t : Run => Represented c t.inventory) entries _ h
      fun t ht e hm => ?_
    split
    · rename_i g hg
      exact represented_softDelete ht (he e hm).1 ((he e hm).2 g hg)
    · exact ht
  · exact h

private theorem represented_dropOrphanConditions (entries : List (Ref × Readiness))
    (h : Represented c s.inventory) : Represented c (s.dropOrphanConditions entries).inventory := by
  rw [dropOrphanConditions]
  refine List.foldlRecOn (motive := fun t : Run => Represented c t.inventory) entries _ h
    fun t ht e _ => ?_
  split
  · exact ht.clearCondition _
  · exact ht

private theorem represented_generateReady (h : Represented c s.inventory) {e : Ref × Readiness}
    (he : Listed c e) (hgen : c.generate = some generate)
    (ha : c.RendersAsked package (s.generateReady generate e.1 e.2).calls) :
    Represented c (s.generateReady generate e.1 e.2).inventory := by
  rw [(consults_generateReady s e.1 e.2).calls] at ha
  rw [generateReady]
  split
  · exact h
  · rename_i g hg
    split
    · exact h
    · rename_i hfailed
      split
      · split
        · exact represented_softDelete h he.1 (he.2 g hg)
        · exact h
      · rename_i hready
        refine represented_generateOne h he.1 fun answer hanswer => ?_
        have hgenerated : generated? s.failed e.1 e.2 = some g := by
          rw [generated?, if_pos ⟨hfailed, by simpa using hready⟩, hg]
        rw [ha generate hgen (some g) e.2.resources answer
          (by simp [request?, hgenerated, Request.call]) hanswer]
        exact he.2 g hg

private theorem calls_subset_generateEach (entries : List (Ref × Readiness)) (s : Run) :
    s.calls ⊆ (entries.foldl (fun s e => s.generateReady generate e.1 e.2) s).calls := by
  refine List.foldlRecOn (motive := fun t : Run => s.calls ⊆ t.calls) entries _ (List.Subset.refl _)
    fun t ht e _ => ?_
  rw [(consults_generateReady t e.1 e.2).calls]
  exact List.subset_append_of_subset_left _ ht

private theorem represented_generateEach (entries : List (Ref × Readiness))
    (h : Represented c s.inventory) (he : ∀ e ∈ entries, Listed c e)
    (hgen : c.generate = some generate)
    (ha : c.RendersAsked package
      (entries.foldl (fun s e => s.generateReady generate e.1 e.2) s).calls) :
    Represented c (entries.foldl (fun s e => s.generateReady generate e.1 e.2) s).inventory := by
  induction entries generalizing s with
  | nil => exact h
  | cons e entries ih =>
    have hstep := represented_generateReady h (he e List.mem_cons_self) hgen
      (ha.mono (calls_subset_generateEach entries _))
    exact ih hstep (fun e' he' => he e' (List.mem_cons_of_mem _ he')) ha

private theorem represented_generateSynthetic (h : Represented c s.inventory)
    (hc : s.controller = c) (hgen : c.generate = some generate)
    (ha : c.RendersAsked s.manifest.name (s.generateSynthetic generate).calls) :
    Represented c (s.generateSynthetic generate).inventory := by
  rw [(consults_generateSynthetic s).calls] at ha
  rw [generateSynthetic]
  split
  · exact h
  · rename_i hname
    have hk : c.Places (.governed (s.controller.governed.named s.manifest.name)) :=
      .governed (hc ▸ beq_self_eq_true _) rfl
    refine represented_generateOne h hk fun answer hanswer => ?_
    rw [ha generate hgen none [] answer (by simp [hname, Request.call]) hanswer, hc]
    rfl

private theorem represented_generateAll (h : Represented c s.inventory) (hc : s.controller = c)
    (ha : c.RendersAsked s.manifest.name s.generateAll.calls) :
    Represented c s.generateAll.inventory := by
  have hlisted (e : Ref × Readiness) (he : e ∈ s.inventory.readyMap.entries) : Listed c e :=
    listed_of_readyMap h he
  by_cases hr : s.inventory.isReady = true
  · let dropped := s.judged.dropOrphanConditions s.inventory.readyMap.entries
    have hdropped : Represented c dropped.inventory :=
      represented_dropOrphanConditions (s := s.judged) _ h
    have hcontroller : dropped.controller = c := (s.judged.unasked_dropOrphanConditions _).controller.trans hc
    have hname : dropped.manifest.name = s.manifest.name := by
      rw [Manifest.name, (s.judged.trace_dropOrphanConditions _).source]
      rfl
    rw [generateAll_of_ready hr, hc] at ha ⊢
    cases hgen : c.generate with
    | none => exact hdropped
    | some generate =>
      rw [hgen] at ha
      simp only at ha ⊢
      split at ha
      · rename_i hall
        rw [if_pos hall]
        refine represented_generateEach _ ?_ hlisted hgen ha
        refine represented_generateSynthetic hdropped hcontroller hgen ?_
        rw [hname]
        exact ha.mono (calls_subset_generateEach _ _)
      · rename_i hall
        rw [if_neg hall]
        exact represented_generateEach _ hdropped hlisted hgen ha
  · rw [generateAll_of_not_ready (by simpa using hr)]
    exact represented_retireGoverned (s := s.judged) _ h hlisted

end Generation

end Run

namespace Controller

private theorem Gathered.read_of_condition? (h : Gathered c b s) {x : Condition}
    (hx : s.inventory.condition? k = some x) :
    Inventory.takes c (s.inventory.existing? k).isSome k = true ∧
      Subject.ofTypeName? x.typeName = some k.subject := by
  rw [h.condition] at hx
  split at hx
  · rename_i ht
    exact ⟨ht, by simpa using List.find?_some hx⟩
  · cases hx

private theorem Gathered.represented (h : Gathered c b s) : Represented c s.inventory := by
  constructor
  case sound => exact h.sound
  case placed =>
    intro k hk
    rcases h.sound.isSome_find?_iff.1 hk with hne | hne | hne
    · obtain ⟨x, hx⟩ := Option.ne_none_iff_exists'.1 hne
      obtain ⟨ht, hsubject⟩ := h.read_of_condition? hx
      refine ⟨(h.sound.admits hk).classifies fun hglobal => ?_, Key.space_of_subject hsubject⟩
      rcases Inventory.watchGlobal?_of_takes hglobal ht with hw | hseen
      · exact hw
      · -- the wildcard takes the condition as the item is there
        obtain ⟨r, hr⟩ := Option.isSome_iff_exists.1 hseen
        exact watchGlobal?_of_keyOf (h.mem_of_existing? k r hr).2 hglobal
    · obtain ⟨r, hr⟩ := Option.ne_none_iff_exists'.1 hne
      exact places_of_keyOf (h.mem_of_existing? k r hr).2
    · obtain ⟨r, hr⟩ := Option.ne_none_iff_exists'.1 hne
      obtain ⟨g, -, -, -, rfl⟩ := h.mem_of_desired? k r hr
      refine ⟨(h.sound.admits hk).classifies fun hglobal => ?_, fun ref href => ?_⟩
      · cases hglobal
      · have href : ref = g.identity ∨ ref = r.identity := by
          simpa [Key.refs, Key.owned] using href
        rcases href with rfl | rfl <;> rfl
  case existing => exact fun k r hr => (keyOf_eq_some (h.mem_of_existing? k r hr).2).2.symm
  case desired =>
    intro k r hr
    obtain ⟨g, -, -, -, rfl⟩ := h.mem_of_desired? k r hr
    exact ⟨by simp [Key.owned], rfl⟩
  case condition =>
    exact fun k x hx => (Subject.typeName_of_ofTypeName? (h.read_of_condition? hx).2).symm

theorem Gathered.represented_updateChildren (h : Gathered c b s) :
    Represented s.updateChildren.controller s.updateChildren.inventory := by
  rw [h.controller_updateChildren]
  exact Run.represented_updateChildren h.represented

private theorem Gathered.represented_final (h : Gathered c b s)
    (ha : c.RendersAsked s.manifest.name s.final.calls) : Represented c s.final.inventory := by
  refine Run.represented_generateAll (Run.represented_updateChildren h.represented) ?_ ?_
  · rw [h.controller_updateChildren]
  · rw [Manifest.name, Run.source_updateChildren]
    exact ha

/-- At the end of each stage every entry fits its key, if the generation callback answers with what
it is asked to render. -/
theorem entries_fit (ha : ∀ index root, b.rootManifest? = some (index, root) →
      c.RendersAsked root.name (c.run b).calls)
    (ht : Run.start c b = .ok t ∨ t ∈ c.states b) {entry : Inventory.Entry}
    (hf : t.inventory.find? k = some entry) : Inventory.Fits c k entry := by
  suffices h : Represented c t.inventory from h.fits hf
  rcases ht with hstart | ht
  · -- nothing is recorded when the manifest is loaded
    obtain ⟨-, index, root, manifest, -, -, rfl⟩ := Run.start_eq_ok_iff.1 hstart
    cases hf
  · rcases states_cases ht with ⟨h, -⟩ | ⟨s, hs, hcases⟩
    · exact h.represented
    · have h := gathered_spec hs
      have hfinal : Represented c s.final.inventory := by
        have ha := ha _ _ h.root
        rw [run_eq_of_populated hs] at ha
        exact h.represented_final ha
      rcases hcases with rfl | rfl | rfl | rfl
      · exact h.represented
      · exact Run.represented_updateChildren h.represented
      · exact hfinal
      · exact hfinal

/-- The rendered interface is in the package, is desired, and is done. -/
theorem entries_fit_rendering : ∃ t ∈ rendering.states renderingPackage, ∃ k entry,
    t.inventory.find? k = some entry ∧ entry.existing.isSome = true ∧ entry.desired.isSome = true ∧
      entry.condition.isSome = true ∧ Inventory.Fits rendering k entry := by
  let k : Key := .governed (Coordinate.named ⟨"req/v1", "Interface"⟩ "a")
  obtain ⟨s, hs, entry, hf, hexisting, hdesired, hcondition⟩ : ∃ s,
      rendering.populated renderingPackage = some s ∧ ∃ entry,
      s.final.inventory.find? k = some entry ∧ entry.existing.isSome = true ∧
      entry.desired.isSome = true ∧ entry.condition.isSome = true := by
    decide +kernel
  have hmem := (mem_states hs).2.2.1
  have ha (index : Nat) (root : Resource)
      (_ : renderingPackage.rootManifest? = some (index, root)) :
      rendering.RendersAsked root.name (rendering.run renderingPackage).calls := by
    rintro _ ⟨⟩ governed resources answer - ⟨⟩
    rfl
  exact ⟨_, hmem, k, entry, hf, hexisting, hdesired, hcondition, entries_fit ha (.inr hmem) hf⟩

end Controller

end Reconciler
