import Reconciler.Command.Answer
import Reconciler.Proofs.Report

/-! Inspecting a package tells whether it will be ready. A run judges this later, when the children have
been committed, but only entries of children change in between. -/
namespace Reconciler

open Inventory (Key Readiness)

namespace Run

variable {s : Run} {k : Key}
  {generate : Option Resource → List Resource → Except Failure (Option Resource)}
  {populate : Resource → Except Failure (List Resource)}

section Entries

private theorem inventory_callWatches (s : Run) : s.callWatches.2.inventory = s.inventory := by
  obtain ⟨calls, stage, he, -⟩ := callEach_eq s s.observedWatches
  rw [callWatches, he]

variable (hk : k.role ≠ .owned)
include hk

private theorem find?_registerChild (parent : Resource) (s : Run) (child : Resource) :
    (registerChild parent s child).inventory.find? k = s.inventory.find? k := by
  cases h : s.controller.register? parent child with
  | none =>
    obtain ⟨message, he⟩ := registerChild_of_none h
    rw [he]
    rfl
  | some r =>
    rw [registerChild_of_some h]
    refine Inventory.find?_update_of_ne ?_
    rintro rfl
    exact hk rfl

private theorem find?_populateParent (s : Run) (parent : Resource) :
    (populateParent populate s parent).inventory.find? k = s.inventory.find? k := by
  rw [populateParent]
  split
  · rename_i children _
    refine List.foldlRecOn (motive := fun t : Run => t.inventory.find? k = s.inventory.find? k)
      children _ rfl fun t ht child _ => ?_
    exact (find?_registerChild hk parent t child).trans ht
  · rfl

private theorem find?_populateChildren (s : Run) :
    s.populateChildren.inventory.find? k = s.inventory.find? k := by
  rw [populateChildren]
  simp only [atStage]
  split
  · refine List.foldlRecOn (motive := fun t : Run => t.inventory.find? k = s.inventory.find? k)
      _ _ rfl fun t ht parent _ => ?_
    exact (find?_populateParent hk t parent).trans ht
  · rfl

end Entries

section Judgement

private theorem ready_generateOne (s : Run) (r : Ref) (governed : Option Resource)
    (resources : List Resource) :
    (s.generateOne generate r governed resources).report.ready = s.report.ready := by
  rw [generateOne]
  split
  · rfl
  · rfl
  · split
    · rfl
    · exact congrArg (·.2.2) ((remarks_commit _ _).trans (remarks_writeCondition _ _ _))

private theorem ready_softDelete (s : Run) (k : Key) (r : Resource) :
    (s.softDelete k r).report.ready = s.report.ready :=
  congrArg (·.2.2) (s.remarks_perform (.retire ⟨k, none, r⟩))

private theorem ready_generateReady (s : Run) (r : Ref) (readiness : Readiness) :
    (s.generateReady generate r readiness).report.ready = s.report.ready := by
  rw [generateReady]
  split
  · rfl
  · split
    · rfl
    · split
      · split
        · exact ready_softDelete ..
        · rfl
      · exact ready_generateOne ..

private theorem ready_generateSynthetic (s : Run) :
    (s.generateSynthetic generate).report.ready = s.report.ready := by
  rw [generateSynthetic]
  split
  · rfl
  · exact ready_generateOne ..

private theorem ready_retireGoverned (s : Run) (entries : List (Ref × Readiness)) :
    (s.retireGoverned entries).report.ready = s.report.ready := by
  rw [retireGoverned]
  split
  · refine List.foldlRecOn (motive := fun t : Run => t.report.ready = s.report.ready) entries _ rfl
      fun t ht e _ => ?_
    split
    · exact (ready_softDelete ..).trans ht
    · exact ht
  · rfl

private theorem ready_dropOrphanConditions (s : Run) (entries : List (Ref × Readiness)) :
    (s.dropOrphanConditions entries).report.ready = s.report.ready := by
  refine List.foldlRecOn (motive := fun t : Run => t.report.ready = s.report.ready) entries _ rfl
    fun t ht e _ => ?_
  split
  · exact (congrArg (·.2.2) (t.remarks_deleteCondition _)).trans ht
  · exact ht

private theorem ready_generateAll (s : Run) :
    s.generateAll.report.ready = some s.inventory.isReady := by
  by_cases hr : s.inventory.isReady = true
  · rw [generateAll_of_ready hr]
    have hdropped := s.judged.ready_dropOrphanConditions s.inventory.readyMap.entries
    cases s.controller.generate with
    | none => exact hdropped
    | some generate =>
      simp only [atStage]
      refine List.foldlRecOn (motive := fun t : Run => t.report.ready = some s.inventory.isReady)
        _ _ ?_ fun t ht e _ => (ready_generateReady ..).trans ht
      split
      · exact (ready_generateSynthetic _).trans hdropped
      · exact hdropped
  · rw [generateAll_of_not_ready (by simpa using hr)]
    exact ready_retireGoverned ..

private theorem find?_judged (hk : k.role ≠ .owned) (s : Run) :
    s.callWatches.2.populateChildren.updateChildren.inventory.find? k = s.inventory.find? k := by
  rw [find?_updateChildren_of_ne hk, find?_populateChildren hk, inventory_callWatches]

private theorem isReady_judged (s : Run) :
    s.callWatches.2.populateChildren.updateChildren.inventory.isReady = s.inventory.isReady :=
  Inventory.isReady_of_find? fun target => s.find?_judged (by simp [Key.watched])

end Judgement

end Run

namespace Command

/-- The text tells the readiness of a package: in the line below the table, or as a member. -/
def Tells (ready : Bool) (text : String) : Format → Prop
  | .human => ∃ table : String, ∃ unmatched : Nat,
      text = table ++ s!"ready: {ready}  unmatched: {unmatched}\n"
  | .json => ∃ d : Document, d.get? ["ready"] = some (.bool ready) ∧ text = Json.pretty d ++ "\n"

private theorem tells_inventoryText (inv : Inventory) (format : Format) :
    Tells inv.isReady (inventoryText inv format) format := by
  cases format with
  | human => exact ⟨_, inv.unmatched, rfl⟩
  | json =>
    refine ⟨inventoryDocument inv, ?_, rfl⟩
    rw [inventoryDocument, Document.get?_singleton]
    simp [SortedMap.findEntry]

theorem exists_of_read {text : String} {flags : Flags} {p : Batch → Declaration → Prop}
    [∀ b, DecidablePred (p b)] (h : ((Batch.ofYaml text).toOption.any fun b =>
      (Declaration.ofFlags flags b.functionConfig).toOption.any fun d => decide (p b d)) = true) :
    ∃ b d, Batch.ofYaml text = .ok b ∧ Declaration.ofFlags flags b.functionConfig = .ok d ∧
      p b d := by
  cases hb : Batch.ofYaml text with
  | error fault =>
    rw [hb] at h
    cases h
  | ok b =>
    rw [hb] at h
    cases hd : Declaration.ofFlags flags b.functionConfig with
    | error failure =>
      simp only [Except.toOption, Option.any_some, hd, Option.any_none] at h
      cases h
    | ok d =>
      simp only [Except.toOption, Option.any_some, hd] at h
      exact ⟨b, d, rfl, hd, of_decide_eq_true h⟩

theorem answer_of_read {r : Request} {text : String} {b : Batch} {d : Declaration}
    (hb : Batch.ofYaml text = .ok b) (hd : Declaration.ofFlags r.flags b.functionConfig = .ok d) :
    r.answer (.ok text) =
      match r.action with
      | .inspect => inspect r.format d b
      | .run => run r.format d b := by
  have hread (f : Fault → Failure) : (Except.ok b : Except Fault Batch).mapError f = .ok b := rfl
  rw [Request.answer]
  cases r.action <;> simp only [bind, Except.bind, hb, hread, hd, pure, Except.pure]

end Command

namespace Controller

variable {c : Controller} {b : Batch} {s : Run}

private theorem report_ready (hs : Run.start c b = .ok s)
    (hw : s.populateInventory.callWatches.1 = .ok ()) :
    (c.run b).report.isAborted = false ∧
      (c.run b).report.ready = some s.populateInventory.inventory.isReady := by
  have hrun : c.run b = .ofRun s.populateInventory.callWatches.2.settle := by
    rw [run, hs]
    simp only [Run.finish]
    split
    · rename_i t ht
      rw [ht]
    · rename_i failure t ht
      rw [ht] at hw
      cases hw
  rw [hrun]
  exact ⟨rfl, (Run.ready_generateAll _).trans (congrArg some s.populateInventory.isReady_judged)⟩

/-- A package is judged as it was surveyed, whatever its children are. So an inspection tells the
readiness that a run of the same function reports, unless the run is aborted. -/
theorem readiness_foretold :
    (∀ (c : Controller) (b : Batch) (s : Run), Run.start c b = .ok s →
      (∀ k : Key, k.role ≠ .owned →
        let asked := s.populateInventory.callWatches.2.populateChildren
        asked.inventory.find? k = s.populateInventory.inventory.find? k ∧
        asked.updateChildren.inventory.find? k = s.populateInventory.inventory.find? k) ∧
      s.populateInventory.callWatches.2.populateChildren.updateChildren.inventory.isReady =
        s.populateInventory.inventory.isReady ∧
      (s.populateInventory.callWatches.1 = .ok () → (c.run b).report.isAborted = false ∧
        (c.run b).report.ready = some s.populateInventory.inventory.isReady)) ∧
    ∀ (format : Command.Format) (file : Option String) (flags : Flags) (text : String) (b : Batch)
      (d : Declaration), Batch.ofYaml text = .ok b →
      Declaration.ofFlags flags b.functionConfig = .ok d → d.owned = [] →
      (d.conditionController.run b).report.isAborted = false →
      ∃ ready shown, (d.conditionController.run b).report.ready = some ready ∧
        Command.Request.answer ⟨.run, file, format, flags⟩ (.ok text) =
          ⟨Command.batchText (d.conditionController.run b).batch format, none⟩ ∧
        Command.Request.answer ⟨.inspect, file, format, flags⟩ (.ok text) = ⟨shown, none⟩ ∧
        Command.Tells ready shown format := by
  constructor
  · intro c b s hs
    refine ⟨fun k hk => ⟨?_, Run.find?_judged hk _⟩, Run.isReady_judged _, report_ready hs⟩
    rw [Run.find?_populateChildren hk, Run.inventory_callWatches]
  · intro format file flags text b d hb hd howned hrun
    obtain ⟨s, t, hs, hw, -⟩ := run_of_not_aborted hrun
    obtain ⟨-, hready⟩ := report_ready hs (by rw [hw])
    -- an inspection starts like the run: its callbacks for children and generation are all it lacks
    obtain ⟨hcheck, index, root, manifest, hroot, hload, rfl⟩ := Run.start_eq_ok_iff.1 hs
    have hstart : Run.start d.controller b = .ok (Run.loaded d.controller b index manifest) :=
      Run.start_eq_ok_iff.2 ⟨hcheck, index, root, manifest, hroot, hload, rfl⟩
    refine ⟨_, _, hready, ?run, ?inspect, Command.tells_inventoryText _ format⟩
    case run =>
      rw [Command.answer_of_read hb hd]
      simp only [Command.run, howned, List.isEmpty_nil, Bool.not_true, Bool.false_eq_true, if_false,
        hrun]
    case inspect =>
      rw [Command.answer_of_read hb hd]
      simp only [Command.inspect, hstart]
      rfl

def downText : String :=
  "apiVersion: config.kubernetes.io/v1\nkind: ResourceList\nitems:\n" ++
  "- \x7bapiVersion: kpt.dev/v1, kind: Kptfile, " ++
  "status: \x7bconditions: [\x7btype: v1.Node.a, status: 'False'\x7d]\x7d\x7d\n" ++
  "- \x7bapiVersion: v1, kind: Node, metadata: \x7bname: a\x7d\x7d\n"

def podFlags : Flags := ⟨some "v1/Pod", [], ["v1/Node"]⟩

/-- The inspection tells that the package is not ready, as the run reports. -/
theorem readiness_foretold_down : ∃ b d shown, Batch.ofYaml downText = .ok b ∧
    Declaration.ofFlags podFlags b.functionConfig = .ok d ∧ d.owned = [] ∧
    (d.conditionController.run b).report.isAborted = false ∧
    (d.conditionController.run b).report.ready = some false ∧
    Command.Request.answer ⟨.inspect, none, .human, podFlags⟩ (.ok downText) = ⟨shown, none⟩ ∧
    Command.Tells false shown .human := by
  obtain ⟨b, d, hb, hd, howned, hrun, hready⟩ : ∃ b d, Batch.ofYaml downText = .ok b ∧
      Declaration.ofFlags podFlags b.functionConfig = .ok d ∧ d.owned = [] ∧
      (d.conditionController.run b).report.isAborted = false ∧
      (d.conditionController.run b).report.ready = some false :=
    Command.exists_of_read (by decide +kernel)
  obtain ⟨ready, shown, hreported, -, hshown, htells⟩ :=
    readiness_foretold.2 .human none podFlags downText b d hb hd howned hrun
  rw [hready] at hreported
  cases hreported
  exact ⟨b, d, shown, hb, hd, howned, hrun, hready, hshown, htells⟩

end Controller

end Reconciler
