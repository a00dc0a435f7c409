import Reconciler.Proofs.Abort
import Reconciler.Proofs.Encoding
import Reconciler.Proofs.Inspection

/-! What the command that runs a function says of an aborted run. Its watches never fail, so only a
fault at the start aborts it. -/
namespace Reconciler

/-- The fault that keeps a run from starting: that of the controller, else that of the package. -/
inductive Controller.StoppedBy (c : Controller) (b : Batch) : Fault → Prop where
  | invalid {fault : Fault} (hc : c.check = .error fault) : StoppedBy c b fault
  | empty (hc : c.check = .ok ()) (hi : b.items = []) : StoppedBy c b .emptyBatch
  | missing (hc : c.check = .ok ()) (hi : b.items ≠ []) (hr : b.rootManifest? = none) :
    StoppedBy c b .missingManifest
  | unreadable {fault : Fault} {index : Nat} {root : Resource} (hc : c.check = .ok ())
    (hi : b.items ≠ []) (hr : b.rootManifest? = some (index, root))
    (hm : Manifest.ofResource root = .error fault) : StoppedBy c b fault

namespace Run

variable {c : Controller} {b : Batch} {fault : Fault}

private theorem start_eq_error_iff : start c b = .error fault ↔ c.StoppedBy b fault := by
  constructor
  · intro h
    rw [start] at h
    cases hc : c.check with
    | error cause =>
      rw [hc] at h
      cases h
      exact .invalid hc
    | ok _ =>
      rw [hc] at h
      by_cases hi : b.items = []
      · simp only [hi, List.isEmpty_nil, if_true, bind, Except.bind] at h
        cases h
        exact .empty hc hi
      · simp only [List.isEmpty_iff, if_neg hi, bind, Except.bind] at h
        cases hr : b.rootManifest? with
        | none =>
          rw [hr] at h
          cases h
          exact .missing hc hi hr
        | some root =>
          cases hm : Manifest.ofResource root.2 with
          | error cause =>
            simp only [hr, hm] at h
            cases h
            exact .unreadable hc hi hr hm
          | ok manifest =>
            simp only [hr, hm] at h
            cases h
  · intro h
    rw [start]
    cases h with
    | invalid hc => rw [hc]; rfl
    | empty hc hi => rw [hc, hi]; rfl
    | missing hc hi hr =>
      simp only [hc, hr, List.isEmpty_iff, if_neg hi, bind, Except.bind]
      rfl
    | unreadable hc hi hr hm =>
      simp only [hc, hr, hm, List.isEmpty_iff, if_neg hi, bind, Except.bind]

end Run

namespace Declaration

variable {d : Declaration} {b : Batch}

private theorem watched_owning (c : Controller) (owned : List (Coordinate × Exchange)) :
    (owned.foldl (fun c e => c.owning e.1 e.2) c).watched = c.watched := by
  induction owned generalizing c with
  | nil => rfl
  | cons e owned ih => exact ih (c.owning e.1 e.2)

private theorem callback_eq_ok (d : Declaration) {watched : Coordinate}
    {callback : Resource → Except Failure Unit}
    (h : d.controller.watched.find? watched = some callback) (r : Resource) :
    callback r = .ok () := by
  rw [controller] at h
  refine List.foldlRecOn (motive := fun c : Controller => ∀ watched callback,
    c.watched.find? watched = some callback → ∀ r, callback r = .ok ()) d.watched _ ?_ ?_
    watched callback h r
  · intro watched callback hfind
    rw [watched_owning] at hfind
    cases hfind
  · intro c hall key _ watched callback hfind
    rw [Controller.watching] at hfind
    by_cases hk : watched = key
    · subst hk
      rw [SortedMap.find?_insert_self] at hfind
      cases hfind
      exact fun _ => rfl
    · rw [SortedMap.find?_insert_of_ne _ hk] at hfind
      exact hall watched callback hfind

private theorem run_of_aborted (h : (d.conditionController.run b).report.isAborted = true) :
    ∃ fault, d.conditionController.StoppedBy b fault ∧
      (d.conditionController.run b).batch =
        { b with notices := b.notices ++ [⟨fault.message, .error, none⟩] } := by
  cases hs : Run.start d.conditionController b with
  | error fault =>
    refine ⟨fault, Run.start_eq_error_iff.1 hs, ?_⟩
    rw [Controller.run, hs]
    rfl
  | ok s =>
    have hstarted : ¬ d.conditionController.Unstartable b := Run.start_isOk_iff.1 ⟨s, hs⟩
    rcases Controller.run_cases d.conditionController b with ⟨hun, -⟩ |
      ⟨-, before, w, failure, unmatched, hfirst, -⟩ | ⟨-, -, hstage⟩
    · exact absurd hun hstarted
    · obtain ⟨-, -, -, -, -, -, -, callback, hfind, hfails⟩ := hfirst
      rw [d.callback_eq_ok hfind] at hfails
      cases hfails
    · rw [Report.isAborted, hstage] at h
      cases h

end Declaration

namespace Command

variable {flags : Flags} {text : String} {b : Batch} {d : Declaration}

private theorem run_of_aborted (format : Format) (howned : d.owned = [])
    (h : (d.conditionController.run b).report.isAborted = true) :
    run format d b = ⟨batchText (d.conditionController.run b).batch format,
      some (aborted (d.conditionController.run b).batch)⟩ := by
  rw [run, howned]
  simp only [List.isEmpty_nil, Bool.not_true, Bool.false_eq_true, if_false, h, if_true]

private theorem aborted_notify (b : Batch) (notice : Notice) :
    aborted { b with notices := b.notices ++ [notice] } =
      ⟨"run aborted: " ++ (b.notices.head?.map Notice.message).getD notice.message, []⟩ := by
  rw [aborted]
  cases b.notices <;> rfl

/-- The command ends with the first notice of the list. It names the fault of an aborted run exactly
if no notice with another message stands before it. -/
theorem abort_announced (format : Format) (file : Option String) (hb : Batch.ofYaml text = .ok b)
    (hd : Declaration.ofFlags flags b.functionConfig = .ok d) (howned : d.owned = [])
    (h : (d.conditionController.run b).report.isAborted = true) :
    ∃ fault, d.conditionController.StoppedBy b fault ∧
      let shown : Batch := { b with notices := b.notices ++ [⟨fault.message, .error, none⟩] }
      let answer := Request.answer ⟨.run, file, format, flags⟩ (.ok text)
      (d.conditionController.run b).batch = shown ∧
      shown.toDocument.get? ["results"] = some (.array (shown.notices.map Notice.toDocument)) ∧
      answer.text = batchText shown format ∧
      answer.failure = some ⟨"run aborted: " ++
        (b.notices.head?.map Notice.message).getD fault.message, []⟩ ∧
      (answer.failure = some ⟨"run aborted: " ++ fault.message, []⟩ ↔
        ∀ n ∈ b.notices.head?, n.message = fault.message) := by
  obtain ⟨fault, hstopped, hbatch⟩ := Declaration.run_of_aborted h
  have hanswer : Request.answer ⟨.run, file, format, flags⟩ (.ok text) = run format d b :=
    answer_of_read hb hd
  rw [run_of_aborted format howned h, hbatch, aborted_notify] at hanswer
  refine ⟨fault, hstopped, hbatch, ?_, ?_, ?_, ?_⟩
  · rw [Batch.get?_results]
    simp
  · rw [hanswer]
  · rw [hanswer]
  · rw [hanswer]
    cases b.notices.head? <;> simp

def unservedText (notices : String) : String :=
  "apiVersion: config.kubernetes.io/v1\nkind: ResourceList\nitems:\n" ++
  "- \x7bapiVersion: req/v1, kind: Interface, metadata: \x7bname: a\x7d\x7d\n" ++ notices

def interfaceFlags : Flags := ⟨some "req/v1/Interface", [], []⟩

/-- Without other notices the command names the missing manifest. -/
theorem abort_announced_unserved : ∃ b d fault, Batch.ofYaml (unservedText "") = .ok b ∧
    Declaration.ofFlags interfaceFlags b.functionConfig = .ok d ∧ d.owned = [] ∧
    (d.conditionController.run b).report.isAborted = true ∧
    d.conditionController.StoppedBy b fault ∧
    (Request.answer ⟨.run, none, .human, interfaceFlags⟩ (.ok (unservedText ""))).failure =
      some ⟨"run aborted: " ++ fault.message, []⟩ := by
  obtain ⟨b, d, hb, hd, howned, hrun, hnotices⟩ : ∃ b d, Batch.ofYaml (unservedText "") = .ok b ∧
      Declaration.ofFlags interfaceFlags b.functionConfig = .ok d ∧ d.owned = [] ∧
      (d.conditionController.run b).report.isAborted = true ∧ b.notices = [] :=
    exists_of_read (by decide +kernel)
  obtain ⟨fault, hstopped, -, -, -, -, hnamed⟩ :=
    abort_announced .human none hb hd howned hrun
  have hfirst : ∀ n ∈ b.notices.head?, n.message = fault.message := by simp [hnotices]
  exact ⟨b, d, fault, hb, hd, howned, hrun, hstopped, hnamed.2 hfirst⟩

def checkedNotice : String := "results:\n- \x7bmessage: checked, severity: info\x7d\n"

/-- The notice of another function is named in place of the missing manifest. -/
theorem abort_misannounced : ∃ b d, Batch.ofYaml (unservedText checkedNotice) = .ok b ∧
    Declaration.ofFlags interfaceFlags b.functionConfig = .ok d ∧ d.owned = [] ∧
    (d.conditionController.run b).report.isAborted = true ∧
    (d.conditionController.run b).batch.notices =
      b.notices ++ [⟨Fault.missingManifest.message, .error, none⟩] ∧
    (Request.answer ⟨.run, none, .human, interfaceFlags⟩
      (.ok (unservedText checkedNotice))).failure = some ⟨"run aborted: checked", []⟩ := by
  obtain ⟨b, d, hb, hd, howned, hrun, hnotices, hfailure⟩ : ∃ b d,
      Batch.ofYaml (unservedText checkedNotice) = .ok b ∧
      Declaration.ofFlags interfaceFlags b.functionConfig = .ok d ∧ d.owned = [] ∧
      (d.conditionController.run b).report.isAborted = true ∧
      (d.conditionController.run b).batch.notices =
        b.notices ++ [⟨Fault.missingManifest.message, .error, none⟩] ∧
      (run .human d b).failure = some ⟨"run aborted: checked", []⟩ :=
    exists_of_read (by decide +kernel)
  refine ⟨b, d, hb, hd, howned, hrun, hnotices, ?_⟩
  rw [answer_of_read hb hd]
  exact hfailure

end Command

end Reconciler
