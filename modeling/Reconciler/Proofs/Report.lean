import Reconciler.Proofs.Misdeclared

/-! The report of a run tells the truth: failures are counted as errors are told, and where nothing
is counted as written or deleted, items and conditions are as they were. -/
namespace Reconciler

open Inventory (Key)

variable {c : Controller} {b : Batch} {s s' s'' : Run}

namespace Run

/-- A value that stays as long as a counter stands still. -/
def Counted {α : Type} (n n' : Nat) (x x' : α) : Prop := n < n' ∨ n' = n ∧ x' = x

namespace Counted

variable {α : Type} {n n' n'' : Nat} {x x' x'' : α}

private theorem refl (n : Nat) (x : α) : Counted n n x x := .inr ⟨rfl, rfl⟩

private theorem trans (h : Counted n n' x x') (h' : Counted n' n'' x' x'') :
    Counted n n'' x x'' := by
  rcases h with h | ⟨rfl, rfl⟩
  · rcases h' with h' | ⟨rfl, rfl⟩
    · exact .inl (Nat.lt_trans h h')
    · exact .inl h
  · exact h'

private theorem eq (h : Counted n n' x x') (hn : n' = n) : x' = x :=
  h.elim (fun hlt => absurd hn (Nat.ne_of_gt hlt)) And.right

private theorem of_flag {flag : Bool} (h : flag = false → x' = x) :
    Counted n (n + flag.toNat) x x' := by
  cases flag with
  | false => exact .inr ⟨rfl, h rfl⟩
  | true => exact .inl (Nat.lt_succ_self n)

end Counted

/-- What was counted on the way from one state to the other. -/
private structure Accounted (s s' : Run) : Prop where
  source : s'.manifest.source = s.manifest.source
  notices : ∃ added, s'.batch.notices = s.batch.notices ++ added ∧
    s'.report.instanceFailures = s.report.instanceFailures +
      added.countP fun n => n.severity == .error
  items : Counted s.report.objectsWritten s'.report.objectsWritten s.batch.items s'.batch.items
  conditions : Counted (s.report.conditionsWritten + s.report.conditionsDeleted)
    (s'.report.conditionsWritten + s'.report.conditionsDeleted)
    s.manifest.conditions s'.manifest.conditions

private theorem Accounted.refl (s : Run) : Accounted s s :=
  ⟨rfl, ⟨[], by simp⟩, .refl _ _, .refl _ _⟩

private theorem Accounted.trans (h : Accounted s s') (h' : Accounted s' s'') : Accounted s s'' where
  source := h'.source.trans h.source
  notices := by
    obtain ⟨told, htold, hcount⟩ := h.notices
    obtain ⟨told', htold', hcount'⟩ := h'.notices
    refine ⟨told ++ told', by rw [htold', htold, List.append_assoc], ?_⟩
    rw [hcount', hcount, List.countP_append, Nat.add_assoc]
  items := h.items.trans h'.items
  conditions := h.conditions.trans h'.conditions

section Counters

private theorem counters_writeItem (s : Run) (r : Resource) : (s.writeItem r).report.counters =
    (s.report.objectsWritten + (s.batch.write r).2.toNat, s.report.conditionsWritten,
      s.report.conditionsDeleted, s.report.instanceFailures) := by
  simp only [writeItem]
  cases (s.batch.write r).2 <;> rfl

private theorem counters_writeCondition (s : Run) (k : Key) (x : Condition) :
    (s.writeCondition k x).report.counters =
      (s.report.objectsWritten, s.report.conditionsWritten + (s.manifest.setCondition x).2.toNat,
        s.report.conditionsDeleted, s.report.instanceFailures) := by
  simp only [writeCondition]
  cases (s.manifest.setCondition x).2 <;> rfl

private theorem counters_deleteCondition (s : Run) (k : Key) :
    (s.deleteCondition k).report.counters =
    (s.report.objectsWritten, s.report.conditionsWritten, s.report.conditionsDeleted +
      (s.manifest.deleteCondition k.conditionType).2.toNat, s.report.instanceFailures) := by
  simp only [deleteCondition]
  cases (s.manifest.deleteCondition k.conditionType).2 <;> rfl

end Counters

private theorem Step.accounted (h : Step s s') : Accounted s s' := by
  cases h with
  | silent batch manifest counters =>
    obtain ⟨hitems, hput, hdropped, hfailures⟩ := Report.counters_eq_iff.1 counters
    exact ⟨by rw [manifest], ⟨[], by simp [batch, hfailures]⟩, .inr ⟨hitems, by rw [batch]⟩,
      .inr ⟨by rw [hput, hdropped], by rw [manifest]⟩⟩
  | fail owner place message => exact ⟨rfl, ⟨_, rfl, rfl⟩, .refl _ _, .refl _ _⟩
  | inform message => exact ⟨rfl, ⟨_, rfl, rfl⟩, .refl _ _, .refl _ _⟩
  | writeItem r =>
    obtain ⟨hitems, hput, hdropped, hfailures⟩ :=
      Report.counters_eq_iff.1 (s.counters_writeItem r)
    have hnotices : (s.writeItem r).batch.notices = s.batch.notices := Batch.notices_write ..
    refine ⟨rfl, ⟨[], by simp [hnotices, hfailures]⟩, ?_, .inr ⟨by rw [hput, hdropped], rfl⟩⟩
    rw [hitems]
    exact .of_flag fun hflag => congrArg Batch.items (Batch.write_eq_of_unchanged hflag)
  | writeCondition k x =>
    obtain ⟨hitems, hput, hdropped, hfailures⟩ :=
      Report.counters_eq_iff.1 (s.counters_writeCondition k x)
    refine ⟨rfl, ⟨[], by simp [hfailures]; rfl⟩, .inr ⟨hitems, rfl⟩, ?_⟩
    rw [hput, hdropped, Nat.add_right_comm]
    exact .of_flag Manifest.putCondition_of_unchanged
  | deleteCondition k =>
    obtain ⟨hitems, hput, hdropped, hfailures⟩ :=
      Report.counters_eq_iff.1 (s.counters_deleteCondition k)
    refine ⟨rfl, ⟨[], by simp [hfailures]; rfl⟩, .inr ⟨hitems, rfl⟩, ?_⟩
    rw [hput, hdropped, ← Nat.add_assoc]
    exact .of_flag Manifest.dropCondition_of_unchanged

private theorem Steps.accounted (h : Steps s s') : Accounted s s' := by
  induction h with
  | refl => exact .refl s
  | tail _ hstep ih => exact ih.trans hstep.accounted

/-- All that happens to a started run before the manifest is written. -/
theorem steps_final (s : Run) : Steps s s.populateInventory.callWatches.2.populateChildren.final :=
  (s.steps_callWatches.trans (steps_populateChildren _)).trans
    ((steps_updateChildren _).trans (steps_generateAll _))

private theorem notices_writeManifest (s : Run) : ∃ added,
    s.writeManifest.batch.notices = s.batch.notices ++ added ∧
      (added.countP fun n => n.severity == .error) =
        if s.manifest.toResource.isOk then 0 else 1 := by
  rw [writeManifest]
  cases s.manifest.toResource with
  | ok r => exact ⟨[], by simp [atStage], rfl⟩
  | error fault => exact ⟨_, rfl, rfl⟩

private theorem items_writeManifest_of_mem {t : Run} {root : Resource}
    (hroot : root ∈ t.batch.items)
    (hid : root.identity = t.manifest.source.identity) (hd : Manifest.describes root = true) :
    t.writeManifest.batch.items.length = t.batch.items.length ∧
      ∀ (i : Nat) x, t.batch.items[i]? = some x → Manifest.describes x = false →
        t.writeManifest.batch.items[i]? = some x := by
  rw [items_writeManifest]
  split
  · rename_i r hr
    have hsame : r.identity = root.identity := (Manifest.identity_toResource hr).trans hid.symm
    constructor
    · rcases Batch.identities_write t.batch r with hids | ⟨hnew, -⟩
      · simpa using congrArg List.length hids
      · exact absurd (List.mem_map.2 ⟨root, hroot, hsame.symm⟩) hnew
    · intro i x hx hother
      rcases Batch.getElem?_write hx r with hkept | ⟨hother', -⟩
      · exact hkept
      · rw [← Manifest.describes_congr hother', Manifest.describes_congr hsame, hd] at hother
        cases hother
  · exact ⟨rfl, fun i x hx _ => hx⟩

end Run

namespace Controller

/-- What the report of a run tells, given the manifest that was loaded and the state at the end. -/
structure Truthful (c : Controller) (b : Batch) (loaded : Manifest) (t : Run) : Prop where
  outcome : c.run b = .ofRun t
  notices : ∃ added, (c.run b).batch.notices = b.notices ++ added ∧
    (added.countP fun n => n.severity == .error) =
      (c.run b).report.instanceFailures + if t.manifest.toResource.isOk then 0 else 1
  items : (c.run b).report.objectsWritten = 0 →
    (c.run b).batch.items.length = b.items.length ∧
      ∀ (i : Nat) x, b.items[i]? = some x → Manifest.describes x = false →
        (c.run b).batch.items[i]? = some x
  conditions : (c.run b).report.conditionsWritten = 0 → (c.run b).report.conditionsDeleted = 0 →
    t.manifest.conditions = loaded.conditions

theorem run_of_not_aborted (h : (c.run b).report.isAborted = false) :
    ∃ s₀ s, Run.start c b = .ok s₀ ∧ s₀.populateInventory.callWatches = (.ok (), s) ∧
      c.run b = .ofRun s.settle := by
  rw [run] at h ⊢
  cases hs : Run.start c b with
  | error fault =>
    rw [hs] at h
    cases h
  | ok s₀ =>
    rw [hs] at h
    simp only [Run.finish] at h ⊢
    cases hw : s₀.populateInventory.callWatches with
    | mk verdict s =>
      rw [hw] at h
      cases verdict with
      | error failure => cases h
      | ok _ => exact ⟨s₀, s, rfl, hw, rfl⟩

/-- The report of a run that is not aborted tells the truth about notices, items and conditions. -/
theorem report_truthful (h : (c.run b).report.isAborted = false) :
    ∃ s₀ s, Run.start c b = .ok s₀ ∧ s₀.populateInventory.callWatches = (.ok (), s) ∧
      Truthful c b s₀.manifest s.settle := by
  obtain ⟨s₀, s, hs, hw, hrun⟩ := run_of_not_aborted h
  obtain ⟨-, index, root, manifest, hroot, hload, rfl⟩ := Run.start_eq_ok_iff.1 hs
  obtain ⟨hsource, hd⟩ := Manifest.ofResource_eq_ok hload
  subst hsource
  have hfinal := (Run.loaded c b index manifest).steps_final.accounted
  rw [hw] at hfinal
  refine ⟨_, s, hs, hw, hrun, ?notices, ?items, ?conditions⟩
  case notices =>
    obtain ⟨told, htold, hcount⟩ := hfinal.notices
    obtain ⟨last, hlast, herror⟩ := s.populateChildren.final.notices_writeManifest
    refine ⟨told ++ last, ?_, ?_⟩
    · rw [hrun, ← List.append_assoc]
      exact hlast.trans (congrArg (· ++ last) htold)
    · have hfailures : (c.run b).report.instanceFailures =
          s.populateChildren.final.report.instanceFailures := by
        rw [hrun]
        rfl
      rw [List.countP_append, herror, hfailures, hcount]
      exact congrArg (· + _) (Nat.zero_add _).symm
  case items =>
    intro hwritten
    rw [hrun] at hwritten ⊢
    have hitems : s.populateChildren.final.batch.items = b.items := hfinal.items.eq hwritten
    have hmem := (Batch.rootManifest?_eq_some hroot).1
    have hkept := Run.items_writeManifest_of_mem (t := s.populateChildren.final)
      (hitems ▸ List.mem_of_getElem? hmem) (congrArg Resource.identity hfinal.source.symm) hd
    rw [hitems] at hkept
    exact hkept
  case conditions =>
    intro hput hdropped
    rw [hrun] at hput hdropped
    refine hfinal.conditions.eq ?_
    exact congrArg₂ (· + ·) hput hdropped

def declinedPackage : Batch :=
  .ofItems [manifestWith "req/v1.Interface.a_ipam/v1.IPAllocation.x" "True",
    .minimal ⟨"req/v1", "Interface"⟩ "a"]

/-- The interface fails, nothing is written for it, and the one error is about it. -/
theorem report_truthful_overreaching :
    (overreaching.run declinedPackage).report = ⟨.manifestWritten, 0, 0, 0, 0, 1, 0, some true⟩ ∧
    ∃ s₀ s, Run.start overreaching declinedPackage = .ok s₀ ∧
      s₀.populateInventory.callWatches = (.ok (), s) ∧
      Truthful overreaching declinedPackage s₀.manifest s.settle := by
  have hreport : (overreaching.run declinedPackage).report =
      ⟨.manifestWritten, 0, 0, 0, 0, 1, 0, some true⟩ := by decide +kernel
  exact ⟨hreport, report_truthful (by rw [hreport]; rfl)⟩

end Controller

end Reconciler
