import Reconciler.Run.Commit
import Reconciler.Proofs.Inventory.Plan
import Reconciler.Proofs.Run.Effect

/-! A commit is the trace of the actions of its plan. The effect of an action depends on nothing but
the action. -/
namespace Reconciler

open Inventory (Action Change Due Entry Key Plan Sound)

variable {s s' : Run} {k : Key} {a : Action}

namespace Resource

variable {r o : Resource} {owner : Ref}

/-- A resource as its owner keeps it: annotated with the owner, and not flagged. -/
def renew (r : Resource) (owner : Ref) : Except Fault Resource :=
  (r.unannotated deleteAnnotation).setOwner owner

theorem sameBody_renew (h : r.renew owner = .ok o) : SameBody r o :=
  (SameBody.unannotated r _).trans (SameBody.annotated h)

/-- A resource that is kept, and may be annotated with an owner, has the same body. -/
theorem sameBody_kept {p : Prop} [Decidable p]
    (h : (if p then (r.unannotated deleteAnnotation).setOwner owner
      else .ok (r.unannotated deleteAnnotation)) = .ok o) : SameBody r o := by
  split at h
  · exact sameBody_renew h
  · cases h
    exact SameBody.unannotated r _

theorem annotation?_renew (h : r.renew owner = .ok o) :
    o.annotation? ownerAnnotation = some (Subject.singleType owner) :=
  annotation?_setAnnotation_self h

theorem isFlagged_renew (h : r.renew owner = .ok o) : o.isFlagged = false := by
  rw [isFlagged_setOwner h, isFlagged_unannotated]

theorem wellFormed_renew (hr : r.root.WellFormed) (h : r.renew owner = .ok o) :
    o.root.WellFormed :=
  wellFormed_annotated (wellFormed_unannotated hr _) h

end Resource

theorem Run.prepared_owned (owner target : Ref) (exchange : Option Exchange) (r : Resource) :
    prepared ⟨.owned owner target, exchange, r⟩ = r.renew owner := by
  rw [prepared]
  exact if_pos rfl

theorem Run.prepared_governed (target : Ref) (exchange : Option Exchange) (r : Resource) :
    prepared ⟨.governed target, exchange, r⟩ =
      .ok (r.unannotated Resource.deleteAnnotation) := by
  rw [prepared]
  exact if_neg (by simp [Key.governed])

theorem Run.sameBody_prepared {change : Change} {o : Resource} (h : prepared change = .ok o) :
    Resource.SameBody change.resource o :=
  Resource.sameBody_kept h

namespace Inventory

def retireEffect (k : Key) (r : Resource) : Effect :=
  if r.isFlagged then .idle k
  else match r.flagForDeletion with
    | .error _ => .reject k
    | .ok flagged => ⟨k, some flagged, some none, false⟩

def writeEffect (isUpdate : Bool) (change : Change) : Effect :=
  if !Ref.isOwnerChild change.key.refs then .reject change.key
  else match Run.prepared change with
    | .error _ => .reject change.key
    | .ok r => {
        key := change.key
        item := if change.exchange.all Exchange.hasResource then some r else none
        condition :=
          if isUpdate && (change.key.role = .owned && change.exchange.any Exchange.hasCondition)
          then some (some (Run.pending change.key "update" "update resource")) else none
        rejected := false }

def Action.effect : Action → Effect
  | .fault k _ => .reject k
  | .drop k => ⟨k, none, some none, false⟩
  | .retire change => retireEffect change.key change.resource
  | .announce k => ⟨k, none, some (some (Run.pending k "create" "create initial resource")), false⟩
  | .write isUpdate change => writeEffect isUpdate change

section Retire

variable {k : Key} {r : Resource}

/-- All that a soft deletion can do. -/
theorem retireEffect_cases (k : Key) (r : Resource) :
    r.isFlagged = true ∧ retireEffect k r = .idle k ∨
    r.isFlagged = false ∧ (∃ fault, r.flagForDeletion = .error fault) ∧
      retireEffect k r = .reject k ∨
    r.isFlagged = false ∧ ∃ flagged, r.flagForDeletion = .ok flagged ∧
      retireEffect k r = ⟨k, some flagged, some none, false⟩ := by
  rw [retireEffect]
  cases r.isFlagged with
  | true => exact .inl ⟨rfl, if_pos rfl⟩
  | false =>
    rw [if_neg Bool.false_ne_true]
    cases r.flagForDeletion with
    | error fault => exact .inr (.inl ⟨rfl, ⟨fault, rfl⟩, rfl⟩)
    | ok flagged => exact .inr (.inr ⟨rfl, flagged, rfl, rfl⟩)

@[simp] theorem key_retireEffect (k : Key) (r : Resource) : (retireEffect k r).key = k := by
  rcases retireEffect_cases k r with ⟨-, he⟩ | ⟨-, -, he⟩ | ⟨-, flagged, -, he⟩ <;> rw [he] <;> rfl

theorem retireEffect_item {flagged : Resource} (h : (retireEffect k r).item = some flagged) :
    r.isFlagged = false ∧ r.flagForDeletion = .ok flagged := by
  rcases retireEffect_cases k r with ⟨-, he⟩ | ⟨-, -, he⟩ | ⟨hf, flagged', hflag, he⟩ <;>
    rw [he] at h <;> cases h
  exact ⟨hf, hflag⟩

theorem retireEffect_of_flagged (hf : r.isFlagged = true) : retireEffect k r = .idle k := if_pos hf

/-- A retirement that is not rejected flags the resource. -/
theorem retireEffect_eq_of_not_rejected (hf : r.isFlagged = false)
    (h : (retireEffect k r).rejected = false) :
    ∃ flagged, r.flagForDeletion = .ok flagged ∧
      retireEffect k r = ⟨k, some flagged, some none, false⟩ := by
  rcases retireEffect_cases k r with ⟨hf', -⟩ | ⟨-, -, he⟩ | ⟨-, hflagged⟩
  · cases hf.symm.trans hf'
  · rw [he] at h
    cases h
  · exact hflagged

theorem retireEffect_of_not_rejected (hf : r.isFlagged = false)
    (h : (retireEffect k r).rejected = false) :
    ∃ flagged, r.flagForDeletion = .ok flagged ∧ (retireEffect k r).item = some flagged := by
  obtain ⟨flagged, hflag, he⟩ := retireEffect_eq_of_not_rejected hf h
  exact ⟨flagged, hflag, by rw [he]⟩

theorem retireEffect_of_rejected (h : (retireEffect k r).rejected = true) :
    retireEffect k r = .reject k := by
  rcases retireEffect_cases k r with ⟨-, he⟩ | ⟨-, -, he⟩ | ⟨-, flagged, -, he⟩
  · rw [he] at h
    cases h
  · exact he
  · rw [he] at h
    cases h

theorem retireEffect_condition {x : Option Condition} (h : (retireEffect k r).condition = some x) :
    x = none := by
  rcases retireEffect_cases k r with ⟨-, he⟩ | ⟨-, -, he⟩ | ⟨-, flagged, -, he⟩ <;>
    rw [he] at h <;> cases h
  rfl

/-- A retirement drops the condition only along with the item that it flags. -/
theorem retireEffect_condition_of_item_none (h : (retireEffect k r).item = none) :
    (retireEffect k r).condition = none := by
  rcases retireEffect_cases k r with ⟨-, he⟩ | ⟨-, -, he⟩ | ⟨-, flagged, -, he⟩
  · rw [he]
    rfl
  · rw [he]
    rfl
  · rw [he] at h
    cases h

end Retire

section Write

variable {isUpdate : Bool} {change : Change} {r : Resource}

/-- All that the write of a created or updated resource can do. -/
theorem writeEffect_cases (isUpdate : Bool) (change : Change) :
    (Ref.isOwnerChild change.key.refs = false ∨ ∃ fault, Run.prepared change = .error fault) ∧
      writeEffect isUpdate change = .reject change.key ∨
    Ref.isOwnerChild change.key.refs = true ∧ ∃ r, Run.prepared change = .ok r ∧
      writeEffect isUpdate change = {
        key := change.key
        item := if change.exchange.all Exchange.hasResource then some r else none
        condition :=
          if isUpdate && (change.key.role = .owned && change.exchange.any Exchange.hasCondition)
          then some (some (Run.pending change.key "update" "update resource")) else none
        rejected := false } := by
  rw [writeEffect]
  cases Ref.isOwnerChild change.key.refs with
  | false => exact .inl ⟨.inl rfl, if_pos rfl⟩
  | true =>
    rw [if_neg (by simp)]
    cases Run.prepared change with
    | error fault => exact .inl ⟨.inr ⟨fault, rfl⟩, rfl⟩
    | ok r => exact .inr ⟨rfl, r, rfl, rfl⟩

@[simp] theorem key_writeEffect (isUpdate : Bool) (change : Change) :
    (writeEffect isUpdate change).key = change.key := by
  obtain ⟨-, he⟩ | ⟨-, r, -, he⟩ := writeEffect_cases isUpdate change
  · rw [he, Effect.reject]
  · rw [he]

/-- What is written is the prepared resource, as far as its class is exchanged by resources. -/
theorem writeEffect_item_iff :
    (writeEffect isUpdate change).item = some r ↔ Run.prepared change = .ok r ∧
      change.exchange.all Exchange.hasResource = true ∧
      Ref.isOwnerChild change.key.refs = true := by
  rcases writeEffect_cases isUpdate change with ⟨ho | ⟨fault, hprep⟩, he⟩ | ⟨ho, r', hprep, he⟩
  · simp [he, ho, Effect.reject]
  · simp [he, hprep, Effect.reject]
  · simp [he, ho, hprep, and_comm]

/-- A governed resource is written under a reference that is a target. -/
theorem writeEffect_governed (isUpdate : Bool) (r : Ref) (o : Resource) :
    writeEffect isUpdate ⟨.governed r, none, o⟩ =
      if r.isTarget then ⟨.governed r, some (o.unannotated Resource.deleteAnnotation), none, false⟩
      else .reject (.governed r) := by
  rw [writeEffect, Run.prepared_governed]
  change (if (!r.isTarget) = true then _ else _) = _
  cases r.isTarget <;> simp [Key.governed]

/-- A write that is not rejected brings the prepared resource, unless there is none to bring. -/
theorem writeEffect_of_not_rejected (h : (writeEffect isUpdate change).rejected = false)
    (hx : change.exchange.all Exchange.hasResource = true) :
    ∃ r, Run.prepared change = .ok r ∧ (writeEffect isUpdate change).item = some r := by
  rcases writeEffect_cases isUpdate change with ⟨-, he⟩ | ⟨-, r, hprep, he⟩
  · rw [he] at h
    cases h
  · rw [he]
    exact ⟨r, hprep, if_pos hx⟩

private theorem writeEffect_condition {x : Option Condition}
    (h : (writeEffect isUpdate change).condition = some x) : isUpdate = true ∧
      change.key.role = .owned ∧ x = some (Run.pending change.key "update" "update resource") := by
  rcases writeEffect_cases isUpdate change with ⟨-, he⟩ | ⟨-, r, -, he⟩
  · rw [he] at h
    cases h
  · simp only [he, Option.ite_none_right_eq_some, Option.some.injEq, Bool.and_eq_true,
      decide_eq_true_eq] at h
    exact ⟨h.1.1, h.1.2.1, h.2.symm⟩

/-- Only updates put a condition, and only along with an item. -/
theorem writeEffect_condition_of_item_none (hx : change.exchange.all Exchange.hasResource = true)
    (h : (writeEffect isUpdate change).item = none) :
    (writeEffect isUpdate change).condition = none := by
  rcases writeEffect_cases isUpdate change with ⟨-, he⟩ | ⟨-, r, -, he⟩
  · rw [he]
    rfl
  · rw [he] at h
    cases h.symm.trans (if_pos hx)

theorem writeEffect_condition_of_create (change : Change) :
    (writeEffect false change).condition = none := by
  rw [Option.eq_none_iff_forall_ne_some]
  intro x hx
  cases (writeEffect_condition hx).1

/-- An update that brings an exchanged child makes its condition false. -/
theorem writeEffect_condition_of_update (hr : change.key.role = .owned)
    (hx : change.exchange.any Exchange.hasCondition = true)
    (hi : (writeEffect true change).item = some r) : (writeEffect true change).condition =
      some (some (Run.pending change.key "update" "update resource")) := by
  rcases writeEffect_cases true change with ⟨-, he⟩ | ⟨-, r, -, he⟩
  · rw [he] at hi
    cases hi
  · simp [he, hr, hx]

theorem writeEffect_condition_ne (isUpdate : Bool) (change : Change) :
    (writeEffect isUpdate change).condition ≠ some none := by
  intro h
  cases (writeEffect_condition h).2.2

/-- Only a child has a condition that is written with it. -/
theorem writeEffect_condition_of_ne (h : change.key.role ≠ .owned) :
    (writeEffect isUpdate change).condition = none := by
  rw [Option.eq_none_iff_forall_ne_some]
  intro x hx
  exact h (writeEffect_condition hx).2.1

end Write

@[simp] theorem Action.key_effect (a : Action) : a.effect.key = a.key := by
  cases a <;> simp [Action.effect, Action.key, Effect.reject]

/-- Whatever condition an action puts is false. -/
theorem isFalse_of_effect {a : Action} {x : Condition} (h : a.effect.condition = some (some x)) :
    x.isFalse = true := by
  cases a with
  | fault => cases h
  | drop => cases h
  | retire =>
    have hnone := retireEffect_condition h
    cases hnone
  | announce =>
    cases h
    rfl
  | write =>
    obtain ⟨-, -, hx⟩ := writeEffect_condition h
    cases hx
    rfl

/-- The actions with an item: an entry calls for the retirement of what it holds, or for the write
of what it is to hold. -/
theorem Due.item_cases {e : Entry} (h : Due k e a) (hi : a.effect.item ≠ none) :
    (∃ old, a = .retire ⟨k, e.exchange, old⟩ ∧ k.role = .owned ∧ e.hasResource = true ∧
      e.existing = some old ∧ old.isFlagged = false ∧ e.desired = none) ∨
    ∃ new, a = .write e.existing.isSome ⟨k, e.exchange, new⟩ ∧ e.materializes k ∧
      e.desired = some new := by
  cases h with
  | fault => exact absurd rfl hi
  | drop => exact absurd rfl hi
  | announce => exact absurd rfl hi
  | retire hr hm hold hf hd => exact .inl ⟨_, rfl, hr, hm, hold, hf, hd⟩
  | create hm hnone hd => exact .inr ⟨_, by rw [hnone]; rfl, hm, hd⟩
  | update hm hold hd => exact .inr ⟨_, by rw [hold]; rfl, hm, hd⟩

end Inventory

/-- What a report says besides its stage and its counters of writes and failures. -/
def Report.remarks (r : Report) : Nat × Nat × Option Bool := (r.unmatched, r.generated, r.ready)

open Inventory

namespace Run

section Operations

theorem holds_reject {owner place : Ref} {message : String} (hk : k.parent = owner) (s : Run) :
    (Effect.reject k).Holds s (s.fail owner place message) where
  controller := rfl
  manifestIndex := rfl
  source := rfl
  items := rfl
  objectsWritten := rfl
  conditions := rfl
  typeName := by simp [Effect.reject]
  failed o := by
    subst hk
    simp only [fail, Effect.reject, true_and]
    split
    · rename_i hm
      exact ⟨.inl, fun h => h.elim id fun he => he ▸ hm⟩
    · simp
  elsewhere _ _ := rfl
  existing := rfl
  condition := rfl

private theorem holds_failEntry (k : Key) (message : String) (s : Run) :
    (Effect.reject k).Holds s (s.failEntry k message) :=
  holds_reject rfl s

private theorem holds_idle (k : Key) (s : Run) : (Effect.idle k).Holds s s where
  controller := rfl
  manifestIndex := rfl
  source := rfl
  items := rfl
  objectsWritten := rfl
  conditions := rfl
  typeName := by simp [Effect.idle]
  failed := by simp [Effect.idle]
  elsewhere _ _ := rfl
  existing := rfl
  condition := rfl

theorem holds_writeCondition {x : Condition} (hx : x.typeName = k.conditionType) (s : Run) :
    (⟨k, none, some (some x), false⟩ : Effect).Holds s (s.writeCondition k x) where
  controller := rfl
  manifestIndex := rfl
  source := rfl
  items := rfl
  objectsWritten := by
    simp only [writeCondition]
    split <;> rfl
  conditions := rfl
  typeName := by
    rintro _ ⟨⟩
    exact hx
  failed := by simp [writeCondition]
  elsewhere _ hk := find?_update_of_ne hk
  existing := existing?_setCondition
  condition := by
    simp only [writeCondition, condition?_setCondition, if_true]
    rfl

theorem holds_deleteCondition (k : Key) (s : Run) :
    (⟨k, none, some none, false⟩ : Effect).Holds s (s.deleteCondition k) where
  controller := rfl
  manifestIndex := rfl
  source := rfl
  items := rfl
  objectsWritten := by
    simp only [deleteCondition]
    split <;> rfl
  conditions := rfl
  typeName := by simp
  failed := by simp [deleteCondition]
  elsewhere _ hk := find?_clearCondition_of_ne hk
  existing := existing?_clearCondition
  condition := by
    simp only [deleteCondition, condition?_clearCondition, if_true]
    rfl

private theorem holds_writeItem (k : Key) (r : Resource) (s : Run) :
    (⟨k, some r, none, false⟩ : Effect).Holds s
      { s.writeItem r with inventory := s.inventory.setResource k r } where
  controller := rfl
  manifestIndex := rfl
  source := rfl
  items := rfl
  objectsWritten := by
    simp only [writeItem, Effect.writeTo]
    split
    · rename_i hw
      simp [hw]
    · rename_i hw
      simp [hw]
  conditions := rfl
  typeName := by simp
  failed := by simp [writeItem]
  elsewhere _ hk := find?_update_of_ne hk
  existing := by
    simp only [existing?_setResource, if_true]
    rfl
  condition := condition?_setResource

theorem holds_softDelete (k : Key) (r : Resource) (s : Run) :
    (retireEffect k r).Holds s (s.softDelete k r) := by
  rw [retireEffect, softDelete]
  by_cases hf : r.isFlagged = true
  · simp only [hf, if_true]
    exact holds_idle k s
  · simp only [hf, Bool.false_eq_true, if_false]
    cases r.flagForDeletion with
    | error fault => exact holds_reject rfl s
    | ok flagged =>
      exact (holds_writeItem k flagged s).join (holds_deleteCondition k _) rfl (.inr rfl) (.inl rfl)

private theorem holds_writeChange (isUpdate : Bool) (change : Change) (s : Run) :
    (writeEffect isUpdate change).Holds s (writeChange isUpdate s change) := by
  rw [writeEffect, writeChange]
  simp only
  by_cases ho : (!Ref.isOwnerChild change.key.refs) = true
  · rw [if_pos ho, if_pos ho]
    exact holds_failEntry _ _ s
  · rw [if_neg ho, if_neg ho]
    cases prepared change with
    | error fault => exact holds_failEntry _ _ s
    | ok r =>
      have hput := holds_writeCondition (k := change.key)
        (x := pending change.key "update" "update resource") rfl s
      simp only
      by_cases hu : (isUpdate && (decide (change.key.role = .owned) &&
          change.exchange.any Exchange.hasCondition)) = true
      · rw [if_pos hu, if_pos hu]
        split
        · exact hput.join (holds_writeItem change.key r _) rfl (.inl rfl) (.inr rfl)
        · exact hput
      · rw [if_neg hu, if_neg hu]
        split
        · exact holds_writeItem change.key r s
        · exact holds_idle change.key s

end Operations

def perform (s : Run) : Action → Run
  | .fault k fault => s.failEntry k s!"{Ref.ownerChildText k.refs}: {fault.message}"
  | .drop k => s.deleteCondition k
  | .retire change => s.softDelete change.key change.resource
  | .announce k => s.writeCondition k (pending k "create" "create initial resource")
  | .write isUpdate change => writeChange isUpdate s change

private theorem holds_perform (s : Run) (a : Action) : a.effect.Holds s (s.perform a) := by
  cases a with
  | fault k fault => exact holds_failEntry _ _ s
  | drop k => exact holds_deleteCondition k s
  | retire change => exact holds_softDelete _ _ s
  | announce k => exact holds_writeCondition rfl s
  | write isUpdate change => exact holds_writeChange _ _ s

theorem commit_eq_foldl (s : Run) (p : Plan) : s.commit p = p.schedule.foldl perform s := by
  simp only [commit, Plan.schedule, Plan.departures, Plan.arrivals, List.foldl_append,
    List.foldl_map]
  rfl

private theorem trace_foldl_perform (s : Run) (as : List Action) :
    Trace (as.map Action.effect) s (as.foldl perform s) := by
  induction as generalizing s with
  | nil => exact .nil s
  | cons a as ih => exact .cons (s.holds_perform a) (ih _)

theorem trace_commit (s : Run) (p : Plan) :
    Trace (p.schedule.map Action.effect) s (s.commit p) := by
  rw [commit_eq_foldl]
  exact s.trace_foldl_perform p.schedule

section Keep

private theorem desired?_perform (s : Run) (a : Action) (k : Key) :
    (s.perform a).inventory.desired? k = s.inventory.desired? k := by
  cases a with
  | fault k' fault => rfl
  | drop k' => exact desired?_clearCondition
  | announce k' => exact desired?_setCondition
  | retire change =>
    rw [perform, softDelete]
    split
    · rfl
    · split
      · rfl
      · exact desired?_clearCondition.trans desired?_setResource
  | write isUpdate change =>
    rw [perform, writeChange]
    simp only
    split
    · rfl
    · split
      · rfl
      · split <;> split <;> simp [writeCondition, writeItem]

theorem desired?_commit (s : Run) (p : Plan) (k : Key) :
    (s.commit p).inventory.desired? k = s.inventory.desired? k := by
  rw [commit_eq_foldl]
  induction p.schedule generalizing s with
  | nil => rfl
  | cons a as ih => rw [List.foldl_cons, ih, desired?_perform]

theorem calls_perform (s : Run) (a : Action) : (s.perform a).calls = s.calls := by
  cases a with
  | fault k' fault => rfl
  | drop k' => rfl
  | announce k' => rfl
  | retire change =>
    rw [perform, softDelete]
    split
    · rfl
    · split <;> rfl
  | write isUpdate change =>
    rw [perform, writeChange]
    simp only
    split
    · rfl
    · split
      · rfl
      · split <;> split <;> rfl

theorem calls_commit (s : Run) (p : Plan) : (s.commit p).calls = s.calls := by
  rw [commit_eq_foldl]
  induction p.schedule generalizing s with
  | nil => rfl
  | cons a as ih => rw [List.foldl_cons, ih, calls_perform]

private theorem remarks_writeItem (s : Run) (r : Resource) :
    (s.writeItem r).report.remarks = s.report.remarks := by
  simp only [writeItem]
  split <;> rfl

theorem remarks_writeCondition (s : Run) (k : Key) (x : Condition) :
    (s.writeCondition k x).report.remarks = s.report.remarks := by
  simp only [writeCondition]
  split <;> rfl

theorem remarks_deleteCondition (s : Run) (k : Key) :
    (s.deleteCondition k).report.remarks = s.report.remarks := by
  simp only [deleteCondition]
  split <;> rfl

/-- No action counts as a generation or looks at the readiness of the package. -/
theorem remarks_perform (s : Run) (a : Action) :
    (s.perform a).report.remarks = s.report.remarks := by
  cases a with
  | fault k' fault => rfl
  | drop k' => exact s.remarks_deleteCondition k'
  | announce k' => exact s.remarks_writeCondition k' _
  | retire change =>
    rw [perform, softDelete]
    split
    · rfl
    · split
      · rfl
      · exact (remarks_deleteCondition _ _).trans (s.remarks_writeItem _)
  | write isUpdate change =>
    rw [perform, writeChange]
    simp only
    split
    · rfl
    · split
      · rfl
      · split <;> split <;> simp only [remarks_writeItem, remarks_writeCondition]

theorem remarks_commit (s : Run) (p : Plan) :
    (s.commit p).report.remarks = s.report.remarks := by
  rw [commit_eq_foldl]
  induction p.schedule generalizing s with
  | nil => rfl
  | cons a as ih => rw [List.foldl_cons, ih, remarks_perform]

/-- Carrying out a plan of the inventory adds no entry. -/
theorem isSome_find?_commit {test : Key → Bool}
    (hk : ((s.commit (s.inventory.plan test)).inventory.find? k).isSome = true) :
    (s.inventory.find? k).isSome = true := by
  by_cases htouched : ∃ a ∈ (s.inventory.plan test).schedule, a.key = k
  · obtain ⟨a, ha, rfl⟩ := htouched
    obtain ⟨e, hf, -⟩ := mem_schedule_plan.1 ha
    rw [hf]
    rfl
  · rwa [(s.trace_commit _).find?_of_untouched fun e he hek => ?_] at hk
    obtain ⟨a, ha, rfl⟩ := List.mem_map.1 he
    rw [Action.key_effect] at hek
    exact htouched ⟨a, ha, hek⟩

end Keep

section Sound

variable {c : Controller} {p : Plan}

private def Grounded (inv : Inventory) : Action → Prop
  | .retire change => inv.existing? change.key ≠ none
  | .announce k => inv.desired? k ≠ none
  | .write _ change => inv.desired? change.key ≠ none
  | _ => True

private theorem grounded_of_due {inv : Inventory} {e : Inventory.Entry} (he : inv.find? k = some e)
    (h : Due k e a) : Grounded inv a := by
  have hex : inv.existing? k = e.existing := by rw [existing?, entryAt_of_find? he]
  have hd : inv.desired? k = e.desired := by rw [desired?, entryAt_of_find? he]
  cases h with
  | fault => trivial
  | drop => trivial
  | retire _ _ hold => simp [Grounded, hex, hold]
  | announce _ _ _ hnew => simp [Grounded, hd, hnew]
  | create _ _ hnew => simp [Grounded, hd, hnew]
  | update _ _ hnew => simp [Grounded, hd, hnew]

private theorem Grounded.perform {a' : Action} (h : Grounded s.inventory a) :
    Grounded (s.perform a').inventory a := by
  have hd := desired?_perform s a'
  have hex (k : Key) (hk : s.inventory.existing? k ≠ none) :
      (s.perform a').inventory.existing? k ≠ none := by
    by_cases he : k = a'.effect.key
    · rw [he, (s.holds_perform a').existing, ← he]
      simp [hk]
    · rwa [(s.holds_perform a').existing?_of_ne he]
  cases a with
  | fault k fault => trivial
  | drop k => trivial
  | retire change => exact hex _ h
  | announce k => rwa [Grounded, hd]
  | write isUpdate change => rwa [Grounded, hd]

private theorem sound_perform (h : Sound c s.inventory) (hg : Grounded s.inventory a) :
    Sound c (s.perform a).inventory := by
  cases a with
  | fault k fault => exact h
  | drop k => exact h.clearCondition k
  | announce k => exact h.setCondition (h.isSome_find?_iff.2 (.inr (.inr hg)))
  | retire change =>
    rw [Run.perform, softDelete]
    split
    · exact h
    · split
      · exact h
      · exact (h.setResource (h.isSome_find?_iff.2 (.inr (.inl hg)))).clearCondition _
  | write isUpdate change =>
    have hk := h.isSome_find?_iff.2 (.inr (.inr hg))
    have hput (x : Condition) : Sound c (s.inventory.setCondition change.key x) := h.setCondition hk
    have hk' (x : Condition) : ((s.inventory.setCondition change.key x).find? change.key).isSome := by
      rw [setCondition, find?_update_self]
      rfl
    rw [Run.perform, writeChange]
    simp only
    split
    · exact h
    · split
      · exact h
      · split
        · split
          · exact (hput _).setResource (hk' _)
          · exact h.setResource hk
        · split
          · exact hput _
          · exact h

/-- Carrying out a plan of the inventory keeps it sound. -/
theorem sound_commit (h : Sound c s.inventory) (test : Key → Bool) :
    Sound c (s.commit (s.inventory.plan test)).inventory := by
  have hg : ∀ a ∈ (s.inventory.plan test).schedule, Grounded s.inventory a := by
    intro a ha
    obtain ⟨e, he, -, hdue⟩ := mem_schedule_plan.1 ha
    exact grounded_of_due he hdue
  rw [commit_eq_foldl]
  generalize (s.inventory.plan test).schedule = as at hg
  induction as generalizing s with
  | nil => exact h
  | cons a as ih =>
    exact ih (sound_perform h (hg a List.mem_cons_self))
      fun a' ha' => (hg a' (List.mem_cons_of_mem _ ha')).perform

end Sound

end Run

end Reconciler
