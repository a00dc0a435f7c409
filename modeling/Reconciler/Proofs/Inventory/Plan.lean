import Reconciler.Inventory.Plan
import Reconciler.Proofs.Inventory.Entries

/-! A plan as one schedule of actions, and which actions are due for an entry. -/
namespace Reconciler.Inventory

/-- One step of a plan. Creations and updates are both writes. -/
inductive Action where
  | fault (k : Key) (fault : Fault)
  | drop (k : Key)
  | retire (change : Change)
  | announce (k : Key)
  | write (isUpdate : Bool) (change : Change)
deriving DecidableEq

namespace Action

def key : Action → Key
  | .fault k _ => k
  | .drop k => k
  | .retire change => change.key
  | .announce k => k
  | .write _ change => change.key

def isWrite : Action → Bool
  | .write .. => true
  | _ => false

end Action

def Plan.departures (p : Plan) : List Action :=
  p.faults.map (fun f => .fault f.1 f.2) ++ p.staleConditions.map .drop ++ p.deletes.map .retire

def Plan.arrivals (p : Plan) : List Action :=
  p.newConditions.map .announce ++ p.creates.map (.write false) ++ p.updates.map (.write true)

/-- All actions in the order in which they are carried out. -/
def Plan.schedule (p : Plan) : List Action := p.departures ++ p.arrivals

/-- The resource that an entry holds or is to hold can be written to the package. -/
def Entry.materializes (k : Key) (e : Entry) : Prop := k.role = .owned → e.hasResource = true

/-- A child that needs no update is not flagged, and equals the desired one. -/
theorem isChanged_owned_eq_false {old new : Resource} (h : isChanged .owned old new = .ok false) :
    old.isFlagged = false ∧ old.subtreeEq new "spec" = .ok true := by
  rw [isChanged] at h
  split at h
  · cases h
  · rename_i hf
    refine ⟨by simpa using hf, ?_⟩
    cases hs : old.subtreeEq new "spec" with
    | error fault =>
      rw [hs] at h
      cases h
    | ok same =>
      rw [hs] at h
      cases same with
      | true => rfl
      | false => cases h

/-- The actions that an entry calls for. -/
inductive Due (k : Key) (e : Entry) : Action → Prop where
  | fault {old new : Resource} {fault : Fault} : e.materializes k → e.existing = some old →
      e.desired = some new → isChanged k.role old new = .error fault → Due k e (.fault k fault)
  | drop {x : Condition} : k.role = .owned → e.hasCondition = true → e.condition = some x →
      e.desired = none → Due k e (.drop k)
  | retire {old : Resource} : k.role = .owned → e.hasResource = true → e.existing = some old →
      old.isFlagged = false → e.desired = none → Due k e (.retire ⟨k, e.exchange, old⟩)
  | announce {new : Resource} {plan : Plan} : k.role = .owned → e.hasCondition = true →
      e.condition = none → e.desired = some new → resourcePlan k e = .ok plan →
      Due k e (.announce k)
  | create {new : Resource} : e.materializes k → e.existing = none → e.desired = some new →
      Due k e (.write false ⟨k, e.exchange, new⟩)
  | update {old new : Resource} : e.materializes k → e.existing = some old →
      e.desired = some new → isChanged k.role old new = .ok true →
      Due k e (.write true ⟨k, e.exchange, new⟩)

variable {inv : Inventory} {k : Key} {e : Entry} {test : Key → Bool} {a : Action}

section Entry

private theorem resourcePlan_cases (k : Key) (e : Entry) :
    (¬ e.materializes k ∧ resourcePlan k e = .ok .empty) ∨
    (e.materializes k ∧ resourcePlan k e =
      match e.existing, e.desired with
      | none, some new => .ok { Plan.empty with creates := [⟨k, e.exchange, new⟩] }
      | some old, none => .ok { Plan.empty with
          deletes := if k.role = .owned ∧ !old.isFlagged then [⟨k, e.exchange, old⟩] else [] }
      | some old, some new => (isChanged k.role old new).map fun changed =>
          { Plan.empty with updates := if changed then [⟨k, e.exchange, new⟩] else [] }
      | none, none => .ok .empty) := by
  rw [resourcePlan]
  by_cases hm : k.role = .owned ∧ (!e.hasResource) = true
  · left
    refine ⟨fun h => ?_, if_pos hm⟩
    rw [h hm.1] at hm
    cases hm.2
  · right
    rw [if_neg hm]
    refine ⟨fun hr => ?_, ?_⟩
    · cases hx : e.hasResource with
      | true => rfl
      | false => exact absurd ⟨hr, by rw [hx]; rfl⟩ hm
    · cases hex : e.existing with
      | none => cases e.desired <;> rfl
      | some old =>
        cases hd : e.desired with
        | none =>
          by_cases hf : k.role = .owned ∧ (!old.isFlagged) = true
          · simp only [hf, and_self, if_true]
          · simp only [hf, if_false]
            rfl
        | some new =>
          cases hc : isChanged k.role old new with
          | error fault => simp [bind, Except.bind, Except.map, hc]
          | ok changed =>
            cases changed <;> simp [bind, Except.bind, Except.map, hc, pure, Except.pure, Plan.empty]

private theorem schedule_fault (f : Fault) :
    a ∈ ({ Plan.empty with faults := [(k, f)] } : Plan).schedule ↔ a = .fault k f := by
  simp [Plan.schedule, Plan.departures, Plan.arrivals, Plan.empty]

private theorem mem_schedule_append (p q : Plan) :
    a ∈ (p ++ q).schedule ↔ a ∈ p.schedule ∨ a ∈ q.schedule := by
  have h : p ++ q = p.append q := rfl
  simp only [h, Plan.append, Plan.schedule, Plan.departures, Plan.arrivals, List.map_append,
    List.mem_append]
  grind

private theorem mem_conditionPlan : a ∈ (conditionPlan k e).schedule ↔
    k.role = .owned ∧ e.hasCondition = true ∧
      ((e.condition = none ∧ e.desired ≠ none ∧ a = .announce k) ∨
        (e.condition ≠ none ∧ e.desired = none ∧ a = .drop k)) := by
  rw [conditionPlan]
  by_cases h : k.role = .owned ∧ e.hasCondition = true
  · rw [if_pos h]
    cases hc : e.condition <;> cases hd : e.desired <;>
      simp [Plan.schedule, Plan.departures, Plan.arrivals, Plan.empty, h]
  · rw [if_neg h]
    simp only [Plan.schedule, Plan.departures, Plan.arrivals, Plan.empty, List.map_nil,
      List.append_nil, List.not_mem_nil, false_iff]
    exact fun ⟨hr, hx, _⟩ => h ⟨hr, hx⟩

private theorem mem_resourcePlan {p : Plan} (hp : resourcePlan k e = .ok p) :
    a ∈ p.schedule ↔ e.materializes k ∧
      ((∃ new, e.existing = none ∧ e.desired = some new ∧ a = .write false ⟨k, e.exchange, new⟩) ∨
        (∃ old, e.existing = some old ∧ e.desired = none ∧ k.role = .owned ∧
          old.isFlagged = false ∧ a = .retire ⟨k, e.exchange, old⟩) ∨
        (∃ old new, e.existing = some old ∧ e.desired = some new ∧
          isChanged k.role old new = .ok true ∧ a = .write true ⟨k, e.exchange, new⟩)) := by
  rcases resourcePlan_cases k e with ⟨hm, he⟩ | ⟨hm, he⟩
  · rw [he] at hp
    cases hp
    simp [hm, Plan.schedule, Plan.departures, Plan.arrivals, Plan.empty]
  · rw [he] at hp
    simp only [hm, true_and]
    cases hex : e.existing with
    | none =>
      rw [hex] at hp
      cases hd : e.desired with
      | none =>
        rw [hd] at hp
        cases hp
        simp [Plan.schedule, Plan.departures, Plan.arrivals, Plan.empty]
      | some new =>
        rw [hd] at hp
        cases hp
        simp [Plan.schedule, Plan.departures, Plan.arrivals, Plan.empty]
    | some old =>
      rw [hex] at hp
      cases hd : e.desired with
      | none =>
        rw [hd] at hp
        cases hp
        by_cases hf : k.role = .owned ∧ old.isFlagged = false
        · simp [Plan.schedule, Plan.departures, Plan.arrivals, Plan.empty, hf]
        · simp [Plan.schedule, Plan.departures, Plan.arrivals, Plan.empty, hf]
          intro hr hfl
          exact absurd ⟨hr, hfl⟩ hf
      | some new =>
        rw [hd] at hp
        simp only at hp
        cases hc : isChanged k.role old new with
        | error fault =>
          rw [hc] at hp
          cases hp
        | ok changed =>
          rw [hc] at hp
          cases hp
          cases changed <;>
            simp [Plan.schedule, Plan.departures, Plan.arrivals, Plan.empty, hc]

theorem resourcePlan_eq_error_iff {f : Fault} : resourcePlan k e = .error f ↔
    e.materializes k ∧ ∃ old new, e.existing = some old ∧ e.desired = some new ∧
      isChanged k.role old new = .error f := by
  rcases resourcePlan_cases k e with ⟨hm, he⟩ | ⟨hm, he⟩
  · simp [he, hm]
  · rw [he]
    cases hex : e.existing with
    | none => cases hd : e.desired <;> simp
    | some old =>
      cases hd : e.desired with
      | none => simp
      | some new =>
        cases hc : isChanged k.role old new <;> simp [Except.map, hm, hc]

private theorem due_iff_of_error {f : Fault} (hp : resourcePlan k e = .error f) :
    Due k e a ↔ a = .fault k f := by
  obtain ⟨hm, old, new, hex, hd, hc⟩ := resourcePlan_eq_error_iff.1 hp
  constructor
  · intro hdue
    cases hdue with
    | fault _ hex' hd' hc' =>
      cases hex.symm.trans hex'
      cases hd.symm.trans hd'
      cases hc.symm.trans hc'
      rfl
    | drop _ _ _ hd' => cases hd.symm.trans hd'
    | retire _ _ _ _ hd' => cases hd.symm.trans hd'
    | announce _ _ _ _ hp' => cases hp.symm.trans hp'
    | create _ hex' _ => cases hex.symm.trans hex'
    | update _ hex' hd' hc' =>
      cases hex.symm.trans hex'
      cases hd.symm.trans hd'
      cases hc.symm.trans hc'
  · rintro rfl
    exact .fault hm hex hd hc

private theorem mem_entryPlan : a ∈ (entryPlan k e).schedule ↔ Due k e a := by
  rw [entryPlan]
  cases hp : resourcePlan k e with
  | error f => exact (schedule_fault f).trans (due_iff_of_error hp).symm
  | ok p =>
    simp only [mem_schedule_append, mem_resourcePlan hp, mem_conditionPlan]
    constructor
    · rintro (⟨hm, ⟨new, hex, hd, rfl⟩ | ⟨old, hex, hd, hr, hf, rfl⟩ | ⟨old, new, hex, hd, hc, rfl⟩⟩ |
        ⟨hr, hx, ⟨hc, hd, rfl⟩ | ⟨hc, hd, rfl⟩⟩)
      · exact .create hm hex hd
      · exact .retire hr (hm hr) hex hf hd
      · exact .update hm hex hd hc
      · obtain ⟨new, hd⟩ := Option.ne_none_iff_exists'.1 hd
        exact .announce hr hx hc hd hp
      · obtain ⟨x, hc⟩ := Option.ne_none_iff_exists'.1 hc
        exact .drop hr hx hc hd
    · intro h
      cases h with
      | fault hm hex hd hc =>
        have herr := resourcePlan_eq_error_iff.2 ⟨hm, _, _, hex, hd, hc⟩
        rw [hp] at herr
        cases herr
      | drop hr hx hc hd => exact .inr ⟨hr, hx, .inr ⟨by simp [hc], hd, rfl⟩⟩
      | retire hr hx hex hf hd => exact .inl ⟨fun _ => hx, .inr (.inl ⟨_, hex, hd, hr, hf, rfl⟩)⟩
      | announce hr hx hc hd hp => exact .inr ⟨hr, hx, .inl ⟨hc, by simp [hd], rfl⟩⟩
      | create hm hex hd => exact .inl ⟨hm, .inl ⟨_, hex, hd, rfl⟩⟩
      | update hm hex hd hc => exact .inl ⟨hm, .inr (.inr ⟨_, _, hex, hd, hc, rfl⟩)⟩

theorem Due.key_eq (h : Due k e a) : a.key = k := by
  cases h <;> rfl

end Entry

section Plan

private theorem mem_schedule_foldl (es : List (Key × Entry)) (p : Plan) :
    a ∈ (es.foldl (fun p e => p ++ entryPlan e.1 e.2) p).schedule ↔
      a ∈ p.schedule ∨ ∃ e ∈ es, a ∈ (entryPlan e.1 e.2).schedule := by
  induction es generalizing p with
  | nil => simp
  | cons e es ih => simp [ih, mem_schedule_append, or_assoc]

/-- The plan has the actions that are due for the entries that pass the test. -/
theorem mem_schedule_plan : a ∈ (inv.plan test).schedule ↔
    ∃ e, inv.find? a.key = some e ∧ test a.key = true ∧ Due a.key e a := by
  have hempty : a ∉ Plan.empty.schedule := by
    simp [Plan.schedule, Plan.departures, Plan.arrivals, Plan.empty]
  rw [plan, mem_schedule_foldl]
  simp only [hempty, false_or, List.mem_filter, mem_entryPlan]
  constructor
  · rintro ⟨⟨k, e⟩, ⟨he, ht⟩, hdue⟩
    have hk := hdue.key_eq
    subst hk
    exact ⟨e, SortedMap.find?_eq_some_iff.2 he, ht, hdue⟩
  · rintro ⟨e, he, ht, hdue⟩
    exact ⟨(a.key, e), ⟨SortedMap.find?_eq_some_iff.1 he, ht⟩, hdue⟩

def slots (c : Controller) (inv : Inventory) (k : Key) : Entry :=
  ⟨inv.condition? k, inv.existing? k, inv.desired? k, c.exchangeOf k⟩

private theorem not_due_blank {exchange : Option Exchange} :
    ¬ Due k ⟨none, none, none, exchange⟩ a := by
  intro h
  cases h with
  | fault _ hex => cases hex
  | drop _ _ hc => cases hc
  | retire _ _ hex => cases hex
  | announce _ _ _ hd => cases hd
  | create _ _ hd => cases hd
  | update _ hex => cases hex

theorem Sound.mem_schedule_plan {c : Controller} (h : Sound c inv) :
    a ∈ (inv.plan test).schedule ↔ test a.key = true ∧ Due a.key (inv.slots c a.key) a := by
  rw [Inventory.mem_schedule_plan]
  cases hf : inv.find? a.key with
  | none =>
    have hblank : inv.slots c a.key = ⟨none, none, none, c.exchangeOf a.key⟩ := by
      simp [slots, condition?, existing?, desired?, entryAt, hf, Entry.blank]
    rw [hblank]
    constructor
    · rintro ⟨e, he, -⟩
      cases he
    · rintro ⟨-, hdue⟩
      exact absurd hdue not_due_blank
  | some e =>
    have he : inv.slots c a.key = e := by
      simp [slots, condition?, existing?, desired?, entryAt, hf, ← (h _ e hf).2.1]
    rw [he]
    constructor
    · rintro ⟨e', he', ht, hdue⟩
      cases he'
      exact ⟨ht, hdue⟩
    · rintro ⟨ht, hdue⟩
      exact ⟨e, rfl, ht, hdue⟩

end Plan

end Reconciler.Inventory
