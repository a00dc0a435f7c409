import Reconciler.Proofs.Document.NormalForm
import Reconciler.Proofs.Inventory.Plan
import Reconciler.Proofs.Resource
import Reconciler.Proofs.Rounding

/-! Which changes of integers are noticed. Numbers are compared as binary64, so an integer is told apart
from every other one below `2 ^ 53`, and from all that become another binary64 above. -/
namespace Reconciler

namespace Number

def IsInteger : Number → Prop
  | .int i => -0x8000000000000000 ≤ i ∧ i < 0x10000000000000000
  | .float _ => False

def integer? : Number → Option Int
  | .int i => some i
  | .float _ => none

/-- Integers that become the same binary64: below `2 ^ 53` they are equal, and above each is off by half
a last place at most. -/
structure Merged (i j : Int) : Prop where
  sameValue : (Number.int i).sameValue (.int j) = true
  close : 2 ^ 53 * (i - j).natAbs ≤ i.natAbs + j.natAbs
  eq_left : i.natAbs < 2 ^ 53 → i = j
  eq_right : j.natAbs < 2 ^ 53 → i = j

private theorem IsInteger.eq_int {n : Number} (h : n.IsInteger) :
    ∃ i, n = .int i ∧ i.natAbs < 2 ^ 64 := by
  cases n with
  | int i =>
    obtain ⟨hlow, hhigh⟩ := h
    exact ⟨i, rfl, by omega⟩
  | float x => exact h.elim

private theorem merged_of_sameValue {i j : Int} (hi : i.natAbs < 2 ^ 64) (hj : j.natAbs < 2 ^ 64)
    (h : (Number.int i).sameValue (.int j) = true) : Merged i j := by
  have hsymm : (Number.int j).sameValue (.int i) = true := (Binary64.sameValue_comm _ _).trans h
  obtain ⟨hclose, hleft⟩ := Binary64.close_of_sameValue hi hj h
  have hright := (Binary64.close_of_sameValue hj hi hsymm).2
  exact ⟨h, hclose, hleft, fun hsmall => (hright hsmall).symm⟩

end Number

namespace Document

mutual

def Integral : Document → Prop
  | .number n => n.IsInteger
  | .array items => ItemsIntegral items
  | .object fields => FieldsIntegral fields
  | _ => True
termination_by structural d => d

def ItemsIntegral : List Document → Prop
  | [] => True
  | d :: ds => d.Integral ∧ ItemsIntegral ds
termination_by structural ds => ds

def FieldsIntegral : List (String × Document) → Prop
  | [] => True
  | (_, d) :: fs => d.Integral ∧ FieldsIntegral fs
termination_by structural fs => fs

end

variable {a b d x : Document} {path : List Descent}

private theorem itemsIntegral_iff {items : List Document} :
    ItemsIntegral items ↔ ∀ d ∈ items, d.Integral := by
  induction items with
  | nil => simp [ItemsIntegral]
  | cons d ds ih => simp [ItemsIntegral, ih]

private theorem fieldsIntegral_iff {fields : List (String × Document)} :
    FieldsIntegral fields ↔ ∀ f ∈ fields, f.2.Integral := by
  induction fields with
  | nil => simp [FieldsIntegral]
  | cons f fs ih => simp [FieldsIntegral, ih]

private theorem Integral.child? {step : Descent} (h : d.Integral) (hx : d.child? step = some x) :
    x.Integral := by
  cases d with
  | object fields =>
    cases step with
    | member key => exact fieldsIntegral_iff.1 h (key, x) (SortedMap.mem_of_findEntry hx)
    | item index => cases hx
  | array items =>
    cases step with
    | member key => cases hx
    | item index => exact itemsIntegral_iff.1 h x (List.mem_of_getElem? hx)
  | _ => cases step <;> cases hx

private theorem Integral.at? (h : d.Integral) (hx : d.at? path = some x) : x.Integral := by
  induction path generalizing d with
  | nil =>
    cases hx
    exact h
  | cons step path ih =>
    rw [at?_cons, Option.bind_eq_some_iff] at hx
    obtain ⟨inner, hinner, hx⟩ := hx
    exact ih (h.child? hinner) hx

def number? : Document → Option Number
  | .number n => some n
  | _ => none

/-- The number at a path, if there is one. -/
def numberAt? (d : Document) (path : List Descent) : Option Number := (d.at? path).bind number?

def integerAt? (d : Document) (path : List Descent) : Option Int :=
  (d.numberAt? path).bind Number.integer?

private theorem numberAt?_eq_some_iff {n : Number} :
    d.numberAt? path = some n ↔ d.at? path = some (.number n) := by
  rw [numberAt?, Option.bind_eq_some_iff]
  constructor
  · rintro ⟨x, hx, hn⟩
    cases x with
    | number m =>
      cases hn
      exact hx
    | _ => cases hn
  · intro h
    exact ⟨_, h, rfl⟩

private theorem numberAt?_member (d : Document) (key : String) (path : List Descent) :
    d.numberAt? (.member key :: path) = (d.get? [key]).bind fun inner => inner.numberAt? path := by
  rw [numberAt?, at?_cons, child?_member, Option.bind_assoc]
  rfl

private theorem numberAt?_null (path : List Descent) : null.numberAt? path = none := by
  cases path with
  | nil => rfl
  | cons step path => cases step <;> rfl

private theorem numberAt?_forward {m : Number} (h : a.structuralEq b = true)
    (hm : a.numberAt? path = some m) : ∃ n, b.numberAt? path = some n ∧ m.sameValue n = true := by
  obtain ⟨y, hy, hxy⟩ := at?_of_structuralEq h (numberAt?_eq_some_iff.1 hm) rfl
  cases y with
  | number n => exact ⟨n, numberAt?_eq_some_iff.2 hy, hxy⟩
  | _ => cases hxy

private theorem numberAt?_of_structuralEq (ha : a.Keyed) (hb : b.Keyed)
    (h : a.structuralEq b = true)
    (path : List Descent) : Option.Rel (fun m n => m.sameValue n = true) (a.numberAt? path)
      (b.numberAt? path) := by
  cases hx : a.numberAt? path with
  | some m =>
    obtain ⟨n, hn, hmn⟩ := numberAt?_forward h hx
    rw [hn]
    exact .some hmn
  | none =>
    cases hy : b.numberAt? path with
    | none => exact .none
    | some n =>
      obtain ⟨m, hm, -⟩ := numberAt?_forward (structuralEq_symm ha hb h) hy
      rw [hx] at hm
      cases hm

private theorem integerAt?_of_structuralEq (ha : a.Keyed) (hb : b.Keyed) (hia : a.Integral)
    (hib : b.Integral) (h : a.structuralEq b = true) (path : List Descent) :
    Option.Rel Number.Merged (a.integerAt? path) (b.integerAt? path) := by
  have hnumbers := numberAt?_of_structuralEq ha hb h path
  rw [integerAt?, integerAt?]
  cases hx : a.numberAt? path <;> cases hy : b.numberAt? path <;> rw [hx, hy] at hnumbers
  case none.none => exact .none
  case none.some | some.none => cases hnumbers
  case some.some m n =>
    have hsame : m.sameValue n = true := by simpa using hnumbers
    have hm : m.IsInteger := hia.at? (numberAt?_eq_some_iff.1 hx)
    have hn : n.IsInteger := hib.at? (numberAt?_eq_some_iff.1 hy)
    obtain ⟨i, rfl, hi⟩ := hm.eq_int
    obtain ⟨j, rfl, hj⟩ := hn.eq_int
    exact .some (Number.merged_of_sameValue hi hj hsame)

private theorem Keyed.get? {key : String} (h : d.Keyed) (hx : d.get? [key] = some x) : x.Keyed := by
  cases d with
  | object fields =>
    rw [get?_singleton] at hx
    exact fieldsKeyed_iff.1 h.2 (key, x) (SortedMap.mem_of_findEntry hx)
  | _ => cases hx

end Document

namespace Resource

open Document (Descent)

variable {old new : Resource} {field : String}

private theorem numberAt?_of_subtreeEq (ho : old.root.Keyed) (hn : new.root.Keyed)
    (h : old.subtreeEq new field = .ok true) (path : List Descent) :
    Option.Rel (fun m n => m.sameValue n = true) (old.root.numberAt? (.member field :: path))
      (new.root.numberAt? (.member field :: path)) := by
  have hnone {r : Resource} (hr : r.get? [field] = none ∨ r.get? [field] = some .null) :
      (r.get? [field]).bind (fun d => d.numberAt? path) = none := by
    rcases hr with hr | hr
    · rw [hr, Option.bind_none]
    · rw [hr, Option.bind_some, Document.numberAt?_null]
  rw [Document.numberAt?_member, Document.numberAt?_member]
  obtain ⟨x, y, hx, hy, hsame⟩ := subtreeEq_eq_ok_iff.1 h
  rcases subtree_eq_ok_iff.1 hx with ⟨rfl, hold⟩ | ⟨xs, rfl, hold⟩ <;>
    rcases subtree_eq_ok_iff.1 hy with ⟨rfl, hnew⟩ | ⟨ys, rfl, hnew⟩
  · rw [← get?, ← get?, hnone hold, hnone hnew]
    exact .none
  · cases hsame
  · cases hsame
  · rw [← get?, ← get?, hold, hnew, Option.bind_some, Option.bind_some]
    exact Document.numberAt?_of_structuralEq (ho.get? hold) (hn.get? hnew) hsame.symm path

end Resource

namespace Inventory

open Document (Descent)
open Number (Merged)

private theorem write_mem_schedule {p : Plan} {change : Change} :
    Action.write true change ∈ p.schedule ↔ change ∈ p.updates := by
  simp [Plan.schedule, Plan.departures, Plan.arrivals]

/-- Integers at one path of structurally equal documents become the same binary64, so they are equal
below `2 ^ 53`. A child whose integers do not is updated. -/
theorem integer_changes_planned {a b : Document} (ha : a.Keyed) (hb : b.Keyed) :
    (a.Integral → b.Integral → a.structuralEq b = true →
      ∀ path, Option.Rel Merged (a.integerAt? path) (b.integerAt? path)) ∧
    ∀ (inv : Inventory) (test : Key → Bool) (k : Key) (e : Entry) (path : List Descent),
      inv.find? k = some e → test k = true → k.role = .owned → e.hasResource = true →
      e.existing = some ⟨a⟩ → e.desired = some ⟨b⟩ →
      (∃ same, Resource.subtreeEq ⟨a⟩ ⟨b⟩ "spec" = .ok same) →
      ¬ Option.Rel (fun m n => m.sameValue n = true) (a.numberAt? (.member "spec" :: path))
        (b.numberAt? (.member "spec" :: path)) →
      ⟨k, e.exchange, ⟨b⟩⟩ ∈ (inv.plan test).updates := by
  refine ⟨fun hia hib h => Document.integerAt?_of_structuralEq ha hb hia hib h, ?_⟩
  intro inv test k e path hf ht hrole hresource hex hd hcomparable happart
  obtain ⟨same, hsame⟩ := hcomparable
  have hdiffers : same = false := by
    cases same with
    | false => rfl
    | true => exact absurd (Resource.numberAt?_of_subtreeEq ha hb hsame path) happart
  have hchanged : isChanged k.role ⟨a⟩ ⟨b⟩ = .ok true := by
    rw [hrole, isChanged]
    split
    · rfl
    · simp [hsame, hdiffers]
  have hdue : Due k e (.write true ⟨k, e.exchange, ⟨b⟩⟩) := .update (fun _ => hresource) hex hd hchanged
  exact write_mem_schedule.1 (mem_schedule_plan.2 ⟨e, hf, ht, hdue⟩)

/-- A resource with one number in a sequence below `spec`. -/
def sized (size : Int) : Document :=
  .object [("spec", .object [("sizes", .array [.number (.int size)])])]

private theorem keyed_sized (size : Int) : (sized size).Keyed := by
  simp [sized, Document.Keyed, Document.FieldsKeyed, Document.ItemsKeyed]

private theorem integral_sized {size : Int} (h : (Number.int size).IsInteger) :
    (sized size).Integral := by
  simp [sized, Document.Integral, Document.FieldsIntegral, Document.ItemsIntegral, h]

def resizing (old new : Int) : Key × Entry :=
  (.owned ⟨⟨"req/v1", "Interface"⟩, "a", none⟩ ⟨⟨"ipam/v1", "IPAllocation"⟩, "x", none⟩,
    ⟨none, some ⟨sized old⟩, some ⟨sized new⟩, some .conditionAndResource⟩)

def toSize : List Descent := [.member "spec", .member "sizes", .item 0]

/-- The last place is missed from `2 ^ 53` on, and only from there on. -/
theorem integer_changes_planned_resized :
    Option.Rel Merged ((sized 9007199254740993).integerAt? toSize)
        ((sized 9007199254740992).integerAt? toSize) ∧
      ⟨(resizing 9007199254740991 9007199254740992).1, some .conditionAndResource,
          ⟨sized 9007199254740992⟩⟩ ∈
        (Inventory.plan ⟨⟨[resizing 9007199254740991 9007199254740992],
          List.pairwise_singleton _ _⟩, 0⟩ fun _ => true).updates := by
  constructor
  · refine (integer_changes_planned (keyed_sized _) (keyed_sized _)).1 (integral_sized ?_)
      (integral_sized ?_) ?_ _
    · simp [Number.IsInteger]
    · simp [Number.IsInteger]
    · decide +kernel
  · refine (integer_changes_planned (keyed_sized 9007199254740991) (keyed_sized _)).2 _ _ _
      (resizing 9007199254740991 9007199254740992).2 [.member "sizes", .item 0] ?_ rfl rfl rfl rfl
      rfl ⟨false, ?_⟩ fun h => ?_
    · decide +kernel
    · decide +kernel
    · have happart : ¬ (Number.int 9007199254740991).sameValue (.int 9007199254740992) = true := by
        decide +kernel
      cases h with
      | some hsame => exact happart hsame

/-- Structural equality does not tell `2 ^ 53 + 1` from `2 ^ 53`, and a child whose `spec` changes from
one to the other is left as it is. -/
theorem neighbouring_integers_merged :
    ¬ (∀ a b : Document, a.Keyed → b.Keyed → a.Integral → b.Integral → a.structuralEq b = true →
        ∀ path i, a.integerAt? path = some i → b.integerAt? path = some i) ∧
      (sized 9007199254740993).integerAt? toSize ≠ (sized 9007199254740992).integerAt? toSize ∧
      resourcePlan (resizing 9007199254740993 9007199254740992).1
        (resizing 9007199254740993 9007199254740992).2 = .ok .empty := by
  refine ⟨fun h => ?_, by decide +kernel, by decide +kernel⟩
  have hsame := h (sized 9007199254740993) (sized 9007199254740992) (keyed_sized _) (keyed_sized _)
    (integral_sized (by simp [Number.IsInteger])) (integral_sized (by simp [Number.IsInteger]))
    (by decide +kernel) toSize 9007199254740993 (by decide +kernel)
  exact absurd hsame (by decide +kernel)

end Inventory

end Reconciler
