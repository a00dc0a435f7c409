import Reconciler.Document.Structural
import Reconciler.Proofs.Document.Path

/-! Documents that are alike read alike along every path, and alike documents are structurally
equal. Without numbers alike documents are the same. -/
namespace Reconciler.Document

open SortedMap (findEntry)

def OptionAlike : Option Document → Option Document → Prop
  | none, none => True
  | some a, some b => a.alike b = true
  | _, _ => False

private theorem findEntry_alike {as bs : List (String × Document)} (h : fieldsAlike as bs = true)
    (key : String) : OptionAlike (findEntry key as) (findEntry key bs) := by
  induction as generalizing bs with
  | nil =>
    cases bs with
    | nil => trivial
    | cons b bs => cases h
  | cons a as ih =>
    cases bs with
    | nil => cases h
    | cons b bs =>
      simp only [fieldsAlike, Bool.and_eq_true, beq_iff_eq] at h
      obtain ⟨⟨hk, hv⟩, h⟩ := h
      by_cases hkey : key = a.1
      · simpa [findEntry, ← hk, hkey, OptionAlike] using hv
      · simpa [findEntry, ← hk, hkey] using ih h

theorem get?_alike {a b : Document} (h : a.alike b = true) (p : List String) :
    OptionAlike (a.get? p) (b.get? p) := by
  induction p generalizing a b with
  | nil => simpa [OptionAlike] using h
  | cons key p ih =>
    cases a with
    | object as =>
      cases b with
      | object bs =>
        have hk := findEntry_alike (h : fieldsAlike as bs = true) key
        rw [get?_object_cons, get?_object_cons]
        cases ha : findEntry key as with
        | none =>
          cases hb : findEntry key bs with
          | none => trivial
          | some b => simp [ha, hb, OptionAlike] at hk
        | some a =>
          cases hb : findEntry key bs with
          | none => simp [ha, hb, OptionAlike] at hk
          | some b =>
            rw [ha, hb] at hk
            exact ih hk
      | _ => cases h
    | _ => cases b <;> trivial

theorem string?_alike {a b : Document} (h : a.alike b = true) (p : List String) :
    (a.get? p).bind (·.string?) = (b.get? p).bind (·.string?) := by
  have hp := get?_alike h p
  cases ha : a.get? p with
  | none =>
    cases hb : b.get? p with
    | none => rfl
    | some y => simp [ha, hb, OptionAlike] at hp
  | some x =>
    cases hb : b.get? p with
    | none => simp [ha, hb, OptionAlike] at hp
    | some y =>
      rw [ha, hb] at hp
      cases x <;> cases y <;> simp_all [OptionAlike, alike, string?]

private theorem isNull_alike {a b : Document} (h : a.alike b = true) : a.isNull = b.isNull := by
  cases a <;> cases b <;> first | rfl | cases h

private theorem presentCount_alike {as bs : List (String × Document)}
    (h : fieldsAlike as bs = true) : presentCount as = presentCount bs := by
  induction as generalizing bs with
  | nil =>
    cases bs with
    | nil => rfl
    | cons b bs => cases h
  | cons a as ih =>
    cases bs with
    | nil => cases h
    | cons b bs =>
      simp only [fieldsAlike, Bool.and_eq_true] at h
      have hrest : presentCount as = presentCount bs := ih h.2
      have hnull := isNull_alike h.1.2
      simp only [presentCount, List.filter_cons, hnull] at hrest ⊢
      split <;> simp [hrest]

private theorem sameValue_alike {m n : Number} (h : m.alike n = true) :
    m.sameValue n = true := by
  cases m with
  | int i =>
    cases n with
    | int j =>
      have hij : i = j := by simpa [Number.alike] using h
      simp [hij, Number.sameValue, Binary64.sameValue_refl]
    | float y => cases h
  | float x =>
    cases n with
    | int j => cases h
    | float y => exact h

mutual

theorem structuralEq_of_alike : (a b : Document) → b.WellFormed → a.alike b = true →
    a.structuralEq b = true
  | .object as, .object bs, hb, h => by
    obtain ⟨hs, hw⟩ := wellFormed_object.1 hb
    have hin : fieldsWithin as bs = true :=
      fieldsWithin_of_alike as bs bs h hw fun g hg => SortedMap.findEntry_of_mem hs hg
    have hcount : presentCount as = presentCount bs := presentCount_alike h
    simp [structuralEq, hin, hcount]
  | .array as, .array bs, hb, h => by
    simpa [structuralEq] using itemsStructuralEq_of_alike as bs hb h
  | .number m, .number n, _, h => sameValue_alike h
  | .string a, .string b, _, h => h
  | .bool a, .bool b, _, h => h
  | .null, .null, _, _ => rfl

private theorem itemsStructuralEq_of_alike : (as bs : List Document) → ItemsWellFormed bs →
    itemsAlike as bs = true → itemsStructuralEq as bs = true
  | [], [], _, _ => rfl
  | a :: as, b :: bs, hb, h => by
    simp only [itemsAlike, Bool.and_eq_true] at h
    simp [itemsStructuralEq, structuralEq_of_alike a b hb.1 h.1,
      itemsStructuralEq_of_alike as bs hb.2 h.2]

private theorem fieldsWithin_of_alike : (as bs cs : List (String × Document)) →
    fieldsAlike as bs = true → (∀ g ∈ bs, g.2.WellFormed) →
    (∀ g ∈ bs, findEntry g.1 cs = some g.2) → fieldsWithin as cs = true
  | [], _, _, _, _, _ => rfl
  | (key, a) :: as, (key', b) :: bs, cs, h, hw, hcs => by
    simp only [fieldsAlike, Bool.and_eq_true, beq_iff_eq] at h
    obtain ⟨⟨rfl, hv⟩, h⟩ := h
    have hb := hcs (key, b) List.mem_cons_self
    have hab := structuralEq_of_alike a b (hw (key, b) List.mem_cons_self) hv
    have hrest := fieldsWithin_of_alike as bs cs h
      (fun g hg => hw g (List.mem_cons_of_mem _ hg))
      (fun g hg => hcs g (List.mem_cons_of_mem _ hg))
    simp only at hb
    simp [fieldsWithin, hb, hab, hrest]

end

theorem structuralEq_refl {d : Document} (h : d.WellFormed) : d.structuralEq d = true :=
  structuralEq_of_alike d d h d.alike_refl

private theorem isNull_of_structuralEq {a b : Document} (h : a.structuralEq b = true) :
    a.isNull = b.isNull := by
  cases a <;> cases b <;> first | rfl | cases h

section Within

variable {as bs fields : List (String × Document)} {key : String} {a b d x : Document}
  {p : List String}

/-- What a mapping holds at a key, where null counts as missing. -/
def present? (key : String) (fields : List (String × Document)) : Option Document :=
  (findEntry key fields).filter fun d => !d.isNull

theorem present?_eq_some_iff :
    present? key fields = some d ↔ findEntry key fields = some d ∧ d.isNull = false := by
  simp [present?, Option.filter_eq_some_iff]

private theorem fieldsWithin_cons (key : String) (a : Document)
    (as bs : List (String × Document)) : fieldsWithin ((key, a) :: as) bs =
      ((a.isNull || (findEntry key bs).any fun b => a.structuralEq b) && fieldsWithin as bs) := by
  rw [fieldsWithin]
  cases findEntry key bs <;> rfl

/-- Only the first mapping is walked. -/
theorem fieldsWithin_iff : fieldsWithin as bs = true ↔
    ∀ f ∈ as, f.2.isNull = false → ∃ b, present? f.1 bs = some b ∧ f.2.structuralEq b = true := by
  induction as with
  | nil => simp [fieldsWithin]
  | cons f as ih =>
    obtain ⟨key, a⟩ := f
    have hhead : (a.isNull || (findEntry key bs).any fun b => a.structuralEq b) = true ↔
        (a.isNull = false → ∃ b, present? key bs = some b ∧ a.structuralEq b = true) := by
      cases hn : a.isNull with
      | true => simp
      | false =>
        cases hb : findEntry key bs with
        | none => simp [present?, hb]
        | some b =>
          have hnull : a.structuralEq b = true → b.isNull = false := fun h =>
            (isNull_of_structuralEq h).symm.trans hn
          simpa [present?_eq_some_iff, hb, and_assoc] using hnull
    rw [fieldsWithin_cons, Bool.and_eq_true, hhead, ih, List.forall_mem_cons]

private theorem getElem?_of_itemsStructuralEq {xs ys : List Document} {i : Nat}
    (h : itemsStructuralEq xs ys = true) (hx : xs[i]? = some x) :
    ∃ y, ys[i]? = some y ∧ x.structuralEq y = true := by
  induction xs generalizing ys i with
  | nil => cases hx
  | cons x' xs ih =>
    cases ys with
    | nil => cases h
    | cons y ys =>
      rw [itemsStructuralEq, Bool.and_eq_true] at h
      cases i with
      | zero =>
        cases hx
        exact ⟨y, rfl, h.1⟩
      | succ i => simpa using ih h.2 (by simpa using hx)

private theorem child?_of_structuralEq {step : Descent} (h : a.structuralEq b = true)
    (hx : a.child? step = some x) (hn : x.isNull = false) :
    ∃ y, b.child? step = some y ∧ x.structuralEq y = true := by
  cases a with
  | object as =>
    cases b with
    | object bs =>
      cases step with
      | member key =>
        rw [structuralEq, Bool.and_eq_true] at h
        obtain ⟨y, hy, hxy⟩ :=
          fieldsWithin_iff.1 h.2 (key, x) (SortedMap.mem_of_findEntry hx) hn
        exact ⟨y, (present?_eq_some_iff.1 hy).1, hxy⟩
      | item index => cases hx
    | _ => cases h
  | array xs =>
    cases b with
    | array ys =>
      cases step with
      | member key => cases hx
      | item index => exact getElem?_of_itemsStructuralEq h hx
    | _ => cases h
  | _ => cases step <;> cases hx

theorem at?_of_structuralEq {path : List Descent} (h : a.structuralEq b = true)
    (hx : a.at? path = some x) (hn : x.isNull = false) :
    ∃ y, b.at? path = some y ∧ x.structuralEq y = true := by
  induction path generalizing a b with
  | nil =>
    cases hx
    exact ⟨b, rfl, h⟩
  | cons step path ih =>
    rw [at?_cons, Option.bind_eq_some_iff] at hx
    obtain ⟨a', ha, hx⟩ := hx
    -- nothing is below a null
    have hpresent : a'.isNull = false := by
      cases a' with
      | null =>
        cases path with
        | nil =>
          cases hx
          exact hn
        | cons step path => cases step <;> cases hx
      | _ => rfl
    obtain ⟨b', hb, hab⟩ := child?_of_structuralEq h ha hpresent
    rw [at?_cons, hb]
    exact ih hab hx

private theorem get?_of_structuralEq (h : a.structuralEq b = true) (hx : a.get? p = some x)
    (hn : x.isNull = false) : ∃ y, b.get? p = some y ∧ x.structuralEq y = true := by
  rw [← at?_map_member] at hx ⊢
  exact at?_of_structuralEq h hx hn

theorem string?_of_structuralEq {text : String} (h : a.structuralEq b = true)
    (ha : (a.get? p).bind (·.string?) = some text) : (b.get? p).bind (·.string?) = some text := by
  obtain ⟨x, hx, htext⟩ := Option.bind_eq_some_iff.1 ha
  cases x with
  | string t =>
    cases htext
    obtain ⟨y, hy, hxy⟩ := get?_of_structuralEq h hx rfl
    cases y with
    | string t' =>
      have ht : text = t' := by simpa [structuralEq] using hxy
      rw [hy, ht]
      rfl
    | _ => cases hxy
  | _ => cases htext

end Within

mutual

def NumberFree : Document → Prop
  | .number _ => False
  | .array items => ItemsNumberFree items
  | .object fields => FieldsNumberFree fields
  | _ => True
termination_by structural d => d

def ItemsNumberFree : List Document → Prop
  | [] => True
  | d :: ds => d.NumberFree ∧ ItemsNumberFree ds
termination_by structural ds => ds

def FieldsNumberFree : List (String × Document) → Prop
  | [] => True
  | (_, d) :: fs => d.NumberFree ∧ FieldsNumberFree fs
termination_by structural fs => fs

end

mutual

/-- Zeros are all that alike documents may differ in. -/
theorem eq_of_alike : (a b : Document) → b.NumberFree → a.alike b = true → a = b
  | .object as, .object bs, hb, h => by rw [fields_eq_of_alike as bs hb h]
  | .array as, .array bs, hb, h => by rw [items_eq_of_alike as bs hb h]
  | .string a, .string b, _, h => by
    have hab : a = b := by simpa [alike] using h
    rw [hab]
  | .bool a, .bool b, _, h => by
    have hab : a = b := by simpa [alike] using h
    rw [hab]
  | .null, .null, _, _ => rfl
  | .number _, .number _, hb, _ => hb.elim

private theorem items_eq_of_alike : (as bs : List Document) → ItemsNumberFree bs →
    itemsAlike as bs = true → as = bs
  | [], [], _, _ => rfl
  | a :: as, b :: bs, hb, h => by
    simp only [itemsAlike, Bool.and_eq_true] at h
    rw [eq_of_alike a b hb.1 h.1, items_eq_of_alike as bs hb.2 h.2]

private theorem fields_eq_of_alike : (as bs : List (String × Document)) → FieldsNumberFree bs →
    fieldsAlike as bs = true → as = bs
  | [], [], _, _ => rfl
  | (key, a) :: as, (key', b) :: bs, hb, h => by
    simp only [fieldsAlike, Bool.and_eq_true, beq_iff_eq] at h
    obtain ⟨⟨rfl, hv⟩, h⟩ := h
    rw [eq_of_alike a b hb.1 hv, fields_eq_of_alike as bs hb.2 h]

end

end Reconciler.Document
