import Mathlib.Data.List.Perm.Subperm
import Reconciler.Proofs.Document.Alike
import Reconciler.Proofs.Document.Sorted

/-! Structural equality is equality of normal forms. Mappings may list their keys in any order here, as
long as no key stands twice: the order is part of what must not matter. -/
namespace Reconciler.Document

open SortedMap (findEntry)

mutual

/-- No mapping, at any depth, has a key twice. -/
def Keyed : Document → Prop
  | .array items => ItemsKeyed items
  | .object fields => (fields.map (·.1)).Nodup ∧ FieldsKeyed fields
  | _ => True
termination_by structural d => d

def ItemsKeyed : List Document → Prop
  | [] => True
  | d :: ds => d.Keyed ∧ ItemsKeyed ds
termination_by structural ds => ds

def FieldsKeyed : List (String × Document) → Prop
  | [] => True
  | (_, d) :: fs => d.Keyed ∧ FieldsKeyed fs
termination_by structural fs => fs

end

theorem fieldsKeyed_iff {fields : List (String × Document)} :
    FieldsKeyed fields ↔ ∀ f ∈ fields, f.2.Keyed := by
  induction fields with
  | nil => simp [FieldsKeyed]
  | cons f fs ih => simp [FieldsKeyed, ih]

mutual

theorem WellFormed.keyed : (d : Document) → d.WellFormed → d.Keyed
  | .array items, h => ItemsWellFormed.keyed items h
  | .object fields, h => ⟨SortedMap.nodup_of_sorted h.1, FieldsWellFormed.keyed fields h.2⟩
  | .null, _ | .bool _, _ | .number _, _ | .string _, _ => trivial

private theorem ItemsWellFormed.keyed :
    (items : List Document) → ItemsWellFormed items → ItemsKeyed items
  | [], _ => trivial
  | d :: ds, h => ⟨WellFormed.keyed d h.1, ItemsWellFormed.keyed ds h.2⟩

private theorem FieldsWellFormed.keyed :
    (fields : List (String × Document)) → FieldsWellFormed fields →
    FieldsKeyed fields
  | [], _ => trivial
  | (_, d) :: fs, h => ⟨WellFormed.keyed d h.1, FieldsWellFormed.keyed fs h.2⟩

end

section Present

variable {as bs fields : List (String × Document)} {key : String}

def presentKeys (fields : List (String × Document)) : List String :=
  (fields.filter fun f => !f.2.isNull).map (·.1)

private theorem length_presentKeys (fields : List (String × Document)) :
    (presentKeys fields).length = presentCount fields :=
  List.length_map _

private theorem nodup_presentKeys (h : (fields.map (·.1)).Nodup) : (presentKeys fields).Nodup :=
  h.sublist (List.filter_sublist.map _)

private theorem mem_presentKeys (h : (fields.map (·.1)).Nodup) :
    key ∈ presentKeys fields ↔ (present? key fields).isSome = true := by
  simp [presentKeys, Option.isSome_iff_exists, present?_eq_some_iff,
    SortedMap.findEntry_eq_some_iff h]

private theorem fieldsWithin_iff_present (ha : (as.map (·.1)).Nodup) :
    fieldsWithin as bs = true ↔ ∀ key a, present? key as = some a →
      ∃ b, present? key bs = some b ∧ a.structuralEq b = true := by
  rw [fieldsWithin_iff]
  constructor
  · intro hwithin key a hx
    obtain ⟨hf, hn⟩ := present?_eq_some_iff.1 hx
    exact hwithin (key, a) (SortedMap.mem_of_findEntry hf) hn
  · rintro hthere ⟨key, a⟩ hf hn
    exact hthere key a (present?_eq_some_iff.2 ⟨(SortedMap.findEntry_eq_some_iff ha).2 hf, hn⟩)

private theorem structuralEq_object_iff (ha : (as.map (·.1)).Nodup) (hb : (bs.map (·.1)).Nodup) :
    (object as).structuralEq (object bs) = true ↔ ∀ key,
      Option.Rel (fun a b => a.structuralEq b = true) (present? key as) (present? key bs) := by
  have hna := nodup_presentKeys ha
  have hnb := nodup_presentKeys hb
  rw [structuralEq, Bool.and_eq_true, beq_iff_eq, ← length_presentKeys, ← length_presentKeys,
    fieldsWithin_iff_present ha]
  constructor
  · rintro ⟨hcount, hthere⟩ key
    -- with as many keys on both sides the walk over the first mapping misses none of the second
    have hsub : presentKeys as ⊆ presentKeys bs := by
      intro k hk
      obtain ⟨a, h⟩ := Option.isSome_iff_exists.1 ((mem_presentKeys ha).1 hk)
      obtain ⟨b, h', -⟩ := hthere k a h
      exact (mem_presentKeys hb).2 (Option.isSome_iff_exists.2 ⟨b, h'⟩)
    have hperm : (presentKeys as).Perm (presentKeys bs) :=
      (hna.subperm hsub).perm_of_length_le (Nat.le_of_eq hcount.symm)
    cases hx : present? key as with
    | some a =>
      obtain ⟨b, hy, hab⟩ := hthere key a hx
      rw [hy]
      exact .some hab
    | none =>
      have hnone : ¬ key ∈ presentKeys bs := by
        rw [← hperm.mem_iff, mem_presentKeys ha, hx]
        simp
      rw [mem_presentKeys hb, Option.not_isSome_iff_eq_none] at hnone
      rw [hnone]
      exact .none
  · intro hrel
    refine ⟨?_, fun key a hx => ?_⟩
    · have hperm : (presentKeys as).Perm (presentKeys bs) := by
        rw [List.perm_ext_iff_of_nodup hna hnb]
        intro key
        rw [mem_presentKeys ha, mem_presentKeys hb]
        have hkey := hrel key
        cases hx : present? key as <;> cases hy : present? key bs <;> rw [hx, hy] at hkey <;>
          simp at hkey ⊢
      exact hperm.length_eq
    · have hkey := hrel key
      rw [hx] at hkey
      cases hy : present? key bs with
      | none =>
        rw [hy] at hkey
        cases hkey
      | some b =>
        rw [hy] at hkey
        cases hkey with
        | some hab => exact ⟨b, rfl, hab⟩

end Present

private theorem itemsStructuralEq_iff (as bs : List Document) : itemsStructuralEq as bs = true ↔
    List.Forall₂ (fun a b => a.structuralEq b = true) as bs := by
  induction as generalizing bs with
  | nil => cases bs <;> simp [itemsStructuralEq]
  | cons a as ih => cases bs <;> simp [itemsStructuralEq, ih]

/-! Normal forms of mappings. -/

section Fields

variable {as bs fields : List (String × Document)} {key : String}

private theorem isNull_normalForm (d : Document) : d.normalForm.isNull = d.isNull := by
  cases d <;> rfl

private theorem normalFields_eq (fields : List (String × Document)) : normalFields fields =
    (fields.filter fun f => !f.2.isNull).map fun f => (f.1, f.2.normalForm) := by
  induction fields with
  | nil => rfl
  | cons f fs ih =>
    rw [normalFields, ih, List.filter_cons]
    cases f.2.isNull <;> rfl

private theorem keys_normalFields (fields : List (String × Document)) :
    (normalFields fields).map (·.1) = presentKeys fields := by
  rw [normalFields_eq, List.map_map]
  rfl

private theorem findEntry_normalFields (h : (fields.map (·.1)).Nodup) (key : String) :
    findEntry key (normalFields fields) = (present? key fields).map normalForm := by
  have hn : ((normalFields fields).map (·.1)).Nodup := by
    rw [keys_normalFields]
    exact nodup_presentKeys h
  ext d
  rw [SortedMap.findEntry_eq_some_iff hn, normalFields_eq]
  simp [present?_eq_some_iff, SortedMap.findEntry_eq_some_iff h, and_assoc]

private def normalMap (fields : List (String × Document)) : SortedMap String Document :=
  .ofList (sortedFields (normalFields fields))

private theorem normalForm_object_sorted (fields : List (String × Document)) :
    (object fields).normalForm.sorted = .object (normalMap fields).entries :=
  ofPairs_eq _

private theorem find?_normalMap (h : (fields.map (·.1)).Nodup) (key : String) :
    (normalMap fields).find? key = (present? key fields).map fun d => d.normalForm.sorted := by
  have hn : ((sortedFields (normalFields fields)).map (·.1)).Nodup := by
    rw [keys_sortedFields, keys_normalFields]
    exact nodup_presentKeys h
  rw [normalMap, SortedMap.find?_ofList hn, findEntry_sortedFields, findEntry_normalFields h,
    Option.map_map]
  rfl

private theorem normalForm_object_eq_iff (ha : (as.map (·.1)).Nodup) (hb : (bs.map (·.1)).Nodup) :
    (object as).normalForm.sorted = (object bs).normalForm.sorted ↔ ∀ key,
      (present? key as).map (fun d => d.normalForm.sorted) =
        (present? key bs).map fun d => d.normalForm.sorted := by
  rw [normalForm_object_sorted, normalForm_object_sorted]
  constructor
  · intro h key
    have hentries : (normalMap as).entries = (normalMap bs).entries := by injection h
    rw [← find?_normalMap ha, ← find?_normalMap hb, SortedMap.find?, SortedMap.find?, hentries]
  · intro h
    have hmap : normalMap as = normalMap bs := SortedMap.ext_find? fun key => by
      rw [find?_normalMap ha, find?_normalMap hb, h]
    rw [hmap]

end Fields

private theorem numberForm_eq_iff (m n : Number) :
    numberForm m = numberForm n ↔ m.sameValue n = true := by
  simp only [numberForm, Number.sameValue, Binary64.sameValue]
  generalize m.toBinary64 = x
  generalize n.toBinary64 = y
  obtain ⟨s, i, hi⟩ := x
  obtain ⟨t, j, hj⟩ := y
  by_cases h₀ : i = 0 <;> by_cases h₁ : j = 0 <;> simp [h₀, h₁, Binary64.zero] <;> grind

mutual

/-- Structurally equal documents are those with the same normal form, up to the order of keys. -/
theorem structuralEq_iff_normalForm : (a b : Document) → a.Keyed → b.Keyed →
    (a.structuralEq b = true ↔ a.normalForm.sorted = b.normalForm.sorted)
  | .object as, b, ha, hb => by
    cases b with
    | object bs =>
      rw [structuralEq_object_iff ha.1 hb.1, normalForm_object_eq_iff ha.1 hb.1]
      refine forall_congr' fun key => ?_
      cases hx : present? key as with
      | none => cases present? key bs <;> simp
      | some x =>
        cases hy : present? key bs with
        | none => simp
        | some y =>
          have hmx := SortedMap.mem_of_findEntry (present?_eq_some_iff.1 hx).1
          have hmy := SortedMap.mem_of_findEntry (present?_eq_some_iff.1 hy).1
          have hxy := fieldsStructuralEq_iff_normalForm as ha.2 (key, x) hmx y
            (fieldsKeyed_iff.1 hb.2 (key, y) hmy)
          simpa using hxy
    | _ => simp [structuralEq, normalForm, sorted, ofPairs]
  | .array xs, b, ha, hb => by
    cases b with
    | array ys =>
      have hitems := itemsStructuralEq_iff_normalForm xs ys ha hb
      simpa [structuralEq, normalForm, sorted] using hitems
    | _ => simp [structuralEq, normalForm, sorted, ofPairs]
  | .number m, b, _, _ => by
    cases b with
    | number n => simp [structuralEq, normalForm, sorted, numberForm_eq_iff]
    | _ => simp [structuralEq, normalForm, sorted, ofPairs]
  | .null, b, _, _ | .bool _, b, _, _ | .string _, b, _, _ => by
    cases b <;> simp [structuralEq, normalForm, sorted, ofPairs]

private theorem itemsStructuralEq_iff_normalForm : (xs ys : List Document) → ItemsKeyed xs →
    ItemsKeyed ys → (itemsStructuralEq xs ys = true ↔
      sortedItems (normalItems xs) = sortedItems (normalItems ys))
  | [], ys, _, _ => by cases ys <;> simp [itemsStructuralEq, normalItems, sortedItems]
  | x :: xs, ys, hx, hy => by
    cases ys with
    | nil => simp [itemsStructuralEq, normalItems, sortedItems]
    | cons y ys =>
      have hhead := structuralEq_iff_normalForm x y hx.1 hy.1
      have htail := itemsStructuralEq_iff_normalForm xs ys hx.2 hy.2
      simp [itemsStructuralEq, normalItems, sortedItems, hhead, htail]

private theorem fieldsStructuralEq_iff_normalForm :
    (fields : List (String × Document)) → FieldsKeyed fields →
    ∀ f ∈ fields, ∀ b, b.Keyed →
      (f.2.structuralEq b = true ↔ f.2.normalForm.sorted = b.normalForm.sorted)
  | [], _, f, hf, _, _ => by cases hf
  | (_, d) :: fs, h, f, hf, b, hb => by
    rcases List.mem_cons.1 hf with rfl | hf
    · exact structuralEq_iff_normalForm d b h.1 hb
    · exact fieldsStructuralEq_iff_normalForm fs h.2 f hf b hb

end

theorem structuralEq_symm {a b : Document} (ha : a.Keyed) (hb : b.Keyed)
    (h : a.structuralEq b = true) : b.structuralEq a = true :=
  (structuralEq_iff_normalForm b a hb ha).2 ((structuralEq_iff_normalForm a b ha hb).1 h).symm

/-! Neither the order of keys nor nulls in mappings matter to structural equality. -/

private theorem numberForm_numberForm (n : Number) : numberForm (numberForm n) = numberForm n := by
  rw [numberForm_eq_iff]
  simp only [numberForm, Number.sameValue]
  split <;> simp_all [Number.toBinary64, Binary64.sameValue, Binary64.zero]

mutual

theorem normalForm_normalForm : (d : Document) → d.normalForm.normalForm = d.normalForm
  | .array items => by simp [normalForm, normalItems_normalItems items]
  | .object fields => by simp [normalForm, normalFields_normalFields fields]
  | .number n => by simp [normalForm, numberForm_numberForm]
  | .null | .bool _ | .string _ => rfl

private theorem normalItems_normalItems : (items : List Document) →
    normalItems (normalItems items) = normalItems items
  | [] => rfl
  | d :: ds => by simp [normalItems, normalForm_normalForm d, normalItems_normalItems ds]

private theorem normalFields_normalFields : (fields : List (String × Document)) →
    normalFields (normalFields fields) = normalFields fields
  | [] => rfl
  | (key, d) :: fs => by
    rw [normalFields]
    split
    · exact normalFields_normalFields fs
    · rename_i hn
      rw [normalFields, isNull_normalForm, if_neg hn, normalForm_normalForm d,
        normalFields_normalFields fs]

end

mutual

theorem Keyed.normalForm : (d : Document) → d.Keyed → d.normalForm.Keyed
  | .array items, h => ItemsKeyed.normalItems items h
  | .object fields, h => by
    refine ⟨?_, FieldsKeyed.normalFields fields h.2⟩
    rw [keys_normalFields]
    exact nodup_presentKeys h.1
  | .null, _ | .bool _, _ | .number _, _ | .string _, _ => trivial

private theorem ItemsKeyed.normalItems : (items : List Document) → ItemsKeyed items →
    ItemsKeyed (normalItems items)
  | [], _ => trivial
  | d :: ds, h => ⟨Keyed.normalForm d h.1, ItemsKeyed.normalItems ds h.2⟩

private theorem FieldsKeyed.normalFields :
    (fields : List (String × Document)) → FieldsKeyed fields →
    FieldsKeyed (normalFields fields)
  | [], _ => trivial
  | (_, d) :: fs, h => by
    rw [Document.normalFields]
    split
    · exact FieldsKeyed.normalFields fs h.2
    · exact ⟨Keyed.normalForm d h.1, FieldsKeyed.normalFields fs h.2⟩

end

mutual

theorem WellFormed.normalForm : (d : Document) → d.WellFormed → d.normalForm.WellFormed
  | .array items, h => ItemsWellFormed.normalItems items h
  | .object fields, h => by
    refine ⟨?_, FieldsWellFormed.normalFields fields h.2⟩
    rw [normalFields_eq, List.pairwise_map]
    exact h.1.filter _
  | .null, _ | .bool _, _ | .number _, _ | .string _, _ => trivial

private theorem ItemsWellFormed.normalItems : (items : List Document) → ItemsWellFormed items →
    ItemsWellFormed (normalItems items)
  | [], _ => trivial
  | d :: ds, h => ⟨WellFormed.normalForm d h.1, ItemsWellFormed.normalItems ds h.2⟩

private theorem FieldsWellFormed.normalFields : (fields : List (String × Document)) →
    FieldsWellFormed fields → FieldsWellFormed (normalFields fields)
  | [], _ => trivial
  | (_, d) :: fs, h => by
    rw [Document.normalFields]
    split
    · exact FieldsWellFormed.normalFields fs h.2
    · exact ⟨WellFormed.normalForm d h.1, FieldsWellFormed.normalFields fs h.2⟩

end

private theorem structuralEq_iff_of_wellFormed {a b : Document} (ha : a.WellFormed)
    (hb : b.WellFormed) :
    a.structuralEq b = true ↔ a.normalForm = b.normalForm := by
  have hiff := structuralEq_iff_normalForm a b (WellFormed.keyed a ha) (WellFormed.keyed b hb)
  rwa [sorted_of_wellFormed _ (WellFormed.normalForm a ha),
    sorted_of_wellFormed _ (WellFormed.normalForm b hb)] at hiff

mutual

/-- Sorting first does not change the normal form. -/
theorem normalForm_sorted : (d : Document) → d.Keyed →
    d.sorted.normalForm.sorted = d.normalForm.sorted
  | .array items, h => by
    simp [sorted, normalForm, normalItems_sortedItems items h]
  | .object fields, h => by
    have hkeys : ((sortedFields fields).map (·.1)).Nodup := by
      rw [keys_sortedFields]
      exact h.1
    rw [sorted, ofPairs_eq, normalForm_object_eq_iff (SortedMap.keys_nodup _) h.1]
    intro key
    have hfind : findEntry key (SortedMap.ofList (sortedFields fields)).entries =
        (findEntry key fields).map sorted := by
      rw [← findEntry_sortedFields, ← SortedMap.find?_ofList hkeys]
      rfl
    rw [present?, present?, hfind]
    cases hf : findEntry key fields with
    | none => rfl
    | some d =>
      have hd := normalForm_sortedFields fields h.2 (key, d) (SortedMap.mem_of_findEntry hf)
      have hnull : d.sorted.isNull = d.isNull := by cases d <;> rfl
      cases hn : d.isNull <;> simp [Option.filter, hnull, hn, hd]
  | .null, _ | .bool _, _ | .number _, _ | .string _, _ => rfl

private theorem normalItems_sortedItems : (items : List Document) → ItemsKeyed items →
    sortedItems (normalItems (sortedItems items)) = sortedItems (normalItems items)
  | [], _ => rfl
  | d :: ds, h => by
    simp [sortedItems, normalItems, normalForm_sorted d h.1, normalItems_sortedItems ds h.2]

private theorem normalForm_sortedFields : (fields : List (String × Document)) → FieldsKeyed fields →
    ∀ f ∈ fields, f.2.sorted.normalForm.sorted = f.2.normalForm.sorted
  | [], _, f, hf => by cases hf
  | (_, d) :: fs, h, f, hf => by
    rcases List.mem_cons.1 hf with rfl | hf
    · exact normalForm_sorted d h.1
    · exact normalForm_sortedFields fs h.2 f hf

end

/-- The documents among which structural equality is an equivalence. -/
abbrev KeyedDocument := {d : Document // d.Keyed}

/-- Structural equality is an equivalence. It holds between two documents exactly if their normal
forms are equal, up to the order of keys where that is not fixed. -/
theorem structuralEq_equivalence :
    Equivalence (fun a b : KeyedDocument => a.1.structuralEq b.1 = true) ∧
      (∀ a b : KeyedDocument, a.1.structuralEq b.1 = true ↔
        a.1.normalForm.sorted = b.1.normalForm.sorted) ∧
      (∀ a b : Document, a.WellFormed → b.WellFormed →
        (a.structuralEq b = true ↔ a.normalForm = b.normalForm)) ∧
      (∀ a b : KeyedDocument, a.1.sorted = b.1.sorted → a.1.structuralEq b.1 = true) ∧
      (∀ a : KeyedDocument, a.1.structuralEq a.1.normalForm = true) ∧
      ∀ xs ys : List Document, (array xs).structuralEq (array ys) = true ↔
        List.Forall₂ (fun x y => x.structuralEq y = true) xs ys := by
  have hiff (a b : KeyedDocument) := structuralEq_iff_normalForm a.1 b.1 a.2 b.2
  refine ⟨⟨fun a => ?_, fun {a b} => structuralEq_symm a.2 b.2, fun {a b c} hab hbc => ?_⟩, hiff,
    fun a b => structuralEq_iff_of_wellFormed, fun a b h => ?_, fun a => ?_, itemsStructuralEq_iff⟩
  · exact (hiff a a).2 rfl
  · exact (hiff a c).2 (((hiff a b).1 hab).trans ((hiff b c).1 hbc))
  · rw [hiff, ← normalForm_sorted a.1 a.2, ← normalForm_sorted b.1 b.2, h]
  · rw [structuralEq_iff_normalForm a.1 a.1.normalForm a.2 (Keyed.normalForm a.1 a.2),
      normalForm_normalForm]

/-- The same fields in another order, with another null and another zero. A null in a sequence is an
item like any other. -/
theorem structuralEq_respelled :
    (object [("l", .array [.null]), ("a", .number (.int 0))]).structuralEq
        (object [("a", .number (.int 0)), ("l", .array [.null])]) = true ∧
      (object [("a", .null), ("b", .number (.int 0)), ("l", .array [.null])]).structuralEq
        (object [("b", .number (.float ⟨true, 0, by decide⟩)), ("c", .null), ("l", .array [.null])]) =
      true := by
  refine ⟨structuralEq_equivalence.2.2.2.1 ⟨_, ?_⟩ ⟨_, ?_⟩ ?order,
    (structuralEq_equivalence.2.2.1 _ _ ?_ ?_).2 ?form⟩
  case refine_1 | refine_2 => simp [Keyed, FieldsKeyed, ItemsKeyed]
  all_goals decide +kernel

end Reconciler.Document
