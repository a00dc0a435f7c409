/-! Maps as lists of entries in strictly increasing key order. Two maps with the same look-ups are
equal, so plain equality compares contents. -/
namespace Reconciler

/-- `sorted` fixes the order in which the entries are visited. -/
structure SortedMap (κ ν : Type) [Ord κ] where
  entries : List (κ × ν)
  sorted : entries.Pairwise fun a b => compare a.1 b.1 = .lt

namespace SortedMap

variable {κ ν μ : Type} [Ord κ]

def empty : SortedMap κ ν := ⟨[], .nil⟩

instance : EmptyCollection (SortedMap κ ν) := ⟨empty⟩
instance : Inhabited (SortedMap κ ν) := ⟨empty⟩

/-- Replaces the entry at `k`, or puts a new one before the first larger key. -/
def insertEntry (k : κ) (v : ν) : List (κ × ν) → List (κ × ν)
  | [] => [(k, v)]
  | e :: es =>
    match compare k e.1 with
    | .lt => (k, v) :: e :: es
    | .eq => (k, v) :: es
    | .gt => e :: insertEntry k v es

def findEntry (k : κ) : List (κ × ν) → Option ν
  | [] => none
  | e :: es => if compare k e.1 = .eq then some e.2 else findEntry k es

theorem mem_insertEntry {k : κ} {v : ν} {e : κ × ν} {es : List (κ × ν)}
    (h : e ∈ insertEntry k v es) : e = (k, v) ∨ e ∈ es := by
  induction es with
  | nil => simp_all [insertEntry]
  | cons e' es ih =>
    rw [insertEntry] at h
    split at h <;> grind

section Lawful

variable [Std.LawfulEqOrd κ]

theorem insertEntry_sorted [Std.TransOrd κ] (k : κ) (v : ν) {es : List (κ × ν)}
    (h : es.Pairwise fun a b => compare a.1 b.1 = .lt) :
    (insertEntry k v es).Pairwise fun a b => compare a.1 b.1 = .lt := by
  induction es with
  | nil => simp [insertEntry]
  | cons e es ih =>
    rw [List.pairwise_cons] at h
    rw [insertEntry]
    split
    · rename_i hk
      refine List.pairwise_cons.2 ⟨fun a ha => ?_, List.pairwise_cons.2 h⟩
      rcases List.mem_cons.1 ha with rfl | ha
      · exact hk
      · exact Std.TransCmp.lt_trans hk (h.1 a ha)
    · rename_i hk
      have hk := Std.LawfulEqCmp.eq_of_compare hk
      subst hk
      exact List.pairwise_cons.2 ⟨h.1, h.2⟩
    · rename_i hk
      refine List.pairwise_cons.2 ⟨fun a ha => ?_, ih h.2⟩
      rcases mem_insertEntry ha with rfl | ha
      · exact Std.OrientedCmp.lt_of_gt hk
      · exact h.1 a ha

theorem findEntry_insertEntry_self (k : κ) (v : ν) (es : List (κ × ν)) :
    findEntry k (insertEntry k v es) = some v := by
  induction es with
  | nil => simp [insertEntry, findEntry]
  | cons e es ih =>
    rw [insertEntry]
    split <;> simp_all [findEntry]

theorem findEntry_insertEntry_of_ne {k k' : κ} (hk : k' ≠ k) (v : ν) (es : List (κ × ν)) :
    findEntry k' (insertEntry k v es) = findEntry k' es := by
  have hne (a : κ) : compare k' a = .eq ↔ k' = a := Std.LawfulEqCmp.compare_eq_iff_eq
  induction es with
  | nil => simp [insertEntry, findEntry, hne, hk]
  | cons e es ih =>
    rw [insertEntry]
    split
    · simp [findEntry, hne, hk]
    · rename_i he
      have he := Std.LawfulEqCmp.eq_of_compare he
      simp [findEntry, hne, hk, ← he]
    · simp [findEntry, ih]

end Lawful

def find? (m : SortedMap κ ν) (k : κ) : Option ν := findEntry k m.entries

def contains (m : SortedMap κ ν) (k : κ) : Bool := (m.find? k).isSome

def size (m : SortedMap κ ν) : Nat := m.entries.length

def isEmpty (m : SortedMap κ ν) : Bool := m.entries.isEmpty

def keys (m : SortedMap κ ν) : List κ := m.entries.map (·.1)

def values (m : SortedMap κ ν) : List ν := m.entries.map (·.2)

def insert [Std.TransOrd κ] [Std.LawfulEqOrd κ] (m : SortedMap κ ν) (k : κ) (v : ν) :
    SortedMap κ ν :=
  ⟨insertEntry k v m.entries, insertEntry_sorted k v m.sorted⟩

def erase (m : SortedMap κ ν) (k : κ) : SortedMap κ ν :=
  ⟨m.entries.filter fun e => compare k e.1 != .eq, m.sorted.filter _⟩

def ofList [Std.TransOrd κ] [Std.LawfulEqOrd κ] (pairs : List (κ × ν)) : SortedMap κ ν :=
  pairs.foldl (fun m e => m.insert e.1 e.2) ∅

@[simp] theorem find?_empty (k : κ) : (∅ : SortedMap κ ν).find? k = none := rfl

variable [Std.LawfulEqOrd κ]

@[simp] theorem find?_insert_self [Std.TransOrd κ] (m : SortedMap κ ν) (k : κ) (v : ν) :
    (m.insert k v).find? k = some v :=
  findEntry_insertEntry_self k v m.entries

theorem find?_insert_of_ne [Std.TransOrd κ] (m : SortedMap κ ν) {k k' : κ} (h : k' ≠ k) (v : ν) :
    (m.insert k v).find? k' = m.find? k' :=
  findEntry_insertEntry_of_ne h v m.entries

@[simp] theorem find?_erase_self (m : SortedMap κ ν) (k : κ) : (m.erase k).find? k = none := by
  simp only [find?, erase]
  induction m.entries with
  | nil => rfl
  | cons e es ih =>
    by_cases h : compare k e.1 = .eq <;> simp_all [findEntry]

theorem find?_erase_of_ne (m : SortedMap κ ν) {k k' : κ} (h : k' ≠ k) :
    (m.erase k).find? k' = m.find? k' := by
  have hne (a b : κ) : compare a b = .eq ↔ a = b := Std.LawfulEqCmp.compare_eq_iff_eq
  simp only [find?, erase]
  induction m.entries with
  | nil => rfl
  | cons e es ih =>
    by_cases he : k = e.1
    · simp_all [findEntry]
    · simp_all [findEntry]

end SortedMap

end Reconciler
