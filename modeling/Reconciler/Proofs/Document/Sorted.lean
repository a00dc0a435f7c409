import Reconciler.Proofs.Document.Path

/-! Documents as they are read: a reader puts the fields of every mapping into the order of their
keys. Well-formed documents have this order already, and look-ups do not depend on it. -/
namespace Reconciler.Document

open SortedMap (findEntry insertEntry)

variable {fields pairs : List (String × Document)}

mutual

/-- The document with all its mappings in key order; of equal keys the last one counts. -/
def sorted : Document → Document
  | .array items => .array (sortedItems items)
  | .object fields => .ofPairs (sortedFields fields)
  | d => d
termination_by structural d => d

def sortedItems : List Document → List Document
  | [] => []
  | d :: ds => d.sorted :: sortedItems ds
termination_by structural ds => ds

def sortedFields : List (String × Document) → List (String × Document)
  | [] => []
  | (key, d) :: fs => (key, d.sorted) :: sortedFields fs
termination_by structural fs => fs

end

theorem sortedItems_eq_map (items : List Document) : sortedItems items = items.map sorted := by
  induction items with
  | nil => rfl
  | cons d ds ih => rw [sortedItems, ih, List.map_cons]

private theorem sortedFields_eq_map (fields : List (String × Document)) :
    sortedFields fields = fields.map fun f => (f.1, f.2.sorted) := by
  induction fields with
  | nil => rfl
  | cons f fs ih => rw [sortedFields, ih, List.map_cons]

theorem keys_sortedFields (fields : List (String × Document)) :
    (sortedFields fields).map (·.1) = fields.map (·.1) := by
  rw [sortedFields_eq_map, List.map_map]
  rfl

theorem findEntry_sortedFields (key : String) (fields : List (String × Document)) :
    findEntry key (sortedFields fields) = (findEntry key fields).map sorted := by
  induction fields with
  | nil => rfl
  | cons f fs ih =>
    rw [sortedFields, findEntry, findEntry, ih]
    split <;> rfl

theorem ofPairs_eq (pairs : List (String × Document)) :
    ofPairs pairs = .object (SortedMap.ofList pairs).entries := by
  have hfold : pairs.foldl (fun fields p => insertEntry p.1 p.2 fields)
      (∅ : SortedMap String Document).entries = (SortedMap.ofList pairs).entries :=
    List.foldl_hom _ fun _ _ => rfl
  exact congrArg Document.object hfold

private theorem ofPairs_of_sorted (hs : fields.Pairwise fun a b => compare a.1 b.1 = .lt) :
    ofPairs fields = .object fields := by
  rw [ofPairs_eq, SortedMap.ofList_entries ⟨fields, hs⟩]

mutual

theorem sorted_of_wellFormed : (d : Document) → d.WellFormed → d.sorted = d
  | .array items, h => by rw [sorted, sortedItems_of_wellFormed items h]
  | .object fields, h => by
    rw [sorted, sortedFields_of_wellFormed fields h.2, ofPairs_of_sorted h.1]
  | .null, _ | .bool _, _ | .number _, _ | .string _, _ => rfl

private theorem sortedItems_of_wellFormed : (items : List Document) → ItemsWellFormed items →
    sortedItems items = items
  | [], _ => rfl
  | d :: ds, h => by
    rw [sortedItems, sorted_of_wellFormed d h.1, sortedItems_of_wellFormed ds h.2]

private theorem sortedFields_of_wellFormed : (fields : List (String × Document)) →
    FieldsWellFormed fields → sortedFields fields = fields
  | [], _ => rfl
  | (_, d) :: fs, h => by
    rw [sortedFields, sorted_of_wellFormed d h.1, sortedFields_of_wellFormed fs h.2]

end

private theorem wellFormed_ofPairs (h : FieldsWellFormed pairs) : (ofPairs pairs).WellFormed := by
  rw [ofPairs_eq, wellFormed_object]
  exact ⟨(SortedMap.ofList pairs).sorted,
    fun f hf => h.of_mem (SortedMap.mem_of_mem_entries_ofList hf)⟩

mutual

theorem wellFormed_sorted : (d : Document) → d.sorted.WellFormed
  | .array items => itemsWellFormed_sortedItems items
  | .object fields => wellFormed_ofPairs (fieldsWellFormed_sortedFields fields)
  | .null | .bool _ | .number _ | .string _ => trivial

private theorem itemsWellFormed_sortedItems : (items : List Document) →
    ItemsWellFormed (sortedItems items)
  | [] => trivial
  | d :: ds => ⟨wellFormed_sorted d, itemsWellFormed_sortedItems ds⟩

private theorem fieldsWellFormed_sortedFields : (fields : List (String × Document)) →
    FieldsWellFormed (sortedFields fields)
  | [] => trivial
  | (_, d) :: fs => ⟨wellFormed_sorted d, fieldsWellFormed_sortedFields fs⟩

end

/-- The well-formed documents are those that sorting leaves as they are. -/
theorem sorted_eq_self_iff {d : Document} : d.sorted = d ↔ d.WellFormed :=
  ⟨fun h => h ▸ wellFormed_sorted d, sorted_of_wellFormed d⟩

instance (d : Document) : Decidable d.WellFormed := decidable_of_iff _ sorted_eq_self_iff

theorem isObject_sorted (d : Document) : d.sorted.isObject = d.isObject := by
  cases d <;> rfl

/-- No key of the mapping stands twice. This says nothing of what is below. -/
def KeysDistinct (d : Document) : Prop := ((d.fields?.getD []).map (·.1)).Nodup

theorem get?_sorted {d : Document} (hd : d.KeysDistinct) (key : String) :
    d.sorted.get? [key] = (d.get? [key]).map sorted := by
  cases d with
  | object fields =>
    have hnodup : ((sortedFields fields).map (·.1)).Nodup := by
      rw [keys_sortedFields]
      exact hd
    have hfind := SortedMap.find?_ofList hnodup key
    rw [SortedMap.find?] at hfind
    rw [sorted, ofPairs_eq, get?_singleton, get?_singleton, hfind, findEntry_sortedFields]
  | _ => rfl

end Reconciler.Document
