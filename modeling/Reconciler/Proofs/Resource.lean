import Reconciler.Batch
import Reconciler.Proofs.Document.Alike

/-! What annotating a resource, and keeping its namespace, leaves alone. Identity, body and the
other annotations survive both. -/
namespace Reconciler.Resource

open Document (Diverge)

variable {r r' old : Resource} {key key' value : String}

def minimal (c : Coordinate) (name : String) : Resource :=
  ⟨.object [("apiVersion", .string c.apiVersion), ("kind", .string c.kind),
    ("metadata", .object [("name", .string name)])]⟩

theorem wellFormed_minimal (c : Coordinate) (name : String) :
    (minimal c name).root.WellFormed := by
  have hk : compare "apiVersion" "kind" = .lt := by decide
  have ha : compare "apiVersion" "metadata" = .lt := by decide
  have hm : compare "kind" "metadata" = .lt := by decide
  simp [minimal, Document.wellFormed_object, hk, ha, hm, Document.WellFormed,
    Document.FieldsWellFormed]

theorem reference_eq_iff (a b : Resource) :
    a.reference = b.reference ↔ a.identity = b.identity ∧ a.space = b.space := by
  simp [reference, identity, Coordinate.named, and_assoc]

/-- The two resources differ at most in their annotations. -/
def SameBody (r r' : Resource) : Prop :=
  ∀ q, Diverge ["metadata", "annotations"] q → r'.get? q = r.get? q

theorem SameBody.trans {a b c : Resource} (h : SameBody a b) (h' : SameBody b c) : SameBody a c :=
  fun q hq => (h' q hq).trans (h q hq)

private theorem SameBody.string? (h : SameBody r r') {q : List String}
    (hq : Diverge ["metadata", "annotations"] q) : r'.string? q = r.string? q := by
  rw [Resource.string?, Resource.string?, h q hq]

private theorem SameBody.coordinate (h : SameBody r r') : r'.coordinate = r.coordinate := by
  simp only [Resource.coordinate, apiVersion, kind, h.string? (q := ["apiVersion"]) (by decide),
    h.string? (q := ["kind"]) (by decide)]

theorem SameBody.name (h : SameBody r r') : r'.name = r.name := by
  rw [Resource.name, Resource.name, h.string? (by decide)]

theorem SameBody.space (h : SameBody r r') : r'.space = r.space := h.string? (by decide)

theorem SameBody.identity (h : SameBody r r') : r'.identity = r.identity := by
  rw [Resource.identity, Resource.identity, h.coordinate, h.name]

theorem SameBody.spec (h : SameBody r r') : r'.get? ["spec"] = r.get? ["spec"] := h _ (by decide)

private theorem diverge_keys {key key' : String} (h : key' ≠ key) :
    Diverge ["metadata", "annotations", key] ["metadata", "annotations", key'] := by
  simp [Diverge, List.cons_prefix_cons, h, h.symm]

section SetAnnotation

theorem set_eq_ok {path : List String} {v : Document} (h : r.set path v = .ok r') :
    r.root.set path v = .ok r'.root := by
  rw [Resource.set] at h
  split at h
  · cases h
  · split at h
    · rename_i root hs
      cases h
      exact hs
    · cases h

private theorem ne_nil_of_set {path : List String} {v : Document} (h : r.set path v = .ok r') :
    path ≠ [] := by
  rintro rfl
  cases h

private theorem set_of_root {path : List String} {v root : Document} (hp : path ≠ [])
    (h : r.root.set path v = .ok root) : r.set path v = .ok ⟨root⟩ := by
  rw [Resource.set, if_neg hp]
  simp only [h]

theorem set_set {path : List String} {v : Document} (h : r.set path v = .ok r') :
    r'.set path v = .ok r' :=
  set_of_root (ne_nil_of_set h) (Document.set_set (set_eq_ok h))

theorem set_isOk_congr {path : List String} {v : Document} (h : r.set path v = .ok r')
    (v' : Document) : ∃ r'', r.set path v' = .ok r'' := by
  obtain ⟨root, hroot⟩ := Document.set_isOk_congr (set_eq_ok h) v'
  exact ⟨⟨root⟩, set_of_root (ne_nil_of_set h) hroot⟩

theorem set_concat_isOk {path : List String} {fields : List (String × Document)}
    (h : r.get? path = some (.object fields)) (key : String) (v : Document) :
    ∃ r', r.set (path ++ [key]) v = .ok r' := by
  obtain ⟨root, hroot⟩ := Document.set_concat_isOk h key v
  exact ⟨⟨root⟩, set_of_root (by simp) hroot⟩

/-- Something can be put into a member of a mapping, unless that member is there and is not a mapping. -/
theorem set_pair (h : r.root.isObject = true) (key key' : String) (v : Document) :
    if (r.get? [key]).all Document.isObject = true then ∃ r', r.set [key, key'] v = .ok r'
    else r.set [key, key'] v = .error (.resource (.notMapping [key])) := by
  split
  · rename_i hmember
    have hroot : ∃ root, r.root.set [key, key'] v = .ok root := by
      refine Document.set_isOk_iff.2 fun q k rest hq => ?_
      match q with
      | [] => exact h
      | [_] =>
        cases hq
        exact hmember
      | _ :: _ :: _ => simp at hq
    obtain ⟨root, hset⟩ := hroot
    exact ⟨⟨root⟩, set_of_root (by simp) hset⟩
  · rename_i hmember
    have herror : r.root.set [key, key'] v = .error [key] := by
      refine Document.set_eq_error_iff.2 ⟨⟨key', [], rfl⟩, ?_⟩
      simpa [Resource.get?, Option.all_eq_false] using hmember
    rw [Resource.set, if_neg (by simp), herror]

theorem space_of_set {space : String}
    (h : r.set ["metadata", "namespace"] (.string space) = .ok r') : r'.space = some space := by
  rw [Resource.space, Resource.string?, Resource.get?, Document.get?_set (set_eq_ok h)]
  rfl

theorem annotation?_setAnnotation_self (h : r.setAnnotation key value = .ok r') :
    r'.annotation? key = some value := by
  rw [annotation?, string?, get?, Document.get?_set (set_eq_ok h)]
  rfl

theorem get?_setAnnotation_of_ne (h : r.setAnnotation key value = .ok r') (hk : key' ≠ key) :
    r'.get? ["metadata", "annotations", key'] = r.get? ["metadata", "annotations", key'] :=
  Document.get?_set_of_diverge (set_eq_ok h) (diverge_keys hk)

theorem annotation?_setAnnotation_of_ne (h : r.setAnnotation key value = .ok r')
    (hk : key' ≠ key) : r'.annotation? key' = r.annotation? key' := by
  rw [annotation?, annotation?, string?, string?, get?_setAnnotation_of_ne h hk]

theorem SameBody.annotated (h : r.setAnnotation key value = .ok r') : SameBody r r' :=
  fun _ hq => Document.get?_set_of_diverge (set_eq_ok h) (hq.append [key])

theorem wellFormed_annotated (hr : r.root.WellFormed) (h : r.setAnnotation key value = .ok r') :
    r'.root.WellFormed :=
  hr.set (v := .string value) trivial (set_eq_ok h)

/-- A resource that carries an annotation can be given any other one. -/
theorem setAnnotation_isOk {old : String} (h : r.annotation? key' = some old) (key value : String) :
    ∃ r', r.setAnnotation key value = .ok r' := by
  rw [annotation?, string?, Option.bind_eq_some_iff] at h
  obtain ⟨d, hd, -⟩ := h
  obtain ⟨fields, hf, -⟩ := Document.get?_concat_eq_some (p := ["metadata", "annotations"]) hd
  exact set_concat_isOk hf key (.string value)

theorem setAnnotation_of_annotation? (hr : r.root.WellFormed)
    (h : r.get? ["metadata", "annotations", key] = some (.string value)) :
    r.setAnnotation key value = .ok r :=
  set_of_root (by simp) (Document.set_of_get? hr h)

end SetAnnotation

section Remove

variable {path q : List String}

theorem remove_of_get? (h : r.get? path = none) : (r.remove path).2 = r := by
  rw [remove, Document.remove?_eq_none h]

private theorem remove_cases (r : Resource) (hp : path ≠ []) :
    (r.get? path = none ∧ (r.remove path).2 = r) ∨
      ∃ v root, r.root.remove? path = some (v, root) ∧ (r.remove path).2 = ⟨root⟩ := by
  cases hg : r.get? path with
  | none => exact .inl ⟨rfl, remove_of_get? hg⟩
  | some v =>
    obtain ⟨root, hr⟩ := Document.remove?_isSome hp hg
    exact .inr ⟨v, root, hr, by rw [remove, hr]⟩

theorem get?_remove_self (r : Resource) (hp : path ≠ []) : (r.remove path).2.get? path = none := by
  rcases remove_cases r hp with ⟨hg, he⟩ | ⟨v, root, hr, he⟩
  · rw [he, hg]
  · rw [he]
    exact Document.get?_remove?_self hr

theorem get?_remove_of_diverge (r : Resource) (hq : Diverge path q) :
    (r.remove path).2.get? q = r.get? q := by
  rw [remove]
  split
  · rename_i v root hr
    exact Document.get?_remove?_of_diverge hr hq
  · rfl

theorem set_isOk_remove {v : Document} (hs : r.set path v = .ok r') (q : List String) :
    ∃ r'', (r.remove q).2.set path v = .ok r'' := by
  rw [remove]
  split
  · rename_i w root hr
    obtain ⟨root', hs'⟩ := Document.set_isOk_of_remove? (set_eq_ok hs) hr
    exact ⟨⟨root'⟩, set_of_root (ne_nil_of_set hs) hs'⟩
  · exact ⟨r', hs⟩

theorem wellFormed_remove (hr : r.root.WellFormed) (path : List String) :
    (r.remove path).2.root.WellFormed := by
  rw [remove]
  split
  · rename_i v root h
    exact hr.remove? h
  · exact hr

theorem get?_remove_init (r : Resource) (path : List String) (key : String) :
    (r.remove (path ++ [key])).2.get? path = (r.get? path).map (Document.without key) := by
  have hpath : path ++ [key] ≠ [] := by simp
  rcases remove_cases r hpath with ⟨hg, he⟩ | ⟨v, root, hr, he⟩
  · rw [he]
    cases hp : r.get? path with
    | none => rfl
    | some d =>
      have hd : d.get? [key] = none := by
        rwa [get?, Document.get?_append, show r.root.get? path = some d from hp] at hg
      rw [Option.map_some, Document.without_of_get? hd]
  · rw [he]
    exact Document.get?_remove?_init hr

private theorem remove_remove (r : Resource) {p : List String} (hp : p ≠ []) (hq : q ≠ []) :
    ((r.remove (p ++ q)).2.remove p).2 = (r.remove p).2 := by
  rcases remove_cases r (List.append_ne_nil_of_left_ne_nil hp q) with ⟨-, he⟩ | ⟨v, rest, hr, he⟩
  · rw [he]
  · have hsnd := Document.remove?_remove? hq hr
    have hbelow := Document.get?_of_remove? hr
    rw [Document.get?_append, Option.bind_eq_some_iff] at hbelow
    obtain ⟨inner, hinner, -⟩ := hbelow
    obtain ⟨root, hroot⟩ := Document.remove?_isSome hp hinner
    rw [hroot, Option.map_some, Option.map_eq_some_iff] at hsnd
    obtain ⟨⟨w, root'⟩, hroot', hsame⟩ := hsnd
    cases hsame
    rw [he, remove, remove, hroot, hroot']

/-- Below a place where nothing or an empty mapping stands there is nothing. -/
theorem get?_append_of_empty (hq : q ≠ [])
    (h : r.get? path = none ∨ r.get? path = some (.object [])) : r.get? (path ++ q) = none := by
  obtain ⟨key, q, rfl⟩ := List.exists_cons_of_ne_nil hq
  rw [get?, Document.get?_append]
  rcases h with h | h
  · rw [show r.root.get? path = none from h]
    rfl
  · rw [show r.root.get? path = some (.object []) from h]
    rfl

end Remove

section Unannotated

theorem unannotated_of_get? (h : r.get? ["metadata", "annotations", key] = none) :
    r.unannotated key = r := by
  rw [unannotated, removeAnnotation, Document.remove?_eq_none h]

private theorem unannotated_cases (r : Resource) (key : String) :
    let rest := (r.remove ["metadata", "annotations", key]).2
    (r.unannotated key = rest ∧
        (rest = r ∨ rest.get? ["metadata", "annotations"] ≠ some (.object []))) ∨
      rest.get? ["metadata", "annotations"] = some (.object []) ∧
        r.unannotated key = (rest.remove ["metadata", "annotations"]).2 := by
  rw [unannotated, removeAnnotation, remove]
  cases r.root.remove? ["metadata", "annotations", key] with
  | none => exact .inl ⟨rfl, .inl rfl⟩
  | some removed =>
    by_cases he : removed.2.get? ["metadata", "annotations"] = some (.object [])
    · exact .inr ⟨he, by simp [he]⟩
    · exact .inl ⟨by simp [he], .inr he⟩

theorem get?_unannotated_self (r : Resource) (key : String) :
    (r.unannotated key).get? ["metadata", "annotations", key] = none := by
  rcases unannotated_cases r key with ⟨he, -⟩ | ⟨-, he⟩
  · rw [he]
    exact get?_remove_self r (by simp)
  · rw [he]
    exact get?_append_of_empty (by simp) (.inl (get?_remove_self _ (by simp)))

@[simp] theorem annotation?_unannotated_self (r : Resource) (key : String) :
    (r.unannotated key).annotation? key = none := by
  rw [annotation?, string?, get?_unannotated_self, Option.bind_none]

theorem get?_unannotated_of_ne (r : Resource) (hk : key' ≠ key) :
    (r.unannotated key).get? ["metadata", "annotations", key'] =
      r.get? ["metadata", "annotations", key'] := by
  have hrest := get?_remove_of_diverge r (diverge_keys hk)
  rcases unannotated_cases r key with ⟨he, -⟩ | ⟨hempty, he⟩
  · rw [he, hrest]
  · have hold : r.get? ["metadata", "annotations", key'] = none :=
      hrest ▸ get?_append_of_empty (by simp) (.inr hempty)
    rw [he, hold]
    exact get?_append_of_empty (by simp) (.inl (get?_remove_self _ (by simp)))

theorem annotation?_unannotated_of_ne (r : Resource) (hk : key' ≠ key) :
    (r.unannotated key).annotation? key' = r.annotation? key' := by
  rw [annotation?, annotation?, string?, string?, get?_unannotated_of_ne r hk]

theorem SameBody.unannotated (r : Resource) (key : String) :
    SameBody r (r.unannotated key) := by
  intro q hq
  have hrest : (r.remove ["metadata", "annotations", key]).2.get? q = r.get? q :=
    get?_remove_of_diverge r (hq.append [key])
  rcases unannotated_cases r key with ⟨he, -⟩ | ⟨-, he⟩
  · rw [he, hrest]
  · rw [he, get?_remove_of_diverge _ hq, hrest]

/-- An annotation that is a string is given back. -/
theorem removeAnnotation_fst (r : Resource) (key : String) :
    (r.removeAnnotation key).1 = r.annotation? key := by
  rw [annotation?, string?, get?, Resource.removeAnnotation]
  cases hr : r.root.remove? ["metadata", "annotations", key] with
  | none =>
    cases hg : r.root.get? ["metadata", "annotations", key] with
    | none => rfl
    | some v =>
      obtain ⟨root, hsome⟩ := Document.remove?_isSome (List.cons_ne_nil _ _) hg
      rw [hr] at hsome
      cases hsome
  | some removed =>
    obtain ⟨v, root⟩ := removed
    rw [Document.get?_of_remove? hr]
    dsimp only
    split <;> rfl

/-- Without its annotations a resource is the same before and after one of them is removed. -/
theorem remove_unannotated (r : Resource) (key : String) :
    ((r.unannotated key).remove ["metadata", "annotations"]).2 =
      (r.remove ["metadata", "annotations"]).2 := by
  have hrest := r.remove_remove (p := ["metadata", "annotations"]) (q := [key]) (by simp) (by simp)
  rcases unannotated_cases r key with ⟨he, -⟩ | ⟨-, he⟩
  · rw [he]
    exact hrest
  · rw [he, remove_of_get? (get?_remove_self _ (by simp))]
    exact hrest

/-- The last annotation takes the mapping of annotations with it. -/
theorem unannotated_of_last (h : r.get? ["metadata", "annotations"] =
    some (.object [(key, .string value)])) :
    r.unannotated key = (r.remove ["metadata", "annotations"]).2 := by
  have hempty : (r.remove ["metadata", "annotations", key]).2.get? ["metadata", "annotations"] =
      some (.object []) := by
    have hrest := get?_remove_init r ["metadata", "annotations"] key
    rw [h] at hrest
    simpa [Document.without] using hrest
  rcases unannotated_cases r key with ⟨-, hsame | hfull⟩ | ⟨-, he⟩
  · rw [hsame, h] at hempty
    cases hempty
  · exact absurd hempty hfull
  · rw [he]
    exact r.remove_remove (p := ["metadata", "annotations"]) (q := [key]) (by simp) (by simp)

/-- A mapping of annotations that a removal leaves empty has been empty before. -/
theorem unannotated_empty_iff (r : Resource) (key : String) :
    (r.unannotated key).get? ["metadata", "annotations"] = some (.object []) ↔
      r.get? ["metadata", "annotations"] = some (.object []) := by
  constructor
  · intro hempty
    rcases unannotated_cases r key with ⟨he, hsame | hfull⟩ | ⟨-, he⟩
    · rwa [he, hsame] at hempty
    · rw [he] at hempty
      exact absurd hempty hfull
    · rw [he, get?_remove_self _ (by simp)] at hempty
      cases hempty
  · intro hempty
    have hnone : r.get? (["metadata", "annotations"] ++ [key]) = none :=
      get?_append_of_empty (by simp) (.inr hempty)
    rw [unannotated_of_get? hnone, hempty]

theorem wellFormed_unannotated (hr : r.root.WellFormed) (key : String) :
    (r.unannotated key).root.WellFormed := by
  rcases unannotated_cases r key with ⟨he, -⟩ | ⟨-, he⟩
  · rw [he]
    exact wellFormed_remove hr _
  · rw [he]
    exact wellFormed_remove (wellFormed_remove hr _) _

end Unannotated

section Flag

private theorem isFlagged_iff :
    r.isFlagged = true ↔ r.annotation? deleteAnnotation = some "true" := by
  rw [isFlagged, beq_iff_eq]

theorem isFlagged_flagForDeletion (h : r.flagForDeletion = .ok r') : r'.isFlagged = true :=
  isFlagged_iff.2 (annotation?_setAnnotation_self h)

theorem owner_ne_delete : ownerAnnotation ≠ deleteAnnotation := by decide

theorem isFlagged_setOwner {owner : Ref} (h : r.setOwner owner = .ok r') :
    r'.isFlagged = r.isFlagged := by
  rw [isFlagged, isFlagged, annotation?_setAnnotation_of_ne h owner_ne_delete.symm]

@[simp] theorem isFlagged_unannotated (r : Resource) :
    (r.unannotated deleteAnnotation).isFlagged = false := by
  rw [isFlagged, annotation?_unannotated_self]
  rfl

end Flag

section Alike

theorem annotation?_alike (h : old.root.alike r.root = true) (key : String) :
    old.annotation? key = r.annotation? key :=
  Document.string?_alike h _

theorem identity_alike (h : old.root.alike r.root = true) : old.identity = r.identity := by
  have hs (q : List String) : old.string? q = r.string? q := Document.string?_alike h q
  simp only [identity, coordinate, apiVersion, kind, name, hs]

end Alike

section Subtree

variable {a b c : Resource} {field : String}

theorem subtree_eq_ok_iff {x : Option Document} : a.subtree field = .ok x ↔
    (x = none ∧ (a.get? [field] = none ∨ a.get? [field] = some .null)) ∨
      ∃ fields, x = some (.object fields) ∧ a.get? [field] = some (.object fields) := by
  rw [subtree]
  split
  · rename_i h
    simp [h, eq_comm]
  · rename_i h
    simp [h, eq_comm]
  · rename_i fields h
    simp [h, eq_comm]
  · rename_i d hnone hnull hobj h
    constructor
    · intro hx
      cases hx
    · rintro (⟨-, h' | h'⟩ | ⟨fields, -, h'⟩)
      · exact absurd h' (by simp [h])
      · rw [h] at h'
        cases h'
        exact absurd rfl hnull
      · rw [h] at h'
        cases h'
        exact absurd rfl (hobj fields)

theorem subtree_congr {x : Option Document} (h : b.get? [field] = a.get? [field])
    (hx : a.subtree field = .ok x) : b.subtree field = .ok x := by
  rw [subtree_eq_ok_iff] at hx ⊢
  rwa [h]

/-- The comparison goes through when both fields are mappings or absent. -/
theorem subtreeEq_eq_ok_iff {same : Bool} : a.subtreeEq b field = .ok same ↔
    ∃ x y, a.subtree field = .ok x ∧ b.subtree field = .ok y ∧
      same = (match x, y with
        | none, none => true
        | some x, some y => x.structuralEq y
        | _, _ => false) := by
  rw [subtreeEq]
  cases ha : a.subtree field with
  | error fault => simp [bind, Except.bind]
  | ok x =>
    cases hb : b.subtree field with
    | error fault => simp [bind, Except.bind]
    | ok y =>
      cases x <;> cases y <;>
        simp [bind, Except.bind, pure, Except.pure, eq_comm]

theorem subtreeEq_congr {same : Bool} (h : c.get? [field] = a.get? [field])
    (hs : a.subtreeEq b field = .ok same) : c.subtreeEq b field = .ok same := by
  obtain ⟨x, y, hx, hy, he⟩ := subtreeEq_eq_ok_iff.1 hs
  exact subtreeEq_eq_ok_iff.2 ⟨x, y, subtree_congr h hx, hy, he⟩

theorem subtreeEq_congr_right {same : Bool} (h : c.get? [field] = b.get? [field])
    (hs : a.subtreeEq b field = .ok same) : a.subtreeEq c field = .ok same := by
  obtain ⟨x, y, hx, hy, he⟩ := subtreeEq_eq_ok_iff.1 hs
  exact subtreeEq_eq_ok_iff.2 ⟨x, y, hx, subtree_congr h hy, he⟩

theorem subtreeEq_self {x : Option Document} (ha : a.root.WellFormed)
    (hx : a.subtree field = .ok x) : a.subtreeEq a field = .ok true := by
  refine subtreeEq_eq_ok_iff.2 ⟨x, x, hx, hx, ?_⟩
  rcases subtree_eq_ok_iff.1 hx with ⟨rfl, -⟩ | ⟨fields, rfl, hf⟩
  · rfl
  · exact (Document.structuralEq_refl (ha.get? hf)).symm

theorem subtreeEq_of_alike {x : Option Document} (hb : b.root.WellFormed)
    (h : a.root.alike b.root = true) (hx : b.subtree field = .ok x) :
    a.subtreeEq b field = .ok true := by
  have hget : Document.OptionAlike (a.get? [field]) (b.get? [field]) := Document.get?_alike h [field]
  rcases subtree_eq_ok_iff.1 hx with ⟨rfl, hf⟩ | ⟨fields, rfl, hf⟩
  · have ha : a.subtree field = .ok none := by
      refine subtree_eq_ok_iff.2 (.inl ⟨rfl, ?_⟩)
      rcases hf with hf | hf <;> rw [hf] at hget <;> cases hg : a.get? [field] with
      | none => exact .inl rfl
      | some d =>
        rw [hg] at hget
        cases d <;> simp_all [Document.OptionAlike, Document.alike]
    exact subtreeEq_eq_ok_iff.2 ⟨_, _, ha, hx, rfl⟩
  · rw [hf] at hget
    cases hg : a.get? [field] with
    | none => rw [hg] at hget; cases hget
    | some d =>
      rw [hg] at hget
      cases d with
      | object fields' =>
        have ha : a.subtree field = .ok (some (.object fields')) :=
          subtree_eq_ok_iff.2 (.inr ⟨_, rfl, hg⟩)
        refine subtreeEq_eq_ok_iff.2 ⟨_, _, ha, hx, ?_⟩
        exact (Document.structuralEq_of_alike _ _ (hb.get? hf) hget).symm
      | _ => cases hget

end Subtree

end Reconciler.Resource
