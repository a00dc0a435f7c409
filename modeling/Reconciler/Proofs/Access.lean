import Reconciler.Proofs.Document.Sorted
import Reconciler.Proofs.Resource

/-! Reading, putting and removing along paths. Mappings that are missing on the way are created, but
never before a failure further down. -/
namespace Reconciler

open SortedMap (findEntry insertEntry)

namespace Document

variable {d value : Document} {path : List String}

/-- Puts a value in place: the document as it stands afterwards, whether or not the way was open, and
the place where it was not. -/
def assign : (d : Document) → (path : List String) → (value : Document) →
    Document × Option (List String)
  | _, [], value => (value, none)
  | .object fields, key :: path, value =>
    let (inner, place) := assign ((findEntry key fields).getD (.object [])) path value
    (.object (insertEntry key inner fields), place.map (key :: ·))
  | d, _ :: _, _ => (d, some [])

private theorem exists_member_of_set {fields : List (String × Document)} {key : String}
    {place : List String}
    (h : ((findEntry key fields).getD (.object [])).set path value = .error place) :
    ∃ inner, findEntry key fields = some inner := by
  cases hf : findEntry key fields with
  | some inner => exact ⟨inner, rfl⟩
  | none =>
    rw [hf, Option.getD_none, set_eq_error_iff] at h
    obtain ⟨-, x, hx, hobject⟩ := h
    cases place with
    | nil =>
      cases hx
      cases hobject
    | cons key' place => cases hx

private theorem assign_eq (hd : d.WellFormed) : d.assign path value =
    match d.set path value with
    | .ok d' => (d', none)
    | .error place => (d, some place) := by
  induction path generalizing d with
  | nil => cases d <;> rfl
  | cons key path ih =>
    cases d with
    | object fields =>
      have hinner : ((findEntry key fields).getD (.object [])).WellFormed := by
        cases hf : findEntry key fields with
        | some inner => exact hd.findEntry hf
        | none => exact wellFormed_object.2 ⟨.nil, by simp⟩
      rw [assign, set, ih hinner]
      cases hset : ((findEntry key fields).getD (.object [])).set path value with
      | ok inner => rfl
      | error place =>
        -- the way ends below a member that was there before
        obtain ⟨inner, hf⟩ := exists_member_of_set hset
        simp only [hf, Option.getD_some, Option.map_some,
          SortedMap.insertEntry_of_findEntry (wellFormed_object.1 hd).1 hf]
    | _ => rfl

end Document

namespace Resource

open Document (Diverge)

variable {r r' : Resource} {path : List String} {v : Document}

def assign (r : Resource) (path : List String) (value : Document) : Except Fault Unit × Resource :=
  if path = [] then (.error (.resource .emptyPath), r)
  else match r.root.assign path value with
    | (root, none) => (.ok (), ⟨root⟩)
    | (root, some place) => (.error (.resource (.notMapping place)), ⟨root⟩)

private theorem assign_eq (hr : r.root.WellFormed) (path : List String) (value : Document) :
    r.assign path value =
      match r.set path value with
      | .ok r' => (.ok (), r')
      | .error fault => (.error fault, r) := by
  rw [assign, Resource.set]
  split
  · rfl
  · rw [Document.assign_eq hr]
    cases r.root.set path value with
    | ok root => rfl
    | error place => rfl

private theorem set_eq_error_iff (hp : path ≠ []) {fault : Fault} : r.set path v = .error fault ↔
    ∃ place, fault = .resource (.notMapping place) ∧ place <+: path ∧ place ≠ path ∧
      ∃ x, r.get? place = some x ∧ x.isObject = false := by
  have hprefix (place : List String) :
      (∃ key rest, path = place ++ key :: rest) ↔ place <+: path ∧ place ≠ path := by
    constructor
    · rintro ⟨key, rest, rfl⟩
      exact ⟨List.prefix_append _ _, by simp⟩
    · rintro ⟨⟨rest, rfl⟩, hne⟩
      obtain ⟨key, rest, rfl⟩ := List.exists_cons_of_ne_nil (l := rest) (by simpa using hne)
      exact ⟨key, rest, rfl⟩
  have hroot (place : List String) : r.root.set path v = .error place ↔
      (place <+: path ∧ place ≠ path) ∧ ∃ x, r.get? place = some x ∧ x.isObject = false := by
    rw [Document.set_eq_error_iff, hprefix]
    rfl
  rw [Resource.set, if_neg hp]
  constructor
  · intro h
    split at h
    · cases h
    · rename_i place hset
      cases h
      obtain ⟨⟨hpre, hne⟩, hx⟩ := (hroot place).1 hset
      exact ⟨place, rfl, hpre, hne, hx⟩
  · rintro ⟨place, rfl, hpre, hne, hx⟩
    rw [(hroot place).2 ⟨⟨hpre, hne⟩, hx⟩]

private theorem get?_set_append (h : r.set path v = .ok r') (q : List String) :
    r'.get? (path ++ q) = v.get? q := by
  rw [Resource.get?, Document.get?_append, Document.get?_set (set_eq_ok h)]
  rfl

private theorem remove_fst (hp : path ≠ []) (r : Resource) : (r.remove path).1 = r.get? path := by
  rw [remove, Resource.get?]
  cases hg : r.root.get? path with
  | none => rw [Document.remove?_eq_none hg]
  | some x =>
    obtain ⟨root, hr⟩ := Document.remove?_isSome hp hg
    rw [hr]

private theorem get?_remove_append (hp : path ≠ []) (r : Resource) (q : List String) :
    (r.remove path).2.get? (path ++ q) = none := by
  have hself := get?_remove_self r hp
  rw [Resource.get?] at hself ⊢
  rw [Document.get?_append, hself, Option.bind_none]

/-- Putting a value at a path fails exactly if something on the way is no mapping, and changes
nothing then. Otherwise the value is seen there, and a removal takes it away. -/
theorem path_access (hp : path ≠ []) (r : Resource) (v : Document) :
    (∀ fault, r.set path v = .error fault ↔
      ∃ place, fault = .resource (.notMapping place) ∧ place <+: path ∧ place ≠ path ∧
        ∃ x, r.get? place = some x ∧ x.isObject = false) ∧
    (r.root.WellFormed → r.assign path v =
      match r.set path v with
      | .ok r' => (.ok (), r')
      | .error fault => (.error fault, r)) ∧
    (∀ r', r.set path v = .ok r' →
      (∀ q, r'.get? (path ++ q) = v.get? q) ∧ ∀ q, Diverge path q → r'.get? q = r.get? q) ∧
    (r.remove path).1 = r.get? path ∧
    (r.get? path = none → (r.remove path).2 = r) ∧
    (∀ q, (r.remove path).2.get? (path ++ q) = none) ∧
    ∀ q, Diverge path q → (r.remove path).2.get? q = r.get? q := by
  refine ⟨fun fault => set_eq_error_iff hp, fun hr => assign_eq hr path v, fun r' h => ?put,
    remove_fst hp r, remove_of_get?, get?_remove_append hp r,
    fun q hq => get?_remove_of_diverge r hq⟩
  case put =>
    exact ⟨get?_set_append h, fun q hq => Document.get?_set_of_diverge (set_eq_ok h) hq⟩

def serviceList : Resource :=
  ⟨.object [("kind", .string "List"), ("spec", .object [("name", .string "x"),
    ("services", .array [.object [("port", .number (.int 80))]])])]⟩

/-- A mapping is created on the way to a port. No port is put into the members of a list, and nothing
is changed in the attempt. -/
theorem path_access_creating :
    ["spec", "ports", "http"] ≠ [] ∧ ["spec", "services", "0", "port"] ≠ [] ∧
    (∃ r', serviceList.set ["spec", "ports", "http"] (.number (.int 80)) = .ok r' ∧
      r'.get? ["spec", "ports", "http"] = some (.number (.int 80)) ∧
      r'.get? ["spec", "name"] = some (.string "x")) ∧
    serviceList.assign ["spec", "services", "0", "port"] (.number (.int 80)) =
      (.error (.resource (.notMapping ["spec", "services"])), serviceList) := by
  refine ⟨by decide, by decide, ?put, ?failed⟩
  case put =>
    have hp : ["spec", "ports", "http"] ≠ [] := by decide
    obtain ⟨-, -, hput, -⟩ := path_access hp serviceList (.number (.int 80))
    obtain ⟨r', hset⟩ := exists_ok_of_isOk
      (show (serviceList.set ["spec", "ports", "http"] (.number (.int 80))).isOk = true by
        decide +kernel)
    obtain ⟨hbelow, hothers⟩ := hput r' hset
    refine ⟨r', hset, by simpa using hbelow [], ?_⟩
    rw [hothers _ (by decide)]
    decide +kernel
  case failed =>
    have hp : ["spec", "services", "0", "port"] ≠ [] := by decide
    obtain ⟨hfault, hassign, -⟩ := path_access hp serviceList (.number (.int 80))
    rw [hassign (by decide +kernel), (hfault _).2 ⟨["spec", "services"], rfl, by decide, by decide,
      .array [.object [("port", .number (.int 80))]], by decide +kernel, rfl⟩]

end Resource

end Reconciler
