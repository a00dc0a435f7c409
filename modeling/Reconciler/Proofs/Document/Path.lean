import Reconciler.Document.Basic
import Reconciler.Proofs.SortedMap

/-! Laws of access along paths: what a change of one path leaves alone, and which changes undo each
other. Two paths diverge when none of them leads on from the other. -/
namespace Reconciler.Document

open SortedMap (findEntry insertEntry)

/-- Neither path is a beginning of the other one. -/
def Diverge (p q : List String) : Prop := ¬ p <+: q ∧ ¬ q <+: p

instance (p q : List String) : Decidable (Diverge p q) := inferInstanceAs (Decidable (_ ∧ _))

theorem Diverge.ne_nil {p q : List String} (h : Diverge p q) : q ≠ [] := by
  rintro rfl
  exact h.2 List.nil_prefix

private theorem Diverge.tail {key : String} {p q : List String}
    (h : Diverge (key :: p) (key :: q)) : Diverge p q := by
  simpa [Diverge, List.cons_prefix_cons] using h

theorem Diverge.append {p q : List String} (h : Diverge p q) (s : List String) :
    Diverge (p ++ s) q := by
  refine ⟨fun hp => h.1 ((List.prefix_append p s).trans hp), fun hq => ?_⟩
  rcases List.prefix_or_prefix_of_prefix hq (List.prefix_append p s) with hq | hp
  · exact h.2 hq
  · exact h.1 hp

/-- What diverges from a path diverges from its beginning, or leads on from there to another place. -/
theorem Diverge.append_split {p s q : List String} (h : Diverge (p ++ s) q) :
    Diverge p q ∨ ∃ t, q = p ++ t ∧ Diverge s t := by
  by_cases hp : p <+: q
  · obtain ⟨t, rfl⟩ := hp
    exact .inr ⟨t, rfl, by simpa [Diverge] using h⟩
  · exact .inl ⟨hp, fun hq => h.2 (hq.trans (List.prefix_append p s))⟩

private theorem findEntry_filter_ne {key key' : String} (h : key' ≠ key)
    (fields : List (String × Document)) :
    findEntry key' (fields.filter fun f => f.1 != key) = findEntry key' fields := by
  induction fields with
  | nil => rfl
  | cons f fields ih =>
    by_cases hf : f.1 = key
    · simp [hf, ih, findEntry, h]
    · simp [hf, ih, findEntry]

private theorem findEntry_filter_self (key : String) (fields : List (String × Document)) :
    findEntry key (fields.filter fun f => f.1 != key) = none := by
  rw [SortedMap.findEntry_eq_none_iff]
  intro f hf
  simpa using (List.mem_filter.1 hf).2

@[simp] theorem get?_object_cons (fields : List (String × Document)) (key : String)
    (path : List String) :
    (object fields).get? (key :: path) = (findEntry key fields).bind fun d => d.get? path := rfl

theorem get?_singleton (fields : List (String × Document)) (key : String) :
    (object fields).get? [key] = findEntry key fields := by
  simp

/-- A value below a path can only be in a mapping. -/
theorem get?_concat_eq_some {d v : Document} {p : List String} {key : String}
    (h : d.get? (p ++ [key]) = some v) :
    ∃ fields, d.get? p = some (.object fields) ∧ findEntry key fields = some v := by
  rw [get?_append, Option.bind_eq_some_iff] at h
  obtain ⟨inner, hp, hv⟩ := h
  cases inner with
  | object fields =>
    rw [get?_object_cons, Option.bind_eq_some_iff] at hv
    obtain ⟨w, hw, he⟩ := hv
    rw [get?_nil] at he
    cases he
    exact ⟨fields, hp, hw⟩
  | _ => cases hv

/-- A change at a path is not seen along a diverging one. -/
theorem get?_set_of_diverge {value d d' : Document} {p q : List String}
    (h : d.set p value = .ok d') (hpq : Diverge p q) : d'.get? q = d.get? q := by
  induction p generalizing d d' q with
  | nil => exact absurd List.nil_prefix hpq.1
  | cons key p ih =>
    obtain ⟨key', q, rfl⟩ := List.exists_cons_of_ne_nil hpq.ne_nil
    cases d with
    | object fields =>
      rw [set] at h
      split at h
      · rename_i inner hinner
        cases h
        by_cases hk : key' = key
        · subst hk
          have hq := ih hinner hpq.tail
          rw [get?_object_cons, get?_object_cons, SortedMap.findEntry_insertEntry_self,
            Option.bind_some, hq]
          cases findEntry key' fields with
          | some inner => rfl
          | none =>
            obtain ⟨key, q, rfl⟩ := List.exists_cons_of_ne_nil hpq.tail.ne_nil
            rfl
        · rw [get?_object_cons, get?_object_cons, SortedMap.findEntry_insertEntry_of_ne hk]
      · cases h
    | _ => cases h

/-- Putting a value a second time changes nothing. -/
theorem set_set {value d d' : Document} {p : List String} (h : d.set p value = .ok d') :
    d'.set p value = .ok d' := by
  induction p generalizing d d' with
  | nil =>
    have hd : value = d' := by cases d <;> exact Except.ok.inj h
    subst hd
    cases value <;> rfl
  | cons key p ih =>
    cases d with
    | object fields =>
      rw [set] at h
      split at h
      · rename_i inner hinner
        cases h
        rw [set, SortedMap.findEntry_insertEntry_self, Option.getD_some, ih hinner]
        simp only [SortedMap.insertEntry_insertEntry]
      · cases h
    | _ => cases h

/-- Something can be put next to any member of a mapping. -/
theorem set_concat_isOk {d : Document} {p : List String} {fields : List (String × Document)}
    (h : d.get? p = some (.object fields)) (key : String) (value : Document) :
    ∃ d', d.set (p ++ [key]) value = .ok d' := by
  induction p generalizing d with
  | nil =>
    rw [get?_nil] at h
    cases h
    refine ⟨.object (insertEntry key value fields), ?_⟩
    cases findEntry key fields <;> simp [set]
  | cons key' p ih =>
    cases d with
    | object outer =>
      rw [get?_object_cons, Option.bind_eq_some_iff] at h
      obtain ⟨inner, hf, hi⟩ := h
      obtain ⟨inner', hs⟩ := ih hi
      refine ⟨.object (insertEntry key' inner' outer), ?_⟩
      rw [List.cons_append, set, hf, Option.getD_some, hs]
    | _ => cases h

/-- Something put below a place where nothing is comes with a mapping of its own. -/
theorem set_concat_of_get? {d : Document} {p : List String} (h : d.get? p = none) (key : String)
    (value : Document) : d.set (p ++ [key]) value = d.set p (.object [(key, value)]) := by
  induction p generalizing d with
  | nil =>
    rw [get?_nil] at h
    cases h
  | cons key' p ih =>
    cases d with
    | object fields =>
      rw [List.cons_append, set, set]
      have hinner : ((findEntry key' fields).getD (.object [])).set (p ++ [key]) value =
          ((findEntry key' fields).getD (.object [])).set p (.object [(key, value)]) := by
        rw [get?_object_cons] at h
        cases hf : findEntry key' fields with
        | some inner =>
          rw [hf, Option.bind_some] at h
          exact ih h
        | none =>
          -- the mapping created on the way holds nothing either, unless it is the place itself
          cases p with
          | nil => rfl
          | cons key'' p => exact ih rfl
      rw [hinner]
    | _ => rfl

/-- Putting fails at a value on the way that is there and is not a mapping. The root is on the way. -/
theorem set_eq_error_iff {value d : Document} {p place : List String} :
    d.set p value = .error place ↔
      (∃ key rest, p = place ++ key :: rest) ∧ ∃ x, d.get? place = some x ∧ x.isObject = false := by
  induction p generalizing d place with
  | nil => cases d <;> simp [set]
  | cons key p ih =>
    cases d with
    | object fields =>
      have hset : (object fields).set (key :: p) value = .error place ↔
          ∃ inner, ((findEntry key fields).getD (.object [])).set p value = .error inner ∧
            key :: inner = place := by
        rw [set]
        cases ((findEntry key fields).getD (.object [])).set p value <;> simp
      rw [hset]
      cases place with
      | nil => simp [isObject]
      | cons key' place =>
        simp only [List.cons.injEq, List.cons_append, get?_object_cons, ih]
        -- a mapping that would be created on the way stops nothing
        have hinner : (∃ x, ((findEntry key fields).getD (.object [])).get? place = some x ∧
            x.isObject = false) ↔
            ∃ x, ((findEntry key fields).bind fun d => d.get? place) = some x ∧ x.isObject = false := by
          cases findEntry key fields with
          | some inner => rfl
          | none => cases place <;> simp [get?, isObject, SortedMap.findEntry]
        constructor
        · rintro ⟨inner, ⟨⟨k, rest, rfl⟩, hx⟩, rfl, rfl⟩
          exact ⟨⟨k, rest, rfl, rfl⟩, hinner.1 hx⟩
        · rintro ⟨⟨k, rest, rfl, rfl⟩, hx⟩
          exact ⟨place, ⟨⟨k, rest, rfl⟩, hinner.2 hx⟩, rfl, rfl⟩
    | null | bool _ | number _ | string _ | array _ =>
      cases place <;> simp [set, isObject, get?]

theorem set_isOk_iff {value d : Document} {p : List String} : (∃ d', d.set p value = .ok d') ↔
    ∀ q key rest, p = q ++ key :: rest → (d.get? q).all isObject = true := by
  constructor
  · rintro ⟨d', h⟩ q key rest hp
    rw [Option.all_eq_true]
    intro x hx
    cases hobject : x.isObject with
    | true => rfl
    | false =>
      rw [set_eq_error_iff.2 ⟨⟨key, rest, hp⟩, x, hx, hobject⟩] at h
      cases h
  · intro h
    cases hset : d.set p value with
    | ok d' => exact ⟨d', rfl⟩
    | error q =>
      obtain ⟨⟨key, rest, hp⟩, x, hx, hobject⟩ := set_eq_error_iff.1 hset
      have hall := h q key rest hp
      rw [hx, Option.all_some, hobject] at hall
      cases hall

theorem set_isOk_congr {value d d' : Document} {p : List String} (h : d.set p value = .ok d')
    (value' : Document) : ∃ d'', d.set p value' = .ok d'' :=
  set_isOk_iff.2 (set_isOk_iff.1 ⟨d', h⟩)

private theorem remove?_single (fields : List (String × Document)) (key : String) :
    (object fields).remove? [key] =
      (findEntry key fields).map fun v => (v, .object (fields.filter fun f => f.1 != key)) := rfl

private theorem remove?_cons_cons (fields : List (String × Document)) (key key' : String)
    (p : List String) :
    (object fields).remove? (key :: key' :: p) = (findEntry key fields).bind fun inner =>
      (inner.remove? (key' :: p)).map fun r => (r.1, .object (insertEntry key r.2 fields)) := by
  rw [remove?]
  simp

private theorem remove?_cons {p : List String} (hp : p ≠ []) (fields : List (String × Document))
    (key : String) : (object fields).remove? (key :: p) = (findEntry key fields).bind fun inner =>
      (inner.remove? p).map fun r => (r.1, .object (insertEntry key r.2 fields)) := by
  obtain ⟨key', rest, rfl⟩ := List.exists_cons_of_ne_nil hp
  exact remove?_cons_cons fields key key' rest

theorem get?_of_remove? {d d' v : Document} {p : List String} (h : d.remove? p = some (v, d')) :
    d.get? p = some v := by
  induction p generalizing d d' with
  | nil => cases d <;> cases h
  | cons key p ih =>
    cases d with
    | object fields =>
      cases p with
      | nil =>
        rw [remove?_single, Option.map_eq_some_iff] at h
        obtain ⟨w, hw, he⟩ := h
        cases he
        simp [hw]
      | cons key' p =>
        rw [remove?_cons_cons, Option.bind_eq_some_iff] at h
        obtain ⟨inner, hf, h⟩ := h
        obtain ⟨⟨w, rest⟩, hr, he⟩ := Option.map_eq_some_iff.1 h
        cases he
        rw [get?_object_cons, hf]
        exact ih hr
    | _ => cases h

theorem remove?_eq_none {d : Document} {p : List String} (h : d.get? p = none) :
    d.remove? p = none := by
  cases hr : d.remove? p with
  | none => rfl
  | some r =>
    obtain ⟨v, rest⟩ := r
    rw [get?_of_remove? hr] at h
    cases h

/-- Whatever is there can be taken away, except the root. -/
theorem remove?_isSome {d v : Document} {p : List String} (hp : p ≠ []) (h : d.get? p = some v) :
    ∃ d', d.remove? p = some (v, d') := by
  induction p generalizing d with
  | nil => exact absurd rfl hp
  | cons key p ih =>
    cases d with
    | object fields =>
      rw [get?_object_cons, Option.bind_eq_some_iff] at h
      obtain ⟨inner, hf, hi⟩ := h
      cases p with
      | nil =>
        rw [get?_nil] at hi
        cases hi
        exact ⟨_, by rw [remove?_single, hf]; rfl⟩
      | cons key' p =>
        obtain ⟨inner', hr⟩ := ih (by simp) hi
        exact ⟨_, by rw [remove?_cons_cons, hf, Option.bind_some, hr]; rfl⟩
    | _ => cases h

/-- A removal is not seen along a diverging path. -/
theorem get?_remove?_of_diverge {d d' v : Document} {p q : List String}
    (h : d.remove? p = some (v, d')) (hpq : Diverge p q) : d'.get? q = d.get? q := by
  induction p generalizing d d' q with
  | nil => cases d <;> cases h
  | cons key p ih =>
    obtain ⟨key', q, rfl⟩ := List.exists_cons_of_ne_nil hpq.ne_nil
    cases d with
    | object fields =>
      cases p with
      | nil =>
        rw [remove?_single, Option.map_eq_some_iff] at h
        obtain ⟨w, -, he⟩ := h
        cases he
        have hk : key' ≠ key := by
          rintro rfl
          exact hpq.1 (List.cons_prefix_cons.2 ⟨rfl, List.nil_prefix⟩)
        rw [get?_object_cons, get?_object_cons, findEntry_filter_ne hk]
      | cons key'' p =>
        rw [remove?_cons_cons, Option.bind_eq_some_iff] at h
        obtain ⟨inner, hf, h⟩ := h
        obtain ⟨⟨w, rest⟩, hr, he⟩ := Option.map_eq_some_iff.1 h
        cases he
        by_cases hk : key' = key
        · subst hk
          rw [get?_object_cons, get?_object_cons, SortedMap.findEntry_insertEntry_self, hf]
          exact ih hr hpq.tail
        · rw [get?_object_cons, get?_object_cons, SortedMap.findEntry_insertEntry_of_ne hk]
    | _ => cases h

theorem get?_remove?_self {d d' v : Document} {p : List String} (h : d.remove? p = some (v, d')) :
    d'.get? p = none := by
  induction p generalizing d d' with
  | nil => cases d <;> cases h
  | cons key p ih =>
    cases d with
    | object fields =>
      cases p with
      | nil =>
        rw [remove?_single, Option.map_eq_some_iff] at h
        obtain ⟨w, -, he⟩ := h
        cases he
        rw [get?_object_cons, findEntry_filter_self, Option.bind_none]
      | cons key' p =>
        rw [remove?_cons_cons, Option.bind_eq_some_iff] at h
        obtain ⟨inner, -, h⟩ := h
        obtain ⟨⟨w, rest⟩, hr, he⟩ := Option.map_eq_some_iff.1 h
        cases he
        rw [get?_object_cons, SortedMap.findEntry_insertEntry_self]
        exact ih hr
    | _ => cases h

/-- When a value is taken away, what stands above it can still be taken away, and then the same is
left. -/
theorem remove?_remove? {d d' v : Document} {p q : List String} (hq : q ≠ [])
    (h : d.remove? (p ++ q) = some (v, d')) :
    (d'.remove? p).map Prod.snd = (d.remove? p).map Prod.snd := by
  induction p generalizing d d' with
  | nil => cases d <;> cases d' <;> rfl
  | cons key p ih =>
    cases d with
    | object fields =>
      rw [List.cons_append, remove?_cons (List.append_ne_nil_of_right_ne_nil p hq),
        Option.bind_eq_some_iff] at h
      obtain ⟨inner, hf, h⟩ := h
      obtain ⟨⟨w, inner'⟩, hr, he⟩ := Option.map_eq_some_iff.1 h
      cases he
      cases p with
      | nil =>
        rw [remove?_single, remove?_single, SortedMap.findEntry_insertEntry_self, hf,
          Option.map_some, Option.map_some, SortedMap.filter_insertEntry]
        rfl
      | cons key'' p =>
        have hinner := congrArg (Option.map fun d => object (insertEntry key d fields)) (ih hr)
        rw [remove?_cons_cons, remove?_cons_cons, SortedMap.findEntry_insertEntry_self, hf]
        simpa only [Option.bind_some, Option.map_map, Function.comp_def,
          SortedMap.insertEntry_insertEntry] using hinner
    | _ => cases h

/-- A mapping without one of its keys; other documents are left as they are. -/
def without (key : String) : Document → Document
  | .object fields => .object (fields.filter fun f => f.1 != key)
  | d => d

theorem without_of_get? {d : Document} {key : String} (h : d.get? [key] = none) :
    d.without key = d := by
  cases d with
  | object fields =>
    rw [get?_singleton, SortedMap.findEntry_eq_none_iff] at h
    have hkeep : fields.filter (fun f => f.1 != key) = fields := by
      rw [List.filter_eq_self]
      exact fun f hf => bne_iff_ne.2 (h f hf)
    rw [without, hkeep]
  | _ => rfl

/-- What a removal leaves of the mapping that held the value. -/
theorem get?_remove?_init {d d' v : Document} {p : List String} {key : String}
    (h : d.remove? (p ++ [key]) = some (v, d')) : d'.get? p = (d.get? p).map (without key) := by
  induction p generalizing d d' with
  | nil =>
    cases d with
    | object fields =>
      rw [List.nil_append, remove?_single, Option.map_eq_some_iff] at h
      obtain ⟨w, -, he⟩ := h
      cases he
      rfl
    | _ => cases h
  | cons key' p ih =>
    cases d with
    | object fields =>
      rw [List.cons_append, remove?_cons (by simp), Option.bind_eq_some_iff] at h
      obtain ⟨inner, hf, h⟩ := h
      obtain ⟨⟨w, rest⟩, hr, he⟩ := Option.map_eq_some_iff.1 h
      cases he
      rw [get?_object_cons, get?_object_cons, SortedMap.findEntry_insertEntry_self, hf]
      exact ih hr
    | _ => cases h

/-! Descent into sequences as well as mappings. -/

/-- One step down: to a member of a mapping or to an item of a sequence. -/
inductive Descent where
  | member (key : String)
  | item (index : Nat)
deriving DecidableEq

def child? : Document → Descent → Option Document
  | .object fields, .member key => findEntry key fields
  | .array items, .item index => items[index]?
  | _, _ => none

def at? (d : Document) : (path : List Descent) → Option Document
  | [] => some d
  | step :: path => (d.child? step).bind fun inner => inner.at? path

@[simp] theorem at?_nil (d : Document) : d.at? [] = some d := rfl

theorem at?_cons (d : Document) (step : Descent) (path : List Descent) :
    d.at? (step :: path) = (d.child? step).bind fun inner => inner.at? path := rfl

theorem child?_member (d : Document) (key : String) : d.child? (.member key) = d.get? [key] := by
  cases d with
  | object fields => rw [get?_singleton, child?]
  | _ => rfl

/-- Field paths lead through mappings only. -/
theorem at?_map_member (d : Document) (p : List String) :
    d.at? (p.map Descent.member) = d.get? p := by
  induction p generalizing d with
  | nil => rw [List.map_nil, at?_nil, get?_nil]
  | cons key p ih =>
    rw [List.map_cons, at?_cons, child?_member, show key :: p = [key] ++ p from rfl, get?_append]
    simp only [ih]

/-! Well-formed documents: keys in strictly increasing order at every depth. -/

private theorem set_cons_isOk {fields : List (String × Document)} {key : String} {p : List String}
    {inner value : Document} (h : ((findEntry key fields).getD (.object [])).set p value = .ok inner) :
    ∃ d', (object fields).set (key :: p) value = .ok d' :=
  ⟨.object (insertEntry key inner fields), by rw [set, h]⟩

private theorem set_empty_isOk (p : List String) (value : Document) :
    ∃ d', (object []).set p value = .ok d' := by
  induction p with
  | nil => exact ⟨value, rfl⟩
  | cons key p ih =>
    obtain ⟨inner, hs⟩ := ih
    exact set_cons_isOk hs

theorem set_isOk_of_remove? {d d' rest v value : Document} {p q : List String}
    (h : d.set p value = .ok d') (hr : d.remove? q = some (v, rest)) :
    ∃ d'', rest.set p value = .ok d'' := by
  induction p generalizing d d' rest q with
  | nil => exact ⟨value, by cases rest <;> rfl⟩
  | cons key p ih =>
    cases d with
    | object fields =>
      rw [set] at h
      split at h
      · rename_i inner hinner
        cases q with
        | nil => cases hr
        | cons key' q =>
          cases q with
          | nil =>
            rw [remove?_single, Option.map_eq_some_iff] at hr
            obtain ⟨w, -, he⟩ := hr
            cases he
            by_cases hk : key = key'
            · subst hk
              obtain ⟨inner', hs⟩ := set_empty_isOk p value
              exact set_cons_isOk (by rw [findEntry_filter_self]; exact hs)
            · exact set_cons_isOk (by rw [findEntry_filter_ne hk]; exact hinner)
          | cons key'' q =>
            rw [remove?_cons_cons, Option.bind_eq_some_iff] at hr
            obtain ⟨member, hf, hr⟩ := hr
            obtain ⟨⟨w, member'⟩, hrest, he⟩ := Option.map_eq_some_iff.1 hr
            cases he
            by_cases hk : key = key'
            · subst hk
              rw [hf] at hinner
              obtain ⟨inner', hs⟩ := ih hinner hrest
              exact set_cons_isOk (by rw [SortedMap.findEntry_insertEntry_self]; exact hs)
            · exact set_cons_isOk (by rw [SortedMap.findEntry_insertEntry_of_ne hk]; exact hinner)
      · cases h
    | _ => cases h

theorem FieldsWellFormed.of_mem {fields : List (String × Document)} (h : FieldsWellFormed fields)
    {f : String × Document} (hf : f ∈ fields) : f.2.WellFormed := by
  induction fields with
  | nil => cases hf
  | cons f' fields ih =>
    rcases List.mem_cons.1 hf with rfl | hf
    · exact h.1
    · exact ih h.2 hf

private theorem fieldsWellFormed_iff {fields : List (String × Document)} :
    FieldsWellFormed fields ↔ ∀ f ∈ fields, f.2.WellFormed := by
  refine ⟨fun h f hf => h.of_mem hf, fun h => ?_⟩
  induction fields with
  | nil => trivial
  | cons f fields ih =>
    exact ⟨h f List.mem_cons_self, ih fun f' hf => h f' (List.mem_cons_of_mem _ hf)⟩

theorem wellFormed_object {fields : List (String × Document)} :
    (object fields).WellFormed ↔
      (fields.Pairwise fun a b => compare a.1 b.1 = .lt) ∧ ∀ f ∈ fields, f.2.WellFormed := by
  rw [← fieldsWellFormed_iff]
  rfl

theorem WellFormed.findEntry {fields : List (String × Document)}
    (h : (object fields).WellFormed) {key : String} {v : Document}
    (hf : findEntry key fields = some v) : v.WellFormed :=
  (wellFormed_object.1 h).2 _ (SortedMap.mem_of_findEntry hf)

theorem WellFormed.get? {d v : Document} {p : List String} (h : d.WellFormed)
    (hp : d.get? p = some v) : v.WellFormed := by
  induction p generalizing d with
  | nil =>
    rw [get?_nil] at hp
    cases hp
    exact h
  | cons key p ih =>
    cases d with
    | object fields =>
      rw [get?_object_cons, Option.bind_eq_some_iff] at hp
      obtain ⟨inner, hf, hi⟩ := hp
      exact ih (h.findEntry hf) hi
    | _ => cases hp

private theorem wellFormed_insert {fields : List (String × Document)}
    (h : (object fields).WellFormed) (key : String) {v : Document} (hv : v.WellFormed) :
    (object (insertEntry key v fields)).WellFormed := by
  obtain ⟨hs, hw⟩ := wellFormed_object.1 h
  refine wellFormed_object.2 ⟨SortedMap.insertEntry_sorted key v hs, fun f hf => ?_⟩
  rcases SortedMap.mem_insertEntry hf with rfl | hf
  · exact hv
  · exact hw f hf

theorem WellFormed.set {d d' v : Document} {p : List String} (h : d.WellFormed)
    (hv : v.WellFormed) (hs : d.set p v = .ok d') : d'.WellFormed := by
  induction p generalizing d d' with
  | nil =>
    have : v = d' := by cases d <;> exact Except.ok.inj hs
    exact this ▸ hv
  | cons key p ih =>
    cases d with
    | object fields =>
      rw [Document.set] at hs
      split at hs
      · rename_i inner hinner
        cases hs
        refine wellFormed_insert h key (ih ?_ hinner)
        cases hf : SortedMap.findEntry key fields with
        | none => exact wellFormed_object.2 ⟨.nil, by simp⟩
        | some w => exact h.findEntry hf
      · cases hs
    | _ => cases hs

theorem WellFormed.remove? {d d' v : Document} {p : List String} (h : d.WellFormed)
    (hr : d.remove? p = some (v, d')) : d'.WellFormed := by
  induction p generalizing d d' with
  | nil => cases d <;> cases hr
  | cons key p ih =>
    cases d with
    | object fields =>
      cases p with
      | nil =>
        rw [remove?_single, Option.map_eq_some_iff] at hr
        obtain ⟨w, -, he⟩ := hr
        cases he
        obtain ⟨hs, hw⟩ := wellFormed_object.1 h
        exact wellFormed_object.2 ⟨hs.filter _, fun f hf => hw f (List.mem_filter.1 hf).1⟩
      | cons key' p =>
        rw [remove?_cons_cons, Option.bind_eq_some_iff] at hr
        obtain ⟨inner, hf, hr⟩ := hr
        obtain ⟨⟨w, rest⟩, hi, he⟩ := Option.map_eq_some_iff.1 hr
        cases he
        exact wellFormed_insert h key (ih (h.findEntry hf) hi)
    | _ => cases hr

/-- Setting what is there already changes nothing. -/
theorem set_of_get? {d v : Document} {p : List String} (h : d.WellFormed)
    (hp : d.get? p = some v) : d.set p v = .ok d := by
  induction p generalizing d with
  | nil =>
    rw [get?_nil] at hp
    cases hp
    cases v <;> rfl
  | cons key p ih =>
    cases d with
    | object fields =>
      rw [get?_object_cons, Option.bind_eq_some_iff] at hp
      obtain ⟨inner, hf, hi⟩ := hp
      rw [set, hf, Option.getD_some, ih (h.findEntry hf) hi]
      simp only
      rw [SortedMap.insertEntry_of_findEntry (wellFormed_object.1 h).1 hf]
    | _ => cases hp

/-- A new member of a mapping that is put in and taken away again leaves no trace. -/
theorem remove?_of_set_concat {d d' v : Document} {p : List String} {key : String}
    {fields : List (String × Document)} (hd : d.WellFormed) (hp : d.get? p = some (.object fields))
    (hkey : d.get? (p ++ [key]) = none) (h : d.set (p ++ [key]) v = .ok d') :
    d'.remove? (p ++ [key]) = some (v, d) := by
  induction p generalizing d d' with
  | nil =>
    rw [get?_nil] at hp
    cases hp
    have hset : (object fields).set [key] v = .ok (.object (insertEntry key v fields)) := by
      simp [set]
    rw [List.nil_append, hset] at h
    cases h
    have hrest : (object fields).without key = .object fields := without_of_get? hkey
    rw [List.nil_append, remove?_single, SortedMap.findEntry_insertEntry_self,
      SortedMap.filter_insertEntry, Option.map_some]
    exact congrArg (fun rest => some (v, rest)) hrest
  | cons key' p ih =>
    cases d with
    | object outer =>
      rw [get?_object_cons, Option.bind_eq_some_iff] at hp
      obtain ⟨inner, hf, hi⟩ := hp
      rw [List.cons_append, get?_object_cons, hf, Option.bind_some] at hkey
      rw [List.cons_append, set, hf, Option.getD_some] at h
      split at h
      · rename_i inner' hinner
        cases h
        have hr := ih (hd.findEntry hf) hi hkey hinner
        rw [List.cons_append, remove?_cons (by simp), SortedMap.findEntry_insertEntry_self,
          Option.bind_some, hr, Option.map_some, SortedMap.insertEntry_insertEntry,
          SortedMap.insertEntry_of_findEntry (wellFormed_object.1 hd).1 hf]
      · cases h
    | _ => cases hp

end Reconciler.Document
