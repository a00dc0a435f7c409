import Reconciler.Proofs.Batch
import Reconciler.Manifest

/-! The conditions of a manifest as a map from types, and the manifest as a document: what is
written is loaded again, and writing it again changes nothing. -/
namespace Reconciler.Manifest

variable {c : Condition} {conditions : List Condition} {t : String}

section Conditions

theorem findCondition_eq_none :
    findCondition conditions t = none ↔ ∀ x ∈ conditions, x.typeName ≠ t := by
  simp [findCondition, List.find?_eq_none]

theorem findCondition_eq_some_iff {x : Condition} : findCondition conditions t = some x ↔
    ∃ before after, conditions = before ++ x :: after ∧ x.typeName = t ∧
      ∀ y ∈ before, y.typeName ≠ t := by
  simp only [findCondition, List.find?_eq_some_iff_append, beq_iff_eq, Bool.not_eq_true',
    beq_eq_false_iff_ne]
  constructor
  · rintro ⟨hx, before, after, he, hb⟩
    exact ⟨before, after, he, hx, hb⟩
  · rintro ⟨before, after, he, hx, hb⟩
    exact ⟨hx, before, after, he, hb⟩

theorem findCondition_put_self (c : Condition) (conditions : List Condition) :
    findCondition (putCondition c conditions).1 c.typeName = some c := by
  induction conditions with
  | nil => simp [putCondition, findCondition]
  | cons x xs ih =>
    by_cases ht : x.typeName = c.typeName
    · by_cases hx : x = c
      · simp [putCondition, findCondition, hx]
      · simp [putCondition, findCondition, ht, hx]
    · simpa [putCondition, findCondition, ht] using ih

theorem findCondition_put_of_ne (conditions : List Condition) (h : t ≠ c.typeName) :
    findCondition (putCondition c conditions).1 t = findCondition conditions t := by
  induction conditions with
  | nil => simp [putCondition, findCondition, Ne.symm h]
  | cons x xs ih =>
    by_cases ht : x.typeName = c.typeName
    · by_cases hx : x = c
      · simp [putCondition, hx]
      · simp [putCondition, findCondition, ht, hx, Ne.symm h]
    · by_cases hxt : x.typeName = t
      · simp [putCondition, findCondition, hxt, hxt ▸ ht]
      · simpa [putCondition, findCondition, ht, hxt] using ih

theorem putCondition_of_find (h : findCondition conditions c.typeName = some c) :
    (putCondition c conditions).1 = conditions := by
  induction conditions with
  | nil => cases h
  | cons x xs ih =>
    by_cases ht : x.typeName = c.typeName
    · have hx : x = c := by simpa [findCondition, ht] using h
      simp [putCondition, hx]
    · rw [findCondition, List.find?_cons_of_neg (by simpa using ht)] at h
      simp [putCondition, ht, ih h]

theorem putCondition_of_unchanged (h : (putCondition c conditions).2 = false) :
    (putCondition c conditions).1 = conditions := by
  induction conditions with
  | nil => cases h
  | cons x xs ih =>
    rw [putCondition] at h ⊢
    split at h
    · split at h
      · rename_i ht hx
        rw [if_pos ht, if_pos hx]
      · cases h
    · rename_i ht
      rw [if_neg ht]
      exact congrArg (x :: ·) (ih h)

theorem findCondition_drop_self (t : String) (conditions : List Condition) :
    findCondition (dropCondition t conditions).1 t = none := by
  rw [findCondition_eq_none]
  intro x hx
  simpa using (List.mem_filter.1 hx).2

theorem findCondition_drop_of_ne {t' : String} (conditions : List Condition) (h : t' ≠ t) :
    findCondition (dropCondition t conditions).1 t' = findCondition conditions t' := by
  simp only [findCondition, dropCondition, List.find?_filter]
  congr 1
  funext x
  by_cases hx : x.typeName = t'
  · simp [hx, h]
  · simp [hx]

theorem dropCondition_of_absent (h : findCondition conditions t = none) :
    (dropCondition t conditions).1 = conditions := by
  rw [findCondition_eq_none] at h
  exact List.filter_eq_self.2 (by simpa using h)

theorem dropCondition_of_unchanged (h : (dropCondition t conditions).2 = false) :
    (dropCondition t conditions).1 = conditions := by
  have hlength : (dropCondition t conditions).1.length = conditions.length := by
    simpa [dropCondition] using h
  exact List.filter_sublist.eq_of_length hlength

theorem filter_put {test : String → Bool} (h : test c.typeName = false) :
    (putCondition c conditions).1.filter (fun x => test x.typeName) =
      conditions.filter fun x => test x.typeName := by
  induction conditions with
  | nil => simp [putCondition, h]
  | cons x xs ih =>
    by_cases ht : x.typeName = c.typeName
    · by_cases hx : x = c
      · simp [putCondition, hx]
      · simp [putCondition, ht, hx, h]
    · by_cases hxt : test x.typeName = true
      · simp [putCondition, ht, hxt, ih]
      · simp [putCondition, ht, hxt, ih]

/-- Conditions of other types do not matter to a put condition. -/
theorem filter_put_filter (test : String → Bool) (c : Condition) (conditions : List Condition) :
    (putCondition c (conditions.filter fun x => test x.typeName)).1.filter
        (fun x => test x.typeName) =
      (putCondition c conditions).1.filter fun x => test x.typeName := by
  cases h : test c.typeName with
  | false =>
    rw [filter_put h, filter_put h, List.filter_filter]
    simp only [Bool.and_self]
  | true =>
    induction conditions with
    | nil => rfl
    | cons x xs ih =>
      by_cases ht : x.typeName = c.typeName
      · by_cases hx : x = c
        · simp [putCondition, hx, h, List.filter_filter]
        · simp [putCondition, ht, hx, h, List.filter_filter]
      · by_cases hxt : test x.typeName = true
        · simp [putCondition, ht, hxt, ih]
        · simp [putCondition, ht, hxt, ih]

theorem filter_drop {test : String → Bool} (h : test t = false) :
    (dropCondition t conditions).1.filter (fun x => test x.typeName) =
      conditions.filter fun x => test x.typeName := by
  rw [dropCondition, List.filter_filter]
  apply List.filter_congr
  intro x _
  by_cases hx : x.typeName = t
  · simp [hx, h]
  · simp [hx]

end Conditions

section Document

private theorem decode_status (s : Status) : Status.decode (.string s.text) = .ok s := by
  cases s <;> rfl

theorem decode_toDocument (c : Condition) : Condition.decode c.toDocument = .ok c := by
  obtain ⟨typeName, status, reason, message⟩ := c
  have hs := decode_status status
  by_cases hm : message = ""
  · cases reason <;> simp [Condition.decode, Condition.toDocument, hm, hs, Decoder.record,
      Decoder.field, SortedMap.findEntry, Decoder.nullable, Decoder.string, Decoder.required]
      <;> rfl
  · cases reason <;> simp [Condition.decode, Condition.toDocument, hm, hs, Decoder.record,
      Decoder.field, SortedMap.findEntry, Decoder.nullable, Decoder.string, Decoder.required]
      <;> rfl

private theorem numberFree_toDocument (c : Condition) : c.toDocument.NumberFree := by
  obtain ⟨typeName, status, reason, message⟩ := c
  by_cases hm : message = ""
  · cases reason <;> simp [Condition.toDocument, hm, Document.NumberFree, Document.FieldsNumberFree]
  · cases reason <;> simp [Condition.toDocument, hm, Document.NumberFree, Document.FieldsNumberFree]

theorem wellFormed_toDocument (c : Condition) : c.toDocument.WellFormed := by
  obtain ⟨typeName, status, reason, message⟩ := c
  have hms : compare "message" "status" = .lt := by decide
  have hmt : compare "message" "type" = .lt := by decide
  have hmr : compare "message" "reason" = .lt := by decide
  have hrs : compare "reason" "status" = .lt := by decide
  have hrt : compare "reason" "type" = .lt := by decide
  have hst : compare "status" "type" = .lt := by decide
  rw [Condition.toDocument, Document.wellFormed_object]
  by_cases hm : message = ""
  · cases reason <;> simp [hm, hrs, hrt, hst, Document.WellFormed]
  · cases reason <;> simp [hm, hms, hmt, hmr, hrs, hrt, hst, Document.WellFormed]

def conditionsDocument (conditions : List Condition) : Document :=
  .array (conditions.map Condition.toDocument)

private theorem decode_conditionsDocument (conditions : List Condition) :
    Decoder.list Condition.decode (conditionsDocument conditions) = .ok conditions :=
  Decoder.list_map decode_toDocument conditions

theorem numberFree_conditionsDocument (conditions : List Condition) :
    (conditionsDocument conditions).NumberFree := by
  induction conditions with
  | nil => trivial
  | cons c conditions ih => exact ⟨numberFree_toDocument c, ih⟩

private theorem wellFormed_conditionsDocument (conditions : List Condition) :
    (conditionsDocument conditions).WellFormed := by
  induction conditions with
  | nil => trivial
  | cons c conditions ih => exact ⟨wellFormed_toDocument c, ih⟩

end Document

section Render

variable {m : Manifest} {r source : Resource}

def bare (source : Resource) : Resource :=
  let rest := (source.remove ["status", "conditions"]).2
  if rest.get? ["status"] = some (.object []) then (rest.remove ["status"]).2 else rest

theorem toResource_nil (source : Resource) : (⟨source, []⟩ : Manifest).toResource = .ok (bare source) := by
  rw [toResource, bare]
  simp only
  split <;> rfl

theorem toResource_of_ne_nil (h : m.conditions ≠ []) : m.toResource =
    m.source.set ["status", "conditions"] (conditionsDocument m.conditions) := by
  obtain ⟨source, conditions⟩ := m
  cases conditions with
  | nil => exact absurd rfl h
  | cons c conditions => rfl

private theorem bare_cases (source : Resource) :
    let rest := (source.remove ["status", "conditions"]).2
    (rest.get? ["status"] ≠ some (.object []) ∧ bare source = rest) ∨
      rest.get? ["status"] = some (.object []) ∧ bare source = (rest.remove ["status"]).2 := by
  intro rest
  by_cases he : rest.get? ["status"] = some (.object [])
  · exact .inr ⟨he, if_pos he⟩
  · exact .inl ⟨he, if_neg he⟩

private theorem get?_bare_conditions (source : Resource) :
    (bare source).get? ["status", "conditions"] = none := by
  rcases bare_cases source with ⟨-, he⟩ | ⟨-, he⟩
  · rw [he]
    exact Resource.get?_remove_self source (by simp)
  · rw [he]
    exact Resource.get?_append_of_empty (by simp) (.inl (Resource.get?_remove_self _ (by simp)))

private theorem get?_bare_status (source : Resource) :
    (bare source).get? ["status"] ≠ some (.object []) := by
  rcases bare_cases source with ⟨hne, he⟩ | ⟨-, he⟩
  · rwa [he]
  · rw [he, Resource.get?_remove_self _ (by simp)]
    simp

private theorem bare_eq_self (hc : source.get? ["status", "conditions"] = none)
    (hs : source.get? ["status"] ≠ some (.object [])) : bare source = source := by
  have hrest := Resource.remove_of_get? hc
  rcases bare_cases source with ⟨-, he⟩ | ⟨hstatus, -⟩
  · rw [he, hrest]
  · rw [hrest] at hstatus
    exact absurd hstatus hs

private theorem bare_of_alike (h : source.root.alike (bare source).root = true) :
    bare source = source := by
  refine bare_eq_self ?_ fun hs => ?_
  · have hc := Document.get?_alike h ["status", "conditions"]
    rw [show (bare source).root.get? ["status", "conditions"] = none from
      get?_bare_conditions source] at hc
    cases hg : source.get? ["status", "conditions"] with
    | none => rfl
    | some v => rw [show source.root.get? ["status", "conditions"] = some v from hg] at hc; cases hc
  · have hstatus := Document.get?_alike h ["status"]
    rw [show source.root.get? ["status"] = some (.object []) from hs] at hstatus
    cases hg : (bare source).root.get? ["status"] with
    | none => rw [hg] at hstatus; cases hstatus
    | some d =>
      rw [hg] at hstatus
      cases d with
      | object fields =>
        cases fields with
        | nil => exact get?_bare_status source hg
        | cons f fields => cases hstatus
      | _ => cases hstatus

/-- Apart from the conditions the document is the source's. -/
theorem get?_toResource_of_diverge (h : m.toResource = .ok r) {q : List String}
    (hq : Document.Diverge ["status", "conditions"] q) : r.get? q = m.source.get? q := by
  obtain ⟨source, conditions⟩ := m
  cases conditions with
  | nil =>
    rw [toResource_nil] at h
    cases h
    have hrest := Resource.get?_remove_of_diverge source hq
    rcases bare_cases source with ⟨-, he⟩ | ⟨hempty, he⟩
    · rw [he, hrest]
    · rw [he, ← hrest]
      rcases Document.Diverge.append_split (p := ["status"]) hq with hq | ⟨t, rfl, ht⟩
      · rw [Resource.get?_remove_of_diverge _ hq]
      · -- nothing stood below the status, as it was empty
        rw [Resource.get?_append_of_empty ht.ne_nil (.inr hempty),
          Resource.get?_append_of_empty ht.ne_nil (.inl (Resource.get?_remove_self _ (by simp)))]
  | cons c conditions => exact Document.get?_set_of_diverge (Resource.set_eq_ok h) hq

/-- Outside of `status` the document is the source's. -/
theorem get?_toResource (h : m.toResource = .ok r) {q : List String}
    (hq : Document.Diverge ["status"] q) : r.get? q = m.source.get? q :=
  get?_toResource_of_diverge h (hq.append ["conditions"])

/-- A mapping in which nothing else than conditions stands. -/
def HoldsOnlyConditions (status : Document) : Prop :=
  ∃ fields, status = .object fields ∧ ∀ f ∈ fields, f.1 = "conditions"

private theorem without_conditions_eq_empty {status : Document} :
    status.without "conditions" = .object [] ↔ HoldsOnlyConditions status := by
  cases status <;> simp [Document.without, HoldsOnlyConditions]

private theorem get?_bare_status_eq_none (source : Resource) :
    (bare source).get? ["status"] = none ↔
    ∀ status, source.get? ["status"] = some status → HoldsOnlyConditions status := by
  have hrest : (source.remove ["status", "conditions"]).2.get? ["status"] =
      (source.get? ["status"]).map (Document.without "conditions") :=
    Resource.get?_remove_init source ["status"] "conditions"
  rcases bare_cases source with ⟨hne, he⟩ | ⟨hempty, he⟩
  · rw [hrest] at hne
    rw [he, hrest, Option.map_eq_none_iff]
    constructor
    · intro hnone status hs
      rw [hnone] at hs
      cases hs
    · intro hall
      cases hs : source.get? ["status"] with
      | none => rfl
      | some status =>
        rw [hs, Option.map_some, without_conditions_eq_empty.2 (hall status hs)] at hne
        exact absurd rfl hne
  · rw [he, Resource.get?_remove_self _ (by simp)]
    refine iff_of_true rfl fun status hs => ?_
    rw [hrest, hs, Option.map_some, Option.some.injEq] at hempty
    exact without_conditions_eq_empty.1 hempty

/-- The status is missing exactly if there is nothing to put into it. -/
theorem get?_status_eq_none_iff (h : m.toResource = .ok r) : r.get? ["status"] = none ↔
    m.conditions = [] ∧
      ∀ status, m.source.get? ["status"] = some status → HoldsOnlyConditions status := by
  obtain ⟨source, conditions⟩ := m
  cases conditions with
  | nil =>
    rw [toResource_nil] at h
    cases h
    simpa using get?_bare_status_eq_none source
  | cons c conditions =>
    have hget : r.root.get? ["status", "conditions"] = _ := Document.get?_set (Resource.set_eq_ok h)
    obtain ⟨fields, hf, -⟩ := Document.get?_concat_eq_some (p := ["status"]) hget
    simp [Resource.get?, hf]

theorem wellFormed_toResource (hs : m.source.root.WellFormed) (h : m.toResource = .ok r) :
    r.root.WellFormed := by
  obtain ⟨source, conditions⟩ := m
  cases conditions with
  | nil =>
    rw [toResource_nil] at h
    cases h
    rcases bare_cases source with ⟨-, he⟩ | ⟨-, he⟩
    · rw [he]
      exact Resource.wellFormed_remove hs _
    · rw [he]
      exact Resource.wellFormed_remove (Resource.wellFormed_remove hs _) _
  | cons c conditions =>
    exact hs.set (wellFormed_conditionsDocument _) (Resource.set_eq_ok h)

/-- A written manifest that is alike to its source is its source. -/
theorem eq_source_of_alike (hs : m.source.root.WellFormed) (h : m.toResource = .ok r)
    (ha : m.source.root.alike r.root = true) : r = m.source := by
  obtain ⟨source, conditions⟩ := m
  cases conditions with
  | nil =>
    rw [toResource_nil] at h
    cases h
    exact bare_of_alike ha
  | cons c conditions =>
    have hset := Resource.set_eq_ok h
    have hget := Document.get?_alike ha ["status", "conditions"]
    rw [Document.get?_set hset] at hget
    cases hg : source.root.get? ["status", "conditions"] with
    | none => rw [hg] at hget; cases hget
    | some w =>
      rw [hg] at hget
      have hw := Document.eq_of_alike _ _ (numberFree_conditionsDocument (c :: conditions)) hget
      rw [hw] at hg
      have hsame := Document.set_of_get? hs hg
      have heq : r.root = source.root := Except.ok.inj (hset.symm.trans hsame)
      exact congrArg Resource.mk heq

def conditionsField (conditions : List Condition) : Option Document :=
  if conditions = [] then none else some (conditionsDocument conditions)

theorem get?_toResource_conditions (h : m.toResource = .ok r) :
    r.get? ["status", "conditions"] = conditionsField m.conditions := by
  obtain ⟨source, conditions⟩ := m
  cases conditions with
  | nil =>
    rw [toResource_nil] at h
    cases h
    exact get?_bare_conditions source
  | cons c conditions => exact Document.get?_set (Resource.set_eq_ok h)

/-- Only a manifest is loaded, and it is kept as it is. -/
theorem ofResource_eq_ok {root : Resource} (h : ofResource root = .ok m) :
    m.source = root ∧ describes root = true := by
  rw [ofResource] at h
  split at h
  · cases h
  · rename_i hd
    have hd : describes root = true := by simpa using hd
    split at h
    · cases h
      exact ⟨rfl, hd⟩
    · cases h
      exact ⟨rfl, hd⟩
    · split at h
      · cases h
        exact ⟨rfl, hd⟩
      · cases h
    · cases h

theorem ofResource_of_get? (hd : describes r = true)
    (h : r.get? ["status", "conditions"] = conditionsField conditions) :
    ofResource r = .ok ⟨r, conditions⟩ := by
  rw [ofResource, hd, h]
  simp only [Bool.not_true, Bool.false_eq_true, if_false]
  cases conditions with
  | nil => rfl
  | cons c conditions =>
    have hdec := decode_conditionsDocument (c :: conditions)
    simp only [conditionsDocument] at hdec
    simp only [conditionsField, conditionsDocument, reduceCtorEq, if_false, hdec]

/-- The conditions are loaded as they were written. -/
theorem ofResource_toResource (hd : describes m.source = true) (h : m.toResource = .ok r) :
    ofResource r = .ok ⟨r, m.conditions⟩ := by
  refine ofResource_of_get? ?_ (get?_toResource_conditions h)
  simp only [describes, Resource.kind, Resource.apiVersion, Resource.string?] at hd ⊢
  rwa [get?_toResource h (q := ["kind"]) (by decide),
    get?_toResource h (q := ["apiVersion"]) (by decide)]

/-- Writing a manifest again changes nothing. -/
theorem toResource_toResource (h : m.toResource = .ok r) :
    (⟨r, m.conditions⟩ : Manifest).toResource = .ok r := by
  obtain ⟨source, conditions⟩ := m
  cases conditions with
  | nil =>
    rw [toResource_nil] at h ⊢
    cases h
    rw [bare_eq_self (get?_bare_conditions source) (get?_bare_status source)]
  | cons c conditions =>
    rw [toResource_of_ne_nil (by simp)] at h ⊢
    exact Resource.set_set h

/-- The source has a place for conditions. -/
def IsStorable (m : Manifest) : Prop :=
  ∃ r, m.source.set ["status", "conditions"] .null = .ok r

/-- A manifest with a place for conditions can be written, whatever these are. -/
theorem IsStorable.toResource (h : m.IsStorable) : ∃ r, m.toResource = .ok r := by
  obtain ⟨source, conditions⟩ := m
  by_cases hne : conditions = []
  · subst hne
    exact ⟨_, toResource_nil source⟩
  · obtain ⟨r, hr⟩ := h
    rw [toResource_of_ne_nil hne]
    exact Resource.set_isOk_congr hr _

/-- A written manifest has a place for conditions as before. -/
theorem IsStorable.of_toResource (h : m.IsStorable) (hr : m.toResource = .ok r)
    (conditions : List Condition) : IsStorable ⟨r, conditions⟩ := by
  obtain ⟨source, conditions'⟩ := m
  obtain ⟨x, hx⟩ := h
  cases conditions' with
  | nil =>
    rw [toResource_nil] at hr
    cases hr
    obtain ⟨rest, hrest⟩ := Resource.set_isOk_remove hx ["status", "conditions"]
    rcases bare_cases source with ⟨-, he⟩ | ⟨-, he⟩
    · exact ⟨rest, he ▸ hrest⟩
    · rw [IsStorable, he]
      exact Resource.set_isOk_remove hrest ["status"]
  | cons c conditions' =>
    have hget : r.root.get? ["status", "conditions"] =
        some (conditionsDocument (c :: conditions')) := Document.get?_set (Resource.set_eq_ok hr)
    obtain ⟨fields, hf, -⟩ := Document.get?_concat_eq_some (p := ["status"]) hget
    exact Resource.set_concat_isOk hf "conditions" .null

private theorem get?_of_not_storable (h : ¬ m.IsStorable) :
    m.source.get? ["status", "conditions"] = none ∧
      m.source.get? ["status"] ≠ some (.object []) := by
  have hplace {fields : List (String × Document)}
      (hg : m.source.get? ["status"] = some (.object fields)) : False :=
    h (Resource.set_concat_isOk hg "conditions" .null)
  refine ⟨?_, hplace⟩
  cases hg : m.source.get? ["status", "conditions"] with
  | none => rfl
  | some v =>
    obtain ⟨fields, hf, -⟩ := Document.get?_concat_eq_some (p := ["status"]) hg
    exact (hplace hf).elim

/-- Without a place for conditions none are loaded. -/
theorem ofResource_of_not_storable (hd : describes m.source = true) (h : ¬ m.IsStorable) :
    ofResource m.source = .ok ⟨m.source, []⟩ := by
  rw [ofResource, hd, (get?_of_not_storable h).1]
  rfl

/-- Without a place for conditions the source is written as it is, or not at all. -/
theorem eq_source_of_not_storable (h : ¬ m.IsStorable) (hr : m.toResource = .ok r) :
    r = m.source := by
  obtain ⟨hget, hstatus⟩ := get?_of_not_storable h
  obtain ⟨source, conditions⟩ := m
  by_cases hne : conditions = []
  · subst hne
    rw [toResource_nil, bare_eq_self hget hstatus] at hr
    exact (Except.ok.inj hr).symm
  · rw [toResource_of_ne_nil hne] at hr
    exact absurd (Resource.set_isOk_congr hr .null) h

end Render

end Reconciler.Manifest
