import Reconciler.Proofs.Run.Survey

/-! Which watches a run calls: one for each watched entry with a resource, in the order of the
entries, up to the first failure. -/
namespace Reconciler

open Inventory (Key)

namespace Controller

def watchClass? (c : Controller) : Key → Option Coordinate
  | ⟨.watched, some _, target⟩ => c.watchExact? target
  | ⟨.watched, none, target⟩ => c.watchGlobal? target
  | _ => none

variable {c : Controller}

private theorem watched_of_watchExact? {target : Ref} {watched : Coordinate}
    (h : c.watchExact? target = some watched) : c.watched.contains watched = true := by
  rw [watchExact?, Option.ite_none_right_eq_some] at h
  obtain ⟨hc, he⟩ := h
  cases he
  exact hc

private theorem exists_callback {k : Key} {watched : Coordinate}
    (h : c.watchClass? k = some watched) :
    ∃ callback, c.watched.find? watched = some callback := by
  rw [← Option.isSome_iff_exists]
  change c.watched.contains watched = true
  obtain ⟨role, owner, target⟩ := k
  cases role with
  | governed => cases h
  | owned => cases h
  | watched =>
    cases owner with
    | some owner => exact watched_of_watchExact? h
    | none =>
      rw [watchClass?, watchGlobal?, Option.orElse_eq_orElse, Option.orElse_eq_or,
        Option.or_eq_some_iff, Option.ite_none_right_eq_some] at h
      rcases h with hexact | ⟨-, hc, he⟩
      · exact watched_of_watchExact? hexact
      · cases he
        exact hc

end Controller

/-- A watched resource with its entry and the class whose callback takes it. -/
structure Watch where
  key : Key
  watched : Coordinate
  resource : Resource

namespace Watch

/-- The resource is present, as the last of the items that belong to the entry. -/
structure Observed (c : Controller) (items : List Resource) (w : Watch) : Prop where
  watched : c.watchClass? w.key = some w.watched
  resource : (items.reverse.find? fun r => c.keyOf r == some w.key) = some w.resource

def Passes (c : Controller) (w : Watch) : Prop :=
  ∃ callback, c.watched.find? w.watched = some callback ∧ callback w.resource = .ok ()

def FailsWith (c : Controller) (w : Watch) (failure : Failure) : Prop :=
  ∃ callback, c.watched.find? w.watched = some callback ∧ callback w.resource = .error failure

def call (w : Watch) : Call := .watch w.watched w.resource

def passed (w : Watch) : Coordinate × Resource := (w.watched, w.resource)

theorem Passes.not_failsWith {c : Controller} {w : Watch} {failure : Failure} (h : w.Passes c) :
    ¬ w.FailsWith c failure := by
  rintro ⟨callback, hf, he⟩
  obtain ⟨callback', hf', ho⟩ := h
  rw [hf] at hf'
  cases hf'
  rw [he] at ho
  cases ho

end Watch

namespace Inventory

variable {c : Controller} {inv : Inventory} {w : Watch}

/-- The watches of an inventory, in the order of its entries. -/
def watches (inv : Inventory) (c : Controller) : List Watch :=
  inv.entries.entries.filterMap fun e => do return ⟨e.1, ← c.watchClass? e.1, ← e.2.existing⟩

private theorem watch_eq_some {e : Key × Entry} :
    (do return ⟨e.1, ← c.watchClass? e.1, ← e.2.existing⟩ : Option Watch) = some w ↔
      w.key = e.1 ∧ c.watchClass? w.key = some w.watched ∧ e.2.existing = some w.resource := by
  obtain ⟨key, watched, resource⟩ := w
  simp only [Option.bind_eq_bind, Option.bind_eq_some_iff, pure, Option.some.injEq, Watch.mk.injEq]
  constructor
  · rintro ⟨watched', hw, resource', hr, rfl, rfl, rfl⟩
    exact ⟨rfl, hw, hr⟩
  · rintro ⟨rfl, hw, hr⟩
    exact ⟨watched, hw, resource, hr, rfl, rfl, rfl⟩

theorem mem_watches : w ∈ inv.watches c ↔
    c.watchClass? w.key = some w.watched ∧ inv.existing? w.key = some w.resource := by
  simp only [watches, List.mem_filterMap, watch_eq_some]
  constructor
  · rintro ⟨⟨k, e⟩, hm, rfl, hw, hr⟩
    exact ⟨hw, by rw [existing?, entryAt_of_find? (SortedMap.find?_eq_some_iff.2 hm), hr]⟩
  · rintro ⟨hw, hr⟩
    cases he : inv.find? w.key with
    | none =>
      rw [existing?, entryAt, he] at hr
      cases hr
    | some e =>
      rw [existing?, entryAt_of_find? he] at hr
      exact ⟨(w.key, e), SortedMap.find?_eq_some_iff.1 he, rfl, hw, hr⟩

theorem watches_sorted (inv : Inventory) (c : Controller) :
    (inv.watches c).Pairwise fun w w' => compare w.key w'.key = .lt := by
  rw [watches, List.pairwise_filterMap]
  refine inv.entries.sorted.imp ?_
  intro e e' hlt w hw w' hw'
  rw [(watch_eq_some.1 hw).1, (watch_eq_some.1 hw').1]
  exact hlt

end Inventory

namespace Run

variable {s : Run}

theorem observedWatches_eq (s : Run) :
    s.observedWatches = (s.inventory.watches s.controller).map Watch.passed := by
  rw [observedWatches, Inventory.watches, List.map_filterMap]
  congr 1
  funext e
  obtain ⟨⟨role, owner, target⟩, e⟩ := e
  cases role <;> cases owner <;>
    simp [Controller.watchClass?, Watch.passed, Option.map_bind, Function.comp_def]

/-- Either all watches pass, or they are called up to the first one that fails. -/
theorem callEach_cases (s : Run) (ws : List Watch)
    (hw : ∀ w ∈ ws, ∃ k, s.controller.watchClass? k = some w.watched) :
    ((∀ w ∈ ws, w.Passes s.controller) ∧ (s.callEach (ws.map Watch.passed)).1 = .ok ()) ∨
    ∃ before w after failure, ws = before ++ w :: after ∧
      (∀ w' ∈ before, w'.Passes s.controller) ∧ w.FailsWith s.controller failure ∧
      s.callEach (ws.map Watch.passed) =
        (.error ⟨failure.within s!"watch callback for {w.resource.reference.text}",
          w.resource.reference⟩, { s with calls := s.calls ++ (before ++ [w]).map Watch.call }) := by
  induction ws generalizing s with
  | nil => exact .inl ⟨by simp, rfl⟩
  | cons w ws ih =>
    obtain ⟨k, hk⟩ := hw w List.mem_cons_self
    obtain ⟨callback, hf⟩ := Controller.exists_callback hk
    rw [List.map_cons, Watch.passed, callEach, hf]
    simp only
    cases ho : callback w.resource with
    | error failure =>
      exact .inr ⟨[], w, ws, failure, rfl, by simp, ⟨callback, hf, ho⟩, rfl⟩
    | ok _ =>
      have hpass : w.Passes s.controller := ⟨callback, hf, ho⟩
      have ih := ih (s.logCall w.call) fun w' hw' => hw w' (List.mem_cons_of_mem w hw')
      rcases ih with ⟨hall, hok⟩ | ⟨before, w', after, failure, rfl, hb, hfail, he⟩
      · exact .inl ⟨List.forall_mem_cons.2 ⟨hpass, hall⟩, hok⟩
      · refine .inr ⟨w :: before, w', after, failure, rfl,
          List.forall_mem_cons.2 ⟨hpass, hb⟩, hfail, ?_⟩
        refine he.trans ?_
        simp [logCall]

end Run

end Reconciler
