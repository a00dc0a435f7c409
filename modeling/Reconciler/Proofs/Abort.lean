import Reconciler.Proofs.Run.Watches

/-! When a run is aborted, and what is left then: the package as it was, with one more error. -/
namespace Reconciler

variable {c : Controller} {b : Batch}

namespace Manifest

/-- There are conditions, or something else in their place, and no list of conditions is read from
it. -/
def Undecodable (root : Resource) : Prop :=
  ∃ d, root.get? ["status", "conditions"] = some d ∧ d ≠ .null ∧
    ∀ conditions, Decoder.list Condition.decode d ≠ .ok conditions

theorem ofResource_isOk_iff {root : Resource} (hd : describes root = true) :
    (∃ m, ofResource root = .ok m) ↔ ¬ Undecodable root := by
  rw [ofResource, hd]
  simp only [Bool.not_true, Bool.false_eq_true, if_false]
  cases hg : root.get? ["status", "conditions"] with
  | none => simp [Undecodable, hg]
  | some d =>
    cases d with
    | null => simp [Undecodable, hg]
    | array items =>
      cases hl : Decoder.list Condition.decode (.array items) with
      | error cause => simp [Undecodable, hg, hl]
      | ok conditions => simp [Undecodable, hg, hl]
    | bool _ | number _ | string _ | object _ => simp [Undecodable, hg, Decoder.list]

end Manifest

namespace Controller

/-- The controller is not valid, or the package is empty, has no root manifest or has one that cannot
be loaded. -/
def Unstartable (c : Controller) (b : Batch) : Prop :=
  c.check ≠ .ok () ∨ b.items = [] ∨ b.rootManifest? = none ∨
    ∃ index root, b.rootManifest? = some (index, root) ∧ Manifest.Undecodable root

/-- `before` and `w` are the first of the watches that are due, in the order of their entries: the
former pass, and `w` fails. -/
def FirstFailure (c : Controller) (b : Batch) (before : List Watch) (w : Watch) (failure : Failure) :
    Prop :=
  ∃ index root after, b.rootManifest? = some (index, root) ∧
    ((before ++ w :: after).Pairwise fun x y => compare x.key y.key = .lt) ∧
    (∀ x, x ∈ before ++ w :: after ↔ x.Observed c (b.others index)) ∧
    (∀ x ∈ before, x.Passes c) ∧ w.FailsWith c failure

end Controller

namespace Run

theorem start_isOk_iff : (∃ s, start c b = .ok s) ↔ ¬ c.Unstartable b := by
  simp only [start_eq_ok_iff]
  constructor
  · rintro ⟨_, hc, index, root, manifest, hr, hm, -⟩ (hcheck | hempty | hnone | ⟨_, _, hr', hu⟩)
    · exact hcheck hc
    · have hi := (Batch.rootManifest?_eq_some hr).1
      rw [hempty] at hi
      cases hi
    · rw [hr] at hnone
      cases hnone
    · rw [hr] at hr'
      cases hr'
      exact (Manifest.ofResource_isOk_iff (Batch.rootManifest?_eq_some hr).2).1 ⟨manifest, hm⟩ hu
  · intro h
    simp only [Controller.Unstartable, not_or, ne_eq, Classical.not_not] at h
    obtain ⟨hc, -, hr, hu⟩ := h
    obtain ⟨⟨index, root⟩, hr⟩ := Option.ne_none_iff_exists'.1 hr
    have hd := (Batch.rootManifest?_eq_some hr).2
    obtain ⟨manifest, hm⟩ := (Manifest.ofResource_isOk_iff hd).2 fun h => hu ⟨index, root, hr, h⟩
    exact ⟨_, hc, index, root, manifest, hr, hm, rfl⟩

private theorem mem_watches_survey {s : Run} {w : Watch} (hs : c.Surveyed b s) :
    w ∈ s.inventory.watches c ↔ w.Observed c (b.others s.manifestIndex) := by
  rw [Inventory.mem_watches, hs.inventory, Inventory.existing?_survey_eq]
  exact ⟨fun h => ⟨h.1, h.2⟩, fun h => ⟨h.1, h.2⟩⟩

private theorem callWatches_cases {s : Run} (hs : c.Surveyed b s) :
    ((∀ w : Watch, w.Observed c (b.others s.manifestIndex) → w.Passes c) ∧ s.callWatches.1 = .ok ()) ∨
    ∃ before w failure, c.FirstFailure b before w failure ∧
      s.callWatches = (.error ⟨failure.within s!"watch callback for {w.resource.reference.text}",
          w.resource.reference⟩, { s with calls := s.calls ++ (before ++ [w]).map Watch.call }) := by
  have hc := hs.controller
  rw [callWatches, observedWatches_eq]
  have hcases := callEach_cases s (s.inventory.watches s.controller)
    fun w hw => ⟨w.key, (Inventory.mem_watches.1 hw).1⟩
  rw [hc] at hcases ⊢
  rcases hcases with ⟨hall, hok⟩ | ⟨before, w, after, failure, hws, hb, hfail, he⟩
  · exact .inl ⟨fun w hw => hall w ((mem_watches_survey hs).2 hw), hok⟩
  · refine .inr ⟨before, w, failure, ⟨_, _, after, hs.root, ?_, ?_, hb, hfail⟩, he⟩
    · rw [← hws]
      exact Inventory.watches_sorted ..
    · intro x
      rw [← hws]
      exact mem_watches_survey hs

end Run

namespace Controller

def abortion (b : Batch) (unmatched : Nat) (message : String) (place : Option Ref)
    (calls : List Call) : Run.Outcome where
  report := ⟨.aborted, unmatched, 0, 0, 0, 0, 0, none⟩
  batch := { b with notices := b.notices ++ [⟨message, .error, place⟩] }
  calls := calls

/-- How a run ends. -/
theorem run_cases (c : Controller) (b : Batch) :
    (c.Unstartable b ∧ ∃ message, c.run b = abortion b 0 message none []) ∨
    (¬ c.Unstartable b ∧ ∃ before w failure unmatched, c.FirstFailure b before w failure ∧
      c.run b = abortion b unmatched
        (failure.within s!"watch callback for {w.resource.reference.text}").line
        (some w.resource.reference) ((before ++ [w]).map Watch.call)) ∨
    (¬ c.Unstartable b ∧ (∀ index root (w : Watch), b.rootManifest? = some (index, root) →
      w.Observed c (b.others index) → w.Passes c) ∧ (c.run b).report.stage = .manifestWritten) := by
  cases hs : Run.start c b with
  | error fault =>
    have hun : c.Unstartable b := by
      refine Classical.byContradiction fun hun => ?_
      obtain ⟨s, hok⟩ := Run.start_isOk_iff.2 hun
      rw [hs] at hok
      cases hok
    exact .inl ⟨hun, fault.message, by rw [run, hs]; rfl⟩
  | ok s =>
    have hun : ¬ c.Unstartable b := Run.start_isOk_iff.1 ⟨s, hs⟩
    have hsurveyed := (surveyed_of_start hs).1
    rw [run, hs]
    simp only [Run.finish]
    rcases Run.callWatches_cases hsurveyed with ⟨hall, hok⟩ | ⟨before, w, failure, hfirst, he⟩
    · refine .inr (.inr ⟨hun, ?_, ?_⟩)
      · intro index root w hr
        rw [hsurveyed.root] at hr
        cases hr
        exact hall w
      · split
        · rfl
        · rename_i he
          rw [he] at hok
          cases hok
    · refine .inr (.inl ⟨hun, before, w, failure, s.populateInventory.inventory.unmatched, hfirst, ?_⟩)
      obtain ⟨-, index, root, manifest, -, -, rfl⟩ := Run.start_eq_ok_iff.1 hs
      rw [he]
      rfl

/-- A run is aborted exactly if it cannot start or a watch that is due fails. It then leaves the
package as it was, with one more error. -/
theorem aborted_run_atomic (c : Controller) (b : Batch) :
    ((c.run b).report.stage = .aborted ↔ c.Unstartable b ∨
      ∃ index root w failure, b.rootManifest? = some (index, root) ∧
        Watch.Observed c (b.others index) w ∧ w.FailsWith c failure) ∧
    ((c.run b).report.stage ≠ .aborted → (c.run b).report.stage = .manifestWritten) ∧
    ((c.run b).report.stage = .aborted → ∃ message place unmatched,
      (c.run b).batch.items = b.items ∧
      (c.run b).batch = { b with notices := b.notices ++ [⟨message, .error, place⟩] } ∧
      (c.run b).report = ⟨.aborted, unmatched, 0, 0, 0, 0, 0, none⟩ ∧
      ((c.Unstartable b ∧ place = none ∧ (c.run b).calls = []) ∨
        (¬ c.Unstartable b ∧ ∃ before w failure, c.FirstFailure b before w failure ∧
          place = some w.resource.reference ∧
          (c.run b).calls = (before ++ [w]).map Watch.call))) := by
  rcases run_cases c b with ⟨hun, message, he⟩ | ⟨hun, before, w, failure, unmatched, hfirst, he⟩ |
    ⟨hun, hall, hstage⟩
  · have hstage : (c.run b).report.stage = .aborted := by rw [he]; rfl
    refine ⟨⟨fun _ => .inl hun, fun _ => hstage⟩, fun h => absurd hstage h, fun _ => ?_⟩
    exact ⟨message, none, 0, by rw [he]; rfl, by rw [he]; rfl, by rw [he]; rfl,
      .inl ⟨hun, rfl, by rw [he]; rfl⟩⟩
  · have hstage : (c.run b).report.stage = .aborted := by rw [he]; rfl
    obtain ⟨index, root, after, hr, -, hmem, -, hfail⟩ := id hfirst
    have hw := (hmem w).1 (List.mem_append_right _ List.mem_cons_self)
    refine ⟨⟨fun _ => .inr ⟨index, root, w, failure, hr, hw, hfail⟩, fun _ => hstage⟩,
      fun h => absurd hstage h, fun _ => ?_⟩
    exact ⟨_, some w.resource.reference, unmatched, by rw [he]; rfl, by rw [he]; rfl,
      by rw [he]; rfl, .inr ⟨hun, before, w, failure, hfirst, rfl, by rw [he]; rfl⟩⟩
  · have hna : (c.run b).report.stage ≠ .aborted := by simp [hstage]
    refine ⟨⟨fun h => absurd h hna, ?_⟩, fun _ => hstage, fun h => absurd h hna⟩
    rintro (h | ⟨index, root, w, failure, hr, hw, hfail⟩)
    · exact absurd h hun
    · exact absurd hfail (hall index root w hr hw).not_failsWith

def refusing : Controller :=
  (((ofGoverned ⟨"req/v1", "Interface"⟩).watching ⟨"infra/v1", "Cluster"⟩ fun _ => .ok ())
    |>.watching ⟨"topo/v1", "Link"⟩ fun _ => .error ⟨"down", []⟩)
    |>.watching ⟨"zone/v1", "Zone"⟩ fun _ => .ok ()

def refusedPackage : Batch :=
  .ofItems [.minimal ⟨"kpt.dev/v1", "Kptfile"⟩ "pkg", .minimal ⟨"zone/v1", "Zone"⟩ "z",
    .minimal ⟨"topo/v1", "Link"⟩ "l", .minimal ⟨"infra/v1", "Cluster"⟩ "edge"]

/-- The cluster is seen, the link refused and the zone not looked at. -/
theorem aborted_run_atomic_refusing :
    (refusing.run refusedPackage).report.stage = .aborted ∧
    (refusing.run refusedPackage).batch.items = refusedPackage.items ∧
    ∃ before w failure, refusing.FirstFailure refusedPackage before w failure ∧
      (refusing.run refusedPackage).calls = (before ++ [w]).map Watch.call ∧
      (before ++ [w]).length = 2 ∧ w.resource = .minimal ⟨"topo/v1", "Link"⟩ "l" := by
  have hstage : (refusing.run refusedPackage).report.stage = .aborted := by decide +kernel
  have hcalls : (refusing.run refusedPackage).calls =
      [.watch ⟨"infra/v1", "Cluster"⟩ (.minimal ⟨"infra/v1", "Cluster"⟩ "edge"),
        .watch ⟨"topo/v1", "Link"⟩ (.minimal ⟨"topo/v1", "Link"⟩ "l")] := by decide +kernel
  obtain ⟨-, -, habort⟩ := aborted_run_atomic refusing refusedPackage
  obtain ⟨message, place, unmatched, hitems, -, -, hcase⟩ := habort hstage
  rcases hcase with ⟨-, -, hnone⟩ | ⟨-, before, w, failure, hfirst, -, hsome⟩
  · rw [hcalls] at hnone
    cases hnone
  · refine ⟨hstage, hitems, before, w, failure, hfirst, hsome, ?_, ?_⟩
    · rw [← List.length_map (f := Watch.call), ← hsome, hcalls]
      rfl
    · have hlast : (refusing.run refusedPackage).calls.getLast? = some w.call := by
        rw [hsome, List.map_append]
        simp
      rw [hcalls] at hlast
      exact (Call.watch.inj (Option.some.inj hlast)).2.symm

end Controller

end Reconciler
