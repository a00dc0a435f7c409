import Mathlib.Data.List.Perm.Basic
import Reconciler.Inventory.Listing
import Reconciler.Inventory.Readiness
import Reconciler.Proofs.Census

/-! What a survey finds does not depend on the order of items and conditions. Items create entries
independently of each other, and conditions fill entries that the items decide about. -/
namespace Reconciler

variable {c : Controller} {b b' : Batch} {s : Run} {root root' : Resource} {m : Manifest}

namespace Inventory

variable {inv inv' : Inventory} {k : Key} {items items' : List Resource} {xs ys : List Condition}

private theorem Sound.find?_congr (h : Sound c inv) (h' : Sound c inv')
    (hc : inv.condition? k = inv'.condition? k) (he : inv.existing? k = inv'.existing? k)
    (hd : inv.desired? k = inv'.desired? k) : inv.find? k = inv'.find? k := by
  have hsome : (inv.find? k).isSome = (inv'.find? k).isSome := by
    rw [Bool.eq_iff_iff, h.isSome_find?_iff, h'.isSome_find?_iff, hc, he, hd]
  cases hf : inv.find? k with
  | none =>
    rw [hf, Option.isSome_none, eq_comm, Option.isSome_eq_false_iff, Option.isNone_iff_eq_none]
      at hsome
    exact hsome.symm
  | some e =>
    rw [hf, Option.isSome_some, eq_comm] at hsome
    obtain ⟨e', hf'⟩ := Option.isSome_iff_exists.1 hsome
    have hx : e.exchange = e'.exchange := (h k e hf).2.1.trans (h' k e' hf').2.1.symm
    rw [condition?, condition?, entryAt_of_find? hf, entryAt_of_find? hf'] at hc
    rw [existing?, existing?, entryAt_of_find? hf, entryAt_of_find? hf'] at he
    rw [desired?, desired?, entryAt_of_find? hf, entryAt_of_find? hf'] at hd
    cases e
    cases e'
    simp only at hc he hd hx
    rw [hf', hc, he, hd, hx]

/-- With distinct identities and distinct condition types a survey is the same in any order. -/
theorem survey_perm (hitems : items.Perm items') (hxs : xs.Perm ys)
    (hn : (items.map Resource.identity).Nodup) (hm : (xs.map Condition.typeName).Nodup) :
    survey c items xs = survey c items' ys := by
  have hn' : (items'.map Resource.identity).Nodup := (hitems.map _).nodup_iff.1 hn
  have hm' : (ys.map Condition.typeName).Nodup := (hxs.map _).nodup_iff.1 hm
  have hexisting (k : Key) : (survey c items xs).existing? k = (survey c items' ys).existing? k := by
    ext r
    rw [existing?_survey hn, existing?_survey hn', hitems.mem_iff]
  have hcondition (k : Key) :
      (survey c items xs).condition? k = (survey c items' ys).condition? k := by
    ext x
    rw [condition?_survey_eq_some hm, condition?_survey_eq_some hm', hexisting, hxs.mem_iff]
  have hentries : (survey c items xs).entries = (survey c items' ys).entries :=
    SortedMap.ext_find? fun k => (sound_survey c items xs).find?_congr (sound_survey c items' ys)
      (hcondition k) (hexisting k) (desired?_survey.trans desired?_survey.symm)
  -- what is not recorded is counted, and as much is recorded
  have hunmatched : (survey c items xs).unmatched = (survey c items' ys).unmatched := by
    have hcensus := census_survey (c := c) hn hm
    have hcensus' := census_survey (c := c) hn' hm'
    rw [census, resourceCount, conditionCount, hentries] at hcensus
    rw [census, resourceCount, conditionCount] at hcensus'
    have hlength := hitems.length_eq
    have hlength' := hxs.length_eq
    omega
  generalize survey c items xs = inv at hentries hunmatched
  generalize survey c items' ys = inv' at hentries hunmatched
  cases inv
  cases inv'
  cases hentries
  cases hunmatched
  rfl

end Inventory

/-- The same manifest, with its conditions in another order. -/
def Resource.Rearranges (root root' : Resource) : Prop :=
  root' = root ∨ ∃ xs ys, root.get? ["status", "conditions"] = some (.array xs) ∧ xs.Perm ys ∧
    root.set ["status", "conditions"] (.array ys) = .ok root'

/-- The same package with one manifest, with the items and the conditions in another order. -/
def Batch.Rearranges (b b' : Batch) : Prop :=
  ∃ root root' rest, b.items.Perm (root :: rest) ∧ b'.items.Perm (root' :: rest) ∧
    root.Rearranges root' ∧ Manifest.describes root = true ∧
      ∀ r ∈ rest, Manifest.describes r = false

section Manifest

private theorem Resource.Rearranges.get? (h : root.Rearranges root') {q : List String}
    (hq : Document.Diverge ["status", "conditions"] q) : root'.get? q = root.get? q := by
  rcases h with rfl | ⟨xs, ys, -, -, hset⟩
  · rfl
  · exact Document.get?_set_of_diverge (Resource.set_eq_ok hset) hq

private theorem Resource.Rearranges.string? (h : root.Rearranges root') {q : List String}
    (hq : Document.Diverge ["status", "conditions"] q) : root'.string? q = root.string? q := by
  rw [Resource.string?, Resource.string?, h.get? hq]

private theorem Resource.Rearranges.identity (h : root.Rearranges root') :
    root'.identity = root.identity := by
  rw [Batch.identity_eq_iff]
  exact ⟨congrArg (·.getD "") (h.string? (by decide)), congrArg (·.getD "") (h.string? (by decide)),
    congrArg (·.getD "") (h.string? (by decide))⟩

private theorem Resource.Rearranges.packagePath (h : root.Rearranges root') :
    root'.packagePath = root.packagePath := by
  have hkey (key : String) : root'.annotation? key = root.annotation? key :=
    h.string? (by simp [Document.Diverge, List.cons_prefix_cons])
  rw [Resource.packagePath, Resource.packagePath, hkey, hkey]

section Decoding

variable {α β ε : Type} {f : α → Except ε β} {xs xs' : List α} {ys : List β}

private theorem isOk_of_mapM (h : xs.mapM f = .ok ys) : ∀ x ∈ xs, (f x).isOk = true := by
  induction xs generalizing ys with
  | nil => simp
  | cons x xs ih =>
    rw [List.mapM_cons] at h
    cases hx : f x with
    | error fault =>
      rw [hx] at h
      cases h
    | ok y =>
      rw [hx] at h
      cases hrest : xs.mapM f with
      | error fault =>
        rw [hrest] at h
        cases h
      | ok rest =>
        intro x' hx'
        rcases List.mem_cons.1 hx' with rfl | hx'
        · rw [hx]
          rfl
        · exact ih hrest x' hx'

private theorem mapM_of_isOk (h : ∀ x ∈ xs, (f x).isOk = true) :
    xs.mapM f = .ok (xs.filterMap fun x => (f x).toOption) := by
  induction xs with
  | nil => rfl
  | cons x xs ih =>
    obtain ⟨y, hy⟩ := exists_ok_of_isOk (h x List.mem_cons_self)
    rw [List.mapM_cons, ih fun x' hx' => h x' (List.mem_cons_of_mem _ hx'), List.filterMap_cons, hy]
    rfl

private theorem mapM_perm (h : xs.mapM f = .ok ys) (hp : xs.Perm xs') :
    ∃ ys', xs'.mapM f = .ok ys' ∧ ys.Perm ys' := by
  have hok := isOk_of_mapM h
  rw [mapM_of_isOk hok] at h
  cases h
  exact ⟨_, mapM_of_isOk fun x hx => hok x (hp.mem_iff.2 hx), hp.filterMap _⟩

end Decoding

private theorem Resource.Rearranges.ofResource (h : root.Rearranges root')
    (hm : Manifest.ofResource root = .ok m) :
    ∃ ys, Manifest.ofResource root' = .ok ⟨root', ys⟩ ∧ m.conditions.Perm ys := by
  obtain ⟨hsource, hd⟩ := Manifest.ofResource_eq_ok hm
  have hd' : Manifest.describes root' = true := by rwa [Manifest.describes_congr h.identity]
  rcases h with rfl | ⟨xs, ys, hget, hperm, hset⟩
  · refine ⟨m.conditions, ?_, .refl _⟩
    rw [hm, ← hsource]
  · have hget' : root'.get? ["status", "conditions"] = some (.array ys) :=
      Document.get?_set (Resource.set_eq_ok hset)
    rw [Manifest.ofResource] at hm ⊢
    simp only [hd, hd', hget, hget', Decoder.list, Bool.not_true, Bool.false_eq_true, if_false] at hm ⊢
    split at hm
    · rename_i conditions hdecode
      cases hm
      obtain ⟨conditions', hdecode', hconditions⟩ := mapM_perm hdecode hperm
      rw [hdecode']
      exact ⟨conditions', rfl, hconditions⟩
    · cases hm

end Manifest

namespace Batch

variable {index : Nat} {rest : List Resource}

private theorem rootManifest?_of_perm (hp : b.items.Perm (root :: rest))
    (hd : Manifest.describes root = true) (hrest : ∀ r ∈ rest, Manifest.describes r = false) :
    ∃ index, b.rootManifest? =
      if root.packagePath = some Manifest.rootPath ∨ root.packagePath = none then some (index, root)
      else none := by
  have hmanifests : b.manifests.map (·.2) = b.items.filter Manifest.describes := by
    have hpositions : b.items.zipIdx.map (·.1) = b.items := List.zipIdx_map_fst ..
    refine Eq.trans ?_ (congrArg (List.filter Manifest.describes) hpositions)
    rw [manifests, List.filter_map, List.filter_map, List.map_map]
    rfl
  have hone : (b.items.filter Manifest.describes).Perm [root] := by
    have hfilter := hp.filter Manifest.describes
    have hnone : rest.filter Manifest.describes = [] := by
      rw [List.filter_eq_nil_iff]
      intro r hr
      simp [hrest r hr]
    rwa [List.filter_cons_of_pos hd, hnone] at hfilter
  rw [← hmanifests, List.perm_singleton, List.map_eq_singleton_iff] at hone
  obtain ⟨⟨index, r⟩, hsingle, rfl⟩ := hone
  refine ⟨index, ?_⟩
  rw [rootManifest?, hsingle]
  by_cases hpath : r.packagePath = some Manifest.rootPath
  · simp [hpath]
  · by_cases hnone : r.packagePath = none
    · simp [hnone]
    · simp [hpath, hnone]

private theorem Rearranges.rootManifest? (h : b.Rearranges b')
    (hroot : b.rootManifest? = some (index, root)) :
    ∃ index' root', b'.rootManifest? = some (index', root') ∧ root.Rearranges root' ∧
      (b.others index).Perm (b'.others index') := by
  obtain ⟨first, root', rest, hitems, hitems', hroots, hd, hrest⟩ := h
  obtain ⟨i, hi⟩ := rootManifest?_of_perm hitems hd hrest
  obtain ⟨i', hi'⟩ := rootManifest?_of_perm hitems'
    (by rwa [Manifest.describes_congr hroots.identity]) hrest
  rw [hi] at hroot
  split at hroot
  · rename_i hpath
    cases hroot
    rw [hroots.packagePath, if_pos hpath] at hi'
    rw [if_pos hpath] at hi
    have hothers {b : Batch} {root : Resource} {index : Nat}
        (hr : b.rootManifest? = some (index, root)) (hp : b.items.Perm (root :: rest)) :
        (b.others index).Perm rest := by
      obtain ⟨hlt, hget⟩ := List.getElem?_eq_some_iff.1 (rootManifest?_eq_some hr).1
      rw [others_eq_eraseIdx, ← List.perm_cons root, ← hget]
      exact (List.getElem_cons_eraseIdx_perm hlt).trans (hget ▸ hp)
    exact ⟨i', root', hi', hroots, (hothers hi hitems).trans (hothers hi' hitems').symm⟩
  · cases hroot

end Batch

namespace Controller

/-- With one manifest, distinct identities and distinct condition types a package is surveyed with
the same result in any order of items and conditions. -/
theorem survey_order_irrelevant (hr : b.Rearranges b') (hs : Run.start c b = .ok s)
    (hb : (b.items.map Resource.identity).Nodup)
    (hm : (s.manifest.conditions.map Condition.typeName).Nodup) :
    ∃ s', Run.start c b' = .ok s' ∧
      s'.populateInventory.inventory = s.populateInventory.inventory ∧
      s'.populateInventory.report = s.populateInventory.report ∧
      s'.populateInventory.inventory.rows = s.populateInventory.inventory.rows ∧
      s'.populateInventory.inventory.unmatched = s.populateInventory.inventory.unmatched ∧
      s'.populateInventory.inventory.isReady = s.populateInventory.inventory.isReady ∧
      s'.populateInventory.inventory.readyMap = s.populateInventory.inventory.readyMap := by
  obtain ⟨hc, index, root, m, hroot, hload, rfl⟩ := Run.start_eq_ok_iff.1 hs
  obtain ⟨index', root', hroot', hrearranged, hothers⟩ := hr.rootManifest? hroot
  obtain ⟨conditions, hload', hconditions⟩ := hrearranged.ofResource hload
  have hinventory : (Run.loaded c b' index' ⟨root', conditions⟩).populateInventory.inventory =
      (Run.loaded c b index m).populateInventory.inventory :=
    (Inventory.survey_perm hothers hconditions (Batch.nodup_others hb index) hm).symm
  refine ⟨_, Run.start_eq_ok_iff.2 ⟨hc, index', root', _, hroot', hload', rfl⟩, hinventory, ?_⟩
  have hreport : (Run.loaded c b' index' ⟨root', conditions⟩).populateInventory.report =
      (Run.loaded c b index m).populateInventory.report := by
    have hunmatched := congrArg Inventory.unmatched hinventory
    simp only [Run.populateInventory] at hunmatched ⊢
    rw [hunmatched]
    rfl
  refine ⟨hreport, ?_⟩
  rw [hinventory]
  exact ⟨rfl, rfl, rfl, rfl⟩

def manifestListing (conditions : List Document) : Resource :=
  ⟨.object [("apiVersion", .string "kpt.dev/v1"), ("kind", .string "Kptfile"),
    ("metadata", .object [("name", .string "pkg")]),
    ("status", .object [("conditions", .array conditions)])]⟩

def settledConditions : List Document :=
  [.object [("status", .string "True"), ("type", .string "req/v1.Interface.a")],
    .object [("status", .string "False"), ("type", .string "v1.ConfigMap.settings")]]

def settledPackage : Batch :=
  .ofItems [manifestListing settledConditions, .minimal ⟨"req/v1", "Interface"⟩ "a",
    .minimal ⟨"v1", "ConfigMap"⟩ "settings"]

def shuffledPackage : Batch :=
  .ofItems [.minimal ⟨"v1", "ConfigMap"⟩ "settings", manifestListing settledConditions.reverse,
    .minimal ⟨"req/v1", "Interface"⟩ "a"]

/-- The settings block both packages. -/
theorem survey_order_irrelevant_observing : settledPackage.Rearranges shuffledPackage ∧
    ∃ s s', Run.start observing settledPackage = .ok s ∧
      Run.start observing shuffledPackage = .ok s' ∧
      s'.manifest.conditions ≠ s.manifest.conditions ∧
      s'.populateInventory.inventory.rows = s.populateInventory.inventory.rows ∧
      s'.populateInventory.inventory.isReady = false := by
  have hr : settledPackage.Rearranges shuffledPackage :=
    ⟨_, manifestListing settledConditions.reverse, _, .refl _, by decide +kernel,
      .inr ⟨_, _, rfl, (List.reverse_perm settledConditions).symm, by decide +kernel⟩,
      by decide +kernel, by decide +kernel⟩
  obtain ⟨s, hs, hm, hready, hfirst⟩ : ∃ s, Run.start observing settledPackage = .ok s ∧
      (s.manifest.conditions.map Condition.typeName).Nodup ∧
      s.populateInventory.inventory.isReady = false ∧
      s.manifest.conditions.head?.map Condition.typeName = some "req/v1.Interface.a" :=
    exists_started (by decide +kernel)
  obtain ⟨s', hs', -, -, hrows, -, hready', -⟩ :=
    survey_order_irrelevant hr hs (by decide +kernel) hm
  refine ⟨hr, s, s', hs, hs', fun heq => ?_, hrows, hready'.trans hready⟩
  obtain ⟨t, ht, hfirst'⟩ : ∃ t, Run.start observing shuffledPackage = .ok t ∧
      t.manifest.conditions.head?.map Condition.typeName = some "v1.ConfigMap.settings" :=
    exists_started (by decide +kernel)
  rw [hs'] at ht
  cases ht
  rw [heq, hfirst] at hfirst'
  exact absurd hfirst' (by decide)

end Controller

end Reconciler
