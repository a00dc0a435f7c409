import Mathlib.Data.Option.Basic
import Reconciler.Proofs.TypeName

/-! Which references are read back from their condition types. The types know no escapes: group,
version, kind and name share three separators, and reading cuts at the first of each. -/
namespace Reconciler

namespace Ref

/-- The API version is `group/version`, cut at its first slash, and no dot ends the version early. -/
def IsGrouped (r : Ref) : Prop :=
  ∃ group version, r.apiVersion.toList = group ++ '/' :: version ∧ '/' ∉ group ∧
    group ≠ [] ∧ version ≠ [] ∧ '.' ∉ version

/-- The API version is a lone version. No slash may follow it, for it would make a group of all that
stands before. -/
structure IsUngrouped (r : Ref) : Prop where
  version_noSlash : '/' ∉ r.apiVersion.toList
  version_noDot : '.' ∉ r.apiVersion.toList
  kind_noSlash : '/' ∉ r.kind.toList
  name_noSlash : '/' ∉ r.name.toList

/-- The parts of the reference can be told apart in its type. -/
structure Spelled (r : Ref) : Prop where
  version_ne : r.apiVersion ≠ ""
  kind_ne : r.kind ≠ ""
  name_ne : r.name ≠ ""
  kind_noDot : '.' ∉ r.kind.toList
  version : r.IsUngrouped ∨ r.IsGrouped

/-- No underscore, which would be taken for the seam between an owner and its child. -/
structure Seamless (r : Ref) : Prop where
  version : '_' ∉ r.apiVersion.toList
  kind : '_' ∉ r.kind.toList
  name : '_' ∉ r.name.toList

def withName (r : Ref) (name : String) : Ref := { r with name := name }

/-- `name` has the characters of `r.name`, and dots at any place. -/
def AllowsName (r : Ref) (name : String) : Prop :=
  name ≠ "" ∧ ∀ c ∈ name.toList, c = '.' ∨ c ∈ r.name.toList

variable {r : Ref} {name : String}

private theorem AllowsName.notMem (h : r.AllowsName name) {c : Char} (hc : c ≠ '.')
    (hn : c ∉ r.name.toList) : c ∉ name.toList := by
  intro hm
  rcases h.2 c hm with hdot | hold
  · exact hc hdot
  · exact hn hold

private theorem Spelled.withName (h : r.Spelled) (ha : r.AllowsName name) :
    (r.withName name).Spelled := by
  refine ⟨h.version_ne, h.kind_ne, ha.1, h.kind_noDot, ?_⟩
  rcases h.version with hu | hg
  · exact .inl ⟨hu.version_noSlash, hu.version_noDot, hu.kind_noSlash,
      ha.notMem (by decide) hu.name_noSlash⟩
  · exact .inr hg

private theorem Seamless.withName (h : r.Seamless) (ha : r.AllowsName name) :
    (r.withName name).Seamless :=
  ⟨h.version, h.kind, ha.notMem (by decide) h.name⟩

end Ref

namespace Subject

private theorem seamless_iff (r : Ref) : r.Seamless ↔ '_' ∉ (singleType r).toList := by
  rw [toList_singleType]
  simp only [List.mem_append, List.mem_cons, not_or]
  constructor
  · intro h
    exact ⟨h.version, by decide, h.kind, by decide, h.name⟩
  · rintro ⟨hv, -, hk, -, hn⟩
    exact ⟨hv, hk, hn⟩

private theorem ofList_ne_empty {cs : List Char} (h : cs ≠ []) : String.ofList cs ≠ "" := by
  intro he
  apply h
  rw [← String.toList_inj, String.toList_ofList] at he
  exact he

private theorem toList_ne_nil {s : String} (h : s ≠ "") : s.toList ≠ [] := by
  intro he
  apply h
  rw [← String.toList_inj, he]
  rfl

private theorem spelled_of_readSingle {cs : List Char} {r : Ref} (h : readSingle cs = some r) :
    r.Spelled := by
  rw [readSingle] at h
  cases hg : Text.cutFirst '/' cs with
  | none =>
    rw [hg] at h
    obtain ⟨⟨version, rest⟩, hv, h⟩ := Option.bind_eq_some_iff.1 h
    obtain ⟨⟨kind, name⟩, hk, h⟩ := Option.bind_eq_some_iff.1 h
    obtain ⟨_, hne, he⟩ := Option.bind_eq_some_iff.1 h
    obtain ⟨hv0, hk0, hn0, -⟩ := (Option.guard_eq_some' _).1 hne
    obtain ⟨rfl, hvdot⟩ := Text.cutFirst_eq_some hv
    obtain ⟨rfl, hkdot⟩ := Text.cutFirst_eq_some hk
    have hslash := Text.cutFirst_eq_none.1 hg
    simp only [List.mem_append, List.mem_cons, not_or] at hslash
    obtain ⟨hvs, -, hks, -, hns⟩ := hslash
    cases he
    refine ⟨ofList_ne_empty hv0, ofList_ne_empty hk0, ofList_ne_empty hn0, ?_, .inl ?_⟩
    · simpa [Coordinate.named] using hkdot
    · exact ⟨by simpa [Coordinate.named] using hvs, by simpa [Coordinate.named] using hvdot,
        by simpa [Coordinate.named] using hks, by simpa [Coordinate.named] using hns⟩
  | some parts =>
    obtain ⟨group, after⟩ := parts
    rw [hg] at h
    obtain ⟨⟨version, rest⟩, hv, h⟩ := Option.bind_eq_some_iff.1 h
    obtain ⟨⟨kind, name⟩, hk, h⟩ := Option.bind_eq_some_iff.1 h
    obtain ⟨_, hne, he⟩ := Option.bind_eq_some_iff.1 h
    obtain ⟨hv0, hk0, hn0, hg0⟩ := (Option.guard_eq_some' _).1 hne
    obtain ⟨-, hgs⟩ := Text.cutFirst_eq_some hg
    obtain ⟨-, hvdot⟩ := Text.cutFirst_eq_some hv
    obtain ⟨-, hkdot⟩ := Text.cutFirst_eq_some hk
    cases he
    refine ⟨ofList_ne_empty (by simp), ofList_ne_empty hk0, ofList_ne_empty hn0, ?_, .inr ?_⟩
    · simpa [Coordinate.named] using hkdot
    · exact ⟨group, version, by simp [Coordinate.named], hgs, fun h => hg0 (h ▸ rfl), hv0, hvdot⟩

private theorem readSingle_of_spelled {r : Ref} (h : r.Spelled) (hs : r.space = none) :
    readSingle (singleType r).toList = some r := by
  obtain ⟨⟨apiVersion, kind⟩, name, space⟩ := r
  subst hs
  have hk0 := toList_ne_nil h.kind_ne
  have hn0 := toList_ne_nil h.name_ne
  have hkdot := Text.cutFirst_append h.kind_noDot name.toList
  rw [toList_singleType, readSingle]
  rcases h.version with hu | ⟨group, version, hv, hgs, hg0, hv0, hvdot⟩
  · have hslash : Text.cutFirst '/' (apiVersion.toList ++ '.' :: (kind.toList ++ '.' :: name.toList))
        = none := by
      rw [Text.cutFirst_eq_none]
      simp [hu.version_noSlash, hu.kind_noSlash, hu.name_noSlash]
    have hdot := Text.cutFirst_append hu.version_noDot (kind.toList ++ '.' :: name.toList)
    simp [hslash, hdot, hkdot, toList_ne_nil h.version_ne, hk0, hn0, guard, Coordinate.named]
  · have hslash := Text.cutFirst_append hgs (version ++ '.' :: (kind.toList ++ '.' :: name.toList))
    have hdot := Text.cutFirst_append hvdot (kind.toList ++ '.' :: name.toList)
    simp only at hv
    have hav : String.ofList group ++ ("/" ++ String.ofList version) = apiVersion := by
      rw [← String.toList_inj]
      simp [hv]
    simp [hv, hslash, hdot, hkdot, hv0, hk0, hn0, hg0, hav, guard, Coordinate.named]

private theorem readSingle_singleType (r : Ref) :
    readSingle (singleType r).toList = some r ↔ r.space = none ∧ r.Spelled :=
  ⟨fun h => ⟨(readSingle_eq_some h).2, spelled_of_readSingle h⟩,
    fun h => readSingle_of_spelled h.2 h.1⟩

private theorem readable_single_iff (r : Ref) :
    (single r).Readable ↔ r.space = none ∧ r.Spelled ∧ r.Seamless := by
  rw [Readable.single_iff, readSingle_singleType, ← seamless_iff, and_comm, and_assoc]

private theorem readable_withName {r : Ref} {name : String} (ha : r.AllowsName name)
    (h : (single r).Readable) : (single (r.withName name)).Readable := by
  obtain ⟨hs, hsp, hse⟩ := (readable_single_iff r).1 h
  exact (readable_single_iff _).2 ⟨hs, hsp.withName ha, hse.withName ha⟩

private theorem readable_pair_iff (owner child : Ref) :
    (pair owner child).Readable ↔ (single owner).Readable ∧ child.space = none ∧ child.Spelled := by
  -- reading cuts at the first underscore, so only the owner has to be free of them
  rw [← readSingle_singleType]
  constructor
  · intro h
    have ho := Readable.of_pair h
    obtain ⟨hseam, hro⟩ := (Readable.single_iff owner).1 ho
    rw [Readable, typeName, ofTypeName?, toList_pairType, Text.cutFirst_append hseam] at h
    simp only [hro, Option.bind_eq_bind, Option.bind_some, Option.bind_eq_some_iff] at h
    obtain ⟨child', hc, he⟩ := h
    cases he
    exact ⟨ho, hc⟩
  · rintro ⟨ho, hc⟩
    obtain ⟨hseam, hro⟩ := (Readable.single_iff owner).1 ho
    rw [Readable, typeName, ofTypeName?, toList_pairType, Text.cutFirst_append hseam]
    simp [hro, hc]

/-- What is read from a condition type has this type. A reference is read back exactly if it has no
namespace, is spelled and has no underscore. -/
theorem types_read_back :
    (∀ typeName s, ofTypeName? typeName = some s → s.typeName = typeName) ∧
    (∀ typeName typeName' s, ofTypeName? typeName = some s → ofTypeName? typeName' = some s →
      typeName = typeName') ∧
    (∀ r : Ref, ofTypeName? (singleType r) = some (.single r) ↔
      r.space = none ∧ r.Spelled ∧ r.Seamless) ∧
    (∀ owner child : Ref, ofTypeName? (pairType owner child) = some (.pair owner child) ↔
      (owner.space = none ∧ owner.Spelled ∧ owner.Seamless) ∧
        child.space = none ∧ child.Spelled) ∧
    (∀ (r : Ref) (name : String), r.AllowsName name →
      ofTypeName? (singleType r) = some (.single r) →
      ofTypeName? (singleType (r.withName name)) = some (.single (r.withName name))) ∧
    (∀ (owner child : Ref) (name name' : String),
      owner.AllowsName name → child.AllowsName name' →
      ofTypeName? (pairType owner child) = some (.pair owner child) →
      ofTypeName? (pairType (owner.withName name) (child.withName name')) =
        some (.pair (owner.withName name) (child.withName name'))) := by
  refine ⟨fun _ _ => typeName_of_ofTypeName?, ?injective, readable_single_iff, ?pairs, ?single, ?pair⟩
  case injective =>
    intro typeName typeName' s h h'
    rw [← typeName_of_ofTypeName? h, typeName_of_ofTypeName? h']
  case pairs =>
    intro owner child
    rw [← readable_single_iff]
    exact readable_pair_iff owner child
  case single =>
    intro r name ha h
    exact readable_withName ha h
  case pair =>
    intro owner child name name' ho hc h
    obtain ⟨howner, hs, hsp⟩ := (readable_pair_iff owner child).1 h
    exact (readable_pair_iff _ _).2 ⟨readable_withName ho howner, hs, hsp.withName hc⟩

theorem types_read_back_dotted :
    let x : Ref := ⟨⟨"ipam.alloc.nephio.org/v1alpha1", "IPAllocation"⟩, "n3upf", none⟩
    let a : Ref := ⟨⟨"v1", "ConfigMap"⟩, "cm", none⟩
    ofTypeName? "v1.ConfigMap.cm" = some (.single a) ∧ singleType a = "v1.ConfigMap.cm" ∧
    a.AllowsName "c.m" ∧
    ofTypeName? "v1.ConfigMap.c.m" = some (.single (a.withName "c.m")) ∧
    x.AllowsName "n3.upf" ∧
    ofTypeName? (pairType a x) = some (.pair a x) ∧
    ofTypeName? "v1.ConfigMap.c.m_ipam.alloc.nephio.org/v1alpha1.IPAllocation.n3.upf" =
      some (.pair (a.withName "c.m") (x.withName "n3.upf")) := by
  intro x a
  obtain ⟨hback, -, -, -, hsingle, hpair⟩ := types_read_back
  have ha : a.AllowsName "c.m" := ⟨by decide, by simp [a]⟩
  have hx : x.AllowsName "n3.upf" := ⟨by decide, by simp [x]⟩
  have hread : ofTypeName? "v1.ConfigMap.cm" = some (.single a) := by decide +kernel
  have hpairs : ofTypeName? (pairType a x) = some (.pair a x) := by decide +kernel
  have htype : singleType a = "v1.ConfigMap.cm" := hback _ _ hread
  exact ⟨hread, htype, ha, hsingle a "c.m" ha (htype ▸ hread), hx, hpairs,
    hpair a x "c.m" "n3.upf" ha hx hpairs⟩

end Subject
end Reconciler
