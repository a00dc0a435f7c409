import Reconciler.Condition
import Reconciler.Proofs.Text

/-! Condition types are read back as what they were written for: reading is inverse to writing
wherever it succeeds, so readable subjects have types of their own. -/
namespace Reconciler.Subject

/-- The subject is read back from its type. -/
def Readable (s : Subject) : Prop := ofTypeName? s.typeName = some s

instance (s : Subject) : Decidable s.Readable := inferInstanceAs (Decidable (_ = _))

theorem toList_singleType (r : Ref) :
    (singleType r).toList =
      r.apiVersion.toList ++ '.' :: (r.kind.toList ++ '.' :: r.name.toList) := by
  change (r.apiVersion ++ "." ++ r.kind ++ "." ++ r.name).toList = _
  simp [String.toList_append]

/-- Within a class the references without namespace are told apart by their types. -/
theorem eq_of_singleType_eq {r r' : Ref} (hc : r.toCoordinate = r'.toCoordinate)
    (hs : r.space = r'.space) (h : singleType r = singleType r') : r = r' := by
  obtain ⟨c, name, space⟩ := r
  obtain ⟨c', name', space'⟩ := r'
  cases hc
  cases hs
  have hlist := congrArg String.toList h
  rw [toList_singleType, toList_singleType, List.append_cancel_left_eq, List.cons.injEq,
    List.append_cancel_left_eq, List.cons.injEq] at hlist
  have hname : name = name' := String.toList_inj.1 hlist.2.2
  rw [hname]

theorem toList_pairType (owner child : Ref) :
    (pairType owner child).toList =
      (singleType owner).toList ++ '_' :: (singleType child).toList := by
  change (singleType owner ++ "_" ++ singleType child).toList = _
  simp [String.toList_append]

theorem readSingle_eq_some {cs : List Char} {r : Ref} (h : readSingle cs = some r) :
    (singleType r).toList = cs ∧ r.space = none := by
  rw [readSingle] at h
  cases hg : Text.cutFirst '/' cs with
  | none =>
    rw [hg] at h
    obtain ⟨⟨version, rest⟩, hv, h⟩ := Option.bind_eq_some_iff.1 h
    obtain ⟨⟨kind, name⟩, hk, h⟩ := Option.bind_eq_some_iff.1 h
    obtain ⟨-, -, he⟩ := Option.bind_eq_some_iff.1 h
    obtain ⟨rfl, -⟩ := Text.cutFirst_eq_some hv
    obtain ⟨rfl, -⟩ := Text.cutFirst_eq_some hk
    cases he
    refine ⟨?_, rfl⟩
    rw [toList_singleType]
    simp [Coordinate.named]
  | some parts =>
    obtain ⟨group, after⟩ := parts
    rw [hg] at h
    obtain ⟨⟨version, rest⟩, hv, h⟩ := Option.bind_eq_some_iff.1 h
    obtain ⟨⟨kind, name⟩, hk, h⟩ := Option.bind_eq_some_iff.1 h
    obtain ⟨-, -, he⟩ := Option.bind_eq_some_iff.1 h
    obtain ⟨rfl, -⟩ := Text.cutFirst_eq_some hg
    obtain ⟨rfl, -⟩ := Text.cutFirst_eq_some hv
    obtain ⟨rfl, -⟩ := Text.cutFirst_eq_some hk
    cases he
    refine ⟨?_, rfl⟩
    rw [toList_singleType]
    simp [Coordinate.named]

/-- Reading is inverse to writing wherever it succeeds. -/
theorem typeName_of_ofTypeName? {typeName : String} {s : Subject}
    (h : ofTypeName? typeName = some s) : s.typeName = typeName := by
  rw [ofTypeName?] at h
  cases hc : Text.cutFirst '_' typeName.toList with
  | none =>
    rw [hc] at h
    obtain ⟨r, hr, rfl⟩ := Option.map_eq_some_iff.1 h
    exact String.toList_inj.1 (readSingle_eq_some hr).1
  | some parts =>
    obtain ⟨o, c⟩ := parts
    rw [hc] at h
    simp only [Option.bind_eq_bind, Option.bind_eq_some_iff] at h
    obtain ⟨owner, ho, child, hch, he⟩ := h
    cases he
    have hcut := (Text.cutFirst_eq_some hc).1
    refine String.toList_inj.1 ?_
    rw [hcut, Subject.typeName, toList_pairType, (readSingle_eq_some ho).1, (readSingle_eq_some hch).1]

/-- References that are read have no namespace. -/
theorem space_of_single {typeName : String} {target : Ref}
    (h : ofTypeName? typeName = some (.single target)) : target.space = none := by
  rw [ofTypeName?] at h
  split at h
  · obtain ⟨owner, -, h⟩ := Option.bind_eq_some_iff.1 h
    obtain ⟨child, -, h⟩ := Option.bind_eq_some_iff.1 h
    cases h
  · obtain ⟨r, hr, he⟩ := Option.map_eq_some_iff.1 h
    cases he
    exact (readSingle_eq_some hr).2

theorem space_of_pair {typeName : String} {owner child : Ref}
    (h : ofTypeName? typeName = some (.pair owner child)) :
    owner.space = none ∧ child.space = none := by
  rw [ofTypeName?] at h
  split at h
  · obtain ⟨o, ho, h⟩ := Option.bind_eq_some_iff.1 h
    obtain ⟨x, hx, he⟩ := Option.bind_eq_some_iff.1 h
    cases he
    exact ⟨(readSingle_eq_some ho).2, (readSingle_eq_some hx).2⟩
  · obtain ⟨r, -, he⟩ := Option.map_eq_some_iff.1 h
    cases he

theorem readable_of_ofTypeName? {typeName : String} {s : Subject}
    (h : ofTypeName? typeName = some s) : s.Readable := by
  rw [Readable, typeName_of_ofTypeName? h, h]

theorem Readable.eq_of_typeName_eq {s s' : Subject} (h : s.Readable) (h' : s'.Readable)
    (he : s.typeName = s'.typeName) : s = s' := by
  rw [Readable, he, h'] at h
  exact (Option.some.inj h).symm

/-- The condition of a readable subject is read as that subject. -/
theorem Readable.ofTypeName?_eq_iff {s : Subject} (h : s.Readable) (typeName : String) :
    ofTypeName? typeName = some s ↔ typeName = s.typeName :=
  ⟨fun ht => (typeName_of_ofTypeName? ht).symm, fun ht => ht ▸ h⟩

theorem Readable.single_iff (r : Ref) : (single r).Readable ↔
    '_' ∉ (singleType r).toList ∧ readSingle (singleType r).toList = some r := by
  rw [Readable, typeName, ofTypeName?]
  cases hc : Text.cutFirst '_' (singleType r).toList with
  | none => simp [Text.cutFirst_eq_none.1 hc]
  | some parts =>
    have hmem : '_' ∈ (singleType r).toList := by
      simp [(Text.cutFirst_eq_some hc).1]
    simp only [Option.bind_eq_bind, hmem, not_true_eq_false, false_and, iff_false]
    intro h
    obtain ⟨owner, -, h⟩ := Option.bind_eq_some_iff.1 h
    obtain ⟨child, -, h⟩ := Option.bind_eq_some_iff.1 h
    cases h

/-- The owner of a readable pair is readable by itself. -/
theorem Readable.of_pair {owner child : Ref} (h : (Subject.pair owner child).Readable) :
    (single owner).Readable := by
  rw [Readable, typeName, ofTypeName?] at h
  cases hc : Text.cutFirst '_' (pairType owner child).toList with
  | none =>
    rw [hc] at h
    obtain ⟨r, -, hr⟩ := Option.map_eq_some_iff.1 h
    cases hr
  | some parts =>
    obtain ⟨o, t⟩ := parts
    rw [hc] at h
    simp only [Option.bind_eq_bind, Option.bind_eq_some_iff] at h
    obtain ⟨owner', ho, child', -, he⟩ := h
    cases he
    have hsep := (Text.cutFirst_eq_some hc).2
    rw [← (readSingle_eq_some ho).1] at hsep ho
    exact (Readable.single_iff owner).2 ⟨hsep, ho⟩

end Reconciler.Subject
