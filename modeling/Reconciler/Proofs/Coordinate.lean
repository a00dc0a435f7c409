import Reconciler.Proofs.Text
import Reconciler.Reference

/-! Which texts name a class, and which class: the star alone, or an API version and a kind around
the last slash of the text. The class that was read is read again from its own text. -/
namespace Reconciler.Coordinate

open Text (Trims trim trimBlanks cutLast)

variable {s t : String} {c : Coordinate}

/-- The texts of a class, without blanks around them. An API version may hold slashes. -/
inductive Spells : String → Coordinate → Prop where
  | star : Spells "*" wildcard
  | parts {apiVersion kind : String} : apiVersion ≠ "" → kind ≠ "" → '/' ∉ kind.toList →
    Spells (apiVersion ++ "/" ++ kind) ⟨apiVersion, kind⟩

private theorem toList_parts (apiVersion kind : String) :
    (apiVersion ++ "/" ++ kind).toList = apiVersion.toList ++ '/' :: kind.toList := by
  rw [String.toList_append, String.toList_append, List.append_assoc]
  rfl

theorem parse_trim (s : String) : parse (trim s) = parse s := by
  rw [parse, parse, Text.toList_trim, Text.trimBlanks_of_bare (Text.bare_trimBlanks s.toList)]

private theorem parse_of_trim_eq (h : trim t = t) : parse t =
    if t = "*" then .ok wildcard
    else match cutLast '/' t.toList with
      | some (apiVersion, kind) =>
        if apiVersion ≠ [] ∧ kind ≠ [] then .ok ⟨String.ofList apiVersion, String.ofList kind⟩
        else .error (.malformedCoordinate t)
      | none => .error (.malformedCoordinate t) := by
  have hlist : trimBlanks t.toList = t.toList := by rw [← Text.toList_trim, h]
  have hstar : t.toList = ['*'] ↔ t = "*" :=
    show t.toList = "*".toList ↔ t = "*" from String.toList_inj
  cases hcut : cutLast '/' t.toList with
  | none => simp only [parse, hlist, hstar, hcut, String.ofList_toList]
  | some parts => simp only [parse, hlist, hstar, hcut, String.ofList_toList]

private theorem spells_of_parse (ht : trim t = t) (h : parse t = .ok c) : Spells t c := by
  rw [parse_of_trim_eq ht] at h
  split at h
  · rename_i hstar
    cases h
    rw [hstar]
    exact .star
  · split at h
    · rename_i apiVersion kind hcut
      split at h
      · rename_i hne
        cases h
        have htext : t = String.ofList apiVersion ++ "/" ++ String.ofList kind := by
          rw [← String.toList_inj, toList_parts, String.toList_ofList, String.toList_ofList]
          exact Text.cutLast_eq_some hcut
        rw [htext]
        refine .parts ?_ ?_ ?_
        · simpa using hne.1
        · simpa using hne.2
        · simpa using Text.notMem_of_cutLast hcut
      · cases h
    · cases h

private theorem parse_of_spells (ht : trim t = t) (h : Spells t c) : parse t = .ok c := by
  rw [parse_of_trim_eq ht]
  cases h with
  | star => rfl
  | @parts apiVersion kind hversion hkind hslash =>
    have hstar : apiVersion ++ "/" ++ kind ≠ "*" := by
      intro he
      have hmem : '/' ∈ (apiVersion ++ "/" ++ kind).toList := by simp
      rw [he] at hmem
      exact absurd hmem (by decide)
    have hne : apiVersion.toList ≠ [] ∧ kind.toList ≠ [] := by simpa using ⟨hversion, hkind⟩
    rw [if_neg hstar, toList_parts, Text.cutLast_append _ hslash]
    simp only [if_pos hne, String.ofList_toList]

/-- A text names a class if and only if what is left of it without blanks spells the class. -/
theorem parse_eq_ok_iff (h : Trims s t) : parse s = .ok c ↔ Spells t c := by
  obtain rfl := Text.trims_iff.1 h
  rw [← parse_trim]
  exact ⟨spells_of_parse (Text.trim_trim s), parse_of_spells (Text.trim_trim s)⟩

private theorem fault_of_parse {fault : Fault} (h : Trims s t) (hp : parse s = .error fault) :
    fault = .malformedCoordinate t := by
  obtain rfl := Text.trims_iff.1 h
  rw [← parse_trim, parse_of_trim_eq (Text.trim_trim s)] at hp
  split at hp
  · cases hp
  · split at hp
    · split at hp
      · cases hp
      · exact (Except.error.inj hp).symm
    · exact (Except.error.inj hp).symm

theorem parse_text (h : parse s = .ok c) : parse c.text = .ok c := by
  have hspells := spells_of_parse (Text.trim_trim s) ((parse_trim s).trans h)
  generalize ht : trim s = t at hspells
  have htrim : trim t = t := ht ▸ Text.trim_trim s
  cases hspells with
  | star => decide
  | parts hversion hkind hslash => exact parse_of_spells htrim (.parts hversion hkind hslash)

/-- A text is read as a class exactly if, without blanks around it, it is the star, or an API
version and a kind around its last slash. Classes are shown as such texts. -/
theorem class_texts (h : Trims s t) :
    ((∃ c, parse s = .ok c) ↔ t = "*" ∨ ∃ apiVersion kind, apiVersion ≠ "" ∧ kind ≠ "" ∧
      '/' ∉ kind.toList ∧ t = apiVersion ++ "/" ++ kind) ∧
    (t = "*" → parse s = .ok wildcard) ∧
    (∀ apiVersion kind, apiVersion ≠ "" → kind ≠ "" → '/' ∉ kind.toList →
      t = apiVersion ++ "/" ++ kind → parse s = .ok ⟨apiVersion, kind⟩ ∧
        (⟨apiVersion, kind⟩ : Coordinate).toRef.text = t) ∧
    (∀ c, parse s = .ok c → parse c.toRef.text = .ok c) ∧
    ∀ fault, parse s = .error fault → fault = .malformedCoordinate t := by
  refine ⟨⟨?read, ?readable⟩, ?star, ?parts, fun c hc => parse_text hc,
    fun fault => fault_of_parse h⟩
  case read =>
    rintro ⟨c, hc⟩
    cases (parse_eq_ok_iff h).1 hc with
    | star => exact .inl rfl
    | parts hversion hkind hslash => exact .inr ⟨_, _, hversion, hkind, hslash, rfl⟩
  case readable =>
    rintro (rfl | ⟨apiVersion, kind, hversion, hkind, hslash, rfl⟩)
    · exact ⟨wildcard, (parse_eq_ok_iff h).2 .star⟩
    · exact ⟨⟨apiVersion, kind⟩, (parse_eq_ok_iff h).2 (.parts hversion hkind hslash)⟩
  case star =>
    rintro rfl
    exact (parse_eq_ok_iff h).2 .star
  case parts =>
    rintro apiVersion kind hversion hkind hslash rfl
    exact ⟨(parse_eq_ok_iff h).2 (.parts hversion hkind hslash), rfl⟩

/-- Of several slashes the last one counts. Blanks may stand around the text and inside. -/
theorem class_texts_grouped :
    Trims "\u00a0 req.io/ v1/Interface\n" "req.io/ v1/Interface" ∧
    parse "\u00a0 req.io/ v1/Interface\n" = .ok ⟨"req.io/ v1", "Interface"⟩ ∧
    parse "req.io/ v1/Interface" = .ok ⟨"req.io/ v1", "Interface"⟩ := by
  have htrims : Trims "\u00a0 req.io/ v1/Interface\n" "req.io/ v1/Interface" :=
    Text.trims_iff.2 (by decide)
  obtain ⟨-, -, hparts, hagain, -⟩ := class_texts htrims
  obtain ⟨hread, -⟩ :=
    hparts "req.io/ v1" "Interface" (by decide) (by decide) (by decide) (by decide)
  have hshown := hagain _ hread
  exact ⟨htrims, hread, hshown⟩

end Reconciler.Coordinate
