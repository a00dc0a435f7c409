import Mathlib.Data.List.DropRight
import Reconciler.Text.Blank
import Reconciler.Text.Cut

/-! Cuts and trimmed texts, each told by the parts that a text is put together from: a cut loses the
separator alone, and trimming loses the blanks at both ends. -/
namespace Reconciler.Text

variable {sep : Char} {cs a b l r : List Char} {s t : String}

section Cut

theorem cutFirst_eq_none : cutFirst sep cs = none ↔ sep ∉ cs := by
  induction cs with
  | nil => simp [cutFirst]
  | cons c cs ih =>
    by_cases hc : c = sep
    · simp [cutFirst, hc]
    · simp [cutFirst, hc, ih, Ne.symm hc]

theorem cutFirst_append (h : sep ∉ a) (b : List Char) :
    cutFirst sep (a ++ sep :: b) = some (a, b) := by
  induction a with
  | nil => simp [cutFirst]
  | cons c a ih =>
    simp only [List.mem_cons, not_or] at h
    simp [cutFirst, Ne.symm h.1, ih h.2]

private theorem cutLast_eq_none : cutLast sep cs = none ↔ sep ∉ cs := by
  induction cs with
  | nil => simp [cutLast]
  | cons c cs ih =>
    rw [cutLast, List.mem_cons, not_or, ← ih]
    cases cutLast sep cs with
    | some parts => simp
    | none =>
      by_cases hc : c = sep
      · simp [hc]
      · simp [hc, Ne.symm hc]

theorem cutLast_append (a : List Char) (h : sep ∉ b) :
    cutLast sep (a ++ sep :: b) = some (a, b) := by
  induction a with
  | nil => rw [List.nil_append, cutLast, cutLast_eq_none.2 h, if_pos rfl]
  | cons c a ih => rw [List.cons_append, cutLast, ih]

/-- No separator follows the last one. -/
theorem notMem_of_cutLast (h : cutLast sep cs = some (a, b)) : sep ∉ b := by
  induction cs generalizing a with
  | nil => cases h
  | cons c cs ih =>
    rw [cutLast] at h
    split at h
    · rename_i parts hparts
      cases h
      exact ih hparts
    · rename_i hnone
      split at h
      · cases h
        exact cutLast_eq_none.1 hnone
      · cases h

end Cut

section Trim

def AllBlank (cs : List Char) : Prop := ∀ c ∈ cs, isBlank c = true

/-- No blank stands at either end. -/
structure Bare (cs : List Char) : Prop where
  head : ∀ c ∈ cs.head?, isBlank c = false
  last : ∀ c ∈ cs.getLast?, isBlank c = false

/-- `t` is what is left of `s` without the blanks at its ends. -/
def Trims (s t : String) : Prop :=
  ∃ l r, s.toList = l ++ t.toList ++ r ∧ AllBlank l ∧ AllBlank r ∧ Bare t.toList

theorem notMem_of_allBlank (h : AllBlank cs) (hsep : isBlank sep = false) : sep ∉ cs := by
  intro hmem
  rw [h sep hmem] at hsep
  cases hsep

private theorem trimBlanks_eq (cs : List Char) :
    trimBlanks cs = (cs.dropWhile isBlank).rdropWhile isBlank := rfl

theorem trimBlanks_append_left (hl : AllBlank l) (cs : List Char) :
    trimBlanks (l ++ cs) = trimBlanks cs := by
  rw [trimBlanks_eq, List.dropWhile_append_of_pos hl, trimBlanks_eq]

theorem trimBlanks_append_right (cs : List Char) (hr : AllBlank r) :
    trimBlanks (cs ++ r) = trimBlanks cs := by
  have hdrop : r.dropWhile isBlank = [] := List.dropWhile_eq_nil_iff.2 hr
  have hreverse : ∀ c ∈ r.reverse, isBlank c = true := fun c hc => hr c (List.mem_reverse.1 hc)
  rw [trimBlanks, trimBlanks, List.dropWhile_append]
  split
  · rename_i hempty
    rw [hdrop, List.isEmpty_iff.1 hempty]
  · rw [List.reverse_append, List.dropWhile_append_of_pos hreverse]

theorem trimBlanks_eq_nil_iff : trimBlanks cs = [] ↔ AllBlank cs := by
  constructor
  · intro h c hc
    rw [trimBlanks_eq, List.rdropWhile_eq_nil_iff] at h
    rw [← List.takeWhile_append_dropWhile (p := isBlank) (l := cs)] at hc
    rcases List.mem_append.1 hc with htake | hdrop
    · exact List.mem_takeWhile_imp htake
    · exact h c hdrop
  · intro h
    rw [trimBlanks_eq, List.dropWhile_eq_nil_iff.2 h, List.rdropWhile_nil]

theorem trimBlanks_of_bare (h : Bare cs) : trimBlanks cs = cs := by
  have hdrop : cs.dropWhile isBlank = cs := by
    cases cs with
    | nil => rfl
    | cons c cs => rw [List.dropWhile_cons, h.head c rfl, if_neg Bool.false_ne_true]
  rw [trimBlanks_eq, hdrop, List.rdropWhile_eq_self_iff]
  intro hne
  rw [h.last _ (List.getLast?_eq_some_getLast hne)]
  exact Bool.false_ne_true

theorem bare_trimBlanks (cs : List Char) : Bare (trimBlanks cs) := by
  constructor
  · intro c hc
    obtain ⟨rest, hrest⟩ := List.rdropWhile_prefix isBlank (cs.dropWhile isBlank)
    have hhead : (cs.dropWhile isBlank).head? = some c := by
      rw [← hrest, List.head?_append, ← trimBlanks_eq, Option.mem_def.1 hc]
      rfl
    have hnot := List.head?_dropWhile_not isBlank cs
    rwa [hhead] at hnot
  · intro c hc
    rw [trimBlanks_eq] at hc
    obtain ⟨hne, rfl⟩ := List.mem_getLast?_eq_getLast hc
    simpa using List.rdropWhile_last_not isBlank (cs.dropWhile isBlank) hne

theorem exists_append_trimBlanks (cs : List Char) :
    ∃ l r, cs = l ++ trimBlanks cs ++ r ∧ AllBlank l ∧ AllBlank r := by
  refine ⟨cs.takeWhile isBlank, (cs.dropWhile isBlank).rtakeWhile isBlank, ?_,
    fun _ => List.mem_takeWhile_imp, fun _ => List.mem_rtakeWhile_imp⟩
  rw [trimBlanks_eq, List.append_assoc, List.rdropWhile_append_rtakeWhile,
    List.takeWhile_append_dropWhile]

theorem toList_trim (s : String) : (trim s).toList = trimBlanks s.toList := String.toList_ofList

/-- Trimming gives what is left, and nothing else is left. -/
theorem trims_iff : Trims s t ↔ trim s = t := by
  constructor
  · rintro ⟨l, r, hs, hl, hr, ht⟩
    rw [← String.toList_inj, toList_trim, hs, trimBlanks_append_right _ hr,
      trimBlanks_append_left hl, trimBlanks_of_bare ht]
  · rintro rfl
    obtain ⟨l, r, hs, hl, hr⟩ := exists_append_trimBlanks s.toList
    refine ⟨l, r, ?_, hl, hr, ?_⟩
    · rwa [toList_trim]
    · rw [toList_trim]
      exact bare_trimBlanks s.toList

@[simp] theorem trim_trim (s : String) : trim (trim s) = trim s := by
  rw [← String.toList_inj, toList_trim, toList_trim, trimBlanks_of_bare (bare_trimBlanks s.toList)]

end Trim

end Reconciler.Text
