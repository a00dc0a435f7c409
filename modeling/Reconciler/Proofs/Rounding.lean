import Mathlib.Algebra.Group.Nat.Defs
import Reconciler.Number.Binary64

/-! Integers as binary64 numbers. An integer below `2 ^ 53` shares its number with no other integer;
two integers that share one differ by no more than the share `2 ^ -53` of each. -/
namespace Reconciler.Binary64

variable {m n : Nat}

private theorem div_le_roundHalfEven (num den : Nat) : num / den ≤ roundHalfEven num den := by
  grind [roundHalfEven]

private theorem roundHalfEven_le_div (num den : Nat) : roundHalfEven num den ≤ num / den + 1 := by
  grind [roundHalfEven]

private theorem roundHalfEven_close (num : Nat) {den : Nat} (h : 0 < den) :
    2 * num ≤ 2 * (den * roundHalfEven num den) + den ∧
      2 * (den * roundHalfEven num den) ≤ 2 * num + den := by
  have hnum := Nat.div_add_mod num den
  have hrest := Nat.mod_lt num h
  rw [roundHalfEven]
  generalize num / den = low at *
  generalize num % den = rest at *
  split
  · omega
  · have hup : den * (low + 1) = den * low + den := Nat.mul_succ den low
    split
    · omega
    · rcases Nat.mod_two_eq_zero_or_one low with heven | hodd
      · rw [heven, Nat.add_zero]
        omega
      · rw [hodd]
        omega

/-- The significand of a positive integer, with its leading place at `2 ^ 52`. Rounding can carry it to
the place above. -/
private def significand (n : Nat) : Nat :=
  if n.log2 ≤ 52 then n * 2 ^ (52 - n.log2) else roundHalfEven n (2 ^ (n.log2 - 52))

private theorem lastPlace_one (hn : n ≠ 0) : lastPlace n 1 = (n.log2 : Int) - 52 := by
  have hlog : (1 : Nat).log2 = 0 := by decide
  have hguess : (n.log2 : Int) - (0 : Nat) - 52 + 52 = n.log2 := by omega
  have hbelow : ¬ n < 1 <<< n.log2 := by
    rw [Nat.one_shiftLeft]
    exact Nat.not_lt.2 (Nat.log2_self_le hn)
  simp only [lastPlace, hlog, hguess, Int.natCast_nonneg, if_true, Int.toNat_natCast, hbelow, if_false]
  omega

private theorem magnitudeOfRatio_one (hn : n ≠ 0) :
    magnitudeOfRatio n 1 = (n.log2 + 1022) * 2 ^ 52 + significand n := by
  rw [magnitudeOfRatio, if_neg hn, lastPlace_one hn]
  have hplace : ((n.log2 : Int) - 52 + 1074).toNat = n.log2 + 1022 := by omega
  simp only [hplace, Nat.shiftLeft_eq, significand]
  congr 1
  by_cases hlog : n.log2 ≤ 52
  · rw [if_pos hlog]
    rcases Nat.lt_or_eq_of_le hlog with hlt | heq
    · have hneg : ¬ 0 ≤ (n.log2 : Int) - 52 := by omega
      have hshift : (-((n.log2 : Int) - 52)).toNat = 52 - n.log2 := by omega
      rw [if_neg hneg, hshift]
      simp [roundHalfEven, Nat.mod_one]
    · rw [heq]
      simp [roundHalfEven, Nat.mod_one]
  · have hpos : 0 ≤ (n.log2 : Int) - 52 := by omega
    have hshift : ((n.log2 : Int) - 52).toNat = n.log2 - 52 := by omega
    rw [if_neg hlog, if_pos hpos, hshift, Nat.one_mul]

private theorem pow_log2_split (h : n.log2 ≤ 52) : 2 ^ n.log2 * 2 ^ (52 - n.log2) = 2 ^ 52 := by
  rw [← Nat.pow_add, Nat.add_sub_cancel' h]

private theorem significand_lt (hlog : n.log2 ≤ 52) : significand n < 2 ^ 53 := by
  rw [significand, if_pos hlog]
  have hlt : n < 2 ^ n.log2 * 2 := by
    rw [← Nat.pow_succ]
    exact Nat.lt_log2_self
  calc n * 2 ^ (52 - n.log2)
      < 2 ^ n.log2 * 2 * 2 ^ (52 - n.log2) := Nat.mul_lt_mul_of_pos_right hlt (Nat.two_pow_pos _)
    _ = 2 ^ n.log2 * 2 ^ (52 - n.log2) * 2 := by rw [Nat.mul_right_comm]
    _ = 2 ^ 52 * 2 := by rw [pow_log2_split hlog]
    _ = 2 ^ 53 := by decide

private theorem significand_bounds (hn : n ≠ 0) :
    2 ^ 52 ≤ significand n ∧ significand n ≤ 2 ^ 53 := by
  have hlow := Nat.log2_self_le hn
  by_cases hlog : n.log2 ≤ 52
  · refine ⟨?_, Nat.le_of_lt (significand_lt hlog)⟩
    rw [significand, if_pos hlog, ← pow_log2_split hlog]
    exact Nat.mul_le_mul_right _ hlow
  · have hden : 2 ^ (n.log2 - 52) * 2 ^ 52 = 2 ^ n.log2 := by
      rw [← Nat.pow_add, Nat.sub_add_cancel (Nat.le_of_not_le hlog)]
    have hhigh : n < 2 ^ (n.log2 - 52) * 2 ^ 53 := by
      rw [show 2 ^ 53 = 2 ^ 52 * 2 from rfl, ← Nat.mul_assoc, hden, ← Nat.pow_succ]
      exact Nat.lt_log2_self
    rw [significand, if_neg hlog]
    constructor
    · refine Nat.le_trans ?_ (div_le_roundHalfEven _ _)
      rw [Nat.le_div_iff_mul_le (Nat.two_pow_pos _), Nat.mul_comm, hden]
      exact hlow
    · exact Nat.le_trans (roundHalfEven_le_div _ _) (Nat.div_lt_of_lt_mul hhigh)

private theorem significand_close (hn : n ≠ 0) :
    (2 ^ 53 - 1) * n ≤ 2 * (significand n * 2 ^ n.log2) ∧
      2 * (significand n * 2 ^ n.log2) ≤ (2 ^ 53 + 1) * n := by
  by_cases hlog : n.log2 ≤ 52
  · have hexact : significand n * 2 ^ n.log2 = n * 2 ^ 52 := by
      rw [significand, if_pos hlog, Nat.mul_assoc, Nat.mul_comm _ (2 ^ n.log2),
        pow_log2_split hlog]
    omega
  · have hden : 2 ^ (n.log2 - 52) * 2 ^ 52 = 2 ^ n.log2 := by
      rw [← Nat.pow_add, Nat.sub_add_cancel (Nat.le_of_not_le hlog)]
    have hlow := Nat.log2_self_le hn
    have hclose := roundHalfEven_close n (Nat.two_pow_pos (n.log2 - 52))
    rw [significand, if_neg hlog]
    have hvalue : roundHalfEven n (2 ^ (n.log2 - 52)) * 2 ^ n.log2 =
        2 ^ (n.log2 - 52) * roundHalfEven n (2 ^ (n.log2 - 52)) * 2 ^ 52 := by
      rw [← hden]
      ac_rfl
    omega

private theorem places_of_magnitude_eq (hm : m ≠ 0) (hn : n ≠ 0)
    (h : magnitudeOfRatio m 1 = magnitudeOfRatio n 1) :
    (m.log2 = n.log2 ∧ significand m = significand n) ∨
      (m.log2 = n.log2 + 1 ∧ significand m = 2 ^ 52 ∧ significand n = 2 ^ 53) ∨
      (n.log2 = m.log2 + 1 ∧ significand n = 2 ^ 52 ∧ significand m = 2 ^ 53) := by
  rw [magnitudeOfRatio_one hm, magnitudeOfRatio_one hn] at h
  -- the values are equal, so at most the place of a carry is told apart
  have hbm := significand_bounds hm
  have hbn := significand_bounds hn
  omega

private theorem magnitudeOfRatio_eq_zero_iff : magnitudeOfRatio n 1 = 0 ↔ n = 0 := by
  by_cases hn : n = 0
  · simp [hn, magnitudeOfRatio]
  · rw [magnitudeOfRatio_one hn]
    omega

private theorem eq_of_magnitude_eq (hm : m < 2 ^ 53)
    (h : magnitudeOfRatio m 1 = magnitudeOfRatio n 1) :
    m = n := by
  by_cases hm0 : m = 0
  · rw [hm0, eq_comm, ← magnitudeOfRatio_eq_zero_iff, ← h, magnitudeOfRatio_eq_zero_iff, hm0]
  by_cases hn0 : n = 0
  · rw [hn0, ← magnitudeOfRatio_eq_zero_iff, h, magnitudeOfRatio_eq_zero_iff, hn0]
  have hlog : m.log2 ≤ 52 := Nat.le_of_lt_succ ((Nat.log2_lt hm0).2 hm)
  have hlt := significand_lt hlog
  rcases places_of_magnitude_eq hm0 hn0 h with ⟨hplace, hs⟩ | ⟨hplace, -, hs⟩ | ⟨-, -, hs⟩
  · rw [significand, significand, if_pos hlog, if_pos (hplace ▸ hlog), hplace] at hs
    exact Nat.eq_of_mul_eq_mul_right (Nat.two_pow_pos _) hs
  · have hlt' := significand_lt (n := n) (by omega)
    omega
  · omega

private theorem close_of_magnitude_eq (h : magnitudeOfRatio m 1 = magnitudeOfRatio n 1) :
    2 ^ 53 * m ≤ 2 ^ 53 * n + (m + n) := by
  by_cases hm0 : m = 0
  · omega
  have hn0 : n ≠ 0 := by
    rwa [Ne, ← magnitudeOfRatio_eq_zero_iff, ← h, magnitudeOfRatio_eq_zero_iff]
  have hvalue : significand m * 2 ^ m.log2 = significand n * 2 ^ n.log2 := by
    rcases places_of_magnitude_eq hm0 hn0 h with ⟨hplace, hs⟩ | ⟨hplace, hs, hs'⟩ | ⟨hplace, hs, hs'⟩
    · rw [hplace, hs]
    · rw [hplace, hs, hs', Nat.pow_succ]
      omega
    · rw [hplace, hs, hs', Nat.pow_succ]
      omega
  have hcm := significand_close hm0
  have hcn := significand_close hn0
  omega

section Integers

variable {i j : Int}

private theorem ofInt_eq (hi : i.natAbs < 2 ^ 64) :
    (ofInt i).negative = decide (i < 0) ∧ (ofInt i).magnitude = magnitudeOfRatio i.natAbs 1 := by
  have hfinite : magnitudeOfRatio i.natAbs 1 < 2047 <<< 52 := by
    by_cases h0 : i.natAbs = 0
    · rw [h0]
      decide
    · have hlog : i.natAbs.log2 < 64 := (Nat.log2_lt h0).2 hi
      have hbounds := significand_bounds h0
      rw [magnitudeOfRatio_one h0]
      omega
  rw [ofInt, ofRatio?, dif_pos hfinite]
  exact ⟨rfl, rfl⟩

/-- Integers of 64 bits that become the same number are close together, and the same below `2 ^ 53`. -/
theorem close_of_sameValue (hi : i.natAbs < 2 ^ 64) (hj : j.natAbs < 2 ^ 64)
    (h : (ofInt i).sameValue (ofInt j) = true) :
    2 ^ 53 * (i - j).natAbs ≤ i.natAbs + j.natAbs ∧ (i.natAbs < 2 ^ 53 → i = j) := by
  obtain ⟨hsi, hmi⟩ := ofInt_eq hi
  obtain ⟨hsj, hmj⟩ := ofInt_eq hj
  simp only [sameValue, hsi, hmi, hsj, hmj, Bool.and_eq_true, Bool.or_eq_true, beq_iff_eq] at h
  obtain ⟨hmagnitude, hsign⟩ := h
  have hsigns : (i < 0 ↔ j < 0) ∨ i = 0 ∧ j = 0 := by
    rcases hsign with hs | h0
    · exact .inl (by simpa using hs)
    · have hi0 := magnitudeOfRatio_eq_zero_iff.1 h0
      have hj0 := magnitudeOfRatio_eq_zero_iff.1 (hmagnitude ▸ h0)
      exact .inr ⟨Int.natAbs_eq_zero.1 hi0, Int.natAbs_eq_zero.1 hj0⟩
  constructor
  · have hle := close_of_magnitude_eq hmagnitude
    have hge := close_of_magnitude_eq hmagnitude.symm
    omega
  · intro hsmall
    have habs := eq_of_magnitude_eq hsmall hmagnitude
    omega

end Integers

end Reconciler.Binary64
