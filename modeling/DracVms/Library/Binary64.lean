import DracVms.Library.JsNumeral

/-! The arithmetic of doubles, for results that stay finite: the double next to an exact result. -/
namespace DracVms.Binary64

open JsNumeral (lastBit roundHalfEven)

/-- The double next to a number that is not negative. -/
def near (x : ℚ) : ℚ := roundHalfEven (x / 2 ^ lastBit x) * (2 : ℚ) ^ lastBit x

/-- The double next to a number. -/
def double (x : ℚ) : ℚ := if x < 0 then -near (-x) else near x

theorem roundHalfEven_le {x : ℚ} {n : ℤ} (below : x ≤ n) : roundHalfEven x ≤ n := by
  have floor : ⌊x⌋ ≤ n := Int.floor_le_iff.mpr (by linarith)
  have split := Int.floor_add_fract x
  unfold roundHalfEven
  split
  · exact floor
  · have strict : ⌊x⌋ < n := by
      apply lt_of_le_of_ne floor
      intro same
      rw [same] at split
      linarith
    split
    · exact strict
    · split
      · exact floor
      · exact strict

theorem le_roundHalfEven {x : ℚ} {n : ℤ} (above : (n : ℚ) ≤ x) : n ≤ roundHalfEven x :=
  (Int.le_floor.mpr above).trans (JsNumeral.floor_le_roundHalfEven x)

theorem sub_half_le_roundHalfEven (x : ℚ) : x - 1 / 2 ≤ roundHalfEven x := by
  have split := Int.floor_add_fract x
  have less := Int.fract_lt_one x
  unfold roundHalfEven
  split
  · linarith
  · split
    · push_cast
      linarith
    · split
      · linarith
      · push_cast
        linarith

theorem roundHalfEven_mono {x y : ℚ} (below : x ≤ y) : roundHalfEven x ≤ roundHalfEven y := by
  rcases (Int.floor_mono below).lt_or_eq with less | same
  · have top : roundHalfEven x ≤ ⌊x⌋ + 1 := by
      apply roundHalfEven_le
      push_cast
      exact (Int.lt_floor_add_one x).le
    have bottom := JsNumeral.floor_le_roundHalfEven y
    omega
  · have fract : Int.fract x ≤ Int.fract y := by
      unfold Int.fract
      rw [same]
      linarith
    unfold roundHalfEven
    grind

section

variable {x y : ℚ}

theorem bit_pos (e : ℤ) : (0 : ℚ) < 2 ^ e := zpow_pos (by norm_num) e

theorem near_le {n : ℤ} (below : x ≤ n * 2 ^ lastBit x) : near x ≤ n * 2 ^ lastBit x := by
  have scaled : x / 2 ^ lastBit x ≤ n := (div_le_iff₀ (bit_pos _)).mpr below
  have rounded : ((roundHalfEven (x / 2 ^ lastBit x) : ℤ) : ℚ) ≤ n := by
    exact_mod_cast roundHalfEven_le scaled
  exact mul_le_mul_of_nonneg_right rounded (bit_pos _).le

theorem le_near {n : ℤ} (above : n * 2 ^ lastBit x ≤ x) : n * 2 ^ lastBit x ≤ near x := by
  have scaled : (n : ℚ) ≤ x / 2 ^ lastBit x := (le_div_iff₀ (bit_pos _)).mpr above
  have rounded : (n : ℚ) ≤ (roundHalfEven (x / 2 ^ lastBit x) : ℤ) := by
    exact_mod_cast le_roundHalfEven scaled
  exact mul_le_mul_of_nonneg_right rounded (bit_pos _).le

/-- A multiple of the last bit is a double. -/
theorem near_multiple {n : ℤ} (grid : x = n * 2 ^ lastBit x) : near x = x := by
  apply le_antisymm
  · exact (near_le grid.le).trans_eq grid.symm
  · exact grid.le.trans (le_near grid.ge)

theorem near_zero : near 0 = 0 := by
  apply near_multiple (n := 0)
  simp

theorem near_nonneg (nonneg : 0 ≤ x) : 0 ≤ near x := by
  have zero := le_near (x := x) (n := 0)
  simpa using zero (by simpa using nonneg)

/-- A power of two is a multiple of the lesser ones. -/
theorem power_multiple {e k : ℤ} (finer : k ≤ e) : ∃ n : ℤ, (2 : ℚ) ^ e = n * 2 ^ k := by
  refine ⟨2 ^ (e - k).toNat, ?_⟩
  have exponent : ((e - k).toNat : ℤ) = e - k := Int.toNat_of_nonneg (by omega)
  push_cast
  rw [← zpow_natCast, exponent, ← zpow_add₀ (by norm_num)]
  congr 1
  omega

theorem lastBit_mono (positive : 0 < x) (below : x ≤ y) : lastBit x ≤ lastBit y := by
  have logs : Int.log 2 x ≤ Int.log 2 y := Int.log_mono_right positive below
  unfold lastBit
  omega

/-- Half of the last bit is all that is lost. -/
theorem sub_half_bit_le_near (x : ℚ) : x - 2 ^ lastBit x / 2 ≤ near x := by
  have scaled := mul_le_mul_of_nonneg_right (sub_half_le_roundHalfEven (x / 2 ^ lastBit x))
    (bit_pos (lastBit x)).le
  rw [sub_mul, div_mul_cancel₀ _ (bit_pos _).ne'] at scaled
  unfold near
  linarith

theorem near_mono (nonneg : 0 ≤ x) (below : x ≤ y) : near x ≤ near y := by
  rcases nonneg.lt_or_eq with positive | zero
  · rcases (lastBit_mono positive below).lt_or_eq with finer | same
    · -- A power of two stands between the two: it is on both grids.
      have apart : Int.log 2 x + 1 ≤ Int.log 2 y ∧ lastBit x ≤ Int.log 2 y ∧
          lastBit y ≤ Int.log 2 y := by
        unfold lastBit at finer ⊢
        omega
      have ends : x ≤ 2 ^ Int.log 2 y := by
        have next := Int.lt_zpow_succ_log_self (b := 2) (by norm_num) x
        exact next.le.trans (zpow_le_zpow_right₀ (by norm_num) apart.1)
      have starts : (2 : ℚ) ^ Int.log 2 y ≤ y :=
        Int.zpow_log_le_self (by norm_num) (positive.trans_le below)
      obtain ⟨n, first⟩ := power_multiple apart.2.1
      obtain ⟨m, second⟩ := power_multiple apart.2.2
      calc near x ≤ n * 2 ^ lastBit x := near_le (first ▸ ends)
        _ = m * 2 ^ lastBit y := first.symm.trans second
        _ ≤ near y := le_near (second ▸ starts)
    · unfold near
      rw [same]
      apply mul_le_mul_of_nonneg_right _ (bit_pos _).le
      exact_mod_cast roundHalfEven_mono (div_le_div_of_nonneg_right below (bit_pos _).le)
  · rw [← zero, near_zero]
    exact near_nonneg (nonneg.trans below)

theorem double_mono (below : x ≤ y) : double x ≤ double y := by
  unfold double
  split
  · split
    · exact neg_le_neg (near_mono (by linarith) (by linarith))
    · have first := near_nonneg (x := -x) (by linarith)
      have second := near_nonneg (x := y) (by linarith)
      linarith
  · rw [if_neg (by linarith)]
    exact near_mono (by linarith) below

/-- What 53 bits can write is a double. -/
theorem double_exact {n e : ℤ} (bits : |n| < 2 ^ 53) (least : -1074 ≤ e) :
    double (n * 2 ^ e) = n * 2 ^ e := by
  have positive : ∀ n : ℤ, 0 ≤ n → n < 2 ^ 53 → near (n * 2 ^ e) = n * 2 ^ e := by
    intro n nonneg small
    rcases nonneg.lt_or_eq with some_ | rfl
    swap
    · simp [near_zero]
    have whole : (0 : ℚ) < n := by exact_mod_cast some_
    have finer : lastBit (n * 2 ^ e) ≤ e := by
      have size : (n : ℚ) * 2 ^ e < 2 ^ (53 + e) := by
        rw [zpow_add₀ (by norm_num)]
        apply mul_lt_mul_of_pos_right _ (bit_pos e)
        exact_mod_cast small
      have log := (Int.lt_zpow_iff_log_lt (by norm_num : 1 < 2)
        (mul_pos whole (bit_pos e))).mp size
      unfold lastBit
      omega
    obtain ⟨m, power⟩ := power_multiple finer
    apply near_multiple (n := n * m)
    rw [Int.cast_mul, mul_assoc, ← power]
  unfold double
  split
  · rename_i negative
    have below : n < 0 := by
      by_contra nonneg
      have : (0 : ℚ) ≤ n := by exact_mod_cast not_lt.mp nonneg
      exact absurd (mul_nonneg this (bit_pos e).le) (not_le.mpr negative)
    have own := positive (-n) (by omega) (by rw [abs_of_neg below] at bits; omega)
    push_cast at own
    rw [← neg_mul, own]
    ring
  · rename_i nonneg
    have above : 0 ≤ n := by
      by_contra negative
      have : (n : ℚ) < 0 := by exact_mod_cast not_le.mp negative
      exact nonneg (mul_neg_of_neg_of_pos this (bit_pos e))
    exact positive n above (by rw [abs_of_nonneg above] at bits; exact bits)

theorem double_intCast {n : ℤ} (bits : |n| < 2 ^ 53) : double n = n := by
  have own := double_exact (e := 0) bits (by norm_num)
  simpa using own

theorem double_zero : double 0 = 0 := by
  rw [double, if_neg (lt_irrefl 0), near_zero]

theorem double_nonneg (nonneg : 0 ≤ x) : 0 ≤ double x :=
  double_zero.ge.trans (double_mono nonneg)

theorem near_double (x : ℚ) (nonneg : 0 ≤ x) : double (near x) = near x := by
  have bound : roundHalfEven (x / 2 ^ lastBit x) ≤ 2 ^ 53 := by
    apply roundHalfEven_le
    have size : x ≤ 2 ^ (53 + lastBit x) :=
      (Int.lt_zpow_succ_log_self (b := 2) (by norm_num) x).le.trans
        (zpow_le_zpow_right₀ (by norm_num) (by unfold lastBit; omega))
    rw [zpow_add₀ (by norm_num)] at size
    rw [div_le_iff₀ (bit_pos _)]
    exact_mod_cast size
  have least : 0 ≤ roundHalfEven (x / 2 ^ lastBit x) := by
    apply le_roundHalfEven
    exact_mod_cast div_nonneg nonneg (bit_pos _).le
  have lowest : -1074 ≤ lastBit x := le_max_right _ _
  unfold near
  rcases bound.lt_or_eq with small | full
  · exact double_exact (by rwa [abs_of_nonneg least]) lowest
  · -- The next power of two needs one bit only.
    have carried : ((2 ^ 53 : ℤ) : ℚ) * 2 ^ lastBit x = (2 ^ 52 : ℤ) * 2 ^ (lastBit x + 1) := by
      rw [zpow_add_one₀ (by norm_num)]
      ring
    rw [full, carried]
    exact double_exact (by norm_num) (by omega)

theorem double_neg (x : ℚ) : double (-x) = -double x := by
  rcases lt_trichotomy x 0 with negative | rfl | positive
  · rw [double, double, if_neg (by linarith), if_pos negative, neg_neg]
  · rw [neg_zero, double_zero, neg_zero]
  · rw [double, double, if_pos (by linarith), if_neg (by linarith), neg_neg]

/-- What is a double stays as it is. -/
theorem double_idem (x : ℚ) : double (double x) = double x := by
  rcases lt_or_ge x 0 with negative | nonneg
  · have mirrored := near_double (-x) (by linarith)
    have reads : double x = -near (-x) := if_pos negative
    rw [reads, double_neg, mirrored]
  · have reads : double x = near x := if_neg (not_lt.mpr nonneg)
    rw [reads, near_double x nonneg]

/-- Every sum of some of the numbers is a double. -/
def Exact (numbers : List ℚ) : Prop :=
  ∀ part : List ℚ, part.Subperm numbers → double part.sum = part.sum

theorem Exact.subperm {numbers part : List ℚ} (exact_ : Exact numbers)
    (fewer : part.Subperm numbers) : Exact part :=
  fun rest still => exact_ rest (still.trans fewer)

/-- Whole numbers whose sum 53 bits can write. -/
theorem Exact.of_whole {numbers : List ℕ} (small : numbers.sum < 2 ^ 53) :
    Exact (numbers.map fun n : ℕ => (n : ℚ)) := by
  rintro part ⟨rest, perm, fewer⟩
  obtain ⟨taken, sublist, rfl⟩ := List.sublist_map_iff.mp fewer
  have least : taken.sum ≤ numbers.sum := sublist.sum_le_sum fun _ _ => Nat.zero_le _
  have cast : part.sum = ((taken.sum : ℤ) : ℚ) := by
    rw [← perm.sum_eq, Int.cast_natCast, Nat.cast_list_sum]
  rw [cast]
  apply double_intCast
  exact_mod_cast least.trans_lt small

/-- A step of at least the last bit of a bound goes on by half of that bit up to the bound. -/
theorem double_add_far {step bound : ℚ} (nonneg : 0 ≤ x) (within : x + step ≤ bound)
    (enough : (2 : ℚ) ^ lastBit bound ≤ step) :
    x + 2 ^ lastBit bound / 2 ≤ double (x + step) := by
  have positive : 0 < x + step := by linarith [bit_pos (lastBit bound)]
  have finer : (2 : ℚ) ^ lastBit (x + step) ≤ 2 ^ lastBit bound :=
    zpow_le_zpow_right₀ (by norm_num) (lastBit_mono positive within)
  have lost := sub_half_bit_le_near (x + step)
  unfold double
  rw [if_neg (not_lt.mpr positive.le)]
  linarith

end

end DracVms.Binary64
