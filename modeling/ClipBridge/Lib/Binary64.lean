import Mathlib.Data.Int.Log
import Mathlib.Data.Rat.Floor
import Mathlib.Tactic.FieldSimp
import Mathlib.Tactic.Linarith
import Mathlib.Tactic.Positivity
import Mathlib.Tactic.Ring

/-!
# Doubles

The finite numbers of the binary64 format, and how a sum of two of them is rounded: to the nearest
one, and to the even one of two that are equally near. There is no largest number here, so nothing
overflows.

* `IsDouble` — at most 53 bits, shifted by some places.
* `nearest`, `abs_sub_nearest_le` — the nearest double.
* `nearest_mono`, `nearest_of_isDouble` — rounding keeps the order, and leaves doubles alone.
* `Double` — the type, with the rounded sum.
-/

namespace Binary64

def IsDouble (x : ℚ) : Prop := ∃ m e : ℤ, |m| ≤ 2 ^ 53 ∧ -1074 ≤ e ∧ x = m * 2 ^ e

theorem IsDouble.neg {x : ℚ} (h : IsDouble x) : IsDouble (-x) := by
  obtain ⟨m, e, hm, he, rfl⟩ := h
  exact ⟨-m, e, by rwa [abs_neg], he, by push_cast; ring⟩

/-! ## Rounding -/

/-- The nearest integer; of two, the even one. -/
def roundEven (x : ℚ) : ℤ :=
  if Int.fract x < 1 / 2 then ⌊x⌋
  else if 1 / 2 < Int.fract x then ⌊x⌋ + 1
  else if Even ⌊x⌋ then ⌊x⌋ else ⌊x⌋ + 1

/-- The exponent of the last of the 53 bits. -/
def lastPlace (x : ℚ) : ℤ := max (Int.log 2 |x| - 52) (-1074)

def nearest (x : ℚ) : ℚ := roundEven (x / 2 ^ lastPlace x) * 2 ^ lastPlace x

theorem roundEven_cases (x : ℚ) :
    roundEven x = ⌊x⌋ ∧ Int.fract x ≤ 1 / 2 ∨ roundEven x = ⌊x⌋ + 1 ∧ 1 / 2 ≤ Int.fract x := by
  unfold roundEven
  split
  · next h => exact Or.inl ⟨rfl, h.le⟩
  · next h =>
      have hge := not_lt.1 h
      split
      · exact Or.inr ⟨rfl, hge⟩
      · next h' =>
          split
          · exact Or.inl ⟨rfl, not_lt.1 h'⟩
          · exact Or.inr ⟨rfl, hge⟩

theorem abs_sub_roundEven_le (x : ℚ) (n : ℤ) : |x - roundEven x| ≤ |x - n| := by
  have hfloor : x = ⌊x⌋ + Int.fract x := (Int.floor_add_fract x).symm
  have hnonneg := Int.fract_nonneg x
  have hlt := Int.fract_lt_one x
  -- An integer is below the floor or above it.
  have hside : (n : ℚ) ≤ ⌊x⌋ ∨ (⌊x⌋ : ℚ) + 1 ≤ n := by
    rcases le_or_gt n ⌊x⌋ with h | h
    · exact Or.inl (by exact_mod_cast h)
    · exact Or.inr (by exact_mod_cast h)
  have hfar : min (Int.fract x) (1 - Int.fract x) ≤ |x - n| := by
    rcases hside with h | h
    · exact (min_le_left _ _).trans (le_abs.2 (Or.inl (by linarith)))
    · exact (min_le_right _ _).trans (le_abs.2 (Or.inr (by linarith)))
  refine le_trans ?_ hfar
  rcases roundEven_cases x with ⟨h, hhalf⟩ | ⟨h, hhalf⟩
  · rw [h, abs_of_nonneg (by linarith)]
    exact le_min (by linarith) (by linarith)
  · rw [h]
    push_cast
    rw [abs_of_nonpos (by linarith)]
    exact le_min (by linarith) (by linarith)

theorem two_zpow_pos (e : ℤ) : (0 : ℚ) < 2 ^ e := zpow_pos (by norm_num) e

theorem two_zpow_add (m e : ℤ) : (2 : ℚ) ^ (m + e) = 2 ^ m * 2 ^ e :=
  zpow_add₀ (by norm_num) m e

/-- Among the multiples of the last place, the nearest. -/
theorem abs_sub_nearest_le_multiple (x : ℚ) (n : ℤ) :
    |x - nearest x| ≤ |x - n * 2 ^ lastPlace x| := by
  have hpos := two_zpow_pos (lastPlace x)
  have hscale : ∀ k : ℤ, |x - k * 2 ^ lastPlace x| =
      |x / 2 ^ lastPlace x - k| * 2 ^ lastPlace x := by
    intro k
    rw [← abs_of_pos hpos, ← abs_mul, sub_mul, abs_of_pos hpos, div_mul_cancel₀ _ hpos.ne']
  rw [nearest, hscale, hscale]
  exact mul_le_mul_of_nonneg_right (abs_sub_roundEven_le _ n) hpos.le

theorem isDouble_nearest (x : ℚ) : IsDouble (nearest x) := by
  refine ⟨roundEven (x / 2 ^ lastPlace x), lastPlace x, ?_, le_max_right _ _, rfl⟩
  have hpos := two_zpow_pos (lastPlace x)
  have hbits : |x / 2 ^ lastPlace x| < 2 ^ 53 := by
    rw [abs_div, abs_of_pos hpos, div_lt_iff₀ hpos]
    have hlog := Int.lt_zpow_succ_log_self (R := ℚ) (b := 2) (by norm_num) |x|
    refine lt_of_lt_of_le hlog ?_
    have hle : Int.log 2 |x| + 1 ≤ 53 + lastPlace x := by
      have := le_max_left (Int.log 2 |x| - 52) (-1074)
      rw [lastPlace]
      omega
    calc ((2 : ℕ) : ℚ) ^ (Int.log 2 |x| + 1) ≤ 2 ^ (53 + lastPlace x) := by
          exact_mod_cast zpow_le_zpow_right₀ (by norm_num : (1 : ℚ) ≤ 2) hle
      _ = 2 ^ 53 * 2 ^ lastPlace x := two_zpow_add 53 _
  obtain ⟨hlow, hhigh⟩ := abs_lt.1 hbits
  have hfloor : -2 ^ 53 ≤ ⌊x / 2 ^ lastPlace x⌋ := Int.le_floor.2 (by push_cast; linarith)
  have hceil : ⌊x / 2 ^ lastPlace x⌋ < 2 ^ 53 := Int.floor_lt.2 (by push_cast; linarith)
  rw [abs_le]
  rcases roundEven_cases (x / 2 ^ lastPlace x) with ⟨h, -⟩ | ⟨h, -⟩ <;> rw [h] <;> omega

/-- The power of two below `x` is a multiple of the last place of its 53 bits. -/
theorem abs_sub_nearest_le_power {x : ℚ} (hx : x ≠ 0)
    (hlast : lastPlace x = Int.log 2 |x| - 52) :
    |x - nearest x| ≤ |x| - 2 ^ 52 * 2 ^ lastPlace x := by
  have hpow : (2 : ℚ) ^ (52 + lastPlace x) = 2 ^ 52 * 2 ^ lastPlace x := two_zpow_add 52 _
  have hbelow : (2 : ℚ) ^ 52 * 2 ^ lastPlace x ≤ |x| := by
    have hlog := Int.zpow_log_le_self (R := ℚ) (b := 2) (by norm_num) (abs_pos.2 hx)
    rw [← hpow, hlast, add_sub_cancel]
    exact_mod_cast hlog
  rcases le_or_gt 0 x with hpos | hneg
  · rw [abs_of_nonneg hpos] at hbelow ⊢
    refine (abs_sub_nearest_le_multiple x (2 ^ 52)).trans_eq ?_
    push_cast
    exact abs_of_nonneg (by linarith)
  · rw [abs_of_neg hneg] at hbelow ⊢
    refine (abs_sub_nearest_le_multiple x (-2 ^ 52)).trans_eq ?_
    push_cast
    rw [abs_of_nonpos (by linarith)]
    ring

/-- A double of smaller places than the last one of `x` is below that power of two. -/
theorem abs_le_power {x : ℚ} {m e : ℤ} (hm : |m| ≤ 2 ^ 53) (hlt : e < lastPlace x) :
    |(m : ℚ) * 2 ^ e| ≤ 2 ^ 52 * 2 ^ lastPlace x := by
  have hm' : |(m : ℚ)| ≤ 2 ^ 53 := by exact_mod_cast hm
  rw [abs_mul, abs_of_pos (two_zpow_pos e)]
  calc |(m : ℚ)| * 2 ^ e ≤ 2 ^ 53 * 2 ^ e := mul_le_mul_of_nonneg_right hm' (two_zpow_pos e).le
    _ = 2 ^ (53 + e) := (two_zpow_add 53 e).symm
    _ ≤ 2 ^ (52 + lastPlace x) := zpow_le_zpow_right₀ (by norm_num) (by omega)
    _ = 2 ^ 52 * 2 ^ lastPlace x := two_zpow_add 52 _

/-- **Rounding goes to a nearest double.** -/
theorem abs_sub_nearest_le {x r : ℚ} (h : IsDouble r) : |x - nearest x| ≤ |x - r| := by
  obtain ⟨m, e, hm, he, rfl⟩ := h
  rcases le_or_gt (lastPlace x) e with hle | hlt
  · -- A multiple of the last place.
    have hmul : (m : ℚ) * 2 ^ e =
        ((m * 2 ^ (e - lastPlace x).toNat : ℤ) : ℚ) * 2 ^ lastPlace x := by
      push_cast
      rw [mul_assoc, ← zpow_natCast, Int.toNat_of_nonneg (by omega), ← two_zpow_add,
        sub_add_cancel]
    rw [hmul]
    exact abs_sub_nearest_le_multiple x _
  · -- It is nearer to zero than the power of two below `x`, which is such a multiple.
    have hlast : lastPlace x = Int.log 2 |x| - 52 := by
      rw [lastPlace] at hlt ⊢
      omega
    rcases eq_or_ne x 0 with rfl | hx
    · have hzero := abs_sub_nearest_le_multiple 0 0
      rw [Int.cast_zero, zero_mul, sub_zero, abs_zero] at hzero
      exact hzero.trans (abs_nonneg _)
    have hnear := abs_sub_nearest_le_power hx hlast
    have hr := abs_le_power hm hlt
    calc |x - nearest x| ≤ |x| - |(m : ℚ) * 2 ^ e| := by linarith
      _ ≤ |x - m * 2 ^ e| := abs_sub_abs_le_abs_sub x _

theorem nearest_of_isDouble {x : ℚ} (h : IsDouble x) : nearest x = x := by
  have hzero := abs_sub_nearest_le (x := x) h
  rw [sub_self, abs_zero] at hzero
  exact (sub_eq_zero.1 (abs_nonpos_iff.1 hzero)).symm

/-- Between two doubles there is no third one to round to. -/
theorem nearest_mono {x y : ℚ} (h : x ≤ y) : nearest x ≤ nearest y := by
  by_contra hlt
  have hgap := not_le.1 hlt
  have hx := abs_sub_nearest_le (x := x) (isDouble_nearest y)
  have hy := abs_sub_nearest_le (x := y) (isDouble_nearest x)
  -- `x` is not below the middle of the two, and `y` is not above it.
  have hxmid : nearest x + nearest y ≤ 2 * x := by
    by_contra hmid
    have hleft : |x - nearest y| < |x - nearest x| := by
      rw [abs_of_neg (a := x - nearest x) (by linarith)]
      exact abs_lt.2 ⟨by linarith, by linarith⟩
    exact absurd hx (not_le.2 hleft)
  have hymid : 2 * y ≤ nearest x + nearest y := by
    by_contra hmid
    have hright : |y - nearest x| < |y - nearest y| := by
      rw [abs_of_pos (a := y - nearest y) (by linarith)]
      exact abs_lt.2 ⟨by linarith, by linarith⟩
    exact absurd hy (not_le.2 hright)
  have hsame : x = y := by linarith
  rw [hsame] at hgap
  exact lt_irrefl _ hgap

end Binary64

/-! ## The type -/

/-- A finite number of the binary64 format. -/
structure Double where
  val : ℚ
  isDouble : Binary64.IsDouble val

namespace Double

open Binary64

theorem val_injective : Function.Injective val := by
  rintro ⟨x, hx⟩ ⟨y, hy⟩ h
  cases h
  rfl

instance : LinearOrder Double := LinearOrder.lift' val val_injective

/-- What is written as `x` in a program. -/
def ofRat (x : ℚ) : Double := ⟨nearest x, isDouble_nearest x⟩

/-- The rounded sum. -/
instance : Add Double := ⟨fun x y => ⟨nearest (x.val + y.val), isDouble_nearest _⟩⟩

instance : Neg Double := ⟨fun x => ⟨-x.val, x.isDouble.neg⟩⟩

variable {x y d : Double}

theorem val_add (x y : Double) : (x + y).val = nearest (x.val + y.val) := rfl

@[simp] theorem val_neg (x : Double) : (-x).val = -x.val := rfl

theorem le_iff : x ≤ y ↔ x.val ≤ y.val := Iff.rfl

theorem add_le_add_right (h : x ≤ y) (d : Double) : x + d ≤ y + d := by
  rw [le_iff, val_add, val_add]
  exact nearest_mono (add_le_add h le_rfl)

/-- What is not below the sum is not below the rounded sum. -/
theorem add_le_of_val_le (h : x.val + d.val ≤ y.val) : x + d ≤ y := by
  rw [le_iff, val_add, ← nearest_of_isDouble y.isDouble]
  exact nearest_mono h

/-- Where the sum needs no rounding, it is the rounded sum. -/
theorem val_add_of_isDouble (h : IsDouble (x.val + d.val)) : (x + d).val = x.val + d.val :=
  nearest_of_isDouble h

end Double
