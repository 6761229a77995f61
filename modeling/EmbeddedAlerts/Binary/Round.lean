import Mathlib.Data.Int.Log
import Mathlib.Data.Rat.Floor
import Mathlib.Tactic.Linarith
import Mathlib.Tactic.Ring
import Mathlib.Tactic.FieldSimp
import Mathlib.Tactic.Positivity
import Mathlib.Algebra.Order.Field.Power

/-!
# Rounding to a binary significand

A finite binary float is the rational it denotes.  `roundNE p q` is the nearest
rational with a significand of `p` bits, ties going to the even significand: the
quantum of `q` is the power of two that puts `|q|` between `2 ^ (p - 1)` and
`2 ^ p` quanta, and `halfEven` rounds that count to an integer.  The exponent is
unbounded, so there is neither overflow nor a subnormal range.  `roundAbove p e q`
has the latter: its quantum is at least `2 ^ e`.

* `roundNE_of_eq_mul`: a number with at most `p` significant bits is fixed.
* `roundAbove_roundAbove`: rounding twice is rounding once.
* `roundNE_mono`: rounding keeps the order of numbers that are not negative.
* `abs_roundNE_le_one`: rounding does not leave `[-1, 1]`.
-/

namespace Binary

/-- The nearest integer, ties to even. -/
def halfEven (x : ℚ) : ℤ :=
  if Int.fract x < 1 / 2 then ⌊x⌋
  else if 1 / 2 < Int.fract x then ⌊x⌋ + 1
  else if ⌊x⌋ % 2 = 0 then ⌊x⌋ else ⌊x⌋ + 1

/-- The weight of the last of `p` significant bits of `q`. -/
def quantum (p : ℕ) (q : ℚ) : ℚ := 2 ^ (Int.log 2 |q| - (p - 1))

/-- Round to `p` significant bits, to nearest, ties to even. -/
def roundNE (p : ℕ) (q : ℚ) : ℚ := halfEven (q / quantum p q) * quantum p q

/-- The weight of the last of `p` significant bits of `q`, and at least `2 ^ e`. -/
def quantumAbove (p : ℕ) (e : ℤ) (q : ℚ) : ℚ := 2 ^ max (Int.log 2 |q| - (p - 1)) e

/-- Round to `p` significant bits, none of them below `2 ^ e`, to nearest, ties to
even. -/
def roundAbove (p : ℕ) (e : ℤ) (q : ℚ) : ℚ :=
  halfEven (q / quantumAbove p e q) * quantumAbove p e q

/-! ### To the nearest integer -/

theorem floor_le_halfEven (x : ℚ) : ⌊x⌋ ≤ halfEven x := by
  unfold halfEven
  split_ifs <;> omega

theorem halfEven_le_floor_add_one (x : ℚ) : halfEven x ≤ ⌊x⌋ + 1 := by
  unfold halfEven
  split_ifs <;> omega

@[simp] theorem halfEven_intCast (n : ℤ) : halfEven (n : ℚ) = n := by
  simp [halfEven]

theorem halfEven_mono {x y : ℚ} (h : x ≤ y) : halfEven x ≤ halfEven y := by
  rcases (Int.floor_le_floor h).lt_or_eq with hlt | heq
  · have h1 := halfEven_le_floor_add_one x
    have h2 := floor_le_halfEven y
    omega
  · have hfr : Int.fract x ≤ Int.fract y := by
      have hx := Int.floor_add_fract x
      have hy := Int.floor_add_fract y
      rw [heq] at hx
      linarith
    unfold halfEven
    rw [heq]
    split_ifs <;> first | omega | linarith

theorem halfEven_le_of_le {x : ℚ} {n : ℤ} (h : x ≤ n) : halfEven x ≤ n := by
  have := halfEven_mono h
  rwa [halfEven_intCast] at this

theorem le_halfEven_of_le {x : ℚ} {n : ℤ} (h : (n : ℚ) ≤ x) : n ≤ halfEven x := by
  have := halfEven_mono h
  rwa [halfEven_intCast] at this

/-! ### The quantum -/

theorem quantum_pos (p : ℕ) (q : ℚ) : 0 < quantum p q := by
  unfold quantum
  positivity

/-- The full significand. -/
theorem two_pow_mul_quantum (p : ℕ) (q : ℚ) : 2 ^ p * quantum p q = 2 ^ (Int.log 2 |q| + 1) := by
  rw [quantum, ← zpow_natCast, ← zpow_add₀ (by norm_num)]
  congr 1
  omega

/-- The significand of a power of two. -/
theorem two_pow_pred_mul_quantum {p : ℕ} (hp : 0 < p) (q : ℚ) :
    2 ^ (p - 1) * quantum p q = 2 ^ Int.log 2 |q| := by
  rw [quantum, ← zpow_natCast, ← zpow_add₀ (by norm_num)]
  congr 1
  omega

theorem abs_lt_two_pow_mul_quantum (p : ℕ) (q : ℚ) : |q| < 2 ^ p * quantum p q := by
  have h := Int.lt_zpow_succ_log_self (b := 2) (by norm_num) |q|
  rw [two_pow_mul_quantum]
  exact_mod_cast h

/-- A multiple `m` of `2 ^ k` with `|m| ≤ 2 ^ p` is a whole number of quanta. -/
theorem exists_mul_quantum {p : ℕ} (hp : 0 < p) {m k : ℤ} (hm : |m| ≤ 2 ^ p) :
    ∃ n : ℤ, (m : ℚ) * 2 ^ k = n * quantum p (m * 2 ^ k) := by
  by_cases h0 : m = 0
  · exact ⟨0, by simp [h0]⟩
  · set q : ℚ := m * 2 ^ k with hq
    have hmpos : 0 < |m| := abs_pos.mpr h0
    have habs : |q| = |m| * 2 ^ k := by
      rw [hq, abs_mul, abs_of_pos (by positivity : (0 : ℚ) < 2 ^ k)]
      push_cast
      rfl
    have hqpos : 0 < |q| := by
      rw [habs]
      have : (0 : ℚ) < |m| := by exact_mod_cast hmpos
      positivity
    have hlow : (2 : ℚ) ^ Int.log 2 |q| ≤ |q| := by
      exact_mod_cast Int.zpow_log_le_self (b := 2) (by norm_num) hqpos
    -- the exponent of `q` is at most `k + p`, and is `k + p` only for `|m| = 2 ^ p`
    rcases hm.lt_or_eq with hlt | heq
    · have hle : Int.log 2 |q| - (p - 1) ≤ k := by
        have h1 : (2 : ℚ) ^ Int.log 2 |q| < 2 ^ (p + k) := by
          refine lt_of_le_of_lt hlow ?_
          rw [habs, zpow_add₀ (by norm_num), zpow_natCast]
          have : ((|m| : ℤ) : ℚ) < 2 ^ p := by exact_mod_cast hlt
          gcongr
        have h2 := (zpow_lt_zpow_iff_right₀ (by norm_num : (1 : ℚ) < 2)).mp h1
        omega
      obtain ⟨n, hn⟩ := Int.eq_ofNat_of_zero_le (sub_nonneg.mpr hle)
      refine ⟨m * 2 ^ n, ?_⟩
      rw [quantum, hq]
      push_cast
      rw [mul_assoc, ← zpow_natCast, ← hn, ← zpow_add₀ (by norm_num)]
      congr 2
      ring
    · have hle : Int.log 2 |q| - (p - 1) ≤ k + 1 := by
        have h1 : (2 : ℚ) ^ Int.log 2 |q| ≤ 2 ^ (p + k) := by
          refine le_trans hlow ?_
          rw [habs, heq, zpow_add₀ (by norm_num), zpow_natCast]
          push_cast
          rfl
        have h2 := (zpow_le_zpow_iff_right₀ (by norm_num : (1 : ℚ) < 2)).mp h1
        omega
      obtain ⟨n, hn⟩ := Int.eq_ofNat_of_zero_le (sub_nonneg.mpr hle)
      -- `m` is even, so half of it counts quanta of twice the size
      obtain ⟨m', hm'⟩ : ∃ m', m = 2 * m' := by
        have h2 : (2 : ℤ) ∣ |m| := heq ▸ dvd_pow_self 2 (by omega)
        exact (dvd_abs 2 m).mp h2
      refine ⟨m' * 2 ^ n, ?_⟩
      rw [quantum, hq, hm']
      push_cast
      rw [mul_assoc (m' : ℚ), ← zpow_natCast, ← hn, ← zpow_add₀ (by norm_num)]
      rw [show k + 1 - (Int.log 2 |q| - (↑p - 1)) + (Int.log 2 |2 * (m' : ℚ) * 2 ^ k| - (↑p - 1))
          = k + 1 by rw [hq, hm']; push_cast; ring, zpow_add₀ (by norm_num)]
      ring

/-! ### Rounding -/

/-- A whole number of its own quanta is its own rounding. -/
theorem roundNE_of_eq_mul {p : ℕ} {q : ℚ} {n : ℤ} (h : q = n * quantum p q) :
    roundNE p q = q := by
  have hne := (quantum_pos p q).ne'
  have hq : q / quantum p q = n := (div_eq_iff hne).mpr h
  rw [roundNE, hq, halfEven_intCast]
  exact h.symm

theorem abs_halfEven_le {p : ℕ} {q w : ℚ} (hpos : 0 < w) (h : |q| < 2 ^ p * w) :
    |halfEven (q / w)| ≤ 2 ^ p := by
  have h := abs_lt.mp h
  rw [abs_le]
  constructor
  · refine le_halfEven_of_le ?_
    rw [le_div_iff₀ hpos]
    push_cast
    linarith [h.1]
  · refine halfEven_le_of_le ?_
    rw [div_le_iff₀ hpos]
    push_cast
    exact h.2.le

/-- **Rounding twice is rounding once**, also among the small numbers, which have
fewer significant bits. -/
theorem roundAbove_roundAbove {p : ℕ} (hp : 0 < p) (e : ℤ) (q : ℚ) :
    roundAbove p e (roundAbove p e q) = roundAbove p e q := by
  set k := max (Int.log 2 |q| - (p - 1)) e with hk
  have hpos : (0 : ℚ) < 2 ^ k := by positivity
  have hle : quantum p q ≤ 2 ^ k := by
    rw [quantum, zpow_le_zpow_iff_right₀ (by norm_num : (1 : ℚ) < 2)]
    exact le_max_left _ _
  have hlt : |q| < 2 ^ p * 2 ^ k :=
    (abs_lt_two_pow_mul_quantum p q).trans_le (by gcongr)
  have hr : roundAbove p e q = halfEven (q / 2 ^ k) * 2 ^ k := rfl
  obtain ⟨n, hn⟩ : ∃ n : ℤ, roundAbove p e q = n * quantumAbove p e (roundAbove p e q) := by
    rcases max_choice (Int.log 2 |roundAbove p e q| - (p - 1)) e with hmax | hmax
    · -- the significand of the result is full
      rw [quantumAbove, hmax, hr]
      exact exists_mul_quantum hp (abs_halfEven_le hpos hlt)
    · obtain ⟨i, hi⟩ := Int.eq_ofNat_of_zero_le (sub_nonneg.mpr (le_max_right _ _ : e ≤ k))
      refine ⟨halfEven (q / 2 ^ k) * 2 ^ i, ?_⟩
      rw [quantumAbove, hmax, hr]
      push_cast
      rw [mul_assoc, ← zpow_natCast, ← hi, ← zpow_add₀ (by norm_num), sub_add_cancel]
  have hne : quantumAbove p e (roundAbove p e q) ≠ 0 := by
    unfold quantumAbove
    positivity
  have hdiv : roundAbove p e q / quantumAbove p e (roundAbove p e q) = n := (div_eq_iff hne).mpr hn
  calc roundAbove p e (roundAbove p e q)
      = halfEven (roundAbove p e q / quantumAbove p e (roundAbove p e q))
          * quantumAbove p e (roundAbove p e q) := rfl
    _ = n * quantumAbove p e (roundAbove p e q) := by rw [hdiv, halfEven_intCast]
    _ = roundAbove p e q := hn.symm

@[simp] theorem roundNE_zero (p : ℕ) : roundNE p 0 = 0 :=
  roundNE_of_eq_mul (n := 0) (by simp)

theorem roundNE_nonneg (p : ℕ) {q : ℚ} (h : 0 ≤ q) : 0 ≤ roundNE p q := by
  have hpos := quantum_pos p q
  have hcount : 0 ≤ halfEven (q / quantum p q) := by
    refine le_halfEven_of_le ?_
    push_cast
    positivity
  have hcount' : (0 : ℚ) ≤ halfEven (q / quantum p q) := by exact_mod_cast hcount
  exact mul_nonneg hcount' hpos.le

/-- Rounding does not go beyond the next power of two. -/
theorem roundNE_le_two_zpow (p : ℕ) (q : ℚ) : roundNE p q ≤ 2 ^ (Int.log 2 |q| + 1) := by
  have hpos := quantum_pos p q
  have hcount := (abs_le.mp (abs_halfEven_le hpos (abs_lt_two_pow_mul_quantum p q))).2
  have hcount' : (halfEven (q / quantum p q) : ℚ) ≤ 2 ^ p := by exact_mod_cast hcount
  calc roundNE p q = halfEven (q / quantum p q) * quantum p q := rfl
    _ ≤ 2 ^ p * quantum p q := by gcongr
    _ = 2 ^ (Int.log 2 |q| + 1) := two_pow_mul_quantum p q

/-- Rounding does not go below the power of two before. -/
theorem two_zpow_le_roundNE {p : ℕ} (hp : 0 < p) {q : ℚ} (h : 0 < q) :
    2 ^ Int.log 2 |q| ≤ roundNE p q := by
  have hpos := quantum_pos p q
  have hle : (2 : ℚ) ^ Int.log 2 |q| ≤ q := by
    rw [abs_of_pos h]
    exact_mod_cast Int.zpow_log_le_self (b := 2) (by norm_num) h
  have hcount : 2 ^ (p - 1) ≤ halfEven (q / quantum p q) := by
    refine le_halfEven_of_le ?_
    rw [le_div_iff₀ hpos]
    push_cast
    rw [two_pow_pred_mul_quantum hp]
    exact hle
  have hcount' : (2 : ℚ) ^ (p - 1) ≤ halfEven (q / quantum p q) := by exact_mod_cast hcount
  calc (2 : ℚ) ^ Int.log 2 |q| = 2 ^ (p - 1) * quantum p q := (two_pow_pred_mul_quantum hp q).symm
    _ ≤ halfEven (q / quantum p q) * quantum p q := by gcongr
    _ = roundNE p q := rfl

/-- **Rounding keeps the order** of numbers that are not negative. -/
theorem roundNE_mono {p : ℕ} (hp : 0 < p) {a b : ℚ} (ha : 0 ≤ a) (h : a ≤ b) :
    roundNE p a ≤ roundNE p b := by
  rcases ha.eq_or_lt with rfl | hapos
  · rw [roundNE_zero]
    exact roundNE_nonneg p h
  have hbpos : 0 < b := hapos.trans_le h
  have hlog : Int.log 2 |a| ≤ Int.log 2 |b| := by
    rw [abs_of_pos hapos, abs_of_pos hbpos]
    exact Int.log_mono_right hapos h
  rcases hlog.eq_or_lt with heq | hlt
  · -- both are counted in the same quantum
    have hquantum : quantum p a = quantum p b := by rw [quantum, quantum, heq]
    have hpos := quantum_pos p b
    have hcount : halfEven (a / quantum p b) ≤ halfEven (b / quantum p b) :=
      halfEven_mono (by gcongr)
    rw [roundNE, roundNE, hquantum]
    gcongr
  · -- there is a power of two between them
    calc roundNE p a ≤ 2 ^ (Int.log 2 |a| + 1) := roundNE_le_two_zpow p a
      _ ≤ 2 ^ Int.log 2 |b| := zpow_le_zpow_right₀ (by norm_num) (by omega)
      _ ≤ roundNE p b := two_zpow_le_roundNE hp hbpos

/-- **Rounding stays within `[-1, 1]`**, whose ends are a whole number of the
quanta of anything between them. -/
theorem abs_roundNE_le_one {p : ℕ} (hp : 0 < p) {q : ℚ} (h : |q| ≤ 1) : |roundNE p q| ≤ 1 := by
  by_cases h0 : q = 0
  · simp [h0]
  have hpos := quantum_pos p q
  have hlog : Int.log 2 |q| ≤ 0 := by
    have h1 : (2 : ℚ) ^ Int.log 2 |q| ≤ 2 ^ (0 : ℤ) := by
      refine le_trans ?_ (by simpa using h)
      exact_mod_cast Int.zpow_log_le_self (b := 2) (by norm_num) (abs_pos.mpr h0)
    exact (zpow_le_zpow_iff_right₀ (by norm_num : (1 : ℚ) < 2)).mp h1
  obtain ⟨n, hn⟩ := Int.eq_ofNat_of_zero_le (show 0 ≤ (p : ℤ) - 1 - Int.log 2 |q| by omega)
  have hone : ((2 ^ n : ℤ) : ℚ) * quantum p q = 1 := by
    rw [quantum]
    push_cast
    rw [← zpow_natCast, ← hn, ← zpow_add₀ (by norm_num)]
    simp
  have hq := abs_le.mp h
  have hup : halfEven (q / quantum p q) ≤ 2 ^ n := by
    refine halfEven_le_of_le ?_
    rw [div_le_iff₀ hpos, hone]
    exact hq.2
  have hlow : -2 ^ n ≤ halfEven (q / quantum p q) := by
    refine le_halfEven_of_le ?_
    rw [le_div_iff₀ hpos]
    push_cast at hone ⊢
    linarith [hq.1]
  have hup' : (halfEven (q / quantum p q) : ℚ) ≤ (2 ^ n : ℤ) := by exact_mod_cast hup
  have hlow' : ((-2 ^ n : ℤ) : ℚ) ≤ halfEven (q / quantum p q) := by exact_mod_cast hlow
  rw [abs_le, roundNE]
  constructor
  · calc (-1 : ℚ) = ((-2 ^ n : ℤ) : ℚ) * quantum p q := by push_cast at hone ⊢; linarith
      _ ≤ _ := by gcongr
  · calc (halfEven (q / quantum p q) : ℚ) * quantum p q ≤ (2 ^ n : ℤ) * quantum p q := by gcongr
      _ = 1 := hone

end Binary
