import Mathlib.Data.Int.Log
import Mathlib.Data.List.TakeWhile
import Mathlib.Data.Rat.Floor
import Mathlib.Algebra.Order.Field.Rat
import Mathlib.Tactic.FieldSimp
import Mathlib.Tactic.Linarith
import Mathlib.Tactic.NormNum
import Mathlib.Tactic.Positivity

/-!
# Numbers of JavaScript

A double is the rational it stands for, an infinity or NaN (`0` and `-0` are one number here).
`ofRat` rounds to the nearest double, ties to even, and `ofText` is the conversion `Number(text)` of
a text without surrounding white space: decimal literals with fraction and exponent, the three
prefixed literals, and `Infinity`.

Whole numbers up to `2 ^ 53` are doubles (`ofRat_natCast`), so the decimal text of such a number
converts to the number itself (`ofText_toString`). Among whole numbers rounding is `ofInt`, which
keeps the safe ones and takes no other one to a safe one (`ofInt_of_safe`, `lt_ofInt`).
-/

namespace FlashSale.Number

inductive JsNumber where
  | finite (q : ℚ)
  | infinite (negative : Bool)
  | nan
  deriving DecidableEq, Repr

/-- `Number.isSafeInteger`, with the value. -/
def JsNumber.safeInteger : JsNumber → Option ℤ
  | .finite q => if q.den = 1 ∧ |q.num| < 2 ^ 53 then some q.num else none
  | _ => none

/-! ## Rounding -/

def roundHalfEven (q : ℚ) : ℤ :=
  if Int.fract q < 1 / 2 then ⌊q⌋
  else if 1 / 2 < Int.fract q then ⌊q⌋ + 1
  else if ⌊q⌋ % 2 = 0 then ⌊q⌋ else ⌊q⌋ + 1

/-- The exponent of the last place of the doubles around `q`. -/
def ulpExponent (q : ℚ) : ℤ := max (Int.log 2 |q| - 52) (-1074)

/-- The double nearest to `q`. -/
def ofRat (q : ℚ) : JsNumber :=
  let r := roundHalfEven (q / 2 ^ ulpExponent q) * (2 : ℚ) ^ ulpExponent q
  if 2 ^ 1024 ≤ |r| then .infinite (r < 0) else .finite r

theorem roundHalfEven_intCast (z : ℤ) : roundHalfEven z = z := by
  unfold roundHalfEven
  rw [if_pos]
  · exact Int.floor_intCast z
  · rw [Int.fract_intCast]
    norm_num

/-- A whole number of at most 53 bits over a power of two is a double. -/
theorem ofRat_dyadic {m : ℤ} {k : ℕ} (hm : |m| < 2 ^ 53) (hk : k ≤ 1074) :
    ofRat (m / 2 ^ k) = .finite (m / 2 ^ k) := by
  set x : ℚ := m / 2 ^ k with hx
  have hpow : (0 : ℚ) < 2 ^ k := pow_pos (by norm_num) k
  have habs : |x| = |(m : ℚ)| / 2 ^ k := by rw [hx, abs_div, abs_of_pos hpow]
  have hmq : |(m : ℚ)| < 2 ^ 53 := by exact_mod_cast hm
  obtain ⟨z, hz⟩ : ∃ z : ℤ, x / 2 ^ ulpExponent x = z := by
    rcases eq_or_ne m 0 with rfl | hne
    · exact ⟨0, by simp [hx]⟩
    have hpos : 0 < |x| := by
      rw [habs]
      exact div_pos (abs_pos.2 (by exact_mod_cast hne)) hpow
    have hlog : Int.log 2 |x| < 53 - k := by
      rw [← Int.lt_zpow_iff_log_lt (by decide) hpos, habs, div_lt_iff₀ hpow]
      calc |(m : ℚ)| < 2 ^ 53 := hmq
        _ = ((2 : ℕ) : ℚ) ^ (53 - k : ℤ) * 2 ^ k := by
            rw [zpow_sub₀ (by norm_num), zpow_natCast]
            push_cast
            rw [div_mul_cancel₀ _ hpow.ne']
            norm_cast
    have hu : ulpExponent x ≤ -(k : ℤ) := by
      unfold ulpExponent
      omega
    obtain ⟨j, hj⟩ : ∃ j : ℕ, ulpExponent x = -(k : ℤ) - j :=
      ⟨(-(k : ℤ) - ulpExponent x).toNat, by omega⟩
    refine ⟨m * 2 ^ j, ?_⟩
    rw [hj, zpow_sub₀ (by norm_num), zpow_neg, zpow_natCast, zpow_natCast, hx]
    push_cast
    field_simp
  have hround : roundHalfEven (x / 2 ^ ulpExponent x) * (2 : ℚ) ^ ulpExponent x = x := by
    rw [hz, roundHalfEven_intCast, ← hz]
    exact div_mul_cancel₀ _ (zpow_ne_zero _ (by norm_num))
  unfold ofRat
  dsimp only
  rw [hround, if_neg]
  rw [habs, not_le, div_lt_iff₀ hpow]
  calc |(m : ℚ)| < 2 ^ 53 := hmq
    _ < 2 ^ 1024 := pow_lt_pow_right₀ (by norm_num) (by decide)
    _ ≤ 2 ^ 1024 * 2 ^ k := le_mul_of_one_le_right (by norm_num) (one_le_pow₀ (by norm_num))

/-- Whole numbers of at most 53 bits are doubles. -/
theorem ofRat_natCast {n : ℕ} (hn : n < 2 ^ 53) : ofRat n = .finite n := by
  have h := ofRat_dyadic (m := n) (k := 0) (by rw [Nat.abs_cast]; exact_mod_cast hn) (by decide)
  simpa using h

theorem floor_le_roundHalfEven (q : ℚ) : ⌊q⌋ ≤ roundHalfEven q := by
  unfold roundHalfEven
  split_ifs <;> omega

theorem roundHalfEven_nonpos {q : ℚ} (hq : q ≤ 0) : roundHalfEven q ≤ 0 := by
  rcases eq_or_lt_of_le hq with rfl | hneg
  · exact (roundHalfEven_intCast 0).le
  · have hfloor : ⌊q⌋ < 0 := Int.floor_lt.2 (by exact_mod_cast hneg)
    unfold roundHalfEven
    split_ifs <;> omega

/-- Rounding does not lead below `2 ^ 53`. -/
theorem le_of_ofRat {q r : ℚ} (hq : 2 ^ 53 ≤ q) (h : ofRat q = .finite r) : 2 ^ 53 ≤ r := by
  have hpos : 0 < q := lt_of_lt_of_le (by norm_num) hq
  have hlog : 53 ≤ Int.log 2 q := (Int.zpow_le_iff_le_log (by decide) hpos).1 (by exact_mod_cast hq)
  have hu : ulpExponent q = Int.log 2 q - 52 := by
    unfold ulpExponent
    rw [abs_of_pos hpos]
    omega
  have hulp : (0 : ℚ) < 2 ^ ulpExponent q := zpow_pos (by norm_num) _
  have hscaled : ((2 ^ 52 : ℤ) : ℚ) ≤ q / 2 ^ ulpExponent q := by
    rw [le_div_iff₀ hulp, hu]
    calc ((2 ^ 52 : ℤ) : ℚ) * 2 ^ (Int.log 2 q - 52) = 2 ^ Int.log 2 q := by
          rw [zpow_sub₀ (by norm_num), mul_div_assoc']
          exact mul_div_cancel_left₀ _ (by norm_num)
      _ ≤ q := by exact_mod_cast Int.zpow_log_le_self (by decide) hpos
  have hround : ((2 ^ 52 : ℤ) : ℚ) ≤ roundHalfEven (q / 2 ^ ulpExponent q) := by
    exact_mod_cast (Int.le_floor.2 hscaled).trans (floor_le_roundHalfEven _)
  unfold ofRat at h
  dsimp only at h
  split at h
  · cases h
  · injection h with h
    rw [← h]
    calc (2 : ℚ) ^ 53 ≤ ((2 ^ 52 : ℤ) : ℚ) * 2 ^ ulpExponent q := by
          have : (2 : ℚ) ^ (1 : ℤ) ≤ 2 ^ ulpExponent q :=
            zpow_le_zpow_right₀ (by norm_num) (by omega)
          push_cast
          linarith
      _ ≤ _ := mul_le_mul_of_nonneg_right hround hulp.le

/-- A whole number whose double is below `2 ^ 53` is its double. -/
theorem eq_of_ofRat_natCast {n : ℕ} {r : ℚ} (h : ofRat n = .finite r) (hr : r < 2 ^ 53) :
    r = n := by
  rcases lt_or_ge n (2 ^ 53) with hn | hn
  · rw [ofRat_natCast hn] at h
    injection h with h
    exact h.symm
  · exact absurd (le_of_ofRat (by exact_mod_cast hn) h) (not_le.2 hr)

/-! ## Whole numbers -/

/-- `Number.MAX_SAFE_INTEGER`. -/
def MAX_SAFE_INTEGER : ℤ := 9007199254740991

/-- The double nearest to a whole number, ties to even, which is whole too. -/
def ofInt (n : ℤ) : ℤ :=
  if n.natAbs ≤ 9007199254740992 then n
  else
    let ulp : ℤ := 2 ^ (n.natAbs.log2 - 52)
    (if 2 * (n % ulp) < ulp ∨ 2 * (n % ulp) = ulp ∧ n / ulp % 2 = 0 then n / ulp
      else n / ulp + 1) * ulp

theorem ofInt_of_safe {n : ℤ} (hneg : -MAX_SAFE_INTEGER ≤ n) (hpos : n ≤ MAX_SAFE_INTEGER) :
    ofInt n = n := by
  unfold MAX_SAFE_INTEGER at hneg hpos
  exact if_pos (by omega)

theorem ofInt_of_nonneg {n : ℤ} (h : 0 ≤ n) (hsafe : n ≤ MAX_SAFE_INTEGER) : ofInt n = n :=
  ofInt_of_safe (by unfold MAX_SAFE_INTEGER; omega) hsafe

/-- What is not safe does not round to a safe number. -/
theorem lt_ofInt {n : ℤ} (h : MAX_SAFE_INTEGER < n) : MAX_SAFE_INTEGER < ofInt n := by
  unfold MAX_SAFE_INTEGER at h ⊢
  unfold ofInt
  split_ifs with hsmall
  · exact h
  · have hlog : 53 ≤ n.natAbs.log2 := (Nat.le_log2 (by omega)).2 (by omega)
    have hulp : (0 : ℤ) < 2 ^ (n.natAbs.log2 - 52) := pow_pos (by norm_num) _
    have hone : (2 : ℤ) ≤ 2 ^ (n.natAbs.log2 - 52) :=
      le_self_pow₀ (by norm_num) (by omega)
    have hquot : (2 : ℤ) ^ 52 ≤ n / 2 ^ (n.natAbs.log2 - 52) := by
      refine Int.le_ediv_of_mul_le hulp ?_
      calc (2 : ℤ) ^ 52 * 2 ^ (n.natAbs.log2 - 52) = ((2 ^ n.natAbs.log2 : ℕ) : ℤ) := by
            rw [← pow_add, Nat.add_sub_cancel' (by omega)]
            norm_cast
        _ ≤ n.natAbs := by exact_mod_cast Nat.log2_self_le (by omega)
        _ = n := by omega
    dsimp only
    generalize n / 2 ^ (n.natAbs.log2 - 52) = q at hquot ⊢
    generalize (2 : ℤ) ^ (n.natAbs.log2 - 52) = ulp at hulp hone ⊢
    have hle : (2 : ℤ) ^ 52 * 2 ≤ q * ulp := mul_le_mul hquot hone (by norm_num) (by omega)
    split_ifs
    · omega
    · rw [add_mul, one_mul]
      omega

theorem ofInt_nonpos {n : ℤ} (h : n ≤ 0) : ofInt n ≤ 0 := by
  unfold ofInt
  split_ifs with hsmall
  · exact h
  · have hulp : (0 : ℤ) < 2 ^ (n.natAbs.log2 - 52) := pow_pos (by norm_num) _
    have hquot : n / 2 ^ (n.natAbs.log2 - 52) < 0 := Int.ediv_neg_of_neg_of_pos (by omega) hulp
    dsimp only
    refine mul_nonpos_of_nonpos_of_nonneg ?_ hulp.le
    split_ifs
    · exact hquot.le
    · omega

@[simp] theorem ofInt_nonpos_iff {n : ℤ} : ofInt n ≤ 0 ↔ n ≤ 0 := by
  refine ⟨fun h => ?_, ofInt_nonpos⟩
  by_contra hpos
  by_cases hsafe : n ≤ MAX_SAFE_INTEGER
  · rw [ofInt_of_nonneg (by omega) hsafe] at h
    exact hpos h
  · have hlt := lt_ofInt (not_le.1 hsafe)
    unfold MAX_SAFE_INTEGER at hlt
    omega

/-- Against a safe number the double of a natural one compares as the number itself. -/
theorem ofInt_le_iff {n m : ℤ} (hn : 0 ≤ n) (hm : m ≤ MAX_SAFE_INTEGER) : ofInt n ≤ m ↔ n ≤ m := by
  by_cases hsafe : n ≤ MAX_SAFE_INTEGER
  · rw [ofInt_of_nonneg hn hsafe]
  · have hlt := lt_ofInt (not_le.1 hsafe)
    constructor <;> intro h <;> omega

theorem le_ofInt_iff {n m : ℤ} (hn : 0 ≤ n) (hm : m ≤ MAX_SAFE_INTEGER) : m ≤ ofInt n ↔ m ≤ n := by
  by_cases hsafe : n ≤ MAX_SAFE_INTEGER
  · rw [ofInt_of_nonneg hn hsafe]
  · have hlt := lt_ofInt (not_le.1 hsafe)
    constructor <;> intro h <;> omega

theorem ofInt_nonneg {n : ℤ} (h : 0 ≤ n) : 0 ≤ ofInt n :=
  (le_ofInt_iff h (by decide)).2 h

theorem roundHalfEven_div (n : ℤ) {d : ℤ} (hd : 0 < d) :
    roundHalfEven (n / d) =
      if 2 * (n % d) < d ∨ 2 * (n % d) = d ∧ n / d % 2 = 0 then n / d else n / d + 1 := by
  have hdq : (0 : ℚ) < d := by exact_mod_cast hd
  have hfloor : ⌊(n : ℚ) / d⌋ = n / d := Rat.floor_intCast_div_natCast n d.toNat |> fun h => by
    rwa [show ((d.toNat : ℕ) : ℚ) = d by exact_mod_cast Int.toNat_of_nonneg hd.le,
      Int.toNat_of_nonneg hd.le] at h
  have hfract : Int.fract ((n : ℚ) / d) = (n % d : ℤ) / d := by
    have hdiv : (n : ℚ) = d * (n / d : ℤ) + (n % d : ℤ) := by
      exact_mod_cast (Int.mul_ediv_add_emod n d).symm
    unfold Int.fract
    rw [hfloor, div_sub' hdq.ne', eq_comm]
    congr 1
    linarith
  have hlt : Int.fract ((n : ℚ) / d) < 1 / 2 ↔ 2 * (n % d) < d := by
    rw [hfract, div_lt_div_iff₀ hdq (by norm_num)]
    constructor
    · intro h
      have h' : (n % d) * 2 < 1 * d := by exact_mod_cast h
      omega
    · intro h
      have h' : (n % d) * 2 < 1 * d := by omega
      exact_mod_cast h'
  have hgt : 1 / 2 < Int.fract ((n : ℚ) / d) ↔ d < 2 * (n % d) := by
    rw [hfract, div_lt_div_iff₀ (by norm_num) hdq]
    constructor
    · intro h
      have h' : 1 * d < (n % d) * 2 := by exact_mod_cast h
      omega
    · intro h
      have h' : 1 * d < (n % d) * 2 := by omega
      exact_mod_cast h'
  unfold roundHalfEven
  rw [hfloor]
  simp only [hlt, hgt]
  split_ifs <;> omega

/-- `ofInt` rounds as `ofRat` does. -/
theorem ofRat_intCast {n : ℤ} (h : n.natAbs < 2 ^ 63) : ofRat n = .finite (ofInt n) := by
  rcases lt_trichotomy n.natAbs (2 ^ 53) with hlt | heq | hgt
  · have hdyadic := ofRat_dyadic (m := n) (k := 0)
      (by rw [Int.abs_eq_natAbs]; exact_mod_cast hlt) (by decide)
    rw [show ofInt n = n from if_pos (by omega)]
    simpa using hdyadic
  · rcases Int.natAbs_eq n with hn | hn
    · rw [hn, heq]
      decide +kernel
    · rw [hn, heq]
      decide +kernel
  · set k := n.natAbs.log2 - 52 with hk
    have hlog : 53 ≤ n.natAbs.log2 := (Nat.le_log2 (by omega)).2 hgt.le
    have hulp : ulpExponent n = (k : ℤ) := by
      have hcast : |(n : ℚ)| = ((n.natAbs : ℕ) : ℚ) := by
        rw [← Int.cast_abs, Int.abs_eq_natAbs, Int.cast_natCast]
      unfold ulpExponent
      rw [hcast, Int.log_natCast, ← Nat.log2_eq_log_two]
      omega
    have hpos : (0 : ℤ) < 2 ^ k := pow_pos (by norm_num) _
    have hle : (2 : ℤ) ^ k ≤ 2 ^ 63 := pow_le_pow_right₀ (by norm_num) (by
      have hsize : n.natAbs.log2 < 63 := (Nat.log2_lt (by omega)).2 h
      omega)
    have hofInt : ofInt n =
        (if 2 * (n % 2 ^ k) < 2 ^ k ∨ 2 * (n % 2 ^ k) = 2 ^ k ∧ n / 2 ^ k % 2 = 0 then n / 2 ^ k
          else n / 2 ^ k + 1) * 2 ^ k := if_neg (by omega)
    have hround : roundHalfEven ((n : ℚ) / 2 ^ ulpExponent n) * (2 : ℚ) ^ ulpExponent n =
        (ofInt n : ℤ) := by
      rw [hulp, zpow_natCast, show (2 : ℚ) ^ k = ((2 ^ k : ℤ) : ℚ) by push_cast; rfl,
        roundHalfEven_div n hpos, hofInt]
      push_cast
      rfl
    have hbound : |ofInt n| ≤ 2 ^ 64 := by
      have hmod := Int.emod_nonneg n hpos.ne'
      have hmod' := Int.emod_lt_of_pos n hpos
      have hdiv := Int.mul_ediv_add_emod n (2 ^ k)
      rw [hofInt, abs_le]
      generalize n / 2 ^ k = q at hdiv ⊢
      generalize n % 2 ^ k = r at hmod hmod' hdiv ⊢
      generalize (2 : ℤ) ^ k = ulp at hmod' hdiv hle ⊢
      rw [mul_comm] at hdiv
      split_ifs
      · constructor <;> omega
      · rw [add_mul, one_mul]
        constructor <;> omega
    unfold ofRat
    dsimp only
    rw [hround, if_neg]
    rw [← Int.cast_abs, not_le]
    calc ((|ofInt n| : ℤ) : ℚ) ≤ (2 : ℚ) ^ 64 := by exact_mod_cast hbound
      _ < 2 ^ 1024 := pow_lt_pow_right₀ (by norm_num) (by decide)

example : ofInt 9007199254740995 = 9007199254740996 := by decide

/-! ## Operators -/

namespace JsNumber

/-- `x === y`. -/
def eq : JsNumber → JsNumber → Bool
  | .finite p, .finite q => p = q
  | .infinite a, .infinite b => a = b
  | _, _ => false

/-- `x < y`. -/
def lt : JsNumber → JsNumber → Bool
  | .finite p, .finite q => p < q
  | .finite _, .infinite negative => !negative
  | .infinite negative, .finite _ => negative
  | .infinite a, .infinite b => a && !b
  | _, _ => false

/-- `x <= y`. -/
def le (x y : JsNumber) : Bool := x.lt y || x.eq y

/-- `x + y`. -/
def add : JsNumber → JsNumber → JsNumber
  | .finite p, .finite q => ofRat (p + q)
  | .finite _, .infinite b => .infinite b
  | .infinite a, .finite _ => .infinite a
  | .infinite a, .infinite b => if a = b then .infinite a else .nan
  | _, _ => .nan

/-- `-x`. -/
def neg : JsNumber → JsNumber
  | .finite q => .finite (-q)
  | .infinite negative => .infinite (!negative)
  | .nan => .nan

/-- `x - y`. -/
def sub (x y : JsNumber) : JsNumber := x.add y.neg

/-- `Math.min(x, y)`. -/
def min (x y : JsNumber) : JsNumber :=
  if x = .nan ∨ y = .nan then .nan else if x.le y then x else y

/-- `Math.max(x, y)`. -/
def max (x y : JsNumber) : JsNumber :=
  if x = .nan ∨ y = .nan then .nan else if x.le y then y else x

/-- `x * y`. -/
def mul : JsNumber → JsNumber → JsNumber
  | .finite p, .finite q => ofRat (p * q)
  | .finite q, .infinite negative | .infinite negative, .finite q =>
    if q = 0 then .nan else .infinite (negative != decide (q < 0))
  | .infinite a, .infinite b => .infinite (a != b)
  | _, _ => .nan

/-- `Math.round(x)`: halves go up. -/
def round : JsNumber → JsNumber
  | .finite q => .finite ⌊q + 1 / 2⌋
  | x => x

theorem eq_iff {x y : JsNumber} : x.eq y = true ↔ x = y ∧ x ≠ .nan := by
  cases x <;> cases y <;> simp [eq]

theorem finite_le_finite {p q : ℚ} : (finite p).le (finite q) = true ↔ p ≤ q := by
  simp [le, lt, eq, le_iff_lt_or_eq]

theorem le_of_not_lt {x y : JsNumber} (hx : x ≠ .nan) (hy : y ≠ .nan) (h : x.lt y = false) :
    y.le x = true := by
  cases x with
  | finite p =>
    cases y with
    | finite q =>
      rw [finite_le_finite]
      exact not_lt.1 (of_decide_eq_false h)
    | infinite negative => cases negative <;> simp_all [le, lt]
    | nan => exact absurd rfl hy
  | infinite negative =>
    cases y with
    | finite q => cases negative <;> simp_all [le, lt]
    | infinite negative' => cases negative <;> cases negative' <;> simp_all [le, lt, eq]
    | nan => exact absurd rfl hy
  | nan => exact absurd rfl hx

theorem lt_of_not_le {x y : JsNumber} (hx : x ≠ .nan) (hy : y ≠ .nan) (h : x.le y = false) :
    y.lt x = true := by
  cases hlt : y.lt x with
  | true => rfl
  | false => rw [le_of_not_lt hy hx hlt] at h; cases h

theorem finite_add_ne_nan {q : ℚ} {x : JsNumber} (hx : x ≠ .nan) : (finite q).add x ≠ .nan := by
  cases x with
  | finite p =>
    simp only [add, ofRat]
    split <;> simp
  | infinite negative => simp [add]
  | nan => exact absurd rfl hx

theorem finite_sub_ne_nan {q : ℚ} {x : JsNumber} (hx : x ≠ .nan) : (finite q).sub x ≠ .nan := by
  refine finite_add_ne_nan ?_
  cases x <;> simp_all [neg]

/-- A multiple of `2 ^ -45` does not round up to 250. -/
theorem le_of_le_ofRat {x : ℚ} {m : ℤ} (hx : x = m / 2 ^ 45)
    (h : (finite 250).le (ofRat x) = true) : 250 ≤ x := by
  by_contra hlt
  rw [not_le] at hlt
  rcases le_or_gt x 0 with hneg | hpos
  · have hround : roundHalfEven (x / 2 ^ ulpExponent x) * (2 : ℚ) ^ ulpExponent x ≤ 0 := by
      have hulp : (0 : ℚ) < 2 ^ ulpExponent x := zpow_pos (by norm_num) _
      have := roundHalfEven_nonpos (div_nonpos_of_nonpos_of_nonneg hneg hulp.le)
      exact mul_nonpos_of_nonpos_of_nonneg (by exact_mod_cast this) hulp.le
    unfold ofRat at h
    dsimp only at h
    split at h
    · rename_i hbig
      rw [abs_of_nonpos hround] at hbig
      have hsign : roundHalfEven (x / 2 ^ ulpExponent x) * (2 : ℚ) ^ ulpExponent x < 0 :=
        neg_pos.1 (lt_of_lt_of_le (pow_pos two_pos 1024) hbig)
      rw [decide_eq_true hsign] at h
      cases h
    · rw [finite_le_finite] at h
      linarith
  · have hm : |m| < 2 ^ 53 := by
      rw [hx, div_lt_iff₀ (by norm_num)] at hlt
      rw [hx, lt_div_iff₀ (by norm_num), zero_mul] at hpos
      have hlt' : m < 250 * 2 ^ 45 := by exact_mod_cast hlt
      have hpos' : 0 < m := by exact_mod_cast hpos
      rw [abs_of_pos hpos']
      omega
    rw [hx, ofRat_dyadic hm (by decide), finite_le_finite, ← hx] at h
    exact absurd h (not_le.2 hlt)

end JsNumber

/-! ## Texts -/

/-- The value of a digit in base 16 or lower; other characters are no digit of such a base. -/
def digitValue (c : Char) : ℕ :=
  if c.isDigit then c.toNat - 48
  else if 'a' ≤ c ∧ c ≤ 'f' then c.toNat - 87
  else if 'A' ≤ c ∧ c ≤ 'F' then c.toNat - 55
  else 16

/-- A literal after its prefix `0x`, `0o` or `0b`. -/
def ofPrefixed (base : ℕ) (cs : List Char) : JsNumber :=
  if cs.isEmpty ∨ cs.any fun c => base ≤ digitValue c then .nan
  else ofRat (cs.foldl (fun n c => base * n + digitValue c) 0 : ℕ)

/-- A sign and what follows it. -/
def splitSign : List Char → Bool × List Char
  | '+' :: cs => (false, cs)
  | '-' :: cs => (true, cs)
  | cs => (false, cs)

/-- The exponent part of a decimal literal. -/
def ofExponent : List Char → Option ℤ
  | [] => some 0
  | c :: cs =>
    if c = 'e' ∨ c = 'E' then
      let (negative, digits) := splitSign cs
      if digits.isEmpty ∨ ¬ digits.all Char.isDigit then none
      else
        let e : ℤ := Nat.ofDigitChars 10 digits 0
        some (if negative then -e else e)
    else none

/-- An unsigned decimal literal. -/
def ofUnsigned (cs : List Char) : Option ℚ :=
  let whole := cs.takeWhile Char.isDigit
  let rest := cs.dropWhile Char.isDigit
  let fraction := if rest.head? = some '.' then rest.tail.takeWhile Char.isDigit else []
  let rest := if rest.head? = some '.' then rest.tail.dropWhile Char.isDigit else rest
  if whole.isEmpty ∧ fraction.isEmpty then none
  else (ofExponent rest).map fun e =>
    (Nat.ofDigitChars 10 (whole ++ fraction) 0 : ℚ) * 10 ^ (e - (fraction.length : ℤ))

/-- A signed decimal literal or a signed `Infinity`. -/
def ofDecimal (cs : List Char) : JsNumber :=
  let (negative, cs) := splitSign cs
  if cs = "Infinity".toList then .infinite negative
  else match ofUnsigned cs with
    | none => .nan
    | some q => ofRat (if negative then -q else q)

/-- `Number(text)` for a text without surrounding white space. -/
def ofText : List Char → JsNumber
  | [] => .finite 0
  | '0' :: 'x' :: cs | '0' :: 'X' :: cs => ofPrefixed 16 cs
  | '0' :: 'o' :: cs | '0' :: 'O' :: cs => ofPrefixed 8 cs
  | '0' :: 'b' :: cs | '0' :: 'B' :: cs => ofPrefixed 2 cs
  | cs => ofDecimal cs

theorem ofUnsigned_digits {cs : List Char} (hne : cs ≠ []) (hcs : ∀ c ∈ cs, c.isDigit = true) :
    ofUnsigned cs = some (Nat.ofDigitChars 10 cs 0 : ℚ) := by
  have hwhole : cs.takeWhile Char.isDigit = cs := List.takeWhile_eq_self_iff.2 hcs
  have hrest : cs.dropWhile Char.isDigit = [] := List.dropWhile_eq_nil_iff.2 hcs
  unfold ofUnsigned
  simp [hwhole, hrest, hne, ofExponent]

/-- A text of digits is the decimal number. -/
theorem ofText_digits {cs : List Char} (hne : cs ≠ []) (hcs : ∀ c ∈ cs, c.isDigit = true) :
    ofText cs = ofRat (Nat.ofDigitChars 10 cs 0) := by
  have hdecimal : ofDecimal cs = ofRat (Nat.ofDigitChars 10 cs 0) := by
    have hsign : splitSign cs = (false, cs) := by
      unfold splitSign
      split
      · exact absurd (hcs '+' List.mem_cons_self) (by decide)
      · exact absurd (hcs '-' List.mem_cons_self) (by decide)
      · rfl
    have hinf : cs ≠ "Infinity".toList := by
      rintro rfl
      exact absurd (hcs 'I' (by decide)) (by decide)
    unfold ofDecimal
    rw [hsign]
    dsimp only
    rw [if_neg hinf, ofUnsigned_digits hne hcs]
    exact congrArg ofRat (if_neg Bool.false_ne_true)
  unfold ofText
  split
  · exact absurd rfl hne
  all_goals first
    | exact hdecimal
    | exact absurd (hcs _ (List.mem_cons_of_mem _ List.mem_cons_self)) (by decide)

/-- The decimal text of a whole number of at most 53 bits converts to the number. -/
theorem ofText_toString {n : ℕ} (hn : n < 2 ^ 53) : ofText (toString n).toList = .finite n := by
  have hl : (toString n).toList = Nat.toDigits 10 n := Nat.toList_repr
  rw [hl, ofText_digits]
  · rw [Nat.ofDigitChars_ten_toDigits]
    exact ofRat_natCast hn
  · simp
  · intro c hc
    exact Nat.isDigit_of_mem_toDigits (by decide) (by decide) hc

example : ofText "-12.50e1".toList = .finite (-125) := by decide +kernel
example : ofText "9007199254740993".toList = .finite 9007199254740992 := by decide +kernel

end FlashSale.Number
