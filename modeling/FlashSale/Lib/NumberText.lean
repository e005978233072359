import FlashSale.Lib.Number
import Mathlib.Data.Nat.Prime.Basic
import Mathlib.Tactic.FieldSimp

/-!
# Numbers as texts

`toText` is the text JavaScript writes for a number: the fewest significant digits that read back as
the number, of two such decimals the closer one, and of two equally close ones the even one; without
an exponent while the decimal point stands between five zeros before the digits and the
twenty-first digit.

The digits are searched among the decimals `s * 10 ^ e` next to the number, with one digit more each
time. A double is a fraction over a power of two, so its exact expansion ends the search
(`shortestDecimal_reads`), and the text of a double converts to the double (`ofText_toText`).
-/

namespace FlashSale.Number

/-- A rational that a double stands for. -/
def IsDouble (q : ℚ) : Prop := ofRat q = .finite q

instance : DecidablePred IsDouble := fun q => inferInstanceAs (Decidable (ofRat q = .finite q))

/-- A double that is neither infinite nor NaN. -/
def JsNumber.IsFinite : JsNumber → Prop
  | .finite q => IsDouble q
  | _ => False

instance : DecidablePred JsNumber.IsFinite
  | .finite q => inferInstanceAs (Decidable (IsDouble q))
  | .infinite _ => .isFalse id
  | .nan => .isFalse id

/-! ## Decimals that read as a number -/

/-- The decimal of `k` significant digits that reads as `q`, if there is one: the nearest below or
above, the nearer first. The decimal after `9` is `1` with the next exponent. -/
def decimalOf (q : ℚ) (k : ℕ) : Option (ℕ × ℤ) :=
  let e := Int.log 10 q + 1 - k
  let scaled := q / 10 ^ e
  let near := (roundHalfEven scaled).toNat
  let far := if near = ⌊scaled⌋.toNat then near + 1 else near - 1
  let found := [near, far].find? fun s : ℕ => ofRat (s * 10 ^ e) = .finite q
  found.map fun s => if s = 10 ^ k then (s / 10, e + 1) else (s, e)

/-- The number of significant digits of the exact decimal expansion of `q`, a fraction over a power
of two. -/
def exactDigits (q : ℚ) : ℕ := (Int.log 10 q + 1 + Nat.log 2 q.den).toNat

/-- The decimal with the fewest significant digits that reads as `q`. -/
def shortestDecimal (q : ℚ) : ℕ × ℤ :=
  ((List.range (exactDigits q)).findSome? fun i => decimalOf q (i + 1)).getD (0, 0)

/-- The exponent part of a decimal whose point stands after `n` digits. -/
def exponentText (n : ℤ) : List Char :=
  'e' :: (if n < 0 then '-' else '+') :: Nat.toDigits 10 (n - 1).natAbs

/-- The text of `s * 10 ^ e`. -/
def decimalText (s : ℕ) (e : ℤ) : List Char :=
  let digits := Nat.toDigits 10 s
  let n := e + digits.length
  if -5 ≤ n ∧ n ≤ 21 then
    if digits.length ≤ n then digits ++ List.replicate e.toNat '0'
    else if 0 < n then digits.take n.toNat ++ '.' :: digits.drop n.toNat
    else '0' :: '.' :: (List.replicate (-n).toNat '0' ++ digits)
  else if digits.length = 1 then digits ++ exponentText n
  else digits.take 1 ++ '.' :: (digits.drop 1 ++ exponentText n)

/-- `String(x)`. -/
def toText : JsNumber → List Char
  | .nan => "NaN".toList
  | .infinite negative => if negative then "-Infinity".toList else "Infinity".toList
  | .finite q =>
    if q = 0 then ['0']
    else
      let (s, e) := shortestDecimal |q|
      if q < 0 then '-' :: decimalText s e else decimalText s e

/-! ## Doubles -/

theorem roundHalfEven_neg (q : ℚ) : roundHalfEven (-q) = -roundHalfEven q := by
  rcases eq_or_ne (Int.fract q) 0 with h0 | h0
  · have hq : q = (⌊q⌋ : ℚ) := by
      rw [Int.fract] at h0
      linarith
    rw [hq, ← Int.cast_neg, roundHalfEven_intCast, roundHalfEven_intCast]
  · have hfract : Int.fract (-q) = 1 - Int.fract q := Int.fract_neg h0
    have hfloor : ⌊-q⌋ = -⌊q⌋ - 1 := by
      have h1 := Int.floor_add_fract q
      have h2 := Int.floor_add_fract (-q)
      have : (⌊-q⌋ : ℚ) = ((-⌊q⌋ - 1 : ℤ) : ℚ) := by
        push_cast
        linarith
      exact_mod_cast this
    unfold roundHalfEven
    rw [hfract, hfloor]
    split_ifs <;> first | omega | (exfalso; linarith)

/-- Rounding is symmetric. -/
theorem ofRat_neg {q r : ℚ} (h : ofRat q = .finite r) : ofRat (-q) = .finite (-r) := by
  have hu : ulpExponent (-q) = ulpExponent q := by
    unfold ulpExponent
    rw [abs_neg]
  unfold ofRat at h ⊢
  dsimp only at h ⊢
  rw [hu, neg_div, roundHalfEven_neg, Int.cast_neg, neg_mul, abs_neg]
  split at h
  · cases h
  · rename_i hlt
    rw [if_neg hlt]
    injection h with h
    rw [h]

theorem IsDouble.neg {q : ℚ} (h : IsDouble q) : IsDouble (-q) := ofRat_neg h

theorem IsDouble.abs {q : ℚ} (h : IsDouble q) : IsDouble |q| := by
  rcases abs_choice q with hq | hq <;> rw [hq]
  · exact h
  · exact h.neg

/-- A double is a fraction over a power of two. -/
theorem IsDouble.den_eq {q : ℚ} (h : IsDouble q) : q.den = 2 ^ Nat.log 2 q.den := by
  obtain ⟨m, u, hq⟩ : ∃ (m : ℤ) (u : ℤ), q = m * 2 ^ u := by
    unfold IsDouble ofRat at h
    dsimp only at h
    split at h
    · cases h
    · injection h with h
      exact ⟨_, _, h.symm⟩
  obtain ⟨j, hj⟩ : ∃ j : ℕ, q.den ∣ 2 ^ j := by
    rcases le_total 0 u with hu | hu
    · obtain ⟨k, rfl⟩ := Int.eq_ofNat_of_zero_le hu
      refine ⟨0, ?_⟩
      have : q = ((m * 2 ^ k : ℤ) : ℚ) := by
        rw [hq]
        push_cast
        rw [zpow_natCast]
      rw [this, Rat.den_intCast]
      exact one_dvd _
    · obtain ⟨k, hk⟩ := Int.eq_ofNat_of_zero_le (neg_nonneg.2 hu)
      refine ⟨k, ?_⟩
      have : q = (m : ℚ) / ((2 ^ k : ℤ) : ℚ) := by
        rw [hq, show u = -(k : ℤ) by omega, zpow_neg, zpow_natCast]
        push_cast
        rw [div_eq_mul_inv]
      have hdvd : ((q.den : ℕ) : ℤ) ∣ 2 ^ k := by
        rw [this, ← Rat.divInt_eq_div]
        exact Rat.den_dvd m (2 ^ k)
      exact_mod_cast hdvd
  obtain ⟨i, -, hi⟩ := (Nat.dvd_prime_pow Nat.prime_two).1 hj
  rw [hi, Nat.log_pow (by decide)]

/-! ## The search -/

theorem decimalOf_reads {q : ℚ} {k : ℕ} {d : ℕ × ℤ} (hk : 0 < k) (h : decimalOf q k = some d) :
    ofRat (d.1 * 10 ^ d.2) = .finite q := by
  unfold decimalOf at h
  dsimp only at h
  obtain ⟨s, hs, rfl⟩ := Option.map_eq_some_iff.1 h
  have hread := List.find?_some hs
  rw [decide_eq_true_eq] at hread
  split
  · rename_i hpow
    rw [← hread]
    congr 1
    obtain ⟨i, rfl⟩ : ∃ i, k = i + 1 := ⟨k - 1, by omega⟩
    have hdiv : s / 10 = 10 ^ i := by
      rw [hpow, Nat.pow_succ, Nat.mul_div_cancel _ (by decide)]
    have hsucc : ∀ e : ℤ, (10 : ℚ) ^ (e + 1) = 10 ^ e * 10 := fun e => zpow_add_one₀ (by norm_num) e
    dsimp only
    rw [hdiv, hpow, hsucc]
    push_cast
    ring
  · exact hread

/-- The digits of the exact expansion are the last ones tried. -/
theorem decimalOf_exactDigits {q : ℚ} (hpos : 0 < q) (h : IsDouble q) :
    0 < exactDigits q ∧ (decimalOf q (exactDigits q)).isSome := by
  have hden := h.den_eq
  set j := Nat.log 2 q.den with hj
  have hten : (10 : ℚ) ^ (-(j : ℤ)) ≤ q := by
    have hnum : (1 : ℚ) ≤ q.num := by exact_mod_cast Rat.num_pos.2 hpos
    have hq : q = q.num / 2 ^ j := by
      conv_lhs => rw [← Rat.num_div_den q, hden]
      push_cast
      rfl
    rw [zpow_neg, zpow_natCast]
    calc ((10 : ℚ) ^ j)⁻¹ ≤ ((2 : ℚ) ^ j)⁻¹ := by
          apply inv_anti₀ (by positivity)
          gcongr
          norm_num
      _ ≤ q.num / 2 ^ j := by
          rw [inv_eq_one_div]
          gcongr
      _ = q := hq.symm
  have hlog : -(j : ℤ) ≤ Int.log 10 q :=
    (Int.zpow_le_iff_le_log (by decide) hpos).1 (by exact_mod_cast hten)
  have hexact : (exactDigits q : ℤ) = Int.log 10 q + 1 + j := by
    unfold exactDigits
    rw [← hj]
    omega
  refine ⟨by omega, ?_⟩
  have hscaled : q / 10 ^ (-(j : ℤ)) = ((q.num * 5 ^ j : ℤ) : ℚ) := by
    rw [zpow_neg, div_inv_eq_mul, zpow_natCast]
    conv_lhs => rw [← Rat.num_div_den q, hden]
    push_cast
    rw [show (10 : ℚ) = 2 * 5 by norm_num, mul_pow]
    field_simp
  have he : Int.log 10 q + 1 - (exactDigits q : ℤ) = -(j : ℤ) := by omega
  unfold decimalOf
  dsimp only
  rw [he, hscaled, roundHalfEven_intCast, Option.isSome_map, List.find?_isSome]
  refine ⟨_, List.mem_cons_self, ?_⟩
  have hnonneg : 0 ≤ q.num * 5 ^ j := by
    have := Rat.num_nonneg.2 hpos.le
    positivity
  have hcast : (((q.num * 5 ^ j).toNat : ℕ) : ℚ) = ((q.num * 5 ^ j : ℤ) : ℚ) := by
    exact_mod_cast congrArg (Int.cast : ℤ → ℚ) (Int.toNat_of_nonneg hnonneg)
  rw [hcast, ← hscaled, div_mul_cancel₀ _ (zpow_ne_zero _ (by norm_num))]
  exact decide_eq_true h

theorem shortestDecimal_reads {q : ℚ} (hpos : 0 < q) (h : IsDouble q) :
    ofRat ((shortestDecimal q).1 * 10 ^ (shortestDecimal q).2) = .finite q := by
  obtain ⟨hk, hsome⟩ := decimalOf_exactDigits hpos h
  have hfound : ((List.range (exactDigits q)).findSome? fun i => decimalOf q (i + 1)).isSome := by
    rw [List.findSome?_isSome_iff]
    refine ⟨exactDigits q - 1, List.mem_range.2 (by omega), ?_⟩
    rwa [Nat.sub_add_cancel hk]
  obtain ⟨d, hd⟩ := Option.isSome_iff_exists.1 hfound
  obtain ⟨i, -, hi⟩ := List.exists_of_findSome?_eq_some hd
  unfold shortestDecimal
  rw [hd]
  exact decimalOf_reads (Nat.succ_pos i) hi

/-! ## Reading the text -/

/-- The characters of a decimal literal. -/
def isNumeral (c : Char) : Bool := c.isDigit || c = '.' || c = 'e' || c = '+' || c = '-'

theorem takeWhile_isDigit_append {digits : List Char} (rest : List Char)
    (hd : ∀ c ∈ digits, c.isDigit = true)
    (hr : ∀ c ∈ rest.head?, c.isDigit = false) :
    (digits ++ rest).takeWhile Char.isDigit = digits ∧
      (digits ++ rest).dropWhile Char.isDigit = rest := by
  rw [List.takeWhile_append_of_pos hd, List.dropWhile_append_of_pos hd]
  cases rest with
  | nil => simp
  | cons c cs =>
    have hc := hr c rfl
    rw [List.takeWhile_cons, List.dropWhile_cons]
    simp [hc]

/-- An exponent part starts with neither a digit nor a point. -/
theorem head?_of_ofExponent {rest : List Char} {e : ℤ} (h : ofExponent rest = some e) :
    (∀ c ∈ rest.head?, c.isDigit = false) ∧ rest.head? ≠ some '.' := by
  cases rest with
  | nil => simp
  | cons c cs =>
    by_cases hc : c = 'e' ∨ c = 'E'
    · rcases hc with rfl | rfl <;> simp
    · rw [ofExponent, if_neg hc] at h
      cases h

/-- A decimal literal with a fraction. -/
theorem ofUnsigned_fraction (whole fraction rest : List Char) {e : ℤ} (hne : whole ≠ [])
    (hw : ∀ c ∈ whole, c.isDigit = true) (hf : ∀ c ∈ fraction, c.isDigit = true)
    (he : ofExponent rest = some e) :
    ofUnsigned (whole ++ '.' :: (fraction ++ rest)) =
      some (Nat.ofDigitChars 10 (whole ++ fraction) 0 * (10 : ℚ) ^ (e - fraction.length)) := by
  obtain ⟨htake, hdrop⟩ := takeWhile_isDigit_append ('.' :: (fraction ++ rest)) hw (by simp)
  obtain ⟨hftake, hfdrop⟩ := takeWhile_isDigit_append rest hf (head?_of_ofExponent he).1
  unfold ofUnsigned
  simp [htake, hdrop, hftake, hfdrop, hne, he]

/-- A decimal literal without a fraction. -/
theorem ofUnsigned_whole {whole rest : List Char} {e : ℤ} (hne : whole ≠ [])
    (hw : ∀ c ∈ whole, c.isDigit = true) (he : ofExponent rest = some e) :
    ofUnsigned (whole ++ rest) = some (Nat.ofDigitChars 10 whole 0 * (10 : ℚ) ^ e) := by
  obtain ⟨hdigit, hpoint⟩ := head?_of_ofExponent he
  obtain ⟨htake, hdrop⟩ := takeWhile_isDigit_append rest hw hdigit
  unfold ofUnsigned
  simp [htake, hdrop, hne, hpoint, he]

theorem isDigit_toDigits {n : ℕ} {c : Char} (hc : c ∈ Nat.toDigits 10 n) : c.isDigit = true :=
  Nat.isDigit_of_mem_toDigits (by decide) (by decide) hc

theorem ofExponent_exponentText {n : ℤ} (h : n ≠ 0) :
    ofExponent (exponentText n) = some (n - 1) := by
  have hall : (Nat.toDigits 10 (n - 1).natAbs).all Char.isDigit = true :=
    List.all_eq_true.2 fun c hc => isDigit_toDigits hc
  unfold exponentText ofExponent
  split_ifs with hneg
  all_goals
    simp only [splitSign, hall, Nat.toDigits_ne_nil, List.isEmpty_iff,
      Nat.ofDigitChars_ten_toDigits]
    simp only [true_or, if_true, not_true_eq_false, or_self, if_false, Option.some.injEq,
      Bool.false_eq_true]
    omega

theorem ofUnsigned_decimalText (s : ℕ) (e : ℤ) :
    ofUnsigned (decimalText s e) = some (s * (10 : ℚ) ^ e) := by
  have hdigits : ∀ c ∈ Nat.toDigits 10 s, c.isDigit = true := fun c hc => isDigit_toDigits hc
  have hne : Nat.toDigits 10 s ≠ [] := Nat.toDigits_ne_nil
  have hlen := Nat.length_toDigits_pos (b := 10) (n := s)
  have hvalue : Nat.ofDigitChars 10 (Nat.toDigits 10 s) 0 = s := Nat.ofDigitChars_ten_toDigits
  have hzeros : ∀ m c, c ∈ List.replicate m '0' → c.isDigit = true := by
    intro m c hc
    rw [List.eq_of_mem_replicate hc]
    decide
  unfold decimalText
  dsimp only
  generalize Nat.toDigits 10 s = digits at *
  split_ifs with hrange hwhole hmixed hone
  · -- digits and zeros
    obtain ⟨m, rfl⟩ : ∃ m : ℕ, e = m := ⟨e.toNat, by omega⟩
    have hall : ∀ c ∈ digits ++ List.replicate (m : ℤ).toNat '0', c.isDigit = true :=
      fun c hc => (List.mem_append.1 hc).elim (hdigits c) (hzeros _ c)
    rw [ofUnsigned_digits (by simp [hne]) hall, Nat.ofDigitChars_append, Int.toNat_natCast,
      Nat.ofDigitChars_replicate_zero, hvalue]
    push_cast
    rw [zpow_natCast, mul_comm]
  · -- the point among the digits
    have hpos : 0 < (e + digits.length).toNat := by omega
    have := ofUnsigned_fraction (digits.take (e + digits.length).toNat)
      (digits.drop (e + digits.length).toNat) [] (e := 0) (by simp [hne]; omega)
      (fun c hc => hdigits c (List.mem_of_mem_take hc))
      (fun c hc => hdigits c (List.mem_of_mem_drop hc)) rfl
    rw [List.append_nil, List.take_append_drop, hvalue] at this
    rw [this, List.length_drop]
    congr 3
    omega
  · -- zeros after the point
    have := ofUnsigned_fraction ['0']
      (List.replicate (-(e + digits.length)).toNat '0' ++ digits) [] (e := 0)
      (by simp) (hzeros 1) (fun c hc => (List.mem_append.1 hc).elim (hzeros _ c) (hdigits c)) rfl
    rw [List.append_nil] at this
    have hread : Nat.ofDigitChars 10
        (['0'] ++ (List.replicate (-(e + digits.length)).toNat '0' ++ digits)) 0 = s := by
      rw [Nat.ofDigitChars_append, Nat.ofDigitChars_append, Nat.ofDigitChars_replicate_zero]
      exact hvalue
    rw [hread] at this
    refine this.trans ?_
    rw [List.length_append, List.length_replicate]
    congr 3
    omega
  · -- one digit and the exponent
    rw [ofUnsigned_whole hne hdigits (ofExponent_exponentText (by omega)), hvalue]
    congr 3
    omega
  · -- digits, fraction and exponent
    rw [ofUnsigned_fraction _ _ _ (by simp [hne]) (fun c hc => hdigits c (List.mem_of_mem_take hc))
      (fun c hc => hdigits c (List.mem_of_mem_drop hc)) (ofExponent_exponentText (by omega)),
      List.take_append_drop, hvalue, List.length_drop]
    congr 3
    omega

theorem isNumeral_of_isDigit {c : Char} (h : c.isDigit = true) : isNumeral c = true := by
  unfold isNumeral
  simp [h]

theorem isNumeral_exponentText {n : ℤ} {c : Char} (hc : c ∈ exponentText n) :
    isNumeral c = true := by
  unfold exponentText at hc
  rcases List.mem_cons.1 hc with rfl | hc
  · decide
  · rcases List.mem_cons.1 hc with rfl | hc
    · split <;> decide
    · exact isNumeral_of_isDigit (isDigit_toDigits hc)

theorem isNumeral_decimalText {s : ℕ} {e : ℤ} {c : Char} (hc : c ∈ decimalText s e) :
    isNumeral c = true := by
  have hdigit : ∀ c ∈ Nat.toDigits 10 s, isNumeral c = true :=
    fun c hc => isNumeral_of_isDigit (isDigit_toDigits hc)
  have hzero : ∀ m, c ∈ List.replicate m '0' → isNumeral c = true := by
    intro m hc
    rw [List.eq_of_mem_replicate hc]
    decide
  unfold decimalText at hc
  dsimp only at hc
  split_ifs at hc <;> simp only [List.mem_append, List.mem_cons] at hc
  · exact hc.elim (hdigit c) (hzero _)
  · rcases hc with hc | rfl | hc
    · exact hdigit c (List.mem_of_mem_take hc)
    · decide
    · exact hdigit c (List.mem_of_mem_drop hc)
  · rcases hc with rfl | rfl | hc | hc
    · decide
    · decide
    · exact hzero _ hc
    · exact hdigit c hc
  · exact hc.elim (hdigit c) isNumeral_exponentText
  · rcases hc with hc | rfl | hc | hc
    · exact hdigit c (List.mem_of_mem_take hc)
    · decide
    · exact hdigit c (List.mem_of_mem_drop hc)
    · exact isNumeral_exponentText hc

/-- A decimal text starts with a digit. -/
theorem head?_decimalText (s : ℕ) (e : ℤ) :
    ∃ c cs, decimalText s e = c :: cs ∧ c.isDigit = true := by
  obtain ⟨c, cs, hcs⟩ := List.exists_cons_of_ne_nil (Nat.toDigits_ne_nil (n := s) (b := 10))
  have hc : c.isDigit = true := isDigit_toDigits (n := s) (by rw [hcs]; exact List.mem_cons_self)
  unfold decimalText
  dsimp only
  rw [hcs]
  split_ifs with hrange hwhole hmixed hone
  · exact ⟨c, _, rfl, hc⟩
  · obtain ⟨m, hm⟩ : ∃ m, (e + (c :: cs).length).toNat = m + 1 :=
      ⟨(e + (c :: cs).length).toNat - 1, by omega⟩
    rw [hm]
    exact ⟨c, _, rfl, hc⟩
  · exact ⟨'0', _, rfl, by decide⟩
  · exact ⟨c, _, rfl, hc⟩
  · exact ⟨c, _, rfl, hc⟩

/-- Only decimal literals consist of such characters. -/
theorem ofText_of_numeral {cs : List Char} (hne : cs ≠ []) (hcs : ∀ c ∈ cs, isNumeral c = true) :
    ofText cs = ofDecimal cs := by
  unfold ofText
  split
  · exact absurd rfl hne
  all_goals first
    | rfl
    | exact absurd (hcs _ (List.mem_cons_of_mem _ List.mem_cons_self)) (by decide)

theorem ofDecimal_decimalText (s : ℕ) (e : ℤ) :
    ofDecimal (decimalText s e) = ofRat (s * 10 ^ e) ∧
      ofDecimal ('-' :: decimalText s e) = ofRat (-(s * 10 ^ e)) := by
  have hinf : decimalText s e ≠ "Infinity".toList := by
    intro h
    have := isNumeral_decimalText (s := s) (e := e) (c := 'I') (by rw [h]; decide)
    exact absurd this (by decide)
  have hsign : splitSign (decimalText s e) = (false, decimalText s e) := by
    obtain ⟨c, cs, hcs, hc⟩ := head?_decimalText s e
    rw [hcs]
    unfold splitSign
    split
    · rename_i h
      cases h
      exact absurd hc (by decide)
    · rename_i h
      cases h
      exact absurd hc (by decide)
    · rfl
  constructor
  · unfold ofDecimal
    rw [hsign]
    dsimp only
    rw [if_neg hinf, ofUnsigned_decimalText]
    simp
  · unfold ofDecimal
    simp only [splitSign]
    rw [if_neg hinf, ofUnsigned_decimalText]
    simp

theorem isNumeral_toText {q : ℚ} {c : Char} (hc : c ∈ toText (.finite q)) : isNumeral c = true := by
  simp only [toText] at hc
  split_ifs at hc
  · rw [List.mem_singleton.1 hc]
    decide
  · rcases List.mem_cons.1 hc with rfl | hc
    · decide
    · exact isNumeral_decimalText hc
  · exact isNumeral_decimalText hc

theorem toText_ne_nil (q : ℚ) : toText (.finite q) ≠ [] := by
  obtain ⟨c, cs, hcs, -⟩ := head?_decimalText (shortestDecimal |q|).1 (shortestDecimal |q|).2
  simp only [toText, hcs]
  split_ifs <;> simp

/-- **The text of a double converts to the double.** -/
theorem ofText_toText {q : ℚ} (h : IsDouble q) : ofText (toText (.finite q)) = .finite q := by
  rcases eq_or_ne q 0 with rfl | h0
  · decide +kernel
  · rw [ofText_of_numeral (toText_ne_nil q) fun c hc => isNumeral_toText hc]
    have hread := shortestDecimal_reads (abs_pos.2 h0) h.abs
    obtain ⟨hpos, hneg⟩ := ofDecimal_decimalText (shortestDecimal |q|).1 (shortestDecimal |q|).2
    simp only [toText, if_neg h0]
    split_ifs with hlt
    · rw [hneg, ofRat_neg hread, abs_of_neg hlt, neg_neg]
    · rw [hpos, hread, abs_of_nonneg (not_lt.1 hlt)]

/-- Doubles with one text are one double. -/
theorem toText_injective {p q : ℚ} (hp : IsDouble p) (hq : IsDouble q)
    (h : toText (.finite p) = toText (.finite q)) : p = q := by
  have := ofText_toText hp
  rw [h, ofText_toText hq] at this
  injection this with this
  exact this.symm

example : toText (.finite (1 / 2 ^ 1074)) = "5e-324".toList := by decide +kernel
example : toText (ofRat (10 ^ 23)) = "1e+23".toList := by decide +kernel
example : toText (ofRat (-1 / 1000000)) = "-0.000001".toList := by decide +kernel

end FlashSale.Number
