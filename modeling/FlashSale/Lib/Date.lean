import Mathlib.Data.Int.Order.Basic
import Mathlib.Data.List.Basic
import Mathlib.Tactic.Linarith

/-!
# ISO timestamps

`toISOString` writes a time value (milliseconds since 1970) as `YYYY-MM-DDTHH:mm:ss.sssZ`, with six
signed digits for years outside `0000`–`9999`; `parseISO` reads such a text. Dates go through the
proleptic Gregorian calendar in eras of 400 years that start in March, so that the leap day ends a
year. Reading undoes writing on all time values (`parseISO_toISOString`).
-/

namespace FlashSale.Date

/-- The largest time value of a `Date`. -/
def MAX_TIME_VALUE : ℤ := 8640000000000000

def MS_PER_DAY : ℤ := 86400000

/-! ## The calendar -/

/-- A date of the calendar. -/
structure Civil where
  year : ℤ
  month : ℤ
  day : ℤ
  deriving DecidableEq, Repr

/-- The year of its era a day belongs to, from the day of the era: by centuries, of which the last
has one day more, by fours of years, and by years, of which the last of four has one day more. -/
def yearOfEra (doe : ℤ) : ℤ :=
  let century := min (doe / 36524) 3
  let doc := doe - century * 36524
  let year := min (doc % 1461 / 365) 3
  100 * century + 4 * (doc / 1461) + year

/-- The days of an era before a year of it. -/
def daysBefore (yoe : ℤ) : ℤ := 365 * yoe + yoe / 4 - yoe / 100

/-- The date of a day, counted from 1970-01-01. -/
def civilOfDays (days : ℤ) : Civil :=
  let z := days + 719468
  let era := z / 146097
  let doe := z % 146097
  let yoe := yearOfEra doe
  let doy := doe - daysBefore yoe
  let mp := (5 * doy + 2) / 153
  let month := if mp < 10 then mp + 3 else mp - 9
  ⟨yoe + era * 400 + (if month ≤ 2 then 1 else 0), month, doy - (153 * mp + 2) / 5 + 1⟩

/-- The day of a date. -/
def daysOfCivil (c : Civil) : ℤ :=
  let y := if c.month ≤ 2 then c.year - 1 else c.year
  let mp := if c.month ≤ 2 then c.month + 9 else c.month - 3
  let doy := (153 * mp + 2) / 5 + c.day - 1
  y / 400 * 146097 + (daysBefore (y % 400) + doy) - 719468

theorem yearOfEra_bounds {doe : ℤ} (h0 : 0 ≤ doe) (h1 : doe < 146097) :
    0 ≤ yearOfEra doe ∧ yearOfEra doe < 400 ∧
      0 ≤ doe - daysBefore (yearOfEra doe) ∧ doe - daysBefore (yearOfEra doe) < 366 := by
  obtain ⟨century, hcentury⟩ : ∃ century, century = min (doe / 36524) 3 := ⟨_, rfl⟩
  obtain ⟨doc, hdoc⟩ : ∃ doc, doc = doe - century * 36524 := ⟨_, rfl⟩
  obtain ⟨year, hyear⟩ : ∃ year, year = min (doc % 1461 / 365) 3 := ⟨_, rfl⟩
  have hyoe : yearOfEra doe = 100 * century + 4 * (doc / 1461) + year := by
    simp only [yearOfEra, ← hcentury, ← hdoc, ← hyear]
  have hc : 0 ≤ century ∧ century ≤ 3 ∧ 0 ≤ doc ∧ doc < 36525 := by omega
  have hq : 0 ≤ doc / 1461 ∧ doc / 1461 ≤ 24 := by omega
  have hy : 0 ≤ year ∧ year ≤ 3 ∧ 0 ≤ doc % 1461 - 365 * year ∧ doc % 1461 - 365 * year < 366 := by
    omega
  have hbefore : daysBefore (yearOfEra doe) = 36524 * century + 1461 * (doc / 1461) + 365 * year := by
    have hfours : (100 * century + 4 * (doc / 1461) + year) / 4 = 25 * century + doc / 1461 := by
      omega
    have hcenturies : (100 * century + 4 * (doc / 1461) + year) / 100 = century := by omega
    rw [hyoe]
    unfold daysBefore
    rw [hfours, hcenturies]
    omega
  rw [hbefore, hyoe]
  omega

/-- The parts of a day: its era, the year of the era, the day of the year and its month. -/
theorem civilOfDays_parts (days : ℤ) : ∃ era yoe doy mp : ℤ,
    days + 719468 = era * 146097 + daysBefore yoe + doy ∧ 0 ≤ yoe ∧ yoe < 400 ∧
      0 ≤ doy ∧ doy < 366 ∧ mp = (5 * doy + 2) / 153 ∧
      civilOfDays days =
        ⟨yoe + era * 400 + (if (if mp < 10 then mp + 3 else mp - 9) ≤ 2 then 1 else 0),
          if mp < 10 then mp + 3 else mp - 9, doy - (153 * mp + 2) / 5 + 1⟩ := by
  obtain ⟨doe, hdoe⟩ : ∃ doe, doe = (days + 719468) % 146097 := ⟨_, rfl⟩
  have hdoe0 : 0 ≤ doe := by omega
  have hdoe1 : doe < 146097 := by omega
  obtain ⟨hy0, hy1, hd0, hd1⟩ := yearOfEra_bounds hdoe0 hdoe1
  refine ⟨(days + 719468) / 146097, yearOfEra doe, doe - daysBefore (yearOfEra doe), _, ?_, hy0, hy1,
    hd0, hd1, rfl, ?_⟩
  · omega
  · simp only [civilOfDays, ← hdoe]

/-- The calendar undoes itself. -/
theorem daysOfCivil_civilOfDays (days : ℤ) : daysOfCivil (civilOfDays days) = days := by
  obtain ⟨era, yoe, doy, mp, hdays, hy0, hy1, hd0, hd1, hmp, hcivil⟩ := civilOfDays_parts days
  have hmonth : 0 ≤ mp ∧ mp ≤ 11 := by omega
  rw [hcivil]
  unfold daysOfCivil
  by_cases h : mp < 10
  · have hm : ¬ mp + 3 ≤ 2 := by omega
    have hyear : (yoe + era * 400 + 0) / 400 = era ∧ (yoe + era * 400 + 0) % 400 = yoe := by omega
    simp only [if_pos h, if_neg hm, hyear]
    omega
  · have hm : mp - 9 ≤ 2 := by omega
    have hyear : (yoe + era * 400 + 1 - 1) / 400 = era ∧ (yoe + era * 400 + 1 - 1) % 400 = yoe := by
      omega
    simp only [if_neg h, if_pos hm, hyear]
    omega

/-- The date of a time value. -/
def civilOf (t : ℤ) : Civil := civilOfDays (t / MS_PER_DAY)

/-- The fields of a date fit their digits. -/
structure Civil.Fits (c : Civil) : Prop where
  month : 0 ≤ c.month ∧ c.month < 100
  day : 0 ≤ c.day ∧ c.day < 100
  year : -1000000 < c.year ∧ c.year < 1000000

theorem civilOf_fits {t : ℤ} (ht : |t| ≤ MAX_TIME_VALUE) : (civilOf t).Fits := by
  obtain ⟨era, yoe, doy, mp, hdays, hy0, hy1, hd0, hd1, hmp, hcivil⟩ :=
    civilOfDays_parts (t / MS_PER_DAY)
  unfold MAX_TIME_VALUE at ht
  rw [abs_le] at ht
  unfold MS_PER_DAY daysBefore at hdays
  have hera : -1000 ≤ era ∧ era ≤ 1000 := by omega
  unfold civilOf
  rw [hcivil]
  constructor
  · dsimp only
    split_ifs <;> omega
  · dsimp only
    omega
  · dsimp only
    split_ifs <;> omega

/-! ## Texts -/

/-- The last `k` decimal digits of `n`. -/
def digits : ℕ → ℕ → List Char
  | 0, _ => []
  | k + 1, n => digits k (n / 10) ++ [Nat.digitChar (n % 10)]

/-- The year of an ISO timestamp. -/
def yearDigits (y : ℤ) : List Char :=
  if 0 ≤ y ∧ y ≤ 9999 then digits 4 y.toNat
  else if y < 0 then '-' :: digits 6 y.natAbs
  else '+' :: digits 6 y.natAbs

/-- The text of an ISO timestamp. -/
def isoChars (year : ℤ) (month day hour minute second ms : ℕ) : List Char :=
  yearDigits year ++ '-' :: (digits 2 month ++ '-' :: (digits 2 day ++ 'T' ::
    (digits 2 hour ++ ':' :: (digits 2 minute ++ ':' :: (digits 2 second ++ '.' ::
    (digits 3 ms ++ ['Z']))))))

/-- `Date.prototype.toISOString` on a time value. -/
def toISOString (t : ℤ) : String :=
  let c := civilOf t
  let ms := (t % MS_PER_DAY).toNat
  String.ofList (isoChars c.year c.month.toNat c.day.toNat (ms / 3600000) (ms / 60000 % 60)
    (ms / 1000 % 60) (ms % 1000))

/-- Exactly `k` digits and the rest of the text. -/
def readDigits (k : ℕ) (cs : List Char) : Option (ℕ × List Char) :=
  if (cs.take k).length = k ∧ (cs.take k).all Char.isDigit then
    some (Nat.ofDigitChars 10 (cs.take k) 0, cs.drop k)
  else none

/-- The character `c`, then exactly `k` digits, and the rest of the text. -/
def readField (c : Char) (k : ℕ) : List Char → Option (ℕ × List Char)
  | [] => none
  | d :: cs => if d = c then readDigits k cs else none

def readYear : List Char → Option (ℤ × List Char)
  | '+' :: cs => (readDigits 6 cs).map fun r => ((r.1 : ℤ), r.2)
  | '-' :: cs => (readDigits 6 cs).map fun r => (-(r.1 : ℤ), r.2)
  | cs => (readDigits 4 cs).map fun r => ((r.1 : ℤ), r.2)

/-- A timestamp in the format of `toISOString`. -/
def parseISO (s : String) : Option ℤ := do
  let (year, cs) ← readYear s.toList
  let (month, cs) ← readField '-' 2 cs
  let (day, cs) ← readField '-' 2 cs
  let (hour, cs) ← readField 'T' 2 cs
  let (minute, cs) ← readField ':' 2 cs
  let (second, cs) ← readField ':' 2 cs
  let (ms, cs) ← readField '.' 3 cs
  let t := daysOfCivil ⟨year, month, day⟩ * MS_PER_DAY +
    (hour * 3600000 + minute * 60000 + second * 1000 + ms)
  if cs = ['Z'] ∧ |t| ≤ MAX_TIME_VALUE then some t else none

theorem length_digits (k n : ℕ) : (digits k n).length = k := by
  induction k generalizing n with
  | zero => rfl
  | succ k ih => simp [digits, ih]

theorem isDigit_of_mem_digits {k n : ℕ} {c : Char} (hc : c ∈ digits k n) : c.isDigit = true := by
  induction k generalizing n with
  | zero => cases hc
  | succ k ih =>
    rcases List.mem_append.1 hc with hc | hc
    · exact ih hc
    · rw [List.mem_singleton.1 hc]
      rw [Nat.isDigit_digitChar, decide_eq_true_eq]
      exact Nat.mod_lt _ (by decide)

theorem ofDigitChars_digits {k n : ℕ} (h : n < 10 ^ k) : Nat.ofDigitChars 10 (digits k n) 0 = n := by
  induction k generalizing n with
  | zero =>
    have : n = 0 := by omega
    subst this
    rfl
  | succ k ih =>
    have hdiv : n / 10 < 10 ^ k := by omega
    rw [digits, Nat.ofDigitChars_append, ih hdiv,
      Nat.ofDigitChars_cons_digitChar_of_lt_ten (Nat.mod_lt _ (by decide)), Nat.ofDigitChars_nil]
    omega

theorem readDigits_digits {k n : ℕ} (h : n < 10 ^ k) (rest : List Char) :
    readDigits k (digits k n ++ rest) = some (n, rest) := by
  have htake : (digits k n ++ rest).take k = digits k n := List.take_left' (length_digits k n)
  have hdrop : (digits k n ++ rest).drop k = rest := List.drop_left' (length_digits k n)
  unfold readDigits
  rw [htake, hdrop, if_pos, ofDigitChars_digits h]
  refine ⟨length_digits k n, ?_⟩
  rw [List.all_eq_true]
  exact fun c hc => isDigit_of_mem_digits hc

theorem readYear_yearDigits {y : ℤ} (h : -1000000 < y ∧ y < 1000000) (rest : List Char) :
    readYear (yearDigits y ++ rest) = some (y, rest) := by
  unfold yearDigits
  split_ifs with h4 hneg
  · have hlt : y.toNat < 10 ^ 4 := by omega
    have hplain : readYear (digits 4 y.toNat ++ rest) =
        (readDigits 4 (digits 4 y.toNat ++ rest)).map fun r => ((r.1 : ℤ), r.2) := by
      have hfirst : ∀ c ∈ (digits 4 y.toNat ++ rest).head?, c.isDigit = true := by
        intro c hc
        have hne : digits 4 y.toNat ≠ [] := by
          intro he
          have := length_digits 4 y.toNat
          rw [he] at this
          cases this
        rw [List.head?_append_of_ne_nil _ hne] at hc
        exact isDigit_of_mem_digits (List.mem_of_mem_head? hc)
      unfold readYear
      split
      · rename_i cs heq
        exact absurd (hfirst '+' (by rw [heq]; rfl)) (by decide)
      · rename_i cs heq
        exact absurd (hfirst '-' (by rw [heq]; rfl)) (by decide)
      · rfl
    rw [hplain, readDigits_digits hlt]
    simp [h4.1]
  · have hlt : y.natAbs < 10 ^ 6 := by omega
    show (readDigits 6 (digits 6 y.natAbs ++ rest)).map _ = _
    rw [readDigits_digits hlt]
    have : -((y.natAbs : ℕ) : ℤ) = y := by omega
    simp only [Option.map_some, this]
  · have hlt : y.natAbs < 10 ^ 6 := by omega
    show (readDigits 6 (digits 6 y.natAbs ++ rest)).map _ = _
    rw [readDigits_digits hlt]
    have : ((y.natAbs : ℕ) : ℤ) = y := by omega
    simp only [Option.map_some, this]

theorem readField_digits {k n : ℕ} (h : n < 10 ^ k) (c : Char) (rest : List Char) :
    readField c k (c :: (digits k n ++ rest)) = some (n, rest) := by
  show (if c = c then readDigits k (digits k n ++ rest) else none) = some (n, rest)
  rw [if_pos rfl, readDigits_digits h]

theorem parseISO_isoChars {year : ℤ} {month day hour minute second ms : ℕ}
    (hy : -1000000 < year ∧ year < 1000000) (hmo : month < 10 ^ 2) (hd : day < 10 ^ 2)
    (hh : hour < 10 ^ 2) (hmi : minute < 10 ^ 2) (hs : second < 10 ^ 2) (hms : ms < 10 ^ 3) {t : ℤ}
    (ht : daysOfCivil ⟨year, month, day⟩ * MS_PER_DAY +
      (hour * 3600000 + minute * 60000 + second * 1000 + ms : ℤ) = t)
    (hmax : |t| ≤ MAX_TIME_VALUE) :
    parseISO (String.ofList (isoChars year month day hour minute second ms)) = some t := by
  unfold parseISO isoChars
  rw [String.toList_ofList, readYear_yearDigits hy]
  simp only [Option.bind_eq_bind, Option.bind_some]
  rw [readField_digits hmo, Option.bind_some, readField_digits hd, Option.bind_some,
    readField_digits hh, Option.bind_some, readField_digits hmi, Option.bind_some,
    readField_digits hs, Option.bind_some, readField_digits hms, Option.bind_some, ht]
  exact if_pos ⟨rfl, hmax⟩

/-- Reading undoes writing. -/
theorem parseISO_toISOString {t : ℤ} (ht : |t| ≤ MAX_TIME_VALUE) :
    parseISO (toISOString t) = some t := by
  obtain ⟨hmonth, hday, hyear⟩ := civilOf_fits ht
  obtain ⟨ms, hms⟩ : ∃ ms, ms = (t % MS_PER_DAY).toNat := ⟨_, rfl⟩
  have hmsday : ms < 86400000 := by
    unfold MS_PER_DAY at hms
    omega
  have hcivil : (⟨(civilOf t).year, ((civilOf t).month.toNat : ℤ), ((civilOf t).day.toNat : ℤ)⟩ :
      Civil) = civilOf t := by
    rw [Int.toNat_of_nonneg hmonth.1, Int.toNat_of_nonneg hday.1]
  unfold toISOString
  simp only [← hms]
  refine parseISO_isoChars hyear (by omega) (by omega) (by omega) (by omega) (by omega) (by omega)
    ?_ ht
  rw [hcivil]
  unfold civilOf
  rw [daysOfCivil_civilOfDays]
  unfold MS_PER_DAY at hms ⊢
  omega

/-- What is read is a time value. -/
theorem abs_le_of_parseISO {s : String} {t : ℤ} (h : parseISO s = some t) :
    |t| ≤ MAX_TIME_VALUE := by
  unfold parseISO at h
  simp only [Option.bind_eq_bind, Option.bind_eq_some_iff] at h
  obtain ⟨_, -, _, -, _, -, _, -, _, -, _, -, _, -, h⟩ := h
  split_ifs at h with hmax
  obtain rfl := Option.some.inj h
  exact hmax.2

example : toISOString 1784721600000 = "2026-07-22T12:00:00.000Z" := by decide +kernel

end FlashSale.Date
