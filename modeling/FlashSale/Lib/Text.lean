import Mathlib.Data.List.Basic
import Mathlib.Data.Nat.Digits.Defs

/-!
# Strings of scripts and validators

`indexOf`, `lastIndexOf` and `slice` are the first-match, last-match and substring operations
that Lua (`string.find`, `string.sub`) and JavaScript (`indexOf`, `lastIndexOf`, `slice`) share on
texts without multi-byte separators. `beforeFirst` is the idiom both languages use to read the
head of a separated value: the text before the first separator, or all of it.

`luaTostring` is Lua 5.1's conversion of a whole number to text (`%.14g`): exact below `10 ^ 14`,
fourteen significant digits and an exponent from there on.
-/

namespace FlashSale.Text

/-- Position of the first `c`. -/
def indexOf (c : Char) (s : String) : Option ℕ := s.toList.findIdx? (· == c)

/-- Position of the last `c`. -/
def lastIndexOf (c : Char) (s : String) : Option ℕ :=
  (s.toList.reverse.findIdx? (· == c)).map (s.toList.length - 1 - ·)

/-- The characters at positions `i, …, j - 1`. -/
def slice (s : String) (i j : ℕ) : String := String.ofList ((s.toList.drop i).take (j - i))

/-- The text before the first `c`, or the whole text when there is none. -/
def beforeFirst (c : Char) (s : String) : String :=
  match indexOf c s with
  | some i => slice s 0 i
  | none => s

theorem indexOf_eq_none {c : Char} {s : String} (h : c ∉ s.toList) : indexOf c s = none := by
  unfold indexOf
  rw [List.findIdx?_eq_none_iff]
  intro x hx
  have : x ≠ c := fun e => h (e ▸ hx)
  simpa using this

/-- The first separator of `a ++ c ++ b` is the written one when `a` has none. -/
theorem indexOf_append {c : Char} {a b : String} (h : c ∉ a.toList) :
    indexOf c (a ++ String.singleton c ++ b) = some a.toList.length := by
  have ha : a.toList.findIdx? (· == c) = none := indexOf_eq_none h
  unfold indexOf
  simp only [String.toList_append, String.toList_singleton, List.append_assoc,
    List.singleton_append]
  rw [List.findIdx?_append, ha, List.findIdx?_cons]
  simp

theorem beforeFirst_append {c : Char} {a b : String} (h : c ∉ a.toList) :
    beforeFirst c (a ++ String.singleton c ++ b) = a := by
  unfold beforeFirst
  rw [indexOf_append h]
  simp [slice]

/-- The last separator of `a ++ c ++ b` is the written one when `b` has none. -/
theorem lastIndexOf_append {c : Char} {a b : String} (h : c ∉ b.toList) :
    lastIndexOf c (a ++ String.singleton c ++ b) = some a.toList.length := by
  have hb : b.toList.reverse.findIdx? (· == c) = none := by
    rw [List.findIdx?_eq_none_iff]
    intro x hx
    have : x ≠ c := fun e => h (e ▸ List.mem_reverse.1 hx)
    simpa using this
  unfold lastIndexOf
  simp only [String.toList_append, String.toList_singleton, List.append_assoc,
    List.singleton_append, List.reverse_append, List.reverse_cons]
  rw [List.findIdx?_append, hb, List.findIdx?_cons]
  simp only [beq_self_eq_true, if_true, Option.map_some, Option.none_or, List.length_append,
    List.length_cons, List.length_reverse]
  refine congrArg some ?_
  omega

theorem slice_append_left (a : String) (c : Char) (b : String) :
    slice (a ++ String.singleton c ++ b) 0 a.toList.length = a := by
  simp [slice]

theorem slice_append_right (a : String) (c : Char) (b : String) :
    slice (a ++ String.singleton c ++ b) (a.toList.length + 1)
      (a ++ String.singleton c ++ b).toList.length = b := by
  unfold slice
  simp only [String.toList_append, String.toList_singleton, List.append_assoc,
    List.singleton_append]
  rw [← List.drop_drop, List.drop_left, List.drop_one, List.tail_cons, List.take_of_length_le,
    String.ofList_toList]
  simp only [List.length_append, List.length_cons]
  omega

/-- The significant digits of `n` in `%.14g`, rounded half to even, and the decimal exponent. -/
def round14 (n : ℕ) : ℕ × ℕ :=
  let d := (Nat.toDigits 10 n).length
  let k := d - 14
  let q := n / 10 ^ k
  let r := n % 10 ^ k
  let half := 10 ^ k / 2
  let q' := if half < r ∨ (r = half ∧ q % 2 = 1) then q + 1 else q
  if q' = 10 ^ 14 then (10 ^ 13, d) else (q', d - 1)

/-- Lua's `tostring` of a whole number. -/
def luaTostring (n : ℕ) : String :=
  if n < 10 ^ 14 then toString n
  else
    let (m, e) := round14 n
    let digits := (Nat.toDigits 10 m)
    let frac := ((digits.drop 1).reverse.dropWhile (· == '0')).reverse
    let mantissa := if frac.isEmpty then digits.take 1 else digits.take 1 ++ '.' :: frac
    String.ofList mantissa ++ "e+" ++ toString e

theorem luaTostring_of_lt {n : ℕ} (h : n < 10 ^ 14) : luaTostring n = toString n := by
  unfold luaTostring; rw [if_pos h]

end FlashSale.Text
