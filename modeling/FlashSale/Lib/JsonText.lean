import FlashSale.Lib.NumberText
import Mathlib.Data.List.Lex
import Mathlib.Data.List.Sort
import Mathlib.Tactic.IntervalCases

/-!
# JSON texts and their order

`stringify` is `JSON.stringify` of a value built of truth values, numbers, strings and arrays. A
value without infinite numbers is determined by its text, whatever follows it
(`stringify_append_inj`): the first character tells the kind of value, a string ends at the first
quote that is not escaped, a number at the first character that is not part of a numeral.

Texts are compared by their UTF-16 code units, as `<` and `sort` do. `sortBy` is the stable sort by
a key; lists whose elements have different keys sort to one list exactly when they are permutations
of each other (`sortBy_eq_iff`).
-/

namespace FlashSale

open Number

/-! ## Values -/

inductive Json where
  | bool (b : Bool)
  | number (x : JsNumber)
  | string (s : String)
  | array (items : List Json)

namespace Json

/-- One character between the quotes of a JSON string. -/
def escapeChar (c : Char) : List Char :=
  if c = '"' then ['\\', '"']
  else if c = '\\' then ['\\', '\\']
  else if c = '\x08' then ['\\', 'b']
  else if c = '\t' then ['\\', 't']
  else if c = '\n' then ['\\', 'n']
  else if c = '\x0c' then ['\\', 'f']
  else if c = '\r' then ['\\', 'r']
  else if c.toNat < 32 then
    ['\\', 'u', '0', '0', Nat.digitChar (c.toNat / 16), Nat.digitChar (c.toNat % 16)]
  else [c]

def quote (s : String) : List Char := '"' :: (s.toList.flatMap escapeChar ++ ['"'])

mutual

/-- `JSON.stringify(value)`. -/
def stringify : Json → List Char
  | .bool b => if b then "true".toList else "false".toList
  | .number (.finite q) => toText (.finite q)
  | .number _ => "null".toList
  | .string s => quote s
  | .array [] => ['[', ']']
  | .array (item :: items) => '[' :: (stringify item ++ stringifyRest items)

/-- The items of an array after the first one. -/
def stringifyRest : List Json → List Char
  | [] => [']']
  | item :: items => ',' :: (stringify item ++ stringifyRest items)

end

/-! ## Strings -/

/-- The value of a lower-case hexadecimal digit. -/
def hexValue (c : Char) : ℕ := if c.isDigit then c.toNat - 48 else c.toNat - 87

/-- Reads one character between the quotes. -/
def unescapeChar : List Char → Option (Char × List Char)
  | '\\' :: 'b' :: cs => some ('\x08', cs)
  | '\\' :: 't' :: cs => some ('\t', cs)
  | '\\' :: 'n' :: cs => some ('\n', cs)
  | '\\' :: 'f' :: cs => some ('\x0c', cs)
  | '\\' :: 'r' :: cs => some ('\r', cs)
  | '\\' :: 'u' :: _ :: _ :: a :: b :: cs => some (Char.ofNat (16 * hexValue a + hexValue b), cs)
  | '\\' :: c :: cs => some (c, cs)
  | '"' :: _ => none
  | c :: cs => some (c, cs)
  | [] => none

theorem unescapeChar_escapeChar (c : Char) (rest : List Char) :
    unescapeChar (escapeChar c ++ rest) = some (c, rest) := by
  unfold escapeChar
  split_ifs with hquote hslash hb ht hn hf hr hcontrol
  any_goals subst c; rfl
  · have hc : c = Char.ofNat c.toNat := (Char.ofNat_toNat c).symm
    generalize c.toNat = n at hc hcontrol
    subst hc
    interval_cases n <;> rfl
  · simp only [List.singleton_append]
    unfold unescapeChar
    split <;> simp_all

theorem escapeChar_append_inj {c d : Char} {x y : List Char}
    (h : escapeChar c ++ x = escapeChar d ++ y) : c = d ∧ x = y := by
  have hread := unescapeChar_escapeChar c x
  rw [h, unescapeChar_escapeChar] at hread
  simp only [Option.some.injEq, Prod.mk.injEq] at hread
  exact ⟨hread.1.symm, hread.2.symm⟩

theorem escapeChar_append_ne_quote {c : Char} {x y : List Char} : escapeChar c ++ x ≠ '"' :: y := by
  intro h
  have hread := unescapeChar_escapeChar c x
  rw [h] at hread
  cases hread

theorem escape_append_inj {cs ds x y : List Char}
    (h : cs.flatMap escapeChar ++ '"' :: x = ds.flatMap escapeChar ++ '"' :: y) :
    cs = ds ∧ x = y := by
  induction cs generalizing ds with
  | nil =>
    cases ds with
    | nil => exact ⟨rfl, List.tail_eq_of_cons_eq h⟩
    | cons d ds =>
      rw [List.flatMap_cons, List.append_assoc] at h
      exact absurd h.symm escapeChar_append_ne_quote
  | cons c cs ih =>
    rw [List.flatMap_cons, List.append_assoc] at h
    cases ds with
    | nil => exact absurd h escapeChar_append_ne_quote
    | cons d ds =>
      rw [List.flatMap_cons, List.append_assoc] at h
      obtain ⟨rfl, hrest⟩ := escapeChar_append_inj h
      obtain ⟨rfl, hxy⟩ := ih hrest
      exact ⟨rfl, hxy⟩

theorem quote_append_inj {s t : String} {x y : List Char} (h : quote s ++ x = quote t ++ y) :
    s = t ∧ x = y := by
  unfold quote at h
  simp only [List.cons_append, List.append_assoc, List.cons.injEq, true_and,
    List.nil_append] at h
  obtain ⟨hst, hxy⟩ := escape_append_inj h
  exact ⟨String.toList_inj.1 hst, hxy⟩

/-! ## Values are determined by their text -/

mutual

/-- Every number of the value is finite. -/
def Finite : Json → Prop
  | .number x => x.IsFinite
  | .array items => FiniteItems items
  | _ => True

def FiniteItems : List Json → Prop
  | [] => True
  | item :: items => item.Finite ∧ FiniteItems items

end

theorem finiteItems_iff {items : List Json} : FiniteItems items ↔ ∀ item ∈ items, item.Finite := by
  induction items with
  | nil => simp [FiniteItems]
  | cons item items ih => simp [FiniteItems, ih]

/-- What follows a number does not continue it. -/
def Stops (rest : List Char) : Prop := ∀ c ∈ rest.head?, isNumeral c = false

theorem stops_stringifyRest (items : List Json) (rest : List Char) :
    Stops (stringifyRest items ++ rest) := by
  cases items <;> intro c hc <;> simp only [stringifyRest, List.cons_append, List.head?_cons,
    Option.mem_some_iff] at hc <;> rw [← hc] <;> decide

theorem numeral_append_inj {cs ds x y : List Char} (hcs : ∀ c ∈ cs, isNumeral c = true)
    (hds : ∀ c ∈ ds, isNumeral c = true) (hx : Stops x) (hy : Stops y) (h : cs ++ x = ds ++ y) :
    cs = ds ∧ x = y := by
  have htake : ∀ {z : List Char}, Stops z → z.takeWhile isNumeral = [] := by
    intro z hz
    cases z with
    | nil => rfl
    | cons c z => rw [List.takeWhile_cons, hz c rfl]; rfl
  have heq : cs = ds := by
    have := congrArg (List.takeWhile isNumeral) h
    rwa [List.takeWhile_append_of_pos hcs, List.takeWhile_append_of_pos hds, htake hx, htake hy,
      List.append_nil, List.append_nil] at this
  subst heq
  exact ⟨rfl, List.append_cancel_left h⟩

inductive Kind where
  | bool | number | string | array
  deriving DecidableEq

def kind : Json → Kind
  | .bool _ => .bool
  | .number _ => .number
  | .string _ => .string
  | .array _ => .array

/-- The kind of value whose text starts with the character. -/
def kindOf (c : Char) : Option Kind :=
  if c = 't' ∨ c = 'f' then some .bool
  else if c = '"' then some .string
  else if c = '[' then some .array
  else if isNumeral c then some .number
  else none

theorem kindOf_stringify {v : Json} (hv : v.Finite) :
    ∃ c cs, stringify v = c :: cs ∧ kindOf c = some v.kind := by
  cases v with
  | bool b => cases b <;> exact ⟨_, _, rfl, by decide⟩
  | string s => exact ⟨'"', _, rfl, rfl⟩
  | array items => cases items <;> exact ⟨'[', _, rfl, rfl⟩
  | number x =>
    cases x with
    | infinite negative => exact hv.elim
    | nan => exact hv.elim
    | finite q =>
      obtain ⟨c, cs, hcs⟩ := List.exists_cons_of_ne_nil (toText_ne_nil q)
      refine ⟨c, cs, hcs, ?_⟩
      have hc : isNumeral c = true :=
        isNumeral_toText (q := q) (by rw [hcs]; exact List.mem_cons_self)
      have hne : ∀ d, isNumeral d = false → c ≠ d := by
        rintro d hd rfl
        rw [hd] at hc
        cases hc
      unfold kindOf
      rw [if_neg (by rintro (h | h) <;> exact hne _ (by decide) h), if_neg (hne _ (by decide)),
        if_neg (hne _ (by decide)), if_pos hc]
      rfl

/-- Texts that start alike are of values of one kind. -/
theorem kind_eq {v w : Json} {x y : List Char} (hv : v.Finite) (hw : w.Finite)
    (h : stringify v ++ x = stringify w ++ y) : v.kind = w.kind := by
  obtain ⟨c, cs, hcs, hc⟩ := kindOf_stringify hv
  obtain ⟨d, ds, hds, hd⟩ := kindOf_stringify hw
  rw [hcs, hds, List.cons_append, List.cons_append] at h
  rw [List.head_eq_of_cons_eq h, hd] at hc
  exact (Option.some.inj hc).symm

/-- No value's text starts with a closing bracket. -/
theorem stringify_append_ne {v : Json} {x y : List Char} (hv : v.Finite) :
    stringify v ++ x ≠ ']' :: y := by
  intro h
  obtain ⟨c, cs, hcs, hc⟩ := kindOf_stringify hv
  rw [hcs, List.cons_append] at h
  rw [List.head_eq_of_cons_eq h] at hc
  exact absurd hc (by simp [kindOf, isNumeral])

theorem scalar_append_inj {v w : Json} {x y : List Char} (hv : v.Finite) (hw : w.Finite)
    (hx : Stops x) (hy : Stops y) (hscalar : v.kind ≠ .array)
    (h : stringify v ++ x = stringify w ++ y) : v = w ∧ x = y := by
  have hkind := kind_eq hv hw h
  cases v with
  | bool a =>
    cases w with
    | bool b => cases a <;> cases b <;> simp [stringify] at h <;> simp [h]
    | _ => cases hkind
  | string s =>
    cases w with
    | string t =>
      obtain ⟨rfl, hxy⟩ := quote_append_inj h
      exact ⟨rfl, hxy⟩
    | _ => cases hkind
  | number a =>
    cases w with
    | number b =>
      cases a with
      | finite p =>
        cases b with
        | finite q =>
          obtain ⟨htext, h⟩ := numeral_append_inj (fun c hc => isNumeral_toText hc)
            (fun c hc => isNumeral_toText hc) hx hy h
          exact ⟨by rw [toText_injective hv hw htext], h⟩
        | _ => exact hw.elim
      | _ => exact hv.elim
    | _ => cases hkind
  | array items => exact absurd rfl hscalar

mutual

/-- **A text and what follows it determine the value.** -/
theorem stringify_append_inj : ∀ (v w : Json) {x y : List Char}, v.Finite → w.Finite → Stops x →
    Stops y → stringify v ++ x = stringify w ++ y → v = w ∧ x = y
  | .array [], w, x, y, hv, hw, _, _, h => by
    have hkind := kind_eq hv hw h
    match w with
    | .array [] => exact ⟨rfl, by simpa [stringify] using h⟩
    | .array (b :: bs) =>
      simp only [stringify, List.cons_append, List.cons.injEq, true_and, List.append_assoc,
        List.nil_append] at h
      exact absurd h.symm (stringify_append_ne hw.1)
  | .array (a :: as), w, x, y, hv, hw, _, _, h => by
    have hkind := kind_eq hv hw h
    match w with
    | .array [] =>
      simp only [stringify, List.cons_append, List.cons.injEq, true_and, List.append_assoc,
        List.nil_append] at h
      exact absurd h (stringify_append_ne hv.1)
    | .array (b :: bs) =>
      simp only [stringify, List.cons_append, List.cons.injEq, true_and, List.append_assoc] at h
      obtain ⟨rfl, hrest⟩ := stringify_append_inj a b hv.1 hw.1 (stops_stringifyRest as x)
        (stops_stringifyRest bs y) h
      obtain ⟨rfl, hxy⟩ := stringifyRest_append_inj as bs hv.2 hw.2 hrest
      exact ⟨rfl, hxy⟩
  | .bool _, _, _, _, hv, hw, hx, hy, h => scalar_append_inj hv hw hx hy (by simp [kind]) h
  | .number _, _, _, _, hv, hw, hx, hy, h => scalar_append_inj hv hw hx hy (by simp [kind]) h
  | .string _, _, _, _, hv, hw, hx, hy, h => scalar_append_inj hv hw hx hy (by simp [kind]) h

theorem stringifyRest_append_inj : ∀ (as bs : List Json) {x y : List Char}, FiniteItems as →
    FiniteItems bs → stringifyRest as ++ x = stringifyRest bs ++ y → as = bs ∧ x = y
  | [], [], _, _, _, _, h => ⟨rfl, by simpa [stringifyRest] using h⟩
  | [], _ :: _, _, _, _, _, h => by simp [stringifyRest] at h
  | _ :: _, [], _, _, _, _, h => by simp [stringifyRest] at h
  | a :: as, b :: bs, x, y, ha, hb, h => by
    simp only [stringifyRest, List.cons_append, List.cons.injEq, true_and, List.append_assoc] at h
    obtain ⟨rfl, hrest⟩ := stringify_append_inj a b ha.1 hb.1 (stops_stringifyRest as x)
      (stops_stringifyRest bs y) h
    obtain ⟨rfl, hxy⟩ := stringifyRest_append_inj as bs ha.2 hb.2 hrest
    exact ⟨rfl, hxy⟩

end

theorem stringify_injective {v w : Json} (hv : v.Finite) (hw : w.Finite)
    (h : stringify v = stringify w) : v = w := by
  have hstops : Stops [] := fun c hc => by cases hc
  exact (stringify_append_inj v w hv hw hstops hstops (by rw [h])).1

end Json

/-! ## The order of texts -/

/-- The UTF-16 code units of a character. -/
def charUnits (c : Char) : List ℕ :=
  if c.toNat < 0x10000 then [c.toNat]
  else [0xD800 + (c.toNat - 0x10000) / 0x400, 0xDC00 + (c.toNat - 0x10000) % 0x400]

/-- The UTF-16 code units of a text; `<` compares texts by them. -/
def codeUnits (text : List Char) : List ℕ := text.flatMap charUnits

theorem charUnits_append_inj {c d : Char} {x y : List ℕ} (h : charUnits c ++ x = charUnits d ++ y) :
    c = d ∧ x = y := by
  have hchar : c.toNat = d.toNat → c = d := fun e => Char.toNat_inj.1 e
  -- no character stands in the range of the surrogates
  have hc : c.toNat < 0xD800 ∨ 0xDFFF < c.toNat := c.valid.imp id And.left
  have hd : d.toNat < 0xD800 ∨ 0xDFFF < d.toNat := d.valid.imp id And.left
  have hctop : c.toNat < 0x110000 := by
    rcases c.valid with hv | hv
    · exact lt_trans hv (by decide)
    · exact hv.2
  have hdtop : d.toNat < 0x110000 := by
    rcases d.valid with hv | hv
    · exact lt_trans hv (by decide)
    · exact hv.2
  unfold charUnits at h
  split_ifs at h <;> simp only [List.cons_append, List.nil_append, List.cons.injEq] at h
  · exact ⟨hchar h.1, h.2⟩
  · omega
  · omega
  · exact ⟨hchar (by omega), h.2.2⟩

theorem charUnits_ne_nil (c : Char) : charUnits c ≠ [] := by
  unfold charUnits
  split <;> simp

theorem codeUnits_injective {s t : List Char} (h : codeUnits s = codeUnits t) : s = t := by
  unfold codeUnits at h
  induction s generalizing t with
  | nil =>
    cases t with
    | nil => rfl
    | cons d t =>
      rw [List.flatMap_cons] at h
      exact absurd (List.append_eq_nil_iff.1 h.symm).1 (charUnits_ne_nil d)
  | cons c s ih =>
    rw [List.flatMap_cons] at h
    cases t with
    | nil => exact absurd (List.append_eq_nil_iff.1 h).1 (charUnits_ne_nil c)
    | cons d t =>
      rw [List.flatMap_cons] at h
      obtain ⟨rfl, hrest⟩ := charUnits_append_inj h
      rw [ih hrest]

section

variable {α β : Type} [LinearOrder β]

/-- The stable sort by a key. -/
def sortBy (key : α → β) (l : List α) : List α := l.insertionSort fun a b => key a ≤ key b

theorem sortBy_perm (key : α → β) (l : List α) : (sortBy key l).Perm l := List.perm_insertionSort _ l

theorem sortBy_pairwise (key : α → β) (l : List α) :
    (sortBy key l).Pairwise fun a b => key a ≤ key b := by
  have : Std.Total fun a b : α => key a ≤ key b := ⟨fun a b => le_total _ _⟩
  have : IsTrans α fun a b : α => key a ≤ key b := ⟨fun a b c => le_trans⟩
  exact List.pairwise_insertionSort _ l

/-- Lists whose elements the key tells apart sort to one list exactly when they are permutations of
each other. -/
theorem sortBy_eq_iff {key : α → β} {l l' : List α}
    (hkey : ∀ a ∈ l, ∀ b ∈ l', key a = key b → a = b) :
    sortBy key l = sortBy key l' ↔ l.Perm l' := by
  constructor
  · intro h
    exact (sortBy_perm key l).symm.trans (h ▸ sortBy_perm key l')
  · intro h
    refine List.Perm.eq_of_pairwise ?_ (sortBy_pairwise key l) (sortBy_pairwise key l')
      (((sortBy_perm key l).trans h).trans (sortBy_perm key l').symm)
    intro a b ha hb hab hba
    exact hkey a ((sortBy_perm key l).mem_iff.1 ha) b ((sortBy_perm key l').mem_iff.1 hb)
      (le_antisymm hab hba)

end

end FlashSale
