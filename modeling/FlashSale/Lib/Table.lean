import Mathlib.Algebra.GroupWithZero.Nat
import Mathlib.Data.List.Basic

/-!
# Tables

A list read by index, which grows at its end and whose entries are changed in place. Each lemma says
where an entry of the new table comes from, or what has become of an entry of the old one.
-/

namespace FlashSale

namespace Table

variable {α : Type} {l : List α} {a b : α} {i j : ℕ}

theorem getElem?_concat_cases (h : (l ++ [a])[i]? = some b) :
    l[i]? = some b ∨ i = l.length ∧ b = a := by
  rcases Nat.lt_trichotomy i l.length with hlt | rfl | hgt
  · rw [List.getElem?_append_left hlt] at h
    exact .inl h
  · rw [List.getElem?_concat_length] at h
    exact .inr ⟨rfl, (Option.some.inj h).symm⟩
  · rw [List.getElem?_eq_none (by simp; omega)] at h
    cases h

theorem getElem?_concat_of_some (h : l[i]? = some b) (a : α) : (l ++ [a])[i]? = some b := by
  rw [List.getElem?_append_left (List.getElem?_eq_some_iff.1 h).1, h]

theorem lt_length (h : l[i]? = some b) : i < l.length := (List.getElem?_eq_some_iff.1 h).1

theorem getElem?_modify_cases {f : α → α} (h : (l.modify i f)[j]? = some b) :
    (i = j ∧ ∃ a, l[j]? = some a ∧ b = f a) ∨ (i ≠ j ∧ l[j]? = some b) := by
  rw [List.getElem?_modify] at h
  by_cases hij : i = j
  · obtain ⟨a, ha, hf⟩ := Option.map_eq_some_iff.1 h
    rw [if_pos hij] at hf
    exact .inl ⟨hij, a, ha, hf.symm⟩
  · simp only [if_neg hij] at h
    exact .inr ⟨hij, by simpa using h⟩

theorem getElem?_modify_of_some {f : α → α} (h : l[j]? = some a) :
    (l.modify i f)[j]? = some (if i = j then f a else a) := by
  rw [List.getElem?_modify, h]
  split_ifs <;> rfl

/-- A change of a known entry. -/
theorem modify_of_some {f : α → α} (h : l[i]? = some a) :
    l.modify i f = l.modify i fun _ => f a := by
  refine List.ext_getElem? fun j => ?_
  rw [List.getElem?_modify, List.getElem?_modify]
  by_cases hij : i = j
  · subst hij
    rw [h]
    rfl
  · simp only [if_neg hij]

/-- A change that leaves its entry as it is. -/
theorem modify_eq_self {f : α → α} (h : ∀ a, l[i]? = some a → f a = a) : l.modify i f = l := by
  refine List.ext_getElem? fun j => ?_
  rw [List.getElem?_modify]
  by_cases hij : i = j
  · subst hij
    cases hi : l[i]? with
    | none => rfl
    | some a => simp [h a hi]
  · simp only [if_neg hij]
    cases l[j]? <;> rfl

/-- A change of an old entry does not meet a new one. -/
theorem modify_concat {f : α → α} (h : i < l.length) (a : α) :
    (l ++ [a]).modify i f = l.modify i f ++ [a] := by
  rw [List.modify_eq_take_cons_drop (by rw [List.length_append]; omega),
    List.modify_eq_take_cons_drop h, List.getElem_append_left h,
    List.take_append_of_le_length (Nat.le_of_lt h), List.drop_append_of_le_length h]
  simp

/-- A sum over the table when one entry changes. -/
theorem sum_map_modify (w : α → ℕ) {f : α → α} (h : l[i]? = some a) :
    ((l.modify i f).map w).sum + w a = (l.map w).sum + w (f a) := by
  induction l generalizing i with
  | nil => cases h
  | cons c l ih =>
    cases i with
    | zero =>
      obtain rfl := Option.some.inj h
      simp only [List.modify_zero_cons, List.map_cons, List.sum_cons]
      omega
    | succ i =>
      have hrest := ih (i := i) h
      simp only [List.modify_succ_cons, List.map_cons, List.sum_cons]
      omega

end Table

end FlashSale
