import Mathlib.Data.List.Basic
import Mathlib.Data.List.Nodup

/-!
# Reading a growing list by pages

A list is read page by page at increasing offsets while new elements are put into it anywhere. Old
elements keep their order, so an element never moves to a smaller index: one that was there at the
start and was not read so far is still ahead (`mem_page_of_grows`). An element may be read twice, when
others were put before it.
-/

namespace FlashSale

namespace Paging

variable {α : Type}

/-- Page number `k`. -/
def page (l : List α) (size k : ℕ) : List α := (l.drop (k * size)).take size

/-- What stands among the first `n` of a list stands among the first `n` of a sublist that has it. -/
theorem mem_take_of_sublist {l l' : List α} (h : l.Sublist l') (hn : l'.Nodup) {a : α}
    (ha : a ∈ l) {n : ℕ} (ht : a ∈ l'.take n) : a ∈ l.take n := by
  induction h generalizing n with
  | slnil => cases ha
  | @cons l l' b h ih =>
    rw [List.nodup_cons] at hn
    cases n with
    | zero => rw [List.take_zero] at ht; cases ht
    | succ n =>
      rw [List.take_succ_cons] at ht
      rcases List.mem_cons.1 ht with rfl | ht
      · exact absurd (h.subset ha) hn.1
      · exact (List.take_sublist_take_left (Nat.le_succ n)).subset (ih hn.2 ha ht)
  | @cons_cons l l' b h ih =>
    rw [List.nodup_cons] at hn
    cases n with
    | zero => rw [List.take_zero] at ht; cases ht
    | succ n =>
      rw [List.take_succ_cons] at ht ⊢
      rcases List.mem_cons.1 ht with rfl | ht
      · exact List.mem_cons_self
      · rcases List.mem_cons.1 ha with rfl | ha
        · exact List.mem_cons_self
        · exact List.mem_cons_of_mem _ (ih hn.2 ha ht)

/-- The first `n` of a list have all that a filter leaves of it, if none of these stands behind. -/
theorem filter_take {l : List α} (hn : l.Nodup) {p : α → Bool} {n : ℕ}
    (h : ∀ a ∈ l, p a = true → a ∈ l.take n) : (l.take n).filter p = l.filter p := by
  have hrest : (l.drop n).filter p = [] := by
    rw [List.filter_eq_nil_iff]
    intro a ha hp
    have hsplit : (l.take n ++ l.drop n).Nodup := by rwa [List.take_append_drop]
    exact (List.nodup_append.1 hsplit).2.2 a (h a (List.mem_of_mem_drop ha) hp) a ha rfl
  conv_rhs => rw [← List.take_append_drop n l, List.filter_append, hrest, List.append_nil]

section

variable {L : ℕ → List α} {size : ℕ}

theorem mem_of_grows (hgrow : ∀ k, (L k).Sublist (L (k + 1))) {a : α} (ha : a ∈ L 0) (k : ℕ) :
    a ∈ L k := by
  induction k with
  | zero => exact ha
  | succ k ih => exact (hgrow k).subset ih

/-- After `k` pages, whatever stands before the offset was read, if it was there at the start. -/
theorem read_of_mem_take (hgrow : ∀ k, (L k).Sublist (L (k + 1))) (hnodup : ∀ k, (L k).Nodup)
    {a : α} (ha : a ∈ L 0) {k : ℕ} (ht : a ∈ (L k).take ((k + 1) * size)) :
    ∃ j ≤ k, a ∈ page (L j) size j := by
  induction k with
  | zero =>
    refine ⟨0, Nat.le_refl _, ?_⟩
    unfold page
    simpa using ht
  | succ k ih =>
    have hsplit : (k + 1 + 1) * size = (k + 1) * size + size := Nat.succ_mul _ _
    rw [hsplit, List.take_add] at ht
    rcases List.mem_append.1 ht with hbefore | hhere
    · -- it stood before the offset already when the last page was read
      have hold := mem_take_of_sublist (hgrow k) (hnodup (k + 1)) (mem_of_grows hgrow ha k) hbefore
      obtain ⟨j, hj, hread⟩ := ih hold
      exact ⟨j, by omega, hread⟩
    · exact ⟨k + 1, Nat.le_refl _, hhere⟩

/-- A scan that ends with a short page has read everything that was there at its start. -/
theorem mem_page_of_grows (hgrow : ∀ k, (L k).Sublist (L (k + 1))) (hnodup : ∀ k, (L k).Nodup)
    {n : ℕ} (hlast : (page (L n) size n).length < size) {a : α} (ha : a ∈ L 0) :
    ∃ k ≤ n, a ∈ page (L k) size k := by
  apply read_of_mem_take hgrow hnodup ha
  have hshort : (L n).length ≤ (n + 1) * size := by
    unfold page at hlast
    rw [List.length_take, List.length_drop] at hlast
    rw [Nat.succ_mul]
    omega
  rw [List.take_of_length_le hshort]
  exact mem_of_grows hgrow ha n

end

end Paging

end FlashSale
