import Mathlib.Data.List.Basic
import Mathlib.Logic.Function.Iterate
import Mathlib.Tactic.NormNum

/-!
# A window that rotates over a list

A sweep looks at `w` consecutive items from an offset on and removes those that can be removed. After
a removal the offset stays where it is, or moves back to the last item left; without one it moves
past the window, and from the end to the start.

No item that can be removed waits forever: a sweep that removes nothing moves on, so after at most
`n / w + 1` of them the offset is back at the start and after as many again every item has been
looked at. `iterate_sweep` bounds the number of sweeps by `n * (2 * (n / w + 1))` for `n` items.
-/

namespace FlashSale

/-- The items, and the offset the next sweep starts from. -/
structure Ring (α : Type) where
  items : List α
  offset : ℕ

namespace Ring

variable {α : Type}

/-- The offset after a sweep of `scanned` items from `start` on. -/
def next (start scanned removed left : ℕ) : ℕ :=
  if left = 0 then 0
  else if 0 < removed then min start (left - 1)
  else (start + scanned) % left

/-- The first item a sweep looks at. -/
def start (r : Ring α) : ℕ := r.offset % r.items.length

/-- The items a sweep looks at. -/
def page (w : ℕ) (r : Ring α) : List α := (r.items.drop r.start).take w

/-- One sweep; `p` are the items it can remove. -/
def sweep (w : ℕ) (p : α → Bool) (r : Ring α) : Ring α :=
  if r.items = [] then ⟨[], 0⟩
  else
    let items := r.items.take r.start ++ (r.page w).filter (fun x => !p x) ++
      r.items.drop (r.start + w)
    ⟨items, next r.start (r.page w).length ((r.page w).countP p) items.length⟩

/-- How many sweeps are enough for `n` items. -/
def bound (w n : ℕ) : ℕ := n * (2 * (n / w + 1))

section

variable {w : ℕ} {p : α → Bool} {r : Ring α}

/-- The list is what is before the window, the window and what is behind it. -/
theorem items_eq (w : ℕ) (r : Ring α) :
    r.items = r.items.take r.start ++ r.page w ++ r.items.drop (r.start + w) := by
  unfold page
  rw [List.append_assoc, ← List.drop_drop, List.take_append_drop, List.take_append_drop]

theorem start_lt (h : r.items ≠ []) : r.start < r.items.length :=
  Nat.mod_lt _ (List.length_pos_of_ne_nil h)

theorem length_page (w : ℕ) (r : Ring α) :
    (r.page w).length = min w (r.items.length - r.start) := by
  unfold page
  rw [List.length_take, List.length_drop]

/-! ## What a sweep keeps -/

theorem sublist_sweep (w : ℕ) (p : α → Bool) (r : Ring α) :
    (r.sweep w p).items.Sublist r.items := by
  unfold sweep
  split_ifs with h
  · exact List.nil_sublist _
  · have hpage : ((r.page w).filter fun x => !p x).Sublist (r.page w) := List.filter_sublist
    have hall := ((List.Sublist.refl (r.items.take r.start)).append hpage).append
      (List.Sublist.refl (r.items.drop (r.start + w)))
    rwa [← items_eq w r] at hall

/-- What cannot be removed stays, in its order. -/
theorem filter_sweep (w : ℕ) (p : α → Bool) (r : Ring α) :
    (r.sweep w p).items.filter (fun x => !p x) = r.items.filter fun x => !p x := by
  unfold sweep
  split_ifs with h
  · rw [h]
  · show List.filter _ (_ ++ _ ++ _) = _
    rw [List.filter_append, List.filter_append, List.filter_filter]
    conv_rhs => rw [items_eq w r, List.filter_append, List.filter_append]
    simp only [Bool.and_self]

/-- A sweep of a window without anything to remove moves on. -/
theorem sweep_of_clean (h : r.items ≠ []) (hc : ∀ x ∈ r.page w, p x = false) :
    r.sweep w p = ⟨r.items, (r.start + (r.page w).length) % r.items.length⟩ := by
  have hfilter : (r.page w).filter (fun x => !p x) = r.page w := by
    rw [List.filter_eq_self]
    intro x hx
    rw [hc x hx]
    rfl
  have hcount : (r.page w).countP p = 0 := by
    rw [List.countP_eq_zero]
    intro x hx
    simp [hc x hx]
  unfold sweep
  rw [if_neg h]
  dsimp only
  rw [hfilter, hcount, ← items_eq w r]
  unfold next
  rw [if_neg (by simpa using h), if_neg (by omega)]

/-- A sweep of a window with something to remove shortens the list. -/
theorem length_sweep_lt (h : r.items ≠ []) (hc : ¬ ∀ x ∈ r.page w, p x = false) :
    (r.sweep w p).items.length < r.items.length := by
  have hlt : ((r.page w).filter fun x => !p x).length < (r.page w).length := by
    rw [List.length_filter_lt_length_iff_exists]
    simpa using hc
  have hlen := congrArg List.length (items_eq w r)
  unfold sweep
  rw [if_neg h]
  show (_ ++ _ ++ _ : List α).length < _
  simp only [List.length_append] at hlen ⊢
  omega

/-! ## Runs -/

theorem sublist_iterate (w : ℕ) (p : α → Bool) (r : Ring α) (k : ℕ) :
    ((sweep w p)^[k] r).items.Sublist r.items := by
  induction k with
  | zero => exact List.Sublist.refl _
  | succ k ih =>
    rw [Function.iterate_succ_apply']
    exact (sublist_sweep w p _).trans ih

theorem filter_iterate (w : ℕ) (p : α → Bool) (r : Ring α) (k : ℕ) :
    ((sweep w p)^[k] r).items.filter (fun x => !p x) = r.items.filter fun x => !p x := by
  induction k with
  | zero => rfl
  | succ k ih => rw [Function.iterate_succ_apply', filter_sweep, ih]

/-- Some sweep removes something, or the offset comes round to the start past items that stay. The
induction is on the distance to the end of the list. -/
theorem sweeps_to_end (hw : 0 < w) (h : r.items ≠ []) :
    ∃ k ≤ (r.items.length - r.start) / w + 1,
      ((sweep w p)^[k] r).items.length < r.items.length ∨
      (sweep w p)^[k] r = ⟨r.items, 0⟩ ∧ ∀ x ∈ r.items.drop r.start, p x = false := by
  induction hd : r.items.length - r.start using Nat.strong_induction_on generalizing r with
  | _ d ih =>
    have hs := start_lt h
    by_cases hc : ∀ x ∈ r.page w, p x = false
    · have hstep := sweep_of_clean h hc
      rw [length_page] at hstep
      by_cases hend : r.items.length - r.start ≤ w
      · refine ⟨1, Nat.le_add_left 1 _, .inr ⟨?_, ?_⟩⟩
        · rw [Function.iterate_one, hstep, min_eq_right hend,
            show r.start + (r.items.length - r.start) = r.items.length by omega, Nat.mod_self]
        · intro x hx
          apply hc
          unfold page
          rwa [List.take_of_length_le (by rw [List.length_drop]; omega)]
      · rw [min_eq_left (by omega)] at hstep
        have hstart : start ⟨r.items, (r.start + w) % r.items.length⟩ = r.start + w := by
          show (r.start + w) % r.items.length % r.items.length = _
          rw [Nat.mod_mod, Nat.mod_eq_of_lt (by omega)]
        obtain ⟨k, hk, hrun⟩ := ih (r.items.length - (r.start + w)) (by omega)
          (r := ⟨r.items, (r.start + w) % r.items.length⟩) h (by rw [hstart])
        rw [hstart] at hrun
        have hdiv : (r.items.length - (r.start + w)) / w + 1 = d / w := by
          rw [← Nat.sub_sub, hd, ← Nat.div_eq_sub_div hw (by omega)]
        refine ⟨k + 1, by omega, ?_⟩
        rw [Function.iterate_succ_apply, hstep]
        rcases hrun with hlt | ⟨hrun, hclean⟩
        · exact .inl hlt
        · refine .inr ⟨hrun, fun x hx => ?_⟩
          rw [← List.take_append_drop w (r.items.drop r.start), List.drop_drop] at hx
          rcases List.mem_append.1 hx with hx | hx
          · exact hc x hx
          · exact hclean x hx
    · exact ⟨1, Nat.le_add_left 1 _, .inl (length_sweep_lt h hc)⟩

/-- As long as something can be removed, some sweep within two rounds does. -/
theorem sweeps_remove (hw : 0 < w) {x : α} (hx : x ∈ r.items) (hp : p x = true) :
    ∃ k ≤ 2 * (r.items.length / w + 1),
      ((sweep w p)^[k] r).items.length < r.items.length := by
  have h : r.items ≠ [] := List.ne_nil_of_mem hx
  have hle : (r.items.length - r.start) / w ≤ r.items.length / w :=
    Nat.div_le_div_right (Nat.sub_le _ _)
  obtain ⟨k, hk, hlt | ⟨hrun, -⟩⟩ := sweeps_to_end (p := p) hw h
  · exact ⟨k, by omega, hlt⟩
  · -- the second round starts at the first item
    have hstart : start (⟨r.items, 0⟩ : Ring α) = 0 := Nat.zero_mod _
    obtain ⟨k', hk', hround⟩ := sweeps_to_end (p := p) (r := ⟨r.items, 0⟩) hw h
    rw [hstart] at hk' hround
    simp only [Nat.sub_zero, List.drop_zero] at hk' hround
    rcases hround with hlt | ⟨-, hclean⟩
    · refine ⟨k' + k, by omega, ?_⟩
      rw [Function.iterate_add_apply, hrun]
      exact hlt
    · rw [hclean x hx] at hp
      cases hp

theorem bound_mono {w m n : ℕ} (h : m ≤ n) : bound w m ≤ bound w n := by
  unfold bound
  have hdiv : m / w ≤ n / w := Nat.div_le_div_right h
  exact Nat.mul_le_mul h (by omega)

theorem sweeps_clean (hw : 0 < w) :
    ∃ k ≤ bound w r.items.length, ∀ x ∈ ((sweep w p)^[k] r).items, p x = false := by
  induction hn : r.items.length using Nat.strong_induction_on generalizing r with
  | _ n ih =>
    by_cases hclean : ∀ x ∈ r.items, p x = false
    · exact ⟨0, Nat.zero_le _, hclean⟩
    · simp only [not_forall, Bool.not_eq_false] at hclean
      obtain ⟨x, hx, hp⟩ := hclean
      obtain ⟨k, hk, hlt⟩ := sweeps_remove hw hx hp
      rw [hn] at hk hlt
      obtain ⟨k', hk', hclean⟩ := ih _ hlt rfl
      refine ⟨k' + k, ?_, ?_⟩
      · have hle : bound w ((sweep w p)^[k] r).items.length ≤ bound w (n - 1) :=
          bound_mono (by omega)
        have hdiv : (n - 1) / w ≤ n / w := Nat.div_le_div_right (Nat.sub_le _ _)
        have hrounds : bound w (n - 1) ≤ (n - 1) * (2 * (n / w + 1)) :=
          Nat.mul_le_mul (le_refl _) (by omega)
        have hsplit : bound w n = (n - 1) * (2 * (n / w + 1)) + 2 * (n / w + 1) := by
          obtain ⟨m, rfl⟩ : ∃ m, n = m + 1 := ⟨n - 1, by omega⟩
          unfold bound
          rw [Nat.add_sub_cancel, Nat.succ_mul]
        omega
      · rw [Function.iterate_add_apply]
        exact hclean

/-- **No starvation.** After enough sweeps exactly the items that cannot be removed are left, in
their order. -/
theorem iterate_sweep (hw : 0 < w) {k : ℕ} (hk : bound w r.items.length ≤ k) :
    ((sweep w p)^[k] r).items = r.items.filter fun x => !p x := by
  obtain ⟨k₀, hk₀, hclean⟩ := sweeps_clean (r := r) (p := p) hw
  have hstay : ∀ x ∈ ((sweep w p)^[k] r).items, p x = false := by
    intro x hx
    rw [show k = (k - k₀) + k₀ by omega, Function.iterate_add_apply] at hx
    exact hclean x ((sublist_iterate w p _ _).subset hx)
  rw [← filter_iterate w p r k, eq_comm, List.filter_eq_self]
  intro x hx
  rw [hstay x hx]
  rfl

end

end Ring

end FlashSale
