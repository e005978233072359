import Mathlib.Data.Set.Card

/-!
# Allotments

An allotment has a number of places and a table of who holds one, with the ticket each holder has.
Places are granted to those who hold none and revoked from those who hold one; `free` counts what is
left.
-/

namespace FlashSale

/-- A table of holders. The number of places may be less than that of holders. -/
structure Allotment (α τ : Type) where
  places : ℤ
  held : α → Option τ
  finite : {a | held a ≠ none}.Finite

namespace Allotment

variable {α τ : Type} {A : Allotment α τ} {a b : α} {x : τ}

/-- No places and nobody to hold one. -/
def empty (α τ : Type) : Allotment α τ := ⟨0, fun _ => none, by simp⟩

/-- Who holds a place. -/
def holders (A : Allotment α τ) : Set α := {a | A.held a ≠ none}

/-- How many hold a place. -/
noncomputable def size (A : Allotment α τ) : ℕ := A.holders.ncard

/-- The places nobody holds; fewer than none when more are held than there are. -/
noncomputable def free (A : Allotment α τ) : ℤ := A.places - A.size

/-- Another number of places, with the same holders. -/
def resize (A : Allotment α τ) (places : ℤ) : Allotment α τ := { A with places }

theorem mem_holders : a ∈ A.holders ↔ A.held a ≠ none := Iff.rfl

@[simp] theorem places_empty : (empty α τ).places = 0 := rfl
@[simp] theorem held_empty : (empty α τ).held a = none := rfl
@[simp] theorem held_resize (n : ℤ) : (A.resize n).held = A.held := rfl
@[simp] theorem free_resize (n : ℤ) : (A.resize n).free = n - A.size := rfl

@[simp] theorem size_empty : (empty α τ).size = 0 := by
  unfold size holders
  simp [empty]

@[simp] theorem free_empty : (empty α τ).free = 0 := by
  unfold free
  simp

section

variable [DecidableEq α]

theorem holders_update (held : α → Option τ) (a : α) (x : Option τ) :
    {b | Function.update held a x b ≠ none} ⊆ insert a {b | held b ≠ none} := by
  intro b hb
  by_cases e : b = a
  · exact .inl e
  · refine .inr ?_
    rw [Set.mem_ofPred_eq, Function.update_of_ne e] at hb
    exact hb

/-- `a` holds a place, and `x` is kept for it. -/
def grant (A : Allotment α τ) (a : α) (x : τ) : Allotment α τ where
  places := A.places
  held := Function.update A.held a (some x)
  finite := (A.finite.insert a).subset (holders_update A.held a (some x))

/-- `a` holds no place. -/
def revoke (A : Allotment α τ) (a : α) : Allotment α τ where
  places := A.places
  held := Function.update A.held a none
  finite := (A.finite.insert a).subset (holders_update A.held a none)

@[simp] theorem places_grant : (A.grant a x).places = A.places := rfl
@[simp] theorem places_revoke : (A.revoke a).places = A.places := rfl

theorem held_grant (A : Allotment α τ) (a b : α) (x : τ) :
    (A.grant a x).held b = if b = a then some x else A.held b := Function.update_apply ..

theorem held_revoke (A : Allotment α τ) (a b : α) :
    (A.revoke a).held b = if b = a then none else A.held b := Function.update_apply ..

theorem holders_grant : (A.grant a x).holders = insert a A.holders := by
  ext b
  rw [mem_holders, held_grant, Set.mem_insert_iff, mem_holders]
  by_cases e : b = a
  · simp [e]
  · simp [e]

/-- A grant to one who holds nothing takes a place. -/
theorem size_grant (h : A.held a = none) : (A.grant a x).size = A.size + 1 := by
  unfold size
  rw [holders_grant]
  exact Set.ncard_insert_of_notMem (by rw [mem_holders, h]; simp) A.finite

theorem holders_revoke : (A.revoke a).holders = A.holders \ {a} := by
  ext b
  rw [mem_holders, held_revoke, Set.mem_sdiff, mem_holders, Set.mem_singleton_iff]
  by_cases e : b = a
  · simp [e]
  · simp [e]

/-- A revocation gives the place back. -/
theorem size_revoke (h : A.held a = some x) : (A.revoke a).size + 1 = A.size := by
  unfold size
  rw [holders_revoke]
  exact Set.ncard_sdiff_singleton_add_one (by rw [mem_holders, h]; simp) A.finite

theorem free_revoke (h : A.held a = some x) : (A.revoke a).free = A.free + 1 := by
  have hsize := size_revoke h
  unfold free
  rw [places_revoke]
  omega

/-- The holders counted in a list without repetition. -/
theorem size_eq_length {l : List α} (hnodup : l.Nodup) (h : ∀ a, a ∈ l ↔ A.held a ≠ none) :
    A.size = l.length := by
  have hset : A.holders = (l.toFinset : Set α) := by
    ext a
    rw [mem_holders, ← h]
    simp
  unfold size
  rw [hset, Set.ncard_coe_finset, List.toFinset_card_of_nodup hnodup]

end

end Allotment

end FlashSale
