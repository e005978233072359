import Mathlib.Data.List.Perm.Subperm
import Mathlib.Data.List.Dedup

/-!
# Sets and maps in insertion order

A `JsSet` is the list of its values in the order they were added, a `JsMap` the list of its entries;
no value and no key stands there twice. A set built of a list has as many values as the list exactly
when the list has no duplicates (`JsSet.nodup_of_size_ofList`), and a set contained in another one of
its size is the other one (`JsSet.equal_iff_perm`).
-/

namespace FlashSale

/-- A set that remembers in which order its values came. -/
structure JsSet (α : Type) where
  values : List α
  nodup : values.Nodup

/-- A map that remembers in which order its keys came. -/
structure JsMap (α β : Type) where
  entries : List (α × β)
  nodup : (entries.map Prod.fst).Nodup

variable {α β : Type} [DecidableEq α]

namespace JsSet

/-- `new Set()`. -/
def empty : JsSet α := ⟨[], List.nodup_nil⟩

/-- The number of values. -/
def size (s : JsSet α) : ℕ := s.values.length

/-- The value is in the set. -/
def has (s : JsSet α) (a : α) : Bool := a ∈ s.values

/-- A value that is there already keeps its place. -/
def add (s : JsSet α) (a : α) : JsSet α :=
  if h : a ∈ s.values then s
  else ⟨s.values ++ [a], List.nodup_append.2 ⟨s.nodup, List.nodup_singleton a, by
    rintro b hb c hc rfl
    exact h (List.mem_singleton.1 hc ▸ hb)⟩⟩

/-- The set without the value. -/
def delete (s : JsSet α) (a : α) : JsSet α := ⟨s.values.filter (· ≠ a), s.nodup.filter _⟩

/-- `new Set(list)`. -/
def ofList (l : List α) : JsSet α := l.foldl add empty

/-- The sets have one size and the first is contained in the second. -/
def equal (s t : JsSet α) : Bool := s.size = t.size && s.values.all t.has

theorem mem_add {s : JsSet α} {a b : α} : b ∈ (s.add a).values ↔ b ∈ s.values ∨ b = a := by
  unfold add
  split
  · rename_i h
    constructor
    · exact .inl
    · rintro (hb | rfl)
      · exact hb
      · exact h
  · simp

theorem mem_ofList {l : List α} {a : α} : a ∈ (ofList l).values ↔ a ∈ l := by
  have hfold : ∀ (l : List α) (s : JsSet α),
      a ∈ (l.foldl add s).values ↔ a ∈ s.values ∨ a ∈ l := by
    intro l
    induction l with
    | nil => simp
    | cons b l ih =>
      intro s
      rw [List.foldl_cons, ih, mem_add, List.mem_cons, or_assoc]
  simpa [empty, ofList] using hfold l empty

/-- A list that has as many values as the set built of it has no duplicates. -/
theorem nodup_of_size_ofList {l : List α} (h : (ofList l).size = l.length) : l.Nodup := by
  have hperm : (ofList l).values.Perm l.dedup := by
    rw [List.perm_ext_iff_of_nodup (ofList l).nodup (List.nodup_dedup l)]
    intro a
    rw [mem_ofList, List.mem_dedup]
  have hlength : l.dedup.length = l.length := by
    rw [← hperm.length_eq]
    exact h
  rw [← List.dedup_eq_self]
  exact (List.dedup_sublist l).eq_of_length hlength

theorem equal_iff_perm {s t : JsSet α} : s.equal t = true ↔ s.values.Perm t.values := by
  unfold equal
  rw [Bool.and_eq_true, decide_eq_true_eq, List.all_eq_true]
  constructor
  · rintro ⟨hsize, hsub⟩
    have hsubset : s.values ⊆ t.values := fun a ha => of_decide_eq_true (hsub a ha)
    exact (List.subperm_of_subset s.nodup hsubset).perm_of_length_le (Nat.le_of_eq hsize.symm)
  · intro h
    exact ⟨h.length_eq, fun a ha => decide_eq_true (h.mem_iff.1 ha)⟩

end JsSet

namespace JsMap

/-- The number of entries. -/
def size (m : JsMap α β) : ℕ := m.entries.length

/-- The keys in their order. -/
def keys (m : JsMap α β) : List α := m.entries.map Prod.fst

/-- The values in the order of their keys. -/
def values (m : JsMap α β) : List β := m.entries.map Prod.snd

/-- The value of a key; `none` is `undefined`. -/
def get (m : JsMap α β) (a : α) : Option β := (m.entries.find? (·.1 = a)).map Prod.snd

/-- The map has the key. -/
def has (m : JsMap α β) (a : α) : Bool := a ∈ m.keys

theorem mem_of_get {m : JsMap α β} {a : α} {b : β} (h : m.get a = some b) : (a, b) ∈ m.entries := by
  obtain ⟨e, he, rfl⟩ := Option.map_eq_some_iff.1 h
  have hkey := List.find?_some he
  rw [decide_eq_true_eq] at hkey
  rw [← hkey]
  exact List.mem_of_find?_eq_some he

end JsMap

end FlashSale
