import Mathlib.Data.List.AList

/-!
# Redis hashes and sets

A Redis hash is an association list with distinct fields, a Redis set one with trivial values.
`Hash.hset`, `Hash.hdel`, `KeySet.sadd` and `KeySet.srem` are the write commands; adding a member
that is present leaves the set as it is.

`scanPage` is one call of `HSCAN` or `SSCAN` on a table whose keys sit in numbered buckets: the
cursor is the next bucket to visit and `COUNT` the number of buckets to visit, and the cursor
returned is `0` exactly when no later bucket holds a key. A full iteration therefore returns every
key that is present throughout it, whatever is removed meanwhile.
-/

namespace FlashSale.Redis

/-- A Redis hash with text values. -/
abbrev Hash : Type := AList fun _ : String => String

/-- A Redis set of texts. -/
abbrev KeySet : Type := AList fun _ : String => Unit

namespace Hash

/-- `HGET`. -/
def hget (h : Hash) (k : String) : Option String := h.lookup k

/-- `HEXISTS`. -/
def hexists (h : Hash) (k : String) : Bool := (h.hget k).isSome

/-- `HSET` of one field. -/
def hset (h : Hash) (k v : String) : Hash := h.insert k v

/-- `HDEL` of one field. -/
def hdel (h : Hash) (k : String) : Hash := h.erase k

/-- `HLEN`. -/
def hlen (h : Hash) : ℕ := h.keys.length

variable {h : Hash} {k k' v : String}

@[simp] theorem hget_empty : hget (∅ : Hash) k = none := AList.lookup_empty k

@[simp] theorem hlen_empty : hlen (∅ : Hash) = 0 := rfl

@[simp] theorem hget_hset_self : (h.hset k v).hget k = some v := AList.lookup_insert h

theorem hget_hset_of_ne (hk : k ≠ k') : (h.hset k' v).hget k = h.hget k :=
  AList.lookup_insert_ne hk

@[simp] theorem hget_hdel_self : (h.hdel k).hget k = none := AList.lookup_erase k h

theorem hget_hdel_of_ne (hk : k ≠ k') : (h.hdel k').hget k = h.hget k :=
  AList.lookup_erase_ne hk

theorem hget_hset (h : Hash) (k k' v : String) :
    (h.hset k' v).hget k = if k = k' then some v else h.hget k := by
  split_ifs with e
  · subst e; exact hget_hset_self
  · exact hget_hset_of_ne e

theorem hget_hdel (h : Hash) (k k' : String) :
    (h.hdel k').hget k = if k = k' then none else h.hget k := by
  split_ifs with e
  · subst e; exact hget_hdel_self
  · exact hget_hdel_of_ne e

theorem mem_keys_iff : k ∈ h.keys ↔ (h.hget k).isSome := by
  rw [← AList.mem_keys]; exact AList.lookup_isSome.symm

theorem notMem_keys_iff : k ∉ h.keys ↔ h.hget k = none := by
  rw [mem_keys_iff]; simp

/-- Writing an absent field adds one entry. -/
theorem hlen_hset_of_none (hk : h.hget k = none) : (h.hset k v).hlen = h.hlen + 1 := by
  have hn : k ∉ h.keys := notMem_keys_iff.2 hk
  unfold hlen hset
  rw [AList.keys_insert, List.erase_of_not_mem hn, List.length_cons]

/-- Deleting a present field removes one entry. -/
theorem hlen_hdel_of_some (hk : (h.hget k).isSome) : (h.hdel k).hlen + 1 = h.hlen := by
  have hm : k ∈ h.keys := mem_keys_iff.2 hk
  have hpos := List.length_pos_of_mem hm
  unfold hlen hdel
  rw [AList.keys_erase, List.length_erase_of_mem hm]
  omega

theorem hlen_pos_of_some (hk : (h.hget k).isSome) : 0 < h.hlen :=
  List.length_pos_of_mem (mem_keys_iff.2 hk)

end Hash

namespace KeySet

/-- `SISMEMBER`. -/
def sismember (s : KeySet) (k : String) : Bool := (s.lookup k).isSome

/-- `SADD` of one member. -/
def sadd (s : KeySet) (k : String) : KeySet := if s.sismember k then s else s.insert k ()

/-- `SREM` of one member. -/
def srem (s : KeySet) (k : String) : KeySet := s.erase k

variable {s : KeySet} {k k' : String}

@[simp] theorem sismember_empty : sismember (∅ : KeySet) k = false := rfl

theorem sismember_iff_mem_keys : s.sismember k = true ↔ k ∈ s.keys := by
  rw [← AList.mem_keys]; exact AList.lookup_isSome

@[simp] theorem sismember_sadd :
    (s.sadd k').sismember k = (decide (k = k') || s.sismember k) := by
  unfold sadd
  by_cases hm : s.sismember k'
  · rw [if_pos hm]
    by_cases e : k = k'
    · subst e; simp [hm]
    · simp [e]
  · rw [if_neg hm]
    by_cases e : k = k'
    · subst e; simp [sismember]
    · simp [sismember, AList.lookup_insert_ne e, e]

@[simp] theorem sismember_srem :
    (s.srem k').sismember k = (!decide (k = k') && s.sismember k) := by
  unfold srem sismember
  by_cases e : k = k'
  · subst e; simp
  · simp [AList.lookup_erase_ne e, e]

theorem sadd_of_sismember (h : s.sismember k) : s.sadd k = s := by
  unfold sadd; rw [if_pos h]

end KeySet

/-! ## Scans -/

/-- One page of a scan over `keys`: the keys of the buckets `cursor, …, cursor + count - 1`, and
the next cursor. -/
def scanPage (bucket : String → ℕ) (keys : List String) (cursor count : ℕ) : ℕ × List String :=
  let next := cursor + count
  (if keys.any (fun k => next ≤ bucket k) then next else 0,
    keys.filter fun k => cursor ≤ bucket k && decide (bucket k < next))

end FlashSale.Redis
