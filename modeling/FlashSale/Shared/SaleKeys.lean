import FlashSale.Shared.Queue
import Mathlib.Data.List.Nodup

/-!
# The Redis keys of a sale

A cluster hashes the part of a key between its first brace and the next closing one. An accepted
sale id has no braces, so the five keys of a sale hash alike, which a script with several keys
needs, and two sales have no key in common.
-/

namespace FlashSale

/-! ## Key builders -/

/-- The hash tag `{<id>}`. -/
def saleHashTag (saleId : String) : String := "\x7b" ++ saleId ++ "\x7d"

/-- The key `sale:{<id>}:<field>`. -/
def saleKey (field saleId : String) : String := "sale:" ++ saleHashTag saleId ++ ":" ++ field

/-- The configuration of a sale, a hash. -/
def saleConfigKey (saleId : String) : String := saleKey "config" saleId

/-- The units left. -/
def saleStockKey (saleId : String) : String := saleKey "stock" saleId

/-- The buyers, a set. -/
def saleBuyersKey (saleId : String) : String := saleKey "buyers" saleId

def saleMetricsKey (saleId : String) : String := saleKey "metrics" saleId

/-- The ledger, a hash. -/
def saleReservationsKey (saleId : String) : String := saleKey "reservations" saleId

/-- The keys of a sale. -/
structure SaleKeys where
  config : String
  stock : String
  buyers : String
  metrics : String
  reservations : String

/-- `saleKeys`; the builders it calls repeat its check. -/
def saleKeys (saleId : String) : Except Failure SaleKeys := do
  assertSaleId saleId
  return ⟨saleConfigKey saleId, saleStockKey saleId, saleBuyersKey saleId, saleMetricsKey saleId,
    saleReservationsKey saleId⟩

/-- The keys in a list. -/
def SaleKeys.toList (k : SaleKeys) : List String :=
  [k.config, k.stock, k.buyers, k.metrics, k.reservations]

/-! ## Hash slots -/

/-- The part of a key that Redis Cluster hashes: what stands between the first opening brace and
the next closing one, or the whole key if there is no such part or it is empty. -/
def hashedPart (key : List Char) : List Char :=
  match key.dropWhile (· != '\x7b') with
  | [] => key
  | _ :: rest =>
    let tag := rest.takeWhile (· != '\x7d')
    if tag = [] ∨ tag.length = rest.length then key else tag

/-- The slot of a key, from the checksum of its hashed part. -/
def keySlot (crc16 : List Char → ℕ) (key : String) : ℕ := crc16 (hashedPart key.toList) % 16384

theorem takeWhile_append_cons {p : Char → Bool} {xs ys : List Char} {c : Char}
    (hxs : ∀ x ∈ xs, p x = true) (hc : p c = false) : (xs ++ c :: ys).takeWhile p = xs := by
  rw [List.takeWhile_append_of_pos hxs, List.takeWhile_cons_of_neg (by simp [hc]), List.append_nil]

/-- An accepted sale id is not empty and has no closing brace. -/
theorem isSaleId_chars {saleId : String} (h : isSaleId saleId = true) :
    saleId.toList ≠ [] ∧ ∀ c ∈ saleId.toList, (c != '\x7d') = true := by
  have hbrace : ∀ c, isSaleIdChar c = true → (c != '\x7d') = true := by
    intro c hc
    rw [bne_iff_ne]
    rintro rfl
    exact absurd hc (by decide)
  unfold isSaleId at h
  cases hs : saleId.toList with
  | nil => simp [hs] at h
  | cons c cs =>
    simp only [hs, Bool.and_eq_true, List.all_eq_true] at h
    refine ⟨by simp, fun d hd => hbrace d ?_⟩
    rcases List.mem_cons.1 hd with rfl | hd
    · unfold isSaleIdChar
      rw [h.1.1, Bool.true_or]
    · exact h.1.2 d hd

theorem toList_saleKey (field saleId : String) : (saleKey field saleId).toList =
    "sale:\x7b".toList ++ (saleId.toList ++ '\x7d' :: ':' :: field.toList) := by
  simp [saleKey, saleHashTag]

/-- Only the sale id is hashed. -/
theorem hashedPart_saleKey {field saleId : String} (h : isSaleId saleId = true) :
    hashedPart (saleKey field saleId).toList = saleId.toList := by
  obtain ⟨hne, hchars⟩ := isSaleId_chars h
  have hdrop : (saleKey field saleId).toList.dropWhile (· != '\x7b') =
      '\x7b' :: (saleId.toList ++ '\x7d' :: ':' :: field.toList) := by
    rw [toList_saleKey]
    rfl
  have htag : (saleId.toList ++ '\x7d' :: ':' :: field.toList).takeWhile (· != '\x7d') =
      saleId.toList := takeWhile_append_cons hchars rfl
  unfold hashedPart
  rw [hdrop]
  dsimp only
  rw [htag, if_neg]
  rintro (hnil | hlen)
  · exact hne hnil
  · simp at hlen

/-- A key tells its sale and its field. -/
theorem saleKey_inj {f g a b : String} (ha : isSaleId a = true) (hb : isSaleId b = true)
    (h : saleKey f a = saleKey g b) : f = g ∧ a = b := by
  have hid : a = b := by
    rw [← String.toList_inj, ← @hashedPart_saleKey f a ha, h, hashedPart_saleKey hb]
  subst hid
  have hlist := congrArg String.toList h
  rw [toList_saleKey, toList_saleKey] at hlist
  have hfield := List.append_cancel_left (List.append_cancel_left hlist)
  exact ⟨String.toList_inj.1 (by simpa using hfield), rfl⟩

theorem saleKeys_ok {saleId : String} {k : SaleKeys} (h : saleKeys saleId = .ok k) :
    isSaleId saleId = true ∧ k.toList =
      ["config", "stock", "buyers", "metrics", "reservations"].map fun f => saleKey f saleId := by
  unfold saleKeys assertSaleId at h
  split_ifs at h with hs
  · obtain rfl := Except.ok.inj h
    exact ⟨hs, rfl⟩
  · cases h

/-- **The key space.** The keys of a sale are five keys in one slot, and no other sale has any of
them. -/
theorem saleKeys_separate (crc16 : List Char → ℕ) {a b : String} {ka kb : SaleKeys}
    (ha : saleKeys a = .ok ka) (hb : saleKeys b = .ok kb) :
    (∀ k ∈ ka.toList, keySlot crc16 k = crc16 a.toList % 16384) ∧ ka.toList.Nodup ∧
      (a ≠ b → ∀ k ∈ ka.toList, k ∉ kb.toList) := by
  obtain ⟨hida, hka⟩ := saleKeys_ok ha
  obtain ⟨hidb, hkb⟩ := saleKeys_ok hb
  rw [hka, hkb]
  refine ⟨fun k hk => ?_, ?_, fun hne k hk hk' => ?_⟩
  · obtain ⟨f, -, rfl⟩ := List.mem_map.1 hk
    unfold keySlot
    rw [hashedPart_saleKey hida]
  · exact List.Nodup.map (fun f g h => (saleKey_inj hida hida h).1) (by decide)
  · obtain ⟨f, -, rfl⟩ := List.mem_map.1 hk
    obtain ⟨g, -, h⟩ := List.mem_map.1 hk'
    exact hne (saleKey_inj hidb hida h).2.symm

example : saleKeys "flash-2026" = .ok ⟨"sale:\x7bflash-2026\x7d:config",
    "sale:\x7bflash-2026\x7d:stock", "sale:\x7bflash-2026\x7d:buyers",
    "sale:\x7bflash-2026\x7d:metrics", "sale:\x7bflash-2026\x7d:reservations"⟩ := rfl

theorem saleKeys_separate_flash : ∃ ka kb, saleKeys "flash-2026" = .ok ka ∧
    saleKeys "flash-2025" = .ok kb ∧ ka.toList.Nodup ∧ ∀ k ∈ ka.toList, k ∉ kb.toList :=
  let h := @saleKeys_separate List.length "flash-2026" "flash-2025" _ _ rfl rfl
  ⟨_, _, rfl, rfl, h.2.1, h.2.2 (by decide)⟩

end FlashSale
