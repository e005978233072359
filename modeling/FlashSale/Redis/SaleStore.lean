import FlashSale.Redis.Scripts
import FlashSale.Shared.SaleState

/-!
# Decoding of `SaleRedisStore`

What the TypeScript around the scripts makes of their replies: ledger entries and the snapshot of a
sale.
-/

namespace FlashSale

open Redis

/-! ## Ledger entries -/

/-- An entry read back from the ledger; `reservedAtMs` is `none` for a value without a suffix. -/
structure ReservationEntry where
  userId : String
  reservationId : String
  reservedAtMs : Option ℕ
  deriving DecidableEq, Repr

/-- The value of a text of decimal digits. -/
def decimalValue (s : String) : Option ℕ :=
  if s.toList.isEmpty ∨ ¬ s.toList.all isDigit then none
  else some (s.toList.foldl (fun n c => 10 * n + (c.toNat - '0'.toNat)) 0)

/-- `parseReservationEntry`: at most one colon, a UUID before it and a safe integer after it. -/
def parseReservationEntry (userId value : String) : Except Failure ReservationEntry :=
  let malformed : Failure :=
    .error ("SaleRedisStore: malformed reservation ledger value for user '" ++ userId ++ "'")
  match Text.indexOf ':' value with
  | none =>
    if isUuid value then .ok ⟨userId, value, none⟩ else .error malformed
  | some separator =>
    if Text.lastIndexOf ':' value ≠ some separator then .error malformed
    else
      let reservationId := Text.slice value 0 separator
      if !isUuid reservationId then .error malformed
      else match decimalValue (Text.slice value (separator + 1) value.toList.length) with
        | none => .error malformed
        | some ms =>
          if ms ≤ MAX_SAFE_INTEGER then .ok ⟨userId, reservationId, some ms⟩ else .error malformed

theorem isDigit_of_isDigit {c : Char} (h : c.isDigit = true) : isDigit c = true := by
  simp only [Char.isDigit, Bool.and_eq_true, decide_eq_true_eq] at h
  unfold isDigit
  rw [Bool.and_eq_true, decide_eq_true_eq, decide_eq_true_eq]
  exact h

/-- The decimal text of a number has its value. -/
theorem decimalValue_toString (n : ℕ) : decimalValue (toString n) = some n := by
  have hl : (toString n).toList = Nat.toDigits 10 n := Nat.toList_repr
  unfold decimalValue
  rw [hl, if_neg]
  · rw [← Nat.ofDigitChars_eq_foldl, Nat.ofDigitChars_ten_toDigits]
  · rw [not_or, not_not, List.all_eq_true]
    refine ⟨by simp, fun c hc => isDigit_of_isDigit ?_⟩
    exact Nat.isDigit_of_mem_toDigits (by decide) (by decide) hc

/-- A time written by Lua reads back as itself or not at all. -/
theorem decimalValue_luaTostring {n m : ℕ} (h : decimalValue (Text.luaTostring n) = some m) :
    m = n := by
  by_cases hn : n < 10 ^ 14
  · rw [Text.luaTostring_of_lt hn, decimalValue_toString] at h
    exact (Option.some.inj h).symm
  · -- from `10 ^ 14` on the text has an exponent
    have he : 'e' ∈ (Text.luaTostring n).toList := by
      unfold Text.luaTostring
      rw [if_neg hn]
      simp
    unfold decimalValue at h
    rw [if_pos] at h
    · cases h
    · right
      rw [List.all_eq_true]
      intro hall
      exact absurd (hall 'e' he) (by decide)

/-- The entry is that of the user, with the identity the scripts read. -/
theorem parseReservationEntry_ok {u v : String} {e : ReservationEntry}
    (h : parseReservationEntry u v = .ok e) :
    e.userId = u ∧ e.reservationId = ledgerIdentity v := by
  unfold parseReservationEntry at h
  unfold ledgerIdentity Text.beforeFirst
  cases hi : Text.indexOf ':' v with
  | none =>
    simp only [hi] at h
    split_ifs at h
    obtain rfl := Except.ok.inj h
    exact ⟨rfl, rfl⟩
  | some i =>
    simp only [hi] at h
    split_ifs at h
    cases hd : decimalValue (Text.slice v (i + 1) v.toList.length) with
    | none => rw [hd] at h; cases h
    | some ms =>
      simp only [hd] at h
      split_ifs at h
      obtain rfl := Except.ok.inj h
      exact ⟨rfl, rfl⟩

/-- An entry has a UUID and, if any, a safe time. -/
theorem parseReservationEntry_valid {u v : String} {e : ReservationEntry}
    (h : parseReservationEntry u v = .ok e) :
    isUuid e.reservationId = true ∧ e.reservedAtMs.getD 0 ≤ MAX_SAFE_INTEGER := by
  unfold parseReservationEntry at h
  cases hi : Text.indexOf ':' v with
  | none =>
    simp only [hi] at h
    split_ifs at h with huuid
    obtain rfl := Except.ok.inj h
    exact ⟨huuid, Nat.zero_le _⟩
  | some i =>
    simp only [hi] at h
    split_ifs at h with hlast huuid
    cases hd : decimalValue (Text.slice v (i + 1) v.toList.length) with
    | none => rw [hd] at h; cases h
    | some ms =>
      simp only [hd] at h
      split_ifs at h with hle
      obtain rfl := Except.ok.inj h
      exact ⟨by simpa using huuid, hle⟩

theorem ledgerValue_eq (id text : String) :
    ledgerValue id text = id ++ String.singleton ':' ++ text := by
  unfold ledgerValue
  rw [show (":" : String) = String.singleton ':' by decide]

theorem indexOf_ledgerValue {id : String} (text : String) (hid : isUuid id = true) :
    Text.indexOf ':' (ledgerValue id text) = some id.toList.length := by
  rw [ledgerValue_eq]
  exact Text.indexOf_append (colon_notMem_of_isUuid hid)

theorem slice_ledgerValue (id text : String) :
    Text.slice (ledgerValue id text) 0 id.toList.length = id ∧
      Text.slice (ledgerValue id text) (id.toList.length + 1)
        (ledgerValue id text).toList.length = text := by
  rw [ledgerValue_eq]
  exact ⟨Text.slice_append_left id ':' text, Text.slice_append_right id ':' text⟩

/-- The entry of a value `<id>:<text>` has the time the text stands for. -/
theorem parseReservationEntry_ledgerValue {u id text : String} {e : ReservationEntry}
    (hid : isUuid id = true) (h : parseReservationEntry u (ledgerValue id text) = .ok e) :
    ∃ t, decimalValue text = some t ∧ e = ⟨u, id, some t⟩ := by
  obtain ⟨hhead, htext⟩ := slice_ledgerValue id text
  unfold parseReservationEntry at h
  simp only [indexOf_ledgerValue text hid, htext, hhead] at h
  split_ifs at h
  cases hd : decimalValue text with
  | none => rw [hd] at h; cases h
  | some ms =>
    simp only [hd] at h
    split_ifs at h
    obtain rfl := Except.ok.inj h
    exact ⟨ms, rfl, rfl⟩

/-! ## Snapshots -/

/-- The decoded reply of `status`. -/
structure SaleSnapshot where
  initialized : Bool
  name : String
  startsAt : String
  endsAt : String
  startsAtMs : ℤ
  endsAtMs : ℤ
  totalStock : ℤ
  stockRemaining : ℤ
  serverTimeMs : ℤ
  state : SaleState
  deriving DecidableEq, Repr

/-- The decoding in `SaleRedisStore.status`. -/
def decodeStatus (raw : StatusReply) : Except Failure SaleSnapshot :=
  match raw.config with
  | none => .ok ⟨false, "", "", "", 0, 0, 0, 0, raw.nowMs, .upcoming⟩
  | some cfg => do
    let state ← deriveSaleState raw.nowMs cfg.startsAtMs cfg.endsAtMs raw.stockRemaining
    return ⟨true, cfg.name, cfg.startsAt, cfg.endsAt, cfg.startsAtMs, cfg.endsAtMs, cfg.totalStock,
      raw.stockRemaining, raw.nowMs, state⟩

/-- `SaleRedisStore.status` on the keys of the sale. -/
def Sale.status (s : Sale) (t : RedisTime) : Except Failure SaleSnapshot :=
  decodeStatus (statusScript s t)

/-- An initialised snapshot carries the time of the reply and the window of the configuration,
which is not empty. -/
theorem status_ok {s : Sale} {t : RedisTime} {snap : SaleSnapshot} (h : s.status t = .ok snap) :
    snap.serverTimeMs = t.nowMs ∧ (snap.initialized = true → ∃ cfg, s.config = some cfg ∧
      snap.startsAtMs = cfg.startsAtMs ∧ snap.endsAtMs = cfg.endsAtMs ∧
      cfg.startsAtMs < cfg.endsAtMs) := by
  unfold Sale.status decodeStatus statusScript at h
  cases hc : s.config with
  | none =>
    simp only [hc, Except.ok.injEq] at h
    subst h
    exact ⟨rfl, by simp⟩
  | some cfg =>
    simp only [hc] at h
    cases hd : deriveSaleState (t.nowMs : ℤ) cfg.startsAtMs cfg.endsAtMs
        (Number.ofInt (s.stock.getD (-1))) with
    | error e => rw [hd] at h; cases h
    | ok state =>
      rw [hd] at h
      obtain rfl := Except.ok.inj h
      have hwindow : cfg.startsAtMs < cfg.endsAtMs := by
        by_contra hle
        rw [deriveSaleState, if_pos (by omega)] at hd
        cases hd
      exact ⟨rfl, fun _ => ⟨cfg, rfl, rfl, rfl, hwindow⟩⟩

/-- An initialised snapshot is that of the configuration and the stock, as doubles. -/
theorem status_initialized {s : Sale} {t : RedisTime} {snap : SaleSnapshot}
    (h : s.status t = .ok snap) (hi : snap.initialized = true) :
    ∃ cfg state, s.config = some cfg ∧ snap = ⟨true, cfg.name, cfg.startsAt, cfg.endsAt,
      cfg.startsAtMs, cfg.endsAtMs, Number.ofInt cfg.totalStock, Number.ofInt (s.stock.getD (-1)),
      t.nowMs, state⟩ := by
  unfold Sale.status decodeStatus statusScript at h
  cases hc : s.config with
  | none =>
    simp only [hc, Except.ok.injEq] at h
    subst h
    cases hi
  | some cfg =>
    simp only [hc] at h
    cases hd : deriveSaleState (t.nowMs : ℤ) cfg.startsAtMs cfg.endsAtMs
        (Number.ofInt (s.stock.getD (-1))) with
    | error e => rw [hd] at h; cases h
    | ok state =>
      rw [hd] at h
      obtain rfl := Except.ok.inj h
      exact ⟨cfg, state, rfl, rfl⟩

end FlashSale
