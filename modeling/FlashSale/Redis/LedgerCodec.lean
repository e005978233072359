import FlashSale.Lib.Number
import FlashSale.Redis.Identity
import FlashSale.Redis.SaleStore

/-!
# The ledger value in Lua and TypeScript

Three writers produce ledger values: `purchase.lua`, `compare-restore-reservation.lua` with the text
of `canonicalInt`, and `restoreReservations`. Three readers take them apart: the two scripts at the
first colon (`ledgerIdentity`; a colon has no special meaning in a Lua pattern, so the plain and the
pattern search agree), `parseReservationEntry` at the only colon, and the audit of the load test at
the last one. Every writer's value is `<id>:<decimal>` (`LedgerWrite.value`), on which all readers
agree.
-/

namespace FlashSale

open Redis

/-! ## `restoreReservations` -/

structure ReservationRestoreInput where
  userId : String
  reservationId : String
  reservedAtMs : Option ℕ
  deriving DecidableEq, Repr

def RESTORE_CHUNK_SIZE : ℕ := 500

/-- The `SADD` and `HSET` of one entry; `now` is `Date.now()` as it is read for the entry. -/
def restoreEntry (s : Sale) (entry : ReservationRestoreInput × ℕ) : Sale :=
  { s with
    buyers := s.buyers.sadd entry.1.userId
    reservations := s.reservations.hset entry.1.userId
      (ledgerValue entry.1.reservationId (toString (entry.1.reservedAtMs.getD entry.2))) }

/-- `restoreReservations`, one pipeline for each chunk. -/
def restoreReservations (s : Sale) (entries : List (ReservationRestoreInput × ℕ)) : Sale :=
  if entries.isEmpty then s
  else restoreReservations ((entries.take RESTORE_CHUNK_SIZE).foldl restoreEntry s)
    (entries.drop RESTORE_CHUNK_SIZE)
termination_by entries.length
decreasing_by
  have : entries ≠ [] := by simpa using ‹¬ entries.isEmpty = true›
  have := List.length_pos_of_ne_nil this
  simp only [List.length_drop, RESTORE_CHUNK_SIZE]
  omega

/-- The chunks make no difference. -/
theorem restoreReservations_eq_foldl (s : Sale) (entries : List (ReservationRestoreInput × ℕ)) :
    restoreReservations s entries = entries.foldl restoreEntry s := by
  fun_induction restoreReservations s entries with
  | case1 s entries h =>
    obtain rfl : entries = [] := by simpa using h
    rfl
  | case2 s entries h ih => rw [ih, ← List.foldl_append, List.take_append_drop]

theorem hget_restoreEntries {u : String} {entries : List (ReservationRestoreInput × ℕ)}
    (hu : ∀ e ∈ entries, e.1.userId ≠ u) (s : Sale) :
    (entries.foldl restoreEntry s).reservations.hget u = s.reservations.hget u := by
  induction entries generalizing s with
  | nil => rfl
  | cons e entries ih =>
    rw [List.foldl_cons, ih fun x hx => hu x (List.mem_cons_of_mem _ hx)]
    exact Hash.hget_hset_of_ne (hu e List.mem_cons_self).symm

/-- The last entry of a user is the one on file. -/
theorem hget_restoreReservations (s : Sale) (before : List (ReservationRestoreInput × ℕ))
    (entry : ReservationRestoreInput × ℕ) {after : List (ReservationRestoreInput × ℕ)}
    (hafter : ∀ e ∈ after, e.1.userId ≠ entry.1.userId) :
    (restoreReservations s (before ++ entry :: after)).reservations.hget entry.1.userId =
      some (ledgerValue entry.1.reservationId
        (toString (entry.1.reservedAtMs.getD entry.2))) := by
  rw [restoreReservations_eq_foldl, List.foldl_append, List.foldl_cons, hget_restoreEntries hafter]
  exact Hash.hget_hset_self

/-! ## The audit -/

namespace Audit

/-- An entry as `load/audit.ts` keeps it. -/
structure Reservation where
  reservationId : String
  reservedAtMs : ℤ
  deriving DecidableEq, Repr

/-- `Number(text)`. -/
def jsNumber (text : String) : Number.JsNumber := Number.ofText (jsTrim text).toList

/-- The body of the loop of `scanReservations` in `load/audit.ts`. -/
def parseEntry (raw : String) : Except Failure Reservation :=
  let malformed : Failure := .error "Malformed Redis reservation ledger entry"
  match Text.lastIndexOf ':' raw with
  | none => .error malformed
  | some split =>
    let reservationId := Text.slice raw 0 split
    if split < 1 ∨ reservationId = "" then .error malformed
    else match (jsNumber (Text.slice raw (split + 1) raw.toList.length)).safeInteger with
      | none => .error malformed
      | some reservedAtMs => .ok ⟨reservationId, reservedAtMs⟩

/-- `scanReservations` of `load/audit.ts` on the pages that `HSCAN` returns: the map it fills. -/
def scanReservations (pages : List (List (String × String))) :
    Except Failure (AList fun _ : String => Reservation) :=
  pages.flatten.foldlM (fun values entry =>
    (parseEntry entry.2).map fun value => values.insert entry.1 value) ∅

end Audit

/-! ## Writers -/

/-- `v` is the ledger value one of the three writers leaves for the user `u`, the id `r` and the
time `t`. -/
inductive LedgerWrite (u r : String) : ℕ → String → Prop where
  | purchase (s : Sale) (t : RedisTime) (v : String) (ht : t.nowMs < 10 ^ 14)
      (h : (purchase s u r t).1.outcome = .confirmed)
      (hv : (purchase s u r t).2.reservations.hget u = some v) : LedgerWrite u r t.nowMs v
  | compareRestore (s : Sale) (t : ℕ) (v : String) (ht : t ≤ MAX_SAFE_INTEGER)
      (h : (compareRestoreReservation s u r t).1.1 = .restored)
      (hv : (compareRestoreReservation s u r t).2.reservations.hget u = some v) :
      LedgerWrite u r t v
  | restore (s : Sale) (before : List (ReservationRestoreInput × ℕ)) (reservedAtMs : Option ℕ)
      (now : ℕ) (after : List (ReservationRestoreInput × ℕ)) (v : String)
      (ht : reservedAtMs.getD now ≤ MAX_SAFE_INTEGER)
      (hafter : ∀ e ∈ after, e.1.userId ≠ u)
      (hv : (restoreReservations s
        (before ++ (⟨u, r, reservedAtMs⟩, now) :: after)).reservations.hget u = some v) :
      LedgerWrite u r (reservedAtMs.getD now) v

/-- Every writer writes the id, a colon and the decimal text of the time. -/
theorem LedgerWrite.value {u r v : String} {t : ℕ} (h : LedgerWrite u r t v) :
    v = ledgerValue r (toString t) ∧ t ≤ MAX_SAFE_INTEGER := by
  cases h with
  | purchase s t _ ht h hv =>
    obtain ⟨hget, -⟩ := (Writes.purchase t h).ledgerHolds
    refine ⟨?_, ?_⟩
    · rw [← Text.luaTostring_of_lt ht]
      exact Option.some.inj (hv.symm.trans hget)
    · unfold MAX_SAFE_INTEGER
      omega
  | compareRestore s _ _ ht h hv =>
    obtain ⟨hget, -⟩ := (Writes.restore t h).ledgerHolds
    exact ⟨Option.some.inj (hv.symm.trans hget), ht⟩
  | restore s before reservedAtMs now after _ ht hafter hv =>
    have hget := hget_restoreReservations s before (⟨u, r, reservedAtMs⟩, now) hafter
    exact ⟨Option.some.inj (hv.symm.trans hget), ht⟩

/-! ## Readers -/

theorem isDigit_of_mem_toString {n : ℕ} {c : Char} (hc : c ∈ (toString n).toList) :
    c.isDigit = true := by
  have hl : (toString n).toList = Nat.toDigits 10 n := Nat.toList_repr
  rw [hl] at hc
  exact Nat.isDigit_of_mem_toDigits (by decide) (by decide) hc

theorem colon_notMem_toString (n : ℕ) : ':' ∉ (toString n).toList := fun h =>
  absurd (isDigit_of_mem_toString h) (by decide)

theorem isJsSpace_of_isDigit {c : Char} (h : c.isDigit = true) : isJsSpace c = false := by
  refine isJsSpace_of_isUserIdChar ?_
  unfold isUserIdChar
  simp [isDigit_of_isDigit h]

theorem parseReservationEntry_written {u id : String} {t : ℕ} (hid : isUuid id = true)
    (ht : t ≤ MAX_SAFE_INTEGER) :
    parseReservationEntry u (ledgerValue id (toString t)) = .ok ⟨u, id, some t⟩ := by
  obtain ⟨hhead, htext⟩ := slice_ledgerValue id (toString t)
  have hlast : Text.lastIndexOf ':' (ledgerValue id (toString t)) = some id.toList.length := by
    rw [ledgerValue_eq]
    exact Text.lastIndexOf_append (colon_notMem_toString t)
  unfold parseReservationEntry
  simp only [indexOf_ledgerValue _ hid, hlast, hhead, htext, decimalValue_toString]
  rw [if_neg (by simp), if_neg (by simp [hid]), if_pos ht]

theorem Audit.parseEntry_written {id : String} {t : ℕ} (hid : isUuid id = true)
    (ht : t ≤ MAX_SAFE_INTEGER) :
    Audit.parseEntry (ledgerValue id (toString t)) = .ok ⟨id, t⟩ := by
  obtain ⟨hhead, htext⟩ := slice_ledgerValue id (toString t)
  have hlast : Text.lastIndexOf ':' (ledgerValue id (toString t)) = some id.toList.length := by
    rw [ledgerValue_eq]
    exact Text.lastIndexOf_append (colon_notMem_toString t)
  have hne : id ≠ "" := by
    rintro rfl
    exact absurd hid (by decide)
  have hpos : ¬ id.toList.length < 1 := by
    intro hlt
    have : id.toList = [] := List.length_eq_zero_iff.1 (by omega)
    exact hne (String.toList_eq_nil_iff.1 this)
  have hlt : t < 2 ^ 53 := by
    unfold MAX_SAFE_INTEGER at ht
    omega
  have hnumber : (Audit.jsNumber (toString t)).safeInteger = some (t : ℤ) := by
    unfold Audit.jsNumber
    rw [jsTrim_of_forall fun c hc => isJsSpace_of_isDigit (isDigit_of_mem_toString hc),
      Number.ofText_toString hlt]
    have hsafe : (t : ℚ).den = 1 ∧ |(t : ℚ).num| < 2 ^ 53 := by
      rw [Rat.den_natCast, Rat.num_natCast, abs_of_nonneg (by omega)]
      exact ⟨rfl, by omega⟩
    exact if_pos hsafe
  unfold Audit.parseEntry
  simp only [hlast, hhead, htext, hnumber]
  rw [if_neg (by simp [hne, hpos])]

theorem Audit.foldlM_written {id : String → String} {reservedAt : String → ℕ}
    {entries : List (String × String)}
    (h : ∀ e ∈ entries, isUuid (id e.1) = true ∧ LedgerWrite e.1 (id e.1) (reservedAt e.1) e.2)
    (values : AList fun _ : String => Audit.Reservation) :
    ∃ found, entries.foldlM (fun values entry =>
        (Audit.parseEntry entry.2).map fun value => values.insert entry.1 value) values =
          .ok found ∧
      ∀ u, found.lookup u =
        if u ∈ entries.map Prod.fst then some ⟨id u, reservedAt u⟩ else values.lookup u := by
  induction entries generalizing values with
  | nil => exact ⟨values, rfl, fun u => by simp⟩
  | cons e entries ih =>
    obtain ⟨hid, hwrite⟩ := h e List.mem_cons_self
    obtain ⟨hv, ht⟩ := hwrite.value
    have hparse := Audit.parseEntry_written hid ht
    rw [← hv] at hparse
    obtain ⟨found, hfound, hlookup⟩ := ih (fun x hx => h x (List.mem_cons_of_mem _ hx))
      (values.insert e.1 ⟨id e.1, reservedAt e.1⟩)
    refine ⟨found, ?_, ?_⟩
    · rw [List.foldlM_cons, hparse]
      exact hfound
    · intro u
      rw [hlookup u, List.map_cons]
      by_cases hu : u ∈ entries.map Prod.fst
      · rw [if_pos hu, if_pos (List.mem_cons_of_mem _ hu)]
      · rw [if_neg hu]
        by_cases hue : u = e.1
        · subst hue
          rw [AList.lookup_insert, if_pos List.mem_cons_self]
        · rw [AList.lookup_insert_ne hue, if_neg]
          rw [List.mem_cons, not_or]
          exact ⟨hue, hu⟩

/-- `getReservation` reports the id `r` for the user. -/
def Reports (s : Sale) (u r : String) : Prop :=
  ∃ v e, s.reservations.hget u = some v ∧ parseReservationEntry u v = .ok e ∧ e.reservationId = r

/-- A compensation takes the user's entry off the ledger. -/
def Releases (s : Sale) (u r : String) : Prop :=
  s.reservations.hexists u = true ∧ (compensate s u r).2.reservations.hexists u = false

theorem reports_iff {s : Sale} {u r v : String} {e : ReservationEntry}
    (hv : s.reservations.hget u = some v) (he : parseReservationEntry u v = .ok e) :
    Reports s u r ↔ ledgerIdentity v = r := by
  rw [← (parseReservationEntry_ok he).2]
  constructor
  · rintro ⟨w, e', hw, he', hr⟩
    obtain rfl := Option.some.inj (hv.symm.trans hw)
    obtain rfl := Except.ok.inj (he.symm.trans he')
    exact hr
  · intro hr
    exact ⟨v, e, hv, he, hr⟩

theorem releases_iff (s : Sale) (u r : String) :
    Releases s u r ↔ ∃ v, s.reservations.hget u = some v ∧ ledgerIdentity v = r := by
  have hdrop : (s.drop u).reservations.hexists u = false := by
    show ((s.reservations.hdel u).hget u).isSome = false
    rw [Hash.hget_hdel_self]
    rfl
  unfold Releases
  rcases compensate_cases s u r with ⟨e, hne⟩ | ⟨v, hv, hid, hcases⟩
  · rw [e]
    constructor
    · rintro ⟨hin, hout⟩
      rw [hin] at hout
      cases hout
    · rintro ⟨v, hv, hid⟩
      exact absurd hid (hne v hv)
  · have hin : s.reservations.hexists u = true := by
      unfold Hash.hexists
      rw [hv]
      rfl
    have hout : (compensate s u r).2.reservations.hexists u = false := by
      rcases hcases with ⟨-, e⟩ | ⟨-, -, e⟩ | ⟨-, -, e⟩
      all_goals
        rw [e]
        exact hdrop
    exact ⟨fun _ => ⟨v, hv, hid⟩, fun _ => ⟨hin, hout⟩⟩

theorem matches_iff (s : Sale) (u r : String) (t : ℕ) :
    (compareRestoreReservation s u r t).1.1 = .alreadyMatched ↔
      ∃ v, s.reservations.hget u = some v ∧ ledgerIdentity v = r := by
  rcases compareRestoreReservation_cases s u r t with ⟨hn, e⟩ | ⟨v, hv, ⟨hid, e⟩ | ⟨hid, e⟩⟩
  · simp [e, hn]
  · simp [e, hv, hid]
  · simp [e, hv, hid]

/-- **The ledger codec.** What any writer wrote for an accepted id and time, both TypeScript readers
give back; of every value `parseReservationEntry` accepts, the scripts read the id it reports, so
they act for exactly that id. -/
theorem ledger_codec_agrees :
    (∀ u r t v, isUuid r = true → LedgerWrite u r t v →
      parseReservationEntry u v = .ok ⟨u, r, some t⟩) ∧
    (∀ (id : String → String) (reservedAt : String → ℕ) (pages : List (List (String × String))),
      (∀ e ∈ pages.flatten, isUuid (id e.1) = true ∧
        LedgerWrite e.1 (id e.1) (reservedAt e.1) e.2) →
      ∃ values, Audit.scanReservations pages = .ok values ∧
        ∀ e ∈ pages.flatten, values.lookup e.1 = some ⟨id e.1, reservedAt e.1⟩) ∧
    (∀ u v e, parseReservationEntry u v = .ok e →
      e.reservationId = ledgerIdentity v ∧
      ∀ s : Sale, s.reservations.hget u = some v → ∀ r t,
        (Releases s u r ↔ Reports s u r) ∧
        ((compareRestoreReservation s u r t).1.1 = .alreadyMatched ↔ Reports s u r)) := by
  refine ⟨?_, ?_, ?_⟩
  · intro u r t v hr hwrite
    obtain ⟨hv, ht⟩ := hwrite.value
    rw [hv]
    exact parseReservationEntry_written hr ht
  · intro id reservedAt pages hpages
    obtain ⟨values, hscan, hlookup⟩ := Audit.foldlM_written hpages ∅
    refine ⟨values, hscan, ?_⟩
    intro e he
    rw [hlookup, if_pos (List.mem_map_of_mem he)]
  · intro u v e he
    refine ⟨(parseReservationEntry_ok he).2, ?_⟩
    intro s hv r t
    have honly : (∃ w, s.reservations.hget u = some w ∧ ledgerIdentity w = r) ↔ Reports s u r := by
      rw [reports_iff hv he, hv]
      simp
    exact ⟨(releases_iff s u r).trans honly, (matches_iff s u r t).trans honly⟩

theorem ledger_codec_agrees_nil :
    LedgerWrite "alice" "00000000-0000-0000-0000-000000000000" 1000
        "00000000-0000-0000-0000-000000000000:1000" ∧
      parseReservationEntry "alice" "00000000-0000-0000-0000-000000000000:1000" =
        .ok ⟨"alice", "00000000-0000-0000-0000-000000000000", some 1000⟩ := by
  have hwrite : LedgerWrite "alice" "00000000-0000-0000-0000-000000000000" 1000
      "00000000-0000-0000-0000-000000000000:1000" :=
    .compareRestore Sale.empty 1000 _ (by decide) rfl (by decide +kernel)
  exact ⟨hwrite, ledger_codec_agrees.1 _ _ _ _ (by decide +kernel) hwrite⟩

end FlashSale
