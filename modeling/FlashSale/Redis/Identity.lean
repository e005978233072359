import FlashSale.Redis.Conservation
import FlashSale.Shared.Queue

/-!
# Permanence of ledger entries and identity-gated release

A ledger entry is written by a `CONFIRMED` purchase or a `RESTORED` restoration (`Writes`). From
then on the text stays until a compensation presents the same reservation id
(`LedgerHolds.run`), whatever else runs; once such a compensation ran, the id is off the ledger
until it is written again (`NotOnFile.run`), so every later compensation for it is refused.

Runs may start from any keys. Reservation ids of purchases come from `randomUUID` and those of
restorations pass `UUID_PATTERN` (`ScriptCall.UuidIds`); the id of a compensation is any text.
-/

namespace FlashSale

open Redis

/-- The store generates or checks the reservation ids it writes. -/
def ScriptCall.UuidIds : ScriptCall → Prop
  | .purchase _ r _ => isUuid r = true
  | .compareRestore _ r _ => isUuid r = true
  | _ => True

/-- In the keys `s` the call writes the entry `u ↦ v` for the reservation id `r`. -/
inductive Writes (s : Sale) (u r : String) : ScriptCall → String → Prop where
  | purchase (t : RedisTime) (h : (purchase s u r t).1.outcome = .confirmed) :
      Writes s u r (.purchase u r t) (ledgerValue r (Text.luaTostring t.nowMs))
  | restore (t : ℕ) (h : (compareRestoreReservation s u r t).1.1 = .restored) :
      Writes s u r (.compareRestore u r t) (ledgerValue r (toString t))

/-- The ledger and the buyers set hold the entry `u ↦ v`. -/
def LedgerHolds (s : Sale) (u v : String) : Prop :=
  s.reservations.hget u = some v ∧ s.buyers.sismember u = true

/-- The ledger has no entry of `u` with the identity `r`. -/
def NotOnFile (s : Sale) (u r : String) : Prop :=
  ∀ v, s.reservations.hget u = some v → ledgerIdentity v ≠ r

theorem ledgerIdentity_of_isUuid {r : String} (text : String) (h : isUuid r = true) :
    ledgerIdentity (ledgerValue r text) = r :=
  ledgerIdentity_ledgerValue text (colon_notMem_of_isUuid h)

/-! ## One step -/

theorem Writes.ledgerHolds {s : Sale} {u r v : String} {c : ScriptCall} (h : Writes s u r c v) :
    LedgerHolds (c.exec s).2 u v := by
  cases h with
  | purchase t h =>
    simp only [ScriptCall.exec]
    rcases purchase_cases s u r t with ⟨-, hp⟩ | ⟨hn, -⟩
    · rw [hp.keys]; simp [LedgerHolds]
    · exact absurd h hn
  | restore t h =>
    simp only [ScriptCall.exec]
    rcases compareRestoreReservation_cases s u r t with ⟨-, e⟩ | ⟨v, -, ⟨-, e⟩ | ⟨-, e⟩⟩
    · rw [e]; simp [LedgerHolds, Sale.restore]
    · simp [e] at h
    · simp [e] at h

/-- A compensation that presents another identity than the one on file changes nothing. -/
theorem LedgerHolds.compensate_of_ne {s : Sale} {u v r : String} (h : LedgerHolds s u v)
    (hr : ledgerIdentity v ≠ r) : compensate s u r = (⟨.noop, Number.ofInt (s.stock.getD 0)⟩, s) := by
  rcases compensate_cases s u r with ⟨e, -⟩ | ⟨w, hw, hid, -⟩
  · exact e
  · obtain rfl : v = w := Option.some.inj (h.1.symm.trans hw)
    exact absurd hid hr

/-- A restoration for another identity than the one on file is a conflict and changes nothing. -/
theorem LedgerHolds.compareRestore_of_ne {s : Sale} {u v r : String} (h : LedgerHolds s u v)
    (hr : ledgerIdentity v ≠ r) (t : ℕ) :
    compareRestoreReservation s u r t = ((.conflict, v), s) := by
  rcases compareRestoreReservation_cases s u r t with ⟨hn, -⟩ | ⟨w, hw, hd⟩
  · rw [h.1] at hn; cases hn
  · obtain rfl : v = w := Option.some.inj (h.1.symm.trans hw)
    rcases hd with ⟨hid, -⟩ | ⟨-, e⟩
    · exact absurd hid hr
    · exact e

theorem LedgerHolds.compensate_other {s : Sale} {u v : String} (h : LedgerHolds s u v)
    {w : String} (hw : u ≠ w) (r : String) : LedgerHolds (compensate s w r).2 u v := by
  have hdrop : LedgerHolds (s.drop w) u v := by
    refine ⟨?_, ?_⟩
    · exact (Hash.hget_hdel_of_ne hw).trans h.1
    · show (s.buyers.srem w).sismember u = true
      rw [KeySet.sismember_srem, h.2]
      simp [hw]
  rcases compensate_cases s w r with ⟨e, -⟩ | ⟨_, -, -, ⟨-, e⟩ | ⟨-, -, e⟩ | ⟨-, -, e⟩⟩
  · rw [e]; exact h
  · rw [e]; exact hdrop
  · rw [e]; exact hdrop
  · rw [e]; exact hdrop

theorem LedgerHolds.sadd {s : Sale} {u v : String} (h : LedgerHolds s u v) (w : String) :
    LedgerHolds { s with buyers := s.buyers.sadd w } u v :=
  ⟨h.1, by simp [h.2]⟩

/-- **Permanence, one step.** Only a compensation with the identity on file removes an entry. -/
theorem LedgerHolds.exec {s : Sale} {u v : String} (h : LedgerHolds s u v) {c : ScriptCall}
    (hc : c ≠ .compensate u (ledgerIdentity v)) : LedgerHolds (c.exec s).2 u v := by
  cases c with
  | seed cfg stockRemaining =>
    simp only [ScriptCall.exec]
    rcases seed_cases s cfg (stockRemaining.getD cfg.totalStock) with ⟨-, -, e⟩ | ⟨-, -, e⟩
    · rw [e]; exact h
    · rw [e]; exact h
  | purchase w r t =>
    simp only [ScriptCall.exec]
    rcases purchase_cases s w r t with ⟨-, hp⟩ | ⟨-, e | ⟨-, e⟩⟩
    · have hne : u ≠ w := by
        rintro rfl
        have h1 := h.1
        rw [hp.ledger] at h1
        cases h1
      rw [hp.keys]
      exact ⟨(Hash.hget_hset_of_ne hne).trans h.1, by simp [h.2]⟩
    · rw [e]; exact h
    · rw [e]; exact h.sadd w
  | compensate w r =>
    by_cases hw : u = w
    · subst hw
      have hr : ledgerIdentity v ≠ r := fun e => hc (by rw [e])
      show LedgerHolds (FlashSale.compensate s u r).2 u v
      rw [h.compensate_of_ne hr]
      exact h
    · exact h.compensate_other hw r
  | compareRestore w r t =>
    simp only [ScriptCall.exec]
    rcases compareRestoreReservation_cases s w r t with ⟨hn, e⟩ | ⟨x, -, ⟨-, e⟩ | ⟨-, e⟩⟩
    · have hne : u ≠ w := by
        rintro rfl
        rw [h.1] at hn
        cases hn
      rw [e]
      exact ⟨(Hash.hget_hset_of_ne hne).trans h.1, by simp [Sale.restore, h.2]⟩
    · rw [e]; exact h.sadd w
    · rw [e]; exact h
  | reconcileMembership w =>
    simp only [ScriptCall.exec, reconcileMembership]
    split_ifs with hw
    · exact h.sadd w
    · have hne : u ≠ w := by
        rintro rfl
        simp [Hash.hexists, h.1] at hw
      refine ⟨h.1, ?_⟩
      show (s.buyers.srem w).sismember u = true
      rw [KeySet.sismember_srem, h.2]
      simp [hne]
  | reconcileState =>
    simp only [ScriptCall.exec, reconcileState]
    cases s.config with
    | none => exact h
    | some cfg => dsimp only; split_ifs <;> exact h
  | status t => exact h
  | inspect w => exact h

/-- After a compensation for `r` the ledger has no entry of the user with this identity. -/
theorem notOnFile_compensate (s : Sale) (u r : String) : NotOnFile (compensate s u r).2 u r := by
  have hdrop : ∀ v, (s.drop u).reservations.hget u = some v → ledgerIdentity v ≠ r := by
    intro v hv
    have hn : (s.drop u).reservations.hget u = none := Hash.hget_hdel_self
    rw [hn] at hv; cases hv
  rcases compensate_cases s u r with ⟨e, h⟩ | ⟨_, -, -, ⟨-, e⟩ | ⟨-, -, e⟩ | ⟨-, -, e⟩⟩
  · rw [e]; exact h
  · rw [e]; exact hdrop
  · rw [e]; exact hdrop
  · rw [e]; exact hdrop

/-- A compensation for an identity that is not on file is a `NOOP` and changes nothing. -/
theorem NotOnFile.compensate {s : Sale} {u r : String} (h : NotOnFile s u r) :
    compensate s u r = (⟨.noop, Number.ofInt (s.stock.getD 0)⟩, s) := by
  rcases compensate_cases s u r with ⟨e, -⟩ | ⟨v, hv, hid, -⟩
  · exact e
  · exact absurd hid (h v hv)

/-- **Release, one step.** An identity comes on file only by being written. -/
theorem NotOnFile.exec {s : Sale} {u r : String} (h : NotOnFile s u r) {c : ScriptCall}
    (hid : c.UuidIds) (hw : ∀ v, ¬ Writes s u r c v) : NotOnFile (c.exec s).2 u r := by
  have hset : ∀ (w r' text : String), isUuid r' = true → (w = u → r' ≠ r) →
      ∀ v, (s.reservations.hset w (ledgerValue r' text)).hget u = some v →
        ledgerIdentity v ≠ r := by
    intro w r' text hr' hne v hv
    rw [Hash.hget_hset] at hv
    split_ifs at hv with e
    · obtain rfl := Option.some.inj hv
      rw [ledgerIdentity_of_isUuid text hr']
      exact hne e.symm
    · exact h v hv
  cases c with
  | seed cfg stockRemaining =>
    simp only [ScriptCall.exec]
    rcases seed_cases s cfg (stockRemaining.getD cfg.totalStock) with ⟨-, -, e⟩ | ⟨-, -, e⟩
    · rw [e]; exact h
    · rw [e]; exact h
  | purchase w r' t =>
    simp only [ScriptCall.exec]
    rcases purchase_cases s w r' t with ⟨hrep, hp⟩ | ⟨-, e | ⟨-, e⟩⟩
    · rw [hp.keys]
      refine hset w r' _ hid ?_
      rintro rfl rfl
      exact hw _ (.purchase t (by rw [hrep]))
    · rw [e]; exact h
    · rw [e]; exact h
  | compensate w r' =>
    have hdrop : NotOnFile (s.drop w) u r := by
      intro v hv
      have hv' : (s.reservations.hdel w).hget u = some v := hv
      rw [Hash.hget_hdel] at hv'
      split_ifs at hv' with e
      exact h v hv'
    simp only [ScriptCall.exec]
    rcases compensate_cases s w r' with ⟨e, -⟩ | ⟨_, -, -, ⟨-, e⟩ | ⟨-, -, e⟩ | ⟨-, -, e⟩⟩
    · rw [e]; exact h
    · rw [e]; exact hdrop
    · rw [e]; exact hdrop
    · rw [e]; exact hdrop
  | compareRestore w r' t =>
    simp only [ScriptCall.exec]
    rcases compareRestoreReservation_cases s w r' t with ⟨-, e⟩ | ⟨x, -, ⟨-, e⟩ | ⟨-, e⟩⟩
    · rw [e]
      refine hset w r' _ hid ?_
      rintro rfl rfl
      exact hw _ (.restore t (by rw [e]))
    · rw [e]; exact h
    · rw [e]; exact h
  | reconcileMembership w =>
    simp only [ScriptCall.exec, reconcileMembership]
    split_ifs <;> exact h
  | reconcileState =>
    simp only [ScriptCall.exec, reconcileState]
    cases s.config with
    | none => exact h
    | some cfg => dsimp only; split_ifs <;> exact h
  | status t => exact h
  | inspect w => exact h

/-! ## Runs -/

theorem LedgerHolds.run {s : Sale} {u v : String} (h : LedgerHolds s u v) {cs : List ScriptCall}
    (hcs : .compensate u (ledgerIdentity v) ∉ cs) : LedgerHolds (runScripts s cs).2 u v := by
  induction cs generalizing s with
  | nil => exact h
  | cons c cs ih =>
    refine ih (h.exec fun e => hcs ?_) fun hm => hcs (by simp [hm])
    rw [← e]; simp

/-- No call of the run writes the identity `r` of `u`. -/
def NoWrite (s : Sale) (u r : String) (cs : List ScriptCall) : Prop :=
  ∀ before c after, cs = before ++ c :: after → ∀ v, ¬ Writes (runScripts s before).2 u r c v

theorem NoWrite.tail {s : Sale} {u r : String} {c : ScriptCall} {cs : List ScriptCall}
    (h : NoWrite s u r (c :: cs)) : NoWrite (c.exec s).2 u r cs := by
  rintro before d after rfl
  exact h (c :: before) d after rfl

theorem NoWrite.left {s : Sale} {u r : String} {cs ds : List ScriptCall}
    (h : NoWrite s u r (cs ++ ds)) : NoWrite s u r cs := by
  rintro before c after rfl
  exact h before c (after ++ ds) (by simp)

theorem NotOnFile.run {s : Sale} {u r : String} (h : NotOnFile s u r) {cs : List ScriptCall}
    (hid : ∀ c ∈ cs, c.UuidIds) (hw : NoWrite s u r cs) : NotOnFile (runScripts s cs).2 u r := by
  induction cs generalizing s with
  | nil => exact h
  | cons c cs ih =>
    exact ih (h.exec (hid c (by simp)) (hw [] c cs rfl)) (fun d hd => hid d (by simp [hd])) hw.tail

/-- **Ledger permanence and identity-gated release.** Let a call of a run write `u ↦ v` for the
reservation id `r`, and let `later` be any run after it.

1. While `later` has no compensation for `(u, r)`, the exact text `v` stays in the ledger and `u`
   in the buyers set, and a compensation or restoration of `u` under any other id changes nothing.
2. While `later` has no further write of `(u, r)`, at most one of its compensations for `(u, r)`
   answers anything but `NOOP` or changes anything: every one after the first is refused. -/
theorem ledger_entry_permanent (s : Sale) (u r v : String) (write : ScriptCall)
    (later : List ScriptCall) (hid : ∀ c ∈ write :: later, c.UuidIds)
    (hwrite : Writes s u r write v) :
    (.compensate u r ∉ later →
      LedgerHolds (runScripts s (write :: later)).2 u v ∧
      ∀ r', r' ≠ r →
        compensate (runScripts s (write :: later)).2 u r' =
          (⟨.noop, Number.ofInt ((runScripts s (write :: later)).2.stock.getD 0)⟩,
            (runScripts s (write :: later)).2) ∧
        ∀ t, compareRestoreReservation (runScripts s (write :: later)).2 u r' t =
          ((.conflict, v), (runScripts s (write :: later)).2)) ∧
    (NoWrite (write.exec s).2 u r later →
      ∀ before mid after,
        later = before ++ .compensate u r :: (mid ++ .compensate u r :: after) →
        let s' := (runScripts s (write :: before ++ .compensate u r :: mid)).2
        compensate s' u r = (⟨.noop, Number.ofInt (s'.stock.getD 0)⟩, s')) := by
  have hr : ledgerIdentity v = r := by
    cases hwrite with
    | purchase t _ => exact ledgerIdentity_of_isUuid _ (hid (.purchase u r t) (by simp))
    | restore t _ => exact ledgerIdentity_of_isUuid _ (hid (.compareRestore u r t) (by simp))
  have hhold := hwrite.ledgerHolds
  refine ⟨fun hno => ?_, ?_⟩
  · have hrun : LedgerHolds (runScripts s (write :: later)).2 u v :=
      hhold.run (by rw [hr]; exact hno)
    refine ⟨hrun, fun r' hr' => ?_⟩
    have hne : ledgerIdentity v ≠ r' := by rw [hr]; exact hr'.symm
    exact ⟨hrun.compensate_of_ne hne, hrun.compareRestore_of_ne hne⟩
  · rintro hw before mid after rfl
    intro s'
    -- the state after the first compensation does not have `r` on file, and nothing writes it
    have hs' : s' = (runScripts (compensate (runScripts (write.exec s).2 before).2 u r).2 mid).2 := by
      show (runScripts (write.exec s).2 (before ++ .compensate u r :: mid)).2 = _
      rw [runScripts_append]
      rfl
    have hoff : NotOnFile s' u r := by
      rw [hs']
      refine (notOnFile_compensate _ u r).run (fun c hc => hid c (by simp [hc])) ?_
      rintro b c a rfl w
      have := hw (before ++ .compensate u r :: b) c (a ++ .compensate u r :: after) (by simp) w
      rw [runScripts_append] at this
      exact this
    exact hoff.compensate

/-- One unit on sale from 1000 ms to 2000 ms. -/
def oneUnitSale : Sale :=
  (seed Sale.empty ⟨"flash-2026", "Aurora", "", "", 1000, 2000, 1⟩ 1).2

/-- The reservation id of the samples below. -/
def sampleId : String := "00000000-0000-0000-0000-000000000000"

theorem ledger_entry_permanent_oneUnitSale :
    LedgerHolds (runScripts oneUnitSale
      [.purchase "usr-a" sampleId ⟨1, 500000⟩, .compensate "usr-a" "stale"]).2 "usr-a"
      (sampleId ++ ":1500") ∧
    (compensate (runScripts oneUnitSale
      [.purchase "usr-a" sampleId ⟨1, 500000⟩, .compensate "usr-a" sampleId]).2 "usr-a"
        sampleId).1.outcome = .noop := by
  have hwrite : Writes oneUnitSale "usr-a" sampleId (.purchase "usr-a" sampleId ⟨1, 500000⟩)
      (sampleId ++ ":1500") := .purchase ⟨1, 500000⟩ rfl
  refine ⟨((ledger_entry_permanent oneUnitSale "usr-a" sampleId _ _
    [.compensate "usr-a" "stale"] ?_ hwrite).1 ?_).1, ?_⟩
  · simp [ScriptCall.UuidIds]; decide
  · simp; decide
  · have h := (ledger_entry_permanent oneUnitSale "usr-a" sampleId _ _
      [.compensate "usr-a" sampleId, .compensate "usr-a" sampleId]
      (by simp [ScriptCall.UuidIds]; decide) hwrite).2 ?_ [] [] [] rfl
    · exact congrArg (fun q => q.1.outcome) h
    · intro before c after hsplit v hw
      have hc : c ∈ [ScriptCall.compensate "usr-a" sampleId, .compensate "usr-a" sampleId] := by
        rw [hsplit]; simp
      obtain rfl : c = .compensate "usr-a" sampleId := by simpa using hc
      cases hw

end FlashSale
