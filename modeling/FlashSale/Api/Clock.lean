import FlashSale.Redis.SaleStore
import FlashSale.Redis.Conservation
import Mathlib.Data.Rat.Floor
import Mathlib.Tactic.Linarith

/-!
# The Redis-anchored clock and the fast-path window guard of the API

`RedisAnchoredClock` keeps the last five samples of Cristian's algorithm and uses the offset of
the one with the lowest round trip. `evaluateFastPathGuard` rejects a purchase without asking
Redis when the clock is outside the window by more than `max(skew, 4 * rtt)`.

The process is a state machine over the instants of the Redis clock: scripts of any client run on
the keys, status calls start, are served and settle in any order, also overlapping. The local
clock reads `D` less than the Redis clock. `ApiInv` is the invariant: each sample is off by at most
its round trip (`abs_sampleOffset_le`, the rounding included), and each initialised snapshot shows
the window of the configuration, which no script changes (`config_exec`).
-/

namespace FlashSale

/-! ## The clock -/

structure ClockSample where
  offsetMs : ℤ
  rttMs : ℤ
  deriving DecidableEq, Repr

def RTT_SAMPLE_WINDOW : ℕ := 5

/-- `Math.round`: the nearest integer, halves upwards. -/
def mathRound (x : ℚ) : ℤ := ⌊x + 1 / 2⌋

/-- The offset estimated from a status call between the local instants `t0` and `t1`. -/
def sampleOffset (serverTimeMs t0 t1 : ℤ) : ℤ := mathRound (serverTimeMs - (t0 + (t1 - t0) / 2))

/-- The fields `samples`, `best` and `lastSyncAtMs` of `RedisAnchoredClock`. -/
structure AnchoredClock where
  samples : List ClockSample
  best : Option ClockSample
  lastSyncAtMs : Option ℤ

/-- The sample with the lowest round trip, the earliest of equals. -/
def lowestRtt (first : ClockSample) (samples : List ClockSample) : ClockSample :=
  samples.foldl (fun lowest sample => if sample.rttMs < lowest.rttMs then sample else lowest) first

/-- The part of `attemptSync` after a successful reply. -/
def AnchoredClock.record (c : AnchoredClock) (serverTimeMs t0 t1 : ℤ) : AnchoredClock :=
  let pushed := c.samples ++ [⟨sampleOffset serverTimeMs t0 t1, t1 - t0⟩]
  let samples := if pushed.length > RTT_SAMPLE_WINDOW then pushed.drop 1 else pushed
  { samples
    best := samples.head?.map (lowestRtt · samples)
    lastSyncAtMs := some t1 }

def AnchoredClock.offsetMs (c : AnchoredClock) : ℤ := (c.best.map (·.offsetMs)).getD 0

def AnchoredClock.rttMs (c : AnchoredClock) : ℤ := (c.best.map (·.rttMs)).getD 0

/-- `nowMs()` at the local reading `now`. -/
def AnchoredClock.nowMs (c : AnchoredClock) (now : ℤ) : ℤ := now + c.offsetMs

/-- `isFresh()` at the local reading `now`. -/
def AnchoredClock.isFresh (c : AnchoredClock) (maxStalenessMs now : ℤ) : Bool :=
  c.lastSyncAtMs.any fun at' => now - at' ≤ maxStalenessMs

/-! ## The guard -/

/-- The state of `SaleSnapshotCache`: the last snapshot and when it was received. -/
abbrev SnapshotCache : Type := Option (SaleSnapshot × ℤ)

/-- The fields of `ApiEnv` the guard reads. -/
structure GuardEnv where
  CLOCK_GUARD_SKEW_MS : ℤ
  CLOCK_MAX_STALENESS_MS : ℤ

inductive GuardOutcome where
  | saleNotStarted
  | saleEnded
  deriving DecidableEq, Repr

/-- `evaluateFastPathGuard`. The function reads `Date.now()` three times: in `isFresh`, in the
cache's `get` and in `nowMs`. -/
def evaluateFastPathGuard (clock : AnchoredClock) (cache : SnapshotCache) (env : GuardEnv)
    (freshAt cacheAt now : ℤ) : Option (GuardOutcome × ℤ) :=
  if !clock.isFresh env.CLOCK_MAX_STALENESS_MS freshAt then none
  else match cache with
    | none => none
    | some (snapshot, receivedAtMs) =>
      if !snapshot.initialized then none
      else if cacheAt - receivedAtMs > env.CLOCK_MAX_STALENESS_MS then none
      else
        let skew := max env.CLOCK_GUARD_SKEW_MS (4 * clock.rttMs)
        let nowMs := clock.nowMs now
        if nowMs < snapshot.startsAtMs - skew then some (.saleNotStarted, nowMs)
        else if nowMs ≥ snapshot.endsAtMs + skew then some (.saleEnded, nowMs)
        else none

/-! ## The process -/

/-- A status call in flight: its start and, once served, its reply. -/
structure SyncCall where
  t0 : ℤ
  reply : Option (Except Failure SaleSnapshot)

/-- The API process beside the keys of the sale, at the instant `redisNow` of the Redis clock. -/
structure ApiProcess where
  redisNow : ℕ
  sale : Sale
  clock : AnchoredClock
  cache : SnapshotCache
  inFlight : List SyncCall

inductive ApiEvent where
  /-- Time passes. -/
  | tick (ms : ℕ)
  /-- Some client runs a script on the keys. -/
  | script (c : ScriptCall)
  /-- `attemptSync` reads `t0` and sends its status call. -/
  | syncStart
  /-- Redis runs the script of call `i`. -/
  | syncServe (i : ℕ)
  /-- The answer of call `i` arrives and the rest of `attemptSync` runs. -/
  | syncSettle (i : ℕ)
  /-- Call `i` is rejected. -/
  | syncFail (i : ℕ)

/-- The instant `n` as a reply of `TIME`. -/
def RedisTime.ofMs (n : ℕ) : RedisTime := ⟨n / 1000, n % 1000 * 1000⟩

@[simp] theorem RedisTime.nowMs_ofMs (n : ℕ) : (RedisTime.ofMs n).nowMs = n := by
  unfold RedisTime.ofMs RedisTime.nowMs
  dsimp only
  rw [Nat.mul_div_cancel _ (by norm_num)]
  omega

section Process

-- `D` is what the Redis clock is ahead of the local clock by.
variable (D : ℤ)

/-- The local clock. -/
def ApiProcess.localNow (p : ApiProcess) : ℤ := p.redisNow - D

/-- One event; an index out of range does nothing. -/
def ApiProcess.step (p : ApiProcess) : ApiEvent → ApiProcess
  | .tick ms => { p with redisNow := p.redisNow + ms }
  | .script c => { p with sale := (c.exec p.sale).2 }
  | .syncStart => { p with inFlight := p.inFlight ++ [⟨p.localNow D, none⟩] }
  | .syncServe i =>
    { p with inFlight := p.inFlight.modify i fun call =>
        { call with reply := some (p.sale.status (.ofMs p.redisNow)) } }
  | .syncSettle i =>
    match p.inFlight[i]? with
    | some ⟨t0, some (.ok snapshot)⟩ =>
      { p with
        clock := p.clock.record snapshot.serverTimeMs t0 (p.localNow D)
        cache := some (snapshot, p.localNow D)
        inFlight := p.inFlight.eraseIdx i }
    | some ⟨_, some (.error _)⟩ => { p with inFlight := p.inFlight.eraseIdx i }
    | _ => p
  | .syncFail i => { p with inFlight := p.inFlight.eraseIdx i }

/-- A run of the process. -/
def ApiProcess.run (p : ApiProcess) (es : List ApiEvent) : ApiProcess := es.foldl (·.step D) p

/-- The process before its first sync. -/
def ApiProcess.init (redisNow : ℕ) (sale : Sale) : ApiProcess :=
  ⟨redisNow, sale, ⟨[], none, none⟩, none, []⟩

/-! ## The error bound -/

/-- Cristian's bound with the rounding: the estimate is off by at most the round trip. -/
theorem abs_sampleOffset_le {T t0 t1 : ℤ} (h0 : t0 ≤ T) (h1 : T ≤ t1) :
    -(t1 - t0) ≤ sampleOffset (T + D) t0 t1 - D ∧ sampleOffset (T + D) t0 t1 - D ≤ t1 - t0 := by
  have hshift : sampleOffset (T + D) t0 t1 - D = ⌊((T - t0 : ℤ) : ℚ) - (t1 - t0 : ℤ) / 2 + 1 / 2⌋ := by
    unfold sampleOffset mathRound
    rw [← Int.floor_sub_intCast]
    congr 1
    push_cast
    ring
  rw [hshift]
  have hT0 : (0 : ℚ) ≤ ((T - t0 : ℤ) : ℚ) := by exact_mod_cast sub_nonneg.2 h0
  have hT1 : ((T - t0 : ℤ) : ℚ) ≤ ((t1 - t0 : ℤ) : ℚ) := by exact_mod_cast (by omega)
  rcases eq_or_lt_of_le (show 0 ≤ t1 - t0 by omega) with hz | hpos
  · -- no round trip: the estimate is exact
    have hT : T - t0 = 0 := by omega
    rw [hT, ← hz]
    norm_num
  · have hpos' : (1 : ℚ) ≤ ((t1 - t0 : ℤ) : ℚ) := by exact_mod_cast hpos
    constructor
    · rw [Int.le_floor]
      push_cast at *
      linarith
    · have hlt : ⌊((T - t0 : ℤ) : ℚ) - (t1 - t0 : ℤ) / 2 + 1 / 2⌋ < t1 - t0 + 1 := by
        rw [Int.floor_lt]
        push_cast at *
        linarith
      omega

/-! ## The invariant -/

/-- A sample is off by at most its round trip. -/
def GoodSample (s : ClockSample) : Prop := -s.rttMs ≤ s.offsetMs - D ∧ s.offsetMs - D ≤ s.rttMs

/-- An initialised snapshot shows the window of the configuration, which is not empty. -/
def GoodSnapshot (sale : Sale) (snap : SaleSnapshot) : Prop :=
  snap.initialized = true → ∃ cfg, sale.config = some cfg ∧
    snap.startsAtMs = cfg.startsAtMs ∧ snap.endsAtMs = cfg.endsAtMs ∧
    cfg.startsAtMs < cfg.endsAtMs

/-- A call in flight started in the past and was served since. -/
structure GoodCall (p : ApiProcess) (call : SyncCall) : Prop where
  started : call.t0 ≤ p.localNow D
  served : ∀ snap, call.reply = some (.ok snap) → GoodSnapshot p.sale snap ∧
    ∃ T, snap.serverTimeMs = T + D ∧ call.t0 ≤ T ∧ T ≤ p.localNow D

structure ApiInv (p : ApiProcess) : Prop where
  samples : ∀ s ∈ p.clock.samples, GoodSample D s
  best : ∀ s, p.clock.best = some s → GoodSample D s
  fresh : p.clock.lastSyncAtMs.isSome → p.clock.best.isSome
  cache : ∀ snap at', p.cache = some (snap, at') → GoodSnapshot p.sale snap
  calls : ∀ call ∈ p.inFlight, GoodCall D p call

theorem apiInv_init (redisNow : ℕ) (sale : Sale) : ApiInv D (ApiProcess.init redisNow sale) where
  samples := by simp [ApiProcess.init]
  best := by simp [ApiProcess.init]
  fresh := by simp [ApiProcess.init]
  cache := by simp [ApiProcess.init]
  calls := by simp [ApiProcess.init]

variable {D}

theorem GoodSnapshot.exec {sale : Sale} {snap : SaleSnapshot} (h : GoodSnapshot sale snap)
    (c : ScriptCall) : GoodSnapshot (c.exec sale).2 snap := by
  intro hi
  obtain ⟨cfg, hc, hw⟩ := h hi
  exact ⟨cfg, by rw [(config_exec sale c).1 (by simp [hc]), hc], hw⟩

/-- The chosen sample is one of the window. -/
theorem lowestRtt_mem (first : ClockSample) (samples : List ClockSample) :
    lowestRtt first samples ∈ first :: samples := by
  unfold lowestRtt
  induction samples generalizing first with
  | nil => simp
  | cons s samples ih =>
    rw [List.foldl_cons]
    split_ifs with h
    · exact List.mem_cons_of_mem _ (ih s)
    · rcases List.mem_cons.1 (ih first) with h | h
      · exact List.mem_cons.2 (.inl h)
      · exact List.mem_cons_of_mem _ (List.mem_cons_of_mem _ h)

/-- A sample of good quality keeps the clock's samples good, whichever one is dropped. -/
theorem record_good {c : AnchoredClock} {server t0 t1 : ℤ} (hc : ∀ s ∈ c.samples, GoodSample D s)
    (hs : GoodSample D ⟨sampleOffset server t0 t1, t1 - t0⟩) :
    (∀ s ∈ (c.record server t0 t1).samples, GoodSample D s) ∧
      (∃ s, (c.record server t0 t1).best = some s ∧ GoodSample D s) := by
  have hpush : ∀ s ∈ c.samples ++ [⟨sampleOffset server t0 t1, t1 - t0⟩], GoodSample D s := by
    intro s hm
    rcases List.mem_append.1 hm with hm | hm
    · exact hc s hm
    · obtain rfl := List.mem_singleton.1 hm
      exact hs
  have hsamples : ∀ s ∈ (c.record server t0 t1).samples, GoodSample D s := by
    unfold AnchoredClock.record
    dsimp only
    split_ifs
    · exact fun s hm => hpush s (List.mem_of_mem_drop hm)
    · exact hpush
  refine ⟨hsamples, ?_⟩
  have hbest : (c.record server t0 t1).best =
      (c.record server t0 t1).samples.head?.map (lowestRtt · (c.record server t0 t1).samples) := rfl
  cases hl : (c.record server t0 t1).samples with
  | nil =>
    have hlen : (c.record server t0 t1).samples.length ≠ 0 := by
      unfold AnchoredClock.record RTT_SAMPLE_WINDOW
      dsimp only
      split_ifs with h
      · rw [List.length_drop]
        omega
      · rw [List.length_append, List.length_singleton]
        omega
    simp [hl] at hlen
  | cons first rest =>
    refine ⟨_, by rw [hbest, hl]; rfl, hsamples _ ?_⟩
    have := lowestRtt_mem first (first :: rest)
    rw [hl]
    simpa using this

theorem GoodCall.mono {p q : ApiProcess} {call : SyncCall} (h : GoodCall D p call)
    (ht : p.redisNow ≤ q.redisNow) (hs : ∀ snap, GoodSnapshot p.sale snap → GoodSnapshot q.sale snap) :
    GoodCall D q call := by
  have hle : p.localNow D ≤ q.localNow D := by
    unfold ApiProcess.localNow; omega
  refine ⟨h.started.trans hle, fun snap hr => ?_⟩
  obtain ⟨hg, T, e, h0, h1⟩ := h.served snap hr
  exact ⟨hs snap hg, T, e, h0, h1.trans hle⟩

/-- **One event** keeps the invariant. -/
theorem ApiInv.step {p : ApiProcess} (h : ApiInv D p) (e : ApiEvent) : ApiInv D (p.step D e) := by
  cases e with
  | tick ms =>
    exact ⟨h.samples, h.best, h.fresh, h.cache,
      fun call hc => (h.calls call hc).mono (Nat.le_add_right _ _) fun _ hg => hg⟩
  | script c =>
    exact ⟨h.samples, h.best, h.fresh, fun snap at' hc => (h.cache snap at' hc).exec c,
      fun call hc => (h.calls call hc).mono le_rfl fun _ hg => hg.exec c⟩
  | syncStart =>
    refine ⟨h.samples, h.best, h.fresh, h.cache, fun call hc => ?_⟩
    rcases List.mem_append.1 hc with hc | hc
    · exact (h.calls call hc).mono le_rfl fun _ hg => hg
    · obtain rfl := List.mem_singleton.1 hc
      exact ⟨le_rfl, by simp⟩
  | syncServe i =>
    refine ⟨h.samples, h.best, h.fresh, h.cache, fun call hc => ?_⟩
    obtain ⟨j, hj⟩ := List.mem_iff_getElem?.1 hc
    have hj' : (p.inFlight.modify i fun call =>
        { call with reply := some (p.sale.status (.ofMs p.redisNow)) })[j]? = some call := hj
    rw [List.getElem?_modify] at hj'
    obtain ⟨old, hold, rfl⟩ := Option.map_eq_some_iff.1 hj'
    have hg := h.calls old (List.mem_iff_getElem?.2 ⟨j, hold⟩)
    split_ifs with hij
    · refine ⟨hg.started, fun snap hr => ?_⟩
      obtain ⟨ht, hw⟩ := status_ok (Option.some.inj hr)
      refine ⟨hw, p.localNow D, ?_, hg.started, le_rfl⟩
      rw [ht, RedisTime.nowMs_ofMs]
      unfold ApiProcess.localNow
      ring
    · exact hg.mono le_rfl fun _ hs => hs
  | syncSettle i =>
    simp only [ApiProcess.step]
    have herase : ∀ call ∈ p.inFlight.eraseIdx i, GoodCall D p call :=
      fun call hc => h.calls call (List.mem_of_mem_eraseIdx hc)
    split
    · next t0 snap hi =>
      have hg := h.calls _ (List.mem_iff_getElem?.2 ⟨i, hi⟩)
      obtain ⟨hsnap, T, hT, h0, h1⟩ := hg.served snap rfl
      have hgood : GoodSample D ⟨sampleOffset snap.serverTimeMs t0 (p.localNow D),
          p.localNow D - t0⟩ := by
        rw [hT]; exact abs_sampleOffset_le D h0 h1
      obtain ⟨hs, b, hb, hbg⟩ := record_good h.samples hgood
      refine ⟨hs, fun s e => ?_, fun _ => by simp [hb], ?_, fun call hc => ?_⟩
      · obtain rfl := Option.some.inj (hb.symm.trans e)
        exact hbg
      · rintro _ _ ⟨⟩
        exact hsnap
      · exact (herase call hc).mono le_rfl fun _ hg => hg
    · exact ⟨h.samples, h.best, h.fresh, h.cache,
        fun call hc => (herase call hc).mono le_rfl fun _ hg => hg⟩
    · exact h
  | syncFail i =>
    exact ⟨h.samples, h.best, h.fresh, h.cache, fun call hc =>
      (h.calls call (List.mem_of_mem_eraseIdx hc)).mono le_rfl fun _ hg => hg⟩

/-- **Runs** keep the invariant. -/
theorem ApiInv.run {p : ApiProcess} (h : ApiInv D p) (es : List ApiEvent) : ApiInv D (p.run D es) := by
  induction es generalizing p with
  | nil => exact h
  | cons e es ih => exact ih (h.step e)

/-- Time goes forward and the configuration stays along a run. -/
theorem run_mono (p : ApiProcess) (es : List ApiEvent) :
    p.redisNow ≤ (p.run D es).redisNow ∧
      ∀ cfg, p.sale.config = some cfg → (p.run D es).sale.config = some cfg := by
  induction es generalizing p with
  | nil => exact ⟨le_rfl, fun _ h => h⟩
  | cons e es ih =>
    have hstep : p.redisNow ≤ (p.step D e).redisNow ∧
        ∀ cfg, p.sale.config = some cfg → (p.step D e).sale.config = some cfg := by
      cases e with
      | tick ms => exact ⟨Nat.le_add_right _ _, fun _ h => h⟩
      | script c =>
        refine ⟨le_rfl, fun cfg h => ?_⟩
        show (c.exec p.sale).2.config = some cfg
        rw [(config_exec p.sale c).1 (by simp [h]), h]
      | syncStart => exact ⟨le_rfl, fun _ h => h⟩
      | syncServe i => exact ⟨le_rfl, fun _ h => h⟩
      | syncSettle i =>
        simp only [ApiProcess.step]
        split
        · exact ⟨le_rfl, fun _ h => h⟩
        · exact ⟨le_rfl, fun _ h => h⟩
        · exact ⟨le_rfl, fun _ h => h⟩
      | syncFail i => exact ⟨le_rfl, fun _ h => h⟩
    obtain ⟨ht, hc⟩ := ih (p.step D e)
    exact ⟨hstep.1.trans ht, fun cfg h => hc cfg (hstep.2 cfg h)⟩

/-! ## The guard and the script -/

theorem purchase_of_before {s : Sale} {cfg : SaleConfig} (hc : s.config = some cfg) {t : RedisTime}
    (h : (t.nowMs : ℤ) < cfg.startsAtMs) (u r : String) :
    (purchase s u r t).1.outcome = .saleNotStarted := by
  simp [purchase, hc, h]

theorem purchase_of_after {s : Sale} {cfg : SaleConfig} (hc : s.config = some cfg) {t : RedisTime}
    (h0 : cfg.startsAtMs ≤ t.nowMs) (h : cfg.endsAtMs ≤ t.nowMs) (u r : String) :
    (purchase s u r t).1.outcome = .saleEnded := by
  simp [purchase, hc, not_lt.2 h0, h]

/-- A guard that answers has a clock off by at most `rttMs`, which its margin covers, and a
snapshot of the window. -/
theorem ApiInv.guard_some {p : ApiProcess} (h : ApiInv D p) {env : GuardEnv} {freshAt cacheAt : ℤ}
    {outcome : GuardOutcome} {nowMs : ℤ}
    (hg : evaluateFastPathGuard p.clock p.cache env freshAt cacheAt (p.localNow D) =
      some (outcome, nowMs)) :
    ∃ cfg, p.sale.config = some cfg ∧ cfg.startsAtMs < cfg.endsAtMs ∧
      (outcome = .saleNotStarted → (p.redisNow : ℤ) < cfg.startsAtMs) ∧
      (outcome = .saleEnded → cfg.endsAtMs ≤ p.redisNow) := by
  unfold evaluateFastPathGuard at hg
  split_ifs at hg with hfresh
  cases hc : p.cache with
  | none => rw [hc] at hg; cases hg
  | some entry =>
    obtain ⟨snap, receivedAtMs⟩ := entry
    rw [hc] at hg
    dsimp only at hg
    split_ifs at hg with hinit hstale hbefore hafter
    all_goals
      obtain ⟨cfg, hcfg, hstart, hend, hwindow⟩ := h.cache snap receivedAtMs hc (by simpa using hinit)
      obtain ⟨best, hbest⟩ : ∃ best, p.clock.best = some best := by
        refine Option.isSome_iff_exists.1 (h.fresh ?_)
        unfold AnchoredClock.isFresh at hfresh
        cases hl : p.clock.lastSyncAtMs with
        | none => rw [hl] at hfresh; simp at hfresh
        | some _ => rfl
      have hoff := h.best best hbest
      have hnow : p.clock.nowMs (p.localNow D) = p.redisNow + (best.offsetMs - D) := by
        unfold AnchoredClock.nowMs AnchoredClock.offsetMs ApiProcess.localNow
        rw [hbest]
        simp only [Option.map_some, Option.getD_some]
        ring
      have hrtt : p.clock.rttMs = best.rttMs := by
        unfold AnchoredClock.rttMs
        rw [hbest]
        rfl
      have hskew := le_max_right env.CLOCK_GUARD_SKEW_MS (4 * p.clock.rttMs)
      unfold GoodSample at hoff
      obtain ⟨rfl, -⟩ := Prod.mk.inj (Option.some.inj hg)
    · refine ⟨cfg, hcfg, hwindow, fun _ => by omega, by simp⟩
    · refine ⟨cfg, hcfg, hwindow, by simp, fun _ => by omega⟩

/-- **The guard never contradicts the script.** After any history of ticks, scripts and status
calls, successful, failed or overlapping: if the guard answers `SALE_NOT_STARTED`, a purchase that
runs at this instant is refused with the same outcome, and if it answers `SALE_ENDED`, so is one
that runs at this or any later instant, whatever happens in between. -/
theorem fastPathGuard_agrees_with_purchase (D : ℤ) (redisNow : ℕ) (sale : Sale)
    (es : List ApiEvent) (env : GuardEnv) (freshAt cacheAt : ℤ) (outcome : GuardOutcome) (nowMs : ℤ)
    (hg : evaluateFastPathGuard ((ApiProcess.init redisNow sale).run D es).clock
      ((ApiProcess.init redisNow sale).run D es).cache env freshAt cacheAt
      (((ApiProcess.init redisNow sale).run D es).localNow D) = some (outcome, nowMs)) :
    let p := (ApiProcess.init redisNow sale).run D es
    (outcome = .saleNotStarted → ∀ u r t, t.nowMs = p.redisNow →
      (purchase p.sale u r t).1.outcome = .saleNotStarted) ∧
    (outcome = .saleEnded → ∀ more u r t, t.nowMs = (p.run D more).redisNow →
      (purchase (p.run D more).sale u r t).1.outcome = .saleEnded) := by
  intro p
  obtain ⟨cfg, hcfg, hwindow, hbefore, hafter⟩ := ((apiInv_init D redisNow sale).run es).guard_some hg
  refine ⟨fun ho u r t ht => ?_, fun ho more u r t ht => ?_⟩
  · exact purchase_of_before hcfg (by rw [ht]; exact hbefore ho) u r
  · obtain ⟨hmono, hkeep⟩ := run_mono (D := D) p more
    have hend : cfg.endsAtMs ≤ t.nowMs := by
      have hnow : cfg.endsAtMs ≤ (p.redisNow : ℤ) := hafter ho
      omega
    exact purchase_of_after (hkeep cfg hcfg) (by omega) hend u r

/-- A sync of three milliseconds, 900 ms before the window of `windowSale` opens. -/
def earlySync : List ApiEvent := [.syncStart, .tick 1, .syncServe 0, .tick 2, .syncSettle 0]

/-- One unit on sale from 1000 ms to 2000 ms. -/
def windowSale : Sale := (seed Sale.empty ⟨"flash-2026", "Aurora", "", "", 1000, 2000, 1⟩ 1).2

theorem fastPathGuard_agrees_with_purchase_earlySync :
    evaluateFastPathGuard ((ApiProcess.init 97 windowSale).run 40 earlySync).clock
      ((ApiProcess.init 97 windowSale).run 40 earlySync).cache ⟨250, 15000⟩ 60 60
      (((ApiProcess.init 97 windowSale).run 40 earlySync).localNow 40) =
        some (.saleNotStarted, 100) ∧
      (purchase windowSale "usr-a" "r1" ⟨0, 100000⟩).1.outcome = .saleNotStarted := by
  have hg : evaluateFastPathGuard ((ApiProcess.init 97 windowSale).run 40 earlySync).clock
      ((ApiProcess.init 97 windowSale).run 40 earlySync).cache ⟨250, 15000⟩ 60 60
      (((ApiProcess.init 97 windowSale).run 40 earlySync).localNow 40) =
        some (.saleNotStarted, 100) := by decide +kernel
  exact ⟨hg, (fastPathGuard_agrees_with_purchase 40 97 windowSale earlySync _ _ _ _ _ hg).1 rfl
    "usr-a" "r1" ⟨0, 100000⟩ rfl⟩

end Process

end FlashSale
