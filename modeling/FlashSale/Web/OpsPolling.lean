import FlashSale.Web.SalePolling

/-!
# The poller of the operations ledger

`useOpsSnapshot` polls two resources, each with a time at which it is due again. A poll asks for
those that are due, or for both when it is forced, waits until each has settled, and sets one timer
for the earlier of the two. As in `useSaleStatus` the refs outlive the effect; here the polls
themselves check whether they still own the flight before they write.

The code between two `await`s is one event, and `pass` moves the clock. What React shows is set to
the refs at each write, so the resources stand for both.
-/

namespace FlashSale

open Number

/-! ## Delays -/

def opsSuccessDelay (draw : JsNumber) : JsNumber := jitter (.finite 5000) draw (.finite 6500)

def opsFailureDelay (failure : ℕ) (draw : JsNumber) : JsNumber :=
  let base : ℕ := min 15000 (5000 * max 1 failure)
  jitter (.finite base) draw (.finite 15000)

/-- A whole number of milliseconds up to a bound. -/
def IsDelay (x : JsNumber) (bound : ℕ) : Prop := ∃ n : ℕ, x = .finite n ∧ n ≤ bound

/-- A number that is neither negative nor NaN. -/
def JsNonneg : JsNumber → Prop
  | .finite q => 0 ≤ q
  | .infinite negative => negative = false
  | .nan => False

theorem jsNonneg_ofRat {q : ℚ} (hq : 0 ≤ q) : JsNonneg (ofRat q) := by
  have hulp : (0 : ℚ) < 2 ^ ulpExponent q := zpow_pos (by norm_num) _
  have hfloor : (0 : ℤ) ≤ roundHalfEven (q / 2 ^ ulpExponent q) :=
    (Int.floor_nonneg.2 (div_nonneg hq hulp.le)).trans (floor_le_roundHalfEven _)
  have hr : (0 : ℚ) ≤ roundHalfEven (q / 2 ^ ulpExponent q) * (2 : ℚ) ^ ulpExponent q :=
    mul_nonneg (by exact_mod_cast hfloor) hulp.le
  unfold ofRat
  dsimp only
  split_ifs
  · exact decide_eq_false (not_lt.2 hr)
  · exact hr

theorem JsNonneg.add {x y : JsNumber} (hx : JsNonneg x) (hy : JsNonneg y) : JsNonneg (x.add y) := by
  cases x with
  | finite p =>
    cases y with
    | finite q => exact jsNonneg_ofRat (add_nonneg hx hy)
    | infinite negative => exact hy
    | nan => exact hy
  | infinite negative =>
    obtain rfl : negative = false := hx
    cases y with
    | finite q => exact rfl
    | infinite negative =>
      obtain rfl : negative = false := hy
      exact rfl
    | nan => exact hy
  | nan => exact hx.elim

theorem JsNonneg.finite_mul {p : ℚ} {x : JsNumber} (hp : 0 < p) (hx : JsNonneg x) :
    JsNonneg ((JsNumber.finite p).mul x) := by
  cases x with
  | finite q => exact jsNonneg_ofRat (mul_nonneg hp.le hx)
  | infinite negative =>
    obtain rfl : negative = false := hx
    show JsNonneg (if p = 0 then .nan else .infinite (false != decide (p < 0)))
    rw [if_neg hp.ne', decide_eq_false (not_lt.2 hp.le)]
    rfl
  | nan => exact hx.elim

/-- A rounded number that is not negative, under a cap. -/
theorem isDelay_min {x : JsNumber} {cap : ℕ} (hx : JsNonneg x) :
    IsDelay (JsNumber.min (.finite cap) x.round) cap := by
  cases x with
  | finite q =>
    have hfloor : 0 ≤ ⌊q + 1 / 2⌋ := Int.floor_nonneg.2 (by have : (0 : ℚ) ≤ q := hx; linarith)
    obtain ⟨n, hn⟩ := Int.eq_ofNat_of_zero_le hfloor
    show IsDelay (if _ then _ else _) cap
    rw [if_neg (by simp [JsNumber.round])]
    split_ifs with hle
    · exact ⟨cap, rfl, le_rfl⟩
    · refine ⟨n, by rw [JsNumber.round, hn]; rfl, ?_⟩
      rw [JsNumber.round, JsNumber.finite_le_finite, hn, not_le] at hle
      exact_mod_cast hle.le
  | infinite negative =>
    obtain rfl : negative = false := hx
    exact ⟨cap, rfl, le_rfl⟩
  | nan => exact hx.elim

/-- What `Math.random` draws. -/
def IsDraw (draw : JsNumber) : Prop := ∃ q : ℚ, draw = .finite q ∧ 0 ≤ q

theorem isDelay_jitter (base cap : ℕ) {draw : JsNumber} (hbase : 0 < base) (hdraw : IsDraw draw) :
    IsDelay (jitter (.finite base) draw (.finite cap)) cap := by
  obtain ⟨q, rfl, hq⟩ := hdraw
  have hfactor : ofRat (6 / 10) = .finite (5404319552844595 / 9007199254740992) := by
    decide +kernel
  refine isDelay_min (JsNonneg.finite_mul (by exact_mod_cast hbase) (JsNonneg.add ?_ ?_))
  · exact jsNonneg_ofRat (by norm_num)
  · rw [hfactor]
    exact jsNonneg_ofRat (mul_nonneg hq (by norm_num))

theorem isDelay_opsSuccessDelay {draw : JsNumber} (hdraw : IsDraw draw) :
    IsDelay (opsSuccessDelay draw) 15000 := by
  obtain ⟨n, hn, hle⟩ := isDelay_jitter 5000 6500 (by decide) hdraw
  exact ⟨n, hn, by omega⟩

theorem isDelay_opsFailureDelay (failure : ℕ) {draw : JsNumber} (hdraw : IsDraw draw) :
    IsDelay (opsFailureDelay failure draw) 15000 :=
  isDelay_jitter _ _ (by omega) hdraw

/-! ## The state -/

structure Resource (α : Type) where
  value : Option α
  stale : Bool
  failures : ℕ
  updatedAt : Option ℤ
  dueAt : JsNumber

namespace Resource

variable {α : Type}

def initial : Resource α := ⟨none, false, 0, none, .finite 0⟩

/-- After a response, at the reading `now` of the clock. -/
def updated (value : α) (now : ℤ) (draw : JsNumber) : Resource α where
  value := some value
  stale := false
  failures := 0
  updatedAt := some now
  dueAt := (JsNumber.finite now).add (opsSuccessDelay draw)

def failed (r : Resource α) (now : ℤ) (draw : JsNumber) : Resource α :=
  { r with
    stale := true
    failures := r.failures + 1
    dueAt := (JsNumber.finite now).add (opsFailureDelay (r.failures + 1) draw) }

def settled (r : Resource α) (outcome : Option α) (now : ℤ) (draw : JsNumber) : Resource α :=
  match outcome with
  | some value => updated value now draw
  | none => r.failed now draw

end Resource

/-- A `poll` that has not returned; `metrics` and `readiness` say which of its requests have not
settled. -/
structure OpsPoll where
  abort : ℕ
  ownGeneration : ℕ
  aborted : Bool
  metrics : Bool
  readiness : Bool

/-- The hook's refs, the document, the clock and the event loop. `M` and `R` are the two
responses. -/
structure OpsPoller (M R : Type) where
  metrics : Resource M
  readiness : Resource R
  timer : Option ℕ
  generation : ℕ
  running : Bool
  controller : Option ℕ
  mounted : Bool
  visible : Bool
  now : ℤ
  timers : List PollTimer
  polls : List OpsPoll
  nextHandle : ℕ
  nextAbort : ℕ

/-- A request settles with its response or fails; `draw` is what `rng()` returns for it. -/
inductive OpsEvent (M R : Type) where
  | mount
  | cleanup
  | visibility (visible : Bool)
  | refresh
  | fire (handle : ℕ)
  | settleMetrics (abort : ℕ) (outcome : Option M) (draw : JsNumber)
  | settleReadiness (abort : ℕ) (outcome : Option R) (draw : JsNumber)
  /-- `Promise.allSettled` of a poll is done. -/
  | finish (abort : ℕ)
  | pass (ms : ℤ)

namespace OpsPoller

variable {M R : Type}

/-- Before the first effect. -/
def idle (visible : Bool) (now : ℤ) : OpsPoller M R where
  metrics := .initial
  readiness := .initial
  timer := none
  generation := 0
  running := false
  controller := none
  mounted := false
  visible
  now
  timers := []
  polls := []
  nextHandle := 1
  nextAbort := 0

/-- `poll` up to its `await`. -/
def poll (s : OpsPoller M R) (force : Bool) : OpsPoller M R :=
  if s.visible = false ∨ s.running = true then s
  else { s with
    running := true
    controller := some s.nextAbort
    polls := s.polls ++ [⟨s.nextAbort, s.generation, false,
      force || s.metrics.dueAt.le (.finite s.now), force || s.readiness.dueAt.le (.finite s.now)⟩]
    nextAbort := s.nextAbort + 1 }

/-- `ownsPoll`. -/
def OwnsPoll (s : OpsPoller M R) (p : OpsPoll) : Prop :=
  p.ownGeneration = s.generation ∧ s.controller = some p.abort ∧ p.aborted = false

instance (s : OpsPoller M R) (p : OpsPoll) : Decidable (s.OwnsPoll p) :=
  inferInstanceAs (Decidable (_ ∧ _))

def setPoll (s : OpsPoller M R) (p : OpsPoll) : OpsPoller M R :=
  { s with polls := s.polls.map fun q => if q.abort = p.abort then p else q }

/-- The callbacks of `getSaleMetrics`. -/
def settleMetrics (s : OpsPoller M R) (p : OpsPoll) (outcome : Option M) (draw : JsNumber) :
    OpsPoller M R :=
  let s := s.setPoll { p with metrics := false }
  if s.OwnsPoll p then { s with metrics := s.metrics.settled outcome s.now draw } else s

/-- The callbacks of `getReadiness`. -/
def settleReadiness (s : OpsPoller M R) (p : OpsPoll) (outcome : Option R) (draw : JsNumber) :
    OpsPoller M R :=
  let s := s.setPoll { p with readiness := false }
  if s.OwnsPoll p then { s with readiness := s.readiness.settled outcome s.now draw } else s

def drop (s : OpsPoller M R) (abort : ℕ) : OpsPoller M R :=
  { s with polls := s.polls.filter fun p => p.abort ≠ abort }

/-- `poll` from its `await` on. -/
def finish (s : OpsPoller M R) (p : OpsPoll) : OpsPoller M R :=
  let s := s.drop p.abort
  if s.OwnsPoll p then
    let nextDue := JsNumber.min s.metrics.dueAt s.readiness.dueAt
    { s with
      running := false
      controller := none
      timer := some s.nextHandle
      timers := s.timers ++
        [⟨s.nextHandle, JsNumber.max (.finite 0) (nextDue.sub (.finite s.now))⟩]
      nextHandle := s.nextHandle + 1 }
  else s

/-- `if (timer.current) clearTimeout(timer.current); timer.current = undefined`. -/
def clearTimer (s : OpsPoller M R) : OpsPoller M R :=
  { s with
    timers := s.timers.filter fun t => some t.handle ≠ s.timer
    timer := none }

def refresh (s : OpsPoller M R) : OpsPoller M R := s.clearTimer.poll true

/-- The effect. -/
def mount (s : OpsPoller M R) : OpsPoller M R :=
  { s with generation := s.generation + 1, mounted := true }.poll true

/-- The cleanup of the effect. -/
def cleanup (s : OpsPoller M R) : OpsPoller M R :=
  let s := { s with generation := s.generation + 1 }.clearTimer
  { s with
    polls := s.polls.map fun p =>
      if s.controller = some p.abort then { p with aborted := true } else p
    controller := none
    running := false
    mounted := false }

/-- A change of `document.visibilityState`, with `onVisibility` if it is registered. -/
def visibilityChange (s : OpsPoller M R) (visible : Bool) : OpsPoller M R :=
  let s := { s with visible }
  if s.mounted && visible then s.refresh else s

/-- The timeout leaves the event loop and calls `poll`. -/
def fire (s : OpsPoller M R) (handle : ℕ) : OpsPoller M R :=
  { s with timers := s.timers.filter fun t => t.handle ≠ handle }.poll false

def step (s : OpsPoller M R) : OpsEvent M R → Option (OpsPoller M R)
  | .mount => if s.mounted then none else some s.mount
  | .cleanup => if s.mounted then some s.cleanup else none
  | .visibility visible => some (s.visibilityChange visible)
  | .refresh => some s.refresh
  | .fire handle => if s.timers.any (·.handle = handle) then some (s.fire handle) else none
  | .settleMetrics abort outcome draw =>
    (s.polls.find? fun p => p.abort = abort ∧ p.metrics = true).map fun p =>
      s.settleMetrics p outcome draw
  | .settleReadiness abort outcome draw =>
    (s.polls.find? fun p => p.abort = abort ∧ p.readiness = true).map fun p =>
      s.settleReadiness p outcome draw
  | .finish abort =>
    (s.polls.find? fun p => p.abort = abort ∧ p.metrics = false ∧ p.readiness = false).map fun p =>
      s.finish p
  | .pass ms => some { s with now := s.now + ms }

/-! ## The invariant -/

variable {s s' : OpsPoller M R} {p : OpsPoll}

/-- The controller belongs to a poll that owns the flight, and every poll of the current generation
is that one; while it runs no timeout is pending; and nothing of the current generation is left
while the effect is not mounted. -/
structure Inv (s : OpsPoller M R) : Prop where
  aborts : (s.polls.map (·.abort)).Nodup
  fresh : ∀ p ∈ s.polls, p.abort < s.nextAbort
  past : ∀ p ∈ s.polls, p.ownGeneration ≤ s.generation
  owner : ∀ a, s.controller = some a → ∃ p ∈ s.polls, p.abort = a ∧ s.OwnsPoll p
  current : ∀ p ∈ s.polls, p.ownGeneration = s.generation → s.controller = some p.abort
  flight : s.running = s.controller.isSome
  armed : ∀ t ∈ s.timers, s.timer = some t.handle
  quiet : s.running = true → s.timers = []
  unmounted : s.mounted = false → s.controller = none ∧ s.timers = []

/-- Something is under way while the page is shown. -/
def Live (s : OpsPoller M R) : Prop :=
  s.mounted = true → s.visible = true → s.running = true ∨ s.timers ≠ []

theorem inv_idle (visible : Bool) (now : ℤ) : (idle visible now : OpsPoller M R).Inv where
  aborts := List.nodup_nil
  fresh := by intro p hp; cases hp
  past := by intro p hp; cases hp
  owner := by intro a ha; cases ha
  current := by intro p hp; cases hp
  flight := rfl
  armed := by intro t ht; cases ht
  quiet := by intro hr; cases hr
  unmounted _ := ⟨rfl, rfl⟩

/-- Only the owner of the flight holds the controller. -/
theorem Inv.owns_iff (h : s.Inv) (hp : p ∈ s.polls) :
    s.OwnsPoll p ↔ s.controller = some p.abort := by
  refine ⟨fun hown => hown.2.1, fun hc => ?_⟩
  obtain ⟨p', hp', ha, hown⟩ := h.owner _ hc
  rw [← List.inj_on_of_nodup_map h.aborts hp' hp ha]
  exact hown

/-- What the invariant reads of a poll. -/
def key (p : OpsPoll) : ℕ × ℕ × Bool := (p.abort, p.ownGeneration, p.aborted)

theorem owns_congr {q : OpsPoll} (hgen : s'.generation = s.generation)
    (hcontroller : s'.controller = s.controller) (hkey : key q = key p) :
    s'.OwnsPoll q ↔ s.OwnsPoll p := by
  obtain ⟨ha, hrest⟩ := Prod.mk.inj hkey
  obtain ⟨hg, hb⟩ := Prod.mk.inj hrest
  unfold OwnsPoll
  rw [hgen, hcontroller, ha, hg, hb]

/-- A change of fields that the invariant does not read. -/
theorem Inv.congr (h : s.Inv) (hgen : s'.generation = s.generation)
    (hpolls : s'.polls.map key = s.polls.map key) (hnext : s'.nextAbort = s.nextAbort)
    (hcontroller : s'.controller = s.controller) (hrunning : s'.running = s.running)
    (hmounted : s'.mounted = s.mounted)
    (htimers : ∀ t ∈ s'.timers, t ∈ s.timers ∧ s'.timer = s.timer) : s'.Inv := by
  have hback : ∀ q ∈ s'.polls, ∃ p ∈ s.polls, key p = key q := fun q hq =>
    List.mem_map.1 (hpolls ▸ List.mem_map_of_mem hq)
  have hforth : ∀ p ∈ s.polls, ∃ q ∈ s'.polls, key q = key p := fun p hp =>
    List.mem_map.1 (hpolls ▸ List.mem_map_of_mem hp)
  have hnil : s.timers = [] → s'.timers = [] := fun hs =>
    List.eq_nil_iff_forall_not_mem.2 fun t ht => by
      have hmem := (htimers t ht).1
      rw [hs] at hmem
      cases hmem
  have habort : ∀ l : List OpsPoll, l.map (·.abort) = (l.map key).map Prod.fst := fun l => by
    rw [List.map_map]
    rfl
  refine ⟨?_, ?_, ?_, ?_, ?_, ?_, ?_, ?_, ?_⟩
  · rw [habort, hpolls, ← habort]
    exact h.aborts
  · intro q hq
    obtain ⟨p, hp, hkey⟩ := hback q hq
    rw [hnext, ← (Prod.mk.inj hkey).1]
    exact h.fresh p hp
  · intro q hq
    obtain ⟨p, hp, hkey⟩ := hback q hq
    rw [hgen, ← (Prod.mk.inj (Prod.mk.inj hkey).2).1]
    exact h.past p hp
  · intro a ha
    obtain ⟨p, hp, hpa, hown⟩ := h.owner a (hcontroller ▸ ha)
    obtain ⟨q, hq, hkey⟩ := hforth p hp
    exact ⟨q, hq, (Prod.mk.inj hkey).1.trans hpa, (owns_congr hgen hcontroller hkey).2 hown⟩
  · intro q hq hg
    obtain ⟨p, hp, hkey⟩ := hback q hq
    rw [hgen, ← (Prod.mk.inj (Prod.mk.inj hkey).2).1] at hg
    rw [hcontroller, ← (Prod.mk.inj hkey).1]
    exact h.current p hp hg
  · rw [hrunning, hcontroller]
    exact h.flight
  · exact fun t ht => (htimers t ht).2.trans (h.armed t (htimers t ht).1)
  · exact fun hr => hnil (h.quiet (hrunning ▸ hr))
  · intro hm
    obtain ⟨hc, ht⟩ := h.unmounted (hmounted ▸ hm)
    exact ⟨hcontroller.trans hc, hnil ht⟩

/-- Every pending timeout is cleared. -/
theorem Inv.timers_clearTimer (h : s.Inv) : s.clearTimer.timers = [] := by
  refine List.filter_eq_nil_iff.2 fun t ht => ?_
  simp [h.armed t ht]

theorem Inv.clearTimer (h : s.Inv) : s.clearTimer.Inv :=
  h.congr rfl rfl rfl rfl rfl rfl fun t ht => by
    rw [h.timers_clearTimer] at ht
    cases ht

/-- `poll` starts requests, or some are under way, or the page is hidden. -/
theorem poll_cases (s : OpsPoller M R) (force : Bool) :
    (s.poll force = s ∧ (s.visible = false ∨ s.running = true)) ∨
      s.visible = true ∧ s.running = false ∧ ∃ metrics readiness, s.poll force = { s with
        running := true
        controller := some s.nextAbort
        polls := s.polls ++ [⟨s.nextAbort, s.generation, false, metrics, readiness⟩]
        nextAbort := s.nextAbort + 1 } := by
  unfold poll
  split_ifs with hv
  · exact .inl ⟨rfl, hv⟩
  · rw [not_or] at hv
    exact .inr ⟨by simpa using hv.1, by simpa using hv.2, _, _, rfl⟩

theorem live_poll (s : OpsPoller M R) (force : Bool) : (s.poll force).Live := by
  intro _ hv
  rcases s.poll_cases force with ⟨e, hv' | hr⟩ | ⟨-, -, _, _, e⟩
  · rw [e] at hv
    exact absurd (hv'.symm.trans hv) (by simp)
  · rw [e]; exact .inl hr
  · rw [e]; exact .inl rfl

theorem Inv.poll (h : s.Inv) (hm : s.mounted = true) (ht : s.timers = []) (force : Bool) :
    (s.poll force).Inv := by
  rcases s.poll_cases force with ⟨e, -⟩ | ⟨-, hr, metrics, readiness, e⟩
  · rw [e]; exact h
  -- no poll of this generation was under way
  have hnone : s.controller = none := by
    have hflight := h.flight
    rw [hr] at hflight
    exact Option.not_isSome_iff_eq_none.1 (by simp [← hflight])
  rw [e]
  refine ⟨?_, ?_, ?_, ?_, ?_, rfl, ?_, fun _ => ht, fun hm' => absurd (hm'.symm.trans hm) (by simp)⟩
  · rw [List.map_append, List.nodup_append]
    refine ⟨h.aborts, List.nodup_singleton _, ?_⟩
    rintro a ha b hb rfl
    obtain ⟨p, hp, rfl⟩ := List.mem_map.1 ha
    have hlt := h.fresh p hp
    have heq : p.abort = s.nextAbort := by simpa using hb
    omega
  · intro p hp
    rcases List.mem_append.1 hp with hp | hp
    · exact Nat.lt_succ_of_lt (h.fresh p hp)
    · rw [List.mem_singleton.1 hp]
      exact Nat.lt_succ_self _
  · intro p hp
    rcases List.mem_append.1 hp with hp | hp
    · exact h.past p hp
    · rw [List.mem_singleton.1 hp]
  · rintro a ⟨⟩
    exact ⟨_, List.mem_append_right _ (List.mem_singleton_self _), rfl, rfl, rfl, rfl⟩
  · intro p hp hg
    rcases List.mem_append.1 hp with hp | hp
    · have hc := h.current p hp hg
      rw [hnone] at hc
      cases hc
    · rw [List.mem_singleton.1 hp]
  · intro t htm
    have hnil : t ∈ s.timers := htm
    rw [ht] at hnil
    cases hnil

/-! ## The events -/

theorem Inv.refresh (h : s.Inv) (hm : s.mounted = true) : s.refresh.Inv :=
  h.clearTimer.poll hm h.timers_clearTimer true

/-- Only one timeout is pending. -/
theorem Inv.fire (h : s.Inv) (hm : s.mounted = true) {handle : ℕ}
    (hpending : s.timers.any (·.handle = handle) = true) : (s.fire handle).Inv := by
  obtain ⟨t, ht, hhandle⟩ := List.any_eq_true.1 hpending
  have hnone : (s.timers.filter fun t => t.handle ≠ handle) = [] := by
    refine List.filter_eq_nil_iff.2 fun t' ht' => ?_
    have hsame : t'.handle = t.handle :=
      Option.some.inj ((h.armed t' ht').symm.trans (h.armed t ht))
    rw [hsame]
    simpa using hhandle
  refine Inv.poll (s := { s with timers := s.timers.filter fun t => t.handle ≠ handle })
    (h.congr rfl rfl rfl rfl rfl rfl fun t' ht' => ?_) hm hnone false
  exact ⟨(List.mem_filter.1 ht').1, rfl⟩

/-- With another generation no poll is current any more. -/
theorem Inv.mount (h : s.Inv) (hm : s.mounted = false) : s.mount.Inv := by
  obtain ⟨hc, ht⟩ := h.unmounted hm
  refine Inv.poll (s := { s with generation := s.generation + 1, mounted := true })
    ⟨h.aborts, h.fresh, fun p hp => Nat.le_succ_of_le (h.past p hp), ?_, ?_, h.flight, h.armed,
      h.quiet, fun hm' => by cases hm'⟩ rfl ht true
  · intro a ha
    cases hc.symm.trans ha
  · intro p hp hg
    have hle := h.past p hp
    dsimp only at hg
    omega

theorem Inv.cleanup (h : s.Inv) : s.cleanup.Inv := by
  have habort : ∀ p : OpsPoll, (if s.controller = some p.abort then
      { p with aborted := true } else p).abort = p.abort := by
    intro p
    split_ifs <;> rfl
  have hgen : ∀ p : OpsPoll, (if s.controller = some p.abort then
      { p with aborted := true } else p).ownGeneration = p.ownGeneration := by
    intro p
    split_ifs <;> rfl
  have hback : ∀ p ∈ s.cleanup.polls, ∃ p₀ ∈ s.polls, p.abort = p₀.abort ∧
      p.ownGeneration = p₀.ownGeneration := by
    intro p hp
    obtain ⟨p₀, hp₀, rfl⟩ := List.mem_map.1 hp
    exact ⟨p₀, hp₀, habort p₀, hgen p₀⟩
  have hnone : s.cleanup.timers = [] := h.timers_clearTimer
  refine ⟨?_, ?_, ?_, ?_, ?_, rfl, ?_, fun _ => hnone, fun _ => ⟨rfl, hnone⟩⟩
  · have hmap : s.cleanup.polls.map (·.abort) = s.polls.map (·.abort) := by
      unfold OpsPoller.cleanup OpsPoller.clearTimer
      rw [List.map_map]
      exact List.map_congr_left fun p _ => habort p
    rw [hmap]
    exact h.aborts
  · intro p hp
    obtain ⟨p₀, hp₀, ha, -⟩ := hback p hp
    rw [ha]
    exact h.fresh p₀ hp₀
  · intro p hp
    obtain ⟨p₀, hp₀, -, hg⟩ := hback p hp
    rw [hg]
    exact Nat.le_succ_of_le (h.past p₀ hp₀)
  · intro a ha
    cases ha
  · intro p hp hg
    obtain ⟨p₀, hp₀, -, hg₀⟩ := hback p hp
    have hle := h.past p₀ hp₀
    have hnew : s.cleanup.generation = s.generation + 1 := rfl
    omega
  · intro t ht
    rw [hnone] at ht
    cases ht

/-- A request that settles is ticked off, and that is all the invariant sees. -/
theorem Inv.map_key_setPoll (h : s.Inv) (hp : p ∈ s.polls) (p' : OpsPoll) (hkey : key p' = key p) :
    (s.setPoll p').polls.map key = s.polls.map key := by
  have ha : p'.abort = p.abort := (Prod.mk.inj hkey).1
  unfold setPoll
  rw [List.map_map]
  refine List.map_congr_left fun q hq => ?_
  show key (if q.abort = p'.abort then p' else q) = key q
  split_ifs with he
  · rw [hkey, List.inj_on_of_nodup_map h.aborts hq hp (he.trans ha)]
  · rfl

theorem Inv.settleMetrics (h : s.Inv) (hp : p ∈ s.polls) (outcome : Option M) (draw : JsNumber) :
    (s.settleMetrics p outcome draw).Inv := by
  have hkeys := h.map_key_setPoll hp { p with metrics := false } rfl
  unfold OpsPoller.settleMetrics
  dsimp only
  split_ifs
  · exact h.congr rfl hkeys rfl rfl rfl rfl fun t ht => ⟨ht, rfl⟩
  · exact h.congr rfl hkeys rfl rfl rfl rfl fun t ht => ⟨ht, rfl⟩

theorem Inv.settleReadiness (h : s.Inv) (hp : p ∈ s.polls) (outcome : Option R) (draw : JsNumber) :
    (s.settleReadiness p outcome draw).Inv := by
  have hkeys := h.map_key_setPoll hp { p with readiness := false } rfl
  unfold OpsPoller.settleReadiness
  dsimp only
  split_ifs
  · exact h.congr rfl hkeys rfl rfl rfl rfl fun t ht => ⟨ht, rfl⟩
  · exact h.congr rfl hkeys rfl rfl rfl rfl fun t ht => ⟨ht, rfl⟩

theorem Inv.finish (h : s.Inv) (hp : p ∈ s.polls) :
    (s.finish p).Inv ∧ (s.Live → (s.finish p).Live) := by
  have haborts : ((s.polls.filter fun q => q.abort ≠ p.abort).map (·.abort)).Nodup :=
    h.aborts.sublist (List.filter_sublist.map _)
  have hmem : ∀ q ∈ s.polls.filter fun q => q.abort ≠ p.abort, q ∈ s.polls ∧ q.abort ≠ p.abort :=
    fun q hq => ⟨(List.mem_filter.1 hq).1, by simpa using (List.mem_filter.1 hq).2⟩
  unfold OpsPoller.finish
  dsimp only
  by_cases hown : (s.drop p.abort).OwnsPoll p
  · have hc : s.controller = some p.abort := hown.2.1
    have htimers : s.timers = [] := h.quiet (by rw [h.flight, hc]; rfl)
    rw [if_pos hown]
    refine ⟨⟨haborts, fun q hq => h.fresh q (hmem q hq).1, fun q hq => h.past q (hmem q hq).1,
      (by intro a ha; cases ha), ?_, rfl, ?_, (by intro hr; cases hr), fun hm => ?_⟩,
      fun _ _ _ => .inr (by simp)⟩
    · intro q hq hg
      -- the only current poll has just returned
      have hcq := h.current q (hmem q hq).1 hg
      exact absurd (Option.some.inj (hc.symm.trans hcq)).symm (hmem q hq).2
    · intro t ht
      have ht : t ∈ s.timers ++ [_] := ht
      rw [htimers] at ht
      rw [List.mem_singleton.1 ht]
    · exact absurd ((h.unmounted hm).1.symm.trans hc) (by simp)
  · rw [if_neg hown]
    have hne : s.controller ≠ some p.abort := fun hc => hown ((h.owns_iff hp).2 hc)
    refine ⟨⟨haborts, fun q hq => h.fresh q (hmem q hq).1, fun q hq => h.past q (hmem q hq).1, ?_,
      fun q hq => h.current q (hmem q hq).1, h.flight, h.armed, h.quiet, h.unmounted⟩, fun hl => hl⟩
    intro a ha
    obtain ⟨q, hq, hqa, hqown⟩ := h.owner a ha
    refine ⟨q, List.mem_filter.2 ⟨hq, ?_⟩, hqa, hqown⟩
    have hqne : q.abort ≠ p.abort := by
      rintro e
      exact hne (hqown.2.1.trans (by rw [e]))
    simpa using hqne

theorem settleMetrics_eq (s : OpsPoller M R) (p : OpsPoll) (outcome : Option M) (draw : JsNumber) :
    ∃ metrics, s.settleMetrics p outcome draw =
        { s.setPoll { p with metrics := false } with metrics } ∧
      (metrics = s.metrics ∨ metrics = s.metrics.settled outcome s.now draw) := by
  unfold OpsPoller.settleMetrics
  dsimp only
  split_ifs
  · exact ⟨_, rfl, .inr rfl⟩
  · exact ⟨_, rfl, .inl rfl⟩

theorem settleReadiness_eq (s : OpsPoller M R) (p : OpsPoll) (outcome : Option R)
    (draw : JsNumber) : ∃ readiness, s.settleReadiness p outcome draw =
        { s.setPoll { p with readiness := false } with readiness } ∧
      (readiness = s.readiness ∨ readiness = s.readiness.settled outcome s.now draw) := by
  unfold OpsPoller.settleReadiness
  dsimp only
  split_ifs
  · exact ⟨_, rfl, .inr rfl⟩
  · exact ⟨_, rfl, .inl rfl⟩

/-- What is assumed of an event: the clock does not go back, the draws are those of `Math.random`, and
nobody asks for a refresh while the effect is not mounted. -/
def Timely (s : OpsPoller M R) : OpsEvent M R → Prop
  | .settleMetrics _ _ draw | .settleReadiness _ _ draw => IsDraw draw
  | .pass ms => 0 ≤ ms
  | .refresh => s.mounted = true
  | _ => True

/-- **One event.** -/
theorem Inv.step (h : s.Inv) (hl : s.Live) {e : OpsEvent M R} (he : s.Timely e)
    (hstep : s.step e = some s') : s'.Inv ∧ s'.Live := by
  cases e with
  | mount =>
    dsimp only [OpsPoller.step] at hstep
    split_ifs at hstep with hm
    obtain rfl := Option.some.inj hstep
    exact ⟨h.mount (by simpa using hm), live_poll _ _⟩
  | cleanup =>
    dsimp only [OpsPoller.step] at hstep
    split_ifs at hstep
    obtain rfl := Option.some.inj hstep
    exact ⟨h.cleanup, fun hm => by cases hm⟩
  | visibility visible =>
    obtain rfl := Option.some.inj hstep
    have hv : { s with visible }.Inv := h.congr rfl rfl rfl rfl rfl rfl fun t ht => ⟨ht, rfl⟩
    unfold visibilityChange
    dsimp only
    split_ifs with hshown
    · rw [Bool.and_eq_true] at hshown
      exact ⟨hv.refresh hshown.1, live_poll _ _⟩
    · refine ⟨hv, fun hm hs => absurd ?_ hshown⟩
      rw [Bool.and_eq_true]
      exact ⟨hm, hs⟩
  | refresh =>
    obtain rfl := Option.some.inj hstep
    exact ⟨h.refresh he, live_poll _ _⟩
  | fire handle =>
    dsimp only [OpsPoller.step] at hstep
    split_ifs at hstep with hpending
    obtain rfl := Option.some.inj hstep
    -- an unmounted effect has no timeout
    have hm : s.mounted = true := by
      by_contra hm
      rw [(h.unmounted (by simpa using hm)).2] at hpending
      cases hpending
    exact ⟨h.fire hm hpending, live_poll _ _⟩
  | settleMetrics abort outcome draw =>
    obtain ⟨p, hp, rfl⟩ := Option.map_eq_some_iff.1 hstep
    refine ⟨h.settleMetrics (List.mem_of_find?_eq_some hp) outcome draw, ?_⟩
    obtain ⟨metrics, e, -⟩ := s.settleMetrics_eq p outcome draw
    rw [e]
    exact hl
  | settleReadiness abort outcome draw =>
    obtain ⟨p, hp, rfl⟩ := Option.map_eq_some_iff.1 hstep
    refine ⟨h.settleReadiness (List.mem_of_find?_eq_some hp) outcome draw, ?_⟩
    obtain ⟨readiness, e, -⟩ := s.settleReadiness_eq p outcome draw
    rw [e]
    exact hl
  | finish abort =>
    obtain ⟨p, hp, rfl⟩ := Option.map_eq_some_iff.1 hstep
    obtain ⟨hinv, hlive⟩ := h.finish (List.mem_of_find?_eq_some hp)
    exact ⟨hinv, hlive hl⟩
  | pass ms =>
    obtain rfl := Option.some.inj hstep
    exact ⟨h.congr rfl rfl rfl rfl rfl rfl fun t ht => ⟨ht, rfl⟩, hl⟩

/-! ## The cadence -/

/-- The last whole millisecond a `Date` reaches. -/
def MAX_DATE : ℤ := 8640000000000000

/-- Due no later than 15 s from now. -/
def DueBy (x : JsNumber) (now : ℤ) : Prop := ∃ d : ℤ, x = .finite d ∧ 0 ≤ d ∧ d ≤ now + 15000

theorem DueBy.mono {x : JsNumber} {now now' : ℤ} (h : DueBy x now) (hle : now ≤ now') :
    DueBy x now' := by
  obtain ⟨d, hd, h0, h15⟩ := h
  exact ⟨d, hd, h0, by omega⟩

theorem ofRat_safe {z : ℤ} (hz : |z| < 2 ^ 53) : ofRat z = .finite z := by
  rw [abs_lt] at hz
  rw [ofRat_intCast (by omega), ofInt_of_safe (by unfold Number.MAX_SAFE_INTEGER; omega)
    (by unfold Number.MAX_SAFE_INTEGER; omega)]

/-- The time at which a resource is due that settled now. -/
theorem dueBy_add {now : ℤ} {delayMs : JsNumber} (h0 : 0 ≤ now) (hmax : now ≤ MAX_DATE)
    (hdelay : IsDelay delayMs 15000) : DueBy ((JsNumber.finite now).add delayMs) now := by
  obtain ⟨n, rfl, hn⟩ := hdelay
  unfold MAX_DATE at hmax
  refine ⟨now + n, ?_, by omega, by omega⟩
  have hsum : |now + (n : ℤ)| < 2 ^ 53 := by
    rw [abs_of_nonneg (by omega)]
    omega
  show ofRat (now + n) = _
  rw [← ofRat_safe hsum]
  push_cast
  rfl

theorem dueBy_min {x y : JsNumber} {now : ℤ} (hx : DueBy x now) (hy : DueBy y now) :
    DueBy (JsNumber.min x y) now := by
  obtain ⟨d, rfl, hd⟩ := hx
  obtain ⟨d', rfl, hd'⟩ := hy
  show DueBy (if _ then _ else _) now
  rw [if_neg (by simp)]
  split_ifs
  · exact ⟨d, rfl, hd⟩
  · exact ⟨d', rfl, hd'⟩

/-- The delay of the next timer. -/
theorem isDelay_untilDue {x : JsNumber} {now : ℤ} (h0 : 0 ≤ now) (hmax : now ≤ MAX_DATE)
    (hx : DueBy x now) :
    IsDelay (JsNumber.max (.finite 0) (x.sub (.finite now))) 15000 := by
  obtain ⟨d, rfl, hd0, hd⟩ := hx
  unfold MAX_DATE at hmax
  have hdiff : (JsNumber.finite (d : ℚ)).sub (.finite now) = .finite ((d - now : ℤ) : ℚ) := by
    have hbound : |d - now| < 2 ^ 53 := by
      rw [abs_lt]
      omega
    rw [← ofRat_safe hbound]
    show ofRat ((d : ℚ) + -(now : ℚ)) = _
    push_cast
    rw [sub_eq_add_neg]
  rw [hdiff]
  show IsDelay (if _ then _ else _) 15000
  rw [if_neg (by simp)]
  split_ifs with hle
  · rw [JsNumber.finite_le_finite] at hle
    have hnonneg : 0 ≤ d - now := by exact_mod_cast hle
    obtain ⟨n, hn⟩ := Int.eq_ofNat_of_zero_le hnonneg
    refine ⟨n, ?_, by omega⟩
    rw [hn]
    rfl
  · exact ⟨0, by simp, by omega⟩

/-- Both resources are due, and the pending timeouts fire, within 15 s. -/
structure Cadence (s : OpsPoller M R) : Prop where
  metrics : DueBy s.metrics.dueAt s.now
  readiness : DueBy s.readiness.dueAt s.now
  timers : ∀ t ∈ s.timers, IsDelay t.delayMs 15000

/-- Neither the resources nor the clock change, and no timeout is added. -/
structure Calm (s s' : OpsPoller M R) : Prop where
  metrics : s'.metrics = s.metrics
  readiness : s'.readiness = s.readiness
  now : s'.now = s.now
  timers : ∀ t ∈ s'.timers, t ∈ s.timers

theorem Cadence.calm (h : s.Cadence) (hc : Calm s s') : s'.Cadence :=
  ⟨by rw [hc.metrics, hc.now]; exact h.metrics, by rw [hc.readiness, hc.now]; exact h.readiness,
    fun t ht => h.timers t (hc.timers t ht)⟩

theorem Calm.poll (h : Calm s s') (force : Bool) : Calm s (s'.poll force) := by
  rcases s'.poll_cases force with ⟨e, -⟩ | ⟨-, -, _, _, e⟩
  · rw [e]; exact h
  · rw [e]; exact ⟨h.metrics, h.readiness, h.now, h.timers⟩

theorem Calm.refresh (h : Calm s s') : Calm s s'.refresh := by
  have hclear : Calm s s'.clearTimer :=
    ⟨h.metrics, h.readiness, h.now, fun t ht => h.timers t (List.mem_filter.1 ht).1⟩
  exact hclear.poll true

/-- An event settles a request of the flight, sets a timer, moves the clock, or does none of
this. -/
theorem step_timed {e : OpsEvent M R} (hstep : s.step e = some s') :
    Calm s s' ∨
      (∃ abort outcome draw, e = .settleMetrics abort outcome draw ∧
        s'.metrics = s.metrics.settled outcome s.now draw ∧ s'.readiness = s.readiness ∧
        s'.now = s.now ∧ s'.timers = s.timers) ∨
      (∃ abort outcome draw, e = .settleReadiness abort outcome draw ∧ s'.metrics = s.metrics ∧
        s'.readiness = s.readiness.settled outcome s.now draw ∧
        s'.now = s.now ∧ s'.timers = s.timers) ∨
      (∃ handle, s'.metrics = s.metrics ∧ s'.readiness = s.readiness ∧ s'.now = s.now ∧
        s'.timers = s.timers ++ [⟨handle, JsNumber.max (.finite 0)
          ((JsNumber.min s.metrics.dueAt s.readiness.dueAt).sub (.finite s.now))⟩]) ∨
      ∃ ms, e = .pass ms ∧ s' = { s with now := s.now + ms } := by
  have hsame : Calm s s := ⟨rfl, rfl, rfl, fun _ ht => ht⟩
  cases e with
  | mount =>
    dsimp only [OpsPoller.step] at hstep
    split_ifs at hstep
    obtain rfl := Option.some.inj hstep
    have hset : Calm s { s with generation := s.generation + 1, mounted := true } :=
      ⟨rfl, rfl, rfl, fun _ ht => ht⟩
    exact .inl (hset.poll true)
  | cleanup =>
    dsimp only [OpsPoller.step] at hstep
    split_ifs at hstep
    obtain rfl := Option.some.inj hstep
    exact .inl ⟨rfl, rfl, rfl, fun _ ht => (List.mem_filter.1 ht).1⟩
  | visibility visible =>
    obtain rfl := Option.some.inj hstep
    have hv : Calm s { s with visible } := ⟨rfl, rfl, rfl, fun _ ht => ht⟩
    unfold visibilityChange
    dsimp only
    split_ifs
    · exact .inl hv.refresh
    · exact .inl hv
  | refresh =>
    obtain rfl := Option.some.inj hstep
    exact .inl hsame.refresh
  | fire handle =>
    dsimp only [OpsPoller.step] at hstep
    split_ifs at hstep
    obtain rfl := Option.some.inj hstep
    have hfired : Calm s { s with timers := s.timers.filter fun t => t.handle ≠ handle } :=
      ⟨rfl, rfl, rfl, fun _ ht => (List.mem_filter.1 ht).1⟩
    exact .inl (hfired.poll false)
  | settleMetrics abort outcome draw =>
    obtain ⟨p, -, rfl⟩ := Option.map_eq_some_iff.1 hstep
    obtain ⟨metrics, e, rfl | rfl⟩ := s.settleMetrics_eq p outcome draw
    · rw [e]; exact .inl ⟨rfl, rfl, rfl, fun _ ht => ht⟩
    · rw [e]; exact .inr (.inl ⟨abort, outcome, draw, rfl, rfl, rfl, rfl, rfl⟩)
  | settleReadiness abort outcome draw =>
    obtain ⟨p, -, rfl⟩ := Option.map_eq_some_iff.1 hstep
    obtain ⟨readiness, e, rfl | rfl⟩ := s.settleReadiness_eq p outcome draw
    · rw [e]; exact .inl ⟨rfl, rfl, rfl, fun _ ht => ht⟩
    · rw [e]; exact .inr (.inr (.inl ⟨abort, outcome, draw, rfl, rfl, rfl, rfl, rfl⟩))
  | finish abort =>
    obtain ⟨p, -, rfl⟩ := Option.map_eq_some_iff.1 hstep
    unfold OpsPoller.finish
    dsimp only
    split_ifs
    · exact .inr (.inr (.inr (.inl ⟨s.nextHandle, rfl, rfl, rfl, rfl⟩)))
    · exact .inl ⟨rfl, rfl, rfl, fun _ ht => ht⟩
  | pass ms => exact .inr (.inr (.inr (.inr ⟨ms, rfl, (Option.some.inj hstep).symm⟩)))

theorem dueBy_settled {α : Type} (r : Resource α) (outcome : Option α) {now : ℤ} {draw : JsNumber}
    (h0 : 0 ≤ now) (hmax : now ≤ MAX_DATE) (hdraw : IsDraw draw) :
    DueBy (r.settled outcome now draw).dueAt now := by
  cases outcome with
  | some value => exact dueBy_add h0 hmax (isDelay_opsSuccessDelay hdraw)
  | none => exact dueBy_add h0 hmax (isDelay_opsFailureDelay _ hdraw)

/-- The clock goes forward. -/
theorem now_le_step {e : OpsEvent M R} (he : s.Timely e) (hstep : s.step e = some s') :
    s.now ≤ s'.now := by
  rcases step_timed hstep with hc | ⟨_, _, _, -, -, -, hnow, -⟩ | ⟨_, _, _, -, -, -, hnow, -⟩ |
    ⟨_, -, -, hnow, -⟩ | ⟨ms, rfl, rfl⟩
  · exact hc.now.ge
  · exact hnow.ge
  · exact hnow.ge
  · exact hnow.ge
  · have hms : 0 ≤ ms := he
    show s.now ≤ s.now + ms
    omega

/-- **One event of a cadence.** -/
theorem Cadence.step {e : OpsEvent M R} (he : s.Timely e) (h0 : 0 ≤ s.now) (hmax : s.now ≤ MAX_DATE)
    (h : s.Cadence) (hstep : s.step e = some s') : s'.Cadence := by
  rcases step_timed hstep with hc | ⟨_, outcome, draw, rfl, hm, hr, hnow, ht⟩ |
    ⟨_, outcome, draw, rfl, hm, hr, hnow, ht⟩ | ⟨handle, hm, hr, hnow, ht⟩ | ⟨ms, rfl, rfl⟩
  · exact h.calm hc
  · refine ⟨?_, by rw [hr, hnow]; exact h.readiness, by rw [ht]; exact h.timers⟩
    rw [hm, hnow]
    exact dueBy_settled _ outcome h0 hmax he
  · refine ⟨by rw [hm, hnow]; exact h.metrics, ?_, by rw [ht]; exact h.timers⟩
    rw [hr, hnow]
    exact dueBy_settled _ outcome h0 hmax he
  · refine ⟨by rw [hm, hnow]; exact h.metrics, by rw [hr, hnow]; exact h.readiness, ?_⟩
    intro t hmem
    rw [ht] at hmem
    rcases List.mem_append.1 hmem with hmem | hmem
    · exact h.timers t hmem
    · rw [List.mem_singleton.1 hmem]
      exact isDelay_untilDue h0 hmax (dueBy_min h.metrics h.readiness)
  · have hms : 0 ≤ ms := he
    have hle : s.now ≤ s.now + ms := by omega
    exact ⟨h.metrics.mono hle, h.readiness.mono hle, h.timers⟩

theorem cadence_idle (visible : Bool) {now : ℤ} (h0 : 0 ≤ now) :
    (idle visible now : OpsPoller M R).Cadence where
  metrics := ⟨0, by simp [idle, Resource.initial], le_rfl, by show 0 ≤ now + 15000; omega⟩
  readiness := ⟨0, by simp [idle, Resource.initial], le_rfl, by show 0 ≤ now + 15000; omega⟩
  timers := by intro t ht; cases ht

/-! ## Runs -/

theorem Inv.settle_stale (h : s.Inv) (hp : p ∈ s.polls) (hne : s.controller ≠ some p.abort) :
    (p.metrics = true → ∀ outcome draw, s.step (.settleMetrics p.abort outcome draw) =
      some (s.setPoll { p with metrics := false })) ∧
    (p.readiness = true → ∀ outcome draw, s.step (.settleReadiness p.abort outcome draw) =
      some (s.setPoll { p with readiness := false })) ∧
    (p.metrics = false → p.readiness = false →
      s.step (.finish p.abort) = some (s.drop p.abort)) := by
  have hfind : ∀ P : OpsPoll → Bool, P p = true → (∀ q, P q = true → q.abort = p.abort) →
      s.polls.find? P = some p := by
    intro P hP habort
    obtain ⟨q, hq⟩ := Option.isSome_iff_exists.1 (List.find?_isSome.2 ⟨p, hp, hP⟩)
    rw [hq, List.inj_on_of_nodup_map h.aborts (List.mem_of_find?_eq_some hq) hp
      (habort q (List.find?_some hq))]
  refine ⟨fun hm outcome draw => ?_, fun hr outcome draw => ?_, fun hm hr => ?_⟩
  · dsimp only [OpsPoller.step]
    rw [hfind _ (by simp [hm]) (fun q hq => by simp at hq; exact hq.1), Option.map_some]
    unfold OpsPoller.settleMetrics
    dsimp only
    rw [if_neg fun hown => hne hown.2.1]
  · dsimp only [OpsPoller.step]
    rw [hfind _ (by simp [hr]) (fun q hq => by simp at hq; exact hq.1), Option.map_some]
    unfold OpsPoller.settleReadiness
    dsimp only
    rw [if_neg fun hown => hne hown.2.1]
  · dsimp only [OpsPoller.step]
    rw [hfind _ (by simp [hm, hr]) (fun q hq => by simp at hq; exact hq.1), Option.map_some]
    unfold OpsPoller.finish
    dsimp only
    rw [if_neg fun hown => hne hown.2.1]

/-- **The ops poller keeps its cadence.** In every order of mounts, cleanups, refreshes, changes of
visibility, answers and timeouts, as long as the clock does not go back and no refresh is asked for
while the effect is not mounted: while the page is shown a poll of the current generation is under way,
or a timeout is pending that fires within 15 s; there are never two such polls; and a poll that was
given up settles without a trace. -/
theorem ops_poller_cadence {visible : Bool} {now : ℤ} (h0 : 0 ≤ now) {es : List (OpsEvent M R)}
    (hes : Machine.Along OpsPoller.step Timely (idle visible now) es)
    (hrun : Machine.run OpsPoller.step (idle visible now) es = some s)
    (hmax : s.now ≤ MAX_DATE) :
    (s.mounted = true → s.visible = true →
      (∃ p ∈ s.polls, s.OwnsPoll p) ∨ ∃ t ∈ s.timers, IsDelay t.delayMs 15000) ∧
    (∀ p ∈ s.polls, ∀ q ∈ s.polls, p.ownGeneration = s.generation → q.ownGeneration = s.generation →
      p = q) ∧
    ∀ p ∈ s.polls, p.ownGeneration < s.generation →
      (p.metrics = true → ∀ outcome draw, s.step (.settleMetrics p.abort outcome draw) =
        some (s.setPoll { p with metrics := false })) ∧
      (p.readiness = true → ∀ outcome draw, s.step (.settleReadiness p.abort outcome draw) =
        some (s.setPoll { p with readiness := false })) ∧
      (p.metrics = false → p.readiness = false →
        s.step (.finish p.abort) = some (s.drop p.abort)) := by
  obtain ⟨h, hl, -, hcadence⟩ : s.Inv ∧ s.Live ∧ 0 ≤ s.now ∧ (s.now ≤ MAX_DATE → s.Cadence) := by
    refine Machine.invariant_along (P := Timely) (I := fun s : OpsPoller M R =>
      s.Inv ∧ s.Live ∧ 0 ≤ s.now ∧ (s.now ≤ MAX_DATE → s.Cadence)) ?_ hes
      ⟨inv_idle visible now, fun hm => (by cases hm), h0, fun _ => cadence_idle visible h0⟩ hrun
    rintro s e s' ⟨h, hl, hnow, hc⟩ he hstep
    have hle := now_le_step he hstep
    obtain ⟨h', hl'⟩ := h.step hl he hstep
    exact ⟨h', hl', hnow.trans hle, fun hmax => (hc (hle.trans hmax)).step he hnow
      (hle.trans hmax) hstep⟩
  have hcadence := hcadence hmax
  refine ⟨fun hm hv => ?_, fun p hp q hq hpg hqg => ?_, fun p hp hg => ?_⟩
  · rcases hl hm hv with hr | ht
    · rw [h.flight] at hr
      obtain ⟨a, ha⟩ := Option.isSome_iff_exists.1 hr
      obtain ⟨p, hp, -, hown⟩ := h.owner a ha
      exact .inl ⟨p, hp, hown⟩
    · obtain ⟨t, ht⟩ := List.exists_mem_of_ne_nil _ ht
      exact .inr ⟨t, ht, hcadence.timers t ht⟩
  · exact List.inj_on_of_nodup_map h.aborts hp hq
      (Option.some.inj ((h.current p hp hpg).symm.trans (h.current q hq hqg)))
  · refine h.settle_stale hp fun hc => ?_
    have hown := (h.owns_iff hp).2 hc
    exact absurd hown.1 hg.ne

/-- A refresh while no effect is mounted is in the way of the next effect: that one starts no poll, and
when the request has settled nothing is under way. -/
example : (Machine.run OpsPoller.step (idle true 0 : OpsPoller String String) [.mount, .cleanup,
      .refresh, .mount, .settleMetrics 1 none (.finite 0), .settleReadiness 1 none (.finite 0),
      .finish 1]).map (fun s => (s.mounted, s.polls.map (·.abort), s.timers.length)) =
    some (true, [0], 0) := by
  decide +kernel

/-- The first effect is cleaned up while its poll is under way; then one resource fails. -/
def degradedRun : List (OpsEvent String String) :=
  [.mount, .cleanup, .mount, .pass 40, .settleMetrics 1 (some "metrics") (.finite (1 / 2)),
    .settleReadiness 1 none (.finite 0), .finish 1]

theorem ops_poller_cadence_degraded : ∃ s : OpsPoller String String,
    Machine.run OpsPoller.step (idle true 1000) degradedRun = some s ∧ s.polls.length = 1 ∧
      ∃ t ∈ s.timers, IsDelay t.delayMs 15000 := by
  have hes : Machine.Along OpsPoller.step Timely (idle true 1000) degradedRun := by
    refine Machine.along_of_forall ?_
    simp only [degradedRun, List.mem_cons, List.not_mem_nil, or_false, forall_eq_or_imp, forall_eq,
      Timely, implies_true, true_and, and_true]
    exact ⟨fun _ => by decide, fun _ => ⟨_, rfl, by norm_num⟩, fun _ => ⟨_, rfl, by norm_num⟩⟩
  have hfields : (Machine.run OpsPoller.step (idle true 1000) degradedRun).map
      (fun s => (s.now, s.mounted, s.visible, s.controller, s.polls.length)) =
        some (1040, true, true, none, 1) := by
    decide +kernel
  obtain ⟨s, hrun, hs⟩ := Option.map_eq_some_iff.1 hfields
  simp only [Prod.mk.injEq] at hs
  obtain ⟨hnow, hm, hv, hcontroller, hlen⟩ := hs
  have hmax : s.now ≤ MAX_DATE := by
    rw [hnow]
    decide
  rcases (ops_poller_cadence (by decide) hes hrun hmax).1 hm hv with ⟨p, -, hown⟩ | htimer
  · rw [hown.2.1] at hcontroller
    cases hcontroller
  · exact ⟨s, hrun, hlen, htimer⟩

end OpsPoller

end FlashSale
