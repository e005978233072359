import FlashSale.Lib.Machine
import FlashSale.Lib.Number
import FlashSale.Shared.SaleState

/-!
# The poller of the sale status

`useSaleStatus` asks for the status of the sale, waits for the answer and sets a timer for the next
request, as long as the page is visible. Its refs outlive the effect: a cleanup bumps `generation`
and resets them, and the request it aborts settles later, in the middle of another generation.

The code between two `await`s is one event. The document, the timers that the event loop still has
to fire and the requests that have not settled are part of the state.
-/

namespace FlashSale

open Number

/-! ## Delays -/

/-- `jitter`; `draw` is what `rng()` returns. -/
def jitter (baseMs draw capMs : JsNumber) : JsNumber :=
  JsNumber.min capMs
    (baseMs.mul ((ofRat (7 / 10)).add (draw.mul (ofRat (6 / 10))))).round

def saleSuccessDelay (untilStartMs draw : JsNumber) : JsNumber :=
  if (JsNumber.finite 0).lt untilStartMs ∧ untilStartMs.le (.finite 10000) then .finite 1000
  else jitter (.finite 2000) draw (.finite 10000)

def saleFailureDelay (failure : ℕ) (draw : JsNumber) : JsNumber :=
  let base := JsNumber.min (.finite 10000) (ofRat (2000 * 2 ^ (failure - 1)))
  jitter base draw (.finite 10000)

/-! ## Times -/

structure SaleStatusResponse where
  saleId : String
  name : String
  status : SaleState
  startsAt : String
  endsAt : String
  startsAtMs : JsNumber
  endsAtMs : JsNumber
  totalStock : JsNumber
  stockRemaining : JsNumber
  serverTime : String
  serverTimeMs : JsNumber

def calculateServerOffset (sentAtMs receivedAtMs serverTimeMs : JsNumber) : JsNumber :=
  serverTimeMs.sub (sentAtMs.add ((receivedAtMs.sub sentAtMs).mul (.finite (1 / 2))))

/-- `derivePresentationState`. -/
def SaleStatusResponse.presentationState (sale : SaleStatusResponse) (serverNowMs : JsNumber) :
    SaleState :=
  if serverNowMs.lt sale.startsAtMs then .upcoming
  else if sale.endsAtMs.le serverNowMs then .ended
  else if sale.stockRemaining.le (.finite 0) then .soldOut
  else .active

/-! ## The state -/

structure SalePollState where
  sale : Option SaleStatusResponse
  offsetMs : JsNumber
  unavailable : Bool
  failureCount : ℕ
  lastResponseAtMs : Option JsNumber

/-- A call of `getSaleStatus` that has not settled, with what its `poll` remembers; `abort` is its
`AbortController` and `aborted` the signal's flag. -/
structure StatusRequest where
  abort : ℕ
  ownGeneration : ℕ
  aborted : Bool

/-- A pending timeout. All of them call `poll`. -/
structure PollTimer where
  handle : ℕ
  delayMs : JsNumber

/-- The hook's state and refs, the document and the event loop. -/
structure SalePoller where
  state : SalePollState
  generation : ℕ
  timer : Option ℕ
  inFlight : Bool
  queued : Bool
  controller : Option ℕ
  mounted : Bool
  visible : Bool
  timers : List PollTimer
  requests : List StatusRequest
  nextHandle : ℕ
  nextAbort : ℕ

/-- How a call of `getSaleStatus` settles, with the readings of the clock, the draw of `rng` and,
for a failure, whether React runs the updater of `setState` at once or later, in the next render. -/
inductive StatusOutcome where
  | response (data : SaleStatusResponse) (sentAtMs receivedAtMs nowMs responseAtMs draw : JsNumber)
  | failure (draw : JsNumber) (eager : Bool)

inductive PollerEvent where
  | mount
  | cleanup
  /-- The document becomes visible or hidden, and `onVisibility` runs. -/
  | visibility (visible : Bool)
  | refresh
  | applySnapshot (saleId : String)
      (stockRemaining serverTimeMs sentAtMs receivedAtMs nowMs : JsNumber)
  | fire (handle : ℕ)
  | settle (abort : ℕ) (outcome : StatusOutcome)

namespace SalePoller

/-- Before the first effect. -/
def idle (visible : Bool) : SalePoller where
  state := ⟨none, .finite 0, false, 0, none⟩
  generation := 0
  timer := none
  inFlight := false
  queued := false
  controller := none
  mounted := false
  visible
  timers := []
  requests := []
  nextHandle := 1
  nextAbort := 0

/-- `poll` up to its `await`. -/
def poll (s : SalePoller) : SalePoller :=
  if s.visible = false then { s with queued := true }
  else if s.inFlight then { s with queued := true }
  else { s with
    inFlight := true
    queued := false
    controller := some s.nextAbort
    requests := s.requests ++ [⟨s.nextAbort, s.generation, false⟩]
    nextAbort := s.nextAbort + 1 }

/-- `if (timer.current) clearTimeout(timer.current)`. -/
def clearTimer (s : SalePoller) : SalePoller :=
  { s with timers := s.timers.filter fun t => some t.handle ≠ s.timer }

/-- The `finally` of `poll`. -/
def settleFlight (s : SalePoller) (r : StatusRequest) (delayMs : JsNumber) : SalePoller :=
  let ownsFlight := s.controller = some r.abort
  let s := if ownsFlight then { s with inFlight := false, controller := none } else s
  if ownsFlight ∧ r.ownGeneration = s.generation then
    let s := s.clearTimer
    { s with
      timer := some s.nextHandle
      timers := s.timers ++ [⟨s.nextHandle, if s.queued then .finite 0 else delayMs⟩]
      nextHandle := s.nextHandle + 1 }
  else s

/-- `poll` from its `await` on. -/
def resume (s : SalePoller) (r : StatusRequest) : StatusOutcome → SalePoller
  | .response data sentAtMs receivedAtMs nowMs responseAtMs draw =>
    if r.ownGeneration ≠ s.generation then s.settleFlight r (.finite 2000)
    else
      let offsetMs := calculateServerOffset sentAtMs receivedAtMs data.serverTimeMs
      let now := nowMs.add offsetMs
      let untilStartMs :=
        if data.presentationState now = .upcoming then data.startsAtMs.sub now else .finite 0
      let s := { s with state := ⟨some data, offsetMs, false, 0, some responseAtMs⟩ }
      s.settleFlight r (saleSuccessDelay untilStartMs draw)
  | .failure draw eager =>
    if r.ownGeneration ≠ s.generation ∨ r.aborted then s.settleFlight r (.finite 2000)
    else
      let failureCount := s.state.failureCount + 1
      -- an updater that runs in the next render assigns `delay` too late
      let delayMs := if eager then saleFailureDelay failureCount draw else .finite 2000
      let s := { s with state := { s.state with unavailable := true, failureCount } }
      s.settleFlight r delayMs

def refresh (s : SalePoller) : SalePoller := ({ s with queued := true }.clearTimer).poll

def applySnapshot (s : SalePoller) (saleId : String)
    (stockRemaining serverTimeMs sentAtMs receivedAtMs nowMs : JsNumber) : SalePoller :=
  match s.state.sale with
  | none => s
  | some sale =>
    if sale.saleId = saleId then
      { s with state := { s.state with
          sale := some { sale with stockRemaining }
          offsetMs := calculateServerOffset sentAtMs receivedAtMs serverTimeMs
          lastResponseAtMs := some nowMs } }
    else s

/-- The effect. -/
def mount (s : SalePoller) : SalePoller :=
  { s with generation := s.generation + 1, mounted := true }.poll

/-- The cleanup of the effect; `abort` marks the signal of the request in flight. -/
def cleanup (s : SalePoller) : SalePoller :=
  let s := { s with generation := s.generation + 1 }.clearTimer
  { s with
    timer := none
    requests := s.requests.map fun r =>
      if s.controller = some r.abort then { r with aborted := true } else r
    controller := none
    inFlight := false
    queued := false
    mounted := false }

/-- A change of `document.visibilityState`, with `onVisibility` if it is registered. -/
def visibilityChange (s : SalePoller) (visible : Bool) : SalePoller :=
  let s := { s with visible }
  if s.mounted && visible then s.refresh else s

/-- The timeout leaves the event loop and calls `poll`. -/
def fire (s : SalePoller) (handle : ℕ) : SalePoller :=
  { s with timers := s.timers.filter fun t => t.handle ≠ handle }.poll

/-- The call has settled. -/
def drop (s : SalePoller) (abort : ℕ) : SalePoller :=
  { s with requests := s.requests.filter fun r => r.abort ≠ abort }

def step (s : SalePoller) : PollerEvent → Option SalePoller
  | .mount => if s.mounted then none else some s.mount
  | .cleanup => if s.mounted then some s.cleanup else none
  | .visibility visible => some (s.visibilityChange visible)
  | .refresh => if s.mounted then some s.refresh else none
  | .applySnapshot saleId stockRemaining serverTimeMs sentAtMs receivedAtMs nowMs =>
    some (s.applySnapshot saleId stockRemaining serverTimeMs sentAtMs receivedAtMs nowMs)
  | .fire handle => if s.timers.any (·.handle = handle) then some (s.fire handle) else none
  | .settle abort outcome =>
    (s.requests.find? (·.abort = abort)).map fun r => (s.drop abort).resume r outcome

/-! ## The invariant -/

variable {s s' : SalePoller} {r : StatusRequest} {delayMs : JsNumber}

/-- The controller belongs to a request of the current generation, which is the only one; every
pending timeout is the one `timer` knows; and nothing of the current generation is left while the
effect is not mounted. -/
structure Inv (s : SalePoller) : Prop where
  aborts : (s.requests.map (·.abort)).Nodup
  fresh : ∀ r ∈ s.requests, r.abort < s.nextAbort
  past : ∀ r ∈ s.requests, r.ownGeneration ≤ s.generation
  owner : ∀ a, s.controller = some a →
    ∃ r ∈ s.requests, r.abort = a ∧ r.ownGeneration = s.generation
  current : ∀ r ∈ s.requests, r.ownGeneration = s.generation → s.controller = some r.abort
  flight : s.inFlight = s.controller.isSome
  armed : ∀ t ∈ s.timers, s.timer = some t.handle
  unmounted : s.mounted = false → s.controller = none ∧ s.timers = []

/-- Something is under way while the page is shown. -/
def Live (s : SalePoller) : Prop :=
  s.mounted = true → s.visible = true → s.inFlight = true ∨ s.timers ≠ []

theorem inv_idle (visible : Bool) : (idle visible).Inv where
  aborts := List.nodup_nil
  fresh := by intro r hr; cases hr
  past := by intro r hr; cases hr
  owner := by intro a ha; cases ha
  current := by intro r hr; cases hr
  flight := rfl
  armed := by intro t ht; cases ht
  unmounted := fun _ => ⟨rfl, rfl⟩

/-- A change of fields that the invariant does not read. -/
theorem Inv.congr (h : s.Inv) (hgen : s'.generation = s.generation)
    (hrequests : s'.requests = s.requests) (hnext : s'.nextAbort = s.nextAbort)
    (hcontroller : s'.controller = s.controller) (hflight : s'.inFlight = s.inFlight)
    (hmounted : s'.mounted = s.mounted) (htimer : s'.timer = s.timer)
    (htimers : ∀ t ∈ s'.timers, t ∈ s.timers) : s'.Inv where
  aborts := by rw [hrequests]; exact h.aborts
  fresh := by rw [hrequests, hnext]; exact h.fresh
  past := by rw [hrequests, hgen]; exact h.past
  owner := by rw [hrequests, hgen, hcontroller]; exact h.owner
  current := by rw [hrequests, hgen, hcontroller]; exact h.current
  flight := by rw [hflight, hcontroller]; exact h.flight
  armed t ht := htimer.trans (h.armed t (htimers t ht))
  unmounted hm := by
    obtain ⟨hc, ht⟩ := h.unmounted (hmounted.symm.trans hm)
    refine ⟨hcontroller.trans hc, List.eq_nil_iff_forall_not_mem.2 fun t hmem => ?_⟩
    have hmem := htimers t hmem
    rw [ht] at hmem
    cases hmem

/-- Every pending timeout is cleared. -/
theorem Inv.clearTimer (h : s.Inv) : s.clearTimer.timers = [] := by
  unfold SalePoller.clearTimer
  refine List.filter_eq_nil_iff.2 fun t ht => ?_
  simp [h.armed t ht]

/-- `poll` starts a request, or one is under way, or the page is hidden. -/
theorem poll_cases (s : SalePoller) :
    (s.poll = { s with queued := true } ∧ (s.visible = false ∨ s.inFlight = true)) ∨
      s.visible = true ∧ s.inFlight = false ∧ s.poll = { s with
        inFlight := true
        queued := false
        controller := some s.nextAbort
        requests := s.requests ++ [⟨s.nextAbort, s.generation, false⟩]
        nextAbort := s.nextAbort + 1 } := by
  unfold poll
  split_ifs with hv hf
  · exact .inl ⟨rfl, .inl hv⟩
  · exact .inl ⟨rfl, .inr hf⟩
  · exact .inr ⟨by simpa using hv, by simpa using hf, rfl⟩

theorem live_poll (s : SalePoller) : s.poll.Live := by
  intro _ hv
  rcases s.poll_cases with ⟨e, hv' | hf⟩ | ⟨-, -, e⟩
  · rw [e] at hv
    exact absurd (hv'.symm.trans hv) (by simp)
  · rw [e]; exact .inl hf
  · rw [e]; exact .inl rfl

theorem Inv.poll (h : s.Inv) (hm : s.mounted = true) : s.poll.Inv := by
  rcases s.poll_cases with ⟨e, -⟩ | ⟨-, hf, e⟩
  · rw [e]
    exact h.congr rfl rfl rfl rfl rfl rfl rfl fun _ ht => ht
  -- no request of this generation was in flight
  have hnone : s.controller = none := by
    have hflight := h.flight
    rw [hf] at hflight
    exact Option.not_isSome_iff_eq_none.1 (by simp [← hflight])
  rw [e]
  refine ⟨?_, ?_, ?_, ?_, ?_, rfl, h.armed, fun hm' => absurd (hm'.symm.trans hm) (by simp)⟩
  · rw [List.map_append, List.nodup_append]
    refine ⟨h.aborts, List.nodup_singleton _, ?_⟩
    rintro a ha b hb rfl
    obtain ⟨r, hr, rfl⟩ := List.mem_map.1 ha
    have hlt := h.fresh r hr
    have heq : r.abort = s.nextAbort := by simpa using hb
    omega
  · intro r hr
    rcases List.mem_append.1 hr with hr | hr
    · exact Nat.lt_succ_of_lt (h.fresh r hr)
    · rw [List.mem_singleton.1 hr]
      exact Nat.lt_succ_self _
  · intro r hr
    rcases List.mem_append.1 hr with hr | hr
    · exact h.past r hr
    · rw [List.mem_singleton.1 hr]
  · rintro a ⟨⟩
    exact ⟨_, List.mem_append_right _ (List.mem_singleton_self _), rfl, rfl⟩
  · intro r hr hg
    rcases List.mem_append.1 hr with hr | hr
    · have hc := h.current r hr hg
      rw [hnone] at hc
      cases hc
    · rw [List.mem_singleton.1 hr]

/-! ## The events -/

theorem Inv.refresh (h : s.Inv) (hm : s.mounted = true) : s.refresh.Inv :=
  Inv.poll (h.congr rfl rfl rfl rfl rfl rfl rfl fun _ ht => (List.mem_filter.1 ht).1) hm

theorem Inv.fire (h : s.Inv) (hm : s.mounted = true) (handle : ℕ) : (s.fire handle).Inv :=
  Inv.poll (h.congr rfl rfl rfl rfl rfl rfl rfl fun _ ht => (List.mem_filter.1 ht).1) hm

/-- With another generation nothing in flight is current any more. -/
theorem Inv.mount (h : s.Inv) (hm : s.mounted = false) : s.mount.Inv := by
  obtain ⟨hc, ht⟩ := h.unmounted hm
  refine Inv.poll ⟨h.aborts, h.fresh, fun r hr => Nat.le_succ_of_le (h.past r hr), ?_, ?_, h.flight,
    h.armed, fun hm' => by cases hm'⟩ rfl
  · intro a ha
    cases hc.symm.trans ha
  · intro r hr hg
    have hle := h.past r hr
    dsimp only at hg
    omega

theorem Inv.cleanup (h : s.Inv) : s.cleanup.Inv := by
  have habort : ∀ r : StatusRequest, (if s.controller = some r.abort then
      { r with aborted := true } else r).abort = r.abort := by
    intro r
    split_ifs <;> rfl
  have hgen : ∀ r : StatusRequest, (if s.controller = some r.abort then
      { r with aborted := true } else r).ownGeneration = r.ownGeneration := by
    intro r
    split_ifs <;> rfl
  have hback : ∀ r ∈ s.cleanup.requests, ∃ r₀ ∈ s.requests, r.abort = r₀.abort ∧
      r.ownGeneration = r₀.ownGeneration := by
    intro r hr
    obtain ⟨r₀, hr₀, rfl⟩ := List.mem_map.1 hr
    exact ⟨r₀, hr₀, habort r₀, hgen r₀⟩
  refine ⟨?_, ?_, ?_, ?_, ?_, rfl, ?_, fun _ => ⟨rfl, h.clearTimer⟩⟩
  · have hmap : s.cleanup.requests.map (·.abort) = s.requests.map (·.abort) := by
      unfold SalePoller.cleanup SalePoller.clearTimer
      rw [List.map_map]
      exact List.map_congr_left fun r _ => habort r
    rw [hmap]
    exact h.aborts
  · intro r hr
    obtain ⟨r₀, hr₀, ha, -⟩ := hback r hr
    rw [ha]
    exact h.fresh r₀ hr₀
  · intro r hr
    obtain ⟨r₀, hr₀, -, hg⟩ := hback r hr
    rw [hg]
    exact Nat.le_succ_of_le (h.past r₀ hr₀)
  · intro a ha
    cases ha
  · intro r hr hg
    obtain ⟨r₀, hr₀, -, hg₀⟩ := hback r hr
    have hle := h.past r₀ hr₀
    have hnew : s.cleanup.generation = s.generation + 1 := rfl
    omega
  · intro t ht
    rw [show s.cleanup.timers = [] from h.clearTimer] at ht
    cases ht

/-- A request that has settled and does not own the flight leaves no trace. -/
theorem settleFlight_of_ne (hne : s.controller ≠ some r.abort) : s.settleFlight r delayMs = s := by
  unfold settleFlight
  simp [hne]

/-- The owner of the flight sets the next timer. -/
theorem settleFlight_owner (hc : s.controller = some r.abort)
    (hg : r.ownGeneration = s.generation) : s.settleFlight r delayMs =
      { s.clearTimer with
        inFlight := false
        controller := none
        timer := some s.nextHandle
        timers := s.clearTimer.timers ++
          [⟨s.nextHandle, if s.queued then .finite 0 else delayMs⟩]
        nextHandle := s.nextHandle + 1 } := by
  unfold settleFlight
  simp only [hc, hg, if_true, and_self]
  rfl

/-- After its `await` a `poll` may set the state, if its generation is current, and then settles its
flight. -/
theorem resume_eq (s : SalePoller) (r : StatusRequest) (outcome : StatusOutcome) :
    ∃ state delayMs, s.resume r outcome = { s with state }.settleFlight r delayMs ∧
      (r.ownGeneration ≠ s.generation → state = s.state) := by
  cases outcome with
  | response data sentAtMs receivedAtMs nowMs responseAtMs draw =>
    dsimp only [resume]
    by_cases hg : r.ownGeneration ≠ s.generation
    · rw [if_pos hg]
      exact ⟨s.state, _, rfl, fun _ => rfl⟩
    · rw [if_neg hg]
      exact ⟨_, _, rfl, fun hne => absurd hne hg⟩
  | failure draw eager =>
    dsimp only [resume]
    by_cases hg : r.ownGeneration ≠ s.generation ∨ r.aborted = true
    · rw [if_pos hg]
      exact ⟨s.state, _, rfl, fun _ => rfl⟩
    · rw [if_neg hg]
      exact ⟨_, _, rfl, fun hne => absurd (.inl hne) hg⟩

theorem Inv.settle (h : s.Inv) (hr : r ∈ s.requests) (outcome : StatusOutcome) :
    ((s.drop r.abort).resume r outcome).Inv ∧
      (s.Live → ((s.drop r.abort).resume r outcome).Live) := by
  obtain ⟨state, delayMs, e, -⟩ := (s.drop r.abort).resume_eq r outcome
  rw [e]
  have haborts : ((s.requests.filter fun q => q.abort ≠ r.abort).map (·.abort)).Nodup :=
    h.aborts.sublist (List.filter_sublist.map _)
  have hmem : ∀ q ∈ s.requests.filter fun q => q.abort ≠ r.abort, q ∈ s.requests := fun q hq =>
    (List.mem_filter.1 hq).1
  by_cases hc : s.controller = some r.abort
  · obtain ⟨r', hr', ha, hg'⟩ := h.owner _ hc
    have hg : r.ownGeneration = s.generation := by
      rw [← List.inj_on_of_nodup_map h.aborts hr' hr ha]
      exact hg'
    rw [settleFlight_owner (s := { s.drop r.abort with state }) hc hg]
    refine ⟨⟨haborts, fun q hq => h.fresh q (hmem q hq), fun q hq => h.past q (hmem q hq), ?_, ?_,
      rfl, ?_, fun hm => ?_⟩, fun _ _ _ => .inr (by simp)⟩
    · intro a ha
      cases ha
    · intro q hq hgq
      -- the only current request has just settled
      have hcq := h.current q (hmem q hq) hgq
      have hne : q.abort ≠ r.abort := by simpa using (List.mem_filter.1 hq).2
      exact absurd (Option.some.inj (hc.symm.trans hcq)).symm hne
    · intro t ht
      have hcleared : { s.drop r.abort with state }.clearTimer.timers = [] := h.clearTimer
      rw [hcleared] at ht
      rw [List.mem_singleton.1 ht]
    · exact absurd ((h.unmounted hm).1.symm.trans hc) (by simp)
  · rw [settleFlight_of_ne (s := { s.drop r.abort with state }) hc]
    refine ⟨⟨haborts, fun q hq => h.fresh q (hmem q hq), fun q hq => h.past q (hmem q hq), ?_,
      fun q hq => h.current q (hmem q hq), h.flight, h.armed, h.unmounted⟩, fun hl => hl⟩
    intro a ha
    obtain ⟨q, hq, hqa, hqg⟩ := h.owner a ha
    refine ⟨q, List.mem_filter.2 ⟨hq, ?_⟩, hqa, hqg⟩
    have hne : q.abort ≠ r.abort := by
      rintro e
      exact hc (ha.trans (by rw [← hqa, e]))
    simpa using hne

theorem applySnapshot_eq (s : SalePoller) (saleId : String)
    (stockRemaining serverTimeMs sentAtMs receivedAtMs nowMs : JsNumber) : ∃ state,
      s.applySnapshot saleId stockRemaining serverTimeMs sentAtMs receivedAtMs nowMs =
        { s with state } := by
  unfold applySnapshot
  split
  · exact ⟨s.state, rfl⟩
  · split_ifs
    · exact ⟨_, rfl⟩
    · exact ⟨s.state, rfl⟩

/-- **One event.** -/
theorem Inv.step (h : s.Inv) (hl : s.Live) {e : PollerEvent} (hstep : s.step e = some s') :
    s'.Inv ∧ s'.Live := by
  cases e with
  | mount =>
    dsimp only [SalePoller.step] at hstep
    split_ifs at hstep with hm
    obtain rfl := Option.some.inj hstep
    exact ⟨h.mount (by simpa using hm), live_poll _⟩
  | cleanup =>
    dsimp only [SalePoller.step] at hstep
    split_ifs at hstep
    obtain rfl := Option.some.inj hstep
    exact ⟨h.cleanup, fun hm => by cases hm⟩
  | visibility visible =>
    obtain rfl := Option.some.inj hstep
    have hv : { s with visible }.Inv := h.congr rfl rfl rfl rfl rfl rfl rfl fun _ ht => ht
    unfold visibilityChange
    dsimp only
    split_ifs with hshown
    · rw [Bool.and_eq_true] at hshown
      exact ⟨hv.refresh hshown.1, live_poll _⟩
    · refine ⟨hv, fun hm hs => absurd ?_ hshown⟩
      rw [Bool.and_eq_true]
      exact ⟨hm, hs⟩
  | refresh =>
    dsimp only [SalePoller.step] at hstep
    split_ifs at hstep with hm
    obtain rfl := Option.some.inj hstep
    exact ⟨h.refresh hm, live_poll _⟩
  | applySnapshot saleId stockRemaining serverTimeMs sentAtMs receivedAtMs nowMs =>
    obtain rfl := Option.some.inj hstep
    obtain ⟨state, e⟩ :=
      s.applySnapshot_eq saleId stockRemaining serverTimeMs sentAtMs receivedAtMs nowMs
    rw [e]
    exact ⟨h.congr rfl rfl rfl rfl rfl rfl rfl fun _ ht => ht, hl⟩
  | fire handle =>
    dsimp only [SalePoller.step] at hstep
    split_ifs at hstep with hpending
    obtain rfl := Option.some.inj hstep
    -- an unmounted effect has no timeout
    have hm : s.mounted = true := by
      by_contra hm
      rw [(h.unmounted (by simpa using hm)).2] at hpending
      cases hpending
    exact ⟨h.fire hm handle, live_poll _⟩
  | settle abort outcome =>
    obtain ⟨r, hr, rfl⟩ := Option.map_eq_some_iff.1 hstep
    have ha : r.abort = abort := by simpa using List.find?_some hr
    subst ha
    obtain ⟨hinv, hlive⟩ := h.settle (List.mem_of_find?_eq_some hr) outcome
    exact ⟨hinv, hlive hl⟩

/-! ## Runs -/

/-- What the invariant promises. -/
theorem Inv.one_current (h : s.Inv) :
    (s.requests.filter fun r => r.ownGeneration = s.generation).length ≤ 1 := by
  have hnodup : ((s.requests.filter fun r => r.ownGeneration = s.generation).map (·.abort)).Nodup :=
    h.aborts.sublist (List.filter_sublist.map _)
  have hsub : (s.requests.filter fun r => r.ownGeneration = s.generation).map (·.abort) ⊆
      s.controller.toList := by
    intro a ha
    obtain ⟨r, hr, rfl⟩ := List.mem_map.1 ha
    obtain ⟨hmem, hg⟩ := List.mem_filter.1 hr
    rw [h.current r hmem (by simpa using hg)]
    exact List.mem_singleton_self _
  have hle := List.Nodup.length_le_of_subset hnodup hsub
  rw [List.length_map] at hle
  cases hc : s.controller with
  | none => rw [hc] at hle; exact Nat.le_succ_of_le hle
  | some a => rw [hc] at hle; exact hle

/-- A request of an earlier generation that settles is forgotten, and that is all. -/
theorem Inv.settle_stale (h : s.Inv) (hr : r ∈ s.requests) (hg : r.ownGeneration < s.generation)
    (outcome : StatusOutcome) :
    s.step (.settle r.abort outcome) = some (s.drop r.abort) := by
  have hfind : s.requests.find? (·.abort = r.abort) = some r := by
    obtain ⟨q, hq⟩ := Option.isSome_iff_exists.1
      (List.find?_isSome.2 ⟨r, hr, by simp⟩ :
        (s.requests.find? (·.abort = r.abort)).isSome)
    have hqa : q.abort = r.abort := by simpa using List.find?_some hq
    rw [hq, List.inj_on_of_nodup_map h.aborts (List.mem_of_find?_eq_some hq) hr hqa]
  have hne : s.controller ≠ some r.abort := by
    intro hc
    obtain ⟨q, hq, hqa, hqg⟩ := h.owner _ hc
    rw [List.inj_on_of_nodup_map h.aborts hq hr hqa] at hqg
    omega
  dsimp only [SalePoller.step]
  rw [hfind]
  obtain ⟨state, delayMs, e, hstate⟩ := (s.drop r.abort).resume_eq r outcome
  obtain rfl := hstate hg.ne
  rw [Option.map_some, e, settleFlight_of_ne (s := s.drop r.abort) hne]

/-- **The poller neither stalls nor applies stale data.** -/
theorem poller_safe {visible : Bool} {es : List PollerEvent}
    (hrun : Machine.run SalePoller.step (idle visible) es = some s) :
    (s.requests.filter fun r => r.ownGeneration = s.generation).length ≤ 1 ∧
    (s.mounted = true → s.visible = true →
      (∃ r ∈ s.requests, r.ownGeneration = s.generation) ∨ s.timers ≠ []) ∧
    ∀ r ∈ s.requests, r.ownGeneration < s.generation → ∀ outcome,
      s.step (.settle r.abort outcome) = some (s.drop r.abort) := by
  obtain ⟨h, hl⟩ : s.Inv ∧ s.Live :=
    Machine.invariant (I := fun s => s.Inv ∧ s.Live) (fun _ _ _ hI hstep => hI.1.step hI.2 hstep)
      ⟨inv_idle visible, fun hm => by cases hm⟩ hrun
  refine ⟨h.one_current, fun hm hv => ?_, fun r hr hg outcome => h.settle_stale hr hg outcome⟩
  rcases hl hm hv with hf | ht
  · rw [h.flight] at hf
    obtain ⟨a, ha⟩ := Option.isSome_iff_exists.1 hf
    obtain ⟨r, hr, -, hg⟩ := h.owner a ha
    exact .inl ⟨r, hr, hg⟩
  · exact .inr ht

/-- The effect is mounted again while its first request is in flight, and the page is hidden and
shown. -/
def remountRun : List PollerEvent :=
  [.mount, .cleanup, .mount, .visibility false, .visibility true]

theorem poller_safe_remount : ∃ s, Machine.run SalePoller.step (idle true) remountRun = some s ∧
    s.requests.length = 2 ∧
    (s.requests.filter fun r => r.ownGeneration = s.generation).length ≤ 1 ∧
    (s.mounted = true → s.visible = true →
      (∃ r ∈ s.requests, r.ownGeneration = s.generation) ∨ s.timers ≠ []) ∧
    ∀ r ∈ s.requests, r.ownGeneration < s.generation → ∀ outcome,
      s.step (.settle r.abort outcome) = some (s.drop r.abort) :=
  ⟨_, rfl, rfl,
    poller_safe (rfl : Machine.run SalePoller.step (idle true) remountRun = some _)⟩

end SalePoller

end FlashSale
