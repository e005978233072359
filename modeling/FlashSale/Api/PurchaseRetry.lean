import FlashSale.Api.ProducerHistory
import FlashSale.Api.Responses

/-!
# The retry of a confirmed order

`PurchaseService.enqueueConfirmedOrder` calls `OrdersQueueService.enqueue` and, when that rejects, once
more at once. Every admitted call that rejects has begun the retirement of its generation before, so
the second attempt finds the circuit open or in backoff, unless the generation was gone already
(`retry_submits_iff`). The decision of the purchase does not depend on either attempt.
-/

namespace FlashSale

/-- A reservation that `SaleRedisStore.purchase` has confirmed; `Valid` is what the checks of the
request and the store make of its payload. -/
structure ConfirmedOrder (saleId : String) where
  userId : String
  requestId : String
  result : PurchaseResult
  confirmed : result.outcome = .confirmed
  valid : (confirmedPayload saleId userId requestId result).Valid

/-- The payload of `enqueueConfirmedOrder`. -/
def ConfirmedOrder.payload {saleId : String} (order : ConfirmedOrder saleId) :
    OrdersQueueJobPayload :=
  confirmedPayload saleId order.userId order.requestId order.result

/-- A call of `purchase` from its first attempt on. An attempt is refused at once or is an admitted
call of `enqueue`. -/
structure PurchaseCall (saleId : String) where
  order : ConfirmedOrder saleId
  first : Except Failure ℕ
  retry : Option (Except Failure ℕ)
  decision : Option PurchaseDecision

structure PurchaseApi (saleId : String) where
  queue : OrdersQueue
  purchases : List (PurchaseCall saleId)

/-- What the promise of an attempt has settled with. -/
def OrdersQueue.attemptResult (q : OrdersQueue) : Except Failure ℕ → Option (Except Failure Unit)
  | .error e => some (.error e)
  | .ok c => do
    let call ← q.calls[c]?
    match call.phase with
    | .settled outcome => some outcome
    | _ => none

namespace PurchaseApi

variable {saleId : String}

def initial (saleId : String) (now : ℕ) : PurchaseApi saleId := ⟨.initial now, []⟩

inductive Event (saleId : String) where
  | queue (e : OrdersQueue.Event)
  | confirm (order : ConfirmedOrder saleId) (creation : Except Failure Unit)
  | resume (p : ℕ) (creation : Except Failure Unit)

/-- The end of `purchase`. -/
def resolve (api : PurchaseApi saleId) (p : ℕ) (call : PurchaseCall saleId) : PurchaseApi saleId :=
  { api with purchases := api.purchases.set p { call with
      decision := some (purchaseDecision none (.ok call.order.result) api.queue.now) } }

/-- The `catch` of the first attempt and the call of the second. -/
def retryOnce (timeoutMs : ℕ) (api : PurchaseApi saleId) (p : ℕ) (call : PurchaseCall saleId)
    (creation : Except Failure Unit) : PurchaseApi saleId :=
  let second := api.queue.enqueue timeoutMs call.order.payload creation
  { queue := second.2, purchases := api.purchases.set p { call with retry := some second.1 } }

/-- `purchase` goes on when the attempt it waits for has settled. -/
def resume (timeoutMs : ℕ) (api : PurchaseApi saleId) (p : ℕ) (creation : Except Failure Unit) :
    Option (PurchaseApi saleId) := do
  let call ← api.purchases[p]?
  if call.decision.isSome then none
  else match call.retry with
    | none =>
      match ← api.queue.attemptResult call.first with
      | .ok () => some (api.resolve p call)
      | .error _ => some (api.retryOnce timeoutMs p call creation)
    | some second => do
      let _ ← api.queue.attemptResult second
      some (api.resolve p call)

def step (timeoutMs : ℕ) (api : PurchaseApi saleId) : Event saleId → Option (PurchaseApi saleId)
  | .queue e => (api.queue.step timeoutMs e).map fun queue => { api with queue }
  | .confirm order creation =>
    let first := api.queue.enqueue timeoutMs order.payload creation
    some { queue := first.2, purchases := api.purchases ++ [⟨order, first.1, none, none⟩] }
  | .resume p creation => api.resume timeoutMs p creation

abbrev run (timeoutMs : ℕ) :
    PurchaseApi saleId → List (Event saleId) → Option (PurchaseApi saleId) :=
  Machine.run (step timeoutMs)

/-! ## The queue of a run -/

variable {timeoutMs : ℕ} {api api' : PurchaseApi saleId}

/-- What `resume` can do to a purchase. -/
theorem resume_cases {p : ℕ} {creation : Except Failure Unit}
    (h : api.resume timeoutMs p creation = some api') :
    ∃ call, api.purchases[p]? = some call ∧ call.decision = none ∧
      ((∃ e, call.retry = none ∧ api.queue.attemptResult call.first = some (.error e) ∧
          api' = api.retryOnce timeoutMs p call creation) ∨
        api' = api.resolve p call) := by
  obtain ⟨call, hcall, hrest⟩ := Option.bind_eq_some_iff.1 h
  split_ifs at hrest with hdec
  refine ⟨call, hcall, by simpa using hdec, ?_⟩
  split at hrest
  next hretry =>
    obtain ⟨result, hresult, hrest⟩ := Option.bind_eq_some_iff.1 hrest
    split at hrest
    · exact .inr (Option.some.inj hrest).symm
    · exact .inl ⟨_, hretry, hresult, (Option.some.inj hrest).symm⟩
  next second hretry =>
    obtain ⟨result, -, hrest⟩ := Option.bind_eq_some_iff.1 hrest
    exact .inr (Option.some.inj hrest).symm

/-- Every event is at most one event of the queue; no attempt by itself finds a generation ready. -/
theorem step_queue {e : Event saleId} (h : api.step timeoutMs e = some api') :
    ∃ es : List OrdersQueue.Event, api.queue.run timeoutMs es = some api'.queue ∧
      ∀ c, .ready c ∈ es ↔ e = .queue (.ready c) := by
  -- an attempt is one call of `enqueue`
  have hattempt : ∀ payload creation, ∃ es : List OrdersQueue.Event,
      api.queue.run timeoutMs es = some (api.queue.enqueue timeoutMs payload creation).2 ∧
      ∀ c, .ready c ∉ es := fun payload creation =>
    ⟨[.enqueue payload creation], rfl, fun c hc => by simp at hc⟩
  cases e with
  | queue e =>
    obtain ⟨q, hq, rfl⟩ := Option.map_eq_some_iff.1 h
    refine ⟨[e], ?_, fun c => ?_⟩
    · show (api.queue.step timeoutMs e).bind _ = _
      rw [hq]
      rfl
    · rw [List.mem_singleton]
      exact ⟨fun he => by rw [he], fun he => by injection he with he; exact he.symm⟩
  | confirm order creation =>
    obtain rfl := Option.some.inj h
    obtain ⟨es, hes, hno⟩ := hattempt order.payload creation
    exact ⟨es, hes, fun c => ⟨fun hc => absurd hc (hno c), fun hc => by cases hc⟩⟩
  | resume p creation =>
    obtain ⟨call, -, -, ⟨e, -, -, rfl⟩ | rfl⟩ := resume_cases h
    · obtain ⟨es, hes, hno⟩ := hattempt call.order.payload creation
      exact ⟨es, hes, fun c => ⟨fun hc => absurd hc (hno c), fun hc => by cases hc⟩⟩
    · exact ⟨[], rfl, fun c => ⟨fun hc => (by cases hc), fun hc => (by cases hc)⟩⟩

/-- A run of the API is a run of its queue. -/
theorem run_queue {es : List (Event saleId)} (h : api.run timeoutMs es = some api') :
    ∃ es' : List OrdersQueue.Event, api.queue.run timeoutMs es' = some api'.queue ∧
      ∀ c, .ready c ∈ es' ↔ .queue (.ready c) ∈ es := by
  induction es generalizing api with
  | nil =>
    obtain rfl := Option.some.inj h
    exact ⟨[], rfl, fun c => by simp⟩
  | cons e es ih =>
    obtain ⟨t, hstep, hrest⟩ := Machine.run_cons h
    obtain ⟨es₁, hes₁, hready₁⟩ := step_queue hstep
    obtain ⟨es₂, hes₂, hready₂⟩ := ih hrest
    refine ⟨es₁ ++ es₂, ?_, fun c => ?_⟩
    · exact Machine.run_trans hes₁ hes₂
    · rw [List.mem_append, List.mem_cons, hready₁, hready₂, eq_comm]

theorem inv_queue {now : ℕ} {es : List (Event saleId)}
    (h : (initial saleId now).run timeoutMs es = some api) : api.queue.Inv := by
  obtain ⟨es', hes', -⟩ := run_queue h
  exact (OrdersQueue.inv_initial now).run hes'

/-! ## The purchases of a run -/

/-- A purchase keeps its order and its attempts; a decision is final. -/
structure Later (call call' : PurchaseCall saleId) : Prop where
  order : call'.order = call.order
  first : call'.first = call.first
  retry : ∀ r, call.retry = some r → call'.retry = some r
  decision : ∀ d, call.decision = some d → call'.decision = some d

theorem Later.refl (call : PurchaseCall saleId) : Later call call :=
  ⟨rfl, rfl, fun _ => id, fun _ => id⟩

theorem later_set {p p' : ℕ} {call call' old : PurchaseCall saleId}
    (hcall : api.purchases[p]? = some call) (hl : Later call call')
    (hold : api.purchases[p']? = some old) :
    ∃ new, (api.purchases.set p call')[p']? = some new ∧ Later old new := by
  by_cases hp : p = p'
  · subst hp
    obtain rfl := Option.some.inj (hcall.symm.trans hold)
    have hlt := (List.getElem?_eq_some_iff.1 hcall).1
    exact ⟨call', List.getElem?_set_self hlt, hl⟩
  · rw [List.getElem?_set_ne hp]
    exact ⟨old, hold, .refl old⟩

theorem step_later {e : Event saleId} (h : api.step timeoutMs e = some api') {p : ℕ}
    {call : PurchaseCall saleId} (hcall : api.purchases[p]? = some call) :
    ∃ call', api'.purchases[p]? = some call' ∧ Later call call' := by
  cases e with
  | queue e =>
    obtain ⟨q, -, rfl⟩ := Option.map_eq_some_iff.1 h
    exact ⟨call, hcall, .refl call⟩
  | confirm order creation =>
    obtain rfl := Option.some.inj h
    have hlt := (List.getElem?_eq_some_iff.1 hcall).1
    refine ⟨call, ?_, .refl call⟩
    show (api.purchases ++ [_])[p]? = _
    rw [List.getElem?_append_left hlt, hcall]
  | resume p' creation =>
    obtain ⟨call₀, hcall₀, hdec, ⟨e, hretry, -, rfl⟩ | rfl⟩ := resume_cases h
    · exact later_set hcall₀ ⟨rfl, rfl, fun r hr => (by rw [hretry] at hr; cases hr), fun _ => id⟩ hcall
    · exact later_set hcall₀ ⟨rfl, rfl, fun _ => id, fun d hd => by rw [hdec] at hd; cases hd⟩ hcall

theorem run_later {es : List (Event saleId)} (h : api.run timeoutMs es = some api') {p : ℕ}
    {call : PurchaseCall saleId} (hcall : api.purchases[p]? = some call) :
    ∃ call', api'.purchases[p]? = some call' ∧ Later call call' := by
  induction es generalizing api call with
  | nil =>
    obtain rfl := Option.some.inj h
    exact ⟨call, hcall, .refl call⟩
  | cons e es ih =>
    obtain ⟨t, hstep, hrest⟩ := Machine.run_cons h
    obtain ⟨call₁, hcall₁, h₁⟩ := step_later hstep hcall
    obtain ⟨call₂, hcall₂, h₂⟩ := ih hrest hcall₁
    exact ⟨call₂, hcall₂, h₂.order.trans h₁.order, h₂.first.trans h₁.first,
      fun r hr => h₂.retry r (h₁.retry r hr), fun d hd => h₂.decision d (h₁.decision d hd)⟩

/-- The decision of a confirmed order. -/
theorem purchaseDecision_confirmed (order : ConfirmedOrder saleId) (nowMs : ℤ) :
    (purchaseDecision none (.ok order.result) nowMs).outcome = .confirmed := by
  show order.result.outcome.attempt = .confirmed
  rw [order.confirmed]
  rfl

/-- Every decision of a run is `CONFIRMED`. -/
theorem decision_confirmed {now : ℕ} {es : List (Event saleId)}
    (h : (initial saleId now).run timeoutMs es = some api) {p : ℕ} {call : PurchaseCall saleId}
    {d : PurchaseDecision} (hcall : api.purchases[p]? = some call) (hd : call.decision = some d) :
    d.outcome = .confirmed := by
  refine Machine.invariant (I := fun api : PurchaseApi saleId => ∀ call ∈ api.purchases, ∀ d,
    call.decision = some d → d.outcome = .confirmed) ?_ (fun _ hnil => by cases hnil) h call
    (List.mem_of_getElem? hcall) d hd
  intro t e t' hI hstep call hmem d hd
  cases e with
  | queue e =>
    obtain ⟨q, -, rfl⟩ := Option.map_eq_some_iff.1 hstep
    exact hI call hmem d hd
  | confirm order creation =>
    obtain rfl := Option.some.inj hstep
    rcases List.mem_append.1 hmem with hold | hnew
    · exact hI call hold d hd
    · obtain rfl := List.mem_singleton.1 hnew
      cases hd
  | resume p' creation =>
    obtain ⟨call₀, hcall₀, hdec, ⟨e, -, -, rfl⟩ | rfl⟩ := resume_cases hstep
    · rcases List.mem_or_eq_of_mem_set hmem with hold | rfl
      · exact hI call hold d hd
      · exact hI call₀ (List.mem_of_getElem? hcall₀) d hd
    · rcases List.mem_or_eq_of_mem_set hmem with hold | rfl
      · exact hI call hold d hd
      · obtain rfl := Option.some.inj hd
        exact purchaseDecision_confirmed _ _

/-! ## The retry -/

/-- Purchase `p` waits for its first attempt, the admitted call `c`, and that has rejected. -/
structure FirstFailed (api : PurchaseApi saleId) (p : ℕ) (purchase : PurchaseCall saleId) (c : ℕ)
    (call : EnqueueCall) (e : Failure) : Prop where
  found : api.purchases[p]? = some purchase
  admitted : purchase.first = .ok c
  waiting : purchase.retry = none ∧ purchase.decision = none
  made : api.queue.calls[c]? = some call
  failed : call.phase = .settled (.error e)

/-- The job of the retry has reached the broker, under the job id and with the payload of the
order. -/
def RetrySubmitted (api : PurchaseApi saleId) (p : ℕ) : Prop :=
  ∃ purchase c jobId, api.purchases[p]? = some purchase ∧ purchase.retry = some (.ok c) ∧
    buildOrdersJobId saleId purchase.order.userId = .ok jobId ∧
    ⟨c, jobId, purchase.order.payload⟩ ∈ api.queue.submissions

/-- Purchase `p` can always go on to its decision, and this is `CONFIRMED`. -/
def ResolvesConfirmed (timeoutMs : ℕ) (api : PurchaseApi saleId) (p : ℕ) : Prop :=
  (∃ es api' purchase, api.run timeoutMs es = some api' ∧ api'.purchases[p]? = some purchase ∧
    purchase.decision.isSome = true) ∧
  ∀ es api' purchase d, api.run timeoutMs es = some api' → api'.purchases[p]? = some purchase →
    purchase.decision = some d → d.outcome = .confirmed

/-- A call is taken although generation `g` has retired: it was disposed of more than a backoff ago,
and the service is as it would be without it. -/
structure Reopened (q : OrdersQueue) (g : ℕ) (creation : Except Failure Unit) : Prop where
  disposed : ∃ G f, q.generations[g]? = some G ∧ G.finishedAtMs = some f ∧
    f + PRODUCER_REOPEN_BACKOFF_MS ≤ q.now
  notClosing : q.closing = false
  noBackoff : q.reopenAtMs ≤ q.now
  takes : (∃ g' G', q.Takes g' G') ∨ q.generation = none ∧ creation = .ok ()

theorem enqueue_of_reopened (timeoutMs : ℕ) {q : OrdersQueue} {g : ℕ} {creation : Except Failure Unit}
    (h : Reopened q g creation) (payload : OrdersQueueJobPayload) :
    (q.enqueue timeoutMs payload creation).1 = .ok q.calls.length := by
  rcases OrdersQueue.enqueue_cases timeoutMs q payload creation with
    ⟨e, heq⟩ | ⟨-, -, ⟨g', G', -, heq⟩ | ⟨-, -, heq⟩⟩
  · -- none of the four checks refuses
    exfalso
    have hnow : ¬ q.now < q.reopenAtMs := Nat.not_lt.2 h.noBackoff
    rcases h.takes with ⟨g', G', ht⟩ | ⟨hnone, rfl⟩
    · have hroom : ¬ MAX_PRODUCER_IN_FLIGHT ≤ G'.inFlight := Nat.not_le.2 ht.room
      simp [OrdersQueue.enqueue, OrdersQueue.currentGeneration, h.notClosing, hnow, ht.current,
        ht.found, ht.active, hroom] at heq
    · have hnew := (OrdersQueue.takes_createGeneration q).found
      simp [OrdersQueue.enqueue, OrdersQueue.currentGeneration, h.notClosing, hnow, hnone,
        Except.map, hnew, MAX_PRODUCER_IN_FLIGHT] at heq
  · rw [heq]
  · rw [heq]

/-- A call that rejected has left its generation retiring, so whatever takes the next call is another
one. -/
theorem reopened_of_enqueue {q : OrdersQueue} (hI : q.Inv) {c : ℕ} {call : EnqueueCall}
    {e : Failure} (hc : q.calls[c]? = some call) (hfail : call.phase = .settled (.error e))
    {payload : OrdersQueueJobPayload} {creation : Except Failure Unit} {c' : ℕ}
    (h : (q.enqueue timeoutMs payload creation).1 = .ok c') :
    Reopened q call.generation creation := by
  have hlt := hI.admitted hc
  have hG : q.generations[call.generation]? = some q.generations[call.generation] :=
    List.getElem?_eq_getElem hlt
  have hret := hI.failed hc hfail hG
  have hdone : q.generation ≠ some call.generation →
      ∃ f, q.generations[call.generation].finishedAtMs = some f ∧
        f + PRODUCER_REOPEN_BACKOFF_MS ≤ q.reopenAtMs := by
    intro hne
    cases hfin : q.generations[call.generation].finishedAtMs with
    | none => exact absurd (hI.unfinished hG hfin) hne
    | some f => exact ⟨f, rfl, (hI.reopen hG hfin).2⟩
  rcases OrdersQueue.enqueue_cases timeoutMs q payload creation with
    ⟨e', heq⟩ | ⟨hopen, hnow, ⟨g', G', ht, -⟩ | ⟨hnone, hcr, -⟩⟩
  · rw [heq] at h
    cases h
  · have hne : q.generation ≠ some call.generation := by
      intro hsame
      obtain rfl := Option.some.inj (ht.current.symm.trans hsame)
      obtain rfl := Option.some.inj (ht.found.symm.trans hG)
      have hact := ht.active
      rw [hret] at hact
      cases hact
    obtain ⟨f, hf, hle⟩ := hdone hne
    exact ⟨⟨_, f, hG, hf, hle.trans hnow⟩, hopen, hnow, .inl ⟨g', G', ht⟩⟩
  · obtain ⟨f, hf, hle⟩ := hdone (by rw [hnone]; exact (Option.some_ne_none _).symm)
    exact ⟨⟨_, f, hG, hf, hle.trans hnow⟩, hopen, hnow, .inr ⟨hnone, hcr⟩⟩

theorem attemptResult_of_settled {q : OrdersQueue} {c : ℕ} {call : EnqueueCall}
    {outcome : Except Failure Unit} (hc : q.calls[c]? = some call)
    (hphase : call.phase = .settled outcome) : q.attemptResult (.ok c) = some outcome := by
  show (q.calls[c]?).bind _ = _
  rw [hc]
  show (match call.phase with
    | .settled outcome => some outcome
    | _ => none) = _
  rw [hphase]

/-- The second attempt, as the step that makes it leaves it. -/
theorem resume_of_firstFailed {p : ℕ} {purchase : PurchaseCall saleId} {c : ℕ} {call : EnqueueCall}
    {e : Failure} {creation : Except Failure Unit} (hf : api.FirstFailed p purchase c call e)
    (h : api.step timeoutMs (.resume p creation) = some api') :
    api'.queue = (api.queue.enqueue timeoutMs purchase.order.payload creation).2 ∧
      api'.purchases[p]? = some { purchase with
        retry := some (api.queue.enqueue timeoutMs purchase.order.payload creation).1 } := by
  have hresult : api.queue.attemptResult purchase.first = some (.error e) := by
    rw [hf.admitted]
    exact attemptResult_of_settled hf.made hf.failed
  have hstep : api.step timeoutMs (.resume p creation) =
      some (api.retryOnce timeoutMs p purchase creation) := by
    show (api.purchases[p]?).bind _ = _
    rw [hf.found]
    simp [hf.waiting.1, hf.waiting.2, hresult]
  rw [hstep] at h
  obtain rfl := Option.some.inj h
  have hlt := (List.getElem?_eq_some_iff.1 hf.found).1
  exact ⟨rfl, List.getElem?_set_self hlt⟩

/-- A call that rejected has opened the circuit of its generation. -/
theorem enqueue_of_failed (timeoutMs : ℕ) {q : OrdersQueue} (hI : q.Inv) {c : ℕ}
    {call : EnqueueCall} {e : Failure}
    (hc : q.calls[c]? = some call) (hfail : call.phase = .settled (.error e))
    (hclosing : q.closing = false) (hback : q.reopenAtMs ≤ q.now)
    (hcurrent : q.generation = some call.generation) (payload : OrdersQueueJobPayload)
    (creation : Except Failure Unit) : q.enqueue timeoutMs payload creation =
      (.error (.error "orders queue producer circuit is open"), q) := by
  obtain ⟨G, hG, -⟩ := hI.current hcurrent
  have hret := hI.failed hc hfail hG
  have hnow : ¬ q.now < q.reopenAtMs := Nat.not_lt.2 hback
  simp [OrdersQueue.enqueue, OrdersQueue.currentGeneration, hclosing, hnow, hcurrent, hG, hret]

/-! ## The end of a purchase -/

/-- A call that has not settled does so at its deadline. -/
theorem deadline_settles (timeoutMs : ℕ) {q : OrdersQueue} {c : ℕ} {call : EnqueueCall}
    (hc : q.calls[c]? = some call) (hopen : call.isOpen = true) :
    ∃ q' r, q.run timeoutMs [.tick call.deadlineAtMs, .deadline c] = some q' ∧
      q'.attemptResult (.ok c) = some r := by
  have hdue : call.isOpen = true ∧ call.deadlineAtMs ≤ q.now + call.deadlineAtMs :=
    ⟨hopen, Nat.le_add_left _ _⟩
  refine ⟨({ q with now := q.now + call.deadlineAtMs } : OrdersQueue).failCall c call.generation
    (.error "orders queue enqueue timed out"), .error (.error "orders queue enqueue timed out"),
    ?_, ?_⟩
  · show (((q.calls[c]?).bind _).bind _) = _
    rw [hc]
    show (if call.isOpen = true ∧ call.deadlineAtMs ≤ q.now + call.deadlineAtMs then _
      else none).bind _ = _
    rw [if_pos hdue]
    rfl
  · have hlate : (q.modifyCall c fun call => { call with
        phase := .settled (.error (.error "orders queue enqueue timed out")) }).calls[c]? =
        some { call with
          phase := .settled (.error (.error "orders queue enqueue timed out")) } := by
      rw [OrdersQueue.getElem?_modifyCall, if_pos rfl, hc]
      rfl
    exact attemptResult_of_settled hlate rfl

/-- An attempt has settled, or can do so. -/
theorem attempt_settles (timeoutMs : ℕ) {q : OrdersQueue} {attempt : Except Failure ℕ}
    (hadm : ∀ c, attempt = .ok c → c < q.calls.length) :
    ∃ es q' r, q.run timeoutMs es = some q' ∧ q'.attemptResult attempt = some r := by
  cases attempt with
  | error e => exact ⟨[], q, .error e, rfl, rfl⟩
  | ok c =>
    have hlt := hadm c rfl
    have hc : q.calls[c]? = some q.calls[c] := List.getElem?_eq_getElem hlt
    cases hphase : q.calls[c].phase with
    | settled r => exact ⟨[], q, r, rfl, attemptResult_of_settled hc hphase⟩
    | awaitReady =>
      obtain ⟨q', r, hrun, hr⟩ := deadline_settles timeoutMs hc (by rw [EnqueueCall.isOpen, hphase])
      exact ⟨_, q', r, hrun, hr⟩
    | awaitAdd =>
      obtain ⟨q', r, hrun, hr⟩ := deadline_settles timeoutMs hc (by rw [EnqueueCall.isOpen, hphase])
      exact ⟨_, q', r, hrun, hr⟩

/-- The API follows its queue. -/
theorem run_of_queue {es : List OrdersQueue.Event} {q : OrdersQueue}
    (h : api.queue.run timeoutMs es = some q) :
    api.run timeoutMs (es.map .queue) = some { api with queue := q } := by
  induction es generalizing api with
  | nil =>
    obtain rfl := Option.some.inj h
    rfl
  | cons e es ih =>
    obtain ⟨q₁, hstep, hrest⟩ := Machine.run_cons h
    show ((api.queue.step timeoutMs e).map _).bind _ = _
    rw [hstep]
    exact ih hrest

theorem can_resolve {p : ℕ} {purchase : PurchaseCall saleId} {attempt : Except Failure ℕ}
    (hcall : api.purchases[p]? = some purchase) (hretry : purchase.retry = some attempt)
    (hadm : ∀ c, attempt = .ok c → c < api.queue.calls.length) :
    ∃ es api' purchase', api.run timeoutMs es = some api' ∧
      api'.purchases[p]? = some purchase' ∧ purchase'.decision.isSome = true := by
  by_cases hdec : purchase.decision.isSome = true
  · exact ⟨[], api, purchase, rfl, hcall, hdec⟩
  · obtain ⟨es, q, r, hrun, hr⟩ := attempt_settles timeoutMs hadm
    have hresume : ({ api with queue := q } : PurchaseApi saleId).step timeoutMs
        (.resume p (.ok ())) = some (({ api with queue := q } : PurchaseApi saleId).resolve p
          purchase) := by
      show (api.purchases[p]?).bind _ = _
      rw [hcall]
      simp [hdec, hretry, hr]
    have hlt := (List.getElem?_eq_some_iff.1 hcall).1
    refine ⟨es.map .queue ++ [.resume p (.ok ())],
      ({ api with queue := q } : PurchaseApi saleId).resolve p purchase, { purchase with
        decision := some (purchaseDecision none (.ok purchase.order.result) q.now) }, ?_,
      List.getElem?_set_self hlt, rfl⟩
    apply Machine.run_trans (run_of_queue hrun)
    show (step _ _ _).bind _ = _
    rw [hresume]
    rfl

/-! ## When the retry reaches the broker -/

theorem jobId_of_order (order : ConfirmedOrder saleId) :
    ∃ jobId, buildOrdersJobId saleId order.userId = .ok jobId := by
  have hsale : isSaleId saleId = true := order.valid.saleId
  have huser : isUserId order.userId = true := order.valid.userId
  refine ⟨saleId ++ "-" ++ order.userId, ?_⟩
  simp [buildOrdersJobId, assertSaleId, assertUserId, hsale, huser]
  rfl

/-- The first attempt of a confirmed order was admitted and has rejected, and `purchase` goes on. Its
retry submits the job exactly when the generation of the first attempt was disposed of a backoff ago,
the service takes the call, and the retry then finds its generation ready. Either way the purchase
resolves `CONFIRMED`. -/
theorem retry_submits_iff {now : ℕ} {pre post : List (Event saleId)} {api'' : PurchaseApi saleId}
    {p c : ℕ} {purchase : PurchaseCall saleId} {call : EnqueueCall} {e : Failure}
    {creation : Except Failure Unit} (hpre : (initial saleId now).run timeoutMs pre = some api)
    (hf : api.FirstFailed p purchase c call e)
    (hstep : api.step timeoutMs (.resume p creation) = some api')
    (hpost : api'.run timeoutMs post = some api'') :
    (api''.RetrySubmitted p ↔ Reopened api.queue call.generation creation ∧
      .queue (.ready api.queue.calls.length) ∈ post) ∧
    api''.ResolvesConfirmed timeoutMs p := by
  obtain ⟨hqueue, hpurchase⟩ := resume_of_firstFailed hf hstep
  obtain ⟨purchase'', hcall'', hlater⟩ := run_later hpost hpurchase
  have hretry'' := hlater.retry _ rfl
  obtain ⟨es, hes, hready⟩ := run_queue hpost
  obtain ⟨es₀, hes₀, -⟩ := run_queue hpre
  -- the call of the retry, when it is taken
  have htaken : ∀ c', (api.queue.enqueue timeoutMs purchase.order.payload creation).1 = .ok c' →
      c' = api.queue.calls.length ∧ ∃ call', api'.queue.calls[c']? = some call' ∧
        call'.payload = purchase.order.payload := by
    intro c' hok
    rw [hqueue]
    rcases OrdersQueue.enqueue_cases timeoutMs api.queue purchase.order.payload creation with
      ⟨e', heq⟩ | ⟨-, -, ⟨g', G', -, heq⟩ | ⟨-, -, heq⟩⟩
    · rw [heq] at hok
      cases hok
    · rw [heq] at hok ⊢
      obtain rfl := Except.ok.inj hok
      exact ⟨rfl, _, List.getElem?_concat_length, rfl⟩
    · rw [heq] at hok ⊢
      obtain rfl := Except.ok.inj hok
      exact ⟨rfl, _, List.getElem?_concat_length, rfl⟩
  have hfresh : ∀ sub ∈ api'.queue.submissions, sub.call ≠ api.queue.calls.length := by
    intro sub hsub
    rw [hqueue, OrdersQueue.submissions_enqueue] at hsub
    exact (OrdersQueue.submission_call_lt hes₀ hsub).ne
  obtain ⟨jobId, hid⟩ := jobId_of_order purchase.order
  refine ⟨⟨?_, ?_⟩, ?_, ?_⟩
  · rintro ⟨purchase₁, c', jobId₁, hcall₁, hr₁, hid₁, hmem⟩
    obtain rfl := Option.some.inj (hcall''.symm.trans hcall₁)
    have hok := Option.some.inj (hretry''.symm.trans hr₁)
    obtain ⟨rfl, call', hc', hpay⟩ := htaken c' hok
    refine ⟨reopened_of_enqueue (inv_queue hpre) hf.made hf.failed hok, (hready _).1 ?_⟩
    rcases OrdersQueue.ready_of_mem_submissions hes hmem with hold | hr
    · exact absurd rfl (hfresh _ hold)
    · exact hr
  · rintro ⟨hre, hmem⟩
    have hok := enqueue_of_reopened timeoutMs hre purchase.order.payload
    obtain ⟨-, call', hc', hpay⟩ := htaken _ hok
    refine ⟨purchase'', api.queue.calls.length, jobId, hcall'', hretry''.trans (congrArg some hok),
      ?_, ?_⟩
    · rw [hlater.order]
      exact hid
    · rw [hlater.order]
      show (⟨_, jobId, purchase.order.payload⟩ : Submission) ∈ _
      rw [← hpay]
      apply (OrdersQueue.mem_submissions_iff_ready hes hc' hfresh _ _).2 ((hready _).2 hmem)
      · rw [hpay]
        exact purchase.order.valid
      · rw [hpay]
        exact hid
  · apply can_resolve hcall'' hretry''
    intro c' hok
    obtain ⟨-, call', hc', -⟩ := htaken c' hok
    obtain ⟨call'', hc'', -⟩ := (OrdersQueue.grows_run hes).calls hc'
    exact (List.getElem?_eq_some_iff.1 hc'').1
  · intro es₁ api₁ purchase₁ d hrun₁ hcall₁ hd
    have hwhole : (initial saleId now).run timeoutMs
        (pre ++ (.resume p creation :: post) ++ es₁) = some api₁ := by
      apply Machine.run_trans (Machine.run_trans hpre _) hrun₁
      exact Option.bind_eq_some_iff.2 ⟨api', hstep, hpost⟩
    exact decision_confirmed hwhole hcall₁ hd

/-- Alice's confirmed order. -/
def aliceOrder : ConfirmedOrder "flash-2026" where
  userId := "alice"
  requestId := "req-1"
  result := ⟨.confirmed, 4, 5, some "3f2504e0-4f89-41d3-9a0c-0305e82c3301"⟩
  confirmed := rfl
  valid := ⟨by decide +kernel, by decide +kernel, by decide +kernel, by decide, by decide +kernel⟩

/-- Whether the first attempt of purchase 0 was call `c`, on generation 0, and has rejected. -/
def firstRejected (c : ℕ) (api : PurchaseApi saleId) : Bool :=
  match (api.purchases[0]? : Option (PurchaseCall saleId)),
    (api.queue.calls[c]? : Option EnqueueCall) with
  | some ⟨_, .ok c', none, none⟩, some ⟨_, 0, _, .settled (.error _), _⟩ => c' == c
  | _, _ => false

theorem firstFailed_of_rejected {c : ℕ} (h : firstRejected c api = true) :
    ∃ purchase call e, api.FirstFailed 0 purchase c call e ∧ call.generation = 0 := by
  unfold firstRejected at h
  split at h
  next hp hc =>
    obtain rfl := eq_of_beq h
    exact ⟨_, _, _, ⟨hp, rfl, ⟨rfl, rfl⟩, hc, rfl⟩, rfl⟩
  next => cases h

/-- The first attempt waits for the broker while its generation retires and is disposed of; it times
out two seconds later. -/
def disposedRun : List (Event "flash-2026") :=
  [.queue (.enqueue OrdersQueue.firstOrder (.ok ())), .queue (.tick 2000),
    .confirm aliceOrder (.ok ()), .queue (.tick 1000), .queue (.deadline 0),
    .queue (.readiness 0 (.ok ())), .queue (.retire 0), .queue (.ready 1), .queue (.retire 0),
    .queue (.retire 0), .queue (.tick 2000), .queue (.deadline 1)]

/-- The retry opens the next generation and finds it ready. -/
theorem retry_submits_iff_disposedRun : ∃ api : PurchaseApi "flash-2026",
    (initial "flash-2026" 0).run 3000 (disposedRun ++ .resume 0 (.ok ()) ::
      [.queue (.readiness 1 (.ok ())), .queue (.ready 2)]) = some api ∧
    api.RetrySubmitted 0 ∧ api.ResolvesConfirmed 3000 0 := by
  have hsome : ((initial "flash-2026" 0).run 3000 (disposedRun ++ .resume 0 (.ok ()) ::
      [.queue (.readiness 1 (.ok ())), .queue (.ready 2)])).isSome = true := by
    decide +kernel
  obtain ⟨api'', hwhole⟩ := Option.isSome_iff_exists.1 hsome
  obtain ⟨api, hpre, hrest⟩ := Machine.run_split hwhole
  obtain ⟨api', hstep, hpost⟩ := Machine.run_cons hrest
  have hstate : (Machine.run (step 3000) (initial "flash-2026" 0) disposedRun).all (fun api =>
      firstRejected 1 api && decide ((api.queue.generations[0]?).bind (·.finishedAtMs) = some 3000 ∧
        api.queue.closing = false ∧ api.queue.reopenAtMs ≤ api.queue.now ∧ 4000 ≤ api.queue.now ∧
        api.queue.generation = none ∧ api.queue.calls.length = 2)) = true := by
    decide +kernel
  rw [hpre, Option.all_some, Bool.and_eq_true] at hstate
  obtain ⟨hrejected, hstate⟩ := hstate
  obtain ⟨hfin, hclosing, hback, hnow, hnone, hlen⟩ := of_decide_eq_true hstate
  obtain ⟨purchase, call, e, hf, hgen⟩ := firstFailed_of_rejected hrejected
  obtain ⟨G, hG, hfinished⟩ := Option.bind_eq_some_iff.1 hfin
  have hkept := retry_submits_iff hpre hf hstep hpost
  refine ⟨api'', hwhole, hkept.1.2 ⟨⟨⟨G, 3000, ?_, hfinished, hnow⟩, hclosing, hback,
    .inr ⟨hnone, rfl⟩⟩, ?_⟩, hkept.2⟩
  · rw [hgen]
    exact hG
  · rw [hlen]
    simp

/-- A refused retry submits nothing, whatever happens later. -/
theorem not_submitted_of_refused {p : ℕ} {purchase : PurchaseCall saleId} {e : Failure}
    {es : List (Event saleId)} {api' : PurchaseApi saleId} (hcall : api.purchases[p]? = some purchase)
    (hretry : purchase.retry = some (.error e)) (h : api.run timeoutMs es = some api') :
    ¬ api'.RetrySubmitted p := by
  rintro ⟨purchase', c, jobId, hcall', hr, -⟩
  obtain ⟨purchase₁, hcall₁, hlater⟩ := run_later h hcall
  obtain rfl := Option.some.inj (hcall₁.symm.trans hcall')
  rw [hlater.retry _ hretry] at hr
  cases hr

/-- The broker refuses the job of a lone order. -/
def rejectedRun : List (Event "flash-2026") :=
  [.confirm aliceOrder (.ok ()), .queue (.readiness 0 (.ok ())), .queue (.ready 0),
    .queue (.reply 0 (.error .upstream)), .queue (.added 0)]

/-- The retry meets the circuit that the first attempt has opened, and never submits. -/
theorem rejected_add_is_not_retried : ∃ (api api' : PurchaseApi "flash-2026")
    (purchase : PurchaseCall "flash-2026") (call : EnqueueCall) (e : Failure),
    (initial "flash-2026" 0).run 500 rejectedRun = some api ∧
    api.FirstFailed 0 purchase 0 call e ∧
    api.step 500 (.resume 0 (.ok ())) = some api' ∧
    (∃ purchase', api'.purchases[0]? = some purchase' ∧ purchase'.retry =
      some (.error (.error "orders queue producer circuit is open"))) ∧
    ∀ post api'', api'.run 500 post = some api'' → ¬ api''.RetrySubmitted 0 := by
  have hsome : ((initial "flash-2026" 0).run 500
      (rejectedRun ++ [.resume 0 (.ok ())])).isSome = true := by
    decide +kernel
  obtain ⟨api', hwhole⟩ := Option.isSome_iff_exists.1 hsome
  obtain ⟨api, hpre, hrest⟩ := Machine.run_split hwhole
  obtain ⟨api₁, hstep, -⟩ := Machine.run_cons hrest
  have hstate : (Machine.run (step 500) (initial "flash-2026" 0) rejectedRun).all (fun api =>
      firstRejected 0 api && decide (api.queue.closing = false ∧
        api.queue.reopenAtMs ≤ api.queue.now ∧ api.queue.generation = some 0)) = true := by
    decide +kernel
  rw [hpre, Option.all_some, Bool.and_eq_true] at hstate
  obtain ⟨hrejected, hstate⟩ := hstate
  obtain ⟨hclosing, hback, hcurrent⟩ := of_decide_eq_true hstate
  obtain ⟨purchase, call, e, hf, hgen⟩ := firstFailed_of_rejected hrejected
  obtain ⟨-, hpurchase⟩ := resume_of_firstFailed hf hstep
  have hrefused := enqueue_of_failed 500 (inv_queue hpre) hf.made hf.failed hclosing
    hback (by rw [hgen]; exact hcurrent) purchase.order.payload (.ok ())
  rw [hrefused] at hpurchase
  exact ⟨api, api₁, purchase, call, e, hpre, hf, hstep, ⟨_, hpurchase, rfl⟩,
    fun post api'' hpost => not_submitted_of_refused hpurchase rfl hpost⟩

end PurchaseApi

end FlashSale
