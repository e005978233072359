import FlashSale.Api.Responses
import FlashSale.Api.Validation
import FlashSale.Lib.Machine
import FlashSale.Web.Client

/-!
# The form of the web app

`App` reserves for the id in the field and checks the status of that id. A check can be overtaken by
another one, by an edit of the field or by the end of the page, and its request settles anyway;
generation, controller and id, kept in refs, decide whether it may still speak.

The code between two `await`s is one event. A handler is the one of the last render: what it sees of
`interaction` or of the sale is part of the event and may be out of date. The field and
`attemptedId` change in handlers of the user only, and React renders these before the next one.
-/

namespace FlashSale

/-! ## Texts -/

inductive Interaction where
  | idle
  | submitting
  | confirmed
  | duplicate
  | soldOut
  | notStarted
  | ended
  | rateLimited
  | invalid
  | unavailable
  | unknown
  deriving DecidableEq, Repr

inductive FeedbackTone where
  | success
  | warning
  | error
  | info
  deriving DecidableEq, Repr

structure Feedback where
  tone : FeedbackTone
  heading : String
  body : String
  deriving DecidableEq, Repr

def outcomeFeedback (userId : String) (retry : ℤ) : AttemptOutcome → Interaction × Feedback
  | .confirmed => (.confirmed, ⟨.success, "Card secured",
      "Reserved for " ++ userId ++ ". Persistence may take a few seconds."⟩)
  | .alreadyPurchased => (.duplicate, ⟨.warning, "You already hold a reservation",
      "One per customer — check the original reservation below."⟩)
  | .soldOut => (.soldOut, ⟨.error, "Sold out", "Supply reached zero before this attempt landed."⟩)
  | .saleNotStarted => (.notStarted, ⟨.info, "Not open yet",
      "The server has not opened this sale."⟩)
  | .saleEnded => (.ended, ⟨.error, "This drop is closed", "The sale window has ended."⟩)
  | .notInitialized => (.unavailable, ⟨.warning, "Sale temporarily unavailable",
      "The sale is not ready. Try refreshing live status."⟩)
  | .invalidUserId => (.invalid, ⟨.error, "Check your identifier", USER_ID_ERROR⟩)
  | .rateLimited => (.rateLimited, ⟨.warning, "Too many attempts",
      "Try again in " ++ toString retry ++ "s."⟩)
  | .upstreamUnavailable => (.unavailable, ⟨.warning, "Service temporarily unavailable",
      "No purchase result was confirmed. Check status before trying again."⟩)

inductive OrderStatus where
  | reserved
  | persisted
  | compensated
  deriving DecidableEq, Repr

structure ReportedOrder where
  status : OrderStatus
  createdAt : Option String

structure PurchaseStatusResponse where
  userId : String
  purchased : Bool
  order : Option ReportedOrder

/-- `toLocale` is `new Date(createdAt).toLocaleString()`. -/
def statusCopy (toLocale : String → String) (result : PurchaseStatusResponse) (active : Bool) :
    String :=
  match result.purchased, result.order with
  | true, some ⟨.reserved, _⟩ => "Reservation found — reserved and waiting for durable persistence."
  | true, some ⟨.persisted, createdAt⟩ =>
    "Reservation found — persisted to the permanent record." ++
      (match createdAt with
        | some createdAt => if createdAt = "" then "" else " Created " ++ toLocale createdAt ++ "."
        | none => "")
  | false, some ⟨.compensated, _⟩ =>
    "Reservation released — persistence failed safely and the stock was returned." ++
      (if active then " You may try again." else "")
  | _, _ =>
    "No reservation found for " ++ result.userId ++ "." ++
      (if active then " Supply may still be available." else "")

def UNAVAILABLE_COPY : String := "Reservation status is temporarily unavailable. Try again."

/-! ## The state -/

structure CorrelatedStatusResult where
  userId : String
  copy : String
  deriving DecidableEq

structure PurchaseResponse where
  status : AttemptOutcome
  saleId : String
  stockRemaining : Option ℤ
  serverTimeMs : ℤ
  sentAtMs : ℤ
  receivedAtMs : ℤ
  retryAfterSeconds : Option ℤ

/-- A call of `client.purchase` that has not settled. -/
structure Purchase where
  abort : ℕ
  userId : String
  aborted : Bool

/-- A call of `client.getPurchaseStatus` that has not settled, with what its `check` remembers;
`active` is what it saw of the sale. -/
structure Lookup where
  abort : ℕ
  ownGeneration : ℕ
  requestedUserId : String
  active : Bool
  aborted : Bool

/-- What the form asks of the two pollers. -/
inductive PollerCall where
  | applySnapshot (saleId : String) (stockRemaining serverTimeMs sentAtMs receivedAtMs : ℤ)
  | refreshSale
  | refreshOps

/-- The state and the refs of `App`, and the requests under way. -/
structure Console where
  userId : String
  attemptedId : Option String
  interaction : Interaction
  feedback : Option Feedback
  error : Option String
  checkBusy : Bool
  checkResult : Option CorrelatedStatusResult
  rateUntil : ℤ
  purchaseController : Option ℕ
  statusGeneration : ℕ
  statusController : Option ℕ
  currentNormalizedUserId : String
  mounted : Bool
  purchases : List Purchase
  lookups : List Lookup
  pollers : List PollerCall
  nextAbort : ℕ

/-- How `client.purchase` settles. A failure that is no `ApiClientError` has no kind. -/
inductive PurchaseOutcomeEvent where
  | response (data : PurchaseResponse) (nowMs : ℤ)
  | failure (kind : Option ApiClientErrorKind)

inductive ConsoleEvent where
  | changeUserId (value : String)
  /-- `interaction` is that of the last render. -/
  | submit (interaction : Interaction)
  | settlePurchase (abort : ℕ) (outcome : PurchaseOutcomeEvent)
  /-- `active` says whether the last render showed an active sale. -/
  | check (active : Bool)
  /-- No response is a failure. -/
  | settleLookup (abort : ℕ) (response : Option PurchaseStatusResponse)
  /-- The effect of a render that showed `rate_limited` and no seconds left. -/
  | rateOver
  | cleanup

/-- The event neither changes the id in the field nor asks again. -/
def ConsoleEvent.Keeps (id : String) : ConsoleEvent → Prop
  | .changeUserId value => jsTrim value = id
  | .check _ => False
  | _ => True

namespace Console

def initial : Console where
  userId := ""
  attemptedId := none
  interaction := .idle
  feedback := none
  error := none
  checkBusy := false
  checkResult := none
  rateUntil := 0
  purchaseController := none
  statusGeneration := 0
  statusController := none
  currentNormalizedUserId := ""
  mounted := true
  purchases := []
  lookups := []
  pollers := []
  nextAbort := 0

/-- `statusController.current?.abort()`. -/
def abortLookup (c : Console) : List Lookup :=
  c.lookups.map fun l => if c.statusController = some l.abort then { l with aborted := true } else l

def changeUserId (c : Console) (value : String) : Console :=
  let normalized := jsTrim value
  let c :=
    if normalized ≠ c.currentNormalizedUserId then
      { c with
        currentNormalizedUserId := normalized
        statusGeneration := c.statusGeneration + 1
        lookups := c.abortLookup
        statusController := none
        checkResult := none
        checkBusy := false }
    else c
  let c := { c with userId := value, error := none }
  if c.attemptedId ≠ none ∧ some (jsTrim value) ≠ c.attemptedId then
    { c with interaction := .idle, feedback := none, checkResult := none }
  else c

/-- `submit` up to its `await`. -/
def submit (c : Console) (interaction : Interaction) : Console :=
  if interaction = .submitting then c
  else
    match validateUserId c.userId with
    | .error message => { c with error := some message, interaction := .invalid }
    | .ok value =>
      { c with
        error := none
        attemptedId := some value
        interaction := .submitting
        feedback := none
        purchaseController := some c.nextAbort
        purchases := c.purchases ++ [⟨c.nextAbort, value, false⟩]
        nextAbort := c.nextAbort + 1 }

/-- The `finally` of `submit`. -/
def releasePurchase (c : Console) (p : Purchase) : Console :=
  if c.purchaseController = some p.abort then { c with purchaseController := none } else c

/-- `submit` from its `await` on. -/
def resumePurchase (c : Console) (p : Purchase) : PurchaseOutcomeEvent → Console
  | .response data nowMs =>
    let retry := data.retryAfterSeconds.getD 0
    let next := outcomeFeedback p.userId retry data.status
    let c := { c with
      interaction := next.1
      feedback := some next.2
      error := if data.status = AttemptOutcome.invalidUserId then some USER_ID_ERROR else c.error
      rateUntil :=
        if data.status = AttemptOutcome.rateLimited then nowMs + retry * 1000 else c.rateUntil }
    let snapshot := data.stockRemaining.toList.map fun stockRemaining =>
      PollerCall.applySnapshot data.saleId stockRemaining data.serverTimeMs data.sentAtMs
        data.receivedAtMs
    let refresh :=
      if data.status ≠ .alreadyPurchased ∧ data.status ≠ .invalidUserId ∧
        data.status ≠ .rateLimited then [PollerCall.refreshSale] else []
    let c := { c with pollers := c.pollers ++ snapshot ++ refresh ++ [PollerCall.refreshOps] }
    c.releasePurchase p
  | .failure kind =>
    if p.aborted then c.releasePurchase p
    else
      let ambiguous := kind = some .network ∨ kind = some .timeout
      { c with
        interaction := .unknown
        feedback := some ⟨.warning,
          if ambiguous then "Result unknown" else "We could not verify the result",
          "The request may have reached the sale. Check your reservation before trying again."⟩
        }.releasePurchase p

/-- What `check` does for a valid id, up to its `await`. -/
def ask (c : Console) (active : Bool) (requestedUserId : String) : Console :=
  { c with
    statusGeneration := c.statusGeneration + 1
    lookups := c.abortLookup ++
      [⟨c.nextAbort, c.statusGeneration + 1, requestedUserId, active, false⟩]
    statusController := some c.nextAbort
    currentNormalizedUserId := requestedUserId
    checkBusy := true
    checkResult := none
    nextAbort := c.nextAbort + 1 }

/-- `check` up to its `await`. -/
def check (c : Console) (active : Bool) : Console :=
  match validateUserId c.userId with
  | .error message => { c with error := some message }
  | .ok requestedUserId => c.ask active requestedUserId

/-- `ownsLookup`. -/
def OwnsLookup (c : Console) (l : Lookup) : Prop :=
  l.ownGeneration = c.statusGeneration ∧ c.statusController = some l.abort ∧ l.aborted = false ∧
    c.currentNormalizedUserId = l.requestedUserId

instance (c : Console) (l : Lookup) : Decidable (c.OwnsLookup l) :=
  inferInstanceAs (Decidable (_ ∧ _))

/-- What a lookup shows for the way it settled. -/
def Lookup.result (toLocale : String → String) (l : Lookup) :
    Option PurchaseStatusResponse → CorrelatedStatusResult
  | some data =>
    ⟨l.requestedUserId,
      if jsTrim data.userId = l.requestedUserId then statusCopy toLocale data l.active
      else UNAVAILABLE_COPY⟩
  | none => ⟨l.requestedUserId, UNAVAILABLE_COPY⟩

/-- `check` from its `await` on. -/
def resumeLookup (toLocale : String → String) (c : Console) (l : Lookup)
    (response : Option PurchaseStatusResponse) : Console :=
  if c.OwnsLookup l then
    { c with
      checkResult := some (Lookup.result toLocale l response)
      statusController := none
      checkBusy := false }
  else c

/-- The cleanup of the effect of `App`. -/
def cleanup (c : Console) : Console :=
  { c with
    statusGeneration := c.statusGeneration + 1
    purchases := c.purchases.map fun p =>
      if c.purchaseController = some p.abort then { p with aborted := true } else p
    purchaseController := none
    lookups := c.abortLookup
    statusController := none
    mounted := false }

/-- The call has settled. -/
def dropLookup (c : Console) (abort : ℕ) : Console :=
  { c with lookups := c.lookups.filter fun l => l.abort ≠ abort }

def dropPurchase (c : Console) (abort : ℕ) : Console :=
  { c with purchases := c.purchases.filter fun p => p.abort ≠ abort }

def step (toLocale : String → String) (c : Console) : ConsoleEvent → Option Console
  | .changeUserId value => if c.mounted then some (c.changeUserId value) else none
  | .submit interaction => if c.mounted then some (c.submit interaction) else none
  | .settlePurchase abort outcome =>
    (c.purchases.find? (·.abort = abort)).map fun p =>
      (c.dropPurchase abort).resumePurchase p outcome
  | .check active => if c.mounted then some (c.check active) else none
  | .settleLookup abort response =>
    (c.lookups.find? (·.abort = abort)).map fun l =>
      (c.dropLookup abort).resumeLookup toLocale l response
  | .rateOver => if c.mounted then some { c with interaction := .idle } else none
  | .cleanup => if c.mounted then some c.cleanup else none

/-! ## What an event does to the lookups -/

variable {toLocale : String → String} {c c' : Console} {e : ConsoleEvent} {l : Lookup}

theorem validateUserId_congr {a b : String} (h : jsTrim a = jsTrim b) :
    validateUserId a = validateUserId b := by
  unfold validateUserId
  rw [h]

theorem validateUserId_ok {raw value : String} (h : validateUserId raw = .ok value) :
    value = jsTrim raw := by
  unfold validateUserId at h
  dsimp only at h
  split_ifs at h
  exact (Except.ok.inj h).symm

/-- The lookups and what `ownsLookup` reads are as before; a result may be taken down. -/
structure SameLookups (c c' : Console) : Prop where
  field : jsTrim c'.userId = jsTrim c.userId
  busy : c'.checkBusy = c.checkBusy
  result : ∀ r, c'.checkResult = some r → c.checkResult = some r
  generation : c'.statusGeneration = c.statusGeneration
  controller : c'.statusController = c.statusController
  current : c'.currentNormalizedUserId = c.currentNormalizedUserId
  mounted : c'.mounted = c.mounted
  lookups : c'.lookups = c.lookups
  next : c.nextAbort ≤ c'.nextAbort

theorem SameLookups.refl (c : Console) : SameLookups c c :=
  ⟨rfl, rfl, fun _ hr => hr, rfl, rfl, rfl, rfl, rfl, le_rfl⟩

theorem SameLookups.owns (h : SameLookups c c') : c'.OwnsLookup l ↔ c.OwnsLookup l := by
  unfold OwnsLookup
  rw [h.generation, h.controller, h.current]

theorem sameLookups_submit (c : Console) (interaction : Interaction) :
    SameLookups c (c.submit interaction) := by
  unfold submit
  split_ifs
  · exact .refl c
  · cases validateUserId c.userId with
    | error message => exact ⟨rfl, rfl, fun _ hr => hr, rfl, rfl, rfl, rfl, rfl, le_rfl⟩
    | ok value => exact ⟨rfl, rfl, fun _ hr => hr, rfl, rfl, rfl, rfl, rfl, Nat.le_succ _⟩

theorem SameLookups.releasePurchase (h : SameLookups c c') (p : Purchase) :
    SameLookups c (c'.releasePurchase p) := by
  unfold Console.releasePurchase
  split_ifs
  · exact ⟨h.field, h.busy, h.result, h.generation, h.controller, h.current, h.mounted, h.lookups,
      h.next⟩
  · exact h

theorem sameLookups_resumePurchase (c : Console) (p : Purchase) (outcome : PurchaseOutcomeEvent) :
    SameLookups c ((c.dropPurchase p.abort).resumePurchase p outcome) := by
  cases outcome with
  | response data nowMs =>
    dsimp only [resumePurchase]
    refine SameLookups.releasePurchase ?_ p
    exact ⟨rfl, rfl, fun _ hr => hr, rfl, rfl, rfl, rfl, rfl, le_rfl⟩
  | failure kind =>
    dsimp only [resumePurchase]
    by_cases haborted : p.aborted = true
    · rw [if_pos haborted]
      refine SameLookups.releasePurchase ?_ p
      exact ⟨rfl, rfl, fun _ hr => hr, rfl, rfl, rfl, rfl, rfl, le_rfl⟩
    · rw [if_neg haborted]
      refine SameLookups.releasePurchase ?_ p
      exact ⟨rfl, rfl, fun _ hr => hr, rfl, rfl, rfl, rfl, rfl, le_rfl⟩

/-- The end of `changeUserId`, for an id that was not attempted. -/
theorem sameLookups_changeUserId {value : String}
    (h : jsTrim value = c.currentNormalizedUserId) (hfield : jsTrim c.userId = jsTrim value) :
    SameLookups c (c.changeUserId value) := by
  unfold changeUserId
  dsimp only
  rw [if_neg (not_not.2 h)]
  split_ifs
  · exact ⟨hfield.symm, rfl, fun _ hr => by simp at hr, rfl, rfl, rfl, rfl, rfl, le_rfl⟩
  · exact ⟨hfield.symm, rfl, fun _ hr => hr, rfl, rfl, rfl, rfl, rfl, le_rfl⟩

/-- The lookups are given up for those of another id. -/
structure Cleared (c c' : Console) (id : String) : Prop where
  field : jsTrim c'.userId = id
  current : c'.currentNormalizedUserId = id
  busy : c'.checkBusy = false
  result : c'.checkResult = none
  generation : c'.statusGeneration = c.statusGeneration + 1
  controller : c'.statusController = none
  lookups : c'.lookups = c.abortLookup
  next : c'.nextAbort = c.nextAbort

theorem cleared_changeUserId {value : String} (h : jsTrim value ≠ c.currentNormalizedUserId) :
    Cleared c (c.changeUserId value) (jsTrim value) := by
  unfold changeUserId
  dsimp only
  rw [if_pos h]
  split_ifs
  · exact ⟨rfl, rfl, rfl, rfl, rfl, rfl, rfl, rfl⟩
  · exact ⟨rfl, rfl, rfl, rfl, rfl, rfl, rfl, rfl⟩

/-- What an event does to the lookups. -/
theorem step_cases (hcurrent : c.currentNormalizedUserId = jsTrim c.userId)
    (hstep : c.step toLocale e = some c') :
    (SameLookups c c' ∧ (e.Keeps (jsTrim c.userId) ∨
        ∃ active message, e = .check active ∧ validateUserId c.userId = .error message)) ∨
      (∃ value, e = .changeUserId value ∧ Cleared c c' (jsTrim value)) ∨
      (∃ active id, e = .check active ∧ validateUserId c.userId = .ok id ∧ c' = c.ask active id) ∨
      (∃ l ∈ c.lookups, ∃ response, e = .settleLookup l.abort response ∧
        c' = (c.dropLookup l.abort).resumeLookup toLocale l response) ∨
      (e = .cleanup ∧ c' = c.cleanup) := by
  cases e with
  | changeUserId value =>
    dsimp only [step] at hstep
    split_ifs at hstep
    obtain rfl := Option.some.inj hstep
    by_cases hid : jsTrim value = c.currentNormalizedUserId
    · have hfield : jsTrim c.userId = jsTrim value := hcurrent.symm.trans hid.symm
      exact .inl ⟨sameLookups_changeUserId hid hfield, .inl hfield.symm⟩
    · exact .inr (.inl ⟨value, rfl, cleared_changeUserId hid⟩)
  | submit interaction =>
    dsimp only [step] at hstep
    split_ifs at hstep
    obtain rfl := Option.some.inj hstep
    exact .inl ⟨sameLookups_submit c interaction, .inl trivial⟩
  | settlePurchase abort outcome =>
    obtain ⟨p, hp, rfl⟩ := Option.map_eq_some_iff.1 hstep
    have habort : p.abort = abort := by simpa using List.find?_some hp
    subst habort
    exact .inl ⟨sameLookups_resumePurchase c p outcome, .inl trivial⟩
  | check active =>
    dsimp only [step] at hstep
    split_ifs at hstep
    obtain rfl := Option.some.inj hstep
    unfold check
    cases hvalid : validateUserId c.userId with
    | error message =>
      exact .inl ⟨⟨rfl, rfl, fun _ hr => hr, rfl, rfl, rfl, rfl, rfl, le_rfl⟩,
        .inr ⟨active, message, rfl, rfl⟩⟩
    | ok id => exact .inr (.inr (.inl ⟨active, id, rfl, rfl, rfl⟩))
  | settleLookup abort response =>
    obtain ⟨l, hl, rfl⟩ := Option.map_eq_some_iff.1 hstep
    have habort : l.abort = abort := by simpa using List.find?_some hl
    subst habort
    exact .inr (.inr (.inr (.inl ⟨l, List.mem_of_find?_eq_some hl, response, rfl, rfl⟩)))
  | rateOver =>
    dsimp only [step] at hstep
    split_ifs at hstep
    obtain rfl := Option.some.inj hstep
    exact .inl ⟨⟨rfl, rfl, fun _ hr => hr, rfl, rfl, rfl, rfl, rfl, le_rfl⟩, .inl trivial⟩
  | cleanup =>
    dsimp only [step] at hstep
    split_ifs at hstep
    exact .inr (.inr (.inr (.inr ⟨rfl, (Option.some.inj hstep).symm⟩)))

/-! ## The invariant -/

/-- The id in the refs is that of the field; the controller belongs to a lookup that owns the
flight, and a result shown is for the id in the field, with no lookup under way. -/
structure Inv (c : Console) : Prop where
  aborts : (c.lookups.map (·.abort)).Nodup
  fresh : ∀ l ∈ c.lookups, l.abort < c.nextAbort
  field : c.currentNormalizedUserId = jsTrim c.userId
  owner : ∀ a, c.statusController = some a → ∃ l ∈ c.lookups, l.abort = a ∧ c.OwnsLookup l
  busy : c.mounted = true → c.checkBusy = c.statusController.isSome
  result : ∀ r, c.checkResult = some r →
    r.userId = c.currentNormalizedUserId ∧ c.statusController = none

theorem inv_initial : initial.Inv where
  aborts := List.nodup_nil
  fresh := by intro l hl; cases hl
  field := by decide +kernel
  owner := by intro a ha; cases ha
  busy _ := rfl
  result := by intro r hr; cases hr

theorem map_abort_abortLookup (c : Console) :
    c.abortLookup.map (·.abort) = c.lookups.map (·.abort) := by
  unfold abortLookup
  rw [List.map_map]
  refine List.map_congr_left fun l _ => ?_
  show (if _ then _ else _ : Lookup).abort = l.abort
  split_ifs <;> rfl

theorem abort_lt_of_mem_abortLookup (h : c.Inv) (hl : l ∈ c.abortLookup) :
    l.abort < c.nextAbort := by
  have hmem : l.abort ∈ c.lookups.map (·.abort) := by
    rw [← map_abort_abortLookup]
    exact List.mem_map_of_mem hl
  obtain ⟨l₀, hl₀, e⟩ := List.mem_map.1 hmem
  rw [← e]
  exact h.fresh l₀ hl₀

theorem Inv.same (h : c.Inv) (hs : SameLookups c c') : c'.Inv where
  aborts := by rw [hs.lookups]; exact h.aborts
  fresh l hl := (h.fresh l (hs.lookups ▸ hl)).trans_le hs.next
  field := by rw [hs.current, hs.field]; exact h.field
  owner a ha := by
    obtain ⟨l, hl, e, hown⟩ := h.owner a (hs.controller ▸ ha)
    exact ⟨l, hs.lookups ▸ hl, e, hs.owns.2 hown⟩
  busy hm := by rw [hs.busy, hs.controller]; exact h.busy (hs.mounted ▸ hm)
  result r hr := by rw [hs.current, hs.controller]; exact h.result r (hs.result r hr)

theorem Inv.cleared (h : c.Inv) {id : String} (hc : Cleared c c' id) : c'.Inv where
  aborts := by rw [hc.lookups, map_abort_abortLookup]; exact h.aborts
  fresh l hl := by rw [hc.next]; exact abort_lt_of_mem_abortLookup h (hc.lookups ▸ hl)
  field := by rw [hc.current, hc.field]
  owner a ha := by rw [hc.controller] at ha; cases ha
  busy _ := by rw [hc.busy, hc.controller]; rfl
  result r hr := by rw [hc.result] at hr; cases hr

theorem Inv.ask (h : c.Inv) {active : Bool} {id : String} (hid : validateUserId c.userId = .ok id) :
    (c.ask active id).Inv where
  aborts := by
    show ((c.abortLookup ++ [_]).map Lookup.abort).Nodup
    rw [List.map_append, map_abort_abortLookup, List.nodup_append]
    refine ⟨h.aborts, List.nodup_singleton _, ?_⟩
    rintro a ha b hb rfl
    obtain ⟨l, hl, rfl⟩ := List.mem_map.1 ha
    have hlt := h.fresh l hl
    have heq : l.abort = c.nextAbort := by simpa using hb
    omega
  fresh l hl := by
    rcases List.mem_append.1 hl with hl | hl
    · exact Nat.lt_succ_of_lt (abort_lt_of_mem_abortLookup h hl)
    · rw [List.mem_singleton.1 hl]
      exact Nat.lt_succ_self _
  field := validateUserId_ok hid
  owner a ha := by
    exact ⟨_, List.mem_append_right _ (List.mem_singleton_self _), Option.some.inj ha, rfl, rfl,
      rfl, rfl⟩
  busy _ := rfl
  result r hr := by cases hr

/-- Only the owner of the flight holds the controller. -/
theorem Inv.owns_iff (h : c.Inv) (hl : l ∈ c.lookups) :
    c.OwnsLookup l ↔ c.statusController = some l.abort := by
  refine ⟨fun hown => hown.2.1, fun hc => ?_⟩
  obtain ⟨l', hl', ha, hown⟩ := h.owner _ hc
  rw [← List.inj_on_of_nodup_map h.aborts hl' hl ha]
  exact hown

theorem Inv.settle (h : c.Inv) (hl : l ∈ c.lookups) (response : Option PurchaseStatusResponse) :
    ((c.dropLookup l.abort).resumeLookup toLocale l response).Inv := by
  have haborts : ((c.dropLookup l.abort).lookups.map (·.abort)).Nodup :=
    h.aborts.sublist (List.filter_sublist.map _)
  have hfresh : ∀ q ∈ (c.dropLookup l.abort).lookups, q.abort < c.nextAbort := fun q hq =>
    h.fresh q (List.mem_filter.1 hq).1
  unfold resumeLookup
  by_cases hown : (c.dropLookup l.abort).OwnsLookup l
  · rw [if_pos hown]
    refine ⟨haborts, hfresh, h.field, (by intro a ha; cases ha), fun _ => rfl, ?_⟩
    rintro r ⟨⟩
    have hcurrent : c.currentNormalizedUserId = l.requestedUserId := hown.2.2.2
    exact ⟨by cases response <;> exact hcurrent.symm, rfl⟩
  · rw [if_neg hown]
    have hne : c.statusController ≠ some l.abort := fun hc => hown ((h.owns_iff hl).2 hc)
    refine ⟨haborts, hfresh, h.field, fun a ha => ?_, h.busy, h.result⟩
    obtain ⟨q, hq, hqa, hqown⟩ := h.owner a ha
    refine ⟨q, List.mem_filter.2 ⟨hq, ?_⟩, hqa, hqown⟩
    have hqne : q.abort ≠ l.abort := by
      rintro e
      exact hne (hqown.2.1.trans (by rw [e]))
    simpa using hqne

theorem Inv.cleanup (h : c.Inv) : c.cleanup.Inv where
  aborts := by
    show (c.abortLookup.map (·.abort)).Nodup
    rw [map_abort_abortLookup]
    exact h.aborts
  fresh l hl := by
    have hmem : l ∈ c.abortLookup := hl
    have hlt := abort_lt_of_mem_abortLookup h hmem
    exact hlt
  field := h.field
  owner := by intro a ha; cases ha
  busy := by intro hm; cases hm
  result r hr := ⟨(h.result r hr).1, rfl⟩

/-- **One event.** -/
theorem Inv.step (h : c.Inv) (hstep : c.step toLocale e = some c') : c'.Inv := by
  rcases step_cases h.field hstep with ⟨hs, -⟩ | ⟨value, -, hc⟩ | ⟨active, id, -, hid, rfl⟩ |
    ⟨l, hl, response, -, rfl⟩ | ⟨-, rfl⟩
  · exact h.same hs
  · exact h.cleared hc
  · exact h.ask hid
  · exact h.settle hl response
  · exact h.cleanup

/-! ## What the result answers -/

section

variable (toLocale) (es : List ConsoleEvent) (r : CorrelatedStatusResult)

/-- The last check of the run is that of the lookup, for the id that is still in the field. -/
def Asked (l : Lookup) : Prop :=
  ∃ before later c₀, es = before ++ .check l.active :: later ∧
    Machine.run (step toLocale) initial before = some c₀ ∧
    validateUserId c₀.userId = .ok l.requestedUserId ∧ l.abort = c₀.nextAbort ∧
    ∀ e ∈ later, e.Keeps l.requestedUserId

/-- The result shows the answer to the last check of the run, for the id that is still in the
field. -/
def Answered : Prop :=
  ∃ before later l response, es = before ++ .settleLookup l.abort response :: later ∧
    Asked toLocale before l ∧ r = Lookup.result toLocale l response ∧ ∀ e ∈ later, e.Keeps r.userId

end

variable {es : List ConsoleEvent} {r : CorrelatedStatusResult}

theorem Asked.snoc (h : Asked toLocale es l) (he : e.Keeps l.requestedUserId) :
    Asked toLocale (es ++ [e]) l := by
  obtain ⟨before, later, c₀, rfl, hrun, hid, ha, hlater⟩ := h
  refine ⟨before, later ++ [e], c₀, by simp, hrun, hid, ha, fun e' he' => ?_⟩
  rcases List.mem_append.1 he' with he' | he'
  · exact hlater e' he'
  · rw [List.mem_singleton.1 he']
    exact he

theorem Answered.snoc (h : Answered toLocale es r) (he : e.Keeps r.userId) :
    Answered toLocale (es ++ [e]) r := by
  obtain ⟨before, later, l, response, rfl, hasked, hr, hlater⟩ := h
  refine ⟨before, later ++ [e], l, response, by simp, hasked, hr, fun e' he' => ?_⟩
  rcases List.mem_append.1 he' with he' | he'
  · exact hlater e' he'
  · rw [List.mem_singleton.1 he']
    exact he

theorem Asked.valid (h : Asked toLocale es l) {raw : String}
    (hraw : l.requestedUserId = jsTrim raw) : validateUserId raw = .ok l.requestedUserId := by
  obtain ⟨before, later, c₀, -, -, hid, -, -⟩ := h
  rw [← hid]
  exact validateUserId_congr (hraw.symm.trans (validateUserId_ok hid))

theorem userId_result (l : Lookup) (response : Option PurchaseStatusResponse) :
    (Lookup.result toLocale l response).userId = l.requestedUserId := by
  cases response <;> rfl

theorem Answered.valid (h : Answered toLocale es r) {raw : String} (hraw : r.userId = jsTrim raw) :
    validateUserId raw = .ok r.userId := by
  obtain ⟨before, later, l, response, -, hasked, hr, -⟩ := h
  have hid : r.userId = l.requestedUserId := by rw [hr]; exact userId_result l response
  rw [hid] at hraw ⊢
  exact hasked.valid hraw

/-- The history behind the state. -/
structure Told (toLocale : String → String) (es : List ConsoleEvent) (c : Console) : Prop where
  inv : c.Inv
  asked : ∀ l ∈ c.lookups, c.OwnsLookup l → Asked toLocale es l
  answered : ∀ r, c.checkResult = some r → Answered toLocale es r

theorem told_initial : Told toLocale [] initial where
  inv := inv_initial
  asked := by intro l hl; cases hl
  answered := by intro r hr; cases hr

/-- **One event.** -/
theorem Told.step (h : Told toLocale es c)
    (hrun : Machine.run (Console.step toLocale) initial es = some c)
    (hstep : c.step toLocale e = some c') : Told toLocale (es ++ [e]) c' := by
  have hinv := h.inv.step hstep
  rcases step_cases h.inv.field hstep with ⟨hs, hkeeps⟩ | ⟨value, -, hc⟩ |
    ⟨active, id, rfl, hid, rfl⟩ | ⟨l, hl, response, rfl, rfl⟩ | ⟨rfl, rfl⟩
  · refine ⟨hinv, fun l hl hown => ?_, fun r hr => ?_⟩
    · have hown := hs.owns.1 hown
      have hasked := h.asked l (hs.lookups ▸ hl) hown
      have hfield : l.requestedUserId = jsTrim c.userId := hown.2.2.2.symm.trans h.inv.field
      rcases hkeeps with hk | ⟨active, message, rfl, herr⟩
      · exact hasked.snoc (by rw [hfield]; exact hk)
      · rw [hasked.valid hfield] at herr
        cases herr
    · have hr := hs.result r hr
      have hanswered := h.answered r hr
      have hfield : r.userId = jsTrim c.userId := (h.inv.result r hr).1.trans h.inv.field
      rcases hkeeps with hk | ⟨active, message, rfl, herr⟩
      · exact hanswered.snoc (by rw [hfield]; exact hk)
      · rw [hanswered.valid hfield] at herr
        cases herr
  · refine ⟨hinv, fun l hl hown => ?_, fun r hr => ?_⟩
    · have hnone := hc.controller.symm.trans hown.2.1
      cases hnone
    · rw [hc.result] at hr
      cases hr
  · refine ⟨hinv, fun l hl hown => ?_, fun r hr => by cases hr⟩
    -- the new lookup is the only one with the new controller
    have habort : c.nextAbort = l.abort := Option.some.inj hown.2.1
    rcases List.mem_append.1 hl with hl | hl
    · have hlt := abort_lt_of_mem_abortLookup h.inv hl
      omega
    · rw [List.mem_singleton.1 hl]
      exact ⟨es, [], c, rfl, hrun, hid, rfl, by simp⟩
  · unfold resumeLookup at hinv ⊢
    by_cases hown : (c.dropLookup l.abort).OwnsLookup l
    · have hasked := h.asked l hl hown
      rw [if_pos hown] at hinv ⊢
      refine ⟨hinv, fun q _ hq => (by cases hq.2.1), ?_⟩
      rintro _ ⟨⟩
      exact ⟨es, [], l, response, rfl, hasked, rfl, by simp⟩
    · rw [if_neg hown] at hinv ⊢
      exact ⟨hinv, fun q hq hqown => (h.asked q (List.mem_filter.1 hq).1 hqown).snoc trivial,
        fun r hr => (h.answered r hr).snoc trivial⟩
  · exact ⟨hinv, fun q _ hq => (by cases hq.2.1), fun r hr => (h.answered r hr).snoc trivial⟩

/-- A lookup that does not own the flight settles and is forgotten, and that is all. -/
theorem Inv.settle_stale (h : c.Inv) (hl : l ∈ c.lookups) (hne : c.statusController ≠ some l.abort)
    (response : Option PurchaseStatusResponse) :
    c.step toLocale (.settleLookup l.abort response) = some (c.dropLookup l.abort) := by
  have hfind : c.lookups.find? (·.abort = l.abort) = some l := by
    obtain ⟨q, hq⟩ := Option.isSome_iff_exists.1
      (List.find?_isSome.2 ⟨l, hl, by simp⟩ : (c.lookups.find? (·.abort = l.abort)).isSome)
    have hqa : q.abort = l.abort := by simpa using List.find?_some hq
    rw [hq, List.inj_on_of_nodup_map h.aborts (List.mem_of_find?_eq_some hq) hl hqa]
  dsimp only [Console.step]
  rw [hfind, Option.map_some]
  unfold resumeLookup
  rw [if_neg fun hown => hne hown.2.1]

/-- **The status shown.** In every order of edits, checks, purchases and answers: a result on the
page is the answer to the last check, which was for the id in the field, and the field has kept this
id; the page is busy exactly while the lookup of the last check is under way for that id; and every
other lookup settles without a trace. -/
theorem status_correlated {es : List ConsoleEvent}
    (hrun : Machine.run (Console.step toLocale) initial es = some c) :
    (∀ r, c.checkResult = some r → r.userId = jsTrim c.userId ∧ Answered toLocale es r) ∧
    (c.mounted = true → (c.checkBusy = true ↔ ∃ l ∈ c.lookups, c.statusController = some l.abort ∧
      l.requestedUserId = jsTrim c.userId ∧ Asked toLocale es l)) ∧
    (c.mounted = true → c.checkBusy = true → c.checkResult = none) ∧
    ∀ l ∈ c.lookups, c.statusController ≠ some l.abort → ∀ response,
      c.step toLocale (.settleLookup l.abort response) = some (c.dropLookup l.abort) := by
  have h : Told toLocale es c :=
    Machine.history told_initial (fun _ _ _ _ hrun hT hstep => hT.step hrun hstep) hrun
  refine ⟨fun r hr => ⟨(h.inv.result r hr).1.trans h.inv.field, h.answered r hr⟩,
    fun hm => ⟨?_, ?_⟩, fun hm hb => ?_,
    fun l hl hne response => h.inv.settle_stale hl hne response⟩
  · intro hb
    rw [h.inv.busy hm] at hb
    obtain ⟨a, ha⟩ := Option.isSome_iff_exists.1 hb
    obtain ⟨l, hl, rfl, hown⟩ := h.inv.owner a ha
    exact ⟨l, hl, ha, hown.2.2.2.symm.trans h.inv.field, h.asked l hl hown⟩
  · rintro ⟨l, -, hc, -, -⟩
    rw [h.inv.busy hm, hc]
    rfl
  · rw [h.inv.busy hm] at hb
    cases hr : c.checkResult with
    | none => rfl
    | some r =>
      rw [(h.inv.result r hr).2] at hb
      cases hb

/-- The first check is overtaken by an edit and a second check, and answers last. -/
def overtakenRun : List ConsoleEvent :=
  [.changeUserId "alice", .check true, .changeUserId " bob", .check true,
    .settleLookup 1 (some ⟨"bob", true, some ⟨.reserved, none⟩⟩),
    .settleLookup 0 (some ⟨"alice", false, none⟩)]

theorem status_correlated_overtaken : ∃ c : Console,
    Machine.run (Console.step id) initial overtakenRun = some c ∧
      ∃ r, c.checkResult = some r ∧ r.userId = "bob" ∧ r.userId = jsTrim c.userId ∧
        Answered id overtakenRun r := by
  have hshown : (Machine.run (Console.step id) initial overtakenRun).bind (·.checkResult) =
      some ⟨"bob", "Reservation found — reserved and waiting for durable persistence."⟩ := by
    decide +kernel
  obtain ⟨c, hrun, hr⟩ := Option.bind_eq_some_iff.1 hshown
  exact ⟨c, hrun, _, hr, rfl, (status_correlated hrun).1 _ hr⟩

end Console

end FlashSale
