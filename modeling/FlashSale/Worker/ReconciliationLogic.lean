import FlashSale.Worker.Reconciliation
import FlashSale.Worker.RepositoryLogic

/-!
# A proof outline of the reconciliation programs

`runDiff` compares the stores while others go on, so what it has read is old by the time it acts on
it. The outline says what has to survive: an `Outline` names the assertions between the calls (rows
read so far, jobs loaded, ledger entries seen, failed jobs about to be swept) and `DiffLogic` lists
what a system has to give for them. Up to its sweep a pass only ever adds to the ledger; `grow` is
what others and such calls do, and an assertion it keeps holds to the end of that phase by the
frame rule.

The rules below say that every call of `runDiff` up to its sweep is made where its precondition
holds, whatever the others do in between.
-/

namespace FlashSale

open Prog (Logic)

/-! ## Calls -/

/-- The call changes nothing. -/
def Call.isRead : Call → Bool
  | .status _ | .inspect _ _ | .hget _ _ | .hscan _ _ _ | .sscan _ _ _ | .getJob _ | .getState _
  | .getRange _ _ _ | .countJobs _ | .isPaused | .getByUser _ | .listSaleOrders _ _ _
  | .selectSale _ | .getFailedScanOffset => true
  | _ => false

theorem Stores.perform_read (s : Stores) {o : Call} (h : o.isRead = true) :
    ∃ a, s.perform o = some (.ok a, s) := by
  cases o <;> first | exact ⟨_, rfl⟩ | cases h

/-- The calls of `runDiff` before its sweep. -/
inductive DiffCall (env : WorkerEnv) : Call → Prop where
  | read {o : Call} (h : o.isRead = true) : DiffCall env o
  | compareRestore (u id : String) (t : ℕ) : DiffCall env (.compareRestore env.SALE_ID u id t)
  | reconcileMembership (u : String) : DiffCall env (.reconcileMembership env.SALE_ID u)
  | reconcileState : DiffCall env (.reconcileState env.SALE_ID)
  | addJob (id name : String) (data : JsValue) (attempts : ℕ) :
      DiffCall env (.addJob id name data attempts)
  | removeJob (job : Job) : DiffCall env (.removeJob job)

variable {S : Type}

/-! ## The outline -/

/-- The assertions between the calls of a pass.

`ok`: no transaction is open; `grow`: see the head of the file; `scanned n rows`: `rows` were read
as the first `n` rows of the sale; `rows`: the scan is complete; `looked`: the job was loaded from
the queue, and `stated` also its state; `entry`: the ledger holds this entry; `swept`: the slots of
these jobs hold them, failed; `removable`: the job of a resolved reservation may go; `boot`: before
the sale is known to be seeded. -/
structure Outline (S : Type) where
  ok : S → Prop
  grow : S → S → Prop
  scanned : ℕ → List DurableOrder → S → Prop
  rows : List DurableOrder → S → Prop
  looked : Job → S → Prop
  stated : Job → JobState → S → Prop
  entry : ReservationEntry → S → Prop
  swept : List Job → S → Prop
  removable : Job → S → Prop
  boot : S → Prop

/-- The logic of the calls before the sweep. -/
def Outline.logic (O : Outline S) (env : WorkerEnv) (L : Logic Call Call.Res Failure S) :
    Logic Call Call.Res Failure S :=
  L.restrict fun o s => DiffCall env o ∧ O.ok s

/-- An assertion that growing keeps. -/
def Outline.Mono (O : Outline S) (L : Logic Call Call.Res Failure S) (F : S → Prop) : Prop :=
  ∀ s s', F s → O.grow s s' → L.inv s' → F s'

/-- The ledger has an entry for a user. -/
def Stores.InLedger (s : Stores) (env : WorkerEnv) (u : String) : Prop :=
  ((s.sales env.SALE_ID).reservations.hget u).isSome

/-- The users of the persisted ones of these rows are in the ledger. -/
def RowsInLedger (env : WorkerEnv) (stores : S → Stores) (rows : List DurableOrder) (s : S) : Prop :=
  ∀ row : DurableOrder, row ∈ rows ∧ row.status = .persisted → (stores s).InLedger env row.userId

/-- What a system gives the comparison. -/
structure DiffLogic (env : WorkerEnv) (L : Logic Call Call.Res Failure S) (stores : S → Stores)
    (O : Outline S) : Prop where
  step : ∀ {o s r s'}, L.step o s r s' → ∃ fault, (stores s).performWith fault o = some (r, stores s')
  growRely : ∀ {s s'}, L.rely s s' → L.inv s' → O.grow s s'
  growStep : ∀ {o s r s'}, DiffCall env o → L.inv s → O.ok s → L.pre o s → L.step o s r s' →
    L.inv s' → O.grow s s'
  okMono : O.Mono L O.ok
  scannedMono : ∀ n rows, O.Mono L (O.scanned n rows)
  rowsMono : ∀ rows, O.Mono L (O.rows rows)
  lookedMono : ∀ job, O.Mono L (O.looked job)
  statedMono : ∀ job state, O.Mono L (O.stated job state)
  entryMono : ∀ entry, O.Mono L (O.entry entry)
  ledgerMono : ∀ u, O.Mono L fun s => (stores s).InLedger env u
  scanStart : ∀ s, L.inv s → O.ok s → O.scanned 0 [] s
  scanPage : ∀ s n rows, L.inv s → O.ok s → O.scanned n rows s →
    O.scanned (n + env.WORKER_RECONCILE_SCAN_COUNT) (rows ++ (stores s).ordersPage env.SALE_ID n
      env.WORKER_RECONCILE_SCAN_COUNT) s
  scanEnd : ∀ s n rows, L.inv s → O.ok s → O.scanned n rows s →
    ((stores s).ordersPage env.SALE_ID n env.WORKER_RECONCILE_SCAN_COUNT).length <
      env.WORKER_RECONCILE_SCAN_COUNT →
    O.rows (rows ++ (stores s).ordersPage env.SALE_ID n env.WORKER_RECONCILE_SCAN_COUNT) s
  look : ∀ s id job, L.inv s → O.ok s → (stores s).queue.getJob id = some job → O.looked job s
  lookState : ∀ s job, L.inv s → O.ok s → O.looked job s →
    O.stated job ((stores s).queue.getState job.id) s
  ledgerEntry : ∀ s u v entry, L.inv s → O.ok s →
    ((stores s).sales env.SALE_ID).reservations.hget u = some v →
    parseReservationEntry u v = .ok entry → O.entry entry s
  notBuyerOnly : ∀ s u, L.inv s → O.ok s →
    (inspectMembership ((stores s).sales env.SALE_ID) u).1 ≠ .buyerOnly
  readPre : ∀ o s, o.isRead = true → L.inv s → L.pre o s
  restoreRowPre : ∀ s rows row, L.inv s → O.ok s → O.rows rows s → row ∈ rows →
    row.status = .persisted →
    L.pre (.compareRestore env.SALE_ID row.userId row.id row.createdAtMs) s
  restoreJobPre : ∀ s rows sj, L.inv s → O.ok s → O.rows rows s → O.looked sj.job s →
    classifyQueueEntry sj.job sj.state = .ok sj →
    (mapOf (·.userId) rows sj.payload.userId).any (fun row => row.status = .compensated &&
      row.id = sj.payload.reservationId) = false →
    L.pre (.compareRestore env.SALE_ID sj.payload.userId sj.payload.reservationId
      sj.payload.reservedAtMs) s
  addPre : ∀ s entry p jobId, L.inv s → O.ok s → O.entry entry s →
    assertOrdersQueueJobPayload (repairPayload env entry).toJs = .ok p →
    buildOrdersJobId env.SALE_ID entry.userId = .ok jobId →
    L.pre (.addJob jobId PERSIST_ORDER_JOB_NAME p.toJs ORDERS_JOB_ATTEMPTS) s
  removePre : ∀ s entry sj, L.inv s → O.ok s → O.entry entry s → O.stated sj.job sj.state s →
    classifyQueueEntry sj.job sj.state = .ok sj →
    buildOrdersJobId env.SALE_ID entry.userId = .ok sj.job.id →
    (sj.payload.reservationId = entry.reservationId → sj.state = .completed) →
    L.pre (.removeJob sj.job) s
  membershipPre : ∀ s u, L.inv s → O.ok s → L.pre (.reconcileMembership env.SALE_ID u) s
  statePre : ∀ s rows, L.inv s → O.ok s → O.rows rows s → RowsInLedger env stores rows s →
    L.pre (.reconcileState env.SALE_ID) s

variable {env : WorkerEnv} {L : Logic Call Call.Res Failure S} {stores : S → Stores}
  {O : Outline S} {s : S} {α β γ : Type}

/-- A postcondition on the value; nothing is asked of an exception. -/
abbrev returns (P : α → S → Prop) : Except Failure α → S → Prop := Prog.post P fun _ _ => True

theorem Outline.Mono.and {F G : S → Prop} (hF : O.Mono L F) (hG : O.Mono L G) :
    O.Mono L fun s => F s ∧ G s :=
  fun s s' h hg hi => ⟨hF s s' h.1 hg hi, hG s s' h.2 hg hi⟩

theorem Outline.Mono.forall {ι : Type} {p : ι → Prop} {F : ι → S → Prop}
    (hF : ∀ i, O.Mono L (F i)) : O.Mono L fun s => ∀ i, p i → F i s :=
  fun s s' h hg hi i hp => hF i s s' (h i hp) hg hi

theorem Outline.mono_const (p : Prop) : O.Mono L fun _ => p := fun _ _ h _ _ => h

namespace DiffLogic

theorem framed (hL : DiffLogic env L stores O) {F : S → Prop} (hF : O.Mono L F) :
    (O.logic env L).Framed F where
  kept s s' h hr hi := hF s s' h (hL.growRely hr hi) hi
  step _ s _ s' hi h hp hs hi' := hF s s' h (hL.growStep hp.2.1 hi hp.2.2 hp.1 hs hi') hi'

/-- The rule of a program that ends. -/
theorem wp_pure (hL : DiffLogic env L stores O) {a : α} {P : α → S → Prop}
    (hP : O.Mono L (P a)) (h : P a s) : (Prog.pure a : WorkerM α).wp (O.logic env L) (returns P) s :=
  fun s' hr hi => hP s s' h (hL.growRely hr hi) hi

theorem wp_throw {e : Failure} {P : α → S → Prop} :
    (Prog.throw e : WorkerM α).wp (O.logic env L) (returns P) s := fun _ _ _ => trivial

/-- The rule of a sequence; `F` is kept by the first program. -/
theorem wp_seq (hL : DiffLogic env L stores O) {p : WorkerM α} {f : α → WorkerM β}
    {P : α → S → Prop} {Q : β → S → Prop} (F : S → Prop) (hF : O.Mono L F) (hs : F s)
    (hok : O.ok s) (hp : p.wp (O.logic env L) (returns P) s)
    (h : ∀ a s, L.inv s → O.ok s → F s → P a s → (f a).wp (O.logic env L) (returns Q) s) :
    (p.bind f).wp (O.logic env L) (returns Q) s := by
  refine Prog.wp_bind (Prog.wp_mono (Prog.wp_frame (hL.framed (hF.and hL.okMono)) hp ⟨hs, hok⟩) ?_)
  rintro (e | a) s' hi ⟨hP, hs', hok'⟩
  · trivial
  · exact h a s' hi hok' hs' hP

/-- The rule of a call. -/
theorem wp_call (hL : DiffLogic env L stores O) {o : Call} {f : o.Res → WorkerM α}
    {P : α → S → Prop} (A : S → Prop) (hA : O.Mono L A) (hs : A s) (hok : O.ok s)
    (ho : DiffCall env o) (hpre : ∀ s, L.inv s → O.ok s → A s → L.pre o s)
    (h : ∀ a s s', L.inv s → O.ok s → A s → L.step o s (.ok a) s' → L.inv s' → O.ok s' → A s' →
      (f a).wp (O.logic env L) (returns P) s') :
    ((request o).bind f).wp (O.logic env L) (returns P) s := by
  refine Prog.wp_call_bind (fun s => A s ∧ O.ok s) ⟨hs, hok⟩
    (hL.framed (hA.and hL.okMono)).kept ?_
  rintro s hi ⟨hs, hok⟩
  refine ⟨⟨hpre s hi hok hs, ho, hok⟩, fun r s' hstep hi' => ?_⟩
  have hgrow := hL.growStep ho hi hok (hpre s hi hok hs) hstep hi'
  cases r with
  | error e => exact fun _ _ _ => trivial
  | ok a =>
    exact h a s s' hi hok hs hstep hi' (hL.okMono s s' hok hgrow hi') (hA s s' hs hgrow hi')

/-- The rule of a call at the end of a program. -/
theorem wp_last (hL : DiffLogic env L stores O) {o : Call} (A : S → Prop) (hA : O.Mono L A)
    (hs : A s) (hok : O.ok s) (ho : DiffCall env o)
    (hpre : ∀ s, L.inv s → O.ok s → A s → L.pre o s) :
    (request o).wp (O.logic env L) (returns fun _ _ => True) s := by
  refine Prog.wp_call (fun s => A s ∧ O.ok s) ⟨hs, hok⟩ (hL.framed (hA.and hL.okMono)).kept
    fun s hi h => ⟨⟨hpre s hi h.2 h.1, ho, h.2⟩, fun r s' _ _ s'' _ _ => ?_⟩
  cases r <;> trivial

/-- The rule of a read: its value is that of the state after it. -/
theorem wp_read (hL : DiffLogic env L stores O) {o : Call} (ho : o.isRead = true)
    {f : o.Res → WorkerM α} {P : α → S → Prop} (A : S → Prop) (hA : O.Mono L A) (hs : A s)
    (hok : O.ok s)
    (h : ∀ a s, L.inv s → O.ok s → A s → (stores s).perform o = some (.ok a, stores s) →
      (f a).wp (O.logic env L) (returns P) s) :
    ((request o).bind f).wp (O.logic env L) (returns P) s := by
  refine hL.wp_call A hA hs hok (.read ho) (fun s hi _ _ => hL.readPre o s ho hi) ?_
  intro a s s' _ _ _ hstep hi' hok' hs'
  obtain ⟨fault, hf⟩ := hL.step hstep
  obtain ⟨b, hb⟩ := (stores s).perform_read ho
  obtain ⟨hstores, hr⟩ := Stores.performWith_read hb hf
  rcases hr with hr | hr
  · obtain rfl := Except.ok.inj hr
    refine h a s' hi' hok' hs' ?_
    rw [hstores]
    exact hb
  · cases hr

/-- The rule of a check. -/
theorem wp_check {x : Except Failure α} {f : α → WorkerM β} {P : β → S → Prop}
    (h : ∀ a, x = .ok a → (f a).wp (O.logic env L) (returns P) s) :
    ((Prog.ofExcept x).bind f).wp (O.logic env L) (returns P) s := by
  cases x with
  | error e => exact wp_throw
  | ok a => exact h a rfl

/-- The rule of a loop. -/
theorem wp_forEach (hL : DiffLogic env L stores O) {xs : List γ} {b : β}
    {body : β → γ → WorkerM β} (I : List γ → β → S → Prop) (hI : ∀ ys b, O.Mono L (I ys b))
    (hbody : ∀ y ys b s, L.inv s → O.ok s → I (y :: ys) b s →
      (body b y).wp (O.logic env L) (returns (I ys)) s)
    (hok : O.ok s) (h : I xs b s) :
    (Prog.forEach xs b body).wp (O.logic env L) (returns (I [])) s := by
  refine Prog.wp_forEach (fun ys b s => I ys b s ∧ O.ok s)
    (fun ys b => (hL.framed ((hI ys b).and hL.okMono)).kept) ?_ (fun b s _ h => h.1) ⟨h, hok⟩
  rintro y ys b s hi ⟨hs, hok⟩
  refine Prog.wp_mono (Prog.wp_frame (hL.framed hL.okMono) (hbody y ys b s hi hok hs) hok) ?_
  rintro (e | b') s' - ⟨hP, hok'⟩
  · trivial
  · exact ⟨hP, hok'⟩

/-! ## Scans -/

theorem wp_getJobs (hL : DiffLogic env L stores O) (hok : O.ok s) (state : JobState)
    (start stop : ℕ) : (getJobs state start stop).wp (O.logic env L)
      (returns fun jobs s => ∀ job, some job ∈ jobs → O.looked job s) s := by
  refine hL.wp_read rfl (fun _ => True) (O.mono_const _) trivial hok fun ids s hi hok _ _ => ?_
  refine hL.wp_forEach (fun _ jobs s => ∀ job, some job ∈ jobs → O.looked job s)
    (fun _ _ => .forall fun job => hL.lookedMono job) ?_ hok (by simp)
  intro id ids jobs s hi hok hjobs
  refine hL.wp_read rfl (fun s => ∀ job, some job ∈ jobs → O.looked job s)
    (.forall fun job => hL.lookedMono job) hjobs hok fun found s hi hok hjobs hread => ?_
  have hfound : (stores s).queue.getJob id = found := by simpa [Stores.perform, Stores.read] using hread
  refine hL.wp_pure (.forall fun job => hL.lookedMono job) fun job hmem => ?_
  rcases List.mem_append.1 hmem with h | h
  · exact hjobs job h
  · exact hL.look s id job hi hok (hfound.trans (List.mem_singleton.1 h).symm)

theorem wp_scanOrders (hL : DiffLogic env L stores O) (fuel : ℕ) {offset : ℕ}
    {rows : List DurableOrder} (hok : O.ok s) (h : O.scanned offset rows s) :
    (scanOrders env fuel offset rows).wp (O.logic env L) (returns O.rows) s := by
  induction fuel generalizing offset rows s with
  | zero => exact wp_throw
  | succ fuel ih =>
    refine hL.wp_read rfl (O.scanned offset rows) (hL.scannedMono _ _) h hok
      fun page s hi hok h hread => ?_
    have hpage : (stores s).ordersPage env.SALE_ID offset env.WORKER_RECONCILE_SCAN_COUNT = page := by
      simpa [Stores.perform, Stores.read] using hread
    by_cases hlen : page.length < env.WORKER_RECONCILE_SCAN_COUNT
    · rw [if_pos hlen]
      refine hL.wp_pure (hL.rowsMono _) ?_
      rw [← hpage] at hlen ⊢
      exact hL.scanEnd s offset rows hi hok h hlen
    · rw [if_neg hlen]
      refine ih hok ?_
      rw [← hpage]
      exact hL.scanPage s offset rows hi hok h

end DiffLogic

/-- The scanned jobs were loaded and classified. -/
def Outline.Jobs (O : Outline S) (scan : QueueScanResult) (s : S) : Prop :=
  ∀ sj, sj ∈ scan.jobs → O.looked sj.job s ∧ classifyQueueEntry sj.job sj.state = .ok sj

namespace DiffLogic

theorem jobsMono (hL : DiffLogic env L stores O) (scan : QueueScanResult) :
    O.Mono L (O.Jobs scan) :=
  .forall fun sj => (hL.lookedMono sj.job).and (O.mono_const _)

theorem wp_isTerminalFailedJobEligible (hL : DiffLogic env L stores O) (hok : O.ok s) (job : Job) :
    (isTerminalFailedJobEligible job).wp (O.logic env L) (returns fun _ _ => True) s :=
  hL.wp_read rfl (fun _ => True) (O.mono_const _) trivial hok fun _ _ _ _ _ _ =>
    hL.wp_pure (O.mono_const _) trivial

theorem wp_scanJob (hL : DiffLogic env L stores O) (hok : O.ok s) (state : JobState)
    {scan : QueueScanResult} (hscan : O.Jobs scan s) (found : Option Job)
    (hfound : ∀ job, found = some job → O.looked job s) :
    (scanJob state scan found).wp (O.logic env L) (returns O.Jobs) s := by
  cases found with
  | none => exact hL.wp_pure (hL.jobsMono scan) hscan
  | some job =>
    have hjob := hfound job rfl
    dsimp only [scanJob]
    cases hc : classifyQueueEntry job state with
    | error issue => exact hL.wp_pure (hL.jobsMono _) hscan
    | ok sj =>
      obtain ⟨hsj, -⟩ := classifyQueueEntry_ok hc
      have hadd : ∀ s, O.Jobs scan s ∧ O.looked job s →
          O.Jobs { scan with jobs := scan.jobs ++ [sj] } s := by
        rintro s ⟨hscan, hjob⟩ sj' hmem
        rcases List.mem_append.1 hmem with h | h
        · exact hscan sj' h
        · rw [List.mem_singleton.1 h, hsj]
          exact ⟨hjob, by rw [hc]; exact congrArg _ hsj⟩
      dsimp only
      by_cases hf : state = .failed
      · rw [if_pos hf]
        refine hL.wp_seq (fun s => O.Jobs scan s ∧ O.looked job s)
          ((hL.jobsMono scan).and (hL.lookedMono job)) ⟨hscan, hjob⟩ hok
          (hL.wp_isTerminalFailedJobEligible hok job) fun eligible s _ _ hs _ => ?_
        cases eligible with
        | true => exact hL.wp_pure (hL.jobsMono _) (hadd s hs)
        | false => exact hL.wp_pure (hL.jobsMono _) hs.1
      · rw [if_neg hf]
        exact hL.wp_pure (hL.jobsMono _) (hadd s ⟨hscan, hjob⟩)

theorem wp_scanState (hL : DiffLogic env L stores O) (state : JobState) (fuel : ℕ) {start : ℕ}
    {scan : QueueScanResult} (hok : O.ok s) (hscan : O.Jobs scan s) :
    (scanState env state fuel start scan).wp (O.logic env L) (returns O.Jobs) s := by
  induction fuel generalizing start scan s with
  | zero => exact wp_throw
  | succ fuel ih =>
    refine hL.wp_seq (O.Jobs scan) (hL.jobsMono scan) hscan hok (hL.wp_getJobs hok state _ _)
      fun page s hi hok hscan hpage => ?_
    refine hL.wp_seq (fun _ => True) (O.mono_const _) trivial hok
      (hL.wp_forEach (fun (jobs : List (Option Job)) scan s =>
        O.Jobs scan s ∧ ∀ job, some job ∈ jobs → O.looked job s)
        (fun jobs scan => (hL.jobsMono scan).and (.forall fun job => hL.lookedMono job)) ?_ hok
        ⟨hscan, hpage⟩) fun scan s hi hok _ hscan => ?_
    · rintro found jobs scan s hi hok ⟨hscan, hjobs⟩
      have hrest : ∀ job, some job ∈ jobs → O.looked job s := fun job h =>
        hjobs job (List.mem_cons_of_mem _ h)
      refine Prog.wp_mono (Prog.wp_frame (hL.framed (.forall fun job => hL.lookedMono job))
        (hL.wp_scanJob hok state hscan found
          fun job h => hjobs job (by rw [h]; exact List.mem_cons_self))
        hrest) ?_
      rintro (e | scan') s' - ⟨hP, hrest⟩
      · trivial
      · exact ⟨hP, hrest⟩
    · split_ifs
      · exact hL.wp_pure (hL.jobsMono scan) hscan.1
      · exact ih hok hscan.1

theorem wp_scanJobs (hL : DiffLogic env L stores O) (fuel : ℕ) (hok : O.ok s) :
    (scanJobs env fuel).wp (O.logic env L) (returns O.Jobs) s :=
  hL.wp_forEach (fun _ scan s => O.Jobs scan s) (fun _ scan => hL.jobsMono scan)
    (fun state _ _ _ _ hok hscan => hL.wp_scanState state fuel hok hscan) hok
    fun _ h => by cases h

theorem wp_scanReservations (hL : DiffLogic env L stores O) (hok : O.ok s) (cursor count : ℕ) :
    (Store.scanReservations env.SALE_ID cursor count).wp (O.logic env L)
      (returns fun page s => ∀ e, e ∈ page.2 → O.entry e s) s := by
  refine wp_check fun _ _ => hL.wp_read rfl (fun _ => True) (O.mono_const _) trivial hok
    fun page s hi hok _ hread => ?_
  have hpage : (stores s).hscanPage env.SALE_ID cursor count = page := by
    simpa [Stores.perform, Stores.read] using hread
  refine wp_check fun entries hentries => ?_
  refine hL.wp_pure (.forall fun e => hL.entryMono e) fun e he => ?_
  obtain ⟨⟨u, v⟩, hf, hp⟩ := Store.parseEntries_mem hentries he
  rw [← hpage] at hf
  exact hL.ledgerEntry s u v e hi hok (Stores.hscanPage_mem hf) hp

theorem wp_scanLedger (hL : DiffLogic env L stores O) (fuel : ℕ) {cursor : ℕ}
    {entries : List ReservationEntry} (hok : O.ok s) (h : ∀ e, e ∈ entries → O.entry e s) :
    (scanLedger env fuel cursor entries).wp (O.logic env L)
      (returns fun entries s => ∀ e, e ∈ entries → O.entry e s) s := by
  induction fuel generalizing cursor entries s with
  | zero => exact wp_throw
  | succ fuel ih =>
    have hmono : ∀ entries : List ReservationEntry,
        O.Mono L fun s => ∀ e, e ∈ entries → O.entry e s :=
      fun entries => .forall fun e => hL.entryMono e
    refine hL.wp_seq (fun s => ∀ e, e ∈ entries → O.entry e s) (hmono _) h hok
      (hL.wp_scanReservations hok _ _) ?_
    rintro ⟨next, page⟩ s hi hok h hpage
    have hall : ∀ e, e ∈ entries ++ page → O.entry e s := fun e he =>
      (List.mem_append.1 he).elim (h e) (hpage e)
    dsimp only
    split_ifs
    · exact hL.wp_pure (hmono _) hall
    · exact ih hok hall

/-! ## Queue repair -/

theorem wp_enqueueLiveReservation (hL : DiffLogic env L stores O) {entry : ReservationEntry}
    {jobId : String} (hok : O.ok s) (hentry : O.entry entry s)
    (hid : buildOrdersJobId env.SALE_ID entry.userId = .ok jobId) :
    (enqueueLiveReservation env entry jobId).wp (O.logic env L) (returns fun _ _ => True) s := by
  refine wp_check fun payload hp => ?_
  refine hL.wp_call (O.entry entry) (hL.entryMono entry) hentry hok (.addJob _ _ _ _)
    (fun s hi hok hentry => hL.addPre s entry payload jobId hi hok hentry hp hid) ?_
  intro repaired _ s _ _ _ _ _ _ _
  split
  · exact hL.wp_pure (O.mono_const _) trivial
  · exact hL.wp_pure (O.mono_const _) trivial

theorem wp_enqueueAfterRemoval (hL : DiffLogic env L stores O) {live : ReservationEntry}
    {jobId : String} (hok : O.ok s) (hentry : O.entry live s)
    (hid : buildOrdersJobId env.SALE_ID live.userId = .ok jobId) :
    (enqueueAfterRemoval env live jobId).wp (O.logic env L) (returns fun _ _ => True) s := by
  refine hL.wp_read rfl (O.entry live) (hL.entryMono live) hentry hok ?_
  intro found s hi hok hentry _
  cases found with
  | none => exact hL.wp_enqueueLiveReservation hok hentry hid
  | some raced =>
    refine hL.wp_read rfl (fun _ => True) (O.mono_const _) trivial hok fun state s _ _ _ _ => ?_
    split
    · exact hL.wp_pure (O.mono_const _) trivial
    · exact hL.wp_pure (O.mono_const _) trivial

/-- The removal of a job that does not cover the live entry, and the repair after it. -/
theorem wp_replaceJob (hL : DiffLogic env L stores O) {live : ReservationEntry} {sj : ScannedJob}
    {jobId : String} (hok : O.ok s) (hentry : O.entry live s) (hst : O.stated sj.job sj.state s)
    (hc : classifyQueueEntry sj.job sj.state = .ok sj)
    (hid : buildOrdersJobId env.SALE_ID live.userId = .ok jobId) (hjob : sj.job.id = jobId)
    (hcov : sj.payload.reservationId = live.reservationId → sj.state = .completed) :
    ((request (.removeJob sj.job)).bind fun _ => enqueueAgain env live jobId none).wp
      (O.logic env L) (returns fun _ _ => True) s := by
  refine hL.wp_call (fun s => O.entry live s ∧ O.stated sj.job sj.state s)
    ((hL.entryMono live).and (hL.statedMono _ _)) ⟨hentry, hst⟩ hok (.removeJob _)
    (fun s hi hok h => hL.removePre s live sj hi hok h.1 h.2 hc (by rw [hjob]; exact hid) hcov) ?_
  intro _ _ s _ _ _ _ _ hok h
  exact hL.wp_enqueueAfterRemoval hok h.1 hid

theorem wp_adjudicateQueued (hL : DiffLogic env L stores O) {live : ReservationEntry}
    {sj : ScannedJob} {jobId : String} (hok : O.ok s) (hentry : O.entry live s)
    (hst : O.stated sj.job sj.state s) (hc : classifyQueueEntry sj.job sj.state = .ok sj)
    (hid : buildOrdersJobId env.SALE_ID live.userId = .ok jobId) (hjob : sj.job.id = jobId)
    (durable : Option DurableOrder) :
    (adjudicateQueued env live durable none jobId sj.job sj).wp (O.logic env L)
      (returns fun _ _ => True) s := by
  unfold adjudicateQueued
  dsimp only
  split_ifs with hident hlive hdur hcompleted
  · exact hL.wp_pure (O.mono_const _) trivial
  · exact hL.wp_pure (O.mono_const _) trivial
  · exact hL.wp_pure (O.mono_const _) trivial
  · exact hL.wp_replaceJob hok hentry hst hc hid hjob fun _ => not_not.1 hcompleted
  · exact hL.wp_pure (O.mono_const _) trivial
  · exact hL.wp_replaceJob hok hentry hst hc hid hjob fun h => absurd h hident

theorem wp_ensureLiveReservationQueued (hL : DiffLogic env L stores O) {live : ReservationEntry}
    (hok : O.ok s) (hentry : O.entry live s) (durable : Option DurableOrder) :
    (ensureLiveReservationQueued env live durable none).wp (O.logic env L)
      (returns fun _ _ => True) s := by
  refine wp_check fun jobId hid => ?_
  refine hL.wp_read rfl (O.entry live) (hL.entryMono live) hentry hok ?_
  intro found s hi hok hentry hread
  cases found with
  | none => exact hL.wp_enqueueLiveReservation hok hentry hid
  | some current =>
    have hfound : (stores s).queue.getJob jobId = some current := by
      simpa [Stores.perform, Stores.read] using hread
    have hjob : current.id = jobId := by
      obtain ⟨st, hst, rfl⟩ := Option.map_eq_some_iff.1 hfound
      exact (JobQueue.find_some hst).2
    refine hL.wp_read rfl (fun s => O.entry live s ∧ O.looked current s)
      ((hL.entryMono live).and (hL.lookedMono current)) ⟨hentry, hL.look s jobId current hi hok hfound⟩
      hok fun state s hi hok ⟨hentry, hlook⟩ hread => ?_
    have hstate : (stores s).queue.getState current.id = state := by
      simpa [Stores.perform, Stores.read] using hread
    cases hc : classifyQueueEntry current state with
    | error issue => exact hL.wp_pure (O.mono_const _) trivial
    | ok sj =>
      obtain ⟨hsj, -⟩ := classifyQueueEntry_ok hc
      obtain ⟨payload, rfl⟩ : ∃ payload, sj = ⟨current, state, payload⟩ := ⟨_, hsj⟩
      exact hL.wp_adjudicateQueued hok hentry (hstate ▸ hL.lookState s current hi hok hlook) hc hid
        hjob durable

/-! ## Recovery -/

/-- A restoration leaves the user in the ledger, and the value on file parses to an entry. -/
theorem wp_compareAndRestore (hL : DiffLogic env L stores O)
    (input : Store.CompareRestoreReservationInput) (A : S → Prop) (hA : O.Mono L A) (hs : A s)
    (hok : O.ok s)
    (hpre : ∀ s, L.inv s → O.ok s → A s → L.pre (.compareRestore env.SALE_ID input.userId
      input.reservationId input.reservedAtMs) s) :
    (Store.compareAndRestoreReservation env.SALE_ID input).wp (O.logic env L)
      (returns fun reply s => (stores s).InLedger env input.userId ∧ O.entry reply.2 s) s := by
  refine wp_check fun _ _ => wp_check fun _ _ => ?_
  refine hL.wp_call A hA hs hok (.compareRestore _ _ _) hpre ?_
  rintro ⟨outcome, value⟩ s s' _ _ _ hstep hi hok _
  refine wp_check fun entry hparse => ?_
  have hvalue : ((stores s').sales env.SALE_ID).reservations.hget input.userId = some value := by
    obtain ⟨fault, hf⟩ := hL.step hstep
    obtain ⟨hr, hs'⟩ := Prod.mk.inj (Option.some.inj (Stores.performWith_ok hf))
    have hv : _ = value := congrArg Prod.snd (Except.ok.inj hr)
    rw [← hs', ← hv]
    simp only [Stores.setSale, Function.update_self]
    exact hget_compareRestoreReservation _ _ _ _
  refine hL.wp_pure ((hL.ledgerMono _).and (hL.entryMono _)) ⟨?_, ?_⟩
  · unfold Stores.InLedger; rw [hvalue]; rfl
  · exact hL.ledgerEntry s' _ _ entry hi hok hvalue hparse

/-- The recovery from a row or a job. The maps stay and the user is in the ledger afterwards. -/
theorem wp_applyRecoveryCandidate (hL : DiffLogic env L stores O)
    (input : Store.CompareRestoreReservationInput) (source : RecoverySource) (acc : Recovery)
    (A : S → Prop) (hA : O.Mono L A) (hs : A s) (hok : O.ok s)
    (hpre : ∀ s, L.inv s → O.ok s → A s → L.pre (.compareRestore env.SALE_ID input.userId
      input.reservationId input.reservedAtMs) s) :
    (applyRecoveryCandidate env input source acc none).wp (O.logic env L)
      (returns fun acc' s => acc'.byUser = acc.byUser ∧ (stores s).InLedger env input.userId) s := by
  have hmono : ∀ acc' : Recovery, O.Mono L fun s => acc'.byUser = acc.byUser ∧
      (stores s).InLedger env input.userId :=
    fun _ => (O.mono_const _).and (hL.ledgerMono _)
  refine hL.wp_seq (fun _ => True) (O.mono_const _) trivial hok
    (hL.wp_compareAndRestore input A hA hs hok hpre) ?_
  rintro ⟨outcome, current⟩ s hi hok - ⟨hled, hentry⟩
  dsimp only
  by_cases ho : outcome ≠ .conflict
  · rw [if_pos ho]
    exact hL.wp_pure (hmono acc) ⟨rfl, hled⟩
  rw [if_neg ho]
  cases source with
  | queue =>
    dsimp only
    split_ifs
    · exact hL.wp_pure (hmono acc) ⟨rfl, hled⟩
    · exact hL.wp_pure (hmono _) ⟨rfl, hled⟩
  | persisted =>
    dsimp only
    split_ifs
    · exact hL.wp_pure (hmono _) ⟨rfl, hled⟩
    · refine hL.wp_seq _ (hL.ledgerMono input.userId) hled hok
        (hL.wp_ensureLiveReservationQueued hok hentry _) fun coverage s _ _ hled _ => ?_
      refine hL.wp_pure (hmono _) ⟨?_, hled⟩
      unfold Recovery.pushCollision
      split_ifs <;> rfl

theorem wp_recoverRow (hL : DiffLogic env L stores O) {rows : List DurableOrder}
    {row : DurableOrder} (acc : Recovery) (hok : O.ok s) (hrows : O.rows rows s)
    (hrow : row ∈ rows) :
    (recoverRow env acc row).wp (O.logic env L) (returns fun acc' s => acc'.byUser = acc.byUser ∧
      (row.status = .persisted → (stores s).InLedger env row.userId)) s := by
  unfold recoverRow
  split_ifs with hst
  · exact hL.wp_pure ((O.mono_const _).and fun s s' h hg hi hp => hL.ledgerMono _ s s' (h hp) hg hi)
      ⟨rfl, fun hp => absurd hp hst⟩
  · refine Prog.wp_mono (hL.wp_applyRecoveryCandidate _ _ acc (O.rows rows) (hL.rowsMono rows) hrows
      hok fun s hi hok hrows => hL.restoreRowPre s rows row hi hok hrows hrow (not_not.1 hst)) ?_
    rintro (e | acc') s' - h
    · trivial
    · exact ⟨h.1, fun _ => h.2⟩

theorem wp_recoverJob (hL : DiffLogic env L stores O) {rows : List DurableOrder} {sj : ScannedJob}
    (acc : Recovery) (hok : O.ok s) (hrows : O.rows rows s)
    (hacc : acc.byUser = mapOf (·.userId) rows) (hlook : O.looked sj.job s)
    (hc : classifyQueueEntry sj.job sj.state = .ok sj) :
    (recoverJob env acc sj).wp (O.logic env L) (returns fun acc' _ => acc'.byUser = acc.byUser)
      s := by
  unfold recoverJob
  split_ifs with hlive hrow
  · exact hL.wp_pure (O.mono_const _) rfl
  · exact hL.wp_pure (O.mono_const _) rfl
  · refine Prog.wp_mono (hL.wp_applyRecoveryCandidate _ _ acc
      (fun s => O.rows rows s ∧ O.looked sj.job s)
      ((hL.rowsMono rows).and (hL.lookedMono sj.job)) ⟨hrows, hlook⟩ hok
      fun s hi hok h => hL.restoreJobPre s rows sj hi hok h.1 h.2 hc ?_) ?_
    · rw [← hacc]
      simpa using hrow
    · rintro (e | acc') s' - h
      · trivial
      · exact h.1

theorem wp_reconcileMembership (hL : DiffLogic env L stores O) (hok : O.ok s) (u : String) :
    (Store.reconcileBuyerMembership env.SALE_ID u).wp (O.logic env L) (returns fun _ _ => True) s := by
  exact wp_check fun _ _ => hL.wp_last (fun _ => True) (O.mono_const _) trivial hok
    (.reconcileMembership u) fun s hi hok _ => hL.membershipPre s u hi hok

theorem wp_coverEntry (hL : DiffLogic env L stores O) {entry : ReservationEntry} (acc : Recovery)
    (hok : O.ok s) (hentry : O.entry entry s) :
    (coverEntry env acc entry).wp (O.logic env L) (returns fun acc' _ => acc'.byUser = acc.byUser)
      s := by
  unfold coverEntry
  dsimp only
  split_ifs
  · exact hL.wp_seq (fun _ => True) (O.mono_const _) trivial hok (hL.wp_reconcileMembership hok _)
      fun _ _ _ _ _ _ => hL.wp_pure (O.mono_const _) rfl
  · refine hL.wp_seq (fun _ => True) (O.mono_const _) trivial hok
      (hL.wp_ensureLiveReservationQueued hok hentry _) fun coverage s _ hok _ _ => ?_
    refine hL.wp_seq (fun _ => True) (O.mono_const _) trivial hok (hL.wp_reconcileMembership hok _)
      fun _ _ _ _ _ _ => hL.wp_pure (O.mono_const _) ?_
    unfold Recovery.pushCollision
    split_ifs <;> rfl

/-! ## Buyers -/

/-- The inspection finds no buyer without an entry, and an entry it finds is in the ledger. -/
theorem wp_inspect (hL : DiffLogic env L stores O) (hok : O.ok s) (u : String) :
    (Store.inspectReservationMembership env.SALE_ID u).wp (O.logic env L)
      (returns fun found s => found.outcome ≠ .buyerOnly ∧
        ∀ entry, found.reservation = some entry → O.entry entry s) s := by
  refine wp_check fun _ _ => ?_
  refine Prog.wp_throwIf (fun _ _ _ _ => trivial) fun _ => ?_
  refine hL.wp_read rfl (fun _ => True) (O.mono_const _) trivial hok fun raw s hi hok _ hread => ?_
  have hraw : inspectMembership ((stores s).sales env.SALE_ID) u = raw := by
    simpa [Stores.perform, Stores.read] using hread
  have hne : raw.1 ≠ .buyerOnly := by
    rw [← hraw]
    exact hL.notBuyerOnly s u hi hok
  refine Prog.wp_ofExcept fun s' hr hi' => ?_
  have hgrow := hL.growRely hr hi'
  cases hd : Store.decodeReservationMembershipInspection u raw with
  | error e => trivial
  | ok found =>
    obtain ⟨hout, hres⟩ := Store.decodeInspection_ok hd
    refine ⟨by rw [hout]; exact hne, fun entry he => ?_⟩
    obtain ⟨hne', hparse⟩ := hres entry he
    refine hL.entryMono entry s s' (hL.ledgerEntry s u raw.2 entry hi hok ?_ hparse) hgrow hi'
    exact inspectMembership_value (by rw [hraw]) hne'

theorem wp_resolveBuyerInspection (hL : DiffLogic env L stores O) (u : String)
    {found : Store.ReservationMembershipInspection} (durable : Option DurableOrder)
    (acc : Recovery) (hok : O.ok s)
    (hentry : ∀ entry, found.reservation = some entry → O.entry entry s) :
    (resolveBuyerInspection env u found durable acc none).wp (O.logic env L)
      (returns fun acc' _ => acc'.byUser = acc.byUser) s := by
  unfold resolveBuyerInspection
  have hbearing (entry : ReservationEntry) (hr : found.reservation = some entry) : (do
        let coverage ← ensureLiveReservationQueued env entry durable none
        Prog.throwIf (coverage = .retainedCollision ∧ (none : Option (Option Job)).isSome)
          (buyerOnlyFailure u)
        if found.outcome = .reservationOnly then do
          let membership ← Store.reconcileBuyerMembership env.SALE_ID u
          Prog.throwIf (membership ≠ .present) (.error ("buyer membership repair failed for " ++ u))
          return (acc.pushCollision coverage u).setLedger u entry
        else return (acc.pushCollision coverage u).setLedger u entry : WorkerM Recovery).wp
      (O.logic env L) (returns fun acc' _ => acc'.byUser = acc.byUser) s := by
    refine hL.wp_seq (fun _ => True) (O.mono_const _) trivial hok
      (hL.wp_ensureLiveReservationQueued hok (hentry entry hr) durable) fun coverage s _ hok _ _ => ?_
    have hkeep : ((acc.pushCollision coverage u).setLedger u entry).byUser = acc.byUser := by
      unfold Recovery.pushCollision
      split_ifs <;> rfl
    refine Prog.wp_throwIf (fun _ _ _ _ => trivial) fun _ => ?_
    split_ifs
    · refine hL.wp_seq (fun _ => True) (O.mono_const _) trivial hok
        (hL.wp_reconcileMembership hok u) fun membership s _ hok _ _ => ?_
      refine Prog.wp_throwIf (fun _ _ _ _ => trivial) fun _ => ?_
      exact hL.wp_pure (O.mono_const _) hkeep
    · exact hL.wp_pure (O.mono_const _) hkeep
  cases hr : found.reservation with
  | none =>
    cases found.outcome with
    | neither => exact hL.wp_pure (O.mono_const _) rfl
    | buyerOnly => exact wp_throw
    | both => exact wp_throw
    | reservationOnly => exact wp_throw
  | some entry =>
    have hbearing := hbearing entry hr
    cases ho : found.outcome with
    | neither => exact hL.wp_pure (O.mono_const _) rfl
    | buyerOnly => exact wp_throw
    | both => rw [ho] at hbearing; exact hbearing
    | reservationOnly => rw [ho] at hbearing; exact hbearing

theorem wp_checkBuyer (hL : DiffLogic env L stores O) (acc : Recovery) (hok : O.ok s)
    (u : String) : (checkBuyer env acc u).wp (O.logic env L)
      (returns fun acc' _ => acc'.byUser = acc.byUser) s := by
  unfold checkBuyer
  split_ifs
  · exact hL.wp_pure (O.mono_const _) rfl
  · refine hL.wp_seq (fun _ => True) (O.mono_const _) trivial hok (hL.wp_inspect hok u)
      fun found s _ hok _ hfound => ?_
    rw [if_pos hfound.1]
    exact hL.wp_resolveBuyerInspection u _ acc hok hfound.2

theorem wp_checkBuyers (hL : DiffLogic env L stores O) (fuel : ℕ) {cursor : ℕ} {acc : Recovery}
    (hok : O.ok s) : (checkBuyers env fuel cursor acc).wp (O.logic env L)
      (returns fun acc' _ => acc'.byUser = acc.byUser) s := by
  induction fuel generalizing cursor acc s with
  | zero => exact wp_throw
  | succ fuel ih =>
    refine hL.wp_seq (fun _ => True) (O.mono_const _) trivial hok
      (wp_check fun _ _ => hL.wp_last (fun _ => True) (O.mono_const _) trivial hok (.read rfl)
        fun s hi _ _ => hL.readPre _ s rfl hi) ?_
    rintro ⟨next, users⟩ s - hok - -
    refine hL.wp_seq (fun _ => True) (O.mono_const _) trivial hok
      (hL.wp_forEach (fun _ acc' _ => acc'.byUser = acc.byUser) (fun _ _ => O.mono_const _) ?_ hok
        rfl) fun acc' s _ hok _ hacc => ?_
    · intro u users acc' s _ hok hacc
      refine Prog.wp_mono (hL.wp_checkBuyer acc' hok u) ?_
      rintro (e | acc'') s' - h
      · trivial
      · exact h.trans hacc
    · split_ifs
      · exact hL.wp_pure (O.mono_const _) hacc
      · refine Prog.wp_mono (ih hok) ?_
        rintro (e | acc'') s' - h
        · trivial
        · exact h.trans hacc

/-! ## The loops of the comparison -/

theorem rowsInLedgerMono (hL : DiffLogic env L stores O) (rows : List DurableOrder) :
    O.Mono L (RowsInLedger env stores rows) :=
  .forall fun row => hL.ledgerMono row.userId

theorem wp_recoverRows (hL : DiffLogic env L stores O) {rows : List DurableOrder} {acc : Recovery}
    (hok : O.ok s) (hrows : O.rows rows s) :
    (Prog.forEach rows acc (recoverRow env)).wp (O.logic env L) (returns fun acc' s =>
      acc'.byUser = acc.byUser ∧ RowsInLedger env stores rows s) s := by
  refine Prog.wp_mono (hL.wp_forEach (fun rest (acc' : Recovery) s => O.rows rows s ∧
      acc'.byUser = acc.byUser ∧ ∃ done, rows = done ++ rest ∧ RowsInLedger env stores done s)
      ?_ ?_ hok ⟨hrows, rfl, [], rfl, by simp [RowsInLedger]⟩) ?_
  · rintro rest acc' s s' ⟨hrows, hacc, done, hsplit, hled⟩ hg hi
    exact ⟨hL.rowsMono rows s s' hrows hg hi, hacc, done, hsplit,
      hL.rowsInLedgerMono done s s' hled hg hi⟩
  · rintro row rest acc' s hi hok ⟨hrows, hacc, done, hsplit, hled⟩
    have hmem : row ∈ rows := by rw [hsplit]; simp
    refine Prog.wp_mono (Prog.wp_frame
      (hL.framed ((hL.rowsMono rows).and (hL.rowsInLedgerMono done)))
      (hL.wp_recoverRow acc' hok hrows hmem) ⟨hrows, hled⟩) ?_
    rintro (e | acc'') s' - ⟨hP, hrows', hled'⟩
    · trivial
    · refine ⟨hrows', hP.1.trans hacc, done ++ [row], by rw [hsplit]; simp, ?_⟩
      rintro row' ⟨hmem', hst⟩
      rcases List.mem_append.1 hmem' with h | h
      · exact hled' row' ⟨h, hst⟩
      · rw [List.mem_singleton.1 h] at hst ⊢
        exact hP.2 hst
  · rintro (e | acc') s - h
    · trivial
    · obtain ⟨-, hacc, done, hsplit, hled⟩ := h
      rw [List.append_nil] at hsplit
      exact ⟨hacc, hsplit ▸ hled⟩

theorem wp_recoverJobs (hL : DiffLogic env L stores O) {rows : List DurableOrder} {acc : Recovery}
    {scan : QueueScanResult} (hok : O.ok s) (hrows : O.rows rows s)
    (hacc : acc.byUser = mapOf (·.userId) rows) (hjobs : O.Jobs scan s) :
    (Prog.forEach scan.jobs acc (recoverJob env)).wp (O.logic env L) (returns fun _ _ => True) s := by
  have hmono : ∀ rest : List ScannedJob, O.Mono L fun s => ∀ sj : ScannedJob, sj ∈ rest →
      O.looked sj.job s ∧ classifyQueueEntry sj.job sj.state = .ok sj :=
    fun rest => .forall fun sj => (hL.lookedMono sj.job).and (O.mono_const _)
  refine Prog.wp_mono (hL.wp_forEach (fun rest (acc : Recovery) s => O.rows rows s ∧
      acc.byUser = mapOf (·.userId) rows ∧ ∀ sj : ScannedJob, sj ∈ rest → O.looked sj.job s ∧
        classifyQueueEntry sj.job sj.state = .ok sj)
      (fun rest acc => (hL.rowsMono rows).and ((O.mono_const _).and (hmono rest))) ?_ hok
      ⟨hrows, hacc, hjobs⟩) ?_
  · rintro sj rest acc s hi hok ⟨hrows, hacc, hjobs⟩
    obtain ⟨hlook, hc⟩ := hjobs sj List.mem_cons_self
    refine Prog.wp_mono (Prog.wp_frame (hL.framed ((hL.rowsMono rows).and (hmono rest)))
      (hL.wp_recoverJob acc hok hrows hacc hlook hc)
      ⟨hrows, fun sj h => hjobs sj (List.mem_cons_of_mem _ h)⟩) ?_
    rintro (e | acc') s' - ⟨hP, hrows', hrest'⟩
    · trivial
    · exact ⟨hrows', hP.trans hacc, hrest'⟩
  · rintro (e | acc') s - h
    · trivial
    · trivial

theorem wp_coverLedger (hL : DiffLogic env L stores O) {ledger : List ReservationEntry}
    {acc : Recovery} (hok : O.ok s) (hledger : ∀ e, e ∈ ledger → O.entry e s) :
    (Prog.forEach ledger acc (coverEntry env)).wp (O.logic env L) (returns fun _ _ => True) s := by
  refine Prog.wp_mono (hL.wp_forEach (fun rest (_ : Recovery) s => ∀ e, e ∈ rest → O.entry e s)
    (fun rest _ => .forall fun e => hL.entryMono e) ?_ hok hledger) ?_
  · intro entry rest acc s hi hok hentries
    refine Prog.wp_mono (Prog.wp_frame (hL.framed (.forall fun e => hL.entryMono e))
      (hL.wp_coverEntry acc hok (hentries entry List.mem_cons_self))
      (fun e he => hentries e (List.mem_cons_of_mem _ he))) ?_
    rintro (e | acc') s' - ⟨-, hrest⟩
    · trivial
    · exact hrest
  · rintro (e | acc') s - h
    · trivial
    · trivial

/-- A program of the comparison as the first part of one that goes on to the sweep. -/
theorem wp_then (hL : DiffLogic env L stores O) {p : WorkerM α} {f : α → WorkerM β}
    {P : α → S → Prop} {Q : β → S → Prop} (F : S → Prop) (hF : O.Mono L F) (hs : F s)
    (hok : O.ok s) (hp : p.wp (O.logic env L) (returns P) s)
    (h : ∀ a s, L.inv s → O.ok s → F s → P a s → (f a).wp L (Prog.post Q fun _ => O.ok) s) :
    (p.bind f).wp L (Prog.post Q fun _ => O.ok) s := by
  refine Prog.wp_bind (Prog.wp_mono (Prog.wp_of_restrict
    (Prog.wp_frame (hL.framed (hF.and hL.okMono)) hp ⟨hs, hok⟩)) ?_)
  rintro (e | a) s' hi ⟨hP, hs', hok'⟩
  · exact hok'
  · exact h a s' hi hok' hs' hP

end DiffLogic

end FlashSale
