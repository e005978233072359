import FlashSale.Lib.Date
import FlashSale.Worker.Coverage
import FlashSale.Worker.WholeOrder

/-!
# A removal that takes out a live job

A pass is about to remove the completed job of a released reservation. Before it does, a thousand
other orders go through, the job is trimmed, and a late add of the API puts the user's new order
into its place. The pass removes that one.
-/

namespace FlashSale

open Redis
open Shared

/-! ## The other users -/

/-- The user id and the reservation id of another order. -/
def serial (j : ℕ) : String :=
  String.ofList ("0190aaaa-0000-7000-9000-00000000".toList ++ Date.digits 4 j)

theorem toList_serial (j : ℕ) :
    (serial j).toList = "0190aaaa-0000-7000-9000-00000000".toList ++ Date.digits 4 j :=
  String.toList_ofList

theorem serial_inj {i j : ℕ} (hi : i < 10 ^ 4) (hj : j < 10 ^ 4) (h : serial i = serial j) :
    i = j := by
  have hlist := congrArg String.toList h
  rw [toList_serial, toList_serial] at hlist
  have hdigits : Nat.ofDigitChars 10 (Date.digits 4 i) 0 = Nat.ofDigitChars 10 (Date.digits 4 j) 0 :=
    congrArg (Nat.ofDigitChars 10 · 0) (List.append_cancel_left hlist)
  rwa [Date.ofDigitChars_digits hi, Date.ofDigitChars_digits hj] at hdigits

theorem isDigit_of_mem_serial {j : ℕ} {c : Char} (hc : c ∈ Date.digits 4 j) : isDigit c = true :=
  isDigit_of_isDigit (Date.isDigit_of_mem_digits hc)

theorem isUuid_serial (j : ℕ) : isUuid (serial j) = true := by
  have hhex : ∀ c ∈ Date.digits 4 j, isHex c = true := fun c hc => by
    unfold isHex
    rw [isDigit_of_mem_serial hc, Bool.true_or, Bool.true_or]
  unfold isUuid
  rw [toList_serial]
  have hdigits : Date.digits 4 j = [Nat.digitChar (j / 10 / 10 / 10 % 10),
    Nat.digitChar (j / 10 / 10 % 10), Nat.digitChar (j / 10 % 10), Nat.digitChar (j % 10)] := rfl
  rw [hdigits] at hhex ⊢
  simp only [List.forall_mem_cons] at hhex
  obtain ⟨ha, hb, hc, hd, -⟩ := hhex
  generalize Nat.digitChar (j / 10 / 10 / 10 % 10) = a at ha ⊢
  generalize Nat.digitChar (j / 10 / 10 % 10) = b at hb ⊢
  generalize Nat.digitChar (j / 10 % 10) = c at hc ⊢
  generalize Nat.digitChar (j % 10) = d at hd ⊢
  have hfirst : (uuidPatterns.any fun ps =>
      matchesClasses ps ("0190aaaa-0000-7000-9000-00000000".toList ++ [a, b, c, d])) =
        (isHex a && (isHex b && (isHex c && (isHex d && true))) || _) := rfl
  rw [hfirst, ha, hb, hc, hd]
  rfl

theorem isUserId_serial (j : ℕ) : isUserId (serial j) = true := by
  have hall : (serial j).toList.all isUserIdChar = true := by
    rw [toList_serial, List.all_append, Bool.and_eq_true]
    refine ⟨by decide +kernel, ?_⟩
    rw [List.all_eq_true]
    intro c hc
    unfold isUserIdChar
    rw [isDigit_of_mem_serial hc]
    simp
  have hlength : (serial j).toList.length = 36 := by
    rw [toList_serial, List.length_append, Date.length_digits]
    rfl
  have htrim : jsTrim (serial j) = serial j :=
    jsTrim_of_forall fun c hc => isJsSpace_of_isUserIdChar (List.all_eq_true.1 hall c hc)
  have hne : (serial j).toList.isEmpty = false := by
    rw [List.isEmpty_eq_false_iff, ← List.length_pos_iff, hlength]
    decide
  unfold isUserId
  rw [htrim, jsLength_of_isUserIdChar hall, hlength, hall, hne]
  simp [USER_ID_MIN_LENGTH, USER_ID_MAX_LENGTH]

theorem pgUuid_serial (j : ℕ) : pgUuid (serial j) = serial j := by
  unfold pgUuid
  rw [toList_serial, List.map_append]
  have hdigits : (Date.digits 4 j).map Char.toLower = Date.digits 4 j := by
    have hlower : ∀ c ∈ Date.digits 4 j, c.toLower = id c := by
      intro c hc
      have hdigit := Date.isDigit_of_mem_digits hc
      simp only [Char.isDigit, Bool.and_eq_true, decide_eq_true_eq] at hdigit
      unfold Char.toLower
      rw [dif_neg]
      · rfl
      · rintro ⟨hA, -⟩
        exact absurd (UInt32.le_trans hA hdigit.2) (by decide)
    rw [List.map_congr_left hlower, List.map_id]
  rw [hdigits]
  rfl

theorem serial_ne {s : String} (h : s.toList.take 20 ≠ "0190aaaa-0000-7000-9".toList) (j : ℕ) :
    s ≠ serial j := by
  rintro rfl
  exact h (by rw [toList_serial]; rfl)

namespace System

/-- A sale with units for everyone. -/
def wideEnv : WorkerEnv :=
  { oneUnitEnv with
    sale := { oneUnitEnv.sale with totalStock := 2000 }
    totalStock_nonneg := by decide
    totalStock_safe := by decide
    window_nonempty := oneUnitEnv.window_nonempty }

/-- Alice's first reservation is released, and its late add is in the queue. She reserves again, a
pass is about to remove the job of the first reservation, and the job completes. -/
def parkedRun : List Event :=
  aliceFails ++ List.replicate 14 (.maintain .none) ++ [.finish, .apiAdd 0,
    .purchase "alice" bobReservation "req-2", .apiDrop 1, .startPass 3] ++
    List.replicate 10 (.maintain .none) ++ [.deliver "flash-2026-alice"] ++
    List.replicate 6 (.attemptStep 4 .none) ++ [.settle 4]

/-- The late add. -/
def lateOrder : OrdersQueueJobPayload := ⟨"flash-2026", "alice", bobReservation, 1500, "req-2"⟩

/-- The pass still waits before its removal, `n` other orders have gone through, and the job of Alice
is the oldest of the completed ones. -/
structure Parked (w : System) (n : ℕ) : Prop where
  resting : w.Resting wideEnv
  removal : ∃ job ∈ nextRemoval w.maintenance, job.id = wideEnv.jobId "alice"
  adds : w.adds = [lateOrder]
  time : w.stores.time.nowMs = 1500
  config : (w.sale wideEnv).config = some wideEnv.sale
  stock : (w.sale wideEnv).stock = some ((1999 : ℤ) - n)
  ledger : w.ledger wideEnv "alice" = some bobReservation
  row : w.stores.db.RowIs "alice" aliceReservation .compensated
  confirmed : ∀ c ∈ w.confirmed, c.userId = "alice" ∧
    (c.reservationId = aliceReservation ∨ c.reservationId = bobReservation) ∨
      ∃ j < n, c.userId = serial j ∧ c.reservationId = serial j
  queue : ∃ st rest, w.stores.queue.jobs = st :: rest ∧ rest.length = n ∧
    st.job.id = wideEnv.jobId "alice" ∧ ∀ t ∈ st :: rest, t.state = .completed

theorem parked_parkedRun : (quietSystem.run wideEnv parkedRun).Parked 0 := by
  have hok := (Ok.empty wideEnv False ⟨1, 500000⟩ (fun _ => 0) (fun _ => 0) String.length).run
    parkedRun fun hf => hf.elim
  have hrun : let w := quietSystem.run wideEnv parkedRun
      w.stores.db.txs.entries.isEmpty = true ∧ w.stores.queue.paused = false ∧
      w.stores.db.saleExists wideEnv.SALE_ID = true ∧
      (nextRemoval w.maintenance).map (·.id) = some (wideEnv.jobId "alice") ∧
      w.adds = [lateOrder] ∧ w.stores.time.nowMs = 1500 ∧
      (w.sale wideEnv).config = some wideEnv.sale ∧ (w.sale wideEnv).stock = some 1999 ∧
      w.ledger wideEnv "alice" = some bobReservation ∧
      w.stores.db.RowIs "alice" aliceReservation .compensated ∧
      (∀ c ∈ w.confirmed, c.userId = "alice" ∧
        (c.reservationId = aliceReservation ∨ c.reservationId = bobReservation)) ∧
      w.stores.queue.jobs.map (fun t => (t.job.id, t.state)) =
        [(wideEnv.jobId "alice", .completed)] := by
    decide +kernel
  obtain ⟨htxs, hpaused, hsale, hrem, hadds, htime, hconfig, hstock, hled, hrow, hconf, hjobs⟩ := hrun
  obtain ⟨job, hjob, hid⟩ := Option.map_eq_some_iff.1 hrem
  obtain ⟨st, rest, hqueue, hst, hrest⟩ := List.map_eq_cons_iff.1 hjobs
  obtain rfl := List.map_eq_nil_iff.1 hrest
  obtain ⟨hstid, hstate⟩ := Prod.mk.inj hst
  exact
    { resting := ⟨hok, AList.ext (List.isEmpty_iff.1 htxs), hpaused, hsale⟩
      removal := ⟨job, hjob, hid⟩
      adds := hadds
      time := htime
      config := hconfig
      stock := hstock
      ledger := hled
      row := hrow
      confirmed := fun c hc => .inl (hconf c hc)
      queue := ⟨st, [], hqueue, rfl, hstid, by simpa using hstate⟩ }

/-- The next order goes through, and all that changes is what the other orders leave. -/
theorem Parked.order {w : System} {n : ℕ} (h : w.Parked n) (hn : n < 1000) :
    ∃ es, w.Ordered wideEnv (w.run wideEnv es) (serial n) (serial n) := by
  have hinv := h.resting.ok.inv.1
  have hfresh : ∀ c ∈ w.confirmed, c.userId ≠ serial n ∧ c.reservationId ≠ serial n := by
    intro c hc
    have hold : ∀ j < n, serial j ≠ serial n := by
      intro j hj heq
      have := serial_inj (by omega) (by omega) heq
      omega
    rcases h.confirmed c hc with ⟨hu, hid⟩ | ⟨j, hj, hu, hid⟩
    · rw [hu]
      refine ⟨serial_ne (by decide +kernel) n, ?_⟩
      rcases hid with hid | hid
      · rw [hid]
        exact serial_ne (by decide +kernel) n
      · rw [hid]
        exact serial_ne (by decide +kernel) n
    · rw [hu, hid]
      exact ⟨hold j hj, hold j hj⟩
  have hentry : (w.sale wideEnv).reservations.hget (serial n) = none := by
    cases hv : (w.sale wideEnv).reservations.hget (serial n) with
    | none => rfl
    | some v =>
      obtain ⟨id, t, hc, -⟩ := hinv.entries _ v hv
      exact absurd rfl (hfresh _ hc).1
  have hbuyer : (w.sale wideEnv).buyers.sismember (serial n) = false := by
    rw [hinv.members, Hash.hexists, hentry]
    rfl
  have hstock : 0 < (w.sale wideEnv).stock.getD 0 := by
    rw [h.stock, Option.getD_some]
    omega
  have hwindow : ∃ cfg, (w.sale wideEnv).config = some cfg ∧
      cfg.startsAtMs ≤ w.stores.time.nowMs ∧ (w.stores.time.nowMs : ℤ) < cfg.endsAtMs := by
    refine ⟨wideEnv.sale, h.config, ?_⟩
    rw [h.time]
    decide
  have hbuys : w.Buys wideEnv (serial n) (serial n) :=
    ⟨⟨isUuid_serial n, pgUuid_serial n, fun c hc => (hfresh c hc).2⟩, hwindow, hbuyer, hentry, hstock⟩
  refine h.resting.order "req-3" hbuys (isUserId_serial n) (by decide +kernel) ?_
    fun c hc => (hfresh c hc).1
  rw [h.time]
  decide

/-- The jobs after the next order: its job comes last, and the oldest go beyond a thousand. -/
theorem Parked.jobs {w w' : System} {n k : ℕ} (h : w.Parked n)
    (hord : w.Ordered wideEnv w' (serial n) (serial n))
    (hk : n + 2 - REMOVE_ON_COMPLETE_COUNT = k) :
    ∃ st : StoredJob, st.job.id = wideEnv.jobId (serial n) ∧
      (∀ t ∈ w.stores.queue.jobs ++ [st], t.state = .completed) ∧
      w'.stores.queue.jobs = (w.stores.queue.jobs ++ [st]).drop k := by
  obtain ⟨st, rest, hjobs, hlength, -, hcompleted⟩ := h.queue
  obtain ⟨st', hstate', hid', hqueue⟩ := hord.queue
  have hall : ∀ t ∈ w.stores.queue.jobs ++ [st'], t.state = .completed := by
    rw [hjobs]
    intro t ht
    rcases List.mem_append.1 ht with ht | ht
    · exact hcompleted t ht
    · rw [List.mem_singleton.1 ht]
      exact hstate'
  refine ⟨st', hid', hall, ?_⟩
  rw [hqueue]
  refine JobQueue.trim_all hall ?_
  show (w.stores.queue.jobs ++ [st']).length - REMOVE_ON_COMPLETE_COUNT = k
  rw [hjobs, List.length_append, List.length_cons, hlength, List.length_singleton]
  exact hk

/-- While at most a thousand completed jobs are there, none is trimmed. -/
theorem Parked.next {w : System} {n : ℕ} (h : w.Parked n) (hn : n < 999) :
    ∃ es, (w.run wideEnv es).Parked (n + 1) := by
  obtain ⟨es, hord⟩ := h.order (by omega)
  refine ⟨es, ?_⟩
  have halice : "alice" ≠ serial n := serial_ne (by decide +kernel) n
  obtain ⟨st, rest, hjobs, hlength, hid, -⟩ := h.queue
  obtain ⟨st', -, hall, hjobs'⟩ := h.jobs hord (Nat.sub_eq_zero_of_le (show n + 2 ≤ 1000 by omega))
  obtain ⟨row, hrow, hrow'⟩ := h.row
  rw [hjobs] at hall hjobs'
  exact
    { resting := hord.resting
      removal := by rw [hord.maintenance]; exact h.removal
      adds := hord.adds.trans h.adds
      time := by rw [hord.time]; exact h.time
      config := hord.config.trans h.config
      stock := by rw [hord.stock, h.stock, Option.getD_some, sub_sub, Nat.cast_succ]
      ledger := (hord.ledger _ halice).trans h.ledger
      row := ⟨row, (hord.rows _ halice).trans hrow, hrow'⟩
      confirmed := fun c hc => by
        rw [hord.confirmed] at hc
        rcases List.mem_cons.1 hc with rfl | hc
        · exact .inr ⟨n, Nat.lt_succ_self n, rfl, rfl⟩
        · refine (h.confirmed c hc).imp_right ?_
          rintro ⟨j, hj, hc⟩
          exact ⟨j, Nat.lt_succ_of_lt hj, hc⟩
      queue := by
        refine ⟨st, rest ++ [st'], hjobs', ?_, hid, hall⟩
        rw [List.length_append, hlength]
        rfl }

theorem parked (n : ℕ) (hn : n ≤ 999) :
    ∃ es, (quietSystem.run wideEnv es).Parked n := by
  induction n with
  | zero => exact ⟨parkedRun, parked_parkedRun⟩
  | succ n ih =>
    obtain ⟨es, h⟩ := ih (by omega)
    obtain ⟨es', h'⟩ := h.next (by omega)
    refine ⟨es ++ es', ?_⟩
    rw [run_append]
    exact h'

/-- After one order more the job of Alice has been trimmed, and the late add takes its place. -/
theorem Parked.late {w : System} (h : w.Parked 999) : ∃ es, let w' := w.run wideEnv es
    (∃ job ∈ nextRemoval w'.maintenance, job.id = wideEnv.jobId "alice") ∧
    w'.ledger wideEnv "alice" = some bobReservation ∧
    w'.stores.db.RowIs "alice" aliceReservation .compensated ∧
    ∃ st ∈ w'.slot wideEnv "alice", st.state = .waiting ∧ st.lock = none ∧
      st.job.identity = some bobReservation := by
  obtain ⟨es, hord⟩ := h.order (by omega)
  have halice : "alice" ≠ serial 999 := serial_ne (by decide +kernel) 999
  obtain ⟨st, rest, hjobs, -, hid, -⟩ := h.queue
  obtain ⟨st', hid', -, hjobs'⟩ := h.jobs (k := 1) hord rfl
  obtain ⟨row, hrow, hrow'⟩ := h.row
  refine ⟨es ++ [.apiAdd 0], ?_⟩
  rw [run_append]
  generalize w.run wideEnv es = w₁ at *
  have hfree : w₁.stores.queue.find (wideEnv.jobId "alice") = none := by
    have hdistinct := h.resting.ok.inv.1.distinct
    unfold JobQueue.Distinct at hdistinct
    rw [hjobs] at hdistinct hjobs'
    rw [List.map_cons, List.nodup_cons, hid] at hdistinct
    rw [JobQueue.find_eq_none, hjobs']
    intro t ht
    rcases List.mem_append.1 ht with ht | ht
    · intro heq
      exact hdistinct.1 (List.mem_map.2 ⟨t, ht, heq⟩)
    · rw [List.mem_singleton.1 ht, hid']
      exact fun heq => halice (WorkerEnv.jobId_inj heq).symm
  have hvalid : lateOrder.Valid := ⟨by decide +kernel, by decide +kernel, by decide +kernel,
    by decide +kernel, by decide +kernel⟩
  have hsale : lateOrder.saleId = wideEnv.SALE_ID := rfl
  have hadd : w₁.run wideEnv [.apiAdd 0] = w₁.onShared
      { w₁.setQueue (w₁.stores.queue.add (wideEnv.jobId "alice") PERSIST_ORDER_JOB_NAME
          lateOrder.toJs ORDERS_JOB_ATTEMPTS) with adds := [] } := by
    show w₁.step wideEnv (.apiAdd 0) = _
    rw [System.step, hord.adds.trans h.adds]
    dsimp only [List.getElem?_cons_zero]
    rw [Shared.enqueue_valid hvalid hsale]
    rfl
  have hslot := JobQueue.find_add w₁.stores.queue (wideEnv.jobId "alice") PERSIST_ORDER_JOB_NAME
    lateOrder.toJs ORDERS_JOB_ATTEMPTS (wideEnv.jobId "alice")
  rw [if_pos ⟨rfl, hfree⟩] at hslot
  rw [hadd]
  refine ⟨?_, (hord.ledger _ halice).trans h.ledger, ⟨row, (hord.rows _ halice).trans hrow, hrow'⟩,
    _, hslot, rfl, rfl, ?_⟩
  · show ∃ job ∈ nextRemoval w₁.maintenance, _
    rw [hord.maintenance]
    exact h.removal
  · unfold Job.identity
    rw [show (w₁.stores.queue.newJob _ _ lateOrder.toJs _).data = lateOrder.toJs from rfl,
      assertOrdersQueueJobPayload_toJs hvalid]
    rfl

/-- **The counterexample.** A pass removes the job that covers the entry of Alice. -/
theorem staleRemoval_uncovers : ¬ ∀ (es : List Event) (e : Event) (u id : String),
    let w := quietSystem.run wideEnv es
    let w' := w.step wideEnv e
    w.ledger wideEnv u = some id → w.Covered wideEnv u id → w'.ledger wideEnv u = some id →
      w'.Covered wideEnv u id := by
  intro hall
  obtain ⟨es, hparked⟩ := parked 999 le_rfl
  obtain ⟨es', ⟨job, hrem, hid⟩, hled, hrow, st, hst, hstate, hlock, hident⟩ := hparked.late
  rw [← run_append] at *
  have hcovered := hall (es ++ es') (.maintain .none) "alice" bobReservation hled
    (.inr ⟨st, hst, by rw [hstate]; rfl, hident⟩)
  have hstep : ((quietSystem.run wideEnv (es ++ es')).step wideEnv (.maintain .none)).toShared = _ :=
    step_removal (by decide) hrem (by rw [hid]; exact hst) hlock
  rw [hstep] at hcovered
  rcases hcovered hled with hrow' | ⟨st', hst', -⟩
  · exact absurd (hrow.inj hrow').2 (by decide)
  · have hnone := JobQueue.find_erase (quietSystem.run wideEnv (es ++ es')).stores.queue job.id
      (wideEnv.jobId "alice")
    rw [if_pos hid.symm] at hnone
    cases hnone.symm.trans hst'

end System

end FlashSale
