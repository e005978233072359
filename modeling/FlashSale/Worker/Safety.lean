import FlashSale.Worker.SystemRuns

/-!
# Safety of the order pipeline

What the invariant of the system says about every run from empty stores:

* every identity in the ledger, in a job or in a row is that of a purchase of the run that
  `purchase.lua` confirmed at the time it carries;
* in a clean run the ledger and the persisted rows stay within the stock, and a released
  reservation comes back neither in the ledger nor as a persisted row.

`resolveFailed` releases the reservation in Redis before its marker commits. A transaction that ends
without the commit leaves the failed job behind, from which the next pass restores the reservation
although its unit is on sale again: `resaleRun` sells one unit twice.
-/

namespace FlashSale

open Redis
open Shared

namespace System

variable {env : WorkerEnv} {w : System}

/-! ## Confirmed purchases of a run -/

theorem confirmed_note (s : Shared) (o : Call) : (s.note o).confirmed = s.confirmed := by
  unfold Shared.note
  split
  · split_ifs <;> rfl
  all_goals rfl

theorem confirmed_call {s s' : Shared} {fault : Fault} {o : Call} {r : Except Failure o.Res}
    (h : s.call fault o = some (r, s')) : s'.confirmed = s.confirmed := by
  rcases call_cases h with ⟨r', t, -, rfl, -⟩ | ⟨-, hs, -⟩
  · exact confirmed_note s o
  · rw [hs]

/-- The script confirmed the purchase with this reply. -/
def Confirms (env : WorkerEnv) (w : System) (c : Confirmation) : Prop :=
  (FlashSale.purchase (w.sale env) c.userId c.reservationId w.stores.time).1.outcome = .confirmed ∧
  (FlashSale.purchase (w.sale env) c.userId c.reservationId w.stores.time).1.reservationId =
    c.reservationId ∧
  w.stores.time.nowMs = c.reservedAtMs

/-- Only a confirmed purchase adds to the history. -/
theorem confirmed_step (env : WorkerEnv) (w : System) (e : Event) :
    (w.step env e).confirmed = w.confirmed ∨
    ∃ c requestId, e = .purchase c.userId c.reservationId requestId ∧ w.Confirms env c ∧
      (w.step env e).confirmed = c :: w.confirmed := by
  have hstart : ∀ {α : Type} (p : WorkerM α), (w.start p).confirmed = w.confirmed := by
    intro α p
    unfold System.start
    split
    · rfl
    · rfl
  cases e with
  | purchase u id requestId =>
    rcases w.toShared.purchase_inv env u id requestId with ⟨x, e, -⟩ | ⟨x, hx, e, hp, -⟩
    · left
      rw [System.step, e]
      rfl
    · refine .inr ⟨⟨u, id, w.stores.time.nowMs⟩, requestId, rfl, ?_, ?_⟩
      · rcases FlashSale.purchase_cases (w.sale env) u id w.stores.time with ⟨hr, -⟩ | ⟨-, hk⟩
        · unfold Confirms
          rw [hr]
          exact ⟨rfl, rfl, rfl⟩
        · -- a confirmed purchase takes a unit
          rw [← hx, hp.keys] at hk
          rcases hk with hk | ⟨hk, -⟩
          · have hl := congrArg (fun x => x.reservations.hget u) hk
            dsimp only at hl
            rw [Hash.hget_hset_self, hp.ledger] at hl
            cases hl
          · rw [hp.buyer] at hk
            simp [Hash.hexists, hp.ledger] at hk
      · rw [System.step, e]
        rfl
  | apiAdd i =>
    left
    rw [System.step]
    split
    · rfl
    · show (Shared.enqueue w.toShared _).confirmed = w.confirmed
      unfold Shared.enqueue
      split
      · rfl
      · rfl
  | deliver id =>
    left
    rw [System.step]
    split
    · rfl
    · rfl
  | attemptStep c fault =>
    left
    rw [System.step]
    split
    · split
      · next h => exact confirmed_call h
      · rfl
    · rfl
  | settle c =>
    left
    rw [System.step]
    split
    · rfl
    · rfl
    · rfl
  | crash c =>
    left
    rw [System.step]
    split_ifs
    · rfl
    · rfl
  | maintain fault =>
    left
    rw [System.step]
    split
    · split
      · next h => exact confirmed_call h
      · rfl
    · rfl
  | finish =>
    left
    rw [System.step]
    split
    · rfl
    · rfl
  | startPass fuel => exact .inl (hstart _)
  | startSweep => exact .inl (hstart _)
  | startBoot polls fuel => exact .inl (hstart _)
  | tick _ | rehash _ _ | seed | apiDrop _ | stall _ | promote _ | resume | abandon =>
    exact .inl rfl

/-- Some purchase of the run was confirmed with this reply. -/
def Purchased (env : WorkerEnv) (w : System) (es : List Event) (c : Confirmation) : Prop :=
  ∃ before requestId after,
    es = before ++ .purchase c.userId c.reservationId requestId :: after ∧
      (w.run env before).Confirms env c

theorem confirmed_run (es : List Event) {c : Confirmation} (hc : c ∈ (w.run env es).confirmed) :
    c ∈ w.confirmed ∨ Purchased env w es c := by
  induction es generalizing w with
  | nil => exact .inl hc
  | cons e es ih =>
    rcases ih hc with hc | ⟨before, requestId, after, rfl, hconf⟩
    · rcases confirmed_step env w e with h | ⟨c', requestId, rfl, hconf, h⟩
      · rw [h] at hc
        exact .inl hc
      · rw [h] at hc
        rcases List.mem_cons.1 hc with rfl | hc
        · exact .inr ⟨[], requestId, es, rfl, hconf⟩
        · exact .inl hc
    · exact .inr ⟨e :: before, requestId, after, rfl, hconf⟩

/-! ## Provenance -/

/-- **Provenance.** Every identity in the ledger, in a job and in a row is that of a purchase of the
run that was confirmed at the time it carries, inside the window of the sale. -/
theorem identities_purchased (env : WorkerEnv) (time : RedisTime)
    (ledgerBucket buyerBucket hashtext : String → ℕ) (es : List Event) :
    let start := System.empty time ledgerBucket buyerBucket hashtext
    let w := start.run env es
    let Origin := fun u id t => Purchased env start es ⟨u, id, t⟩ ∧
      env.sale.startsAtMs ≤ (t : ℤ) ∧ (t : ℤ) < env.sale.endsAtMs
    (∀ cfg, (w.sale env).config = some cfg → cfg = env.sale) ∧
    (∀ u v, (w.sale env).reservations.hget u = some v → ∃ id t, Origin u id t ∧
      (v = ledgerValue id (Text.luaTostring t) ∨ v = ledgerValue id (toString t)) ∧
      ∀ entry, parseReservationEntry u v = .ok entry → entry = ⟨u, id, some t⟩) ∧
    (∀ st ∈ w.stores.queue.jobs, ∃ p, assertOrdersQueueJobPayload st.job.data = .ok p ∧
      p.saleId = env.SALE_ID ∧ st.job.id = env.jobId p.userId ∧
      Origin p.userId p.reservationId p.reservedAtMs) ∧
    (∀ row ∈ w.stores.db.orders, row.saleId = env.SALE_ID ∧
      Origin row.userId row.id row.createdAtMs) := by
  intro start w Origin
  have hok : w.Ok env False := (Ok.empty env False time _ _ _).run es (fun h => h.elim)
  have hinv := hok.inv.1
  have horigin : ∀ u id t, w.Confirmed u id t → Origin u id t := by
    intro u id t hc
    refine ⟨(confirmed_run es hc).resolve_left List.not_mem_nil, ?_⟩
    exact hinv.window _ hc
  refine ⟨hinv.config, fun u v hv => ?_, fun st hst => ?_, fun row hrow => ?_⟩
  · obtain ⟨id, t, hc, hval⟩ := hinv.entries u v hv
    refine ⟨id, t, horigin u id t hc, hval, fun entry hentry => ?_⟩
    have hid := (hinv.ids _ hc).1
    rcases hval with rfl | rfl
    · obtain ⟨t', ht', rfl⟩ := parseReservationEntry_ledgerValue hid hentry
      obtain rfl := decimalValue_luaTostring ht'
      rfl
    · obtain ⟨t', ht', rfl⟩ := parseReservationEntry_ledgerValue hid hentry
      rw [decimalValue_toString] at ht'
      obtain rfl := Option.some.inj ht'
      rfl
  · obtain ⟨-, p, hp⟩ := hinv.jobs st hst
    refine ⟨p, ?_, hp.payload.sale, hp.id, horigin _ _ _ hp.payload.confirmed⟩
    rw [hp.data]
    exact assertOrdersQueueJobPayload_toJs hp.payload.valid
  · obtain ⟨hsale, hc⟩ := hinv.rows row hrow
    exact ⟨hsale, horigin _ _ _ hc⟩

/-! ## Clean runs -/

/-- The rows of persisted orders. -/
def persistedOrders (w : System) : List DurableOrder :=
  w.stores.db.orders.filter fun row => row.status = .persisted

theorem Ok.clean (h : w.Ok env True) : w.Clean env := h.inv.2 trivial

/-- In a clean run there is an entry for every persisted row. -/
theorem Ok.persisted_le (h : w.Ok env True) :
    w.persistedOrders.length ≤ (w.sale env).reservations.hlen := by
  have hwf := h.inv.1.repo.wf
  have hnodup : (w.persistedOrders.map (·.userId)).Nodup :=
    hwf.users.sublist (List.filter_sublist.map _)
  have hsub : w.persistedOrders.map (·.userId) ⊆ (w.sale env).reservations.keys := by
    intro u hu
    obtain ⟨row, hrow, rfl⟩ := List.mem_map.1 hu
    obtain ⟨hmem, hst⟩ := List.mem_filter.1 hrow
    have hled := h.clean.persisted row.userId row.id
      ⟨row, hwf.row?_of_mem hmem rfl, rfl, by simpa using hst⟩
    obtain ⟨v, hv, -⟩ := ledger_eq_some.1 hled
    rw [Hash.mem_keys_iff, hv]
    rfl
  have hle := List.Nodup.length_le_of_subset hnodup hsub
  rw [List.length_map] at hle
  exact hle

/-- In a clean run the ledger stays within the stock. -/
theorem Ok.ledger_le (h : w.Ok env True) :
    ((w.sale env).reservations.hlen : ℤ) ≤ env.sale.totalStock := by
  have hcons := h.clean.conserved
  cases hcfg : (w.sale env).config with
  | none =>
    have hle := hcons.unseeded hcfg
    have hnonneg := env.totalStock_nonneg
    omega
  | some cfg =>
    obtain rfl := h.inv.1.config cfg hcfg
    obtain ⟨stock, -, h0, -, -, hle⟩ := hcons.seeded _ hcfg
    push_cast at hle
    omega

/-! ### One unit

Alice reserves the only unit, and three workers in turn lose her job before they persist it. -/

def quietSystem : System := System.empty ⟨1, 500000⟩ (fun _ => 0) (fun _ => 0) String.length

def aliceReservation : String := "0190aaaa-0000-7000-8000-000000000001"

def bobReservation : String := "0190aaaa-0000-7000-8000-000000000002"

/-- A worker boots and seeds the sale. -/
def boots : List Event :=
  .startBoot 1 3 :: List.replicate 20 (.maintain .none) ++ [.finish, .resume]

/-- The job of Alice fails for good and a sweep starts. -/
def aliceFails : List Event :=
  boots ++ [.purchase "alice" aliceReservation "req-1", .apiAdd 0, .deliver "flash-2026-alice",
    .stall "flash-2026-alice", .deliver "flash-2026-alice", .stall "flash-2026-alice",
    .deliver "flash-2026-alice", .stall "flash-2026-alice", .startSweep]

/-- The sweep releases the unit and commits the marker, and Bob buys it. -/
def releaseRun : List Event :=
  aliceFails ++ List.replicate 14 (.maintain .none) ++
    [.finish, .purchase "bob" bobReservation "req-2", .apiAdd 0, .deliver "flash-2026-bob"] ++
    List.replicate 6 (.attemptStep 4 .none) ++ [.settle 4]

/-- The sweep releases the unit, its commit fails and the transaction is rolled back. Bob buys the
unit, and the next pass restores the reservation of Alice from her failed job. -/
def resaleRun : List Event :=
  aliceFails ++ List.replicate 10 (.maintain .none) ++ [.maintain .before] ++
    List.replicate 4 (.maintain .none) ++
    [.finish, .purchase "bob" bobReservation "req-2", .startPass 3] ++
    List.replicate 12 (.maintain .none)

/-- **No oversell in a clean run.** -/
theorem no_oversell_of_cleanRun (env : WorkerEnv) (time : RedisTime)
    (ledgerBucket buyerBucket hashtext : String → ℕ) (es : List Event)
    (hes : CleanRun env (System.empty time ledgerBucket buyerBucket hashtext) es) :
    let w := (System.empty time ledgerBucket buyerBucket hashtext).run env es
    ((w.sale env).reservations.hlen : ℤ) ≤ env.sale.totalStock ∧
      (w.persistedOrders.length : ℤ) ≤ env.sale.totalStock := by
  intro w
  have hok : w.Ok env True := (Ok.empty env True time _ _ _).run es fun _ => hes
  have hle := hok.persisted_le
  have hled := hok.ledger_le
  exact ⟨hled, by omega⟩

theorem releaseRun_clean : CleanRun oneUnitEnv quietSystem releaseRun := by decide +kernel

theorem no_oversell_of_cleanRun_release :
    CleanRun oneUnitEnv quietSystem releaseRun ∧
      (((quietSystem.run oneUnitEnv releaseRun).sale oneUnitEnv).reservations.hlen : ℤ) ≤
        oneUnitEnv.sale.totalStock ∧
      ((quietSystem.run oneUnitEnv releaseRun).persistedOrders.length : ℤ) ≤
        oneUnitEnv.sale.totalStock := by
  have hclean := releaseRun_clean
  unfold quietSystem at *
  exact ⟨hclean, no_oversell_of_cleanRun oneUnitEnv ⟨1, 500000⟩ (fun _ => 0) (fun _ => 0)
    String.length releaseRun hclean⟩

/-- Both Alice and Bob have the only unit. -/
theorem resaleRun_oversells :
    ¬ ((((quietSystem.run oneUnitEnv resaleRun).sale oneUnitEnv).reservations.hlen : ℤ) ≤
        oneUnitEnv.sale.totalStock ∧
      ((quietSystem.run oneUnitEnv resaleRun).persistedOrders.length : ℤ) ≤
        oneUnitEnv.sale.totalStock) := by
  decide +kernel

/-- **A release is final in a clean run.** -/
theorem release_final_of_cleanRun (env : WorkerEnv) (time : RedisTime)
    (ledgerBucket buyerBucket hashtext : String → ℕ) (es : List Event)
    (hes : CleanRun env (System.empty time ledgerBucket buyerBucket hashtext) es) :
    let w := (System.empty time ledgerBucket buyerBucket hashtext).run env es
    ∀ u id, (u, id) ∈ w.released → (∀ v, w.ledger env v ≠ some id) ∧
      ∀ row ∈ w.stores.db.orders, row.status = .persisted → row.id ≠ id := by
  intro w u id hrel
  have hok : w.Ok env True := (Ok.empty env True time _ _ _).run es fun _ => hes
  obtain ⟨⟨t, hc⟩, hne, -⟩ := hok.clean.gone u id hrel
  have hledger : ∀ v, w.ledger env v ≠ some id := by
    intro v hv
    -- a reservation id belongs to one user
    obtain ⟨t', hc'⟩ := hok.inv.1.confirmed_of_ledger hv
    obtain ⟨rfl, -⟩ := Confirmation.mk.inj (hok.inv.1.unique _ hc' _ hc rfl)
    exact hne hv
  refine ⟨hledger, fun row hrow hst hid => hledger row.userId ?_⟩
  rw [← hid]
  exact hok.clean.persisted _ _ ⟨row, hok.inv.1.repo.wf.row?_of_mem hrow rfl, rfl, hst⟩

theorem release_final_of_cleanRun_release :
    CleanRun oneUnitEnv quietSystem releaseRun ∧
      ("alice", aliceReservation) ∈ (quietSystem.run oneUnitEnv releaseRun).released ∧
      (∀ v, (quietSystem.run oneUnitEnv releaseRun).ledger oneUnitEnv v ≠ some aliceReservation) ∧
      ∀ row ∈ (quietSystem.run oneUnitEnv releaseRun).stores.db.orders,
        row.status = .persisted → row.id ≠ aliceReservation := by
  have hclean := releaseRun_clean
  have hrel : ("alice", aliceReservation) ∈ (quietSystem.run oneUnitEnv releaseRun).released := by
    decide +kernel
  unfold quietSystem at *
  exact ⟨hclean, hrel, release_final_of_cleanRun oneUnitEnv ⟨1, 500000⟩ (fun _ => 0) (fun _ => 0)
    String.length releaseRun hclean _ _ hrel⟩

/-- The reservation of Alice was released and is in the ledger again. -/
theorem resaleRun_restores :
    ("alice", aliceReservation) ∈ (quietSystem.run oneUnitEnv resaleRun).released ∧
      (quietSystem.run oneUnitEnv resaleRun).ledger oneUnitEnv "alice" =
        some aliceReservation := by
  decide +kernel

end System
end FlashSale
