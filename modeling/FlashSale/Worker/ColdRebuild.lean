import FlashSale.Worker.ColdInvariant

/-!
# A cold rebuild under traffic

Between its seed and the end of `runDiff` the boot pass has put the whole stock on the counter, but
not yet restored every row. A purchase in between can find a unit that belongs to a row, even for
the user of that row (`seeds_resells`). A run in which no purchase takes a unit until
`reconcile-state.lua` has derived the stock is safe, and stays so whoever buys after that
(`coldRun_safe`).
-/

namespace FlashSale

open Redis

/-! ## Runs -/

/-- The events of a cold run: the clock, the API and the boot pass. -/
def Event.isCold : Event → Bool
  | .tick _ | .rehash _ _ | .seed | .purchase _ _ _ | .apiAdd _ | .apiDrop _ | .startBoot _ _
  | .maintain _ | .finish | .abandon => true
  | _ => false

namespace System

open Shared

variable {env : WorkerEnv} {w : System}

/-- The keys of the sale are lost. The database has persisted orders of the sale, at most one of a
user, placed in its window and no more than there are units; jobs that are left belong to users with
a row, and none of them has failed. -/
structure ColdStart (env : WorkerEnv) (w : System) : Prop where
  keys : w.sale env = Sale.empty
  rows : ∀ row ∈ w.stores.db.orders, row.saleId = env.SALE_ID ∧ row.status = .persisted ∧
    env.sale.startsAtMs ≤ row.createdAtMs ∧ (row.createdAtMs : ℤ) < env.sale.endsAtMs
  users : (w.stores.db.orders.map (·.userId)).Nodup
  units : (w.stores.db.orders.length : ℤ) ≤ env.sale.totalStock
  jobs : ∀ st ∈ w.stores.queue.jobs, st.state ≠ .failed ∧
    ∀ p, assertOrdersQueueJobPayload st.job.data = .ok p → w.RowUser p.userId
  distinct : w.stores.queue.Distinct
  adds : w.adds = []
  confirmed : w.confirmed = []
  idle : w.maintenance = none

/-- No user with a persisted row was confirmed, and no more users hold a row or an entry than there
are units. -/
structure ColdSafe (env : WorkerEnv) (w : System) : Prop where
  rows : ∀ c ∈ w.confirmed, ¬ w.RowUser c.userId
  units : ((w.holders env).length : ℤ) ≤ env.sale.totalStock

/-- The invariant of a cold run with the rest of the boot pass. -/
structure ColdOk (env : WorkerEnv) (w : System) : Prop where
  inv : w.ColdInv env
  maintenance : ∀ m, w.maintenance = some m → m.wp (coldLogic env) (fun _ _ => True) w.toShared

theorem ColdOk.safe (h : w.ColdOk env) : w.ColdSafe env := ⟨h.inv.confirmed, h.inv.units⟩

theorem ColdStart.ok (h : w.ColdStart env) : w.ColdOk env := by
  have hkeys : (w.sale env).reservations = ∅ := by rw [h.keys]; rfl
  have hledger : ∀ u, ¬ w.stores.InLedger env u := by
    intro u hu
    rw [inLedger_iff, hkeys, Hash.hget_empty] at hu
    cases hu
  refine ⟨⟨fun row hrow => ⟨(h.rows row hrow).1, (h.rows row hrow).2.1⟩, ?_, ?_,
    fun st hst => ⟨(h.jobs st hst).1, fun p hp => mem_holders.2 (.inl ((h.jobs st hst).2 p hp))⟩,
    h.distinct, ?_, ?_, ?_⟩, fun m hm => ?_⟩
  · intro cfg hcfg
    rw [h.keys] at hcfg
    cases hcfg
  · intro u
    rw [h.keys]
    rfl
  · intro p hp
    rw [h.adds] at hp
    cases hp
  · intro c hc
    rw [h.confirmed] at hc
    cases hc
  · have hle : (w.holders env).length ≤ (w.stores.db.orders.map (·.userId)).length := by
      refine holders_length_le fun u hu => ?_
      rcases mem_holders.1 hu with ⟨row, hrow, -, rfl⟩ | hl
      · exact List.mem_map_of_mem hrow
      · exact absurd hl (hledger u)
    have hunits := h.units
    rw [List.length_map] at hle
    omega
  · rw [h.idle] at hm
    cases hm

/-- A step of others. -/
theorem ColdOk.outside (h : w.ColdOk env) {s : Shared}
    (hs : s.ColdInv env ∧ ColdRely env w.toShared s) : (w.onShared s).ColdOk env :=
  ⟨hs.1, fun m hm => Prog.wp_rely (h.maintenance m hm) hs.2⟩

theorem ColdOk.boot (h : w.ColdOk env) (polls fuel : ℕ) :
    (w.start (bootPass env polls fuel)).ColdOk env := by
  unfold System.start
  cases hm : w.maintenance with
  | some m => exact h
  | none =>
    refine ⟨h.inv, fun m hm' => ?_⟩
    obtain rfl := Option.some.inj hm'
    refine Prog.wp_bind (Prog.wp_mono (coldLogic_boot.wp_bootPass polls fuel trivial) ?_)
    rintro (e | a) s - -
    · trivial
    · exact fun _ _ _ => trivial

/-- **One event of a cold run.** -/
theorem ColdOk.step (h : w.ColdOk env) {e : Event} (he : e.isCold = true)
    (hfree : ∀ u id requestId, e = .purchase u id requestId → w.Buys env u id → w.Free env u) :
    (w.step env e).ColdOk env := by
  cases e with
  | tick time =>
    exact h.outside (h.inv.congr _ rfl rfl rfl (fun _ hp => hp) rfl)
  | rehash ledgerBucket buyerBucket =>
    exact h.outside (h.inv.congr _ rfl rfl rfl (fun _ hp => hp) rfl)
  | seed => exact h.outside h.inv.seed
  | purchase u id requestId => exact h.outside (h.inv.purchase (hfree u id requestId rfl))
  | apiAdd i =>
    dsimp only [System.step]
    cases hi : w.adds[i]? with
    | none => exact h
    | some p =>
      obtain ⟨hinv, hrely⟩ := h.inv.enqueue (List.mem_of_getElem? hi)
      have hadds : ∀ q ∈ w.adds.eraseIdx i, q ∈ (w.enqueue p).adds := by
        intro q hq
        unfold Shared.enqueue
        split <;> exact List.mem_of_mem_eraseIdx hq
      obtain ⟨hinv', hrely'⟩ := hinv.congr
        { w.enqueue p with adds := w.adds.eraseIdx i } rfl rfl rfl hadds rfl
      exact h.outside ⟨hinv', hrely.trans hrely'⟩
  | apiDrop i =>
    exact h.outside (h.inv.congr _ rfl rfl rfl (fun _ hp => List.mem_of_mem_eraseIdx hp) rfl)
  | startBoot polls fuel => exact h.boot polls fuel
  | maintain fault =>
    dsimp only [System.step]
    cases hm : w.maintenance with
    | none => exact h
    | some m =>
      cases m with
      | pure a => exact h
      | throw e => exact h
      | op o k =>
        dsimp only
        cases hcall : w.call fault o with
        | none => exact h
        | some q =>
          obtain ⟨r, s⟩ := q
          obtain ⟨hpre, hk⟩ := h.maintenance _ hm w.toShared (.refl env _) h.inv
          obtain ⟨hinv, -⟩ := h.inv.call hpre hcall
          refine ⟨hinv, fun m hm' => ?_⟩
          obtain rfl := Option.some.inj hm'
          exact hk r s ⟨fault, hcall⟩ hinv
  | finish =>
    dsimp only [System.step]
    split
    · exact h
    · exact ⟨h.inv, fun m hm => by cases hm⟩
  | abandon =>
    have hc := h.inv.congr (w.step env .abandon).toShared rfl rfl rfl (fun _ hp => hp) rfl
    exact ⟨hc.1, fun m hm => by cases hm⟩
  | _ => cases he

theorem run_take_succ (env : WorkerEnv) (w : System) {es : List Event} {n : ℕ} {e : Event}
    (he : es[n]? = some e) : w.run env (es.take (n + 1)) = (w.run env (es.take n)).step env e := by
  unfold System.run
  rw [List.take_add_one, he, Option.toList_some, List.foldl_append]
  rfl

/-! ### The rebuild -/

/-- The event in which the boot pass's `reconcile-state.lua` takes effect, whether its answer
arrives or is lost. -/
def derives (w : System) : Event → Bool
  | .maintain fault =>
    match w.maintenance with
    | some (.op (.reconcileState _) _) => fault ≠ .before
    | _ => false
  | _ => false

theorem of_derives {e : Event} (h : w.derives e = true) : ∃ fault saleId k, e = .maintain fault ∧
    fault ≠ .before ∧ w.maintenance = some (.op (.reconcileState saleId) k) := by
  cases e with
  | maintain fault =>
    unfold derives at h
    dsimp only at h
    split at h
    · next saleId k hm => exact ⟨fault, saleId, k, rfl, by simpa using h, hm⟩
    · cases h
  | _ => cases h

/-- The stock is derived after every row is restored. -/
theorem ColdOk.rebuilt (h : w.ColdOk env) {e : Event} (hd : w.derives e = true) :
    (w.step env e).Rebuilt env := by
  obtain ⟨fault, saleId, k, rfl, hfault, hm⟩ := of_derives hd
  obtain ⟨⟨rfl, hseeded, hrows⟩, -⟩ := h.maintenance _ hm w.toShared (.refl env _) h.inv
  have hcall : ∃ r, w.call fault (.reconcileState env.SALE_ID) =
      some (r, w.setSale env (reconcileState (w.sale env)).2) := by
    cases fault with
    | none => exact ⟨_, rfl⟩
    | before => exact absurd rfl hfault
    | after => exact ⟨_, rfl⟩
  obtain ⟨r, hcall⟩ := hcall
  have hstep : w.step env (.maintain fault) =
      { w.onShared (w.setSale env (reconcileState (w.sale env)).2) with
        maintenance := some (k r) } := by
    dsimp only [System.step]
    rw [hm]
    dsimp only
    rw [hcall]
  rw [hstep]
  exact h.inv.rebuilt hseeded hrows

/-- A sale that is rebuilt stays so, whoever buys. -/
theorem Rebuilt.step (h : w.Rebuilt env) (hok : w.ColdOk env) {e : Event} (he : e.isCold = true) :
    (w.step env e).Rebuilt env := by
  cases e with
  | tick time => exact h.congr rfl rfl rfl rfl
  | rehash ledgerBucket buyerBucket => exact h.congr rfl rfl rfl rfl
  | seed =>
    refine h.setSale (x := (FlashSale.seed (w.sale env) env.sale env.sale.totalStock).2) ?_ ?_ ?_
    all_goals
      rcases seed_cases (w.sale env) env.sale env.sale.totalStock with ⟨hn, -⟩ | ⟨-, -, e⟩
      · exact absurd (hn.symm.trans h.config) (by simp)
      · rw [e]
  | purchase u id requestId => exact Shared.Rebuilt.purchase h u id requestId
  | apiAdd i =>
    dsimp only [System.step]
    cases w.adds[i]? with
    | none => exact h
    | some p =>
      have hkeys : (w.enqueue p).stores.sales = w.stores.sales ∧
          (w.enqueue p).stores.db = w.stores.db := by
        unfold Shared.enqueue
        split <;> exact ⟨rfl, rfl⟩
      have hsale : (w.enqueue p).sale env = w.sale env := congrFun hkeys.1 _
      exact h.congr (by rw [← hkeys.2]; rfl) (congrArg Sale.config hsale)
        (congrArg Sale.reservations hsale) (congrArg Sale.stock hsale)
  | apiDrop i => exact h.congr rfl rfl rfl rfl
  | startBoot polls fuel =>
    dsimp only [System.step, System.start]
    split
    · exact h
    · exact h
  | maintain fault =>
    dsimp only [System.step]
    cases hm : w.maintenance with
    | none => exact h
    | some m =>
      cases m with
      | pure a => exact h
      | throw e => exact h
      | op o k =>
        dsimp only
        cases hcall : w.call fault o with
        | none => exact h
        | some q =>
          obtain ⟨hpre, -⟩ := hok.maintenance _ hm w.toShared (.refl env _) hok.inv
          exact Shared.Rebuilt.call h hok.inv hpre hcall
  | finish =>
    dsimp only [System.step]
    split
    · exact h
    · exact h
  | abandon => exact h.congr rfl rfl rfl rfl
  | _ => cases he

/-- Before its event `n` the run has derived the stock. -/
def Derived (env : WorkerEnv) (w : System) (es : List Event) (n : ℕ) : Prop :=
  ∃ m < n, ∃ e, es[m]? = some e ∧ (w.run env (es.take m)).derives e = true

/-- No purchase takes a unit before the stock is derived. An unseeded sale takes none anyway, so
this is about the time between the seed and the end of the rebuild. -/
def Undisturbed (env : WorkerEnv) (w : System) (es : List Event) : Prop :=
  ∀ n u id requestId, es[n]? = some (.purchase u id requestId) →
    (w.run env (es.take n)).Buys env u id → Derived env w es n

/-- What a run keeps that is undisturbed, and what it has once the stock is derived. -/
theorem ColdOk.run (h : w.ColdOk env) {es : List Event} (hes : ∀ e ∈ es, e.isCold = true)
    (hquiet : Undisturbed env w es) (n : ℕ) : (w.run env (es.take n)).ColdOk env ∧
      (Derived env w es n → (w.run env (es.take n)).Rebuilt env) := by
  induction n with
  | zero =>
    refine ⟨h, ?_⟩
    rintro ⟨m, hm, -⟩
    exact absurd hm (Nat.not_lt_zero m)
  | succ n ih =>
    obtain ⟨hok, hrebuilt⟩ := ih
    cases he : es[n]? with
    | none =>
      have hle := List.getElem?_eq_none_iff.1 he
      have htake : es.take (n + 1) = es.take n := by
        rw [List.take_of_length_le (by omega), List.take_of_length_le hle]
      rw [htake]
      refine ⟨hok, ?_⟩
      rintro ⟨m, hm, e, hem, hd⟩
      rcases Nat.lt_succ_iff_lt_or_eq.1 hm with hlt | rfl
      · exact hrebuilt ⟨m, hlt, e, hem, hd⟩
      · rw [he] at hem
        cases hem
    | some e =>
      have hcold := hes e (List.mem_of_getElem? he)
      rw [run_take_succ env w he]
      refine ⟨hok.step hcold ?_, ?_⟩
      · rintro u id requestId rfl hb
        exact Shared.Rebuilt.free (hrebuilt (hquiet n u id requestId he hb)) hb
      · rintro ⟨m, hm, e', hem, hd⟩
        rcases Nat.lt_succ_iff_lt_or_eq.1 hm with hlt | rfl
        · exact Rebuilt.step (hrebuilt ⟨m, hlt, e', hem, hd⟩) hok hcold
        · obtain rfl := Option.some.inj (he.symm.trans hem)
          exact hok.rebuilt hd

/-- **A cold rebuild that no purchase disturbs is safe.** Once the stock is derived everybody may
buy. -/
theorem coldRun_safe (hw : w.ColdStart env) {es : List Event} (hes : ∀ e ∈ es, e.isCold = true)
    (hquiet : Undisturbed env w es) (n : ℕ) : (w.run env (es.take n)).ColdSafe env :=
  (hw.ok.run hes hquiet n).1.safe

/-! ### A purchase during the rebuild -/

/-- Alice has the only unit, and Redis has lost the keys. -/
def lostKeys : System := { quietSystem with
  stores := { quietSystem.stores with db := { quietSystem.stores.db with
    orders := [⟨aliceReservation, "alice", "flash-2026", .persisted, 1200, "req-1"⟩] } } }

/-- The boot pass up to its seed. -/
def seeds : List Event := .startBoot 1 3 :: List.replicate 7 (.maintain .none)

theorem lostKeys_coldStart : lostKeys.ColdStart oneUnitEnv where
  keys := rfl
  rows := by
    intro row hrow
    rw [List.mem_singleton.1 hrow]
    decide
  users := List.nodup_singleton _
  units := by decide
  jobs := by intro st hst; cases hst
  distinct := JobQueue.distinct_empty
  adds := rfl
  confirmed := rfl
  idle := rfl

/-- Alice buys again between the seed and the restoration of her row. -/
def aliceRebuys : List Event := seeds ++ [.purchase "alice" bobReservation "req-2"]

/-- Bob buys the unit that is hers. -/
def bobBuys : List Event := seeds ++ [.purchase "bob" bobReservation "req-2"]

theorem seeds_resells : lostKeys.ColdStart oneUnitEnv ∧
    (∀ e ∈ aliceRebuys, e.isCold = true) ∧ (∀ e ∈ bobBuys, e.isCold = true) ∧
    ¬ (lostKeys.run oneUnitEnv aliceRebuys).ColdSafe oneUnitEnv ∧
    ¬ (lostKeys.run oneUnitEnv bobBuys).ColdSafe oneUnitEnv := by
  refine ⟨lostKeys_coldStart, by decide, by decide, fun h => ?_, fun h => ?_⟩
  · refine h.rows ⟨"alice", bobReservation, 1500⟩ (by decide +kernel)
      ⟨⟨aliceReservation, "alice", "flash-2026", .persisted, 1200, "req-1"⟩, by decide +kernel,
        rfl, rfl⟩
  · have hunits := h.units
    revert hunits
    decide +kernel

/-- A sale of two units. -/
def twoUnitEnv : WorkerEnv := { oneUnitEnv with
  sale := { oneUnitEnv.sale with totalStock := 2 }
  totalStock_nonneg := by decide
  totalStock_safe := by decide }

/-- Bob is refused before the sale opens, while the pass restores Alice's row, and buys the second
unit once the stock is derived. -/
def bobWaits : List Event :=
  seeds ++ [.tick ⟨0, 500000⟩, .purchase "bob" bobReservation "req-2", .tick ⟨1, 500000⟩] ++
    List.replicate 20 (.maintain .none) ++ [.purchase "bob" bobReservation "req-3"]

theorem bobWaits_undisturbed : Undisturbed twoUnitEnv lostKeys bobWaits := by
  intro n u id requestId he hb
  by_cases hn : 21 < n
  · exact ⟨21, hn, .maintain .none, rfl, by decide +kernel⟩
  · have hle : n ≤ 21 := by omega
    -- of the first events one is a purchase, made before the sale opens
    obtain rfl : n = 9 := by
      interval_cases n <;> first | rfl | cases he
    obtain ⟨cfg, hcfg, hstart, -⟩ := hb.window
    have hseeded : ((lostKeys.run twoUnitEnv (bobWaits.take 9)).sale twoUnitEnv).config =
        some twoUnitEnv.sale := by decide +kernel
    have hclock : (lostKeys.run twoUnitEnv (bobWaits.take 9)).stores.time.nowMs = 500 := by
      decide +kernel
    obtain rfl := Option.some.inj (hseeded.symm.trans hcfg)
    rw [hclock] at hstart
    exact absurd hstart (by decide)

theorem lostKeys_coldStart_twoUnits : lostKeys.ColdStart twoUnitEnv :=
  { lostKeys_coldStart with units := by decide }

theorem coldRun_safe_bobWaits : lostKeys.ColdStart twoUnitEnv ∧
    (∀ e ∈ bobWaits, e.isCold = true) ∧ Undisturbed twoUnitEnv lostKeys bobWaits ∧
    (∀ n, (lostKeys.run twoUnitEnv (bobWaits.take n)).ColdSafe twoUnitEnv) ∧
    (lostKeys.run twoUnitEnv bobWaits).confirmed.map (·.userId) = ["bob"] :=
  ⟨lostKeys_coldStart_twoUnits, by decide, bobWaits_undisturbed,
    coldRun_safe lostKeys_coldStart_twoUnits (by decide) bobWaits_undisturbed, by decide +kernel⟩

end System

end FlashSale
