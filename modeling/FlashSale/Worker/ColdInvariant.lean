import FlashSale.Worker.Safety
import Mathlib.Data.List.Dedup

/-!
# What a cold rebuild keeps

Redis has lost the keys of the sale while the database still has its persisted orders. `bootPass`
seeds the sale with the whole stock, restores the rows one after the other and derives the stock at
the end; meanwhile the API goes on selling.

`Buys` says of the keys that `purchase.lua` takes a unit for a user, `Free` that there is one for
the user. `ColdInv` holds as long as every unit that is taken is free: the boot pass writes only
entries of users who hold a unit already, by a row, an entry or a job, and derives the stock once
the sale is seeded and every row restored. From then on (`Rebuilt`) the script takes no unit that
is not free.
-/

namespace FlashSale

open Redis
open Prog (Logic)

namespace Shared

variable {env : WorkerEnv} {s s' : Shared} {u v id requestId : String}

/-! ## Holders -/

/-- The user has a persisted row. -/
def RowUser (s : Shared) (u : String) : Prop :=
  ∃ row ∈ s.stores.db.orders, row.status = .persisted ∧ row.userId = u

/-- The users with a persisted row or an entry of the ledger. -/
def holders (s : Shared) (env : WorkerEnv) : List String :=
  ((s.stores.db.orders.filter fun row => row.status = .persisted).map (·.userId) ++
    (s.sale env).reservations.keys).dedup

theorem mem_holders : u ∈ s.holders env ↔ s.RowUser u ∨ s.stores.InLedger env u := by
  have hkeys : u ∈ (s.sale env).reservations.keys ↔ s.stores.InLedger env u := Hash.mem_keys_iff
  rw [holders, List.mem_dedup, List.mem_append, hkeys, RowUser]
  simp only [List.mem_map, List.mem_filter, decide_eq_true_eq, and_assoc]

theorem holders_length_le {us : List String} (h : ∀ u ∈ s.holders env, u ∈ us) :
    (s.holders env).length ≤ us.length :=
  List.Nodup.length_le_of_subset (List.nodup_dedup _) h

theorem inLedger_iff : s.stores.InLedger env u ↔ ((s.sale env).reservations.hget u).isSome :=
  Iff.rfl

theorem inLedger_setSale {x : Sale} :
    (s.setSale env x).stores.InLedger env u ↔ (x.reservations.hget u).isSome := by
  rw [inLedger_iff, sale_setSale]

/-! ## Purchases -/

/-- `purchase.lua` takes a unit for the user: the reservation is fresh, the sale is seeded and open,
the user is unknown to it and the stock is positive. -/
structure Buys (env : WorkerEnv) (s : Shared) (u id : String) : Prop where
  fresh : isUuid id ∧ pgUuid id = id ∧ ∀ c ∈ s.confirmed, c.reservationId ≠ id
  window : ∃ cfg, (s.sale env).config = some cfg ∧ cfg.startsAtMs ≤ s.stores.time.nowMs ∧
    (s.stores.time.nowMs : ℤ) < cfg.endsAtMs
  buyer : (s.sale env).buyers.sismember u = false
  entry : (s.sale env).reservations.hget u = none
  stock : 0 < (s.sale env).stock.getD 0

/-- There is a unit for the user: the user has no persisted row, and fewer users than there are
units hold one. -/
structure Free (env : WorkerEnv) (s : Shared) (u : String) : Prop where
  row : ¬ s.RowUser u
  unit : ((s.holders env).length : ℤ) < env.sale.totalStock

/-- A purchase takes a unit and writes an entry, or leaves the entries alone. -/
theorem purchase_buys (env : WorkerEnv) (s : Shared) (u id requestId : String) :
    (¬ s.Buys env u id ∧ ∃ x, s.purchase env u id requestId = s.setSale env x ∧
      (x = s.sale env ∨ ((s.sale env).buyers.sismember u || (s.sale env).reservations.hexists u) ∧
        x = { s.sale env with buyers := (s.sale env).buyers.sadd u })) ∨
    s.Buys env u id ∧ ∃ x, s.purchase env u id requestId = s.confirm env x u id requestId ∧
      ConfirmedPurchase (s.sale env) u id s.stores.time x := by
  by_cases hb : s.Buys env u id
  · obtain ⟨cfg, hcfg, hstart, hend⟩ := hb.window
    have hx : (FlashSale.purchase (s.sale env) u id s.stores.time).1.outcome = .confirmed := by
      have hmem : ((s.sale env).buyers.sismember u || (s.sale env).reservations.hexists u) =
          false := by
        rw [hb.buyer, Hash.hexists, hb.entry]
        rfl
      have hstock := hb.stock
      unfold FlashSale.purchase
      rw [hcfg]
      dsimp only
      have hleft : ¬ max (Number.ofInt ((s.sale env).stock.getD 0)) 0 ≤ 0 := by
        rw [max_le_iff, Number.ofInt_nonpos_iff]
        omega
      rw [if_neg (by omega), if_neg (by omega), hmem, if_neg (by simp), if_neg hleft]
    rcases FlashSale.purchase_cases (s.sale env) u id s.stores.time with ⟨hr, hp⟩ | ⟨hr, -⟩
    · refine .inr ⟨hb, _, ?_, hp⟩
      unfold purchase
      rw [if_pos hb.fresh]
      dsimp only
      rw [if_pos hx, hr]
      rfl
    · exact absurd hx hr
  · rcases s.purchase_inv env u id requestId with h | ⟨x, -, -, hp, hfresh⟩
    · exact .inl ⟨hb, h⟩
    · exact absurd ⟨hfresh, hp.window, hp.buyer, hp.ledger, hp.unit⟩ hb

theorem inLedger_confirm {x : Sale} (hp : ConfirmedPurchase (s.sale env) u id s.stores.time x) :
    (s.confirm env x u id requestId).stores.InLedger env v ↔
      v = u ∨ s.stores.InLedger env v := by
  have hsale : (s.confirm env x u id requestId).stores.InLedger env v ↔
      (x.reservations.hget v).isSome := inLedger_setSale
  rw [hsale, hp.keys, inLedger_iff]
  dsimp only
  rw [Hash.hget_hset]
  by_cases e : v = u <;> simp [e]

theorem mem_holders_confirm {x : Sale}
    (hp : ConfirmedPurchase (s.sale env) u id s.stores.time x) :
    v ∈ (s.confirm env x u id requestId).holders env ↔ v = u ∨ v ∈ s.holders env := by
  have hrow : (s.confirm env x u id requestId).RowUser v ↔ s.RowUser v := Iff.rfl
  rw [mem_holders, mem_holders, hrow, inLedger_confirm hp]
  tauto

/-! ## The invariant of a cold run -/

/-- What holds over a cold run in which every unit that is taken was free. -/
structure ColdInv (env : WorkerEnv) (s : Shared) : Prop where
  rows : ∀ row ∈ s.stores.db.orders, row.saleId = env.SALE_ID ∧ row.status = .persisted
  config : ∀ cfg, (s.sale env).config = some cfg → cfg = env.sale
  members : ∀ u, (s.sale env).buyers.sismember u = (s.sale env).reservations.hexists u
  jobs : ∀ st ∈ s.stores.queue.jobs, st.state ≠ .failed ∧
    ∀ p, assertOrdersQueueJobPayload st.job.data = .ok p → p.userId ∈ s.holders env
  distinct : s.stores.queue.Distinct
  adds : ∀ p ∈ s.adds, p.userId ∈ s.holders env
  confirmed : ∀ c ∈ s.confirmed, ¬ s.RowUser c.userId
  units : ((s.holders env).length : ℤ) ≤ env.sale.totalStock

/-- The rows stay, the ledger grows and a sale stays seeded. -/
structure ColdGrow (env : WorkerEnv) (s s' : Shared) : Prop where
  rows : s'.stores.db.orders = s.stores.db.orders
  kept : ∀ u, s.stores.InLedger env u → s'.stores.InLedger env u
  seeded : (s.sale env).config.isSome → (s'.sale env).config.isSome

theorem ColdGrow.refl (env : WorkerEnv) (s : Shared) : ColdGrow env s s :=
  ⟨rfl, fun _ h => h, fun h => h⟩

theorem ColdGrow.trans {s'' : Shared} (h : ColdGrow env s s') (h' : ColdGrow env s' s'') :
    ColdGrow env s s'' :=
  ⟨h'.rows.trans h.rows, fun u hu => h'.kept u (h.kept u hu), fun hc => h'.seeded (h.seeded hc)⟩

theorem ColdGrow.rowUser (h : ColdGrow env s s') : s'.RowUser u ↔ s.RowUser u := by
  unfold RowUser; rw [h.rows]

theorem ColdGrow.holders (h : ColdGrow env s s') (hu : u ∈ s.holders env) :
    u ∈ s'.holders env := by
  rw [mem_holders] at hu ⊢
  exact hu.imp h.rowUser.2 (h.kept u)

/-- What others do between two calls of the boot pass. -/
structure ColdRely (env : WorkerEnv) (s s' : Shared) : Prop extends ColdGrow env s s' where
  failed : ∀ id st, s.stores.queue.find id = some st → st.state = .failed →
    s'.stores.queue.find id = some st

theorem ColdRely.refl (env : WorkerEnv) (s : Shared) : ColdRely env s s :=
  ⟨.refl env s, fun _ _ h _ => h⟩

theorem ColdRely.trans {s'' : Shared} (h : ColdRely env s s') (h' : ColdRely env s' s'') :
    ColdRely env s s'' :=
  ⟨h.toColdGrow.trans h'.toColdGrow, fun id st hst hf => h'.failed id st (h.failed id st hst hf) hf⟩

/-- A step that leaves the rows, the keys, the jobs and the history alone. -/
theorem ColdInv.congr (h : s.ColdInv env) (s' : Shared)
    (hrows : s'.stores.db.orders = s.stores.db.orders)
    (hsale : s'.sale env = s.sale env) (hqueue : s'.stores.queue = s.stores.queue)
    (hadds : ∀ p ∈ s'.adds, p ∈ s.adds) (hconf : s'.confirmed = s.confirmed) :
    s'.ColdInv env ∧ ColdRely env s s' := by
  have hgrow : ColdGrow env s s' := by
    refine ⟨hrows, fun u hu => ?_, fun hc => ?_⟩
    · rw [inLedger_iff, hsale]
      exact hu
    · rwa [hsale]
  have hholders : s'.holders env = s.holders env := by
    unfold holders
    rw [hrows, hsale]
  refine ⟨⟨by rw [hrows]; exact h.rows, by rw [hsale]; exact h.config, by rw [hsale]; exact h.members,
    ?_, by rw [hqueue]; exact h.distinct, fun p hp => ?_, fun c hc => ?_, ?_⟩, hgrow,
    fun id st hst _ => by rw [hqueue]; exact hst⟩
  · rw [hqueue, hholders]
    exact h.jobs
  · rw [hholders]
    exact h.adds p (hadds p hp)
  · rw [hgrow.rowUser]
    rw [hconf] at hc
    exact h.confirmed c hc
  · rw [hholders]
    exact h.units

/-- The queue after an add or a removal, the keys and the history as they are. -/
theorem ColdInv.setQueue (h : s.ColdInv env) {q : JobQueue} (hq : q.Distinct)
    (hjobs : ∀ st ∈ q.jobs, st ∈ s.stores.queue.jobs ∨ st.state ≠ .failed ∧
      ∀ p, assertOrdersQueueJobPayload st.job.data = .ok p → p.userId ∈ s.holders env) :
    (s.setQueue q).ColdInv env where
  rows := h.rows
  config := h.config
  members := h.members
  jobs st hst := (hjobs st hst).elim (h.jobs st) fun h => h
  distinct := hq
  adds := h.adds
  confirmed := h.confirmed
  units := h.units

/-- The keys after a script that keeps every entry and writes none for a user without a unit. -/
theorem ColdInv.setSale (h : s.ColdInv env) {x : Sale}
    (hconfig : x.config = (s.sale env).config ∨ x.config = some env.sale)
    (hmembers : ∀ u, x.buyers.sismember u = x.reservations.hexists u)
    (hkept : ∀ u, ((s.sale env).reservations.hget u).isSome → (x.reservations.hget u).isSome)
    (hnew : ∀ u, (x.reservations.hget u).isSome → u ∈ s.holders env) :
    (s.setSale env x).ColdInv env ∧ ColdRely env s (s.setSale env x) := by
  have hgrow : ColdGrow env s (s.setSale env x) := by
    refine ⟨rfl, fun u hu => inLedger_setSale.2 (hkept u hu), fun hc => ?_⟩
    rw [sale_setSale]
    rcases hconfig with e | e
    · rwa [e]
    · rw [e]
      rfl
  have hback : ∀ u ∈ (s.setSale env x).holders env, u ∈ s.holders env := by
    intro u hu
    rcases mem_holders.1 hu with hr | hl
    · exact mem_holders.2 (.inl hr)
    · exact hnew u (inLedger_setSale.1 hl)
  have hlen := holders_length_le hback
  have hunits := h.units
  refine ⟨⟨h.rows, ?_, ?_, fun st hst => ⟨(h.jobs st hst).1, fun p hp =>
    hgrow.holders ((h.jobs st hst).2 p hp)⟩, h.distinct, fun p hp => hgrow.holders (h.adds p hp),
    h.confirmed, by omega⟩, hgrow, fun _ _ hst _ => hst⟩
  · rw [sale_setSale]
    rcases hconfig with e | e
    · rw [e]
      exact h.config
    · rw [e]
      exact fun cfg hc => (Option.some.inj hc).symm
  · rw [sale_setSale]; exact hmembers

/-- A script that leaves the entries alone. -/
theorem ColdInv.setSale_same (h : s.ColdInv env) {x : Sale}
    (hconfig : x.config = (s.sale env).config ∨ x.config = some env.sale)
    (hmembers : ∀ u, x.buyers.sismember u = x.reservations.hexists u)
    (hres : x.reservations = (s.sale env).reservations) :
    (s.setSale env x).ColdInv env ∧ ColdRely env s (s.setSale env x) :=
  h.setSale hconfig hmembers (fun u hu => by rw [hres]; exact hu)
    fun u hu => mem_holders.2 (.inr (by rw [hres] at hu; exact hu))

/-! ## Steps of the API -/

theorem ColdInv.seed (h : s.ColdInv env) :
    (s.setSale env (FlashSale.seed (s.sale env) env.sale env.sale.totalStock).2).ColdInv env ∧
      ColdRely env s
        (s.setSale env (FlashSale.seed (s.sale env) env.sale env.sale.totalStock).2) := by
  rcases seed_cases (s.sale env) env.sale env.sale.totalStock with ⟨-, -, e⟩ | ⟨-, -, e⟩
  · rw [e]
    exact h.setSale_same (.inr rfl) h.members rfl
  · rw [e]
    exact h.setSale_same (.inl rfl) h.members rfl

theorem members_sadd (h : s.ColdInv env)
    (hu : ((s.sale env).buyers.sismember u || (s.sale env).reservations.hexists u) = true)
    (v : String) :
    ((s.sale env).buyers.sadd u).sismember v = (s.sale env).reservations.hexists v := by
  rw [h.members, Bool.or_self] at hu
  rw [KeySet.sadd_of_sismember (by rw [h.members]; exact hu)]
  exact h.members v

/-- A purchase that finds a unit free. -/
theorem ColdInv.confirm (h : s.ColdInv env) (hf : s.Free env u) {x : Sale}
    (hp : ConfirmedPurchase (s.sale env) u id s.stores.time x) :
    (s.confirm env x u id requestId).ColdInv env ∧
      ColdRely env s (s.confirm env x u id requestId) := by
  have hsale : (s.confirm env x u id requestId).sale env = x := sale_setSale s x
  have hgrow : ColdGrow env s (s.confirm env x u id requestId) := by
    refine ⟨rfl, fun v hv => (inLedger_confirm hp).2 (.inr hv), fun hc => ?_⟩
    rw [hsale, hp.keys]
    exact hc
  have hu : u ∈ (s.confirm env x u id requestId).holders env :=
    (mem_holders_confirm hp).2 (.inl rfl)
  have hlen : ((s.confirm env x u id requestId).holders env).length ≤
      (u :: s.holders env).length :=
    holders_length_le fun v hv => List.mem_cons.2 ((mem_holders_confirm hp).1 hv)
  have hunit := hf.unit
  refine ⟨⟨h.rows, ?_, ?_, fun st hst => ⟨(h.jobs st hst).1, fun p hpay =>
    hgrow.holders ((h.jobs st hst).2 p hpay)⟩, h.distinct, ?_, ?_, ?_⟩, hgrow, fun _ _ hst _ => hst⟩
  · rw [hsale, hp.keys]
    exact h.config
  · intro v
    rw [hsale, hp.keys]
    dsimp only
    rw [KeySet.sismember_sadd, h.members, Hash.hexists, Hash.hexists, Hash.hget_hset]
    by_cases e : v = u <;> simp [e]
  · intro p hadd
    rcases List.mem_cons.1 hadd with rfl | hadd
    · exact hu
    rcases List.mem_cons.1 hadd with rfl | hadd
    · exact hu
    · exact hgrow.holders (h.adds p hadd)
  · intro c hc
    rcases List.mem_cons.1 hc with rfl | hc
    · exact hf.row
    · exact h.confirmed c hc
  · rw [List.length_cons] at hlen
    omega

theorem ColdInv.purchase (h : s.ColdInv env) (hfree : s.Buys env u id → s.Free env u) :
    (s.purchase env u id requestId).ColdInv env ∧
      ColdRely env s (s.purchase env u id requestId) := by
  rcases s.purchase_buys env u id requestId with ⟨-, x, e, hx⟩ | ⟨hb, x, e, hp⟩
  · rw [e]
    rcases hx with rfl | ⟨hu, rfl⟩
    · exact h.setSale_same (.inl rfl) h.members rfl
    · exact h.setSale_same (.inl rfl) (members_sadd h hu) rfl
  · rw [e]
    exact h.confirm (hfree hb) hp

theorem ColdInv.add (h : s.ColdInv env) (jobId name : String) {data : JsValue} (attempts : ℕ)
    (hdata : ∀ p, assertOrdersQueueJobPayload data = .ok p → p.userId ∈ s.holders env) :
    (s.setQueue (s.stores.queue.add jobId name data attempts)).ColdInv env ∧
      ColdRely env s (s.setQueue (s.stores.queue.add jobId name data attempts)) := by
  refine ⟨h.setQueue (h.distinct.add _ _ _ _) fun st hst => ?_, ⟨rfl, fun _ hl => hl, fun hc => hc⟩,
    fun id' st hst _ => ?_⟩
  · unfold JobQueue.add at hst
    split_ifs at hst
    · exact .inl hst
    · rcases List.mem_append.1 hst with hst | hst
      · exact .inl hst
      · rw [List.mem_singleton.1 hst]
        exact .inr ⟨by simp, hdata⟩
  · show (s.stores.queue.add jobId name data attempts).find id' = some st
    rw [JobQueue.find_add, if_neg]
    · exact hst
    · rintro ⟨rfl, hn⟩
      rw [hn] at hst
      cases hst

theorem ColdInv.enqueue (h : s.ColdInv env) {p : OrdersQueueJobPayload} (hp : p ∈ s.adds) :
    (s.enqueue p).ColdInv env ∧ ColdRely env s (s.enqueue p) := by
  unfold Shared.enqueue
  split
  · next q jobId hq hid =>
    obtain ⟨-, rfl⟩ := assertOrdersQueueJobPayload_toJs_ok hq
    refine h.add jobId _ _ fun q' hq' => ?_
    obtain ⟨-, rfl⟩ := assertOrdersQueueJobPayload_toJs_ok hq'
    exact h.adds _ hp
  · exact ⟨h, .refl env s⟩

/-! ## Calls of the boot pass -/

/-- What the boot pass guarantees before a call. -/
def ColdPre (env : WorkerEnv) : Call → Shared → Prop
  | .compensate _ _ _, _ | .sql _ _, _ => False
  | .seed saleId cfg stock, _ => saleId = env.SALE_ID ∧ cfg = env.sale ∧ stock = env.sale.totalStock
  | .compareRestore saleId u _ _, s => saleId = env.SALE_ID ∧ u ∈ s.holders env
  | .reconcileMembership saleId _, _ => saleId = env.SALE_ID
  | .reconcileState saleId, s =>
    saleId = env.SALE_ID ∧ (s.sale env).config.isSome ∧
      ∀ u, s.RowUser u → s.stores.InLedger env u
  | .addJob _ _ data _, s =>
    ∀ p, assertOrdersQueueJobPayload data = .ok p → p.userId ∈ s.holders env
  | _, _ => True

theorem ColdInv.compareRestore (h : s.ColdInv env) (hu : u ∈ s.holders env) (t : ℕ) :
    (s.setSale env (compareRestoreReservation (s.sale env) u id t).2).ColdInv env ∧
      ColdRely env s (s.setSale env (compareRestoreReservation (s.sale env) u id t).2) := by
  rcases compareRestoreReservation_cases (s.sale env) u id t with
    ⟨-, e⟩ | ⟨v, hv, ⟨-, e⟩ | ⟨-, e⟩⟩
  · rw [e]
    refine h.setSale (.inl rfl) (fun v => ?_) (fun v hv => ?_) fun v hv => ?_
    · dsimp only [Sale.restore]
      rw [KeySet.sismember_sadd, h.members, Hash.hexists, Hash.hexists, Hash.hget_hset]
      by_cases e : v = u <;> simp [e]
    · dsimp only [Sale.restore]
      rw [Hash.hget_hset]
      split_ifs
      · rfl
      · exact hv
    · dsimp only [Sale.restore] at hv
      rw [Hash.hget_hset] at hv
      split_ifs at hv with e
      · rw [e]; exact hu
      · exact mem_holders.2 (.inr hv)
  · rw [e]
    refine h.setSale_same (.inl rfl) (members_sadd h ?_) rfl
    rw [Hash.hexists, hv, Option.isSome_some, Bool.or_true]
  · rw [e]
    exact h.setSale_same (.inl rfl) h.members rfl

/-- **One call of the boot pass.** -/
theorem ColdInv.call (h : s.ColdInv env) {o : Call} {fault : Fault} {r : Except Failure o.Res}
    (hpre : ColdPre env o s) (hcall : s.call fault o = some (r, s')) :
    s'.ColdInv env ∧ ColdGrow env s s' := by
  have hself : s.ColdInv env ∧ ColdGrow env s s := ⟨h, .refl env s⟩
  by_cases hread : o.isRead = true
  · rw [call_read hread hcall]
    exact hself
  rcases call_cases hcall with ⟨r', t, hp, rfl, -⟩ | ⟨-, rfl, -⟩
  swap
  · exact hself
  have hkeys : ∀ {x : Sale}, (s.setSale env x).ColdInv env ∧ ColdRely env s (s.setSale env x) →
      (s.setSale env x).ColdInv env ∧ ColdGrow env s (s.setSale env x) :=
    fun hx => ⟨hx.1, hx.2.toColdGrow⟩
  have hframe : ∀ {t : Stores}, t.db.orders = s.stores.db.orders →
      t.sales env.SALE_ID = s.stores.sales env.SALE_ID → t.queue = s.stores.queue →
      ({ s with stores := t } : Shared).ColdInv env ∧ ColdGrow env s { s with stores := t } := by
    intro t hrows hsale hqueue
    have hc := h.congr { s with stores := t } hrows hsale hqueue (fun _ hp => hp) rfl
    exact ⟨hc.1, hc.2.toColdGrow⟩
  cases o with
  | compensate => exact hpre.elim
  | sql => exact hpre.elim
  | seed saleId cfg stock =>
    obtain ⟨rfl, rfl, rfl⟩ := hpre
    obtain ⟨-, rfl⟩ := Prod.mk.inj (Option.some.inj hp)
    exact hkeys h.seed
  | compareRestore saleId u id time =>
    obtain ⟨rfl, hu⟩ := hpre
    obtain ⟨-, rfl⟩ := Prod.mk.inj (Option.some.inj hp)
    exact hkeys (h.compareRestore hu time)
  | reconcileMembership saleId u =>
    obtain rfl := hpre
    obtain ⟨-, rfl⟩ := Prod.mk.inj (Option.some.inj hp)
    obtain ⟨hres, hcfg⟩ := reconcileMembership_keys (s.sale env) u
    refine hkeys (h.setSale_same (x := (reconcileMembership (s.sale env) u).2) (.inl hcfg)
      (fun v => ?_) hres)
    rw [sismember_reconcileMembership h.members u v, hres]
    exact h.members v
  | reconcileState saleId =>
    obtain ⟨rfl, -⟩ := hpre
    obtain ⟨-, rfl⟩ := Prod.mk.inj (Option.some.inj hp)
    obtain ⟨hres, hcfg, hbuyers⟩ := reconcileState_keys (s.sale env)
    refine hkeys (h.setSale_same (x := (reconcileState (s.sale env)).2) (.inl hcfg) ?_ hres)
    rw [hbuyers, hres]
    exact h.members
  | addJob jobId name data attempts =>
    obtain ⟨-, rfl⟩ := Prod.mk.inj (Option.some.inj hp)
    obtain ⟨hinv, hrely⟩ := h.add jobId name attempts hpre
    exact ⟨hinv, hrely.toColdGrow⟩
  | removeJob job =>
    obtain ⟨-, rfl⟩ := Prod.mk.inj (Option.some.inj hp)
    refine ⟨h.setQueue (q := (s.stores.queue.remove job.id).2) ?_ fun st hst => .inl ?_,
      ⟨rfl, fun _ hl => hl, fun hc => hc⟩⟩
    · rcases s.stores.queue.remove_cases job.id with e | ⟨-, e⟩
      · rw [e]; exact h.distinct
      · rw [e]; exact h.distinct.erase _
    · rcases s.stores.queue.remove_cases job.id with e | ⟨-, e⟩
      · rw [e] at hst; exact hst
      · rw [e] at hst; exact (List.mem_filter.1 hst).1
  | pause =>
    obtain ⟨-, rfl⟩ := Prod.mk.inj (Option.some.inj hp)
    exact ⟨h.setQueue (q := { s.stores.queue with paused := true }) h.distinct
      fun _ hst => .inl hst, ⟨rfl, fun _ hl => hl, fun hc => hc⟩⟩
  | insertSale row =>
    obtain ⟨-, rfl⟩ := Prod.mk.inj (Option.some.inj hp)
    split_ifs
    · exact hself
    · exact hframe rfl rfl rfl
  | setFailedScanOffset offset =>
    obtain ⟨-, rfl⟩ := Prod.mk.inj (Option.some.inj hp)
    exact hframe rfl rfl rfl
  | _ => exact absurd rfl hread

/-! ## The boot pass meets its guarantees -/

def coldLogic (env : WorkerEnv) : Logic Call Call.Res Failure Shared where
  rely := ColdRely env
  inv := ColdInv env
  pre := ColdPre env
  step o s r s' := ∃ fault, s.call fault o = some (r, s')
  refl := .refl env
  trans := .trans

/-- The rows of the sale in the order a scan reads them. -/
def saleOrders (env : WorkerEnv) (s : Shared) : List DurableOrder :=
  s.stores.db.orders.filter (·.saleId = env.SALE_ID)

/-- The assertions between the calls of the boot pass: past its first part the sale is seeded. No
job ever fails, so its sweep has nothing to do. -/
def coldOutline (env : WorkerEnv) : Outline Shared where
  ok s := (s.sale env).config.isSome
  grow := ColdGrow env
  scanned n rows s := rows = (saleOrders env s).take n
  rows rows s := rows = saleOrders env s
  looked job s :=
    ∀ p, assertOrdersQueueJobPayload job.data = .ok p → p.userId ∈ s.holders env
  stated _ _ _ := True
  entry e s := e.userId ∈ s.holders env
  swept jobs s := jobs = [] ∧ (s.sale env).config.isSome
  removable _ _ := True
  boot _ := True

theorem ColdGrow.saleOrders (h : ColdGrow env s s') : saleOrders env s' = saleOrders env s := by
  unfold Shared.saleOrders; rw [h.rows]

theorem mem_holders_of_row {row : DurableOrder} (hrow : row ∈ saleOrders env s)
    (hst : row.status = .persisted) : row.userId ∈ s.holders env :=
  mem_holders.2 (.inl ⟨row, (List.mem_filter.1 hrow).1, hst, rfl⟩)

theorem coldLogic_diff : DiffLogic env (coldLogic env) Shared.stores (coldOutline env) where
  step h := by
    obtain ⟨fault, h⟩ := h
    exact ⟨fault, call_stores h⟩
  growRely h _ := h.toColdGrow
  growStep _ hi _ hpre hstep _ := by
    obtain ⟨fault, hcall⟩ := hstep
    exact (ColdInv.call hi hpre hcall).2
  okMono _ _ h hg _ := hg.seeded h
  scannedMono n rows s s' h hg _ := by
    show rows = (saleOrders env s').take n
    rw [hg.saleOrders]
    exact h
  rowsMono rows s s' h hg _ := by
    show rows = saleOrders env s'
    rw [hg.saleOrders]
    exact h
  lookedMono job s s' h hg _ p hp := hg.holders (h p hp)
  statedMono _ _ _ _ _ _ _ := trivial
  entryMono entry s s' h hg _ := hg.holders h
  ledgerMono u s s' h hg _ := hg.kept u h
  scanStart s _ _ := List.take_zero.symm
  scanPage s n rows _ _ h := by
    show rows ++ ((saleOrders env s).drop n).take _ = (saleOrders env s).take (n + _)
    rw [show rows = (saleOrders env s).take n from h, List.take_add]
  scanEnd s n rows _ _ h hlen := by
    show rows ++ ((saleOrders env s).drop n).take _ = saleOrders env s
    have hlen : (((saleOrders env s).drop n).take env.WORKER_RECONCILE_SCAN_COUNT).length <
        env.WORKER_RECONCILE_SCAN_COUNT := hlen
    rw [List.length_take] at hlen
    have hrest : ((saleOrders env s).drop n).take env.WORKER_RECONCILE_SCAN_COUNT =
        (saleOrders env s).drop n := List.take_of_length_le (by omega)
    rw [show rows = (saleOrders env s).take n from h, hrest, List.take_append_drop]
  look s id job hi _ hjob := by
    obtain ⟨st, hst, rfl⟩ := Option.map_eq_some_iff.1 hjob
    exact (hi.jobs st (JobQueue.find_some hst).1).2
  lookState _ _ _ _ _ := trivial
  ledgerEntry s u v entry _ _ hv hp := by
    show entry.userId ∈ s.holders env
    rw [(parseReservationEntry_ok hp).1]
    exact mem_holders.2 (.inr (Option.isSome_iff_exists.2 ⟨v, hv⟩))
  notBuyerOnly s u hi _ := inspectMembership_ne_buyerOnly (hi.members u)
  readPre o s ho _ := by
    cases o <;> trivial
  restoreRowPre s rows row _ _ h hrow hst := by
    rw [show rows = saleOrders env s from h] at hrow
    exact ⟨rfl, mem_holders_of_row hrow hst⟩
  restoreJobPre s rows sj _ _ _ hl hc _ := ⟨rfl, hl _ (classifyQueueEntry_ok hc).2.1⟩
  addPre s entry p jobId _ _ he hp _ := by
    obtain ⟨-, rfl⟩ := assertOrdersQueueJobPayload_toJs_ok hp
    intro q hq
    obtain ⟨-, rfl⟩ := assertOrdersQueueJobPayload_toJs_ok hq
    exact he
  removePre _ _ _ _ _ _ _ _ _ _ := trivial
  membershipPre _ _ _ _ := rfl
  statePre s rows hi hseeded h hled := by
    refine ⟨rfl, hseeded, fun u hu => ?_⟩
    obtain ⟨row, hrow, hst, rfl⟩ := hu
    refine hled row ⟨?_, hst⟩
    rw [show rows = saleOrders env s from h]
    exact List.mem_filter.2 ⟨hrow, by simpa using (hi.rows row hrow).1⟩

/-- No job of a cold run is failed. -/
theorem ColdInv.find_ne_failed (h : s.ColdInv env) {id : String} {st : StoredJob}
    (hst : s.stores.queue.find id = some st) : st.state ≠ .failed :=
  (h.jobs st (JobQueue.find_some hst).1).1

theorem coldLogic_boot : BootLogic env (coldLogic env) Shared.stores (coldOutline env) where
  toDiffLogic := coldLogic_diff
  distinct _ hi := hi.distinct
  failedKept _ _ id st hr _ hst hf := hr.failed id st hst hf
  sweptNil _ _ h := ⟨rfl, h⟩
  sweptOk _ _ h := h.2
  sweptTail s job jobs h := by cases h.1
  sweptRely _ _ _ h hr _ := ⟨h.1, hr.seeded h.2⟩
  sweptRead jobs o s r s' ho hi h hstep _ := by
    obtain ⟨fault, hcall⟩ := hstep
    have hpre : ColdPre env o s := by
      rcases ho with ho | ⟨n, rfl⟩
      · exact coldLogic_diff.readPre o s ho hi
      · trivial
    exact ⟨h.1, (ColdInv.call hi hpre hcall).2.seeded h.2⟩
  sweptLook s jobs st hi _ hf hst _ := absurd hf (hi.find_ne_failed hst)
  offsetPre _ _ _ := trivial
  resolve s job jobs sj _ h _ := by cases h.1
  removableRely _ _ _ h _ _ := h
  sweepRemove s job jobs _ h _ := by cases h.1
  bootKept _ _ h _ _ := h
  bootPre o s ho hi _ := by
    cases ho with
    | read h => exact coldLogic_diff.readPre o s h hi
    | pause => trivial
    | insertSale => trivial
    | seed => exact ⟨rfl, rfl, rfl⟩
  bootStep _ _ _ _ _ _ h _ _ := h
  bootReady _ _ _ h := h
  okBoot _ _ := trivial

/-! ## After the rebuild -/

/-- The rows are restored and the stock is derived: the units in the stock belong to nobody. -/
structure Rebuilt (env : WorkerEnv) (s : Shared) : Prop where
  config : (s.sale env).config = some env.sale
  rows : ∀ u, s.RowUser u → s.stores.InLedger env u
  stock : (s.sale env).stock.getD 0 + (s.sale env).reservations.hlen ≤ env.sale.totalStock

/-- Then a unit that the script takes is free. -/
theorem Rebuilt.free (h : s.Rebuilt env) (hb : s.Buys env u id) : s.Free env u where
  row hu := by
    have hl := h.rows u hu
    rw [inLedger_iff, hb.entry] at hl
    cases hl
  unit := by
    have hle : (s.holders env).length ≤ (s.sale env).reservations.keys.length := by
      refine holders_length_le fun v hv => ?_
      have hl : s.stores.InLedger env v := (mem_holders.1 hv).elim (h.rows v) fun hl => hl
      exact Hash.mem_keys_iff.2 hl
    have hstock := h.stock
    have hunit := hb.stock
    unfold Hash.hlen at hstock
    omega

theorem Rebuilt.congr (h : s.Rebuilt env) (hrows : s'.stores.db.orders = s.stores.db.orders)
    (hconfig : (s'.sale env).config = (s.sale env).config)
    (hres : (s'.sale env).reservations = (s.sale env).reservations)
    (hstock : (s'.sale env).stock = (s.sale env).stock) : s'.Rebuilt env where
  config := hconfig.trans h.config
  rows u hu := by
    have hu : s.RowUser u := by
      unfold RowUser at hu ⊢
      rwa [hrows] at hu
    rw [inLedger_iff, hres]
    exact h.rows u hu
  stock := by
    rw [hstock, hres]
    exact h.stock

theorem Rebuilt.setSale (h : s.Rebuilt env) {x : Sale} (hconfig : x.config = (s.sale env).config)
    (hres : x.reservations = (s.sale env).reservations) (hstock : x.stock = (s.sale env).stock) :
    (s.setSale env x).Rebuilt env := by
  refine h.congr rfl ?_ ?_ ?_
  · rw [sale_setSale]; exact hconfig
  · rw [sale_setSale]; exact hres
  · rw [sale_setSale]; exact hstock

theorem Rebuilt.purchase (h : s.Rebuilt env) (u id requestId : String) :
    (s.purchase env u id requestId).Rebuilt env := by
  rcases s.purchase_buys env u id requestId with ⟨-, x, e, hx⟩ | ⟨hb, x, e, hp⟩
  · rw [e]
    rcases hx with rfl | ⟨-, rfl⟩
    · exact h.setSale rfl rfl rfl
    · exact h.setSale rfl rfl rfl
  · rw [e]
    have hsale : (s.confirm env x u id requestId).sale env = x := sale_setSale s x
    refine ⟨?_, fun v hv => (inLedger_confirm hp).2 (.inr (h.rows v hv)), ?_⟩
    · rw [hsale, hp.keys]
      exact h.config
    · have hstock := h.stock
      rw [hsale, hp.keys]
      dsimp only
      rw [Hash.hlen_hset_of_none hp.ledger]
      simp only [Option.getD_some]
      push_cast
      omega

/-- The stock that `reconcile-state.lua` derives is exact. -/
theorem ColdInv.rebuilt (h : s.ColdInv env) (hseeded : (s.sale env).config.isSome)
    (hrows : ∀ u, s.RowUser u → s.stores.InLedger env u) :
    (s.setSale env (reconcileState (s.sale env)).2).Rebuilt env := by
  obtain ⟨cfg, hcfg⟩ := Option.isSome_iff_exists.1 hseeded
  obtain rfl := h.config cfg hcfg
  have hle : (s.sale env).reservations.keys.length ≤ (s.holders env).length :=
    List.Nodup.length_le_of_subset (s.sale env).reservations.nodupKeys fun v hv =>
      mem_holders.2 (.inr (Hash.mem_keys_iff.1 hv))
  have hunits := h.units
  obtain ⟨hres, hconfig, -⟩ := reconcileState_keys (s.sale env)
  refine ⟨?_, fun v hv => inLedger_setSale.2 ?_, ?_⟩
  · rw [sale_setSale, hconfig]
    exact hcfg
  · rw [hres]
    exact hrows v hv
  · rw [sale_setSale, hres, reconcileState_of_safe hcfg env.totalStock_nonneg env.totalStock_safe]
    split_ifs with hover
    · unfold Hash.hlen at hover
      omega
    · simp

theorem Rebuilt.call (h : s.Rebuilt env) (hi : s.ColdInv env) {o : Call} {fault : Fault}
    {r : Except Failure o.Res} (hpre : ColdPre env o s) (hcall : s.call fault o = some (r, s')) :
    s'.Rebuilt env := by
  by_cases hread : o.isRead = true
  · rw [call_read hread hcall]
    exact h
  rcases call_cases hcall with ⟨r', t, hp, rfl, -⟩ | ⟨-, rfl, -⟩
  swap
  · exact h
  cases o with
  | compensate => exact hpre.elim
  | sql => exact hpre.elim
  | seed saleId cfg stock =>
    obtain ⟨rfl, rfl, rfl⟩ := hpre
    obtain ⟨-, rfl⟩ := Prod.mk.inj (Option.some.inj hp)
    refine h.setSale (x := (FlashSale.seed (s.sale env) env.sale env.sale.totalStock).2) ?_ ?_ ?_
    all_goals
      rcases seed_cases (s.sale env) env.sale env.sale.totalStock with ⟨hn, -⟩ | ⟨-, -, e⟩
      · exact absurd (hn.symm.trans h.config) (by simp)
      · rw [e]
  | compareRestore saleId u id time =>
    obtain ⟨rfl, hu⟩ := hpre
    obtain ⟨-, rfl⟩ := Prod.mk.inj (Option.some.inj hp)
    -- every holder has an entry, so none is written
    have hl : s.stores.InLedger env u := (mem_holders.1 hu).elim (h.rows u) fun hl => hl
    rcases compareRestoreReservation_cases (s.sale env) u id time with
      ⟨hn, -⟩ | ⟨v, -, ⟨-, e⟩ | ⟨-, e⟩⟩
    · rw [inLedger_iff, hn] at hl
      cases hl
    · exact h.setSale (x := (compareRestoreReservation (s.sale env) u id time).2) (by rw [e])
        (by rw [e]) (by rw [e])
    · exact h.setSale (x := (compareRestoreReservation (s.sale env) u id time).2) (by rw [e])
        (by rw [e]) (by rw [e])
  | reconcileMembership saleId u =>
    obtain rfl := hpre
    obtain ⟨-, rfl⟩ := Prod.mk.inj (Option.some.inj hp)
    obtain ⟨hres, hcfg⟩ := reconcileMembership_keys (s.sale env) u
    refine h.setSale (x := (reconcileMembership (s.sale env) u).2) hcfg hres ?_
    unfold reconcileMembership
    split_ifs <;> rfl
  | reconcileState saleId =>
    obtain ⟨rfl, hseeded, hrows⟩ := hpre
    obtain ⟨-, rfl⟩ := Prod.mk.inj (Option.some.inj hp)
    exact hi.rebuilt hseeded hrows
  | addJob =>
    obtain ⟨-, rfl⟩ := Prod.mk.inj (Option.some.inj hp)
    exact h.congr rfl rfl rfl rfl
  | removeJob =>
    obtain ⟨-, rfl⟩ := Prod.mk.inj (Option.some.inj hp)
    exact h.congr rfl rfl rfl rfl
  | pause =>
    obtain ⟨-, rfl⟩ := Prod.mk.inj (Option.some.inj hp)
    exact h.congr rfl rfl rfl rfl
  | insertSale row =>
    obtain ⟨-, rfl⟩ := Prod.mk.inj (Option.some.inj hp)
    split_ifs
    · exact h
    · exact h.congr rfl rfl rfl rfl
  | setFailedScanOffset =>
    obtain ⟨-, rfl⟩ := Prod.mk.inj (Option.some.inj hp)
    exact h.congr rfl rfl rfl rfl
  | _ => exact absurd rfl hread

end Shared

end FlashSale
