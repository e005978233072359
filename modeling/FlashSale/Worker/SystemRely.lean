import FlashSale.Worker.SystemSteps

/-!
# What the programs of the system rely on

`PassRely` is what the program under the session lock can count on while the others run, and
`AttemptRely c p` what the attempt `c` at the order `p` can. Every kind of step is within the relies
of the programs that do not take it.
-/

namespace FlashSale

open Redis

namespace Shared
variable {env : WorkerEnv} {s s' s'' : Shared} {clean : Prop} {p : OrdersQueueJobPayload} {c : ℕ}

/-! ## What a pass relies on -/

/-- What others do between two calls of the program under the session lock: they only add to the
ledger, and only reservations that are confirmed meanwhile; failed jobs stay, and a job with an old
number was there. -/
structure PassRely (env : WorkerEnv) (s s' : Shared) : Prop where
  db : Db.Rely 0 s.stores.db s'.stores.db
  kept : ∀ u v, (s.sale env).reservations.hget u = some v →
    (s'.sale env).reservations.hget u = some v
  fresh : ∀ u id t, s.Confirmed u id t → s'.ledger env u = some id → s.ledger env u = some id
  confirmed : s.confirmed ⊆ s'.confirmed
  seq : s.stores.queue.nextSeq ≤ s'.stores.queue.nextSeq
  origin : ∀ id st', s'.stores.queue.find id = some st' →
    (∃ st, s.stores.queue.find id = some st ∧ st.Continues st' ∧
      (st.state = .completed → st'.state = .completed)) ∨ s.stores.queue.nextSeq ≤ st'.job.seq
  failed : ∀ id st, s.stores.queue.find id = some st → st.state = .failed →
    s'.stores.queue.find id = some st
  release : s'.pendingRelease = s.pendingRelease

theorem origin_self (s : Shared) : ∀ id st', s.stores.queue.find id = some st' →
    (∃ st, s.stores.queue.find id = some st ∧ st.Continues st' ∧
      (st.state = .completed → st'.state = .completed)) ∨ s.stores.queue.nextSeq ≤ st'.job.seq :=
  fun _ st hst => .inl ⟨st, hst, .refl st, fun h => h⟩

/-- A step that leaves the entries, the jobs and the history alone. -/
theorem PassRely.of_frame (hdb : Db.Rely 0 s.stores.db s'.stores.db)
    (hres : (s'.sale env).reservations = (s.sale env).reservations)
    (hqueue : s'.stores.queue = s.stores.queue) (hconf : s'.confirmed = s.confirmed)
    (hrel : s'.pendingRelease = s.pendingRelease) : PassRely env s s' where
  db := hdb
  kept u v h := by rw [hres]; exact h
  fresh u id t _ h := by
    unfold ledger at *
    rwa [hres] at h
  confirmed := by rw [hconf]; exact fun _ h => h
  seq := by rw [hqueue]
  origin := by rw [hqueue]; exact s.origin_self
  failed := by rw [hqueue]; exact fun _ _ h _ => h
  release := hrel

theorem PassRely.refl (env : WorkerEnv) (s : Shared) : PassRely env s s :=
  .of_frame (.refl 0 _) rfl rfl rfl rfl

theorem PassRely.trans (h : PassRely env s s') (h' : PassRely env s' s'') :
    PassRely env s s'' where
  db := h.db.trans h'.db
  kept u v hv := h'.kept u v (h.kept u v hv)
  fresh u id t hc hl := h.fresh u id t hc (h'.fresh u id t (h.confirmed hc) hl)
  confirmed := fun _ hc => h'.confirmed (h.confirmed hc)
  seq := h.seq.trans h'.seq
  origin id st'' hst'' := by
    rcases h'.origin id st'' hst'' with ⟨st', hst', hc', hd'⟩ | hnew
    · rcases h.origin id st' hst' with ⟨st, hst, hc, hd⟩ | hnew
      · exact .inl ⟨st, hst, hc.trans hc', fun e => hd' (hd e)⟩
      · exact .inr (by rw [hc'.seq]; exact hnew)
    · exact .inr (h.seq.trans hnew)
  failed id st hst hf := h'.failed id st (h.failed id st hst hf) hf
  release := h'.release.trans h.release

theorem PassRely.turn {q : JobQueue} {token : Option ℕ} {New : StoredJob → Prop}
    (nextToken : ℕ) (ht : s.stores.queue.Turn q token (fun _ => False) New)
    (hnew : ∀ st, New st → s.stores.queue.nextSeq ≤ st.job.seq) :
    PassRely env s { s.setQueue q with nextToken } := by
  have h := PassRely.refl env s
  refine ⟨h.db, h.kept, h.fresh, h.confirmed, ht.seq, fun id st' hst' => ?_,
    fun id st hst hf => ht.failed id st hst hf (fun h => h), h.release⟩
  rcases ht.origin id st' hst' with ⟨st, hst, hc, hd, -⟩ | hn
  · exact .inl ⟨st, hst, hc, hd⟩
  · exact .inr (hnew st' hn)

theorem PassRely.confirm {x : Sale} {u id requestId : String} (hid : isUuid id = true)
    (hp : ConfirmedPurchase (s.sale env) u id s.stores.time x)
    (hfresh : ∀ c ∈ s.confirmed, c.reservationId ≠ id) :
    PassRely env s (s.confirm env x u id requestId) := by
  have h := PassRely.refl env s
  refine ⟨h.db, fun v val hv => ?_, fun v id' t hc hl => ?_, fun _ hc => List.mem_cons_of_mem _ hc,
    h.seq, h.origin, h.failed, h.release⟩
  · have hsale : (s.confirm env x u id requestId).sale env = x := sale_setSale s x
    rw [hsale, hp.keys]
    dsimp only
    rw [Hash.hget_hset_of_ne]
    · exact hv
    · rintro rfl
      rw [hp.ledger] at hv
      cases hv
  · rw [ledger_confirm hid hp] at hl
    split_ifs at hl
    · exact absurd (Option.some.inj hl).symm (hfresh _ hc)
    · exact hl

/-! ## What an attempt relies on -/

/-- The reservation of the attempt was found marked: while the attempt has the lock of its job, the
ledger does not name the reservation, and it stays marked until the user has another order. -/
def Marked (env : WorkerEnv) (c : ℕ) (p : OrdersQueueJobPayload) (s : Shared) : Prop :=
  (∃ st, s.slot env p.userId = some st ∧ st.lock = some c) →
    s.ledger env p.userId ≠ some p.reservationId ∧
      (s.stores.db.RowIs p.userId p.reservationId .compensated ∨
        ∃ id, s.stores.db.RowIs p.userId id .persisted ∧ s.ledger env p.userId = some id)

/-- What others do between two calls of the attempt `c` at the order `p`. -/
structure AttemptRely (env : WorkerEnv) (c : ℕ) (p : OrdersQueueJobPayload) (s s' : Shared) :
    Prop where
  db : Db.Rely c s.stores.db s'.stores.db
  confirmed : s.confirmed ⊆ s'.confirmed
  ledger : s.stores.db.Holds c p.reservationId →
    s.ledger env p.userId = some p.reservationId → s'.ledger env p.userId = some p.reservationId
  marked : Marked env c p s → Marked env c p s'
  locks : ∀ st', s'.slot env p.userId = some st' → st'.lock = some c →
    ∃ st, s.slot env p.userId = some st ∧ st.lock = some c ∧ st.Continues st'

theorem AttemptRely.refl (env : WorkerEnv) (c : ℕ) (p : OrdersQueueJobPayload) (s : Shared) :
    AttemptRely env c p s s :=
  ⟨.refl c _, fun _ h => h, fun _ h => h, fun h => h, fun st hst hl => ⟨st, hst, hl, .refl st⟩⟩

theorem AttemptRely.trans (h : AttemptRely env c p s s') (h' : AttemptRely env c p s' s'') :
    AttemptRely env c p s s'' :=
  ⟨h.db.trans h'.db, fun _ hc => h'.confirmed (h.confirmed hc),
    fun hk hl => h'.ledger (h.db.holds.2 hk) (h.ledger hk hl), fun hm => h'.marked (h.marked hm),
    fun st'' hst'' hl'' => by
      obtain ⟨st', hst', hl', hc'⟩ := h'.locks st'' hst'' hl''
      obtain ⟨st, hst, hl, hc⟩ := h.locks st' hst' hl'
      exact ⟨st, hst, hl, hc.trans hc'⟩⟩

/-- A step that leaves the entries, the rows and the jobs alone. -/
theorem AttemptRely.of_frame (hdb : Db.Rely c s.stores.db s'.stores.db)
    (horders : s'.stores.db.orders = s.stores.db.orders)
    (hres : (s'.sale env).reservations = (s.sale env).reservations)
    (hqueue : s'.stores.queue = s.stores.queue) (hconf : s'.confirmed = s.confirmed) :
    AttemptRely env c p s s' := by
  have hled : ∀ u, s'.ledger env u = s.ledger env u := fun u => by
    unfold Shared.ledger; rw [hres]
  have hslots : ∀ u, s'.slot env u = s.slot env u := fun u => by
    unfold slot; rw [hqueue]
  refine ⟨hdb, by rw [hconf]; exact fun _ h => h, fun _ h => (hled _).trans h, fun hm hslot => ?_,
    fun st hst hl => ⟨st, (hslots _).symm.trans hst, hl, .refl st⟩⟩
  rw [hslots] at hslot
  have hrow : ∀ u id st, s'.stores.db.RowIs u id st ↔ s.stores.db.RowIs u id st := fun u id st =>
    Db.rowIs_congr (by unfold Db.row?; rw [horders])
  simp only [hled, hrow]
  exact hm hslot

theorem AttemptRely.turn {q : JobQueue} {token : Option ℕ} {Gone : String → Prop}
    {New : StoredJob → Prop} (nextToken : ℕ) (ht : s.stores.queue.Turn q token Gone New)
    (htoken : token ≠ some c) (hnew : ∀ st, New st → st.lock = none) :
    AttemptRely env c p s { s.setQueue q with nextToken } := by
  have h := AttemptRely.refl env c p s
  have hlocks : ∀ st', q.find (env.jobId p.userId) = some st' → st'.lock = some c →
      ∃ st, s.slot env p.userId = some st ∧ st.lock = some c ∧ st.Continues st' := by
    intro st' hst' hlock
    rcases ht.origin _ st' hst' with ⟨st, hst, hc, -, hl⟩ | hn
    · exact ⟨st, hst, (hl c hlock).2.resolve_left htoken, hc⟩
    · rw [hnew st' hn] at hlock
      cases hlock
  refine ⟨h.db, h.confirmed, h.ledger, fun hm => ?_, hlocks⟩
  rintro ⟨st', hst', hlock⟩
  obtain ⟨st, hst, hl, -⟩ := hlocks st' hst' hlock
  exact hm ⟨st, hst, hl⟩

theorem AttemptRely.confirm {x : Sale} {u id requestId : String}
    (hpay : GoodPayload env s.confirmed p) (hid : isUuid id = true)
    (hp : ConfirmedPurchase (s.sale env) u id s.stores.time x)
    (hfresh : ∀ c ∈ s.confirmed, c.reservationId ≠ id) :
    AttemptRely env c p s (s.confirm env x u id requestId) := by
  have h := AttemptRely.refl env c p s
  have hled : ∀ v, (s.confirm env x u id requestId).ledger env v =
      if v = u then some id else s.ledger env v := ledger_confirm hid hp
  have hkept : ∀ v id', s.ledger env v = some id' → v ≠ u := by
    rintro v id' hv rfl
    rw [ledger_eq_none.2 hp.ledger] at hv
    cases hv
  refine ⟨h.db, fun _ hc => List.mem_cons_of_mem _ hc, fun _ hl => ?_, fun hm hslot => ?_, h.locks⟩
  · rw [hled, if_neg (hkept _ _ hl)]
    exact hl
  · obtain ⟨hne, hrow⟩ := hm hslot
    constructor
    · rw [hled]
      split_ifs
      · exact fun e => hfresh _ hpay.confirmed (Option.some.inj e).symm
      · exact hne
    · refine hrow.imp_right ?_
      rintro ⟨id', hrow, hl⟩
      refine ⟨id', hrow, ?_⟩
      rw [hled, if_neg (hkept _ _ hl)]
      exact hl

/-- A restore of an unmarked reservation. -/
theorem AttemptRely.compareRestore {u id : String} {t : ℕ} (h : s.Inv env)
    (hg : RestoreGuard env clean s u id t) :
    AttemptRely env c p s
      (s.setSale env (compareRestoreReservation (s.sale env) u id t).2) := by
  have hid := (h.ids _ hg.confirmed).1
  rcases compareRestoreReservation_cases (s.sale env) u id t with ⟨hn, e⟩ | ⟨v, hv, ⟨-, e⟩ | ⟨-, e⟩⟩
  · rw [e]
    have hled : ∀ v, (s.setSale env ((s.sale env).restore u id t)).ledger env v =
        if v = u then some id else s.ledger env v := fun v => ledger_restore hid u v t
    have hkept : ∀ v id', s.ledger env v = some id' → v ≠ u := by
      rintro v id' hv rfl
      rw [ledger_eq_none.2 hn] at hv
      cases hv
    refine ⟨.refl c _, fun _ h => h, fun _ hl => ?_, fun hm hslot => ?_,
      (AttemptRely.refl env c p s).locks⟩
    · rw [hled, if_neg (hkept _ _ hl)]
      exact hl
    · obtain ⟨hne, hrow⟩ := hm hslot
      rcases hrow with hrow | ⟨id', hrow, hl⟩
      · refine ⟨?_, .inl hrow⟩
        rw [hled]
        split_ifs with hu
        · rintro ⟨⟩
          rw [hu] at hrow
          exact hg.unmarked hrow
        · exact hne
      · have hsame := (hled p.userId).trans (if_neg (hkept _ _ hl))
        rw [hsame]
        exact ⟨hne, .inr ⟨id', hrow, hl⟩⟩
  · rw [e]
    exact .of_frame (.refl c _) rfl (by rw [sale_setSale]) rfl rfl
  · rw [e, setSale_self]
    exact .refl env c p s

theorem AttemptRely.compensate {u id : String} (h : s.Inv env) (hc : c ≠ 0)
    (hg : s.ledger env u = some id → CompensateGuard env clean s u id) :
    AttemptRely env c p s ((s.note (.compensate env.SALE_ID u id)).setSale env
      (FlashSale.compensate (s.sale env) u id).2) := by
  rcases compensate_inv h u id with ⟨-, hx, hnote⟩ | ⟨hl, hres, -, -, hnote⟩
  · rw [hnote, hx, setSale_self]
    exact .refl env c p s
  have hg := hg hl
  rw [hnote]
  have hled : ∀ v, (Shared.setSale { s with
        released := (u, id) :: s.released
        pendingRelease := if (s.stores.db.tx? 0).isSome then some (u, id) else s.pendingRelease } env
        (FlashSale.compensate (s.sale env) u id).2).ledger env v =
      if v = u then none else s.ledger env v := by
    intro v
    rw [ledger_setSale, hres, Hash.hget_hdel]
    split_ifs
    · rfl
    · rfl
  refine ⟨.refl c _, fun _ h => h, fun hk hl' => ?_, fun hm hslot => ?_,
    (AttemptRely.refl env c p s).locks⟩
  · rw [hled, if_neg]
    · exact hl'
    · rintro rfl
      obtain rfl := Option.some.inj (hl.symm.trans hl')
      exact hc (h.repo.wf.holds_unique hk hg.key)
  · obtain ⟨hne, hrow⟩ := hm hslot
    rw [hled]
    refine ⟨?_, hrow.imp_right ?_⟩
    · split_ifs
      · simp
      · exact hne
    · rintro ⟨id', hrow, hl'⟩
      refine ⟨id', hrow, ?_⟩
      rw [if_neg]
      · exact hl'
      · rintro rfl
        obtain rfl := Option.some.inj (hl.symm.trans hl')
        exact hg.row hrow

/-- A statement of another client. -/
theorem AttemptRely.sql {d : ℕ} {stm : Statement} {r : Except Failure stm.Res} {db : Db}
    (h : s.Inv env) (he : s.stores.db.exec d stm = some (r, db)) (hcd : c ≠ d)
    (release : Option (String × String)) :
    AttemptRely env c p s (Shared.setDb { s with pendingRelease := release } db) := by
  refine ⟨.exec h.repo he hcd, fun _ h => h, fun _ hl => hl, fun hm hslot => ?_,
    (AttemptRely.refl env c p s).locks⟩
  obtain ⟨hne, hrow⟩ := hm hslot
  refine ⟨hne, ?_⟩
  rcases h.repo.wf.row?_exec he p.userId with e | ⟨rfl, w, hw, hu, hrow'⟩
  · rw [show ((Shared.setDb { s with pendingRelease := release } db).stores.db) = db from rfl]
    simp only [Db.rowIs_congr e]
    exact hrow
  · rcases hrow with hrow | ⟨id', hrow, hl⟩
    · by_cases hd : d = 0
      · -- a marker of the user is that of its failed job, but its job is locked
        subst hd
        obtain ⟨st, hst, hf, -⟩ := (h.marker w hw).2
        obtain ⟨st', hst', hlock⟩ := hslot
        rw [← hu] at hst
        obtain rfl := Option.some.inj (hst.symm.trans hst')
        have ha := h.locked _ st c hst hlock
        rw [hf] at ha
        cases ha
      · refine .inr ⟨w.row.id, ⟨w.row, hrow', rfl, h.repo.persists d w hd hw⟩, ?_⟩
        obtain ⟨tx, htx, htw⟩ := Db.exists_tx_of_pending hw
        obtain ⟨row, hr, -⟩ := hrow
        cases w with
        | insert row' =>
          have hn := (h.repo.wf.txs d tx htx).inserted row' htw
          rw [hu] at hr
          cases hn.symm.trans hr
        | update row' =>
          rw [hu]
          exact h.promotes d row' hd hw
    · obtain ⟨row, hr, hid, hst⟩ := hrow
      have hk := (Db.Evolves.exec h.repo.wf he).keeps _ row hr hst
      exact .inr ⟨id', ⟨row, hk, hid, hst⟩, hl⟩

end Shared
end FlashSale
