import FlashSale.Worker.RepositoryLogic

/-!
# Persisted orders over every interleaving of the repository

Any number of `persist` calls, each on a connection of its own, run beside one `resolveFailed` call
at a time (client `0`), statement by statement; Redis changes at will. A statement can fail before
or after it took effect, and a call can die at any point, which rolls its transaction back.
-/

namespace FlashSale

open Prog (Logic)

/-- A running call of `persist`. -/
structure PersistCall where
  payload : OrdersQueueJobPayload
  rest : WorkerM PersistResult

/-- A running call of `resolveFailed`. -/
structure ResolveCall where
  payload : OrdersQueueJobPayload
  rest : WorkerM ResolveFailedResult

structure RepositorySystem where
  stores : Stores
  persists : ℕ → Option PersistCall
  resolver : Option ResolveCall

inductive RepositoryEvent where
  /-- Somebody changes Redis. -/
  | redis (sales : String → Sale)
  | persist (client : ℕ) (payload : OrdersQueueJobPayload)
  | persistStep (client : ℕ) (fault : Fault)
  | persistReturn (client : ℕ)
  | persistAbort (client : ℕ)
  | resolve (payload : OrdersQueueJobPayload)
  | resolveStep (fault : Fault)
  | resolveReturn
  | resolveAbort

namespace RepositorySystem

/-- One event; an event that is not possible does nothing. -/
def step (w : RepositorySystem) : RepositoryEvent → RepositorySystem
  | .redis sales => { w with stores := { w.stores with sales } }
  | .persist client payload =>
    if client = 0 ∨ (w.persists client).isSome then w
    else { w with persists :=
      Function.update w.persists client (some ⟨payload, FlashSale.persist client payload⟩) }
  | .persistStep client fault =>
    match w.persists client with
    | some ⟨payload, .op o k⟩ =>
      match w.stores.performWith fault o with
      | some (r, stores) =>
        { w with
          stores
          persists := Function.update w.persists client (some ⟨payload, k r⟩) }
      | none => w
    | _ => w
  | .persistReturn client =>
    match w.persists client with
    | some ⟨_, .op _ _⟩ => w
    | _ => { w with persists := Function.update w.persists client none }
  | .persistAbort client =>
    if client = 0 then w
    else { w with
      stores := { w.stores with db := w.stores.db.endTx client }
      persists := Function.update w.persists client none }
  | .resolve payload =>
    match w.resolver with
    | some _ => w
    | none => { w with resolver := some ⟨payload, resolveFailed 0 payload
        (Store.compensate payload.saleId payload.userId payload.reservationId)⟩ }
  | .resolveStep fault =>
    match w.resolver with
    | some ⟨payload, .op o k⟩ =>
      match w.stores.performWith fault o with
      | some (r, stores) => { w with stores, resolver := some ⟨payload, k r⟩ }
      | none => w
    | _ => w
  | .resolveReturn =>
    match w.resolver with
    | some ⟨_, .op _ _⟩ => w
    | _ => { w with resolver := none }
  | .resolveAbort =>
    { w with
      stores := { w.stores with db := w.stores.db.endTx 0 }
      resolver := none }

def run (w : RepositorySystem) (es : List RepositoryEvent) : RepositorySystem := es.foldl step w

/-- No call is running, no transaction is open and no user has two rows. -/
structure Idle (w : RepositorySystem) : Prop where
  users : (w.stores.db.orders.map (·.userId)).Nodup
  txs : w.stores.db.txs = ∅
  persists : w.persists = fun _ => none
  resolver : w.resolver = none

end RepositorySystem

/-- The reservation id of a call is in canonical lower case. -/
def RepositoryEvent.Canonical : RepositoryEvent → Prop
  | .persist _ payload | .resolve payload => pgUuid payload.reservationId = payload.reservationId
  | _ => True

/-- The reservation id of a call belongs to its user. -/
def RepositoryEvent.Owned (owner : String → String) : RepositoryEvent → Prop
  | .persist _ payload | .resolve payload => owner payload.reservationId = payload.userId
  | _ => True

/-! ## The logics of the two programs -/

/-- What can happen in a call. -/
def CallStep (o : Call) (s : Stores) (r : Except Failure o.Res) (s' : Stores) : Prop :=
  ∃ fault, s.performWith fault o = some (r, s')

/-- The guarantee of a `persist` call of client `c`. -/
def PersistPre (p : OrdersQueueJobPayload) (c : ℕ) (o : Call) (s : Stores) : Prop :=
  (∃ stm, o = .sql c stm ∧ PersistStatement p stm ∧ s.db.SqlPre c stm) ∨
    ∃ saleId u, o = .hget saleId u

def persistLogic (p : OrdersQueueJobPayload) (c : ℕ) : Logic Call Call.Res Failure Stores where
  rely s s' := Db.Rely c s.db s'.db
  inv s := s.db.RepoInv
  pre := PersistPre p c
  step := CallStep
  refl s := .refl c s.db
  trans h h' := h.trans h'

/-- The guarantee of a `resolveFailed` call. -/
def ResolvePre (p : OrdersQueueJobPayload) (o : Call) (s : Stores) : Prop :=
  (∃ stm, o = .sql 0 stm ∧ ResolveStatement p stm ∧ s.db.SqlPre 0 stm) ∨
    o = .compensate p.saleId p.userId p.reservationId ∧
      ¬ s.db.RowIs p.userId p.reservationId .persisted

def resolveLogic (p : OrdersQueueJobPayload) : Logic Call Call.Res Failure Stores where
  rely s s' := Db.Rely 0 s.db s'.db
  inv s := s.db.RepoInv
  pre := ResolvePre p
  step := CallStep
  refl s := .refl 0 s.db
  trans h h' := h.trans h'

theorem persistLogic_spec {p : OrdersQueueJobPayload} {c : ℕ} (hc : c ≠ 0)
    (hp : pgUuid p.reservationId = p.reservationId) :
    PersistLogic p (persistLogic p c) id c (fun _ => True) (fun _ => True) where
  rely h := h
  inv h := h
  step h := h
  client := hc
  canonical := hp
  sqlPre _ stm _ hstm hpre _ := .inl ⟨stm, rfl, hstm, hpre⟩
  hgetPre _ _ := .inr ⟨_, _, rfl⟩
  ledger _ _ _ _ _ _ _ := trivial
  ledgerRely _ _ _ _ _ _ := trivial
  ledgerHget _ _ _ _ _ := trivial
  marked _ _ _ := trivial
  markedRely _ _ _ _ _ := trivial

theorem resolveLogic_spec {p : OrdersQueueJobPayload}
    (hp : pgUuid p.reservationId = p.reservationId) :
    ResolveLogic p (resolveLogic p) id (fun _ => True) (fun _ => True) (fun _ => True) where
  rely h := h
  inv h := h
  step h := h
  canonical := hp
  frameRely _ _ _ _ _ := trivial
  frameSql _ _ _ _ _ _ := trivial
  frameComp _ _ _ _ _ _ _ := trivial
  goneRely _ _ _ _ _ := trivial
  goneSql _ _ _ _ _ _ := trivial
  gone _ _ _ _ _ _ _ := trivial
  marked _ _ _ _ := trivial
  quietRely _ _ _ _ _ := trivial
  quietStart _ _ _ := trivial
  quietSql _ _ _ _ _ _ := trivial
  quietComp _ _ _ _ _ _ _ _ _ _ _ := trivial
  sqlPre _ stm _ _ hstm hpre _ _ := .inl ⟨stm, rfl, hstm, hpre⟩
  compOpen _ _ _ _ hrow := .inr ⟨rfl, hrow⟩
  compClosed _ _ _ _ hrow := .inr ⟨rfl, hrow⟩

/-- What a finished `persist` call leaves. -/
def PersistPost (p : OrdersQueueJobPayload) (c : ℕ) (r : Except Failure PersistResult)
    (s : Stores) : Prop :=
  s.db.tx? c = none ∧ ∀ a, r = .ok a → PersistDone p s.db True a

/-- What a finished `resolveFailed` call leaves. -/
def ResolvePost (p : OrdersQueueJobPayload) (r : Except Failure ResolveFailedResult) (s : Stores) :
    Prop :=
  s.db.tx? 0 = none ∧ ∀ a, r = .ok a → ResolveDone p (fun _ => True) s.db s a

/-! ## The invariant -/

structure RepositorySystem.Inv (w : RepositorySystem) : Prop where
  db : w.stores.db.RepoInv
  persists : ∀ c call, w.persists c = some call → c ≠ 0 ∧
    call.rest.wp (persistLogic call.payload c) (PersistPost call.payload c) w.stores
  idle : ∀ c, c ≠ 0 → w.persists c = none → w.stores.db.tx? c = none
  resolver : ∀ call, w.resolver = some call →
    call.rest.wp (resolveLogic call.payload) (ResolvePost call.payload) w.stores
  resolverIdle : w.resolver = none → w.stores.db.tx? 0 = none

/-- Client `c` acted: the invariant of the transactions holds and the others can rely on it. -/
structure Acted (c : ℕ) (s s' : Stores) : Prop where
  inv : s'.db.RepoInv
  rely : ∀ d, d ≠ c → Db.Rely d s.db s'.db

theorem acted_of_db_eq {c : ℕ} {s s' : Stores} (h : s.db.RepoInv) (e : s'.db = s.db) :
    Acted c s s' :=
  ⟨by rw [e]; exact h, fun d _ => by rw [e]; exact .refl d s.db⟩

theorem acted_exec {c : ℕ} {s s' : Stores} {stm : Statement} {r : Except Failure stm.Res}
    (h : s.db.RepoInv) (hpre : s.db.SqlPre c stm) (he : s.db.exec c stm = some (r, s'.db)) :
    Acted c s s' :=
  ⟨h.exec hpre he, fun _ hd => .exec h he hd⟩

theorem acted_sql {c : ℕ} {s s' : Stores} {stm : Statement} {r : Except Failure stm.Res}
    {fault : Fault} (h : s.db.RepoInv) (hpre : s.db.SqlPre c stm)
    (hp : s.performWith fault (.sql c stm) = some (r, s')) : Acted c s s' := by
  rcases Stores.performWith_cases hp with ⟨r', hp, -⟩ | ⟨-, rfl, -⟩
  · obtain ⟨⟨r'', db'⟩, he, e⟩ := Option.map_eq_some_iff.1 hp
    obtain ⟨-, rfl⟩ := Prod.mk.inj e
    exact acted_exec h hpre he
  · exact acted_of_db_eq h rfl

theorem acted_endTx {c : ℕ} {s : Stores} (h : s.db.RepoInv) :
    Acted c s { s with db := s.db.endTx c } :=
  @acted_exec c s _ .rollback (.ok ()) h trivial rfl

theorem acted_persist {p : OrdersQueueJobPayload} {c : ℕ} {s s' : Stores} {o : Call}
    {r : Except Failure o.Res} {fault : Fault} (h : s.db.RepoInv) (hpre : PersistPre p c o s)
    (hp : s.performWith fault o = some (r, s')) : Acted c s s' := by
  rcases hpre with ⟨stm, rfl, -, hsql⟩ | ⟨saleId, u, rfl⟩
  · exact acted_sql h hsql hp
  · exact acted_of_db_eq h (by rw [(Stores.performWith_read rfl hp).1])

theorem acted_resolve {p : OrdersQueueJobPayload} {s s' : Stores} {o : Call}
    {r : Except Failure o.Res} {fault : Fault} (h : s.db.RepoInv) (hpre : ResolvePre p o s)
    (hp : s.performWith fault o = some (r, s')) : Acted 0 s s' := by
  rcases hpre with ⟨stm, rfl, -, hsql⟩ | ⟨rfl, -⟩
  · exact acted_sql h hsql hp
  · refine acted_of_db_eq h ?_
    rcases Stores.performWith_cases hp with ⟨r', hp, -⟩ | ⟨-, rfl, -⟩
    · rw [← (Prod.mk.inj (Option.some.inj hp)).2]
      rfl
    · rfl

namespace RepositorySystem

theorem Idle.inv {w : RepositorySystem} (h : w.Idle) : w.Inv := by
  have htx : ∀ c, w.stores.db.tx? c = none := fun c => by
    unfold Db.tx?; rw [h.txs]; rfl
  refine ⟨.idle h.users htx, ?_, fun c _ _ => htx c, ?_, fun _ => htx 0⟩
  · intro c call hc; rw [h.persists] at hc; cases hc
  · intro call hc; rw [h.resolver] at hc; cases hc

/-- Everything but the acting client goes on as before. -/
theorem Inv.persists_others {w : RepositorySystem} (h : w.Inv) {c : ℕ} {s' : Stores}
    (ha : Acted c w.stores s') {d : ℕ} {call : PersistCall} (hd : d ≠ c)
    (hcall : w.persists d = some call) : d ≠ 0 ∧
      call.rest.wp (persistLogic call.payload d) (PersistPost call.payload d) s' :=
  ⟨(h.persists d call hcall).1, Prog.wp_rely (h.persists d call hcall).2 (ha.rely d hd)⟩

theorem Inv.idle_others {w : RepositorySystem} (h : w.Inv) {c : ℕ} {s' : Stores}
    (ha : Acted c w.stores s') {d : ℕ} (hd : d ≠ c) (h0 : d ≠ 0) (hnone : w.persists d = none) :
    s'.db.tx? d = none := by
  rw [(ha.rely d hd).tx]; exact h.idle d h0 hnone

/-- A `persist` client acted and goes on with `next`. -/
theorem Inv.of_persist {w : RepositorySystem} (h : w.Inv) {c : ℕ} (hc : c ≠ 0) {s' : Stores}
    (ha : Acted c w.stores s') (next : Option PersistCall)
    (hnext : ∀ call, next = some call →
      call.rest.wp (persistLogic call.payload c) (PersistPost call.payload c) s')
    (hidle : next = none → s'.db.tx? c = none) :
    Inv { w with stores := s', persists := Function.update w.persists c next } := by
  refine ⟨ha.inv, fun d call hd => ?_, fun d h0 hd => ?_, fun call hcall => ?_, fun hn => ?_⟩
  · by_cases e : d = c
    · subst e
      exact ⟨hc, hnext call (by simpa using hd)⟩
    · exact h.persists_others ha e (by simpa [e] using hd)
  · by_cases e : d = c
    · subst e
      exact hidle (by simpa using hd)
    · exact h.idle_others ha e h0 (by simpa [e] using hd)
  · exact Prog.wp_rely (h.resolver call hcall) (ha.rely 0 (Ne.symm hc))
  · show s'.db.tx? 0 = none
    rw [(ha.rely 0 (Ne.symm hc)).tx]; exact h.resolverIdle hn

/-- The resolver acted and goes on with `next`. -/
theorem Inv.of_resolve {w : RepositorySystem} (h : w.Inv) {s' : Stores} (ha : Acted 0 w.stores s')
    (next : Option ResolveCall)
    (hnext : ∀ call, next = some call →
      call.rest.wp (resolveLogic call.payload) (ResolvePost call.payload) s')
    (hidle : next = none → s'.db.tx? 0 = none) :
    Inv { w with stores := s', resolver := next } :=
  ⟨ha.inv, fun d call hd => h.persists_others ha (h.persists d call hd).1 hd,
    fun _ h0 hd => h.idle_others ha h0 h0 hd, hnext, hidle⟩

/-- **One event** keeps the invariant. -/
theorem Inv.step {w : RepositorySystem} (h : w.Inv) {e : RepositoryEvent} (he : e.Canonical) :
    (w.step e).Inv := by
  cases e with
  | redis sales =>
    exact ⟨h.db, fun c call hc => ⟨(h.persists c call hc).1,
      Prog.wp_rely (h.persists c call hc).2 (Db.Rely.refl c w.stores.db)⟩, h.idle,
      fun call hc => Prog.wp_rely (h.resolver call hc) (Db.Rely.refl 0 w.stores.db),
      h.resolverIdle⟩
  | persist c p =>
    simp only [RepositorySystem.step]
    split_ifs with hc
    · exact h
    · simp only [not_or, Option.not_isSome_iff_eq_none] at hc
      refine h.of_persist hc.1 (acted_of_db_eq h.db rfl) _ ?_ (by simp)
      rintro _ ⟨⟩
      exact wp_persist (persistLogic_spec hc.1 he) (h.idle c hc.1 hc.2)
  | persistStep c fault =>
    simp only [RepositorySystem.step]
    split
    · next p o k hcall =>
      obtain ⟨hc, hwp⟩ := h.persists c _ hcall
      obtain ⟨hpre, hk⟩ := hwp w.stores (.refl c _) h.db
      split
      · next r s' hp =>
        have ha := acted_persist h.db hpre hp
        refine h.of_persist hc ha _ ?_ (by simp)
        rintro _ ⟨⟩
        exact hk r s' ⟨fault, hp⟩ ha.inv
      · exact h
    · exact h
  | persistReturn c =>
    simp only [RepositorySystem.step]
    split
    · exact h
    · next hne =>
      by_cases hc : c = 0
      · subst hc
        have hnone : w.persists 0 = none := by
          cases hp : w.persists 0 with
          | none => rfl
          | some call => exact absurd rfl (h.persists 0 call hp).1
        rw [← hnone, Function.update_eq_self]
        exact h
      · refine h.of_persist hc (acted_of_db_eq h.db rfl) none (by simp) fun _ => ?_
        cases hp : w.persists c with
        | none => exact h.idle c hc hp
        | some call =>
          obtain ⟨p, rest⟩ := call
          have hwp := (h.persists c _ hp).2
          cases rest with
          | pure a => exact (hwp w.stores (.refl c _) h.db).1
          | throw e => exact (hwp w.stores (.refl c _) h.db).1
          | op o k => exact absurd hp (hne p o k)
  | persistAbort c =>
    simp only [RepositorySystem.step]
    split_ifs with hc
    · exact h
    · exact h.of_persist hc (acted_endTx h.db) none (by simp) fun _ => by simp
  | resolve p =>
    simp only [RepositorySystem.step]
    split
    · exact h
    · next hnone =>
      refine h.of_resolve (acted_of_db_eq h.db rfl) _ ?_ (by simp)
      rintro _ ⟨⟩
      refine Prog.wp_mono (wp_resolveFailed (resolveLogic_spec he) trivial (h.resolverIdle hnone)) ?_
      intro r s _ hr
      cases r with
      | error e => exact ⟨hr.2, by simp⟩
      | ok a =>
        refine ⟨hr.2.1, ?_⟩
        rintro _ ⟨⟩
        exact hr.2.2
  | resolveStep fault =>
    simp only [RepositorySystem.step]
    split
    · next p o k hcall =>
      obtain ⟨hpre, hk⟩ := h.resolver _ hcall w.stores (.refl 0 _) h.db
      split
      · next r s' hp =>
        have ha := acted_resolve h.db hpre hp
        refine h.of_resolve ha _ ?_ (by simp)
        rintro _ ⟨⟩
        exact hk r s' ⟨fault, hp⟩ ha.inv
      · exact h
    · exact h
  | resolveReturn =>
    simp only [RepositorySystem.step]
    split
    · exact h
    · next hne =>
      refine h.of_resolve (acted_of_db_eq h.db rfl) none (by simp) fun _ => ?_
      cases hp : w.resolver with
      | none => exact h.resolverIdle hp
      | some call =>
        obtain ⟨p, rest⟩ := call
        have hwp := h.resolver _ hp
        cases rest with
        | pure a => exact (hwp w.stores (.refl 0 _) h.db).1
        | throw e => exact (hwp w.stores (.refl 0 _) h.db).1
        | op o k => exact absurd hp (hne p o k)
  | resolveAbort =>
    exact h.of_resolve (acted_endTx h.db) none (by simp) fun _ => by simp

/-- **Runs** keep the invariant. -/
theorem Inv.run {w : RepositorySystem} (h : w.Inv) {es : List RepositoryEvent}
    (hes : ∀ e ∈ es, e.Canonical) : (w.run es).Inv := by
  induction es generalizing w with
  | nil => exact h
  | cons e es ih =>
    exact ih (h.step (hes e (by simp))) fun e' he' => hes e' (by simp [he'])

/-! ## Rows over runs -/

theorem Inv.evolves_step {w : RepositorySystem} (h : w.Inv) (e : RepositoryEvent) :
    Db.Evolves w.stores.db (w.step e).stores.db := by
  -- what any other client may rely on
  have hacted : ∀ {c s'}, Acted c w.stores s' → Db.Evolves w.stores.db s'.db := fun {c _} ha =>
    (ha.rely (c + 1) (by omega)).evolves
  cases e with
  | redis sales => exact .refl _
  | persist c p =>
    simp only [RepositorySystem.step]
    split_ifs
    · exact .refl _
    · exact .refl _
  | persistStep c fault =>
    simp only [RepositorySystem.step]
    split
    · next p o k hcall =>
      obtain ⟨hpre, -⟩ := (h.persists c _ hcall).2 w.stores (.refl c _) h.db
      split
      · next r s' hp => exact hacted (acted_persist h.db hpre hp)
      · exact .refl _
    · exact .refl _
  | persistReturn c =>
    simp only [RepositorySystem.step]
    split
    · exact .refl _
    · exact .refl _
  | persistAbort c =>
    simp only [RepositorySystem.step]
    split_ifs
    · exact .refl _
    · exact hacted (acted_endTx h.db)
  | resolve p =>
    simp only [RepositorySystem.step]
    split
    · exact .refl _
    · exact .refl _
  | resolveStep fault =>
    simp only [RepositorySystem.step]
    split
    · next p o k hcall =>
      obtain ⟨hpre, -⟩ := h.resolver _ hcall w.stores (.refl 0 _) h.db
      split
      · next r s' hp => exact hacted (acted_resolve h.db hpre hp)
      · exact .refl _
    · exact .refl _
  | resolveReturn =>
    simp only [RepositorySystem.step]
    split
    · exact .refl _
    · exact .refl _
  | resolveAbort => exact hacted (acted_endTx h.db)

theorem Inv.evolves {w : RepositorySystem} (h : w.Inv) {es : List RepositoryEvent}
    (hes : ∀ e ∈ es, e.Canonical) : Db.Evolves w.stores.db (w.run es).stores.db := by
  induction es generalizing w with
  | nil => exact .refl _
  | cons e es ih =>
    exact (h.evolves_step e).trans
      (ih (h.step (hes e (by simp))) fun e' he' => hes e' (by simp [he']))

/-! ## Owners of reservation ids -/

/-- Every committed and every pending row belongs to the owner of its id. -/
def RowsOwned (owner : String → String) (db : Db) : Prop :=
  (∀ row ∈ db.orders, owner row.id = row.userId) ∧
    ∀ c w, db.pending c = some w → owner w.row.id = w.row.userId

theorem RowsOwned.exec {owner : String → String} {db db' : Db} {c : ℕ} (h : RowsOwned owner db)
    {stm : Statement} {r : Except Failure stm.Res} (he : db.exec c stm = some (r, db'))
    (hnew : ∀ w, Db.NewWrite db c stm w → owner w.row.id = w.row.userId) : RowsOwned owner db' := by
  refine ⟨fun row hrow => ?_, fun d w hw => ?_⟩
  · rcases Db.mem_orders_exec he hrow with hrow | ⟨w, hw, rfl⟩
    · exact h.1 row hrow
    · exact h.2 c w hw
  · by_cases hd : d = c
    · subst hd
      rcases Db.pending_exec he hw with ⟨hold, -⟩ | ⟨hw, -⟩
      · exact h.2 d w hold
      · exact hnew w hw
    · rw [Db.pending_congr ((Db.exec_frame he).2.1 d hd)] at hw
      exact h.2 d w hw

/-- The payload's reservation id is canonical and belongs to its user. -/
def PayloadOwned (owner : String → String) (p : OrdersQueueJobPayload) : Prop :=
  pgUuid p.reservationId = p.reservationId ∧ owner p.reservationId = p.userId

structure SystemOwned (owner : String → String) (w : RepositorySystem) : Prop where
  rows : RowsOwned owner w.stores.db
  persists : ∀ c call, w.persists c = some call → PayloadOwned owner call.payload
  resolver : ∀ call, w.resolver = some call → PayloadOwned owner call.payload

theorem PayloadOwned.toRow {owner : String → String} {p : OrdersQueueJobPayload}
    (h : PayloadOwned owner p) (st : DurableOrderStatus) :
    owner (p.toRow st).id = (p.toRow st).userId := by
  show owner (pgUuid p.reservationId) = p.userId
  rw [h.1, h.2]

theorem RowsOwned.persist {owner : String → String} {p : OrdersQueueJobPayload} {c : ℕ}
    {s s' : Stores} {o : Call} {r : Except Failure o.Res} {fault : Fault}
    (h : RowsOwned owner s.db) (hp : PayloadOwned owner p) (hpre : PersistPre p c o s)
    (hf : s.performWith fault o = some (r, s')) : RowsOwned owner s'.db := by
  rcases hpre with ⟨stm, rfl, hstm, -⟩ | ⟨saleId, u, rfl⟩
  · rcases Stores.performWith_cases hf with ⟨r', hf, -⟩ | ⟨-, rfl, -⟩
    · obtain ⟨⟨r'', db'⟩, he, e⟩ := Option.map_eq_some_iff.1 hf
      obtain ⟨-, rfl⟩ := Prod.mk.inj e
      refine h.exec he fun w hw => ?_
      cases hstm with
      | insertPersisted => cases hw; exact hp.toRow _
      | promoteCompensated id => cases hw; exact hp.toRow _
      | begin => cases hw
      | backendPid => cases hw
      | lockReservation => cases hw
      | selectUserForUpdate => cases hw
      | commit => cases hw
      | rollback => cases hw
    · exact h
  · rw [(Stores.performWith_read rfl hf).1]; exact h

theorem RowsOwned.resolve {owner : String → String} {p : OrdersQueueJobPayload}
    {s s' : Stores} {o : Call} {r : Except Failure o.Res} {fault : Fault}
    (h : RowsOwned owner s.db) (hp : PayloadOwned owner p) (hpre : ResolvePre p o s)
    (hf : s.performWith fault o = some (r, s')) : RowsOwned owner s'.db := by
  rcases hpre with ⟨stm, rfl, hstm, -⟩ | ⟨rfl, -⟩
  · rcases Stores.performWith_cases hf with ⟨r', hf, -⟩ | ⟨-, rfl, -⟩
    · obtain ⟨⟨r'', db'⟩, he, e⟩ := Option.map_eq_some_iff.1 hf
      obtain ⟨-, rfl⟩ := Prod.mk.inj e
      refine h.exec he fun w hw => ?_
      cases hstm with
      | insertMarker => cases hw; exact hp.toRow _
      | updateMarker id => cases hw; exact hp.toRow _
      | begin => cases hw
      | lockReservation => cases hw
      | selectUserForUpdate => cases hw
      | commit => cases hw
      | rollback => cases hw
    · exact h
  · rcases Stores.performWith_cases hf with ⟨r', hf, -⟩ | ⟨-, rfl, -⟩
    · rw [← (Prod.mk.inj (Option.some.inj hf)).2]; exact h
    · exact h

theorem RowsOwned.endTx {owner : String → String} {db : Db} (h : RowsOwned owner db) (c : ℕ) :
    RowsOwned owner (db.endTx c) :=
  @RowsOwned.exec owner db _ c h .rollback (.ok ()) rfl fun w hw => by cases hw

theorem SystemOwned.step {owner : String → String} {w : RepositorySystem}
    (h : SystemOwned owner w) (hinv : w.Inv) {e : RepositoryEvent} (hc : e.Canonical)
    (ho : e.Owned owner) : SystemOwned owner (w.step e) := by
  have hupd : ∀ {c : ℕ} {next : Option PersistCall},
      (∀ call, next = some call → PayloadOwned owner call.payload) →
      ∀ d call, Function.update w.persists c next d = some call →
        PayloadOwned owner call.payload := by
    intro c next hnext d call hd
    by_cases e : d = c
    · subst e; exact hnext call (by simpa using hd)
    · exact h.persists d call (by simpa [e] using hd)
  cases e with
  | redis sales => exact ⟨h.rows, h.persists, h.resolver⟩
  | persist c p =>
    simp only [RepositorySystem.step]
    split_ifs
    · exact h
    · refine ⟨h.rows, hupd ?_, h.resolver⟩
      rintro _ ⟨⟩
      exact ⟨hc, ho⟩
  | persistStep c fault =>
    simp only [RepositorySystem.step]
    split
    · next p o k hcall =>
      obtain ⟨hpre, -⟩ := (hinv.persists c _ hcall).2 w.stores (.refl c _) hinv.db
      split
      · next r s' hp =>
        have howned := h.persists c _ hcall
        refine ⟨h.rows.persist howned hpre hp, hupd ?_, h.resolver⟩
        rintro _ ⟨⟩
        exact howned
      · exact h
    · exact h
  | persistReturn c =>
    simp only [RepositorySystem.step]
    split
    · exact h
    · exact ⟨h.rows, hupd (by simp), h.resolver⟩
  | persistAbort c =>
    simp only [RepositorySystem.step]
    split_ifs
    · exact h
    · exact ⟨h.rows.endTx c, hupd (by simp), h.resolver⟩
  | resolve p =>
    simp only [RepositorySystem.step]
    split
    · exact h
    · refine ⟨h.rows, h.persists, ?_⟩
      rintro _ ⟨⟩
      exact ⟨hc, ho⟩
  | resolveStep fault =>
    simp only [RepositorySystem.step]
    split
    · next p o k hcall =>
      obtain ⟨hpre, -⟩ := hinv.resolver _ hcall w.stores (.refl 0 _) hinv.db
      split
      · next r s' hp =>
        have howned := h.resolver _ hcall
        refine ⟨h.rows.resolve howned hpre hp, h.persists, ?_⟩
        rintro _ ⟨⟩
        exact howned
      · exact h
    · exact h
  | resolveReturn =>
    simp only [RepositorySystem.step]
    split
    · exact h
    · exact ⟨h.rows, h.persists, by simp⟩
  | resolveAbort => exact ⟨h.rows.endTx 0, h.persists, by simp [RepositorySystem.step]⟩

theorem SystemOwned.run {owner : String → String} {w : RepositorySystem}
    (h : SystemOwned owner w) (hinv : w.Inv) {es : List RepositoryEvent}
    (hes : ∀ e ∈ es, e.Canonical) (ho : ∀ e ∈ es, e.Owned owner) :
    SystemOwned owner (w.run es) := by
  induction es generalizing w with
  | nil => exact h
  | cons e es ih =>
    exact ih (h.step hinv (hes e (by simp)) (ho e (by simp))) (hinv.step (hes e (by simp)))
      (fun e' he' => hes e' (by simp [he'])) fun e' he' => ho e' (by simp [he'])

theorem Idle.systemOwned {owner : String → String} {w : RepositorySystem} (h : w.Idle)
    (hrows : ∀ row ∈ w.stores.db.orders, owner row.id = row.userId) : SystemOwned owner w := by
  refine ⟨⟨hrows, fun c x hx => ?_⟩, fun c call hc => ?_, fun call hc => ?_⟩
  · rw [Db.pending_none (by unfold Db.tx?; rw [h.txs]; rfl)] at hx; cases hx
  · rw [h.persists] at hc; cases hc
  · rw [h.resolver] at hc; cases hc

end RepositorySystem

/-! ## The result -/

/-- **A persisted order is absorbing and unique per user.** Over every run of the repository from
an idle state, with canonical reservation ids:

1. no user has two rows;
2. a persisted row stays as it is in every later state;
3. a `persist` call that has returned `persisted` or `idempotent` left the row of its reservation
   persisted;
4. when `resolveFailed` is about to compensate `(u, id)`, the row of `u` is not `(id, persisted)`;
   if ids belong to users, no row at all is. -/
theorem persisted_order_absorbing (start : RepositorySystem) (hstart : start.Idle)
    (es : List RepositoryEvent) (hes : ∀ e ∈ es, e.Canonical) :
    ((start.run es).stores.db.orders.map (·.userId)).Nodup ∧
    (∀ more, (∀ e ∈ more, e.Canonical) → ∀ u row, (start.run es).stores.db.row? u = some row →
      row.status = .persisted → ((start.run es).run more).stores.db.row? u = some row) ∧
    (∀ c p r, (start.run es).persists c = some ⟨p, .pure r⟩ → r = .persisted ∨ r = .idempotent →
      (start.run es).stores.db.RowIs p.userId p.reservationId .persisted) ∧
    (∀ p saleId u id k, (start.run es).resolver = some ⟨p, .op (.compensate saleId u id) k⟩ →
      ¬ (start.run es).stores.db.RowIs u id .persisted ∧
      ∀ owner, (∀ e ∈ es, e.Owned owner) →
        (∀ row ∈ start.stores.db.orders, owner row.id = row.userId) →
        ∀ row ∈ (start.run es).stores.db.orders, row.id = id → row.status ≠ .persisted) := by
  have hinv := hstart.inv.run hes
  refine ⟨hinv.db.wf.users, fun more hmore u row hrow hst => ?_, fun c p r hcall hr => ?_,
    fun p saleId u id k hcall => ?_⟩
  · exact (hinv.evolves hmore).keeps u row hrow hst
  · have hpost := (hinv.persists c _ hcall).2 _ (.refl c _) hinv.db
    rcases hr with rfl | rfl
    · exact hpost.2 _ rfl
    · exact hpost.2 _ rfl
  · obtain ⟨hpre, -⟩ := hinv.resolver _ hcall _ (.refl 0 _) hinv.db
    rcases hpre with ⟨stm, h, -⟩ | ⟨h, hrow⟩
    · cases h
    · obtain ⟨rfl, rfl, rfl⟩ : saleId = p.saleId ∧ u = p.userId ∧ id = p.reservationId := by
        simpa using h
      refine ⟨hrow, fun owner ho hrows row hmem hid hst => ?_⟩
      have howned := (hstart.systemOwned hrows).run hstart.inv hes ho
      have huser : row.userId = p.userId := by
        rw [← howned.rows.1 row hmem, hid, (howned.resolver _ hcall).2]
      exact hrow ⟨row, hinv.db.wf.row?_of_mem hmem huser, hid, hst⟩

/-- A sale without orders and no call running. -/
def emptyRepository : RepositorySystem where
  stores :=
    { sales := fun _ => Sale.empty
      time := ⟨1, 0⟩
      ledgerBucket := fun _ => 0
      buyerBucket := fun _ => 0
      queue := .empty
      db := ⟨[], [⟨"flash-2026", "Aurora", 1, 1000, 2000⟩], ∅, fun id => id.length⟩
      failedScanOffset := 0 }
  persists := fun _ => none
  resolver := none

def aliceOrder : OrdersQueueJobPayload :=
  ⟨"flash-2026", "alice", "0190aaaa-0000-7000-8000-000000000001", 1500, "req-1"⟩

/-- One `persist` from `BEGIN` to `COMMIT`. -/
def alicePersists : List RepositoryEvent :=
  .persist 1 aliceOrder :: List.replicate 5 (.persistStep 1 .none)

theorem persisted_order_absorbing_alice :
    emptyRepository.Idle ∧ (∀ e ∈ alicePersists, e.Canonical) ∧
      (emptyRepository.run alicePersists).stores.db.RowIs "alice" aliceOrder.reservationId
        .persisted := by
  have hidle : emptyRepository.Idle := ⟨by simp [emptyRepository], rfl, rfl, rfl⟩
  have hcanonical : ∀ e ∈ alicePersists, e.Canonical := by
    intro e he
    rcases List.mem_cons.1 he with rfl | he
    · show pgUuid aliceOrder.reservationId = aliceOrder.reservationId
      decide +kernel
    · obtain ⟨-, rfl⟩ := List.mem_replicate.1 he
      exact trivial
  obtain ⟨-, -, hret, -⟩ := persisted_order_absorbing _ hidle _ hcanonical
  exact ⟨hidle, hcanonical, hret 1 aliceOrder .persisted rfl (.inl rfl)⟩

end FlashSale
