import FlashSale.Worker.SystemInvariant

/-!
# What the steps of the system keep

One lemma for each kind of step: the invariant holds after a purchase, a script of a pass, a
compensation under its guard, a turn of the queue and a statement of a client. The guards are what
the programs guarantee before such a call.
-/

namespace FlashSale

open Redis

namespace Shared
variable {env : WorkerEnv} {s s' : Shared} {clean : Prop} {p : OrdersQueueJobPayload}

/-- The history is read by no part of the invariant of all runs. -/
theorem Inv.history (h : s.Inv env) (released : List (String × String))
    (pendingRelease : Option (String × String)) :
    Inv env { s with released, pendingRelease } :=
  ⟨h.repo, h.ids, h.unique, h.window, h.config, h.members, h.entries, h.adds, h.distinct, h.jobs,
    h.locks, h.rows, h.writes, h.marks, h.marker, h.promotes⟩

/-! ## Purchases -/

/-- The shared state after a confirmed purchase. -/
def confirm (env : WorkerEnv) (s : Shared) (x : Sale) (u id requestId : String) : Shared :=
  { s.setSale env x with
    confirmed := ⟨u, id, s.stores.time.nowMs⟩ :: s.confirmed
    adds := ⟨env.SALE_ID, u, id, s.stores.time.nowMs, requestId⟩ ::
      ⟨env.SALE_ID, u, id, s.stores.time.nowMs, requestId⟩ :: s.adds }

/-- A purchase confirms a fresh reservation, or leaves the entries alone. -/
theorem purchase_inv (env : WorkerEnv) (s : Shared) (u id requestId : String) :
    (∃ x, s.purchase env u id requestId = s.setSale env x ∧
      (x = s.sale env ∨ ((s.sale env).buyers.sismember u || (s.sale env).reservations.hexists u) ∧
        x = { s.sale env with buyers := (s.sale env).buyers.sadd u })) ∨
    ∃ x, x = (FlashSale.purchase (s.sale env) u id s.stores.time).2 ∧
      s.purchase env u id requestId = s.confirm env x u id requestId ∧
      ConfirmedPurchase (s.sale env) u id s.stores.time x ∧
      isUuid id = true ∧ pgUuid id = id ∧ ∀ c ∈ s.confirmed, c.reservationId ≠ id := by
  unfold purchase
  by_cases hfresh : isUuid id ∧ pgUuid id = id ∧ ∀ c ∈ s.confirmed, c.reservationId ≠ id
  swap
  · rw [if_neg hfresh]
    exact .inl ⟨s.sale env, s.setSale_self.symm, .inl rfl⟩
  rw [if_pos hfresh]
  dsimp only
  rcases FlashSale.purchase_cases (s.sale env) u id s.stores.time with ⟨hr, hp⟩ | ⟨hr, hx⟩
  · refine .inr ⟨_, rfl, ?_, hp, hfresh⟩
    rw [hr, if_pos rfl]
    rfl
  · rw [if_neg hr]
    exact .inl ⟨_, rfl, hx⟩

section Confirm

variable {x : Sale} {u id requestId : String}

theorem ledger_confirm (hid : isUuid id = true)
    (hp : ConfirmedPurchase (s.sale env) u id s.stores.time x) (v : String) :
    (s.confirm env x u id requestId).ledger env v = if v = u then some id else s.ledger env v := by
  have hl : (s.confirm env x u id requestId).ledger env v = (s.setSale env x).ledger env v := rfl
  rw [hl, ledger_setSale, hp.keys]
  dsimp only
  rw [Hash.hget_hset]
  split_ifs
  · rw [Option.map_some, ledgerIdentity_of_isUuid _ hid]
  · rfl

theorem Inv.confirm (h : s.Inv env) (hp : ConfirmedPurchase (s.sale env) u id s.stores.time x)
    (hid : isUuid id = true) (hcanon : pgUuid id = id)
    (hfresh : ∀ c ∈ s.confirmed, c.reservationId ≠ id) :
    (s.confirm env x u id requestId).Inv env := by
  have hled : ∀ v, (s.confirm env x u id requestId).ledger env v =
      if v = u then some id else s.ledger env v := ledger_confirm hid hp
  have hsub : s.confirmed ⊆ (s.confirm env x u id requestId).confirmed :=
    fun c hc => List.mem_cons_of_mem _ hc
  have hsale : (s.confirm env x u id requestId).sale env = x := sale_setSale s x
  -- a reservation confirmed before is not the new one
  have hne : ∀ v id', (∃ t, s.Confirmed v id' t) → s.ledger env v ≠ some id' →
      (s.confirm env x u id requestId).ledger env v ≠ some id' := by
    rintro v id' ⟨t, ht⟩ hv
    rw [hled]
    split_ifs
    · exact fun e => hfresh _ ht (Option.some.inj e).symm
    · exact hv
  exact
    { repo := h.repo
      ids := fun c hc => by
        rcases List.mem_cons.1 hc with rfl | hc
        · exact ⟨hid, hcanon⟩
        · exact h.ids c hc
      unique := fun c hc d hd e => by
        rcases List.mem_cons.1 hc with rfl | hc <;> rcases List.mem_cons.1 hd with rfl | hd
        · rfl
        · exact absurd e.symm (hfresh d hd)
        · exact absurd e (hfresh c hc)
        · exact h.unique c hc d hd e
      window := fun c hc => by
        rcases List.mem_cons.1 hc with rfl | hc
        · obtain ⟨cfg, hcfg, hlo, hhi⟩ := hp.window
          obtain rfl := h.config cfg hcfg
          exact ⟨hlo, hhi⟩
        · exact h.window c hc
      config := by rw [hsale, hp.keys]; exact h.config
      members := by rw [hsale, hp.keys]; exact members_restore h.members
      entries := fun v val hv => by
        rw [hsale, hp.keys] at hv
        dsimp only at hv
        rw [Hash.hget_hset] at hv
        split_ifs at hv with e
        · obtain rfl := Option.some.inj hv
          subst e
          exact ⟨id, _, List.mem_cons_self, .inl rfl⟩
        · obtain ⟨id', t, hc, hval⟩ := h.entries v val hv
          exact ⟨id', t, hsub hc, hval⟩
      adds := fun q hq => by
        rcases List.mem_cons.1 hq with rfl | hq
        · exact ⟨rfl, List.mem_cons_self⟩
        rcases List.mem_cons.1 hq with rfl | hq
        · exact ⟨rfl, List.mem_cons_self⟩
        · obtain ⟨hs, hc⟩ := h.adds q hq
          exact ⟨hs, hsub hc⟩
      distinct := h.distinct
      jobs := fun st hst => by
        obtain ⟨hseq, p, hp⟩ := h.jobs st hst
        exact ⟨hseq, p, hp.mono hsub⟩
      locks := h.locks
      rows := fun row hrow => (h.rows row hrow).mono hsub
      writes := fun c w hw => (h.writes c w hw).mono hsub
      marks := fun v id' hrow => by
        refine hne v id' ?_ (h.marks v id' hrow)
        obtain ⟨row, hr, rfl, -⟩ := hrow
        have hg := h.rows row (Db.mem_orders_of_row? hr)
        rw [← Db.row?_userId hr]
        exact ⟨_, hg.2⟩
      marker := fun w hw =>
        ⟨hne _ _ ⟨_, (h.writes 0 w hw).2⟩ (h.marker w hw).1, (h.marker w hw).2⟩
      promotes := fun c row hc hw => by
        have hold := h.promotes c row hc hw
        rw [hled, if_neg]
        · exact hold
        · rintro rfl
          rw [ledger_eq_none.2 hp.ledger] at hold
          cases hold }

theorem Clean.confirm (hc : s.Clean env)
    (hp : ConfirmedPurchase (s.sale env) u id s.stores.time x) (hid : isUuid id = true)
    (hfresh : ∀ c ∈ s.confirmed, c.reservationId ≠ id)
    (hcons : Conserved x 0) :
    (s.confirm env x u id requestId).Clean env := by
  have hled : ∀ v, (s.confirm env x u id requestId).ledger env v =
      if v = u then some id else s.ledger env v := ledger_confirm hid hp
  have hkept : ∀ v id', s.ledger env v = some id' →
      (s.confirm env x u id requestId).ledger env v = some id' := by
    intro v id' hv
    rw [hled, if_neg]
    · exact hv
    · rintro rfl
      rw [ledger_eq_none.2 hp.ledger] at hv
      cases hv
  exact
    { known := fun c hm hr => by
        rcases List.mem_cons.1 hm with rfl | hm
        · rw [hled, if_pos rfl]
        · exact hkept _ _ (hc.known c hm hr)
      gone := fun v id' hm => by
        obtain ⟨⟨t, ht⟩, hl, hrow⟩ := hc.gone v id' hm
        refine ⟨⟨t, List.mem_cons_of_mem _ ht⟩, ?_, hrow⟩
        rw [hled]
        split_ifs
        · exact fun e => hfresh _ ht (Option.some.inj e).symm
        · exact hl
      releasing := hc.releasing
      slots := fun v st id' hst hid' => by
        rcases hc.slots v st id' hst hid' with hl | hrow
        · obtain ⟨id'', he⟩ := Option.isSome_iff_exists.1 hl
          rw [hkept v id'' he]
          exact .inl rfl
        · exact .inr hrow
      persisted := fun v id' hrow => hkept _ _ (hc.persisted v id' hrow)
      writing := fun c w h0 hw => hkept _ _ (hc.writing c w h0 hw)
      conserved := by
        have hsale : (s.confirm env x u id requestId).sale env = x := sale_setSale s x
        rw [hsale]
        exact hcons }

end Confirm

theorem SysInv.purchase (h : s.SysInv env clean) (u id requestId : String) :
    (s.purchase env u id requestId).SysInv env clean := by
  rcases s.purchase_inv env u id requestId with
    ⟨x, e, hx⟩ | ⟨x, hx, e, hp, hid, hcanon, hfresh⟩
  · rw [e]
    rcases hx with rfl | ⟨hk, rfl⟩
    · rw [setSale_self]; exact h
    · rw [h.1.members, Bool.or_self] at hk
      have hb : (s.sale env).buyers.sadd u = (s.sale env).buyers :=
        KeySet.sadd_of_sismember (by rw [h.1.members]; exact hk)
      rw [hb]
      exact h.setSale_same h.1.config h.1.members rfl fun h => h
  · rw [e]
    refine ⟨h.1.confirm hp hid hcanon hfresh, fun hc => (h.2 hc).confirm hp hid hfresh ?_⟩
    rw [hx]
    exact (h.2 hc).conserved.purchase u id s.stores.time

/-! ## Seeds and repairs -/

theorem SysInv.seed (h : s.SysInv env clean) :
    (s.setSale env (FlashSale.seed (s.sale env) env.sale env.sale.totalStock).2).SysInv env
      clean := by
  rcases seed_cases (s.sale env) env.sale env.sale.totalStock with ⟨hn, -, e⟩ | ⟨-, -, e⟩
  · have hcons : Conserved (s.sale env) 0 →
        Conserved (FlashSale.seed (s.sale env) env.sale env.sale.totalStock).2 0 := fun hc =>
      hc.exec (c := .seed env.sale none) ⟨env.totalStock_nonneg, env.totalStock_safe, rfl⟩
    refine h.setSale_same ?_ ?_ ?_ hcons
    · rw [e]
      rintro _ ⟨⟩
      rfl
    · rw [e]; exact h.1.members
    · rw [e]
  · rw [e, setSale_self]
    exact h

theorem SysInv.reconcileMembership (h : s.SysInv env clean) (u : String) :
    (s.setSale env (FlashSale.reconcileMembership (s.sale env) u).2).SysInv env clean := by
  obtain ⟨hres, hcfg⟩ := reconcileMembership_keys (s.sale env) u
  refine h.setSale_same (by rw [hcfg]; exact h.1.config) (fun v => ?_) hres
    fun hc => hc.reconcileMembership u
  rw [sismember_reconcileMembership h.1.members, hres]
  exact h.1.members v

theorem SysInv.reconcileState (h : s.SysInv env clean) :
    (s.setSale env (FlashSale.reconcileState (s.sale env)).2).SysInv env clean := by
  obtain ⟨hres, hcfg, hbuyers⟩ := reconcileState_keys (s.sale env)
  refine h.setSale_same (by rw [hcfg]; exact h.1.config) ?_ hres ?_
  · rw [hres, hbuyers]; exact h.1.members
  · intro hc
    have hexec := hc.exec (c := .reconcileState) trivial
    have hzero : ∀ r, restoredAfter 0 (.reconcileState r) = 0 := fun r => by
      obtain ⟨outcome, _, _, _, _⟩ := r
      cases outcome <;> rfl
    rwa [show restoredAfter 0 (ScriptCall.exec (s.sale env) .reconcileState).1 = 0 from hzero _]
      at hexec

/-! ## Restores -/

/-- What a restore writes: a confirmed reservation that is not marked, outside transactions. In a
clean run the user is in the ledger already. -/
structure RestoreGuard (env : WorkerEnv) (clean : Prop) (s : Shared) (u id : String) (t : ℕ) :
    Prop where
  confirmed : s.Confirmed u id t
  unmarked : ¬ s.stores.db.RowIs u id .compensated
  closed : s.stores.db.tx? 0 = none
  known : clean → (s.ledger env u).isSome

theorem ledger_restore {id : String} (hid : isUuid id = true) (u v : String) (t : ℕ) :
    (s.setSale env ((s.sale env).restore u id t)).ledger env v =
      if v = u then some id else s.ledger env v := by
  rw [ledger_setSale]
  unfold Sale.restore
  dsimp only
  rw [Hash.hget_hset]
  split_ifs
  · rw [Option.map_some, ledgerIdentity_of_isUuid _ hid]
  · rfl

theorem SysInv.compareRestore (h : s.SysInv env clean) {u id : String} {t : ℕ}
    (hg : RestoreGuard env clean s u id t) :
    (s.setSale env (compareRestoreReservation (s.sale env) u id t).2).SysInv env clean := by
  have hid := (h.1.ids _ hg.confirmed).1
  rcases compareRestoreReservation_cases (s.sale env) u id t with ⟨hn, e⟩ | ⟨v, hv, ⟨-, e⟩ | ⟨-, e⟩⟩
  · rw [e]
    have hkept : ∀ w id', s.ledger env w = some id' → w ≠ u := by
      rintro w id' hw rfl
      rw [ledger_eq_none.2 hn] at hw
      cases hw
    have hled : ∀ w, (((s.sale env).restore u id t).reservations.hget w).map ledgerIdentity =
        if w = u then some id else s.ledger env w := fun w => by
      rw [← ledger_setSale]; exact ledger_restore hid u w t
    refine ⟨h.1.setSale h.1.config (members_restore h.1.members) ?_ ?_ ?_ ?_, fun hc => ?_⟩
    · intro w val hw
      unfold Sale.restore at hw
      dsimp only at hw
      rw [Hash.hget_hset] at hw
      split_ifs at hw with e
      · obtain rfl := Option.some.inj hw
        subst e
        exact ⟨id, t, hg.confirmed, .inr rfl⟩
      · exact h.1.entries w val hw
    · intro w id' hrow
      rw [hled]
      split_ifs with e
      · subst e
        rintro ⟨⟩
        exact hg.unmarked hrow
      · exact h.1.marks w id' hrow
    · intro w hw
      rw [Db.pending_none hg.closed] at hw
      cases hw
    · intro c row hc hw
      have hold := h.1.promotes c row hc hw
      rw [hled, if_neg (hkept _ _ hold)]
      exact hold
    · have := hg.known hc
      rw [ledger_eq_none.2 hn] at this
      cases this
  · have hb : (s.sale env).buyers.sadd u = (s.sale env).buyers :=
      KeySet.sadd_of_sismember (by rw [h.1.members]; simp [Hash.hexists, hv])
    rw [e, hb]
    exact h.setSale_same h.1.config h.1.members rfl fun h => h
  · rw [e, setSale_self]
    exact h

/-! ## Compensations -/

/-- A compensation that finds its reservation runs under the advisory lock, for a failed job whose
reservation is not persisted. -/
structure CompensateGuard (env : WorkerEnv) (clean : Prop) (s : Shared) (u id : String) :
    Prop where
  key : s.stores.db.Holds 0 id
  row : ¬ s.stores.db.RowIs u id .persisted
  slot : FailedSlot env s u id
  release : clean → s.pendingRelease = none ∨ s.pendingRelease = some (u, id)

/-- The history of a compensation, and what is left of the keys: the entry of `u` is gone, or the
ledger did not name the reservation and nothing happened. -/
theorem compensate_inv (h : s.Inv env) (u id : String) :
    (s.ledger env u ≠ some id ∧ (FlashSale.compensate (s.sale env) u id).2 = s.sale env ∧
      s.note (.compensate env.SALE_ID u id) = s) ∨
    (s.ledger env u = some id ∧
      (FlashSale.compensate (s.sale env) u id).2.reservations =
        (s.sale env).reservations.hdel u ∧
      (FlashSale.compensate (s.sale env) u id).2.buyers = (s.sale env).buyers.srem u ∧
      (FlashSale.compensate (s.sale env) u id).2.config = (s.sale env).config ∧
      s.note (.compensate env.SALE_ID u id) = { s with
        released := (u, id) :: s.released
        pendingRelease := if (s.stores.db.tx? 0).isSome then some (u, id)
          else s.pendingRelease }) := by
  have hnote : s.note (.compensate env.SALE_ID u id) =
      if (FlashSale.compensate (s.sale env) u id).1.outcome = .noop then s
      else { s with
        released := (u, id) :: s.released
        pendingRelease := if (s.stores.db.tx? 0).isSome then some (u, id)
          else s.pendingRelease } := rfl
  rw [hnote]
  rcases FlashSale.compensate_cases (s.sale env) u id with
    ⟨e, hne⟩ | ⟨v, hv, hid, ⟨hb, -⟩ | ⟨-, -, e⟩ | ⟨-, -, e⟩⟩
  · refine .inl ⟨fun hl => ?_, by rw [e], by rw [e, if_pos rfl]⟩
    obtain ⟨v, hv, hid⟩ := ledger_eq_some.1 hl
    exact hne v hv hid
  · rw [h.members] at hb
    simp [Hash.hexists, hv] at hb
  · rw [e]
    exact .inr ⟨ledger_eq_some.2 ⟨v, hv, hid⟩, rfl, rfl, rfl, if_neg (by simp)⟩
  · rw [e]
    exact .inr ⟨ledger_eq_some.2 ⟨v, hv, hid⟩, rfl, rfl, rfl, if_neg (by simp)⟩

theorem SysInv.compensate (h : s.SysInv env clean) {u id : String}
    (hg : s.ledger env u = some id → CompensateGuard env clean s u id) :
    ((s.note (.compensate env.SALE_ID u id)).setSale env
      (FlashSale.compensate (s.sale env) u id).2).SysInv env clean := by
  rcases compensate_inv h.1 u id with ⟨-, hx, hnote⟩ | ⟨hl, hres, hbuyers, hcfg, hnote⟩
  · rw [hnote, hx, setSale_self]
    exact h
  have hg := hg hl
  have htx : (s.stores.db.tx? 0).isSome := by
    obtain ⟨tx, htx, -⟩ := hg.key
    rw [htx]
    rfl
  rw [if_pos htx] at hnote
  rw [hnote]
  generalize hx : (FlashSale.compensate (s.sale env) u id).2 = x at hres hbuyers hcfg
  have hled : ∀ v, (x.reservations.hget v).map ledgerIdentity =
      if v = u then none else s.ledger env v := by
    intro v
    rw [hres, Hash.hget_hdel]
    split_ifs
    · rfl
    · rfl
  -- another client's pending row of the reservation would need the advisory lock
  have hother : ∀ c w, c ≠ 0 → s.stores.db.pending c = some w → w.row.userId = u →
      s.ledger env w.row.userId ≠ some w.row.id := by
    rintro c w hc hw rfl hl'
    obtain rfl := Option.some.inj (hl.symm.trans hl')
    exact hc (h.1.repo.wf.holds_unique (h.1.repo.keyed c w hw) hg.key)
  refine ⟨?_, fun hc => ?_⟩
  · refine (h.1.history _ _).setSale (by rw [hcfg]; exact h.1.config) ?_ ?_ ?_ ?_ ?_
    · rw [hres, hbuyers]; exact members_drop h.1.members
    · intro v val hv
      rw [hres, Hash.hget_hdel] at hv
      split_ifs at hv
      exact h.1.entries v val hv
    · intro v id' hrow
      rw [hled]
      split_ifs
      · simp
      · exact h.1.marks v id' hrow
    · intro w hw
      rw [hled]
      split_ifs
      · simp
      · exact (h.1.marker w hw).1
    · intro c row hc hw
      have hold := h.1.promotes c row hc hw
      rw [hled, if_neg]
      · exact hold
      · exact fun e => hother c _ hc hw e hold
  · have hclean := h.2 hc
    have hpend : ∀ v id', s.pendingRelease = some (v, id') → (v, id') = (u, id) := by
      intro v id' hv
      rcases hg.release hc with e | e
      · rw [e] at hv; cases hv
      · exact Option.some.inj (hv.symm.trans e)
    have hl' : ∀ v, (Shared.setSale { s with
        released := (u, id) :: s.released, pendingRelease := some (u, id) } env x).ledger env v =
        if v = u then none else s.ledger env v := fun v => (ledger_setSale _ _ _).trans (hled v)
    exact
      { known := fun c hm hr => by
          have hr : (c.userId, c.reservationId) ∉ (u, id) :: s.released := hr
          rw [List.mem_cons, not_or] at hr
          have hk := hclean.known c hm hr.2
          rw [hl', if_neg]
          · exact hk
          · rintro rfl
            obtain rfl := Option.some.inj (hl.symm.trans hk)
            exact hr.1 rfl
        gone := fun v id' hm => by
          rw [hl']
          rcases List.mem_cons.1 hm with e | hm
          · obtain ⟨rfl, rfl⟩ := Prod.mk.inj e
            rw [if_pos rfl]
            exact ⟨h.1.confirmed_of_ledger hl, by simp, .inr rfl⟩
          · obtain ⟨hconf, hne, hrow⟩ := hclean.gone v id' hm
            refine ⟨hconf, ?_, hrow.imp_right fun e => ?_⟩
            · split_ifs
              · simp
              · exact hne
            · exact congrArg some (hpend v id' e).symm
        releasing := fun v id' e => by
          obtain ⟨rfl, rfl⟩ := Prod.mk.inj (Option.some.inj e)
          exact ⟨hg.key, hg.slot⟩
        slots := fun v st id' hst hid => by
          rw [hl']
          by_cases e : v = u
          · subst e
            obtain rfl := hg.slot.identity hst hid
            exact .inr (.inr rfl)
          · rw [if_neg e]
            rcases hclean.slots v st id' hst hid with hs | hrow | hp
            · exact .inl hs
            · exact .inr (.inl hrow)
            · exact absurd (Prod.mk.inj (hpend v id' hp)).1 e
        persisted := fun v id' hrow => by
          have hold := hclean.persisted v id' hrow
          rw [hl', if_neg]
          · exact hold
          · rintro rfl
            obtain rfl := Option.some.inj (hl.symm.trans hold)
            exact hg.row hrow
        writing := fun c w h0 hw => by
          have hold := hclean.writing c w h0 hw
          rw [hl', if_neg]
          · exact hold
          · exact fun e => hother c w h0 hw e hold
        conserved := by
          rw [sale_setSale, ← hx]
          exact hclean.conserved.compensate u id }

/-! ## The queue -/

theorem identity_continues {st st' : StoredJob} (h : st.Continues st') :
    st'.job.identity = st.job.identity := by
  unfold Job.identity; rw [h.data]

/-- A job that a step adds: that of a confirmed purchase and, in a clean run, of a user in the ledger
or of a marked reservation. -/
structure NewJob (env : WorkerEnv) (clean : Prop) (s : Shared) (q : JobQueue) (st : StoredJob) :
    Prop where
  seq : st.job.seq < q.nextSeq
  lock : st.lock = none
  good : ∃ p, GoodJob env s.confirmed st.job p ∧ (clean → (s.ledger env p.userId).isSome ∨
    s.stores.db.RowIs p.userId p.reservationId .compensated)

theorem SysInv.turn (h : s.SysInv env clean) {q : JobQueue} {token : Option ℕ}
    {Gone : String → Prop} {New : StoredJob → Prop} (nextToken : ℕ)
    (ht : s.stores.queue.Turn q token Gone New)
    (hnext : s.nextToken ≤ nextToken) (htoken : ∀ c, token = some c → c < nextToken)
    (hgone : ∀ id, Gone id → s.stores.db.tx? 0 = none)
    (hnew : ∀ st, New st → NewJob env clean s q st) :
    SysInv env clean { s.setQueue q with nextToken } := by
  -- a failed slot stays while a transaction of the resolver is open
  have hfailed : ∀ u id, (s.stores.db.tx? 0).isSome → FailedSlot env s u id →
      FailedSlot env { s.setQueue q with nextToken } u id := by
    rintro u id htx ⟨st, hst, hf, hid⟩
    refine ⟨st, ht.failed _ st hst hf fun hg => ?_, hf, hid⟩
    rw [hgone _ hg] at htx
    cases htx
  refine ⟨?_, fun hc => ?_⟩
  · refine ⟨h.1.repo, h.1.ids, h.1.unique, h.1.window, h.1.config, h.1.members, h.1.entries,
      h.1.adds, ht.distinct, fun st hst => ?_, fun st hst c hlock => ?_, h.1.rows, h.1.writes,
      h.1.marks, fun w hw => ⟨(h.1.marker w hw).1, ?_⟩, h.1.promotes⟩
    · have hfind := JobQueue.find_of_mem ht.distinct hst
      rcases ht.origin _ st hfind with ⟨st₀, hst₀, hcont, -⟩ | hn
      · obtain ⟨hseq, p, hp⟩ := h.1.jobs st₀ (JobQueue.find_some hst₀).1
        refine ⟨?_, p, hp.continues hcont⟩
        rw [hcont.seq]
        exact lt_of_lt_of_le hseq ht.seq
      · obtain ⟨p, hp, -⟩ := (hnew st hn).good
        exact ⟨(hnew st hn).seq, p, hp⟩
    · have hfind := JobQueue.find_of_mem ht.distinct hst
      rcases ht.origin _ st hfind with ⟨st₀, hst₀, -, -, hl⟩ | hn
      · obtain ⟨ha, htok | hl⟩ := hl c hlock
        · exact ⟨ha, htoken c htok⟩
        · have hlt := (h.1.locks st₀ (JobQueue.find_some hst₀).1 c hl).2
          exact ⟨ha, lt_of_lt_of_le hlt hnext⟩
      · rw [(hnew st hn).lock] at hlock
        cases hlock
    · obtain ⟨tx, htx, -⟩ := Db.exists_tx_of_pending hw
      exact hfailed _ _ (Option.isSome_iff_exists.2 ⟨tx, htx⟩) (h.1.marker w hw).2
  · have hclean := h.2 hc
    refine ⟨hclean.known, hclean.gone, fun u id hp => ?_, fun u st id hst hid => ?_,
      hclean.persisted, hclean.writing, hclean.conserved⟩
    · obtain ⟨⟨tx, htx, hk⟩, hslot⟩ := hclean.releasing u id hp
      exact ⟨⟨tx, htx, hk⟩, hfailed u id (Option.isSome_iff_exists.2 ⟨tx, htx⟩) hslot⟩
    · rcases ht.origin _ st hst with ⟨st₀, hst₀, hcont, -⟩ | hn
      · exact hclean.slots u st₀ id hst₀ ((identity_continues hcont).symm.trans hid)
      · obtain ⟨p, hp, hknown⟩ := (hnew st hn).good
        have hu : u = p.userId :=
          WorkerEnv.jobId_inj ((JobQueue.find_some hst).2.symm.trans hp.id)
        have hi : id = p.reservationId := Option.some.inj (hid.symm.trans hp.identity)
        rw [hu, hi]
        exact (hknown hc).imp_right .inl

end Shared
end FlashSale
