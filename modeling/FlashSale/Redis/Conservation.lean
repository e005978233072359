import FlashSale.Redis.Scripts

/-!
# Conservation of stock over runs of the scripts

A run is a list of script calls from empty keys, each an atomic step. `Conserved s n` is the
accounting invariant of the keys `s` when `n` is the number of `RESTORED` replies since the last
`RECONCILED` (or since the start):

* the buyers set holds exactly the users of the ledger, so the `NOOP` that `compensate.lua` would
  return after its `HDEL` is out of reach;
* before the seed only restorations fill the ledger;
* from the seed on, `stock + HLEN = totalStock + k` with `0 ≤ k ≤ n`. Purchases and uncapped
  compensations move a unit between the two summands, a restoration adds one to `k`, a capped
  compensation takes one off and `reconcile-state.lua` resets it.
-/

namespace FlashSale

open Redis

/-! ## Script calls and runs -/

/-- A call of one of the eight scripts, with the arguments a caller chooses. `stockRemaining` is
the optional field of the seed input. -/
inductive ScriptCall where
  | seed (cfg : SaleConfig) (stockRemaining : Option ℤ)
  | purchase (userId reservationId : String) (t : RedisTime)
  | compensate (userId reservationId : String)
  | compareRestore (userId reservationId : String) (reservedAtMs : ℕ)
  | reconcileMembership (userId : String)
  | reconcileState
  | status (t : RedisTime)
  | inspect (userId : String)

inductive ScriptReply where
  | seed (r : SeedReply)
  | purchase (r : PurchaseReply)
  | compensate (r : CompensateReply)
  | compareRestore (outcome : CompareRestoreOutcome) (current : String)
  | reconcileMembership (m : Membership)
  | reconcileState (r : ReconcileStateReply)
  | status (r : StatusReply)
  | inspect (outcome : MembershipInspection) (reservation : String)
  deriving DecidableEq

/-- One atomic step. -/
def ScriptCall.exec (s : Sale) : ScriptCall → ScriptReply × Sale
  | .seed cfg stockRemaining =>
    let (r, s) := FlashSale.seed s cfg (stockRemaining.getD cfg.totalStock); (.seed r, s)
  | .purchase u r t => let (r, s) := FlashSale.purchase s u r t; (.purchase r, s)
  | .compensate u r => let (r, s) := FlashSale.compensate s u r; (.compensate r, s)
  | .compareRestore u r t =>
    let ((o, v), s) := compareRestoreReservation s u r t; (.compareRestore o v, s)
  | .reconcileMembership u =>
    let (m, s) := FlashSale.reconcileMembership s u; (.reconcileMembership m, s)
  | .reconcileState => let (r, s) := FlashSale.reconcileState s; (.reconcileState r, s)
  | .status t => (.status (statusScript s t), s)
  | .inspect u => let (o, v) := inspectMembership s u; (.inspect o v, s)

/-- The replies of a run, in order, and the keys it ends with. -/
def runScripts (s : Sale) : List ScriptCall → List ScriptReply × Sale
  | [] => ([], s)
  | c :: cs =>
    let (r, s') := c.exec s
    let (rs, s'') := runScripts s' cs
    (r :: rs, s'')

/-- `RESTORED` replies since the last `RECONCILED`, starting from `n`. -/
def restoredAfter (n : ℕ) : ScriptReply → ℕ
  | .compareRestore .restored _ => n + 1
  | .reconcileState ⟨.reconciled, _, _, _, _⟩ => 0
  | _ => n

/-- `RESTORED` replies since the last `RECONCILED` of a list of replies, or since its start. -/
def restoredSince (rs : List ScriptReply) : ℕ := rs.foldl restoredAfter 0

/-- The reply is a `SEEDED`. -/
def ScriptReply.isSeeded : ScriptReply → Bool
  | .seed r => r.outcome == .seeded
  | _ => false

/-- The reply is a `RESTORED`. -/
def ScriptReply.isRestored : ScriptReply → Bool
  | .compareRestore o _ => o == .restored
  | _ => false

/-- A seed asks for a total as the environment schemas take it, a safe integer that is not negative,
and leaves the stock to its default. -/
def ScriptCall.DefaultSeed : ScriptCall → Prop
  | .seed cfg stockRemaining =>
    0 ≤ cfg.totalStock ∧ cfg.totalStock ≤ Number.MAX_SAFE_INTEGER ∧ stockRemaining = none
  | _ => True

theorem runScripts_append (s : Sale) (cs ds : List ScriptCall) :
    runScripts s (cs ++ ds) =
      ((runScripts s cs).1 ++ (runScripts (runScripts s cs).2 ds).1,
        (runScripts (runScripts s cs).2 ds).2) := by
  induction cs generalizing s with
  | nil => rfl
  | cons c cs ih => simp only [List.cons_append, runScripts, ih]

/-! ## The invariant -/

/-- The accounting invariant; see the head of the file. -/
structure Conserved (s : Sale) (n : ℕ) : Prop where
  members : ∀ u, s.buyers.sismember u = s.reservations.hexists u
  unseeded : s.config = none → s.reservations.hlen ≤ n
  seeded : ∀ cfg, s.config = some cfg → ∃ stock, s.stock = some stock ∧ 0 ≤ stock ∧
    stock ≤ cfg.totalStock ∧ cfg.totalStock ≤ stock + s.reservations.hlen ∧
    stock + s.reservations.hlen ≤ cfg.totalStock + n
  safe : ∀ cfg, s.config = some cfg → cfg.totalStock ≤ Number.MAX_SAFE_INTEGER

theorem conserved_empty : Conserved Sale.empty 0 where
  members _ := rfl
  unseeded _ := le_rfl
  seeded cfg h := by cases h
  safe cfg h := by cases h

/-- Re-adding a user the ledger or the buyers set knows changes no membership. -/
theorem Conserved.sadd {s : Sale} {n : ℕ} (h : Conserved s n) {u : String}
    (hu : s.reservations.hexists u = true) :
    Conserved { s with buyers := s.buyers.sadd u } n := by
  have hb : s.buyers.sismember u = true := by rw [h.members, hu]
  have he : ({ s with buyers := s.buyers.sadd u } : Sale) = s := by
    rw [KeySet.sadd_of_sismember hb]
  rw [he]; exact h

theorem members_restore {s : Sale} {u v : String}
    (h : ∀ u, s.buyers.sismember u = s.reservations.hexists u) (w : String) :
    (s.buyers.sadd u).sismember w = (s.reservations.hset u v).hexists w := by
  rw [KeySet.sismember_sadd]
  unfold Hash.hexists
  rw [Hash.hget_hset, h w]
  by_cases e : w = u
  · subst e; simp
  · simp [e, Hash.hexists]

theorem members_drop {s : Sale} {u : String}
    (h : ∀ u, s.buyers.sismember u = s.reservations.hexists u) (w : String) :
    (s.buyers.srem u).sismember w = (s.reservations.hdel u).hexists w := by
  rw [KeySet.sismember_srem]
  unfold Hash.hexists
  rw [Hash.hget_hdel, h w]
  by_cases e : w = u
  · subst e; simp
  · simp [e, Hash.hexists]

/-! ## One step -/

theorem Conserved.purchase {s : Sale} {n : ℕ} (h : Conserved s n) (u r : String) (t : RedisTime) :
    Conserved (purchase s u r t).2 n := by
  rcases purchase_cases s u r t with ⟨-, hp⟩ | ⟨-, hs | ⟨hk, hs⟩⟩
  · obtain ⟨cfg, hc, -, -⟩ := hp.window
    obtain ⟨stock, hs, h0, h1, h2, h3⟩ := h.seeded cfg hc
    have hu := hp.unit
    rw [hp.keys]
    refine ⟨members_restore h.members, by simp [hc], ?_, h.safe⟩
    intro cfg' hc'
    obtain rfl : cfg = cfg' := by simpa [hc] using hc'
    rw [hs, Option.getD_some] at hu ⊢
    refine ⟨stock - 1, rfl, by omega, by omega, ?_⟩
    dsimp only
    rw [Hash.hlen_hset_of_none hp.ledger]
    omega
  · rw [hs]; exact h
  · rw [hs]
    refine h.sadd ?_
    rw [h.members, Bool.or_self] at hk
    exact hk

/-- A compensation whose identity is on file finds the user in the buyers set, and compares the
stock with the total exactly. -/
theorem Conserved.compensate_cases {s : Sale} {n : ℕ} (h : Conserved s n) (u r : String) :
    compensate s u r = (⟨.noop, Number.ofInt (s.stock.getD 0)⟩, s) ∨
      ∃ v, s.reservations.hget u = some v ∧
        (((∃ cfg, s.config = some cfg ∧ cfg.totalStock ≤ s.stock.getD 0) ∧
            compensate s u r = (⟨.compensatedCapped, Number.ofInt (s.stock.getD 0)⟩, s.drop u)) ∨
          ((∀ cfg, s.config = some cfg → s.stock.getD 0 < cfg.totalStock) ∧
            compensate s u r = (⟨.compensated, Number.ofInt (s.stock.getD 0 + 1)⟩,
              { s.drop u with stock := some (s.stock.getD 0 + 1) }))) := by
  have hexact : ∀ cfg, s.config = some cfg → Number.ofInt cfg.totalStock = cfg.totalStock ∧
      Number.ofInt (s.stock.getD 0) = s.stock.getD 0 := fun cfg hc => by
    obtain ⟨stock, hs, h0, h1, -, -⟩ := h.seeded cfg hc
    have hsafe := h.safe cfg hc
    rw [hs, Option.getD_some]
    exact ⟨Number.ofInt_of_nonneg (h0.trans h1) hsafe, Number.ofInt_of_nonneg h0 (h1.trans hsafe)⟩
  rcases FlashSale.compensate_cases s u r with ⟨e, -⟩ | ⟨v, hv, -, ⟨hb, -⟩ | ⟨-, hc, e⟩ | ⟨-, hc, e⟩⟩
  · exact .inl e
  · rw [h.members] at hb
    simp [Hash.hexists, hv] at hb
  · obtain ⟨cfg, hcfg, hcap⟩ := hc
    obtain ⟨htotal, hstock⟩ := hexact cfg hcfg
    rw [htotal, hstock] at hcap
    exact .inr ⟨v, hv, .inl ⟨⟨cfg, hcfg, hcap⟩, e⟩⟩
  · refine .inr ⟨v, hv, .inr ⟨fun cfg hcfg => ?_, e⟩⟩
    obtain ⟨htotal, hstock⟩ := hexact cfg hcfg
    have hlt := hc cfg hcfg
    rwa [htotal, hstock] at hlt

theorem Conserved.compensate {s : Sale} {n : ℕ} (h : Conserved s n) (u r : String) :
    Conserved (compensate s u r).2 n := by
  rcases h.compensate_cases u r with e | ⟨v, hv, ⟨⟨cfg, hc, hcap⟩, e⟩ | ⟨hcap, e⟩⟩
  · rw [e]; exact h
  all_goals
    have hlen := Hash.hlen_hdel_of_some (h := s.reservations) (k := u) (by simp [hv])
    rw [e]
    refine ⟨members_drop h.members, fun hn => ?_, fun cfg' hc' => ?_, h.safe⟩
  -- capped: the stock was at the total, so the entry was one of the `k` in excess
  · have hc0 : s.config = none := hn
    simp [hc] at hc0
  · obtain ⟨stock, hs, h0, h1, h2, h3⟩ := h.seeded cfg' hc'
    have hc'' : s.config = some cfg' := hc'
    obtain rfl : cfg = cfg' := by simpa [hc] using hc''
    rw [hs, Option.getD_some] at hcap
    refine ⟨stock, hs, h0, h1, ?_⟩
    show cfg.totalStock ≤ stock + ((s.reservations.hdel u).hlen : ℤ) ∧
      stock + ((s.reservations.hdel u).hlen : ℤ) ≤ cfg.totalStock + n
    omega
  · have hle := h.unseeded hn
    show (s.reservations.hdel u).hlen ≤ n
    omega
  · obtain ⟨stock, hs, h0, h1, h2, h3⟩ := h.seeded cfg' hc'
    have hlt := hcap cfg' hc'
    rw [hs, Option.getD_some] at hlt ⊢
    refine ⟨stock + 1, rfl, by omega, by omega, ?_⟩
    show cfg'.totalStock ≤ stock + 1 + ((s.reservations.hdel u).hlen : ℤ) ∧
      stock + 1 + ((s.reservations.hdel u).hlen : ℤ) ≤ cfg'.totalStock + n
    omega

theorem Conserved.restore {s : Sale} {n : ℕ} (h : Conserved s n) {u : String}
    (hu : s.reservations.hget u = none) (r : String) (t : ℕ) :
    Conserved (s.restore u r t) (n + 1) := by
  have hlen := Hash.hlen_hset_of_none (h := s.reservations) (k := u)
    (v := ledgerValue r (toString t)) hu
  refine ⟨members_restore h.members, fun hc => ?_, fun cfg hc => ?_, h.safe⟩
  · have hle := h.unseeded hc
    show (s.reservations.hset u (ledgerValue r (toString t))).hlen ≤ n + 1
    omega
  · obtain ⟨stock, hs, h0, h1, h2, h3⟩ := h.seeded cfg hc
    refine ⟨stock, hs, h0, h1, ?_⟩
    show cfg.totalStock ≤ stock + ((s.reservations.hset u (ledgerValue r (toString t))).hlen : ℤ) ∧
      stock + ((s.reservations.hset u (ledgerValue r (toString t))).hlen : ℤ) ≤
        cfg.totalStock + (n + 1 : ℕ)
    omega

theorem Conserved.reconcileMembership {s : Sale} {n : ℕ} (h : Conserved s n) (u : String) :
    Conserved (reconcileMembership s u).2 n := by
  unfold FlashSale.reconcileMembership
  split_ifs with hu
  · exact h.sadd hu
  · refine ⟨fun w => ?_, h.unseeded, h.seeded, h.safe⟩
    rw [KeySet.sismember_srem, h.members]
    by_cases e : w = u
    · subst e; simpa using hu
    · simp [e]

/-- **One step.** Every script keeps the invariant, with the correction its reply calls for. -/
theorem Conserved.exec {s : Sale} {n : ℕ} (h : Conserved s n) {c : ScriptCall}
    (hc : c.DefaultSeed) : Conserved (c.exec s).2 (restoredAfter n (c.exec s).1) := by
  cases c with
  | seed cfg stockRemaining =>
    obtain ⟨h0, hsafe, rfl⟩ := hc
    rcases seed_cases s cfg cfg.totalStock with ⟨hn, -, e⟩ | ⟨-, -, e⟩
    · have hle := h.unseeded hn
      refine ⟨?_, ?_, ?_, ?_⟩ <;> simp only [ScriptCall.exec, Option.getD_none, e, restoredAfter]
      · exact h.members
      · simp
      · rintro _ ⟨⟩
        exact ⟨cfg.totalStock, rfl, h0, le_rfl, by omega, by omega⟩
      · rintro _ ⟨⟩
        exact hsafe
    · simp only [ScriptCall.exec, Option.getD_none, e, restoredAfter]
      exact h
  | purchase u r t => exact h.purchase u r t
  | compensate u r => exact h.compensate u r
  | compareRestore u r t =>
    simp only [ScriptCall.exec]
    rcases compareRestoreReservation_cases s u r t with ⟨hn, e⟩ | ⟨v, hv, ⟨-, e⟩ | ⟨-, e⟩⟩
    · rw [e]; exact h.restore hn r t
    · rw [e]; exact h.sadd (by simp [Hash.hexists, hv])
    · rw [e]; exact h
  | reconcileMembership u => exact h.reconcileMembership u
  | reconcileState =>
    simp only [ScriptCall.exec]
    cases hcfg : s.config with
    | none =>
      unfold FlashSale.reconcileState
      rw [hcfg]
      exact h
    | some cfg =>
      obtain ⟨stock, hs, h0, h1, h2, h3⟩ := h.seeded cfg hcfg
      rw [reconcileState_of_safe hcfg (by omega) (h.safe cfg hcfg)]
      split_ifs with hover
      · exact h
      · refine ⟨h.members, fun hn => ?_, ?_, h.safe⟩
        · rw [hcfg] at hn
          cases hn
        intro cfg' hc'
        obtain rfl : cfg = cfg' := by simpa [hcfg] using hc'
        refine ⟨cfg.totalStock - s.reservations.hlen, rfl, by omega, by omega, ?_⟩
        simp only [restoredAfter]
        omega
  | status t => exact h
  | inspect u => exact h

/-! ## Runs -/

/-- **Runs.** The invariant holds after any run of scripts from keys that satisfy it. -/
theorem Conserved.run {s : Sale} {n : ℕ} (h : Conserved s n) {cs : List ScriptCall}
    (hcs : ∀ c ∈ cs, c.DefaultSeed) :
    Conserved (runScripts s cs).2 ((runScripts s cs).1.foldl restoredAfter n) := by
  induction cs generalizing s n with
  | nil => exact h
  | cons c cs ih =>
    exact ih (h.exec (hcs c (by simp))) (fun d hd => hcs d (by simp [hd]))

/-- Only a seed of a sale without a configuration writes one. -/
theorem config_exec_cases (s : Sale) (c : ScriptCall) :
    (c.exec s).2.config = s.config ∨
      ∃ cfg stock, c = .seed cfg stock ∧ s.config = none ∧ (c.exec s).2.config = some cfg := by
  cases c with
  | seed cfg stock =>
    simp only [ScriptCall.exec]
    rcases seed_cases s cfg (stock.getD cfg.totalStock) with ⟨hn, -, e⟩ | ⟨-, -, e⟩
    · exact .inr ⟨cfg, stock, rfl, hn, by rw [e]⟩
    · exact .inl (by rw [e])
  | purchase u r t =>
    refine .inl ?_
    simp only [ScriptCall.exec]
    rcases purchase_cases s u r t with ⟨-, hp⟩ | ⟨-, e | ⟨-, e⟩⟩
    · rw [hp.keys]
    · rw [e]
    · rw [e]
  | compensate u r =>
    refine .inl ?_
    simp only [ScriptCall.exec]
    rcases compensate_cases s u r with ⟨e, -⟩ | ⟨v, -, -, ⟨-, e⟩ | ⟨-, -, e⟩ | ⟨-, -, e⟩⟩ <;>
      simp [e, Sale.drop]
  | compareRestore u r t =>
    refine .inl ?_
    simp only [ScriptCall.exec]
    rcases compareRestoreReservation_cases s u r t with ⟨-, e⟩ | ⟨v, -, ⟨-, e⟩ | ⟨-, e⟩⟩ <;>
      simp [e, Sale.restore]
  | reconcileMembership u => exact .inl (reconcileMembership_keys s u).2
  | reconcileState => exact .inl (reconcileState_keys s).2.1
  | status t => exact .inl rfl
  | inspect u => exact .inl rfl

/-- A `SEEDED` leaves a configuration, and a configuration stays as it is. -/
theorem config_exec (s : Sale) (c : ScriptCall) :
    (s.config.isSome → (c.exec s).2.config = s.config) ∧
      ((c.exec s).1.isSeeded → (c.exec s).2.config.isSome) := by
  refine ⟨?_, ?_⟩
  · intro hs
    obtain h | ⟨cfg, stock, -, hn, -⟩ := config_exec_cases s c
    · exact h
    · rw [hn] at hs
      cases hs
  · intro hs
    cases c with
    | seed cfg stock =>
      simp only [ScriptCall.exec]
      rcases seed_cases s cfg (stock.getD cfg.totalStock) with ⟨-, -, e⟩ | ⟨hsome, -, e⟩
      · rw [e]; rfl
      · rw [e]; exact hsome
    | _ => cases hs

theorem config_run (s : Sale) (cs : List ScriptCall) (h : s.config.isSome) :
    (runScripts s cs).2.config = s.config := by
  induction cs generalizing s with
  | nil => rfl
  | cons c cs ih =>
    have hc := (config_exec s c).1 h
    exact (ih (c.exec s).2 (by rw [hc]; exact h)).trans hc

theorem config_isSome_of_seeded (s : Sale) (cs : List ScriptCall)
    (h : ∃ r ∈ (runScripts s cs).1, r.isSeeded) : (runScripts s cs).2.config.isSome := by
  induction cs generalizing s with
  | nil => obtain ⟨r, hr, -⟩ := h; cases hr
  | cons c cs ih =>
    obtain ⟨r, hr, hs⟩ := h
    rcases List.mem_cons.1 hr with rfl | hr
    · have hc := (config_exec s c).2 hs
      show (runScripts (c.exec s).2 cs).2.config.isSome
      rw [config_run _ cs hc]
      exact hc
    · exact ih (c.exec s).2 ⟨r, hr, hs⟩

/-- The replies of a run from empty keys. -/
def repliesOf (calls : List ScriptCall) : List ScriptReply := (runScripts Sale.empty calls).1

/-- The keys after a run from empty keys. -/
def saleAfter (calls : List ScriptCall) : Sale := (runScripts Sale.empty calls).2

theorem conserved_saleAfter {calls : List ScriptCall} (h : ∀ c ∈ calls, c.DefaultSeed) :
    Conserved (saleAfter calls) (restoredSince (repliesOf calls)) := conserved_empty.run h

/-- A reply of a run is the reply of one of its calls in the keys its predecessors left. -/
theorem exists_call_of_mem_replies {s : Sale} {calls : List ScriptCall} {r : ScriptReply}
    (h : r ∈ (runScripts s calls).1) :
    ∃ before c after, calls = before ++ c :: after ∧ r = (c.exec (runScripts s before).2).1 := by
  induction calls generalizing s with
  | nil => cases h
  | cons c cs ih =>
    rcases List.mem_cons.1 h with rfl | h
    · exact ⟨[], c, cs, rfl, rfl⟩
    · obtain ⟨before, d, after, rfl, hr⟩ := ih h
      exact ⟨c :: before, d, after, rfl, hr⟩

theorem repliesOf_subset_append (before after : List ScriptCall) :
    ∀ r ∈ repliesOf before, r ∈ repliesOf (before ++ after) := by
  intro r hr
  unfold repliesOf
  rw [runScripts_append]
  exact List.mem_append_left _ hr

theorem foldl_restoredAfter_eq_zero {rs : List ScriptReply} (h : ∀ r ∈ rs, r.isRestored = false) :
    rs.foldl restoredAfter 0 = 0 := by
  induction rs with
  | nil => rfl
  | cons r rs ih =>
    have hr : restoredAfter 0 r = 0 := by
      have := h r (by simp)
      unfold restoredAfter
      split
      · simp [ScriptReply.isRestored] at this
      · rfl
      · rfl
    rw [List.foldl_cons, hr]
    exact ih fun r' hr' => h r' (by simp [hr'])

/-- With nothing restored since the last reconciliation no compensation is capped and no
reconciliation finds the ledger overcommitted. -/
theorem Conserved.exec_exact {s : Sale} (h : Conserved s 0) (c : ScriptCall) :
    (∀ stock, (c.exec s).1 ≠ .compensate ⟨.compensatedCapped, stock⟩) ∧
      (∀ r, (c.exec s).1 = .reconcileState r → r.outcome ≠ .overcommitted) := by
  refine ⟨fun stock e => ?_, fun r e => ?_⟩
  · cases c <;> simp only [ScriptCall.exec, reduceCtorEq] at e
    case compensate u id =>
      rcases h.compensate_cases u id with e' | ⟨v, hv, ⟨⟨cfg, hc, hcap⟩, -⟩ | ⟨-, e'⟩⟩
      · simp [e'] at e
      · obtain ⟨stock', hs, h0, h1, h2, h3⟩ := h.seeded cfg hc
        have hpos := Hash.hlen_pos_of_some (h := s.reservations) (k := u) (by simp [hv])
        rw [hs, Option.getD_some] at hcap
        omega
      · simp [e'] at e
  · cases c <;> simp only [ScriptCall.exec, reduceCtorEq] at e
    case reconcileState =>
      simp only [ScriptReply.reconcileState.injEq] at e
      subst e
      cases hc : s.config with
      | none =>
        unfold reconcileState
        rw [hc]
        simp
      | some cfg =>
        obtain ⟨stock, hs, h0, h1, h2, h3⟩ := h.seeded cfg hc
        rw [reconcileState_of_safe hc (by omega) (h.safe cfg hc), if_neg (by omega)]
        simp

/-- **The conservation law of the scripts.** For every run from empty keys whose seeds ask for safe
totals and leave the stock to its default: in every state after the first `SEEDED` the stock lies in
`[0, totalStock]`, the buyers are the users of the ledger and `stock + HLEN` exceeds the total by at
most the number of `RESTORED` replies since the last `RECONCILED`; the configuration seeded first
stays. In runs without a `RESTORED` the sum is exact and nothing is capped or overcommitted; and a
compensation that answers `NOOP` never deletes an entry. -/
theorem scripts_conserve_stock (calls : List ScriptCall) (hseed : ∀ c ∈ calls, c.DefaultSeed) :
    ((∃ r ∈ repliesOf calls, r.isSeeded) →
      ∃ cfg stock, (saleAfter calls).config = some cfg ∧ (saleAfter calls).stock = some stock ∧
        0 ≤ stock ∧ stock ≤ cfg.totalStock ∧
        (∀ u, u ∈ (saleAfter calls).buyers.keys ↔ u ∈ (saleAfter calls).reservations.keys) ∧
        (∃ k : ℕ, stock + (saleAfter calls).reservations.hlen = cfg.totalStock + k ∧
          k ≤ restoredSince (repliesOf calls)) ∧
        ((∀ r ∈ repliesOf calls, r.isRestored = false) →
          stock + (saleAfter calls).reservations.hlen = cfg.totalStock)) ∧
    (∀ before after, calls = before ++ after → (∃ r ∈ repliesOf before, r.isSeeded) →
      (saleAfter calls).config = (saleAfter before).config) ∧
    ((∀ r ∈ repliesOf calls, r.isRestored = false) → ∀ r ∈ repliesOf calls,
      (∀ stock, r ≠ .compensate ⟨.compensatedCapped, stock⟩) ∧
        ∀ q, r = .reconcileState q → q.outcome ≠ .overcommitted) ∧
    (∀ before u id after, calls = before ++ .compensate u id :: after →
      (compensate (saleAfter before) u id).1.outcome = .noop →
        (compensate (saleAfter before) u id).2 = saleAfter before) := by
  have hinv := conserved_saleAfter hseed
  refine ⟨fun hs => ?_, ?_, ?_, ?_⟩
  · obtain ⟨cfg, hcfg⟩ := Option.isSome_iff_exists.1 (config_isSome_of_seeded _ _ hs)
    obtain ⟨stock, hst, h0, h1, h2, h3⟩ := hinv.seeded cfg hcfg
    refine ⟨cfg, stock, hcfg, hst, h0, h1, fun u => ?_, ?_, fun hr => ?_⟩
    · rw [← KeySet.sismember_iff_mem_keys, Hash.mem_keys_iff, hinv.members]; rfl
    · exact ⟨(stock + (saleAfter calls).reservations.hlen - cfg.totalStock).toNat,
        by omega, by omega⟩
    · have hz : restoredSince (repliesOf calls) = 0 := foldl_restoredAfter_eq_zero hr
      rw [hz] at h3
      omega
  · rintro before after rfl hs
    have hc := config_isSome_of_seeded _ _ hs
    unfold saleAfter
    rw [runScripts_append]
    exact config_run _ _ hc
  · intro hr r hmem
    obtain ⟨before, c, after, rfl, rfl⟩ := exists_call_of_mem_replies hmem
    have hz : restoredSince (repliesOf before) = 0 := foldl_restoredAfter_eq_zero
      fun r' hr' => hr r' (repliesOf_subset_append before _ r' hr')
    have hb : Conserved (saleAfter before) _ := conserved_saleAfter fun d hd => hseed d (by simp [hd])
    rw [hz] at hb
    exact hb.exec_exact c
  · rintro before u id after rfl ho
    have hb : Conserved (saleAfter before) _ := conserved_saleAfter fun d hd => hseed d (by simp [hd])
    rcases hb.compensate_cases u id with e | ⟨v, hv, ⟨-, e⟩ | ⟨-, e⟩⟩
    · rw [e]
    · rw [e] at ho; cases ho
    · rw [e] at ho; cases ho

/-- The total is a double, but a unit less is none: it reads as the total again, and the release of
the one unit sold is taken for one too many. -/
def unsafeTotalRun : List ScriptCall :=
  [.seed ⟨"flash-2026", "Aurora", "", "", 1000, 2000, 9007199254740996⟩ none,
    .purchase "usr-a" "r1" ⟨1, 500000⟩, .compensate "usr-a" "r1"]

/-- Above the safe integers the law fails: nothing was restored, the compensation is capped, and a
unit is lost. -/
theorem unsafeTotalRun_loses_unit :
    (∀ cfg stock, .seed cfg stock ∈ unsafeTotalRun → 0 ≤ cfg.totalStock ∧ stock = none) ∧
      (∃ r ∈ repliesOf unsafeTotalRun, r.isSeeded) ∧
      (∀ r ∈ repliesOf unsafeTotalRun, r.isRestored = false) ∧
      .compensate ⟨.compensatedCapped, 9007199254740996⟩ ∈ repliesOf unsafeTotalRun ∧
      (saleAfter unsafeTotalRun).config.map SaleConfig.totalStock = some 9007199254740996 ∧
      (saleAfter unsafeTotalRun).stock = some 9007199254740995 ∧
      (saleAfter unsafeTotalRun).reservations.hlen = 0 := by
  refine ⟨fun cfg stock h => ?_, by decide, by decide, by decide, rfl, by decide, by decide⟩
  simp only [unsafeTotalRun, List.mem_cons, List.not_mem_nil, or_false, reduceCtorEq,
    ScriptCall.seed.injEq] at h
  obtain ⟨rfl, rfl⟩ := h
  exact ⟨by decide, rfl⟩

/-- A run on one unit: two rival seeds, a sale, a restoration on top of it, and a compensation. -/
def oneUnitRun : List ScriptCall :=
  [.seed ⟨"flash-2026", "Aurora", "", "", 1000, 2000, 1⟩ none,
    .seed ⟨"flash-2026", "Borealis", "", "", 1000, 3000, 7⟩ none,
    .purchase "usr-a" "r1" ⟨1, 500000⟩,
    .compareRestore "usr-b" "r2" 1200,
    .compensate "usr-a" "r1"]

theorem scripts_conserve_stock_oneUnitRun :
    (∀ c ∈ oneUnitRun, c.DefaultSeed) ∧ restoredSince (repliesOf oneUnitRun) = 1 ∧
      ∃ cfg stock, (saleAfter oneUnitRun).config = some cfg ∧ cfg.totalStock = 1 ∧
        (saleAfter oneUnitRun).stock = some stock ∧ stock ≤ cfg.totalStock ∧
        ∃ k : ℕ, stock + (saleAfter oneUnitRun).reservations.hlen = cfg.totalStock + k ∧ k ≤ 1 := by
  have hseed : ∀ c ∈ oneUnitRun, c.DefaultSeed := by
    simp [oneUnitRun, ScriptCall.DefaultSeed, Number.MAX_SAFE_INTEGER]
  obtain ⟨hseeded, hconfig, -, -⟩ := scripts_conserve_stock oneUnitRun hseed
  obtain ⟨cfg, stock, hcfg, hst, -, hle, -, hk, -⟩ := hseeded ⟨_, List.mem_cons_self, rfl⟩
  refine ⟨hseed, rfl, cfg, stock, hcfg, ?_, hst, hle, hk⟩
  have hfirst : some cfg = (saleAfter (oneUnitRun.take 1)).config :=
    hcfg.symm.trans (hconfig (oneUnitRun.take 1) (oneUnitRun.drop 1) rfl
      ⟨_, List.mem_cons_self, rfl⟩)
  exact congrArg SaleConfig.totalStock (Option.some.inj hfirst)

end FlashSale
