import FlashSale.Lib.Allotment
import FlashSale.Redis.Conservation

/-!
# The sale as an allotment

What the four keys of a sale stand for: who holds a reservation, and how many places there are. The
stock key is the number of free places and the buyers set the set of holders; neither is a state of
its own. `AllottedSale.exec` says what each script does in these terms, and `runScripts_refines` that
every run of the scripts gives the replies of the allotment.

A restoration adds a place of its own, a capped compensation takes one away, and `reconcile-state.lua`
sets their number to the total. The allotment counts exactly; only the figures it replies with are
doubles.
-/

namespace FlashSale

open Redis

/-! ## The abstract sale -/

/-- A sale with the ledger values its users hold. -/
structure AllottedSale where
  config : Option SaleConfig
  places : Allotment String String

namespace AllottedSale

/-- A sale that was never seeded. -/
def empty : AllottedSale := ⟨none, .empty String String⟩

/-- The number of free places as a script reports it. -/
noncomputable def stockRemaining (A : AllottedSale) : ℤ := Number.ofInt A.places.free

/-- A configuration that is there already stays. -/
noncomputable def seed (A : AllottedSale) (cfg : SaleConfig) (stockRemaining : ℤ) :
    SeedReply × AllottedSale :=
  match A.config with
  | none =>
    (⟨.seeded, Number.ofInt stockRemaining, cfg.totalStock, cfg.startsAtMs, cfg.endsAtMs⟩,
      ⟨some cfg, A.places.resize (stockRemaining + A.places.size)⟩)
  | some cur =>
    let drift := cur.startsAtMs ≠ cfg.startsAtMs ∨ cur.endsAtMs ≠ cfg.endsAtMs ∨
      cur.totalStock ≠ cfg.totalStock
    (⟨if drift then .configDrift else .alreadySeeded, A.stockRemaining, cur.totalStock,
      cur.startsAtMs, cur.endsAtMs⟩, A)

/-- A place for a user who holds none, while the sale is open and one is free. -/
noncomputable def purchase (A : AllottedSale) (userId reservationId : String) (t : RedisTime) :
    PurchaseReply × AllottedSale :=
  match A.config with
  | none => (⟨.notInitialized, -1, t.nowMs, ""⟩, A)
  | some cfg =>
    if (t.nowMs : ℤ) < cfg.startsAtMs then (⟨.saleNotStarted, A.stockRemaining, t.nowMs, ""⟩, A)
    else if (t.nowMs : ℤ) ≥ cfg.endsAtMs then (⟨.saleEnded, A.stockRemaining, t.nowMs, ""⟩, A)
    else if A.places.held userId ≠ none then
      (⟨.alreadyPurchased, A.stockRemaining, t.nowMs, ""⟩, A)
    else if A.places.free = 0 then (⟨.soldOut, 0, t.nowMs, ""⟩, A)
    else
      (⟨.confirmed, Number.ofInt (A.places.free - 1), t.nowMs, reservationId⟩,
        ⟨A.config, A.places.grant userId
          (ledgerValue reservationId (Text.luaTostring t.nowMs))⟩)

/-- The holder of the reservation gives its place back; when that many are free, the place goes. -/
noncomputable def compensate (A : AllottedSale) (userId reservationId : String) :
    CompensateReply × AllottedSale :=
  if (A.places.held userId).map ledgerIdentity = some reservationId then
    let places := A.places.revoke userId
    if A.config.any (fun cfg => decide (cfg.totalStock ≤ A.places.free)) then
      (⟨.compensatedCapped, A.stockRemaining⟩, ⟨A.config, places.resize (places.places - 1)⟩)
    else (⟨.compensated, Number.ofInt places.free⟩, ⟨A.config, places⟩)
  else (⟨.noop, A.stockRemaining⟩, A)

/-- A reservation that is missing comes back with a place of its own. -/
def compareRestore (A : AllottedSale) (userId reservationId : String) (reservedAtMs : ℕ) :
    (CompareRestoreOutcome × String) × AllottedSale :=
  match A.places.held userId with
  | none =>
    let value := ledgerValue reservationId (toString reservedAtMs)
    ((.restored, value),
      ⟨A.config, (A.places.grant userId value).resize (A.places.places + 1)⟩)
  | some current =>
    ((if ledgerIdentity current = reservationId then .alreadyMatched else .conflict, current), A)

/-- As many places as the total, unless more are held. -/
noncomputable def reconcileState (A : AllottedSale) : ReconcileStateReply × AllottedSale :=
  match A.config with
  | none => (⟨.notInitialized, -1, -1, 0, -1⟩, A)
  | some cfg =>
    if cfg.totalStock < A.places.size then
      (⟨.overcommitted, A.stockRemaining, A.stockRemaining, Number.ofInt A.places.size,
        cfg.totalStock⟩, A)
    else
      let places := A.places.resize cfg.totalStock
      (⟨.reconciled, A.stockRemaining, places.free, A.places.size, cfg.totalStock⟩,
        ⟨A.config, places⟩)

/-- The configuration and the free places. -/
noncomputable def statusScript (A : AllottedSale) (t : RedisTime) : StatusReply :=
  match A.config with
  | none => ⟨t.nowMs, -1, none⟩
  | some cfg => ⟨t.nowMs, A.stockRemaining, some cfg⟩

/-- A holder is in the ledger and among the buyers, anyone else in neither. -/
def inspectMembership (A : AllottedSale) (userId : String) : MembershipInspection × String :=
  match A.places.held userId with
  | none => (.neither, "")
  | some reservation => (.both, reservation)

/-- What a script answers and does. -/
noncomputable def exec (A : AllottedSale) : ScriptCall → ScriptReply × AllottedSale
  | .seed cfg stockRemaining =>
    let (r, A) := A.seed cfg (stockRemaining.getD cfg.totalStock); (.seed r, A)
  | .purchase u r t => let (r, A) := A.purchase u r t; (.purchase r, A)
  | .compensate u r => let (r, A) := A.compensate u r; (.compensate r, A)
  | .compareRestore u r t =>
    let ((o, v), A) := A.compareRestore u r t; (.compareRestore o v, A)
  | .reconcileMembership u =>
    (.reconcileMembership (if A.places.held u = none then .absent else .present), A)
  | .reconcileState => let (r, A) := A.reconcileState; (.reconcileState r, A)
  | .status t => (.status (A.statusScript t), A)
  | .inspect u => let (o, v) := A.inspectMembership u; (.inspect o v, A)

/-- The scripts one after the other. -/
noncomputable def run (A : AllottedSale) : List ScriptCall → List ScriptReply × AllottedSale
  | [] => ([], A)
  | c :: cs =>
    let (r, A') := A.exec c
    let (rs, A'') := A'.run cs
    (r :: rs, A'')

end AllottedSale

/-! ## What the keys stand for -/

/-- The keys of a sale are those of the allotment. -/
structure Sale.Represents (s : Sale) (A : AllottedSale) : Prop where
  config : s.config = A.config
  ledger : ∀ u, s.reservations.hget u = A.places.held u
  buyers : ∀ u, s.buyers.sismember u = (A.places.held u).isSome
  stock : s.stock.getD 0 = A.places.free
  seeded : s.config.isSome = true → s.stock.isSome = true
  free : 0 ≤ A.places.free
  total : ∀ cfg, s.config = some cfg →
    0 ≤ cfg.totalStock ∧ cfg.totalStock ≤ Number.MAX_SAFE_INTEGER

/-- A seed asks for a total and a stock that are not negative, the total as the environment schemas
take it. -/
def ScriptCall.SeedsStock : ScriptCall → Prop
  | .seed cfg stockRemaining => 0 ≤ cfg.totalStock ∧
    cfg.totalStock ≤ Number.MAX_SAFE_INTEGER ∧ 0 ≤ stockRemaining.getD cfg.totalStock
  | _ => True

namespace Sale.Represents

variable {s : Sale} {A : AllottedSale}

theorem sismember_eq_hexists (h : s.Represents A) (u : String) :
    s.buyers.sismember u = s.reservations.hexists u := by
  rw [h.buyers, Hash.hexists, h.ledger]

theorem hlen_eq (h : s.Represents A) : s.reservations.hlen = A.places.size := by
  refine (Allotment.size_eq_length s.reservations.nodupKeys fun u => ?_).symm
  rw [← h.ledger, ← Option.isSome_iff_ne_none]
  exact Hash.mem_keys_iff

theorem stock_max (h : s.Represents A) :
    max (Number.ofInt (s.stock.getD 0)) 0 = A.stockRemaining := by
  rw [h.stock]
  exact max_eq_left (Number.ofInt_nonneg h.free)

/-- The configured total is exact as a double. -/
theorem ofInt_totalStock (h : s.Represents A) {cfg : SaleConfig} (hc : s.config = some cfg) :
    Number.ofInt cfg.totalStock = cfg.totalStock :=
  Number.ofInt_of_nonneg (h.total cfg hc).1 (h.total cfg hc).2

/-- An initialised sale has a stock, so it does not matter what stands for a missing one. -/
theorem stock_eq (h : s.Represents A) (hc : s.config.isSome = true) :
    s.stock = some A.places.free := by
  obtain ⟨stock, hs⟩ := Option.isSome_iff_exists.1 (h.seeded hc)
  have hfree := h.stock
  rw [hs, Option.getD_some] at hfree
  rw [hs, hfree]

/-- Adding a user who holds a place to the buyers set changes nothing. -/
theorem sadd (h : s.Represents A) {u : String} (hu : A.places.held u ≠ none) :
    Sale.Represents { s with buyers := s.buyers.sadd u } A := by
  rw [KeySet.sadd_of_sismember (by rw [h.buyers]; exact Option.isSome_iff_ne_none.2 hu)]
  exact h

theorem seed (h : s.Represents A) {cfg : SaleConfig} {n : ℤ} (hcfg : 0 ≤ cfg.totalStock)
    (hsafe : cfg.totalStock ≤ Number.MAX_SAFE_INTEGER) (hn : 0 ≤ n) :
    (FlashSale.seed s cfg n).1 = (A.seed cfg n).1 ∧
      (FlashSale.seed s cfg n).2.Represents (A.seed cfg n).2 := by
  unfold FlashSale.seed AllottedSale.seed
  rw [← h.config]
  cases hc : s.config with
  | none =>
    dsimp only
    rw [Number.ofInt_of_nonneg hcfg hsafe]
    refine ⟨rfl, ⟨rfl, h.ledger, h.buyers, ?_, fun _ => rfl, ?_, ?_⟩⟩
    · simp
    · simpa using hn
    · rintro _ ⟨⟩
      exact ⟨hcfg, hsafe⟩
  | some cur =>
    rw [h.stock_eq (by rw [hc]; rfl)]
    dsimp only
    rw [h.ofInt_totalStock hc]
    split_ifs
    · exact ⟨rfl, h⟩
    · exact ⟨rfl, h⟩

theorem held_ne_none_iff (h : s.Represents A) (u : String) :
    (s.buyers.sismember u || s.reservations.hexists u) = true ↔ A.places.held u ≠ none := by
  rw [← h.sismember_eq_hexists, Bool.or_self, h.buyers]
  exact Option.isSome_iff_ne_none

/-- The keys with a new entry of `u` stand for the allotment that grants it a place. -/
theorem grant (h : s.Represents A) {u v : String} (places : ℤ) {stock : Option ℤ}
    (hu : A.places.held u = none) (hstock : stock.getD 0 = places - A.places.size - 1)
    (h0 : 0 ≤ stock.getD 0) (hseeded : s.stock.isSome = true → stock.isSome = true) :
    Sale.Represents
      { s with stock, buyers := s.buyers.sadd u, reservations := s.reservations.hset u v }
      ⟨A.config, (A.places.grant u v).resize places⟩ := by
  have hsize := Allotment.size_grant (x := v) hu
  have hfree : ((A.places.grant u v).resize places).free = stock.getD 0 := by
    rw [Allotment.free_resize, hsize]
    omega
  refine ⟨h.config, fun w => ?_, fun w => ?_, hfree.symm, fun hc => hseeded (h.seeded hc), ?_,
    h.total⟩
  · rw [Hash.hget_hset, h.ledger]
    exact (Allotment.held_grant ..).symm
  · rw [KeySet.sismember_sadd, h.buyers, Allotment.held_resize, Allotment.held_grant]
    by_cases e : w = u
    · simp [e]
    · simp [e]
  · rw [hfree]
    exact h0

/-- The keys without the entry of `u` stand for the allotment that revokes its place. -/
theorem revoke (h : s.Represents A) {u v : String} (places : ℤ) {stock : Option ℤ}
    (hu : A.places.held u = some v) (hstock : stock.getD 0 = places - A.places.size + 1)
    (h0 : 0 ≤ stock.getD 0) (hseeded : s.stock.isSome = true → stock.isSome = true) :
    Sale.Represents { s.drop u with stock } ⟨A.config, (A.places.revoke u).resize places⟩ := by
  have hsize := Allotment.size_revoke hu
  have hfree : ((A.places.revoke u).resize places).free = stock.getD 0 := by
    rw [Allotment.free_resize]
    omega
  refine ⟨h.config, fun w => ?_, fun w => ?_, hfree.symm, fun hc => hseeded (h.seeded hc), ?_,
    h.total⟩
  · show (s.reservations.hdel u).hget w = _
    rw [Hash.hget_hdel, h.ledger]
    exact (Allotment.held_revoke ..).symm
  · show (s.buyers.srem u).sismember w = _
    rw [KeySet.sismember_srem, h.buyers, Allotment.held_resize, Allotment.held_revoke]
    by_cases e : w = u
    · simp [e]
    · simp [e]
  · rw [hfree]
    exact h0

theorem purchase (h : s.Represents A) (u r : String) (t : RedisTime) :
    (FlashSale.purchase s u r t).1 = (A.purchase u r t).1 ∧
      (FlashSale.purchase s u r t).2.Represents (A.purchase u r t).2 := by
  have hfree := h.free
  unfold FlashSale.purchase AllottedSale.purchase
  rw [← h.config]
  cases hc : s.config with
  | none => exact ⟨rfl, h⟩
  | some cfg =>
    have hstock := h.stock_eq (by rw [hc]; rfl)
    dsimp only
    rw [h.stock_max]
    by_cases h1 : (t.nowMs : ℤ) < cfg.startsAtMs
    · rw [if_pos h1, if_pos h1]
      exact ⟨rfl, h⟩
    rw [if_neg h1, if_neg h1]
    by_cases h2 : (t.nowMs : ℤ) ≥ cfg.endsAtMs
    · rw [if_pos h2, if_pos h2]
      exact ⟨rfl, h⟩
    rw [if_neg h2, if_neg h2]
    by_cases h3 : A.places.held u = none
    · rw [if_neg (fun hk => (h.held_ne_none_iff u).1 hk h3), if_neg (not_not.2 h3)]
      have hnone : A.stockRemaining ≤ 0 ↔ A.places.free ≤ 0 := Number.ofInt_nonpos_iff
      by_cases h4 : A.places.free = 0
      · rw [if_pos (by omega), if_pos h4]
        exact ⟨rfl, h⟩
      · rw [if_neg (by omega), if_neg h4, hstock]
        refine ⟨rfl, ?_⟩
        have hstock1 : (some (A.places.free - 1)).getD 0 = A.places.places - A.places.size - 1 := rfl
        have hgrant := h.grant (v := ledgerValue r (Text.luaTostring t.nowMs)) A.places.places h3
          hstock1 (by rw [Option.getD_some]; omega) fun _ => rfl
        rw [← h.config, hc] at hgrant
        exact hgrant
    · rw [if_pos ((h.held_ne_none_iff u).2 h3), if_pos h3]
      refine ⟨rfl, ?_⟩
      have hsadd := h.sadd h3
      rw [hc] at hsadd
      exact hsadd

theorem compensate (h : s.Represents A) (u r : String) :
    (FlashSale.compensate s u r).1 = (A.compensate u r).1 ∧
      (FlashSale.compensate s u r).2.Represents (A.compensate u r).2 := by
  have hfree := h.free
  unfold AllottedSale.compensate
  rcases compensate_cases s u r with ⟨e, hne⟩ | ⟨v, hv, hid, hcases⟩
  · rw [e, h.stock, if_neg]
    · exact ⟨rfl, h⟩
    · intro heq
      obtain ⟨v, hv, hid⟩ := Option.map_eq_some_iff.1 heq
      exact hne v (by rw [h.ledger, hv]) hid
  · have hheld : A.places.held u = some v := by rw [← h.ledger, hv]
    have hmember : s.buyers.sismember u = true := by rw [h.buyers, hheld]; rfl
    have hrevoked := Allotment.free_revoke hheld
    rw [hheld, if_pos (by rw [Option.map_some, hid])]
    rw [h.stock] at hcases
    rcases hcases with ⟨hb, -⟩ | ⟨-, ⟨cfg, hc, hcap⟩, e⟩ | ⟨-, hcap, e⟩
    · rw [hmember] at hb
      cases hb
    · rw [h.ofInt_totalStock hc, Number.le_ofInt_iff hfree (h.total cfg hc).2] at hcap
      rw [e, ← h.config, hc, Option.any_some, decide_eq_true hcap]
      refine ⟨rfl, ?_⟩
      have hstock : s.stock.getD 0 = A.places.places - 1 - A.places.size + 1 := by
        rw [h.stock]
        unfold Allotment.free
        omega
      have hrep := h.revoke (A.places.places - 1) hheld hstock (by rw [h.stock]; exact hfree) id
      rw [← h.config, hc] at hrep
      exact hrep
    · have hany : A.config.any (fun cfg => decide (cfg.totalStock ≤ A.places.free)) = false := by
        rw [← h.config]
        cases hc : s.config with
        | none => rfl
        | some cfg =>
          have hlt := hcap cfg hc
          rw [h.ofInt_totalStock hc, ← not_le, Number.le_ofInt_iff hfree (h.total cfg hc).2] at hlt
          rw [Option.any_some]
          exact decide_eq_false hlt
      rw [e, hany]
      refine ⟨?_, ?_⟩
      · simp [hrevoked]
      · refine h.revoke A.places.places hheld ?_ ?_ fun _ => rfl
        · rw [Option.getD_some]
          unfold Allotment.free
          omega
        · rw [Option.getD_some]
          omega

theorem compareRestore (h : s.Represents A) (u r : String) (t : ℕ) :
    (compareRestoreReservation s u r t).1 = (A.compareRestore u r t).1 ∧
      (compareRestoreReservation s u r t).2.Represents (A.compareRestore u r t).2 := by
  have hfree := h.free
  unfold AllottedSale.compareRestore
  rcases compareRestoreReservation_cases s u r t with ⟨hn, e⟩ | ⟨v, hv, hcases⟩
  · have hheld : A.places.held u = none := by rw [← h.ledger, hn]
    rw [e, hheld]
    refine ⟨rfl, h.grant (A.places.places + 1) hheld ?_ ?_ id⟩
    · rw [h.stock]
      unfold Allotment.free
      omega
    · rw [h.stock]
      exact hfree
  · have hheld : A.places.held u = some v := by rw [← h.ledger, hv]
    rw [hheld]
    rcases hcases with ⟨hid, e⟩ | ⟨hid, e⟩
    · rw [e]
      dsimp only
      rw [if_pos hid]
      exact ⟨rfl, h.sadd (by rw [hheld]; simp)⟩
    · rw [e]
      dsimp only
      rw [if_neg hid]
      exact ⟨rfl, h⟩

theorem reconcileMembership (h : s.Represents A) (u : String) :
    (FlashSale.reconcileMembership s u).1 =
        (if A.places.held u = none then .absent else .present) ∧
      (FlashSale.reconcileMembership s u).2.Represents A := by
  unfold FlashSale.reconcileMembership Hash.hexists
  rw [h.ledger]
  by_cases hu : A.places.held u = none
  · rw [hu, if_neg (by simp), if_pos rfl]
    refine ⟨rfl, h.config, h.ledger, fun w => ?_, h.stock, h.seeded, h.free, h.total⟩
    rw [KeySet.sismember_srem, h.buyers]
    by_cases e : w = u
    · simp [e, hu]
    · simp [e]
  · rw [if_pos (Option.isSome_iff_ne_none.2 hu), if_neg hu]
    exact ⟨rfl, h.sadd hu⟩

theorem reconcileState (h : s.Represents A) :
    (FlashSale.reconcileState s).1 = A.reconcileState.1 ∧
      (FlashSale.reconcileState s).2.Represents A.reconcileState.2 := by
  unfold AllottedSale.reconcileState
  rw [← h.config]
  cases hc : s.config with
  | none =>
    unfold FlashSale.reconcileState
    rw [hc]
    exact ⟨rfl, h⟩
  | some cfg =>
    have htotal := h.total cfg hc
    rw [reconcileState_of_safe hc htotal.1 htotal.2]
    dsimp only
    rw [h.stock_eq (by rw [hc]; rfl), h.hlen_eq, Option.getD_some]
    by_cases hover : cfg.totalStock < A.places.size
    · rw [if_pos hover, if_pos hover]
      exact ⟨rfl, h⟩
    · rw [if_neg hover, if_neg hover]
      refine ⟨rfl, hc, h.ledger, h.buyers, rfl, fun _ => rfl, ?_, h.total⟩
      rw [Allotment.free_resize]
      omega

theorem statusScript (h : s.Represents A) (t : RedisTime) :
    FlashSale.statusScript s t = A.statusScript t := by
  unfold FlashSale.statusScript AllottedSale.statusScript
  rw [← h.config]
  cases hc : s.config with
  | none => rfl
  | some cfg =>
    dsimp only
    rw [h.stock_eq (by rw [hc]; rfl), h.ofInt_totalStock hc]
    rfl

theorem inspectMembership (h : s.Represents A) (u : String) :
    FlashSale.inspectMembership s u = A.inspectMembership u := by
  unfold FlashSale.inspectMembership AllottedSale.inspectMembership
  rw [h.buyers, h.ledger]
  cases A.places.held u with
  | none => rfl
  | some v => rfl

/-- **One script.** It replies what the allotment says and leaves the keys of the next one. -/
theorem exec (h : s.Represents A) {c : ScriptCall} (hc : c.SeedsStock) :
    (c.exec s).1 = (A.exec c).1 ∧ (c.exec s).2.Represents (A.exec c).2 := by
  cases c with
  | seed cfg stockRemaining =>
    obtain ⟨hreply, hkeys⟩ := h.seed hc.1 hc.2.1 hc.2.2
    exact ⟨congrArg ScriptReply.seed hreply, hkeys⟩
  | purchase u r t =>
    obtain ⟨hreply, hkeys⟩ := h.purchase u r t
    exact ⟨congrArg ScriptReply.purchase hreply, hkeys⟩
  | compensate u r =>
    obtain ⟨hreply, hkeys⟩ := h.compensate u r
    exact ⟨congrArg ScriptReply.compensate hreply, hkeys⟩
  | compareRestore u r t =>
    obtain ⟨hreply, hkeys⟩ := h.compareRestore u r t
    exact ⟨congrArg (fun q : CompareRestoreOutcome × String => ScriptReply.compareRestore q.1 q.2)
      hreply, hkeys⟩
  | reconcileMembership u =>
    obtain ⟨hreply, hkeys⟩ := h.reconcileMembership u
    exact ⟨congrArg ScriptReply.reconcileMembership hreply, hkeys⟩
  | reconcileState =>
    obtain ⟨hreply, hkeys⟩ := h.reconcileState
    exact ⟨congrArg ScriptReply.reconcileState hreply, hkeys⟩
  | status t => exact ⟨congrArg ScriptReply.status (h.statusScript t), h⟩
  | inspect u =>
    exact ⟨congrArg (fun q : MembershipInspection × String => ScriptReply.inspect q.1 q.2)
      (h.inspectMembership u), h⟩

/-- **Runs.** -/
theorem run (h : s.Represents A) {cs : List ScriptCall} (hcs : ∀ c ∈ cs, c.SeedsStock) :
    (runScripts s cs).1 = (A.run cs).1 ∧ (runScripts s cs).2.Represents (A.run cs).2 := by
  induction cs generalizing s A with
  | nil => exact ⟨rfl, h⟩
  | cons c cs ih =>
    obtain ⟨hreply, hkeys⟩ := h.exec (hcs c List.mem_cons_self)
    obtain ⟨hreplies, hlast⟩ := ih hkeys fun d hd => hcs d (List.mem_cons_of_mem c hd)
    exact ⟨congrArg₂ List.cons hreply hreplies, hlast⟩

end Sale.Represents

end FlashSale
