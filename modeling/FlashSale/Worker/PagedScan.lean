import FlashSale.Worker.Reconciliation
import FlashSale.Worker.Rows
import Mathlib.Logic.Relation

/-!
# The scan of the orders under concurrent writers

`scanOrders` reads the rows of the sale by pages while persisters and the resolver commit. A new row
shifts the rows behind it to later offsets, so a row may be read twice, in two versions, but the scan
misses none that was there when it began (`scanOrders_misses_nothing`). `byUser` keeps the version that
was read last.
-/

namespace FlashSale

/-! ## The world around the scan -/

/-- What a transaction commits between two pages: the row of a new user, or a new version of a row in
the same sale. Anything else may change as well. -/
inductive Commits (s s' : Stores) : Prop
  | insert (row : DurableOrder) (hnew : s.db.row? row.userId = none)
      (horders : s'.db.orders = (s.db.apply (.insert row)).orders)
  | update (row old : DurableOrder) (hold : s.db.row? row.userId = some old)
      (hsale : row.saleId = old.saleId)
      (horders : s'.db.orders = (s.db.apply (.update row)).orders)
  | other (horders : s'.db.orders = s.db.orders)

/-- Any number of commits. -/
abbrev Written : Stores → Stores → Prop := Relation.ReflTransGen Commits

/-- Call number `k` meets the stores `tables k` and the fault `faults k`. -/
def answerAt (tables : ℕ → Stores) (faults : ℕ → Fault) (o : Call) (k : ℕ) :
    Option (Except Failure o.Res × ℕ) :=
  ((tables k).performWith (faults k) o).map fun q => (q.1, k + 1)

/-- The page that call number `k` of a scan reads. -/
def salePage (env : WorkerEnv) (tables : ℕ → Stores) (k : ℕ) : List DurableOrder :=
  (tables k).ordersPage env.SALE_ID (k * env.WORKER_RECONCILE_SCAN_COUNT)
    env.WORKER_RECONCILE_SCAN_COUNT

variable {env : WorkerEnv} {s s' : Stores} {tables : ℕ → Stores} {faults : ℕ → Fault}

/-! ## The run of the scan -/

/-- The answer to the call for a page. -/
theorem answerAt_page (env : WorkerEnv) (tables : ℕ → Stores) (faults : ℕ → Fault) (k : ℕ) :
    answerAt tables faults (.listSaleOrders env.SALE_ID
      (k * env.WORKER_RECONCILE_SCAN_COUNT) env.WORKER_RECONCILE_SCAN_COUNT) k =
        some (.ok (salePage env tables k), k + 1) ∨
    answerAt tables faults (.listSaleOrders env.SALE_ID
      (k * env.WORKER_RECONCILE_SCAN_COUNT) env.WORKER_RECONCILE_SCAN_COUNT) k =
        some (.error .upstream, k + 1) := by
  unfold answerAt
  cases faults k with
  | none => exact .inl rfl
  | before => exact .inr rfl
  | after => exact .inr rfl

/-- A scan that returns has read page after page, up to the first short one. -/
theorem run_scanOrders {fuel k n : ℕ} {acc rows : List DurableOrder}
    (h : (scanOrders env fuel (k * env.WORKER_RECONCILE_SCAN_COUNT) acc).run
      (answerAt tables faults) k = some (.ok rows, n)) :
    ∃ m, n = k + m + 1 ∧ rows = acc ++ (List.range' k (m + 1)).flatMap (salePage env tables) ∧
      (salePage env tables (k + m)).length < env.WORKER_RECONCILE_SCAN_COUNT := by
  induction fuel generalizing k acc with
  | zero => cases h
  | succ fuel ih =>
    unfold scanOrders request at h
    rcases answerAt_page env tables faults k with hok | hfail
    · rw [Prog.bind_eq, Prog.run_call_bind hok] at h
      split_ifs at h with hshort
      · obtain ⟨hrows, hn⟩ := Prod.mk.inj (Option.some.inj h)
        refine ⟨0, hn.symm, ?_, hshort⟩
        rw [← Except.ok.inj hrows]
        simp
      · have hnext : k * env.WORKER_RECONCILE_SCAN_COUNT + env.WORKER_RECONCILE_SCAN_COUNT =
            (k + 1) * env.WORKER_RECONCILE_SCAN_COUNT := (Nat.succ_mul _ _).symm
        rw [hnext] at h
        obtain ⟨m, hn, hrows, hlast⟩ := ih h
        refine ⟨m + 1, by omega, ?_, ?_⟩
        · rw [hrows, List.append_assoc, List.range'_succ (s := k) (n := m + 1), List.flatMap_cons]
        · have hidx : k + (m + 1) = k + 1 + m := by omega
          rw [hidx]
          exact hlast
    · rw [Prog.bind_eq, Prog.run_bind_of_error (Prog.run_call hfail)] at h
      cases h

/-! ## The users of the sale -/

/-- The users with a row of the sale, in the order of the rows. -/
def saleUsers (env : WorkerEnv) (s : Stores) : List String :=
  (s.db.orders.filter (·.saleId = env.SALE_ID)).map (·.userId)

theorem map_salePage (env : WorkerEnv) (tables : ℕ → Stores) (k : ℕ) :
    (salePage env tables k).map (·.userId) =
      Paging.page (saleUsers env (tables k)) env.WORKER_RECONCILE_SCAN_COUNT k := by
  unfold salePage Stores.ordersPage Paging.page saleUsers
  rw [List.map_take, List.map_drop]

/-- A new version of a row has its user and its sale. -/
theorem saleUsers_update {row old : DurableOrder} (hnodup : (s.db.orders.map (·.userId)).Nodup)
    (hold : s.db.row? row.userId = some old) (hsale : row.saleId = old.saleId)
    (horders : s'.db.orders = (s.db.apply (.update row)).orders) :
    saleUsers env s' = saleUsers env s := by
  have hsame : ∀ r ∈ s.db.orders, (if r.userId = row.userId then row else r).userId = r.userId ∧
      (if r.userId = row.userId then row else r).saleId = r.saleId := by
    intro r hr
    split_ifs with hu
    · have hrow := Db.row?_of_mem_orders hnodup hr
      rw [hu, hold] at hrow
      obtain rfl := Option.some.inj hrow
      exact ⟨hu.symm, hsale⟩
    · exact ⟨rfl, rfl⟩
  have hfilter : s.db.orders.filter ((fun r => decide (r.saleId = env.SALE_ID)) ∘
      fun r => if r.userId = row.userId then row else r) =
      s.db.orders.filter fun r => decide (r.saleId = env.SALE_ID) := by
    apply List.filter_congr
    intro r hr
    show decide ((if r.userId = row.userId then row else r).saleId = env.SALE_ID) = _
    rw [(hsame r hr).2]
  unfold saleUsers
  rw [horders]
  show ((s.db.orders.map fun r => if r.userId = row.userId then row else r).filter _).map _ = _
  rw [List.filter_map, List.map_map, hfilter]
  apply List.map_congr_left
  intro r hr
  exact (hsame r (List.mem_filter.1 hr).1).1

/-- One user has one row. -/
def OneRowEach (s : Stores) : Prop := (s.db.orders.map (·.userId)).Nodup

instance (s : Stores) : Decidable (OneRowEach s) :=
  inferInstanceAs (Decidable (s.db.orders.map (·.userId)).Nodup)

theorem Commits.grows (env : WorkerEnv) (h : Commits s s') (hone : OneRowEach s) :
    OneRowEach s' ∧ (saleUsers env s).Sublist (saleUsers env s') := by
  cases h with
  | insert row hnew horders =>
    constructor
    · unfold OneRowEach
      rw [horders, Db.users_apply_insert, (List.perm_orderedInsert _ _ _).nodup_iff, List.nodup_cons]
      refine ⟨fun hmem => ?_, hone⟩
      obtain ⟨old, hold, hu⟩ := List.mem_map.1 hmem
      exact Db.row?_eq_none.1 hnew old hold hu
    · unfold saleUsers
      rw [horders]
      exact ((List.sublist_orderedInsert _ _).filter _).map _
  | update row old hold hsale horders =>
    constructor
    · unfold OneRowEach
      rw [horders, Db.users_apply_update]
      exact hone
    · rw [saleUsers_update hone hold hsale horders]
  | other horders =>
    constructor
    · unfold OneRowEach
      rw [horders]
      exact hone
    · unfold saleUsers
      rw [horders]

theorem Written.grows (env : WorkerEnv) (h : Written s s') (hone : OneRowEach s) :
    OneRowEach s' ∧ (saleUsers env s).Sublist (saleUsers env s') := by
  induction h with
  | refl => exact ⟨hone, List.Sublist.refl _⟩
  | tail _ hstep ih =>
    obtain ⟨hone', hsub⟩ := ih
    obtain ⟨hone'', hsub'⟩ := hstep.grows env hone'
    exact ⟨hone'', hsub.trans hsub'⟩

/-! ## The scan -/

/-- The last of the pages that has a row of the user. -/
def LastRead (env : WorkerEnv) (tables : ℕ → Stores) (n : ℕ) (u : String) (row : DurableOrder) :
    Prop :=
  row.userId = u ∧ ∃ k < n, row ∈ salePage env tables k ∧
    ∀ j, k < j → j < n → ∀ row' ∈ salePage env tables j, row'.userId ≠ u

/-- A page has at most one row of a user. -/
theorem salePage_inj {k : ℕ} (hone : OneRowEach (tables k)) {row row' : DurableOrder}
    (h : row ∈ salePage env tables k) (h' : row' ∈ salePage env tables k)
    (hu : row.userId = row'.userId) : row = row' := by
  have hmem : ∀ r ∈ salePage env tables k, r ∈ (tables k).db.orders := fun r hr =>
    List.mem_of_mem_filter (List.mem_of_mem_drop (List.mem_of_mem_take hr))
  exact List.inj_on_of_nodup_map hone (hmem row h) (hmem row' h') hu

theorem mapOf_append {α : Type} (key : α → String) (xs ys : List α) (u : String) :
    mapOf key (xs ++ ys) u = (mapOf key ys u).or (mapOf key xs u) := by
  unfold mapOf
  rw [List.reverse_append, List.find?_append]

theorem mapOf_eq_none {α : Type} {key : α → String} {xs : List α} {u : String} :
    mapOf key xs u = none ↔ ∀ x ∈ xs, key x ≠ u := by
  unfold mapOf
  rw [List.find?_eq_none]
  simp

/-- The map over the pages of a scan holds the version that was read last. -/
theorem mapOf_pages (hone : ∀ k, OneRowEach (tables k)) (n : ℕ) (u : String)
    (row : DurableOrder) :
    mapOf (·.userId) ((List.range' 0 n).flatMap (salePage env tables)) u = some row ↔
      LastRead env tables n u row := by
  induction n with
  | zero =>
    constructor
    · intro h
      cases h
    · rintro ⟨-, k, hk, -⟩
      omega
  | succ n ih =>
    rw [List.range'_concat, List.flatMap_append, mapOf_append, Option.or_eq_some_iff, ih]
    simp only [Nat.zero_add, Nat.one_mul, List.flatMap_singleton]
    constructor
    · rintro (hlast | ⟨hnone, hu, k, hk, hmem, hrest⟩)
      · have hmem : row ∈ salePage env tables n :=
          List.mem_reverse.1 (List.mem_of_find?_eq_some hlast)
        have hu : row.userId = u := by simpa using List.find?_some hlast
        exact ⟨hu, n, by omega, hmem, fun j hj hj' => by omega⟩
      · refine ⟨hu, k, by omega, hmem, fun j hkj hj row' hrow' => ?_⟩
        rcases Nat.lt_or_ge j n with hlt | hge
        · exact hrest j hkj hlt row' hrow'
        · obtain rfl : j = n := by omega
          exact mapOf_eq_none.1 hnone row' hrow'
    · rintro ⟨hu, k, hk, hmem, hrest⟩
      rcases Nat.lt_or_ge k n with hlt | hge
      · right
        exact ⟨mapOf_eq_none.2 fun row' hrow' => hrest n hlt (by omega) row' hrow', hu, k, hlt, hmem,
          fun j hkj hj => hrest j hkj (by omega)⟩
      · left
        obtain rfl : k = n := by omega
        cases hfind : mapOf (·.userId) (salePage env tables k) u with
        | none => exact absurd hu (mapOf_eq_none.1 hfind row hmem)
        | some row' =>
          have hmem' : row' ∈ salePage env tables k :=
            List.mem_reverse.1 (List.mem_of_find?_eq_some hfind)
          have hu' : row'.userId = u := by simpa using List.find?_some hfind
          rw [salePage_inj (hone k) hmem' hmem (hu'.trans hu.symm)]

/-- Whatever is committed between the pages of a scan that returns: for every row of the sale that was
there when it began, the result has a version that the table held at one of its pages; and the map by
user holds, for each user, the version of the last page that returned the user. -/
theorem scanOrders_misses_nothing {start : Stores} {fuel n : ℕ} {rows : List DurableOrder}
    (hone : OneRowEach start) (hfirst : Written start (tables 0))
    (hnext : ∀ k, Written (tables k) (tables (k + 1)))
    (hrun : (scanOrders env fuel 0 []).run (answerAt tables faults) 0 = some (.ok rows, n)) :
    (∀ row ∈ start.db.orders, row.saleId = env.SALE_ID → ∃ row' ∈ rows, row'.userId = row.userId ∧
      ∃ k < n, (tables k).db.row? row.userId = some row') ∧
    ∀ u row, mapOf (·.userId) rows u = some row ↔ LastRead env tables n u row := by
  have hones : ∀ k, OneRowEach (tables k) := by
    intro k
    induction k with
    | zero => exact (hfirst.grows env hone).1
    | succ k ih => exact ((hnext k).grows env ih).1
  obtain ⟨m, hn, hrows, hlast⟩ := run_scanOrders (k := 0) (by rw [Nat.zero_mul]; exact hrun)
  rw [Nat.zero_add] at hn hlast
  subst hn
  rw [List.nil_append] at hrows
  subst hrows
  refine ⟨fun row hrow hsale => ?_, mapOf_pages hones (m + 1)⟩
  have huser : row.userId ∈ saleUsers env (tables 0) := by
    apply (hfirst.grows env hone).2.subset
    exact List.mem_map_of_mem (List.mem_filter.2 ⟨hrow, by simpa using hsale⟩)
  have hshort : (Paging.page (saleUsers env (tables m)) env.WORKER_RECONCILE_SCAN_COUNT m).length <
      env.WORKER_RECONCILE_SCAN_COUNT := by
    rw [← map_salePage, List.length_map]
    exact hlast
  have hnodup : ∀ k, (saleUsers env (tables k)).Nodup := fun k =>
    (hones k).sublist (List.filter_sublist.map _)
  obtain ⟨k, hk, hread⟩ := Paging.mem_page_of_grows
    (fun k => ((hnext k).grows env (hones k)).2) hnodup hshort huser
  rw [← map_salePage] at hread
  obtain ⟨row', hrow', hu⟩ := List.mem_map.1 hread
  refine ⟨row', ?_, hu, k, by omega, ?_⟩
  · exact List.mem_flatMap.2 ⟨k, by simp; omega, hrow'⟩
  · rw [← hu]
    apply Db.row?_of_mem_orders (hones k)
    exact List.mem_of_mem_filter (List.mem_of_mem_drop (List.mem_of_mem_take hrow'))

/-! Pages of one row. Bobby is read twice, because Alice's row came before his; Davis is read in the
version that was committed during the scan. -/

/-- Pages of one row. -/
def onePerPage : WorkerEnv :=
  { oneUnitEnv with WORKER_RECONCILE_SCAN_COUNT := 1, reconcilePage_pos := by decide }

def orderOf (userId id : String) (status : DurableOrderStatus) : DurableOrder :=
  ⟨id, userId, "flash-2026", status, 1500, "req-1"⟩

def withOrders (orders : List DurableOrder) : Stores where
  sales := fun _ => Sale.empty
  time := ⟨1, 0⟩
  ledgerBucket := fun _ => 0
  buyerBucket := fun _ => 0
  queue := ⟨[], false, 0⟩
  db := ⟨orders, [], ∅, String.length⟩
  failedScanOffset := 0

def shiftedTables : ℕ → Stores
  | 0 => withOrders [orderOf "bobby" "r1" .persisted, orderOf "davis" "r2" .compensated]
  | 1 => withOrders [orderOf "alice" "r3" .persisted, orderOf "bobby" "r1" .persisted,
      orderOf "davis" "r2" .compensated]
  | _ => withOrders [orderOf "alice" "r3" .persisted, orderOf "bobby" "r1" .persisted,
      orderOf "davis" "r4" .persisted]

theorem written_shiftedTables (k : ℕ) : Written (shiftedTables k) (shiftedTables (k + 1)) := by
  match k with
  | 0 =>
    apply Relation.ReflTransGen.single
    exact .insert (orderOf "alice" "r3" .persisted) (by decide +kernel) (by decide +kernel)
  | 1 =>
    apply Relation.ReflTransGen.single
    exact .update (orderOf "davis" "r4" .persisted) (orderOf "davis" "r2" .compensated)
      (by decide +kernel) rfl (by decide +kernel)
  | k + 2 => exact Relation.ReflTransGen.refl

theorem scanOrders_misses_nothing_shifted :
    (scanOrders onePerPage 5 0 []).run (answerAt shiftedTables fun _ => .none) 0 =
      some (.ok [orderOf "bobby" "r1" .persisted, orderOf "bobby" "r1" .persisted,
        orderOf "davis" "r4" .persisted], 4) ∧
    LastRead onePerPage shiftedTables 4 "davis" (orderOf "davis" "r4" .persisted) := by
  have hrun : (scanOrders onePerPage 5 0 []).run (answerAt shiftedTables fun _ => .none) 0 =
      some (.ok [orderOf "bobby" "r1" .persisted, orderOf "bobby" "r1" .persisted,
        orderOf "davis" "r4" .persisted], 4) := by
    rfl
  have hone : OneRowEach (shiftedTables 0) := by decide +kernel
  have hkept := scanOrders_misses_nothing hone Relation.ReflTransGen.refl written_shiftedTables hrun
  exact ⟨hrun, (hkept.2 "davis" _).1 (by decide +kernel)⟩

end FlashSale
