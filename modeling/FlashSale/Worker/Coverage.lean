import FlashSale.Worker.Safety

/-!
# Coverage of the ledger

An entry of the ledger is covered while its order is persisted or its job is in the queue and not
completed. A covered entry that stays in the ledger stays covered in every run, whatever completes,
stalls, fails or is removed in between, with one exception: `Job.remove` goes by the id. Where the
job a pass has loaded is gone and another one has taken its slot, the pass removes that one.
-/

namespace FlashSale

open Shared

/-! ## Live jobs -/

namespace JobQueue

variable {q q' : JobQueue} {id : String} {s s' : StoredJob}

/-- A job that is neither completed nor gone stays so. -/
def StaysLive (q q' : JobQueue) (id : String) : Prop :=
  ∀ s, q.find id = some s → s.state.isLive = true →
    ∃ s', q'.find id = some s' ∧ s'.state.isLive = true ∧ s.Continues s'

theorem StaysLive.of_find (h : q'.find id = q.find id) : q.StaysLive q' id :=
  fun s hs hlive => ⟨s, h.trans hs, hlive, .refl s⟩

theorem StaysLive.move (hs : q.find s.job.id = some s) (hc : s.Continues s')
    (hlive : s'.state.isLive = true) : q.StaysLive (q.move s') id := by
  by_cases hid : id = s'.job.id
  · intro t ht _
    rw [hid, hc.id, hs] at ht
    obtain rfl := Option.some.inj ht
    exact ⟨s', (find_move q s' id).trans (if_pos hid), hlive, hc⟩
  · exact .of_find ((find_move q s' id).trans (if_neg hid))

theorem StaysLive.add (q : JobQueue) (id' name : String) (data : JsValue) (attempts : ℕ) :
    q.StaysLive (q.add id' name data attempts) id := by
  intro s hs hlive
  refine ⟨s, ?_, hlive, .refl s⟩
  rw [find_add, if_neg]
  · exact hs
  · rintro ⟨rfl, hn⟩
    rw [hs] at hn
    cases hn

theorem StaysLive.deliver {id' : String} {token : ℕ} {job : Job}
    (h : q.deliver id' token = some (job, q')) : q.StaysLive q' id := by
  obtain ⟨s, hs, -, -, rfl⟩ := deliver_cases h
  obtain ⟨-, rfl⟩ := find_some hs
  exact .move hs ⟨rfl, rfl, rfl, rfl, rfl⟩ rfl

theorem StaysLive.fail (q : JobQueue) (id' : String) (token : ℕ) (reason : String) :
    q.StaysLive (q.fail id' token reason) id := by
  rcases q.fail_cases id' token reason with e | ⟨s, s', hs, -, hc, hlive, -, e⟩
  · rw [e]
    exact .of_find rfl
  · obtain ⟨-, rfl⟩ := find_some hs
    rw [e]
    exact .move hs hc hlive

theorem StaysLive.stall (q : JobQueue) (id' : String) : q.StaysLive (q.stall id') id := by
  rcases q.stall_cases id' with e | ⟨s, s', hs, -, hc, hlive, -, e⟩
  · rw [e]
    exact .of_find rfl
  · obtain ⟨-, rfl⟩ := find_some hs
    rw [e]
    exact .move hs hc hlive

theorem StaysLive.promote (q : JobQueue) (id' : String) : q.StaysLive (q.promote id') id := by
  rcases q.promote_cases id' with e | ⟨s, hs, -, e⟩
  · rw [e]
    exact .of_find rfl
  · obtain ⟨-, rfl⟩ := find_some hs
    rw [e]
    exact .move (s := s) hs ⟨rfl, rfl, rfl, rfl, rfl⟩ rfl

/-- A completion ends one job, the one whose lock the token holds. -/
theorem StaysLive.complete (hq : q.Distinct) (id' : String) (token : ℕ)
    (h : id = id' → ∀ s, q.find id = some s → s.lock ≠ some token) :
    q.StaysLive (q.complete id' token) id := by
  rcases q.complete_cases id' token with e | ⟨s, hs, -, hlock, e⟩
  · rw [e]
    exact .of_find rfl
  obtain ⟨-, rfl⟩ := find_some hs
  have hne : id ≠ s.job.id := by
    rintro rfl
    exact h rfl s hs hlock
  have hmove : (q.move { s with state := .completed, lock := none }).find id = q.find id :=
    (find_move q _ id).trans (if_neg hne)
  intro t ht hlive
  refine ⟨t, ?_, hlive, .refl t⟩
  rw [e]
  -- the trimming drops no live job
  rcases find_trim (hq.move { s with state := .completed, lock := none }) id with e | ⟨-, t', ht', hd⟩
  · exact e.trans (hmove.trans ht)
  · obtain rfl := Option.some.inj (ht.symm.trans (hmove.symm.trans ht'))
    rw [hd] at hlive
    cases hlive

theorem StaysLive.remove (q : JobQueue) (id' : String)
    (h : id = id' → ∀ s, q.find id = some s → s.lock.isSome) :
    q.StaysLive (q.remove id').2 id := by
  rcases q.remove_cases id' with e | ⟨⟨s, hs, hlock⟩, e⟩
  · rw [e]
    exact .of_find rfl
  · refine .of_find ?_
    rw [e]
    refine (find_erase q id' id).trans (if_neg ?_)
    rintro rfl
    have hsome := h rfl s hs
    rw [hlock] at hsome
    cases hsome

end JobQueue

/-! ## Covered entries -/

namespace Shared

variable {env : WorkerEnv} {s s' : Shared} {u id : String}

/-- The order `id` of `u` is persisted, or its job is waiting, active, delayed or failed. -/
def Covered (env : WorkerEnv) (s : Shared) (u id : String) : Prop :=
  s.stores.db.RowIs u id .persisted ∨
    ∃ st ∈ s.slot env u, st.state.isLive = true ∧ st.job.identity = some id

instance (env : WorkerEnv) (s : Shared) (u id : String) : Decidable (s.Covered env u id) :=
  inferInstanceAs (Decidable (_ ∨ _))

theorem Covered.keep (h : s.Covered env u id)
    (hrow : s.stores.db.RowIs u id .persisted → s'.stores.db.RowIs u id .persisted)
    (hqueue : s.stores.queue.StaysLive s'.stores.queue (env.jobId u)) : s'.Covered env u id := by
  rcases h with hr | ⟨st, hst, hlive, hid⟩
  · exact .inl (hrow hr)
  · obtain ⟨st', hst', hlive', hc⟩ := hqueue st hst hlive
    refine .inr ⟨st', hst', hlive', ?_⟩
    unfold Job.identity at *
    rw [hc.data]
    exact hid

/-- A turn of the queue that ends no live job of the user. -/
theorem Covered.turn (h : s.Covered env u id) {q : JobQueue}
    (hqueue : s.stores.queue.StaysLive q (env.jobId u)) : (s.setQueue q).Covered env u id :=
  h.keep (fun hr => hr) hqueue

theorem persisted_call (hi : s.Inv env) {o : Call} {fault : Fault} {r : Except Failure o.Res}
    (hcall : s.call fault o = some (r, s')) (h : s.stores.db.RowIs u id .persisted) :
    s'.stores.db.RowIs u id .persisted := by
  rcases call_cases hcall with ⟨r', t, hp, rfl, -⟩ | ⟨-, rfl, -⟩
  swap
  · exact h
  cases o
  case sql c stm =>
    obtain ⟨⟨r'', db⟩, he, e⟩ := Option.map_eq_some_iff.1 hp
    obtain ⟨-, rfl⟩ := Prod.mk.inj e
    obtain ⟨row, hr, hid, hst⟩ := h
    exact ⟨row, (Db.Evolves.exec hi.repo.wf he).keeps u row hr hst, hid, hst⟩
  case insertSale row =>
    obtain ⟨-, rfl⟩ := Prod.mk.inj (Option.some.inj hp)
    dsimp only
    split_ifs
    · exact h
    · exact h
  all_goals
    obtain ⟨-, rfl⟩ := Prod.mk.inj (Option.some.inj hp)
    exact h

/-- A call ends no live job, unless it removes one. -/
theorem staysLive_call {o : Call} {fault : Fault} {r : Except Failure o.Res}
    (hcall : s.call fault o = some (r, s')) (hremove : ∀ job, o = .removeJob job →
      s.stores.queue.StaysLive (s.stores.queue.remove job.id).2 (env.jobId u)) :
    s.stores.queue.StaysLive s'.stores.queue (env.jobId u) := by
  rcases call_cases hcall with ⟨r', t, hp, rfl, -⟩ | ⟨-, rfl, -⟩
  swap
  · exact .of_find rfl
  cases o
  case addJob id' name data attempts =>
    obtain ⟨-, rfl⟩ := Prod.mk.inj (Option.some.inj hp)
    exact .add s.stores.queue id' name data attempts
  case removeJob job =>
    obtain ⟨-, rfl⟩ := Prod.mk.inj (Option.some.inj hp)
    exact hremove job rfl
  case sql c stm =>
    obtain ⟨q, -, e⟩ := Option.map_eq_some_iff.1 hp
    obtain ⟨-, rfl⟩ := Prod.mk.inj e
    exact .of_find rfl
  case insertSale row =>
    obtain ⟨-, rfl⟩ := Prod.mk.inj (Option.some.inj hp)
    dsimp only
    split_ifs
    · exact .of_find rfl
    · exact .of_find rfl
  all_goals
    obtain ⟨-, rfl⟩ := Prod.mk.inj (Option.some.inj hp)
    exact .of_find rfl

/-- The job that a removal takes out was not the last cover of an entry. -/
theorem RemoveGuard.covered {job : Job} {p : OrdersQueueJobPayload} (hg : RemoveGuard env s job p)
    {st : StoredJob} (hst : s.slot env p.userId = some st) (hseq : st.job.seq = job.seq)
    (hlive : st.state.isLive = true) (hid : st.job.identity = some id)
    (hled : s.ledger env p.userId = some id) : s.stores.db.RowIs p.userId id .persisted := by
  obtain ⟨hdata, hdone⟩ := hg.slot st hst hseq
  have hsame : p.reservationId = id := by
    have h := hg.good.identity
    unfold Job.identity at h hid
    rw [← hdata] at h
    exact Option.some.inj (h.symm.trans hid)
  rw [← hsame] at hled ⊢
  rcases hdone with hcompleted | hrow
  · rw [hcompleted] at hlive
    cases hlive
  · exact hrow hled

end Shared
/-! ## The removal of another job -/

/-- The job that the next call under the session lock removes. -/
def nextRemoval : Option (WorkerM Unit) → Option Job
  | some (.op (.removeJob job) _) => some job
  | _ => none

/-- The event removes the job in the slot of the user, which is not the one the pass has loaded. -/
def Event.RemovesAnother (env : WorkerEnv) (w : System) (u : String) : Event → Prop
  | .maintain fault => fault ≠ .before ∧ ∃ job ∈ nextRemoval w.maintenance,
    job.id = env.jobId u ∧ ∃ st ∈ w.slot env u, st.lock = none ∧ st.job.seq ≠ job.seq
  | _ => False

instance (env : WorkerEnv) (w : System) (u : String) (e : Event) :
    Decidable (e.RemovesAnother env w u) :=
  match e with
  | .maintain fault => inferInstanceAs (Decidable (fault ≠ .before ∧
      ∃ job ∈ nextRemoval w.maintenance,
        job.id = env.jobId u ∧ ∃ st ∈ w.slot env u, st.lock = none ∧ st.job.seq ≠ job.seq))
  | .tick _ | .rehash _ _ | .seed | .purchase _ _ _ | .apiAdd _ | .apiDrop _ | .deliver _
  | .attemptStep _ _ | .settle _ | .crash _ | .stall _ | .promote _ | .resume | .startPass _
  | .startSweep | .startBoot _ _ | .finish | .abandon => isFalse id

namespace System

variable {env : WorkerEnv} {w : System} {u id : String}

theorem nextRemoval_some {m : Option (WorkerM Unit)} {job : Job} (h : nextRemoval m = some job) :
    ∃ k, m = some (.op (.removeJob job) k) := by
  unfold nextRemoval at h
  split at h
  · next k => exact ⟨k, by rw [Option.some.inj h]⟩
  · cases h

/-- The settlement of an attempt that returned. -/
theorem Ok.covered_complete (h : w.Ok env False) {c : ℕ} {job : Job} {a : Unit}
    (ha : w.attempts c = some ⟨job, .pure a⟩) (hled : w.ledger env u = some id)
    (hcov : w.Covered env u id) :
    (w.setQueue (w.stores.queue.complete job.id c)).Covered env u id := by
  obtain ⟨p, hp⟩ := h.attempts c _ ha
  rcases hcov with hrow | ⟨st, hst, hlive, hid⟩
  · exact .inl hrow
  by_cases hmine : env.jobId u = job.id ∧ st.lock = some c
  · obtain ⟨hjob, hlock⟩ := hmine
    obtain rfl := WorkerEnv.jobId_inj (hjob.trans hp.good.id)
    have hdata := hp.slot st hst hlock
    have hsame : p.reservationId = id := by
      have hp' := hp.good.identity
      unfold Job.identity at hp' hid
      rw [hdata] at hid
      exact Option.some.inj (hp'.symm.trans hid)
    rw [← hsame] at hled ⊢
    -- the attempt has found its order persisted, since it is in the ledger
    rcases hp.rest w.toShared (.refl env c p _) ⟨h.inv, hp.good.payload⟩ with hrow | hmarked
    · exact .inl hrow
    · exact absurd hled (hmarked ⟨st, hst, hlock⟩).1
  · refine Covered.turn (.inr ⟨st, hst, hlive, hid⟩) (.complete h.inv.1.distinct _ _ ?_)
    intro hjob st' hst' hlock
    obtain rfl := Option.some.inj (hst.symm.trans hst')
    exact hmine ⟨hjob, hlock⟩

/-- The next call of the program under the session lock. -/
theorem Ok.covered_maintain (h : w.Ok env False) {fault : Fault} {o : Call}
    {k : Except Failure o.Res → WorkerM Unit} (hm : w.maintenance = some (.op o k))
    {r : Except Failure o.Res} {s' : Shared} (hcall : w.call fault o = some (r, s'))
    (hled : w.ledger env u = some id) (hcov : w.Covered env u id)
    (hkeep : ¬ ((Event.maintain fault).RemovesAnother env w u ∧
      ¬ w.stores.db.RowIs u id .persisted)) : s'.Covered env u id := by
  obtain ⟨hpre, -⟩ := h.maintenance _ hm w.toShared (.refl env _) h.inv
  by_cases hrow : w.stores.db.RowIs u id .persisted
  · exact .inl (persisted_call h.inv.1 hcall hrow)
  obtain ⟨st, hst, hlive, hid⟩ := hcov.resolve_left hrow
  by_cases hlost : fault = .before ∧ ∃ job, o = .removeJob job
  · -- the removal never reaches the queue
    obtain ⟨rfl, job, rfl⟩ := hlost
    obtain ⟨-, rfl⟩ := Prod.mk.inj (Option.some.inj hcall)
    exact hcov
  refine hcov.keep (persisted_call h.inv.1 hcall) (staysLive_call hcall ?_)
  rintro job rfl
  refine .remove _ _ fun hjob st' hst' => ?_
  obtain rfl := Option.some.inj (hst.symm.trans hst')
  by_contra hlock
  obtain ⟨p, hg⟩ := hpre
  obtain rfl := WorkerEnv.jobId_inj (hjob.trans hg.good.id)
  by_cases hseq : st.job.seq = job.seq
  · exact hrow (hg.covered hst hseq hlive hid hled)
  · refine hkeep ⟨⟨fun hf => hlost ⟨hf, job, rfl⟩, job, ?_, hjob.symm, st, hst, ?_, hseq⟩, hrow⟩
    · rw [hm]
      rfl
    · simpa using hlock

theorem Ok.covered_step (h : w.Ok env False) (e : Event) (hled : w.ledger env u = some id)
    (hcov : w.Covered env u id)
    (hkeep : ¬ (e.RemovesAnother env w u ∧ ¬ w.stores.db.RowIs u id .persisted)) :
    (w.step env e).Covered env u id := by
  have hsame : ∀ {w' : System}, w'.stores.db.orders = w.stores.db.orders →
      w'.stores.queue = w.stores.queue → w'.Covered env u id := by
    intro w' horders hqueue
    refine hcov.keep (fun hr => (Db.rowIs_congr ?_).2 hr) (.of_find (by rw [hqueue]))
    unfold Db.row?
    rw [horders]
  have hstart : ∀ {α : Type} (program : WorkerM α), (w.start program).Covered env u id := by
    intro α program
    unfold System.start
    split
    · exact hcov
    · exact hcov
  cases e with
  | purchase u' id' requestId =>
    rw [System.step]
    rcases w.toShared.purchase_inv env u' id' requestId with ⟨x, e, -⟩ | ⟨x, -, e, -⟩
    · rw [e]
      exact hsame rfl rfl
    · rw [e]
      exact hsame rfl rfl
  | apiAdd i =>
    rw [System.step]
    split
    · exact hcov
    · next p _ =>
      unfold enqueue
      split
      · exact hcov.turn (.add _ _ _ _ _)
      · exact hsame rfl rfl
  | deliver jobId =>
    rw [System.step]
    split
    · exact hcov
    · next hq => exact hcov.turn (.deliver hq)
  | attemptStep c fault =>
    rw [System.step]
    split
    case h_2 => exact hcov
    case h_1 job o k ha =>
      cases hcall : w.call fault o with
      | none => exact hcov
      | some r =>
        obtain ⟨p, hp⟩ := h.attempts c _ ha
        obtain ⟨hpre, -⟩ := hp.rest w.toShared (.refl env c p _) ⟨h.inv, hp.good.payload⟩
        have hfind := congrArg (fun q => q.find (env.jobId u)) (hpre.queue hcall)
        exact hcov.keep (persisted_call h.inv.1 hcall) (.of_find hfind)
  | settle c =>
    rw [System.step]
    split
    · next ha => exact h.covered_complete ha hled hcov
    · exact hcov.turn (.fail _ _ _ _)
    · exact hcov
  | crash c =>
    rw [System.step]
    split_ifs
    · exact hcov
    · exact hsame rfl rfl
  | stall jobId => exact hcov.turn (.stall _ jobId)
  | promote jobId => exact hcov.turn (.promote _ jobId)
  | maintain fault =>
    rw [System.step]
    split
    case h_2 => exact hcov
    case h_1 o k hm =>
      cases hcall : w.call fault o with
      | none => exact hcov
      | some r => exact h.covered_maintain hm hcall hled hcov hkeep
  | finish =>
    rw [System.step]
    split
    · exact hcov
    · exact hcov
  | resume => exact hcov.turn (.of_find rfl)
  | startPass fuel => exact hstart _
  | startSweep => exact hstart _
  | startBoot polls fuel => exact hstart _
  | tick _ | rehash _ _ | seed | apiDrop _ | abandon => exact hsame rfl rfl

/-- A removal that reaches the queue empties the slot of its id. -/
theorem step_removal {fault : Fault} (hf : fault ≠ .before) {job : Job}
    (hrem : job ∈ nextRemoval w.maintenance) {st : StoredJob}
    (hst : w.stores.queue.find job.id = some st) (hlock : st.lock = none) :
    (w.step env (.maintain fault)).toShared = w.setQueue (w.stores.queue.erase job.id) := by
  obtain ⟨k, hm⟩ := nextRemoval_some hrem
  have hremoved : (w.stores.queue.remove job.id).2 = w.stores.queue.erase job.id := by
    unfold JobQueue.remove
    rw [hst]
    dsimp only
    rw [if_neg (by simp [hlock])]
  have hcall : ∃ r, w.call fault (.removeJob job) =
      some (r, w.setQueue (w.stores.queue.erase job.id)) := by
    rw [← hremoved]
    cases fault with
    | none => exact ⟨_, rfl⟩
    | after => exact ⟨_, rfl⟩
    | before => exact absurd rfl hf
  obtain ⟨r, hcall⟩ := hcall
  rw [System.step, hm]
  dsimp only
  rw [hcall]
  rfl

theorem slot_of_removesAnother {e : Event} (he : e.RemovesAnother env w u) :
    (w.step env e).slot env u = none ∧ (w.step env e).stores.db = w.stores.db := by
  cases e <;> try exact he.elim
  case maintain fault =>
    obtain ⟨hf, job, hrem, hid, st, hst, hlock, -⟩ := he
    rw [step_removal hf hrem (by rw [hid]; exact hst) hlock]
    exact ⟨(JobQueue.find_erase _ _ _).trans (if_pos hid.symm), rfl⟩

/-- **Coverage.** In every reachable state an event that leaves a covered entry in the ledger leaves
it covered, if and only if it is not the removal of another job than the one loaded while the order
is not persisted. The job that was loaded is removed only if it is completed, or the ledger does not
name its reservation, or its order is persisted. -/
theorem coverage_kept_iff (env : WorkerEnv) (time : RedisTime)
    (ledgerBucket buyerBucket hashtext : String → ℕ) (es : List Event) (e : Event) (u id : String) :
    let w := (System.empty time ledgerBucket buyerBucket hashtext).run env es
    (w.ledger env u = some id → w.Covered env u id → (w.step env e).ledger env u = some id →
      ((w.step env e).Covered env u id ↔
        ¬ (e.RemovesAnother env w u ∧ ¬ w.stores.db.RowIs u id .persisted))) ∧
    ∀ job ∈ nextRemoval w.maintenance, job.id = env.jobId u → ∀ st ∈ w.slot env u,
      st.job.seq = job.seq → st.state.isLive = true → st.job.identity = some id →
        w.ledger env u = some id → w.stores.db.RowIs u id .persisted := by
  intro w
  have hok : w.Ok env False := (Ok.empty env False time _ _ _).run es (fun h => h.elim)
  refine ⟨fun hled hcov _ => ⟨?_, hok.covered_step e hled hcov⟩, ?_⟩
  · rintro hcov' ⟨he, hrow⟩
    obtain ⟨hslot, hdb⟩ := slot_of_removesAnother he
    rcases hcov' with hrow' | ⟨st, hst, -⟩
    · rw [hdb] at hrow'
      exact hrow hrow'
    · rw [hslot] at hst
      cases hst
  · intro job hrem hid st hst hseq hlive hident hled
    obtain ⟨k, hm⟩ := nextRemoval_some hrem
    obtain ⟨⟨p, hg⟩, -⟩ := hok.maintenance _ hm w.toShared (.refl env _) hok.inv
    obtain rfl := WorkerEnv.jobId_inj (hid.symm.trans hg.good.id)
    exact hg.covered hst hseq hlive hident hled

/-- Alice has reserved the unit, and a worker is at her order. -/
def aliceActive : List Event :=
  boots ++ [.purchase "alice" aliceReservation "req-1", .apiAdd 0, .deliver "flash-2026-alice"]

theorem coverage_kept_iff_stall :
    let w := quietSystem.run oneUnitEnv aliceActive
    let w' := w.step oneUnitEnv (.stall "flash-2026-alice")
    w.ledger oneUnitEnv "alice" = some aliceReservation ∧
    (w'.Covered oneUnitEnv "alice" aliceReservation ↔
      ¬ ((Event.stall "flash-2026-alice").RemovesAnother oneUnitEnv w "alice" ∧
        ¬ w.stores.db.RowIs "alice" aliceReservation .persisted)) := by
  have hled : (quietSystem.run oneUnitEnv aliceActive).ledger oneUnitEnv "alice" =
      some aliceReservation := by decide +kernel
  have hcov : (quietSystem.run oneUnitEnv aliceActive).Covered oneUnitEnv "alice"
      aliceReservation := by decide +kernel
  refine ⟨hled, ?_⟩
  exact (coverage_kept_iff oneUnitEnv ⟨1, 500000⟩ (fun _ => 0) (fun _ => 0) String.length aliceActive
    (.stall "flash-2026-alice") "alice" aliceReservation).1 hled hcov (by decide +kernel)

end System

end FlashSale
