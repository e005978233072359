import FlashSale.Api.ProducerInvariant

/-!
# Runs of the producer circuit

The calls of a state are those admitted so far, in the order of their admission. `OrdersQueue.Grows`
says how they and the generations of one moment are found again later: a call stays on its
generation, a retirement is not taken back, and neither a retiring generation nor a closing service
takes a call.
-/

namespace FlashSale

namespace OrdersQueue

structure Grows (q q' : OrdersQueue) : Prop where
  calls : ∀ {c : ℕ} {call : EnqueueCall}, q.calls[c]? = some call →
    ∃ call', q'.calls[c]? = some call' ∧ call'.generation = call.generation ∧
      call'.payload = call.payload
  retiring : ∀ {g : ℕ} {G : ProducerGeneration}, q.generations[g]? = some G → G.retiring = true →
    ∃ G', q'.generations[g]? = some G' ∧ G'.retiring = true
  refused : ∀ {g : ℕ} {G : ProducerGeneration} {c : ℕ} {call : EnqueueCall},
    q.generations[g]? = some G → G.retiring = true → q.calls.length ≤ c →
    q'.calls[c]? = some call → call.generation ≠ g
  closing : q.closing = true → q'.closing = true ∧ q'.calls.length = q.calls.length

variable {q q' q'' : OrdersQueue}

/-! ## A preorder -/

theorem Grows.refl (q : OrdersQueue) : q.Grows q where
  calls hc := ⟨_, hc, rfl, rfl⟩
  retiring hG hr := ⟨_, hG, hr⟩
  refused _ _ hle hc := by
    have hlt := (List.getElem?_eq_some_iff.1 hc).1
    omega
  closing h := ⟨h, rfl⟩

theorem Grows.trans (h : q.Grows q') (h' : q'.Grows q'') : q.Grows q'' where
  calls hc := by
    obtain ⟨call', hc', hgen, hpay⟩ := h.calls hc
    obtain ⟨call'', hc'', hgen', hpay'⟩ := h'.calls hc'
    exact ⟨call'', hc'', hgen'.trans hgen, hpay'.trans hpay⟩
  retiring hG hr := by
    obtain ⟨G', hG', hr'⟩ := h.retiring hG hr
    exact h'.retiring hG' hr'
  refused {g G c call} hG hr hle hc := by
    by_cases hlt : c < q'.calls.length
    · -- the call was admitted between the first two states
      obtain ⟨call', hc', hgen, -⟩ := h'.calls (List.getElem?_eq_getElem hlt)
      obtain rfl := Option.some.inj (hc.symm.trans hc')
      rw [hgen]
      exact h.refused hG hr hle (List.getElem?_eq_getElem hlt)
    · obtain ⟨G', hG', hr'⟩ := h.retiring hG hr
      exact h'.refused hG' hr' (by omega) hc
  closing hc := by
    obtain ⟨hc', hlen⟩ := h.closing hc
    obtain ⟨hc'', hlen'⟩ := h'.closing hc'
    exact ⟨hc'', hlen'.trans hlen⟩

/-! ## The pieces of code between two waits -/

/-- A state with the same calls, whose generations still retire. -/
theorem Grows.of_sameCalls (q q' : OrdersQueue) (hcalls : q'.calls = q.calls)
    (hclosing : q.closing = true → q'.closing = true)
    (hret : ∀ {g : ℕ} {G : ProducerGeneration}, q.generations[g]? = some G → G.retiring = true →
      ∃ G', q'.generations[g]? = some G' ∧ G'.retiring = true) : q.Grows q' where
  calls hc := ⟨_, by rw [hcalls]; exact hc, rfl, rfl⟩
  retiring := hret
  refused _ _ hle hc := by
    rw [hcalls] at hc
    have hlt := (List.getElem?_eq_some_iff.1 hc).1
    omega
  closing h := ⟨hclosing h, by rw [hcalls]⟩

theorem grows_modifyGeneration (q : OrdersQueue) (g : ℕ) {f : ProducerGeneration → ProducerGeneration}
    (hf : ∀ G, G.retiring = true → (f G).retiring = true) : q.Grows (q.modifyGeneration g f) := by
  refine Grows.of_sameCalls q (q.modifyGeneration g f) rfl id ?_
  intro g' G hG hr
  rw [getElem?_modifyGeneration, hG]
  split_ifs
  · exact ⟨f G, rfl, hf G hr⟩
  · exact ⟨G, rfl, hr⟩

theorem grows_modifyCall (q : OrdersQueue) (c : ℕ) {f : EnqueueCall → EnqueueCall}
    (hf : ∀ call, (f call).generation = call.generation ∧ (f call).payload = call.payload) :
    q.Grows (q.modifyCall c f) where
  calls {c' call} hc := by
    rw [getElem?_modifyCall, hc]
    split_ifs
    · exact ⟨f call, rfl, hf call⟩
    · exact ⟨call, rfl, rfl, rfl⟩
  retiring hG hr := ⟨_, hG, hr⟩
  refused _ _ hle hc := by
    have hlt := (List.getElem?_eq_some_iff.1 hc).1
    have hlen : (q.modifyCall c f).calls.length = q.calls.length := List.length_modify ..
    omega
  closing h := ⟨h, List.length_modify ..⟩

theorem grows_retireGeneration (q : OrdersQueue) (g : ℕ) : q.Grows (q.retireGeneration g) := by
  apply grows_modifyGeneration
  intro G hr
  split_ifs
  · exact hr
  · rfl

theorem grows_settleCall (q : OrdersQueue) (c g : ℕ) (outcome : Except Failure Unit) :
    q.Grows (q.settleCall c g outcome) := by
  have hcall : q.Grows (q.modifyCall c fun call => { call with phase := .settled outcome }) :=
    grows_modifyCall q c fun _ => ⟨rfl, rfl⟩
  apply hcall.trans
  exact grows_modifyGeneration _ g fun _ => id

theorem grows_failCall (q : OrdersQueue) (c g : ℕ) (e : Failure) : q.Grows (q.failCall c g e) :=
  (grows_retireGeneration q g).trans (grows_settleCall _ c g _)

theorem grows_submit (q : OrdersQueue) (c : ℕ) (call : EnqueueCall) : q.Grows (q.submit c call) := by
  have hnoted : q.Grows (q.modifyGeneration call.generation fun G =>
      { G with settlements := G.settlements ++ [c] }) := grows_modifyGeneration q _ fun _ => id
  have hwait : ∀ add : AddState, q.Grows ((q.modifyGeneration call.generation fun G =>
      { G with settlements := G.settlements ++ [c] }).modifyCall c fun call =>
      { call with phase := .awaitAdd, add := add }) := by
    intro add
    apply hnoted.trans
    exact grows_modifyCall _ c fun _ => ⟨rfl, rfl⟩
  unfold OrdersQueue.submit
  dsimp only
  split
  · exact hwait _
  · have hpending := hwait .pending
    exact ⟨hpending.calls, hpending.retiring, hpending.refused, hpending.closing⟩

theorem grows_finish (q : OrdersQueue) (g : ℕ) : q.Grows (q.finish g) := by
  have hmod : q.Grows (q.modifyGeneration g fun G => { G with
      settlements := []
      inFlight := 0
      retirement := .finished
      finishedAtMs := some q.now }) := grows_modifyGeneration q g fun _ => id
  unfold OrdersQueue.finish
  dsimp only
  split_ifs
  · exact ⟨hmod.calls, hmod.retiring, hmod.refused, hmod.closing⟩
  · exact hmod

theorem grows_advanceRetirement {g : ℕ} {G : ProducerGeneration}
    (h : q.advanceRetirement g G = some q') : q.Grows q' := by
  unfold OrdersQueue.advanceRetirement at h
  split at h
  · split_ifs at h
    obtain rfl := Option.some.inj h
    exact grows_modifyGeneration q g fun _ => id
  · split_ifs at h
    obtain rfl := Option.some.inj h
    exact grows_modifyGeneration q g fun _ => id
  · obtain rfl := Option.some.inj h
    exact grows_finish q g
  · cases h

theorem grows_close (q : OrdersQueue) : q.Grows q.close := by
  have hset : q.Grows { q with closing := true } :=
    Grows.of_sameCalls q { q with closing := true } rfl (fun _ => rfl) fun hG hr => ⟨_, hG, hr⟩
  unfold OrdersQueue.close
  split_ifs
  · exact .refl q
  · split
    · exact hset
    · exact hset.trans (grows_retireGeneration _ _)

/-- The call goes to a generation that is not retiring, of a service that is not closing. -/
theorem grows_admitTo {timeoutMs g : ℕ} {G : ProducerGeneration} (ht : q.Takes g G)
    (hopen : q.closing = false) (payload : OrdersQueueJobPayload) :
    q.Grows (q.admitTo timeoutMs g payload) where
  calls {c call} hc := by
    have hlt := (List.getElem?_eq_some_iff.1 hc).1
    refine ⟨call, ?_, rfl, rfl⟩
    show (q.calls ++ [_])[c]? = _
    rw [List.getElem?_append_left hlt, hc]
  retiring hG hr :=
    (grows_modifyGeneration q g (f := fun G => { G with inFlight := G.inFlight + 1 })
      fun _ => id).retiring hG hr
  refused {g' G' c call} hG hr hle hc := by
    rcases getElem?_concat_cases hc with hold | ⟨-, rfl⟩
    · have hlt := (List.getElem?_eq_some_iff.1 hold).1
      omega
    · rintro rfl
      obtain rfl := Option.some.inj (hG.symm.trans ht.found)
      rw [ht.active] at hr
      cases hr
  closing h := by
    rw [hopen] at h
    cases h

theorem grows_createGeneration (q : OrdersQueue) : q.Grows q.createGeneration := by
  refine Grows.of_sameCalls q q.createGeneration rfl id ?_
  intro g G hG hr
  have hlt := (List.getElem?_eq_some_iff.1 hG).1
  refine ⟨G, ?_, hr⟩
  show (q.generations ++ [_])[g]? = _
  rw [List.getElem?_append_left hlt, hG]

theorem grows_enqueue (q : OrdersQueue) (timeoutMs : ℕ) (payload : OrdersQueueJobPayload)
    (creation : Except Failure Unit) : q.Grows (q.enqueue timeoutMs payload creation).2 := by
  rcases enqueue_cases timeoutMs q payload creation with
    ⟨e, heq⟩ | ⟨hopen, -, ⟨g, G, ht, heq⟩ | ⟨hnone, -, heq⟩⟩
  · rw [heq]
    exact .refl q
  · rw [heq]
    exact grows_admitTo ht hopen payload
  · rw [heq]
    exact (grows_createGeneration q).trans (grows_admitTo (takes_createGeneration q) hopen payload)

/-! ## Every event, every run -/

theorem grows_step {timeoutMs : ℕ} {e : Event} (h : q.step timeoutMs e = some q') : q.Grows q' := by
  cases e with
  | tick ms =>
    obtain rfl := Option.some.inj h
    have hself := Grows.refl q
    exact ⟨hself.calls, hself.retiring, hself.refused, hself.closing⟩
  | enqueue payload creation =>
    obtain rfl := Option.some.inj h
    exact grows_enqueue q timeoutMs payload creation
  | readiness g result =>
    obtain ⟨G, hG, hrest⟩ := Option.bind_eq_some_iff.1 h
    split_ifs at hrest
    obtain rfl := Option.some.inj hrest
    exact grows_modifyGeneration q g fun _ => id
  | ready c =>
    obtain ⟨call, hc, hrest⟩ := Option.bind_eq_some_iff.1 h
    obtain ⟨G, hG, hrest⟩ := Option.bind_eq_some_iff.1 hrest
    split at hrest
    · obtain rfl := Option.some.inj hrest
      exact grows_submit q c call
    · cases hrest
  | notReady c =>
    obtain ⟨call, hc, hrest⟩ := Option.bind_eq_some_iff.1 h
    obtain ⟨G, hG, hrest⟩ := Option.bind_eq_some_iff.1 hrest
    split at hrest
    · obtain rfl := Option.some.inj hrest
      exact grows_failCall q c _ _
    · cases hrest
  | reply c result =>
    obtain ⟨call, hc, hrest⟩ := Option.bind_eq_some_iff.1 h
    have herased : q.Grows (q.modifyGeneration call.generation fun G =>
        { G with settlements := G.settlements.erase c }) := grows_modifyGeneration q _ fun _ => id
    dsimp only at hrest
    split at hrest
    · obtain rfl := Option.some.inj hrest
      apply herased.trans
      exact grows_modifyCall _ c fun _ => ⟨rfl, rfl⟩
    · obtain rfl := Option.some.inj hrest
      apply herased.trans
      exact grows_modifyCall _ c fun _ => ⟨rfl, rfl⟩
    · cases hrest
  | added c =>
    obtain ⟨call, hc, hrest⟩ := Option.bind_eq_some_iff.1 h
    split at hrest
    · obtain rfl := Option.some.inj hrest
      exact grows_settleCall q c _ _
    · obtain rfl := Option.some.inj hrest
      exact grows_failCall q c _ _
    · cases hrest
  | deadline c =>
    obtain ⟨call, hc, hrest⟩ := Option.bind_eq_some_iff.1 h
    split_ifs at hrest
    obtain rfl := Option.some.inj hrest
    exact grows_failCall q c _ _
  | retire g =>
    obtain ⟨G, hG, hrest⟩ := Option.bind_eq_some_iff.1 h
    exact grows_advanceRetirement hrest
  | close =>
    obtain rfl := Option.some.inj h
    exact grows_close q

theorem grows_run {timeoutMs : ℕ} {es : List Event} (h : q.run timeoutMs es = some q') :
    q.Grows q' :=
  Machine.respects (I := fun _ => True) (fun _ _ _ _ _ => trivial) Grows.refl
    (fun _ _ _ => Grows.trans) (fun _ _ _ _ hstep => grows_step hstep) trivial h

/-! ## The circuit -/

/-- What the circuit promises of a state. -/
structure Circuit (q : OrdersQueue) : Prop where
  single : ∀ {g g' : ℕ} {G G' : ProducerGeneration}, q.generations[g]? = some G →
    q.generations[g']? = some G' → G.finishedAtMs = none → G'.finishedAtMs = none → g = g'
  reopened : ∀ {g : ℕ} {G G' : ProducerGeneration}, q.generations[g]? = some G →
    q.generations[g + 1]? = some G' →
    ∃ f, G.finishedAtMs = some f ∧ f + PRODUCER_REOPEN_BACKOFF_MS ≤ G'.createdAtMs
  counted : ∀ {g : ℕ} {G : ProducerGeneration}, q.generations[g]? = some G →
    G.finishedAtMs = none → G.inFlight = q.openCalls g ∧ G.inFlight ≤ MAX_PRODUCER_IN_FLIGHT
  once : ∀ {g : ℕ} {G : ProducerGeneration}, q.generations[g]? = some G →
    G.retirements ≤ 1 ∧ G.closeCalls ≤ 1

theorem Inv.circuit (h : q.Inv) : q.Circuit where
  single hG hG' hfin hfin' :=
    Option.some.inj ((h.unfinished hG hfin).symm.trans (h.unfinished hG' hfin'))
  reopened := h.spaced
  counted := h.count
  once hG := by
    have hs := h.sound hG
    rw [hs.once, hs.closed]
    constructor
    · split_ifs <;> omega
    · split_ifs <;> omega

/-- In every run the circuit holds at every moment; from the moment a generation retires it takes no
call, and from the moment the service closes none is taken at all. -/
theorem circuit_kept {timeoutMs now : ℕ} {es : List Event}
    (h : (initial now).run timeoutMs es = some q) :
    q.Circuit ∧ ∀ es' q', q.run timeoutMs es' = some q' →
      (∀ g G c call, q.generations[g]? = some G → G.retiring = true → q.calls.length ≤ c →
        q'.calls[c]? = some call → call.generation ≠ g) ∧
      (q.closing = true → q'.calls.length = q.calls.length) := by
  refine ⟨((inv_initial now).run h).circuit, fun es' q' h' => ?_⟩
  have hgrows := grows_run h'
  exact ⟨fun g G c call hG hr hle hc => hgrows.refused hG hr hle hc,
    fun hc => (hgrows.closing hc).2⟩

def firstOrder : OrdersQueueJobPayload :=
  ⟨"flash-2026", "alice", "3f2504e0-4f89-41d3-9a0c-0305e82c3301", 5, "req-1"⟩

/-- The broker refuses the first of two calls; the second one outlives its generation, and the third
opens the next. -/
def failingRun : List Event :=
  [.enqueue firstOrder (.ok ()), .enqueue { firstOrder with userId := "bobby" } (.ok ()),
    .readiness 0 (.ok ()), .ready 0, .reply 0 (.error .upstream), .added 0, .retire 0, .retire 0,
    .retire 0, .tick 1500, .deadline 1,
    .enqueue { firstOrder with userId := "carol" } (.ok ()), .close]

theorem circuit_kept_failingRun : ∃ q : OrdersQueue,
    (initial 0).run 1500 failingRun = some q ∧ q.generations.length = 2 ∧ q.closing = true ∧
      q.Circuit ∧ ∀ es' q', q.run 1500 es' = some q' → q'.calls.length = 3 := by
  have hrun : ((initial 0).run 1500 failingRun).any (fun q =>
      decide (q.generations.length = 2 ∧ q.closing = true ∧ q.calls.length = 3)) = true := by
    decide +kernel
  obtain ⟨q, hq, hend⟩ := (Option.any_eq_true _ _).1 hrun
  obtain ⟨hgens, hclosing, hcalls⟩ := of_decide_eq_true hend
  have hkept := circuit_kept hq
  refine ⟨q, hq, hgens, hclosing, hkept.1, fun es' q' h' => ?_⟩
  rw [← hcalls]
  exact (hkept.2 es' q' h').2 hclosing

/-! ## Submissions -/

/-- The submission of a call whose payload passes its checks. -/
theorem mem_submit (q : OrdersQueue) (c : ℕ) {call : EnqueueCall} (hv : call.payload.Valid)
    {jobId : String} (hid : buildOrdersJobId call.payload.saleId call.payload.userId = .ok jobId) :
    (⟨c, jobId, call.payload⟩ : Submission) ∈ (q.submit c call).submissions := by
  have hchecked : (do
      let payload ← assertOrdersQueueJobPayload call.payload.toJs
      buildOrdersJobId payload.saleId payload.userId) = .ok jobId := by
    rw [assertOrdersQueueJobPayload_toJs hv]
    exact hid
  unfold OrdersQueue.submit
  simp only [hchecked]
  exact List.mem_append_right _ List.mem_cons_self

theorem submissions_submit (q : OrdersQueue) (c : ℕ) (call : EnqueueCall) :
    (q.submit c call).submissions = q.submissions ∨
      ∃ jobId, (q.submit c call).submissions = q.submissions ++ [⟨c, jobId, call.payload⟩] := by
  unfold OrdersQueue.submit
  dsimp only
  split
  · exact .inl rfl
  · exact .inr ⟨_, rfl⟩

theorem submissions_enqueue (q : OrdersQueue) (timeoutMs : ℕ) (payload : OrdersQueueJobPayload)
    (creation : Except Failure Unit) :
    (q.enqueue timeoutMs payload creation).2.submissions = q.submissions := by
  rcases enqueue_cases timeoutMs q payload creation with
    ⟨e, heq⟩ | ⟨-, -, ⟨g, G, -, heq⟩ | ⟨-, -, heq⟩⟩
  · rw [heq]
  · rw [heq]
    rfl
  · rw [heq]
    rfl

theorem submissions_advanceRetirement {g : ℕ} {G : ProducerGeneration}
    (h : q.advanceRetirement g G = some q') : q'.submissions = q.submissions := by
  unfold OrdersQueue.advanceRetirement at h
  split at h
  · split_ifs at h
    obtain rfl := Option.some.inj h
    rfl
  · split_ifs at h
    obtain rfl := Option.some.inj h
    rfl
  · obtain rfl := Option.some.inj h
    unfold OrdersQueue.finish
    dsimp only
    split_ifs <;> rfl
  · cases h

theorem submissions_close (q : OrdersQueue) : q.close.submissions = q.submissions := by
  unfold OrdersQueue.close
  split_ifs
  · rfl
  · split <;> rfl

/-- A job is submitted only when its call finds the generation ready. -/
theorem submissions_step {timeoutMs : ℕ} {e : Event} (h : q.step timeoutMs e = some q') :
    q'.submissions = q.submissions ∨ ∃ c call jobId, e = .ready c ∧ q.calls[c]? = some call ∧
      q'.submissions = q.submissions ++ [⟨c, jobId, call.payload⟩] := by
  cases e with
  | tick ms =>
    obtain rfl := Option.some.inj h
    exact .inl rfl
  | enqueue payload creation =>
    obtain rfl := Option.some.inj h
    exact .inl (submissions_enqueue q timeoutMs payload creation)
  | readiness g result =>
    obtain ⟨G, hG, hrest⟩ := Option.bind_eq_some_iff.1 h
    split_ifs at hrest
    obtain rfl := Option.some.inj hrest
    exact .inl rfl
  | ready c =>
    obtain ⟨call, hc, hrest⟩ := Option.bind_eq_some_iff.1 h
    obtain ⟨G, hG, hrest⟩ := Option.bind_eq_some_iff.1 hrest
    split at hrest
    · obtain rfl := Option.some.inj hrest
      rcases submissions_submit q c call with hsame | ⟨jobId, hmore⟩
      · exact .inl hsame
      · exact .inr ⟨c, call, jobId, rfl, hc, hmore⟩
    · cases hrest
  | notReady c =>
    obtain ⟨call, hc, hrest⟩ := Option.bind_eq_some_iff.1 h
    obtain ⟨G, hG, hrest⟩ := Option.bind_eq_some_iff.1 hrest
    split at hrest
    · obtain rfl := Option.some.inj hrest
      exact .inl rfl
    · cases hrest
  | reply c result =>
    obtain ⟨call, hc, hrest⟩ := Option.bind_eq_some_iff.1 h
    dsimp only at hrest
    split at hrest
    · obtain rfl := Option.some.inj hrest
      exact .inl rfl
    · obtain rfl := Option.some.inj hrest
      exact .inl rfl
    · cases hrest
  | added c =>
    obtain ⟨call, hc, hrest⟩ := Option.bind_eq_some_iff.1 h
    split at hrest
    · obtain rfl := Option.some.inj hrest
      exact .inl rfl
    · obtain rfl := Option.some.inj hrest
      exact .inl rfl
    · cases hrest
  | deadline c =>
    obtain ⟨call, hc, hrest⟩ := Option.bind_eq_some_iff.1 h
    split_ifs at hrest
    obtain rfl := Option.some.inj hrest
    exact .inl rfl
  | retire g =>
    obtain ⟨G, hG, hrest⟩ := Option.bind_eq_some_iff.1 h
    exact .inl (submissions_advanceRetirement hrest)
  | close =>
    obtain rfl := Option.some.inj h
    exact .inl (submissions_close q)

theorem subset_submissions_step {timeoutMs : ℕ} {e : Event} (h : q.step timeoutMs e = some q') :
    q.submissions ⊆ q'.submissions := by
  rcases submissions_step h with hsame | ⟨c, call, jobId, -, -, hmore⟩
  · rw [hsame]
    exact List.Subset.refl _
  · rw [hmore]
    exact List.subset_append_left _ _

theorem subset_submissions_run {timeoutMs : ℕ} {es : List Event}
    (h : q.run timeoutMs es = some q') : q.submissions ⊆ q'.submissions :=
  Machine.respects (I := fun _ => True) (R := fun q q' : OrdersQueue => q.submissions ⊆ q'.submissions)
    (fun _ _ _ _ _ => trivial) (fun _ => List.Subset.refl _) (fun _ _ _ => List.Subset.trans)
    (fun _ _ _ _ hstep => subset_submissions_step hstep) trivial h

/-- A submission of a run was there before, or its call was ready in between. -/
theorem ready_of_mem_submissions {timeoutMs : ℕ} {es : List Event} {sub : Submission}
    (h : q.run timeoutMs es = some q') (hmem : sub ∈ q'.submissions) :
    sub ∈ q.submissions ∨ .ready sub.call ∈ es := by
  induction es generalizing q with
  | nil =>
    obtain rfl := Option.some.inj h
    exact .inl hmem
  | cons e es ih =>
    obtain ⟨t, hstep, hrest⟩ := Machine.run_cons h
    rcases ih hrest with ht | hready
    · rcases submissions_step hstep with hsame | ⟨c, call, jobId, rfl, -, hmore⟩
      · rw [hsame] at ht
        exact .inl ht
      · rw [hmore] at ht
        rcases List.mem_append.1 ht with hold | hnew
        · exact .inl hold
        · obtain rfl := List.mem_singleton.1 hnew
          exact .inr List.mem_cons_self
    · exact .inr (List.mem_cons_of_mem _ hready)

/-- Every submission is one of an admitted call. -/
theorem submission_call_lt {timeoutMs now : ℕ} {es : List Event} {sub : Submission}
    (h : (initial now).run timeoutMs es = some q) (hmem : sub ∈ q.submissions) :
    sub.call < q.calls.length := by
  refine Machine.invariant (I := fun q : OrdersQueue => ∀ sub ∈ q.submissions,
    sub.call < q.calls.length) ?_ (fun _ hnil => by cases hnil) h sub hmem
  intro t e t' hI hstep sub hsub
  have hkeeps : ∀ c, c < t.calls.length → c < t'.calls.length := by
    intro c hlt
    obtain ⟨call', hc', -⟩ := (grows_step hstep).calls (List.getElem?_eq_getElem hlt)
    exact (List.getElem?_eq_some_iff.1 hc').1
  apply hkeeps
  rcases submissions_step hstep with hsame | ⟨c, call, jobId, rfl, hc, hmore⟩
  · rw [hsame] at hsub
    exact hI sub hsub
  · rw [hmore] at hsub
    rcases List.mem_append.1 hsub with hold | hnew
    · exact hI sub hold
    · obtain rfl := List.mem_singleton.1 hnew
      exact (List.getElem?_eq_some_iff.1 hc).1

/-- The job of an admitted call with a valid payload is submitted exactly when the call finds its
generation ready. -/
theorem mem_submissions_iff_ready {timeoutMs : ℕ} {es : List Event} {c : ℕ} {call : EnqueueCall}
    {jobId : String} (h : q.run timeoutMs es = some q') (hc : q.calls[c]? = some call)
    (hfresh : ∀ sub ∈ q.submissions, sub.call ≠ c) (hv : call.payload.Valid)
    (hid : buildOrdersJobId call.payload.saleId call.payload.userId = .ok jobId) :
    (⟨c, jobId, call.payload⟩ : Submission) ∈ q'.submissions ↔ .ready c ∈ es := by
  constructor
  · intro hmem
    rcases ready_of_mem_submissions h hmem with hold | hready
    · exact absurd rfl (hfresh _ hold)
    · exact hready
  · intro hready
    obtain ⟨pre, post, rfl⟩ := List.append_of_mem hready
    obtain ⟨t, hpre, hrest⟩ := Machine.run_split h
    obtain ⟨t', hstep, hpost⟩ := Machine.run_cons hrest
    obtain ⟨call', hc', -, hpay⟩ := (grows_run hpre).calls hc
    apply subset_submissions_run hpost
    obtain ⟨call'', hc'', hgo⟩ := Option.bind_eq_some_iff.1 hstep
    obtain rfl := Option.some.inj (hc'.symm.trans hc'')
    obtain ⟨G, hG, hgo⟩ := Option.bind_eq_some_iff.1 hgo
    split at hgo
    · obtain rfl := Option.some.inj hgo
      rw [← hpay] at hv hid ⊢
      exact mem_submit t c hv hid
    · cases hgo

end OrdersQueue

end FlashSale
