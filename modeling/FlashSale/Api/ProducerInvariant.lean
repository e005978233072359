import FlashSale.Api.ProducerCircuit

/-!
# The invariant of the producer circuit

Most events change a generation in a way that leaves its count of calls and the end of its retirement
alone (`ProducerGeneration.Quiet`), or a call without settling it. Three do more: an admission, the
`finally` of a call and the end of a retirement. `OrdersQueue.Inv` is kept by each.
-/

namespace FlashSale

/-! ## One generation -/

namespace ProducerGeneration

/-- What a generation says about itself: how far its retirement is. -/
structure Sound (G : ProducerGeneration) : Prop where
  retiring : G.retiring = true ↔ G.retirement ≠ .none
  once : G.retirements = if G.retirement = .none then 0 else 1
  closed : G.closeCalls = if G.retirement = .awaitClose ∨ G.retirement = .finished then 1 else 0
  finished : G.retirement = .finished ↔ G.finishedAtMs.isSome = true

/-- A change that does not touch the count of calls, the end of the retirement or the birth, and does
not take back a retirement. -/
structure Quiet (f : ProducerGeneration → ProducerGeneration) (G : ProducerGeneration) : Prop where
  sound : G.Sound → (f G).Sound
  inFlight : (f G).inFlight = G.inFlight
  finishedAtMs : (f G).finishedAtMs = G.finishedAtMs
  createdAtMs : (f G).createdAtMs = G.createdAtMs
  retiring : G.retiring = true → (f G).retiring = true

variable {G : ProducerGeneration}

theorem Sound.unfinished (h : G.Sound) : G.retirement ≠ .finished ↔ G.finishedAtMs = none := by
  rw [ne_eq, h.finished, Bool.not_eq_true, Option.isSome_eq_false_iff, Option.isNone_iff_eq_none]

/-- A retirement that has begun and not ended goes on to its next wait. -/
theorem Sound.goOn (h : G.Sound) {r : Retirement} {k : ℕ}
    (hfrom : G.retirement ≠ .none ∧ G.retirement ≠ .finished) (hto : r ≠ .none ∧ r ≠ .finished)
    (hk : k = if r = .awaitClose then 1 else 0) :
    ({ G with retirement := r, closeCalls := k } : ProducerGeneration).Sound := by
  have hret := h.retiring
  have honce := h.once
  have hfin := h.finished
  constructor
  · simpa [hfrom.1, hto.1] using hret
  · simpa [hfrom.1, hto.1] using honce
  · simpa [hto.2] using hk
  · simpa [hfrom.2, hto.2] using hfin

end ProducerGeneration

/-! ## The invariant -/

namespace OrdersQueue

/-- What holds between two events. -/
structure Inv (q : OrdersQueue) : Prop where
  sound : ∀ {g : ℕ} {G : ProducerGeneration}, q.generations[g]? = some G → G.Sound
  current : ∀ {g : ℕ}, q.generation = some g →
    ∃ G, q.generations[g]? = some G ∧ G.finishedAtMs = none
  unfinished : ∀ {g : ℕ} {G : ProducerGeneration}, q.generations[g]? = some G →
    G.finishedAtMs = none → q.generation = some g
  count : ∀ {g : ℕ} {G : ProducerGeneration}, q.generations[g]? = some G → G.finishedAtMs = none →
    G.inFlight = q.openCalls g ∧ G.inFlight ≤ MAX_PRODUCER_IN_FLIGHT
  reopen : ∀ {g : ℕ} {G : ProducerGeneration} {f : ℕ}, q.generations[g]? = some G →
    G.finishedAtMs = some f → f ≤ q.now ∧ f + PRODUCER_REOPEN_BACKOFF_MS ≤ q.reopenAtMs
  spaced : ∀ {g : ℕ} {G G' : ProducerGeneration}, q.generations[g]? = some G →
    q.generations[g + 1]? = some G' →
    ∃ f, G.finishedAtMs = some f ∧ f + PRODUCER_REOPEN_BACKOFF_MS ≤ G'.createdAtMs
  admitted : ∀ {c : ℕ} {call : EnqueueCall}, q.calls[c]? = some call →
    call.generation < q.generations.length
  failed : ∀ {c : ℕ} {call : EnqueueCall} {e : Failure} {G : ProducerGeneration},
    q.calls[c]? = some call → call.phase = .settled (.error e) →
    q.generations[call.generation]? = some G → G.retiring = true

theorem inv_initial (now : ℕ) : (initial now).Inv where
  sound h := by cases h
  current h := by cases h
  unfinished h := by cases h
  count h := by cases h
  reopen h := by cases h
  spaced h := by cases h
  admitted h := by cases h
  failed h := by cases h

variable {q : OrdersQueue}

theorem getElem?_modifyGeneration (q : OrdersQueue) (g : ℕ)
    (f : ProducerGeneration → ProducerGeneration) (g' : ℕ) :
    (q.modifyGeneration g f).generations[g']? =
      if g = g' then (q.generations[g']?).map f else q.generations[g']? := by
  show (q.generations.modify g f)[g']? = _
  rw [List.getElem?_modify]
  split_ifs <;> simp

theorem getElem?_modifyCall (q : OrdersQueue) (c : ℕ) (f : EnqueueCall → EnqueueCall) (c' : ℕ) :
    (q.modifyCall c f).calls[c']? = if c = c' then (q.calls[c']?).map f else q.calls[c']? := by
  show (q.calls.modify c f)[c']? = _
  rw [List.getElem?_modify]
  split_ifs <;> simp

/-- A generation after the change of one. -/
theorem modifyGeneration_cases {g g' : ℕ} {f : ProducerGeneration → ProducerGeneration}
    {G' : ProducerGeneration} (h : (q.modifyGeneration g f).generations[g']? = some G') :
    (g = g' ∧ ∃ G, q.generations[g']? = some G ∧ G' = f G) ∨
      (g ≠ g' ∧ q.generations[g']? = some G') := by
  rw [getElem?_modifyGeneration] at h
  split_ifs at h with hg
  · obtain ⟨G, hG, rfl⟩ := Option.map_eq_some_iff.1 h
    exact .inl ⟨hg, G, hG, rfl⟩
  · exact .inr ⟨hg, h⟩

theorem modifyCall_cases {c c' : ℕ} {f : EnqueueCall → EnqueueCall} {call' : EnqueueCall}
    (h : (q.modifyCall c f).calls[c']? = some call') :
    (c = c' ∧ ∃ call, q.calls[c']? = some call ∧ call' = f call) ∨
      (c ≠ c' ∧ q.calls[c']? = some call') := by
  rw [getElem?_modifyCall] at h
  split_ifs at h with hc
  · obtain ⟨call, hcall, rfl⟩ := Option.map_eq_some_iff.1 h
    exact .inl ⟨hc, call, hcall, rfl⟩
  · exact .inr ⟨hc, h⟩

/-! ## Quiet changes -/

theorem Inv.modifyGeneration (h : q.Inv) {g : ℕ} {f : ProducerGeneration → ProducerGeneration}
    (hf : ∀ G, q.generations[g]? = some G → ProducerGeneration.Quiet f G) :
    (q.modifyGeneration g f).Inv := by
  -- every generation of the new state comes from one with the same counts and times
  have hback : ∀ {g' : ℕ} {G' : ProducerGeneration},
      (q.modifyGeneration g f).generations[g']? = some G' →
      ∃ G, q.generations[g']? = some G ∧ (G.Sound → G'.Sound) ∧ G'.inFlight = G.inFlight ∧
        G'.finishedAtMs = G.finishedAtMs ∧ G'.createdAtMs = G.createdAtMs ∧
        (G.retiring = true → G'.retiring = true) := by
    intro g' G' hG'
    rcases modifyGeneration_cases hG' with ⟨rfl, G, hG, rfl⟩ | ⟨-, hG⟩
    · have hq := hf G hG
      exact ⟨G, hG, hq.sound, hq.inFlight, hq.finishedAtMs, hq.createdAtMs, hq.retiring⟩
    · exact ⟨G', hG, id, rfl, rfl, rfl, id⟩
  constructor
  · intro g' G' hG'
    obtain ⟨G, hG, hs, -⟩ := hback hG'
    exact hs (h.sound hG)
  · intro g' hg'
    obtain ⟨G, hG, hfin⟩ := h.current hg'
    have hsome : ∃ G', (q.modifyGeneration g f).generations[g']? = some G' := by
      rw [getElem?_modifyGeneration, hG]
      split_ifs
      · exact ⟨_, rfl⟩
      · exact ⟨_, rfl⟩
    obtain ⟨G', hG'⟩ := hsome
    obtain ⟨G₀, hG₀, -, -, hfin', -⟩ := hback hG'
    obtain rfl := Option.some.inj (hG.symm.trans hG₀)
    exact ⟨G', hG', hfin'.trans hfin⟩
  · intro g' G' hG' hfin
    obtain ⟨G, hG, -, -, hfin', -⟩ := hback hG'
    exact h.unfinished hG (hfin'.symm.trans hfin)
  · intro g' G' hG' hfin
    obtain ⟨G, hG, -, hin, hfin', -⟩ := hback hG'
    rw [hin]
    exact h.count hG (hfin'.symm.trans hfin)
  · intro g' G' t hG' hfin
    obtain ⟨G, hG, -, -, hfin', -⟩ := hback hG'
    exact h.reopen hG (hfin'.symm.trans hfin)
  · intro g' G' G'' hG' hG''
    obtain ⟨G₁, hG₁, -, -, hfin₁, -⟩ := hback hG'
    obtain ⟨G₂, hG₂, -, -, -, hc₂, -⟩ := hback hG''
    rw [hfin₁, hc₂]
    exact h.spaced hG₁ hG₂
  · intro c call hc
    show call.generation < (q.generations.modify g f).length
    rw [List.length_modify]
    exact h.admitted hc
  · intro c call e G' hc hphase hG'
    obtain ⟨G, hG, -, -, -, -, hret⟩ := hback hG'
    exact hret (h.failed hc hphase hG)

/-- The count of open calls when one call changes. -/
theorem openCalls_modifyCall {c : ℕ} {call : EnqueueCall} (hc : q.calls[c]? = some call)
    (f : EnqueueCall → EnqueueCall) (g : ℕ) :
    (q.modifyCall c f).openCalls g +
        (if (decide (call.generation = g) && call.isOpen) = true then 1 else 0) =
      q.openCalls g +
        (if (decide ((f call).generation = g) && (f call).isOpen) = true then 1 else 0) := by
  obtain ⟨hlt, hget⟩ := List.getElem?_eq_some_iff.1 hc
  have hsplit : q.calls = q.calls.take c ++ call :: q.calls.drop (c + 1) := by
    rw [← hget, ← List.drop_eq_getElem_cons hlt, List.take_append_drop]
  have hbefore : ∀ p : EnqueueCall → Bool, q.calls.countP p =
      (q.calls.take c).countP p +
        ((q.calls.drop (c + 1)).countP p + if p call = true then 1 else 0) := by
    intro p
    rw [← List.countP_cons, ← List.countP_append, ← hsplit]
  unfold openCalls OrdersQueue.modifyCall
  rw [hbefore]
  dsimp only
  rw [List.modify_eq_take_cons_drop hlt, hget, List.countP_append, List.countP_cons]
  omega

/-- A change of a call that neither moves nor settles it. -/
theorem Inv.modifyCall (h : q.Inv) {c : ℕ} {f : EnqueueCall → EnqueueCall}
    (hf : ∀ call, q.calls[c]? = some call → (f call).generation = call.generation ∧
      (f call).isOpen = call.isOpen ∧
      ∀ e, (f call).phase = .settled (.error e) → call.phase = .settled (.error e)) :
    (q.modifyCall c f).Inv := by
  have hback : ∀ {c' : ℕ} {call' : EnqueueCall}, (q.modifyCall c f).calls[c']? = some call' →
      ∃ call, q.calls[c']? = some call ∧ call'.generation = call.generation ∧
        ∀ e, call'.phase = .settled (.error e) → call.phase = .settled (.error e) := by
    intro c' call' hc'
    rcases modifyCall_cases hc' with ⟨rfl, call, hc, rfl⟩ | ⟨-, hc⟩
    · exact ⟨call, hc, (hf call hc).1, (hf call hc).2.2⟩
    · exact ⟨call', hc, rfl, fun _ => id⟩
  have hcount : ∀ g, (q.modifyCall c f).openCalls g = q.openCalls g := by
    intro g
    cases hc : q.calls[c]? with
    | none =>
      unfold openCalls OrdersQueue.modifyCall
      rw [List.modify_eq_self (List.getElem?_eq_none_iff.1 hc)]
    | some call =>
      have hopen := openCalls_modifyCall hc f g
      obtain ⟨hgen, hsame, -⟩ := hf call hc
      rw [hgen, hsame] at hopen
      omega
  constructor
  · exact h.sound
  · exact h.current
  · exact h.unfinished
  · intro g G hG hfin
    rw [hcount]
    exact h.count hG hfin
  · exact h.reopen
  · exact h.spaced
  · intro c' call' hc'
    obtain ⟨call, hc, hgen, -⟩ := hback hc'
    rw [hgen]
    exact h.admitted hc
  · intro c' call' e G hc' hphase hG
    obtain ⟨call, hc, hgen, hph⟩ := hback hc'
    rw [hgen] at hG
    exact h.failed hc (hph e hphase) hG

/-! ## Retirement begins and goes on -/

theorem quiet_retire (G : ProducerGeneration) : ProducerGeneration.Quiet (fun G =>
    if G.retirement ≠ .none then G
    else { G with
      retiring := true
      retirement := .awaitReadiness
      retirements := G.retirements + 1 }) G := by
  by_cases hr : G.retirement = .none
  · refine ⟨fun hs => ?_, ?_, ?_, ?_, fun _ => ?_⟩
    · have honce := hs.once
      have hclosed := hs.closed
      have hfin := hs.finished
      rw [hr] at honce hclosed hfin
      simp only [hr, ne_eq, not_true_eq_false, if_false]
      refine ⟨by simp, ?_, ?_, ?_⟩
      · simpa using honce
      · simpa using hclosed
      · simpa using hfin
    all_goals simp [hr]
  · have hid : (if G.retirement ≠ .none then G else { G with
        retiring := true
        retirement := .awaitReadiness
        retirements := G.retirements + 1 }) = G := if_pos hr
    refine ⟨?_, ?_, ?_, ?_, ?_⟩ <;> rw [hid]
    all_goals first | rfl | exact id

theorem Inv.retireGeneration (h : q.Inv) (g : ℕ) : (q.retireGeneration g).Inv :=
  h.modifyGeneration fun G _ => quiet_retire G

theorem retiring_retireGeneration (h : q.Inv) {g : ℕ} {G' : ProducerGeneration}
    (hG' : (q.retireGeneration g).generations[g]? = some G') : G'.retiring = true := by
  rcases modifyGeneration_cases hG' with ⟨-, G, hG, rfl⟩ | ⟨hne, -⟩
  · by_cases hr : G.retirement ≠ .none
    · rw [if_pos hr]
      exact (h.sound hG).retiring.2 hr
    · rw [if_neg hr]
  · exact absurd rfl hne

/-! ## A call settles -/

theorem Inv.settleCall (h : q.Inv) {c : ℕ} {call : EnqueueCall} {outcome : Except Failure Unit}
    (hc : q.calls[c]? = some call) (hopen : call.isOpen = true)
    (hfail : ∀ e G, outcome = .error e → q.generations[call.generation]? = some G →
      G.retiring = true) : (q.settleCall c call.generation outcome).Inv := by
  have hback : ∀ {g' : ℕ} {G' : ProducerGeneration},
      (q.settleCall c call.generation outcome).generations[g']? = some G' →
      ∃ G, q.generations[g']? = some G ∧ G' = { G with
        inFlight := if call.generation = g' then G.inFlight - 1 else G.inFlight } := by
    intro g' G' hG'
    rcases modifyGeneration_cases hG' with ⟨hg, G, hG, rfl⟩ | ⟨hg, hG⟩
    · exact ⟨G, hG, by rw [if_pos hg]⟩
    · exact ⟨G', hG, by rw [if_neg hg]⟩
  have hcount : ∀ g, (q.settleCall c call.generation outcome).openCalls g +
      (if call.generation = g then 1 else 0) = q.openCalls g := by
    intro g
    have hsum := openCalls_modifyCall hc (fun call => { call with phase := .settled outcome }) g
    have hshut : ({ call with phase := .settled outcome } : EnqueueCall).isOpen = false := rfl
    rw [hopen, hshut] at hsum
    simp only [Bool.and_true, Bool.and_false, decide_eq_true_eq, Bool.false_eq_true, if_false,
      Nat.add_zero] at hsum
    exact hsum
  constructor
  · intro g' G' hG'
    obtain ⟨G, hG, rfl⟩ := hback hG'
    have hs := h.sound hG
    exact ⟨hs.retiring, hs.once, hs.closed, hs.finished⟩
  · intro g' hg'
    obtain ⟨G, hG, hfin⟩ := h.current hg'
    refine ⟨{ G with
      inFlight := if call.generation = g' then G.inFlight - 1 else G.inFlight }, ?_, hfin⟩
    show ((q.modifyCall c _).modifyGeneration _ _).generations[g']? = _
    rw [getElem?_modifyGeneration]
    show (if call.generation = g' then (q.generations[g']?).map _ else q.generations[g']?) = _
    rw [hG]
    split_ifs <;> rfl
  · intro g' G' hG' hfin
    obtain ⟨G, hG, rfl⟩ := hback hG'
    exact h.unfinished hG hfin
  · intro g' G' hG' hfin
    obtain ⟨G, hG, rfl⟩ := hback hG'
    obtain ⟨hin, hmax⟩ := h.count hG hfin
    have hc' := hcount g'
    dsimp only
    split_ifs at hc' ⊢ <;> omega
  · intro g' G' t hG' hfin
    obtain ⟨G, hG, rfl⟩ := hback hG'
    exact h.reopen hG hfin
  · intro g' G' G'' hG' hG''
    obtain ⟨G₁, hG₁, rfl⟩ := hback hG'
    obtain ⟨G₂, hG₂, rfl⟩ := hback hG''
    have hsp := h.spaced hG₁ hG₂
    exact hsp
  · intro c' call' hc'
    show call'.generation < (q.generations.modify _ _).length
    rw [List.length_modify]
    rcases modifyCall_cases hc' with ⟨rfl, call₀, hc₀, rfl⟩ | ⟨-, hc₀⟩
    · have hlt := h.admitted hc₀
      exact hlt
    · exact h.admitted hc₀
  · intro c' call' e G' hc' hphase hG'
    obtain ⟨G, hG, rfl⟩ := hback hG'
    rcases modifyCall_cases hc' with ⟨rfl, call₀, hc₀, rfl⟩ | ⟨-, hc₀⟩
    · obtain rfl := Option.some.inj (hc.symm.trans hc₀)
      injection hphase with hout
      exact hfail e G hout hG
    · have hret := h.failed hc₀ hphase hG
      exact hret

theorem Inv.failCall (h : q.Inv) {c : ℕ} {call : EnqueueCall} (hc : q.calls[c]? = some call)
    (hopen : call.isOpen = true) (e : Failure) : (q.failCall c call.generation e).Inv := by
  have hr := h.retireGeneration call.generation
  exact hr.settleCall (c := c) hc hopen fun _ G _ hG => retiring_retireGeneration h hG

/-! ## A retirement ends -/

theorem Inv.finish (h : q.Inv) {g : ℕ} {G : ProducerGeneration} (hG : q.generations[g]? = some G)
    (hclose : G.retirement = .awaitClose) : (q.finish g).Inv := by
  have hs := h.sound hG
  have hfin : G.finishedAtMs = none := hs.unfinished.1 (by rw [hclose]; decide)
  have hcur := h.unfinished hG hfin
  have hq : q.finish g = { q.modifyGeneration g (fun G => { G with
      settlements := []
      inFlight := 0
      retirement := .finished
      finishedAtMs := some q.now }) with
    generation := none, reopenAtMs := q.now + PRODUCER_REOPEN_BACKOFF_MS } := by
    unfold OrdersQueue.finish
    exact if_pos hcur
  have hback : ∀ {g' : ℕ} {G' : ProducerGeneration}, (q.finish g).generations[g']? = some G' →
      (g = g' ∧ G' = { G with
        settlements := []
        inFlight := 0
        retirement := .finished
        finishedAtMs := some q.now }) ∨ (g ≠ g' ∧ q.generations[g']? = some G') := by
    intro g' G' hG'
    rw [hq] at hG'
    rcases modifyGeneration_cases hG' with ⟨rfl, G₀, hG₀, rfl⟩ | hother
    · obtain rfl := Option.some.inj (hG.symm.trans hG₀)
      exact .inl ⟨rfl, rfl⟩
    · exact .inr hother
  -- every other generation has finished before
  have hdone : ∀ {g' : ℕ} {G' : ProducerGeneration}, g ≠ g' → q.generations[g']? = some G' →
      G'.finishedAtMs ≠ none := by
    intro g' G' hne hG' hnone
    exact hne (Option.some.inj (hcur.symm.trans (h.unfinished hG' hnone)))
  constructor
  · intro g' G' hG'
    rcases hback hG' with ⟨rfl, rfl⟩ | ⟨-, hG'⟩
    · refine ⟨?_, ?_, ?_, by simp⟩
      · have hret := hs.retiring
        rw [hclose] at hret
        simpa using hret
      · have honce := hs.once
        rw [hclose] at honce
        simpa using honce
      · have hclosed := hs.closed
        rw [hclose] at hclosed
        simpa using hclosed
    · exact h.sound hG'
  · intro g' hg'
    rw [hq] at hg'
    cases hg'
  · intro g' G' hG' hnone
    rcases hback hG' with ⟨rfl, rfl⟩ | ⟨hne, hG'⟩
    · cases hnone
    · exact absurd hnone (hdone hne hG')
  · intro g' G' hG' hnone
    rcases hback hG' with ⟨rfl, rfl⟩ | ⟨hne, hG'⟩
    · cases hnone
    · exact absurd hnone (hdone hne hG')
  · intro g' G' t hG' ht
    rw [hq]
    show t ≤ q.now ∧ t + PRODUCER_REOPEN_BACKOFF_MS ≤ q.now + PRODUCER_REOPEN_BACKOFF_MS
    rcases hback hG' with ⟨rfl, rfl⟩ | ⟨hne, hG'⟩
    · obtain rfl : q.now = t := Option.some.inj ht
      omega
    · have hle := (h.reopen hG' ht).1
      omega
  · intro g' G' G'' hG' hG''
    rcases hback hG' with ⟨rfl, rfl⟩ | ⟨hne, hold⟩
    · rcases hback hG'' with ⟨hg, -⟩ | ⟨-, hG''⟩
      · omega
      · obtain ⟨f, hf, -⟩ := h.spaced hG hG''
        rw [hfin] at hf
        cases hf
    · rcases hback hG'' with ⟨rfl, rfl⟩ | ⟨-, hG''⟩
      · have hsp := h.spaced hold hG
        exact hsp
      · exact h.spaced hold hG''
  · intro c call hc
    rw [hq] at hc ⊢
    show call.generation < (q.generations.modify _ _).length
    rw [List.length_modify]
    exact h.admitted hc
  · intro c call e G' hc hphase hG'
    rw [hq] at hc
    rcases hback hG' with ⟨hg, rfl⟩ | ⟨-, hG'⟩
    · have hret := h.failed hc hphase (by rw [← hg]; exact hG)
      exact hret
    · exact h.failed hc hphase hG'

/-! ## An admission -/

/-- What `enqueue` does to a generation that takes the call. -/
def admitTo (q : OrdersQueue) (timeoutMs g : ℕ) (payload : OrdersQueueJobPayload) : OrdersQueue :=
  { q.modifyGeneration g fun G => { G with inFlight := G.inFlight + 1 } with
    calls := q.calls ++ [⟨payload, g, q.now + timeoutMs, .awaitReady, .notMade⟩] }

/-- The generation that takes a call of `enqueue`. -/
structure Takes (q : OrdersQueue) (g : ℕ) (G : ProducerGeneration) : Prop where
  current : q.generation = some g
  found : q.generations[g]? = some G
  active : G.retiring = false
  room : G.inFlight < MAX_PRODUCER_IN_FLIGHT

/-- A call of `enqueue` is refused, taken by the current generation, or by a new one. -/
theorem enqueue_cases (timeoutMs : ℕ) (q : OrdersQueue) (payload : OrdersQueueJobPayload)
    (creation : Except Failure Unit) :
    (∃ e, q.enqueue timeoutMs payload creation = (.error e, q)) ∨
    q.closing = false ∧ q.reopenAtMs ≤ q.now ∧
      ((∃ g G, q.Takes g G ∧ q.enqueue timeoutMs payload creation =
          (.ok q.calls.length, q.admitTo timeoutMs g payload)) ∨
        q.generation = none ∧ creation = .ok () ∧ q.enqueue timeoutMs payload creation =
          (.ok q.calls.length,
            q.createGeneration.admitTo timeoutMs q.generations.length payload)) := by
  unfold OrdersQueue.enqueue currentGeneration
  by_cases hclosing : q.closing = true
  · rw [if_pos hclosing]
    exact .inl ⟨_, rfl⟩
  by_cases hback : q.now < q.reopenAtMs
  · rw [if_neg hclosing, if_pos hback]
    exact .inl ⟨_, rfl⟩
  rw [if_neg hclosing, if_neg hback]
  have hopen : q.closing = false ∧ q.reopenAtMs ≤ q.now := ⟨by simpa using hclosing, by omega⟩
  cases hg : q.generation with
  | some g =>
    cases hG : q.generations[g]? with
    | none =>
      simp only [hG]
      exact .inl ⟨_, rfl⟩
    | some G =>
      simp only [hG]
      by_cases hret : G.retiring = true
      · rw [if_pos hret]
        exact .inl ⟨_, rfl⟩
      by_cases hmax : MAX_PRODUCER_IN_FLIGHT ≤ G.inFlight
      · rw [if_neg hret, if_pos hmax]
        exact .inl ⟨_, rfl⟩
      rw [if_neg hret, if_neg hmax]
      exact .inr ⟨hopen.1, hopen.2, .inl ⟨g, G, ⟨hg, hG, by simpa using hret, by omega⟩, rfl⟩⟩
  | none =>
    cases creation with
    | error e => exact .inl ⟨e, rfl⟩
    | ok u =>
      have hnew : q.createGeneration.generations[q.generations.length]? =
          some ⟨none, [], 0, false, .none, q.now, none, 0, 0⟩ :=
        List.getElem?_concat_length
      simp only [Except.map, hnew]
      exact .inr ⟨hopen.1, hopen.2, .inr ⟨trivial, trivial, rfl⟩⟩

theorem openCalls_append (q : OrdersQueue) (call : EnqueueCall) (g : ℕ) :
    ({ q with calls := q.calls ++ [call] } : OrdersQueue).openCalls g =
      q.openCalls g + if (decide (call.generation = g) && call.isOpen) = true then 1 else 0 := by
  show (q.calls ++ [call]).countP _ = _
  rw [List.countP_append, List.countP_singleton]
  rfl

/-- A new call is not among the old ones, or is the last. -/
theorem getElem?_concat_cases {α : Type} {l : List α} {a b : α} {i : ℕ}
    (h : (l ++ [a])[i]? = some b) : l[i]? = some b ∨ i = l.length ∧ b = a := by
  rcases Nat.lt_trichotomy i l.length with hlt | rfl | hgt
  · rw [List.getElem?_append_left hlt] at h
    exact .inl h
  · rw [List.getElem?_concat_length] at h
    exact .inr ⟨rfl, (Option.some.inj h).symm⟩
  · rw [List.getElem?_eq_none (by simp; omega)] at h
    cases h

theorem Inv.admitTo (h : q.Inv) {g : ℕ} {G : ProducerGeneration} (ht : q.Takes g G)
    (timeoutMs : ℕ) (payload : OrdersQueueJobPayload) : (q.admitTo timeoutMs g payload).Inv := by
  have hback : ∀ {g' : ℕ} {G' : ProducerGeneration},
      (q.admitTo timeoutMs g payload).generations[g']? = some G' →
      ∃ G₀, q.generations[g']? = some G₀ ∧ G' = { G₀ with
        inFlight := if g = g' then G₀.inFlight + 1 else G₀.inFlight } := by
    intro g' G' hG'
    rcases modifyGeneration_cases hG' with ⟨hg, G₀, hG₀, rfl⟩ | ⟨hg, hG₀⟩
    · exact ⟨G₀, hG₀, by rw [if_pos hg]⟩
    · exact ⟨G', hG₀, by rw [if_neg hg]⟩
  have hcount : ∀ g', (q.admitTo timeoutMs g payload).openCalls g' =
      q.openCalls g' + if g = g' then 1 else 0 := by
    intro g'
    have hsum := openCalls_append q ⟨payload, g, q.now + timeoutMs, .awaitReady, .notMade⟩ g'
    have hopen : (⟨payload, g, q.now + timeoutMs, .awaitReady, .notMade⟩ : EnqueueCall).isOpen =
      true := rfl
    rw [hopen] at hsum
    simp only [Bool.and_true, decide_eq_true_eq] at hsum
    exact hsum
  constructor
  · intro g' G' hG'
    obtain ⟨G₀, hG₀, rfl⟩ := hback hG'
    have hs := h.sound hG₀
    exact ⟨hs.retiring, hs.once, hs.closed, hs.finished⟩
  · intro g' hg'
    obtain ⟨G₀, hG₀, hfin⟩ := h.current hg'
    refine ⟨{ G₀ with inFlight := if g = g' then G₀.inFlight + 1 else G₀.inFlight }, ?_, hfin⟩
    show (q.modifyGeneration g _).generations[g']? = _
    rw [getElem?_modifyGeneration, hG₀]
    split_ifs <;> rfl
  · intro g' G' hG' hfin
    obtain ⟨G₀, hG₀, rfl⟩ := hback hG'
    exact h.unfinished hG₀ hfin
  · intro g' G' hG' hfin
    obtain ⟨G₀, hG₀, rfl⟩ := hback hG'
    obtain ⟨hin, hmax⟩ := h.count hG₀ hfin
    have hroom := ht.room
    rw [hcount]
    dsimp only
    split_ifs with hg
    · subst hg
      obtain rfl := Option.some.inj (ht.found.symm.trans hG₀)
      omega
    · omega
  · intro g' G' t hG' hfin
    obtain ⟨G₀, hG₀, rfl⟩ := hback hG'
    exact h.reopen hG₀ hfin
  · intro g' G' G'' hG' hG''
    obtain ⟨G₁, hG₁, rfl⟩ := hback hG'
    obtain ⟨G₂, hG₂, rfl⟩ := hback hG''
    have hsp := h.spaced hG₁ hG₂
    exact hsp
  · intro c call hc
    show call.generation < (q.generations.modify _ _).length
    rw [List.length_modify]
    rcases getElem?_concat_cases hc with hold | ⟨-, rfl⟩
    · exact h.admitted hold
    · exact (List.getElem?_eq_some_iff.1 ht.found).1
  · intro c call e G' hc hphase hG'
    obtain ⟨G₀, hG₀, rfl⟩ := hback hG'
    rcases getElem?_concat_cases hc with hold | ⟨-, rfl⟩
    · have hret := h.failed hold hphase hG₀
      exact hret
    · cases hphase

/-- When no generation is current, all have finished; the new one is the first that has not. -/
theorem Inv.createGeneration (h : q.Inv) (hnone : q.generation = none)
    (hopen : q.reopenAtMs ≤ q.now) : q.createGeneration.Inv := by
  have hdone : ∀ {g : ℕ} {G : ProducerGeneration}, q.generations[g]? = some G →
      G.finishedAtMs ≠ none := by
    intro g G hG hfin
    have hcur := h.unfinished hG hfin
    rw [hnone] at hcur
    cases hcur
  have hfresh : q.openCalls q.generations.length = 0 := by
    unfold openCalls
    rw [List.countP_eq_zero]
    intro call hmem
    obtain ⟨c, hc⟩ := List.mem_iff_getElem?.1 hmem
    have hlt := h.admitted hc
    have hne : call.generation ≠ q.generations.length := by omega
    simp [hne]
  constructor
  · intro g G hG
    rcases getElem?_concat_cases hG with hold | ⟨-, rfl⟩
    · exact h.sound hold
    · exact ⟨by simp, rfl, by simp, by simp⟩
  · intro g hg
    obtain rfl : q.generations.length = g := Option.some.inj hg
    exact ⟨_, List.getElem?_concat_length, rfl⟩
  · intro g G hG hfin
    rcases getElem?_concat_cases hG with hold | ⟨rfl, rfl⟩
    · exact absurd hfin (hdone hold)
    · rfl
  · intro g G hG hfin
    rcases getElem?_concat_cases hG with hold | ⟨rfl, rfl⟩
    · exact absurd hfin (hdone hold)
    · exact ⟨hfresh.symm, Nat.zero_le _⟩
  · intro g G f hG hfin
    rcases getElem?_concat_cases hG with hold | ⟨-, rfl⟩
    · exact h.reopen hold hfin
    · cases hfin
  · intro g G G' hG hG'
    rcases getElem?_concat_cases hG' with hold' | ⟨hlast, rfl⟩
    · rcases getElem?_concat_cases hG with hold | ⟨rfl, -⟩
      · exact h.spaced hold hold'
      · have hlt := (List.getElem?_eq_some_iff.1 hold').1
        omega
    · rcases getElem?_concat_cases hG with hold | ⟨rfl, -⟩
      · obtain ⟨f, hf⟩ := Option.ne_none_iff_exists'.1 (hdone hold)
        have hre := (h.reopen hold hf).2
        exact ⟨f, hf, hre.trans hopen⟩
      · omega
  · intro c call hc
    have hlt := h.admitted hc
    show call.generation < (q.generations ++ [_]).length
    rw [List.length_append]
    omega
  · intro c call e G hc hphase hG
    rcases getElem?_concat_cases hG with hold | ⟨hlast, -⟩
    · exact h.failed hc hphase hold
    · have hlt := h.admitted hc
      omega

/-- The new generation takes the call it was created for. -/
theorem takes_createGeneration (q : OrdersQueue) : q.createGeneration.Takes q.generations.length
    ⟨none, [], 0, false, .none, q.now, none, 0, 0⟩ :=
  ⟨rfl, List.getElem?_concat_length, rfl, by show 0 < MAX_PRODUCER_IN_FLIGHT; decide⟩

theorem Inv.enqueue (h : q.Inv) (timeoutMs : ℕ) (payload : OrdersQueueJobPayload)
    (creation : Except Failure Unit) : (q.enqueue timeoutMs payload creation).2.Inv := by
  rcases enqueue_cases timeoutMs q payload creation with
    ⟨e, heq⟩ | ⟨-, hopen, ⟨g, G, ht, heq⟩ | ⟨hnone, -, heq⟩⟩
  · rw [heq]
    exact h
  · rw [heq]
    exact h.admitTo ht timeoutMs payload
  · rw [heq]
    exact (h.createGeneration hnone hopen).admitTo (takes_createGeneration q) timeoutMs payload

/-! ## Every event -/

theorem Inv.tick (h : q.Inv) (ms : ℕ) : ({ q with now := q.now + ms } : OrdersQueue).Inv where
  sound := h.sound
  current := h.current
  unfinished := h.unfinished
  count := h.count
  reopen hG hf := by
    obtain ⟨hle, hre⟩ := h.reopen hG hf
    exact ⟨hle.trans (Nat.le_add_right _ _), hre⟩
  spaced := h.spaced
  admitted := h.admitted
  failed := h.failed

theorem Inv.submit (h : q.Inv) {c : ℕ} {call : EnqueueCall} (hc : q.calls[c]? = some call)
    (hphase : call.phase = .awaitReady) : (q.submit c call).Inv := by
  have hnoted : (q.modifyGeneration call.generation fun G =>
      { G with settlements := G.settlements ++ [c] }).Inv :=
    h.modifyGeneration fun G _ =>
      ⟨fun hs => ⟨hs.retiring, hs.once, hs.closed, hs.finished⟩, rfl, rfl, rfl, id⟩
  -- the call waits before and after
  have hwait : ∀ add : AddState, ((q.modifyGeneration call.generation fun G =>
      { G with settlements := G.settlements ++ [c] }).modifyCall c fun call =>
      { call with phase := .awaitAdd, add := add }).Inv := by
    intro add
    apply hnoted.modifyCall
    intro call₀ hc₀
    obtain rfl := Option.some.inj (hc.symm.trans hc₀)
    refine ⟨rfl, ?_, fun e he => by cases he⟩
    rw [EnqueueCall.isOpen, EnqueueCall.isOpen, hphase]
  unfold OrdersQueue.submit
  dsimp only
  split
  · exact hwait _
  · have hpending := hwait .pending
    exact ⟨hpending.sound, hpending.current, hpending.unfinished, hpending.count, hpending.reopen,
      hpending.spaced, hpending.admitted, hpending.failed⟩

theorem Inv.advanceRetirement (h : q.Inv) {q' : OrdersQueue} {g : ℕ} {G : ProducerGeneration}
    (hG : q.generations[g]? = some G) (hadv : q.advanceRetirement g G = some q') : q'.Inv := by
  have hs := h.sound hG
  unfold OrdersQueue.advanceRetirement at hadv
  split at hadv
  next hr =>
    split_ifs at hadv
    obtain rfl := Option.some.inj hadv
    apply h.modifyGeneration
    intro G₀ hG₀
    obtain rfl := Option.some.inj (hG.symm.trans hG₀)
    have hclosed := hs.closed
    rw [hr] at hclosed
    exact ⟨fun _ => hs.goOn (by simp [hr]) (by simp) (by simpa using hclosed), rfl, rfl, rfl, id⟩
  next pending hr =>
    split_ifs at hadv
    obtain rfl := Option.some.inj hadv
    apply h.modifyGeneration
    intro G₀ hG₀
    obtain rfl := Option.some.inj (hG.symm.trans hG₀)
    have hclosed := hs.closed
    rw [hr] at hclosed
    exact ⟨fun _ => hs.goOn (by simp [hr]) (by simp) (by simpa using hclosed), rfl, rfl, rfl, id⟩
  next hr =>
    obtain rfl := Option.some.inj hadv
    exact h.finish hG hr
  next => cases hadv

theorem Inv.close (h : q.Inv) : q.close.Inv := by
  have hset : ({ q with closing := true } : OrdersQueue).Inv :=
    ⟨h.sound, h.current, h.unfinished, h.count, h.reopen, h.spaced, h.admitted, h.failed⟩
  unfold OrdersQueue.close
  split_ifs
  · exact h
  · split
    · exact hset
    · exact hset.retireGeneration _

/-- Every event keeps the invariant. -/
theorem Inv.step {timeoutMs : ℕ} {q' : OrdersQueue} (h : q.Inv) {e : Event}
    (hstep : q.step timeoutMs e = some q') : q'.Inv := by
  cases e with
  | tick ms =>
    obtain rfl := Option.some.inj hstep
    exact h.tick ms
  | enqueue payload creation =>
    obtain rfl := Option.some.inj hstep
    exact h.enqueue timeoutMs payload creation
  | readiness g result =>
    obtain ⟨G, hG, hrest⟩ := Option.bind_eq_some_iff.1 hstep
    split_ifs at hrest
    obtain rfl := Option.some.inj hrest
    exact h.modifyGeneration fun G _ =>
      ⟨fun hs => ⟨hs.retiring, hs.once, hs.closed, hs.finished⟩, rfl, rfl, rfl, id⟩
  | ready c =>
    obtain ⟨call, hc, hrest⟩ := Option.bind_eq_some_iff.1 hstep
    obtain ⟨G, hG, hrest⟩ := Option.bind_eq_some_iff.1 hrest
    split at hrest
    next hphase _ =>
      obtain rfl := Option.some.inj hrest
      exact h.submit hc hphase
    next => cases hrest
  | notReady c =>
    obtain ⟨call, hc, hrest⟩ := Option.bind_eq_some_iff.1 hstep
    obtain ⟨G, hG, hrest⟩ := Option.bind_eq_some_iff.1 hrest
    split at hrest
    next e hphase _ =>
      obtain rfl := Option.some.inj hrest
      exact h.failCall hc (by rw [EnqueueCall.isOpen, hphase]) e
    next => cases hrest
  | reply c result =>
    obtain ⟨call, hc, hrest⟩ := Option.bind_eq_some_iff.1 hstep
    have herased : (q.modifyGeneration call.generation fun G =>
        { G with settlements := G.settlements.erase c }).Inv :=
      h.modifyGeneration fun G _ =>
        ⟨fun hs => ⟨hs.retiring, hs.once, hs.closed, hs.finished⟩, rfl, rfl, rfl, id⟩
    dsimp only at hrest
    split at hrest
    next =>
      obtain rfl := Option.some.inj hrest
      exact herased.modifyCall fun _ _ => ⟨rfl, rfl, fun _ => id⟩
    next =>
      obtain rfl := Option.some.inj hrest
      exact herased.modifyCall fun _ _ => ⟨rfl, rfl, fun _ => id⟩
    next => cases hrest
  | added c =>
    obtain ⟨call, hc, hrest⟩ := Option.bind_eq_some_iff.1 hstep
    split at hrest
    next hphase _ =>
      obtain rfl := Option.some.inj hrest
      exact h.settleCall hc (by rw [EnqueueCall.isOpen, hphase]) (fun _ _ hout => by cases hout)
    next e hphase _ =>
      obtain rfl := Option.some.inj hrest
      exact h.failCall hc (by rw [EnqueueCall.isOpen, hphase]) e
    next => cases hrest
  | deadline c =>
    obtain ⟨call, hc, hrest⟩ := Option.bind_eq_some_iff.1 hstep
    split_ifs at hrest with hlate
    obtain rfl := Option.some.inj hrest
    exact h.failCall hc hlate.1 _
  | retire g =>
    obtain ⟨G, hG, hrest⟩ := Option.bind_eq_some_iff.1 hstep
    exact h.advanceRetirement hG hrest
  | close =>
    obtain rfl := Option.some.inj hstep
    exact h.close

theorem Inv.run {timeoutMs : ℕ} {q' : OrdersQueue} (h : q.Inv) {es : List Event}
    (hrun : q.run timeoutMs es = some q') : q'.Inv :=
  Machine.invariant (fun _ _ _ hI hstep => Inv.step hI hstep) h hrun

end OrdersQueue

end FlashSale
