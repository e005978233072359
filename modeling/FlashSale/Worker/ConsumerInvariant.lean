import FlashSale.Worker.ConsumerResources

/-!
# What the consumer keeps

What is not closed is in one pair of hands: the fields of the consumer, the cleanup of a preparation
that failed, or the cleanup of `close`. Whoever takes the fields leaves them empty, so that the next
one comes with empty hands (`Custody`). A preparation that has not settled is the one whose promise
is kept, which is why no second one begins beside it.
-/

namespace FlashSale

namespace OrdersConsumer

variable {s s' : OrdersConsumer} {p : ℕ} {P P' : Preparation}

/-! ## The invariant -/

/-- No preparation has resources left to clean up. -/
def PreparationsIdle (s : OrdersConsumer) : Prop :=
  ∀ (p : ℕ) e c, s.preparations[p]? = some (.cleaning e c) → c.resources = .none

def CloseIdle (s : OrdersConsumer) : Prop :=
  ∀ a b c, s.closePromise = some ⟨a, b, .cleaning c⟩ → c.resources = .none

/-- Who has the resources that are not closed. -/
def Custody (s : OrdersConsumer) : Prop :=
  (Kept s.preparations.length s.resources (fieldLife s.runPromise.isSome) s.life ∧
    s.PreparationsIdle ∧ s.CloseIdle) ∨
  (∃ (p : ℕ) (e : Failure) (c : ResourceCleanup), s.preparations[p]? = some (.cleaning e c) ∧
    Kept s.preparations.length c.resources (cleanupLife c.stage) s.life ∧ s.CloseIdle) ∨
  ∃ a b c, s.closePromise = some ⟨a, b, .cleaning c⟩ ∧
    Kept s.preparations.length c.resources (cleanupLife c.stage) s.life ∧ s.PreparationsIdle

/-- The preparation goes on or has succeeded. -/
def isStanding : Preparation → Bool
  | .waitUntilReady | .startStalledCheckTimer | .settled (.ok _) => true
  | _ => false

/-- Of every reachable state. -/
structure Inv (s : OrdersConsumer) : Prop where
  custody : s.Custody
  stopped : s.closePromise.isSome = true →
    s.closing = true ∧ s.resources = .none ∧ s.processingReady = false
  going : s.closePromise = none → s.closing = false
  promise : ∀ p, s.preparationPromise = some p → p < s.preparations.length
  unprepared : s.preparationPromise = none → s.resources = .none
  opened : ∀ (p : ℕ) P, s.preparations[p]? = some P → P.isOpen = true →
    s.preparationPromise = some p ∧ s.runs = []
  standing : ∀ (p : ℕ) P, s.preparations[p]? = some P → isStanding P = true → s.closing = false →
    s.preparationPromise = some p ∧ ∀ kind, s.resources kind = some p
  cleaning : ∀ (p : ℕ) e c, s.preparations[p]? = some (.cleaning e c) → s.resources = .none
  found : ∀ C, s.closePromise = some C →
    (∀ (p : ℕ) P, s.preparations[p]? = some P → P.isOpen = true → C.preparation = some p) ∧
    ∀ (i : ℕ) R, s.runs[i]? = some R → R ≠ .handled → C.run = some i
  valid : ∀ C, s.closePromise = some C →
    (∀ p, C.preparation = some p → p < s.preparations.length) ∧
    ∀ i, C.run = some i → i < s.runs.length
  idle : ∀ a b o, s.closePromise = some ⟨a, b, .settled o⟩ → s.preparationPromise = none ∧
    (∀ (p : ℕ) P, s.preparations[p]? = some P → P.isOpen = false) ∧
    ∀ (i : ℕ) R, s.runs[i]? = some R → R = .handled
  single : s.runs.length ≤ 1
  run : ∀ i, s.runPromise = some i → i < s.runs.length ∧ s.preparationPromise.isSome = true
  looping : s.closing = false → ∀ i, i < s.runs.length → s.runPromise = some i
  awaited : ∀ (i p : ℕ), s.starts[i]? = some (.awaiting (.ok p)) → p < s.preparations.length ∧
    s.runs = [] ∧ (s.closing = true ∨ s.startPromise = some i)
  unstarted : s.startPromise = none → (s.closing = false ∨ s.preparationPromise.isSome = true) →
    s.runs = []
  ready : s.processingReady = true → s.runPromise.isSome = true ∧
    (∃ p, s.resources .worker = some p) ∧ ∀ (i : ℕ) R, s.runs[i]? = some R → R ≠ .handled
  notified : s.notified.Nodup ∧
    (s.notified ≠ [] → ∀ (i : ℕ) R, s.runs[i]? = some R → R = .handled)
  silent : s.runs = [] → s.notified = []

theorem inv_initial : initial.Inv where
  custody := .inl ⟨kept_none (fun _ => .inl rfl) fun _ _ => rfl,
    by simp [PreparationsIdle, initial], by simp [CloseIdle, initial]⟩
  stopped h := by cases h
  going _ := rfl
  promise _ h := by cases h
  unprepared _ := rfl
  opened _ _ h := by simp [initial] at h
  standing _ _ h := by simp [initial] at h
  cleaning _ _ _ h := by simp [initial] at h
  found _ h := by cases h
  valid _ h := by cases h
  idle _ _ _ h := by cases h
  single := by simp [initial]
  run _ h := by cases h
  looping _ _ h := by simp [initial] at h
  awaited _ _ h := by simp [initial] at h
  unstarted _ _ := rfl
  ready h := by cases h
  notified := ⟨List.nodup_nil, by simp [initial]⟩
  silent _ := rfl

theorem Inv.closePromise_none (h : s.Inv) (hclosing : s.closing = false) :
    s.closePromise = none := by
  cases hC : s.closePromise with
  | none => rfl
  | some C =>
    have htrue := (h.stopped (by rw [hC]; rfl)).1
    rw [hclosing] at htrue
    cases htrue

/-- While a preparation is open no run has been started. -/
theorem Inv.runPromise_none (h : s.Inv) (hruns : s.runs = []) : s.runPromise = none := by
  cases hr : s.runPromise with
  | none => rfl
  | some i =>
    have hlt := (h.run i hr).1
    rw [hruns] at hlt
    cases hlt

/-! ## Preparations -/

@[simp] theorem length_withPreparation :
    (s.withPreparation p P).length = s.preparations.length := List.length_modify ..

theorem withPreparation_self (hP : s.preparations[p]? = some P) :
    (s.withPreparation p P')[p]? = some P' := by
  unfold withPreparation
  rw [Table.getElem?_modify_of_some hP, if_pos rfl]

theorem withPreparation_of_ne {q : ℕ} (hne : q ≠ p) :
    (s.withPreparation p P')[q]? = s.preparations[q]? := by
  unfold withPreparation
  exact List.getElem?_modify_ne _ _ hne.symm

theorem preparation_cases {q : ℕ} {Q : Preparation} (hQ : (s.withPreparation p P')[q]? = some Q) :
    (q = p ∧ Q = P') ∨ (q ≠ p ∧ s.preparations[q]? = some Q) := by
  by_cases hq : q = p
  · subst hq
    rcases Table.getElem?_modify_cases hQ with ⟨-, a, -, rfl⟩ | ⟨hne, -⟩
    · exact .inl ⟨rfl, rfl⟩
    · exact absurd rfl hne
  · rw [withPreparation_of_ne hq] at hQ
    exact .inr ⟨hq, hQ⟩

theorem custody_fields (hk : Kept s.preparations.length s.resources
    (fieldLife s.runPromise.isSome) s.life) (hp : s.PreparationsIdle) (hc : s.CloseIdle) :
    s.Custody := .inl ⟨hk, hp, hc⟩

theorem custody_preparation {e : Failure} {c : ResourceCleanup}
    (hP : s.preparations[p]? = some (.cleaning e c))
    (hk : Kept s.preparations.length c.resources (cleanupLife c.stage) s.life)
    (hc : s.CloseIdle) : s.Custody := .inr (.inl ⟨p, e, c, hP, hk, hc⟩)

theorem custody_close {a b : Option ℕ} {c : ResourceCleanup}
    (hC : s.closePromise = some ⟨a, b, .cleaning c⟩)
    (hk : Kept s.preparations.length c.resources (cleanupLife c.stage) s.life)
    (hp : s.PreparationsIdle) : s.Custody := .inr (.inr ⟨a, b, c, hC, hk, hp⟩)

/-- Of the open preparation only itself changes, the fields, which it may empty, and the promise,
which it may give up with empty fields. -/
theorem Inv.change (h : s.Inv) (R : ConsumerResources) (promise : Option ℕ) {l : Lives}
    (hP : s.preparations[p]? = some P) (hopen : P.isOpen = true)
    (hcustody : Custody { s with
      preparations := s.withPreparation p P', resources := R, preparationPromise := promise,
      life := l })
    (hR : R = s.resources ∨ R = .none)
    (hpromise : promise = some p ∨ promise = none ∧ R = .none ∧ P'.isOpen = false)
    (hstanding : isStanding P' = true → isStanding P = true ∧ R = s.resources)
    (hcleaning : ∀ e c, P' = .cleaning e c → R = .none) :
    Inv { s with
      preparations := s.withPreparation p P', resources := R, preparationPromise := promise,
      life := l } := by
  obtain ⟨hp, hruns⟩ := h.opened p P hP hopen
  have hrun := h.runPromise_none hruns
  have honly : ∀ {q : ℕ}, s.preparationPromise = some q → q = p := by
    intro q hq
    rw [hp] at hq
    exact (Option.some.inj hq).symm
  refine
    { custody := hcustody, stopped := fun hC => ?_, going := h.going, promise := fun q hq => ?_,
      unprepared := fun hq => ?_, opened := fun q Q hQ hQo => ?_,
      standing := fun q Q hQ hQs hclosing => ?_, cleaning := fun q e c hQ => ?_,
      found := fun C hC => ⟨fun q Q hQ hQo => ?_, (h.found C hC).2⟩,
      valid := fun C hC => ⟨fun q hq => ?_, (h.valid C hC).2⟩, idle := fun a b o hC => ?_,
      single := h.single, run := fun i hi => ?_, looping := h.looping,
      awaited := fun i q hi => ?_, unstarted := fun _ _ => hruns, ready := fun hr => ?_,
      notified := h.notified, silent := h.silent }
  · obtain ⟨hclosing, hnone, hready⟩ := h.stopped hC
    refine ⟨hclosing, ?_, hready⟩
    rcases hR with hR | hR
    · rw [hR, hnone]
    · exact hR
  · show q < (s.withPreparation p P').length
    rw [length_withPreparation]
    rcases hpromise with rfl | ⟨rfl, -⟩
    · obtain rfl := Option.some.inj hq
      exact h.promise p hp
    · cases hq
  · rcases hpromise with rfl | ⟨-, hnone, -⟩
    · cases hq
    · exact hnone
  · refine ⟨?_, hruns⟩
    rcases preparation_cases hQ with ⟨rfl, rfl⟩ | ⟨hne, hQ⟩
    · rcases hpromise with hp' | ⟨-, -, hclosed⟩
      · exact hp'
      · rw [hclosed] at hQo
        cases hQo
    · exact absurd (honly (h.opened q Q hQ hQo).1) hne
  · rcases preparation_cases hQ with ⟨rfl, rfl⟩ | ⟨hne, hQ⟩
    · obtain ⟨hs, rfl⟩ := hstanding hQs
      have hfields := (h.standing q P hP hs hclosing).2
      refine ⟨?_, hfields⟩
      rcases hpromise with hp' | ⟨-, hnone, -⟩
      · exact hp'
      · exact absurd (hfields .worker) (by rw [hnone]; simp [ConsumerResources.none])
    · exact absurd (honly (h.standing q Q hQ hQs hclosing).1) hne
  · rcases preparation_cases hQ with ⟨rfl, hP'⟩ | ⟨hne, hQ⟩
    · exact hcleaning e c hP'.symm
    · exact absurd (honly (h.opened q _ hQ rfl).1) hne
  · rcases preparation_cases hQ with ⟨rfl, -⟩ | ⟨-, hQ⟩
    · exact (h.found C hC).1 q P hP hopen
    · exact (h.found C hC).1 q Q hQ hQo
  · show q < (s.withPreparation p P').length
    rw [length_withPreparation]
    exact (h.valid C hC).1 q hq
  · have hclosed := (h.idle a b o hC).2.1 p P hP
    rw [hopen] at hclosed
    cases hclosed
  · have hi' : s.runPromise = some i := hi
    rw [hrun] at hi'
    cases hi'
  · obtain ⟨hlt, hrest⟩ := h.awaited i q hi
    refine ⟨?_, hrest⟩
    show q < (s.withPreparation p P').length
    rw [length_withPreparation]
    exact hlt
  · have hsome := (h.ready hr).1
    rw [hrun] at hsome
    cases hsome

/-- The custody of the others does not depend on a preparation that has no cleanup. -/
theorem Custody.setPreparation (hcustody : s.Custody) (hP : s.preparations[p]? = some P)
    (hcleaning : ∀ e c, P ≠ .cleaning e c) (hcleaning' : ∀ e c, P' ≠ .cleaning e c) :
    (s.setPreparation p P').Custody := by
  have hidle : s.PreparationsIdle → (s.setPreparation p P').PreparationsIdle := by
    intro hidle q e c hQ
    rcases preparation_cases hQ with ⟨-, e'⟩ | ⟨-, hQ⟩
    · exact absurd e'.symm (hcleaning' e c)
    · exact hidle q e c hQ
  have hlength : (s.setPreparation p P').preparations.length = s.preparations.length :=
    length_withPreparation
  rcases hcustody with ⟨hk, hp, hc⟩ | ⟨q, e, c, hq, hk, hc⟩ | ⟨a, b, c, hC, hk, hp⟩
  · refine custody_fields ?_ (hidle hp) hc
    rw [hlength]
    exact hk
  · refine custody_preparation (p := q) (e := e) (c := c) ?_ ?_ hc
    · refine (withPreparation_of_ne ?_).trans hq
      rintro rfl
      rw [hP] at hq
      exact hcleaning e c (Option.some.inj hq)
    · rw [hlength]
      exact hk
  · refine custody_close hC ?_ (hidle hp)
    rw [hlength]
    exact hk

/-- A preparation goes on, or goes wrong. -/
theorem Inv.setPreparation (h : s.Inv) (hP : s.preparations[p]? = some P)
    (hopen : P.isOpen = true) (hcleaning : ∀ e c, P ≠ .cleaning e c)
    (hcleaning' : ∀ e c, P' ≠ .cleaning e c)
    (hstanding : isStanding P' = true → isStanding P = true) :
    (s.setPreparation p P').Inv :=
  h.change s.resources s.preparationPromise hP hopen
    (h.custody.setPreparation hP hcleaning hcleaning')
    (.inl rfl) (.inl (h.opened p P hP hopen).1) (fun hs => ⟨hstanding hs, rfl⟩)
    fun e c hc => absurd hc (hcleaning' e c)

theorem Inv.ready_step (h : s.Inv) {result : Except Failure Unit}
    (hstep : s.ready p result = some s') : s'.Inv := by
  unfold OrdersConsumer.ready at hstep
  split at hstep
  next hP =>
    have hreject : ∀ e, (s.setPreparation p (.rejected e)).Inv := fun e =>
      h.setPreparation hP rfl (by simp) (by simp) fun hs => by cases hs
    split at hstep
    · obtain rfl := Option.some.inj hstep
      exact hreject _
    · split_ifs at hstep with hclosing
      · obtain rfl := Option.some.inj hstep
        exact hreject _
      · -- the worker stands in the fields, so its timer may be started
        have hopened : s.life ⟨.worker, p⟩ = .opened := by
          obtain ⟨hpromise, hfields⟩ := h.standing p _ hP rfl (by simpa using hclosing)
          have hrun := h.runPromise_none (h.opened p _ hP rfl).2
          rcases h.custody with ⟨hk, -, -⟩ | ⟨q, e, c, hq, -, -⟩ | ⟨a, b, c, hC, -, -⟩
          · rw [hrun] at hk
            exact hk.held ⟨.worker, p⟩ (hfields .worker)
          · have hnone := h.cleaning q e c hq
            rw [hnone] at hfields
            exact absurd (hfields .worker) (by simp [ConsumerResources.none])
          · rw [(h.stopped (by rw [hC]; rfl)).1] at hclosing
            exact absurd rfl hclosing
        have hlife : s.life.call ⟨.worker, p⟩ .startStalledCheckTimer = s.life := by
          unfold Lives.call
          rw [hopened]
          exact Function.update_eq_self_iff.2 hopened.symm
        rw [hlife] at hstep
        obtain rfl := Option.some.inj hstep
        exact h.setPreparation hP rfl (by simp) (by simp) fun _ => rfl
  · cases hstep

theorem Inv.timerStarted_step (h : s.Inv) {result : Except Failure Unit}
    (hstep : s.timerStarted p result = some s') : s'.Inv := by
  unfold OrdersConsumer.timerStarted at hstep
  split at hstep
  next hP =>
    have hreject : ∀ e, (s.setPreparation p (.rejected e)).Inv := fun e =>
      h.setPreparation hP rfl (by simp) (by simp) fun hs => by cases hs
    split at hstep
    · obtain rfl := Option.some.inj hstep
      exact hreject _
    · split_ifs at hstep
      · obtain rfl := Option.some.inj hstep
        exact hreject _
      · obtain rfl := Option.some.inj hstep
        exact h.setPreparation hP rfl (by simp) (by simp) fun _ => rfl
  · cases hstep

theorem Inv.catchPreparation_step (h : s.Inv) (hstep : s.catchPreparation p = some s') :
    s'.Inv := by
  unfold OrdersConsumer.catchPreparation at hstep
  split at hstep
  next e hP =>
    obtain rfl := Option.some.inj hstep
    obtain ⟨hpromise, hruns⟩ := h.opened p _ hP rfl
    refine h.change .none s.preparationPromise hP rfl ?_ (.inr rfl) (.inl hpromise)
      (fun hs => by cases hs) fun _ _ _ => rfl
    rcases h.custody with ⟨hk, -, hc⟩ | ⟨q, e', c, hq, -, -⟩ | ⟨a, b, c, hC, hk, hp⟩
    · have hopened : Kept s.preparations.length s.resources (fieldLife false) s.life := by
        rw [h.runPromise_none hruns] at hk
        exact hk
      obtain ⟨hres, hk'⟩ := ResourceCleanup.kept_closeOwnedResources hopened
      refine custody_preparation (withPreparation_self hP) ?_ hc
      rw [hres]
      show Kept (s.withPreparation p _).length _ _ _
      rw [length_withPreparation]
      exact hk'
    · have hqp := (h.opened q _ hq rfl).1
      rw [hpromise] at hqp
      obtain rfl := Option.some.inj hqp
      rw [hP] at hq
      cases hq
    · -- `close` has taken the resources
      have hnone : s.resources = .none := (h.stopped (by rw [hC]; rfl)).2.1
      have hbegun := ResourceCleanup.closeOwnedResources_none false s.life
      rw [hnone, hbegun.2]
      refine custody_close hC ?_ fun q e' c' hQ => ?_
      · show Kept (s.withPreparation p _).length _ _ _
        rw [length_withPreparation]
        exact hk
      · rcases preparation_cases hQ with ⟨-, hc'⟩ | ⟨-, hQ⟩
        · cases hc'
          exact hbegun.1
        · exact hp q e' c' hQ
  · cases hstep

/-- The open preparation is the only one whose cleanup can go on. -/
theorem Inv.cleaning_unique (h : s.Inv) {e e' : Failure} {c c' : ResourceCleanup} {q : ℕ}
    (hP : s.preparations[p]? = some (.cleaning e c))
    (hQ : s.preparations[q]? = some (.cleaning e' c')) : q = p ∧ e' = e ∧ c' = c := by
  have hq := (h.opened q _ hQ rfl).1
  rw [(h.opened p _ hP rfl).1] at hq
  obtain rfl := Option.some.inj hq
  rw [hP] at hQ
  cases hQ
  exact ⟨rfl, rfl, rfl⟩

/-- The other preparations have no cleanup of their own. -/
theorem Inv.idle_withPreparation (h : s.Inv) {e : Failure} {c : ResourceCleanup}
    (hP : s.preparations[p]? = some (.cleaning e c))
    (hP' : ∀ e' c', P' = .cleaning e' c' → c'.resources = .none) :
    (s.setPreparation p P').PreparationsIdle := by
  intro q e' c' hQ
  rcases preparation_cases hQ with ⟨-, hc'⟩ | ⟨hne, hQ⟩
  · exact hP' e' c' hc'.symm
  · exact absurd (h.cleaning_unique hP hQ).1 hne

theorem Inv.failPreparation_step (h : s.Inv) (hstep : s.failPreparation p = some s') : s'.Inv := by
  unfold OrdersConsumer.failPreparation at hstep
  split at hstep
  next e c hP =>
    obtain ⟨errors, hresult, rfl⟩ := Option.map_eq_some_iff.1 hstep
    have hnone : s.resources = .none := h.cleaning p e c hP
    refine h.change s.resources none hP rfl ?_ (.inl rfl) (.inr ⟨rfl, hnone, rfl⟩)
      (fun hs => by cases hs) fun _ _ hc => by cases hc
    rcases h.custody with ⟨hk, -, hc⟩ | ⟨q, e', c', hq, hk, hc⟩ | ⟨a, b, c', hC, hk, -⟩
    · refine custody_fields ?_ (h.idle_withPreparation hP fun _ _ hc => by cases hc) hc
      show Kept (s.withPreparation p _).length _ _ _
      rw [length_withPreparation]
      exact hk
    · obtain ⟨rfl, rfl, rfl⟩ := h.cleaning_unique hP hq
      refine custody_fields ?_ (h.idle_withPreparation hP fun _ _ hc => by cases hc) hc
      show Kept (s.withPreparation q _).length s.resources _ _
      rw [length_withPreparation, hnone]
      exact ResourceCleanup.kept_result hk hresult
    · refine custody_close hC ?_ (h.idle_withPreparation hP fun _ _ hc => by cases hc)
      show Kept (s.withPreparation p _).length _ _ _
      rw [length_withPreparation]
      exact hk
  · cases hstep

/-- A step of a cleanup changes no more than where its own resources stand. -/
theorem Inv.cleanup_step (h : s.Inv) {owner : Option ℕ} {e : ResourceCleanup.Event}
    (hstep : s.cleanup owner e = some s') : s'.Inv := by
  unfold OrdersConsumer.cleanup at hstep
  cases owner with
  | some p =>
    dsimp only at hstep
    split at hstep
    next error c hP =>
      obtain ⟨⟨c', l⟩, hc', rfl⟩ := Option.map_eq_some_iff.1 hstep
      refine h.change s.resources s.preparationPromise hP rfl ?_ (.inl rfl)
        (.inl (h.opened p _ hP rfl).1) (fun hs => by cases hs)
        fun _ _ _ => h.cleaning p error c hP
      have hidle : c'.resources = .none →
          (s.setPreparation p (.cleaning error c')).PreparationsIdle := fun hnone =>
        h.idle_withPreparation hP fun _ _ hd => by
          cases hd
          exact hnone
      rcases h.custody with ⟨hk, hp, hc⟩ | ⟨q, e', d, hq, hk, hc⟩ | ⟨a, b, d, hC, hk, hp⟩
      · obtain ⟨hnone, rfl⟩ := ResourceCleanup.step_none (hp p error c hP) hc'
        refine custody_fields ?_ (hidle hnone) hc
        show Kept (s.withPreparation p _).length _ _ _
        rw [length_withPreparation]
        exact hk
      · obtain ⟨rfl, rfl, rfl⟩ := h.cleaning_unique hP hq
        obtain ⟨hres, hk'⟩ := ResourceCleanup.kept_step hk hc'
        refine custody_preparation (withPreparation_self hP) ?_ hc
        rw [hres]
        show Kept (s.withPreparation q _).length _ _ _
        rw [length_withPreparation]
        exact hk'
      · obtain ⟨hnone, rfl⟩ := ResourceCleanup.step_none (hp p error c hP) hc'
        refine custody_close hC ?_ (hidle hnone)
        show Kept (s.withPreparation p _).length _ _ _
        rw [length_withPreparation]
        exact hk
    · cases hstep
  | none =>
    dsimp only at hstep
    split at hstep
    next a b c hC =>
      obtain ⟨⟨c', l⟩, hc', rfl⟩ := Option.map_eq_some_iff.1 hstep
      have hstopped := h.stopped (by rw [hC]; rfl)
      refine
        { custody := ?_, stopped := fun _ => hstopped, going := fun hn => (by cases hn),
          promise := h.promise, unprepared := h.unprepared, opened := h.opened,
          standing := h.standing, cleaning := h.cleaning, found := fun C hC' => ?_,
          valid := fun C hC' => ?_, idle := fun a b o hC' => (by cases hC'),
          single := h.single, run := h.run, looping := h.looping, awaited := h.awaited,
          unstarted := h.unstarted, ready := h.ready, notified := h.notified, silent := h.silent }
      · have hidle : c'.resources = .none → ∀ a' b' d,
            some ⟨a, b, .cleaning c'⟩ = some (ConsumerClose.mk a' b' (.cleaning d)) →
            d.resources = .none := fun hnone a' b' d hd => by
          cases hd
          exact hnone
        rcases h.custody with ⟨hk, hp, hc⟩ | ⟨q, e', d, hq, hk, hc⟩ | ⟨a', b', d, hC', hk, hp⟩
        · obtain ⟨hnone, rfl⟩ := ResourceCleanup.step_none (hc a b c hC) hc'
          exact custody_fields hk hp (hidle hnone)
        · obtain ⟨hnone, rfl⟩ := ResourceCleanup.step_none (hc a b c hC) hc'
          exact custody_preparation hq hk (hidle hnone)
        · rw [hC] at hC'
          cases hC'
          obtain ⟨hres, hk'⟩ := ResourceCleanup.kept_step hk hc'
          refine custody_close rfl ?_ hp
          rw [hres]
          exact hk'
      · obtain rfl := Option.some.inj hC'
        exact h.found ⟨a, b, .cleaning c⟩ hC
      · obtain rfl := Option.some.inj hC'
        exact h.valid ⟨a, b, .cleaning c⟩ hC
    · cases hstep

/-! ## Starts and runs -/

theorem start_cases {i j : ℕ} {outcome : Except Failure Unit} {q : Except Failure ℕ}
    (hj : (s.withStart i outcome)[j]? = some (.awaiting q)) :
    j ≠ i ∧ s.starts[j]? = some (.awaiting q) := by
  rcases Table.getElem?_modify_cases hj with ⟨-, _, -, hne⟩ | ⟨hne, hj⟩
  · cases hne
  · exact ⟨hne.symm, hj⟩

theorem Inv.setStart (h : s.Inv) (i : ℕ) (outcome : Except Failure Unit) :
    (s.setStart i outcome).Inv :=
  { h with
    custody := h.custody
    awaited := fun _ q hj => h.awaited _ q (start_cases hj).2 }

/-- With a preparation that succeeded, and before `close`, the fields hold what it made. -/
theorem Inv.fields_of_settled (h : s.Inv) (hP : s.preparations[p]? = some (.settled (.ok ())))
    (hclosing : s.closing = false) :
    Kept s.preparations.length s.resources (fieldLife s.runPromise.isSome) s.life ∧
    s.PreparationsIdle ∧ s.CloseIdle := by
  have hfields := (h.standing p _ hP rfl hclosing).2
  rcases h.custody with hfield | ⟨q, e, c, hq, -, -⟩ | ⟨a, b, c, hC, -, -⟩
  · exact hfield
  · have hnone := h.cleaning q e c hq
    rw [hnone] at hfields
    exact absurd (hfields .worker) (by simp [ConsumerResources.none])
  · rw [h.closePromise_none hclosing] at hC
    cases hC

/-- The worker runs for the first time. -/
theorem Inv.runWorker (h : s.Inv) {i : ℕ} (hi : s.starts[i]? = some (.awaiting (.ok p)))
    (hP : s.preparations[p]? = some (.settled (.ok ()))) (hclosing : s.closing = false)
    (outcome : Except Failure Unit) (isRunning : Bool) :
    Inv { s with
      life := s.life.call ⟨.worker, p⟩ .run
      runPromise := some s.runs.length
      runs := s.runs ++ [.running]
      processingReady := isRunning || s.processingReady
      starts := s.withStart i outcome } := by
  obtain ⟨hlt, hruns, hstart⟩ := h.awaited i p hi
  obtain ⟨hpromise, hfields⟩ := h.standing p _ hP rfl hclosing
  have hC := h.closePromise_none hclosing
  have hstart : s.startPromise = some i := by
    rcases hstart with hc | hstart
    · rw [hclosing] at hc
      cases hc
    · exact hstart
  have hone : ∀ {j : ℕ} {R : RunLoop}, (s.runs ++ [RunLoop.running])[j]? = some R →
      j = 0 ∧ R = .running := fun {j R} hR => by
    rw [hruns] at hR
    rcases Table.getElem?_concat_cases hR with hR | ⟨hj, hR⟩
    · cases hR
    · exact ⟨hj, hR⟩
  have hopened : ∀ (q : ℕ) Q, s.preparations[q]? = some Q → Q.isOpen = false := by
    intro q Q hQ
    by_contra ho
    have hq := (h.opened q Q hQ (by simpa using ho)).1
    rw [hpromise] at hq
    obtain rfl := Option.some.inj hq
    rw [hP] at hQ
    obtain rfl := Option.some.inj hQ
    exact ho rfl
  refine
    { custody := ?_, stopped := fun hs => ?_, going := h.going, promise := h.promise,
      unprepared := h.unprepared, opened := fun q Q hQ hQo => ?_, standing := h.standing,
      cleaning := h.cleaning, found := fun C hC' => ?_, valid := fun C hC' => ?_,
      idle := fun a b o hC' => ?_, single := ?_, run := fun j hj => ?_, looping := fun _ j hj => ?_,
      awaited := fun j q hj => ?_, unstarted := fun hn => ?_, ready := fun _ => ?_,
      notified := ⟨h.notified.1, fun hne => absurd (h.silent hruns) hne⟩,
      silent := fun hn => (by cases List.append_eq_nil_iff.1 hn |>.2) }
  · obtain ⟨hk, hp, hc⟩ := h.fields_of_settled hP hclosing
    rw [h.runPromise_none hruns] at hk
    refine custody_fields ((hk.call (hfields .worker) .run).congr fun k _ _ => ?_) hp hc
    cases k <;> rfl
  · have hs' : s.closePromise.isSome = true := hs
    rw [hC] at hs'
    cases hs'
  · rw [hopened q Q hQ] at hQo
    cases hQo
  · have hC'' : s.closePromise = some C := hC'
    rw [hC] at hC''
    cases hC''
  · have hC'' : s.closePromise = some C := hC'
    rw [hC] at hC''
    cases hC''
  · have hC'' : s.closePromise = some _ := hC'
    rw [hC] at hC''
    cases hC''
  · show (s.runs ++ [RunLoop.running]).length ≤ 1
    rw [hruns]
    exact le_rfl
  · obtain rfl := Option.some.inj hj
    refine ⟨?_, by rw [show s.preparationPromise = some p from hpromise]; rfl⟩
    show s.runs.length < (s.runs ++ [RunLoop.running]).length
    rw [List.length_append]
    exact Nat.lt_succ_self _
  · have hj' : j < (s.runs ++ [RunLoop.running]).length := hj
    rw [hruns] at hj'
    show some s.runs.length = some j
    rw [hruns, Nat.lt_one_iff.1 hj']
    rfl
  · obtain ⟨hne, hj⟩ := start_cases hj
    obtain ⟨-, -, hc⟩ := h.awaited j q hj
    rcases hc with hc | hc
    · rw [hclosing] at hc
      cases hc
    · rw [hstart] at hc
      exact absurd (Option.some.inj hc).symm hne
  · have hn' : s.startPromise = none := hn
    rw [hstart] at hn'
    cases hn'
  · refine ⟨rfl, ⟨p, hfields .worker⟩, fun j R hR => ?_⟩
    rw [(hone hR).2]
    simp

theorem Inv.resumeStart_step (h : s.Inv) {i : ℕ} {isRunning : Bool}
    (hstep : s.resumeStart i isRunning = some s') : s'.Inv := by
  unfold OrdersConsumer.resumeStart at hstep
  split at hstep
  · obtain rfl := Option.some.inj hstep
    exact h.setStart _ _
  next p hi =>
    split at hstep
    · obtain rfl := Option.some.inj hstep
      exact h.setStart _ _
    next hP =>
      by_cases hclosing : s.closing = true
      · rw [if_pos hclosing] at hstep
        obtain rfl := Option.some.inj hstep
        exact h.setStart _ _
      · have hfalse : s.closing = false := by simpa using hclosing
        rw [if_neg hclosing, (h.standing p _ hP rfl hfalse).2 .worker] at hstep
        obtain rfl := Option.some.inj hstep
        exact h.runWorker hi hP hfalse _ _
    · cases hstep
  · cases hstep

/-- A run that is not handled yet goes on. -/
theorem Inv.withRun (h : s.Inv) {i : ℕ} {R R' : RunLoop} (ready : Bool) (notified : List ℕ)
    (hR : s.runs[i]? = some R) (hne : R ≠ .handled)
    (hready : ready = true → s.processingReady = true ∧ R' ≠ .handled) (hnodup : notified.Nodup)
    (hnotified : notified ≠ [] → R' = .handled) :
    Inv { s with runs := s.withRun i R', processingReady := ready, notified := notified } := by
  have hlt := Table.lt_length hR
  have hlength : (s.withRun i R').length = s.runs.length := List.length_modify ..
  have hruns : s.runs ≠ [] := by
    intro e
    rw [e] at hlt
    cases hlt
  have hone : ∀ {j : ℕ} {Q : RunLoop}, (s.withRun i R')[j]? = some Q → Q = R' := by
    intro j Q hQ
    have hj := Table.lt_length hQ
    rw [hlength] at hj
    have hsingle := h.single
    rcases Table.getElem?_modify_cases hQ with ⟨-, _, -, e⟩ | ⟨hij, -⟩
    · exact e
    · omega
  refine
    { custody := h.custody, stopped := fun hC => ?_, going := h.going, promise := h.promise,
      unprepared := h.unprepared, opened := fun q Q hQ hQo => absurd (h.opened q Q hQ hQo).2 hruns,
      standing := h.standing, cleaning := h.cleaning,
      found := fun C hC => ⟨(h.found C hC).1, fun j Q hQ hQh => ?_⟩,
      valid := fun C hC => ⟨(h.valid C hC).1, fun j hj => ?_⟩,
      idle := fun a b o hC => absurd ((h.idle a b o hC).2.2 i R hR) hne,
      single := ?_, run := fun j hj => ⟨?_, (h.run j hj).2⟩,
      looping := fun hc j hj => h.looping hc j (hlength ▸ hj),
      awaited := fun j q hj => absurd (h.awaited j q hj).2.1 hruns,
      unstarted := fun hn hc => absurd (h.unstarted hn hc) hruns,
      ready := fun hr => ?_, notified := ⟨hnodup, fun hn j Q hQ => ?_⟩, silent := fun hn => ?_ }
  · obtain ⟨hclosing, hnone, hfalse⟩ := h.stopped hC
    refine ⟨hclosing, hnone, ?_⟩
    cases ready with
    | false => rfl
    | true =>
      rw [(hready rfl).1] at hfalse
      cases hfalse
  · rcases Table.getElem?_modify_cases hQ with ⟨rfl, -⟩ | ⟨-, hQ⟩
    · exact (h.found C hC).2 i R hR hne
    · exact (h.found C hC).2 j Q hQ hQh
  · show j < (s.withRun i R').length
    rw [hlength]
    exact (h.valid C hC).2 j hj
  · show (s.withRun i R').length ≤ 1
    rw [hlength]
    exact h.single
  · show j < (s.withRun i R').length
    rw [hlength]
    exact (h.run j hj).1
  · obtain ⟨hr, hR'⟩ := hready hr
    obtain ⟨hrun, hworker, -⟩ := h.ready hr
    exact ⟨hrun, hworker, fun j Q hQ => by rw [hone hQ]; exact hR'⟩
  · rw [hone hQ]
    exact hnotified hn
  · have hlength0 : (s.withRun i R').length = 0 := by
      rw [show s.withRun i R' = [] from hn]
      rfl
    rw [hlength] at hlength0
    exact absurd (List.length_eq_zero_iff.1 hlength0) hruns

theorem Inv.notified_nil (h : s.Inv) {i : ℕ} {R : RunLoop} (hR : s.runs[i]? = some R)
    (hne : R ≠ .handled) : s.notified = [] := by
  by_contra hn
  exact hne (h.notified.2 hn i R hR)

theorem Inv.runEnds_step (h : s.Inv) {i : ℕ} {termination : ConsumerRunTermination}
    (hstep : s.runEnds i termination = some s') : s'.Inv := by
  unfold OrdersConsumer.runEnds at hstep
  split at hstep
  next hR =>
    obtain rfl := Option.some.inj hstep
    exact h.withRun s.processingReady s.notified hR (by simp)
      (fun hr => ⟨hr, by simp⟩) h.notified.1 fun hn => absurd (h.notified_nil hR (by simp)) hn
  · cases hstep

theorem Inv.handleRunTermination_step (h : s.Inv) {i : ℕ}
    (hstep : s.handleRunTermination i = some s') : s'.Inv := by
  unfold OrdersConsumer.handleRunTermination at hstep
  split at hstep
  next t hR =>
    split_ifs at hstep with hclosing
    · obtain rfl := Option.some.inj hstep
      refine h.withRun s.processingReady s.notified hR (by simp)
        (fun hr => ?_) h.notified.1 fun _ => rfl
      cases hC : s.closePromise with
      | none =>
        rw [h.going hC] at hclosing
        cases hclosing
      | some C =>
        rw [(h.stopped (by rw [hC]; rfl)).2.2] at hr
        cases hr
    · obtain rfl := Option.some.inj hstep
      refine h.withRun false _ hR (by simp) (fun hr => by cases hr) ?_ fun _ => rfl
      rw [h.notified_nil hR (by simp)]
      exact s.terminationListeners.nodup
  · cases hstep

/-! ## Calls from outside -/

theorem Inv.closing_false (h : s.Inv) (hp : s.preparationPromise = none) (hc : s.closing = false) :
    s.runs = [] := by
  by_contra hne
  have hrun := h.looping hc 0 (List.length_pos_iff.2 hne)
  have hsome := (h.run 0 hrun).2
  rw [hp] at hsome
  cases hsome

/-- A new preparation fills the fields when nothing else is left. -/
theorem Inv.make (h : s.Inv) (hp : s.preparationPromise = none) (hc : s.closing = false)
    (made : List ResourceKind) (hopen : P.isOpen = true) (hcleaning : ∀ e c, P ≠ .cleaning e c)
    (hstanding : isStanding P = true → ∀ kind, kind ∈ made) :
    Inv { s with
      resources := fun kind => if kind ∈ made then some s.preparations.length else s.resources kind
      life := fun r =>
        if r.preparation = s.preparations.length ∧ r.kind ∈ made then (s.life r).create
        else s.life r
      preparations := s.preparations ++ [P]
      preparationPromise := some s.preparations.length } := by
  have hruns := h.closing_false hp hc
  have hrun := h.runPromise_none hruns
  have hnone := h.unprepared hp
  have hC := h.closePromise_none hc
  have hlength : (s.preparations ++ [P]).length = s.preparations.length + 1 := by simp
  have hold : ∀ (q : ℕ) Q, s.preparations[q]? = some Q → Q.isOpen = false := by
    intro q Q hQ
    by_contra ho
    have hq := (h.opened q Q hQ (by simpa using ho)).1
    rw [hp] at hq
    cases hq
  have hrest : Kept s.preparations.length .none (fieldLife false) s.life := by
    rcases h.custody with ⟨hk, -, -⟩ | ⟨q, e, c, hq, -, -⟩ | ⟨a, b, c, hC', -, -⟩
    · rw [hnone, hrun] at hk
      exact hk
    · cases hold q _ hq
    · rw [hC] at hC'
      cases hC'
  have hhas : ∀ {kind : ResourceKind} {q : ℕ},
      (if kind ∈ made then some s.preparations.length else s.resources kind) = some q →
      kind ∈ made ∧ q = s.preparations.length := by
    intro kind q hq
    split_ifs at hq with hm
    · exact ⟨hm, (Option.some.inj hq).symm⟩
    · rw [hnone] at hq
      cases hq
  refine
    { custody := ?_, stopped := fun hs => ?_, going := fun _ => hc, promise := fun q hq => ?_,
      unprepared := fun hn => (by cases hn), opened := fun q Q hQ hQo => ?_,
      standing := fun q Q hQ hQs _ => ?_, cleaning := fun q e c hQ => ?_,
      found := fun C hC' => ?_, valid := fun C hC' => ?_, idle := fun a b o hC' => ?_,
      single := h.single, run := fun i hi => ?_, looping := h.looping,
      awaited := fun i q hi => ?_, unstarted := fun _ _ => hruns, ready := fun hr => ?_,
      notified := h.notified, silent := h.silent }
  · refine custody_fields ⟨fun r hr => ?_, fun r hr => ?_, fun hk hk' => ?_, fun hk => ?_,
      fun r hr => ?_⟩ (fun q e c hQ => ?_) fun a b c hC' => ?_
    · obtain ⟨hm, hq⟩ := hhas hr
      show (if r.preparation = s.preparations.length ∧ r.kind ∈ made then (s.life r).create
        else s.life r) = fieldLife s.runPromise.isSome r.kind
      rw [if_pos ⟨hq, hm⟩, hrest.fresh r (by rw [hq]), hrun]
      cases r.kind <;> rfl
    · show (if r.preparation = s.preparations.length ∧ r.kind ∈ made then (s.life r).create
        else s.life r) = .absent ∨ (if r.preparation = s.preparations.length ∧ r.kind ∈ made then
          (s.life r).create else s.life r) = .closed
      rw [if_neg]
      · exact hrest.of_none r
      · rintro ⟨hq, hm⟩
        refine hr ?_
        show (if r.kind ∈ made then some s.preparations.length else s.resources r.kind) = _
        rw [if_pos hm, hq]
    · rw [(hhas hk).2, (hhas hk').2]
    · rw [(hhas hk).2]
      show s.preparations.length < (s.preparations ++ [P]).length
      omega
    · have hr' : (s.preparations ++ [P]).length ≤ r.preparation := hr
      show (if r.preparation = s.preparations.length ∧ r.kind ∈ made then (s.life r).create
        else s.life r) = .absent
      rw [if_neg (by omega)]
      exact hrest.fresh r (by omega)
    · rcases Table.getElem?_concat_cases hQ with hQ | ⟨-, hQ⟩
      · cases hold q _ hQ
      · exact absurd hQ.symm (hcleaning e c)
    · have hC'' : s.closePromise = some _ := hC'
      rw [hC] at hC''
      cases hC''
  · have hs' : s.closePromise.isSome = true := hs
    rw [hC] at hs'
    cases hs'
  · obtain rfl := Option.some.inj hq
    show s.preparations.length < (s.preparations ++ [P]).length
    omega
  · refine ⟨?_, hruns⟩
    rcases Table.getElem?_concat_cases hQ with hQ | ⟨rfl, -⟩
    · rw [hold q Q hQ] at hQo
      cases hQo
    · rfl
  · rcases Table.getElem?_concat_cases hQ with hQ | ⟨rfl, rfl⟩
    · have hq := (h.standing q Q hQ hQs hc).1
      rw [hp] at hq
      cases hq
    · exact ⟨rfl, fun kind => if_pos (hstanding hQs kind)⟩
  · rcases Table.getElem?_concat_cases hQ with hQ | ⟨-, hQ⟩
    · cases hold q _ hQ
    · exact absurd hQ.symm (hcleaning e c)
  · have hC'' : s.closePromise = some C := hC'
    rw [hC] at hC''
    cases hC''
  · have hC'' : s.closePromise = some C := hC'
    rw [hC] at hC''
    cases hC''
  · have hC'' : s.closePromise = some _ := hC'
    rw [hC] at hC''
    cases hC''
  · have hi' : s.runPromise = some i := hi
    rw [hrun] at hi'
    cases hi'
  · obtain ⟨hlt, hrest'⟩ := h.awaited i q hi
    refine ⟨?_, hrest'⟩
    show q < (s.preparations ++ [P]).length
    omega
  · have hsome := (h.ready hr).1
    rw [hrun] at hsome
    cases hsome

theorem Inv.prepareResources (h : s.Inv) (hp : s.preparationPromise = none)
    (hc : s.closing = false) (fault : Option (ℕ × Failure)) :
    Inv { s.prepareResources fault with preparationPromise := some s.preparations.length } := by
  cases fault with
  | none => exact h.make hp hc CONSTRUCTED rfl (by simp) fun _ kind => by cases kind <;> decide
  | some f => exact h.make hp hc (CONSTRUCTED.take f.1) rfl (by simp) fun hs => by cases hs

theorem Inv.prepare (h : s.Inv) (fault : Option (ℕ × Failure)) :
    (s.prepareForBootstrapRecovery fault).2.Inv := by
  unfold prepareForBootstrapRecovery
  cases hp : s.preparationPromise with
  | some p => exact h
  | none =>
    dsimp only
    by_cases hc : s.closing = true
    · rw [if_pos hc]
      exact h
    · rw [if_neg hc]
      exact h.prepareResources hp (by simpa using hc) fault

/-- A call that is not rejected waits for the preparation whose promise is kept. -/
theorem prepare_ok {fault : Option (ℕ × Failure)}
    (hp : (s.prepareForBootstrapRecovery fault).1 = .ok p) :
    (s.prepareForBootstrapRecovery fault).2.preparationPromise = some p := by
  unfold prepareForBootstrapRecovery at hp ⊢
  cases hq : s.preparationPromise with
  | some q =>
    rw [hq] at hp
    obtain rfl := Except.ok.inj hp
    exact hq
  | none =>
    rw [hq] at hp
    dsimp only at hp ⊢
    split_ifs at hp ⊢
    · obtain rfl := Except.ok.inj hp
      rfl

theorem prepare_frame (s : OrdersConsumer) (fault : Option (ℕ × Failure)) :
    (s.prepareForBootstrapRecovery fault).2.starts = s.starts ∧
    (s.prepareForBootstrapRecovery fault).2.startPromise = s.startPromise := by
  unfold prepareForBootstrapRecovery
  cases s.preparationPromise with
  | some p => exact ⟨rfl, rfl⟩
  | none =>
    dsimp only
    split_ifs
    · exact ⟨rfl, rfl⟩
    · exact ⟨rfl, rfl⟩

theorem Inv.start_step (h : s.Inv) (fault : Option (ℕ × Failure)) : (s.start fault).Inv := by
  unfold OrdersConsumer.start
  cases hs : s.startPromise with
  | some i => exact h
  | none =>
    have h' := h.prepare fault
    obtain ⟨hstarts, hstart⟩ := prepare_frame s fault
    rw [hs] at hstart
    refine { h' with
      custody := h'.custody, awaited := fun i p hi => ?_, unstarted := fun hn => by cases hn }
    rcases Table.getElem?_concat_cases hi with hi | ⟨rfl, heq⟩
    · rw [← hstarts] at hi
      obtain ⟨hlt, hruns, hc⟩ := h'.awaited i p hi
      rcases hc with hc | hc
      · exact ⟨hlt, hruns, .inl hc⟩
      · rw [hstart] at hc
        cases hc
    · have hp := prepare_ok (StartCall.awaiting.inj heq).symm
      exact ⟨h'.promise p hp, h'.unstarted hstart (.inr (by rw [hp]; rfl)), .inr rfl⟩

theorem Inv.close_step (h : s.Inv) : s.close.Inv := by
  unfold OrdersConsumer.close
  cases hC : s.closePromise with
  | some C => exact h
  | none =>
    have hclosing := h.going hC
    refine
      { custody := ?_, stopped := fun _ => ⟨rfl, rfl, rfl⟩, going := fun hn => (by cases hn),
        promise := h.promise, unprepared := fun _ => rfl, opened := h.opened,
        standing := fun _ _ _ _ hn => (by cases hn), cleaning := fun _ _ _ _ => rfl,
        found := fun C hC' => ?_, valid := fun C hC' => ?_, idle := fun a b o hC' => (by cases hC'),
        single := h.single, run := h.run, looping := fun hn => (by cases hn),
        awaited := fun i p hi => ?_, unstarted := fun hn _ => h.unstarted hn (.inl hclosing),
        ready := fun hr => (by cases hr), notified := h.notified, silent := h.silent }
    · rcases h.custody with ⟨hk, hp, -⟩ | ⟨q, e, c, hq, hk, -⟩ | ⟨a, b, c, hC', -, -⟩
      · obtain ⟨hres, hk'⟩ := ResourceCleanup.kept_closeOwnedResources hk
        refine custody_close rfl ?_ hp
        rw [hres]
        exact hk'
      · -- a failed preparation has taken the resources
        have hnone := h.cleaning q e c hq
        have hbegun := ResourceCleanup.closeOwnedResources_none s.runPromise.isSome s.life
        rw [← hnone] at hbegun
        refine custody_preparation hq ?_ fun a b c' hc' => ?_
        · show Kept s.preparations.length _ _ (ResourceCleanup.closeOwnedResources ..).2
          rw [hbegun.2]
          exact hk
        · cases hc'
          exact hbegun.1.trans hnone
      · rw [hC] at hC'
        cases hC'
    · obtain rfl := Option.some.inj hC'
      exact ⟨fun p P hP ho => (h.opened p P hP ho).1,
        fun i R hR _ => h.looping hclosing i (Table.lt_length hR)⟩
    · obtain rfl := Option.some.inj hC'
      exact ⟨h.promise, fun i hi => (h.run i hi).1⟩
    · obtain ⟨hlt, hruns, -⟩ := h.awaited i p hi
      exact ⟨hlt, hruns, .inl rfl⟩

theorem Inv.resumeClose_step (h : s.Inv) (hstep : s.resumeClose = some s') : s'.Inv := by
  unfold OrdersConsumer.resumeClose at hstep
  split at hstep
  next a b c hC =>
    obtain ⟨errors, hresult, rfl⟩ := Option.map_eq_some_iff.1 hstep
    have hstopped := h.stopped (by rw [hC]; rfl)
    refine { h with
      custody := ?_, stopped := fun _ => hstopped, going := fun hn => (by cases hn),
      found := fun C hC' => ?_, valid := fun C hC' => ?_, idle := fun a b o hC' => by cases hC' }
    · rcases h.custody with ⟨hk, hp, -⟩ | ⟨q, e, c', hq, hk, -⟩ | ⟨a', b', c', hC', hk, hp⟩
      · exact custody_fields hk hp fun _ _ _ hc => by cases hc
      · exact custody_preparation hq hk fun _ _ _ hc => by cases hc
      · rw [hC] at hC'
        cases hC'
        refine custody_fields ?_ hp fun _ _ _ hc => by cases hc
        show Kept s.preparations.length s.resources _ _
        rw [hstopped.2.1]
        exact ResourceCleanup.kept_result hk hresult
    · obtain rfl := Option.some.inj hC'
      exact h.found ⟨a, b, .cleaning c⟩ hC
    · obtain rfl := Option.some.inj hC'
      exact h.valid ⟨a, b, .cleaning c⟩ hC
  next a b errors hC =>
    by_cases hover : (s.preparationOver a && s.runOver b) = true
    · rw [if_pos hover] at hstep
      obtain rfl := Option.some.inj hstep
      obtain ⟨hpreparation, hrun⟩ := Bool.and_eq_true_iff.1 hover
      obtain ⟨hclosing, hnone, hready⟩ := h.stopped (by rw [hC]; rfl)
      have hsettled : ∀ (p : ℕ) P, s.preparations[p]? = some P → P.isOpen = false := by
        intro p P hP
        by_contra ho
        have hfound : a = some p := (h.found _ hC).1 p P hP (by simpa using ho)
        rw [hfound] at hpreparation
        simp [preparationOver, hP, ho] at hpreparation
      have hhandled : ∀ (i : ℕ) R, s.runs[i]? = some R → R = .handled := by
        intro i R hR
        by_contra hne
        have hfound : b = some i := (h.found _ hC).2 i R hR hne
        rw [hfound] at hrun
        cases R
        case handled => exact hne rfl
        all_goals simp [runOver, hR] at hrun
      have hne : s.closing ≠ false := by rw [hclosing]; simp
      have hnever : s.processingReady ≠ true := by rw [hready]; simp
      refine
        { custody := ?_, stopped := fun _ => ⟨hclosing, hnone, hready⟩,
          going := fun hn => (by cases hn), promise := fun p hp => (by cases hp),
          unprepared := fun _ => hnone, opened := fun p P hP ho => ?_,
          standing := fun p P hP hs hc => absurd hc hne, cleaning := h.cleaning,
          found := fun C hC' => ?_, valid := fun C hC' => ?_,
          idle := fun _ _ _ _ => ⟨rfl, hsettled, hhandled⟩, single := h.single,
          run := fun i hi => (by cases hi), looping := fun hc => absurd hc hne,
          awaited := fun i p hi => ?_, unstarted := fun _ hc => ?_,
          ready := fun hr => absurd hr hnever, notified := h.notified, silent := h.silent }
      · rcases h.custody with ⟨hk, hp, -⟩ | ⟨q, e, c', hq, hk, -⟩ | ⟨a', b', c', hC', hk, hp⟩
        · refine custody_fields ?_ hp fun _ _ _ hc => by cases hc
          show Kept s.preparations.length s.resources _ s.life
          rw [hnone] at hk ⊢
          exact kept_none hk.of_none hk.fresh
        · exact custody_preparation hq hk fun _ _ _ hc => by cases hc
        · rw [hC] at hC'
          cases hC'
      · rw [hsettled p P hP] at ho
        cases ho
      · obtain rfl := Option.some.inj hC'
        exact h.found ⟨a, b, .awaiting errors⟩ hC
      · obtain rfl := Option.some.inj hC'
        exact h.valid ⟨a, b, .awaiting errors⟩ hC
      · obtain ⟨hlt, hruns, -⟩ := h.awaited i p hi
        exact ⟨hlt, hruns, .inl hclosing⟩
      · rcases hc with hc | hc
        · exact absurd hc hne
        · cases hc
    · rw [if_neg hover] at hstep
      cases hstep
  · cases hstep

/-! ## Every event -/

theorem Inv.step (h : s.Inv) {e : Event} (hstep : s.step e = some s') : s'.Inv := by
  cases e with
  | prepare fault =>
    obtain rfl := Option.some.inj hstep
    exact h.prepare fault
  | start fault =>
    obtain rfl := Option.some.inj hstep
    exact h.start_step fault
  | close =>
    obtain rfl := Option.some.inj hstep
    exact h.close_step
  | subscribe listener =>
    obtain rfl := Option.some.inj hstep
    exact { h with custody := h.custody }
  | unsubscribe listener =>
    obtain rfl := Option.some.inj hstep
    exact { h with custody := h.custody }
  | ready p result => exact h.ready_step hstep
  | timerStarted p result => exact h.timerStarted_step hstep
  | catchPreparation p => exact h.catchPreparation_step hstep
  | failPreparation p => exact h.failPreparation_step hstep
  | cleanup owner e => exact h.cleanup_step hstep
  | resumeStart i isRunning => exact h.resumeStart_step hstep
  | runEnds i termination => exact h.runEnds_step hstep
  | handleRunTermination i => exact h.handleRunTermination_step hstep
  | resumeClose => exact h.resumeClose_step hstep

theorem inv_run {es : List Event} (hrun : Machine.run OrdersConsumer.step initial es = some s) :
    s.Inv :=
  Machine.invariant (fun _ _ _ h hstep => h.step hstep) inv_initial hrun

end OrdersConsumer

end FlashSale
