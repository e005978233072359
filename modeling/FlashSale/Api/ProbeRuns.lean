import FlashSale.Api.QueueDepthProbe

/-!
# Runs of the queue depth probe

Over every order of calls, replies and deadlines: at most one observer and one command
(`observers_isolated`), nothing left and nothing begun after the first `close` (`close_final`), and
every caller is settled by a bounded number of events of the probe itself (`settles`).
-/

namespace FlashSale

namespace QueueDepthProbe

variable {q q' : QueueDepthProbe} {f g : ℕ} {F F' : DepthFlight} {G : ObserverGeneration}

/-! ## Earlier flights -/

/-- What the promise of a flight is settled with. -/
def outcome (F : DepthFlight) : Option (Except Failure QueueDepth) :=
  match F.phase with
  | .settled o => some o
  | .cleared o => some o
  | _ => none

/-- What the observers of earlier flights have come to. -/
structure History (q : QueueDepthProbe) : Prop where
  failed : ∀ {f : ℕ} {F : DepthFlight} {e : Failure}, q.flights[f]? = some F →
    outcome F = some (.error e) → q.disposed F.generation
  later : ∀ {f f' : ℕ} {F F' : DepthFlight}, q.flights[f]? = some F → q.flights[f']? = some F' →
    f < f' → F.generation = F'.generation → ∃ d, outcome F = some (.ok d)

theorem history_initial : initial.History where
  failed h := by cases h
  later h := by cases h

/-- Flights and observers are only added, a disposal that has begun is not undone, and a disposed
observer stays so. -/
structure Grows (q q' : QueueDepthProbe) : Prop where
  flights : q.flights.length ≤ q'.flights.length
  observers : ∀ {g : ℕ} {G : ObserverGeneration}, q.generations[g]? = some G → ∃ G',
    q'.generations[g]? = some G' ∧ (G.closePromise ≠ none → G'.closePromise ≠ none) ∧
    (G.closePromise = some .done → G'.closePromise = some .done)

theorem Grows.of_same (hf : q.flights.length ≤ q'.flights.length)
    (hg : q'.generations = q.generations) : q.Grows q' :=
  ⟨hf, fun hG => ⟨_, hg ▸ hG, id, id⟩⟩

theorem Grows.of_modify (hf : q'.flights.length = q.flights.length)
    {u : ObserverGeneration → ObserverGeneration}
    (hg : q'.generations = q.generations.modify g u)
    (hu : ∀ G, q.generations[g]? = some G →
      (u G).closePromise ≠ none ∧ (G.closePromise = some .done → (u G).closePromise = some .done)) :
    q.Grows q' := by
  refine ⟨hf.ge, fun {g' G} hG => ?_⟩
  rw [hg]
  refine ⟨_, Table.getElem?_modify_of_some hG, ?_⟩
  split_ifs with heq
  · subst heq
    obtain ⟨hne, hdone⟩ := hu G hG
    exact ⟨fun _ => hne, hdone⟩
  · exact ⟨id, id⟩

theorem Grows.dispose (hf : q'.flights.length = q.flights.length)
    (hg : q'.generations = (q.disposeGeneration g).generations) : q.Grows q' := by
  refine Grows.of_modify hf hg fun G _ => ?_
  obtain ⟨_ | d⟩ := G
  · exact ⟨by simp, fun hd => by cases hd⟩
  · exact ⟨by simp, id⟩

theorem Grows.disposed (h : q.Grows q') (hG : q.disposed g) : q'.disposed g := by
  obtain ⟨⟨p⟩, hG', -, hdone⟩ := h.observers hG
  obtain rfl : p = some .done := hdone rfl
  exact hG'

theorem grows_step {e : Event} (hstep : q.step e = some q') : q.Grows q' := by
  cases e with
  | depth =>
    obtain rfl := Option.some.inj hstep
    unfold QueueDepthProbe.depth runDepth
    split_ifs
    · exact Grows.of_same le_rfl rfl
    · cases q.flight with
      | some f => exact Grows.of_same le_rfl rfl
      | none =>
        cases q.generation with
        | some g' => exact Grows.of_same (by simp) rfl
        | none =>
          exact ⟨by simp, fun hG => ⟨_, Table.getElem?_concat_of_some hG _, id, id⟩⟩
  | reply f counts =>
    simp only [step, QueueDepthProbe.reply] at hstep
    split at hstep
    · obtain rfl := Option.some.inj hstep
      exact Grows.of_same (by simp) rfl
    · cases hstep
  | deadline f =>
    simp only [step, QueueDepthProbe.deadline] at hstep
    split at hstep
    · obtain rfl := Option.some.inj hstep
      exact Grows.of_same (by simp [setFlight]) rfl
    · cases hstep
  | resume f =>
    simp only [step, QueueDepthProbe.resume] at hstep
    split at hstep
    · obtain rfl := Option.some.inj hstep
      exact Grows.of_same (by simp [setFlight]) rfl
    · obtain rfl := Option.some.inj hstep
      exact Grows.of_same (by simp [setFlight]) rfl
    · obtain rfl := Option.some.inj hstep
      exact Grows.dispose (by simp [setFlight, QueueDepthProbe.disposeGeneration]) rfl
    · split_ifs at hstep
      obtain rfl := Option.some.inj hstep
      exact Grows.of_same (by simp [setFlight]) rfl
    · cases hstep
  | clear f =>
    simp only [step, QueueDepthProbe.clear] at hstep
    split at hstep
    · obtain rfl := Option.some.inj hstep
      exact Grows.of_same (by simp [setFlight]) rfl
    · cases hstep
  | closeRace g' =>
    simp only [step, QueueDepthProbe.closeRace] at hstep
    split at hstep
    next hg' =>
      obtain rfl := Option.some.inj hstep
      refine Grows.of_modify rfl rfl fun G hG => ⟨by simp, fun hd => ?_⟩
      rw [hg'] at hG
      obtain rfl := Option.some.inj hG
      cases hd
    · cases hstep
  | endDisposal g' =>
    simp only [step, QueueDepthProbe.endDisposal] at hstep
    split at hstep
    · obtain rfl := Option.some.inj hstep
      exact Grows.of_modify rfl rfl fun G _ => ⟨by simp, fun _ => rfl⟩
    · cases hstep
  | close =>
    obtain rfl := Option.some.inj hstep
    unfold beginClose
    split_ifs
    · exact Grows.of_same le_rfl rfl
    · exact Grows.of_same le_rfl rfl
  | resumeClose =>
    simp only [step, QueueDepthProbe.resumeClose] at hstep
    split at hstep
    · split_ifs at hstep
      split at hstep
      · obtain rfl := Option.some.inj hstep
        exact Grows.of_same le_rfl rfl
      · obtain rfl := Option.some.inj hstep
        exact Grows.dispose rfl rfl
    · split_ifs at hstep
      obtain rfl := Option.some.inj hstep
      exact Grows.of_same le_rfl rfl
    · cases hstep

/-- What one event does to the flights: it leaves them, begins a flight, or takes one further. -/
theorem flights_step {e : Event} (hstep : q.step e = some q') :
    q'.flights = q.flights ∨
    (∃ g, q.flight = none ∧ q'.flights = q.flights ++ [⟨g, none, .racing none⟩]) ∨
    ∃ f F F', q.flights[f]? = some F ∧ q'.flights = q.flights.modify f (fun _ => F') ∧
      F'.generation = F.generation ∧
      (∀ d, outcome F = some (.ok d) → outcome F' = some (.ok d)) ∧
      ∀ e, outcome F' = some (.error e) →
        outcome F = some (.error e) ∨ q.disposed F.generation := by
  cases e with
  | depth =>
    obtain rfl := Option.some.inj hstep
    unfold QueueDepthProbe.depth runDepth
    split_ifs
    · exact .inl rfl
    · cases hflight : q.flight with
      | some f => exact .inl rfl
      | none =>
        cases q.generation with
        | some g => exact .inr (.inl ⟨g, rfl, rfl⟩)
        | none => exact .inr (.inl ⟨q.generations.length, rfl, rfl⟩)
  | reply f counts =>
    simp only [step, QueueDepthProbe.reply] at hstep
    split at hstep
    next g phase hF =>
      obtain rfl := Option.some.inj hstep
      refine .inr (.inr ⟨f, _, _, hF, rfl, rfl, fun d hd => ?_, fun e he => .inl ?_⟩)
      · rcases phase with ⟨_ | r⟩ | e | e | o | o <;> exact hd
      · rcases phase with ⟨_ | r⟩ | e | e | o | o <;> exact he
    · cases hstep
  | deadline f =>
    simp only [step, QueueDepthProbe.deadline] at hstep
    split at hstep
    next hF =>
      obtain rfl := Option.some.inj hstep
      refine .inr (.inr ⟨f, _, _, hF, Table.modify_of_some hF, rfl, fun d hd => ?_, fun e he => ?_⟩)
      · cases hd
      · cases he
    · cases hstep
  | resume f =>
    simp only [step, QueueDepthProbe.resume] at hstep
    split at hstep
    next hF =>
      obtain rfl := Option.some.inj hstep
      refine .inr (.inr ⟨f, _, _, hF, Table.modify_of_some hF, rfl, fun d hd => ?_, fun e he => ?_⟩)
      · cases hd
      · cases he
    next hF =>
      obtain rfl := Option.some.inj hstep
      refine .inr (.inr ⟨f, _, _, hF, Table.modify_of_some hF, rfl, fun d hd => ?_, fun e he => ?_⟩)
      · cases hd
      · cases he
    next hF =>
      obtain rfl := Option.some.inj hstep
      refine .inr (.inr ⟨f, _, _, hF, Table.modify_of_some hF, rfl, fun d hd => ?_, fun e he => ?_⟩)
      · cases hd
      · cases he
    next hF =>
      split_ifs at hstep with hd
      obtain rfl := Option.some.inj hstep
      exact .inr (.inr ⟨f, _, _, hF, Table.modify_of_some hF, rfl, fun d hd => (by cases hd),
        fun e _ => .inr hd⟩)
    · cases hstep
  | clear f =>
    simp only [step, QueueDepthProbe.clear] at hstep
    split at hstep
    next hF =>
      obtain rfl := Option.some.inj hstep
      exact .inr (.inr ⟨f, _, _, hF, Table.modify_of_some hF, rfl, fun d hd => hd,
        fun e he => .inl he⟩)
    · cases hstep
  | closeRace g' =>
    simp only [step, QueueDepthProbe.closeRace] at hstep
    split at hstep
    · obtain rfl := Option.some.inj hstep
      exact .inl rfl
    · cases hstep
  | endDisposal g' =>
    simp only [step, QueueDepthProbe.endDisposal] at hstep
    split at hstep
    · obtain rfl := Option.some.inj hstep
      exact .inl rfl
    · cases hstep
  | close =>
    obtain rfl := Option.some.inj hstep
    unfold beginClose
    split_ifs
    · exact .inl rfl
    · exact .inl rfl
  | resumeClose =>
    simp only [step, QueueDepthProbe.resumeClose] at hstep
    split at hstep
    · split_ifs at hstep
      split at hstep
      · obtain rfl := Option.some.inj hstep
        exact .inl rfl
      · obtain rfl := Option.some.inj hstep
        exact .inl rfl
    · split_ifs at hstep
      obtain rfl := Option.some.inj hstep
      exact .inl rfl
    · cases hstep

/-- A flight behind its `finally` has an outcome. -/
theorem outcome_of_closed (ho : F.isOpen = false) : ∃ o, outcome F = some o := by
  unfold DepthFlight.isOpen at ho
  unfold outcome
  cases hp : F.phase with
  | cleared o => exact ⟨o, rfl⟩
  | racing r | draining e | disposing e | settled o => simp [hp] at ho

theorem Inv.closed_of_none (h : q.Inv) (hnone : q.flight = none) (hF : q.flights[f]? = some F) :
    F.isOpen = false := by
  cases ho : F.isOpen with
  | false => rfl
  | true =>
    have hcur := h.single hF ho
    rw [hnone] at hcur
    cases hcur

theorem History.step (hh : q.History) (h : q.Inv) {e : Event} (hstep : q.step e = some q') :
    q'.History := by
  have hkeep : ∀ {g : ℕ}, q.disposed g → q'.disposed g := fun hG => (grows_step hstep).disposed hG
  rcases flights_step hstep with heq | ⟨g, hnone, heq⟩ | ⟨f, F, F', hF, heq, hgen, hok, herr⟩
  · refine ⟨fun {f F e} hF he => hkeep (hh.failed (heq ▸ hF) he), ?_⟩
    intro f f' F F' hF hF' hlt hgen
    exact hh.later (heq ▸ hF) (heq ▸ hF') hlt hgen
  · -- every earlier flight is over, and the new one has an observer that is not disposed of
    have hnew : q'.flights[q.flights.length]? = some ⟨g, none, .racing none⟩ := by
      rw [heq]
      exact List.getElem?_concat_length
    have hlive : ¬q'.disposed g := by
      intro hd
      obtain ⟨-, hG, -⟩ := (h.step hstep).fits hnew
      have hd : q'.generations[g]? = some ⟨some .done⟩ := hd
      rw [hG] at hd
      cases hd
    refine ⟨fun {f F e} hF he => ?_, fun {f f' F F'} hF hF' hlt hgen => ?_⟩
    · rw [heq] at hF
      rcases Table.getElem?_concat_cases hF with hF | ⟨-, rfl⟩
      · exact hkeep (hh.failed hF he)
      · cases he
    · rw [heq] at hF hF'
      rcases Table.getElem?_concat_cases hF with hF | ⟨rfl, -⟩
      · rcases Table.getElem?_concat_cases hF' with hF' | ⟨-, rfl⟩
        · exact hh.later hF hF' hlt hgen
        · obtain ⟨o, ho⟩ := outcome_of_closed (h.closed_of_none hnone hF)
          cases o with
          | ok d => exact ⟨d, ho⟩
          | error e =>
            have hd := hkeep (hh.failed hF ho)
            rw [hgen] at hd
            exact absurd hd hlive
      · have hlt' := Table.lt_length hF'
        rw [List.length_append] at hlt'
        simp only [List.length_singleton] at hlt'
        omega
  · have hold : ∀ {f₁ : ℕ} {F₁ : DepthFlight}, q'.flights[f₁]? = some F₁ → ∃ F₀,
        q.flights[f₁]? = some F₀ ∧ F₁.generation = F₀.generation ∧
        (∀ d, outcome F₀ = some (.ok d) → outcome F₁ = some (.ok d)) ∧
        ∀ e, outcome F₁ = some (.error e) →
          outcome F₀ = some (.error e) ∨ q.disposed F₀.generation := by
      intro f₁ F₁ hF₁
      rw [heq] at hF₁
      rcases Table.getElem?_modify_cases hF₁ with ⟨rfl, F₀, hF₀, rfl⟩ | ⟨-, hF₁⟩
      · exact ⟨F, hF, hgen, hok, herr⟩
      · exact ⟨F₁, hF₁, rfl, fun _ hd => hd, fun _ he => .inl he⟩
    refine ⟨fun {f₁ F₁ e} hF₁ he => ?_, fun {f₁ f₂ F₁ F₂} hF₁ hF₂ hlt hsame => ?_⟩
    · obtain ⟨F₀, hF₀, hg₀, -, herr₀⟩ := hold hF₁
      rw [hg₀]
      rcases herr₀ e he with he' | hd
      · exact hkeep (hh.failed hF₀ he')
      · exact hkeep hd
    · obtain ⟨F₀, hF₀, hg₀, hok₀, -⟩ := hold hF₁
      obtain ⟨F₀', hF₀', hg₀', -, -⟩ := hold hF₂
      obtain ⟨d, hd⟩ := hh.later hF₀ hF₀' hlt (by rw [← hg₀, hsame, hg₀'])
      exact ⟨d, hok₀ d hd⟩

theorem history_run {es : List Event} (hrun : Machine.run step initial es = some q) :
    q.Inv ∧ q.History :=
  Machine.invariant (I := fun q => q.Inv ∧ q.History)
    (fun _ _ _ h hstep => ⟨h.1.step hstep, h.2.step h.1 hstep⟩) ⟨inv_initial, history_initial⟩ hrun

/-- An open command is the one of the flight in place, on the current observer. -/
theorem Inv.of_command (h : q.Inv) (hF : q.flights[f]? = some F) (hc : F.command = none) :
    q.flight = some f ∧ q.generation = some F.generation ∧
      q.generations[F.generation]? = some ⟨none⟩ := by
  have ho := h.open_of_command hF hc
  have hfits := h.fits hF
  unfold Fits at hfits
  refine ⟨h.single hF ho, ?_⟩
  cases hp : F.phase with
  | racing r =>
    rw [hp] at hfits
    exact ⟨hfits.1, hfits.2.1⟩
  | draining e =>
    rw [hp] at hfits
    exact hfits
  | disposing e =>
    rw [hp] at hfits
    exact absurd hc hfits.1
  | settled o =>
    rw [hp] at hfits
    cases o with
    | ok d =>
      obtain ⟨-, -, counts, hcounts, -⟩ := hfits
      rw [hc] at hcounts
      cases hcounts
    | error e => exact absurd hc hfits.1
  | cleared o => simp [DepthFlight.isOpen, hp] at ho

theorem Inv.reported (h : q.Inv) (hF : q.flights[f]? = some F) {d : QueueDepth}
    (ho : outcome F = some (.ok d)) :
    ∃ counts, F.command = some (.ok counts) ∧ counts.depth = d := by
  have hfits := h.fits hF
  unfold Fits at hfits
  unfold outcome at ho
  cases hp : F.phase with
  | settled o =>
    simp only [hp] at ho hfits
    obtain rfl := Option.some.inj ho
    exact hfits.2.2
  | cleared o =>
    simp only [hp] at ho hfits
    obtain rfl := Option.some.inj ho
    exact hfits
  | racing r | draining e | disposing e => simp [hp] at ho

/-- In every run there is at most one observer that is not disposed of and at most one unsettled
command, on an observer whose disposal has not begun. A depth that is returned is the one the
flight's own command reported, and an observer is used again only after a success. -/
theorem observers_isolated {es : List Event} (hrun : Machine.run step initial es = some q) :
    (∀ (g g' : ℕ) (G G' : ObserverGeneration), q.generations[g]? = some G →
      q.generations[g']? = some G' → G.closePromise ≠ some .done → G'.closePromise ≠ some .done →
        g = g') ∧
    (∀ (f f' : ℕ) (F F' : DepthFlight), q.flights[f]? = some F → q.flights[f']? = some F' →
      F.command = none → F'.command = none → f = f') ∧
    (∀ (f : ℕ) (F : DepthFlight), q.flights[f]? = some F → F.command = none →
      q.generations[F.generation]? = some ⟨none⟩) ∧
    (∀ (f : ℕ) (F : DepthFlight) (d : QueueDepth), q.flights[f]? = some F →
      outcome F = some (.ok d) → ∃ counts, F.command = some (.ok counts) ∧ counts.depth = d) ∧
    ∀ (f f' : ℕ) (F F' : DepthFlight), q.flights[f]? = some F → q.flights[f']? = some F' →
      f < f' → F.generation = F'.generation → ∃ d, outcome F = some (.ok d) := by
  obtain ⟨h, hh⟩ := history_run hrun
  refine ⟨fun g g' G G' hG hG' hne hne' => ?_, fun f f' F F' hF hF' hc hc' => ?_,
    fun f F hF hc => (h.of_command hF hc).2.2, fun f F d hF ho => h.reported hF ho,
    fun f f' F F' hF hF' hlt hgen => hh.later hF hF' hlt hgen⟩
  · exact Option.some.inj ((h.live hG hne).symm.trans (h.live hG' hne'))
  · exact Option.some.inj ((h.of_command hF hc).1.symm.trans (h.of_command hF' hc').1)

/-- A late command costs the first observer its connection; the second one serves two flights. -/
def lateRun : List Event :=
  [.depth, .deadline 0, .resume 0, .reply 0 (.error (.error "Connection is closed.")), .resume 0,
    .closeRace 0, .endDisposal 0, .resume 0, .clear 0, .depth,
    .reply 1 (.ok ⟨some 3, some 1, none, none⟩), .resume 1, .clear 1, .depth]

theorem observers_isolated_lateRun : ∃ q, Machine.run step initial lateRun = some q ∧
    ∀ (f f' : ℕ) (F F' : DepthFlight), q.flights[f]? = some F → q.flights[f']? = some F' →
      f < f' → F.generation = F'.generation → ∃ d, outcome F = some (.ok d) :=
  ⟨_, rfl, (observers_isolated (show Machine.run step initial lateRun = some _ from rfl)).2.2.2.2⟩

/-! ## After `close` -/

/-- No flight, no observer, and `close` has returned. -/
structure Closed (q : QueueDepthProbe) : Prop where
  closing : q.closing = true
  flight : q.flight = none
  generation : q.generation = none
  returned : ∀ c, q.close = some c → c.phase = .returned

theorem Inv.closed (h : q.Inv) {c : ProbeClose} (hc : q.close = some c)
    (hret : c.phase = .returned) : q.Closed := by
  have hclosing := h.closing_of_close hc
  obtain ⟨c', hc', hf, hg⟩ := h.closing hclosing
  obtain rfl := Option.some.inj (hc.symm.trans hc')
  refine ⟨hclosing, ?_, ?_, fun c' hc'' => ?_⟩
  · cases hflight : q.flight with
    | none => rfl
    | some f => exact absurd ((hf f hflight).2.symm.trans hret) (by simp)
  · cases hgen : q.generation with
    | none => rfl
    | some g => exact absurd hret (hg g hgen).2
  · obtain rfl := Option.some.inj (hc.symm.trans hc'')
    exact hret

theorem Inv.settled_of_closed (h : q.Inv) (hclosed : q.Closed) (hF : q.flights[f]? = some F) :
    F.isOpen = false ∧ F.command ≠ none := by
  refine ⟨h.closed_of_none hclosed.flight hF, fun hc => ?_⟩
  have hcur := (h.of_command hF hc).1
  rw [hclosed.flight] at hcur
  cases hcur

theorem Inv.disposed_of_closed (h : q.Inv) (hclosed : q.Closed) (hG : q.generations[g]? = some G) :
    G.closePromise = some .done := by
  by_contra hne
  have hlive := h.live hG hne
  rw [hclosed.generation] at hlive
  cases hlive

/-- A closed probe stays as it is. -/
theorem Inv.step_of_closed (h : q.Inv) (hclosed : q.Closed) {e : Event}
    (hstep : q.step e = some q') : q' = q := by
  cases e with
  | depth =>
    obtain rfl := Option.some.inj hstep
    unfold QueueDepthProbe.depth
    rw [if_pos hclosed.closing]
  | reply f counts =>
    simp only [QueueDepthProbe.step, QueueDepthProbe.reply] at hstep
    split at hstep
    next hF => exact absurd rfl (h.settled_of_closed hclosed hF).2
    · cases hstep
  | deadline f =>
    simp only [QueueDepthProbe.step, QueueDepthProbe.deadline] at hstep
    split at hstep
    next hF => cases (h.settled_of_closed hclosed hF).1
    · cases hstep
  | resume f =>
    simp only [QueueDepthProbe.step, QueueDepthProbe.resume] at hstep
    split at hstep
    next hF => cases (h.settled_of_closed hclosed hF).1
    next hF => cases (h.settled_of_closed hclosed hF).1
    next hF => cases (h.settled_of_closed hclosed hF).1
    next hF => cases (h.settled_of_closed hclosed hF).1
    · cases hstep
  | clear f =>
    simp only [QueueDepthProbe.step, QueueDepthProbe.clear] at hstep
    split at hstep
    next hF => cases (h.settled_of_closed hclosed hF).1
    · cases hstep
  | closeRace g =>
    simp only [QueueDepthProbe.step, QueueDepthProbe.closeRace] at hstep
    split at hstep
    next hG => cases h.disposed_of_closed hclosed hG
    · cases hstep
  | endDisposal g =>
    simp only [QueueDepthProbe.step, QueueDepthProbe.endDisposal] at hstep
    split at hstep
    next hG => cases h.disposed_of_closed hclosed hG
    · cases hstep
  | close =>
    obtain rfl := Option.some.inj hstep
    unfold QueueDepthProbe.beginClose
    rw [if_pos hclosed.closing]
  | resumeClose =>
    simp only [QueueDepthProbe.step, QueueDepthProbe.resumeClose] at hstep
    split at hstep
    next hc => cases hclosed.returned _ hc
    next hc => cases hclosed.returned _ hc
    · cases hstep

/-- Once the first call of `close` has returned, every observer is disposed of, every command and
every caller has its outcome, and whatever comes after changes nothing: no observer and no command is
ever made. A call that overlaps with the first waits for the flight only, and can return before. -/
theorem close_final {es fs : List Event} {c : ProbeClose}
    (hrun : Machine.run step initial es = some q) (hc : q.close = some c)
    (hret : c.phase = .returned) (hrest : Machine.run step q fs = some q') :
    q' = q ∧
    (∀ (g : ℕ) (G : ObserverGeneration), q.generations[g]? = some G →
      G.closePromise = some .done) ∧
    ∀ (f : ℕ) (F : DepthFlight), q.flights[f]? = some F →
      F.command ≠ none ∧ ∃ o, outcome F = some o := by
  have h := inv_run hrun
  have hclosed := h.closed hc hret
  refine ⟨?_, fun g G hG => h.disposed_of_closed hclosed hG, fun f F hF => ?_⟩
  · exact Machine.invariant (I := fun q' => q' = q)
      (fun s e s' hs hstep => by
        subst hs
        exact h.step_of_closed hclosed hstep) rfl hrest
  · obtain ⟨ho, hcmd⟩ := h.settled_of_closed hclosed hF
    exact ⟨hcmd, outcome_of_closed ho⟩

/-- `close` finds a flight, waits for it and then disposes of its observer. -/
def closingRun : List Event :=
  [.depth, .close, .reply 0 (.ok ⟨some 1, none, none, none⟩), .resume 0, .clear 0, .resumeClose,
    .closeRace 0, .endDisposal 0, .resumeClose]

theorem close_final_closingRun : ∃ q, Machine.run step initial closingRun = some q ∧
    ∃ q', Machine.run step q [.depth, .close] = some q' ∧ q' = q :=
  ⟨_, rfl, _, rfl, (close_final (show Machine.run step initial closingRun = some _ from rfl)
    (c := ⟨some 0, some 0, .returned⟩) rfl rfl
    (show Machine.run step _ [.depth, .close] = some _ from rfl)).1⟩

/-! ## The probe comes to rest -/

/-- What `close` found is there, and it waits for a disposal only after it has asked for it. -/
def Found (q : QueueDepthProbe) : Prop :=
  ∀ c, q.close = some c → (∀ f, c.flight = some f → f < q.flights.length) ∧
    (∀ g, c.generation = some g → g < q.generations.length) ∧
    (c.phase = .awaitDisposal → ∃ g d, c.generation = some g ∧ q.generations[g]? = some ⟨some d⟩)

theorem Found.grows (h : q.Found) (hgrows : q.Grows q') (hsame : q'.close = q.close) :
    q'.Found := by
  intro c hc
  obtain ⟨hf, hg, hd⟩ := h c (hsame ▸ hc)
  refine ⟨fun f hf' => (hf f hf').trans_le hgrows.flights, fun g hg' => ?_, fun hp => ?_⟩
  · obtain ⟨G', hG', -⟩ := hgrows.observers (List.getElem?_eq_getElem (hg g hg'))
    exact Table.lt_length hG'
  · obtain ⟨g, d, hcg, hG⟩ := hd hp
    obtain ⟨⟨_ | d'⟩, hG', hbegun, -⟩ := hgrows.observers hG
    · exact absurd rfl (hbegun (by simp))
    · exact ⟨g, d', hcg, hG'⟩

/-- `close` goes on with what it found. -/
theorem Found.setClose (h : q.Found) (hgrows : q.Grows q') {c c' : ProbeClose}
    (hc : q.close = some c) (hc' : q'.close = some c') (hflight : c'.flight = c.flight)
    (hgen : c'.generation = c.generation)
    (hphase : c'.phase = .awaitDisposal →
      ∃ g d, c.generation = some g ∧ q'.generations[g]? = some ⟨some d⟩) : q'.Found := by
  intro c₀ hc₀
  obtain rfl := Option.some.inj (hc'.symm.trans hc₀)
  obtain ⟨hf, hg, -⟩ := h c hc
  refine ⟨fun f hf' => (hf f (hflight ▸ hf')).trans_le hgrows.flights, fun g hg' => ?_, fun hp => ?_⟩
  · obtain ⟨G', hG', -⟩ := hgrows.observers (List.getElem?_eq_getElem (hg g (hgen ▸ hg')))
    exact Table.lt_length hG'
  · rw [hgen]
    exact hphase hp

theorem Found.step (hfound : q.Found) (h : q.Inv) {e : Event} (hstep : q.step e = some q') :
    q'.Found := by
  have hgrows := grows_step hstep
  cases e with
  | depth =>
    obtain rfl := Option.some.inj hstep
    refine hfound.grows hgrows ?_
    unfold QueueDepthProbe.depth runDepth
    split_ifs
    · rfl
    · cases q.flight with
      | some f => rfl
      | none => cases q.generation <;> rfl
  | reply f counts =>
    refine hfound.grows hgrows ?_
    simp only [QueueDepthProbe.step, QueueDepthProbe.reply] at hstep
    split at hstep
    · obtain rfl := Option.some.inj hstep
      rfl
    · cases hstep
  | deadline f =>
    refine hfound.grows hgrows ?_
    simp only [QueueDepthProbe.step, QueueDepthProbe.deadline] at hstep
    split at hstep
    · obtain rfl := Option.some.inj hstep
      rfl
    · cases hstep
  | resume f =>
    refine hfound.grows hgrows ?_
    simp only [QueueDepthProbe.step, QueueDepthProbe.resume] at hstep
    split at hstep
    · obtain rfl := Option.some.inj hstep
      rfl
    · obtain rfl := Option.some.inj hstep
      rfl
    · obtain rfl := Option.some.inj hstep
      rfl
    · split_ifs at hstep
      obtain rfl := Option.some.inj hstep
      rfl
    · cases hstep
  | clear f =>
    refine hfound.grows hgrows ?_
    simp only [QueueDepthProbe.step, QueueDepthProbe.clear] at hstep
    split at hstep
    · obtain rfl := Option.some.inj hstep
      rfl
    · cases hstep
  | closeRace g =>
    refine hfound.grows hgrows ?_
    simp only [QueueDepthProbe.step, QueueDepthProbe.closeRace] at hstep
    split at hstep
    · obtain rfl := Option.some.inj hstep
      rfl
    · cases hstep
  | endDisposal g =>
    refine hfound.grows hgrows ?_
    simp only [QueueDepthProbe.step, QueueDepthProbe.endDisposal] at hstep
    split at hstep
    · obtain rfl := Option.some.inj hstep
      rfl
    · cases hstep
  | close =>
    obtain rfl := Option.some.inj hstep
    unfold beginClose
    split_ifs
    · exact hfound
    · intro c hc
      obtain rfl := Option.some.inj hc
      refine ⟨fun f hf => ?_, fun g hg => ?_, fun hp => by cases hp⟩
      · obtain ⟨F, hF, -⟩ := h.flight hf
        exact Table.lt_length hF
      · obtain ⟨G, hG, -⟩ := h.current hg
        exact Table.lt_length hG
  | resumeClose =>
    simp only [QueueDepthProbe.step, QueueDepthProbe.resumeClose] at hstep
    split at hstep
    next generation flight hc =>
      split_ifs at hstep
      split at hstep
      · obtain rfl := Option.some.inj hstep
        exact hfound.setClose hgrows hc rfl rfl rfl fun hp => by cases hp
      next g =>
        obtain rfl := Option.some.inj hstep
        refine hfound.setClose hgrows hc rfl rfl rfl fun _ => ?_
        have hlt := (hfound _ hc).2.1 g rfl
        have hG := List.getElem?_eq_getElem hlt
        cases hp : q.generations[g] with
        | mk p =>
          rw [hp] at hG
          refine ⟨g, p.getD .closing, rfl, (Table.getElem?_modify_of_some hG).trans ?_⟩
          cases p <;> simp
    next g flight hc =>
      split_ifs at hstep
      obtain rfl := Option.some.inj hstep
      exact hfound.setClose hgrows hc rfl rfl rfl fun hp => by cases hp
    · cases hstep

/-- How many pieces are left of a flight, with the settling of its command. -/
def flightRank (F : DepthFlight) : ℕ :=
  (if F.command.isNone then 1 else 0) +
    match F.phase with
    | .racing none => 5
    | .racing (some (.error _)) => 4
    | .racing (some (.ok _)) => 2
    | .draining _ => 3
    | .disposing _ => 2
    | .settled _ => 1
    | .cleared _ => 0

def observerRank (G : ObserverGeneration) : ℕ :=
  match G.closePromise with
  | none => 3
  | some .closing => 2
  | some .closed => 1
  | some .done => 0

def closeRank (c : ProbeClose) : ℕ :=
  match c.phase with
  | .awaitFlight => 2
  | .awaitDisposal => 1
  | .returned => 0

/-- How many events the probe can still take by itself. -/
def rank (q : QueueDepthProbe) : ℕ :=
  ((q.flight.bind fun f => q.flights[f]?).elim 0 flightRank) +
    ((q.generation.bind fun g => q.generations[g]?).elim 0 observerRank) +
    q.close.elim 0 closeRank

theorem flightRank_le (F : DepthFlight) : flightRank F ≤ 6 := by
  obtain ⟨g, command, phase⟩ := F
  rcases phase with ⟨_ | _ | _⟩ | e | e | o | o <;> cases command <;> simp [flightRank]

theorem observerRank_le (G : ObserverGeneration) : observerRank G ≤ 3 := by
  obtain ⟨_ | _ | _ | _⟩ := G <;> decide

theorem closeRank_le (c : ProbeClose) : closeRank c ≤ 2 := by
  obtain ⟨g, f, _ | _ | _⟩ := c <;> simp [closeRank]

theorem rank_le (q : QueueDepthProbe) : q.rank ≤ 11 := by
  have hf : (q.flight.bind fun f => q.flights[f]?).elim 0 flightRank ≤ 6 := by
    cases q.flight.bind fun f => q.flights[f]? with
    | none => exact Nat.zero_le _
    | some F => exact flightRank_le F
  have hg : (q.generation.bind fun g => q.generations[g]?).elim 0 observerRank ≤ 3 := by
    cases q.generation.bind fun g => q.generations[g]? with
    | none => exact Nat.zero_le _
    | some G => exact observerRank_le G
  have hc : q.close.elim 0 closeRank ≤ 2 := by
    cases q.close with
    | none => exact Nat.zero_le _
    | some c => exact closeRank_le c
  unfold rank
  omega

/-- A call from outside: of `depth`, or of `close`. -/
def Event.isCall : Event → Bool
  | .depth => true
  | .close => true
  | _ => false

/-- The flight in place goes on and the rest stays. -/
theorem rank_modifyFlight (hcur : q.flight = some f) (hF : q.flights[f]? = some F)
    (hlt : flightRank F' < flightRank F) :
    ({ q with flights := q.flights.modify f fun _ => F' } : QueueDepthProbe).rank < q.rank := by
  unfold rank
  simp only [hcur, Option.bind_some, hF, Table.getElem?_modify_of_some hF, if_true,
    Option.elim_some]
  omega

/-- The current observer goes on and the rest stays. -/
theorem rank_modifyObserver {G' : ObserverGeneration} (hcur : q.generation = some g)
    (hG : q.generations[g]? = some G) (hlt : observerRank G' < observerRank G) :
    ({ q with generations := q.generations.modify g fun _ => G' } : QueueDepthProbe).rank <
      q.rank := by
  unfold rank
  simp only [hcur, Option.bind_some, hG, Table.getElem?_modify_of_some hG, if_true,
    Option.elim_some]
  omega

theorem rank_disposeGeneration_le (q : QueueDepthProbe) (g : ℕ) :
    (q.disposeGeneration g).rank ≤ q.rank := by
  have hle : ((q.generation.bind fun g' => (q.generations.modify g fun G =>
        if G.closePromise.isNone then ⟨some .closing⟩ else G)[g']?).elim 0 observerRank) ≤
      (q.generation.bind fun g' => q.generations[g']?).elim 0 observerRank := by
    cases q.generation with
    | none => exact le_rfl
    | some g' =>
      simp only [Option.bind_some]
      cases hG : q.generations[g']? with
      | none =>
        rw [List.getElem?_eq_none (by simpa using List.getElem?_eq_none_iff.1 hG)]
      | some G =>
        rw [Table.getElem?_modify_of_some hG]
        obtain ⟨_ | d⟩ := G
        · split_ifs <;> decide
        · simp
  exact Nat.add_le_add_right (Nat.add_le_add_left hle _) _

/-- Every event of the probe itself takes it nearer to rest. -/
theorem Inv.rank_lt (h : q.Inv) {e : Event} (hint : e.isCall = false)
    (hstep : q.step e = some q') : q'.rank < q.rank := by
  cases e with
  | depth => cases hint
  | reply f counts =>
    simp only [QueueDepthProbe.step, QueueDepthProbe.reply] at hstep
    split at hstep
    next g phase hF =>
      obtain rfl := Option.some.inj hstep
      refine rank_modifyFlight (h.of_command hF rfl).1 hF ?_
      rcases phase with ⟨_ | r⟩ | e | e | o | o
      · cases counts <;> simp [flightRank, Except.map]
      all_goals simp [flightRank]
    · cases hstep
  | deadline f =>
    simp only [QueueDepthProbe.step, QueueDepthProbe.deadline] at hstep
    split at hstep
    next g command hF =>
      obtain rfl := Option.some.inj hstep
      unfold setFlight
      rw [Table.modify_of_some hF]
      exact rank_modifyFlight (h.single hF rfl) hF (by simp [flightRank])
    · cases hstep
  | resume f =>
    simp only [QueueDepthProbe.step, QueueDepthProbe.resume, setFlight] at hstep
    split at hstep
    next g command d hF =>
      rw [Table.modify_of_some hF] at hstep
      obtain rfl := Option.some.inj hstep
      exact rank_modifyFlight (h.single hF rfl) hF (by simp [flightRank])
    next g command e hF =>
      rw [Table.modify_of_some hF] at hstep
      obtain rfl := Option.some.inj hstep
      exact rank_modifyFlight (h.single hF rfl) hF (by simp [flightRank])
    next g c e hF =>
      have hF' : (q.disposeGeneration g).flights[f]? = some ⟨g, some c, .draining e⟩ := hF
      rw [Table.modify_of_some hF'] at hstep
      obtain rfl := Option.some.inj hstep
      exact (rank_modifyFlight (q := q.disposeGeneration g) (h.single hF rfl) hF'
        (by simp [flightRank])).trans_le (q.rank_disposeGeneration_le g)
    next g command e hF =>
      split_ifs at hstep
      rw [Table.modify_of_some hF] at hstep
      obtain rfl := Option.some.inj hstep
      exact rank_modifyFlight (h.single hF rfl) hF (by simp [flightRank])
    · cases hstep
  | clear f =>
    simp only [QueueDepthProbe.step, QueueDepthProbe.clear] at hstep
    split at hstep
    next g command outcome hF =>
      obtain rfl := Option.some.inj hstep
      unfold rank
      simp only [h.single hF rfl, Option.bind_some, hF, Option.elim_some, Option.bind_none,
        Option.elim_none, setFlight, flightRank]
      omega
    · cases hstep
  | closeRace g =>
    simp only [QueueDepthProbe.step, QueueDepthProbe.closeRace] at hstep
    split at hstep
    next hG =>
      obtain rfl := Option.some.inj hstep
      exact rank_modifyObserver (h.live hG (by simp)) hG (by decide)
    · cases hstep
  | endDisposal g =>
    simp only [QueueDepthProbe.step, QueueDepthProbe.endDisposal] at hstep
    split at hstep
    next hG =>
      obtain rfl := Option.some.inj hstep
      have hcur := h.live hG (by simp)
      unfold rank
      simp only [hcur, if_true, Option.bind_some, hG, Option.elim_some, Option.bind_none,
        Option.elim_none, QueueDepthProbe.setDisposal, observerRank]
      omega
    · cases hstep
  | close => cases hint
  | resumeClose =>
    simp only [QueueDepthProbe.step, QueueDepthProbe.resumeClose] at hstep
    split at hstep
    next generation flight hc =>
      split_ifs at hstep
      split at hstep
      · obtain rfl := Option.some.inj hstep
        simp [rank, hc, closeRank]
      next g =>
        obtain rfl := Option.some.inj hstep
        have hle := q.rank_disposeGeneration_le g
        unfold rank at hle ⊢
        simp only [QueueDepthProbe.disposeGeneration, hc, Option.elim_some, closeRank] at hle ⊢
        omega
    next g flight hc =>
      split_ifs at hstep
      obtain rfl := Option.some.inj hstep
      simp [rank, hc, closeRank]
    · cases hstep

/-- A flight in place can always go on by itself. -/
theorem Inv.enabled_of_flight (h : q.Inv) (hcur : q.flight = some f) :
    ∃ e : Event, e.isCall = false ∧ ∃ q', q.step e = some q' := by
  obtain ⟨⟨g, command, phase⟩, hF, ho⟩ := h.flight hcur
  have hfits := h.fits hF
  rcases phase with ⟨_ | e | d⟩ | e | e | o | o
  · exact ⟨.deadline f, rfl, _, by simp [QueueDepthProbe.step, QueueDepthProbe.deadline, hF]; rfl⟩
  · exact ⟨.resume f, rfl, _, by simp [QueueDepthProbe.step, QueueDepthProbe.resume, hF]; rfl⟩
  · exact ⟨.resume f, rfl, _, by simp [QueueDepthProbe.step, QueueDepthProbe.resume, hF]; rfl⟩
  · cases command with
    | none =>
      exact ⟨.reply f (.error e), rfl, _,
        by simp [QueueDepthProbe.step, QueueDepthProbe.reply, hF]; rfl⟩
    | some c =>
      exact ⟨.resume f, rfl, _, by simp [QueueDepthProbe.step, QueueDepthProbe.resume, hF]; rfl⟩
  · -- its observer is being disposed of, or is done
    obtain ⟨-, -, d, hG⟩ := hfits
    cases d with
    | closing =>
      exact ⟨.closeRace g, rfl, _,
        by simp [QueueDepthProbe.step, QueueDepthProbe.closeRace, hG]; rfl⟩
    | closed =>
      exact ⟨.endDisposal g, rfl, _,
        by simp [QueueDepthProbe.step, QueueDepthProbe.endDisposal, hG]; rfl⟩
    | done =>
      have hd : q.disposed g := hG
      exact ⟨.resume f, rfl, _,
        by simp [QueueDepthProbe.step, QueueDepthProbe.resume, hF, hd]; rfl⟩
  · exact ⟨.clear f, rfl, _, by simp [QueueDepthProbe.step, QueueDepthProbe.clear, hF]; rfl⟩
  · cases ho

/-- `close` can go on once no flight is left. -/
theorem Inv.enabled_of_close (h : q.Inv) (hfound : q.Found) (hnone : q.flight = none)
    {c : ProbeClose} (hc : q.close = some c) (hret : c.phase ≠ .returned) :
    ∃ e : Event, e.isCall = false ∧ ∃ q', q.step e = some q' := by
  obtain ⟨generation, flight, phase⟩ := c
  obtain ⟨hf, -, hd⟩ := hfound _ hc
  cases phase with
  | awaitFlight =>
    have hover : q.flightOver flight = true := by
      cases flight with
      | none => rfl
      | some f =>
        obtain ⟨⟨g, command, phase⟩, hF⟩ : ∃ F, q.flights[f]? = some F :=
          ⟨_, List.getElem?_eq_getElem (hf f rfl)⟩
        have ho := h.closed_of_none hnone hF
        cases phase with
        | cleared o => simp [QueueDepthProbe.flightOver, hF]
        | racing r | draining e | disposing e | settled o => cases ho
    cases generation with
    | none =>
      exact ⟨.resumeClose, rfl, _,
        by simp [QueueDepthProbe.step, QueueDepthProbe.resumeClose, hc, hover]; rfl⟩
    | some g =>
      exact ⟨.resumeClose, rfl, _,
        by simp [QueueDepthProbe.step, QueueDepthProbe.resumeClose, hc, hover]; rfl⟩
  | awaitDisposal =>
    obtain ⟨g, d, rfl, hG⟩ := hd rfl
    cases d with
    | closing =>
      exact ⟨.closeRace g, rfl, _,
        by simp [QueueDepthProbe.step, QueueDepthProbe.closeRace, hG]; rfl⟩
    | closed =>
      exact ⟨.endDisposal g, rfl, _,
        by simp [QueueDepthProbe.step, QueueDepthProbe.endDisposal, hG]; rfl⟩
    | done =>
      have hd : q.disposed g := hG
      exact ⟨.resumeClose, rfl, _,
        by simp [QueueDepthProbe.step, QueueDepthProbe.resumeClose, hc, hd]; rfl⟩
  | returned => exact absurd rfl hret

theorem found_run {es : List Event} (hrun : Machine.run step initial es = some q) :
    q.Inv ∧ q.Found :=
  Machine.invariant (I := fun q => q.Inv ∧ q.Found)
    (fun _ _ _ h hstep => ⟨h.1.step hstep, h.2.step h.1 hstep⟩)
    ⟨inv_initial, fun _ hc => by cases hc⟩ hrun

/-- From every state a run reaches, the probe takes at most eleven events without a new call. When
none is left, nobody waits: each caller of `depth` has its outcome, and the first `close` has
returned. -/
theorem settles {es fs : List Event} (hrun : Machine.run step initial es = some q)
    (hrest : Machine.run step q fs = some q') (hint : ∀ e ∈ fs, e.isCall = false) :
    fs.length ≤ 11 ∧
    ((∀ e : Event, e.isCall = false → q'.step e = none) →
      (∀ (f : ℕ) (F : DepthFlight), q'.flights[f]? = some F → ∃ o, outcome F = some o) ∧
      ∀ c, q'.close = some c → c.phase = .returned) := by
  obtain ⟨h, hfound⟩ := found_run hrun
  have hle : ∀ (fs : List Event) (q : QueueDepthProbe), q.Inv →
      Machine.run step q fs = some q' → (∀ e ∈ fs, e.isCall = false) → fs.length ≤ q.rank := by
    intro fs
    induction fs with
    | nil => exact fun _ _ _ _ => Nat.zero_le _
    | cons e fs ih =>
      intro q h hrest hint
      obtain ⟨q₁, hstep, hrest⟩ := Machine.run_cons hrest
      have hlt := h.rank_lt (hint e (List.mem_cons_self ..)) hstep
      have hlen := ih q₁ (h.step hstep) hrest fun e' he' => hint e' (List.mem_cons_of_mem _ he')
      rw [List.length_cons]
      omega
  obtain ⟨h', hfound'⟩ := found_run (Machine.run_trans hrun hrest)
  refine ⟨(hle fs q h hrest hint).trans q.rank_le, fun hrest' => ?_⟩
  have hnone : q'.flight = none := by
    cases hcur : q'.flight with
    | none => rfl
    | some f =>
      obtain ⟨e, he, q'', hstep⟩ := h'.enabled_of_flight hcur
      rw [hrest' e he] at hstep
      cases hstep
  refine ⟨fun f F hF => outcome_of_closed (h'.closed_of_none hnone hF), fun c hc => ?_⟩
  by_contra hret
  obtain ⟨e, he, q'', hstep⟩ := h'.enabled_of_close hfound' hnone hc hret
  rw [hrest' e he] at hstep
  cases hstep

theorem settles_closingRun : ∃ q, Machine.run step initial [.depth, .close] = some q ∧
    ∃ q', Machine.run step q (closingRun.drop 2) = some q' ∧
      (closingRun.drop 2).length ≤ 11 :=
  ⟨_, rfl, _, rfl, (settles (show Machine.run step initial [.depth, .close] = some _ from rfl)
    (show Machine.run step _ (closingRun.drop 2) = some _ from rfl) (by decide)).1⟩

end QueueDepthProbe

end FlashSale
