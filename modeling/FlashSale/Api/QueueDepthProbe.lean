import FlashSale.Api.Responses
import FlashSale.Lib.Machine
import FlashSale.Lib.Table

/-!
# The queue depth probe

Readiness asks the orders queue for its depth through an observer of its own: one Redis client and
one BullMQ queue at a time, and one command at a time, whose result every caller shares. A command
that fails or is late costs the observer its connection, and it is replaced once it is disposed of.

The code between two `await`s is one event, and so is what settles outside: the command, the
deadlines, the close of the BullMQ queue. Observers and flights are never forgotten. What a
`disconnect` does is seen in the commands and closes that settle after it.
-/

namespace FlashSale

/-- The counts BullMQ reports. -/
structure JobCounts where
  waiting : Option ℕ
  active : Option ℕ
  delayed : Option ℕ
  failed : Option ℕ

/-- The object `runDepth` returns: a missing count is zero. -/
def JobCounts.depth (counts : JobCounts) : QueueDepth :=
  ⟨counts.waiting.getD 0, counts.active.getD 0, counts.delayed.getD 0, counts.failed.getD 0⟩

/-- Where the body of `disposeGeneration` stands: it waits for the close of the queue or the
deadline, one of them has come, or it is done. -/
inductive Disposal where
  | closing
  | closed
  | done
  deriving DecidableEq, Repr

structure ObserverGeneration where
  closePromise : Option Disposal
  deriving DecidableEq

/-- Where a flight stands: in the race of the command and the deadline, after a lost race until the
command has settled, in the disposal of its observer, settled, and behind its `finally`. -/
inductive FlightPhase where
  | racing (result : Option (Except Failure QueueDepth))
  | draining (error : Failure)
  | disposing (error : Failure)
  | settled (outcome : Except Failure QueueDepth)
  | cleared (outcome : Except Failure QueueDepth)

structure DepthFlight where
  generation : ℕ
  command : Option (Except Failure JobCounts)
  phase : FlightPhase

/-- The flight is not behind its `finally`. -/
def DepthFlight.isOpen (F : DepthFlight) : Bool :=
  match F.phase with
  | .cleared _ => false
  | _ => true

/-- Where the first call of `close` stands. -/
inductive ClosePhase where
  | awaitFlight
  | awaitDisposal
  | returned
  deriving DecidableEq, Repr

/-- The first call of `close`, with the observer and the flight it found. -/
structure ProbeClose where
  generation : Option ℕ
  flight : Option ℕ
  phase : ClosePhase

structure QueueDepthProbe where
  generation : Option ℕ
  flight : Option ℕ
  closing : Bool
  generations : List ObserverGeneration
  flights : List DepthFlight
  close : Option ProbeClose

namespace QueueDepthProbe

def initial : QueueDepthProbe := ⟨none, none, false, [], [], none⟩

def setFlight (q : QueueDepthProbe) (f : ℕ) (phase : FlightPhase) : QueueDepthProbe :=
  { q with flights := q.flights.modify f fun F => { F with phase := phase } }

def setDisposal (q : QueueDepthProbe) (g : ℕ) (d : Disposal) : QueueDepthProbe :=
  { q with generations := q.generations.modify g fun _ => ⟨some d⟩ }

/-- `generation.closePromise ??= …`: a disposal is begun once. -/
def disposeGeneration (q : QueueDepthProbe) (g : ℕ) : QueueDepthProbe :=
  { q with generations := q.generations.modify g fun G =>
      if G.closePromise.isNone then ⟨some .closing⟩ else G }

/-- The disposal of an observer has come to its end. -/
def disposed (q : QueueDepthProbe) (g : ℕ) : Prop :=
  q.generations[g]? = some ⟨some .done⟩

instance (q : QueueDepthProbe) (g : ℕ) : Decidable (q.disposed g) :=
  inferInstanceAs (Decidable (_ = _))

/-- `runDepth` up to its first wait: an observer is there or is created, and gets the command. -/
def runDepth (q : QueueDepthProbe) : QueueDepthProbe :=
  match q.generation with
  | some g => { q with
      flight := some q.flights.length
      flights := q.flights ++ [⟨g, none, .racing none⟩] }
  | none => { q with
      generation := some q.generations.length
      generations := q.generations ++ [⟨none⟩]
      flight := some q.flights.length
      flights := q.flights ++ [⟨q.generations.length, none, .racing none⟩] }

/-- `depth`: the flight a caller gets the promise of, or the rejection. -/
def depth (q : QueueDepthProbe) : Except Failure ℕ × QueueDepthProbe :=
  if q.closing then (.error (.error "queue depth probe is closing"), q)
  else match q.flight with
    | some f => (.ok f, q)
    | none => (.ok q.flights.length, q.runDepth)

/-- The command of a flight settles, which may decide the race. -/
def reply (q : QueueDepthProbe) (f : ℕ) (counts : Except Failure JobCounts) :
    Option QueueDepthProbe :=
  match q.flights[f]? with
  | some ⟨g, none, phase⟩ =>
    let phase := match phase with
      | .racing none => .racing (some (counts.map JobCounts.depth))
      | phase => phase
    some { q with flights := q.flights.modify f fun _ => ⟨g, some counts, phase⟩ }
  | _ => none

/-- The deadline of the race. -/
def deadline (q : QueueDepthProbe) (f : ℕ) : Option QueueDepthProbe :=
  match q.flights[f]? with
  | some ⟨_, _, .racing none⟩ =>
    some (q.setFlight f (.racing (some (.error (.error "queue depth observation timed out")))))
  | _ => none

/-- The next piece of `runDepth`. -/
def resume (q : QueueDepthProbe) (f : ℕ) : Option QueueDepthProbe :=
  match q.flights[f]? with
  | some ⟨_, _, .racing (some (.ok d))⟩ => some (q.setFlight f (.settled (.ok d)))
  | some ⟨_, _, .racing (some (.error e))⟩ => some (q.setFlight f (.draining e))
  | some ⟨g, some _, .draining e⟩ => some ((q.disposeGeneration g).setFlight f (.disposing e))
  | some ⟨g, _, .disposing e⟩ =>
    if q.disposed g then some (q.setFlight f (.settled (.error e))) else none
  | _ => none

/-- The `finally` of `depth`. -/
def clear (q : QueueDepthProbe) (f : ℕ) : Option QueueDepthProbe :=
  match q.flights[f]? with
  | some ⟨_, _, .settled outcome⟩ =>
    some { q.setFlight f (.cleared outcome) with flight := none }
  | _ => none

/-- The race of the close and its deadline ends. -/
def closeRace (q : QueueDepthProbe) (g : ℕ) : Option QueueDepthProbe :=
  match q.generations[g]? with
  | some ⟨some .closing⟩ => some (q.setDisposal g .closed)
  | _ => none

/-- The end of `disposeGeneration`. -/
def endDisposal (q : QueueDepthProbe) (g : ℕ) : Option QueueDepthProbe :=
  match q.generations[g]? with
  | some ⟨some .closed⟩ =>
    some { q.setDisposal g .done with
      generation := if q.generation = some g then none else q.generation }
  | _ => none

/-- `close` up to its first wait. A later call changes nothing: it waits for the flight, if there is
one, and its wait is not followed here. -/
def beginClose (q : QueueDepthProbe) : QueueDepthProbe :=
  if q.closing then q
  else { q with closing := true, close := some ⟨q.generation, q.flight, .awaitFlight⟩ }

/-- The promise `close` found has settled. -/
def flightOver (q : QueueDepthProbe) : Option ℕ → Bool
  | none => true
  | some f =>
    match q.flights[f]? with
    | some ⟨_, _, .cleared _⟩ => true
    | _ => false

/-- The next piece of `close`. -/
def resumeClose (q : QueueDepthProbe) : Option QueueDepthProbe :=
  match q.close with
  | some ⟨generation, flight, .awaitFlight⟩ =>
    if q.flightOver flight = false then none
    else match generation with
      | none => some { q with close := some ⟨generation, flight, .returned⟩ }
      | some g => some { q.disposeGeneration g with
          close := some ⟨generation, flight, .awaitDisposal⟩ }
  | some ⟨some g, flight, .awaitDisposal⟩ =>
    if q.disposed g then some { q with close := some ⟨some g, flight, .returned⟩ } else none
  | _ => none

inductive Event where
  | depth
  | reply (f : ℕ) (counts : Except Failure JobCounts)
  | deadline (f : ℕ)
  | resume (f : ℕ)
  | clear (f : ℕ)
  | closeRace (g : ℕ)
  | endDisposal (g : ℕ)
  | close
  | resumeClose

def step (q : QueueDepthProbe) : Event → Option QueueDepthProbe
  | .depth => some q.depth.2
  | .reply f counts => q.reply f counts
  | .deadline f => q.deadline f
  | .resume f => q.resume f
  | .clear f => q.clear f
  | .closeRace g => q.closeRace g
  | .endDisposal g => q.endDisposal g
  | .close => some q.beginClose
  | .resumeClose => q.resumeClose

/-! ## The invariant -/

/-- What the observers must look like for a flight to stand where it stands. -/
def Fits (q : QueueDepthProbe) (F : DepthFlight) : Prop :=
  match F.phase with
  | .racing result => q.generation = some F.generation ∧
      q.generations[F.generation]? = some ⟨none⟩ ∧ (result = none → F.command = none) ∧
      ∀ d, result = some (.ok d) → ∃ counts, F.command = some (.ok counts) ∧ counts.depth = d
  | .draining _ => q.generation = some F.generation ∧ q.generations[F.generation]? = some ⟨none⟩
  | .disposing _ => F.command ≠ none ∧ (∀ g, q.generation = some g → g = F.generation) ∧
      ∃ d, q.generations[F.generation]? = some ⟨some d⟩
  | .settled (.ok d) => q.generation = some F.generation ∧
      q.generations[F.generation]? = some ⟨none⟩ ∧
      ∃ counts, F.command = some (.ok counts) ∧ counts.depth = d
  | .settled (.error _) => F.command ≠ none ∧ q.generation = none
  | .cleared (.ok d) => ∃ counts, F.command = some (.ok counts) ∧ counts.depth = d
  | .cleared (.error _) => F.command ≠ none

/-- What holds between two events. -/
structure Inv (q : QueueDepthProbe) : Prop where
  current : ∀ {g : ℕ}, q.generation = some g →
    ∃ G, q.generations[g]? = some G ∧ G.closePromise ≠ some .done
  live : ∀ {g : ℕ} {G : ObserverGeneration}, q.generations[g]? = some G →
    G.closePromise ≠ some .done → q.generation = some g
  flight : ∀ {f : ℕ}, q.flight = some f → ∃ F, q.flights[f]? = some F ∧ F.isOpen = true
  single : ∀ {f : ℕ} {F : DepthFlight}, q.flights[f]? = some F → F.isOpen = true →
    q.flight = some f
  fits : ∀ {f : ℕ} {F : DepthFlight}, q.flights[f]? = some F → q.Fits F
  idle : q.flight = none → q.closing = false → ∀ {g : ℕ}, q.generation = some g →
    q.generations[g]? = some ⟨none⟩
  opened : q.closing = false → q.close = none
  closing : q.closing = true → ∃ c, q.close = some c ∧
    (∀ f, q.flight = some f → c.flight = some f ∧ c.phase = .awaitFlight) ∧
    ∀ g, q.generation = some g → c.generation = some g ∧ c.phase ≠ .returned

theorem inv_initial : initial.Inv where
  current h := by cases h
  live h := by cases h
  flight h := by cases h
  single h := by cases h
  fits h := by cases h
  idle _ _ := by intro g h; cases h
  opened _ := rfl
  closing h := by cases h

variable {q q' : QueueDepthProbe} {f g : ℕ} {F F' : DepthFlight} {G : ObserverGeneration}

/-- A flight goes on without touching the observers. -/
theorem Inv.modifyFlight (h : q.Inv) (hF : q.flights[f]? = some F) (hopen : F.isOpen = true)
    (hopen' : F'.isOpen = true) (hfits : q.Fits F') :
    ({ q with flights := q.flights.modify f fun _ => F' } : QueueDepthProbe).Inv := by
  refine ⟨h.current, h.live, fun {f'} hf' => ?_, fun {f' F''} hF'' ho => ?_, fun {f' F''} hF'' => ?_,
    h.idle, h.opened, h.closing⟩
  · obtain ⟨F₀, hF₀, ho⟩ := h.flight hf'
    refine ⟨_, Table.getElem?_modify_of_some hF₀, ?_⟩
    split_ifs
    · exact hopen'
    · exact ho
  · rcases Table.getElem?_modify_cases hF'' with ⟨rfl, -⟩ | ⟨-, hF''⟩
    · exact h.single hF hopen
    · exact h.single hF'' ho
  · rcases Table.getElem?_modify_cases hF'' with ⟨rfl, F₀, -, rfl⟩ | ⟨-, hF''⟩
    · exact hfits
    · exact h.fits hF''

/-- A command is open only while its flight races or drains. -/
theorem Inv.open_of_command (h : q.Inv) (hF : q.flights[f]? = some F) (hc : F.command = none) :
    F.isOpen = true := by
  have hfits := h.fits hF
  unfold Fits at hfits
  unfold DepthFlight.isOpen
  cases hp : F.phase with
  | cleared outcome =>
    rw [hp] at hfits
    cases outcome with
    | ok d =>
      obtain ⟨counts, hcounts, -⟩ := hfits
      rw [hc] at hcounts
      cases hcounts
    | error e => exact absurd hc hfits
  | racing r | draining e | disposing e | settled o => rfl

theorem Inv.reply (h : q.Inv) {counts : Except Failure JobCounts}
    (hstep : q.reply f counts = some q') : q'.Inv := by
  unfold QueueDepthProbe.reply at hstep
  cases hF : q.flights[f]? with
  | none => simp [hF] at hstep
  | some F =>
    obtain ⟨g, command, phase⟩ := F
    cases command with
    | some c => simp [hF] at hstep
    | none =>
      simp only [hF, Option.some.injEq] at hstep
      subst hstep
      have hopen := h.open_of_command hF rfl
      have hfits := h.fits hF
      unfold Fits at hfits
      cases phase with
      | racing result =>
        obtain ⟨hg, hG, -, hok⟩ := hfits
        cases result with
        | none =>
          refine h.modifyFlight hF hopen rfl ⟨hg, hG, by simp, fun d hd => ?_⟩
          cases counts with
          | ok c => exact ⟨c, rfl, Except.ok.inj (Option.some.inj hd)⟩
          | error e => cases hd
        | some r =>
          refine h.modifyFlight hF hopen rfl ⟨hg, hG, by simp, fun d hd => ?_⟩
          obtain ⟨c, hc, -⟩ := hok d hd
          cases hc
      | draining e => exact h.modifyFlight hF hopen rfl hfits
      | disposing e => exact absurd rfl hfits.1
      | settled outcome =>
        cases outcome with
        | ok d =>
          obtain ⟨-, -, c, hc, -⟩ := hfits
          cases hc
        | error e => exact absurd rfl hfits.1
      | cleared outcome => cases hopen

theorem Inv.deadline (h : q.Inv) (hstep : q.deadline f = some q') : q'.Inv := by
  unfold QueueDepthProbe.deadline at hstep
  cases hF : q.flights[f]? with
  | none => simp [hF] at hstep
  | some F =>
    obtain ⟨g, command, phase⟩ := F
    rcases phase with ⟨_ | r⟩ | e | e | o | o
    · simp only [hF, Option.some.injEq] at hstep
      subst hstep
      obtain ⟨hg, hG, -, -⟩ := h.fits hF
      unfold setFlight
      rw [Table.modify_of_some hF]
      exact h.modifyFlight hF rfl rfl ⟨hg, hG, by simp, by simp⟩
    all_goals simp [hF] at hstep

theorem disposeGeneration_eq (q : QueueDepthProbe) (hG : q.generations[g]? = some G) :
    q.disposeGeneration g = { q with generations := q.generations.modify g fun _ =>
      if G.closePromise.isNone then ⟨some .closing⟩ else G } := by
  unfold disposeGeneration
  rw [Table.modify_of_some hG]

/-- A flight behind its `finally` says nothing about the observers. -/
theorem Fits.cleared (h : q.Fits F) (hopen : F.isOpen = false) (q' : QueueDepthProbe) :
    q'.Fits F := by
  unfold Fits at h ⊢
  unfold DepthFlight.isOpen at hopen
  cases hp : F.phase with
  | cleared outcome =>
    rw [hp] at h
    cases outcome with
    | ok d => exact h
    | error e => exact h
  | racing r | draining e | disposing e | settled o => simp [hp] at hopen

/-- The disposal of the current observer begins, for its flight or for `close`. -/
theorem Inv.beginDisposal (h : q.Inv) (hg : q.generation = some g)
    (hG : q.generations[g]? = some ⟨none⟩) (hidle : q.flight = none → q.closing = true)
    {flights : List DepthFlight}
    (hflight : ∀ f, q.flight = some f → ∃ F, flights[f]? = some F ∧ F.isOpen = true)
    (hopen : ∀ (f : ℕ) (F : DepthFlight), flights[f]? = some F → F.isOpen = true →
      q.flight = some f ∧ F.command ≠ none ∧ F.generation = g ∧ ∃ e, F.phase = .disposing e)
    (hclosed : ∀ (f : ℕ) (F : DepthFlight), flights[f]? = some F → F.isOpen = false → q.Fits F) :
    ({ q with
      generations := q.generations.modify g fun _ => ⟨some .closing⟩
      flights } : QueueDepthProbe).Inv := by
  refine ⟨fun {g'} hg' => ?_, fun {g' G'} hG' hne => ?_, fun {f'} => hflight f',
    fun {f' F'} hF' ho => (hopen f' F' hF' ho).1, fun {f' F'} hF' => ?_, fun hnone hc => ?_,
    h.opened, h.closing⟩
  · obtain rfl := Option.some.inj (hg.symm.trans hg')
    exact ⟨_, Table.getElem?_modify_of_some hG, by simp⟩
  · rcases Table.getElem?_modify_cases hG' with ⟨rfl, -⟩ | ⟨-, hG'⟩
    · exact hg
    · exact h.live hG' hne
  · cases ho : F'.isOpen with
    | false => exact (hclosed f' F' hF' ho).cleared ho _
    | true =>
      obtain ⟨-, hc, hgen, e, he⟩ := hopen f' F' hF' ho
      unfold Fits
      rw [he]
      refine ⟨hc, fun g' hg' => ?_, .closing, ?_⟩
      · rw [hgen]
        exact Option.some.inj (hg'.symm.trans hg)
      · rw [hgen]
        refine (Table.getElem?_modify_of_some hG).trans ?_
        rw [if_pos rfl]
  · rw [hidle hnone] at hc
    cases hc

theorem Inv.resume (h : q.Inv) (hstep : q.resume f = some q') : q'.Inv := by
  unfold QueueDepthProbe.resume at hstep
  cases hF : q.flights[f]? with
  | none => simp [hF] at hstep
  | some F =>
    obtain ⟨g, command, phase⟩ := F
    have hfits := h.fits hF
    rcases phase with ⟨_ | e | d⟩ | e | e | o | o
    · simp [hF] at hstep
    · -- a lost race
      simp only [hF, Option.some.injEq] at hstep
      subst hstep
      obtain ⟨hg, hG, -, -⟩ := hfits
      unfold setFlight
      rw [Table.modify_of_some hF]
      exact h.modifyFlight hF rfl rfl ⟨hg, hG⟩
    · simp only [hF, Option.some.injEq] at hstep
      subst hstep
      obtain ⟨hg, hG, -, hd⟩ := hfits
      unfold setFlight
      rw [Table.modify_of_some hF]
      exact h.modifyFlight hF rfl rfl ⟨hg, hG, hd d rfl⟩
    · cases command with
      | none => simp [hF] at hstep
      | some c =>
        simp only [hF, Option.some.injEq] at hstep
        subst hstep
        obtain ⟨hg, hG⟩ := hfits
        rw [q.disposeGeneration_eq hG]
        unfold setFlight
        rw [Table.modify_of_some hF]
        have hcur := h.single hF rfl
        refine h.beginDisposal hg hG (fun hnone => ?_) (fun f' hf' => ?_) (fun f' F' hF' ho => ?_)
          fun f' F' hF' ho => ?_
        · rw [hnone] at hcur
          cases hcur
        · obtain rfl := Option.some.inj (hcur.symm.trans hf')
          exact ⟨_, Table.getElem?_modify_of_some hF, by simp [DepthFlight.isOpen]⟩
        · rcases Table.getElem?_modify_cases hF' with ⟨rfl, F₀, -, rfl⟩ | ⟨hne, hF'⟩
          · exact ⟨hcur, by simp, rfl, e, rfl⟩
          · exact absurd (Option.some.inj (hcur.symm.trans (h.single hF' ho))) hne
        · rcases Table.getElem?_modify_cases hF' with ⟨rfl, F₀, -, rfl⟩ | ⟨hne, hF'⟩
          · cases ho
          · exact h.fits hF'
    · simp only [hF] at hstep
      split_ifs at hstep with hd
      obtain rfl := Option.some.inj hstep
      obtain ⟨hc, hg, -⟩ := hfits
      unfold setFlight
      rw [Table.modify_of_some hF]
      refine h.modifyFlight hF rfl rfl ⟨hc, ?_⟩
      cases hgen : q.generation with
      | none => rfl
      | some g' =>
        obtain rfl := hg g' hgen
        obtain ⟨G, hG, hne⟩ := h.current hgen
        have hd : q.generations[g']? = some ⟨some .done⟩ := hd
        rw [hd] at hG
        obtain rfl := Option.some.inj hG
        exact absurd rfl hne
    all_goals simp [hF] at hstep

/-- A new flight on the current observer. -/
theorem Inv.openFlight (h : q.Inv) (hclosing : q.closing = false) (hnone : q.flight = none)
    (hg : q.generation = some g) (hG : q.generations[g]? = some ⟨none⟩) :
    ({ q with
      flight := some q.flights.length
      flights := q.flights ++ [⟨g, none, .racing none⟩] } : QueueDepthProbe).Inv := by
  have hold : ∀ (f : ℕ) (F : DepthFlight), q.flights[f]? = some F → F.isOpen = false := by
    intro f F hF
    cases ho : F.isOpen with
    | false => rfl
    | true =>
      have hcur := h.single hF ho
      rw [hnone] at hcur
      cases hcur
  refine ⟨h.current, h.live, fun {f'} hf' => ?_, fun {f' F'} hF' ho => ?_, fun {f' F'} hF' => ?_,
    fun hnone' => ?_, h.opened, fun hc => ?_⟩
  · obtain rfl := Option.some.inj hf'
    exact ⟨_, List.getElem?_concat_length, rfl⟩
  · rcases Table.getElem?_concat_cases hF' with hF' | ⟨rfl, -⟩
    · rw [hold f' F' hF'] at ho
      cases ho
    · rfl
  · rcases Table.getElem?_concat_cases hF' with hF' | ⟨-, rfl⟩
    · exact (h.fits hF').cleared (hold f' F' hF') _
    · exact ⟨hg, hG, fun _ => rfl, fun d hd => by cases hd⟩
  · cases hnone'
  · rw [hclosing] at hc
    cases hc

/-- A new observer, when there is none. -/
theorem Inv.createGeneration (h : q.Inv) (hclosing : q.closing = false) (hnone : q.flight = none)
    (hg : q.generation = none) :
    ({ q with
      generation := some q.generations.length
      generations := q.generations ++ [⟨none⟩] } : QueueDepthProbe).Inv := by
  refine ⟨fun {g'} hg' => ?_, fun {g' G'} hG' hne => ?_, h.flight, h.single, fun {f' F'} hF' => ?_,
    fun _ _ {g'} hg' => ?_, h.opened, fun hc => ?_⟩
  · obtain rfl := Option.some.inj hg'
    exact ⟨_, List.getElem?_concat_length, by simp⟩
  · rcases Table.getElem?_concat_cases hG' with hG' | ⟨rfl, -⟩
    · have hlive := h.live hG' hne
      rw [hg] at hlive
      cases hlive
    · rfl
  · refine (h.fits hF').cleared ?_ _
    cases ho : F'.isOpen with
    | false => rfl
    | true =>
      have hcur := h.single hF' ho
      rw [hnone] at hcur
      cases hcur
  · obtain rfl := Option.some.inj hg'
    exact List.getElem?_concat_length
  · rw [hclosing] at hc
    cases hc

theorem Inv.depth (h : q.Inv) : q.depth.2.Inv := by
  unfold QueueDepthProbe.depth
  cases hclosing : q.closing with
  | true => exact h
  | false =>
    cases hflight : q.flight with
    | some f => exact h
    | none =>
      show q.runDepth.Inv
      unfold runDepth
      cases hg : q.generation with
      | some g =>
        have hopened := h.openFlight hclosing hflight hg (h.idle hflight hclosing hg)
        rw [hg] at hopened
        exact hopened
      | none =>
        exact (h.createGeneration hclosing hflight hg).openFlight hclosing hflight rfl
          List.getElem?_concat_length

theorem Inv.clear (h : q.Inv) (hstep : q.clear f = some q') : q'.Inv := by
  unfold QueueDepthProbe.clear at hstep
  cases hF : q.flights[f]? with
  | none => simp [hF] at hstep
  | some F =>
    obtain ⟨g, command, phase⟩ := F
    rcases phase with r | e | e | outcome | o
    case settled =>
      simp only [hF, Option.some.injEq] at hstep
      subst hstep
      have hcur := h.single hF rfl
      have hfits := h.fits hF
      unfold setFlight
      rw [Table.modify_of_some hF]
      have hothers : ∀ {f' : ℕ} {F' : DepthFlight}, q.flights[f']? = some F' → f ≠ f' →
          F'.isOpen = false := by
        intro f' F' hF' hne
        cases ho : F'.isOpen with
        | false => rfl
        | true => exact absurd (Option.some.inj (hcur.symm.trans (h.single hF' ho))) hne
      refine ⟨h.current, h.live, fun hf' => (by cases hf'), fun {f' F'} hF' ho => ?_,
        fun {f' F'} hF' => ?_, fun _ _ {g'} hg' => ?_, h.opened, fun hc => ?_⟩
      · rcases Table.getElem?_modify_cases hF' with ⟨-, F₀, -, rfl⟩ | ⟨hne, hF'⟩
        · cases ho
        · rw [hothers hF' hne] at ho
          cases ho
      · rcases Table.getElem?_modify_cases hF' with ⟨-, F₀, -, rfl⟩ | ⟨hne, hF'⟩
        · cases outcome with
          | ok d => exact hfits.2.2
          | error e => exact hfits.1
        · exact (h.fits hF').cleared (hothers hF' hne) _
      · -- the observer stays after a success and is gone after a failure
        cases outcome with
        | ok d =>
          obtain rfl := Option.some.inj (hfits.1.symm.trans hg')
          exact hfits.2.1
        | error e =>
          have hnone : q.generation = some g' := hg'
          rw [hfits.2] at hnone
          cases hnone
      · obtain ⟨c, hclose, -, hgen⟩ := h.closing hc
        exact ⟨c, hclose, fun f' hf' => (by cases hf'), hgen⟩
    all_goals simp [hF] at hstep

/-- A disposal goes on, and takes its observer out of the probe at its end. -/
theorem Fits.setDisposal (h : q.Fits F) {d d' : Disposal} (hG : q.generations[g]? = some ⟨some d⟩)
    {generation : Option ℕ} (hsub : ∀ g', generation = some g' → q.generation = some g')
    (hkeep : ∀ g', g' ≠ g → q.generation = some g' → generation = some g') :
    ({ q with
      generation
      generations := q.generations.modify g fun _ => ⟨some d'⟩ } : QueueDepthProbe).Fits F := by
  have hlook : ∀ {g' : ℕ}, q.generations[g']? = some ⟨none⟩ →
      g' ≠ g ∧ (q.generations.modify g fun _ => ⟨some d'⟩)[g']? = some ⟨none⟩ := by
    intro g' hG'
    have hne : g ≠ g' := by
      rintro rfl
      rw [hG] at hG'
      cases hG'
    refine ⟨hne.symm, (Table.getElem?_modify_of_some hG').trans ?_⟩
    rw [if_neg hne]
  unfold Fits at h ⊢
  cases hp : F.phase with
  | racing r =>
    rw [hp] at h
    obtain ⟨hne, hG'⟩ := hlook h.2.1
    exact ⟨hkeep _ hne h.1, hG', h.2.2⟩
  | draining e =>
    rw [hp] at h
    obtain ⟨hne, hG'⟩ := hlook h.2
    exact ⟨hkeep _ hne h.1, hG'⟩
  | disposing e =>
    rw [hp] at h
    obtain ⟨hc, hg, d₀, hd₀⟩ := h
    refine ⟨hc, fun g' hg' => hg g' (hsub g' hg'), ?_⟩
    rw [Table.getElem?_modify_of_some hd₀]
    split_ifs
    · exact ⟨d', rfl⟩
    · exact ⟨d₀, rfl⟩
  | settled outcome =>
    rw [hp] at h
    cases outcome with
    | ok c =>
      obtain ⟨hne, hG'⟩ := hlook h.2.1
      exact ⟨hkeep _ hne h.1, hG', h.2.2⟩
    | error e =>
      refine ⟨h.1, ?_⟩
      cases hgen : generation with
      | none => rfl
      | some g' =>
        have hg' := hsub g' hgen
        rw [h.2] at hg'
        cases hg'
  | cleared outcome =>
    rw [hp] at h
    cases outcome with
    | ok c => exact h
    | error e => exact h

/-- One step of a disposal. -/
theorem Inv.setDisposal (h : q.Inv) {d : Disposal} (d' : Disposal)
    (hG : q.generations[g]? = some ⟨some d⟩) (hd : d ≠ .done) :
    ({ q with
      generation := if d' = .done then none else q.generation
      generations := q.generations.modify g fun _ => ⟨some d'⟩ } : QueueDepthProbe).Inv := by
  have hg : q.generation = some g := h.live hG (by simpa using hd)
  have hsub : ∀ g', (if d' = .done then none else q.generation) = some g' →
      q.generation = some g' ∧ d' ≠ .done := by
    intro g' hg'
    split_ifs at hg' with hd'
    exact ⟨hg', hd'⟩
  have hkeep : ∀ g', g' ≠ g → q.generation = some g' →
      (if d' = .done then none else q.generation) = some g' := by
    intro g' hne hg'
    exact absurd (Option.some.inj (hg'.symm.trans hg)) hne
  refine ⟨fun {g'} hg' => ?_, fun {g' G'} hG' hne => ?_, h.flight, h.single,
    fun {f' F'} hF' => (h.fits hF').setDisposal hG (fun g' hg' => (hsub g' hg').1) hkeep,
    fun hnone hc {g'} hg' => ?_, h.opened, fun hc => ?_⟩
  · obtain ⟨hg', hd'⟩ := hsub g' hg'
    obtain rfl := Option.some.inj (hg.symm.trans hg')
    refine ⟨⟨some d'⟩, (Table.getElem?_modify_of_some hG).trans (by rw [if_pos rfl]), ?_⟩
    simpa using hd'
  · rcases Table.getElem?_modify_cases hG' with ⟨rfl, G₀, -, rfl⟩ | ⟨hne', hG'⟩
    · show (if d' = .done then none else q.generation) = some g
      rw [if_neg (by simpa using hne)]
      exact hg
    · exact absurd (Option.some.inj (hg.symm.trans (h.live hG' hne))) hne'
  · -- an observer under disposal is not idle
    have hidle := h.idle hnone hc hg
    rw [hG] at hidle
    cases hidle
  · obtain ⟨c, hclose, hflight, hgen⟩ := h.closing hc
    exact ⟨c, hclose, hflight, fun g' hg' => hgen g' (hsub g' hg').1⟩

theorem Inv.closeRace (h : q.Inv) (hstep : q.closeRace g = some q') : q'.Inv := by
  unfold QueueDepthProbe.closeRace at hstep
  cases hG : q.generations[g]? with
  | none => simp [hG] at hstep
  | some G =>
    obtain ⟨_ | _ | _ | _⟩ := G
    case some.closing =>
      simp only [hG, Option.some.injEq] at hstep
      subst hstep
      exact h.setDisposal .closed hG (by decide)
    all_goals simp [hG] at hstep

theorem Inv.endDisposal (h : q.Inv) (hstep : q.endDisposal g = some q') : q'.Inv := by
  unfold QueueDepthProbe.endDisposal at hstep
  cases hG : q.generations[g]? with
  | none => simp [hG] at hstep
  | some G =>
    obtain ⟨_ | _ | _ | _⟩ := G
    case some.closed =>
      simp only [hG, Option.some.injEq] at hstep
      subst hstep
      rw [if_pos (h.live hG (by simp))]
      exact h.setDisposal .done hG (by decide)
    all_goals simp [hG] at hstep

theorem Inv.beginClose (h : q.Inv) : q.beginClose.Inv := by
  unfold QueueDepthProbe.beginClose
  split_ifs with hclosing
  · exact h
  · exact ⟨h.current, h.live, h.flight, h.single, h.fits, fun _ hc => (by cases hc),
      fun hc => (by cases hc), fun _ => ⟨_, rfl, fun f hf => ⟨hf, rfl⟩, fun g hg => ⟨hg, by simp⟩⟩⟩

/-- `close` goes on without touching observers and flights. -/
theorem Inv.setClose (h : q.Inv) (hclosing : q.closing = true) {c : ProbeClose}
    (hflight : ∀ f, q.flight = some f → c.flight = some f ∧ c.phase = .awaitFlight)
    (hgen : ∀ g, q.generation = some g → c.generation = some g ∧ c.phase ≠ .returned) :
    ({ q with close := some c } : QueueDepthProbe).Inv :=
  ⟨h.current, h.live, h.flight, h.single, h.fits, h.idle,
    fun hc => absurd (hclosing.symm.trans hc) (by simp), fun _ => ⟨c, rfl, hflight, hgen⟩⟩

theorem Inv.closing_of_close (h : q.Inv) {c : ProbeClose} (hc : q.close = some c) :
    q.closing = true := by
  cases hclosing : q.closing with
  | true => rfl
  | false =>
    rw [h.opened hclosing] at hc
    cases hc

/-- The flight `close` found is the last one. -/
theorem Inv.no_flight (h : q.Inv) {c : ProbeClose} (hc : q.close = some c)
    (hover : q.flightOver c.flight = true) : q.flight = none := by
  cases hflight : q.flight with
  | none => rfl
  | some f =>
    obtain ⟨c', hc', hf, -⟩ := h.closing (h.closing_of_close hc)
    obtain rfl := Option.some.inj (hc.symm.trans hc')
    obtain ⟨F, hF, ho⟩ := h.flight hflight
    rw [(hf f hflight).1] at hover
    obtain ⟨g, command, phase⟩ := F
    cases phase with
    | cleared outcome => cases ho
    | racing r | draining e | disposing e | settled o => simp [flightOver, hF] at hover

/-- `disposeGeneration` from `close`, when no flight is left. -/
theorem Inv.disposeGeneration (h : q.Inv) (hclosing : q.closing = true) (hnone : q.flight = none)
    (g : ℕ) : (q.disposeGeneration g).Inv := by
  have hclosed : ∀ (f : ℕ) (F : DepthFlight), q.flights[f]? = some F → F.isOpen = false := by
    intro f F hF
    cases ho : F.isOpen with
    | false => rfl
    | true =>
      have hcur := h.single hF ho
      rw [hnone] at hcur
      cases hcur
  by_cases hG : q.generations[g]? = some ⟨none⟩
  · rw [q.disposeGeneration_eq hG]
    refine h.beginDisposal (h.live hG (by simp)) hG (fun _ => hclosing) (fun f hf => ?_)
      (fun f F hF ho => ?_) fun f F hF _ => h.fits hF
    · rw [hnone] at hf
      cases hf
    · rw [hclosed f F hF] at ho
      cases ho
  · -- it is disposed of already
    unfold QueueDepthProbe.disposeGeneration
    rw [Table.modify_eq_self fun G hG' => ?_]
    · exact h
    · obtain ⟨_ | d⟩ := G
      · exact absurd hG' hG
      · rfl

theorem Inv.resumeClose (h : q.Inv) (hstep : q.resumeClose = some q') : q'.Inv := by
  unfold QueueDepthProbe.resumeClose at hstep
  cases hclose : q.close with
  | none => simp [hclose] at hstep
  | some c =>
    have hclosing := h.closing_of_close hclose
    obtain ⟨c', hc', hf, hgen⟩ := h.closing hclosing
    obtain rfl := Option.some.inj (hclose.symm.trans hc')
    obtain ⟨generation, flight, phase⟩ := c
    cases phase with
    | awaitFlight =>
      simp only [hclose] at hstep
      split_ifs at hstep with hover
      have hnone := h.no_flight hclose (by simpa using hover)
      cases generation with
      | none =>
        obtain rfl := Option.some.inj hstep
        refine h.setClose hclosing (fun f hf' => ?_) fun g hg => ?_
        · rw [hnone] at hf'
          cases hf'
        · cases (hgen g hg).1
      | some g =>
        obtain rfl := Option.some.inj hstep
        refine (h.disposeGeneration hclosing hnone g).setClose hclosing (fun f hf' => ?_)
          fun g' hg' => ⟨(hgen g' hg').1, by simp⟩
        have hf' : q.flight = some f := hf'
        rw [hnone] at hf'
        cases hf'
    | awaitDisposal =>
      cases generation with
      | none => simp [hclose] at hstep
      | some g =>
        simp only [hclose] at hstep
        split_ifs at hstep with hd
        obtain rfl := Option.some.inj hstep
        refine h.setClose hclosing (fun f hf' => ?_) fun g' hg' => ?_
        · cases (hf f hf').2
        · obtain ⟨G, hG, hne⟩ := h.current hg'
          obtain rfl := Option.some.inj (hgen g' hg').1
          have hd : q.generations[g]? = some ⟨some .done⟩ := hd
          rw [hd] at hG
          obtain rfl := Option.some.inj hG
          exact absurd rfl hne
    | returned =>
      cases generation <;> simp [hclose] at hstep

theorem Inv.step (h : q.Inv) {e : Event} (hstep : q.step e = some q') : q'.Inv := by
  cases e with
  | depth =>
    obtain rfl := Option.some.inj hstep
    exact h.depth
  | reply f counts => exact h.reply hstep
  | deadline f => exact h.deadline hstep
  | resume f => exact h.resume hstep
  | clear f => exact h.clear hstep
  | closeRace g => exact h.closeRace hstep
  | endDisposal g => exact h.endDisposal hstep
  | close =>
    obtain rfl := Option.some.inj hstep
    exact h.beginClose
  | resumeClose => exact h.resumeClose hstep

theorem inv_run {es : List Event} (hrun : Machine.run step initial es = some q) : q.Inv :=
  Machine.invariant (fun _ _ _ h hstep => h.step hstep) inv_initial hrun

end QueueDepthProbe

end FlashSale
