import Mathlib.Data.List.Basic

/-!
# Programs with calls, and a rely-guarantee logic for them

`Prog Op Res ε α` is a program that makes calls `o : Op`, each answered by an `Except ε (Res o)`,
and ends with a value of type `α` or an exception of type `ε`. Between two calls a program computes
nothing the outside can see, so a call is one atomic step of a system that interleaves several
programs.

`Logic` fixes what a program may meet and must keep: `rely` is what others do between its calls,
`inv` an invariant of every state, `step` what a call can do and `pre` what the program guarantees
before a call. `Prog.wp` is the weakest precondition under such a logic; by definition it is closed
under `rely`, so it can stand in the invariant of a system for the rest of a running program. A
program that runs alone is the case `rely := Eq`; `Prog.run` executes it.
-/

namespace FlashSale

inductive Prog (Op : Type) (Res : Op → Type) (ε α : Type) where
  | pure (a : α)
  | throw (e : ε)
  | op (o : Op) (k : Except ε (Res o) → Prog Op Res ε α)

namespace Prog

variable {Op : Type} {Res : Op → Type} {ε α β γ S : Type}

def bind : Prog Op Res ε α → (α → Prog Op Res ε β) → Prog Op Res ε β
  | .pure a, f => f a
  | .throw e, _ => .throw e
  | .op o k, f => .op o fun r => (k r).bind f

def catchWith : Prog Op Res ε α → (ε → Prog Op Res ε α) → Prog Op Res ε α
  | .pure a, _ => .pure a
  | .throw e, h => h e
  | .op o k, h => .op o fun r => (k r).catchWith h

/-- The program of one call. -/
def call (o : Op) : Prog Op Res ε (Res o) :=
  .op o fun
    | .ok a => .pure a
    | .error e => .throw e

/-- A computation without calls. -/
def ofExcept : Except ε α → Prog Op Res ε α
  | .ok a => .pure a
  | .error e => .throw e

/-- The program that throws `e` under a condition. -/
def throwIf (P : Prop) [Decidable P] (e : ε) : Prog Op Res ε Unit :=
  if P then .throw e else .pure ()

instance : Monad (Prog Op Res ε) where
  pure := .pure
  bind := .bind

instance : MonadExceptOf ε (Prog Op Res ε) where
  throw := .throw
  tryCatch := .catchWith

instance : MonadLift (Except ε) (Prog Op Res ε) where
  monadLift := ofExcept

@[simp] theorem pure_eq (a : α) : (Pure.pure a : Prog Op Res ε α) = .pure a := rfl

@[simp] theorem bind_eq (p : Prog Op Res ε α) (f : α → Prog Op Res ε β) : p >>= f = p.bind f := rfl

@[simp] theorem throw_eq (e : ε) : (throw e : Prog Op Res ε α) = .throw e := rfl

@[simp] theorem tryCatch_eq (p : Prog Op Res ε α) (h : ε → Prog Op Res ε α) :
    tryCatch p h = p.catchWith h := rfl

@[simp] theorem lift_eq (x : Except ε α) : (liftM x : Prog Op Res ε α) = ofExcept x := rfl

@[simp] theorem pure_bind (a : α) (f : α → Prog Op Res ε β) : (Prog.pure a).bind f = f a := rfl

@[simp] theorem throw_bind (e : ε) (f : α → Prog Op Res ε β) :
    (Prog.throw e : Prog Op Res ε α).bind f = .throw e := rfl

@[simp] theorem ofExcept_ok (a : α) : (ofExcept (.ok a) : Prog Op Res ε α) = .pure a := rfl

@[simp] theorem ofExcept_error (e : ε) : (ofExcept (.error e) : Prog Op Res ε α) = .throw e := rfl

/-- A loop over a list that threads a value. -/
def forEach (xs : List γ) (init : β) (body : β → γ → Prog Op Res ε β) : Prog Op Res ε β :=
  match xs with
  | [] => .pure init
  | x :: xs => (body init x).bind fun b => forEach xs b body

/-! ## Running alone -/

/-- The run of a program on its own; a call is answered by `perform`, and a call that would wait
for others stops the run. -/
def run (perform : (o : Op) → S → Option (Except ε (Res o) × S)) :
    Prog Op Res ε α → S → Option (Except ε α × S)
  | .pure a, s => some (.ok a, s)
  | .throw e, s => some (.error e, s)
  | .op o k, s =>
    match perform o s with
    | none => none
    | some (r, s') => run perform (k r) s'

section Run

variable {perform : (o : Op) → S → Option (Except ε (Res o) × S)}

theorem run_bind (p : Prog Op Res ε α) (f : α → Prog Op Res ε β) (s : S) :
    (p.bind f).run perform s = (p.run perform s).bind fun q => match q with
      | (.ok a, s') => (f a).run perform s'
      | (.error e, s') => some (.error e, s') := by
  induction p generalizing s with
  | pure a => rfl
  | throw e => rfl
  | op o k ih =>
    rw [bind, run, run]
    cases perform o s with
    | none => rfl
    | some q => exact ih q.1 q.2

theorem run_catchWith (p : Prog Op Res ε α) (h : ε → Prog Op Res ε α) (s : S) :
    (p.catchWith h).run perform s = (p.run perform s).bind fun q => match q with
      | (.ok a, s') => some (.ok a, s')
      | (.error e, s') => (h e).run perform s' := by
  induction p generalizing s with
  | pure a => rfl
  | throw e => rfl
  | op o k ih =>
    rw [catchWith, run, run]
    cases perform o s with
    | none => rfl
    | some q => exact ih q.1 q.2

theorem run_bind_of_ok {p : Prog Op Res ε α} {s s' : S} {a : α}
    (h : p.run perform s = some (.ok a, s')) (f : α → Prog Op Res ε β) :
    (p.bind f).run perform s = (f a).run perform s' := by
  rw [run_bind, h]
  rfl

theorem run_bind_of_error {p : Prog Op Res ε α} {s s' : S} {e : ε}
    (h : p.run perform s = some (.error e, s')) (f : α → Prog Op Res ε β) :
    (p.bind f).run perform s = some (.error e, s') := by
  rw [run_bind, h]
  rfl

theorem run_call {o : Op} {s s' : S} {r : Except ε (Res o)} (h : perform o s = some (r, s')) :
    (call o : Prog Op Res ε (Res o)).run perform s = some (r, s') := by
  rw [call, run, h]
  cases r with
  | ok a => rfl
  | error e => rfl

/-- A call that is answered and the rest of the program. -/
theorem run_call_bind {o : Op} {s s' : S} {a : Res o} (h : perform o s = some (.ok a, s'))
    (f : Res o → Prog Op Res ε β) : ((call o).bind f).run perform s = (f a).run perform s' :=
  run_bind_of_ok (run_call h) f

end Run

/-! ## The logic -/

/-- What a program relies on and guarantees; see the head of the file. -/
structure Logic (Op : Type) (Res : Op → Type) (ε S : Type) where
  rely : S → S → Prop
  inv : S → Prop
  pre : Op → S → Prop
  step : (o : Op) → S → Except ε (Res o) → S → Prop
  refl : ∀ s, rely s s
  trans : ∀ {s t u}, rely s t → rely t u → rely s u

variable (L : Logic Op Res ε S)

/-- The weakest precondition of a program for the postcondition `Q` on its outcome. -/
def wp : Prog Op Res ε α → (Except ε α → S → Prop) → S → Prop
  | .pure a, Q, s => ∀ s', L.rely s s' → L.inv s' → Q (.ok a) s'
  | .throw e, Q, s => ∀ s', L.rely s s' → L.inv s' → Q (.error e) s'
  | .op o k, Q, s => ∀ s', L.rely s s' → L.inv s' →
    L.pre o s' ∧ ∀ r s'', L.step o s' r s'' → L.inv s'' → wp (k r) Q s''

variable {L} {p : Prog Op Res ε α} {Q Q' : Except ε α → S → Prop} {s s' : S}

/-- What others do does not spoil a precondition. -/
theorem wp_rely (h : p.wp L Q s) (hr : L.rely s s') : p.wp L Q s' := by
  cases p with
  | pure a => exact fun t ht => h t (L.trans hr ht)
  | throw e => exact fun t ht => h t (L.trans hr ht)
  | op o k => exact fun t ht => h t (L.trans hr ht)

/-- To have a precondition it is enough to have it after whatever others do. -/
theorem wp_of_rely (h : ∀ s', L.rely s s' → L.inv s' → p.wp L Q s') : p.wp L Q s := by
  cases p with
  | pure a => exact fun t ht hi => h t ht hi t (L.refl t) hi
  | throw e => exact fun t ht hi => h t ht hi t (L.refl t) hi
  | op o k => exact fun t ht hi => h t ht hi t (L.refl t) hi

theorem wp_mono (h : p.wp L Q s) (hQ : ∀ r s, L.inv s → Q r s → Q' r s) : p.wp L Q' s := by
  induction p generalizing s with
  | pure a => exact fun t ht hi => hQ _ _ hi (h t ht hi)
  | throw e => exact fun t ht hi => hQ _ _ hi (h t ht hi)
  | op o k ih =>
    intro t ht hi
    obtain ⟨hpre, hk⟩ := h t ht hi
    exact ⟨hpre, fun r u hs hu => ih r (hk r u hs hu)⟩

/-- A postcondition by cases: `P` for a value, `E` for an exception. -/
def post (P : α → S → Prop) (E : ε → S → Prop) : Except ε α → S → Prop
  | .ok a, s => P a s
  | .error e, s => E e s

/-- The outcome of `p` handed on: a value to `f`, an exception to `Q`. -/
def andThen (L : Logic Op Res ε S) (f : α → Prog Op Res ε β) (Q : Except ε β → S → Prop) :
    Except ε α → S → Prop
  | .ok a, s => (f a).wp L Q s
  | .error e, s => Q (.error e) s

/-- The outcome of `p` handed on: an exception to `h`, a value to `Q`. -/
def orElse (L : Logic Op Res ε S) (h : ε → Prog Op Res ε α) (Q : Except ε α → S → Prop) :
    Except ε α → S → Prop
  | .ok a, s => Q (.ok a) s
  | .error e, s => (h e).wp L Q s

theorem wp_bind {f : α → Prog Op Res ε β} {Q : Except ε β → S → Prop}
    (h : p.wp L (andThen L f Q) s) : (p.bind f).wp L Q s := by
  induction p generalizing s with
  | pure a => exact wp_of_rely h
  | throw e => exact h
  | op o k ih =>
    intro t ht hi
    obtain ⟨hpre, hk⟩ := h t ht hi
    exact ⟨hpre, fun r u hs hu => ih r (hk r u hs hu)⟩

theorem wp_catchWith {f : ε → Prog Op Res ε α} (h : p.wp L (orElse L f Q) s) :
    (p.catchWith f).wp L Q s := by
  induction p generalizing s with
  | pure a => exact h
  | throw e => exact wp_of_rely h
  | op o k ih =>
    intro t ht hi
    obtain ⟨hpre, hk⟩ := h t ht hi
    exact ⟨hpre, fun r u hs hu => ih r (hk r u hs hu)⟩

/-- The rule of a call whose precondition and answer are justified by an assertion `P` that others
keep. -/
theorem wp_call {o : Op} {Q : Except ε (Res o) → S → Prop} (P : S → Prop) (hP : P s)
    (hstable : ∀ s s', P s → L.rely s s' → L.inv s' → P s')
    (h : ∀ s, L.inv s → P s → L.pre o s ∧ ∀ r s', L.step o s r s' → L.inv s' →
      ∀ s'', L.rely s' s'' → L.inv s'' → Q r s'') :
    (call o : Prog Op Res ε (Res o)).wp L Q s := by
  intro t ht hi
  obtain ⟨hpre, hk⟩ := h t hi (hstable s t hP ht hi)
  refine ⟨hpre, fun r u hs hu => ?_⟩
  cases r with
  | ok a => exact hk _ u hs hu
  | error e => exact hk _ u hs hu

/-- The rule of a call followed by more of the program. -/
theorem wp_call_bind {o : Op} {f : Res o → Prog Op Res ε β} {Q : Except ε β → S → Prop}
    (P : S → Prop) (hP : P s) (hstable : ∀ s s', P s → L.rely s s' → L.inv s' → P s')
    (h : ∀ s, L.inv s → P s → L.pre o s ∧ ∀ r s', L.step o s r s' → L.inv s' →
      post (fun a s' => (f a).wp L Q s')
        (fun e s' => ∀ s'', L.rely s' s'' → L.inv s'' → Q (.error e) s'') r s') :
    ((call o).bind f).wp L Q s := by
  refine wp_bind (wp_call P hP hstable fun s hi hs => ?_)
  obtain ⟨hpre, hk⟩ := h s hi hs
  refine ⟨hpre, fun r s' hstep hi' s'' hr hi'' => ?_⟩
  have hk := hk r s' hstep hi'
  cases r with
  | ok a => exact wp_rely hk hr
  | error e => exact hk s'' hr hi''

/-- The rule of a computation without calls. -/
theorem wp_ofExcept {x : Except ε α} (h : ∀ s', L.rely s s' → L.inv s' → Q x s') :
    (ofExcept x : Prog Op Res ε α).wp L Q s := by
  cases x with
  | ok a => exact h
  | error e => exact h

/-- The rule of a check. -/
theorem wp_throwIf {P : Prop} [Decidable P] {e : ε} {f : Unit → Prog Op Res ε β}
    {Q : Except ε β → S → Prop} (herr : P → ∀ s', L.rely s s' → L.inv s' → Q (.error e) s')
    (h : ¬ P → (f ()).wp L Q s) : ((throwIf P e).bind f).wp L Q s := by
  unfold throwIf
  split_ifs with hP
  · exact herr hP
  · exact h hP

/-- The rule of a loop: an invariant that others keep and one turn keeps. -/
theorem wp_forEach {xs : List γ} {body : β → γ → Prog Op Res ε β} {b : β}
    {Q : Except ε β → S → Prop} (I : List γ → β → S → Prop)
    (hstable : ∀ ys b s s', I ys b s → L.rely s s' → L.inv s' → I ys b s')
    (hbody : ∀ y ys b s, L.inv s → I (y :: ys) b s →
      (body b y).wp L (post (I ys) fun e => Q (.error e)) s)
    (hend : ∀ b s, L.inv s → I [] b s → Q (.ok b) s)
    (h : I xs b s) : (forEach xs b body).wp L Q s := by
  induction xs generalizing b s with
  | nil => exact fun t ht hi => hend b t hi (hstable _ _ s t h ht hi)
  | cons y ys ih =>
    refine wp_of_rely fun t ht hi => wp_bind (wp_mono (hbody y ys b t hi
      (hstable _ _ s t h ht hi)) ?_)
    intro r u _ hr
    cases r with
    | ok b' => exact ih hr
    | error e => exact hr

/-! ## Frames -/

/-- An assertion that others keep. -/
def Logic.Kept (L : Logic Op Res ε S) (F : S → Prop) : Prop :=
  ∀ s s', F s → L.rely s s' → L.inv s' → F s'

/-- An assertion that others and every call of a program under this logic keep. -/
structure Logic.Framed (L : Logic Op Res ε S) (F : S → Prop) : Prop where
  kept : L.Kept F
  step : ∀ o s r s', L.inv s → F s → L.pre o s → L.step o s r s' → L.inv s' → F s'

/-- **The frame rule.** What others and the program's own calls keep can be carried along. -/
theorem wp_frame {F : S → Prop} (hF : L.Framed F) (h : p.wp L Q s) (hs : F s) :
    p.wp L (fun r s => Q r s ∧ F s) s := by
  induction p generalizing s with
  | pure a => exact fun t ht hi => ⟨h t ht hi, hF.kept s t hs ht hi⟩
  | throw e => exact fun t ht hi => ⟨h t ht hi, hF.kept s t hs ht hi⟩
  | op o k ih =>
    intro t ht hi
    obtain ⟨hpre, hk⟩ := h t ht hi
    have hFt := hF.kept s t hs ht hi
    exact ⟨hpre, fun r u hstep hu =>
      ih r (hk r u hstep hu) (hF.step o t r u hi hFt hpre hstep hu)⟩

/-- The logic whose programs guarantee `P` as well before a call. -/
def Logic.restrict (L : Logic Op Res ε S) (P : Op → S → Prop) : Logic Op Res ε S :=
  { L with pre := fun o s => L.pre o s ∧ P o s }

/-- A stronger guarantee is a guarantee. -/
theorem wp_of_restrict {P : Op → S → Prop} (h : p.wp (L.restrict P) Q s) : p.wp L Q s := by
  induction p generalizing s with
  | pure a => exact h
  | throw e => exact h
  | op o k ih =>
    intro t ht hi
    obtain ⟨hpre, hk⟩ := h t ht hi
    exact ⟨hpre.1, fun r u hstep hu => ih r (hk r u hstep hu)⟩

end Prog

end FlashSale
