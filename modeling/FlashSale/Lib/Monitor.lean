import FlashSale.Lib.Prog

/-!
# Monitors of the calls of a program

A monitor reads the calls of a program with their answers, one after the other, and says which call
may come next. The answers are those of an arbitrary world, which may know everything that happened
so far: `Prog.trace` runs a program against it. A program that meets its precondition under
`Monitor.logic` makes allowed calls only, whatever the world answers (`Monitor.trace_sound`).
-/

namespace FlashSale

/-- A call and its answer. -/
structure CallEvent (Op : Type) (Res : Op → Type) (ε : Type) where
  op : Op
  answer : Except ε (Res op)

/-- The answer to a call after a history. -/
abbrev CallWorld (Op : Type) (Res : Op → Type) (ε : Type) : Type :=
  List (CallEvent Op Res ε) → (o : Op) → Except ε (Res o)

structure Monitor (Op : Type) (Res : Op → Type) (ε M : Type) where
  start : M
  observe : M → CallEvent Op Res ε → M
  allowed : M → Op → Prop

variable {Op : Type} {Res : Op → Type} {ε α β M : Type}

/-- The outcome of a program in a world, and its calls after those of `past`. -/
def Prog.trace (world : CallWorld Op Res ε) :
    Prog Op Res ε α → List (CallEvent Op Res ε) → Except ε α × List (CallEvent Op Res ε)
  | .pure a, _ => (.ok a, [])
  | .throw e, _ => (.error e, [])
  | .op o k, past =>
    let event := ⟨o, world past o⟩
    let (r, later) := (k (world past o)).trace world (past ++ [event])
    (r, event :: later)

namespace Monitor

variable (W : Monitor Op Res ε M)

/-- What the monitor knows after a list of calls. -/
def after (m : M) (events : List (CallEvent Op Res ε)) : M := events.foldl W.observe m

/-- Every call is allowed after those before it. -/
def Clean (m : M) (events : List (CallEvent Op Res ε)) : Prop :=
  ∀ before e later, events = before ++ e :: later → W.allowed (W.after m before) e.op

theorem clean_nil (m : M) : W.Clean m [] := by
  intro before e later h
  cases before with
  | nil => cases h
  | cons _ _ => cases h

theorem clean_cons {m : M} {e : CallEvent Op Res ε} {events : List (CallEvent Op Res ε)}
    (he : W.allowed m e.op) (h : W.Clean (W.observe m e) events) : W.Clean m (e :: events) := by
  intro before e' later heq
  cases before with
  | nil =>
    obtain ⟨rfl, -⟩ := List.cons.inj heq
    exact he
  | cons d before =>
    obtain ⟨rfl, htail⟩ := List.cons.inj heq
    exact h before e' later htail

/-- The program runs alone, and guarantees that the monitor allows its next call. -/
def logic : Prog.Logic Op Res ε M where
  rely m m' := m' = m
  inv _ := True
  pre o m := W.allowed m o
  step o m r m' := m' = W.observe m ⟨o, r⟩
  refl _ := rfl
  trans h h' := h'.trans h

variable {W} {Q : Except ε α → M → Prop} {m : M}

theorem wp_pure {a : α} (h : Q (.ok a) m) : (Prog.pure a : Prog Op Res ε α).wp W.logic Q m := by
  rintro _ rfl -
  exact h

theorem wp_throw {e : ε} (h : Q (.error e) m) :
    (Prog.throw e : Prog Op Res ε α).wp W.logic Q m := by
  rintro _ rfl -
  exact h

/-- A call that is allowed and the rest of the program. -/
theorem wp_op {o : Op} {f : Res o → Prog Op Res ε α} (hallowed : W.allowed m o)
    (hok : ∀ a, (f a).wp W.logic Q (W.observe m ⟨o, .ok a⟩))
    (herror : ∀ e, Q (.error e) (W.observe m ⟨o, .error e⟩)) :
    ((Prog.call o).bind f).wp W.logic Q m := by
  rintro _ rfl -
  refine ⟨hallowed, ?_⟩
  rintro r _ rfl -
  cases r with
  | ok a => exact hok a
  | error e => exact wp_throw (herror e)

/-- A call that is allowed. -/
theorem wp_call {o : Op} {Q : Except ε (Res o) → M → Prop} (hallowed : W.allowed m o)
    (h : ∀ r, Q r (W.observe m ⟨o, r⟩)) : (Prog.call o : Prog Op Res ε (Res o)).wp W.logic Q m := by
  rintro _ rfl -
  refine ⟨hallowed, ?_⟩
  rintro r _ rfl -
  cases r with
  | ok a => exact wp_pure (h (.ok a))
  | error e => exact wp_throw (h (.error e))

theorem wp_throwIf {P : Prop} [Decidable P] {e : ε} {f : Unit → Prog Op Res ε α}
    (herror : Q (.error e) m) (h : ¬ P → (f ()).wp W.logic Q m) :
    ((Prog.throwIf P e).bind f).wp W.logic Q m := by
  refine Prog.wp_throwIf (fun _ => ?_) h
  rintro _ rfl -
  exact herror

/-- A check at the end of a program. -/
theorem wp_check {P : Prop} [Decidable P] {e : ε} {Q : Except ε Unit → M → Prop}
    (herror : Q (.error e) m) (h : ¬ P → Q (.ok ()) m) :
    (Prog.throwIf P e : Prog Op Res ε Unit).wp W.logic Q m := by
  unfold Prog.throwIf
  split_ifs with hP
  · exact wp_throw herror
  · exact wp_pure (h hP)

/-- **Soundness.** In every world the calls of the program are allowed and its outcome is as
promised. -/
theorem trace_sound {p : Prog Op Res ε α} (h : p.wp W.logic Q m) (world : CallWorld Op Res ε)
    (past : List (CallEvent Op Res ε)) :
    W.Clean m (p.trace world past).2 ∧
      Q (p.trace world past).1 (W.after m (p.trace world past).2) := by
  induction p generalizing m past with
  | pure a => exact ⟨W.clean_nil m, h m rfl trivial⟩
  | throw e => exact ⟨W.clean_nil m, h m rfl trivial⟩
  | op o k ih =>
    obtain ⟨hallowed, hk⟩ := h m rfl trivial
    obtain ⟨hclean, hQ⟩ := ih (world past o) (hk _ _ rfl trivial) (past ++ [⟨o, world past o⟩])
    exact ⟨W.clean_cons hallowed hclean, hQ⟩

end Monitor

end FlashSale
