import FlashSale.Lib.Prog

/-!
# What a program that runs alone returns

`Prog.Returns` says of a program that runs alone: if it returns, its value and the state it leaves
satisfy `P`. A run that throws, or stops at a call that waits, owes nothing. The rules follow the
structure of a program; a loop has an invariant of the elements still to come.

`Prog.run_forEach_idle` is the other direction, for a loop whose turns all return and leave the
state as it is.
-/

namespace FlashSale

namespace Prog

variable {Op : Type} {Res : Op → Type} {ε α β γ S : Type}

/-- If the program run alone from `s` returns, it does so with `P`. -/
def Returns (perform : (o : Op) → S → Option (Except ε (Res o) × S)) (p : Prog Op Res ε α)
    (P : α → S → Prop) (s : S) : Prop :=
  ∀ a s', p.run perform s = some (.ok a, s') → P a s'

namespace Returns

variable {perform : (o : Op) → S → Option (Except ε (Res o) × S)} {p : Prog Op Res ε α}
  {P Q : α → S → Prop} {R : β → S → Prop} {s s' : S}

theorem mono (h : Returns perform p P s) (hPQ : ∀ a s', P a s' → Q a s') :
    Returns perform p Q s :=
  fun a s' hr => hPQ a s' (h a s' hr)

theorem pure {a : α} (h : P a s) : Returns perform (.pure a) P s := by
  intro b s' hr
  obtain ⟨hb, rfl⟩ := Prod.mk.inj (Option.some.inj hr)
  obtain rfl := Except.ok.inj hb
  exact h

theorem throw {e : ε} : Returns perform (.throw e) P s := by
  intro b s' hr
  cases (Prod.mk.inj (Option.some.inj hr)).1

theorem ofExcept {x : Except ε α} (h : ∀ a, x = .ok a → P a s) :
    Returns perform (ofExcept x) P s := by
  cases x with
  | ok a => exact pure (h a rfl)
  | error e => exact throw

theorem bind {f : α → Prog Op Res ε β} (h : Returns perform p P s)
    (hf : ∀ a s', P a s' → Returns perform (f a) R s') : Returns perform (p.bind f) R s := by
  intro b t hr
  rw [run_bind] at hr
  cases hp : p.run perform s with
  | none => rw [hp] at hr; cases hr
  | some q =>
    obtain ⟨x, s'⟩ := q
    rw [hp] at hr
    cases x with
    | ok a => exact hf a s' (h a s' hp) b t hr
    | error e => cases (Prod.mk.inj (Option.some.inj hr)).1

/-- The first part of the program is known to return. -/
theorem bind_of_ok {f : α → Prog Op Res ε β} {a : α} (h : p.run perform s = some (.ok a, s'))
    (hf : Returns perform (f a) R s') : Returns perform (p.bind f) R s := by
  intro b t hr
  rw [run_bind_of_ok h] at hr
  exact hf b t hr

theorem call {o : Op} {P : Res o → S → Prop}
    (h : ∀ a s', perform o s = some (.ok a, s') → P a s') :
    Returns perform (Prog.call o) P s := by
  intro a s' hr
  refine h a s' ?_
  rw [Prog.call, run] at hr
  cases hp : perform o s with
  | none => rw [hp] at hr; cases hr
  | some q =>
    obtain ⟨x, t⟩ := q
    rw [hp] at hr
    cases x with
    | ok b => exact hr
    | error e => cases (Prod.mk.inj (Option.some.inj hr)).1

theorem throwIf {A : Prop} [Decidable A] {e : ε} {f : Unit → Prog Op Res ε β}
    (h : ¬ A → Returns perform (f ()) R s) : Returns perform ((throwIf A e).bind f) R s := by
  unfold Prog.throwIf
  split_ifs with hA
  · exact throw
  · exact h hA

/-- The program returns, or its handler does. -/
theorem catchWith {handle : ε → Prog Op Res ε α} (h : Returns perform p P s)
    (he : ∀ e s', Returns perform (handle e) P s') :
    Returns perform (p.catchWith handle) P s := by
  intro a t hr
  rw [run_catchWith] at hr
  cases hp : p.run perform s with
  | none => rw [hp] at hr; cases hr
  | some q =>
    obtain ⟨x, s'⟩ := q
    rw [hp] at hr
    cases x with
    | ok b =>
      obtain ⟨hb, rfl⟩ := Prod.mk.inj (Option.some.inj hr)
      obtain rfl := Except.ok.inj hb
      exact h b s' hp
    | error e => exact he e s' a t hr

/-- The rule of a loop; `I` speaks of the elements still to come. -/
theorem forEach {xs : List γ} {body : β → γ → Prog Op Res ε β} {b : β}
    (I : List γ → β → S → Prop)
    (hbody : ∀ x xs b s, I (x :: xs) b s → Returns perform (body b x) (I xs) s)
    (h : I xs b s) : Returns perform (forEach xs b body) (I []) s := by
  induction xs generalizing b s with
  | nil => exact pure h
  | cons x xs ih => exact bind (hbody x xs b s h) fun b' s' h' => ih h'

end Returns

/-- A loop whose turns return what they got and change nothing. -/
theorem run_forEach_idle {perform : (o : Op) → S → Option (Except ε (Res o) × S)} {s : S}
    {body : β → γ → Prog Op Res ε β} {xs : List γ} {b : β}
    (h : ∀ x ∈ xs, (body b x).run perform s = some (.ok b, s)) :
    (forEach xs b body).run perform s = some (.ok b, s) := by
  induction xs with
  | nil => rfl
  | cons x xs ih =>
    exact (run_bind_of_ok (h x (by simp)) _).trans (ih fun y hy => h y (by simp [hy]))

end Prog

end FlashSale
