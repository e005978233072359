import FlashSale.Lib.Alone

/-!
# Programs that do not see a part of the state

`erase : S → S` clears a part of the state. `Prog.Blind` says that a program run alone does the same
whether or not that part is cleared before it starts: the same outcome, and the same state up to
`erase`. It also says which calls the run makes and what holds at its end, since whether the next
call is blind depends on what the program has read so far; `Prog.Yields` is the common case of an
invariant of the states and a property of the values.

`Prog.Agrees` is weaker: the value a program returns, and a part of the state it leaves, may tell what
was erased. Two states with the same erasure then lead to the same outcome as far as the rest shows
(`Agrees.two_runs`).
-/

namespace FlashSale

namespace Prog

variable {Op : Type} {Res : Op → Type} {ε α β γ S : Type}

/-! ## The calls of a run -/

/-- The calls a program makes when it runs alone. -/
def made (perform : (o : Op) → S → Option (Except ε (Res o) × S)) :
    Prog Op Res ε α → S → List Op
  | .pure _, _ => []
  | .throw _, _ => []
  | .op o k, s => o :: match perform o s with
    | none => []
    | some (r, s') => made perform (k r) s'

section Made

variable {perform : (o : Op) → S → Option (Except ε (Res o) × S)}

theorem made_bind (p : Prog Op Res ε α) (f : α → Prog Op Res ε β) (s : S) :
    (p.bind f).made perform s = p.made perform s ++ match p.run perform s with
      | some (.ok a, s') => (f a).made perform s'
      | _ => [] := by
  induction p generalizing s with
  | pure a => rfl
  | throw e => rfl
  | op o k ih =>
    rw [bind, made, made, run]
    cases perform o s with
    | none => rfl
    | some q => exact congrArg (List.cons o) (ih q.1 q.2)

theorem made_catchWith (p : Prog Op Res ε α) (h : ε → Prog Op Res ε α) (s : S) :
    (p.catchWith h).made perform s = p.made perform s ++ match p.run perform s with
      | some (.error e, s') => (h e).made perform s'
      | _ => [] := by
  induction p generalizing s with
  | pure a => rfl
  | throw e => rfl
  | op o k ih =>
    rw [catchWith, made, made, run]
    cases perform o s with
    | none => rfl
    | some q => exact congrArg (List.cons o) (ih q.1 q.2)

theorem forall_made_bind {G : Op → Prop} {p : Prog Op Res ε α} {f : α → Prog Op Res ε β} {s : S}
    (hp : ∀ o ∈ p.made perform s, G o)
    (hf : ∀ a t, p.run perform s = some (.ok a, t) → ∀ o ∈ (f a).made perform t, G o) :
    ∀ o ∈ (p.bind f).made perform s, G o := by
  rw [made_bind]
  intro o ho
  rcases List.mem_append.1 ho with ho | ho
  · exact hp o ho
  cases hrun : p.run perform s with
  | none => rw [hrun] at ho; cases ho
  | some q =>
    obtain ⟨r, t⟩ := q
    rw [hrun] at ho
    cases r with
    | ok a => exact hf a t hrun o ho
    | error e => cases ho

theorem forall_run_bind {p : Prog Op Res ε α} {f : α → Prog Op Res ε β}
    {Q : Except ε β → S → Prop} {s : S}
    (hf : ∀ a t, p.run perform s = some (.ok a, t) →
      ∀ r s', (f a).run perform t = some (r, s') → Q r s')
    (he : ∀ e t, p.run perform s = some (.error e, t) → Q (.error e) t) :
    ∀ r s', (p.bind f).run perform s = some (r, s') → Q r s' := by
  intro r s' hr
  rw [run_bind] at hr
  cases hrun : p.run perform s with
  | none => rw [hrun] at hr; cases hr
  | some q =>
    obtain ⟨x, t⟩ := q
    rw [hrun] at hr
    cases x with
    | ok a => exact hf a t hrun r s' hr
    | error e =>
      obtain ⟨rfl, rfl⟩ := Prod.mk.inj (Option.some.inj hr)
      exact he e t hrun

theorem made_call (o : Op) (s : S) : (call o : Prog Op Res ε (Res o)).made perform s = [o] := by
  rw [call, made]
  cases perform o s with
  | none => rfl
  | some q =>
    obtain ⟨r, s'⟩ := q
    cases r with
    | ok a => rfl
    | error e => rfl

theorem made_bind_of_ok {p : Prog Op Res ε α} {s s' : S} {a : α}
    (h : p.run perform s = some (.ok a, s')) (f : α → Prog Op Res ε β) :
    (p.bind f).made perform s = p.made perform s ++ (f a).made perform s' := by
  rw [made_bind, h]

theorem made_bind_of_error {p : Prog Op Res ε α} {s s' : S} {e : ε}
    (h : p.run perform s = some (.error e, s')) (f : α → Prog Op Res ε β) :
    (p.bind f).made perform s = p.made perform s := by
  rw [made_bind, h]
  exact List.append_nil _

theorem made_call_bind {o : Op} {s s' : S} {a : Res o} (h : perform o s = some (.ok a, s'))
    (f : Res o → Prog Op Res ε β) :
    ((call o).bind f).made perform s = o :: (f a).made perform s' := by
  rw [made_bind_of_ok (run_call h), made_call]
  rfl

end Made

/-- Every call the program can make, whatever it is answered, is in `G`. -/
def CallsIn (G : Op → Prop) : Prog Op Res ε α → Prop
  | .pure _ => True
  | .throw _ => True
  | .op o k => G o ∧ ∀ r, (k r).CallsIn G

section CallsIn

variable {G : Op → Prop}

theorem CallsIn.made {p : Prog Op Res ε α} (h : p.CallsIn G)
    (perform : (o : Op) → S → Option (Except ε (Res o) × S)) (s : S) :
    ∀ o ∈ p.made perform s, G o := by
  induction p generalizing s with
  | pure a => simp [Prog.made]
  | throw e => simp [Prog.made]
  | op o k ih =>
    intro o' ho'
    rw [Prog.made] at ho'
    rcases List.mem_cons.1 ho' with rfl | ho'
    · exact h.1
    cases hp : perform o s with
    | none => rw [hp] at ho'; cases ho'
    | some q =>
      rw [hp] at ho'
      exact ih q.1 (h.2 q.1) q.2 o' ho'

theorem CallsIn.mono {G' : Op → Prop} {p : Prog Op Res ε α} (h : p.CallsIn G)
    (hG : ∀ o, G o → G' o) : p.CallsIn G' := by
  induction p with
  | pure a => trivial
  | throw e => trivial
  | op o k ih => exact ⟨hG o h.1, fun r => ih r (h.2 r)⟩

theorem CallsIn.bind {p : Prog Op Res ε α} {f : α → Prog Op Res ε β} (hp : p.CallsIn G)
    (hf : ∀ a, (f a).CallsIn G) : (p.bind f).CallsIn G := by
  induction p with
  | pure a => exact hf a
  | throw e => trivial
  | op o k ih => exact ⟨hp.1, fun r => ih r (hp.2 r)⟩

theorem CallsIn.call {o : Op} (h : G o) : (call o : Prog Op Res ε (Res o)).CallsIn G := by
  refine ⟨h, fun r => ?_⟩
  cases r with
  | ok a => trivial
  | error e => trivial

theorem CallsIn.catchWith {p : Prog Op Res ε α} {h : ε → Prog Op Res ε α} (hp : p.CallsIn G)
    (hh : ∀ e, (h e).CallsIn G) : (p.catchWith h).CallsIn G := by
  induction p with
  | pure a => trivial
  | throw e => exact hh e
  | op o k ih => exact ⟨hp.1, fun r => ih r (hp.2 r)⟩

theorem CallsIn.ofExcept (x : Except ε α) : (ofExcept x : Prog Op Res ε α).CallsIn G := by
  cases x with
  | ok a => trivial
  | error e => trivial

theorem CallsIn.throwIf (P : Prop) [Decidable P] (e : ε) :
    (throwIf P e : Prog Op Res ε Unit).CallsIn G := by
  unfold Prog.throwIf
  split_ifs <;> trivial

/-- What every call of the program keeps holds at its end. -/
theorem CallsIn.keeps {F : S → Prop} {perform : (o : Op) → S → Option (Except ε (Res o) × S)}
    (hF : ∀ o s r s', G o → F s → perform o s = some (r, s') → F s') {p : Prog Op Res ε α}
    (h : p.CallsIn G) {s s' : S} {r : Except ε α} (hs : F s)
    (hrun : p.run perform s = some (r, s')) : F s' := by
  induction p generalizing s with
  | pure a =>
    obtain ⟨-, rfl⟩ := Prod.mk.inj (Option.some.inj hrun)
    exact hs
  | throw e =>
    obtain ⟨-, rfl⟩ := Prod.mk.inj (Option.some.inj hrun)
    exact hs
  | op o k ih =>
    rw [Prog.run] at hrun
    cases hp : perform o s with
    | none => rw [hp] at hrun; cases hrun
    | some q =>
      rw [hp] at hrun
      exact ih q.1 (h.2 q.1) (hF o s q.1 q.2 h.1 hs hp) hrun

theorem CallsIn.forEach {body : β → γ → Prog Op Res ε β} (h : ∀ b x, (body b x).CallsIn G)
    (xs : List γ) (b : β) : (forEach xs b body).CallsIn G := by
  induction xs generalizing b with
  | nil => trivial
  | cons x xs ih => exact (h b x).bind fun b' => ih b'

end CallsIn

/-- Every value the program can return, whatever its calls are answered, is in `P`. -/
def ValuesIn (P : α → Prop) : Prog Op Res ε α → Prop
  | .pure a => P a
  | .throw _ => True
  | .op _ k => ∀ r, (k r).ValuesIn P

section ValuesIn

variable {P : α → Prop} {R : β → Prop}

theorem ValuesIn.returns {p : Prog Op Res ε α} (h : p.ValuesIn P)
    (perform : (o : Op) → S → Option (Except ε (Res o) × S)) (s : S) :
    Returns perform p (fun a _ => P a) s := by
  intro a s' hrun
  induction p generalizing s with
  | pure b =>
    obtain ⟨e, -⟩ := Prod.mk.inj (Option.some.inj hrun)
    obtain rfl := Except.ok.inj e
    exact h
  | throw e =>
    obtain ⟨e, -⟩ := Prod.mk.inj (Option.some.inj hrun)
    cases e
  | op o k ih =>
    rw [Prog.run] at hrun
    cases hp : perform o s with
    | none => rw [hp] at hrun; cases hrun
    | some q =>
      rw [hp] at hrun
      exact ih q.1 (h q.1) q.2 hrun

theorem ValuesIn.mono {P' : α → Prop} {p : Prog Op Res ε α} (h : p.ValuesIn P)
    (hP : ∀ a, P a → P' a) : p.ValuesIn P' := by
  induction p with
  | pure a => exact hP a h
  | throw e => trivial
  | op o k ih => exact fun r => ih r (h r)

theorem ValuesIn.seq {p : Prog Op Res ε α} {f : α → Prog Op Res ε β} (hp : p.ValuesIn P)
    (hf : ∀ a, P a → (f a).ValuesIn R) : (p.bind f).ValuesIn R := by
  induction p with
  | pure a => exact hf a hp
  | throw e => trivial
  | op o k ih => exact fun r => ih r (hp r)

/-- What the first part of a program returns need not be known. -/
theorem ValuesIn.bind {p : Prog Op Res ε α} {f : α → Prog Op Res ε β}
    (hf : ∀ a, (f a).ValuesIn R) : (p.bind f).ValuesIn R := by
  induction p with
  | pure a => exact hf a
  | throw e => trivial
  | op o k ih => exact fun r => ih r

theorem ValuesIn.forEach {body : β → γ → Prog Op Res ε β}
    (h : ∀ b x, R b → (body b x).ValuesIn R) (xs : List γ) {b : β} (hb : R b) :
    (forEach xs b body).ValuesIn R := by
  induction xs generalizing b with
  | nil => exact hb
  | cons x xs ih => exact (h b x hb).seq fun b' hb' => ih hb'

/-- What follows a program matters for the values it can return only. -/
theorem ValuesIn.bind_congr {p : Prog Op Res ε α} {f g : α → Prog Op Res ε β} (hp : p.ValuesIn P)
    (h : ∀ a, P a → f a = g a) : p.bind f = p.bind g := by
  induction p with
  | pure a => exact h a hp
  | throw e => rfl
  | op o k ih => exact congrArg (op o) (funext fun r => ih r (hp r))

end ValuesIn

/-! ## Sequences -/

theorem bind_assoc (p : Prog Op Res ε α) (f : α → Prog Op Res ε β) (g : β → Prog Op Res ε γ) :
    (p.bind f).bind g = p.bind fun a => (f a).bind g := by
  induction p with
  | pure a => rfl
  | throw e => rfl
  | op o k ih => exact congrArg (op o) (funext fun r => ih r)

/-- A loop skips the turns that do nothing on the values it can carry. -/
theorem forEach_filter (keep : γ → Bool) {R : β → Prop} {body : β → γ → Prog Op Res ε β}
    (xs : List γ) (hskip : ∀ x ∈ xs, keep x = false → ∀ b, R b → body b x = .pure b)
    (hbody : ∀ b x, R b → (body b x).ValuesIn R) {b : β} (hb : R b) :
    forEach (xs.filter keep) b body = forEach xs b body := by
  induction xs generalizing b with
  | nil => rfl
  | cons x xs ih =>
    have ih {b : β} (hb : R b) := ih (fun y hy => hskip y (by simp [hy])) hb
    cases hx : keep x with
    | false =>
      rw [List.filter_cons_of_neg (by simp [hx]), ih hb, forEach, hskip x (by simp) hx b hb]
      rfl
    | true =>
      rw [List.filter_cons_of_pos hx, forEach, forEach]
      exact (hbody b x hb).bind_congr fun b' hb' => ih hb'

/-! ## Blindness -/

/-- A program run from `s` does the same from `erase s`, makes calls in `G` only and ends in `Q`. -/
structure Blind (perform : (o : Op) → S → Option (Except ε (Res o) × S)) (erase : S → S)
    (G : Op → Prop) (p : Prog Op Res ε α) (Q : Except ε α → S → Prop) (s : S) : Prop where
  commutes : p.run perform (erase s) = (p.run perform s).map fun q => (q.1, erase q.2)
  calls : ∀ o ∈ p.made perform s, G o
  ends : ∀ r s', p.run perform s = some (r, s') → Q r s'

namespace Blind

variable {perform : (o : Op) → S → Option (Except ε (Res o) × S)} {erase : S → S} {G : Op → Prop}
  {p : Prog Op Res ε α} {Q Q' : Except ε α → S → Prop} {s t : S}

theorem mono (h : Blind perform erase G p Q s) (hQ : ∀ r s, Q r s → Q' r s) :
    Blind perform erase G p Q' s :=
  ⟨h.commutes, h.calls, fun r s' hr => hQ r s' (h.ends r s' hr)⟩

theorem pure {a : α} (h : Q (.ok a) s) : Blind perform erase G (.pure a) Q s := by
  refine ⟨rfl, by simp [made], fun r s' hr => ?_⟩
  obtain ⟨rfl, rfl⟩ := Prod.mk.inj (Option.some.inj hr)
  exact h

theorem throw {e : ε} (h : Q (.error e) s) : Blind perform erase G (.throw e) Q s := by
  refine ⟨rfl, by simp [made], fun r s' hr => ?_⟩
  obtain ⟨rfl, rfl⟩ := Prod.mk.inj (Option.some.inj hr)
  exact h

/-- A call that answers alike, and leaves the same state, with and without the erased part. -/
theorem call {o : Op} {Q : Except ε (Res o) → S → Prop} (hG : G o)
    (hcomm : perform o (erase s) = (perform o s).map fun q => (q.1, erase q.2))
    (h : ∀ r s', perform o s = some (r, s') → Q r s') :
    Blind perform erase G (call o) Q s := by
  have hrun (u : S) : (Prog.call o : Prog Op Res ε (Res o)).run perform u = perform o u := by
    cases hp : perform o u with
    | none => rw [Prog.call, run, hp]
    | some q => exact run_call hp
  refine ⟨by rw [hrun, hrun, hcomm], ?_, fun r s' hr => h r s' (hrun s ▸ hr)⟩
  rw [made_call]
  simpa using hG

theorem bind {f : α → Prog Op Res ε β} {Q : Except ε β → S → Prop}
    (h : Blind perform erase G p
      (post (fun a => Blind perform erase G (f a) Q) fun e => Q (.error e)) s) :
    Blind perform erase G (p.bind f) Q s := by
  obtain ⟨hcomm, hcalls, hends⟩ := h
  refine ⟨?_, forall_made_bind hcalls fun a t hr => (hends _ _ hr).calls,
    forall_run_bind (fun a t hr => (hends _ _ hr).ends) fun e t hr => hends _ _ hr⟩
  rw [run_bind, run_bind, hcomm]
  cases hp : p.run perform s with
  | none => rfl
  | some q =>
    obtain ⟨r, s'⟩ := q
    cases r with
    | ok a => exact (hends _ _ hp).commutes
    | error e => rfl

theorem catchWith {h : ε → Prog Op Res ε α} (hp : Blind perform erase G p
      (post (fun a => Q (.ok a)) fun e => Blind perform erase G (h e) Q) s) :
    Blind perform erase G (p.catchWith h) Q s := by
  obtain ⟨hcomm, hcalls, hends⟩ := hp
  constructor
  · rw [run_catchWith, run_catchWith, hcomm]
    cases hp : p.run perform s with
    | none => rfl
    | some q =>
      obtain ⟨r, s'⟩ := q
      cases r with
      | ok a => rfl
      | error e => exact (hends _ _ hp).commutes
  · rw [made_catchWith]
    intro o ho
    rcases List.mem_append.1 ho with ho | ho
    · exact hcalls o ho
    cases hp : p.run perform s with
    | none => rw [hp] at ho; cases ho
    | some q =>
      obtain ⟨r, s'⟩ := q
      rw [hp] at ho
      cases r with
      | ok a => cases ho
      | error e => exact (hends _ _ hp).calls o ho
  · intro r s' hr
    rw [run_catchWith] at hr
    cases hp : p.run perform s with
    | none => rw [hp] at hr; cases hr
    | some q =>
      obtain ⟨x, t⟩ := q
      rw [hp] at hr
      cases x with
      | ok a =>
        obtain ⟨rfl, rfl⟩ := Prod.mk.inj (Option.some.inj hr)
        exact hends _ _ hp
      | error e => exact (hends _ _ hp).ends r s' hr

/-- A program that reads the erased part: what it reads differs, and what follows does not. -/
theorem bind_of_runs {f : α → Prog Op Res ε β} {Q : Except ε β → S → Prop} {a a' : α}
    (hs : p.run perform s = some (.ok a, t)) (he : p.run perform (erase s) = some (.ok a', erase t))
    (hf : f a' = f a) (hcalls : ∀ o ∈ p.made perform s, G o)
    (h : Blind perform erase G (f a) Q t) : Blind perform erase G (p.bind f) Q s := by
  refine ⟨?_, forall_made_bind hcalls fun b u hr => ?_,
    forall_run_bind (fun b u hr => ?_) fun e u hr => ?_⟩
  · rw [run_bind_of_ok hs, run_bind_of_ok he, hf]
    exact h.commutes
  · obtain ⟨hb, rfl⟩ := Prod.mk.inj (Option.some.inj (hs.symm.trans hr))
    obtain rfl := Except.ok.inj hb
    exact h.calls
  · obtain ⟨hb, rfl⟩ := Prod.mk.inj (Option.some.inj (hs.symm.trans hr))
    obtain rfl := Except.ok.inj hb
    exact h.ends
  · obtain ⟨hb, -⟩ := Prod.mk.inj (Option.some.inj (hs.symm.trans hr))
    cases hb

/-- The rule of a sequence, by the cases of the outcome. -/
theorem seq {f : α → Prog Op Res ε β} {I : α → S → Prop} {K : β → S → Prop} {E E' : ε → S → Prop}
    (h : Blind perform erase G p (post I E') s) (hE : ∀ e t, E' e t → E e t)
    (hf : ∀ a t, I a t → Blind perform erase G (f a) (post K E) t) :
    Blind perform erase G (p.bind f) (post K E) s := by
  refine bind (h.mono fun r t hr => ?_)
  cases r with
  | ok a => exact hf a t hr
  | error e => exact hE e t hr

/-- What else is known of the values the program returns. -/
theorem returns {I : α → S → Prop} {E : ε → S → Prop} {P : α → Prop}
    (h : Blind perform erase G p (post I E) s) (hr : Returns perform p (fun a _ => P a) s) :
    Blind perform erase G p (post (fun a t => I a t ∧ P a) E) s := by
  refine ⟨h.commutes, h.calls, fun r t hrun => ?_⟩
  have hend := h.ends r t hrun
  cases r with
  | ok a => exact ⟨hend, hr a t hrun⟩
  | error e => exact hend

/-- The rule of a loop; `I` speaks of the elements still to come. -/
theorem forEach {xs : List γ} {body : β → γ → Prog Op Res ε β} {b : β} (I : List γ → β → S → Prop)
    {E : ε → S → Prop} (hbody : ∀ x xs b s, I (x :: xs) b s →
      Blind perform erase G (body b x) (post (I xs) E) s) (h : I xs b s) :
    Blind perform erase G (forEach xs b body) (post (I []) E) s := by
  induction xs generalizing b s with
  | nil => exact pure h
  | cons x xs ih => exact seq (hbody x xs b s h) (fun _ _ he => he) fun b' t ht => ih ht

end Blind

/-! ## Agreement

What a program returns, and a part of the state it leaves, may tell what was erased; `view` is the
part of the state that must not. -/

/-- The outcome of a run without the value it returns, and the part of the state in view. -/
def seen (view : S → S) (q : Except ε α × S) : Except ε Unit × S :=
  (q.1.map fun _ => (), view q.2)

/-- `p` from `s` and `p'` from `erase s` come to the same outcome as far as `view` shows; the first
makes calls in `G` only and ends in `Q`. -/
structure Agrees (perform : (o : Op) → S → Option (Except ε (Res o) × S)) (erase view : S → S)
    (G : Op → Prop) (p' p : Prog Op Res ε α) (Q : Except ε α → S → Prop) (s : S) : Prop where
  outcome : (p'.run perform (erase s)).map (seen view) = (p.run perform s).map (seen view)
  calls : ∀ o ∈ p.made perform s, G o
  ends : ∀ r s', p.run perform s = some (r, s') → Q r s'

namespace Agrees

variable {perform : (o : Op) → S → Option (Except ε (Res o) × S)} {erase view : S → S}
  {G : Op → Prop} {p : Prog Op Res ε α} {s t : S}

/-- A blind part of a program in front of two that agree. -/
theorem bind (hview : ∀ s, view (erase s) = view s) {f' f : α → Prog Op Res ε β}
    {Q : Except ε β → S → Prop} (h : Blind perform erase G p
      (post (fun a => Agrees perform erase view G (f' a) (f a) Q) fun e => Q (.error e)) s) :
    Agrees perform erase view G (p.bind f') (p.bind f) Q s := by
  obtain ⟨hcomm, hcalls, hends⟩ := h
  refine ⟨?_, forall_made_bind hcalls fun a t hr => (hends _ _ hr).calls,
    forall_run_bind (fun a t hr => (hends _ _ hr).ends) fun e t hr => hends _ _ hr⟩
  rw [run_bind, run_bind, hcomm]
  cases hp : p.run perform s with
  | none => rfl
  | some q =>
    obtain ⟨r, s'⟩ := q
    cases r with
    | ok a => exact (hends _ _ hp).outcome
    | error e => exact congrArg (fun t => some (Except.error e, t)) (hview s')

/-- A part that reads what was erased, in front of two programs that agree on what they are told. -/
theorem bind_of_runs {p' : Prog Op Res ε α} {f' f : α → Prog Op Res ε β}
    {Q : Except ε β → S → Prop} {a a' : α} (hs : p.run perform s = some (.ok a, t))
    (he : p'.run perform (erase s) = some (.ok a', erase t))
    (hcalls : ∀ o ∈ p.made perform s, G o)
    (h : Agrees perform erase view G (f' a') (f a) Q t) :
    Agrees perform erase view G (p'.bind f') (p.bind f) Q s := by
  refine ⟨?_, forall_made_bind hcalls fun b u hr => ?_,
    forall_run_bind (fun b u hr => ?_) fun e u hr => ?_⟩
  · rw [run_bind_of_ok hs, run_bind_of_ok he]
    exact h.outcome
  · obtain ⟨hb, rfl⟩ := Prod.mk.inj (Option.some.inj (hs.symm.trans hr))
    obtain rfl := Except.ok.inj hb
    exact h.calls
  · obtain ⟨hb, rfl⟩ := Prod.mk.inj (Option.some.inj (hs.symm.trans hr))
    obtain rfl := Except.ok.inj hb
    exact h.ends
  · obtain ⟨hb, -⟩ := Prod.mk.inj (Option.some.inj (hs.symm.trans hr))
    cases hb

theorem throwIf_bind (hview : ∀ s, view (erase s) = view s) {A : Prop} [Decidable A] {e : ε}
    {f' f : Unit → Prog Op Res ε β} {Q : Except ε β → S → Prop} (he : Q (.error e) s)
    (h : ¬ A → Agrees perform erase view G (f' ()) (f ()) Q s) :
    Agrees perform erase view G ((throwIf A e).bind f') ((throwIf A e).bind f) Q s := by
  unfold throwIf
  split_ifs with hA
  · refine ⟨congrArg (fun t => some (Except.error e, t)) (hview s), by simp [made], fun r t hr => ?_⟩
    obtain ⟨rfl, rfl⟩ := Prod.mk.inj (Option.some.inj hr)
    exact he
  · exact h hA

/-- A part that returns something and leaves the state as it is does not show. -/
theorem seen_bind {f : α → Prog Op Res ε β}
    (hf : ∀ a t, ∃ b, (f a).run perform t = some (.ok b, t)) (p : Prog Op Res ε α) (s : S) :
    ((p.bind f).run perform s).map (seen view) = (p.run perform s).map (seen view) := by
  rw [run_bind]
  cases p.run perform s with
  | none => rfl
  | some q =>
    obtain ⟨r, t⟩ := q
    cases r with
    | ok a =>
      obtain ⟨b, hb⟩ := hf a t
      show ((f a).run perform t).map (seen view) = _
      rw [hb]
      rfl
    | error e => rfl

theorem bind_quiet {p' : Prog Op Res ε α} {f' f : α → Prog Op Res ε β} {K : S → Prop}
    (h : Agrees perform erase view G p' p (fun _ => K) s)
    (hf' : ∀ a t, ∃ b, (f' a).run perform t = some (.ok b, t))
    (hf : ∀ a t, ∃ b, (f a).run perform t = some (.ok b, t)) (hcalls : ∀ a, (f a).CallsIn G) :
    Agrees perform erase view G (p'.bind f') (p.bind f) (fun _ => K) s := by
  refine ⟨?_, forall_made_bind h.calls fun a t _ => (hcalls a).made _ t,
    forall_run_bind (fun a t hr r u hu => ?_) fun e t hr => h.ends _ t hr⟩
  · rw [seen_bind hf', seen_bind hf]
    exact h.outcome
  · obtain ⟨b, hb⟩ := hf a t
    obtain ⟨-, rfl⟩ := Prod.mk.inj (Option.some.inj (hb.symm.trans hu))
    exact h.ends _ _ hr

/-- **Two runs.** From states with the same erasure a program comes to the same outcome as far as
`view` shows. -/
theorem two_runs {G' : Op → Prop} {Q Q' : Except ε α → S → Prop}
    (hs : Agrees perform erase view G p p Q s) (ht : Agrees perform erase view G' p p Q' t)
    (hst : erase s = erase t) :
    (p.run perform s).map (seen view) = (p.run perform t).map (seen view) := by
  rw [← hs.outcome, ← ht.outcome, hst]

end Agrees

/-! ## Blindness under an invariant -/

/-- A blind run that keeps `I`, also when it ends with an exception, and returns values in `P`
only. -/
def Yields (perform : (o : Op) → S → Option (Except ε (Res o) × S)) (erase : S → S)
    (G : Op → Prop) (I : S → Prop) (p : Prog Op Res ε α) (P : α → Prop) (s : S) : Prop :=
  Blind perform erase G p (post (fun a s => I s ∧ P a) fun _ => I) s

namespace Yields

variable {perform : (o : Op) → S → Option (Except ε (Res o) × S)} {erase : S → S} {G : Op → Prop}
  {I J : S → Prop} {p : Prog Op Res ε α} {P : α → Prop} {R : β → Prop} {s : S}

theorem pure {a : α} (hs : I s) (ha : P a) : Yields perform erase G I (.pure a) P s :=
  Blind.pure ⟨hs, ha⟩

theorem throw {e : ε} (hs : I s) : Yields perform erase G I (.throw e) P s := Blind.throw hs

theorem ofExcept {x : Except ε α} (hs : I s) (ha : ∀ a, x = .ok a → P a) :
    Yields perform erase G I (ofExcept x) P s := by
  cases x with
  | ok a => exact pure hs (ha a rfl)
  | error e => exact throw hs

theorem call {o : Op} {P : Res o → Prop} (hG : G o)
    (hcomm : perform o (erase s) = (perform o s).map fun q => (q.1, erase q.2))
    (h : ∀ r s', perform o s = some (r, s') → I s' ∧ ∀ a, r = .ok a → P a) :
    Yields perform erase G I (call o) P s := by
  refine Blind.call hG hcomm fun r s' hr => ?_
  obtain ⟨hs', hP⟩ := h r s' hr
  cases r with
  | ok a => exact ⟨hs', hP a rfl⟩
  | error e => exact hs'

/-- The rule of a sequence; the rest of the program may keep less. -/
theorem bind_into {f : α → Prog Op Res ε β} (h : Yields perform erase G I p P s)
    (hIJ : ∀ s, I s → J s) (hf : ∀ a s, I s → P a → Yields perform erase G J (f a) R s) :
    Yields perform erase G J (p.bind f) R s :=
  Blind.seq h (fun _ t ht => hIJ t ht) fun a t ht => hf a t ht.1 ht.2

theorem bind {f : α → Prog Op Res ε β} (h : Yields perform erase G I p P s)
    (hf : ∀ a s, I s → P a → Yields perform erase G I (f a) R s) :
    Yields perform erase G I (p.bind f) R s :=
  h.bind_into (fun _ hs => hs) hf

/-- A part of a program that only reads. -/
theorem bind_read {f : α → Prog Op Res ε β} (h : Yields perform erase G (· = s) p P s) (hs : I s)
    (hf : ∀ a, P a → Yields perform erase G I (f a) R s) :
    Yields perform erase G I (p.bind f) R s := by
  refine h.bind_into (fun t ht => ?_) fun a t ht ha => ?_
  · rw [ht]; exact hs
  · rw [ht]; exact hf a ha

theorem throwIf_bind {A : Prop} [Decidable A] {e : ε} {f : Unit → Prog Op Res ε β} (hs : I s)
    (h : ¬ A → Yields perform erase G I (f ()) R s) :
    Yields perform erase G I ((throwIf A e).bind f) R s := by
  unfold throwIf
  split_ifs with hA
  · exact throw hs
  · exact h hA

theorem catchWith {h : ε → Prog Op Res ε α} (hp : Yields perform erase G I p P s)
    (hh : ∀ e s, I s → Yields perform erase G I (h e) P s) :
    Yields perform erase G I (p.catchWith h) P s := by
  refine Blind.catchWith (Blind.mono hp fun r t hr => ?_)
  cases r with
  | ok a => exact hr
  | error e => exact hh e t hr

theorem weaken {P' : α → Prop} (h : Yields perform erase G I p P s) (hP : ∀ a, P a → P' a) :
    Yields perform erase G I p P' s := by
  refine Blind.mono h fun r t hr => ?_
  cases r with
  | ok a => exact ⟨hr.1, hP a hr.2⟩
  | error e => exact hr

theorem returns {P' : α → Prop} (h : Yields perform erase G I p P s)
    (hr : Returns perform p (fun a _ => P' a) s) :
    Yields perform erase G I p (fun a => P a ∧ P' a) s := by
  refine Blind.mono (Blind.returns h hr) fun r t ht => ?_
  cases r with
  | ok a => exact ⟨ht.1.1, ht.1.2, ht.2⟩
  | error e => exact ht

theorem forEach {xs : List γ} {body : β → γ → Prog Op Res ε β} {b : β}
    (hbody : ∀ x ∈ xs, ∀ b s, I s → R b → Yields perform erase G I (body b x) R s) (hs : I s)
    (hb : R b) : Yields perform erase G I (forEach xs b body) R s := by
  induction xs generalizing b s with
  | nil => exact pure hs hb
  | cons x xs ih =>
    refine bind (hbody x (by simp) b s hs hb) fun b' s' hs' hb' => ?_
    exact ih (fun y hy => hbody y (by simp [hy])) hs' hb'

end Yields

end Prog

end FlashSale
