import FlashSale.Lib.Prog

/-!
# Routines of one event loop

A routine reads and writes the memory of its process and waits. Between two waits it runs alone:
`Routine.advance` runs it to its next wait in one step of the process.

`Routine.Keeps J` says that no write of the routine, wherever it stands, takes the process out of `J`.
The memory can have changed in any way when a wait ends, so what a routine knows of it is what it has
read since.
-/

namespace FlashSale

/-- What a routine does next: write the memory of the process, after a look at it, or wait. -/
inductive Act (S W : Type) where
  | write (f : S → S)
  | wait (w : W)

/-- A write answers with the memory before it. -/
def Act.Res {S W : Type} (Answer : W → Type) : Act S W → Type
  | .write _ => S
  | .wait w => Answer w

abbrev Routine (S W : Type) (Answer : W → Type) (ε α : Type) : Type :=
  Prog (Act S W) (Act.Res Answer) ε α

namespace Routine

variable {S W : Type} {Answer : W → Type} {ε α β : Type}

/-- The memory now. -/
def read : Routine S W Answer ε S := Prog.call (Act.write id)

def modify (f : S → S) : Routine S W Answer ε Unit :=
  (Prog.call (Act.write f)).bind fun _ => .pure ()

def await (w : W) : Routine S W Answer ε (Answer w) := Prog.call (Act.wait w)

/-- The outcome of a routine, whether it returns or throws. -/
def attempt (p : Routine S W Answer ε α) : Routine S W Answer ε (Except ε α) :=
  (p.bind fun a => .pure (.ok a)).catchWith fun e => .pure (.error e)

/-- The routine at its next wait, and the memory then. -/
def advance : Routine S W Answer ε α → S → Routine S W Answer ε α × S
  | .pure a, s => (.pure a, s)
  | .throw e, s => (.throw e, s)
  | .op (.write f) k, s => advance (k (.ok s)) (f s)
  | .op (.wait w) k, s => (.op (.wait w) k, s)

/-- A wait of the routine ends with the answer for it. -/
def resume (p : Routine S W Answer ε α) (answer : (w : W) → Except ε (Answer w)) (s : S) :
    Routine S W Answer ε α × S :=
  match p with
  | .op (.wait w) k => advance (k (answer w)) s
  | p => (p, s)

/-! ## What a routine keeps -/

/-- No write of the routine leaves `J`, and `Q` holds of its outcome and the memory at its end. -/
def Keeps (J : S → Prop) : Routine S W Answer ε α → (Except ε α → S → Prop) → S → Prop
  | .pure a, Q, s => Q (.ok a) s
  | .throw e, Q, s => Q (.error e) s
  | .op (.write f) k, Q, s => (J s → J (f s)) ∧ Keeps J (k (.ok s)) Q (f s)
  | .op (.wait _) k, Q, _ => ∀ r s, Keeps J (k r) Q s

section

variable {J : S → Prop} {p : Routine S W Answer ε α} {Q Q' : Except ε α → S → Prop} {s : S}

theorem keeps_mono (h : p.Keeps J Q s) (hQ : ∀ r s, Q r s → Q' r s) : p.Keeps J Q' s := by
  induction p generalizing s with
  | pure a => exact hQ _ _ h
  | throw e => exact hQ _ _ h
  | op o k ih =>
    cases o with
    | write f => exact ⟨h.1, ih _ h.2⟩
    | wait w => exact fun r s' => ih r (h r s')

theorem keeps_bind {f : α → Routine S W Answer ε β} {Q : Except ε β → S → Prop}
    (h : p.Keeps J (fun r s => match r with
      | .ok a => (f a).Keeps J Q s
      | .error e => Q (.error e) s) s) : Keeps J (p.bind f) Q s := by
  induction p generalizing s with
  | pure a => exact h
  | throw e => exact h
  | op o k ih =>
    cases o with
    | write g => exact ⟨h.1, ih _ h.2⟩
    | wait w => exact fun r s' => ih r (h r s')

theorem keeps_catchWith {f : ε → Routine S W Answer ε α}
    (h : p.Keeps J (fun r s => match r with
      | .ok a => Q (.ok a) s
      | .error e => (f e).Keeps J Q s) s) : Keeps J (p.catchWith f) Q s := by
  induction p generalizing s with
  | pure a => exact h
  | throw e => exact h
  | op o k ih =>
    cases o with
    | write g => exact ⟨h.1, ih _ h.2⟩
    | wait w => exact fun r s' => ih r (h r s')

theorem keeps_read {Q : Except ε S → S → Prop} (h : Q (.ok s) s) :
    (read : Routine S W Answer ε S).Keeps J Q s := ⟨id, h⟩

theorem keeps_modify {f : S → S} {Q : Except ε Unit → S → Prop} (hJ : J s → J (f s))
    (h : Q (.ok ()) (f s)) : (modify f : Routine S W Answer ε Unit).Keeps J Q s := ⟨hJ, h⟩

/-- Nothing is known of the memory after a wait. -/
theorem keeps_await {w : W} {Q : Except ε (Answer w) → S → Prop} (h : ∀ r s, Q r s) :
    (await w : Routine S W Answer ε (Answer w)).Keeps J Q s := by
  intro r s'
  cases r with
  | ok a => exact h (.ok a) s'
  | error e => exact h (.error e) s'

theorem keeps_attempt {Q : Except ε (Except ε α) → S → Prop}
    (h : p.Keeps J (fun r s => Q (.ok r) s) s) : Keeps J (attempt p) Q s := by
  refine keeps_catchWith (keeps_bind (keeps_mono h ?_))
  intro r s' hr
  cases r with
  | ok a => exact hr
  | error e => exact hr

/-! ### Routines that keep `J` from everywhere -/

/-- The routine keeps `J` whatever the memory is when it starts. -/
def KeepsAll (J : S → Prop) (p : Routine S W Answer ε α) : Prop := ∀ s, p.Keeps J (fun _ _ => True) s

theorem KeepsAll.pure (a : α) : KeepsAll J (Prog.pure a : Routine S W Answer ε α) := fun _ => trivial

theorem KeepsAll.throw (e : ε) : KeepsAll J (Prog.throw e : Routine S W Answer ε α) := fun _ => trivial

theorem KeepsAll.bind (hp : KeepsAll J p) {f : α → Routine S W Answer ε β}
    (hf : ∀ a, KeepsAll J (f a)) : KeepsAll J (Prog.bind p f) := by
  intro s
  refine keeps_bind (keeps_mono (hp s) ?_)
  intro r s' _
  cases r with
  | ok a => exact hf a s'
  | error e => trivial

theorem KeepsAll.catchWith (hp : KeepsAll J p) {f : ε → Routine S W Answer ε α}
    (hf : ∀ e, KeepsAll J (f e)) : KeepsAll J (Prog.catchWith p f) := by
  intro s
  refine keeps_catchWith (keeps_mono (hp s) ?_)
  intro r s' _
  cases r with
  | ok a => trivial
  | error e => exact hf e s'

theorem KeepsAll.attempt (hp : KeepsAll J p) : KeepsAll J (Routine.attempt p) :=
  fun s => keeps_attempt (keeps_mono (hp s) fun _ _ _ => trivial)

theorem KeepsAll.await (w : W) : KeepsAll J (Routine.await w : Routine S W Answer ε (Answer w)) :=
  fun _ => keeps_await fun _ _ => trivial

theorem KeepsAll.read : KeepsAll J (Routine.read : Routine S W Answer ε S) :=
  fun _ => keeps_read trivial

theorem KeepsAll.modify {f : S → S} (h : ∀ s, J s → J (f s)) :
    KeepsAll J (Routine.modify f : Routine S W Answer ε Unit) :=
  fun s => keeps_modify (h s) trivial

/-- Up to its next wait the routine stays in `J`, and the rest of it keeps `J` too. -/
theorem Keeps.advance (h : p.Keeps J (fun _ _ => True) s) :
    (J s → J (p.advance s).2) ∧ KeepsAll J (p.advance s).1 := by
  induction p generalizing s with
  | pure a => exact ⟨id, KeepsAll.pure a⟩
  | throw e => exact ⟨id, KeepsAll.throw e⟩
  | op o k ih =>
    cases o with
    | write f =>
      obtain ⟨hJ, hk⟩ := ih _ h.2
      exact ⟨fun hs => hJ (h.1 hs), hk⟩
    | wait w => exact ⟨id, fun _ => h⟩

theorem KeepsAll.resume (h : KeepsAll J p) (answer : (w : W) → Except ε (Answer w)) (s : S) :
    (J s → J (p.resume answer s).2) ∧ KeepsAll J (p.resume answer s).1 := by
  cases p with
  | pure a => exact ⟨id, h⟩
  | throw e => exact ⟨id, h⟩
  | op o k =>
    cases o with
    | write f => exact ⟨id, h⟩
    | wait w => exact Keeps.advance (h s (answer w) s)

end

end Routine

end FlashSale
