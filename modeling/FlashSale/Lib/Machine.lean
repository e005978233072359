import Mathlib.Data.List.Induction

/-!
# Machines driven by events

`step s e` is the state after the event `e`, or `none` if the event cannot happen in `s`. A run is a
list of events that happen one after the other. What every step keeps holds in every state a run
reaches (`Machine.invariant`), and a relation that every step respects, such as the growth of a
log, relates the ends of a run (`Machine.respects`).
-/

namespace FlashSale

namespace Machine

variable {S E : Type}

def run (step : S → E → Option S) : S → List E → Option S
  | s, [] => some s
  | s, e :: es => (step s e).bind fun s' => run step s' es

variable {step : S → E → Option S} {s s' s'' : S}

theorem run_cons {e : E} {es : List E} (h : run step s (e :: es) = some s'') :
    ∃ s', step s e = some s' ∧ run step s' es = some s'' :=
  Option.bind_eq_some_iff.1 h

theorem run_append (es fs : List E) :
    run step s (es ++ fs) = (run step s es).bind fun s' => run step s' fs := by
  induction es generalizing s with
  | nil => rfl
  | cons e es ih =>
    show (step s e).bind _ = ((step s e).bind _).bind _
    cases step s e with
    | none => rfl
    | some s' => exact ih

theorem run_trans {es fs : List E} (h : run step s es = some s') (h' : run step s' fs = some s'') :
    run step s (es ++ fs) = some s'' := by
  rw [run_append, h]
  exact h'

theorem run_split {es fs : List E} (h : run step s (es ++ fs) = some s'') :
    ∃ s', run step s es = some s' ∧ run step s' fs = some s'' := by
  rw [run_append] at h
  exact Option.bind_eq_some_iff.1 h

/-- What every step keeps holds at the end of a run. -/
theorem invariant {I : S → Prop} (hI : ∀ s e s', I s → step s e = some s' → I s') {es : List E}
    (hs : I s) (h : run step s es = some s') : I s' := by
  induction es generalizing s with
  | nil =>
    obtain rfl := Option.some.inj h
    exact hs
  | cons e es ih =>
    obtain ⟨t, hstep, hrest⟩ := run_cons h
    exact ih (hI s e t hs hstep) hrest

/-- Every event of a run satisfies `P` in the state in which it happens. -/
def Along (step : S → E → Option S) (P : S → E → Prop) : S → List E → Prop
  | _, [] => True
  | s, e :: es => P s e ∧ ∀ s', step s e = some s' → Along step P s' es

theorem along_of_forall {P : S → E → Prop} {es : List E} (h : ∀ e ∈ es, ∀ s, P s e) :
    Along step P s es := by
  induction es generalizing s with
  | nil => trivial
  | cons e es ih =>
    exact ⟨h e List.mem_cons_self s, fun _ _ => ih fun e' he' => h e' (List.mem_cons_of_mem e he')⟩

/-- What the steps with `P` keep holds at the end of a run with `P` all along. -/
theorem invariant_along {I : S → Prop} {P : S → E → Prop}
    (hI : ∀ s e s', I s → P s e → step s e = some s' → I s') {es : List E}
    (hes : Along step P s es) (hs : I s) (h : run step s es = some s') : I s' := by
  induction es generalizing s with
  | nil =>
    obtain rfl := Option.some.inj h
    exact hs
  | cons e es ih =>
    obtain ⟨t, hstep, hrest⟩ := run_cons h
    exact ih (hes.2 t hstep) (hI s e t hs hes.1 hstep) hrest

/-- A preorder that relates the ends of every step relates the ends of a run. -/
theorem respects {I : S → Prop} {R : S → S → Prop}
    (hI : ∀ s e s', I s → step s e = some s' → I s') (hrefl : ∀ s, R s s)
    (htrans : ∀ s t u, R s t → R t u → R s u)
    (hR : ∀ s e s', I s → step s e = some s' → R s s') {es : List E} (hs : I s)
    (h : run step s es = some s') : R s s' := by
  induction es generalizing s with
  | nil =>
    obtain rfl := Option.some.inj h
    exact hrefl s
  | cons e es ih =>
    obtain ⟨t, hstep, hrest⟩ := run_cons h
    exact htrans s t s' (hR s e t hs hstep) (ih (hI s e t hs hstep) hrest)

/-- What holds of the empty run, and of a run with one more event if it held before, holds of every
run and the state it reaches. -/
theorem history {P : List E → S → Prop} (hnil : P [] s)
    (hsnoc : ∀ es t e t', run step s es = some t → P es t → step t e = some t' → P (es ++ [e]) t')
    {es : List E} (h : run step s es = some s') : P es s' := by
  induction es using List.reverseRecOn generalizing s' with
  | nil =>
    obtain rfl := Option.some.inj h
    exact hnil
  | append_singleton es e ih =>
    obtain ⟨t, hrun, hlast⟩ := run_split h
    obtain ⟨t', hstep, hend⟩ := run_cons hlast
    obtain rfl := Option.some.inj hend
    exact hsnoc es t e t' hrun (ih hrun) hstep

end Machine

end FlashSale
