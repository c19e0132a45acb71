import Mathlib.Tactic

/-!
# Runs of a deterministic step

A system is a state, a type of events and a total step.  This file holds the
rules by which facts about one step become facts about whole runs: an
invariant kept by the permitted events, a simulation by a second system, and
the conditions on every step and on every state of a run.
-/

namespace StepRuns

variable {σ ε τ : Type*}

def run (step : σ → ε → σ) (state : σ) (events : List ε) : σ :=
  events.foldl step state

@[simp] theorem run_nil (step : σ → ε → σ) (state : σ) :
    run step state [] = state := rfl

@[simp] theorem run_cons (step : σ → ε → σ) (state : σ) (event : ε)
    (events : List ε) :
    run step state (event :: events) = run step (step state event) events :=
  rfl

theorem run_append (step : σ → ε → σ) (state : σ) (first later : List ε) :
    run step state (first ++ later) = run step (run step state first) later :=
  List.foldl_append

/-- A condition on every step of a run: on the event and the state it
meets. -/
def EveryStep (step : σ → ε → σ) (P : σ → ε → Prop) : σ → List ε → Prop
  | _, [] => True
  | state, event :: events =>
      P state event ∧ EveryStep step P (step state event) events

theorem everyStep_iff {step : σ → ε → σ} {P : σ → ε → Prop} {state : σ}
    {events : List ε} :
    EveryStep step P state events ↔
      ∀ before event after, events = before ++ event :: after →
        P (run step state before) event := by
  induction events generalizing state with
  | nil => simp [EveryStep]
  | cons first events ih =>
      simp only [EveryStep, ih]
      constructor
      · rintro ⟨hfirst, hrest⟩ before event after hsplit
        cases before with
        | nil =>
            simp only [List.nil_append, List.cons.injEq] at hsplit
            rw [← hsplit.1]
            exact hfirst
        | cons head before =>
            simp only [List.cons_append, List.cons.injEq] at hsplit
            rw [← hsplit.1, run_cons]
            exact hrest before event after hsplit.2
      · intro hall
        refine ⟨hall [] first events rfl, ?_⟩
        intro before event after hsplit
        exact hall (first :: before) event after (by rw [hsplit]; rfl)

theorem EveryStep.of_forall {step : σ → ε → σ} {P : σ → ε → Prop}
    (hP : ∀ state event, P state event) (state : σ) (events : List ε) :
    EveryStep step P state events :=
  everyStep_iff.mpr (fun _ _ _ _ => hP _ _)

theorem EveryStep.of_forall_mem {step : σ → ε → σ} {Q : ε → Prop}
    {events : List ε} (hQ : ∀ event ∈ events, Q event) (state : σ) :
    EveryStep step (fun _ event => Q event) state events := by
  refine everyStep_iff.mpr ?_
  intro before event after hsplit
  exact hQ event (by simp [hsplit])

theorem EveryStep.and {step : σ → ε → σ} {P Q : σ → ε → Prop} {state : σ}
    {events : List ε} (hP : EveryStep step P state events)
    (hQ : EveryStep step Q state events) :
    EveryStep step (fun s e => P s e ∧ Q s e) state events := by
  rw [everyStep_iff] at hP hQ ⊢
  intro before event after hsplit
  exact ⟨hP before event after hsplit, hQ before event after hsplit⟩

theorem everyStep_congr {step : σ → ε → σ} {P Q : σ → ε → Prop}
    (hPQ : ∀ state event, P state event ↔ Q state event) (state : σ)
    (events : List ε) :
    EveryStep step P state events ↔ EveryStep step Q state events := by
  simp only [everyStep_iff, hPQ]

/-- The invariant rule: what the initial state satisfies and every permitted
step keeps holds at the end of every run of permitted steps. -/
theorem run_invariant {step : σ → ε → σ} (Inv : σ → Prop)
    {Permitted : σ → ε → Prop}
    (hstep : ∀ state event, Inv state → Permitted state event →
      Inv (step state event))
    {state : σ} {events : List ε} (hinit : Inv state)
    (hpermitted : EveryStep step Permitted state events) :
    Inv (run step state events) := by
  induction events generalizing state with
  | nil => exact hinit
  | cons event events ih =>
      exact ih (hstep state event hinit hpermitted.1) hpermitted.2

/-- A condition on every state of a run, the first one included. -/
def EveryState (step : σ → ε → σ) (P : σ → Prop) : σ → List ε → Prop
  | state, [] => P state
  | state, event :: events =>
      P state ∧ EveryState step P (step state event) events

theorem everyState_iff {step : σ → ε → σ} {P : σ → Prop} {state : σ}
    {events : List ε} :
    EveryState step P state events ↔
      ∀ before after, events = before ++ after → P (run step state before) := by
  induction events generalizing state with
  | nil =>
      constructor
      · intro hstate before after hsplit
        have hbefore := (List.append_eq_nil_iff.mp hsplit.symm).1
        rw [hbefore]
        exact hstate
      · intro hall
        exact hall [] [] rfl
  | cons first events ih =>
      simp only [EveryState, ih]
      constructor
      · rintro ⟨hfirst, hrest⟩ before after hsplit
        cases before with
        | nil => exact hfirst
        | cons head before =>
            simp only [List.cons_append, List.cons.injEq] at hsplit
            rw [← hsplit.1, run_cons]
            exact hrest before after hsplit.2
      · intro hall
        refine ⟨hall [] (first :: events) rfl, ?_⟩
        intro before after hsplit
        exact hall (first :: before) after (by rw [hsplit]; rfl)

/-- The invariant rule for every state of a run. -/
theorem everyState_of_invariant {step : σ → ε → σ} {Inv : σ → Prop}
    {Permitted : σ → ε → Prop}
    (hstep : ∀ state event, Inv state → Permitted state event →
      Inv (step state event))
    {state : σ} {events : List ε} (hinit : Inv state)
    (hpermitted : EveryStep step Permitted state events) :
    EveryState step Inv state events := by
  induction events generalizing state with
  | nil => exact hinit
  | cons event events ih =>
      exact ⟨hinit,
        ih (hstep state event hinit hpermitted.1) hpermitted.2⟩

/-- If every condition on a step is also necessary for the next state, then
a run that stays good met it at every step. -/
theorem everyStep_of_everyState {step : σ → ε → σ} {Inv : σ → Prop}
    {Assumed Needed : σ → ε → Prop}
    (hstep : ∀ state event, Inv state → Assumed state event →
      Inv (step state event) → Needed state event)
    {state : σ} {events : List ε}
    (hassumed : EveryStep step Assumed state events)
    (hstates : EveryState step Inv state events) :
    EveryStep step Needed state events := by
  induction events generalizing state with
  | nil => trivial
  | cons event events ih =>
      have hnext : Inv (step state event) := by
        cases events with
        | nil => exact hstates.2
        | cons second events => exact hstates.2.1
      exact ⟨hstep state event hstates.1 hassumed.1 hnext,
        ih hassumed.2 hstates.2⟩

/-- If a condition on the steps keeps an invariant under which all is well,
and is met by every step to a state where all is well, then a run stays well
exactly if its steps meet the condition. -/
theorem everyState_iff_everyStep {step : σ → ε → σ} {Inv Good : σ → Prop}
    {P : σ → ε → Prop} (hgood : ∀ state, Inv state → Good state)
    (hkept : ∀ state event, Inv state → P state event → Inv (step state event))
    (hneeded : ∀ state event, Inv state → Good (step state event) →
      P state event)
    {state : σ} {events : List ε} (hinit : Inv state) :
    EveryState step Good state events ↔ EveryStep step P state events := by
  induction events generalizing state with
  | nil => exact iff_of_true (hgood state hinit) trivial
  | cons event events ih =>
      constructor
      · rintro ⟨_, hstates⟩
        have hnext : Good (step state event) := by
          cases events with
          | nil => exact hstates
          | cons second events => exact hstates.1
        have hmet := hneeded state event hinit hnext
        exact ⟨hmet, (ih (hkept state event hinit hmet)).mp hstates⟩
      · rintro ⟨hmet, hsteps⟩
        exact ⟨hgood state hinit,
          (ih (hkept state event hinit hmet)).mpr hsteps⟩

/-- The simulation rule: a relation kept by every permitted pair of steps
relates the ends of the two runs. -/
theorem run_simulates {step : σ → ε → σ} {specStep : τ → ε → τ}
    (Related : σ → τ → Prop) {Permitted : σ → ε → Prop}
    (hstep : ∀ state spec event, Related state spec →
      Permitted state event →
      Related (step state event) (specStep spec event))
    {state : σ} {spec : τ} {events : List ε} (hinit : Related state spec)
    (hpermitted : EveryStep step Permitted state events) :
    Related (run step state events) (run specStep spec events) := by
  induction events generalizing state spec with
  | nil => exact hinit
  | cons event events ih =>
      exact ih (hstep state spec event hinit hpermitted.1) hpermitted.2

/-- A run follows a second system at every point exactly if the steps of that
system meet the condition under which one step does. -/
theorem run_follows_iff {step : σ → ε → σ} {specStep : τ → ε → τ}
    {embed : τ → σ} {P : τ → ε → Prop}
    (hstep : ∀ spec event,
      step (embed spec) event = embed (specStep spec event) ↔ P spec event)
    {spec : τ} {events : List ε} :
    (∀ before after, events = before ++ after →
      run step (embed spec) before = embed (run specStep spec before)) ↔
      EveryStep specStep P spec events := by
  induction events generalizing spec with
  | nil =>
      refine iff_of_true ?_ trivial
      intro before after hsplit
      rw [(List.append_eq_nil_iff.mp hsplit.symm).1]
      rfl
  | cons event events ih =>
      rw [EveryStep, ← hstep, ← ih]
      constructor
      · intro hall
        have hfirst : step (embed spec) event =
            embed (specStep spec event) := hall [event] events rfl
        refine ⟨hfirst, ?_⟩
        intro before after hsplit
        rw [← hfirst]
        exact hall (event :: before) after (by rw [hsplit]; rfl)
      · rintro ⟨hfirst, hrest⟩ before after hsplit
        cases before with
        | nil => rfl
        | cons head before =>
            obtain ⟨hhead, htail⟩ := List.cons_eq_cons.mp hsplit
            rw [← hhead, run_cons, run_cons, hfirst]
            exact hrest before after htail

/-- A step that an interpretation turns into steps of a second system is
matched by them over whole runs. -/
theorem run_interpreted {φ : Type*} {step : σ → ε → σ} {specStep : τ → φ → τ}
    (abstraction : σ → τ) (interpret : ε → List φ)
    (hstep : ∀ state event, abstraction (step state event) =
      run specStep (abstraction state) (interpret event))
    (state : σ) (events : List ε) :
    abstraction (run step state events) =
      run specStep (abstraction state) (events.flatMap interpret) := by
  induction events generalizing state with
  | nil => rfl
  | cons event events ih =>
      rw [run_cons, ih, hstep, List.flatMap_cons, run_append]

end StepRuns
