/-!
Steps taken one after another. A step gives a result and the state after it; a run gives the results
of its steps and the state after the last one.
-/

set_option autoImplicit false

namespace SpeechService

variable {State Step Result : Type} (step : State → Step → Result × State)

def runSteps (state : State) : List Step → List Result × State
  | [] => ([], state)
  | taken :: later =>
    let (result, state) := step state taken
    let (results, state) := runSteps state later
    (result :: results, state)

variable (state : State)

theorem runSteps_cons (taken : Step) (later : List Step) :
    runSteps step state (taken :: later) =
      ((step state taken).1 :: (runSteps step (step state taken).2 later).1,
        (runSteps step (step state taken).2 later).2) := rfl

theorem runSteps_append (before after : List Step) :
    runSteps step state (before ++ after) =
      ((runSteps step state before).1 ++ (runSteps step (runSteps step state before).2 after).1,
        (runSteps step (runSteps step state before).2 after).2) := by
  induction before generalizing state with
  | nil => rfl
  | cons taken before ih => simp only [List.cons_append, runSteps_cons, ih]

theorem length_runSteps (steps : List Step) :
    (runSteps step state steps).1.length = steps.length := by
  induction steps generalizing state with
  | nil => rfl
  | cons taken steps ih => rw [runSteps_cons, List.length_cons, ih, List.length_cons]

theorem getElem?_runSteps (before : List Step) (taken : Step) (after : List Step) :
    (runSteps step state (before ++ taken :: after)).1[before.length]? =
      some (step (runSteps step state before).2 taken).1 := by
  have length := length_runSteps step state before
  rw [runSteps_append, ← length, List.getElem?_append_right (Nat.le_refl _), Nat.sub_self]
  rfl

/-- What holds of a state and is kept by every step holds after every run. -/
theorem runSteps_kept {holds : State → Prop}
    (kept : ∀ state taken, holds state → holds (step state taken).2) (steps : List Step)
    (start : holds state) : holds (runSteps step state steps).2 := by
  induction steps generalizing state with
  | nil => exact start
  | cons taken steps ih => exact ih _ (kept state taken start)

end SpeechService
