import Mathlib.Logic.Function.Basic

/-!
# Interleavings of commuting deterministic components

A system of components, each of which has at most one next step in a given
state. When steps of different components commute, the order in which a
scheduler picks them is immaterial: one halting schedule forces every other
schedule to halt in the same state after the same number of steps.
-/

namespace Spmd

variable {ι σ : Type} {step : ι → σ → Option σ}

/-- Steps taken by different components can be exchanged. -/
def Commutes (step : ι → σ → Option σ) : Prop :=
  ∀ first second state left right, first ≠ second →
    step first state = some left → step second state = some right →
    ∃ join, step second left = some join ∧ step first right = some join

/-- A run of the given number of steps, under some schedule. -/
inductive Run (step : ι → σ → Option σ) : Nat → σ → σ → Prop
  | refl (state : σ) : Run step 0 state state
  | head {length : Nat} {component : ι} {start next finish : σ} :
      step component start = some next →
      Run step length next finish →
      Run step (length + 1) start finish

/-- Some schedule leads from one state to the other. -/
def Reaches (step : ι → σ → Option σ) (start finish : σ) : Prop :=
  ∃ length, Run step length start finish

/-- No component has a step. -/
def Halted (step : ι → σ → Option σ) (state : σ) : Prop :=
  ∀ component, step component state = none

namespace Run

/-- Runs compose, and their lengths add up. -/
theorem trans
    {firstLength secondLength : Nat}
    {start middle finish : σ}
    (first : Run step firstLength start middle)
    (second : Run step secondLength middle finish) :
    Run step (firstLength + secondLength) start finish := by
  induction first with
  | refl state => simpa using second
  | @head length component start next middle taken _ inductionHypothesis =>
      have rest := inductionHypothesis second
      rw [Nat.add_right_comm]
      exact .head taken rest

/-- A single step is a run. -/
theorem single
    {component : ι}
    {start finish : σ}
    (taken : step component start = some finish) :
    Run step 1 start finish :=
  .head taken (.refl finish)

/-- A halting run can be rearranged to begin with any step that is enabled at
its start. -/
theorem reorder
    (commutes : Commutes step)
    {component : ι}
    {length : Nat}
    {start next finish : σ}
    (taken : step component start = some next)
    (run : Run step length start finish)
    (halted : Halted step finish) :
    ∃ rest, length = rest + 1 ∧ Run step rest next finish := by
  induction run generalizing next with
  | refl state =>
      rw [halted component] at taken
      contradiction
  | @head length other start middle finish otherTaken rest inductionHypothesis =>
      refine ⟨length, rfl, ?_⟩
      by_cases same : component = other
      · subst same
        rw [otherTaken] at taken
        cases taken
        exact rest
      · obtain ⟨join, afterNext, afterMiddle⟩ :=
          commutes component other start next middle same taken otherTaken
        obtain ⟨tailLength, lengthEquality, tail⟩ :=
          inductionHypothesis afterMiddle halted
        rw [lengthEquality]
        exact .head afterNext tail

/-- Every run from the start of a halting run is no longer than it and extends
to a run of the same length with the same final state. -/
theorem complete
    (commutes : Commutes step)
    {length partialLength : Nat}
    {start state finish : σ}
    (run : Run step length start finish)
    (halted : Halted step finish)
    (other : Run step partialLength start state) :
    ∃ rest, length = partialLength + rest ∧ Run step rest state finish := by
  induction other generalizing length with
  | refl state => exact ⟨length, by simp, run⟩
  | @head partialLength component start next state taken _ inductionHypothesis =>
      obtain ⟨tailLength, lengthEquality, tail⟩ := run.reorder commutes taken halted
      obtain ⟨rest, tailEquality, finishRun⟩ := inductionHypothesis tail
      exact ⟨rest, by omega, finishRun⟩

end Run

namespace Reaches

/-- Every state reaches itself. -/
theorem refl (state : σ) : Reaches step state state :=
  ⟨0, .refl state⟩

/-- Reachability composes. -/
theorem trans
    {start middle finish : σ}
    (first : Reaches step start middle)
    (second : Reaches step middle finish) :
    Reaches step start finish := by
  obtain ⟨firstLength, firstRun⟩ := first
  obtain ⟨secondLength, secondRun⟩ := second
  exact ⟨_, firstRun.trans secondRun⟩

/-- A single step reaches its result. -/
theorem single
    {component : ι}
    {start finish : σ}
    (taken : step component start = some finish) :
    Reaches step start finish :=
  ⟨1, .single taken⟩

/-- A relation that is reflexive and transitive and holds across every step
holds across every run. -/
theorem lift
    (related : σ → σ → Prop)
    (reflexive : ∀ state, related state state)
    (transitive : ∀ first second third,
      related first second → related second third → related first third)
    (across : ∀ component start next,
      step component start = some next → related start next)
    {start finish : σ}
    (reaches : Reaches step start finish) :
    related start finish := by
  obtain ⟨length, run⟩ := reaches
  induction run with
  | refl state => exact reflexive state
  | head taken _ inductionHypothesis =>
      exact transitive _ _ _ (across _ _ _ taken) inductionHypothesis

/-- What holds at the start and is kept by every step holds in every state that is
reached. -/
theorem invariant
    {holds : σ → Prop}
    {start finish : σ}
    (reaches : Reaches step start finish)
    (initially : holds start)
    (kept : ∀ component state next,
      holds state → step component state = some next → holds next) :
    holds finish := by
  refine lift (fun earlier later => holds earlier → holds later) (fun _ => id)
    (fun _ _ _ first second => second ∘ first) ?_ reaches initially
  exact fun component state next taken before => kept component state next before taken

/-- A step that is enabled at the start of a run can be taken after the run, unless
the run has taken it. -/
theorem strip
    (commutes : Commutes step)
    {component : ι}
    {start next finish : σ}
    (taken : step component start = some next)
    (reaches : Reaches step start finish) :
    ∃ join, Reaches step next join ∧ Reaches step finish join := by
  obtain ⟨length, run⟩ := reaches
  induction run generalizing next with
  | refl state => exact ⟨next, .refl next, .single taken⟩
  | @head length other start middle finish otherTaken rest inductionHypothesis =>
      by_cases same : component = other
      · subst same
        rw [otherTaken] at taken
        cases taken
        exact ⟨finish, ⟨length, rest⟩, .refl finish⟩
      · obtain ⟨corner, afterNext, afterMiddle⟩ :=
          commutes component other start next middle same taken otherTaken
        obtain ⟨join, fromCorner, fromFinish⟩ := inductionHypothesis afterMiddle
        exact ⟨join, (single afterNext).trans fromCorner, fromFinish⟩

/-- Two runs from the same state can be continued to a common state. -/
theorem join
    (commutes : Commutes step)
    {start left right : σ}
    (first : Reaches step start left)
    (second : Reaches step start right) :
    ∃ join, Reaches step left join ∧ Reaches step right join := by
  obtain ⟨length, run⟩ := first
  induction run generalizing right with
  | refl state => exact ⟨right, second, .refl right⟩
  | @head length component start next left taken rest inductionHypothesis =>
      obtain ⟨corner, fromNext, fromRight⟩ := second.strip commutes taken
      obtain ⟨join, fromLeft, fromCorner⟩ := inductionHypothesis fromNext
      exact ⟨join, fromLeft, fromRight.trans fromCorner⟩

end Reaches

end Spmd
