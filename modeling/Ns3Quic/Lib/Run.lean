import Mathlib.Data.List.Infix

/-!
# Runs of a labelled transition relation

`Run step first actions last` says that performing `actions` one after the
other leads from `first` to `last`.  Actions are added at the end, so an
induction over a run peels off the most recent step: that is the shape of an
invariant argument.
-/

namespace TransitionSystem

universe u v w x

variable {State : Type u} {Action : Type v}

inductive Run (step : State → Action → State → Prop) (first : State) :
    List Action → State → Prop where
  | start : Run step first [] first
  | snoc {actions action middle last} :
      Run step first actions middle →
      step middle action last →
      Run step first (actions ++ [action]) last

namespace Run

variable {step : State → Action → State → Prop} {first last : State}
  {actions : List Action}

/-- A property of the first state which every step preserves holds at the end
of every run. -/
theorem invariant (property : State → Prop)
    (run : Run step first actions last)
    (initially : property first)
    (preserved : ∀ state action next,
      property state → step state action next → property next) :
    property last := by
  induction run with
  | start => exact initially
  | snoc earlier taken inductionHypothesis =>
      exact preserved _ _ _ inductionHypothesis taken

theorem cons {action : Action} {middle : State} (taken : step first action middle)
    (run : Run step middle actions last) :
    Run step first (action :: actions) last := by
  induction run with
  | start => exact .snoc .start taken
  | snoc earlier next inductionHypothesis => exact .snoc inductionHypothesis next

theorem append {middle : State} {later : List Action} (front : Run step first actions middle)
    (back : Run step middle later last) : Run step first (actions ++ later) last := by
  induction back with
  | start => simpa using front
  | snoc earlier taken inductionHypothesis =>
      rw [← List.append_assoc]
      exact .snoc inductionHypothesis taken

/-- A property that may depend on the actions so far, along a run whose actions
are the beginning of others. -/
theorem along (property : List Action → State → Prop) {whole : List Action}
    (run : Run step first actions last) (begun : actions <+: whole)
    (initially : property [] first)
    (preserved : ∀ before action state next, before ++ [action] <+: whole →
      property before state → step state action next → property (before ++ [action]) next) :
    property actions last := by
  induction run with
  | start => exact initially
  | snoc earlier taken inductionHypothesis =>
      have before := inductionHypothesis ((List.prefix_append _ _).trans begun)
      exact preserved _ _ _ _ begun before taken

theorem eq_of_nil (run : Run step first [] last) : last = first := by
  generalize nothing : ([] : List Action) = actions at run
  cases run with
  | start => rfl
  | snoc _ _ => simp at nothing

theorem eq_of_concat_prefix_singleton {before : List Action} {action only : Action}
    (front : before ++ [action] <+: [only]) : before = [] ∧ action = only := by
  obtain rfl : before = [] := by simpa using front.length_le
  obtain ⟨rest, same⟩ := front
  exact ⟨rfl, (List.cons.inj same).1⟩

/-- The beginning of a single step: nothing yet, or the step. -/
theorem of_prefix_singleton {action : Action} (run : Run step first actions last)
    (begun : actions <+: [action]) :
    actions = [] ∧ last = first ∨ actions = [action] ∧ step first action last := by
  cases run with
  | start => exact Or.inl ⟨rfl, rfl⟩
  | snoc earlier taken =>
      obtain ⟨rfl, rfl⟩ := eq_of_concat_prefix_singleton begun
      rw [earlier.eq_of_nil] at taken
      exact Or.inr ⟨rfl, taken⟩

end Run

/-- A stretch of a run that meets a condition on its first state and its
actions. -/
def Stretch (step : State → Action → State → Prop) (condition : State → List Action → Prop)
    (first : State) (actions : List Action) (last : State) : Prop :=
  condition first actions ∧ Run step first actions last

section Guarded

variable {Fault : Type w}

/-- Steps of a function that may fail, taken where `guard` allows them. -/
def Guarded (guard : State → Action → Prop)
    (perform : State → Action → Except Fault State) (state : State) (action : Action)
    (next : State) : Prop :=
  guard state action ∧ perform state action = .ok next

/-- The state after the actions, if all of them are allowed and succeed. -/
def execute (guard : State → Action → Prop) [∀ state action, Decidable (guard state action)]
    (perform : State → Action → Except Fault State) : List Action → State → Option State
  | [], state => some state
  | action :: rest, state =>
      if guard state action then
        match perform state action with
        | .error _ => none
        | .ok next => execute guard perform rest next
      else
        none

/-- A run can be established by executing it. -/
theorem Run.of_execute {guard : State → Action → Prop}
    [∀ state action, Decidable (guard state action)]
    {perform : State → Action → Except Fault State} (actions : List Action)
    {first last : State} (result : execute guard perform actions first = some last) :
    Run (Guarded guard perform) first actions last := by
  induction actions generalizing first with
  | nil =>
      rw [show last = first by simpa [execute] using result.symm]
      exact .start
  | cons action rest inductionHypothesis =>
      simp only [execute] at result
      split at result
      next allowed =>
        split at result
        next => cases result
        next next performed => exact .cons ⟨allowed, performed⟩ (inductionHypothesis result)
      next => cases result

end Guarded

section Recording

variable {Fault : Type w} {History : Type x}

/-- A component with a history beside it, which every step extends. -/
def recording (perform : State → Action → Except Fault State)
    (record : State → Action → History → History) (both : State × History) (action : Action) :
    Except Fault (State × History) :=
  (perform both.1 action).map fun next => (next, record both.1 action both.2)

theorem recording_eq_ok {perform : State → Action → Except Fault State}
    {record : State → Action → History → History} {both next : State × History}
    {action : Action} :
    recording perform record both action = .ok next ↔
      perform both.1 action = .ok next.1 ∧ next.2 = record both.1 action both.2 := by
  unfold recording
  cases perform both.1 action with
  | error fault => simp [Except.map]
  | ok state =>
      simp only [Except.map, Except.ok.injEq]
      constructor
      · rintro rfl
        exact ⟨rfl, rfl⟩
      · rintro ⟨sameState, sameHistory⟩
        exact Prod.ext sameState sameHistory.symm

theorem Run.recording_iff {guard : State → Action → Prop}
    {perform : State → Action → Except Fault State}
    (record : State → Action → History → History) (nothing : History)
    {first last : State} {actions : List Action} :
    Run (Guarded guard perform) first actions last ↔
      ∃ history, Run (Guarded (fun both => guard both.1) (recording perform record))
        (first, nothing) actions (last, history) := by
  constructor
  · intro run
    induction run with
    | start => exact ⟨nothing, .start⟩
    | snoc earlier taken inductionHypothesis =>
        obtain ⟨history, recorded⟩ := inductionHypothesis
        exact ⟨_, .snoc recorded ⟨taken.1, recording_eq_ok.mpr ⟨taken.2, rfl⟩⟩⟩
  · rintro ⟨history, recorded⟩
    generalize shape : (last, history) = both at recorded
    induction recorded generalizing last history with
    | start =>
        obtain ⟨rfl, _⟩ := Prod.mk.inj shape
        exact .start
    | @snoc earlierActions action middle after earlier taken inductionHypothesis =>
        have before := @inductionHypothesis middle.1 middle.2 rfl
        refine .snoc before ⟨taken.1, ?_⟩
        rw [(recording_eq_ok.mp taken.2).1, ← shape]

/-- What every step preserves of the state and its history holds in every run. -/
theorem Run.recording_invariant {guard : State → Action → Prop}
    {perform : State → Action → Except Fault State}
    {record : State → Action → History → History} (invariant : State → History → Prop)
    {nothing : History} {first last : State} {actions : List Action}
    (run : Run (Guarded guard perform) first actions last) (initially : invariant first nothing)
    (preserved : ∀ state history action next, invariant state history →
      Guarded guard perform state action next → invariant next (record state action history)) :
    ∃ history, Run (Guarded (fun both => guard both.1) (recording perform record))
      (first, nothing) actions (last, history) ∧ invariant last history := by
  obtain ⟨history, recorded⟩ := (Run.recording_iff record nothing).mp run
  refine ⟨history, recorded,
    recorded.invariant (fun both => invariant both.1 both.2) initially ?_⟩
  intro both action after holds step
  obtain ⟨performed, extended⟩ := recording_eq_ok.mp step.2
  rw [extended]
  exact preserved _ _ _ _ holds ⟨step.1, performed⟩

theorem foldlM_recording {perform : State → Action → Except Fault State}
    (record : State → Action → History → History) (nothing : History) {first last : State}
    {actions : List Action} (result : actions.foldlM perform first = .ok last) :
    ∃ history,
      actions.foldlM (recording perform record) (first, nothing) = .ok (last, history) := by
  induction actions generalizing first nothing with
  | nil =>
      rw [show last = first from (Except.ok.inj result).symm]
      exact ⟨nothing, rfl⟩
  | cons action rest inductionHypothesis =>
      rw [List.foldlM_cons] at result
      cases performed : perform first action with
      | error fault =>
          rw [performed] at result
          cases result
      | ok next =>
          rw [performed] at result
          obtain ⟨history, later⟩ := inductionHypothesis (record first action nothing) result
          refine ⟨history, ?_⟩
          rw [List.foldlM_cons, recording, performed]
          exact later

end Recording

section Prefixes

/-- If a step from a good state leads to a good state exactly under a condition,
then all states are good exactly if all steps meet the condition. -/
theorem forall_prefix_iff {next : State → Action → State} {first : State}
    {actions : List Action} {good : State → Prop} {condition : State → Action → Prop}
    (initially : good first)
    (step_iff : ∀ before action, before ++ [action] <+: actions →
      good (before.foldl next first) →
      (good (next (before.foldl next first) action) ↔
        condition (before.foldl next first) action)) :
    (∀ before, before <+: actions → good (before.foldl next first)) ↔
      ∀ before action, before ++ [action] <+: actions →
        condition (before.foldl next first) action := by
  constructor
  · intro allGood before action front
    have now := allGood before ((List.prefix_append before [action]).trans front)
    have later := allGood (before ++ [action]) front
    rw [List.foldl_append] at later
    exact (step_iff before action front now).mp later
  · intro allMeet before
    induction before using List.reverseRecOn with
    | nil => exact fun _ => initially
    | append_singleton before action inductionHypothesis =>
        intro front
        have now := inductionHypothesis ((List.prefix_append before [action]).trans front)
        rw [List.foldl_append]
        exact (step_iff before action front now).mpr (allMeet before action front)

theorem eq_take_of_prefix_concat {before actions : List Action} {action : Action}
    (front : before ++ [action] <+: actions) :
    before = actions.take before.length ∧ actions[before.length]? = some action := by
  obtain ⟨rest, rfl⟩ := front
  simp

end Prefixes

section Calls

variable {Answer : Type w}

/-- The calls of a deterministic component one after the other, with their
answers. -/
def performAll (perform : State → Action → State × Answer) :
    State → List Action → State × List Answer
  | state, [] => (state, [])
  | state, call :: rest =>
      let (state, answer) := perform state call
      let (state, answers) := performAll perform state rest
      (state, answer :: answers)

end Calls

end TransitionSystem
