import Mathlib.Data.List.Induction

/-! Machines whose actions carry every choice of the environment. A run is a
list of actions, so all interleavings of a system are all lists of actions, and
a property of every reachable state is a property of every run. -/
namespace TinyChat.Transition

universe u v

/-- A labelled transition system; an action that is not enabled has no step. -/
structure Machine (State : Type u) (Action : Type v) where
  step : State → Action → Option State

namespace Machine

variable {State : Type u} {Action : Type v} (machine : Machine State Action)

/-- Take the actions in order; the run is blocked when one of them is not enabled. -/
def run (start : State) : List Action → Option State
  | [] => some start
  | action :: rest => (machine.step start action).bind fun next => run next rest

@[simp] theorem run_nil (start : State) : machine.run start [] = some start := rfl

@[simp] theorem run_cons (start : State) (action : Action) (rest : List Action) :
    machine.run start (action :: rest) =
      (machine.step start action).bind fun next => machine.run next rest := rfl

theorem run_append (start : State) (first second : List Action) :
    machine.run start (first ++ second) =
      (machine.run start first).bind fun middle => machine.run middle second := by
  induction first generalizing start with
  | nil => rfl
  | cons action rest ih =>
    cases taken : machine.step start action with
    | none => simp [taken]
    | some next => simp [taken, ih]

variable {machine}

theorem run_trans {start middle final : State} {first second : List Action}
    (before : machine.run start first = some middle)
    (after : machine.run middle second = some final) :
    machine.run start (first ++ second) = some final := by
  rw [run_append, before]
  exact after

theorem run_snoc_iff {start final : State} {past : List Action} {action : Action} :
    machine.run start (past ++ [action]) = some final ↔
      ∃ state, machine.run start past = some state ∧ machine.step state action = some final := by
  rw [run_append]
  cases machine.run start past with
  | none => simp
  | some state => cases taken : machine.step state action <;> simp [taken]

/-- Induction along a run, with the actions taken so far as its history. -/
theorem run_induction {motive : List Action → State → Prop} {start final : State}
    {actions : List Action} (ran : machine.run start actions = some final)
    (initial : motive [] start)
    (stepwise : ∀ past state action next, machine.run start past = some state →
      motive past state → machine.step state action = some next →
      motive (past ++ [action]) next) : motive actions final := by
  induction actions using List.reverseRecOn generalizing final with
  | nil =>
    cases ran
    exact initial
  | append_singleton past action ih =>
    obtain ⟨state, before, taken⟩ := run_snoc_iff.mp ran
    exact stepwise past state action final before (ih before) taken

/-- What holds at the start and is kept by every step holds in every state reached. -/
theorem invariant {motive : State → Prop} {start final : State} {actions : List Action}
    (ran : machine.run start actions = some final) (initial : motive start)
    (preserved : ∀ state action next, motive state → machine.step state action = some next →
      motive next) : motive final :=
  run_induction (motive := fun _ state => motive state) ran initial
    fun _ state action next _ held taken => preserved state action next held taken

/-- The machine that takes only the allowed actions. -/
def restrict (machine : Machine State Action) (allowed : Action → Prop) [DecidablePred allowed] :
    Machine State Action where
  step state action := if allowed action then machine.step state action else none

theorem restrict_step_iff {allowed : Action → Prop} [DecidablePred allowed] {state next : State}
    {action : Action} : (machine.restrict allowed).step state action = some next ↔
      allowed action ∧ machine.step state action = some next := by
  by_cases may : allowed action <;> simp [restrict, may]

section Conditions

variable (machine)

/-- Every state the run passes through is good, given the actions that led to it. -/
def Throughout (good : List Action → State → Prop) (start : State) (actions : List Action) : Prop :=
  ∀ past rest state, past ++ rest = actions → machine.run start past = some state →
    good past state

/-- Every action of the run meets the condition in the state it is taken from. -/
def Allowed (condition : List Action → State → Action → Prop) (start : State)
    (actions : List Action) : Prop :=
  ∀ past action rest state, past ++ action :: rest = actions →
    machine.run start past = some state → condition past state action

variable {machine}
variable {good : List Action → State → Prop} {condition : List Action → State → Action → Prop}
variable {start final : State} {actions past : List Action} {action : Action}

theorem allowed_nil : machine.Allowed condition start [] := by
  intro past action rest state split _
  simp at split

theorem allowed_of_append {rest : List Action}
    (allowed : machine.Allowed condition start (past ++ rest)) :
    machine.Allowed condition start past := by
  intro earlier action later state split reached
  exact allowed earlier action (later ++ rest) state (by rw [← split]; simp) reached

theorem allowed_snoc_iff : machine.Allowed condition start (past ++ [action]) ↔
    machine.Allowed condition start past ∧
      ∀ state, machine.run start past = some state → condition past state action := by
  constructor
  · intro allowed
    exact ⟨allowed_of_append allowed, fun state reached => allowed past action [] state rfl reached⟩
  · intro ⟨before, last⟩ earlier other later state split reached
    rcases List.eq_nil_or_concat later with empty | ⟨front, back, same⟩
    · subst empty
      obtain ⟨samePast, sameAction⟩ := List.append_inj' split rfl
      cases samePast
      cases sameAction
      exact last state reached
    · rw [same, List.concat_eq_append, ← List.cons_append, ← List.append_assoc] at split
      exact before earlier other front state (List.append_inj' split rfl).1 reached

/-- A condition that every step meets is met by every run. -/
theorem allowed_of_steps (ran : machine.run start actions = some final)
    (met : ∀ past state action next, machine.step state action = some next →
      condition past state action) : machine.Allowed condition start actions := by
  refine run_induction (motive := fun past _ => machine.Allowed condition start past) ran
    allowed_nil ?_
  intro past state action next reached before taken
  refine allowed_snoc_iff.mpr ⟨before, fun current there => ?_⟩
  obtain rfl : state = current := Option.some.inj (reached.symm.trans there)
  exact met past state action next taken

/-- Induction along a run whose actions all meet the condition. -/
theorem run_induction_allowed {motive : List Action → State → Prop}
    (ran : machine.run start actions = some final)
    (allowed : machine.Allowed condition start actions) (initial : motive [] start)
    (stepwise : ∀ past state action next, machine.run start past = some state →
      motive past state → condition past state action →
      machine.step state action = some next → motive (past ++ [action]) next) :
    motive actions final := by
  refine run_induction
    (motive := fun past state => machine.Allowed condition start past → motive past state)
    ran (fun _ => initial) ?_ allowed
  intro past state action next reached held taken along
  obtain ⟨before, last⟩ := allowed_snoc_iff.mp along
  exact stepwise past state action next reached (held before) (last state reached) taken

/-- When a good state steps to a good one exactly if the step meets the condition,
the whole run is good exactly if all its steps meet it. -/
theorem throughout_iff_allowed (ran : machine.run start actions = some final)
    (initial : good [] start)
    (stepwise : ∀ past state action next, machine.run start past = some state →
      good past state → machine.step state action = some next →
      (good (past ++ [action]) next ↔ condition past state action)) :
    machine.Throughout good start actions ↔ machine.Allowed condition start actions := by
  constructor
  · intro holds past action rest state split reached
    obtain ⟨middle, before, after⟩ : ∃ middle, machine.run start past = some middle ∧
        machine.run middle (action :: rest) = some final := by
      rw [← split, run_append, reached] at ran
      exact ⟨state, reached, ran⟩
    have same : middle = state := Option.some.inj (before.symm.trans reached)
    subst same
    cases taken : machine.step middle action with
    | none => simp [taken] at after
    | some next =>
      have atNext := holds (past ++ [action]) rest next (by simp [split])
        (run_snoc_iff.mpr ⟨middle, reached, taken⟩)
      have atState := holds past (action :: rest) middle split reached
      exact (stepwise past middle action next reached atState taken).mp atNext
  · intro allowed past rest state split reached
    subst split
    refine run_induction_allowed (motive := good) reached (allowed_of_append allowed) initial ?_
    intro earlier current action next before held met taken
    exact (stepwise earlier current action next before held taken).mpr met

theorem throughout_congr {other : List Action → State → Prop}
    (same : ∀ past state, machine.run start past = some state → (good past state ↔ other past state)) :
    machine.Throughout good start actions ↔ machine.Throughout other start actions := by
  constructor
  · exact fun holds past rest state split reached =>
      (same past state reached).mp (holds past rest state split reached)
  · exact fun holds past rest state split reached =>
      (same past state reached).mpr (holds past rest state split reached)

/-- Two conditions that agree on every step of the run hold along it together. -/
theorem allowed_iff_of_steps {first second : List Action → State → Action → Prop}
    (ran : machine.run start actions = some final)
    (agree : ∀ past action rest state next, past ++ action :: rest = actions →
      machine.run start past = some state → machine.step state action = some next →
      (first past state action ↔ second past state action)) :
    machine.Allowed first start actions ↔ machine.Allowed second start actions := by
  have along (past : List Action) (action : Action) (rest : List Action) (state : State)
      (split : past ++ action :: rest = actions) (reached : machine.run start past = some state) :
      first past state action ↔ second past state action := by
    rw [← split, run_append, reached, Option.bind_some, run_cons] at ran
    obtain ⟨next, taken, _⟩ := Option.bind_eq_some_iff.mp ran
    exact agree past action rest state next split reached taken
  constructor
  · exact fun allowed past action rest state split reached =>
      (along past action rest state split reached).mp (allowed past action rest state split reached)
  · exact fun allowed past action rest state split reached =>
      (along past action rest state split reached).mpr (allowed past action rest state split reached)

/-- A condition on the actions alone is met by a run exactly if all its actions meet it. -/
theorem allowed_iff_forall_mem {holds : Action → Prop}
    (ran : machine.run start actions = some final) :
    machine.Allowed (fun _ _ action => holds action) start actions ↔
      ∀ action ∈ actions, holds action := by
  constructor
  · intro allowed action member
    obtain ⟨past, rest, split⟩ := List.append_of_mem member
    rw [split, run_append] at ran
    obtain ⟨state, reached, _⟩ := Option.bind_eq_some_iff.mp ran
    exact allowed past action rest state split.symm reached
  · intro all past action rest state split _
    exact all action (split ▸ List.mem_append_right past List.mem_cons_self)

/-- Two conditions that agree wherever the second has been met so far hold along
the same runs. -/
theorem allowed_congr {first second : List Action → State → Action → Prop}
    {motive : List Action → State → Prop} (ran : machine.run start actions = some final)
    (initial : motive [] start)
    (agree : ∀ past state action next, motive past state →
      machine.step state action = some next →
      (first past state action ↔ second past state action))
    (preserved : ∀ past state action next, motive past state → second past state action →
      machine.step state action = some next → motive (past ++ [action]) next) :
    machine.Allowed first start actions ↔ machine.Allowed second start actions := by
  have reaches {past : List Action} {state : State}
      (reached : machine.run start past = some state)
      (allowed : machine.Allowed second start past) : motive past state :=
    run_induction_allowed reached allowed initial
      fun earlier current action next _ held met taken =>
        preserved earlier current action next held met taken
  refine run_induction
    (motive := fun past _ => machine.Allowed first start past ↔ machine.Allowed second start past)
    ran (by simp only [allowed_nil]) ?_
  intro past state action next reached same taken
  rw [allowed_snoc_iff, allowed_snoc_iff, same]
  refine and_congr_right fun allowed => forall_congr' fun current => imp_congr_right fun there => ?_
  have identical : state = current := Option.some.inj (reached.symm.trans there)
  subst identical
  exact agree past state action next (reaches there allowed) taken

end Conditions

section Accounts

variable (machine)

/-- The total cost of the steps of a run. -/
def spent (cost : State → Action → Nat) (start : State) : List Action → Nat
  | [] => 0
  | action :: rest => cost start action +
      ((machine.step start action).elim 0 fun next => spent cost next rest)

variable {machine}
variable {cost : State → Action → Nat}

/-- Conservation: what every step takes out of the stock is what it spends. -/
theorem spent_balance {stock : State → Nat} {start final : State} {actions : List Action}
    (stepwise : ∀ past state action next, machine.run start past = some state →
      machine.step state action = some next → stock next + cost state action = stock state)
    (ran : machine.run start actions = some final) :
    stock final + machine.spent cost start actions = stock start := by
  induction actions generalizing start with
  | nil =>
    cases ran
    simp [spent]
  | cons action rest ih =>
    cases taken : machine.step start action with
    | none => simp [taken] at ran
    | some next =>
      have later := @ih next
        (fun past state other after reached => stepwise (action :: past) state other after
          (by simp [taken, reached]))
        (by simpa [taken] using ran)
      have first := stepwise [] start action next rfl taken
      simp only [spent, taken, Option.elim_some]
      omega

theorem spent_eq_zero_iff {start final : State} {actions : List Action}
    (ran : machine.run start actions = some final) :
    machine.spent cost start actions = 0 ↔
      machine.Allowed (fun _ state action => cost state action = 0) start actions := by
  induction actions generalizing start with
  | nil => simp [spent, allowed_nil]
  | cons action rest ih =>
    cases taken : machine.step start action with
    | none => simp [taken] at ran
    | some next =>
      have later := @ih next (by simpa [taken] using ran)
      simp only [spent, taken, Option.elim_some, Nat.add_eq_zero_iff, later]
      constructor
      · intro ⟨free, along⟩ past other after state split reached
        cases past with
        | nil =>
          cases split
          cases reached
          exact free
        | cons head tail =>
          cases split
          exact along tail other after state rfl (by simpa [taken] using reached)
      · intro along
        refine ⟨along [] action rest start rfl rfl, ?_⟩
        intro past other after state split reached
        exact along (action :: past) other after state (by simp [split]) (by simp [taken, reached])

end Accounts

section Halting

variable (machine)

/-- No action is enabled. -/
def Halted (state : State) : Prop := ∀ action, machine.step state action = none

variable {machine}

/-- A machine whose every step shrinks a measure can be run until it halts. -/
theorem exists_halted {size : State → Nat}
    (shrinks : ∀ state action next, machine.step state action = some next →
      size next < size state) (start : State) :
    ∃ actions final, machine.run start actions = some final ∧ machine.Halted final := by
  induction bound : size start using Nat.strongRecOn generalizing start with
  | _ bound ih =>
    by_cases halted : machine.Halted start
    · exact ⟨[], start, rfl, halted⟩
    · obtain ⟨action, enabled⟩ := not_forall.mp halted
      obtain ⟨next, taken⟩ := Option.ne_none_iff_exists'.mp enabled
      subst bound
      obtain ⟨actions, final, ran, done⟩ := ih (size next) (shrinks start action next taken) next rfl
      exact ⟨action :: actions, final, by simp [taken, ran], done⟩

end Halting

end Machine

end TinyChat.Transition
