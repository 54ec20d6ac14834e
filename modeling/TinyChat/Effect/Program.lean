import Mathlib.Logic.Basic

/-! Programs as trees of calls to their environment. A call is answered by a result
or by an exception, and every answer has its continuation, so that one program can be
run against any environment. A contract says which calls are permitted, which answers
they may get and what these do to a state; its rules compute what holds on every path. -/
namespace TinyChat.Effect

universe u v w x y

/-- How a program ends. -/
inductive Outcome (α : Type w) where
  | returned (value : α)
  | raised (what : String)
  /-- An exception left a destructor, which ends the process. -/
  | terminated
  /-- The language gives the execution no meaning. -/
  | undefined
  deriving DecidableEq

inductive Program (Op : Type u) (Result : Op → Type v) (α : Type w) where
  | done (outcome : Outcome α)
  | call (op : Op) (next : Except String (Result op) → Program Op Result α)

namespace Program

variable {Op : Type u} {Result : Op → Type v} {α β : Type w}

/-- Go on from the outcome of a program, whichever it is. -/
def andThen (program : Program Op Result α) (next : Outcome α → Program Op Result β) :
    Program Op Result β :=
  match program with
  | .done outcome => next outcome
  | .call op rest => .call op fun answer => (rest answer).andThen next

/-- Throw an exception. -/
def raise (what : String) : Program Op Result α := .done (.raised what)

def undefined : Program Op Result α := .done .undefined

/-- What a sequence does after its first part. -/
@[simp] def onReturn (next : α → Program Op Result β) : Outcome α → Program Op Result β
  | .returned value => next value
  | .raised what => .done (.raised what)
  | .terminated => .done .terminated
  | .undefined => .done .undefined

instance : Monad (Program Op Result) where
  pure value := .done (.returned value)
  bind program next := program.andThen (onReturn next)

/-- The end of a call: an answer that is an exception is thrown at the caller. -/
def ofExcept : Except String α → Program Op Result α
  | .ok value => .done (.returned value)
  | .error what => raise what

def perform (op : Op) : Program Op Result (Result op) := .call op ofExcept

/-- What `catch (const std::exception& e)` does with an outcome. -/
@[simp] def onRaise (handler : String → Program Op Result α) : Outcome α → Program Op Result α
  | .raised what => handler what
  | .returned value => .done (.returned value)
  | .terminated => .done .terminated
  | .undefined => .done .undefined

def tryCatch (program : Program Op Result α) (handler : String → Program Op Result α) :
    Program Op Result α :=
  program.andThen (onRaise handler)

/-- The end of a destructor that runs because a scope is left with the outcome. -/
@[simp] def onDestroyed (left : Outcome α) : Outcome PUnit → Program Op Result α
  | .returned _ => .done left
  | .raised _ => .done .terminated
  | .terminated => .done .terminated
  | .undefined => .done .undefined

/-- What leaving a scope does with an outcome. -/
@[simp] def onLeave (destructor : Program Op Result PUnit) : Outcome α → Program Op Result α
  | .returned value => destructor.andThen (onDestroyed (.returned value))
  | .raised what => destructor.andThen (onDestroyed (.raised what))
  | .terminated => .done .terminated
  | .undefined => .done .undefined

/-- A scope that owns an object with the destructor. -/
def withDestructor (destructor : Program Op Result PUnit) (program : Program Op Result α) :
    Program Op Result α :=
  program.andThen (onLeave destructor)

end Program

/-- What the environment is asked and what it answers, with a state in between. -/
structure Contract (Op : Type u) (Result : Op → Type v) (State : Type x) where
  permitted : State → Op → Prop
  expected : State → (op : Op) → Except String (Result op) → State → Prop

/-- The same answers with every call permitted. -/
def Contract.unguarded {Op : Type u} {Result : Op → Type v} {State : Type x}
    (contract : Contract Op Result State) : Contract Op Result State where
  permitted _ _ := True
  expected := contract.expected

/-- The same contract with a record of the answers. -/
def Contract.recording {Op : Type u} {Result : Op → Type v} {State : Type x} {Ghost : Type y}
    (contract : Contract Op Result State)
    (record : State → (op : Op) → Except String (Result op) → Ghost → Ghost) :
    Contract Op Result (State × Ghost) where
  permitted known := contract.permitted known.1
  expected known op answer later :=
    contract.expected known.1 op answer later.1 ∧ later.2 = record known.1 op answer known.2

namespace Program

variable {Op : Type u} {Result : Op → Type v} {α β : Type w} {State : Type x}

/-- From the state on, every call on every path is permitted and every path ends with
the postcondition, whichever of the expected answers the calls get. -/
def Meets (contract : Contract Op Result State) (post : State → Outcome α → Prop) :
    Program Op Result α → State → Prop
  | .done outcome, state => post state outcome
  | .call op next, state => contract.permitted state op ∧
      ∀ answer after, contract.expected state op answer after → (next answer).Meets contract post after

section Rules

variable {contract : Contract Op Result State} {program : Program Op Result α} {state : State}

@[simp] theorem meets_done {post : State → Outcome α → Prop} {outcome : Outcome α} :
    (done outcome : Program Op Result α).Meets contract post state ↔ post state outcome := Iff.rfl

@[simp] theorem meets_call {post : State → Outcome α → Prop} {op : Op}
    {next : Except String (Result op) → Program Op Result α} :
    (call op next).Meets contract post state ↔ contract.permitted state op ∧
      ∀ answer after, contract.expected state op answer after →
        (next answer).Meets contract post after := Iff.rfl

theorem meets_andThen {next : Outcome α → Program Op Result β} {post : State → Outcome β → Prop} :
    (program.andThen next).Meets contract post state ↔
      program.Meets contract (fun after outcome => (next outcome).Meets contract post after)
        state := by
  induction program generalizing state with
  | done outcome => rfl
  | call op rest ih =>
    exact and_congr_right fun _ => forall_congr' fun answer => forall_congr' fun after =>
      imp_congr_right fun _ => ih answer

theorem Meets.mono {post later : State → Outcome α → Prop}
    (meets : program.Meets contract post state)
    (weaker : ∀ after outcome, post after outcome → later after outcome) :
    program.Meets contract later state := by
  induction program generalizing state with
  | done outcome => exact weaker state outcome meets
  | call op rest ih =>
    exact ⟨meets.1, fun answer after due => ih answer (meets.2 answer after due)⟩

@[simp] theorem meets_pure {post : State → Outcome α → Prop} {value : α} :
    (pure value : Program Op Result α).Meets contract post state ↔ post state (.returned value) :=
  Iff.rfl

@[simp] theorem meets_raise {post : State → Outcome α → Prop} {what : String} :
    (raise what : Program Op Result α).Meets contract post state ↔ post state (.raised what) :=
  Iff.rfl

@[simp] theorem meets_undefined {post : State → Outcome α → Prop} :
    (undefined : Program Op Result α).Meets contract post state ↔ post state .undefined := Iff.rfl

@[simp] theorem meets_onDestroyed {destructor : Program Op Result PUnit} {left : Outcome α}
    {post : State → Outcome α → Prop} :
    (destructor.andThen (onDestroyed left)).Meets contract post state ↔
      destructor.Meets contract (fun after outcome =>
        (onDestroyed left outcome : Program Op Result α).Meets contract post after) state :=
  meets_andThen

@[simp] theorem meets_bind {next : α → Program Op Result β} {post : State → Outcome β → Prop} :
    (program >>= next).Meets contract post state ↔
      program.Meets contract (fun after outcome =>
        (onReturn next outcome).Meets contract post after) state := meets_andThen

@[simp] theorem meets_map {value : α → β} {post : State → Outcome β → Prop} :
    (value <$> program).Meets contract post state ↔
      program.Meets contract (fun after outcome =>
        (onReturn (fun result => pure (value result)) outcome : Program Op Result β).Meets contract
          post after) state := meets_andThen

@[simp] theorem meets_tryCatch {handler : String → Program Op Result α}
    {post : State → Outcome α → Prop} :
    (program.tryCatch handler).Meets contract post state ↔
      program.Meets contract (fun after outcome =>
        (onRaise handler outcome).Meets contract post after) state := meets_andThen

@[simp] theorem meets_withDestructor {destructor : Program Op Result PUnit}
    {post : State → Outcome α → Prop} :
    (withDestructor destructor program).Meets contract post state ↔
      program.Meets contract (fun after outcome =>
        (onLeave destructor outcome).Meets contract post after) state := meets_andThen

@[simp] theorem meets_ofExcept {computed : Except String α} {post : State → Outcome α → Prop} :
    (ofExcept computed : Program Op Result α).Meets contract post state ↔
      (∀ value, computed = .ok value → post state (.returned value)) ∧
        ∀ what, computed = .error what → post state (.raised what) := by
  cases computed <;> simp [ofExcept]

@[simp] theorem meets_perform {op : Op} {post : State → Outcome (Result op) → Prop} :
    (perform op : Program Op Result (Result op)).Meets contract post state ↔
      contract.permitted state op ∧
        (∀ result after, contract.expected state op (.ok result) after →
          post after (.returned result)) ∧
        ∀ what after, contract.expected state op (.error what) after →
          post after (.raised what) := by
  refine and_congr_right fun _ => ⟨fun holds => ⟨?_, ?_⟩, fun holds answer after due => ?_⟩
  · exact fun result after due => holds (.ok result) after due
  · exact fun what after due => holds (.error what) after due
  · cases answer with
    | ok result => exact holds.1 result after due
    | error what => exact holds.2 what after due

theorem meets_call_then {Result : Op → Type w} {contract : Contract Op Result State} {op : Op}
    {next : Result op → Program Op Result β} {post : State → Outcome β → Prop} (permitted : contract.permitted state op)
    (returns : ∀ result after, contract.expected state op (.ok result) after →
      (next result).Meets contract post after)
    (throws : ∀ what after, contract.expected state op (.error what) after →
      post after (.raised what)) :
    (perform op >>= next).Meets contract post state :=
  meets_bind.mpr (meets_perform.mpr ⟨permitted, returns, throws⟩)

theorem meets_ofExcept_then {computed : Except String α} {next : α → Program Op Result β}
    {post : State → Outcome β → Prop}
    (returns : ∀ value, computed = .ok value → (next value).Meets contract post state)
    (throws : ∀ what, computed = .error what → post state (.raised what)) :
    (ofExcept computed >>= next).Meets contract post state :=
  meets_bind.mpr (meets_ofExcept.mpr ⟨returns, throws⟩)

theorem Meets.computed {computed : Except String α} {next : α → Program Op Result β}
    {post : State → Outcome β → Prop} {value : α}
    (meets : (ofExcept computed >>= next).Meets contract post state) (same : computed = .ok value) :
    (next value).Meets contract post state :=
  (meets_ofExcept.mp (meets_bind.mp meets)).1 value same

theorem Meets.returned {Result : Op → Type w} {contract : Contract Op Result State} {op : Op}
    {next : Result op → Program Op Result β} {post : State → Outcome β → Prop}
    (meets : (perform op >>= next).Meets contract post state) (result : Result op) (after : State)
    (due : contract.expected state op (.ok result) after) : (next result).Meets contract post after :=
  (meets_perform.mp (meets_bind.mp meets)).2.1 result after due

theorem meets_ite {condition : Prop} [Decidable condition] {other : Program Op Result α}
    {post : State → Outcome α → Prop} (yes : condition → program.Meets contract post state)
    (no : ¬ condition → other.Meets contract post state) :
    (if condition then program else other).Meets contract post state := by
  split
  · exact yes ‹_›
  · exact no ‹_›

/-- What every permitted call keeps holds at the end. -/
theorem Meets.keeps {kept : State → Prop} {post : State → Outcome α → Prop}
    (meets : program.Meets contract post state) (holds : kept state)
    (step : ∀ {before op answer after}, kept before → contract.permitted before op →
      contract.expected before op answer after → kept after) :
    program.Meets contract (fun after outcome => post after outcome ∧ kept after) state := by
  induction program generalizing state with
  | done outcome => exact ⟨meets, holds⟩
  | call op rest ih =>
    refine ⟨meets.1, fun answer after due => ?_⟩
    exact ih answer (meets.2 answer after due) (step holds meets.1 due)

/-- A program that meets a contract meets one that permits more and expects less. -/
theorem Meets.relax {looser : Contract Op Result State} {post : State → Outcome α → Prop}
    (meets : program.Meets contract post state)
    (permits : ∀ state op, contract.permitted state op → looser.permitted state op)
    (expects : ∀ state op answer after, looser.expected state op answer after →
      contract.expected state op answer after) : program.Meets looser post state := by
  induction program generalizing state with
  | done outcome => exact meets
  | call op rest ih =>
    refine ⟨permits state op meets.1, fun answer after due => ?_⟩
    exact ih answer (meets.2 answer after (expects state op answer after due))

end Rules

section Recording

variable {Ghost : Type y} {contract other : Contract Op Result State} {program : Program Op Result α}
variable {first second : State → Outcome α → Prop} {state : State}

/-- Two properties of the same paths. -/
theorem Meets.and (meets : program.Meets contract first state)
    (also : program.Meets other second state) (same : other.expected = contract.expected) :
    program.Meets contract (fun after outcome => first after outcome ∧ second after outcome) state := by
  induction program generalizing state with
  | done outcome => exact ⟨meets, also⟩
  | call op rest ih =>
    refine ⟨meets.1, fun answer after due => ?_⟩
    exact ih answer (meets.2 answer after due) (also.2 answer after (same ▸ due))

/-- A record of the answers does not bear on what they are. -/
theorem Meets.recording {record : State → (op : Op) → Except String (Result op) → Ghost → Ghost}
    {ghost : Ghost} (meets : program.Meets contract first state) :
    program.Meets (contract.recording record) (fun known outcome => first known.1 outcome)
      (state, ghost) := by
  induction program generalizing state ghost with
  | done outcome => exact meets
  | call op rest ih =>
    refine ⟨meets.1, fun answer after due => ?_⟩
    exact ih answer (meets.2 answer after.1 due.1)

end Recording

/-- Run the program against an environment that answers by its state. -/
def run (serve : State → (op : Op) → Except String (Result op) × State) :
    Program Op Result α → State → Outcome α × State
  | .done outcome, state => (outcome, state)
  | .call op next, state => (next (serve state op).1).run serve (serve state op).2

end Program

variable {Op : Type u} {Result : Op → Type v} {α β : Type w} {State : Type x}

/-- The answers of an environment, as a contract. -/
def Contract.ofServe (serve : State → (op : Op) → Except String (Result op) × State) :
    Contract Op Result State where
  permitted _ _ := True
  expected state op answer after := serve state op = (answer, after)

/-- The one path of a run has the properties that the rules compute. -/
theorem Program.meets_ofServe_iff
    {serve : State → (op : Op) → Except String (Result op) × State}
    {program : Program Op Result α} {post : State → Outcome α → Prop} {state : State} :
    program.Meets (.ofServe serve) post state ↔
      post (program.run serve state).2 (program.run serve state).1 := by
  induction program generalizing state with
  | done outcome => rfl
  | call op next ih =>
    constructor
    · exact fun meets => (ih _).mp (meets.2 _ _ rfl)
    · intro holds
      refine ⟨trivial, fun answer after served => ?_⟩
      have same : serve state op = (answer, after) := served
      simp only [run, same] at holds
      exact (ih answer).mpr holds

/-- A regular end: by a return or, where that is allowed, by an exception. -/
@[simp] def Outcome.Within (mayRaise : Bool) : Outcome α → Prop
  | .returned _ => True
  | .raised _ => mayRaise = true
  | .terminated => False
  | .undefined => False

namespace Program

/-- From every state the program comes to a regular end. -/
def Ends (contract : Contract Op Result State) (mayRaise : Bool) (program : Program Op Result α) :
    Prop :=
  ∀ state, program.Meets contract (fun _ outcome => outcome.Within mayRaise) state

section Ending

variable {contract : Contract Op Result State} {program : Program Op Result α} {mayRaise : Bool}

theorem ends_pure {value : α} : (pure value : Program Op Result α).Ends contract mayRaise :=
  fun _ => trivial

theorem ends_raise {what : String} : (raise what : Program Op Result α).Ends contract true :=
  fun _ => rfl

theorem ends_ofExcept {computed : Except String α} :
    (ofExcept computed : Program Op Result α).Ends contract true := by
  intro state
  cases computed <;> simp [ofExcept, raise]

theorem ends_ofExcept_ok {computed : Except String α} {value : α} (same : computed = .ok value) :
    (ofExcept computed : Program Op Result α).Ends contract mayRaise := by
  subst same
  exact fun _ => trivial

theorem ends_perform {op : Op} (permitted : ∀ state, contract.permitted state op)
    (answers : mayRaise = false → ∀ state what after,
      ¬ contract.expected state op (.error what) after) :
    (perform op : Program Op Result (Result op)).Ends contract mayRaise := by
  intro state
  simp only [meets_perform, permitted, true_and]
  refine ⟨fun _ _ _ => trivial, fun what after due => ?_⟩
  cases mayRaise with
  | false => exact absurd due (answers rfl state what after)
  | true => rfl

theorem ends_bind {next : α → Program Op Result β} (first : program.Ends contract mayRaise)
    (rest : ∀ value, (next value).Ends contract mayRaise) :
    (program >>= next).Ends contract mayRaise := by
  intro state
  refine meets_bind.mpr ((first state).mono fun after outcome within => ?_)
  cases outcome with
  | returned value => exact rest value after
  | raised what => exact within
  | terminated => exact within
  | undefined => exact within

/-- A `try` block only has to end regularly when its handler deals with exceptions. -/
theorem ends_tryCatch {handler : String → Program Op Result α} (body : program.Ends contract true)
    (handled : ∀ what, (handler what).Ends contract mayRaise) :
    (program.tryCatch handler).Ends contract mayRaise := by
  intro state
  refine meets_tryCatch.mpr ((body state).mono fun after outcome within => ?_)
  cases outcome with
  | returned value => trivial
  | raised what => exact handled what after
  | terminated => exact within
  | undefined => exact within

/-- No handler mends an irregular end. -/
theorem ends_of_tryCatch {handler : String → Program Op Result α}
    (ends : (program.tryCatch handler).Ends contract mayRaise) : program.Ends contract true := by
  intro state
  refine (meets_tryCatch.mp (ends state)).mono fun after outcome within => ?_
  cases outcome with
  | returned value => trivial
  | raised what => rfl
  | terminated => exact within
  | undefined => exact within

private theorem ends_onDestroyed {destructor : Program Op Result PUnit} (left : Outcome α)
    (quiet : destructor.Ends contract false) (within : left.Within mayRaise) :
    (destructor.andThen (onDestroyed left)).Ends contract mayRaise := by
  intro state
  refine meets_onDestroyed.mpr ((quiet state).mono fun after outcome gone => ?_)
  cases outcome with
  | returned => exact within
  | raised what => exact absurd gone (by simp)
  | terminated => exact gone
  | undefined => exact gone

theorem ends_withDestructor {destructor : Program Op Result PUnit}
    (quiet : destructor.Ends contract false) (body : program.Ends contract mayRaise) :
    (withDestructor destructor program).Ends contract mayRaise := by
  intro state
  refine meets_withDestructor.mpr ((body state).mono fun after outcome within => ?_)
  cases outcome with
  | returned value => exact ends_onDestroyed (.returned value) quiet within after
  | raised what => exact ends_onDestroyed (.raised what) quiet within after
  | terminated => exact within
  | undefined => exact within

theorem ends_of_withDestructor {destructor : Program Op Result PUnit}
    (ends : (withDestructor destructor program).Ends contract mayRaise) :
    program.Ends contract true := by
  intro state
  refine (meets_withDestructor.mp (ends state)).mono fun after outcome within => ?_
  cases outcome with
  | returned value => trivial
  | raised what => rfl
  | terminated => exact within
  | undefined => exact within

end Ending

/-- From every state the program makes only permitted calls, however it ends. -/
def Obeys (contract : Contract Op Result State) (program : Program Op Result α) : Prop :=
  ∀ state, program.Meets contract (fun _ _ => True) state

section Obeying

variable {contract : Contract Op Result State} {program : Program Op Result α}

theorem obeys_done {outcome : Outcome α} : (done outcome : Program Op Result α).Obeys contract :=
  fun _ => trivial

theorem obeys_ofExcept {computed : Except String α} :
    (ofExcept computed : Program Op Result α).Obeys contract := by
  cases computed <;> exact obeys_done

theorem obeys_perform {op : Op} (permitted : ∀ state, contract.permitted state op) :
    (perform op : Program Op Result (Result op)).Obeys contract :=
  fun state => meets_perform.mpr ⟨permitted state, fun _ _ _ => trivial, fun _ _ _ => trivial⟩

theorem obeys_andThen {next : Outcome α → Program Op Result β} (first : program.Obeys contract)
    (rest : ∀ outcome, (next outcome).Obeys contract) : (program.andThen next).Obeys contract :=
  fun state => meets_andThen.mpr ((first state).mono fun after outcome _ => rest outcome after)

/-- Only the first part depends on the state it starts from. -/
theorem meets_andThen_obeys {next : Outcome α → Program Op Result β} {state : State}
    (first : program.Meets contract (fun _ _ => True) state)
    (rest : ∀ outcome, (next outcome).Obeys contract) :
    (program.andThen next).Meets contract (fun _ _ => True) state :=
  meets_andThen.mpr (first.mono fun after outcome _ => rest outcome after)

theorem obeys_bind {next : α → Program Op Result β} (first : program.Obeys contract)
    (rest : ∀ value, (next value).Obeys contract) : (program >>= next).Obeys contract := by
  refine obeys_andThen first fun outcome => ?_
  cases outcome with
  | returned value => exact rest value
  | raised what => exact obeys_done
  | terminated => exact obeys_done
  | undefined => exact obeys_done

theorem obeys_call_then {Result : Op → Type w} {contract : Contract Op Result State} {op : Op}
    {next : Result op → Program Op Result β} (permitted : ∀ state, contract.permitted state op)
    (rest : ∀ state result after, contract.expected state op (.ok result) after →
      (next result).Obeys contract) : (perform op >>= next).Obeys contract :=
  fun state => meets_call_then (permitted state)
    (fun result after due => rest state result after due after) fun _ _ _ => trivial

theorem obeys_map {value : α → β} (obeys : program.Obeys contract) :
    (value <$> program).Obeys contract := obeys_bind obeys fun _ => obeys_done

theorem obeys_onRaise {handler : String → Program Op Result α}
    (handled : ∀ what, (handler what).Obeys contract) (outcome : Outcome α) :
    (onRaise handler outcome).Obeys contract := by
  cases outcome with
  | raised what => exact handled what
  | returned value => exact obeys_done
  | terminated => exact obeys_done
  | undefined => exact obeys_done

theorem obeys_tryCatch {handler : String → Program Op Result α} (body : program.Obeys contract)
    (handled : ∀ what, (handler what).Obeys contract) :
    (program.tryCatch handler).Obeys contract :=
  obeys_andThen body (obeys_onRaise handled)

theorem obeys_onLeave {destructor : Program Op Result PUnit} (destroys : destructor.Obeys contract)
    (outcome : Outcome α) : (onLeave destructor outcome).Obeys contract := by
  have leaves (left : Outcome α) : (destructor.andThen (onDestroyed left) : Program Op Result α).Obeys
      contract := by
    refine obeys_andThen destroys fun outcome => ?_
    cases outcome <;> exact obeys_done
  cases outcome with
  | returned value => exact leaves _
  | raised what => exact leaves _
  | terminated => exact obeys_done
  | undefined => exact obeys_done

theorem obeys_withDestructor {destructor : Program Op Result PUnit}
    (destroys : destructor.Obeys contract) (body : program.Obeys contract) :
    (withDestructor destructor program).Obeys contract :=
  obeys_andThen body (obeys_onLeave destroys)

end Obeying

end Program

end TinyChat.Effect
