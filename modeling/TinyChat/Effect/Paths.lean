import TinyChat.Effect.Program

namespace TinyChat.Effect

universe u v w x y

variable {Op : Type u} {Result : Op → Type v} {α : Type w} {State : Type x}
variable {contract looser : Contract Op Result State} {program : Program Op Result α}
variable {state after : State} {outcome : Outcome α}

/-- With expected answers the program comes from the state to its outcome in another. -/
inductive Program.Path (contract : Contract Op Result State) :
    Program Op Result α → State → State → Outcome α → Prop where
  | done {outcome : Outcome α} {state : State} : Path contract (.done outcome) state state outcome
  | call {op : Op} {next : Except String (Result op) → Program Op Result α}
      {answer : Except String (Result op)} {state middle after : State} {outcome : Outcome α}
      (expected : contract.expected state op answer middle)
      (rest : Path contract (next answer) middle after outcome) :
      Path contract (.call op next) state after outcome

namespace Program

/-- What the rules compute is true of every path. -/
theorem Meets.path {post : State → Outcome α → Prop} (meets : program.Meets contract post state)
    (path : program.Path contract state after outcome) : post after outcome := by
  induction path with
  | done => exact meets
  | call expected rest ih => exact ih (meets.2 _ _ expected)

/-- A path that ends well is one of another contract, if each of its calls is when it ends well
and what has gone wrong never comes right again. -/
theorem Path.transfer {Other : Type y} {other : Contract Op Result Other} {view : State → Other}
    {good : State → Prop}
    (back : ∀ {before op answer later}, contract.expected before op answer later → good later →
      good before)
    (same : ∀ {before op answer later}, contract.expected before op answer later → good later →
      other.expected (view before) op answer (view later))
    (path : program.Path contract state after outcome) (well : good after) :
    good state ∧ program.Path other (view state) (view after) outcome := by
  induction path with
  | done => exact ⟨well, .done⟩
  | call expected rest ih =>
    obtain ⟨middle, along⟩ := ih well
    exact ⟨back expected middle, .call (same expected middle) along⟩

/-- The run against an environment whose answers are expected is a path. -/
theorem path_run {serve : State → (op : Op) → Except String (Result op) × State}
    (answers : ∀ state op, contract.expected state op (serve state op).1 (serve state op).2) :
    program.Path contract state (program.run serve state).2 (program.run serve state).1 := by
  induction program generalizing state with
  | done outcome => exact .done
  | call op next ih => exact .call (answers state op) (ih _)

end Program

end TinyChat.Effect
