import TinyChat.Effect.Interleaving

namespace TinyChat.Effect

open TinyChat.Transition

universe u v w x y z

/-- The same answers with fewer calls permitted. -/
def Contract.narrow {Op : Type u} {Result : Op → Type v} {State : Type x}
    (contract : Contract Op Result State) (also : State → Op → Prop) : Contract Op Result State where
  permitted state op := contract.permitted state op ∧ also state op
  expected := contract.expected

section Narrowing

variable {Op : Type u} {Result : Op → Type v} {α : Type w} {State : Type x}
variable {contract : Contract Op Result State} {also : State → Op → Prop}
variable {program : Program Op Result α} {first second : State → Outcome α → Prop} {state : State}

/-- A program whose calls are permitted for two reasons meets both. -/
theorem Program.Meets.narrow (meets : program.Meets contract first state)
    (more : program.Meets (contract.unguarded.narrow also) second state) :
    program.Meets (contract.narrow also)
      (fun after outcome => first after outcome ∧ second after outcome) state := by
  induction program generalizing state with
  | done outcome => exact ⟨meets, more⟩
  | call op rest ih =>
    refine ⟨⟨meets.1, more.1.2⟩, fun answer after due => ?_⟩
    exact ih answer (meets.2 answer after due) (more.2 answer after due)

end Narrowing

/-- Where every call is permitted and every end is good, a program has nothing to meet. -/
theorem Program.meets_of_free {Op : Type u} {Result : Op → Type v} {α : Type w} {State : Type x}
    {contract : Contract Op Result State} {post : State → Outcome α → Prop}
    (permits : ∀ state op, contract.permitted state op) (ends : ∀ state outcome, post state outcome)
    (program : Program Op Result α) (state : State) : program.Meets contract post state := by
  induction program generalizing state with
  | done outcome => exact ends state outcome
  | call op rest ih => exact ⟨permits state op, fun answer after _ => ih answer after⟩

section Attribution

variable {Op : Type u} {Result : Op → Type v} {State : Type x} {α : Type w}
variable {Task : Type y} {Choice : Type z} {Phase : Type}

/-- The tasks of the threads, in the order of their numbers. -/
def startedTasks (moves : List (Move Task Choice)) : List Task := moves.filterMap fun
  | .start task => some task
  | .step _ _ => none

@[simp] theorem startedTasks_snoc_start {moves : List (Move Task Choice)} {task : Task} :
    startedTasks (moves ++ [.start task]) = startedTasks moves ++ [task] := by
  simp [startedTasks]

@[simp] theorem startedTasks_snoc_step {moves : List (Move Task Choice)} {thread : Nat}
    {choice : Choice} : startedTasks (moves ++ [.step thread choice]) = startedTasks moves := by
  simp [startedTasks]

theorem startedTasks_append {moves rest : List (Move Task Choice)} :
    startedTasks (moves ++ rest) = startedTasks moves ++ startedTasks rest :=
  List.filterMap_append

/-- What is started stays started under its number. -/
theorem startedTasks_stay {moves rest : List (Move Task Choice)} {thread : Nat} {task : Task}
    (found : (startedTasks moves)[thread]? = some task) :
    (startedTasks (moves ++ rest))[thread]? = some task := by
  rw [startedTasks_append, List.getElem?_append_left (List.getElem?_eq_some_iff.mp found).1]
  exact found

variable (contract : Nat → Contract Op Result Phase)
variable (holds : Nat → Phase → State → Prop) (valid : State → Prop)

/-- The shared state keeps what every thread knows when each thread only makes the calls
that its own contract permits. -/
structure KeepsOwn (serve : Serve Op Result State Choice) : Prop where
  own : ∀ {state thread phase op choice answer next}, valid state → holds thread phase state →
    (contract thread).permitted phase op → serve state thread op choice = some (answer, next) →
    ∃ later, (contract thread).expected phase op answer later ∧ holds thread later next
  others : ∀ {state thread phase op choice answer next other known}, valid state →
    holds thread phase state → (contract thread).permitted phase op →
    serve state thread op choice = some (answer, next) → other ≠ thread →
    holds other known state → holds other known next
  valid : ∀ {state thread phase op choice answer next}, valid state → holds thread phase state →
    (contract thread).permitted phase op → serve state thread op choice = some (answer, next) →
    valid next

/-- Every thread is in a phase from which its program meets its contract. -/
structure Attributed (first : Phase) (post : Nat → Phase → Outcome α → Prop)
    (threads : Threads Op Result State α) : Prop where
  valid : valid threads.shared
  running : ∀ thread program, threads.programs[thread]? = some program →
    ∃ phase, holds thread phase threads.shared ∧ program.Meets (contract thread) (post thread) phase
  unstarted : ∀ thread, threads.programs.length ≤ thread → holds thread first threads.shared

variable {contract holds valid}
variable {serve : Serve Op Result State Choice} {program : Task → Program Op Result α}
variable {threads after : Threads Op Result State α} {first : Phase}
variable {post : Nat → Phase → Outcome α → Prop} {shared : State}
variable {moves : List (Move Task Choice)}

theorem Attributed.next_call (attributed : Attributed contract holds valid first post threads)
    {thread : Nat} {op : Op} {next : Except String (Result op) → Program Op Result α}
    (found : threads.programs[thread]? = some (.call op next)) :
    ∃ phase, holds thread phase threads.shared ∧ (contract thread).permitted phase op ∧
      ∀ answer later, (contract thread).expected phase op answer later →
        (next answer).Meets (contract thread) (post thread) later := by
  obtain ⟨phase, held, meets⟩ := attributed.running thread _ found
  exact ⟨phase, held, meets.1, meets.2⟩

/-- A thread that has come to its end has met its postcondition. -/
theorem Attributed.ended (attributed : Attributed contract holds valid first post threads)
    {thread : Nat} {outcome : Outcome α} (found : threads.programs[thread]? = some (.done outcome)) :
    ∃ phase, holds thread phase threads.shared ∧ post thread phase outcome :=
  attributed.running thread _ found

theorem Attributed.start (attributed : Attributed contract holds valid first post threads)
    {task : Task}
    (meets : (program task).Meets (contract threads.programs.length) (post threads.programs.length)
      first)
    (taken : (interleaving serve program).step threads (.start task) = some after) :
    Attributed contract holds valid first post after := by
  cases taken
  refine ⟨attributed.valid, fun thread running found => ?_, fun thread beyond => ?_⟩
  · rcases Nat.lt_trichotomy thread threads.programs.length with before | rfl | beyond
    · rw [List.getElem?_append_left before] at found
      exact attributed.running thread running found
    · rw [List.getElem?_concat_length] at found
      cases found
      exact ⟨first, attributed.unstarted _ (Nat.le_refl _), meets⟩
    · rw [List.getElem?_eq_none (by simpa [Nat.succ_le_iff] using beyond)] at found
      cases found
  · refine attributed.unstarted thread (Nat.le_trans ?_ beyond)
    simp

theorem Attributed.step (attributed : Attributed contract holds valid first post threads)
    (keeps : KeepsOwn contract holds valid serve) {thread : Nat} {choice : Choice}
    (taken : (interleaving serve program).step threads (.step thread choice) = some after) :
    Attributed contract holds valid first post after := by
  obtain ⟨op, next, answer, found, served, replaced⟩ := interleaving_step taken
  obtain ⟨phase, held, permitted, meets⟩ := attributed.next_call found
  refine ⟨keeps.valid attributed.valid held permitted served, ?_, fun other beyond => ?_⟩
  · intro other running there
    rw [replaced, List.getElem?_set] at there
    by_cases same : thread = other
    · obtain ⟨later, expected, kept⟩ := keeps.own attributed.valid held permitted served
      subst same
      rw [if_pos rfl, if_pos (List.getElem?_eq_some_iff.mp found).1] at there
      cases there
      exact ⟨later, kept, meets answer later expected⟩
    · rw [if_neg same] at there
      obtain ⟨known, there, continues⟩ := attributed.running other running there
      refine ⟨known, ?_, continues⟩
      exact keeps.others attributed.valid held permitted served (Ne.symm same) there
  · rw [replaced, List.length_set] at beyond
    have started := (List.getElem?_eq_some_iff.mp found).1
    exact keeps.others attributed.valid held permitted served (by omega)
      (attributed.unstarted other beyond)

theorem programs_length (ran : (interleaving serve program).run threads moves = some after) :
    after.programs.length = threads.programs.length + (startedTasks moves).length := by
  refine Machine.run_induction (motive := fun past now =>
    now.programs.length = threads.programs.length + (startedTasks past).length) ran rfl ?_
  intro past now move next _ counted taken
  cases move with
  | start task =>
    cases taken
    simp [counted, Nat.add_assoc]
  | step thread choice =>
    obtain ⟨_, _, _, _, _, replaced⟩ := interleaving_step taken
    simp [replaced, counted]

/-- Threads that keep to their contracts go on to do so when all that are started later meet
the contracts of their numbers. -/
theorem Attributed.run_from (keeps : KeepsOwn contract holds valid serve)
    (ran : (interleaving serve program).run threads moves = some after)
    (attributed : Attributed contract holds valid first post threads)
    (meets : ∀ index task, (startedTasks moves)[index]? = some task →
      (program task).Meets (contract (threads.programs.length + index))
        (post (threads.programs.length + index)) first) :
    Attributed contract holds valid first post after := by
  refine Machine.run_induction (motive := fun past now =>
    (∀ index task, (startedTasks past)[index]? = some task →
      (program task).Meets (contract (threads.programs.length + index))
        (post (threads.programs.length + index)) first) →
      Attributed contract holds valid first post now) ran (fun _ => attributed) ?_ meets
  intro past now move next reached held taken all
  have earlier := held fun index task found => all index task (startedTasks_stay found)
  cases move with
  | start task =>
    refine earlier.start ?_ taken
    rw [programs_length reached]
    refine all _ task ?_
    rw [startedTasks_snoc_start, List.getElem?_concat_length]
  | step thread choice => exact earlier.step keeps taken

/-- When every task meets the contract of its number, every thread keeps to its own. -/
theorem Attributed.run (keeps : KeepsOwn contract holds valid serve)
    (ran : (interleaving serve program).run
      ({ shared, programs := [] } : Threads Op Result State α) moves = some after)
    (initial : valid shared) (idle : ∀ thread, holds thread first shared)
    (meets : ∀ thread task, (startedTasks moves)[thread]? = some task →
      (program task).Meets (contract thread) (post thread) first) :
    Attributed contract holds valid first post after := by
  refine Attributed.run_from keeps ran ⟨initial, fun _ _ found => ?_, fun thread _ => idle thread⟩ ?_
  · simp at found
  · intro index task found
    simpa using meets index task found

theorem KeepsOwn.and (keeps : KeepsOwn contract holds valid serve) {more : State → Prop}
    (kept : ∀ {state thread phase op choice answer next}, valid state → more state →
      holds thread phase state → (contract thread).permitted phase op →
      serve state thread op choice = some (answer, next) → more next) :
    KeepsOwn contract holds (fun state => valid state ∧ more state) serve where
  own both held permitted served := keeps.own both.1 held permitted served
  others both held permitted served := keeps.others both.1 held permitted served
  valid both held permitted served :=
    ⟨keeps.valid both.1 held permitted served, kept both.1 both.2 held permitted served⟩

end Attribution

end TinyChat.Effect
