import TinyChat.Effect.Program
import TinyChat.Transition.Machine

/-! Programs that run as threads over one shared state, in any interleaving of their
calls. What a thread knows of the shared state is a phase; when the calls of a thread
keep its own knowledge and that of all others, the contract of each program holds
along every run of all of them. -/
namespace TinyChat.Effect

open TinyChat.Transition

universe u v w x y z

/-- The shared state and what is left of the program of every thread started so far. -/
structure Threads (Op : Type u) (Result : Op → Type v) (State : Type x) (α : Type w) where
  shared : State
  programs : List (Program Op Result α)

inductive Move (Task : Type y) (Choice : Type z) where
  /-- A new thread runs the task. -/
  | start (task : Task)
  /-- The next call of a thread, with all that the environment decides at it. -/
  | step (thread : Nat) (choice : Choice)
  deriving DecidableEq

section Interleaving

variable {Op : Type u} {Result : Op → Type v} {State : Type x} {α : Type w}
variable {Task : Type y} {Choice : Type z}

/-- How a shared state serves the calls of its threads. There is no answer while the
call is blocked, or where the choice does not fit the call. -/
abbrev Serve (Op : Type u) (Result : Op → Type v) (State : Type x) (Choice : Type z) :=
  State → Nat → (op : Op) → Choice → Option (Except String (Result op) × State)

variable (serve : Serve Op Result State Choice) (program : Task → Program Op Result α)

/-- All interleavings of threads that are started at any time. -/
def interleaving : Machine (Threads Op Result State α) (Move Task Choice) where
  step threads
    | .start task => some { threads with programs := threads.programs ++ [program task] }
    | .step thread choice =>
      match threads.programs[thread]? with
      | some (.call op next) =>
        (serve threads.shared thread op choice).map fun (answer, after) =>
          { shared := after, programs := threads.programs.set thread (next answer) }
      | _ => none

variable {serve program}
variable {threads after : Threads Op Result State α}

theorem interleaving_step {thread : Nat} {choice : Choice}
    (taken : (interleaving serve program).step threads (.step thread choice) = some after) :
    ∃ op next answer, threads.programs[thread]? = some (.call op next) ∧
      serve threads.shared thread op choice = some (answer, after.shared) ∧
      after.programs = threads.programs.set thread (next answer) := by
  simp only [interleaving] at taken
  split at taken
  · rename_i op next found
    obtain ⟨⟨answer, shared⟩, served, rfl⟩ := Option.map_eq_some_iff.mp taken
    exact ⟨op, next, answer, found, served, rfl⟩
  · cases taken

section Guarding

variable (may : State → Nat → Op → Choice → Prop)
variable [∀ state thread op choice, Decidable (may state thread op choice)]

/-- Only the calls that may be made so are served. -/
def guarded (serve : Serve Op Result State Choice) : Serve Op Result State Choice :=
  fun state thread op choice => if may state thread op choice then serve state thread op choice else none

/-- The next call of a thread may be made so. -/
def Permits (threads : Threads Op Result State α) (move : Move Task Choice) : Prop :=
  ∀ thread op next choice, move = .step thread choice →
    threads.programs[thread]? = some (.call op next) → may threads.shared thread op choice

variable {may}

theorem guarded_eq_some_iff {state next : State} {thread : Nat} {op : Op} {choice : Choice}
    {answer : Except String (Result op)} :
    guarded may serve state thread op choice = some (answer, next) ↔
      may state thread op choice ∧ serve state thread op choice = some (answer, next) := by
  by_cases allowed : may state thread op choice <;> simp [guarded, allowed]

theorem guarded_step_iff {move : Move Task Choice} :
    (interleaving (guarded may serve) program).step threads move = some after ↔
      Permits may threads move ∧ (interleaving serve program).step threads move = some after := by
  cases move with
  | start task => exact ⟨fun taken => ⟨nofun, taken⟩, fun both => both.2⟩
  | step thread choice =>
    simp only [interleaving]
    split
    · rename_i op next found
      constructor
      · intro taken
        obtain ⟨⟨answer, shared⟩, served, same⟩ := Option.map_eq_some_iff.mp taken
        obtain ⟨allowed, made⟩ := guarded_eq_some_iff.mp served
        refine ⟨fun other op' next' choice' sameMove calls => ?_, Option.map_eq_some_iff.mpr ⟨_, made, same⟩⟩
        cases sameMove
        cases found.symm.trans calls
        exact allowed
      · intro ⟨permits, taken⟩
        obtain ⟨⟨answer, shared⟩, served, same⟩ := Option.map_eq_some_iff.mp taken
        exact Option.map_eq_some_iff.mpr ⟨_, guarded_eq_some_iff.mpr
          ⟨permits thread op next choice rfl found, served⟩, same⟩
    · exact ⟨nofun, fun both => both.2⟩

/-- The guarded threads take the runs whose calls all may be made so. -/
theorem guarded_run_iff {moves : List (Move Task Choice)} :
    (interleaving (guarded may serve) program).run threads moves = some after ↔
      (interleaving serve program).run threads moves = some after ∧
        (interleaving serve program).Allowed (fun _ => Permits may) threads moves := by
  constructor
  · intro ran
    refine Machine.run_induction (motive := fun past state =>
      (interleaving serve program).run threads past = some state ∧
        (interleaving serve program).Allowed (fun _ => Permits may) threads past)
      ran ⟨rfl, Machine.allowed_nil⟩ ?_
    intro past state move next _ ⟨reached, allowed⟩ taken
    obtain ⟨permits, made⟩ := guarded_step_iff.mp taken
    refine ⟨Machine.run_snoc_iff.mpr ⟨state, reached, made⟩,
      Machine.allowed_snoc_iff.mpr ⟨allowed, fun current there => ?_⟩⟩
    exact Option.some.inj (reached.symm.trans there) ▸ permits
  · intro ⟨ran, allowed⟩
    refine Machine.run_induction_allowed (motive := fun past state =>
      (interleaving (guarded may serve) program).run threads past = some state) ran allowed rfl ?_
    intro past state move next _ reached permits taken
    exact Machine.run_snoc_iff.mpr ⟨state, reached, guarded_step_iff.mpr ⟨permits, taken⟩⟩

end Guarding

section Knowledge

variable {Phase : Type} (contract : Contract Op Result Phase)
variable (holds : Nat → Phase → State → Prop) (valid : State → Prop)

/-- The shared state keeps what every thread knows: a permitted call is answered as the
contract expects, and the other threads lose nothing by it. -/
structure Keeps (serve : Serve Op Result State Choice) : Prop where
  own : ∀ {state thread phase op choice answer next}, valid state → holds thread phase state →
    contract.permitted phase op → serve state thread op choice = some (answer, next) →
    ∃ later, contract.expected phase op answer later ∧ holds thread later next
  others : ∀ {state thread phase op choice answer next other known}, valid state →
    holds thread phase state → contract.permitted phase op →
    serve state thread op choice = some (answer, next) → other ≠ thread →
    holds other known state → holds other known next
  valid : ∀ {state thread phase op choice answer next}, valid state → holds thread phase state →
    contract.permitted phase op → serve state thread op choice = some (answer, next) → valid next

variable {contract holds valid}

/-- Every thread is in a phase from which its program meets the contract, and a thread
that is not started yet is in the first phase. -/
structure Covered (contract : Contract Op Result Phase) (holds : Nat → Phase → State → Prop)
    (valid : State → Prop) (first : Phase) (post : Phase → Outcome α → Prop)
    (threads : Threads Op Result State α) : Prop where
  valid : valid threads.shared
  running : ∀ thread program, threads.programs[thread]? = some program →
    ∃ phase, holds thread phase threads.shared ∧ program.Meets contract post phase
  unstarted : ∀ thread, threads.programs.length ≤ thread → holds thread first threads.shared

variable {first : Phase} {post : Phase → Outcome α → Prop}

/-- The next call of a thread is made in a phase that permits it. -/
theorem Covered.next_call (covered : Covered contract holds valid first post threads)
    {thread : Nat} {op : Op} {next : Except String (Result op) → Program Op Result α}
    (found : threads.programs[thread]? = some (.call op next)) :
    ∃ phase, holds thread phase threads.shared ∧ contract.permitted phase op ∧
      ∀ answer later, contract.expected phase op answer later →
        (next answer).Meets contract post later := by
  obtain ⟨phase, held, meets⟩ := covered.running thread _ found
  exact ⟨phase, held, meets.1, meets.2⟩

theorem Covered.start (covered : Covered contract holds valid first post threads) {task : Task}
    (meets : (program task).Meets contract post first)
    (taken : (interleaving serve program).step threads (.start task) = some after) :
    Covered contract holds valid first post after := by
  cases taken
  refine ⟨covered.valid, fun thread running found => ?_, fun thread beyond => ?_⟩
  · rcases Nat.lt_trichotomy thread threads.programs.length with before | rfl | beyond
    · rw [List.getElem?_append_left before] at found
      exact covered.running thread running found
    · rw [List.getElem?_concat_length] at found
      cases found
      exact ⟨first, covered.unstarted _ (Nat.le_refl _), meets⟩
    · rw [List.getElem?_eq_none (by simpa [Nat.succ_le_iff] using beyond)] at found
      cases found
  · refine covered.unstarted thread (Nat.le_trans ?_ beyond)
    simp

theorem Covered.step (covered : Covered contract holds valid first post threads)
    (keeps : Keeps contract holds valid serve) {thread : Nat} {choice : Choice}
    (taken : (interleaving serve program).step threads (.step thread choice) = some after) :
    Covered contract holds valid first post after := by
  obtain ⟨op, next, answer, found, served, replaced⟩ := interleaving_step taken
  obtain ⟨phase, held, permitted, meets⟩ := covered.next_call found
  refine ⟨keeps.valid covered.valid held permitted served, ?_, fun other beyond => ?_⟩
  · intro other running there
    rw [replaced, List.getElem?_set] at there
    by_cases same : thread = other
    · obtain ⟨later, expected, kept⟩ := keeps.own covered.valid held permitted served
      subst same
      rw [if_pos rfl, if_pos (List.getElem?_eq_some_iff.mp found).1] at there
      cases there
      exact ⟨later, kept, meets answer later expected⟩
    · rw [if_neg same] at there
      obtain ⟨known, there, covers⟩ := covered.running other running there
      exact ⟨known, keeps.others covered.valid held permitted served (Ne.symm same) there, covers⟩
  · rw [replaced, List.length_set] at beyond
    have started := (List.getElem?_eq_some_iff.mp found).1
    exact keeps.others covered.valid held permitted served (by omega)
      (covered.unstarted other beyond)

/-- When every task meets the contract from the first phase, every run is covered. -/
theorem Covered.run (keeps : Keeps contract holds valid serve)
    (meets : ∀ task, (program task).Meets contract post first) {moves : List (Move Task Choice)}
    (ran : (interleaving serve program).run threads moves = some after)
    (covered : Covered contract holds valid first post threads) :
    Covered contract holds valid first post after := by
  apply Machine.invariant ran covered
  intro state move next held taken
  cases move with
  | start task => exact held.start (meets task) taken
  | step thread choice => exact held.step keeps taken

/-- More may be required of the shared state if permitted calls keep it. -/
theorem Keeps.and (keeps : Keeps contract holds valid serve) {more : State → Prop}
    (kept : ∀ {state thread phase op choice answer next}, valid state → more state →
      holds thread phase state → contract.permitted phase op →
      serve state thread op choice = some (answer, next) → more next) :
    Keeps contract holds (fun state => valid state ∧ more state) serve where
  own both held permitted served := keeps.own both.1 held permitted served
  others both held permitted served := keeps.others both.1 held permitted served
  valid both held permitted served :=
    ⟨keeps.valid both.1 held permitted served, kept both.1 both.2 held permitted served⟩

/-- A record of the own answers may be kept if they bear it out and no call undoes it. -/
theorem Keeps.recording {Ghost : Type} {told : Ghost → State → Prop}
    {record : Phase → (op : Op) → Except String (Result op) → Ghost → Ghost}
    (keeps : Keeps contract holds valid serve)
    (lasts : ∀ {state thread phase op choice answer next ghost}, valid state →
      holds thread phase state → contract.permitted phase op →
      serve state thread op choice = some (answer, next) → told ghost state → told ghost next)
    (own : ∀ {state thread phase op choice answer next ghost}, valid state →
      holds thread phase state → contract.permitted phase op →
      serve state thread op choice = some (answer, next) → told ghost next →
      told (record phase op answer ghost) next) :
    Keeps (contract.recording record)
      (fun thread known state => holds thread known.1 state ∧ told known.2 state) valid serve where
  own held both permitted served := by
    obtain ⟨later, expected, kept⟩ := keeps.own held both.1 permitted served
    refine ⟨(later, record _ _ _ _), ⟨expected, rfl⟩, kept, ?_⟩
    exact own held both.1 permitted served (lasts held both.1 permitted served both.2)
  others held both permitted served different known :=
    ⟨keeps.others held both.1 permitted served different known.1,
      lasts held both.1 permitted served known.2⟩
  valid held both permitted served := keeps.valid held both.1 permitted served

theorem covered_initial {shared : State} (initial : valid shared)
    (idle : ∀ thread, holds thread first shared) :
    Covered contract holds valid first post
      ({ shared, programs := [] } : Threads Op Result State α) where
  valid := initial
  running thread program found := by simp at found
  unstarted thread _ := idle thread

end Knowledge

end Interleaving

end TinyChat.Effect
