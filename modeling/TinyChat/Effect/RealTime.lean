import TinyChat.Effect.WorkerPool

namespace TinyChat.Effect

open TinyChat.Transition

universe u v w x y z s

section RealTime

variable {Op : Type u} {Result : Op → Type v} {State : Type x} {α : Type w}
variable {Task : Type y} {Choice : Type z} {Entry : Type s}

variable (serve : Serve Op Result State Choice) (program : Task → Program Op Result α)

/-- Whenever a thread has ended before another one is started, its entries are the earlier
ones; the list names the owners of the entries. -/
def RealTime (start : Threads Op Result State α) (moves : List (Move Task Choice))
    (owners : List Nat) : Prop :=
  ∀ (earlier later : List (Move Task Choice)) (middle : Threads Op Result State α),
    moves = earlier ++ later → (interleaving serve program).run start earlier = some middle →
      ∀ (first second : Nat) (outcome : Outcome α), middle.programs[first]? = some (.done outcome) →
        middle.programs.length ≤ second → ∀ early late : Nat, owners[early]? = some first →
          owners[late]? = some second → early < late

variable {serve program}
variable {log : State → List Entry} {owner : Entry → Nat}
variable {threads next final : Threads Op Result State α} {moves : List (Move Task Choice)}

theorem done_stays (ran : (interleaving serve program).run threads moves = some final) {thread : Nat}
    {outcome : Outcome α} (ended : threads.programs[thread]? = some (.done outcome)) :
    final.programs[thread]? = some (.done outcome) := by
  refine Machine.invariant (motive := fun threads =>
    threads.programs[thread]? = some (.done outcome)) ran ended fun before move after ended taken => ?_
  cases move with
  | start task =>
    cases taken
    exact (List.getElem?_append_left (List.getElem?_eq_some_iff.mp ended).1).trans ended
  | step other choice =>
    obtain ⟨op, rest, answer, found, _, replaced⟩ := interleaving_step taken
    have different : other ≠ thread := fun same => by cases (same ▸ found).symm.trans ended
    rw [replaced, List.getElem?_set_ne different]
    exact ended

/-- The log grows, and not by the threads that have ended. -/
theorem logs_since (logs : Logs serve log owner)
    (ran : (interleaving serve program).run threads moves = some final) :
    ∃ added, log final.shared = log threads.shared ++ added ∧ ∀ entry ∈ added, ∀ outcome,
      threads.programs[owner entry]? ≠ some (.done outcome) := by
  refine Machine.run_induction (motive := fun _ now => ∃ added, log now.shared =
    log threads.shared ++ added ∧ ∀ entry ∈ added, ∀ outcome,
      threads.programs[owner entry]? ≠ some (.done outcome)) ran ⟨[], by simp, nofun⟩ ?_
  intro past now move after reached ⟨added, appended, running⟩ taken
  cases move with
  | start task =>
    cases taken
    exact ⟨added, appended, running⟩
  | step thread choice =>
    obtain ⟨op, rest, answer, found, served, _⟩ := interleaving_step taken
    obtain ⟨more, grown, own⟩ := logs _ _ _ _ _ _ served
    refine ⟨added ++ more, by rw [grown, appended, List.append_assoc], fun entry member outcome => ?_⟩
    rcases List.mem_append.mp member with before | new
    · exact running entry before outcome
    · intro ended
      cases (own entry new ▸ done_stays reached ended).symm.trans found

theorem owners_started (logs : Logs serve log owner)
    (ran : (interleaving serve program).run threads moves = some final)
    (started : ∀ entry ∈ log threads.shared, owner entry < threads.programs.length) :
    ∀ entry ∈ log final.shared, owner entry < final.programs.length := by
  refine Machine.invariant (motive := fun now =>
    ∀ entry ∈ log now.shared, owner entry < now.programs.length) ran started ?_
  intro now move after sofar taken
  cases move with
  | start task =>
    cases taken
    intro entry member
    have before := sofar entry member
    simp only [List.length_append, List.length_singleton]
    omega
  | step thread choice =>
    obtain ⟨op, rest, answer, found, served, replaced⟩ := interleaving_step taken
    obtain ⟨more, grown, own⟩ := logs _ _ _ _ _ _ served
    rw [grown, replaced, List.length_set]
    intro entry member
    rcases List.mem_append.mp member with before | new
    · exact sofar entry before
    · exact own entry new ▸ (List.getElem?_eq_some_iff.mp found).1

/-- In every run the log is in an order that agrees with real time. -/
theorem real_time (logs : Logs serve log owner)
    (ran : (interleaving serve program).run threads moves = some final)
    (empty : log threads.shared = []) :
    RealTime serve program threads moves ((log final.shared).map owner) := by
  intro earlier later middle split reached first second outcome ended unstarted early late
    isFirst isSecond
  subst split
  rw [Machine.run_append, reached] at ran
  obtain ⟨added, appended, running⟩ := logs_since logs ran
  have before := owners_started logs reached (by simp [empty])
  rw [appended, List.map_append] at isFirst isSecond
  -- The thread that has ended has no entry among those added since.
  have within : early < ((log middle.shared).map owner).length := by
    by_contra beyond
    rw [List.getElem?_append_right (Nat.not_lt.mp beyond)] at isFirst
    obtain ⟨entry, member, rfl⟩ := List.mem_map.mp (List.mem_of_getElem? isFirst)
    exact running entry member outcome ended
  refine Nat.lt_of_lt_of_le within (Nat.not_lt.mp fun sooner => ?_)
  rw [List.getElem?_append_left sooner] at isSecond
  obtain ⟨entry, member, rfl⟩ := List.mem_map.mp (List.mem_of_getElem? isSecond)
  exact absurd (before entry member) (Nat.not_lt.mpr unstarted)

end RealTime

end TinyChat.Effect
