import Mathlib.Algebra.GroupWithZero.Nat
import Mathlib.Data.List.Flatten
import Mathlib.Data.List.Nodup

/-! Systems of many processes, kept as a list that one process at a time is
replaced in. Whatever is counted over the processes changes by exactly what the
replaced process changes, so counting invariants reduce to linear arithmetic. -/
namespace TinyChat.Transition

universe u v

variable {Process : Type u} {Resource : Type v}

/-- The total weight of the processes. -/
def weigh (weight : Process → Nat) (processes : List Process) : Nat :=
  (processes.map weight).sum

@[simp] theorem weigh_nil (weight : Process → Nat) : weigh weight [] = 0 := rfl

@[simp] theorem weigh_cons (weight : Process → Nat) (process : Process)
    (rest : List Process) : weigh weight (process :: rest) = weight process + weigh weight rest := by
  simp [weigh]

@[simp] theorem weigh_append (weight : Process → Nat) (first second : List Process) :
    weigh weight (first ++ second) = weigh weight first + weigh weight second := by
  simp [weigh]

@[simp] theorem weigh_replicate (weight : Process → Nat) (process : Process) (number : Nat) :
    weigh weight (List.replicate number process) = number * weight process := by
  simp [weigh]

/-- Replacing one process moves the total by the difference of two weights. -/
theorem weigh_set {weight : Process → Nat} {processes : List Process} {index : Nat}
    {old new : Process} (found : processes[index]? = some old) :
    weigh weight (processes.set index new) + weight old = weigh weight processes + weight new := by
  induction processes generalizing index with
  | nil => simp at found
  | cons head tail ih =>
    cases index with
    | zero =>
      have same : head = old := by simpa using found
      subst same
      simp only [List.set_cons_zero, weigh_cons]
      omega
    | succ index =>
      have later := @ih index (by simpa using found)
      simp only [List.set_cons_succ, weigh_cons]
      omega

theorem weight_le_weigh {weight : Process → Nat} {processes : List Process} {process : Process}
    (member : process ∈ processes) : weight process ≤ weigh weight processes := by
  obtain ⟨before, after, split⟩ := List.append_of_mem member
  subst split
  simp only [weigh_append, weigh_cons]
  omega

/-- Two different processes weigh together at most the total. -/
theorem weight_add_le_weigh {weight : Process → Nat} {processes : List Process}
    {first second : Process} (different : first ≠ second) (firstMember : first ∈ processes)
    (secondMember : second ∈ processes) :
    weight first + weight second ≤ weigh weight processes := by
  obtain ⟨before, after, split⟩ := List.append_of_mem firstMember
  subst split
  have elsewhere : second ∈ before ++ after := by
    simpa [Ne.symm different] using secondMember
  have bound := @weight_le_weigh _ weight _ _ elsewhere
  simp only [weigh_append, weigh_cons] at bound ⊢
  omega

theorem weigh_le_weigh {light heavy : Process → Nat} {processes : List Process}
    (below : ∀ process ∈ processes, light process ≤ heavy process) :
    weigh light processes ≤ weigh heavy processes := by
  induction processes with
  | nil => simp
  | cons head tail ih =>
    have first := below head (by simp)
    have later := ih fun process member => below process (by simp [member])
    simp only [weigh_cons]
    omega

theorem weigh_congr {first second : Process → Nat} {processes : List Process}
    (same : ∀ process ∈ processes, first process = second process) :
    weigh first processes = weigh second processes :=
  congrArg List.sum (List.map_congr_left same)

theorem weigh_eq_zero {weight : Process → Nat} {processes : List Process}
    (none : ∀ process ∈ processes, weight process = 0) : weigh weight processes = 0 :=
  (weigh_congr none).trans (by simp [weigh])

theorem weigh_le_length_mul {weight : Process → Nat} {processes : List Process} {most : Nat}
    (bound : ∀ process ∈ processes, weight process ≤ most) :
    weigh weight processes ≤ processes.length * most := by
  have total := @weigh_le_weigh _ weight (fun _ => most) processes bound
  simpa [weigh] using total

theorem weigh_pos_iff {weight : Process → Nat} {processes : List Process} :
    0 < weigh weight processes ↔ ∃ process ∈ processes, 0 < weight process := by
  induction processes with
  | nil => simp
  | cons head tail ih => rw [weigh_cons, Nat.add_pos_iff_pos_or_pos, ih, List.exists_mem_cons_iff]

/-- A property of all processes survives a replacement that keeps it. -/
theorem forall_mem_set {kept : Process → Prop} {processes : List Process} {index : Nat}
    {new : Process} (held : ∀ process ∈ processes, kept process) (fresh : kept new) :
    ∀ process ∈ processes.set index new, kept process := by
  intro process member
  rcases List.mem_or_eq_of_mem_set member with old | same
  · exact held process old
  · exact same ▸ fresh

section Ownership

variable [BEq Resource] [LawfulBEq Resource] {holds : Process → List Resource}

omit [LawfulBEq Resource] in
theorem count_held (processes : List Process) (resource : Resource) :
    (processes.flatMap holds).count resource =
      weigh (fun process => (holds process).count resource) processes := by
  simp [weigh, List.count_flatMap, Function.comp_def]

/-- Nothing is held twice, nor held and free at once, exactly if every resource
is counted at most once over the processes and the free list together. -/
theorem nodup_held_append_iff {processes : List Process} {free : List Resource} :
    (processes.flatMap holds ++ free).Nodup ↔
      ∀ resource, weigh (fun process => (holds process).count resource) processes +
        free.count resource ≤ 1 := by
  simp only [List.nodup_iff_count_le_one, List.count_append, count_held]

end Ownership

end TinyChat.Transition
