import Mathlib.Data.List.Basic

/-! Two ways of writing several words as one: codes of one length after each other, which
can always be read back, and two words around a doubled separator, which cannot if the
separator may occur in the words. -/
namespace TinyChat.Text

universe u v

section FixedLength

variable {α : Type u} {β : Type v} {code : α → List β} {width : Nat}

theorem flatMap_injective_of_length (lengths : ∀ symbol, (code symbol).length = width)
    (positive : 0 < width) (injective : Function.Injective code) :
    Function.Injective fun word : List α => word.flatMap code := by
  intro first second same
  dsimp only at same
  have nonempty (symbol : α) (rest : List α) : (symbol :: rest).flatMap code ≠ [] := by
    intro empty
    have none : code symbol = [] := (List.append_eq_nil_iff.mp empty).1
    have length := lengths symbol
    rw [none, List.length_nil] at length
    omega
  induction first generalizing second with
  | nil =>
    cases second with
    | nil => rfl
    | cons symbol rest => exact absurd same.symm (nonempty symbol rest)
  | cons symbol rest ih =>
    cases second with
    | nil => exact absurd same (nonempty symbol rest)
    | cons other others =>
      rw [List.flatMap_cons, List.flatMap_cons] at same
      obtain ⟨head, tail⟩ := List.append_inj same ((lengths symbol).trans (lengths other).symm)
      rw [injective head, ih tail]

end FixedLength

section Separated

variable {α : Type u} {mark : α} {first second : List α × List α}

/-- A pair of words around two marks. -/
def separated (mark : α) (pair : List α × List α) : List α := pair.1 ++ [mark, mark] ++ pair.2

/-- The second pair has its separator further right than the first: one mark, or past all of
the separator of the first. -/
def Shifted (mark : α) (first second : List α × List α) : Prop :=
  (second.1 = first.1 ++ [mark] ∧ first.2 = mark :: second.2) ∨
    ∃ middle, second.1 = first.1 ++ [mark, mark] ++ middle ∧ first.2 = middle ++ [mark, mark] ++ second.2

theorem Shifted.separated_eq (shifted : Shifted mark first second) :
    separated mark first = separated mark second := by
  rcases shifted with ⟨left, right⟩ | ⟨middle, left, right⟩ <;> simp [separated, left, right]

theorem Shifted.ne (shifted : Shifted mark first second) : first ≠ second := by
  rintro rfl
  rcases shifted with ⟨left, _⟩ | ⟨middle, left, _⟩ <;> simp at left

theorem not_shifted_of_not_mem (absent : mark ∉ first.2) : ¬ Shifted mark first second := by
  rintro (⟨_, right⟩ | ⟨middle, _, right⟩) <;> simp [right] at absent

/-- A longer left word has taken marks from the separator and the word behind it. -/
theorem eq_or_shifted {taken : List α} (longer : second.1 = first.1 ++ taken)
    (rest : mark :: mark :: first.2 = taken ++ mark :: mark :: second.2) :
    first = second ∨ Shifted mark first second := by
  match taken with
  | [] =>
    simp only [List.append_nil, List.nil_append, List.cons.injEq, true_and] at longer rest
    exact .inl (Prod.ext longer.symm rest)
  | [one] =>
    simp only [List.cons_append, List.nil_append, List.cons.injEq] at rest
    obtain ⟨rfl, _, rest⟩ := rest
    exact .inr (.inl ⟨longer, rest⟩)
  | one :: two :: middle =>
    simp only [List.cons_append, List.cons.injEq] at rest
    obtain ⟨rfl, same, rest⟩ := rest
    subst same
    exact .inr (.inr ⟨middle, by simp [longer], by simpa using rest⟩)

/-- Two pairs are written as the same word exactly if the separator of one is shifted
against that of the other. -/
theorem separated_eq_iff : separated mark first = separated mark second ↔
    first = second ∨ Shifted mark first second ∨ Shifted mark second first := by
  constructor
  · intro same
    simp only [separated, List.append_assoc] at same
    rcases List.append_eq_append_iff.mp same with ⟨taken, longer, rest⟩ | ⟨taken, longer, rest⟩
    · rcases eq_or_shifted longer (by simpa using rest) with equal | shifted
      · exact .inl equal
      · exact .inr (.inl shifted)
    · rcases eq_or_shifted longer (by simpa using rest) with equal | shifted
      · exact .inl equal.symm
      · exact .inr (.inr shifted)
  · rintro (rfl | shifted | shifted)
    · rfl
    · exact shifted.separated_eq
    · exact shifted.separated_eq.symm

end Separated

end TinyChat.Text
