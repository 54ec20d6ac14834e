import TinyChat.Core.RequestHandler

/-! `extract_target_param` access by access, and the segments of a target that it
counts: an index stands for a segment between two slashes, empty ones included. -/
namespace TinyChat.Core

section Loop

/-- `target.find('/', start)`; none is `npos`. -/
def findSlash (target : List Char) (start : Nat) : Option Nat :=
  ((target.drop start).idxOf? '/').map (start + ·)

/-- `target.substr(start, count)`; none if it throws. -/
def substr (target : List Char) (start count : Nat) : Option (List Char) :=
  if start ≤ target.length then some ((target.drop start).take count) else none

/-- The loop of `extract_target_param`, from the end of the last segment on; none as soon
as it accesses `target` out of bounds. -/
def targetParamLoop (target : List Char) (index current last : Nat) : Option (List Char) :=
  if current ≤ index then
    let start := last
    if start ≥ target.length then some []
    else
      match target[start]? with
      | none => none
      | some char =>
        let start := if char = '/' then start + 1 else start
        let last := (findSlash target start).getD target.length
        if current = index then substr target start (last - start)
        else targetParamLoop target index (current + 1) last
  else some []
termination_by index + 1 - current

end Loop

/-- A text without its leading slash, if it has one. -/
def withoutLeadingSlash : List Char → List Char
  | '/' :: rest => rest
  | text => text

/-- The segments of a target: its leading slash is no separator. -/
def segments (target : List Char) : List (List Char) := (withoutLeadingSlash target).splitOn '/'

def targetSegments (target : String) : List String := (segments target.toList).map String.ofList

section Segments

variable {target segment after : List Char} {start skip index current last : Nat}

theorem takeWhile_segment (inside : '/' ∉ segment) (ends : after = [] ∨ ∃ more, after = '/' :: more) :
    (segment ++ after).takeWhile (· ≠ '/') = segment := by
  have all : ∀ char ∈ segment, decide (char ≠ '/') = true := by
    intro char member
    simpa using fun same : char = '/' => inside (same ▸ member)
  rw [List.takeWhile_append_of_pos all]
  rcases ends with rfl | ⟨more, rfl⟩ <;> simp

theorem exists_segment (text : List Char) : ∃ segment after, text = segment ++ after ∧
    '/' ∉ segment ∧ (after = [] ∨ ∃ more, after = '/' :: more) := by
  induction text with
  | nil => exact ⟨[], [], rfl, by simp, .inl rfl⟩
  | cons char rest ih =>
    by_cases slash : char = '/'
    · subst slash
      exact ⟨[], '/' :: rest, rfl, by simp, .inr ⟨rest, rfl⟩⟩
    · obtain ⟨segment, after, split, inside, ends⟩ := ih
      exact ⟨char :: segment, after, by simp [split], by simp [inside, Ne.symm slash], ends⟩

/-- One turn of the loop skips a leading slash and stops before the next one. -/
theorem exists_nextSegment (more : start < target.length) : ∃ first segment after,
    nextSegment target start = some (first, first + segment.length) ∧
      target.drop first = segment ++ after ∧
      withoutLeadingSlash (target.drop start) = segment ++ after ∧ '/' ∉ segment ∧
      (after = [] ∨ ∃ more, after = '/' :: more) := by
  obtain ⟨char, rest, found⟩ := List.exists_cons_of_ne_nil
    (List.drop_eq_nil_iff.not.mpr (Nat.not_le.mpr more))
  have here : target[start]? = some char := by
    rw [← List.head?_drop, found, List.head?_cons]
  let first := if char = '/' then start + 1 else start
  have skipped : target.drop first = withoutLeadingSlash (target.drop start) := by
    by_cases slash : char = '/'
    · have behind : target.drop (start + 1) = rest := by
        rw [← List.drop_drop, found]
        rfl
      simp [first, slash, behind, found, withoutLeadingSlash]
    · simp only [first, slash, if_false, found]
      unfold withoutLeadingSlash
      split
      · rename_i same
        exact absurd (List.cons.inj same).1 slash
      · rfl
  obtain ⟨segment, after, split, inside, ends⟩ := exists_segment (target.drop first)
  refine ⟨first, segment, after, ?_, split, skipped ▸ split, inside, ends⟩
  have ahead : (target.drop first).takeWhile (· ≠ '/') = segment := by
    rw [split, takeWhile_segment inside ends]
  have same : (if target[start]? = some '/' then start + 1 else start) = first := by
    simp [first, here]
  simp only [nextSegment, Nat.not_le.mpr more, if_false, same, ahead]

/-- Behind a segment the target goes on like a target of its own. -/
theorem segments_later (inside : '/' ∉ segment) (ends : after = [] ∨ ∃ more, after = '/' :: more) :
    ((segment ++ after).splitOn '/')[skip + 1]?.getD [] = (segments after)[skip]?.getD [] := by
  rcases ends with rfl | ⟨more, rfl⟩
  · rw [List.append_nil, List.splitOn_eq_singleton inside]
    cases skip <;> simp [segments, withoutLeadingSlash]
  · rw [List.splitOn_append_cons_self_of_not_mem inside]
    rfl

theorem segments_here (inside : '/' ∉ segment) (ends : after = [] ∨ ∃ more, after = '/' :: more) :
    ((segment ++ after).splitOn '/')[0]? = some segment := by
  rcases ends with rfl | ⟨more, rfl⟩
  · rw [List.append_nil, List.splitOn_eq_singleton inside]
    rfl
  · rw [List.splitOn_append_cons_self_of_not_mem inside]
    rfl

theorem splitOn_head : (after.splitOn '/')[0]?.getD [] = after.takeWhile (· ≠ '/') := by
  obtain ⟨segment, more, split, inside, ends⟩ := exists_segment after
  rw [split, segments_here inside ends, takeWhile_segment inside ends]
  rfl

theorem segments_nil : (segments [])[skip]?.getD [] = [] := by
  cases skip <;> simp [segments, withoutLeadingSlash]

/-- By induction on the segments to skip: each turn takes one off the rest of the target. -/
theorem targetParamFrom_eq :
    targetParamFrom target start skip = (segments (target.drop start))[skip]?.getD [] := by
  induction skip generalizing start with
  | zero =>
    rcases Nat.lt_or_ge start target.length with more | beyond
    · obtain ⟨first, segment, after, next, split, rest, inside, ends⟩ := exists_nextSegment more
      rw [targetParamFrom, next, segments, rest, segments_here inside ends]
      simp [split]
    · rw [List.drop_eq_nil_of_le beyond, segments_nil]
      simp [targetParamFrom, nextSegment, beyond]
  | succ skip ih =>
    rcases Nat.lt_or_ge start target.length with more | beyond
    · obtain ⟨first, segment, after, next, split, rest, inside, ends⟩ := exists_nextSegment more
      have behind : target.drop (first + segment.length) = after := by
        rw [← List.drop_drop, split, List.drop_left]
      rw [targetParamFrom, next, segments, rest, segments_later inside ends]
      exact behind ▸ ih
    · rw [List.drop_eq_nil_of_le beyond, segments_nil]
      simp [targetParamFrom, nextSegment, beyond]

theorem extractTargetParam_eq {target : String} :
    extractTargetParam target index = (targetSegments target)[index]?.getD "" := by
  rw [extractTargetParam, targetParamFrom_eq, List.drop_zero, targetSegments, List.getElem?_map]
  cases (segments target.toList)[index]? <;> rfl

theorem idxOf?_slash (text : List Char) :
    (text.idxOf? '/').getD text.length = (text.takeWhile (· ≠ '/')).length := by
  induction text with
  | nil => rfl
  | cons char rest ih =>
    by_cases slash : char = '/'
    · simp [slash, List.idxOf?_cons]
    · have later : ((char :: rest).idxOf? '/').getD (char :: rest).length =
          (rest.idxOf? '/').getD rest.length + 1 := by
        cases found : rest.idxOf? '/' <;> simp [List.idxOf?_cons, slash, found]
      rw [later, ih]
      simp [slash]

/-- The end of a segment is the next slash, or the end of the target. -/
theorem findSlash_getD (inside : start ≤ target.length) : (findSlash target start).getD target.length =
    start + ((target.drop start).takeWhile (· ≠ '/')).length := by
  rw [← idxOf?_slash, findSlash]
  cases (target.drop start).idxOf? '/' with
  | none => simpa using (Nat.add_sub_cancel' inside).symm
  | some index => rfl

/-- The loop accesses nothing out of bounds and ends; each turn brings `current` closer to
the index. -/
theorem targetParamLoop_eq (below : current ≤ index) : targetParamLoop target index current last =
    some (targetParamFrom target last (index - current)) := by
  induction turns : index - current generalizing current last with
  | zero =>
    obtain rfl : current = index := by omega
    rw [targetParamLoop, if_pos (Nat.le_refl _), targetParamFrom]
    rcases Nat.lt_or_ge last target.length with more | beyond
    · have here : target[last]? = some target[last] := List.getElem?_eq_getElem more
      have within : (if target[last] = '/' then last + 1 else last) ≤ target.length := by
        split <;> omega
      simp only [nextSegment, Nat.not_le.mpr more, if_false, here, if_true, substr, within,
        Option.some.injEq, findSlash_getD within]
    · simp [beyond, nextSegment]
  | succ turns ih =>
    have ahead : ¬ current = index := by omega
    rw [targetParamLoop, if_pos below, targetParamFrom]
    rcases Nat.lt_or_ge last target.length with more | beyond
    · have here : target[last]? = some target[last] := List.getElem?_eq_getElem more
      have within : (if target[last] = '/' then last + 1 else last) ≤ target.length := by
        split <;> omega
      simp only [nextSegment, Nat.not_le.mpr more, if_false, here, ahead, Option.some.injEq,
        findSlash_getD within]
      exact ih (by omega) (by omega)
    · simp [beyond, nextSegment]

end Segments

section Results

variable {target : String} {index : Nat}

/-- With the segments that are there, slashes between them make the target again. -/
theorem intercalate_targetSegments : "/".intercalate (targetSegments target) =
    String.ofList (withoutLeadingSlash target.toList) := by
  apply String.toList_injective
  have texts : (targetSegments target).map String.toList = segments target.toList := by
    simp [targetSegments, Function.comp_def]
  rw [String.toList_intercalate, texts]
  exact (List.intercalate_splitOn '/').trans String.toList_ofList.symm

/-- `extract_target_param` ends without an access out of bounds and returns the segment
at the index, or the empty view if the target has no such segment; the segments it returns,
joined with slashes, are the target without its leading slash. -/
theorem target_param_is_segment (target : String) (index : Nat) :
    targetParamLoop target.toList index 0 0 = some (extractTargetParam target index).toList ∧
      extractTargetParam target index = (targetSegments target)[index]?.getD "" ∧
      "/".intercalate ((List.range (targetSegments target).length).map (extractTargetParam target)) =
        String.ofList (withoutLeadingSlash target.toList) := by
  refine ⟨?_, extractTargetParam_eq, ?_⟩
  · rw [targetParamLoop_eq (Nat.zero_le _), extractTargetParam, String.toList_ofList, Nat.sub_zero]
  · have all : (List.range (targetSegments target).length).map (extractTargetParam target) =
        targetSegments target := by
      apply List.ext_getElem
      · simp
      · intro position first second
        simp [extractTargetParam_eq, second]
    rw [all, intercalate_targetSegments]

end Results

example : targetSegments "/api//rooms/" = ["api", "", "rooms", ""] := by decide

end TinyChat.Core
