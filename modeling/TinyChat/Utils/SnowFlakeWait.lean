import Mathlib.Data.Nat.Find
import Mathlib.Order.Lattice
import Mathlib.Order.Monotone.Basic
import TinyChat.Utils.SnowFlakeClock

/-! `wait_till_next_ms` on a clock whose readings never end. The condition of its loop
takes one reading and its body another, so only ticks between the body and the next
condition are seen, and the returned reading is the one before the tick. -/
namespace TinyChat.Utils

universe u

section Loop

variable {Time : Type u} [LE Time] [DecidableLE Time]

/-- The loop of `wait_till_next_ms` for a number of turns at most, with the number of
readings taken before. -/
def waitOn (readings : ℕ → Time) (now : Time) (taken : ℕ) : ℕ → Option Time
  | 0 => none
  | turns + 1 =>
    if readings taken ≤ now then waitOn readings (readings (taken + 1)) (taken + 2) turns
    else some now

/-- The function returns the result, however many turns that takes. -/
def WaitReturns (readings : ℕ → Time) (result : Time) : Prop :=
  ∃ turns, waitOn readings (readings 0) 1 turns = some result

/-- The loop only compares readings, so it does the same on other readings in the same
order. -/
theorem waitOn_map {Other : Type u} [LE Other] [DecidableLE Other] {image : Time → Other}
    (keeps : ∀ first second, image first ≤ image second ↔ first ≤ second) (readings : ℕ → Time)
    (now : Time) (taken turns : ℕ) : waitOn (image ∘ readings) (image now) taken turns =
      (waitOn readings now taken turns).map image := by
  induction turns generalizing now taken with
  | zero => rfl
  | succ turns ih =>
    simp only [waitOn, Function.comp_apply, keeps]
    split
    · exact ih ..
    · rfl

/-- The generator's `u64` readings may be taken as numbers. -/
theorem waitReturns_toNat_iff {readings : ℕ → UInt64} {result : UInt64} :
    WaitReturns (UInt64.toNat ∘ readings) result.toNat ↔ WaitReturns readings result := by
  have keeps (first second : UInt64) : first.toNat ≤ second.toNat ↔ first ≤ second :=
    UInt64.le_iff_toNat_le.symm
  refine exists_congr fun turns => ?_
  rw [Function.comp_apply, waitOn_map keeps]
  cases waitOn readings (readings 0) 1 turns with
  | none => simp
  | some found => simp [UInt64.toNat_inj]

end Loop

section Ticks

variable {Time : Type u} [LinearOrder Time] {readings : ℕ → Time} {last result : Time}
variable {turn turns : ℕ}

/-- The clock ticks between the body of a turn and the next condition. -/
def Ticks (readings : ℕ → Time) (turn : ℕ) : Prop := readings (2 * turn) < readings (2 * turn + 1)

/-- The loop ends with the first tick it sees. -/
theorem waitOn_eq_some_iff :
    waitOn readings (readings (2 * turn)) (2 * turn + 1) turns = some result ↔
      ∃ stop, turn ≤ stop ∧ stop < turn + turns ∧
        (∀ earlier, turn ≤ earlier → earlier < stop → ¬ Ticks readings earlier) ∧
        Ticks readings stop ∧ result = readings (2 * stop) := by
  induction turns generalizing turn with
  | zero =>
    constructor
    · exact nofun
    · intro ⟨stop, from_, below, _⟩
      omega
  | succ turns ih =>
    by_cases ticks : Ticks readings turn
    · have here : waitOn readings (readings (2 * turn)) (2 * turn + 1) (turns + 1) =
          some (readings (2 * turn)) := by
        rw [waitOn, if_neg (not_le.mpr ticks)]
      rw [here]
      constructor
      · intro same
        exact ⟨turn, Nat.le_refl _, by omega, fun earlier _ _ => by omega, ticks,
          (Option.some.inj same).symm⟩
      · intro ⟨stop, _, _, before, _, same⟩
        rcases Nat.lt_or_ge turn stop with later | now
        · exact absurd ticks (before turn (Nat.le_refl _) later)
        · obtain rfl : turn = stop := by omega
          rw [same]
    · have next : waitOn readings (readings (2 * turn)) (2 * turn + 1) (turns + 1) =
          waitOn readings (readings (2 * (turn + 1))) (2 * (turn + 1) + 1) turns := by
        rw [waitOn, if_pos (not_lt.mp ticks)]
        rfl
      rw [next, ih]
      refine exists_congr fun stop => ?_
      constructor
      · intro ⟨past, below, before, ends⟩
        refine ⟨by omega, by omega, fun earlier from_ under => ?_, ends⟩
        rcases Nat.lt_or_ge turn earlier with later | now
        · exact before earlier later under
        · obtain rfl : turn = earlier := by omega
          exact ticks
      · intro ⟨past, below, before, ends, same⟩
        have later : turn ≠ stop := by
          rintro rfl
          exact ticks ends
        exact ⟨by omega, by omega, fun earlier from_ under => before earlier (by omega) under,
          ends, same⟩

theorem waitReturns_iff : WaitReturns readings result ↔ ∃ stop,
    (∀ earlier < stop, ¬ Ticks readings earlier) ∧ Ticks readings stop ∧
      result = readings (2 * stop) := by
  constructor
  · intro ⟨turns, waited⟩
    obtain ⟨stop, _, _, before, ends⟩ := (@waitOn_eq_some_iff _ _ _ _ 0 _).mp waited
    exact ⟨stop, fun earlier under => before earlier (Nat.zero_le _) under, ends⟩
  · intro ⟨stop, before, ends⟩
    exact ⟨stop + 1, (@waitOn_eq_some_iff _ _ _ _ 0 _).mpr
      ⟨stop, Nat.zero_le _, by omega, fun earlier _ under => before earlier under, ends⟩⟩

theorem exists_waitReturns_iff : (∃ result, WaitReturns readings result) ↔ ∃ turn, Ticks readings turn := by
  constructor
  · intro ⟨_, returned⟩
    obtain ⟨stop, _, ticks, _⟩ := waitReturns_iff.mp returned
    exact ⟨stop, ticks⟩
  · intro seen
    classical
    exact ⟨_, waitReturns_iff.mpr ⟨Nat.find seen, fun _ under => Nat.find_min seen under,
      Nat.find_spec seen, rfl⟩⟩

/-- On readings that never go back and start at `last` or later, the function returns a
later one exactly if it ever sees a tick and does not see the one that ends `last`. -/
theorem wait_past_last_iff (forward : Monotone readings) (atLeast : last ≤ readings 0) :
    (∃ result, WaitReturns readings result ∧ last < result) ↔
      (∃ turn, Ticks readings turn) ∧
        ∀ turn, readings (2 * turn) = last → readings (2 * turn + 1) = last := by
  constructor
  · intro ⟨result, returned, past⟩
    refine ⟨exists_waitReturns_iff.mp ⟨result, returned⟩, fun turn here => ?_⟩
    obtain ⟨stop, before, _, rfl⟩ := waitReturns_iff.mp returned
    have earlier : turn < stop := by
      by_contra later
      have ordered : readings (2 * stop) ≤ readings (2 * turn) := forward (by omega)
      exact absurd (lt_of_lt_of_le past ordered) (not_lt.mpr here.le)
    have still := not_lt.mp (before turn earlier)
    exact le_antisymm (here ▸ still) (here ▸ forward (Nat.le_succ _))
  · intro ⟨seen, quiet⟩
    obtain ⟨result, returned⟩ := exists_waitReturns_iff.mpr seen
    refine ⟨result, returned, ?_⟩
    obtain ⟨stop, _, ticks, rfl⟩ := waitReturns_iff.mp returned
    have ordered : last ≤ readings (2 * stop) := atLeast.trans (forward (Nat.zero_le _))
    refine lt_of_le_of_ne ordered fun same => ?_
    have later : readings (2 * stop) < readings (2 * stop + 1) := ticks
    rw [quiet stop same.symm, same] at later
    exact lt_irrefl _ later

end Ticks

section Generators

variable {readings : ℕ → UInt64} {now timeStamp : UInt64} {taken turns : ℕ}

/-- On a finite part of the readings, the loop is the loop of the generator. -/
theorem waitLoop_range' : (waitLoop now ((List.range' taken (2 * turns)).map readings)).map Prod.fst =
    waitOn readings now taken turns := by
  induction turns generalizing now taken with
  | zero => rfl
  | succ turns ih =>
    have split : (List.range' taken (2 * (turns + 1))).map readings =
        readings taken :: readings (taken + 1) ::
          (List.range' (taken + 2) (2 * turns)).map readings := by
      rw [Nat.mul_succ, List.range'_succ, List.range'_succ]
      rfl
    rw [split, waitLoop, waitOn]
    split
    · exact ih
    · rfl

/-- A call that finds its millisecond exhausted issues its id with the time stamp that the
function returns. -/
theorem nextId_exhausted_last {flake : SnowFlake} (ready : flake.serviceId ≠ initServiceBits)
    (full : sequenceLimit ≤ flake.sequenceId + 1) (returned : WaitReturns readings timeStamp) :
    ∃ count id after rest, flake.nextId (flake.last :: (List.range count).map readings) =
      .returned id after rest ∧ after.last = timeStamp := by
  obtain ⟨turns, waited⟩ := returned
  rw [← waitLoop_range'] at waited
  obtain ⟨⟨stamp, rest⟩, looped, rfl⟩ := Option.map_eq_some_iff.mp waited
  have shape : (List.range (2 * turns + 1)).map readings =
      readings 0 :: (List.range' 1 (2 * turns)).map readings := by
    rw [List.range_eq_range', List.range'_succ, List.map_cons]
  have whole : waitTillNextMs ((List.range (2 * turns + 1)).map readings) = some (stamp, rest) := by
    rw [shape]
    exact looped
  have called := @SnowFlake.nextId_exhausted flake ((List.range (2 * turns + 1)).map readings)
    ready full
  rw [whole] at called
  exact ⟨_, _, _, _, called, SnowFlake.stamped_last ..⟩

end Generators

/-- A clock that ticks with every reading. -/
theorem wait_returns_last :
    ¬ ∀ (readings : ℕ → ℕ) (last : ℕ), Monotone readings → (∀ bound, ∃ turn, bound < readings turn) →
      last ≤ readings 0 → ∃ result, WaitReturns readings result ∧ last < result := by
  intro claimed
  have unbounded : ∀ bound : ℕ, ∃ turn, bound < turn + 10 := fun bound => ⟨bound, by omega⟩
  obtain ⟨result, returned, past⟩ := claimed (· + 10) 10
    (fun _ _ ordered => Nat.add_le_add_right ordered 10) unbounded (Nat.le_refl _)
  obtain ⟨stop, before, _, rfl⟩ := waitReturns_iff.mp returned
  have first : stop = 0 := by
    by_contra later
    exact before 0 (Nat.pos_of_ne_zero later) (by simp [Ticks])
  subst first
  exact absurd past (by decide)

/-- A clock that shows each millisecond three times, but for the first. -/
theorem wait_past_last_iff_thirds :
    (∃ result, WaitReturns (fun taken => 10 + (taken + 1) / 3) result ∧ 10 < result) ↔
      (∃ turn, Ticks (fun taken => 10 + (taken + 1) / 3) turn) ∧
        ∀ turn, 10 + (2 * turn + 1) / 3 = 10 → 10 + (2 * turn + 1 + 1) / 3 = 10 :=
  wait_past_last_iff (fun first second ordered => by omega) (by decide)

end TinyChat.Utils
