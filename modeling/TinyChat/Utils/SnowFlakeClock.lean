import TinyChat.Utils.SnowFlakeOrder

/-! The generator under any clock. `next_id` compares only its first reading with
`last_timestamp_`; the reading that `wait_till_next_ms` settles on is used as it
is, and the sequence is not reset after the wait. -/
namespace TinyChat.Utils

open TinyChat.Transition TinyChat.Bits

/-- Of the readings taken two by two, the first pair that rises starts no earlier
than `floor`. -/
def RisesFrom (floor : UInt64) : Clock → Prop
  | now :: probe :: rest => if now < probe then floor ≤ now else RisesFrom floor rest
  | _ => True

theorem waitLoop_risesFrom {floor now timeStamp : UInt64} {clock rest : Clock}
    (waited : waitLoop now clock = some (timeStamp, rest)) :
    RisesFrom floor (now :: clock) ↔ floor ≤ timeStamp := by
  fun_induction waitLoop now clock with
  | case1 => cases waited
  | case2 => cases waited
  | case3 now probe above =>
    cases waited
    simp [RisesFrom, UInt64.not_le.mp above]
  | case4 now probe next remaining below ih =>
    simp [RisesFrom, UInt64.not_lt.mpr below, ih waited]
  | case5 now probe next remaining above =>
    cases waited
    simp [RisesFrom, UInt64.not_le.mp above]

theorem waitLoop_none_risesFrom {floor now : UInt64} {clock : Clock}
    (waited : waitLoop now clock = none) : RisesFrom floor (now :: clock) := by
  fun_induction waitLoop now clock with
  | case1 => trivial
  | case2 now probe below => simp [RisesFrom, UInt64.not_lt.mpr below]
  | case3 => cases waited
  | case4 now probe next remaining below ih =>
    simpa [RisesFrom, UInt64.not_lt.mpr below] using ih waited
  | case5 => cases waited

theorem waitTillNextMs_risesFrom {floor timeStamp : UInt64} {clock rest : Clock}
    (waited : waitTillNextMs clock = some (timeStamp, rest)) :
    RisesFrom floor clock ↔ floor ≤ timeStamp := by
  cases clock with
  | nil => cases waited
  | cons now clock => exact waitLoop_risesFrom waited

theorem waitTillNextMs_none_risesFrom {floor : UInt64} {clock : Clock}
    (waited : waitTillNextMs clock = none) : RisesFrom floor clock := by
  cases clock with
  | nil => trivial
  | cons now clock => exact waitLoop_none_risesFrom waited

namespace SnowFlake

theorem lt_succ_of_fits {sequence : UInt64} (fits : sequence < sequenceField) :
    sequence < sequence + 1 := by
  have bound : sequence.toNat < 4096 := UInt64.lt_iff_toNat_lt.mp fits
  have counted : (sequence + 1).toNat = sequence.toNat + 1 := by
    rw [UInt64.toNat_add]
    exact Nat.mod_eq_of_lt (show sequence.toNat + 1 < 2 ^ 64 by omega)
  rw [UInt64.lt_iff_toNat_lt, counted]
  exact Nat.lt_succ_self _

/-- What a call uses is past what the last call used, also when the sequence is
exhausted, as long as the clock rises from `last_timestamp_` on. -/
theorem Uses.past {flake : SnowFlake} {clock rest : Clock} {timeStamp sequence : UInt64}
    (uses : Uses flake clock timeStamp sequence rest) (fits : flake.sequenceId < sequenceField)
    (holds : ∀ rest, clock = flake.last :: rest → sequenceLimit ≤ flake.sequenceId + 1 →
      RisesFrom flake.last rest ∧ flake.sequenceId + 1 < sequenceField) :
    (flake.last < timeStamp ∨ flake.last = timeStamp ∧ flake.sequenceId < sequence) ∧
      sequence < sequenceField := by
  have counts := lt_succ_of_fits fits
  cases uses with
  | nextMs newer => exact ⟨.inl newer, by decide⟩
  | sameMs room =>
    have below : sequenceLimit < sequenceField := by decide
    exact ⟨.inr ⟨rfl, counts⟩, UInt64.lt_trans room below⟩
  | exhausted full waited =>
    obtain ⟨rises, bound⟩ := holds _ rfl full
    rcases UInt64.lt_or_eq_of_le ((waitTillNextMs_risesFrom waited).mp rises) with newer | same
    · exact ⟨.inl newer, bound⟩
    · exact ⟨.inr ⟨same, counts⟩, bound⟩

/-- A call in an exhausted millisecond returns exactly if its wait does. -/
theorem nextId_exhausted {flake : SnowFlake} {rest : Clock}
    (ready : flake.serviceId ≠ initServiceBits) (full : sequenceLimit ≤ flake.sequenceId + 1) :
    flake.nextId (flake.last :: rest) = match waitTillNextMs rest with
      | none => .waiting { flake with sequenceId := flake.sequenceId + 1 }
      | some (timeStamp, remaining) =>
        let after := flake.stamped timeStamp (flake.sequenceId + 1)
        .returned after.currentId after remaining := by
  have full' : sequenceLimit ≤ ({ flake with sequenceId := flake.sequenceId + 1 } :
    SnowFlake).sequenceId := full
  simp only [nextId, timeGen, ready, UInt64.lt_irrefl, ge_iff_le, full', ↓reduceIte]
  cases waited : waitTillNextMs rest with
  | none => rfl
  | some result => rfl

/-- A call in a millisecond with room counts up and returns. -/
theorem nextId_sameMs {flake : SnowFlake} {rest : Clock}
    (ready : flake.serviceId ≠ initServiceBits) (room : flake.sequenceId + 1 < sequenceLimit) :
    flake.nextId (flake.last :: rest) =
      let after := flake.stamped flake.last (flake.sequenceId + 1)
      .returned after.currentId after rest := by
  have room' : ¬ sequenceLimit ≤ ({ flake with sequenceId := flake.sequenceId + 1 } :
    SnowFlake).sequenceId := UInt64.not_le.mpr room
  simp only [nextId, timeGen, ready, UInt64.lt_irrefl, ge_iff_le, room', ↓reduceIte]
  rfl

end SnowFlake

namespace Generator

/-- The call about to be made throws and changes no member, or returns an id
greater than every earlier one, or has not returned. -/
def CallKeeps (generator : Generator) : Prop :=
  match generator.flake.nextId generator.clock with
  | .returned id _ _ => ∀ earlier ∈ generator.ids, earlier < id
  | .threw _ flake _ => flake.lastTimestamp = generator.flake.lastTimestamp ∧
      flake.sequenceId = generator.flake.sequenceId
  | .waiting _ => True

theorem CallKeeps.returned {generator : Generator} {id : UInt64} {flake : SnowFlake}
    {rest : Clock} (keeps : CallKeeps generator)
    (called : generator.flake.nextId generator.clock = .returned id flake rest) :
    ∀ earlier ∈ generator.ids, earlier < id := by
  rw [CallKeeps, called] at keeps
  exact keeps

/-- The call about to be made leaves the sequence inside its field. -/
def FieldKept (generator : Generator) : Prop :=
  match generator.flake.nextId generator.clock with
  | .returned _ flake _ => flake.sequenceId < sequenceField
  | .threw _ _ _ => True
  | .waiting flake => flake.sequenceId < sequenceField

/-- If the call about to be made exhausts its millisecond, the clock next rises
from `last_timestamp_` or later, and the sequence has not run through its field. -/
def ClockHolds (generator : Generator) : Prop :=
  ∀ rest, generator.clock = generator.flake.last :: rest →
    sequenceLimit ≤ generator.flake.sequenceId + 1 →
    RisesFrom generator.flake.last rest ∧ generator.flake.sequenceId + 1 < sequenceField

/-- What calls keep as long as the clock holds. -/
structure Latest (serviceId customEpoch : UInt64) (generator : Generator) : Prop where
  service : generator.flake.serviceId = serviceId
  epoch : generator.flake.customEpoch = customEpoch
  fits : generator.flake.sequenceId < sequenceField
  within : Within customEpoch generator
  bounded : ∀ id ∈ generator.ids, id ≤ generator.flake.currentId
  latest : generator.flake.sequenceId = 0 ∨ generator.flake.currentId ∈ generator.ids ∨
    generator.clock = []

variable {serviceId customEpoch : UInt64} {generator next : Generator} {thread : Nat}

/-- The id of the members a call moves to exceeds the last one exactly if the
members are past the last ones. -/
theorem Latest.lt_iff (valid : Latest serviceId customEpoch generator)
    (accepted : serviceId < initServiceBits)
    {timeStamp sequence : UInt64} (member : timeStamp ∈ generator.flake.last :: generator.clock)
    (fits : sequence < sequenceField) :
    generator.flake.currentId < (generator.flake.stamped timeStamp sequence).currentId ↔
      generator.flake.last < timeStamp ∨
        generator.flake.last = timeStamp ∧ generator.flake.sequenceId < sequence := by
  have inRange : InRange generator.flake.customEpoch
      [generator.flake.last, (generator.flake.stamped timeStamp sequence).last] := by
    rw [valid.epoch, SnowFlake.stamped_last]
    intro reading inPair
    rcases List.mem_cons.mp inPair with first | second
    · exact valid.within reading (first ▸ List.mem_cons_self ..)
    · exact valid.within reading (List.mem_singleton.mp second ▸ member)
  have ordered := SnowFlake.currentId_lt_iff
    (generator.flake.stamped_serviceId timeStamp sequence)
    (generator.flake.stamped_customEpoch timeStamp sequence) (valid.service ▸ accepted) inRange
    (UInt64.lt_iff_toNat_lt.mp valid.fits) (UInt64.lt_iff_toNat_lt.mp fits)
  simpa using ordered

/-- A call that leaves the sequence in its field keeps the order exactly if the
clock holds. -/
theorem Latest.agree (valid : Latest serviceId customEpoch generator)
    (accepted : serviceId < initServiceBits) :
    CallKeeps generator ∧ FieldKept generator ↔ ClockHolds generator := by
  constructor
  · intro ⟨keeps, field⟩ rest sameMs full
    have ready : generator.flake.serviceId ≠ initServiceBits :=
      fun same => UInt64.lt_irrefl _ (same ▸ valid.service.symm ▸ accepted)
    have called := @SnowFlake.nextId_exhausted _ rest ready full
    rw [← sameMs] at called
    rw [FieldKept, called] at field
    cases waited : waitTillNextMs rest with
    | none => exact ⟨waitTillNextMs_none_risesFrom waited, by simpa [waited] using field⟩
    | some result =>
      obtain ⟨timeStamp, remaining⟩ := result
      have fits : generator.flake.sequenceId + 1 < sequenceField := by simpa [waited] using field
      have counted : generator.flake.sequenceId ≠ 0 := by
        intro zero
        rw [zero] at full
        exact absurd full (by decide)
      have issued : generator.flake.currentId ∈ generator.ids := by
        rcases valid.latest with zero | issued | empty
        · exact absurd zero counted
        · exact issued
        · simp [empty] at sameMs
      have greater : generator.flake.currentId <
          (generator.flake.stamped timeStamp (generator.flake.sequenceId + 1)).currentId :=
        keeps.returned (by rw [called, waited]) _ issued
      have member : timeStamp ∈ generator.flake.last :: generator.clock :=
        List.mem_cons_of_mem _ (sameMs ▸ List.mem_cons_of_mem _ (waitTillNextMs_mem waited).1)
      refine ⟨(waitTillNextMs_risesFrom waited).mpr ?_, fits⟩
      rcases (valid.lt_iff accepted member fits).mp greater with newer | ⟨same, _⟩
      · exact UInt64.le_of_lt newer
      · exact same ▸ UInt64.le_refl _
  · intro holds
    unfold CallKeeps FieldKept
    cases called : generator.flake.nextId generator.clock with
    | returned id flake rest =>
      obtain ⟨timeStamp, sequence, uses, same, composed⟩ := SnowFlake.nextId_returned called
      subst same
      obtain ⟨past, fits⟩ := uses.past valid.fits holds
      refine ⟨fun earlier member => ?_, fits⟩
      rw [composed]
      exact UInt64.lt_of_le_of_lt (valid.bounded earlier member)
        ((valid.lt_iff accepted (List.mem_cons_of_mem _ uses.mem) fits).mpr past)
    | threw what flake rest =>
      obtain ⟨same, _⟩ := SnowFlake.nextId_threw called
      subst same
      exact ⟨⟨rfl, rfl⟩, trivial⟩
    | waiting flake =>
      refine ⟨trivial, ?_⟩
      rcases SnowFlake.nextId_waiting called with same | ⟨rest, sameMs, full, _, same⟩
      · exact same ▸ valid.fits
      · exact same ▸ (holds rest sameMs full).2

theorem Latest.step (valid : Latest serviceId customEpoch generator)
    (accepted : serviceId < initServiceBits) (holds : ClockHolds generator)
    (taken : machine.step generator thread = some next) : Latest serviceId customEpoch next := by
  have within := valid.within.step taken
  obtain ⟨keeps, field⟩ := (valid.agree accepted).mpr holds
  unfold CallKeeps at keeps
  unfold FieldKept at field
  cases calls_of_step taken with
  | returned called =>
    obtain ⟨timeStamp, sequence, uses, same, composed⟩ := SnowFlake.nextId_returned called
    rw [called] at keeps field
    subst same
    subst composed
    refine ⟨valid.service, valid.epoch, field, within, ?_, .inr (.inl (by simp))⟩
    intro id member
    rw [ids_returned] at member
    rcases List.mem_append.mp member with earlier | last
    · exact UInt64.le_of_lt (keeps id earlier)
    · exact List.mem_singleton.mp last ▸ UInt64.le_refl _
  | threw called =>
    obtain ⟨same, kept⟩ := SnowFlake.nextId_threw called
    subst same
    refine ⟨valid.service, valid.epoch, valid.fits, within, by simpa using valid.bounded, ?_⟩
    rcases valid.latest with zero | issued | empty
    · exact .inl zero
    · exact .inr (.inl (by simpa using issued))
    · exact .inr (.inr (List.suffix_nil.mp (empty ▸ kept)))
  | waiting called =>
    rw [called] at field
    rcases SnowFlake.nextId_waiting called with same | ⟨rest, sameMs, full, _, same⟩
    · subst same
      exact ⟨valid.service, valid.epoch, field, within, valid.bounded, .inr (.inr rfl)⟩
    · subst same
      refine ⟨valid.service, valid.epoch, field, within, ?_, .inr (.inr rfl)⟩
      intro id member
      have counts := SnowFlake.lt_succ_of_fits valid.fits
      exact UInt64.le_of_lt (UInt64.lt_of_le_of_lt (valid.bounded id member)
        ((valid.lt_iff accepted (List.mem_cons_self ..) field).mpr (.inr ⟨rfl, counts⟩)))

/-- As long as every call that exhausts its millisecond sees the clock rise from
`last_timestamp_` on, with the sequence still inside its field, every call throws
and changes nothing or returns an id greater than all earlier ones; and while the
sequence stays inside its field nothing less is enough. -/
theorem nextId_increasing_of_clockHolds {clock : Clock} {start final : Generator}
    {threads : List Nat} (accepted : started serviceId customEpoch clock = some start)
    (inRange : InRange customEpoch clock) (ran : machine.run start threads = some final) :
    (machine.Allowed (fun _ generator _ => ClockHolds generator) start threads →
      machine.Allowed (fun _ generator _ => CallKeeps generator) start threads) ∧
    (machine.Allowed (fun _ generator _ => CallKeeps generator ∧ FieldKept generator)
        start threads →
      machine.Allowed (fun _ generator _ => ClockHolds generator) start threads) := by
  obtain ⟨fits, now, rest, same, begun⟩ := started_eq_some accepted
  have initial : Latest serviceId customEpoch start := by
    subst same
    subst begun
    exact ⟨rfl, rfl, show (0 : UInt64) < sequenceField by decide, by simpa [Within, SnowFlake.last] using inRange,
      by simp [ids], .inl rfl⟩
  have same : machine.Allowed (fun _ generator _ => CallKeeps generator ∧ FieldKept generator)
      start threads ↔ machine.Allowed (fun _ generator _ => ClockHolds generator) start threads :=
    Machine.allowed_congr (motive := fun _ generator => Latest serviceId customEpoch generator)
      ran initial (fun _ _ _ _ valid _ => valid.agree fits)
      (fun _ _ _ _ valid holds taken => valid.step fits holds taken)
  refine ⟨fun holds past action rest state split reached => ?_, same.mp⟩
  exact (same.mpr holds past action rest state split reached).1

/-- A millisecond filled up: calls at one reading, each counting one up. -/
theorem run_sameMs {flake : SnowFlake} (ready : flake.serviceId ≠ initServiceBits)
    (reset : flake.sequenceId = 0) (thread : Nat) {number : Nat} (room : number < 2048)
    (rest : Clock) :
    ∃ final, machine.run { flake, clock := List.replicate number flake.last ++ rest }
        (List.replicate number thread) = some final ∧
      final.flake = flake.stamped flake.last (UInt64.ofNat number) ∧ final.clock = rest ∧
      final.holder = none ∧ (0 < number → final.flake.currentId ∈ final.ids) := by
  induction number generalizing rest with
  | zero =>
    refine ⟨_, rfl, ?_, rfl, rfl, fun positive => absurd positive (Nat.lt_irrefl 0)⟩
    cases flake
    cases reset
    rfl
  | succ number ih =>
    obtain ⟨middle, ran, members, readings, free, _⟩ := ih (by omega) (flake.last :: rest)
    obtain ⟨middleFlake, middleClock, holder, log⟩ := middle
    cases members
    cases readings
    cases free
    have counted : UInt64.ofNat number + 1 = UInt64.ofNat (number + 1) := (UInt64.ofNat_add ..).symm
    have below : (flake.stamped flake.last (UInt64.ofNat number)).sequenceId + 1 <
        sequenceLimit := by
      rw [SnowFlake.stamped_sequenceId, counted, UInt64.lt_iff_toNat_lt,
        UInt64.toNat_ofNat_of_lt' (by change _ < 2 ^ 64; omega)]
      exact room
    have called := @SnowFlake.nextId_sameMs (flake.stamped flake.last (.ofNat number)) rest
      ready below
    rw [SnowFlake.stamped_last, SnowFlake.stamped_sequenceId, counted] at called
    let after := flake.stamped flake.last (.ofNat (number + 1))
    refine ⟨{ flake := after, clock := rest, log := log ++ [(thread, .ok after.currentId)] },
      ?_, rfl, rfl, rfl, fun _ => ?_⟩
    · rw [List.replicate_succ', List.replicate_succ', List.append_assoc, Machine.run_snoc_iff]
      exact ⟨_, ran, step_returned thread rfl called⟩
    · simp [ids, Except.toOption]

/-- After 2047 calls in millisecond 10 the sequence runs out; the clock then
shows 5 and 6, and the call returns an id of millisecond 5. -/
theorem nextId_goes_back_in_wait :
    ¬ ∀ (serviceId customEpoch : UInt64) (clock : Clock) (start final : Generator)
      (threads : List Nat), started serviceId customEpoch clock = some start →
      InRange customEpoch clock → machine.run start threads = some final →
      machine.Allowed (fun _ generator _ => CallKeeps generator) start threads := by
  intro claimed
  obtain ⟨number, full⟩ : ∃ number, number = 2047 := ⟨_, rfl⟩
  let flake : SnowFlake := { serviceId := 0, lastTimestamp := 10 }
  obtain ⟨⟨members, readings, holder, log⟩, ran, same, sameClock, free, issued⟩ :=
    @run_sameMs flake (by decide) rfl 0 number (by omega) [10, 5, 6]
  cases same
  cases sameClock
  cases free
  have called : (flake.stamped flake.last (.ofNat number)).nextId [10, 5, 6] =
      .returned (flake.stamped 5 2048).currentId (flake.stamped 5 2048) [] := by
    subst full
    exact SnowFlake.nextId_exhausted (by decide) (by decide)
  have inRange : InRange 0 (10 :: (List.replicate number 10 ++ [10, 5, 6])) := by
    intro reading member
    have small : reading = 10 ∨ reading = 5 ∨ reading = 6 := by
      simp only [List.mem_cons, List.mem_append, List.mem_replicate] at member
      grind
    rcases small with same | same | same <;> subst same <;> decide
  have last := @step_returned
    { flake := flake.stamped flake.last (.ofNat number), clock := [10, 5, 6], log } _ _ _ 0 rfl called
  have keeps := claimed 0 0 (10 :: (List.replicate number 10 ++ [10, 5, 6]))
    { flake, clock := List.replicate number 10 ++ [10, 5, 6] } _ (List.replicate number 0 ++ [0])
    rfl inRange (Machine.run_snoc_iff.mpr ⟨_, ran, last⟩) (List.replicate number 0) 0 [] _ rfl ran
  have less := CallKeeps.returned keeps called _ (issued (by omega))
  subst full
  have backwards : ({ serviceId := 0, lastTimestamp := 10, sequenceId := 2047 } :
      SnowFlake).currentId < ({ serviceId := 0, lastTimestamp := 5, sequenceId := 2048 } :
      SnowFlake).currentId := less
  exact absurd backwards (by decide)

/-- The clock steps back before a call, which throws. -/
theorem nextId_increasing_step_back :
    let start : Generator :=
      { flake := { serviceId := 1, lastTimestamp := 20, customEpoch := 3 }, clock := [19, 22] }
    machine.Allowed (fun _ generator _ => CallKeeps generator) start [0] := by
  intro start
  refine (@nextId_increasing_of_clockHolds 1 3 [20, 19, 22] start _ [0] (by decide)
    (by simp [InRange]) (Option.some_get (by decide)).symm).1 ?_
  refine Machine.allowed_snoc_iff.mpr ⟨Machine.allowed_nil, fun state reached rest same => ?_⟩
  cases reached
  exact absurd (List.cons.inj same).1 (by decide)

end Generator

end TinyChat.Utils
