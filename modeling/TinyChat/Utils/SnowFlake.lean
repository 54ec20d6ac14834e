import TinyChat.Bits.Fields
import TinyChat.Transition.Machine

/-! `utils/snowflake.hpp` and `utils/snowflake.cpp`: the id generator, reading by
reading of the system clock. Every `time_gen()` consumes the next reading, so a
call returns exactly if the readings last long enough. -/
namespace TinyChat.Utils

open TinyChat.Transition TinyChat.Bits

def initServiceBits : UInt64 := 1024
def serviceBits : UInt64 := 10
def sequenceBits : UInt64 := 12

/-- The sequence number from which a call waits for the next millisecond. -/
def sequenceLimit : UInt64 := 1 <<< (sequenceBits - 1)

/-- The first sequence number that no longer fits its field of an id. -/
def sequenceField : UInt64 := 1 <<< sequenceBits

/-- The static members of the class, with their initial values. -/
structure SnowFlake where
  serviceId : UInt64 := initServiceBits
  lastTimestamp : Int64 := 0
  customEpoch : UInt64 := 0
  sequenceId : UInt64 := 0
  deriving DecidableEq

/-- The readings of the system clock still to come. -/
abbrev Clock := List UInt64

def timeGen : Clock → Option (UInt64 × Clock)
  | [] => none
  | now :: rest => some (now, rest)

/-- The loop of `wait_till_next_ms`: its condition reads the clock, its body reads
it again into `now`; it returns `now` from before the reading that ended it. -/
def waitLoop (now : UInt64) : Clock → Option (UInt64 × Clock)
  | [] => none
  | [probe] => if probe ≤ now then none else some (now, [])
  | probe :: next :: rest => if probe ≤ now then waitLoop next rest else some (now, next :: rest)

def waitTillNextMs (clock : Clock) : Option (UInt64 × Clock) :=
  (timeGen clock).bind fun (now, rest) => waitLoop now rest

namespace SnowFlake

/-- `last_timestamp_` as the comparisons of `next_id` convert it. -/
def last (flake : SnowFlake) : UInt64 := flake.lastTimestamp.toUInt64

/-- `init`; there is no result while the clock has no reading to give. -/
def init (flake : SnowFlake) (serviceId customEpoch : UInt64) (clock : Clock) :
    Option (Except String (SnowFlake × Clock)) :=
  if flake.serviceId ≠ initServiceBits then
    some (.error "SnowFlake has already been initialized. ")
  else if serviceId ≥ initServiceBits then
    some (.error "SnowFlake must be inited with service bits <= 1023 and >= 0")
  else
    (timeGen clock).map fun (now, rest) =>
      .ok ({ flake with serviceId, lastTimestamp := now.toInt64, customEpoch }, rest)

/-- The id that `next_id` puts together from its time stamp and the members. -/
def compose (flake : SnowFlake) (timeStamp : UInt64) : UInt64 :=
  let timeStamp := (timeStamp - flake.customEpoch) <<< (serviceBits + sequenceBits)
  let serviceId := flake.serviceId <<< sequenceBits
  timeStamp ||| serviceId ||| flake.sequenceId

/-- How a call of `next_id` stands once the readings it takes are taken. -/
inductive Call where
  | returned (id : UInt64) (flake : SnowFlake) (clock : Clock)
  | threw (what : String) (flake : SnowFlake) (clock : Clock)
  /-- The readings ended first: the call has not returned and holds `mtx_`. -/
  | waiting (flake : SnowFlake)

/-- The tail of `next_id`, from the assignment of `last_timestamp_` on. -/
def issue (flake : SnowFlake) (timeStamp : UInt64) (clock : Clock) : Call :=
  .returned (flake.compose timeStamp) { flake with lastTimestamp := timeStamp.toInt64 } clock

def nextId (flake : SnowFlake) (clock : Clock) : Call :=
  if flake.serviceId = initServiceBits then
    .threw "SnowFlake need to be initialized first!" flake clock
  else
    match timeGen clock with
    | none => .waiting flake
    | some (timeStamp, clock) =>
      if timeStamp < flake.last then
        .threw s!"Clock moved backwards. Refusing to generate id for {timeStamp} milliseconds"
          flake clock
      else if timeStamp = flake.last then
        let flake := { flake with sequenceId := flake.sequenceId + 1 }
        if flake.sequenceId ≥ sequenceLimit then
          match waitTillNextMs clock with
          | none => .waiting flake
          | some (timeStamp, clock) => flake.issue timeStamp clock
        else flake.issue timeStamp clock
      else issue { flake with sequenceId := 0 } timeStamp clock

/-- The members after a call that used `timeStamp` and `sequence`. -/
def stamped (flake : SnowFlake) (timeStamp sequence : UInt64) : SnowFlake :=
  { flake with lastTimestamp := timeStamp.toInt64, sequenceId := sequence }

@[simp] theorem stamped_serviceId (flake : SnowFlake) (timeStamp sequence : UInt64) :
    (flake.stamped timeStamp sequence).serviceId = flake.serviceId := rfl

@[simp] theorem stamped_customEpoch (flake : SnowFlake) (timeStamp sequence : UInt64) :
    (flake.stamped timeStamp sequence).customEpoch = flake.customEpoch := rfl

@[simp] theorem stamped_sequenceId (flake : SnowFlake) (timeStamp sequence : UInt64) :
    (flake.stamped timeStamp sequence).sequenceId = sequence := rfl

@[simp] theorem stamped_last (flake : SnowFlake) (timeStamp sequence : UInt64) :
    (flake.stamped timeStamp sequence).last = timeStamp := UInt64.toUInt64_toInt64 timeStamp

/-- The time stamp and sequence number a returning call uses, and what it leaves
of the clock. -/
inductive Uses (flake : SnowFlake) : Clock → UInt64 → UInt64 → Clock → Prop where
  | nextMs (later : flake.last < timeStamp) : Uses flake (timeStamp :: rest) timeStamp 0 rest
  | sameMs (room : flake.sequenceId + 1 < sequenceLimit) :
      Uses flake (flake.last :: rest) flake.last (flake.sequenceId + 1) rest
  | exhausted (full : sequenceLimit ≤ flake.sequenceId + 1)
      (waited : waitTillNextMs clock = some (timeStamp, rest)) :
      Uses flake (flake.last :: clock) timeStamp (flake.sequenceId + 1) rest

/-- Everything a call can do. -/
inductive Outcome (flake : SnowFlake) : Clock → Call → Prop where
  | uninitialized (missing : flake.serviceId = initServiceBits) :
      Outcome flake clock (.threw "SnowFlake need to be initialized first!" flake clock)
  | noReading : Outcome flake [] (.waiting flake)
  | backwards (behind : timeStamp < flake.last) :
      Outcome flake (timeStamp :: rest) (.threw
        s!"Clock moved backwards. Refusing to generate id for {timeStamp} milliseconds" flake rest)
  | unfinished (full : sequenceLimit ≤ flake.sequenceId + 1) (waited : waitTillNextMs rest = none) :
      Outcome flake (flake.last :: rest) (.waiting { flake with sequenceId := flake.sequenceId + 1 })
  | used (timeStamp sequence : UInt64) (rest : Clock) (ready : flake.serviceId ≠ initServiceBits)
      (uses : Uses flake clock timeStamp sequence rest) :
      Outcome flake clock (.returned ((flake.stamped timeStamp sequence).compose timeStamp)
        (flake.stamped timeStamp sequence) rest)

theorem nextId_outcome (flake : SnowFlake) (clock : Clock) :
    Outcome flake clock (flake.nextId clock) := by
  unfold nextId
  split
  · rename_i missing
    exact .uninitialized missing
  · rename_i ready
    cases clock with
    | nil => exact .noReading
    | cons timeStamp rest =>
      dsimp only [timeGen]
      split
      · rename_i behind
        exact .backwards behind
      · rename_i notBehind
        split
        · rename_i same
          subst same
          split
          · rename_i full
            cases waited : waitTillNextMs rest with
            | none => exact .unfinished full waited
            | some result => exact .used _ _ _ ready (.exhausted full waited)
          · rename_i room
            exact .used _ _ _ ready (.sameMs (UInt64.not_le.mp room))
        · rename_i notSame
          exact .used _ _ _ ready (.nextMs
            (UInt64.lt_of_le_of_ne (UInt64.not_lt.mp notBehind) (Ne.symm notSame)))

/-- The id that the members stand for, as the call that left them composed it. -/
def currentId (flake : SnowFlake) : UInt64 := flake.compose flake.last

/-- Everything a returning call does. -/
theorem nextId_returned {flake after : SnowFlake} {clock rest : Clock} {id : UInt64}
    (called : flake.nextId clock = .returned id after rest) :
    ∃ timeStamp sequence, Uses flake clock timeStamp sequence rest ∧
      after = flake.stamped timeStamp sequence ∧ id = after.currentId := by
  have outcome := nextId_outcome flake clock
  rw [called] at outcome
  cases outcome with
  | used _ _ _ ready uses => exact ⟨_, _, uses, rfl, by rw [currentId, stamped_last]⟩

/-- A throwing call changes no member. -/
theorem nextId_threw {flake after : SnowFlake} {clock rest : Clock} {what : String}
    (called : flake.nextId clock = .threw what after rest) :
    after = flake ∧ rest.IsSuffix clock := by
  have outcome := nextId_outcome flake clock
  rw [called] at outcome
  cases outcome with
  | uninitialized _ => exact ⟨rfl, List.suffix_refl _⟩
  | backwards _ => exact ⟨rfl, List.suffix_cons ..⟩

/-- A call that has not returned has at most counted up for its millisecond. -/
theorem nextId_waiting {flake after : SnowFlake} {clock : Clock}
    (called : flake.nextId clock = .waiting after) :
    after = flake ∨ ∃ rest, clock = flake.last :: rest ∧
      sequenceLimit ≤ flake.sequenceId + 1 ∧ waitTillNextMs rest = none ∧
      after = { flake with sequenceId := flake.sequenceId + 1 } := by
  have outcome := nextId_outcome flake clock
  rw [called] at outcome
  cases outcome with
  | noReading => exact .inl rfl
  | unfinished full waited => exact .inr ⟨_, rfl, full, waited, rfl⟩

end SnowFlake

/-- The generator with the readings to come, the thread inside a call that has
not returned, and the results of the calls so far with the thread of each. -/
structure Generator where
  flake : SnowFlake
  clock : Clock
  holder : Option Nat := none
  log : List (Nat × Except String UInt64) := []
  deriving DecidableEq

namespace Generator

def ids (generator : Generator) : List UInt64 :=
  generator.log.filterMap fun entry => entry.2.toOption

/-- One call of `next_id` by a thread; `mtx_` is held from its start to its end. -/
def call (generator : Generator) (thread : Nat) : Option Generator :=
  if generator.holder.isSome then none
  else
    match generator.flake.nextId generator.clock with
    | .returned id flake clock =>
      some { flake, clock, holder := none, log := generator.log ++ [(thread, .ok id)] }
    | .threw what flake clock =>
      some { flake, clock, holder := none, log := generator.log ++ [(thread, .error what)] }
    | .waiting flake => some { flake, clock := [], holder := some thread, log := generator.log }

/-- Any threads calling `next_id` in any order. -/
def machine : Machine Generator Nat := ⟨call⟩

/-- The generator after an accepted `SnowFlake::init` on the static members. -/
def started (serviceId customEpoch : UInt64) (clock : Clock) : Option Generator :=
  match SnowFlake.init {} serviceId customEpoch clock with
  | some (.ok (flake, rest)) => some { flake, clock := rest }
  | _ => none

theorem started_eq_some {serviceId customEpoch : UInt64} {clock : Clock} {start : Generator}
    (accepted : started serviceId customEpoch clock = some start) :
    serviceId < initServiceBits ∧ ∃ now rest, clock = now :: rest ∧
      start = { flake := { serviceId, lastTimestamp := now.toInt64, customEpoch }, clock := rest } := by
  unfold started SnowFlake.init at accepted
  by_cases fits : serviceId ≥ initServiceBits
  · simp [fits] at accepted
  · cases clock with
    | nil => simp [fits, timeGen] at accepted
    | cons now rest =>
      simp only [fits, timeGen] at accepted
      cases accepted
      exact ⟨UInt64.not_le.mp fits, now, rest, rfl, rfl⟩

/-- What one call does to the generator. -/
inductive Calls (generator : Generator) (thread : Nat) : Generator → Prop where
  | returned {id : UInt64} {flake : SnowFlake} {clock : Clock}
      (called : generator.flake.nextId generator.clock = .returned id flake clock) :
      Calls generator thread
        { flake, clock, holder := none, log := generator.log ++ [(thread, .ok id)] }
  | threw {what : String} {flake : SnowFlake} {clock : Clock}
      (called : generator.flake.nextId generator.clock = .threw what flake clock) :
      Calls generator thread
        { flake, clock, holder := none, log := generator.log ++ [(thread, .error what)] }
  | waiting {flake : SnowFlake}
      (called : generator.flake.nextId generator.clock = .waiting flake) :
      Calls generator thread { flake, clock := [], holder := some thread, log := generator.log }

theorem calls_of_step {generator next : Generator} {thread : Nat}
    (taken : machine.step generator thread = some next) : Calls generator thread next := by
  simp only [machine, call] at taken
  split at taken
  · cases taken
  · split at taken <;> cases taken
    · exact .returned ‹_›
    · exact .threw ‹_›
    · exact .waiting ‹_›

theorem step_returned {generator : Generator} {id : UInt64} {flake : SnowFlake} {rest : Clock}
    (thread : Nat) (free : generator.holder = none)
    (called : generator.flake.nextId generator.clock = .returned id flake rest) :
    machine.step generator thread =
      some { flake, clock := rest, holder := none, log := generator.log ++ [(thread, .ok id)] } := by
  simp only [machine, call, free, called]
  rfl

@[simp] theorem ids_returned (generator : Generator) (flake : SnowFlake) (clock : Clock)
    (holder : Option Nat) (thread : Nat) (id : UInt64) :
    ids { flake, clock, holder, log := generator.log ++ [(thread, .ok id)] } =
      generator.ids ++ [id] := by
  simp [ids, Except.toOption]

@[simp] theorem ids_threw (generator : Generator) (flake : SnowFlake) (clock : Clock)
    (holder : Option Nat) (thread : Nat) (what : String) :
    ids { flake, clock, holder, log := generator.log ++ [(thread, .error what)] } =
      generator.ids := by
  simp [ids, Except.toOption]

@[simp] theorem ids_waiting (generator : Generator) (flake : SnowFlake) (clock : Clock)
    (holder : Option Nat) : ids { flake, clock, holder, log := generator.log } = generator.ids := rfl

end Generator

end TinyChat.Utils
