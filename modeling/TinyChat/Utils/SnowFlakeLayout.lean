import TinyChat.Utils.SnowFlakeOrder

/-! What the tests' `parse_id` reads back from a returned id, and why generators
with different service ids share none. The epoch may be any word, also one later
than the clock: the elapsed time is then taken modulo its 42 bits. -/
namespace TinyChat.Utils

open TinyChat.Transition TinyChat.Bits

/-- The three numbers `SnowFlakeTest::parse_id` takes an id apart into. -/
structure ParsedId where
  sequenceId : UInt64
  serviceId : UInt64
  timestamp : UInt64
  deriving DecidableEq

def parseId (ownEpoch id : UInt64) : ParsedId :=
  let sequenceId := id &&& ((1 <<< sequenceBits) - 1)
  let id := id >>> sequenceBits
  let serviceId := id &&& ((1 <<< serviceBits) - 1)
  let id := id >>> serviceBits
  { sequenceId, serviceId, timestamp := id + ownEpoch }

theorem parseId_eq (ownEpoch id : UInt64) :
    parseId ownEpoch id = ⟨id &&& 0xFFF, (id >>> 12) &&& 0x3FF, (id >>> 22) + ownEpoch⟩ := by
  have shifted : id >>> sequenceBits >>> serviceBits = id >>> 22 := by
    rw [← UInt64.toNat_inj, UInt64.toNat_shiftRight, UInt64.toNat_shiftRight,
      UInt64.toNat_shiftRight]
    exact (Nat.shiftRight_add _ 12 10).symm
  simp only [parseId, shifted]
  rfl

/-- Masking with the low ones of a word is taking its value modulo their power. -/
private theorem toNat_and_ones (word : UInt64) (bits : Nat) (ones : UInt64)
    (mask : ones.toNat = 2 ^ bits - 1) : (word &&& ones).toNat = word.toNat % 2 ^ bits := by
  rw [UInt64.toNat_and, mask, Nat.and_two_pow_sub_one_eq_mod]

namespace SnowFlake

variable {flake : SnowFlake}

theorem currentId_sequence (accepted : flake.serviceId < initServiceBits)
    (fits : flake.sequenceId.toNat < 2 ^ 12) : flake.currentId &&& 0xFFF = flake.sequenceId := by
  rw [← UInt64.toNat_inj, toNat_and_ones _ 12 _ rfl, currentId, compose_toNat _ accepted]
  exact packFields_low (UInt64.lt_iff_toNat_lt.mp accepted) fits

theorem currentId_service (accepted : flake.serviceId < initServiceBits)
    (fits : flake.sequenceId.toNat < 2 ^ 12) :
    (flake.currentId >>> 12) &&& 0x3FF = flake.serviceId := by
  rw [← UInt64.toNat_inj, toNat_and_ones _ 10 _ rfl, UInt64.toNat_shiftRight, currentId,
    compose_toNat _ accepted]
  exact packFields_mid (UInt64.lt_iff_toNat_lt.mp accepted) fits

theorem currentId_elapsed (accepted : flake.serviceId < initServiceBits)
    (fits : flake.sequenceId.toNat < 2 ^ 12) :
    (flake.currentId >>> 22).toNat = flake.elapsed flake.last := by
  have service : flake.serviceId.toNat < 2 ^ 10 := UInt64.lt_iff_toNat_lt.mp accepted
  rw [UInt64.toNat_shiftRight, currentId, compose_toNat _ accepted]
  exact (Nat.shiftRight_add _ 12 10).trans (packFields_high service fits)

/-- The elapsed time is the true difference modulo 42 bits, for every epoch. -/
theorem elapsed_emod (timeStamp : UInt64) : (flake.elapsed timeStamp : Int) =
    ((timeStamp.toNat : Int) - flake.customEpoch.toNat) % 2 ^ 42 := by
  have stampFits := timeStamp.toNat_lt
  have epochFits := flake.customEpoch.toNat_lt
  rw [elapsed, UInt64.toNat_sub]
  omega

end SnowFlake

namespace Generator

/-- Every id handed out so far carries the service id. -/
def Serves (serviceId : UInt64) (generator : Generator) : Prop :=
  ∀ id ∈ generator.ids, (id >>> 12) &&& 0x3FF = serviceId

theorem Serves.step {serviceId customEpoch : UInt64} {generator next : Generator} {thread : Nat}
    (serves : Serves serviceId generator) (valid : Counting serviceId customEpoch generator)
    (accepted : serviceId < initServiceBits)
    (taken : machine.step generator thread = some next) : Serves serviceId next := by
  have after := valid.step taken
  cases calls_of_step taken with
  | returned called =>
    obtain ⟨_, _, _, _, composed⟩ := SnowFlake.nextId_returned called
    intro id member
    rw [ids_returned] at member
    rcases List.mem_append.mp member with earlier | last
    · exact serves id earlier
    · rw [List.mem_singleton.mp last, composed]
      exact (SnowFlake.currentId_service (after.service ▸ accepted) after.room.fits).trans
        after.service
  | threw _ => exact fun id member => serves id (by simpa using member)
  | waiting _ => exact serves

theorem Serves.run {serviceId customEpoch : UInt64} {clock : Clock} {start final : Generator}
    {threads : List Nat} (accepted : started serviceId customEpoch clock = some start)
    (steady : NonDecreasing clock) (ran : machine.run start threads = some final) :
    Serves serviceId final := by
  obtain ⟨fits, _, _, _, begun⟩ := started_eq_some accepted
  have initial : Serves serviceId start := by
    subst begun
    simp [Serves, ids]
  refine (machine.invariant
    (motive := fun generator => Counting serviceId customEpoch generator ∧
      Serves serviceId generator) ran ⟨.start accepted steady, initial⟩ ?_).2
  intro generator thread next held taken
  obtain ⟨valid, serves⟩ := held
  exact ⟨valid.step taken, serves.step valid fits taken⟩

/-- A returned id takes apart into the sequence number, the service id and the
elapsed time it was made of; so two generators with different service ids never
return a common id, whatever their epochs, clocks and calls. -/
theorem nextId_layout {serviceId customEpoch : UInt64} {clock : Clock} {start reached : Generator}
    {threads : List Nat} (accepted : started serviceId customEpoch clock = some start)
    (steady : NonDecreasing clock) (ran : machine.run start threads = some reached) :
    (∀ id flake rest, reached.flake.nextId reached.clock = .returned id flake rest →
      id &&& 0xFFF = flake.sequenceId ∧ (id >>> 12) &&& 0x3FF = serviceId ∧
      ((id >>> 22).toNat : Int) = ((flake.last.toNat : Int) - customEpoch.toNat) % 2 ^ 42 ∧
      ∀ ownEpoch, parseId ownEpoch id = ⟨flake.sequenceId, serviceId, (id >>> 22) + ownEpoch⟩) ∧
    ∀ otherService otherEpoch otherClock otherStart otherThreads otherReached,
      otherService ≠ serviceId →
      started otherService otherEpoch otherClock = some otherStart → NonDecreasing otherClock →
      machine.run otherStart otherThreads = some otherReached →
      ∀ id ∈ reached.ids, id ∉ otherReached.ids := by
  constructor
  · intro id flake rest called
    have valid := Counting.run accepted steady ran
    have fits := (started_eq_some accepted).1
    obtain ⟨timeStamp, sequence, uses, same, composed⟩ := SnowFlake.nextId_returned called
    obtain ⟨_, room, _⟩ := uses.steady valid.room valid.steady
    rw [← same] at room
    have service : flake.serviceId = serviceId := by rw [same]; exact valid.service
    have epoch : flake.customEpoch = customEpoch := by rw [same]; exact valid.epoch
    have low := SnowFlake.currentId_sequence (service ▸ fits) room.fits
    have mid := SnowFlake.currentId_service (service ▸ fits) room.fits
    have high := SnowFlake.currentId_elapsed (service ▸ fits) room.fits
    rw [← composed] at low mid high
    refine ⟨low, mid.trans service, ?_, fun ownEpoch => ?_⟩
    · rw [high, SnowFlake.elapsed_emod, epoch]
    · rw [parseId_eq, low, mid, service]
  · intro otherService _ _ _ _ _ different otherAccepted otherSteady otherRan id member shared
    have mine := Serves.run accepted steady ran id member
    have others := Serves.run otherAccepted otherSteady otherRan id shared
    exact different (others.symm.trans mine)

/-- A second call in one millisecond, with an epoch later than the clock. -/
theorem nextId_layout_late_epoch :
    let start : Generator :=
      { flake := { serviceId := 5, lastTimestamp := 7, customEpoch := 9 }, clock := [7, 7] }
    let reached : Generator := (machine.run start [0]).get (by decide)
    ∃ id flake rest, reached.flake.nextId reached.clock = .returned id flake rest ∧
      id &&& 0xFFF = flake.sequenceId ∧ (id >>> 12) &&& 0x3FF = 5 ∧
      ((id >>> 22).toNat : Int) = ((flake.last.toNat : Int) - (9 : UInt64).toNat) % 2 ^ 42 := by
  intro start reached
  have decoded := (@nextId_layout 5 9 [7, 7, 7] start reached [0] (by decide)
    (by unfold NonDecreasing; decide) (Option.some_get _).symm).1 _ _ _ rfl
  exact ⟨_, _, _, rfl, decoded.1, decoded.2.1, decoded.2.2.1⟩

end Generator

end TinyChat.Utils
