import TinyChat.Db.SqlConnPool
import TinyChat.Utils.ConfigLoading
import TinyChat.Utils.SnowFlakeClock

/-! The constructor of `TinychatServer`: the values of the configuration reach
`SqlConnPool::init` and `SnowFlake::init`, and through the latter every `next_id`. -/
namespace TinyChat.Core

open TinyChat.Transition TinyChat.Utils TinyChat.Db

/-- The count that `SqlConnPool::init` makes its semaphore with. -/
def initialCount (config : AppConfig) : Int := config.database.sqlconnpoolMaxSize.toInt

/-- `SnowFlake::init` as start-up calls it, on the static members as they begin. -/
def initSnowFlake (config : AppConfig) (serviceId : UInt64) (clock : Clock) :
    Option (Except String (SnowFlake × Clock)) :=
  SnowFlake.init {} serviceId config.server.customEpoch clock

/-- No call returns with a time stamp below the epoch it has subtracted. -/
def NeverWraps (start : Generator) : Prop :=
  ∀ threads reached id flake rest, Generator.machine.run start threads = some reached →
    reached.flake.nextId reached.clock = .returned id flake rest →
    reached.flake.customEpoch ≤ flake.last

/-- What the consumers of a configuration rely on, with the maximum of the semaphore and
the readings of the clock from start-up on. -/
structure MeetsPreconditions (semaphoreMax : Nat) (config : AppConfig) (clock : Clock) : Prop where
  count : 0 ≤ initialCount config ∧ initialCount config ≤ semaphoreMax
  service : ∃ serviceId, config.server.serviceId = some serviceId ∧
    ∀ result, initSnowFlake config serviceId clock = some result → ∃ started, result = .ok started
  noWrap : ∀ serviceId start, config.server.serviceId = some serviceId →
    Generator.started serviceId config.server.customEpoch clock = some start → NeverWraps start

section Consumers

variable {config : AppConfig} {semaphoreMax : Nat} {clock : Clock} {start : Generator}
variable {serviceId customEpoch : UInt64}

theorem init_smph_eq (checked : config.database.Checked) :
    ((SqlConnPool.init (config.database.toChecked checked)).smph : Int) = initialCount config := by
  have positive : (0 : Int) ≤ config.database.sqlconnpoolMaxSize.toInt := by
    have above := Int32.lt_iff_toInt_lt.mp checked.sqlconnpoolMaxSize
    rw [Int32.toInt_zero] at above
    exact Int.le_of_lt above
  rw [SqlConnPool.init_eq]
  exact Int.toNat_of_nonneg positive

theorem count_nonneg (checked : config.Checked) : 0 ≤ initialCount config := by
  rw [← init_smph_eq checked.database]
  exact Int.natCast_nonneg _

theorem initSnowFlake_accepts (fits : serviceId < initServiceBits)
    {result : Except String (SnowFlake × Clock)}
    (called : initSnowFlake config serviceId clock = some result) :
    ∃ started, result = .ok started := by
  have below : ¬ serviceId ≥ initServiceBits := UInt64.not_le.mpr fits
  cases clock with
  | nil => simp [initSnowFlake, SnowFlake.init, below, timeGen] at called
  | cons now rest =>
    simp only [initSnowFlake, SnowFlake.init, below, timeGen] at called
    cases called
    exact ⟨_, rfl⟩

/-- The readings to come are all past the epoch. -/
structure PastEpoch (customEpoch : UInt64) (generator : Generator) : Prop where
  epoch : generator.flake.customEpoch = customEpoch
  readings : ∀ reading ∈ generator.clock, customEpoch ≤ reading

theorem PastEpoch.step {generator next : Generator} {thread : Nat}
    (past : PastEpoch customEpoch generator)
    (taken : Generator.machine.step generator thread = some next) : PastEpoch customEpoch next := by
  cases Generator.calls_of_step taken with
  | returned called =>
    obtain ⟨timeStamp, sequence, uses, rfl, _⟩ := SnowFlake.nextId_returned called
    exact ⟨past.epoch, fun reading member => past.readings reading (uses.suffix.subset member)⟩
  | threw called =>
    obtain ⟨rfl, suffix⟩ := SnowFlake.nextId_threw called
    exact ⟨past.epoch, fun reading member => past.readings reading (suffix.subset member)⟩
  | waiting called =>
    rcases SnowFlake.nextId_waiting called with rfl | ⟨_, _, _, _, rfl⟩ <;>
      exact ⟨past.epoch, by simp⟩

theorem PastEpoch.neverWraps (past : PastEpoch customEpoch start) : NeverWraps start := by
  intro threads reached id flake rest ran called
  have there : PastEpoch customEpoch reached :=
    Machine.invariant ran past fun _ _ _ held taken => held.step taken
  obtain ⟨timeStamp, sequence, uses, rfl, _⟩ := SnowFlake.nextId_returned called
  rw [SnowFlake.stamped_last, there.epoch]
  exact there.readings timeStamp uses.mem

/-- The first call after start-up returns with the reading it takes. -/
theorem nextId_first {first second : UInt64} (rest : Clock) (fits : serviceId < initServiceBits)
    (forward : first ≤ second) :
    let flake : SnowFlake := { serviceId, lastTimestamp := first.toInt64, customEpoch }
    ∃ id after, flake.nextId (second :: rest) = .returned id after rest ∧ after.last = second ∧
      flake.customEpoch = customEpoch := by
  intro flake
  have last : flake.last = first := UInt64.toUInt64_toInt64 first
  have ready : flake.serviceId ≠ initServiceBits := UInt64.ne_of_lt fits
  rcases UInt64.lt_or_eq_of_le forward with later | same
  · have newer : ¬ second = first := fun same => UInt64.lt_irrefl _ (same ▸ later)
    have called : flake.nextId (second :: rest) =
        SnowFlake.issue { flake with sequenceId := 0 } second rest := by
      simp only [SnowFlake.nextId, timeGen, ready, last, UInt64.not_lt.mpr forward, newer, if_false]
    exact ⟨_, _, called, SnowFlake.stamped_last flake second 0, rfl⟩
  · subst same
    have room : flake.sequenceId + 1 < sequenceLimit := show (0 : UInt64) + 1 < sequenceLimit by decide
    have called := @SnowFlake.nextId_sameMs flake rest ready room
    rw [last] at called
    exact ⟨_, _, called, SnowFlake.stamped_last .., rfl⟩

/-- On a clock that never goes back, no call wraps exactly if the second reading, the one
the first call takes, is past the epoch. -/
theorem neverWraps_iff (begun : Generator.started serviceId customEpoch clock = some start)
    (forward : NonDecreasing clock) : NeverWraps start ↔
      ∀ first second rest, clock = first :: second :: rest → customEpoch ≤ second := by
  obtain ⟨fits, now, readings, rfl, rfl⟩ := Generator.started_eq_some begun
  constructor
  · rintro never first second rest ⟨⟩
    have ordered : now ≤ second := List.rel_of_pairwise_cons forward List.mem_cons_self
    obtain ⟨id, after, called, last, epoch⟩ := @nextId_first serviceId customEpoch now second rest
      fits ordered
    have above := never [] _ id after rest rfl called
    rwa [epoch, last] at above
  · intro past
    refine PastEpoch.neverWraps ⟨rfl, fun reading member => ?_⟩
    cases readings with
    | nil => cases member
    | cons second rest =>
      have above := past now second rest rfl
      rcases List.mem_cons.mp member with same | later
      · exact same ▸ above
      · have ordered := (List.pairwise_cons.mp forward).2
        exact UInt64.le_trans above (List.rel_of_pairwise_cons ordered later)

/-- On a clock that never goes back, an accepted configuration meets what its consumers
rely on exactly if the semaphore is large enough and the first call of `next_id` finds
the clock past the epoch. -/
theorem accepted_meetsPreconditions_iff {boost : PropertyTree} {windows : Bool} {filename line : String}
    {file : IniFile} {before : Option AppConfig.Instance} {installed : AppConfig.Instance}
    (accepted : AppConfig.init boost windows filename file before = (.ok line, some installed))
    (forward : NonDecreasing clock) : MeetsPreconditions semaphoreMax installed.config clock ↔
      installed.config.database.sqlconnpoolMaxSize.toInt ≤ semaphoreMax ∧
        ∀ first second rest, clock = first :: second :: rest →
          installed.config.server.customEpoch ≤ second := by
  have checked := AppConfig.init_accepted accepted
  obtain ⟨serviceId, found, fits⟩ := checked.server.serviceId
  constructor
  · intro meets
    refine ⟨meets.count.2, fun first second rest same => ?_⟩
    obtain ⟨start, begun⟩ : ∃ start, Generator.started serviceId
        installed.config.server.customEpoch clock = some start := by
      subst same
      have below : ¬ serviceId ≥ initServiceBits := UInt64.not_le.mpr fits
      simp [Generator.started, SnowFlake.init, below, timeGen]
    exact (neverWraps_iff begun forward).mp (meets.noWrap serviceId start found begun) _ _ _ same
  · rintro ⟨enough, past⟩
    refine ⟨⟨count_nonneg checked, enough⟩, ⟨serviceId, found, fun result called => ?_⟩, ?_⟩
    · exact initSnowFlake_accepts fits called
    · intro id start _ begun
      exact (neverWraps_iff begun forward).mpr past

end Consumers

/-- A file that asks for more connections than the semaphore can count. -/
theorem accepted_too_many_connections :
    ¬ ∀ (boost : PropertyTree) (windows : Bool) (filename line : String) (file : IniFile)
      (before : Option AppConfig.Instance) (installed : AppConfig.Instance) (clock : Clock),
      AppConfig.init boost windows filename file before = (.ok line, some installed) →
      NonDecreasing clock → MeetsPreconditions 4096 installed.config clock := by
  intro claimed
  let tree := configIni.dropLast ++ [("Database.sqlconnpool_max_size", "5000")]
  let config : AppConfig :=
    { AppConfig.documented with
      database := { AppConfig.documented.database with sqlconnpoolMaxSize := 5000 } }
  have accepted : AppConfig.init .decimal false "config.ini" (.parsed tree) none =
      (.ok "Configuration successfully loaded from config.ini", some ⟨0, config⟩) := by decide
  have meets := claimed _ _ _ _ _ _ _ [] accepted List.Pairwise.nil
  exact absurd meets.count.2 (by decide)

/-- `doc/config.ini` on a clock that shows a time after its epoch. -/
theorem accepted_meetsPreconditions_iff_documented :
    MeetsPreconditions 4096 AppConfig.documented [1750000000000, 1750000000007] ↔
      AppConfig.documented.database.sqlconnpoolMaxSize.toInt ≤ (4096 : Nat) ∧
        ∀ first second rest, [1750000000000, 1750000000007] = first :: second :: rest →
          AppConfig.documented.server.customEpoch ≤ second :=
  accepted_meetsPreconditions_iff AppConfig.init_configIni (by simp [NonDecreasing])

end TinyChat.Core
