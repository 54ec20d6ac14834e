import TinyChat.Utils.SnowFlake

namespace TinyChat.Utils

open TinyChat.Transition TinyChat.Bits

/-- No reading is below an earlier one. -/
def NonDecreasing (clock : Clock) : Prop := clock.Pairwise (· ≤ ·)

/-- The readings fit the 42 bits that an id has for the time since the epoch. -/
def InRange (customEpoch : UInt64) (clock : Clock) : Prop :=
  ∀ reading ∈ clock, customEpoch ≤ reading ∧ reading.toNat < customEpoch.toNat + 2 ^ 42

theorem waitLoop_mem {now result : UInt64} {clock rest : Clock}
    (waited : waitLoop now clock = some (result, rest)) :
    result ∈ now :: clock ∧ rest.IsSuffix clock := by
  fun_induction waitLoop now clock with
  | case1 => cases waited
  | case2 => cases waited
  | case3 now probe above =>
    cases waited
    exact ⟨List.mem_cons_self .., List.nil_suffix⟩
  | case4 now probe next remaining below ih =>
    obtain ⟨member, kept⟩ := ih waited
    exact ⟨List.mem_cons_of_mem _ (List.mem_cons_of_mem _ member),
      kept.trans ⟨[probe, next], rfl⟩⟩
  | case5 now probe next remaining above =>
    cases waited
    exact ⟨List.mem_cons_self .., [probe], rfl⟩

/-- On a clock that never steps back the loop returns a reading that all later
ones exceed. -/
theorem waitLoop_steady {now result : UInt64} {clock rest : Clock}
    (waited : waitLoop now clock = some (result, rest)) (steady : NonDecreasing (now :: clock)) :
    now ≤ result ∧ ∀ reading ∈ rest, result < reading := by
  fun_induction waitLoop now clock with
  | case1 => cases waited
  | case2 => cases waited
  | case3 now probe above =>
    cases waited
    exact ⟨UInt64.le_refl _, by simp⟩
  | case4 now probe next remaining below ih =>
    obtain ⟨ahead, later⟩ := List.pairwise_cons.mp steady
    obtain ⟨bound, exceeded⟩ := ih waited (List.pairwise_cons.mp later).2
    exact ⟨UInt64.le_trans (ahead next (by simp)) bound, exceeded⟩
  | case5 now probe next remaining above =>
    cases waited
    refine ⟨UInt64.le_refl _, fun reading member => ?_⟩
    have order := (List.pairwise_cons.mp (List.pairwise_cons.mp steady).2).1 reading member
    exact UInt64.lt_of_lt_of_le (UInt64.not_le.mp above) order

theorem waitTillNextMs_mem {result : UInt64} {clock rest : Clock}
    (waited : waitTillNextMs clock = some (result, rest)) :
    result ∈ clock ∧ rest.IsSuffix clock := by
  cases clock with
  | nil => cases waited
  | cons now clock =>
    obtain ⟨member, kept⟩ := @waitLoop_mem now _ _ _ waited
    exact ⟨member, kept.trans (List.suffix_cons ..)⟩

theorem waitTillNextMs_steady {result : UInt64} {clock rest : Clock}
    (waited : waitTillNextMs clock = some (result, rest)) (steady : NonDecreasing clock) :
    ∀ reading ∈ rest, result < reading := by
  cases clock with
  | nil => cases waited
  | cons now clock => exact (@waitLoop_steady now _ _ _ waited steady).2

namespace SnowFlake

/-- Whatever the clock does, a call leaves a part of it. -/
theorem Uses.suffix {flake : SnowFlake} {clock rest : Clock} {timeStamp sequence : UInt64}
    (uses : Uses flake clock timeStamp sequence rest) : rest.IsSuffix clock := by
  cases uses with
  | nextMs _ => exact List.suffix_cons ..
  | sameMs _ => exact List.suffix_cons ..
  | exhausted _ waited => exact (waitTillNextMs_mem waited).2.trans (List.suffix_cons ..)

theorem Uses.mem {flake : SnowFlake} {clock rest : Clock} {timeStamp sequence : UInt64}
    (uses : Uses flake clock timeStamp sequence rest) : timeStamp ∈ clock := by
  cases uses with
  | nextMs _ => exact List.mem_cons_self ..
  | sameMs _ => exact List.mem_cons_self ..
  | exhausted _ waited => exact List.mem_cons_of_mem _ (waitTillNextMs_mem waited).1

/-- The milliseconds since the epoch that fit an id, for a time stamp. -/
def elapsed (flake : SnowFlake) (timeStamp : UInt64) : Nat :=
  (timeStamp - flake.customEpoch).toNat % 2 ^ 42

/-- The shifts of `next_id` lose only the elapsed time beyond 42 bits. -/
theorem compose_toNat {flake : SnowFlake} (timeStamp : UInt64)
    (accepted : flake.serviceId < initServiceBits) :
    (flake.compose timeStamp).toNat =
      packFields 10 12 (flake.elapsed timeStamp) flake.serviceId.toNat flake.sequenceId.toNat := by
  have service : flake.serviceId.toNat < 1024 := UInt64.lt_iff_toNat_lt.mp accepted
  have shifted : (flake.serviceId <<< sequenceBits).toNat = flake.serviceId.toNat <<< 12 := by
    rw [UInt64.toNat_shiftLeft]
    refine Nat.mod_eq_of_lt ?_
    show flake.serviceId.toNat <<< 12 < 2 ^ 64
    rw [Nat.shiftLeft_eq]
    omega
  have stamped : ((timeStamp - flake.customEpoch) <<< (serviceBits + sequenceBits)).toNat =
      (flake.elapsed timeStamp) <<< 22 := by
    rw [UInt64.toNat_shiftLeft]
    exact shiftLeft_mod_two_pow _ 22 42
  simp only [compose, packFields, UInt64.toNat_or, shifted, stamped]

theorem elapsed_of_inRange {flake : SnowFlake} {timeStamp : UInt64}
    (after : flake.customEpoch ≤ timeStamp)
    (near : timeStamp.toNat < flake.customEpoch.toNat + 2 ^ 42) :
    flake.elapsed timeStamp = timeStamp.toNat - flake.customEpoch.toNat := by
  rw [elapsed, UInt64.toNat_sub_of_le _ _ after, Nat.mod_eq_of_lt]
  omega

/-- Ids of one generator are ordered by time stamp and then by sequence number. -/
theorem currentId_lt_iff {first second : SnowFlake}
    (sameService : second.serviceId = first.serviceId)
    (sameEpoch : second.customEpoch = first.customEpoch)
    (accepted : first.serviceId < initServiceBits)
    (inRange : InRange first.customEpoch [first.last, second.last])
    (firstFits : first.sequenceId.toNat < 2 ^ 12) (secondFits : second.sequenceId.toNat < 2 ^ 12) :
    first.currentId < second.currentId ↔ first.last < second.last ∨
      first.last = second.last ∧ first.sequenceId < second.sequenceId := by
  have service : first.serviceId.toNat < 2 ^ 10 := UInt64.lt_iff_toNat_lt.mp accepted
  obtain ⟨afterEarly, nearEarly⟩ := inRange first.last (by simp)
  obtain ⟨afterLate, nearLate⟩ := inRange second.last (by simp)
  have lateElapsed : second.elapsed second.last = second.last.toNat - first.customEpoch.toNat := by
    rw [← sameEpoch]
    exact elapsed_of_inRange (sameEpoch ▸ afterLate) (sameEpoch ▸ nearLate)
  rw [currentId, currentId, UInt64.lt_iff_toNat_lt, compose_toNat _ accepted,
    compose_toNat _ (sameService ▸ accepted), sameService,
    packFields_lt_iff service firstFits secondFits, elapsed_of_inRange afterEarly nearEarly,
    lateElapsed, UInt64.lt_iff_toNat_lt, UInt64.lt_iff_toNat_lt, ← UInt64.toNat_inj]
  rw [UInt64.le_iff_toNat_le] at afterEarly afterLate
  omega

/-- The sequence has room left, or every reading to come is past its millisecond. -/
def Room (flake : SnowFlake) (clock : Clock) : Prop :=
  flake.sequenceId < sequenceLimit ∨
    flake.sequenceId = sequenceLimit ∧ ∀ reading ∈ clock, flake.last < reading

theorem Room.le {flake : SnowFlake} {clock : Clock} (room : Room flake clock) :
    flake.sequenceId ≤ sequenceLimit := by
  rcases room with less | ⟨same, _⟩
  · exact UInt64.le_of_lt less
  · exact same ▸ UInt64.le_refl _

theorem Room.fits {flake : SnowFlake} {clock : Clock} (room : Room flake clock) :
    flake.sequenceId.toNat < 2 ^ 12 := by
  have bound : flake.sequenceId.toNat ≤ 2048 := UInt64.le_iff_toNat_le.mp room.le
  omega

theorem Room.of_suffix {flake : SnowFlake} {clock rest : Clock} (room : Room flake clock)
    (kept : rest.IsSuffix clock) : Room flake rest := by
  rcases room with less | ⟨same, past⟩
  · exact .inl less
  · exact .inr ⟨same, fun reading member => past reading (kept.subset member)⟩

private theorem room_of_same {flake : SnowFlake} {rest : Clock}
    (room : Room flake (flake.last :: rest)) :
    (flake.sequenceId + 1).toNat = flake.sequenceId.toNat + 1 ∧ flake.sequenceId.toNat < 2048 := by
  have less : flake.sequenceId.toNat < 2048 := by
    rcases room with less | ⟨_, past⟩
    · exact UInt64.lt_iff_toNat_lt.mp less
    · exact absurd (past flake.last (by simp)) (UInt64.lt_irrefl _)
  refine ⟨?_, less⟩
  rw [UInt64.toNat_add]
  exact Nat.mod_eq_of_lt (show flake.sequenceId.toNat + 1 < 2 ^ 64 by omega)

theorem Room.counts {flake : SnowFlake} {clock rest : Clock} (room : Room flake clock)
    (sameMs : clock = flake.last :: rest) : flake.sequenceId < flake.sequenceId + 1 := by
  subst sameMs
  obtain ⟨counted, _⟩ := room_of_same room
  rw [UInt64.lt_iff_toNat_lt]
  omega

/-- A call that has not returned has not counted past the limit. -/
theorem Room.waiting {flake after : SnowFlake} {clock : Clock} (room : Room flake clock)
    (called : flake.nextId clock = .waiting after) : Room after [] := by
  rcases nextId_waiting called with same | ⟨rest, sameMs, _, _, counted⟩
  · subst same
    exact room.of_suffix List.nil_suffix
  · subst sameMs
    subst counted
    obtain ⟨value, less⟩ := room_of_same room
    have bound : flake.sequenceId + 1 ≤ sequenceLimit := by
      rw [UInt64.le_iff_toNat_le, value]
      exact less
    rcases UInt64.lt_or_eq_of_le bound with below | same
    · exact .inl below
    · exact .inr ⟨same, by simp⟩

/-- What a call uses under a steady clock is past what the last call used, and
leaves room again. -/
theorem Uses.steady {flake : SnowFlake} {clock rest : Clock} {timeStamp sequence : UInt64}
    (uses : Uses flake clock timeStamp sequence rest) (room : Room flake clock)
    (steady : NonDecreasing (flake.last :: clock)) :
    (flake.last < timeStamp ∨ flake.last = timeStamp ∧ flake.sequenceId < sequence) ∧
      Room (flake.stamped timeStamp sequence) rest ∧ NonDecreasing (timeStamp :: rest) := by
  obtain ⟨ahead, later⟩ := List.pairwise_cons.mp steady
  have kept := later.sublist uses.suffix.sublist
  cases uses with
  | nextMs newer =>
    exact ⟨.inl newer, .inl (show (0 : UInt64) < sequenceLimit by decide), later⟩
  | sameMs below =>
    obtain ⟨counted, less⟩ := room_of_same room
    refine ⟨.inr ⟨rfl, ?_⟩, .inl (by simpa using below), later⟩
    rw [UInt64.lt_iff_toNat_lt]
    omega
  | exhausted full waited =>
    -- At its limit the sequence waits for the next call, whose readings are all later.
    obtain ⟨counted, less⟩ := room_of_same room
    have past := waitTillNextMs_steady waited (List.pairwise_cons.mp later).2
    have atLeast := (List.pairwise_cons.mp later).1 timeStamp (waitTillNextMs_mem waited).1
    have atLimit : flake.sequenceId + 1 = sequenceLimit := by
      have above : 2048 ≤ (flake.sequenceId + 1).toNat := UInt64.le_iff_toNat_le.mp full
      rw [← UInt64.toNat_inj]
      show (flake.sequenceId + 1).toNat = 2048
      omega
    refine ⟨?_, .inr ⟨by simpa using atLimit, by simpa using past⟩,
      List.pairwise_cons.mpr ⟨fun reading member => UInt64.le_of_lt (past reading member), kept⟩⟩
    rcases UInt64.lt_or_eq_of_le atLeast with newer | same
    · exact .inl newer
    · refine .inr ⟨same, ?_⟩
      rw [UInt64.lt_iff_toNat_lt]
      omega

end SnowFlake

namespace Generator

/-- What every call of a started generator under a steady clock keeps. -/
structure Counting (serviceId customEpoch : UInt64) (generator : Generator) : Prop where
  service : generator.flake.serviceId = serviceId
  epoch : generator.flake.customEpoch = customEpoch
  steady : NonDecreasing (generator.flake.last :: generator.clock)
  room : generator.flake.Room generator.clock

theorem Counting.start {serviceId customEpoch : UInt64} {clock : Clock} {start : Generator}
    (accepted : started serviceId customEpoch clock = some start) (steady : NonDecreasing clock) :
    Counting serviceId customEpoch start := by
  obtain ⟨_, now, rest, same, begun⟩ := started_eq_some accepted
  subst same
  subst begun
  exact ⟨rfl, rfl, by simpa [SnowFlake.last] using steady,
    .inl (show (0 : UInt64) < sequenceLimit by decide)⟩

theorem Counting.step {serviceId customEpoch : UInt64} {generator next : Generator} {thread : Nat}
    (valid : Counting serviceId customEpoch generator)
    (taken : machine.step generator thread = some next) : Counting serviceId customEpoch next := by
  cases calls_of_step taken with
  | returned called =>
    obtain ⟨timeStamp, sequence, uses, same, _⟩ := SnowFlake.nextId_returned called
    obtain ⟨_, room, steady⟩ := uses.steady valid.room valid.steady
    subst same
    exact ⟨valid.service, valid.epoch, by simpa using steady, room⟩
  | threw called =>
    obtain ⟨same, kept⟩ := SnowFlake.nextId_threw called
    subst same
    exact ⟨valid.service, valid.epoch, valid.steady.sublist (kept.sublist.cons_cons _),
      valid.room.of_suffix kept⟩
  | @waiting flake called =>
    have room := valid.room.waiting called
    rcases SnowFlake.nextId_waiting called with same | ⟨_, _, _, _, same⟩ <;> subst same
    all_goals exact ⟨valid.service, valid.epoch, List.pairwise_singleton .., room⟩

theorem Counting.run {serviceId customEpoch : UInt64} {clock : Clock} {start final : Generator}
    {threads : List Nat} (accepted : started serviceId customEpoch clock = some start)
    (steady : NonDecreasing clock) (ran : machine.run start threads = some final) :
    Counting serviceId customEpoch final :=
  machine.invariant ran (.start accepted steady) fun _ _ _ valid taken => valid.step taken

/-- The ids so far are in order and none exceeds the id of the current members. -/
structure Ordered (generator : Generator) : Prop where
  increasing : generator.ids.Pairwise (· < ·)
  bounded : ∀ id ∈ generator.ids, id ≤ generator.flake.currentId

/-- A call whose members move to a greater id keeps the order. -/
theorem Ordered.advance {generator next : Generator} (ordered : Ordered generator)
    (greater : generator.flake.currentId < next.flake.currentId)
    (same : next.ids = generator.ids ∨ next.ids = generator.ids ++ [next.flake.currentId]) :
    Ordered next := by
  have below : ∀ id ∈ generator.ids, id < next.flake.currentId :=
    fun id member => UInt64.lt_of_le_of_lt (ordered.bounded id member) greater
  rcases same with same | appended
  · exact ⟨same ▸ ordered.increasing,
      fun id member => UInt64.le_of_lt (below id (same ▸ member))⟩
  · constructor
    · rw [appended]
      exact List.pairwise_append.mpr ⟨ordered.increasing, List.pairwise_singleton ..,
        fun id member _ last => List.mem_singleton.mp last ▸ below id member⟩
    · intro id member
      rw [appended] at member
      rcases List.mem_append.mp member with earlier | last
      · exact UInt64.le_of_lt (below id earlier)
      · exact List.mem_singleton.mp last ▸ UInt64.le_refl _

/-- The readings to come and the last time stamp lie in the range of the epoch. -/
def Within (customEpoch : UInt64) (generator : Generator) : Prop :=
  InRange customEpoch (generator.flake.last :: generator.clock)

/-- What a call uses and leaves of the clock was in its clock. -/
theorem reads_only {generator next : Generator} {thread : Nat}
    (taken : machine.step generator thread = some next) :
    next.flake.last :: next.clock ⊆ generator.flake.last :: generator.clock := by
  cases calls_of_step taken with
  | returned called =>
    obtain ⟨timeStamp, sequence, uses, same, _⟩ := SnowFlake.nextId_returned called
    subst same
    simpa using ⟨.inr uses.mem, List.Subset.trans uses.suffix.subset (List.subset_cons_self ..)⟩
  | threw called =>
    obtain ⟨same, kept⟩ := SnowFlake.nextId_threw called
    exact same ▸ List.cons_subset_cons _ kept.subset
  | waiting called =>
    rcases SnowFlake.nextId_waiting called with same | ⟨_, _, _, _, same⟩ <;> subst same
    all_goals exact List.cons_subset_cons _ (List.nil_subset _)

theorem Within.step {customEpoch : UInt64} {generator next : Generator} {thread : Nat}
    (within : Within customEpoch generator)
    (taken : machine.step generator thread = some next) : Within customEpoch next :=
  fun reading member => within reading (reads_only taken member)

theorem Within.pair {customEpoch : UInt64} {generator next : Generator} {thread : Nat}
    (within : Within customEpoch generator)
    (taken : machine.step generator thread = some next) :
    InRange customEpoch [generator.flake.last, next.flake.last] := by
  intro reading member
  rcases List.mem_cons.mp member with first | second
  · exact within reading (first ▸ List.mem_cons_self ..)
  · exact within reading (reads_only taken (List.mem_singleton.mp second ▸ List.mem_cons_self ..))

theorem Ordered.step {serviceId customEpoch : UInt64} {generator next : Generator} {thread : Nat}
    (ordered : Ordered generator) (valid : Counting serviceId customEpoch generator)
    (accepted : serviceId < initServiceBits) (within : Within customEpoch generator)
    (taken : machine.step generator thread = some next) : Ordered next := by
  have service : generator.flake.serviceId < initServiceBits := valid.service ▸ accepted
  have pair := valid.epoch ▸ within.pair taken
  have after := valid.step taken
  have greater : generator.flake.last < next.flake.last ∨
      generator.flake.last = next.flake.last ∧
        generator.flake.sequenceId < next.flake.sequenceId →
      generator.flake.currentId < next.flake.currentId :=
    (SnowFlake.currentId_lt_iff (after.service.trans valid.service.symm)
      (after.epoch.trans valid.epoch.symm) service pair valid.room.fits after.room.fits).mpr
  cases calls_of_step taken with
  | returned called =>
    obtain ⟨timeStamp, sequence, uses, same, composed⟩ := SnowFlake.nextId_returned called
    subst same
    subst composed
    exact ordered.advance (greater (by simpa using (uses.steady valid.room valid.steady).1))
      (.inr (by simp))
  | threw called =>
    obtain ⟨same, _⟩ := SnowFlake.nextId_threw called
    subst same
    exact ⟨by simpa using ordered.increasing, by simpa using ordered.bounded⟩
  | waiting called =>
    rcases SnowFlake.nextId_waiting called with same | ⟨rest, sameMs, _, _, counted⟩
    · subst same
      exact ⟨ordered.increasing, ordered.bounded⟩
    · subst counted
      exact ordered.advance (greater (.inr ⟨rfl, valid.room.counts sameMs⟩)) (.inl rfl)

/-- What a generator keeps under a steady clock within the range of its epoch. -/
structure Sound (serviceId customEpoch : UInt64) (generator : Generator) : Prop where
  counting : Counting serviceId customEpoch generator
  within : Within customEpoch generator
  ordered : Ordered generator

theorem Sound.start {serviceId customEpoch : UInt64} {clock : Clock} {start : Generator}
    (accepted : started serviceId customEpoch clock = some start)
    (steady : NonDecreasing clock) (inRange : InRange customEpoch clock) :
    Sound serviceId customEpoch start := by
  obtain ⟨fits, now, rest, same, begun⟩ := started_eq_some accepted
  refine ⟨.start accepted steady, ?_, ?_⟩
  · subst same
    subst begun
    simpa [Within, SnowFlake.last] using inRange
  · subst begun
    exact ⟨List.Pairwise.nil, by simp [ids]⟩

theorem Sound.run {serviceId customEpoch : UInt64} {start final : Generator} {threads : List Nat}
    (sound : Sound serviceId customEpoch start) (fits : serviceId < initServiceBits)
    (ran : machine.run start threads = some final) : Sound serviceId customEpoch final :=
  machine.invariant ran sound fun _ _ _ held taken => ⟨held.counting.step taken,
    held.within.step taken, held.ordered.step held.counting fits held.within taken⟩

theorem Ordered.run {serviceId customEpoch : UInt64} {clock : Clock} {start final : Generator}
    {threads : List Nat} (accepted : started serviceId customEpoch clock = some start)
    (steady : NonDecreasing clock) (inRange : InRange customEpoch clock)
    (ran : machine.run start threads = some final) : Ordered final :=
  ((Sound.start accepted steady inRange).run (started_eq_some accepted).1 ran).ordered

/-- The ids of an accepted generator under a clock that never steps back come out
strictly increasing, whichever threads ask for them, and in every state the
sequence is within its bound and its field. -/
theorem nextId_strictly_increasing {serviceId customEpoch : UInt64} {clock : Clock}
    {start final : Generator} {threads : List Nat}
    (accepted : started serviceId customEpoch clock = some start)
    (steady : NonDecreasing clock) (inRange : InRange customEpoch clock)
    (ran : machine.run start threads = some final) :
    final.ids.Pairwise (· < ·) ∧ final.flake.sequenceId ≤ 1 <<< (sequenceBits - 1) ∧
      (1 : UInt64) <<< (sequenceBits - 1) < 1 <<< sequenceBits :=
  ⟨(Ordered.run accepted steady inRange ran).increasing,
    (Counting.run accepted steady ran).room.le, by decide⟩

/-- Three threads share two milliseconds. -/
theorem nextId_strictly_increasing_three :
    let start : Generator :=
      { flake := { serviceId := 3, lastTimestamp := 1000, customEpoch := 1000 },
        clock := [1000, 1000, 1001] }
    ((machine.run start [0, 1, 2]).get (by decide)).ids.Pairwise (· < ·) := by
  intro start
  exact (@nextId_strictly_increasing 3 1000 [1000, 1000, 1000, 1001] start _ [0, 1, 2] (by decide)
    (by unfold NonDecreasing; decide) (by simp [InRange]) (Option.some_get _).symm).1

/-- The generator with another log before its own. -/
def after (log : List (Nat × Except String UInt64)) (generator : Generator) : Generator :=
  { generator with log := log ++ generator.log }

theorem ids_after (log : List (Nat × Except String UInt64)) (generator : Generator) :
    (generator.after log).ids = (log.filterMap fun entry => entry.2.toOption) ++ generator.ids :=
  List.filterMap_append

theorem step_after {generator next : Generator} {thread : Nat}
    (log : List (Nat × Except String UInt64))
    (taken : machine.step generator thread = some next) :
    machine.step (generator.after log) thread = some (next.after log) := by
  simp only [machine, call] at taken ⊢
  split at taken
  · cases taken
  · rename_i free
    simp only [after, free]
    split at taken <;> cases taken <;> simp [*]

/-- What was handed out before does not matter to a run. -/
theorem run_after {start final : Generator} {threads : List Nat}
    (log : List (Nat × Except String UInt64)) (ran : machine.run start threads = some final) :
    machine.run (start.after log) threads = some (final.after log) := by
  refine Machine.run_induction (motive := fun past generator =>
    machine.run (start.after log) past = some (generator.after log)) ran rfl ?_
  intro past generator thread next _ reached taken
  exact Machine.run_snoc_iff.mpr ⟨_, reached, step_after log taken⟩

/-- A generator that is started again for the same service goes on above the ids of the
earlier one, if by then the clock has left the millisecond of its last call. -/
theorem restarted_strictly_increasing {serviceId customEpoch : UInt64} {clock later : Clock}
    {start earlier restarted final : Generator} {threads more : List Nat}
    (accepted : started serviceId customEpoch clock = some start)
    (steady : NonDecreasing clock) (inRange : InRange customEpoch clock)
    (ran : machine.run start threads = some earlier)
    (again : started serviceId customEpoch later = some restarted)
    (steadyAgain : NonDecreasing later) (inRangeAgain : InRange customEpoch later)
    (left : ∀ reading ∈ later, earlier.flake.last < reading)
    (ranAgain : machine.run restarted more = some final) :
    (earlier.ids ++ final.ids).Pairwise (· < ·) := by
  have fits := (started_eq_some accepted).1
  have before := (Sound.start accepted steady inRange).run fits ran
  have afresh := Sound.start again steadyAgain inRangeAgain
  obtain ⟨_, now, rest, rfl, rfl⟩ := started_eq_some again
  -- The new members stand for an id above all that were handed out.
  have greater : earlier.flake.currentId <
      SnowFlake.currentId { serviceId, lastTimestamp := now.toInt64, customEpoch } := by
    refine (SnowFlake.currentId_lt_iff before.counting.service.symm before.counting.epoch.symm
      (before.counting.service ▸ fits) ?_ before.counting.room.fits afresh.counting.room.fits).mpr ?_
    · intro reading member
      rw [before.counting.epoch]
      rcases List.mem_cons.mp member with rfl | last
      · exact before.within _ List.mem_cons_self
      · exact List.mem_singleton.mp last ▸ afresh.within _ List.mem_cons_self
    · exact .inl (by simpa [SnowFlake.last] using left now List.mem_cons_self)
  have continued : Sound serviceId customEpoch (after earlier.log
      { flake := { serviceId, lastTimestamp := now.toInt64, customEpoch }, clock := rest }) := by
    obtain ⟨service, epoch, steady, room⟩ := afresh.counting
    refine ⟨⟨service, epoch, steady, room⟩, afresh.within, ?_, fun id member => ?_⟩
    · rw [ids_after]
      simpa [ids] using before.ordered.increasing
    · rw [ids_after] at member
      have handedOut : id ∈ earlier.ids := by simpa [ids] using member
      exact UInt64.le_of_lt (UInt64.lt_of_le_of_lt (before.ordered.bounded id handedOut) greater)
  have final := (continued.run fits (run_after earlier.log ranAgain)).ordered.increasing
  rwa [ids_after] at final

/-- Two ids, and two more in the millisecond after. -/
theorem restarted_strictly_increasing_two :
    let start : Generator :=
      { flake := { serviceId := 3, lastTimestamp := 1000, customEpoch := 1000 },
        clock := [1000, 1001] }
    let restarted : Generator :=
      { flake := { serviceId := 3, lastTimestamp := 1002, customEpoch := 1000 },
        clock := [1002, 1002] }
    (((machine.run start [0, 1]).get (by decide)).ids ++
      ((machine.run restarted [0, 1]).get (by decide)).ids).Pairwise (· < ·) := by
  intro start restarted
  have last : ((machine.run start [0, 1]).get (by decide)).flake.last = 1001 := by decide
  exact @restarted_strictly_increasing 3 1000 [1000, 1000, 1001] [1002, 1002, 1002] start _
    restarted _ [0, 1] [0, 1] (by decide) (by unfold NonDecreasing; decide) (by simp [InRange])
    (Option.some_get _).symm (by decide) (by unfold NonDecreasing; decide) (by simp [InRange])
    (by rw [last]; simp) (Option.some_get _).symm

end Generator

end TinyChat.Utils
