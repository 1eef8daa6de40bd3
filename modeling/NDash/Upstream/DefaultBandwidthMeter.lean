import Mathlib.Algebra.Order.BigOperators.Group.List
import Mathlib.Algebra.Order.Group.Int
import NDash.Shared.Machine
import NDash.Util.SlidingMedian

set_option autoImplicit false

namespace NDash.Upstream

open Machine Util

def kBitsPerByte : Int := 8
def kMicrosecondsPerSecond : Int := 1000000

def kNoEstimate : Int := -1

structure Averages (Averager : Type) where
  addSample : Averager → Int → Int → Except Fault Averager
  getAverage : Averager → Int

def slidingMedian : Averages SlidingMedian := ⟨SlidingMedian.addSample, SlidingMedian.getAverage⟩

-- Times are the microseconds of the tick clock.
structure DefaultBandwidthMeter (Averager : Type) where
  averager : Averager
  bytesAccumulator : Int := 0
  startTime : Int := 0
  bitrateEstimate : Int := kNoEstimate
  streamCount : Int := 0
deriving DecidableEq, Repr

structure BandwidthSample where
  elapsed : Int
  bytes : Int
  bitrate : Int
deriving DecidableEq, Repr

namespace DefaultBandwidthMeter

variable {Averager : Type}

def onTransferStart (meter : DefaultBandwidthMeter Averager) (now : Int) :
    DefaultBandwidthMeter Averager :=
  { meter with
    streamCount := meter.streamCount + 1
    startTime := if meter.streamCount = 0 then now else meter.startTime }

def onBytesTransferred (meter : DefaultBandwidthMeter Averager) (bytes : Int) :
    DefaultBandwidthMeter Averager :=
  { meter with bytesAccumulator := meter.bytesAccumulator + bytes }

/-- `squareRoot` is the double that sqrt gives, as the weight it is converted to. -/
def onTransferEnd (averages : Averages Averager) (squareRoot : Int → Int)
    (meter : DefaultBandwidthMeter Averager) (now : Int) :
    Except Fault (DefaultBandwidthMeter Averager × Option BandwidthSample) :=
  let elapsed := now - meter.startTime
  let accumulator := meter.bytesAccumulator
  if 0 < elapsed ∧ 0 < accumulator then do
    let bitsPerSecond :=
      (toInt64 (accumulator * kBitsPerByte * kMicrosecondsPerSecond)).tdiv elapsed
    let averager ← averages.addSample meter.averager (squareRoot accumulator) bitsPerSecond
    let average := averages.getAverage averager
    let bandwidthEstimate := if average ≤ 0 then kNoEstimate else average
    .ok ({
      averager
      bytesAccumulator := 0
      startTime := now
      bitrateEstimate := bandwidthEstimate
      streamCount := meter.streamCount - 1 }, some ⟨elapsed, accumulator, bandwidthEstimate⟩)
  else
    .ok ({ meter with
      bytesAccumulator := 0
      startTime := now
      streamCount := meter.streamCount - 1 }, none)

end DefaultBandwidthMeter

structure MeteredTransfer where
  start : Int
  stop : Option Int := none
deriving DecidableEq, Repr

def MeteredTransfer.ActiveAt (transfer : MeteredTransfer) (time : Int) : Prop :=
  transfer.start ≤ time ∧ ∀ stop ∈ transfer.stop, time < stop

structure Arrival where
  time : Int
  bytes : Int
deriving DecidableEq, Repr

structure TimedSample where
  start : Int
  stop : Int
  bytes : Int
deriving DecidableEq, Repr

def TimedSample.Covers (sample : TimedSample) (time : Int) : Prop :=
  sample.start ≤ time ∧ time < sample.stop

structure MeterWorld (Averager : Type) where
  meter : DefaultBandwidthMeter Averager
  clock : Int
  transfers : List MeteredTransfer := []
  arrivals : List Arrival := []
  samples : List TimedSample := []
deriving DecidableEq, Repr

inductive MeterOp
  | onTransferStart (now : Int)
  | onBytesTransferred (now bytes : Int)
  | onTransferEnd (now : Int) (transfer : Nat)
deriving DecidableEq, Repr

namespace MeterWorld

variable {Averager : Type}

def active (world : MeterWorld Averager) : Nat := world.transfers.countP (·.stop.isNone)

def started (world : MeterWorld Averager) (now : Int) : MeterWorld Averager :=
  { world with
    meter := world.meter.onTransferStart now
    clock := now
    transfers := world.transfers ++ [{ start := now }] }

def transferred (world : MeterWorld Averager) (now bytes : Int) : MeterWorld Averager :=
  { world with
    meter := world.meter.onBytesTransferred bytes
    clock := now
    arrivals := world.arrivals ++ [⟨now, bytes⟩] }

-- The sample covers the time up to the call that has fed it.
def ended (world : MeterWorld Averager) (now : Int) (index : Nat) (start : Int)
    (meter : DefaultBandwidthMeter Averager) (sample : Option BandwidthSample) :
    MeterWorld Averager :=
  { world with
    meter
    clock := now
    transfers := world.transfers.set index { start, stop := some now }
    samples := world.samples ++
      (sample.map fun sample => ⟨now - sample.elapsed, now, sample.bytes⟩).toList }

-- The calls hold the lock, so that they come one after another; each happens later than the last.
def apply (averages : Averages Averager) (squareRoot : Int → Int) (world : MeterWorld Averager) :
    MeterOp → Option (MeterWorld Averager)
  | .onTransferStart now => if world.clock < now then some (world.started now) else none
  | .onBytesTransferred now bytes =>
    if world.clock < now ∧ 0 < bytes ∧ 0 < world.active then some (world.transferred now bytes)
    else none
  | .onTransferEnd now index =>
    match world.transfers[index]?, world.meter.onTransferEnd averages squareRoot now with
    | some { start, stop := none }, .ok (meter, sample) =>
      if world.clock < now then some (world.ended now index start meter sample) else none
    | _, _ => none

end MeterWorld

def meterSystem {Averager : Type} (averages : Averages Averager) (squareRoot : Int → Int) :
    System (MeterWorld Averager) MeterOp where
  Start world := ∃ averager clock, world = { meter := { averager }, clock }
  Step world op next := world.apply averages squareRoot op = some next

namespace MeterWorld

variable {Averager : Type} {world next : MeterWorld Averager}

def ActiveAt (world : MeterWorld Averager) (time : Int) : Prop :=
  ∃ transfer ∈ world.transfers, transfer.ActiveAt time

def Covered (world : MeterWorld Averager) (time : Int) : Prop :=
  ∃ sample ∈ world.samples, sample.Covers time

def arrivedIn (world : MeterWorld Averager) (start stop : Int) : Int :=
  ((world.arrivals.filter fun arrival => start ≤ arrival.time ∧ arrival.time < stop).map
    Arrival.bytes).sum

def arrivedSince (world : MeterWorld Averager) (start : Int) : Int :=
  ((world.arrivals.filter fun arrival => start ≤ arrival.time).map Arrival.bytes).sum

def totalBytes (world : MeterWorld Averager) : Int := (world.arrivals.map Arrival.bytes).sum

def sampledBytes (world : MeterWorld Averager) : Int := (world.samples.map TimedSample.bytes).sum

/-- The samples cover disjoint times at which a transfer is active, and share out the bytes. -/
structure Partitions (world : MeterWorld Averager) : Prop where
  streamCount : world.meter.streamCount = world.active
  ordered : ∀ sample ∈ world.samples, sample.start < sample.stop
  disjoint : world.samples.Pairwise fun earlier later => earlier.stop ≤ later.start
  active : ∀ sample ∈ world.samples, ∀ time, sample.Covers time → world.ActiveAt time
  counted : ∀ sample ∈ world.samples, sample.bytes = world.arrivedIn sample.start sample.stop
  once : world.active = 0 → ∀ arrival ∈ world.arrivals,
    ∃! sample, sample ∈ world.samples ∧ sample.Covers arrival.time
  total : world.active = 0 → world.sampledBytes = world.totalBytes

-- While a transfer is active: what has come since the last start or end is in the accumulator.
structure Accumulates (world : MeterWorld Averager) : Prop where
  started : world.meter.startTime ≤ world.clock
  bytes : world.meter.bytesAccumulator = world.arrivedSince world.meter.startTime
  before : ∀ sample ∈ world.samples, sample.stop ≤ world.meter.startTime
  active : ∀ time, world.meter.startTime ≤ time → time ≤ world.clock → world.ActiveAt time
  settled : ∀ arrival ∈ world.arrivals,
    world.Covered arrival.time ∨ world.meter.startTime ≤ arrival.time

structure Rests (world : MeterWorld Averager) : Prop where
  bytes : world.meter.bytesAccumulator = 0
  settled : ∀ arrival ∈ world.arrivals, world.Covered arrival.time

structure Tracks (world : MeterWorld Averager) : Prop where
  streamCount : world.meter.streamCount = world.active
  begun : ∀ transfer ∈ world.transfers, transfer.start ≤ world.clock
  arrived : ∀ arrival ∈ world.arrivals, arrival.time ≤ world.clock ∧ 0 < arrival.bytes
  ordered : ∀ sample ∈ world.samples, sample.start < sample.stop ∧ sample.stop ≤ world.clock
  disjoint : world.samples.Pairwise fun earlier later => earlier.stop ≤ later.start
  active : ∀ sample ∈ world.samples, ∀ time, sample.Covers time → world.ActiveAt time
  counted : ∀ sample ∈ world.samples, sample.bytes = world.arrivedIn sample.start sample.stop
  total : world.sampledBytes + world.meter.bytesAccumulator = world.totalBytes
  rests : world.active = 0 → world.Rests
  accumulates : 0 < world.active → world.Accumulates

/-! What one call preserves -/

theorem activeAt_of_open (begun : ∀ transfer ∈ world.transfers, transfer.start ≤ world.clock)
    (some : 0 < world.active) {time : Int} (later : world.clock ≤ time) : world.ActiveAt time := by
  obtain ⟨transfer, member, unended⟩ := List.countP_pos_iff.mp some
  refine ⟨transfer, member, (begun transfer member).trans later, fun stop present => ?_⟩
  rw [Option.isNone_iff_eq_none.mp unended] at present
  cases present

theorem arrivedSince_eq_zero {start : Int}
    (before : ∀ arrival ∈ world.arrivals, arrival.time < start) : world.arrivedSince start = 0 := by
  have none : world.arrivals.filter (fun arrival => start ≤ arrival.time) = [] := by
    refine List.filter_eq_nil_iff.mpr fun arrival member => ?_
    have := before arrival member
    simp only [decide_eq_true_eq]
    omega
  rw [arrivedSince, none]
  rfl

theorem arrivedIn_eq_since {stop : Int} (start : Int)
    (before : ∀ arrival ∈ world.arrivals, arrival.time < stop) :
    world.arrivedIn start stop = world.arrivedSince start := by
  unfold arrivedIn arrivedSince
  congr 2
  refine List.filter_congr fun arrival member => ?_
  simp [before arrival member]

theorem lt_of_arrivedSince {start : Int} (positive : ∀ arrival ∈ world.arrivals, 0 < arrival.bytes)
    (nothing : world.arrivedSince start ≤ 0) :
    ∀ arrival ∈ world.arrivals, arrival.time < start := by
  intro arrival member
  by_contra late
  have kept : arrival ∈ world.arrivals.filter (fun arrival => start ≤ arrival.time) := by
    rw [List.mem_filter]
    exact ⟨member, by simpa using late⟩
  have sum : 0 < world.arrivedSince start := by
    refine List.sum_pos _ (fun bytes present => ?_) ?_
    · obtain ⟨other, inside, rfl⟩ := List.mem_map.mp present
      exact positive other (List.mem_of_mem_filter inside)
    · exact List.ne_nil_of_mem (List.mem_map_of_mem kept)
  omega

theorem Tracks.started (tracks : world.Tracks) {now : Int} (later : world.clock < now) :
    (world.started now).Tracks := by
  have count : (world.started now).active = world.active + 1 := by
    simp [MeterWorld.active, MeterWorld.started]
  have mono {time : Int} (activeAt : world.ActiveAt time) : (world.started now).ActiveAt time := by
    obtain ⟨transfer, member, activeAt⟩ := activeAt
    exact ⟨transfer, List.mem_append_left _ member, activeAt⟩
  have begun : ∀ transfer ∈ (world.started now).transfers, transfer.start ≤ now := by
    intro transfer member
    rcases List.mem_append.mp member with old | new
    · exact (tracks.begun transfer old).trans later.le
    · rw [List.mem_singleton.mp new]
  refine {
    streamCount := ?_
    begun := begun
    arrived := fun arrival member =>
      ⟨(tracks.arrived arrival member).1.trans later.le, (tracks.arrived arrival member).2⟩
    ordered := fun sample member =>
      ⟨(tracks.ordered sample member).1, (tracks.ordered sample member).2.trans later.le⟩
    disjoint := tracks.disjoint
    active := fun sample member time covers => mono (tracks.active sample member time covers)
    counted := tracks.counted
    total := tracks.total
    rests := fun none => by omega
    accumulates := fun _ => ?_ }
  · have before := tracks.streamCount
    rw [count]
    simp only [MeterWorld.started, DefaultBandwidthMeter.onTransferStart]
    omega
  · have starts : (world.started now).meter.startTime =
        if world.meter.streamCount = 0 then now else world.meter.startTime := rfl
    have streamCount := tracks.streamCount
    by_cases idle : world.active = 0
    · rw [if_pos (by omega)] at starts
      have rests := tracks.rests idle
      refine ⟨starts.le, ?_, ?_, ?_, fun arrival member => .inl (rests.settled arrival member)⟩
      · have nothing : world.arrivedSince now = 0 := arrivedSince_eq_zero fun arrival member =>
          (tracks.arrived arrival member).1.trans_lt later
        rw [starts]
        exact rests.bytes.trans nothing.symm
      · intro sample member
        rw [starts]
        exact (tracks.ordered sample member).2.trans later.le
      · intro time after within
        rw [starts] at after
        exact activeAt_of_open begun (by omega) after
    · rw [if_neg (by omega)] at starts
      have accumulates := tracks.accumulates (by omega)
      refine ⟨?_, ?_, ?_, ?_, ?_⟩
      · rw [starts]
        exact accumulates.started.trans later.le
      · rw [starts]
        exact accumulates.bytes
      · rw [starts]
        exact accumulates.before
      · intro time after within
        rw [starts] at after
        by_cases past : time ≤ world.clock
        · exact mono (accumulates.active time after past)
        · exact mono (activeAt_of_open tracks.begun (by omega) (by omega))
      · rw [starts]
        exact accumulates.settled

theorem arrivedIn_transferred (now bytes start : Int) {stop : Int} (before : stop ≤ now) :
    (world.transferred now bytes).arrivedIn start stop = world.arrivedIn start stop := by
  have outside : ¬ now < stop := by omega
  simp [arrivedIn, MeterWorld.transferred, outside]

theorem arrivedSince_transferred {now start : Int} (bytes : Int) (inside : start ≤ now) :
    (world.transferred now bytes).arrivedSince start = world.arrivedSince start + bytes := by
  simp [arrivedSince, MeterWorld.transferred, inside]

theorem Tracks.transferred (tracks : world.Tracks) {now bytes : Int} (later : world.clock < now)
    (some : 0 < bytes) (running : 0 < world.active) : (world.transferred now bytes).Tracks := by
  have accumulates := tracks.accumulates running
  refine {
    streamCount := tracks.streamCount
    begun := fun transfer member => (tracks.begun transfer member).trans later.le
    arrived := fun arrival member => ?_
    ordered := fun sample member =>
      ⟨(tracks.ordered sample member).1, (tracks.ordered sample member).2.trans later.le⟩
    disjoint := tracks.disjoint
    active := tracks.active
    counted := fun sample member => ?_
    total := ?_
    rests := fun none => absurd none running.ne'
    accumulates := fun _ => ?_ }
  · rcases List.mem_append.mp member with old | new
    · exact ⟨(tracks.arrived arrival old).1.trans later.le, (tracks.arrived arrival old).2⟩
    · rw [List.mem_singleton.mp new]
      exact ⟨Int.le_refl now, some⟩
  · rw [arrivedIn_transferred now bytes _ ((tracks.ordered sample member).2.trans later.le)]
    exact tracks.counted sample member
  · have total := tracks.total
    simp only [sampledBytes, totalBytes, MeterWorld.transferred,
      DefaultBandwidthMeter.onBytesTransferred, List.map_append, List.sum_append, List.map_cons,
      List.map_nil, List.sum_cons, List.sum_nil] at total ⊢
    omega
  · have within := accumulates.started.trans later.le
    refine ⟨within, ?_, accumulates.before, ?_, ?_⟩
    · refine Eq.trans ?_ (arrivedSince_transferred bytes within).symm
      rw [← accumulates.bytes]
      rfl
    · intro time after _
      by_cases past : time ≤ world.clock
      · exact accumulates.active time after past
      · exact activeAt_of_open tracks.begun running (by omega)
    · intro arrival member
      rcases List.mem_append.mp member with old | new
      · exact accumulates.settled arrival old
      · rw [List.mem_singleton.mp new]
        exact .inr within

section End

variable {averages : Averages Averager} {squareRoot : Int → Int} {now start : Int} {index : Nat}
  {meter : DefaultBandwidthMeter Averager} {sample : Option BandwidthSample}

/-- An end feeds a sample with all that was accumulated, or there was nothing to feed. -/
theorem onTransferEnd_cases
    (ends : world.meter.onTransferEnd averages squareRoot now = .ok (meter, sample)) :
    meter.streamCount = world.meter.streamCount - 1 ∧ meter.startTime = now ∧
      meter.bytesAccumulator = 0 ∧
      ((0 < world.meter.bytesAccumulator ∧ ∃ bitrate,
          sample = some ⟨now - world.meter.startTime, world.meter.bytesAccumulator, bitrate⟩) ∨
        (¬ (0 < now - world.meter.startTime ∧ 0 < world.meter.bytesAccumulator) ∧
          sample = none)) := by
  unfold DefaultBandwidthMeter.onTransferEnd at ends
  dsimp only at ends
  split at ends
  · next feeds =>
    obtain ⟨averager, added, ends⟩ := bind_ok ends
    cases ends
    exact ⟨rfl, rfl, rfl, .inl ⟨feeds.2, _, rfl⟩⟩
  · next nothing =>
    cases ends
    exact ⟨rfl, rfl, rfl, .inr ⟨nothing, rfl⟩⟩

theorem activeAt_ended (present : world.transfers[index]? = some ⟨start, none⟩) {time : Int}
    (before : time < now) (activeAt : world.ActiveAt time) :
    (world.ended now index start meter sample).ActiveAt time := by
  obtain ⟨transfer, member, activeAt⟩ := activeAt
  obtain ⟨inside, found⟩ := List.getElem?_eq_some_iff.mp present
  obtain ⟨place, within, rfl⟩ := List.mem_iff_getElem.mp member
  by_cases same : place = index
  · subst same
    rw [found] at activeAt
    refine ⟨⟨start, now⟩, List.mem_set inside _, activeAt.1, fun stop ended => ?_⟩
    cases ended
    exact before
  · refine ⟨world.transfers[place], ?_, activeAt⟩
    have kept : (world.transfers.set index ⟨start, some now⟩)[place]? =
        some world.transfers[place] := by
      rw [List.getElem?_set_ne (Ne.symm same), List.getElem?_eq_getElem within]
    exact List.mem_of_getElem? kept

theorem active_ended (present : world.transfers[index]? = some ⟨start, none⟩) :
    world.active = (world.ended now index start meter sample).active + 1 := by
  obtain ⟨inside, found⟩ := List.getElem?_eq_some_iff.mp present
  have count : (world.transfers.set index ⟨start, some now⟩).countP (·.stop.isNone) =
      world.active - 1 := by
    rw [List.countP_set inside, found]
    rfl
  have some : 0 < world.active :=
    List.countP_pos_iff.mpr ⟨_, List.mem_of_getElem? present, rfl⟩
  have ended : (world.ended now index start meter sample).active = world.active - 1 := count
  omega

inductive Feeds (world : MeterWorld Averager) (now : Int) : List TimedSample → Prop
  | sample (some : 0 < world.meter.bytesAccumulator) :
      Feeds world now [⟨world.meter.startTime, now, world.meter.bytesAccumulator⟩]
  | nothing (none : world.meter.bytesAccumulator = 0)
      (before : ∀ arrival ∈ world.arrivals, arrival.time < world.meter.startTime) :
      Feeds world now []

theorem feeds_of_ends (tracks : world.Tracks) (running : 0 < world.active) (later : world.clock < now)
    (ends : world.meter.onTransferEnd averages squareRoot now = .ok (meter, sample)) :
    ∃ fed, (world.ended now index start meter sample).samples = world.samples ++ fed ∧
      world.Feeds now fed := by
  have accumulates := tracks.accumulates running
  have elapsed : 0 < now - world.meter.startTime := by
    have := accumulates.started
    omega
  obtain ⟨-, -, -, ⟨some, bitrate, rfl⟩ | ⟨nothing, rfl⟩⟩ := onTransferEnd_cases ends
  · refine ⟨_, ?_, .sample some⟩
    simp [MeterWorld.ended]
  · have none : world.arrivedSince world.meter.startTime ≤ 0 := by
      rw [← accumulates.bytes]
      by_contra some
      exact nothing ⟨elapsed, by omega⟩
    have before := lt_of_arrivedSince (fun arrival member => (tracks.arrived arrival member).2) none
    refine ⟨[], ?_, .nothing (accumulates.bytes.trans (arrivedSince_eq_zero before)) before⟩
    simp [MeterWorld.ended]

theorem Tracks.ended (tracks : world.Tracks) (later : world.clock < now)
    (present : world.transfers[index]? = some ⟨start, none⟩)
    (ends : world.meter.onTransferEnd averages squareRoot now = .ok (meter, sample)) :
    (world.ended now index start meter sample).Tracks := by
  obtain ⟨streamCount, startTime, accumulator, -⟩ := onTransferEnd_cases ends
  have count : world.active = (world.ended now index start meter sample).active + 1 :=
    active_ended present
  have running : 0 < world.active := by omega
  have accumulates := tracks.accumulates running
  obtain ⟨fed, samples, feeds⟩ : ∃ fed, (world.ended now index start meter sample).samples =
      world.samples ++ fed ∧ world.Feeds now fed := feeds_of_ends tracks running later ends
  have arrived : ∀ arrival ∈ world.arrivals, arrival.time < now := fun arrival member =>
    (tracks.arrived arrival member).1.trans_lt later
  have begun : ∀ transfer ∈ (world.ended now index start meter sample).transfers,
      transfer.start ≤ now := by
    intro transfer member
    rcases List.mem_or_eq_of_mem_set member with old | rfl
    · exact (tracks.begun transfer old).trans later.le
    · exact (tracks.begun _ (List.mem_of_getElem? present)).trans later.le
  have settled : ∀ arrival ∈ world.arrivals,
      (world.ended now index start meter sample).Covered arrival.time := by
    intro arrival member
    rw [Covered, samples]
    rcases accumulates.settled arrival member with ⟨old, inside, covers⟩ | after
    · exact ⟨old, List.mem_append_left _ inside, covers⟩
    · cases feeds with
      | sample some =>
        exact ⟨_, List.mem_append_right _ (List.mem_singleton_self _), after, arrived arrival member⟩
      | nothing none before => exact absurd after (before arrival member).not_ge
  have stops : ∀ sample' ∈ (world.ended now index start meter sample).samples,
      sample'.start < sample'.stop ∧ sample'.stop ≤ now := by
    intro sample' member
    rw [samples] at member
    rcases List.mem_append.mp member with old | new
    · exact ⟨(tracks.ordered _ old).1, (tracks.ordered _ old).2.trans later.le⟩
    · cases feeds with
      | sample some =>
        rw [List.mem_singleton.mp new]
        exact ⟨accumulates.started.trans_lt later, Int.le_refl now⟩
      | nothing => cases new
  refine {
    streamCount := ?_
    begun := begun
    arrived := fun arrival member => ⟨(arrived arrival member).le, (tracks.arrived arrival member).2⟩
    ordered := stops
    disjoint := ?_
    active := ?_
    counted := ?_
    total := ?_
    rests := fun _ => ⟨accumulator, settled⟩
    accumulates := fun some => ?_ }
  · have before := tracks.streamCount
    show meter.streamCount = _
    omega
  · rw [samples, List.pairwise_append]
    refine ⟨tracks.disjoint, ?_, fun earlier old later' new => ?_⟩
    · cases feeds <;> simp
    · cases feeds with
      | sample some =>
        rw [List.mem_singleton.mp new]
        exact accumulates.before earlier old
      | nothing => cases new
  · intro sample' member time covers
    rw [samples] at member
    refine activeAt_ended present (covers.2.trans_le (stops sample' (samples ▸ member)).2) ?_
    rcases List.mem_append.mp member with old | new
    · exact tracks.active sample' old time covers
    · cases feeds with
      | sample some =>
        rw [List.mem_singleton.mp new] at covers
        by_cases past : time ≤ world.clock
        · exact accumulates.active time covers.1 past
        · exact activeAt_of_open tracks.begun running (by omega)
      | nothing => cases new
  · intro sample' member
    rw [samples] at member
    rcases List.mem_append.mp member with old | new
    · exact tracks.counted sample' old
    · cases feeds with
      | sample some =>
        rw [List.mem_singleton.mp new]
        exact accumulates.bytes.trans (arrivedIn_eq_since _ arrived).symm
      | nothing => cases new
  · have total := tracks.total
    rw [sampledBytes, samples]
    show _ + meter.bytesAccumulator = world.totalBytes
    rw [← total, accumulator, sampledBytes]
    cases feeds with
    | sample some => simp
    | nothing none before => simp [none]
  · have starts : (world.ended now index start meter sample).meter.startTime = now := startTime
    refine ⟨starts.le, ?_, ?_, ?_, fun arrival member => .inl (settled arrival member)⟩
    · rw [starts]
      have nothing : world.arrivedSince now = 0 := arrivedSince_eq_zero arrived
      exact accumulator.trans nothing.symm
    · rw [starts]
      exact fun sample' member => (stops sample' member).2
    · rw [starts]
      exact fun time after _ => activeAt_of_open begun some after

end End

theorem Tracks.apply {averages : Averages Averager} {squareRoot : Int → Int} {op : MeterOp}
    (tracks : world.Tracks) (applied : world.apply averages squareRoot op = some next) :
    next.Tracks := by
  cases op with
  | onTransferStart now =>
    obtain ⟨later, done⟩ := Option.ite_none_right_eq_some.mp applied
    cases done
    exact tracks.started later
  | onBytesTransferred now bytes =>
    obtain ⟨⟨later, some, running⟩, done⟩ := Option.ite_none_right_eq_some.mp applied
    cases done
    exact tracks.transferred later some running
  | onTransferEnd now index =>
    unfold MeterWorld.apply at applied
    dsimp only at applied
    split at applied
    · next start meter sample present ends =>
      obtain ⟨later, done⟩ := Option.ite_none_right_eq_some.mp applied
      cases done
      exact tracks.ended later present ends
    · cases applied

theorem Tracks.covers_unique (tracks : world.Tracks) {first second : TimedSample} {time : Int}
    (here : first ∈ world.samples) (there : second ∈ world.samples)
    (covers : first.Covers time) (again : second.Covers time) : second = first := by
  obtain ⟨place, inside, rfl⟩ := List.mem_iff_getElem.mp here
  obtain ⟨other, within, rfl⟩ := List.mem_iff_getElem.mp there
  have disjoint := List.pairwise_iff_getElem.mp tracks.disjoint
  obtain ⟨starts, stops⟩ := covers
  obtain ⟨starts', stops'⟩ := again
  rcases Nat.lt_trichotomy place other with before | rfl | after
  · have := disjoint place other inside within before
    omega
  · rfl
  · have := disjoint other place within inside after
    omega

theorem Tracks.partitions (tracks : world.Tracks) : world.Partitions where
  streamCount := tracks.streamCount
  ordered := fun sample member => (tracks.ordered sample member).1
  disjoint := tracks.disjoint
  active := tracks.active
  counted := tracks.counted
  once := by
    intro idle arrival member
    obtain ⟨sample, inside, covers⟩ := (tracks.rests idle).settled arrival member
    exact ⟨sample, ⟨inside, covers⟩, fun other present =>
      tracks.covers_unique inside present.1 covers present.2⟩
  total := by
    intro idle
    rw [← tracks.total, (tracks.rests idle).bytes, Int.add_zero]

end MeterWorld

theorem meterSystem_tracks {Averager : Type} {averages : Averages Averager} {squareRoot : Int → Int}
    {world : MeterWorld Averager} (reachable : Reachable (meterSystem averages squareRoot) world) :
    world.Tracks := by
  refine Reachable.invariant MeterWorld.Tracks ?_ (fun _ _ _ tracks step => tracks.apply step)
    reachable
  rintro _ ⟨averager, clock, rfl⟩
  exact ⟨rfl, nofun, nofun, nofun, .nil, nofun, nofun, rfl, fun _ => ⟨rfl, nofun⟩, nofun⟩

theorem bandwidthSamples_partition {Averager : Type} {averages : Averages Averager}
    {squareRoot : Int → Int} {world : MeterWorld Averager}
    (reachable : Reachable (meterSystem averages squareRoot) world) : world.Partitions :=
  (meterSystem_tracks reachable).partitions

def wholeRoot (bytes : Int) : Int := Nat.sqrt bytes.toNat

-- Two transfers that overlap, and after an idle gap one that brings nothing.
def overlapping : List MeterOp :=
  [.onTransferStart 1, .onBytesTransferred 2 100, .onTransferStart 3, .onBytesTransferred 4 40,
    .onTransferEnd 5 0, .onBytesTransferred 6 60, .onTransferEnd 8 1, .onTransferStart 20,
    .onTransferEnd 25 2]

theorem bandwidthSamples_partition_overlapping :
    ∃ world : MeterWorld SlidingMedian, world.samples = [⟨1, 5, 140⟩, ⟨5, 8, 60⟩] ∧
      world.active = 0 ∧ world.Partitions := by
  have executed : (execute (MeterWorld.apply slidingMedian wholeRoot)
      { meter := { averager := { maxWeight := 20000 } }, clock := 0 } overlapping).map
      (fun world => (world.samples, world.active)) = some ([⟨1, 5, 140⟩, ⟨5, 8, 60⟩], 0) := by
    decide +kernel
  obtain ⟨world, ran, result⟩ := Option.map_eq_some_iff.mp executed
  obtain ⟨samples, idle⟩ := Prod.mk.inj result
  have reachable : Reachable (meterSystem slidingMedian wholeRoot) world :=
    (Reachable.start (meterSystem slidingMedian wholeRoot) ⟨{ maxWeight := 20000 }, 0, rfl⟩).run
      (.of_execute (fun _ _ _ _ step => step) ran)
  exact ⟨world, samples, idle, bandwidthSamples_partition reachable⟩

end NDash.Upstream
