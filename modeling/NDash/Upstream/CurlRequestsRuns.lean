import NDash.Upstream.CurlRequests

set_option autoImplicit false

namespace NDash.Upstream

open Machine

structure CurlRequest.Coherent (request : CurlRequest) (metered : Bool) : Prop where
  waiting : ∀ woken, request.caller = .waitingSlot woken → request.isOpen = false
  opening : request.caller = .opening → request.isOpen = true ∧ request.active = false
  during : request.caller = .waitingHeaders ∨ request.caller = .waitingDone ∨
    request.caller = .closing → request.active = true
  opened : request.active = true → request.isOpen = true
  rests : request.active = false →
    request.curl = .idle ∧ request.headersDone = false ∧ request.curlDone = false
  done : request.curlDone = true → request.curl = .idle
  started : request.transfer ≠ none ↔
    metered = true ∧ request.curl = .performing ∧ request.headersDone = true

theorem CurlRequest.initial_coherent (metered : Bool) : ({} : CurlRequest).Coherent metered where
  waiting := nofun
  opening := nofun
  during := by simp
  opened := nofun
  rests := fun _ => ⟨rfl, rfl, rfl⟩
  done := nofun
  started := by simp

theorem CurlRequest.Coherent.active {request : CurlRequest} {metered : Bool}
    (coherent : request.Coherent metered) (running : request.curl ≠ .idle) :
    request.active = true := by
  by_contra inactive
  exact running (coherent.rests (by simpa using inactive)).1

theorem CurlRequest.Coherent.unstarted {request : CurlRequest} {metered : Bool}
    (coherent : request.Coherent metered) (idle : request.curl ≠ .performing) :
    request.transfer = none := by
  by_contra started
  exact idle (coherent.started.mp started).2.1

namespace CurlRequests

variable {Source Averager : Type} [DecidableEq Source] {wiring : Wiring Source}
  {averages : Averages Averager} {squareRoot : Int → Int}
  {all next : CurlRequests Source Averager} {source : Source}

theorem change_requests (all : CurlRequests Source Averager) (source other : Source)
    (update : CurlRequest → CurlRequest) :
    (all.change source update).requests other =
      if other = source then update (all.requests source) else all.requests other :=
  Function.update_apply _ _ _ _

theorem change_isOpen {update : CurlRequest → CurlRequest}
    (still : (update (all.requests source)).isOpen = (all.requests source).isOpen) (other : Source) :
    ((all.change source update).requests other).isOpen = (all.requests other).isOpen := by
  rw [change_requests]
  split
  next same =>
    rw [same]
    exact still
  next => rfl

theorem change_coherent {update : CurlRequest → CurlRequest}
    (coherent : ∀ other, (all.requests other).Coherent (wiring.metered other))
    (itself : (update (all.requests source)).Coherent (wiring.metered source)) (other : Source) :
    ((all.change source update).requests other).Coherent (wiring.metered other) := by
  rw [change_requests]
  split
  next same =>
    rw [same]
    exact itself
  next => exact coherent other

/-- One data source at a time has the slot, and a free slot never leaves every waiter asleep. -/
structure Serialized (wiring : Wiring Source) (all : CurlRequests Source Averager) : Prop where
  coherent : ∀ source, (all.requests source).Coherent (wiring.metered source)
  slot : all.globalActive = true ↔
    ∃ source, wiring.useGlobalLock source = true ∧ (all.requests source).isOpen = true
  single : ∀ source other, wiring.useGlobalLock source = true →
    (all.requests source).isOpen = true → wiring.useGlobalLock other = true →
    (all.requests other).isOpen = true → source = other
  waits : ∀ source woken, (all.requests source).caller = .waitingSlot woken →
    wiring.useGlobalLock source = true
  wakes : all.globalActive = false → (∃ source, (all.requests source).Blocked) →
    ∃ source, (all.requests source).caller = .waitingSlot true

theorem Serialized.quiet (serialized : Serialized wiring all)
    {update : CurlRequest → CurlRequest}
    (coherent : (update (all.requests source)).Coherent (wiring.metered source))
    (still : (update (all.requests source)).isOpen = (all.requests source).isOpen)
    (awake : (all.requests source).caller ≠ .waitingSlot true)
    (moves : ∀ woken, (update (all.requests source)).caller ≠ .waitingSlot woken)
    (world : MeterWorld Averager) :
    Serialized wiring ({ all with world }.change source update) := by
  have isOpen : ∀ other, (({ all with world }.change source update).requests other).isOpen =
      (all.requests other).isOpen := change_isOpen still
  refine ⟨change_coherent serialized.coherent coherent, ?_, fun first second => ?_,
    fun other woken => ?_, fun free => ?_⟩
  · simp only [isOpen]
    exact serialized.slot
  · simp only [isOpen]
    exact serialized.single first second
  · rw [change_requests]
    split
    next => exact fun waits => absurd waits (moves woken)
    next => exact serialized.waits other woken
  · rintro ⟨other, blocked⟩
    simp only [CurlRequest.Blocked, change_requests] at blocked
    split at blocked
    next => exact absurd blocked (moves false)
    next =>
      obtain ⟨waiter, woken⟩ := serialized.wakes free ⟨other, blocked⟩
      refine ⟨waiter, ?_⟩
      rw [change_requests, if_neg]
      · exact woken
      · rintro rfl
        exact awake woken

theorem Serialized.sleep (serialized : Serialized wiring all)
    (closed : (all.requests source).isOpen = false) (locked : wiring.useGlobalLock source = true)
    (taken : all.globalActive = true) :
    Serialized wiring (all.change source fun request =>
      { request with caller := .waitingSlot false }) := by
  have coherent := serialized.coherent source
  have isOpen : ∀ other, ((all.change source fun request =>
      { request with caller := .waitingSlot false }).requests other).isOpen =
        (all.requests other).isOpen := change_isOpen rfl
  refine ⟨change_coherent serialized.coherent ⟨fun _ _ => closed, nofun, by simp, coherent.opened,
    coherent.rests, coherent.done, coherent.started⟩, ?_, fun first second => ?_,
    fun other woken => ?_, fun free => ?_⟩
  · simp only [isOpen]
    exact serialized.slot
  · simp only [isOpen]
    exact serialized.single first second
  · rw [change_requests]
    split
    next same =>
      rw [same]
      exact fun _ => locked
    next => exact serialized.waits other woken
  · exact absurd (taken.symm.trans free) nofun

theorem Serialized.take (serialized : Serialized wiring all)
    (closed : (all.requests source).isOpen = false)
    (vacant : wiring.useGlobalLock source = true → all.globalActive = false) :
    Serialized wiring
      ({ all with globalActive := all.globalActive || wiring.useGlobalLock source }.change source
        fun request => { request with caller := .opening, isOpen := true }) := by
  have coherent := serialized.coherent source
  have inactive : (all.requests source).active = false := by
    cases active : (all.requests source).active with
    | false => rfl
    | true => simp [coherent.opened active] at closed
  refine ⟨change_coherent serialized.coherent ⟨nofun, fun _ => ⟨rfl, inactive⟩, by simp,
    fun _ => rfl, coherent.rests, coherent.done, coherent.started⟩, ?_, fun first second => ?_,
    fun other woken => ?_, fun free => ?_⟩
  · simp only [change_requests]
    constructor
    · intro active
      rcases Bool.or_eq_true _ _ ▸ active with before | locked
      · obtain ⟨owner, lock, open'⟩ := serialized.slot.mp before
        refine ⟨owner, lock, ?_⟩
        split
        next => rfl
        next => exact open'
      · exact ⟨source, locked, by rw [if_pos rfl]⟩
    · rintro ⟨owner, lock, open'⟩
      show (all.globalActive || wiring.useGlobalLock source) = true
      split at open'
      next same => rw [← same, lock, Bool.or_true]
      next => rw [serialized.slot.mpr ⟨owner, lock, open'⟩, Bool.true_or]
  · -- a data source that takes the slot has found it free
    have alone : ∀ other, wiring.useGlobalLock source = true → wiring.useGlobalLock other = true →
        (all.requests other).isOpen = true → other = source := by
      intro other locked lock open'
      have free := vacant locked
      rw [serialized.slot.mpr ⟨other, lock, open'⟩] at free
      cases free
    simp only [change_requests]
    intro lock open' lock' open''
    split at open' <;> split at open''
    next same same' => rw [same, same']
    next same _ =>
      subst same
      exact (alone second lock lock' open'').symm
    next _ same =>
      subst same
      exact alone first lock' lock open'
    next => exact serialized.single first second lock open' lock' open''
  · rw [change_requests]
    split
    next => exact nofun
    next => exact serialized.waits other woken
  · simp only [change, Bool.or_eq_false_iff] at free
    rintro ⟨other, blocked⟩
    simp only [CurlRequest.Blocked, change_requests] at blocked
    split at blocked
    next => cases blocked
    next =>
      obtain ⟨waiter, woken⟩ := serialized.wakes free.1 ⟨other, blocked⟩
      refine ⟨waiter, ?_⟩
      rw [change_requests, if_neg]
      · exact woken
      · rintro rfl
        have locked := serialized.waits _ _ woken
        simp [free.2] at locked

theorem Serialized.acquire (serialized : Serialized wiring all)
    (closed : (all.requests source).isOpen = false) : Serialized wiring (all.acquire wiring source) := by
  unfold CurlRequests.acquire
  split
  next busy =>
    rw [Bool.and_eq_true] at busy
    exact serialized.sleep closed busy.1 busy.2
  next taken =>
    simp only [Bool.and_eq_true, not_and, Bool.not_eq_true] at taken
    exact serialized.take closed taken

variable (wiring) in
def Frees (all : CurlRequests Source Averager) (source : Source) : Prop :=
  (all.requests source).isOpen = true ∧ wiring.useGlobalLock source = true

instance (all : CurlRequests Source Averager) (source : Source) :
    Decidable (all.Frees wiring source) :=
  inferInstanceAs (Decidable
    ((all.requests source).isOpen = true ∧ wiring.useGlobalLock source = true))

variable (wiring) in
theorem release_flag (all : CurlRequests Source Averager) (source : Source) (woken : Option Source) :
    (all.release wiring source woken).globalActive = true ↔
      all.globalActive = true ∧ ¬ all.Frees wiring source := by
  have flag : (all.release wiring source woken).globalActive =
      (all.globalActive && !((all.requests source).isOpen && wiring.useGlobalLock source)) := by
    unfold CurlRequests.release
    cases woken with
    | none => rfl
    | some waiter =>
      dsimp only
      split <;> rfl
  rw [flag, Bool.and_eq_true, Bool.not_eq_true', Bool.and_eq_false_iff, Frees, not_and_or,
    Bool.not_eq_true, Bool.not_eq_true]

variable (wiring) in
theorem release_requests (all : CurlRequests Source Averager) (source other : Source)
    (woken : Option Source) :
    (all.release wiring source woken).requests other =
      if woken = some other ∧ all.Frees wiring source then
        { (if other = source then {} else all.requests other) with caller := .waitingSlot true }
      else if other = source then {} else all.requests other := by
  unfold CurlRequests.release Frees
  cases woken with
  | none => simp [change_requests]
  | some waiter =>
    dsimp only
    by_cases frees : (all.requests source).isOpen = true ∧ wiring.useGlobalLock source = true
    · rw [if_pos (by simp [frees]), change_requests]
      by_cases same : other = waiter
      · subst same
        simp [frees, change_requests]
      · simp [Ne.symm same, same, change_requests]
    · rw [if_neg (by simpa using frees), change_requests]
      exact (if_neg fun both => frees both.2).symm

-- The waiter that is signaled is another data source, and was asleep.
theorem Serialized.release (serialized : Serialized wiring all) {woken : Option Source}
    (caller : ∀ flag, (all.requests source).caller ≠ .waitingSlot flag) (wakes : all.Wakes woken) :
    Serialized wiring (all.release wiring source woken) := by
  have asleep : ∀ other, woken = some other →
      (all.requests other).caller = .waitingSlot false ∧ other ≠ source := by
    rintro other rfl
    refine ⟨wakes, ?_⟩
    rintro rfl
    exact caller false wakes
  have requests := fun other => release_requests wiring all source other woken
  have isOpen : ∀ other, ((all.release wiring source woken).requests other).isOpen = true →
      other ≠ source ∧ (all.requests other).isOpen = true := by
    intro other
    rw [requests]
    split
    next signaled =>
      rw [if_neg (asleep other signaled.1).2]
      exact fun opened => ⟨(asleep other signaled.1).2, opened⟩
    next =>
      split
      next => exact nofun
      next different => exact fun opened => ⟨different, opened⟩
  have stays : ∀ other, other ≠ source → (all.requests other).isOpen = true →
      ((all.release wiring source woken).requests other).isOpen = true := by
    intro other different opened
    rw [requests]
    split
    next => simpa [different] using opened
    next => simpa [different] using opened
  refine ⟨fun other => ?_, ?_, fun first second => ?_, fun other flag => ?_, fun free => ?_⟩
  · rw [requests]
    split
    next signaled =>
      obtain ⟨slept, different⟩ := asleep other signaled.1
      rw [if_neg different]
      have coherent := serialized.coherent other
      have closed := coherent.waiting false slept
      exact ⟨fun _ _ => closed, nofun, by simp, coherent.opened, coherent.rests, coherent.done,
        coherent.started⟩
    next =>
      split
      next => exact CurlRequest.initial_coherent _
      next => exact serialized.coherent other
  · rw [release_flag]
    constructor
    · rintro ⟨active, keeps⟩
      obtain ⟨owner, lock, opened⟩ := serialized.slot.mp active
      have different : owner ≠ source := by
        rintro rfl
        exact keeps ⟨opened, lock⟩
      exact ⟨owner, lock, stays owner different opened⟩
    · rintro ⟨owner, lock, opened⟩
      obtain ⟨different, before⟩ := isOpen owner opened
      refine ⟨serialized.slot.mpr ⟨owner, lock, before⟩, fun frees => different ?_⟩
      exact serialized.single owner source lock before frees.2 frees.1
  · intro lock opened lock' opened'
    exact serialized.single first second lock (isOpen first opened).2 lock' (isOpen second opened').2
  · rw [requests]
    split
    next signaled => exact fun _ => serialized.waits other false (asleep other signaled.1).1
    next =>
      split
      next => exact nofun
      next => exact serialized.waits other flag
  · rintro ⟨other, blocked⟩
    simp only [CurlRequest.Blocked, requests] at blocked
    split at blocked
    next => cases blocked
    next unsignaled =>
      split at blocked
      next => cases blocked
      next different =>
        by_cases frees : all.Frees wiring source
        · cases woken with
          | none => exact absurd blocked (wakes other)
          | some waiter => exact ⟨waiter, by rw [requests, if_pos ⟨rfl, frees⟩]⟩
        · have before : all.globalActive = false := by
            cases active : all.globalActive with
            | false => rfl
            | true => exact absurd ((release_flag wiring all source woken).mpr ⟨active, frees⟩) (by simp [free])
          obtain ⟨waiter, awake⟩ := serialized.wakes before ⟨other, blocked⟩
          refine ⟨waiter, ?_⟩
          rw [requests, if_neg (fun both => frees both.2), if_neg]
          · exact awake
          · rintro rfl
            exact caller true awake

structure Metered (all : CurlRequests Source Averager) : Prop where
  tracks : all.world.Tracks
  owned : ∀ source index, (all.requests source).transfer = some index →
    ∃ start, all.world.transfers[index]? = some ⟨start, none⟩
  owner : ∀ index start, all.world.transfers[index]? = some ⟨start, none⟩ →
    ∃ source, (all.requests source).transfer = some index
  apart : ∀ source other index, (all.requests source).transfer = some index →
    (all.requests other).transfer = some index → source = other

omit [DecidableEq Source] in
theorem Metered.same (metered : all.Metered) (world : next.world = all.world)
    (transfers : ∀ other, (next.requests other).transfer = (all.requests other).transfer) :
    next.Metered := by
  refine ⟨by rw [world]; exact metered.tracks, ?_, ?_, ?_⟩
  · simp only [transfers, world]
    exact metered.owned
  · simp only [transfers, world]
    exact metered.owner
  · simp only [transfers]
    exact metered.apart

omit [DecidableEq Source] in
theorem Metered.running (metered : all.Metered) {index : Nat}
    (transfer : (all.requests source).transfer = some index) : 0 < all.world.active := by
  obtain ⟨start, here⟩ := metered.owned source index transfer
  exact List.countP_pos_iff.mpr ⟨_, List.mem_of_getElem? here, rfl⟩

theorem Metered.onTransferStart (metered : all.Metered) {now : Int}
    (idle : (all.requests source).transfer = none) (later : all.world.clock < now) :
    ∃ next, all.onTransferStart source now = .ok next ∧ next.Metered ∧
      next = { all with world := all.world.started now }.change source fun request =>
        { request with transfer := some all.world.transfers.length } := by
  have checked : ¬ (all.world.meter.streamCount = 0 ∧ all.world.meter.bytesAccumulator ≠ 0) := by
    rintro ⟨none, rest⟩
    rw [metered.tracks.streamCount] at none
    exact rest (metered.tracks.rests (by omega)).bytes
  refine ⟨_, if_neg checked, ?_, rfl⟩
  have inside : ∀ other index, (all.requests other).transfer = some index →
      index < all.world.transfers.length := by
    intro other index transfer
    obtain ⟨start, here⟩ := metered.owned other index transfer
    exact (List.getElem?_eq_some_iff.mp here).1
  refine ⟨metered.tracks.started later, fun other index => ?_, fun index start here => ?_,
    fun first second index => ?_⟩
  · rw [change_requests]
    split
    next =>
      rintro ⟨⟩
      exact ⟨now, List.getElem?_concat_length⟩
    next =>
      intro transfer
      obtain ⟨start, here⟩ := metered.owned other index transfer
      refine ⟨start, ?_⟩
      rw [← here]
      exact List.getElem?_append_left (inside other index transfer)
  · rcases Nat.lt_trichotomy index all.world.transfers.length with before | same | after
    · have there : all.world.transfers[index]? = some ⟨start, none⟩ := by
        rw [← here]
        exact (List.getElem?_append_left before).symm
      obtain ⟨owner, transfer⟩ := metered.owner index start there
      refine ⟨owner, ?_⟩
      rw [change_requests, if_neg]
      · exact transfer
      · rintro rfl
        simp [idle] at transfer
    · refine ⟨source, ?_⟩
      rw [change_requests, if_pos rfl, same]
    · have short := (List.getElem?_eq_some_iff.mp here).1
      simp only [change, MeterWorld.started, List.length_append, List.length_singleton] at short
      omega
  · simp only [change_requests]
    split <;> split
    next same same' => exact fun _ _ => same.trans same'.symm
    next =>
      rintro ⟨⟩ transfer
      exact absurd (inside _ _ transfer) (Nat.lt_irrefl _)
    next =>
      rintro transfer ⟨⟩
      exact absurd (inside _ _ transfer) (Nat.lt_irrefl _)
    next => exact metered.apart first second index

theorem onTransferEnd_fails {meter : DefaultBandwidthMeter Averager} {now : Int} {fault : Fault}
    (failed : meter.onTransferEnd averages squareRoot now = .error fault) :
    ∃ averager weight value, averages.addSample averager weight value = .error fault := by
  unfold DefaultBandwidthMeter.onTransferEnd at failed
  dsimp only at failed
  split at failed
  next =>
    cases added : averages.addSample meter.averager (squareRoot meter.bytesAccumulator)
        ((toInt64 (meter.bytesAccumulator * kBitsPerByte * kMicrosecondsPerSecond)).tdiv
          (now - meter.startTime)) with
    | error cause =>
      rw [added] at failed
      cases failed
      exact ⟨_, _, _, added⟩
    | ok averager =>
      rw [added] at failed
      cases failed
  next => cases failed

variable (averages squareRoot) in
theorem Metered.onTransferEnd (metered : all.Metered) {now : Int} {index : Nat}
    (transfer : (all.requests source).transfer = some index) (later : all.world.clock < now) :
    (∃ next world, all.onTransferEnd averages squareRoot source now = .ok next ∧ next.Metered ∧
        next = { all with world }.change source fun request => { request with transfer := none }) ∨
      ∃ fault, all.onTransferEnd averages squareRoot source now = .error fault ∧
        ∃ averager weight value, averages.addSample averager weight value = .error fault := by
  obtain ⟨start, here⟩ := metered.owned source index transfer
  have counts : 0 < all.world.meter.streamCount := by
    rw [metered.tracks.streamCount]
    exact Int.natCast_pos.mpr (metered.running transfer)
  simp only [CurlRequests.onTransferEnd, if_pos counts, transfer, here]
  cases ends : all.world.meter.onTransferEnd averages squareRoot now with
  | error fault => exact .inr ⟨fault, rfl, onTransferEnd_fails ends⟩
  | ok result =>
    obtain ⟨meter, sample⟩ := result
    refine .inl ⟨_, _, rfl, ⟨metered.tracks.ended later here ends, fun other k => ?_,
      fun k start' there => ?_, fun first second k => ?_⟩, rfl⟩
    · rw [change_requests]
      split
      next => exact nofun
      next different =>
        intro owns
        have apart : index ≠ k := by
          rintro rfl
          exact different (metered.apart other source index owns transfer)
        obtain ⟨begun, present⟩ := metered.owned other k owns
        refine ⟨begun, ?_⟩
        rw [← present]
        exact List.getElem?_set_ne apart
    · have apart : index ≠ k := by
        rintro rfl
        have inside := (List.getElem?_eq_some_iff.mp here).1
        have stopped : (all.world.transfers.set index { start, stop := some now })[index]? =
            some { start, stop := some now } := List.getElem?_set_self inside
        have same := stopped.symm.trans there
        cases same
      have present : all.world.transfers[k]? = some ⟨start', none⟩ := by
        rw [← there]
        exact (List.getElem?_set_ne apart).symm
      obtain ⟨owner, owns⟩ := metered.owner k start' present
      refine ⟨owner, ?_⟩
      rw [change_requests, if_neg]
      · exact owns
      · rintro rfl
        exact apart (Option.some.inj (transfer.symm.trans owns))
    · simp only [change_requests]
      split <;> split
      next same same' => exact fun _ _ => same.trans same'.symm
      next => exact nofun
      next => exact fun _ => nofun
      next => exact metered.apart first second k

theorem change_change (all : CurlRequests Source Averager) (source : Source)
    (first second : CurlRequest → CurlRequest) :
    (all.change source first).change source second =
      all.change source fun request => second (first request) := by
  simp only [change, Function.update_self, Function.update_idem]

theorem change_transfer {update : CurlRequest → CurlRequest}
    (still : (update (all.requests source)).transfer = (all.requests source).transfer)
    (other : Source) :
    ((all.change source update).requests other).transfer = (all.requests other).transfer := by
  rw [change_requests]
  split
  next same =>
    rw [same]
    exact still
  next => rfl

theorem acquire_metered (metered : all.Metered) (source : Source) :
    (all.acquire wiring source).Metered := by
  unfold CurlRequests.acquire
  split
  next => exact metered.same rfl (change_transfer rfl)
  next => exact metered.same rfl (change_transfer rfl)

theorem release_metered (metered : all.Metered)
    (ended : (all.requests source).transfer = none) (woken : Option Source) :
    (all.release wiring source woken).Metered := by
  refine metered.same ?_ fun other => ?_
  · unfold CurlRequests.release
    cases woken with
    | none => rfl
    | some waiter =>
      dsimp only
      split <;> rfl
  · rw [release_requests]
    by_cases same : other = source
    · subst same
      simp only [if_true, ended]
      split <;> rfl
    · simp only [if_neg same]
      split <;> rfl

def AveragerFault (averages : Averages Averager) (fault : Fault) : Prop :=
  ∃ averager weight value, averages.addSample averager weight value = .error fault

theorem headersComplete_sound (serialized : Serialized wiring all) (metered : all.Metered)
    {now : Int} (performing : (all.requests source).curl = .performing)
    (undone : (all.requests source).headersDone = false) (later : all.world.clock < now) :
    ∃ next, all.headersComplete wiring source now = .ok next ∧ Serialized wiring next ∧
      next.Metered := by
  have coherent := serialized.coherent source
  have active := coherent.active (by simp [performing])
  have opened := coherent.opened active
  have unfinished : (all.requests source).curlDone ≠ true := by
    intro done
    cases performing.symm.trans (coherent.done done)
  have sleeps : ∀ woken, (all.requests source).caller ≠ .waitingSlot woken := by
    intro woken waits
    cases opened.symm.trans (coherent.waiting woken waits)
  have idle : (all.requests source).transfer = none := by
    by_contra started
    have done := (coherent.started.mp started).2.2
    cases undone.symm.trans done
  cases listens : wiring.metered source with
  | true =>
    obtain ⟨started, starts, after, rfl⟩ := metered.onTransferStart idle later
    simp only [CurlRequests.headersComplete, if_pos listens, starts, bind, Except.bind]
    refine ⟨_, rfl, ?_, after.same rfl (change_transfer rfl)⟩
    rw [change_change]
    refine serialized.quiet ?_ rfl (sleeps true) sleeps _
    refine ⟨coherent.waiting, coherent.opening, coherent.during, coherent.opened, ?_,
      coherent.done, ?_⟩
    · exact fun inactive => absurd (active.symm.trans inactive) nofun
    · simp [listens, performing]
  | false =>
    have silent : ¬ wiring.metered source = true := by simp [listens]
    simp only [CurlRequests.headersComplete, if_neg silent, bind, Except.bind]
    refine ⟨_, rfl, ?_, metered.same rfl (change_transfer rfl)⟩
    refine serialized.quiet ?_ rfl (sleeps true) sleeps all.world
    refine ⟨coherent.waiting, coherent.opening, coherent.during, coherent.opened, ?_,
      coherent.done, ?_⟩
    · exact fun inactive => absurd (active.symm.trans inactive) nofun
    · simp [listens, idle]

theorem performed_sound (serialized : Serialized wiring all) (metered : all.Metered) {now : Int}
    (performing : (all.requests source).curl = .performing) (later : all.world.clock < now) :
    (∃ next, all.performed wiring averages squareRoot source now = .ok next ∧
        Serialized wiring next ∧ next.Metered) ∨
      ∃ fault, all.performed wiring averages squareRoot source now = .error fault ∧
        AveragerFault averages fault := by
  have coherent := serialized.coherent source
  have active := coherent.active (by simp [performing])
  have opened := coherent.opened active
  have sleeps : ∀ woken, (all.requests source).caller ≠ .waitingSlot woken := by
    intro woken waits
    cases opened.symm.trans (coherent.waiting woken waits)
  have unfinished : (all.requests source).curlDone ≠ true := by
    intro done
    cases performing.symm.trans (coherent.done done)
  -- the request as it stands behind the listener's OnTransferEnd
  have ended : ∀ transfer, transfer = none →
      ({ all.requests source with transfer, curl := .ended } : CurlRequest).Coherent
        (wiring.metered source) := by
    rintro _ rfl
    exact ⟨coherent.waiting, coherent.opening, coherent.during, coherent.opened,
      fun inactive => absurd (active.symm.trans inactive) nofun,
      fun done => absurd done unfinished, by simp⟩
  by_cases tells : ((all.requests source).headersDone && wiring.metered source) = true
  · simp only [CurlRequests.performed, if_pos tells]
    simp only [Bool.and_eq_true] at tells
    obtain ⟨index, transfer⟩ : ∃ index, (all.requests source).transfer = some index :=
      Option.ne_none_iff_exists'.mp (coherent.started.mpr ⟨tells.2, performing, tells.1⟩)
    rcases metered.onTransferEnd averages squareRoot transfer later with
      ⟨next, world, ends, after, rfl⟩ | ⟨fault, fails, cause⟩
    · simp only [ends, bind, Except.bind]
      refine .inl ⟨_, rfl, ?_, after.same rfl (change_transfer rfl)⟩
      rw [change_change]
      exact serialized.quiet (ended none rfl) rfl (sleeps true) sleeps world
    · simp only [fails, bind, Except.bind]
      exact .inr ⟨fault, rfl, cause⟩
  · simp only [CurlRequests.performed, if_neg tells]
    have idle : (all.requests source).transfer = none := by
      by_contra started
      obtain ⟨listens, -, done⟩ := coherent.started.mp started
      exact tells (by simp [listens, done])
    refine .inl ⟨_, rfl, ?_, metered.same rfl (change_transfer rfl)⟩
    exact serialized.quiet (ended _ idle) rfl (sleeps true) sleeps all.world

/-- One step of a thread keeps the slot and the meter sound, whatever the others do. -/
theorem apply_sound (serialized : Serialized wiring all) (metered : all.Metered)
    {op : RequestOp Source} (legal : all.Legal source op) :
    (∃ next, all.apply wiring averages squareRoot source op = .ok next ∧
        Serialized wiring next ∧ next.Metered) ∨
      ∃ fault, all.apply wiring averages squareRoot source op = .error fault ∧
        AveragerFault averages fault := by
  have coherent := serialized.coherent source
  cases op with
  | «open» =>
    have outside : (all.requests source).caller = .outside := legal
    refine .inl ⟨_, rfl, ?_⟩
    unfold CurlRequests.open
    split
    next => exact ⟨serialized, metered⟩
    next closed =>
      exact ⟨serialized.acquire (by simpa using closed), acquire_metered metered source⟩
  | resumeOpen =>
    exact .inl ⟨_, rfl, serialized.acquire (coherent.waiting true legal),
      acquire_metered metered source⟩
  | refuse =>
    have opening : (all.requests source).caller = .opening := legal
    refine .inl ⟨_, rfl, serialized.quiet ?_ rfl (by simp [opening]) (by simp) all.world,
      metered.same rfl (change_transfer rfl)⟩
    exact ⟨nofun, nofun, by simp, coherent.opened, coherent.rests, coherent.done, coherent.started⟩
  | perform =>
    have opening : (all.requests source).caller = .opening := legal
    obtain ⟨opened, inactive⟩ := coherent.opening opening
    obtain ⟨idle, undone, unfinished⟩ := coherent.rests inactive
    refine .inl ⟨_, rfl, serialized.quiet ?_ rfl (by simp [opening]) (by simp) all.world,
      metered.same rfl (change_transfer rfl)⟩
    refine ⟨nofun, nofun, fun _ => rfl, fun _ => opened, nofun, ?_, ?_⟩
    · exact fun done => absurd (unfinished.symm.trans done) nofun
    · rw [coherent.started]
      simp [idle, undone]
  | headersComplete now =>
    obtain ⟨performing, undone, later⟩ := legal
    exact .inl (headersComplete_sound serialized metered performing undone later)
  | body now bytes =>
    obtain ⟨performing, done, later, positive, -⟩ := legal
    simp only [apply, CurlRequests.body]
    cases listens : wiring.metered source with
    | false =>
      rw [if_neg (by simp)]
      exact .inl ⟨all, rfl, serialized, metered⟩
    | true =>
      rw [if_pos rfl, if_pos positive]
      obtain ⟨index, transfer⟩ : ∃ index, (all.requests source).transfer = some index :=
        Option.ne_none_iff_exists'.mp (coherent.started.mpr ⟨listens, performing, done⟩)
      refine .inl ⟨_, rfl, ⟨serialized.coherent, serialized.slot, serialized.single,
        serialized.waits, serialized.wakes⟩, ?_, metered.owned, metered.owner, metered.apart⟩
      exact metered.tracks.transferred later positive (metered.running transfer)
  | performed now =>
    obtain ⟨performing, later⟩ := legal
    exact performed_sound serialized metered performing later
  | finish =>
    have ended : (all.requests source).curl = .ended := legal
    have active := coherent.active (by simp [ended])
    have idle : (all.requests source).transfer = none := by
      by_contra started
      cases ended.symm.trans (coherent.started.mp started).2.1
    have sleeps : ∀ woken, (all.requests source).caller ≠ .waitingSlot woken := by
      intro woken waits
      cases (coherent.opened active).symm.trans (coherent.waiting woken waits)
    refine .inl ⟨_, rfl, serialized.quiet ?_ rfl (sleeps true) sleeps all.world,
      metered.same rfl (change_transfer rfl)⟩
    exact ⟨coherent.waiting, coherent.opening, coherent.during, coherent.opened,
      fun inactive => absurd (active.symm.trans inactive) nofun, fun _ => rfl, by simp [idle]⟩
  | headersSeen canceled =>
    have waiting : (all.requests source).caller = .waitingHeaders := legal.1
    have active := coherent.during (.inl waiting)
    refine .inl ⟨_, rfl, serialized.quiet ?_ rfl (by simp [waiting])
      (by cases canceled <;> simp) all.world, metered.same rfl (change_transfer rfl)⟩
    cases canceled with
    | true => exact ⟨nofun, nofun, fun _ => active, coherent.opened, coherent.rests, coherent.done,
        coherent.started⟩
    | false => exact ⟨nofun, nofun, by simp, coherent.opened, coherent.rests, coherent.done,
        coherent.started⟩
  | doneSeen =>
    have waiting : (all.requests source).caller = .waitingDone := legal.1
    refine .inl ⟨_, rfl, serialized.quiet ?_ rfl (by simp [waiting]) (by simp) all.world,
      metered.same rfl (change_transfer rfl)⟩
    exact ⟨nofun, nofun, by simp, coherent.opened, coherent.rests, coherent.done, coherent.started⟩
  | close woken =>
    obtain ⟨outside, wakes⟩ := legal
    refine .inl ⟨_, rfl, ?_⟩
    unfold CurlRequests.close
    split
    next active =>
      refine ⟨serialized.quiet ?_ rfl (by simp [outside]) (by simp) all.world,
        metered.same rfl (change_transfer rfl)⟩
      exact ⟨nofun, nofun, fun _ => active, coherent.opened, coherent.rests, coherent.done,
        coherent.started⟩
    next inactive =>
      have idle := (coherent.rests (by simpa using inactive)).1
      exact ⟨serialized.release (by simp [outside]) wakes,
        release_metered metered (coherent.unstarted (by simp [idle])) woken⟩
  | finishClose woken =>
    obtain ⟨closing, done, wakes⟩ := legal
    have idle := coherent.done done
    exact .inl ⟨_, rfl, serialized.release (by simp [closing]) wakes,
      release_metered metered (coherent.unstarted (by simp [idle])) woken⟩

theorem reachable_sound (reachable : Reachable (requestSystem wiring averages squareRoot) all) :
    Serialized wiring all ∧ all.Metered := by
  refine Reachable.invariant (fun all => Serialized wiring all ∧ all.Metered) ?_ ?_ reachable
  · rintro _ ⟨averager, clock, rfl⟩
    refine ⟨⟨fun _ => CurlRequest.initial_coherent _, ?_, nofun, nofun, ?_⟩, ⟨?_, nofun, nofun, nofun⟩⟩
    · simp
    · rintro - ⟨source, blocked⟩
      cases blocked
    · exact meterSystem_tracks (Reachable.start (meterSystem averages squareRoot) ⟨averager, clock, rfl⟩)
  · rintro all ⟨source, op⟩ next ⟨serialized, metered⟩ ⟨legal, ran⟩
    rcases apply_sound serialized metered legal with ⟨reached, again, kept⟩ | ⟨fault, fails, -⟩
    · rw [ran] at again
      cases again
      exact kept
    · rw [ran] at fails
      cases fails

end CurlRequests

open CurlRequests

/-- The global lock serializes requests: one data source at a time has the slot, no two that use it
have a request under way at once, the flag is set exactly while one has it, and when it is free and a
thread waits for it some waiter has been woken. -/
theorem curlRequests_take_turns {Source Averager : Type} [DecidableEq Source]
    (wiring : Wiring Source) (averages : Averages Averager) (squareRoot : Int → Int)
    (all : CurlRequests Source Averager)
    (reachable : Reachable (requestSystem wiring averages squareRoot) all) :
    (∀ source other, wiring.useGlobalLock source = true → wiring.useGlobalLock other = true →
        (all.requests source).curl ≠ .idle → (all.requests other).curl ≠ .idle →
        source = other) ∧
      (∀ source other, wiring.useGlobalLock source = true → wiring.useGlobalLock other = true →
        (all.requests source).isOpen = true → (all.requests other).isOpen = true →
        source = other) ∧
      (all.globalActive = true ↔
        ∃! source, wiring.useGlobalLock source = true ∧ (all.requests source).isOpen = true) ∧
      (all.globalActive = false → (∃ source, (all.requests source).Blocked) →
        ∃ source, all.Legal source .resumeOpen) := by
  obtain ⟨serialized, -⟩ := reachable_sound reachable
  have opened : ∀ source, (all.requests source).curl ≠ .idle →
      (all.requests source).isOpen = true := fun source running =>
    (serialized.coherent source).opened ((serialized.coherent source).active running)
  refine ⟨?_, ?_, ?_, serialized.wakes⟩
  · intro source other lock lock' running running'
    exact serialized.single source other lock (opened source running) lock' (opened other running')
  · intro source other lock lock' here there
    exact serialized.single source other lock here lock' there
  · rw [serialized.slot]
    constructor
    · rintro ⟨source, lock, here⟩
      exact ⟨source, ⟨lock, here⟩, fun other there =>
        serialized.single other source there.1 there.2 lock here⟩
    · rintro ⟨source, owns, -⟩
      exact ⟨source, owns⟩

def bothShare : Wiring Bool := ⟨fun _ => true, fun _ => true⟩

theorem reachable_waiting : ∃ all : CurlRequests Bool Util.SlidingMedian,
    Reachable (requestSystem bothShare slidingMedian wholeRoot) all ∧
      (all.requests true).curl = .performing ∧ (all.requests false).Blocked := by
  have start : Reachable (requestSystem bothShare slidingMedian wholeRoot)
      { requests := fun _ => {}, globalActive := false
        world := { meter := { averager := { maxWeight := 20000 } }, clock := 0 } } :=
    Reachable.start _ ⟨_, _, rfl⟩
  have opened := start.next (true, .open) ⟨rfl, rfl⟩
  have performing := opened.next (true, .perform) ⟨rfl, rfl⟩
  have waiting := performing.next (false, .open) ⟨rfl, rfl⟩
  exact ⟨_, waiting, rfl, rfl⟩

-- One of them has a request under way when the other one waits for the slot.
theorem curlRequests_take_turns_waiting :
    ∃ all : CurlRequests Bool Util.SlidingMedian, (all.requests true).curl = .performing ∧
      (all.requests false).Blocked ∧
      (∀ source other, bothShare.useGlobalLock source = true →
        bothShare.useGlobalLock other = true → (all.requests source).isOpen = true →
        (all.requests other).isOpen = true → source = other) ∧
      (all.globalActive = true ↔ ∃! source, bothShare.useGlobalLock source = true ∧
        (all.requests source).isOpen = true) := by
  obtain ⟨all, reachable, performing, blocked⟩ := reachable_waiting
  obtain ⟨-, single, slot, -⟩ := curlRequests_take_turns _ _ _ all reachable
  exact ⟨all, performing, blocked, single, slot⟩

/-- However the requests of the data sources overlap, the bandwidth meter that they share is called
as it expects: no check of it fails, it counts the requests that are between their headers and their
end, and its samples partition the bytes and the time of all of them. -/
theorem curlRequests_share_meter {Source Averager : Type} [DecidableEq Source]
    (wiring : Wiring Source) (averages : Averages Averager) (squareRoot : Int → Int)
    (all : CurlRequests Source Averager)
    (reachable : Reachable (requestSystem wiring averages squareRoot) all) :
    (∀ source op, all.Legal source op →
        (∃ next, all.apply wiring averages squareRoot source op = .ok next) ∨
          ∃ fault, all.apply wiring averages squareRoot source op = .error fault ∧
            AveragerFault averages fault) ∧
      (∀ index, (∃ start, all.world.transfers[index]? = some ⟨start, none⟩) ↔
        ∃! source, (all.requests source).transfer = some index) ∧
      (∀ source, (all.requests source).transfer ≠ none ↔ wiring.metered source = true ∧
        (all.requests source).curl = .performing ∧ (all.requests source).headersDone = true) ∧
      all.world.Partitions := by
  obtain ⟨serialized, metered⟩ := reachable_sound reachable
  refine ⟨?_, ?_, fun source => (serialized.coherent source).started, metered.tracks.partitions⟩
  · intro source op legal
    rcases apply_sound serialized metered legal with ⟨next, ran, -⟩ | failed
    · exact .inl ⟨next, ran⟩
    · exact .inr failed
  · intro index
    constructor
    · rintro ⟨start, here⟩
      obtain ⟨source, owns⟩ := metered.owner index start here
      exact ⟨source, owns, fun other also => metered.apart other source index also owns⟩
    · rintro ⟨source, owns, -⟩
      exact metered.owned source index owns

def CurlRequests.advance (wiring : Wiring Bool) (all : CurlRequests Bool Util.SlidingMedian)
    (step : Bool × RequestOp Bool) : Option (CurlRequests Bool Util.SlidingMedian) :=
  if all.Legal step.1 step.2 then (all.apply wiring slidingMedian wholeRoot step.1 step.2).toOption
  else none

theorem CurlRequests.advance_step {wiring : Wiring Bool} {step : Bool × RequestOp Bool}
    {all next : CurlRequests Bool Util.SlidingMedian} (advances : all.advance wiring step = some next) :
    (requestSystem wiring slidingMedian wholeRoot).Step all step next := by
  unfold advance at advances
  obtain ⟨legal, applied⟩ := Option.ite_none_right_eq_some.mp advances
  exact ⟨legal, Outcome.ok_of_toOption applied⟩

-- Without the lock the second request starts before the first one ends.
def meterOnly : Wiring Bool := ⟨fun _ => false, fun _ => true⟩

def overlappingRequests : List (Bool × RequestOp Bool) :=
  [(true, .open), (true, .perform), (false, .open), (false, .perform),
    (true, .headersComplete 1), (true, .body 2 100), (false, .headersComplete 3),
    (false, .body 4 40), (true, .performed 5), (false, .body 6 60)]

theorem curlRequests_share_meter_overlapping :
    ∃ all : CurlRequests Bool Util.SlidingMedian, all.world.samples = [⟨1, 5, 140⟩] ∧
      all.world.totalBytes = 200 ∧
      (∃! source, (all.requests source).transfer = some 1) ∧ all.world.Partitions := by
  have executed : (execute (CurlRequests.advance meterOnly)
      { requests := fun _ => {}, globalActive := false
        world := { meter := { averager := { maxWeight := 20000 } }, clock := 0 } }
      overlappingRequests).map (fun all => (all.world.samples, all.world.totalBytes,
        all.world.transfers[1]?)) = some ([⟨1, 5, 140⟩], 200, some ⟨3, none⟩) := by
    decide +kernel
  obtain ⟨all, ran, result⟩ := Option.map_eq_some_iff.mp executed
  obtain ⟨samples, total, running⟩ := by simpa only [Prod.mk.injEq] using result
  have reachable : Reachable (requestSystem meterOnly slidingMedian wholeRoot) all :=
    (Reachable.start (requestSystem meterOnly slidingMedian wholeRoot) ⟨_, _, rfl⟩).run
      (.of_execute (fun _ _ _ _ advances => CurlRequests.advance_step advances) ran)
  obtain ⟨-, owners, -, partitions⟩ := curlRequests_share_meter _ _ _ all reachable
  exact ⟨all, samples, total, (owners 1).mp ⟨3, running⟩, partitions⟩

end NDash.Upstream
