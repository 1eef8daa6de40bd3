import NDash.DashThreadReposition

set_option autoImplicit false

namespace NDash

open Machine

structure HeldFresh (buffering : Prop) (track : TrackContext) : Prop where
  polled : buffering → track.renderer.Polled
  since : SampledSince track.history
  sample : ∃ sample, lastSample track.history = some sample ∧ track.sampleHolder.Holds sample

structure FreshTrack (buffering : Prop) (track : TrackContext) : Prop where
  delivers : DeliversFresh track.history
  held : track.hasSample = true → HeldFresh buffering track

structure DashThread.Fresh (thread : DashThread) : Prop where
  tracks : ∀ track ∈ thread.tracks, FreshTrack (thread.state = .buffering) track
  current : thread.state = .buffering → ∀ index track, thread.currentTrack = some index →
    thread.tracks[index]? = some track → track.hasSample = true

theorem FreshTrack.empty {buffering : Prop} {track : TrackContext}
    (delivers : DeliversFresh track.history) (empty : track.hasSample = false) :
    FreshTrack buffering track :=
  ⟨delivers, fun full => absurd (empty.symm.trans full) nofun⟩

theorem fresh_rule (buffering : Prop) :
    ReadRule (fun track => track.renderer.Polled ∧ track.hasSample = false ∧
      DeliversFresh track.history) (FreshTrack buffering) := by
  constructor
  · rintro track ⟨polled, empty, delivers⟩
    exact .empty delivers empty
  · rintro track ⟨polled, empty, delivers⟩
    exact .empty delivers empty
  · rintro track formatHolder ⟨polled, empty, delivers⟩
    exact ⟨polled, empty, delivers⟩
  · rintro track sample ⟨polled, empty, delivers⟩
    exact ⟨polled, empty, delivers⟩
  · rintro track sample ⟨polled, empty, delivers⟩
    exact .empty delivers empty
  · rintro track sample ⟨polled, empty, delivers⟩ present
    exact ⟨delivers, fun _ => ⟨fun _ => polled, trivial, sample, rfl,
      track.sampleHolder.receive_holds sample⟩⟩

theorem FreshTrack.fill {buffering : Prop} {track : TrackContext}
    (fresh : FreshTrack buffering track) (rate : Rat) (reads : List ReadOutcome) :
    FreshTrack buffering (track.fill rate reads).2 :=
  (fresh_rule buffering).fill rate reads fresh
    fun _ polled empty => ⟨polled, empty, fresh.delivers⟩

theorem FreshTrack.selected {buffering : Prop} {track : TrackContext}
    (fresh : FreshTrack buffering track) (now : buffering) (sampled : track.hasSample = true) :
    FreshTrack buffering (track.note (.selected track.renderer)) := by
  have held := fresh.held sampled
  exact ⟨⟨held.polled now, fresh.delivers⟩, fun _ => ⟨held.polled, held.since, held.sample⟩⟩

theorem Checks.fresh {buffering : Prop} {license cleared : Bool} {track next : TrackContext}
    (checks : Checks license track cleared next) (fresh : FreshTrack buffering track) :
    FreshTrack buffering next := by
  obtain ⟨delivers, held⟩ := fresh
  cases checks with
  | clear => exact ⟨delivers, held⟩
  | known => exact ⟨delivers, held⟩
  | granted =>
    exact ⟨delivers, fun full => ⟨(held full).polled, (held full).since, (held full).sample⟩⟩
  | refused =>
    exact ⟨delivers, fun full => ⟨(held full).polled, (held full).since, (held full).sample⟩⟩

theorem FreshTrack.fragment {buffering : Prop} {track : TrackContext}
    (fresh : FreshTrack buffering track) (sampled : track.hasSample = true) {data : Bytes}
    {position count : Int}
    (copied : copyBytes track.sampleHolder.buffer position count = .ok data) (info : DashFrameInfo) :
    FreshTrack buffering (track.note (.fragment data info)) := by
  obtain ⟨polled, since, sample, last, holds⟩ := fresh.held sampled
  rw [holds.buffer] at copied
  exact ⟨⟨⟨sample, last, copyBytes_infix copied, since⟩, fresh.delivers⟩,
    fun _ => ⟨polled, since, sample, last, holds⟩⟩

theorem drains_fresh {conversions : Conversions} {thread next : DashThread} {index : Nat}
    {track : TrackContext} {fi : DashFrameInfo} {bufferLen : Int}
    (tracks : ∀ track ∈ thread.tracks, FreshTrack (thread.state = .buffering) track)
    (current : thread.currentTrack = some index) (found : thread.tracks[index]? = some track)
    (sampled : track.hasSample = true)
    (drains : Drains conversions thread bufferLen fi index track next) : next.Fresh := by
  have here := tracks track (List.mem_of_getElem? found)
  cases drains with
  | finishes data format info fits copied described =>
    refine ⟨?_, fun _ position other now => by cases now⟩
    intro other member
    rcases List.mem_or_eq_of_mem_set member with older | rfl
    · exact tracks other older
    · exact .empty (here.fragment sampled copied _).delivers rfl
  | continues data format info short copied described =>
    refine ⟨?_, ?_⟩
    · intro other member
      rcases List.mem_or_eq_of_mem_set member with older | rfl
      · exact tracks other older
      · exact here.fragment sampled copied info
    · intro _ position other now at_
      cases current.symm.trans now
      rcases getElem?_set_cases at_ with ⟨-, rfl⟩ | ⟨differs, -⟩
      · exact sampled
      · exact absurd rfl differs

theorem copies_fresh {conversions : Conversions} {thread next : DashThread} {bufferLen : Int}
    {reads : Nat → List ReadOutcome} {license : Bool} (fresh : thread.Fresh)
    (copies : Copies conversions thread bufferLen reads license next) : next.Fresh := by
  have filled : ∀ track ∈ (thread.fillTrackSampleHolders reads).2.tracks,
      FreshTrack (thread.state = .buffering) track := by
    intro track member
    obtain ⟨older, at_, index, rfl⟩ := DashThread.mem_fill member
    exact (fresh.tracks older at_).fill thread.playbackRate (reads index)
  have checked {index : Nat} {track next : TrackContext} {cleared : Bool}
      (buffering : thread.state = .buffering)
      (found : (thread.fillTrackSampleHolders reads).2.tracks[index]? = some track)
      (sampled : track.hasSample = true)
      (checks : Checks license (track.note (.selected track.renderer)) cleared next) :
      ∀ other ∈ (thread.fillTrackSampleHolders reads).2.tracks.set index next,
        FreshTrack (thread.state = .buffering) other := by
    have here := filled track (List.mem_of_getElem? found)
    intro other member
    rcases List.mem_or_eq_of_mem_set member with older | rfl
    · exact filled other older
    · exact checks.fresh (here.selected buffering sampled)
  cases copies with
  | declines => exact fresh
  | resumes index track next buffering current found drains =>
    exact drains_fresh fresh.tracks current found (fresh.current buffering index track current found)
      drains
  | ends buffering current ended =>
    refine ⟨?_, fun impossible => by cases impossible⟩
    intro track member
    obtain ⟨older, at_, rfl⟩ := List.mem_map.mp member
    obtain ⟨delivers, held⟩ := filled older at_
    refine ⟨delivers, fun full => ⟨fun impossible => ?_, (held full).since, (held full).sample⟩⟩
    cases impossible
  | waits buffering current =>
    refine ⟨filled, fun _ index track now => ?_⟩
    cases current.symm.trans now
  | blocks index track next readerPosition buffering current found sampled checks =>
    refine ⟨checked buffering found sampled checks, ?_⟩
    intro _ position other now at_
    cases now
    rcases getElem?_set_cases at_ with ⟨-, rfl⟩ | ⟨differs, -⟩
    · exact checks.sample.1.trans sampled
    · exact absurd rfl differs
  | begins index track next readerPosition fi last buffering current found sampled checks
      populated drains =>
    exact drains_fresh (checked buffering found sampled checks) rfl
      (List.getElem?_set_self (List.getElem?_eq_some_iff.mp found).1)
      (checks.sample.1.trans sampled) drains

theorem seeks_fresh {thread next : DashThread} {timeMs : Int} {adjust : Int → Int}
    (fresh : thread.Fresh) (seeks : Seeks thread timeMs adjust next) : next.Fresh := by
  cases seeks with
  | stays => exact ⟨fresh.tracks, fresh.current⟩
  | moves =>
    refine ⟨?_, fun _ index track now => by cases now⟩
    intro track member
    obtain ⟨older, at_, rfl⟩ := List.mem_map.mp member
    refine .empty ?_ rfl
    change DeliversFresh older.seekRenderer.history
    rw [seekRenderer_eq]
    split <;> exact (fresh.tracks older at_).delivers

theorem disables_fresh {thread next : DashThread} (fresh : thread.Fresh)
    (disables : Disables thread next) : next.Fresh := by
  rcases disables.same with rfl | ready
  · exact fresh
  · refine ⟨?_, fun buffering => absurd (ready.symm.trans buffering) nofun⟩
    intro track member
    obtain ⟨older, at_, renderer, rfl, -⟩ := disables.tracks track member
    obtain ⟨delivers, held⟩ := fresh.tracks older at_
    refine ⟨delivers, fun full => ⟨?_, (held full).since, (held full).sample⟩⟩
    exact fun buffering => absurd (ready.symm.trans buffering) nofun

theorem enables_fresh {thread next : DashThread} {targetRate : Rat} {index : Nat}
    (fresh : thread.Fresh) (leaves : LeavesNoSample thread (.disabled index targetRate) next)
    (enables : Enables thread targetRate index next) : next.Fresh := by
  cases enables with
  | waits => exact ⟨fresh.tracks, fresh.current⟩
  | completes disabling last =>
    refine ⟨?_, fun _ index track now => by cases now⟩
    intro track member
    obtain ⟨older, at_, rfl⟩ := List.mem_map.mp member
    refine .empty ?_ ?_
    · change DeliversFresh (older.enableForRate targetRate).history
      rw [(enableForRate_polled targetRate older).2.2]
      exact (fresh.tracks older at_).delivers
    · change (older.enableForRate targetRate).hasSample = false
      unfold TrackContext.enableForRate
      split
      · rfl
      next kept =>
        have away : older.frameType ≠ .video ∧ isNormal targetRate = false := by simpa using kept
        exact leaves last away.2 older at_ away.1

theorem leavesNoSample_fresh {conversions : Conversions} {thread : DashThread}
    (reachable : Reachable ((playerSystem conversions).restrict LeavesNoSample) thread) :
    thread.Fresh := by
  refine reachable.invariant DashThread.Fresh ?_ ?_
  · intro thread loaded
    refine ⟨?_, fun _ index track now => absurd (loaded.unselected.symm.trans now) nofun⟩
    intro track member
    rw [loaded.fresh track member]
    exact .empty trivial rfl
  · rintro thread op next fresh ⟨⟨result, step⟩, leaves⟩
    cases op with
    | copyFrame bufferLen reads license =>
      exact copies_fresh fresh (copyFrameImpl_copies (Option.some.inj step))
    | updateMediaTime newDecoderTimeMs =>
      cases step
      obtain ⟨_, _, _, _, _, updated, -⟩ := thread.updateMediaTime_eq newDecoderTimeMs
      rw [updated]
      exact ⟨fresh.tracks, fresh.current⟩
    | seek timeMs adjust =>
      have seeks := seekImpl_seeks thread timeMs adjust
      rw [Except.ok.inj (Option.some.inj step)] at seeks
      exact seeks_fresh fresh seeks
    | setPlaybackRate targetRate =>
      cases step
      exact disables_fresh fresh (setPlaybackRate_disables thread targetRate)
    | disabled index targetRate => exact enables_fresh fresh leaves (disabled_enables step)

/-- As long as a change to a trick rate finds no sample in a track that it does not restart, every
track is selected only while its renderer runs, and returns only data of samples that it has read
since it was last repositioned. -/
theorem no_stale_frame {conversions : Conversions} {thread : DashThread}
    (reachable : Reachable ((playerSystem conversions).restrict LeavesNoSample) thread) :
    ∀ track ∈ thread.tracks, DeliversFresh track.history := by
  intro track member
  exact ((leavesNoSample_fresh reachable).tracks track member).delivers

theorem no_stale_frame_trick :
    ∃ thread : DashThread, thread.playbackRate = 2 ∧
      thread.returned.map (fun fragment => (fragment.track, fragment.data)) = [(0, [1])] ∧
      ∀ track ∈ thread.tracks, DeliversFresh track.history := by
  have start := Reachable.start ((playerSystem exactConversions).restrict LeavesNoSample)
    twoTracks_loaded
  have asked := start.next (.setPlaybackRate 2) ⟨⟨0, rfl⟩, trivial⟩
  have waiting := asked.next (.disabled 0 2) ⟨⟨0, rfl⟩, fun last => by cases last⟩
  have tricking := waiting.next (.disabled 1 2) ⟨⟨0, rfl⟩, fun _ _ => by decide⟩
  have copied := tricking.next (.copyFrame 9 (fun _ => videoFrame) true) ⟨⟨1, rfl⟩, trivial⟩
  exact ⟨_, rfl, rfl, no_stale_frame copied⟩

/-- A change to twice the rate leaves the sample of the audio track, which is then selected and
returned although its renderer has been disabled. -/
theorem stale_frame_returned :
    ∃ thread : DashThread, Reachable (playerSystem exactConversions) thread ∧
      thread.tracks.map (fun track => (track.renderer, track.history)) =
        [(.started, [.repositioned,
            .fragment [1] { type := .video, flags := 3, frameLen := 1, width := 640, height := 480 },
            .selected .started, .sampleRead { data := [1] },
            .formatRead { format := some (640, 480) }]),
          (.prepared, [.fragment [7] { type := .audio, flags := 3, pts := 90, frameLen := 1 },
            .selected .prepared, .repositioned, .sampleRead { data := [7], timeUs := 1000 },
            .formatRead { format := some (0, 0) }])] ∧
      ¬ ∀ track ∈ thread.tracks, DeliversFresh track.history := by
  have start := Reachable.start (playerSystem exactConversions) twoTracks_loaded
  have first := start.next (.copyFrame 9 (fun index =>
    if index = 0 then videoFrame
    else [.formatRead { format := some (0, 0) }, .sampleRead { data := [7], timeUs := 1000 } false])
    true) ⟨1, rfl⟩
  have asked := first.next (.setPlaybackRate 2) ⟨0, rfl⟩
  have waiting := asked.next (.disabled 0 2) ⟨0, rfl⟩
  have tricking := waiting.next (.disabled 1 2) ⟨0, rfl⟩
  have copied := tricking.next (.copyFrame 9 (fun _ => []) true) ⟨1, rfl⟩
  refine ⟨_, copied, rfl, ?_⟩
  intro kept
  obtain ⟨⟨sample, -, -, since⟩, -⟩ :=
    kept _ (List.mem_cons_of_mem _ (List.mem_singleton.mpr rfl))
  exact since

end NDash
