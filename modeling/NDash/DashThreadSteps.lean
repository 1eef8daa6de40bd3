import NDash.DashThread

set_option autoImplicit false

namespace NDash

open Machine

structure ReadRule (during after : TrackContext → Prop) : Prop where
  leaves : ∀ track, during track → after track
  ends : ∀ track, during track → after { track.note .endOfStream with isEos := true }
  formats : ∀ track formatHolder, during track →
    during { track.note (.formatRead formatHolder) with formatHolder, checkPssh := true }
  discards : ∀ track sample, during track →
    during { track.note (.sampleRead sample) with
      sampleHolder := (track.sampleHolder.receive sample).clearData }
  abandons : ∀ track sample, during track →
    after { track.note (.sampleRead sample) with
      sampleHolder := track.sampleHolder.receive sample }
  accepts : ∀ track sample, during track → sample.data ≠ [] →
    after { track.note (.sampleRead sample) with
      sampleHolder := track.sampleHolder.receive sample
      hasSample := true }

theorem ReadRule.readAttempts {during after : TrackContext → Prop} (rule : ReadRule during after)
    (rate : Rat) (attempts : Nat) (reads : List ReadOutcome) {track : TrackContext}
    (before : during track) : after (track.readAttempts rate attempts reads) := by
  induction reads generalizing attempts track with
  | nil =>
    cases attempts with
    | zero => exact rule.leaves track before
    | succ attempts => exact rule.leaves track before
  | cons outcome reads ih =>
    cases attempts with
    | zero =>
      rw [show track.readAttempts rate 0 (outcome :: reads) = track by simp [TrackContext.readAttempts]]
      exact rule.leaves track before
    | succ attempts =>
      cases outcome with
      | nothingRead => exact rule.leaves track before
      | endOfStream => exact rule.ends track before
      | formatRead formatHolder => exact ih attempts (rule.formats track formatHolder before)
      | sampleRead sample errorOccurred =>
        have discarded := rule.discards track sample before
        simp only [TrackContext.readAttempts]
        split
        · exact ih attempts discarded
        next accepted =>
          split
          · split
            · exact rule.abandons track sample before
            · exact ih (attempts + 1) discarded
          · refine rule.accepts track sample before ?_
            rintro empty
            simp [SampleHolder.receive, empty] at accepted

theorem fill_fst (rate : Rat) (reads : List ReadOutcome) (track : TrackContext) :
    (track.fill rate reads).1 = true ↔ track.isEos = false ∧ track.renderer.Polled := by
  unfold TrackContext.fill RendererState.Polled
  split
  next ended => simp [ended]
  next going =>
    split
    next idle => simp [idle.1, idle.2]
    next polled =>
      have running : track.renderer = .started ∨ track.renderer = .enabled := by
        by_contra neither
        exact polled (not_or.mp neither)
      split <;> simp [going, running]

-- A track is read when its renderer runs, it is not at its end, and it holds no sample.
theorem fill_snd (rate : Rat) (reads : List ReadOutcome) (track : TrackContext) :
    (track.fill rate reads).2 = track ∨
      track.isEos = false ∧ track.renderer.Polled ∧ track.hasSample = false ∧
        (track.fill rate reads).2 =
          { track with sampleHolder := track.sampleHolder.clearData }.readAttempts rate
            kMaxReadAttempts reads := by
  have polled := fill_fst rate reads track
  unfold TrackContext.fill at polled ⊢
  split
  · exact .inl rfl
  · split
    · exact .inl rfl
    · split
      · exact .inl rfl
      next going running empty =>
        have read := polled.mp (by rw [if_neg going, if_neg running, if_neg empty])
        exact .inr ⟨read.1, read.2, by simpa using empty, rfl⟩

theorem ReadRule.fill {during after : TrackContext → Prop} (rule : ReadRule during after)
    (rate : Rat) (reads : List ReadOutcome) {track : TrackContext} (unread : after track)
    (begins : track.isEos = false → track.renderer.Polled → track.hasSample = false →
      during { track with sampleHolder := track.sampleHolder.clearData }) :
    after (track.fill rate reads).2 := by
  rcases fill_snd rate reads track with same | ⟨going, polled, empty, filled⟩
  · rw [same]
    exact unread
  · rw [filled]
    exact rule.readAttempts rate _ reads (begins going polled empty)

namespace DashThread

theorem getElem?_fill (thread : DashThread) (reads : Nat → List ReadOutcome) (index : Nat) :
    (thread.fillTrackSampleHolders reads).2.tracks[index]? =
      thread.tracks[index]?.map fun track => (track.fill thread.playbackRate (reads index)).2 := by
  simp [fillTrackSampleHolders, List.getElem?_map, List.getElem?_mapIdx, Function.comp_def]

theorem mem_fill {thread : DashThread} {reads : Nat → List ReadOutcome} {track : TrackContext}
    (member : track ∈ (thread.fillTrackSampleHolders reads).2.tracks) :
    ∃ older ∈ thread.tracks, ∃ index, track = (older.fill thread.playbackRate (reads index)).2 := by
  obtain ⟨index, found⟩ := List.getElem?_of_mem member
  rw [getElem?_fill] at found
  obtain ⟨older, at_, rfl⟩ := Option.map_eq_some_iff.mp found
  exact ⟨older, List.mem_of_getElem? at_, index, rfl⟩

theorem fill_eq_false (thread : DashThread) (reads : Nat → List ReadOutcome) :
    (thread.fillTrackSampleHolders reads).1 = false ↔
      ∀ track ∈ thread.tracks, track.renderer.Polled → track.isEos = true := by
  rw [fillTrackSampleHolders, List.any_eq_false]
  constructor
  · intro none track member polled
    obtain ⟨index, inside, rfl⟩ := List.getElem_of_mem member
    have entry := none _ (List.mem_mapIdx.mpr ⟨index, inside, rfl⟩)
    rw [fill_fst] at entry
    simpa [polled] using entry
  · intro ended entry member
    obtain ⟨index, inside, rfl⟩ := List.mem_mapIdx.mp member
    rw [fill_fst]
    rintro ⟨going, polled⟩
    rw [ended _ (List.getElem_mem inside) polled] at going
    cases going

@[simp] theorem noteMediaTimeTrack_selected (selection : Selection) (index : Nat)
    (frameType : DashFrameType) :
    (noteMediaTimeTrack selection index frameType).selected = selection.selected := by
  unfold noteMediaTimeTrack
  split
  · rfl
  · split <;> rfl

theorem consider_selected (conversions : Conversions) (thread : DashThread)
    (selection : Selection) (index : Nat) (track : TrackContext) :
    (thread.consider conversions selection index track).selected = selection.selected ∨
      (thread.consider conversions selection index track).selected =
          some (index, track.sampleHolder.timeUs) ∧
        track.isEos = false ∧ track.hasSample = true := by
  unfold consider
  split
  · exact .inl rfl
  next available =>
    have ready : track.isEos = false ∧ track.hasSample = true := by simpa using available
    dsimp only
    split
    · exact .inl (noteMediaTimeTrack_selected selection index track.frameType)
    · split
      · exact .inr ⟨rfl, ready⟩
      · exact .inl (noteMediaTimeTrack_selected selection index track.frameType)

theorem selectTrack_selected (conversions : Conversions) (thread : DashThread) {start index : Nat}
    {tracks : List TrackContext} {selection : Selection} {time : Int}
    (selects : (thread.selectTrack conversions start tracks selection).selected =
      some (index, time)) :
    selection.selected = some (index, time) ∨
      ∃ position track, index = start + position ∧ tracks[position]? = some track ∧
        track.isEos = false ∧ track.hasSample = true := by
  induction tracks generalizing start selection with
  | nil => exact .inl selects
  | cons track tracks ih =>
    rcases ih selects with earlier | ⟨position, later, place, found, ready⟩
    · rcases thread.consider_selected conversions selection start track with kept | ⟨now, ready⟩
      · exact .inl (kept.symm.trans earlier)
      · rw [now] at earlier
        cases earlier
        exact .inr ⟨0, track, rfl, rfl, ready⟩
    · exact .inr ⟨position + 1, later, by omega, found, ready⟩

theorem getNextSampleTrack_some {conversions : Conversions} {thread next : DashThread}
    {index : Nat} (selects : thread.getNextSampleTrack conversions = some (index, next)) :
    (∃ readerPosition, next = { thread with readerPosition }) ∧
      ∃ track, thread.tracks[index]? = some track ∧ track.isEos = false ∧
        track.hasSample = true := by
  unfold getNextSampleTrack at selects
  dsimp only at selects
  split at selects
  · cases selects
  next chosen time selected =>
    obtain impossible | ⟨position, track, place, found, ready⟩ :=
      selectTrack_selected conversions thread selected
    · cases impossible
    · obtain rfl : chosen = position := by omega
      split at selects
      · cases selects
        exact ⟨⟨time, rfl⟩, track, found, ready⟩
      · cases selects
        exact ⟨⟨thread.readerPosition, rfl⟩, track, found, ready⟩

theorem getSampleOffsetMs_eq (thread : DashThread) :
    thread.getSampleOffsetMs = (thread.offsetMs, { thread with sampleOffsetMs := thread.offsetMs }) := by
  unfold getSampleOffsetMs offsetMs
  split <;> rfl

-- Whether the offset has been cached makes no difference while the manifest stays the same.
theorem offset_cached {thread next : DashThread}
    (manifest : next.manifestOffsetMs = thread.manifestOffsetMs)
    (cached : next.sampleOffsetMs = thread.sampleOffsetMs ∨
      next.sampleOffsetMs = thread.offsetMs) : next.offsetMs = thread.offsetMs := by
  unfold offsetMs at *
  grind

theorem updateMediaTime_eq (thread : DashThread) (newDecoderTimeMs : Int) :
    ∃ decoderMediaTimeLastValueMs mediaTimeLastValueMs mediaTimeReady decoderPosition sampleOffsetMs,
      thread.updateMediaTime newDecoderTimeMs = { thread with
        decoderMediaTimeLastValueMs
        mediaTimeLastValueMs
        mediaTimeReady
        decoderPosition
        sampleOffsetMs } ∧
      (sampleOffsetMs = thread.sampleOffsetMs ∨ sampleOffsetMs = thread.offsetMs) := by
  unfold updateMediaTime
  split
  · exact ⟨_, _, _, _, _, rfl, .inl rfl⟩
  · dsimp only
    split
    · exact ⟨_, _, _, _, _, rfl, .inl rfl⟩
    · rw [getSampleOffsetMs_eq]
      exact ⟨_, _, _, _, _, rfl, .inr rfl⟩

end DashThread

inductive Drains (conversions : Conversions) (thread : DashThread) (bufferLen : Int)
    (fi : DashFrameInfo) (index : Nat) (track : TrackContext) : DashThread → Prop
  | finishes (data : Bytes) (format : Int × Int) (info : DashFrameInfo)
      (fits : track.sampleHolder.writtenSize - thread.sampleHolderConsumed ≤ bufferLen)
      (copied : copyBytes track.sampleHolder.buffer thread.sampleHolderConsumed
        (track.sampleHolder.writtenSize - thread.sampleHolderConsumed) = .ok data)
      (described : info =
        DashThread.describeFrame conversions fi track format thread.offsetMs) :
      Drains conversions thread bufferLen fi index track { thread with
        sampleOffsetMs := thread.offsetMs
        tracks := thread.tracks.set index (track.clearSample.note
          (.fragment data { info with flags := info.flags ||| lastFragmentFlag }))
        sampleHolderConsumed := 0
        currentTrack := none
        returned := { track := index, data, info := { info with
          flags := info.flags ||| lastFragmentFlag } } :: thread.returned }
  | continues (data : Bytes) (format : Int × Int) (info : DashFrameInfo)
      (short : bufferLen < track.sampleHolder.writtenSize - thread.sampleHolderConsumed)
      (copied : copyBytes track.sampleHolder.buffer thread.sampleHolderConsumed bufferLen = .ok data)
      (described : info =
        DashThread.describeFrame conversions fi track format thread.offsetMs) :
      Drains conversions thread bufferLen fi index track { thread with
        sampleOffsetMs := thread.offsetMs
        tracks := thread.tracks.set index (track.note (.fragment data info))
        sampleHolderConsumed := thread.sampleHolderConsumed + bufferLen
        returned := { track := index, data, info } :: thread.returned }

theorem Drains.offset {conversions : Conversions} {thread next : DashThread} {bufferLen : Int}
    {fi : DashFrameInfo} {index : Nat} {track : TrackContext}
    (drains : Drains conversions thread bufferLen fi index track next) :
    next.offsetMs = thread.offsetMs := by
  cases drains with
  | finishes => exact DashThread.offset_cached rfl (.inr rfl)
  | continues => exact DashThread.offset_cached rfl (.inr rfl)

theorem getElem?_set_cases {tracks : List TrackContext} {index position : Nat}
    {track found : TrackContext} (at_ : (tracks.set index track)[position]? = some found) :
    position = index ∧ found = track ∨ position ≠ index ∧ tracks[position]? = some found := by
  rw [List.getElem?_set] at at_
  split at at_
  next same =>
    split at at_
    · exact .inl ⟨same.symm, (Option.some.inj at_).symm⟩
    · cases at_
  next differs => exact .inr ⟨Ne.symm differs, at_⟩

theorem drain_drains {conversions : Conversions} {thread next : DashThread} {bufferLen result : Int}
    {fi : DashFrameInfo} {index : Nat} {track : TrackContext}
    (drained : thread.drain conversions bufferLen fi index track = .ok (result, next)) :
    Drains conversions thread bufferLen fi index track next := by
  unfold DashThread.drain at drained
  obtain ⟨data, copied, rest⟩ := bind_ok drained
  split at rest
  · cases rest
  next format _ =>
    rw [thread.getSampleOffsetMs_eq] at rest
    dsimp only at rest
    split at rest
    next all =>
      cases rest
      rw [all] at copied
      exact .finishes data format _ (by omega) copied rfl
    next part =>
      cases rest
      have filled : min bufferLen (track.sampleHolder.writtenSize - thread.sampleHolderConsumed) =
          bufferLen := by omega
      rw [filled] at copied ⊢
      exact .continues data format _ (by omega) copied rfl

inductive Checks (license : Bool) (track : TrackContext) : Bool → TrackContext → Prop
  | clear (unprotected : track.sampleHolder.isEncrypted = false) : Checks license track true track
  | known (checked : track.checkPssh = false) : Checks license track true track
  | granted (pssh : Bytes) (unchecked : track.checkPssh = true)
      (protects : track.formatHolder.pssh = some pssh) (joined : license = true) :
      Checks license track true { track.note (.joined pssh true) with checkPssh := false }
  | refused (pssh : Bytes) (encrypted : track.sampleHolder.isEncrypted = true)
      (unchecked : track.checkPssh = true) (protects : track.formatHolder.pssh = some pssh)
      (joined : license = false) : Checks license track false (track.note (.joined pssh false))

theorem maybeCheckPssh_checks {license cleared : Bool} {track next : TrackContext}
    (sampled : track.hasSample = true)
    (checks : DashThread.maybeCheckPssh track license = .ok (cleared, next)) :
    Checks license track cleared next := by
  unfold DashThread.maybeCheckPssh at checks
  split at checks
  next unprotected =>
    cases checks
    exact .clear (by simpa [sampled] using unprotected)
  next encrypted =>
    split at checks
    next unchecked =>
      split at checks
      · cases checks
      next pssh protects =>
        cases license with
        | false =>
          cases checks
          exact .refused pssh (by simpa [sampled] using encrypted) unchecked protects rfl
        | true =>
          cases checks
          exact .granted pssh unchecked protects rfl
    next known =>
      cases checks
      exact .known (by simpa using known)

inductive Copies (conversions : Conversions) (thread : DashThread) (bufferLen : Int)
    (reads : Nat → List ReadOutcome) (license : Bool) : DashThread → Prop
  | declines (idle : thread.state ≠ .buffering) :
      Copies conversions thread bufferLen reads license thread
  | resumes (index : Nat) (track : TrackContext) (next : DashThread)
      (buffering : thread.state = .buffering) (current : thread.currentTrack = some index)
      (found : thread.tracks[index]? = some track)
      (drains : Drains conversions thread bufferLen {} index track next) :
      Copies conversions thread bufferLen reads license next
  | ends (buffering : thread.state = .buffering) (current : thread.currentTrack = none)
      (ended : (thread.fillTrackSampleHolders reads).1 = false) :
      Copies conversions thread bufferLen reads license
        { (thread.fillTrackSampleHolders reads).2 with
          isEos := true
          state := .ended
          tracks := (thread.fillTrackSampleHolders reads).2.tracks.map fun track =>
            track.note (.playbackEnded track.renderer) }
  | waits (buffering : thread.state = .buffering) (current : thread.currentTrack = none) :
      Copies conversions thread bufferLen reads license (thread.fillTrackSampleHolders reads).2
  | blocks (index : Nat) (track checked : TrackContext) (readerPosition : Int)
      (buffering : thread.state = .buffering) (current : thread.currentTrack = none)
      (found : (thread.fillTrackSampleHolders reads).2.tracks[index]? = some track)
      (sampled : track.hasSample = true)
      (checks : Checks license (track.note (.selected track.renderer)) false checked) :
      Copies conversions thread bufferLen reads license
        { (thread.fillTrackSampleHolders reads).2 with
          readerPosition
          tracks := (thread.fillTrackSampleHolders reads).2.tracks.set index checked
          currentTrack := some index }
  | begins (index : Nat) (track checked : TrackContext) (readerPosition : Int) (fi : DashFrameInfo)
      (next : DashThread)
      (buffering : thread.state = .buffering) (current : thread.currentTrack = none)
      (found : (thread.fillTrackSampleHolders reads).2.tracks[index]? = some track)
      (sampled : track.hasSample = true)
      (checks : Checks license (track.note (.selected track.renderer)) true checked)
      (populated : populateFrameInfoCrypto { flags := firstFragmentFlag } checked.sampleHolder =
        .ok fi)
      (drains : Drains conversions
        { (thread.fillTrackSampleHolders reads).2 with
          readerPosition
          tracks := (thread.fillTrackSampleHolders reads).2.tracks.set index checked
          currentTrack := some index } bufferLen fi index checked next) :
      Copies conversions thread bufferLen reads license next

theorem copyFrameImpl_copies {conversions : Conversions} {thread next : DashThread}
    {bufferLen result : Int} {reads : Nat → List ReadOutcome} {license : Bool}
    (copied : thread.copyFrameImpl conversions bufferLen reads license = .ok (result, next)) :
    Copies conversions thread bufferLen reads license next := by
  unfold DashThread.copyFrameImpl at copied
  split at copied
  next idle =>
    cases copied
    exact .declines idle
  next running =>
    have buffering : thread.state = .buffering := by simpa using running
    split at copied
    next index current =>
      split at copied
      · cases copied
      next track found => exact .resumes index track next buffering current found (drain_drains copied)
    next current =>
      dsimp only at copied
      split at copied
      next ended =>
        cases copied
        exact .ends buffering current (by simpa using ended)
      · split at copied
        · cases copied
          exact .waits buffering current
        next index chosen selects =>
          obtain ⟨⟨readerPosition, rfl⟩, track, found, -, sampled⟩ :=
            DashThread.getNextSampleTrack_some selects
          dsimp only at copied
          rw [found] at copied
          obtain ⟨⟨cleared, checked⟩, checks, rest⟩ := bind_ok copied
          have effect := maybeCheckPssh_checks
            (show (track.note (.selected track.renderer)).hasSample = true from sampled) checks
          cases cleared with
          | false =>
            cases rest
            exact .blocks index track checked readerPosition buffering current found sampled effect
          | true =>
            obtain ⟨fi, populated, drained⟩ := bind_ok rest
            exact .begins index track checked readerPosition fi next buffering current found sampled
              effect populated (drain_drains drained)

inductive Seeks (thread : DashThread) (timeMs : Int) (adjust : Int → Int) : DashThread → Prop
  | stays (sampleOffsetMs decoderPosition readerPosition seekPosition mediaTimeLastValueMs
        decoderMediaTimeLastValueMs initialTime : Int)
      (keeps : ¬ (thread.state = .buffering ∧ thread.acceptsSeek timeMs adjust)) :
      Seeks thread timeMs adjust { thread with
        sampleOffsetMs
        decoderPosition
        readerPosition
        seekPosition
        mediaTimeLastValueMs
        decoderMediaTimeLastValueMs
        initialTime }
  | moves (buffering : thread.state = .buffering) (accepted : thread.acceptsSeek timeMs adjust) :
      Seeks thread timeMs adjust { thread with
        sampleOffsetMs := thread.offsetMs
        decoderPosition := thread.seekTarget timeMs adjust
        readerPosition := thread.seekTarget timeMs adjust
        seekPosition := thread.seekTarget timeMs adjust
        mediaTimeLastValueMs := thread.seekTarget timeMs adjust
        decoderMediaTimeLastValueMs := 0
        currentTrack := none
        sampleHolderConsumed := 0
        mediaTimeReady := false
        tracks := thread.tracks.map fun track =>
          (track.seekRenderer.clearSample).note .repositioned }

theorem seekImpl_seeks (thread : DashThread) (timeMs : Int) (adjust : Int → Int) :
    Seeks thread timeMs adjust (thread.seekImpl timeMs adjust).2 := by
  unfold DashThread.seekImpl
  rw [thread.getSampleOffsetMs_eq]
  dsimp only
  split
  next refused =>
    have declined : ¬ thread.acceptsSeek timeMs adjust := by simpa using refused
    exact .stays _ _ _ _ _ _ _ fun both => declined both.2
  next accepted =>
    split
    next idle => exact .stays _ _ _ _ _ _ _ fun both => idle both.1
    next buffering => exact .moves (by simpa using buffering) (by simpa using accepted)

end NDash
