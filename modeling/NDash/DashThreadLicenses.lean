import NDash.DashThreadFragments

set_option autoImplicit false

namespace NDash

open Machine

def currentPssh : List TrackEvent → Option Bytes
  | [] => none
  | .formatRead formatHolder :: _ => formatHolder.pssh
  | _ :: earlier => currentPssh earlier

def Licensed : List TrackEvent → Prop
  | [] => False
  | .formatRead _ :: _ => False
  | .joined pssh license :: earlier =>
    license = true ∧ currentPssh earlier = some pssh ∨ Licensed earlier
  | _ :: earlier => Licensed earlier

def lastSample : List TrackEvent → Option RenderedSample
  | [] => none
  | .sampleRead sample :: _ => some sample
  | _ :: earlier => lastSample earlier

def Refused : List TrackEvent → Prop
  | [] => False
  | .sampleRead _ :: _ => False
  | .joined _ license :: earlier => license = false ∨ Refused earlier
  | _ :: earlier => Refused earlier

def fragmentsSince : List TrackEvent → List DashFrameInfo
  | [] => []
  | .sampleRead _ :: _ => []
  | .fragment _ info :: earlier => info :: fragmentsSince earlier
  | _ :: earlier => fragmentsSince earlier

structure Opens (sample : RenderedSample) (info : DashFrameInfo) : Prop where
  first : hasFlag info.flags firstFragmentFlag = true
  keyId : info.keyId = sample.cryptoInfo.key
  iv : info.iv = sample.cryptoInfo.iv
  clearBytes : info.clearBytes = sample.cryptoInfo.numBytesOfClearData
  encBytes : info.encBytes =
    sample.cryptoInfo.numBytesOfEncryptedData.take sample.cryptoInfo.numBytesOfClearData.length

structure Permitted (earlier : List TrackEvent) (info : DashFrameInfo) (sample : RenderedSample) :
    Prop where
  licensed : Licensed earlier
  accepted : ¬ Refused earlier
  opened : ∃ opening, (info :: fragmentsSince earlier).getLast? = some opening ∧
    Opens sample opening

/-- Data that a track has returned is of the sample it read last, and is permitted if that sample is
encrypted. -/
def Protected : List TrackEvent → Prop
  | [] => True
  | .fragment data info :: earlier =>
    (∃ sample, lastSample earlier = some sample ∧ data <:+: sample.data ∧
      (sample.isEncrypted = true → data ≠ [] → Permitted earlier info sample)) ∧
    Protected earlier
  | _ :: earlier => Protected earlier

structure Guarded (track : TrackContext) : Prop where
  checked : track.checkPssh = false → Licensed track.history
  format : track.formatHolder.pssh = currentPssh track.history
  returned : Protected track.history
  held : track.hasSample = true → ∃ sample, lastSample track.history = some sample ∧
    track.sampleHolder.Holds sample ∧ sample.data ≠ []

def Unopened (track : TrackContext) : Prop :=
  track.hasSample = true → fragmentsSince track.history = [] ∧ ¬ Refused track.history

def Opened (track : TrackContext) : Prop :=
  track.sampleHolder.isEncrypted = true → ∀ sample, lastSample track.history = some sample →
    track.checkPssh = false ∧ ¬ Refused track.history ∧
      ∃ opening, (fragmentsSince track.history).getLast? = some opening ∧ Opens sample opening

def Blocked (thread : DashThread) : Prop :=
  ∃ index track, thread.currentTrack = some index ∧ thread.tracks[index]? = some track ∧
    track.sampleHolder.isEncrypted = true ∧ track.checkPssh = true

theorem guarded_rule :
    ReadRule (fun track => track.hasSample = false ∧ Guarded track)
      (fun track => Guarded track ∧ Unopened track) := by
  have vacuous {track : TrackContext} (empty : track.hasSample = false) : Unopened track :=
    fun full => absurd full (by simp [empty])
  constructor
  · rintro track ⟨empty, guarded⟩
    exact ⟨guarded, vacuous empty⟩
  · rintro track ⟨empty, checked, format, returned, held⟩
    exact ⟨⟨checked, format, returned, held⟩, vacuous empty⟩
  · rintro track formatHolder ⟨empty, checked, format, returned, held⟩
    exact ⟨empty, nofun, rfl, returned, fun full => absurd full (by simp [TrackContext.note, empty])⟩
  · rintro track sample ⟨empty, checked, format, returned, held⟩
    exact ⟨empty, checked, format, returned,
      fun full => absurd full (by simp [TrackContext.note, empty])⟩
  · rintro track sample ⟨empty, checked, format, returned, held⟩
    exact ⟨⟨checked, format, returned,
      fun full => absurd full (by simp [TrackContext.note, empty])⟩, vacuous empty⟩
  · rintro track sample ⟨empty, checked, format, returned, held⟩ present
    exact ⟨⟨checked, format, returned,
      fun _ => ⟨sample, rfl, track.sampleHolder.receive_holds sample, present⟩⟩,
      fun _ => ⟨rfl, id⟩⟩

theorem Guarded.fill {track : TrackContext} (guarded : Guarded track) (unopened : Unopened track)
    (rate : Rat) (reads : List ReadOutcome) :
    Guarded (track.fill rate reads).2 ∧ Unopened (track.fill rate reads).2 := by
  refine guarded_rule.fill rate reads ⟨guarded, unopened⟩ ?_
  intro _ _ empty
  exact ⟨empty, guarded.checked, guarded.format, guarded.returned,
    fun full => absurd full (by simp [empty])⟩

theorem SampleHolder.Holds.encrypted {holder : SampleHolder} {sample : RenderedSample}
    (holds : holder.Holds sample) : holder.isEncrypted = sample.isEncrypted := by
  unfold SampleHolder.isEncrypted RenderedSample.isEncrypted
  rw [holds.flags]

theorem copyBytes_infix {data copied : Bytes} {position count : Int}
    (copies : copyBytes (some data) position count = .ok copied) : copied <:+: data := by
  unfold copyBytes at copies
  split at copies
  · cases copies
  · split at copies
    · cases copies
      have front := List.take_prefix count.toNat (data.drop position.toNat)
      exact front.isInfix.trans (List.drop_suffix position.toNat data).isInfix
    · cases copies

theorem Guarded.fragment {track : TrackContext} (guarded : Guarded track)
    (sampled : track.hasSample = true) {data : Bytes} {position count : Int} {info : DashFrameInfo}
    (copied : copyBytes track.sampleHolder.buffer position count = .ok data)
    (opened : Opened (track.note (.fragment data info))) :
    Guarded (track.note (.fragment data info)) := by
  obtain ⟨sample, last, holds, present⟩ := guarded.held sampled
  refine ⟨guarded.checked, guarded.format, ⟨⟨sample, last, ?_, ?_⟩, guarded.returned⟩, guarded.held⟩
  · rw [holds.buffer] at copied
    exact copyBytes_infix copied
  · intro encrypted _
    obtain ⟨checked, accepted, opening⟩ :=
      opened (holds.encrypted.trans encrypted) sample last
    exact ⟨guarded.checked checked, accepted, opening⟩

theorem Guarded.clear {track : TrackContext} (guarded : Guarded track) :
    Guarded track.clearSample ∧ Unopened track.clearSample :=
  ⟨⟨guarded.checked, guarded.format, guarded.returned, nofun⟩, nofun⟩

theorem Opened.later {track : TrackContext} (opened : Opened track) (data : Bytes)
    (info : DashFrameInfo) : Opened (track.note (.fragment data info)) := by
  intro encrypted sample last
  obtain ⟨checked, accepted, opening, first, opens⟩ := opened encrypted sample last
  refine ⟨checked, accepted, opening, ?_, opens⟩
  rw [show fragmentsSince (track.note (.fragment data info)).history =
    info :: fragmentsSince track.history from rfl, List.getLast?_cons, first]
  rfl

theorem populateFrameInfoCrypto_opens {fi : DashFrameInfo} {holder : SampleHolder}
    {sample : RenderedSample} (holds : holder.Holds sample) (encrypted : holder.isEncrypted = true)
    (populated : populateFrameInfoCrypto { flags := firstFragmentFlag } holder = .ok fi) :
    Opens sample fi := by
  unfold populateFrameInfoCrypto at populated
  rw [encrypted] at populated
  dsimp only at populated
  split at populated
  next impossible => cases impossible
  · split at populated
    · cases populated
    · cases populated
      rw [holds.crypto]
      have first : hasFlag firstFragmentFlag firstFragmentFlag = true := by decide
      exact ⟨first, rfl, rfl, rfl, rfl⟩

def Describes (conversions : Conversions) (offsetMs : Int) (fi : DashFrameInfo)
    (track : TrackContext) (info : DashFrameInfo) : Prop :=
  ∃ format, info = DashThread.describeFrame conversions fi track format offsetMs ∨
    info = { DashThread.describeFrame conversions fi track format offsetMs with
      flags := fi.flags ||| lastFragmentFlag }

theorem Opens.described {sample : RenderedSample} {fi info : DashFrameInfo} (opens : Opens sample fi)
    (flags : fi.flags = firstFragmentFlag) {conversions : Conversions} {offsetMs : Int}
    {track : TrackContext} (describes : Describes conversions offsetMs fi track info) :
    Opens sample info := by
  obtain ⟨format, rfl | rfl⟩ := describes
  · exact ⟨opens.first, opens.keyId, opens.iv, opens.clearBytes, opens.encBytes⟩
  · have first : hasFlag (fi.flags ||| lastFragmentFlag) firstFragmentFlag = true := by
      rw [flags]
      decide
    exact ⟨first, opens.keyId, opens.iv, opens.clearBytes, opens.encBytes⟩

theorem Guarded.first {track : TrackContext} (guarded : Guarded track)
    (sampled : track.hasSample = true) (unopened : Unopened track)
    (cleared : track.sampleHolder.isEncrypted = true → track.checkPssh = false) {data : Bytes}
    {info : DashFrameInfo}
    (opens : ∀ sample, track.sampleHolder.Holds sample → track.sampleHolder.isEncrypted = true →
      Opens sample info) : Opened (track.note (.fragment data info)) := by
  obtain ⟨none, accepted⟩ := unopened sampled
  intro encrypted sample last
  obtain ⟨held, at_, holds, -⟩ := guarded.held sampled
  cases last.symm.trans at_
  refine ⟨cleared encrypted, accepted, info, ?_, opens sample holds encrypted⟩
  rw [show fragmentsSince (track.note (.fragment data info)).history =
    info :: fragmentsSince track.history from rfl, none]
  rfl

structure Stuck (thread : DashThread) (track : TrackContext) : Prop where
  encrypted : track.sampleHolder.isEncrypted = true
  unchecked : track.checkPssh = true
  refused : Refused track.history
  unconsumed : thread.sampleHolderConsumed = 0

structure Licensing (thread : DashThread) : Prop where
  tracks : ∀ index track, thread.tracks[index]? = some track →
    Guarded track ∧ (thread.currentTrack ≠ some index → Unopened track)
  current : ∀ index track, thread.currentTrack = some index → thread.tracks[index]? = some track →
    track.hasSample = true ∧ (Opened track ∨ Stuck thread track)
  idle : thread.currentTrack = none → thread.sampleHolderConsumed = 0

theorem drains_licensing {conversions : Conversions} {thread next : DashThread} {index : Nat}
    {track : TrackContext} {fi : DashFrameInfo} {bufferLen : Int}
    (tracks : ∀ position other, thread.tracks[position]? = some other →
      Guarded other ∧ (position ≠ index → Unopened other))
    (current : thread.currentTrack = some index) (found : thread.tracks[index]? = some track)
    (sampled : track.hasSample = true)
    (opened : ∀ data info, Describes conversions thread.offsetMs fi track info →
      Opened (track.note (.fragment data info)))
    (drains : Drains conversions thread bufferLen fi index track next) : Licensing next := by
  have guarded := (tracks index track found).1
  cases drains with
  | finishes data format info fits copied described =>
    have opening := opened data { info with flags := info.flags ||| lastFragmentFlag }
      ⟨format, .inr (by rw [described]; rfl)⟩
    have kept := guarded.fragment sampled copied opening
    refine ⟨?_, ?_, fun _ => rfl⟩
    · intro position other at_
      rcases getElem?_set_cases at_ with ⟨rfl, rfl⟩ | ⟨differs, older⟩
      · exact ⟨kept.clear.1, fun _ => kept.clear.2⟩
      · exact ⟨(tracks position other older).1, fun _ => (tracks position other older).2 differs⟩
    · intro position other now
      cases now
  | continues data format info short copied described =>
    have opening := opened data info ⟨format, .inl described⟩
    have kept := guarded.fragment sampled copied opening
    refine ⟨?_, ?_, fun none => absurd (current.symm.trans none) nofun⟩
    · intro position other at_
      rcases getElem?_set_cases at_ with ⟨rfl, rfl⟩ | ⟨differs, older⟩
      · exact ⟨kept, fun moved => absurd current moved⟩
      · exact ⟨(tracks position other older).1, fun _ => (tracks position other older).2 differs⟩
    · intro position other now at_
      cases current.symm.trans now
      rcases getElem?_set_cases at_ with ⟨-, rfl⟩ | ⟨differs, -⟩
      · exact ⟨sampled, .inl opening⟩
      · exact absurd rfl differs

theorem fill_guarded {thread : DashThread} (licensing : Licensing thread)
    (current : thread.currentTrack = none) (reads : Nat → List ReadOutcome) (index : Nat)
    (track : TrackContext)
    (found : (thread.fillTrackSampleHolders reads).2.tracks[index]? = some track) :
    Guarded track ∧ Unopened track := by
  rw [DashThread.getElem?_fill] at found
  obtain ⟨older, at_, rfl⟩ := Option.map_eq_some_iff.mp found
  obtain ⟨guarded, unopened⟩ := licensing.tracks index older at_
  exact guarded.fill (unopened (by simp [current])) thread.playbackRate (reads index)

theorem Checks.guarded {license cleared : Bool} {track next : TrackContext}
    (checks : Checks license track cleared next) (guarded : Guarded track) : Guarded next := by
  obtain ⟨checked, format, returned, held⟩ := guarded
  cases checks with
  | clear => exact ⟨checked, format, returned, held⟩
  | known => exact ⟨checked, format, returned, held⟩
  | granted pssh unchecked protects joined =>
    exact ⟨fun _ => .inl ⟨rfl, format.symm.trans protects⟩, format, returned, held⟩
  | refused pssh encrypted unchecked protects joined =>
    exact ⟨fun done => absurd (unchecked.symm.trans done) nofun, format, returned, held⟩

theorem Checks.unopened {license : Bool} {track next : TrackContext}
    (checks : Checks license track true next) (unopened : Unopened track) : Unopened next := by
  cases checks with
  | clear => exact unopened
  | known => exact unopened
  | granted pssh unchecked protects joined =>
    intro sampled
    obtain ⟨none, accepted⟩ := unopened sampled
    exact ⟨none, fun refused => refused.elim nofun accepted⟩

theorem Checks.cleared {license : Bool} {track next : TrackContext}
    (checks : Checks license track true next) (encrypted : next.sampleHolder.isEncrypted = true) :
    next.checkPssh = false := by
  cases checks with
  | clear unprotected => cases encrypted.symm.trans unprotected
  | known checked => exact checked
  | granted => rfl

theorem copies_licensing {conversions : Conversions} {thread next : DashThread}
    (licensing : Licensing thread) (heeds : ¬ Blocked thread) {bufferLen : Int}
    {reads : Nat → List ReadOutcome} {license : Bool}
    (copies : Copies conversions thread bufferLen reads license next) : Licensing next := by
  cases copies with
  | declines idle => exact licensing
  | resumes index track next buffering current found drains =>
    obtain ⟨sampled, opened | stuck⟩ := licensing.current index track current found
    · refine drains_licensing ?_ current found sampled ?_ drains
      · intro position other at_
        obtain ⟨guarded, unopened⟩ := licensing.tracks position other at_
        refine ⟨guarded, fun differs => unopened ?_⟩
        rw [current]
        simpa using Ne.symm differs
      · exact fun data info _ => opened.later data info
    · exact absurd ⟨index, track, current, found, stuck.encrypted, stuck.unchecked⟩ heeds
  | ends buffering current ended =>
    refine ⟨?_, fun index track now => absurd (current.symm.trans now) nofun, licensing.idle⟩
    intro index track found
    rw [List.getElem?_map] at found
    obtain ⟨older, at_, rfl⟩ := Option.map_eq_some_iff.mp found
    obtain ⟨⟨checked, format, returned, held⟩, unopened⟩ :=
      fill_guarded licensing current reads index older at_
    exact ⟨⟨checked, format, returned, held⟩, fun _ => unopened⟩
  | waits buffering current =>
    refine ⟨?_, fun index track now => absurd (current.symm.trans now) nofun, licensing.idle⟩
    intro index track found
    obtain ⟨guarded, unopened⟩ := fill_guarded licensing current reads index track found
    exact ⟨guarded, fun _ => unopened⟩
  | blocks index track checked readerPosition buffering current found sampled checks =>
    obtain ⟨guarded, unopened⟩ := fill_guarded licensing current reads index track found
    have noted : Guarded (track.note (.selected track.renderer)) :=
      ⟨guarded.checked, guarded.format, guarded.returned, guarded.held⟩
    refine ⟨?_, ?_, nofun⟩
    · intro position other at_
      rcases getElem?_set_cases at_ with ⟨rfl, rfl⟩ | ⟨-, older⟩
      · exact ⟨checks.guarded noted, fun moved => absurd rfl moved⟩
      · obtain ⟨kept, closed⟩ := fill_guarded licensing current reads position other older
        exact ⟨kept, fun _ => closed⟩
    · intro position other now at_
      cases now
      rcases getElem?_set_cases at_ with ⟨-, rfl⟩ | ⟨differs, -⟩
      · cases checks with
        | refused pssh encrypted unchecked protects joined =>
          exact ⟨sampled, .inr ⟨encrypted, unchecked, .inl rfl, licensing.idle current⟩⟩
      · exact absurd rfl differs
  | begins index track checked readerPosition fi next buffering current found sampled checks
      populated drains =>
    obtain ⟨guarded, unopened⟩ := fill_guarded licensing current reads index track found
    have noted : Guarded (track.note (.selected track.renderer)) :=
      ⟨guarded.checked, guarded.format, guarded.returned, guarded.held⟩
    have kept := checks.guarded noted
    have still := checks.sample.1.trans sampled
    refine drains_licensing ?_ rfl
      (List.getElem?_set_self (List.getElem?_eq_some_iff.mp found).1) still ?_ drains
    · intro position other at_
      rcases getElem?_set_cases at_ with ⟨rfl, rfl⟩ | ⟨-, older⟩
      · exact ⟨kept, fun moved => absurd rfl moved⟩
      · obtain ⟨kept, closed⟩ := fill_guarded licensing current reads position other older
        exact ⟨kept, fun _ => closed⟩
    · intro data info describes
      refine kept.first still (checks.unopened unopened) checks.cleared ?_
      intro sample holds encrypted
      exact (populateFrameInfoCrypto_opens holds encrypted populated).described
        (populateFrameInfoCrypto_flags populated) describes

theorem seeks_licensing {thread next : DashThread} (licensing : Licensing thread) {timeMs : Int}
    {adjust : Int → Int} (seeks : Seeks thread timeMs adjust next) : Licensing next := by
  cases seeks with
  | stays =>
    refine ⟨licensing.tracks, ?_, licensing.idle⟩
    intro index track current found
    obtain ⟨sampled, opened | stuck⟩ := licensing.current index track current found
    · exact ⟨sampled, .inl opened⟩
    · exact ⟨sampled, .inr ⟨stuck.encrypted, stuck.unchecked, stuck.refused, stuck.unconsumed⟩⟩
  | moves =>
    refine ⟨?_, ?_, fun _ => rfl⟩
    · intro index track found
      rw [List.getElem?_map] at found
      obtain ⟨older, at_, rfl⟩ := Option.map_eq_some_iff.mp found
      obtain ⟨⟨checked, format, returned, -⟩, -⟩ := licensing.tracks index older at_
      have same : older.seekRenderer.checkPssh = older.checkPssh ∧
          older.seekRenderer.history = older.history ∧
          older.seekRenderer.formatHolder = older.formatHolder := by
        unfold TrackContext.seekRenderer
        dsimp only
        split <;> split <;> exact ⟨rfl, rfl, rfl⟩
      refine ⟨⟨?_, ?_, ?_, nofun⟩, fun _ => nofun⟩
      · intro known
        simp only [TrackContext.note, TrackContext.clearSample, same.1, same.2.1] at known ⊢
        exact checked known
      · simp only [TrackContext.note, TrackContext.clearSample, same.2.1, same.2.2]
        exact format
      · simp only [TrackContext.note, TrackContext.clearSample, same.2.1]
        exact returned
    · intro index track now
      cases now

theorem updateMediaTime_licensing {thread : DashThread} (licensing : Licensing thread)
    (newDecoderTimeMs : Int) : Licensing (thread.updateMediaTime newDecoderTimeMs) := by
  obtain ⟨_, _, _, _, _, updated, -⟩ := thread.updateMediaTime_eq newDecoderTimeMs
  rw [updated]
  refine ⟨licensing.tracks, ?_, licensing.idle⟩
  intro index track current found
  obtain ⟨sampled, opened | stuck⟩ := licensing.current index track current found
  · exact ⟨sampled, .inl opened⟩
  · exact ⟨sampled, .inr ⟨stuck.encrypted, stuck.unchecked, stuck.refused, stuck.unconsumed⟩⟩

/-- The calls that licenses are about: CopyFrame, but not while the current track is blocked, with
updates of the media time and seeks between them. -/
def HeedsRefusal (thread : DashThread) (op : PlayerOp) (_ : DashThread) : Prop :=
  match op with
  | .copyFrame _ _ _ => ¬ Blocked thread
  | .updateMediaTime _ => True
  | .seek _ _ => True
  | _ => False

theorem heedsRefusal_licensing {conversions : Conversions} {thread : DashThread}
    (reachable : Reachable ((playerSystem conversions).restrict HeedsRefusal) thread) :
    Licensing thread := by
  refine reachable.invariant Licensing ?_ ?_
  · intro thread loaded
    refine ⟨?_, fun index track now => absurd (loaded.unselected.symm.trans now) nofun,
      fun _ => loaded.unconsumed⟩
    intro index track found
    rw [loaded.fresh track (List.mem_of_getElem? found)]
    exact ⟨⟨nofun, rfl, trivial, nofun⟩, fun _ => nofun⟩
  · rintro thread op next licensing ⟨⟨result, step⟩, heeds⟩
    cases op with
    | copyFrame bufferLen reads license =>
      exact copies_licensing licensing heeds (copyFrameImpl_copies (Option.some.inj step))
    | updateMediaTime newDecoderTimeMs =>
      cases step
      exact updateMediaTime_licensing licensing newDecoderTimeMs
    | seek timeMs adjust =>
      have seeks := seekImpl_seeks thread timeMs adjust
      rw [Except.ok.inj (Option.some.inj step)] at seeks
      exact seeks_licensing licensing seeks
    | setPlaybackRate => cases heeds
    | disabled => cases heeds

theorem copyBytes_start {data copied : Bytes} {count : Int} (present : data ≠ [])
    (positive : 0 < count) (copies : copyBytes (some data) 0 count = .ok copied) : copied ≠ [] := by
  obtain ⟨taken, -, -⟩ := copyBytes_ok (show copyBytes (some data) (0 : Nat) count = .ok copied from copies)
  rw [taken, List.drop_zero]
  intro none
  rcases List.take_eq_nil_iff.mp none with zero | empty
  · omega
  · exact present empty

theorem refused_unprotected {track : TrackContext} (guarded : Guarded track)
    (sampled : track.hasSample = true) (encrypted : track.sampleHolder.isEncrypted = true)
    (refused : Refused track.history) {data : Bytes} (present : data ≠ []) (info : DashFrameInfo) :
    ¬ Protected (.fragment data info :: track.history) := by
  obtain ⟨sample, last, holds, -⟩ := guarded.held sampled
  rintro ⟨⟨other, same, -, permits⟩, -⟩
  cases last.symm.trans same
  exact (permits (holds.encrypted.symm.trans encrypted) present).accepted refused

-- A call that is made all the same returns data of the refused sample.
theorem blocked_unprotected {conversions : Conversions} {thread next : DashThread}
    (licensing : Licensing thread) (buffering : thread.state = .buffering)
    (blocked : Blocked thread) {bufferLen : Int} (positive : 0 < bufferLen)
    {reads : Nat → List ReadOutcome} {license : Bool}
    (copies : Copies conversions thread bufferLen reads license next) :
    ∃ track ∈ next.tracks, ¬ Protected track.history := by
  obtain ⟨index, track, current, found, encrypted, unchecked⟩ := blocked
  have guarded := (licensing.tracks index track found).1
  obtain ⟨sampled, opened | stuck⟩ := licensing.current index track current found
  · obtain ⟨sample, last, -⟩ := guarded.held sampled
    cases unchecked.symm.trans (opened encrypted sample last).1
  · obtain ⟨sample, last, holds, present⟩ := guarded.held sampled
    have inside := (List.getElem?_eq_some_iff.mp found).1
    have length := List.length_pos_iff.mpr present
    have violates {data : Bytes} (info : DashFrameInfo) (returned : data ≠ []) :=
      refused_unprotected guarded sampled encrypted stuck.refused returned info
    cases copies with
    | declines idle => exact absurd buffering idle
    | resumes other held next _ now at_ drains =>
      cases current.symm.trans now
      cases found.symm.trans at_
      cases drains with
      | finishes data format info fits copied described =>
        rw [holds.buffer, holds.size, stuck.unconsumed] at copied
        exact ⟨_, List.mem_of_getElem? (List.getElem?_set_self inside),
          violates _ (copyBytes_start present (by omega) copied)⟩
      | continues data format info short copied described =>
        rw [holds.buffer, stuck.unconsumed] at copied
        exact ⟨_, List.mem_of_getElem? (List.getElem?_set_self inside),
          violates _ (copyBytes_start present positive copied)⟩
    | ends _ none => cases current.symm.trans none
    | waits _ none => cases current.symm.trans none
    | blocks _ _ _ _ _ none => cases current.symm.trans none
    | begins _ _ _ _ _ _ _ none => cases current.symm.trans none

/-- As long as no call is made while the current track is blocked, data of an encrypted sample is
returned only with a license, never after a refusal, and behind a first fragment with what is needed
to decrypt it. A call with room in its buffer keeps this exactly if the track is not blocked. -/
theorem copyFrame_licensed {conversions : Conversions} {thread : DashThread}
    (reachable : Reachable ((playerSystem conversions).restrict HeedsRefusal) thread) :
    (∀ track ∈ thread.tracks, Protected track.history) ∧
      ∀ bufferLen reads license result next, thread.state = .buffering → 0 < bufferLen →
        thread.copyFrameImpl conversions bufferLen reads license = .ok (result, next) →
        ((∀ track ∈ next.tracks, Protected track.history) ↔ ¬ Blocked thread) := by
  have keeps {thread : DashThread} (licensing : Licensing thread) :
      ∀ track ∈ thread.tracks, Protected track.history := by
    intro track member
    obtain ⟨index, found⟩ := List.getElem?_of_mem member
    exact (licensing.tracks index track found).1.returned
  have licensing := heedsRefusal_licensing reachable
  refine ⟨keeps licensing, ?_⟩
  intro bufferLen reads license result next buffering positive copied
  have copies := copyFrameImpl_copies copied
  constructor
  · intro kept blocked
    obtain ⟨track, member, violated⟩ :=
      blocked_unprotected licensing buffering blocked positive copies
    exact violated (kept track member)
  · intro heeds
    exact keeps (copies_licensing licensing heeds copies)

def encryptedReads : Nat → List ReadOutcome := fun _ =>
  [.formatRead { format := some (0, 0), drmInitData := some (some [9]) },
    .sampleRead { data := [1, 2, 3], flags := kSampleFlagEncrypted,
                  cryptoInfo := { key := [4], iv := [5] } } false]

def audioThread : DashThread :=
  { state := .buffering, tracks := [{ frameType := .audio, renderer := .started }] }

theorem audioThread_loaded : audioThread.Loaded :=
  ⟨rfl, rfl, rfl, ⟨rfl, rfl⟩, rfl, by simp [audioThread]⟩

theorem copyFrame_licensed_granted :
    ∃ thread : DashThread,
      thread.returned.reverse.map (fun fragment => (fragment.data, fragment.info.keyId)) =
        [([1, 2], [4])] ∧
      (∀ track ∈ thread.tracks, Protected track.history) ∧
      ∀ bufferLen reads license result next, thread.state = .buffering → 0 < bufferLen →
        thread.copyFrameImpl exactConversions bufferLen reads license = .ok (result, next) →
        ((∀ track ∈ next.tracks, Protected track.history) ↔ ¬ Blocked thread) := by
  have start := Reachable.start ((playerSystem exactConversions).restrict HeedsRefusal)
    audioThread_loaded
  have unblocked : ¬ Blocked audioThread := by
    rintro ⟨index, track, current, -⟩
    cases current
  have first := start.next (.copyFrame 2 encryptedReads true) ⟨⟨2, rfl⟩, unblocked⟩
  exact ⟨_, rfl, copyFrame_licensed first⟩

/-- After a failed Join the next call returns the sample, without a first fragment. -/
theorem copyFrame_returns_refused :
    ∃ thread next : DashThread,
      Reachable (playerSystem exactConversions) thread ∧
      thread.copyFrameImpl exactConversions 2 (fun _ => []) false = .ok (2, next) ∧
      next.tracks.map (·.history) =
        [[.fragment [1, 2] { type := .audio, frameLen := 3 }, .joined [9] false, .selected .started,
          .sampleRead { data := [1, 2, 3], flags := kSampleFlagEncrypted,
                        cryptoInfo := { key := [4], iv := [5] } },
          .formatRead { format := some (0, 0), drmInitData := some (some [9]) }]] ∧
      ¬ ∀ track ∈ next.tracks, Protected track.history := by
  have start := Reachable.start (playerSystem exactConversions) audioThread_loaded
  have refused := start.next (.copyFrame 2 encryptedReads false) ⟨0, rfl⟩
  refine ⟨_, _, refused, rfl, rfl, ?_⟩
  intro kept
  obtain ⟨⟨sample, last, -, permits⟩, -⟩ := kept _ (List.mem_singleton.mpr rfl)
  cases last
  exact (permits rfl nofun).accepted (.inl rfl)

end NDash
