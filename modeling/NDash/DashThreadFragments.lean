import NDash.DashThreadSteps

set_option autoImplicit false

namespace NDash

open Machine

structure Frame where
  track : Nat
  type : DashFrameType
  sample : RenderedSample
  fragments : List Fragment
deriving DecidableEq, Repr

def Frame.data (frame : Frame) : Bytes := frame.fragments.flatMap (·.data)

def samplesRead : List TrackEvent → List RenderedSample
  | [] => []
  | .sampleRead sample :: earlier => samplesRead earlier ++ [sample]
  | _ :: earlier => samplesRead earlier

def samplesOf (frames : List Frame) (index : Nat) : List RenderedSample :=
  (frames.filter (·.track = index)).map (·.sample)

structure Cuts (conversions : Conversions) (offsetMs : Int) (frame : Frame) : Prop where
  same : ∀ fragment ∈ frame.fragments,
    fragment.track = frame.track ∧ fragment.data ≠ [] ∧ fragment.info.type = frame.type ∧
      fragment.info.frameLen = frame.sample.data.length ∧
      fragment.info.pts =
        conversions.timestampFromUs (frame.sample.timeUs - offsetMs * 1000) ∧
      fragment.info.duration = conversions.timestampFromUs frame.sample.durationUs
  first : ∀ position fragment, frame.fragments[position]? = some fragment →
    (hasFlag fragment.info.flags firstFragmentFlag = true ↔ position = 0)

structure Complete (conversions : Conversions) (offsetMs : Int) (frame : Frame) : Prop extends
    Cuts conversions offsetMs frame where
  begun : frame.fragments ≠ []
  whole : frame.data = frame.sample.data
  last : ∀ position fragment, frame.fragments[position]? = some fragment →
    (hasFlag fragment.info.flags lastFragmentFlag = true ↔ position + 1 = frame.fragments.length)

structure Unfinished (conversions : Conversions) (offsetMs : Int) (frame : Frame) : Prop extends
    Cuts conversions offsetMs frame where
  part : ∃ rest, rest ≠ [] ∧ frame.data ++ rest = frame.sample.data
  last : ∀ fragment ∈ frame.fragments, hasFlag fragment.info.flags lastFragmentFlag = false

structure SampleHolder.Holds (holder : SampleHolder) (sample : RenderedSample) : Prop where
  buffer : holder.buffer = some sample.data
  size : holder.writtenSize = sample.data.length
  flags : holder.flags = sample.flags
  time : holder.timeUs = sample.timeUs
  duration : holder.durationUs = sample.durationUs
  crypto : holder.cryptoInfo = sample.cryptoInfo

theorem SampleHolder.receive_holds (holder : SampleHolder) (sample : RenderedSample) :
    (holder.receive sample).Holds sample := ⟨rfl, rfl, rfl, rfl, rfl, rfl⟩

theorem SampleHolder.Holds.unique {holder : SampleHolder} {left right : RenderedSample}
    (first : holder.Holds left) (second : holder.Holds right) : left = right := by
  obtain ⟨buffer, -, flags, time, duration, crypto⟩ := first
  cases left
  cases right
  obtain ⟨buffer', -, flags', time', duration', crypto'⟩ := second
  simp_all

structure Supplied (done : List Frame) (index : Nat) (track : TrackContext) : Prop where
  delivered : (samplesOf done index).Sublist (samplesRead track.history)
  held : track.hasSample = true → ∃ sample, track.sampleHolder.Holds sample ∧ sample.data ≠ [] ∧
    (samplesOf done index ++ [sample]).Sublist (samplesRead track.history)

theorem supplied_rule (done : List Frame) (index : Nat) :
    ReadRule (fun track => track.hasSample = false ∧
        (samplesOf done index).Sublist (samplesRead track.history))
      (Supplied done index) := by
  constructor
  · rintro track ⟨empty, delivered⟩
    exact ⟨delivered, fun full => absurd full (by simp [empty])⟩
  · rintro track ⟨empty, delivered⟩
    exact ⟨delivered, fun full => absurd full (by simp [TrackContext.note, empty])⟩
  · rintro track formatHolder ⟨empty, delivered⟩
    exact ⟨empty, delivered⟩
  · rintro track sample ⟨empty, delivered⟩
    exact ⟨empty, delivered.trans (List.sublist_append_left _ _)⟩
  · rintro track sample ⟨empty, delivered⟩
    exact ⟨delivered.trans (List.sublist_append_left _ _),
      fun full => absurd full (by simp [TrackContext.note, empty])⟩
  · rintro track sample ⟨empty, delivered⟩ present
    exact ⟨delivered.trans (List.sublist_append_left _ _), fun _ =>
      ⟨sample, track.sampleHolder.receive_holds sample, present, delivered.append (.refl _)⟩⟩

theorem Supplied.fill {done : List Frame} {index : Nat} {track : TrackContext}
    (supplied : Supplied done index track) (rate : Rat) (reads : List ReadOutcome) :
    Supplied done index (track.fill rate reads).2 :=
  (supplied_rule done index).fill rate reads supplied
    fun _ _ empty => ⟨empty, supplied.delivered⟩

theorem Supplied.same {done : List Frame} {index : Nat} {track next : TrackContext}
    (supplied : Supplied done index track)
    (history : samplesRead next.history = samplesRead track.history)
    (sample : next.hasSample = true → track.hasSample = true)
    (holder : next.hasSample = true → next.sampleHolder = track.sampleHolder) :
    Supplied done index next := by
  constructor
  · rw [history]
    exact supplied.delivered
  · intro full
    rw [history, holder full]
    exact supplied.held (sample full)

theorem samplesOf_append (frames : List Frame) (frame : Frame) (index : Nat) :
    samplesOf (frames ++ [frame]) index =
      samplesOf frames index ++ if frame.track = index then [frame.sample] else [] := by
  unfold samplesOf
  by_cases same : frame.track = index <;> simp [same]

theorem copyBytes_ok {data copied : Bytes} {position : Nat} {count : Int}
    (copies : copyBytes (some data) position count = .ok copied) :
    copied = (data.drop position).take count.toNat ∧ 0 ≤ count ∧
      position + count ≤ data.length := by
  unfold copyBytes at copies
  split at copies
  · cases copies
  next valid =>
    split at copies
    next fits =>
      cases copies
      simp only [Option.getD_some, Int.toNat_natCast] at fits ⊢
      exact ⟨trivial, by omega, fits⟩
    · cases copies

theorem getElem?_concat {α : Type} {list : List α} {item found : α} {position : Nat}
    (at_ : (list ++ [item])[position]? = some found) :
    list[position]? = some found ∧ position < list.length ∨
      position = list.length ∧ found = item := by
  by_cases inside : position < list.length
  · rw [List.getElem?_append_left inside] at at_
    exact .inl ⟨at_, inside⟩
  · rw [List.getElem?_append_right (by omega), List.getElem?_singleton] at at_
    split at at_
    next => exact .inr ⟨by omega, (Option.some.inj at_).symm⟩
    next => cases at_

structure Ongoing (conversions : Conversions) (thread : DashThread) (frame : Frame)
    (track : TrackContext) : Prop where
  unfinished : Unfinished conversions thread.offsetMs frame
  consumed : thread.sampleHolderConsumed = frame.data.length
  type : frame.type = track.frameType
  holds : track.sampleHolder.Holds frame.sample

def Frame.add (frame : Frame) (fragment : Fragment) : Frame :=
  { frame with fragments := frame.fragments ++ [fragment] }

theorem Frame.data_add (frame : Frame) (fragment : Fragment) :
    (frame.add fragment).data = frame.data ++ fragment.data := by
  simp [Frame.data, Frame.add]

def openingFlags (frame : Frame) : BitVec 32 :=
  if frame.fragments = [] then firstFragmentFlag else 0#32

theorem openingFlags_cases (frame : Frame) :
    openingFlags frame = firstFragmentFlag ∧ frame.fragments.length = 0 ∨
      openingFlags frame = 0#32 ∧ frame.fragments.length ≠ 0 := by
  unfold openingFlags
  by_cases empty : frame.fragments = [] <;> simp [empty]

theorem openingFlags_first (frame : Frame) :
    (hasFlag (openingFlags frame) firstFragmentFlag = true ↔ frame.fragments.length = 0) ∧
      (hasFlag (openingFlags frame ||| lastFragmentFlag) firstFragmentFlag = true ↔
        frame.fragments.length = 0) := by
  rcases openingFlags_cases frame with ⟨opening, count⟩ | ⟨opening, count⟩
  · simp only [opening, count, iff_true]
    decide
  · simp only [opening, count, iff_false]
    decide

theorem Cuts.add {conversions : Conversions} {offsetMs : Int} {frame : Frame}
    (cuts : Cuts conversions offsetMs frame) {track : TrackContext} (type : frame.type = track.frameType)
    (holds : track.sampleHolder.Holds frame.sample) {fi info : DashFrameInfo} {format : Int × Int}
    (described : info = DashThread.describeFrame conversions fi track format offsetMs)
    {flags : BitVec 32} {data : Bytes} (present : data ≠ [])
    (first : hasFlag flags firstFragmentFlag = true ↔ frame.fragments.length = 0) :
    Cuts conversions offsetMs
      (frame.add { track := frame.track, data, info := { info with flags } }) := by
  constructor
  · intro fragment member
    rcases List.mem_append.mp member with older | newest
    · exact cuts.same fragment older
    · obtain rfl := List.mem_singleton.mp newest
      subst described
      refine ⟨rfl, present, type.symm, holds.size, ?_, ?_⟩
      · simp only [DashThread.describeFrame, holds.time, Frame.add]
      · simp only [DashThread.describeFrame, holds.duration, Frame.add]
  · intro position fragment found
    rcases getElem?_concat found with ⟨older, -⟩ | ⟨rfl, rfl⟩
    · exact cuts.first position fragment older
    · exact first

theorem Ongoing.finish {conversions : Conversions} {thread : DashThread} {frame : Frame}
    {track : TrackContext} (ongoing : Ongoing conversions thread frame track) {fi info : DashFrameInfo}
    {data : Bytes} {format : Int × Int} (flags : fi.flags = openingFlags frame)
    (copied : copyBytes track.sampleHolder.buffer thread.sampleHolderConsumed
      (track.sampleHolder.writtenSize - thread.sampleHolderConsumed) = .ok data)
    (described : info =
      DashThread.describeFrame conversions fi track format thread.offsetMs) :
    Complete conversions thread.offsetMs (frame.add
      { track := frame.track, data, info := { info with flags := info.flags ||| lastFragmentFlag } }) := by
  obtain ⟨⟨cuts, ⟨rest, left, split⟩, last⟩, consumed, type, holds⟩ := ongoing
  rw [holds.buffer, holds.size, consumed] at copied
  obtain ⟨taken, -, -⟩ := copyBytes_ok copied
  have remainder : data = rest := by
    rw [taken, ← split, List.drop_left]
    refine List.take_of_length_le ?_
    simp only [List.length_append]
    omega
  subst remainder
  have start : info.flags = openingFlags frame := by rw [described, ← flags]; rfl
  refine ⟨cuts.add type holds described left ?_, ?_, ?_, ?_⟩
  · rw [start]
    exact (openingFlags_first frame).2
  · simp [Frame.add]
  · rw [Frame.data_add]
    exact split
  · intro position fragment found
    rcases getElem?_concat found with ⟨older, inside⟩ | ⟨rfl, rfl⟩
    · rw [last fragment (List.mem_of_getElem? older)]
      simp only [Frame.add, List.length_append, List.length_singleton, Bool.false_eq_true, false_iff]
      omega
    · rw [start]
      rcases openingFlags_cases frame with ⟨opening, -⟩ | ⟨opening, -⟩
      · simp only [opening, Frame.add, List.length_append, List.length_singleton, iff_true]
        decide
      · simp only [opening, Frame.add, List.length_append, List.length_singleton, iff_true]
        decide

theorem Ongoing.continue {conversions : Conversions} {thread : DashThread} {frame : Frame}
    {track : TrackContext} (ongoing : Ongoing conversions thread frame track) {fi info : DashFrameInfo}
    {data : Bytes} {format : Int × Int} {bufferLen : Int} (flags : fi.flags = openingFlags frame)
    (positive : 0 < bufferLen)
    (short : bufferLen < track.sampleHolder.writtenSize - thread.sampleHolderConsumed)
    (copied : copyBytes track.sampleHolder.buffer thread.sampleHolderConsumed bufferLen = .ok data)
    (described : info =
      DashThread.describeFrame conversions fi track format thread.offsetMs) :
    Unfinished conversions thread.offsetMs (frame.add
        { track := frame.track, data, info }) ∧
      thread.sampleHolderConsumed + bufferLen =
        (frame.add { track := frame.track, data, info }).data.length := by
  obtain ⟨⟨cuts, ⟨rest, left, split⟩, last⟩, consumed, type, holds⟩ := ongoing
  have total : frame.sample.data.length = frame.data.length + rest.length := by
    rw [← split, List.length_append]
  rw [holds.size, consumed] at short
  rw [holds.buffer, consumed] at copied
  obtain ⟨taken, -, -⟩ := copyBytes_ok copied
  rw [← split, List.drop_left] at taken
  have count : data.length = bufferLen.toNat := by
    rw [taken, List.length_take]
    omega
  have present : data ≠ [] := by
    rintro rfl
    simp only [List.length_nil] at count
    omega
  have start : info.flags = openingFlags frame := by rw [described, ← flags]; rfl
  refine ⟨⟨cuts.add type holds described present ?_, ?_, ?_⟩, ?_⟩
  · rw [start]
    exact (openingFlags_first frame).1
  · refine ⟨rest.drop bufferLen.toNat, ?_, ?_⟩
    · intro none
      have := List.drop_eq_nil_iff.mp none
      omega
    · rw [Frame.data_add, List.append_assoc, taken, List.take_append_drop]
      exact split
  · intro fragment member
    rcases List.mem_append.mp member with older | newest
    · exact last fragment older
    · obtain rfl := List.mem_singleton.mp newest
      rw [start]
      rcases openingFlags_cases frame with ⟨opening, -⟩ | ⟨opening, -⟩
      · rw [opening]
        decide
      · rw [opening]
        decide
  · rw [Frame.data_add, List.length_append, count, consumed]
    omega

structure InFrames (conversions : Conversions) (thread : DashThread) (done : List Frame)
    (begun : Option Frame) : Prop where
  returned : thread.returned.reverse = (done ++ begun.toList).flatMap (·.fragments)
  complete : ∀ frame ∈ done, Complete conversions thread.offsetMs frame
  supplied : ∀ index track, thread.tracks[index]? = some track → Supplied done index track
  idle : begun = none → thread.currentTrack = none ∧ thread.sampleHolderConsumed = 0
  copying : ∀ frame, begun = some frame →
    thread.currentTrack = some frame.track ∧ frame.fragments ≠ [] ∧
      ∃ track, thread.tracks[frame.track]? = some track ∧ track.hasSample = true ∧
        Ongoing conversions thread frame track

theorem Supplied.finish {done : List Frame} {frame : Frame} {track : TrackContext}
    (supplied : Supplied done frame.track track) (sampled : track.hasSample = true)
    (holds : track.sampleHolder.Holds frame.sample) (fragment : Fragment) (event : TrackEvent)
    (unread : samplesRead (event :: track.history) = samplesRead track.history) :
    Supplied (done ++ [frame.add fragment]) frame.track (track.clearSample.note event) := by
  obtain ⟨sample, held, -, later⟩ := supplied.held sampled
  obtain rfl := held.unique holds
  constructor
  · rw [samplesOf_append, if_pos (show (frame.add fragment).track = frame.track from rfl)]
    simp only [TrackContext.note, TrackContext.clearSample, unread]
    exact later
  · exact fun full => absurd full (by simp [TrackContext.note, TrackContext.clearSample])

theorem Supplied.other {done : List Frame} {frame : Frame} {index : Nat} {track : TrackContext}
    (supplied : Supplied done index track) (differs : frame.track ≠ index) :
    Supplied (done ++ [frame]) index track := by
  have unchanged : samplesOf (done ++ [frame]) index = samplesOf done index := by
    rw [samplesOf_append, if_neg differs, List.append_nil]
  exact ⟨unchanged ▸ supplied.delivered, fun full => unchanged ▸ supplied.held full⟩

theorem drains_inFrames {conversions : Conversions} {thread next : DashThread} (done : List Frame)
    (frame : Frame) {track : TrackContext} {fi : DashFrameInfo} {bufferLen : Int}
    (returned : thread.returned.reverse = (done ++ [frame]).flatMap (·.fragments))
    (complete : ∀ frame ∈ done, Complete conversions thread.offsetMs frame)
    (supplied : ∀ index track, thread.tracks[index]? = some track → Supplied done index track)
    (current : thread.currentTrack = some frame.track)
    (found : thread.tracks[frame.track]? = some track) (sampled : track.hasSample = true)
    (ongoing : Ongoing conversions thread frame track) (flags : fi.flags = openingFlags frame)
    (positive : 0 < bufferLen)
    (drains : Drains conversions thread bufferLen fi frame.track track next) :
    ∃ done begun, InFrames conversions next done begun := by
  have inside : frame.track < thread.tracks.length := (List.getElem?_eq_some_iff.mp found).1
  have here := supplied frame.track track found
  have added : ∀ fragment : Fragment,
      (done ++ [frame]).flatMap (·.fragments) ++ [fragment] =
        (done ++ [frame.add fragment]).flatMap (·.fragments) := by
    intro fragment
    simp [Frame.add]
  have offset := drains.offset
  cases drains with
  | finishes data format info fits copied described =>
    have finished := ongoing.finish flags copied described
    refine ⟨done ++ [frame.add { track := frame.track, data, info := { info with
      flags := info.flags ||| lastFragmentFlag } }], none, ?_, ?_, ?_, ?_, nofun⟩
    · simp only [List.reverse_cons, returned, Option.toList_none, List.append_nil]
      exact added _
    · intro later member
      rw [offset]
      rcases List.mem_append.mp member with older | newest
      · exact complete later older
      · rw [List.mem_singleton.mp newest]
        exact finished
    · intro index other at_
      rcases getElem?_set_cases at_ with ⟨rfl, rfl⟩ | ⟨differs, older⟩
      · exact here.finish sampled ongoing.holds _ _ rfl
      · exact (supplied index other older).other (Ne.symm differs)
    · exact fun _ => ⟨rfl, rfl⟩
  | continues data format info short copied described =>
    obtain ⟨unfinished, consumed⟩ := ongoing.continue flags positive short copied described
    refine ⟨done, some (frame.add { track := frame.track, data, info }), ?_, ?_, ?_, nofun, ?_⟩
    · simp only [List.reverse_cons, returned, Option.toList_some]
      exact added _
    · intro earlier member
      rw [offset]
      exact complete earlier member
    · intro index other at_
      rcases getElem?_set_cases at_ with ⟨rfl, rfl⟩ | ⟨differs, older⟩
      · exact here.same rfl id fun _ => rfl
      · exact supplied index other older
    · intro later same
      obtain rfl := Option.some.inj same
      refine ⟨current, by simp [Frame.add], track.note (.fragment data info), ?_, sampled, ?_⟩
      · exact List.getElem?_set_self inside
      · refine ⟨?_, consumed, ongoing.type, ongoing.holds⟩
        rw [offset]
        exact unfinished

theorem fill_inFrames {conversions : Conversions} {thread : DashThread} {done : List Frame}
    (frames : InFrames conversions thread done none) (reads : Nat → List ReadOutcome) :
    InFrames conversions (thread.fillTrackSampleHolders reads).2 done none := by
  refine ⟨frames.returned, frames.complete, ?_, frames.idle, nofun⟩
  intro index track found
  rw [DashThread.getElem?_fill] at found
  obtain ⟨older, at_, rfl⟩ := Option.map_eq_some_iff.mp found
  exact (frames.supplied index older at_).fill thread.playbackRate (reads index)

theorem Checks.sample {license cleared : Bool} {track next : TrackContext}
    (checks : Checks license track cleared next) :
    next.hasSample = track.hasSample ∧ next.sampleHolder = track.sampleHolder ∧
      next.frameType = track.frameType ∧ samplesRead next.history = samplesRead track.history := by
  cases checks <;> exact ⟨rfl, rfl, rfl, rfl⟩

theorem populateFrameInfoCrypto_flags {fi info : DashFrameInfo} {holder : SampleHolder}
    (populated : populateFrameInfoCrypto fi holder = .ok info) : info.flags = fi.flags := by
  unfold populateFrameInfoCrypto at populated
  split at populated
  · cases populated
    rfl
  · dsimp only at populated
    split at populated
    · cases populated
    · cases populated
      rfl

theorem copies_inFrames {conversions : Conversions} {thread next : DashThread} {done : List Frame}
    {begun : Option Frame} (frames : InFrames conversions thread done begun) {bufferLen : Int}
    (positive : 0 < bufferLen) {reads : Nat → List ReadOutcome}
    (copies : Copies conversions thread bufferLen reads true next) :
    ∃ done begun, InFrames conversions next done begun := by
  have unbegun (current : thread.currentTrack = none) : begun = none := by
    cases begun with
    | none => rfl
    | some frame => cases current.symm.trans (frames.copying frame rfl).1
  cases copies with
  | declines idle => exact ⟨done, begun, frames⟩
  | resumes index track next buffering current found drains =>
    cases begun with
    | none => cases current.symm.trans (frames.idle rfl).1
    | some frame =>
      obtain ⟨copying, opened, held, at_, sampled, ongoing⟩ := frames.copying frame rfl
      cases current.symm.trans copying
      cases found.symm.trans at_
      refine drains_inFrames done frame frames.returned frames.complete frames.supplied copying found sampled
        ongoing ?_ positive drains
      simp [openingFlags, opened]
  | ends buffering current ended =>
    cases unbegun current
    have filled := fill_inFrames frames reads
    refine ⟨done, none, filled.returned, filled.complete, ?_, filled.idle, nofun⟩
    intro index track found
    rw [List.getElem?_map] at found
    obtain ⟨older, at_, rfl⟩ := Option.map_eq_some_iff.mp found
    exact (filled.supplied index older at_).same rfl id fun _ => rfl
  | waits buffering current =>
    cases unbegun current
    exact ⟨done, none, fill_inFrames frames reads⟩
  | blocks index track checked readerPosition buffering current found sampled checks =>
    cases checks with
    | refused pssh encrypted unchecked protects joined => cases joined
  | begins index track checked readerPosition fi next buffering current found sampled checks
      populated drains =>
    cases unbegun current
    have filled := fill_inFrames frames reads
    obtain ⟨sample, holds, present, -⟩ := (filled.supplied index track found).held sampled
    obtain ⟨still, holder, type, unread⟩ := checks.sample
    have inside := (List.getElem?_eq_some_iff.mp found).1
    refine drains_inFrames done
      { track := index, type := track.frameType, sample, fragments := [] } ?_ ?_ ?_ rfl
      (List.getElem?_set_self inside) (still.trans sampled) ?_ ?_ positive drains
    · simpa using filled.returned
    · exact filled.complete
    · intro position other at_
      rcases getElem?_set_cases at_ with ⟨rfl, rfl⟩ | ⟨-, older⟩
      · exact (filled.supplied position track found).same unread
          (fun full => still.symm.trans full) fun _ => holder
      · exact filled.supplied position other older
    · refine ⟨⟨⟨nofun, nofun⟩, ⟨sample.data, present, rfl⟩, nofun⟩, (filled.idle rfl).2, type.symm, ?_⟩
      rw [holder]
      exact holds
    · rw [populateFrameInfoCrypto_flags populated]
      rfl

/-- The calls that the fragmentation of frames is about: CopyFrame with room in its buffer and a
license at hand, and updates of the media time between them. -/
def PlaysOn (_ : DashThread) (op : PlayerOp) (_ : DashThread) : Prop :=
  match op with
  | .copyFrame bufferLen _ license => 0 < bufferLen ∧ license = true
  | .updateMediaTime _ => True
  | _ => False

theorem updateMediaTime_inFrames {conversions : Conversions} {thread : DashThread}
    {done : List Frame} {begun : Option Frame} (frames : InFrames conversions thread done begun)
    (newDecoderTimeMs : Int) :
    InFrames conversions (thread.updateMediaTime newDecoderTimeMs) done begun := by
  obtain ⟨_, _, _, _, _, updated, cached⟩ := thread.updateMediaTime_eq newDecoderTimeMs
  have offset : (thread.updateMediaTime newDecoderTimeMs).offsetMs =
      thread.offsetMs := by
    rw [updated]
    exact DashThread.offset_cached rfl cached
  refine ⟨?_, ?_, ?_, ?_, ?_⟩
  · rw [updated]
    exact frames.returned
  · rw [offset]
    exact frames.complete
  · rw [updated]
    exact frames.supplied
  · rw [updated]
    exact frames.idle
  · intro frame same
    obtain ⟨current, opened, track, found, sampled, ongoing⟩ := frames.copying frame same
    refine ⟨by rw [updated]; exact current, opened, track, by rw [updated]; exact found, sampled, ?_,
      by rw [updated]; exact ongoing.consumed, ongoing.type, ongoing.holds⟩
    rw [offset]
    exact ongoing.unfinished

theorem playsOn_inFrames {conversions : Conversions} {thread : DashThread}
    (reachable : Reachable ((playerSystem conversions).restrict PlaysOn) thread) :
    ∃ done begun, InFrames conversions thread done begun := by
  refine reachable.invariant (fun thread => ∃ done begun, InFrames conversions thread done begun)
    ?_ ?_
  · intro thread loaded
    refine ⟨[], none, by simp [loaded.unreturned], nofun, ?_,
      fun _ => ⟨loaded.unselected, loaded.unconsumed⟩, nofun⟩
    intro index track found
    rw [loaded.fresh track (List.mem_of_getElem? found)]
    exact ⟨.slnil, nofun⟩
  · rintro thread op next ⟨done, begun, frames⟩ ⟨⟨result, step⟩, plays⟩
    cases op with
    | copyFrame bufferLen reads license =>
      obtain ⟨positive, rfl⟩ := plays
      exact copies_inFrames frames positive (copyFrameImpl_copies (Option.some.inj step))
    | updateMediaTime newDecoderTimeMs =>
      cases step
      exact ⟨done, begun, updateMediaTime_inFrames frames newDecoderTimeMs⟩
    | seek => cases plays
    | setPlaybackRate => cases plays
    | disabled => cases plays

/-- While licenses are at hand and nothing is repositioned, the fragments returned are the frames of
samples, one after the other: each frame but the last is whole, opens with its first fragment only
and closes with its last only, and every frame has a sample of its own among those that its track
has read. -/
theorem copyFrame_lossless {conversions : Conversions} {thread : DashThread}
    (reachable : Reachable ((playerSystem conversions).restrict PlaysOn) thread) :
    ∃ (done : List Frame) (begun : Option Frame),
      thread.returned.reverse = (done ++ begun.toList).flatMap (·.fragments) ∧
      (∀ frame ∈ done, Complete conversions thread.offsetMs frame) ∧
      (∀ frame ∈ begun, frame.fragments ≠ [] ∧
        Unfinished conversions thread.offsetMs frame) ∧
      ∀ index track, thread.tracks[index]? = some track →
        (samplesOf (done ++ begun.toList) index).Sublist (samplesRead track.history) := by
  obtain ⟨done, begun, frames⟩ := playsOn_inFrames reachable
  refine ⟨done, begun, frames.returned, frames.complete, ?_, ?_⟩
  · intro frame member
    obtain ⟨-, opened, track, -, -, ongoing⟩ := frames.copying frame member
    exact ⟨opened, ongoing.unfinished⟩
  · intro index track found
    have supplied := frames.supplied index track found
    cases begun with
    | none => simpa using supplied.delivered
    | some frame =>
      rw [Option.toList_some, samplesOf_append]
      split
      next same =>
        obtain ⟨-, -, held, at_, sampled, ongoing⟩ := frames.copying frame rfl
        rw [same] at at_
        cases found.symm.trans at_
        obtain ⟨sample, holds, -, later⟩ := supplied.held sampled
        rw [ongoing.holds.unique holds]
        exact later
      next => simpa using supplied.delivered

theorem copyFrame_lossless_interleaved :
    ∃ thread : DashThread,
      thread.returned.reverse.map (fun fragment => (fragment.track, fragment.data)) =
        [(1, [7]), (0, [1, 2]), (0, [3])] ∧
      ∃ (done : List Frame) (begun : Option Frame),
        thread.returned.reverse = (done ++ begun.toList).flatMap (·.fragments) ∧
        (∀ frame ∈ done, Complete exactConversions thread.offsetMs frame) ∧
        (∀ frame ∈ begun, frame.fragments ≠ [] ∧
          Unfinished exactConversions thread.offsetMs frame) ∧
        ∀ index track, thread.tracks[index]? = some track →
          (samplesOf (done ++ begun.toList) index).Sublist (samplesRead track.history) := by
  have start := Reachable.start ((playerSystem exactConversions).restrict PlaysOn)
    (show DashThread.Loaded { state := .buffering, tracks :=
      [{ frameType := .video, renderer := .started }, { frameType := .audio, renderer := .started }] }
      from ⟨rfl, rfl, rfl, ⟨rfl, rfl⟩, rfl, by simp⟩)
  have first := start.next (.copyFrame 2 (fun index =>
      if index = 0 then
        [.formatRead { format := some (640, 480) },
          .sampleRead { data := [1, 2, 3, 4], timeUs := 2000 } false]
      else
        [.formatRead { format := some (0, 0) }, .sampleRead { data := [7], timeUs := 1000 } false])
    true) ⟨⟨1, rfl⟩, by decide, rfl⟩
  have second := first.next (.copyFrame 2 (fun _ => []) true) ⟨⟨2, rfl⟩, by decide, rfl⟩
  have third := second.next (.copyFrame 1 (fun _ => []) true) ⟨⟨1, rfl⟩, by decide, rfl⟩
  exact ⟨_, rfl, copyFrame_lossless third⟩

end NDash
