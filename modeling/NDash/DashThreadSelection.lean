import NDash.DashThreadSteps

set_option autoImplicit false

namespace NDash

namespace TrackContext

def HasData (track : TrackContext) : Prop := track.isEos = false ∧ track.hasSample = true

end TrackContext

def DataAt (tracks : List TrackContext) (type : DashFrameType) (index : Nat) : Prop :=
  ∃ track, tracks[index]? = some track ∧ track.HasData ∧ track.frameType = type

/-- The last audio track with data, or the first video track with data where no audio track has any. -/
def IsMediaTimeTrack (tracks : List TrackContext) (index : Nat) : Prop :=
  DataAt tracks .audio index ∧ (∀ other, DataAt tracks .audio other → other ≤ index) ∨
    (∀ other, ¬ DataAt tracks .audio other) ∧
      DataAt tracks .video index ∧ ∀ other, DataAt tracks .video other → index ≤ other

namespace DashThread

section

variable (conversions : Conversions) (thread : DashThread)

structure Eligible (track : TrackContext) : Prop where
  hasData : track.HasData
  caption : track.frameType = .cc → thread.mediaTimeReady = true
  near : thread.mediaTimeReady = true →
    let ahead := track.sampleHolder.timeUs - thread.decoderPosition
    if isForward thread.playbackRate then ahead ≤ conversions.maxPRBuffer thread.playbackRate
    else ahead ≥ conversions.maxPRBuffer thread.playbackRate

def Precedes (time other : Int) : Prop :=
  if isForward thread.playbackRate then time ≤ other else time ≥ other

structure Best (tracks : List TrackContext) (index : Nat) (track : TrackContext) : Prop where
  here : tracks[index]? = some track
  eligible : thread.Eligible conversions track
  first : ∀ other ∈ tracks, thread.Eligible conversions other →
    thread.Precedes track.sampleHolder.timeUs other.sampleHolder.timeUs

def Chosen (tracks : List TrackContext) : Option (Nat × Int) → Prop
  | none => ∀ track ∈ tracks, ¬ thread.Eligible conversions track
  | some (index, time) =>
    ∃ track, thread.Best conversions tracks index track ∧ track.sampleHolder.timeUs = time

structure Selects (tracks : List TrackContext) (selection : Selection) : Prop where
  chosen : thread.Chosen conversions tracks selection.selected
  mediaTime : ∀ index, selection.mediaTimeTrack = some index → IsMediaTimeTrack tracks index
  noMediaTime : selection.mediaTimeTrack = none →
    ∀ index, ¬ DataAt tracks .audio index ∧ ¬ DataAt tracks .video index

end

end DashThread

theorem getElem?_concat_eq_some {tracks : List TrackContext} {track found : TrackContext}
    {index : Nat} : (tracks ++ [track])[index]? = some found ↔
      tracks[index]? = some found ∨ index = tracks.length ∧ found = track := by
  rcases Nat.lt_trichotomy index tracks.length with less | rfl | more
  · rw [List.getElem?_append_left less]
    simp [Nat.ne_of_lt less]
  · simp [eq_comm]
  · have none_here : tracks[index]? = none := List.getElem?_eq_none_iff.mpr (by omega)
    have none_there : (tracks ++ [track])[index]? = none :=
      List.getElem?_eq_none_iff.mpr (by simp; omega)
    rw [none_here, none_there]
    simp [Nat.ne_of_gt more]

theorem dataAt_append {tracks : List TrackContext} {track : TrackContext} {type : DashFrameType}
    {index : Nat} : DataAt (tracks ++ [track]) type index ↔
      DataAt tracks type index ∨
        index = tracks.length ∧ track.HasData ∧ track.frameType = type := by
  unfold DataAt
  simp only [getElem?_concat_eq_some]
  constructor
  · rintro ⟨found, here | ⟨last, rfl⟩, data, isType⟩
    · exact .inl ⟨found, here, data, isType⟩
    · exact .inr ⟨last, data, isType⟩
  · rintro (⟨found, here, data, isType⟩ | ⟨last, data, isType⟩)
    · exact ⟨found, .inl here, data, isType⟩
    · exact ⟨track, .inr ⟨last, rfl⟩, data, isType⟩

theorem DataAt.lt {tracks : List TrackContext} {type : DashFrameType} {index : Nat}
    (data : DataAt tracks type index) : index < tracks.length := by
  obtain ⟨track, here, -⟩ := data
  exact (List.getElem?_eq_some_iff.mp here).1

theorem dataAt_append_other {tracks : List TrackContext} {track : TrackContext}
    {type : DashFrameType} (other : ¬ (track.HasData ∧ track.frameType = type)) {index : Nat} :
    DataAt (tracks ++ [track]) type index ↔ DataAt tracks type index := by
  rw [dataAt_append, or_iff_left]
  exact fun here => other here.2

namespace IsMediaTimeTrack

variable {tracks : List TrackContext} {track : TrackContext} {index : Nat}

theorem unique {other : Nat} (first : IsMediaTimeTrack tracks index)
    (second : IsMediaTimeTrack tracks other) : index = other := by
  rcases first with ⟨audio, latest⟩ | ⟨noAudio, video, earliest⟩
  · rcases second with ⟨audio', latest'⟩ | ⟨noAudio, -⟩
    · exact Nat.le_antisymm (latest' _ audio) (latest _ audio')
    · exact absurd audio (noAudio _)
  · rcases second with ⟨audio, -⟩ | ⟨-, video', earliest'⟩
    · exact absurd audio (noAudio _)
    · exact Nat.le_antisymm (earliest _ video') (earliest' _ video)

theorem append_audio (data : track.HasData) (audio : track.frameType = .audio) :
    IsMediaTimeTrack (tracks ++ [track]) tracks.length := by
  refine .inl ⟨dataAt_append.mpr (.inr ⟨rfl, data, audio⟩), fun other here => ?_⟩
  have upper := here.lt
  rw [List.length_append, List.length_singleton] at upper
  omega

theorem append_other (selected : IsMediaTimeTrack tracks index)
    (notAudio : ¬ (track.HasData ∧ track.frameType = .audio)) :
    IsMediaTimeTrack (tracks ++ [track]) index := by
  rcases selected with ⟨audio, latest⟩ | ⟨noAudio, video, earliest⟩
  · refine .inl ⟨(dataAt_append_other notAudio).mpr audio, fun other here => ?_⟩
    exact latest other ((dataAt_append_other notAudio).mp here)
  · refine .inr ⟨?_, dataAt_append.mpr (.inl video), ?_⟩
    · intro other here
      exact noAudio other ((dataAt_append_other notAudio).mp here)
    · intro other here
      rcases dataAt_append.mp here with before | ⟨rfl, -⟩
      · exact earliest other before
      · exact Nat.le_of_lt video.lt

theorem append_video (nothing : ∀ index, ¬ DataAt tracks .audio index ∧ ¬ DataAt tracks .video index)
    (data : track.HasData) (video : track.frameType = .video) :
    IsMediaTimeTrack (tracks ++ [track]) tracks.length := by
  have notAudio : ¬ (track.HasData ∧ track.frameType = .audio) := by
    rw [video]
    exact nofun
  refine .inr ⟨?_, dataAt_append.mpr (.inr ⟨rfl, data, video⟩), ?_⟩
  · intro other here
    exact (nothing other).1 ((dataAt_append_other notAudio).mp here)
  · intro other here
    rcases dataAt_append.mp here with before | ⟨rfl, -⟩
    · exact absurd before (nothing other).2
    · exact Nat.le_refl _

end IsMediaTimeTrack

namespace DashThread

variable {conversions : Conversions} {thread : DashThread} {tracks : List TrackContext}
  {track : TrackContext} {selection : Selection}

theorem noteMediaTimeTrack_append (selects : thread.Selects conversions tracks selection)
    (data : track.HasData) :
    let noted := noteMediaTimeTrack selection tracks.length track.frameType
    (∀ index, noted.mediaTimeTrack = some index → IsMediaTimeTrack (tracks ++ [track]) index) ∧
      (noted.mediaTimeTrack = none → ∀ index,
        ¬ DataAt (tracks ++ [track]) .audio index ∧ ¬ DataAt (tracks ++ [track]) .video index) := by
  unfold noteMediaTimeTrack
  dsimp only
  split
  · next audio =>
    refine ⟨fun index chosen => ?_, nofun⟩
    cases chosen
    exact .append_audio data audio
  · next notAudio =>
    split
    · next video =>
      simp only [Bool.and_eq_true, decide_eq_true_eq, Option.isNone_iff_eq_none] at video
      refine ⟨fun index chosen => ?_, nofun⟩
      cases chosen
      exact .append_video (selects.noMediaTime video.2) data video.1
    · next notFirst =>
      refine ⟨fun index chosen => ?_, fun nothing index => ?_⟩
      · exact (selects.mediaTime index chosen).append_other fun audio => notAudio audio.2
      · have notVideo : track.frameType ≠ .video := by
          intro video
          simp [video, nothing] at notFirst
        rw [dataAt_append_other fun audio => notAudio audio.2,
          dataAt_append_other fun video => notVideo video.2]
        exact selects.noMediaTime nothing index

theorem Precedes.trans {first second third : Int} (left : thread.Precedes first second)
    (right : thread.Precedes second third) : thread.Precedes first third := by
  unfold Precedes at *
  split at left <;> simp_all <;> omega

theorem Chosen.skip {selected : Option (Nat × Int)}
    (chosen : thread.Chosen conversions tracks selected)
    (ineligible : ¬ thread.Eligible conversions track) :
    thread.Chosen conversions (tracks ++ [track]) selected := by
  match selected with
  | none =>
    intro other member
    rcases List.mem_append.mp member with before | last
    · exact chosen other before
    · rw [List.mem_singleton.mp last]
      exact ineligible
  | some (index, time) =>
    obtain ⟨best, ⟨here, eligible, first⟩, time_eq⟩ := chosen
    refine ⟨best, ⟨getElem?_concat_eq_some.mpr (.inl here), eligible, ?_⟩, time_eq⟩
    intro other member other_eligible
    rcases List.mem_append.mp member with before | last
    · exact first other before other_eligible
    · rw [List.mem_singleton.mp last] at other_eligible
      exact absurd other_eligible ineligible

theorem Chosen.keep {index : Nat} {time : Int}
    (chosen : thread.Chosen conversions tracks (some (index, time)))
    (later : thread.Precedes time track.sampleHolder.timeUs) :
    thread.Chosen conversions (tracks ++ [track]) (some (index, time)) := by
  obtain ⟨best, ⟨here, eligible, first⟩, rfl⟩ := chosen
  refine ⟨best, ⟨getElem?_concat_eq_some.mpr (.inl here), eligible, ?_⟩, rfl⟩
  intro other member other_eligible
  rcases List.mem_append.mp member with before | last
  · exact first other before other_eligible
  · rw [List.mem_singleton.mp last]
    exact later

theorem Chosen.replace {selected : Option (Nat × Int)}
    (chosen : thread.Chosen conversions tracks selected)
    (eligible : thread.Eligible conversions track)
    (earlier : ∀ index time, selected = some (index, time) →
      thread.Precedes track.sampleHolder.timeUs time) :
    thread.Chosen conversions (tracks ++ [track])
      (some (tracks.length, track.sampleHolder.timeUs)) := by
  refine ⟨track, ⟨getElem?_concat_eq_some.mpr (.inr ⟨rfl, rfl⟩), eligible, ?_⟩, rfl⟩
  intro other member other_eligible
  rcases List.mem_append.mp member with before | last
  · match selected with
    | none => exact absurd other_eligible (chosen other before)
    | some (index, time) =>
      obtain ⟨best, ⟨-, -, first⟩, rfl⟩ := chosen
      exact (earlier index _ rfl).trans (first other before other_eligible)
  · rw [List.mem_singleton.mp last]
    unfold Precedes
    split <;> omega

theorem isBestByTime_iff (selection : Selection) (time : Int) :
    thread.isBestByTime selection time = true ↔
      ∀ index other, selection.selected = some (index, other) → ¬ thread.Precedes other time := by
  unfold isBestByTime Precedes
  split
  · next nothing => simp [nothing]
  · next index other chosen =>
    rw [chosen]
    split <;> simp [*]

theorem isNotTooFarAhead_iff (time : Int) :
    thread.isNotTooFarAhead conversions time = true ↔
      let ahead := time - thread.decoderPosition
      if isForward thread.playbackRate then ahead ≤ conversions.maxPRBuffer thread.playbackRate
      else ahead ≥ conversions.maxPRBuffer thread.playbackRate := by
  unfold isNotTooFarAhead
  dsimp only
  split <;> simp

theorem Precedes.of_not {first second : Int} (not : ¬ thread.Precedes second first) :
    thread.Precedes first second := by
  unfold Precedes at *
  split at not <;> simp_all <;> omega

theorem consider_chosen (chosen : thread.Chosen conversions tracks selection.selected) :
    thread.Chosen conversions (tracks ++ [track])
      (thread.consider conversions selection tracks.length track).selected := by
  unfold consider
  split
  · next noData =>
    apply chosen.skip
    rintro ⟨⟨playing, sampled⟩, -⟩
    simp [playing, sampled] at noData
  · next available =>
    have data : track.HasData := by simpa [TrackContext.HasData] using available
    dsimp only
    split
    · next early =>
      rw [noteMediaTimeTrack_selected]
      apply chosen.skip
      rintro ⟨-, caption, -⟩
      simp only [Bool.and_eq_true, decide_eq_true_eq, Bool.not_eq_true'] at early
      simp [caption early.1] at early
    · next timely =>
      have caption : track.frameType = .cc → thread.mediaTimeReady = true := by
        intro isCaption
        simpa [isCaption] using timely
      split
      · next takes =>
        rw [Bool.and_eq_true, isBestByTime_iff, noteMediaTimeTrack_selected, Bool.or_eq_true,
          isNotTooFarAhead_iff] at takes
        refine chosen.replace ⟨data, caption, ?_⟩ ?_
        · intro ready
          exact takes.2.resolve_left (by simp [ready])
        · intro index time isChosen
          exact .of_not (takes.1 index time isChosen)
      · next leaves =>
        rw [Bool.and_eq_true, isBestByTime_iff, noteMediaTimeTrack_selected, Bool.or_eq_true,
          isNotTooFarAhead_iff] at leaves
        rw [noteMediaTimeTrack_selected]
        by_cases eligible : thread.Eligible conversions track
        · have notBest : ¬ ∀ index time, selection.selected = some (index, time) →
              ¬ thread.Precedes time track.sampleHolder.timeUs := by
            intro best
            refine leaves ⟨best, ?_⟩
            cases ready : thread.mediaTimeReady with
            | false => exact .inl rfl
            | true => exact .inr (eligible.near ready)
          simp only [not_forall, not_not] at notBest
          obtain ⟨index, time, isChosen, precedes⟩ := notBest
          rw [isChosen] at chosen ⊢
          exact chosen.keep precedes
        · exact chosen.skip eligible

theorem consider_mediaTimeTrack (index : Nat) (data : track.HasData) :
    (thread.consider conversions selection index track).mediaTimeTrack =
      (noteMediaTimeTrack selection index track.frameType).mediaTimeTrack := by
  unfold consider
  rw [if_neg (by simp [data.1, data.2])]
  dsimp only
  split
  · rfl
  · split <;> rfl

theorem consider_selects (track : TrackContext) (selects : thread.Selects conversions tracks selection) :
    thread.Selects conversions (tracks ++ [track])
      (thread.consider conversions selection tracks.length track) := by
  by_cases data : track.HasData
  · obtain ⟨mediaTime, noMediaTime⟩ := noteMediaTimeTrack_append selects data
    refine ⟨consider_chosen selects.chosen, ?_, ?_⟩
    · rw [consider_mediaTimeTrack _ data]
      exact mediaTime
    · rw [consider_mediaTimeTrack _ data]
      exact noMediaTime
  · have same : thread.consider conversions selection tracks.length track = selection := by
      unfold consider
      rw [if_pos]
      simp only [TrackContext.HasData, not_and_or, Bool.not_eq_false, Bool.not_eq_true] at data
      rcases data with ended | empty <;> simp [*]
    refine ⟨consider_chosen selects.chosen, ?_, ?_⟩
    · rw [same]
      intro index chosen
      exact (selects.mediaTime index chosen).append_other fun audio => data audio.1
    · rw [same]
      intro nothing index
      rw [dataAt_append_other fun audio => data audio.1,
        dataAt_append_other fun video => data video.1]
      exact selects.noMediaTime nothing index

theorem selectTrack_selects (rest : List TrackContext)
    (selects : thread.Selects conversions tracks selection) :
    thread.Selects conversions (tracks ++ rest)
      (thread.selectTrack conversions tracks.length rest selection) := by
  induction rest generalizing tracks selection with
  | nil =>
    rw [List.append_nil]
    exact selects
  | cons track rest ih =>
    have next := ih (consider_selects track selects)
    rw [List.append_assoc, List.singleton_append, List.length_append, List.length_singleton] at next
    exact next

variable (conversions : Conversions) (thread : DashThread)

theorem selectTrack_all : thread.Selects conversions thread.tracks
    (thread.selectTrack conversions 0 thread.tracks {}) := by
  have initial : thread.Selects conversions [] {} :=
    ⟨fun _ member => absurd member List.not_mem_nil, nofun, by simp [DataAt]⟩
  exact selectTrack_selects thread.tracks initial

/-- The selection is nothing where no track is eligible, and otherwise the eligible track to be played
first; it moves the reader where it is the track of the media time. -/
theorem getNextSampleTrack_optimal :
    (thread.getNextSampleTrack conversions = none ↔
      ∀ track ∈ thread.tracks, ¬ thread.Eligible conversions track) ∧
    ∀ index next, thread.getNextSampleTrack conversions = some (index, next) →
      ∃ track, thread.Best conversions thread.tracks index track ∧
        (IsMediaTimeTrack thread.tracks index ∧
            next = { thread with readerPosition := track.sampleHolder.timeUs } ∨
          ¬ IsMediaTimeTrack thread.tracks index ∧ next = thread) := by
  have selects := selectTrack_all conversions thread
  unfold getNextSampleTrack
  dsimp only
  generalize thread.selectTrack conversions 0 thread.tracks {} = selection at selects
  obtain ⟨chosen, mediaTime, noMediaTime⟩ := selects
  cases selected : selection.selected with
  | none =>
    rw [selected] at chosen
    refine ⟨⟨fun _ => chosen, fun _ => rfl⟩, ?_⟩
    intro index next impossible
    cases impossible
  | some entry =>
    obtain ⟨index, time⟩ := entry
    rw [selected] at chosen
    obtain ⟨track, best, rfl⟩ := chosen
    dsimp only
    have isMediaTime : selection.mediaTimeTrack = some index ↔ IsMediaTimeTrack thread.tracks index := by
      refine ⟨mediaTime index, fun isTrack => ?_⟩
      cases noted : selection.mediaTimeTrack with
      | none =>
        have nothing := noMediaTime noted index
        rcases isTrack with ⟨audio, -⟩ | ⟨-, video, -⟩
        · exact absurd audio nothing.1
        · exact absurd video nothing.2
      | some other => rw [(mediaTime other noted).unique isTrack]
    refine ⟨⟨fun impossible => ?_, fun none_eligible => ?_⟩, ?_⟩
    · split at impossible <;> cases impossible
    · exact absurd best.eligible (none_eligible track (List.mem_of_getElem? best.here))
    · intro chosen next selects
      split at selects
      · next noted =>
        cases selects
        exact ⟨track, best, .inl ⟨isMediaTime.mp noted, rfl⟩⟩
      · next notNoted =>
        cases selects
        exact ⟨track, best, .inr ⟨fun isTrack => notNoted (isMediaTime.mpr isTrack), rfl⟩⟩

end DashThread

end NDash
