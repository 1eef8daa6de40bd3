import NDash.Chunk.ChunkExtractorWrapper
import NDash.Extractor.StreamParserExtractor

set_option autoImplicit false

namespace NDash.Chunk

open Upstream Extractor

structure InitializationChunk where
  id : Nat
  dataSpec : DataSpec
  bytesLoaded : Int := 0
  loadCanceled : Bool := false
deriving DecidableEq, Repr

structure InitLoading (Extractor : Type) where
  chunk : InitializationChunk
  wrapper : ChunkExtractorWrapper Extractor

namespace InitLoading

variable {Extractor : Type} (interface : ExtractorInterface Extractor) (content : Bytes)

-- Load from a successful Open on. Sample data is a fatal error in an initialization chunk.
def extract (loading : InitLoading Extractor) (request : DataSpec) (openSize : Int)
    (canceled : Bool) (answers : List SourceAnswer) :
    Except Fault (LoadOutcome (InitLoading Extractor)) := do
  let input : UnbufferedExtractorInput :=
    { remaining := request.range content
      position := request.absoluteStreamPosition
      length := openSize }
  let wrapper :=
    if loading.chunk.bytesLoaded = 0 then loading.wrapper.init interface loading.chunk.id
    else loading.wrapper
  let answers := if canceled then [] else answers
  let (result, wrapper, input) ← wrapper.readWhileContinuing interface answers input
  if wrapper.calls.any OutputCall.isSample then .error .checkFailed
  else
    .ok
      { result := decide (result = .endOfInput)
        request
        state :=
          { chunk :=
              { loading.chunk with
                loadCanceled := canceled || decide (result = .continueReading)
                bytesLoaded :=
                  if result = .ioError then 0
                  else input.position - request.absoluteStreamPosition }
            wrapper } }

def load (loading : InitLoading Extractor) (script : LoadScript) :
    Except Fault (LoadOutcome (InitLoading Extractor)) :=
  let request := loading.chunk.dataSpec.getRemainder loading.chunk.bytesLoaded
  let canceled := loading.chunk.loadCanceled || script.canceled
  match script.openSize with
  | none =>
    .ok
      { result := false
        request
        state := { loading with chunk := { loading.chunk with loadCanceled := canceled } } }
  | some openSize => loading.extract interface content request openSize canceled script.answers

end InitLoading

structure InitAttempt where
  fresh : Option (Nat × DataSpec)
  script : LoadScript

namespace InitLoading

variable {Extractor : Type} (interface : ExtractorInterface Extractor) (content : Bytes)

def select (loading : InitLoading Extractor) (attempt : InitAttempt) : InitLoading Extractor :=
  match attempt.fresh with
  | none => loading
  | some (id, dataSpec) => { loading with chunk := { id, dataSpec } }

def loads : List InitAttempt → InitLoading Extractor → Except Fault (InitLoading Extractor)
  | [], loading => .ok loading
  | attempt :: attempts, loading => do
    let outcome ← (loading.select attempt).load interface content attempt.script
    loads attempts outcome.state

end InitLoading

abbrev SegmentWrapper (Parser : Type) := ChunkExtractorWrapper (StreamParserExtractor Parser)

structure Registration where
  seeking : Bool
  registered : Bool
  seen : Bool
  trackMap : List Nat
deriving DecidableEq, Repr

namespace Registration

def configure (registration : Registration) : Registration :=
  if registration.seeking then { registration with seeking := false }
  else
    { seeking := false
      registered := true
      seen := true
      trackMap := registration.trackMap ++ [0] }

end Registration

section Segment

variable {Parser : Type} {streamParser : StreamParser Parser}

open StreamParserExtractor

def ChunkExtractorWrapper.registration (wrapper : SegmentWrapper Parser) : Registration where
  seeking := wrapper.extractor.isSeeking
  registered := wrapper.extractor.tracksRegistered
  seen := wrapper.seenTrack
  trackMap := wrapper.extractor.trackMap

theorem performAll_registers (durationUs : Int) (track : MediaTrack)
    {wrapper : SegmentWrapper Parser} (unseen : wrapper.seenTrack = false)
    (connected : wrapper.output.isSome) :
    ∃ formats, formats.all OutputCall.informs ∧
      ChunkExtractorWrapper.performAll
          (registerCalls durationUs 0 track ++ [.doneRegisteringTracks]) wrapper =
        .ok { wrapper with seenTrack := true, calls := wrapper.calls ++ formats } := by
  have registers (formats : List OutputCall) (informs : formats.all OutputCall.informs) :
      ChunkExtractorWrapper.performAll (.registerTrack 0 :: formats ++ [.doneRegisteringTracks])
          wrapper =
        .ok { wrapper with seenTrack := true, calls := wrapper.calls ++ formats } := by
    let seen := { wrapper with seenTrack := true }
    have registered : wrapper.perform (.registerTrack 0) = .ok seen := by
      simp [ChunkExtractorWrapper.perform, ChunkExtractorWrapper.registerTrack, unseen, seen]
    have forwarded : ChunkExtractorWrapper.performAll formats seen =
        .ok { seen with calls := seen.calls ++ formats } :=
      ChunkExtractorWrapper.performAll_informs informs connected
    rw [List.cons_append, ChunkExtractorWrapper.performAll, registered, Except.bind,
      ChunkExtractorWrapper.performAll_append, forwarded]
    rfl
  unfold registerCalls
  cases track.type with
  | text => exact ⟨[], rfl, registers [] rfl⟩
  | unknown => exact ⟨[], rfl, registers [] rfl⟩
  | audio =>
    by_cases valid : track.validConfig = true
    · exact ⟨_, rfl, by simpa [valid] using registers [.giveFormat { track, durationUs }] rfl⟩
    · exact ⟨[], rfl, by simpa [valid] using registers [] rfl⟩
  | video =>
    by_cases valid : track.validConfig = true
    · exact ⟨_, rfl, by simpa [valid] using registers [.giveFormat { track, durationUs }] rfl⟩
    · exact ⟨[], rfl, by simpa [valid] using registers [] rfl⟩

theorem read_parsed {wrapper next : SegmentWrapper Parser} {data : Bytes} {calls : List OutputCall}
    {extractor : StreamParserExtractor Parser} (nonempty : data ≠ [])
    (parsed : wrapper.extractor.parse streamParser data = .ok (true, calls, extractor))
    (performed : ChunkExtractorWrapper.performAll calls { wrapper with extractor } = .ok next) :
    wrapper.read (interface streamParser) (.bytes data) = .ok (.continueReading, next) := by
  cases data with
  | nil => exact absurd rfl nonempty
  | cons byte data =>
    simp only [ChunkExtractorWrapper.read, interface, accept, parsed, bind, Except.bind, if_true,
      performed]
    rfl

variable {segment : Bytes} {track : MediaTrack}

structure Receiving (reads : ReadsSegment streamParser segment track) (count : Nat)
    (wrapper : SegmentWrapper Parser) : Prop where
  received : reads.received wrapper.extractor.parser count
  connected : wrapper.output.isSome
  extractorConnected : wrapper.extractor.output = true
  informed : wrapper.calls.all OutputCall.informs
  initialized : wrapper.extractorInitialized = true

theorem read_announced {reads : ReadsSegment streamParser segment track} {count : Nat}
    {wrapper : SegmentWrapper Parser} {data : Bytes} {callbacks : List ParserCallback}
    {parser : Parser} (receiving : Receiving reads count wrapper) (nonempty : data ≠ [])
    (announces : callbacks.all ParserCallback.announces)
    (received : reads.received parser (count + data.length))
    (parsed : streamParser.parse wrapper.extractor.parser data = (callbacks, true, parser)) :
    ∃ next, wrapper.read (interface streamParser) (.bytes data) = .ok (.continueReading, next) ∧
      Receiving reads (count + data.length) next ∧
      next.registration = wrapper.registration := by
  obtain ⟨calls, durationUs, informs, ran⟩ :=
    runCallbacks_announces announces receiving.extractorConnected
  let extractor := { wrapper.extractor with durationUs, parser }
  have parses : wrapper.extractor.parse streamParser data = .ok (true, calls, extractor) := by
    simp only [StreamParserExtractor.parse, parsed, ran, bind, Except.bind]
    rfl
  let middle : SegmentWrapper Parser := { wrapper with extractor }
  have performed := ChunkExtractorWrapper.performAll_informs informs
    (show middle.output.isSome from receiving.connected)
  refine ⟨_, read_parsed nonempty parses performed, ?_, rfl⟩
  exact
    { received
      connected := receiving.connected
      extractorConnected := receiving.extractorConnected
      informed := by
        rw [List.all_append, informs]
        exact Bool.and_eq_true_iff.mpr ⟨receiving.informed, rfl⟩
      initialized := receiving.initialized }

theorem performAll_newConfigF (extractor : StreamParserExtractor Parser) (track : MediaTrack)
    {wrapper : SegmentWrapper Parser} (unregistered : extractor.tracksRegistered = false)
    (unseen : wrapper.seenTrack = false) (connected : wrapper.output.isSome) :
    ∃ formats, formats.all OutputCall.informs ∧
      ChunkExtractorWrapper.performAll (extractor.newConfigF [track]).2.1 wrapper =
        .ok { wrapper with
          seenTrack := !extractor.isSeeking
          calls := wrapper.calls ++ formats } := by
  cases seeking : extractor.isSeeking with
  | true =>
    refine ⟨[], rfl, ?_⟩
    simp [newConfigF, seeking, ChunkExtractorWrapper.performAll, ← unseen]
  | false =>
    obtain ⟨formats, informs, performed⟩ :=
      performAll_registers extractor.durationUs track unseen connected
    refine ⟨formats, informs, ?_⟩
    simpa [newConfigF, seeking, unregistered] using performed

theorem read_configured {reads : ReadsSegment streamParser segment track} {count : Nat}
    {wrapper : SegmentWrapper Parser} {data : Bytes} {before after : List ParserCallback}
    {parser : Parser} (receiving : Receiving reads count wrapper) (nonempty : data ≠ [])
    (announcesBefore : before.all ParserCallback.announces)
    (announcesAfter : after.all ParserCallback.announces)
    (unregistered : wrapper.extractor.tracksRegistered = false)
    (unseen : wrapper.seenTrack = false)
    (received : reads.received parser (count + data.length))
    (parsed : streamParser.parse wrapper.extractor.parser data =
      (before ++ .newConfig [track] :: after, true, parser)) :
    ∃ next, wrapper.read (interface streamParser) (.bytes data) = .ok (.continueReading, next) ∧
      Receiving reads (count + data.length) next ∧
      next.registration = wrapper.registration.configure := by
  obtain ⟨first, last, durationUs, finalUs, informsFirst, informsLast, ran⟩ :=
    runCallbacks_configures track announcesBefore announcesAfter receiving.extractorConnected
      (.inr unregistered)
  let middle := { wrapper.extractor with durationUs }
  let extractor := { (middle.newConfigF [track]).2.2 with durationUs := finalUs, parser }
  have parses : wrapper.extractor.parse streamParser data =
      .ok (true, first ++ ((middle.newConfigF [track]).2.1 ++ last), extractor) := by
    simp only [StreamParserExtractor.parse, parsed, ran, bind, Except.bind]
    rfl
  let announced : SegmentWrapper Parser :=
    { wrapper with extractor, calls := wrapper.calls ++ first }
  obtain ⟨formats, informs, performed⟩ :=
    performAll_newConfigF middle track unregistered (show announced.seenTrack = false from unseen)
      receiving.connected
  let configured : SegmentWrapper Parser :=
    { announced with
      seenTrack := !middle.isSeeking
      calls := announced.calls ++ formats }
  have performedAll : ChunkExtractorWrapper.performAll
      (first ++ ((middle.newConfigF [track]).2.1 ++ last)) { wrapper with extractor } =
      .ok { configured with calls := configured.calls ++ last } := by
    let parsing : SegmentWrapper Parser := { wrapper with extractor }
    have opening : ChunkExtractorWrapper.performAll first parsing = .ok announced :=
      ChunkExtractorWrapper.performAll_informs informsFirst receiving.connected
    have closing : ChunkExtractorWrapper.performAll last configured =
        .ok { configured with calls := configured.calls ++ last } :=
      ChunkExtractorWrapper.performAll_informs informsLast receiving.connected
    rw [ChunkExtractorWrapper.performAll_append, opening, Except.bind,
      ChunkExtractorWrapper.performAll_append, performed, Except.bind]
    exact closing
  refine ⟨_, read_parsed nonempty parses performedAll, ?_, ?_⟩
  · exact
      { received
        connected := receiving.connected
        extractorConnected := by
          simp only [configured, announced, extractor, newConfigF]
          split
          · exact receiving.extractorConnected
          · split <;> exact receiving.extractorConnected
        informed := by
          have earlier := receiving.informed
          simp only [configured, announced, List.all_append, Bool.and_eq_true]
          exact ⟨⟨⟨earlier, informsFirst⟩, informs⟩, informsLast⟩
        initialized := receiving.initialized }
  · cases seeking : wrapper.extractor.isSeeking <;>
      simp [ChunkExtractorWrapper.registration, Registration.configure, configured, announced,
        extractor, middle, newConfigF, seeking, unregistered, unseen, List.range_succ]

theorem read_receives {reads : ReadsSegment streamParser segment track} {count : Nat}
    {wrapper : SegmentWrapper Parser} {data : Bytes} (receiving : Receiving reads count wrapper)
    (served : data <+: segment.drop count)
    (unconfigured : count < reads.configured →
      wrapper.extractor.tracksRegistered = false ∧ wrapper.seenTrack = false) :
    ∃ next, wrapper.read (interface streamParser) (.bytes data) = .ok (.continueReading, next) ∧
      Receiving reads (count + data.length) next ∧
      next.registration = if reads.Completes count data.length then wrapper.registration.configure
        else wrapper.registration := by
  by_cases empty : data = []
  · subst empty
    refine ⟨wrapper, rfl, receiving, ?_⟩
    exact (if_neg (reads.not_completes_nothing count)).symm
  · obtain ⟨before, after, parser, received, announcesBefore, announcesAfter, parsed⟩ :=
      reads.parsed _ _ _ receiving.received empty served
    by_cases completes : count < reads.configured ∧ reads.configured ≤ count + data.length
    · rw [if_pos completes] at parsed
      rw [if_pos (show reads.Completes count data.length from completes)]
      obtain ⟨unregistered, unseen⟩ := unconfigured completes.1
      exact read_configured receiving empty announcesBefore announcesAfter unregistered unseen
        received parsed
    · rw [if_neg completes] at parsed
      rw [if_neg (show ¬ reads.Completes count data.length from completes)]
      have announces : (before ++ after).all ParserCallback.announces := by
        rw [List.all_append, announcesBefore, announcesAfter]
        rfl
      exact read_announced receiving empty announces received parsed

theorem configure_add (reads : ReadsSegment streamParser segment track)
    (registration : Registration) (count first second : Nat) :
    (if reads.Completes (count + first) second then
        (if reads.Completes count first then registration.configure else registration).configure
      else if reads.Completes count first then registration.configure else registration) =
      if reads.Completes count (first + second) then registration.configure
      else registration := by
  by_cases early : reads.Completes count first
  · rw [if_neg (reads.not_completes_again early second), if_pos early,
      if_pos ((reads.completes_add count first second).mpr (.inl early))]
  · rw [if_neg early]
    by_cases late : reads.Completes (count + first) second
    · rw [if_pos late, if_pos ((reads.completes_add count first second).mpr (.inr late))]
    · have never : ¬ reads.Completes count (first + second) := by
        rw [reads.completes_add]
        exact not_or.mpr ⟨early, late⟩
      rw [if_neg late, if_neg never]

theorem still_unconfigured {reads : ReadsSegment streamParser segment track} {count length : Nat}
    {wrapper next : SegmentWrapper Parser}
    (unconfigured : count < reads.configured →
      wrapper.extractor.tracksRegistered = false ∧ wrapper.seenTrack = false)
    (registered : next.registration = if reads.Completes count length then
      wrapper.registration.configure else wrapper.registration)
    (below : count + length < reads.configured) :
    next.extractor.tracksRegistered = false ∧ next.seenTrack = false := by
  have incomplete : ¬ reads.Completes count length := by
    intro completes
    have := completes.2
    omega
  rw [if_neg incomplete] at registered
  have before := unconfigured (by omega)
  exact ⟨(congrArg Registration.registered registered).trans before.1,
    (congrArg Registration.seen registered).trans before.2⟩

theorem readWhileContinuing_receives {reads : ReadsSegment streamParser segment track}
    (answers : List SourceAnswer) {count : Nat} {wrapper : SegmentWrapper Parser}
    {input : UnbufferedExtractorInput} (receiving : Receiving reads count wrapper)
    (left : input.remaining = segment.drop count)
    (unconfigured : count < reads.configured →
      wrapper.extractor.tracksRegistered = false ∧ wrapper.seenTrack = false) :
    ∃ next last,
      wrapper.readWhileContinuing (interface streamParser) answers input =
        .ok ((serve kReadBufferSize answers input.remaining).2, next, last) ∧
      Receiving reads (count + (serve kReadBufferSize answers input.remaining).1.length) next ∧
      next.registration =
        if reads.Completes count (serve kReadBufferSize answers input.remaining).1.length then
          wrapper.registration.configure
        else wrapper.registration := by
  induction answers generalizing count wrapper input with
  | nil =>
    refine ⟨wrapper, input, rfl, receiving, ?_⟩
    exact (if_neg (reads.not_completes_nothing count)).symm
  | cons answer answers ih =>
    rw [ChunkExtractorWrapper.readWhileContinuing_cons]
    cases answer with
    | fail =>
      refine ⟨wrapper, _, rfl, receiving, ?_⟩
      exact (if_neg (reads.not_completes_nothing count)).symm
    | deliver amount =>
      by_cases empty : input.remaining.isEmpty = true
      · have ended := serve_exhausted kReadBufferSize amount answers empty
        refine ⟨wrapper, (input.read (.deliver amount) kReadBufferSize).2, ?_, ?_⟩
        · rw [ended]
          dsimp only [interface]
          rw [UnbufferedExtractorInput.read_exhausted empty]
          rfl
        · rw [ended]
          exact ⟨receiving, (if_neg (reads.not_completes_nothing count)).symm⟩
      · obtain ⟨delivered, remaining⟩ :=
          UnbufferedExtractorInput.read_deliver empty amount kReadBufferSize
        let data := input.remaining.take (min amount kReadBufferSize)
        have served : data <+: segment.drop count := left ▸ List.take_prefix _ _
        obtain ⟨middle, read, received, registered⟩ := read_receives receiving served unconfigured
        have rest : (input.read (.deliver amount) kReadBufferSize).2.remaining =
            segment.drop (count + data.length) := by
          rw [remaining, ← List.drop_drop, ← left]
          exact drop_length_take _ _
        obtain ⟨next, last, looped, receivedLast, registeredLast⟩ :=
          ih received rest (still_unconfigured unconfigured registered)
        rw [serve_deliver kReadBufferSize amount answers empty, ← remaining, List.length_append,
          ← Nat.add_assoc]
        refine ⟨next, last, ?_, receivedLast, ?_⟩
        · dsimp only [interface] at *
          rw [delivered, read]
          exact looped
        · rw [registeredLast, registered]
          exact configure_add reads _ count _ _

structure Waiting (reads : ReadsSegment streamParser segment track) (content : Bytes)
    (opened : Bool) (loading : InitLoading (StreamParserExtractor Parser)) : Prop where
  unregistered : loading.wrapper.extractor.tracksRegistered = false
  unseen : loading.wrapper.seenTrack = false
  unmapped : loading.wrapper.extractor.trackMap = []
  informed : loading.wrapper.calls.all OutputCall.informs
  initialized : loading.wrapper.extractorInitialized = opened
  untouched : opened = false →
    reads.received loading.wrapper.extractor.parser 0 ∧ loading.wrapper.extractor.isSeeking = false
  connected : opened = true → loading.wrapper.extractor.output = true
  range : loading.chunk.dataSpec.range content = segment
  restarts : loading.chunk.loadCanceled = false → loading.chunk.bytesLoaded = 0
  unloaded : opened = false → loading.chunk.bytesLoaded = 0

theorem init_receiving {reads : ReadsSegment streamParser segment track} {content : Bytes}
    {opened : Bool} {loading : InitLoading (StreamParserExtractor Parser)}
    (waiting : Waiting reads content opened loading) (output : Nat) :
    Receiving reads 0 (loading.wrapper.init (interface streamParser) output) ∧
      (loading.wrapper.init (interface streamParser) output).registration =
        { seeking := opened, registered := false, seen := false, trackMap := [] } := by
  cases opened with
  | false =>
    obtain ⟨received, still⟩ := waiting.untouched rfl
    have started : loading.wrapper.init (interface streamParser) output =
        { loading.wrapper with
          output := some output
          calls := []
          extractor := loading.wrapper.extractor.init
          extractorInitialized := true } := by
      simp [ChunkExtractorWrapper.init, waiting.initialized, interface]
    rw [started]
    refine ⟨⟨received, rfl, rfl, rfl, rfl⟩, ?_⟩
    simp [ChunkExtractorWrapper.registration, StreamParserExtractor.init, still,
      waiting.unregistered, waiting.unseen, waiting.unmapped]
  | true =>
    have sought : loading.wrapper.init (interface streamParser) output =
        { loading.wrapper with
          output := some output
          calls := []
          extractor := loading.wrapper.extractor.seek streamParser } := by
      simp [ChunkExtractorWrapper.init, waiting.initialized, interface]
    rw [sought]
    refine ⟨⟨reads.flushed _, rfl, waiting.connected rfl, rfl, waiting.initialized⟩, ?_⟩
    simp [ChunkExtractorWrapper.registration, StreamParserExtractor.seek,
      waiting.unregistered, waiting.unseen, waiting.unmapped]

theorem informs_not_sample {calls : List OutputCall} (informed : calls.all OutputCall.informs) :
    calls.any OutputCall.isSample = false := by
  rw [List.any_eq_false]
  intro call member
  have informs := List.all_eq_true.mp informed call member
  cases call <;> simp_all [OutputCall.informs, OutputCall.isSample]

/-- A load that gets past Open, started from byte 0. -/
theorem extract_serves {reads : ReadsSegment streamParser segment track} {content : Bytes}
    {opened : Bool} {loading : InitLoading (StreamParserExtractor Parser)}
    (waiting : Waiting reads content opened loading) (unloaded : loading.chunk.bytesLoaded = 0)
    (openSize : Int) (answers : List SourceAnswer) :
    ∃ wrapper bytesLoaded,
      loading.extract (interface streamParser) content (loading.chunk.dataSpec.getRemainder 0)
          openSize false answers =
        .ok
          { result := decide ((serve kReadBufferSize answers segment).2 = .endOfInput)
            request := loading.chunk.dataSpec.getRemainder 0
            state :=
              { chunk :=
                  { loading.chunk with
                    loadCanceled :=
                      decide ((serve kReadBufferSize answers segment).2 = .continueReading)
                    bytesLoaded }
                wrapper } } ∧
      ((serve kReadBufferSize answers segment).2 = .ioError → bytesLoaded = 0) ∧
      Receiving reads (serve kReadBufferSize answers segment).1.length wrapper ∧
      wrapper.registration =
        if reads.configured ≤ (serve kReadBufferSize answers segment).1.length then
          Registration.configure
            { seeking := opened, registered := false, seen := false, trackMap := [] }
        else { seeking := opened, registered := false, seen := false, trackMap := [] } := by
  obtain ⟨receiving, registration⟩ := init_receiving waiting loading.chunk.id
  let input : UnbufferedExtractorInput :=
    { remaining := (loading.chunk.dataSpec.getRemainder 0).range content
      position := (loading.chunk.dataSpec.getRemainder 0).absoluteStreamPosition
      length := openSize }
  have left : input.remaining = segment :=
    (DataSpec.range_getRemainder_zero _ _).trans waiting.range
  have unconfigured : 0 < reads.configured →
      (loading.wrapper.init (interface streamParser) loading.chunk.id).extractor.tracksRegistered =
          false ∧
        (loading.wrapper.init (interface streamParser) loading.chunk.id).seenTrack = false := by
    intro _
    exact ⟨congrArg Registration.registered registration, congrArg Registration.seen registration⟩
  obtain ⟨wrapper, last, looped, received, registered⟩ :=
    readWhileContinuing_receives answers receiving left unconfigured
  rw [left, Nat.zero_add] at received
  rw [left] at looped registered
  rw [registration] at registered
  refine ⟨wrapper, if (serve kReadBufferSize answers segment).2 = .ioError then 0
    else last.position - (loading.chunk.dataSpec.getRemainder 0).absoluteStreamPosition,
    ?_, ?_, received, ?_⟩
  · simp only [InitLoading.extract, unloaded, if_true, Bool.false_eq_true, if_false, looped, bind,
      Except.bind, informs_not_sample received.informed, Bool.false_or, input]
  · intro failed
    exact if_pos failed
  · rw [registered]
    by_cases complete : reads.configured ≤ (serve kReadBufferSize answers segment).1.length
    · rw [if_pos complete, if_pos ⟨reads.positive, by omega⟩]
    · rw [if_neg complete, if_neg]
      intro completes
      have := completes.2
      omega

theorem Receiving.waiting {reads : ReadsSegment streamParser segment track} {count : Nat}
    {content : Bytes} {loading : InitLoading (StreamParserExtractor Parser)} {seeking : Bool}
    (receiving : Receiving reads count loading.wrapper)
    (registration : loading.wrapper.registration =
      { seeking, registered := false, seen := false, trackMap := [] })
    (range : loading.chunk.dataSpec.range content = segment)
    (restarts : loading.chunk.loadCanceled = false → loading.chunk.bytesLoaded = 0) :
    Waiting reads content true loading where
  unregistered := congrArg Registration.registered registration
  unseen := congrArg Registration.seen registration
  unmapped := congrArg Registration.trackMap registration
  informed := receiving.informed
  initialized := receiving.initialized
  untouched := nofun
  connected := fun _ => receiving.extractorConnected
  range := range
  restarts := restarts
  unloaded := nofun

def LoadScript.StopsEarly (script : LoadScript) (reads : ReadsSegment streamParser segment track) :
    Prop :=
  script.openSize.isSome → script.canceled = false →
    (serve kReadBufferSize script.answers segment).2 ≠ .endOfInput ∧
      (serve kReadBufferSize script.answers segment).1.length < reads.configured

theorem extract_canceled {Extractor : Type} {extractor : ExtractorInterface Extractor}
    {loading : InitLoading Extractor} {wrapper : ChunkExtractorWrapper Extractor}
    (started : (if loading.chunk.bytesLoaded = 0 then
      loading.wrapper.init extractor loading.chunk.id else loading.wrapper) = wrapper)
    (informed : wrapper.calls.all OutputCall.informs) (content : Bytes) (request : DataSpec)
    (openSize : Int) (answers : List SourceAnswer) :
    loading.extract extractor content request openSize true answers =
      .ok
        { result := false
          request
          state :=
            { chunk := { loading.chunk with loadCanceled := true, bytesLoaded := 0 }
              wrapper } } := by
  simp [InitLoading.extract, started, ChunkExtractorWrapper.readWhileContinuing, bind, Except.bind,
    informs_not_sample informed]

theorem load_waits {reads : ReadsSegment streamParser segment track} {content : Bytes}
    {opened : Bool} {loading : InitLoading (StreamParserExtractor Parser)} {script : LoadScript}
    (waiting : Waiting reads content opened loading) (early : script.StopsEarly reads) :
    ∃ outcome, loading.load (interface streamParser) content script = .ok outcome ∧
      outcome.result = false ∧
      Waiting reads content (opened || script.openSize.isSome) outcome.state := by
  unfold InitLoading.load
  cases size : script.openSize with
  | none =>
    refine ⟨_, rfl, rfl, ?_⟩
    rw [Option.isSome_none, Bool.or_false]
    exact
      { waiting with
        restarts := fun running => waiting.restarts (Bool.or_eq_false_iff.mp running).1 }
  | some openSize =>
    rw [Option.isSome_some, Bool.or_true]
    obtain ⟨receiving, registration⟩ := init_receiving waiting loading.chunk.id
    cases canceled : loading.chunk.loadCanceled || script.canceled with
    | true =>
      by_cases unloaded : loading.chunk.bytesLoaded = 0
      · refine ⟨_, extract_canceled (if_pos unloaded) receiving.informed .., rfl, ?_⟩
        exact receiving.waiting registration waiting.range nofun
      · refine ⟨_, extract_canceled (if_neg unloaded) waiting.informed .., rfl, ?_⟩
        cases opened with
        | false => exact absurd (waiting.unloaded rfl) unloaded
        | true => exact { waiting with restarts := nofun, unloaded := nofun }
    | false =>
      obtain ⟨running, uncanceled⟩ := Bool.or_eq_false_iff.mp canceled
      have unloaded := waiting.restarts running
      obtain ⟨unfinished, short⟩ := early (by rw [size]; rfl) uncanceled
      obtain ⟨wrapper, bytesLoaded, extracted, failed, received, registered⟩ :=
        extract_serves waiting unloaded openSize script.answers
      rw [if_neg (by omega)] at registered
      rw [unloaded]
      refine ⟨_, extracted, decide_eq_false unfinished, ?_⟩
      refine Receiving.waiting received registered waiting.range ?_
      intro stopped
      have continued := of_decide_eq_false stopped
      cases ending : (serve kReadBufferSize script.answers segment).2 with
      | continueReading => exact absurd ending continued
      | endOfInput => exact absurd ending unfinished
      | seek => exact absurd ending (serve_ne_seek _ _ _)
      | ioError => exact failed ending

theorem load_completes {reads : ReadsSegment streamParser segment track} {content : Bytes}
    {opened : Bool} {loading : InitLoading (StreamParserExtractor Parser)} {script : LoadScript}
    (waiting : Waiting reads content opened loading) (running : loading.chunk.loadCanceled = false)
    (opens : script.openSize.isSome) (uncanceled : script.canceled = false)
    (complete : (serve kReadBufferSize script.answers segment).2 = .endOfInput) :
    ∃ outcome, loading.load (interface streamParser) content script = .ok outcome ∧
      outcome.result = true ∧
      outcome.state.wrapper.registration = Registration.configure
        { seeking := opened, registered := false, seen := false, trackMap := [] } := by
  obtain ⟨openSize, size⟩ := Option.isSome_iff_exists.mp opens
  have unloaded := waiting.restarts running
  obtain ⟨wrapper, bytesLoaded, extracted, _, _, registered⟩ :=
    extract_serves waiting unloaded openSize script.answers
  rw [serve_endOfInput complete, if_pos reads.inside] at registered
  have opened : loading.load (interface streamParser) content script =
      loading.extract (interface streamParser) content (loading.chunk.dataSpec.getRemainder 0)
        openSize false script.answers := by
    rw [InitLoading.load, size, unloaded, running, uncanceled]
    rfl
  exact ⟨_, opened.trans extracted, decide_eq_true complete, registered⟩

def InitAttempt.Requests (attempt : InitAttempt) (content segment : Bytes) : Prop :=
  ∀ fresh ∈ attempt.fresh, fresh.2.range content = segment

theorem Waiting.select {reads : ReadsSegment streamParser segment track} {content : Bytes}
    {opened : Bool} {loading : InitLoading (StreamParserExtractor Parser)}
    (waiting : Waiting reads content opened loading) {attempt : InitAttempt}
    (requests : attempt.Requests content segment) :
    Waiting reads content opened (loading.select attempt) := by
  unfold InitLoading.select
  cases chosen : attempt.fresh with
  | none => exact waiting
  | some fresh =>
    exact
      { waiting with
        range := requests fresh chosen
        restarts := fun _ => rfl
        unloaded := fun _ => rfl }

theorem loads_waits {reads : ReadsSegment streamParser segment track} {content : Bytes}
    {opened : Bool} {loading : InitLoading (StreamParserExtractor Parser)}
    {attempts : List InitAttempt} (waiting : Waiting reads content opened loading)
    (requests : ∀ attempt ∈ attempts, attempt.Requests content segment)
    (early : ∀ attempt ∈ attempts, attempt.script.StopsEarly reads) :
    ∃ middle, InitLoading.loads (interface streamParser) content attempts loading = .ok middle ∧
      Waiting reads content (opened || attempts.any (·.script.openSize.isSome)) middle := by
  induction attempts generalizing opened loading with
  | nil => exact ⟨loading, rfl, by simpa using waiting⟩
  | cons attempt attempts ih =>
    rw [List.forall_mem_cons] at requests early
    obtain ⟨outcome, loaded, _, later⟩ := load_waits (waiting.select requests.1) early.1
    obtain ⟨middle, ran, last⟩ := ih later requests.2 early.2
    refine ⟨middle, ?_, ?_⟩
    · rw [InitLoading.loads, loaded]
      exact ran
    · rwa [List.any_cons, ← Bool.or_assoc]

theorem loads_append {Extractor : Type} {extractor : ExtractorInterface Extractor} {content : Bytes}
    {loading middle : InitLoading Extractor} {attempts : List InitAttempt}
    (ran : InitLoading.loads extractor content attempts loading = .ok middle)
    (last : InitAttempt) :
    InitLoading.loads extractor content (attempts ++ [last]) loading =
      ((middle.select last).load extractor content last.script).map LoadOutcome.state := by
  induction attempts generalizing loading with
  | nil =>
    cases ran
    simp only [List.nil_append, InitLoading.loads, bind, Except.bind, Except.map]
  | cons attempt attempts ih =>
    obtain ⟨outcome, loaded, rest⟩ := bind_ok ran
    rw [List.cons_append, InitLoading.loads, loaded]
    exact ih rest

structure ChunkExtractorWrapper.TracksRegistered (wrapper : SegmentWrapper Parser) : Prop where
  registered : wrapper.extractor.tracksRegistered = true
  seen : wrapper.seenTrack = true
  tracks : wrapper.extractor.trackMap = [0]
  accepts : ∀ audio video, (wrapper.extractor.newBuffersF audio video []).1 = true

end Segment

/-- Once an initialization segment has been read completely, behind any loads that ended before its
configuration was parsed, its track is registered exactly if none of these loads got past Open. -/
theorem initializationChunk_registers_tracks {Parser : Type} {streamParser : StreamParser Parser}
    {segment content : Bytes} {track : MediaTrack}
    (reads : ReadsSegment streamParser segment track) (parser : Parser)
    (created : reads.received parser 0) (reverseFrames : Bool) (id : Nat) (dataSpec : DataSpec)
    (range : dataSpec.range content = segment) (earlier : List InitAttempt) (last : InitAttempt)
    (requests : ∀ attempt ∈ earlier ++ [last], attempt.Requests content segment)
    (early : ∀ attempt ∈ earlier, attempt.script.StopsEarly reads)
    (opens : last.script.openSize.isSome) (uncanceled : last.script.canceled = false)
    (complete : (serve kReadBufferSize last.script.answers segment).2 = .endOfInput)
    (running : ∀ middle,
      InitLoading.loads (StreamParserExtractor.interface streamParser) content earlier
          { chunk := { id, dataSpec }, wrapper := { extractor := { parser, reverseFrames } } } =
        .ok middle →
      (middle.select last).chunk.loadCanceled = false) :
    ∃ final,
      InitLoading.loads (StreamParserExtractor.interface streamParser) content (earlier ++ [last])
          { chunk := { id, dataSpec }, wrapper := { extractor := { parser, reverseFrames } } } =
        .ok final ∧
      (final.wrapper.TracksRegistered ↔
        ∀ attempt ∈ earlier, attempt.script.openSize = none) := by
  let start : InitLoading (StreamParserExtractor Parser) :=
    { chunk := { id, dataSpec }, wrapper := { extractor := { parser, reverseFrames } } }
  have waiting : Waiting reads content false start :=
    { unregistered := rfl
      unseen := rfl
      unmapped := rfl
      informed := rfl
      initialized := rfl
      untouched := fun _ => ⟨created, rfl⟩
      connected := nofun
      range
      restarts := fun _ => rfl
      unloaded := fun _ => rfl }
  rw [List.forall_mem_append] at requests
  obtain ⟨middle, ran, later⟩ := loads_waits waiting requests.1 early
  have selected := later.select (requests.2 last (by simp))
  obtain ⟨outcome, loaded, _, registered⟩ :=
    load_completes selected (running middle ran) opens uncanceled complete
  refine ⟨outcome.state, by rw [loads_append ran last, loaded]; rfl, ?_⟩
  rw [Bool.false_or] at registered
  have unopened : earlier.any (·.script.openSize.isSome) = false ↔
      ∀ attempt ∈ earlier, attempt.script.openSize = none := by
    simp
  rw [← unopened]
  cases opened : earlier.any (·.script.openSize.isSome) with
  | false =>
    rw [opened] at registered
    refine ⟨fun _ => rfl, fun _ => ⟨?_, ?_, ?_, ?_⟩⟩
    · exact congrArg Registration.registered registered
    · exact congrArg Registration.seen registered
    · exact congrArg Registration.trackMap registered
    · intro audio video
      have accepted : outcome.state.wrapper.extractor.tracksRegistered = true :=
        congrArg Registration.registered registered
      simp [StreamParserExtractor.newBuffersF, accepted]
  | true =>
    rw [opened] at registered
    have unregistered : outcome.state.wrapper.extractor.tracksRegistered = false :=
      congrArg Registration.registered registered
    refine ⟨fun tracks => ?_, nofun⟩
    exact absurd (tracks.registered.symm.trans unregistered) nofun

-- A parser of one box: it buffers until the box is complete and then runs its callbacks.
def boxParser (size : Nat) (track : MediaTrack) : StreamParser Bytes where
  parse buffered data :=
    (if buffered.length < size ∧ size ≤ buffered.length + data.length then
        [.newConfig [track], .initF 2000000]
      else [], true, buffered ++ data)
  refused _ := []
  flush _ := []

def boxParser_reads (segment : Bytes) (track : MediaTrack) (nonempty : 0 < segment.length) :
    ReadsSegment (boxParser segment.length track) segment track where
  received buffered count := buffered.length = count
  configured := segment.length
  positive := nonempty
  inside := Nat.le_refl _
  flushed _ := rfl
  parsed buffered count data received _ _ := by
    subst received
    refine ⟨[], if buffered.length < segment.length ∧ segment.length ≤ buffered.length + data.length
      then [.initF 2000000] else [], buffered ++ data, List.length_append, rfl, ?_, ?_⟩
    · split <;> rfl
    · by_cases complete :
        buffered.length < segment.length ∧ segment.length ≤ buffered.length + data.length <;>
        simp [boxParser, complete]

def movieBox : Bytes := [0, 0, 0, 8, 109, 111, 111, 118]

def videoTrack : MediaTrack where
  type := .video
  id := "1"
  language := "und"
  validConfig := true
  extraData := []

def movieSpec : DataSpec where
  uri := "init"
  absoluteStreamPosition := 0
  position := 0
  length := 8

def completeScript : LoadScript := { openSize := some 8, answers := [.deliver 5, .deliver 3, .deliver 1] }

def loadMovie (attempts : List InitAttempt) :
    Except Fault (InitLoading (StreamParserExtractor Bytes)) :=
  InitLoading.loads (StreamParserExtractor.interface (boxParser movieBox.length videoTrack)) movieBox
    attempts
    { chunk := { id := 0, dataSpec := movieSpec }
      wrapper := { extractor := { parser := [], reverseFrames := false } } }

def unopenedAttempt : InitAttempt := { fresh := none, script := { openSize := none } }

theorem initializationChunk_registers_after_failed_open :
    ∃ final,
      loadMovie ([unopenedAttempt] ++ [{ fresh := none, script := completeScript }]) = .ok final ∧
      (final.wrapper.TracksRegistered ↔
        ∀ attempt ∈ [unopenedAttempt], attempt.script.openSize = none) := by
  apply initializationChunk_registers_tracks (boxParser_reads movieBox videoTrack (by decide)) []
  · rfl
  · decide
  · intro attempt member fresh chosen
    simp only [List.cons_append, List.nil_append, List.mem_cons, List.not_mem_nil, or_false] at member
    rcases member with rfl | rfl <;> cases chosen
  · intro attempt member opens
    rw [List.mem_singleton.mp member] at opens
    cases opens
  · rfl
  · rfl
  · rfl
  · intro middle ran
    cases ran
    rfl

def interruptedAttempts : List InitAttempt :=
  [{ fresh := none, script := { openSize := some 8, answers := [.deliver 4, .fail] } },
    { fresh := none, script := completeScript }]

theorem interruptedAttempts_result :
    (loadMovie interruptedAttempts).map (·.wrapper.extractor.tracksRegistered) = .ok false :=
  rfl

theorem initializationChunk_skips_tracks :
    ∃ final, loadMovie interruptedAttempts = .ok final ∧ ¬ final.wrapper.TracksRegistered := by
  obtain ⟨final, ran, unregistered⟩ := map_ok interruptedAttempts_result
  refine ⟨final, ran, fun tracks => ?_⟩
  rw [tracks.registered] at unregistered
  cases unregistered

end NDash.Chunk
