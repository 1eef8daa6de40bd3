import NDash.Chunk.ChunkExtractorWrapper
import NDash.Extractor.StreamParserExtractor

set_option autoImplicit false

/-!
# Buffers across Inits

The Inits of a wrapper are counted, and every buffer is followed from the Init it is received under to
the one it is committed under.
-/

namespace NDash.Extractor

structure Commit where
  received : Nat
  committed : Nat
  buffer : StreamParserBuffer
deriving DecidableEq, Repr

-- `held` are the reversed buffers, each with the Init it was received under.
structure Provenance where
  inits : Nat := 0
  held : List (Nat × StreamParserBuffer) := []
  commits : List Commit := []
deriving DecidableEq, Repr

def OutputCall.metadata? : OutputCall → Option SampleMetadata
  | .writeSampleMetadata metadata => some metadata
  | _ => none

namespace Provenance

variable {Parser : Type}

def processBuffers (trackMap : List Nat) :
    List (Nat × StreamParserBuffer) → Provenance → Provenance
  | [], provenance => provenance
  | (received, buffer) :: buffers, provenance =>
    if buffer.endOfStream then provenance
    else if buffer.trackId ∉ trackMap then processBuffers trackMap buffers provenance
    else
      processBuffers trackMap buffers
        { provenance with
          commits := provenance.commits ++ [{ received, committed := provenance.inits, buffer }] }

def dumpBuffers (extractor : StreamParserExtractor Parser) (buffers : List StreamParserBuffer)
    (provenance : Provenance) : Provenance :=
  let received := buffers.map fun buffer => (provenance.inits, buffer)
  if extractor.reverseFrames then
    { provenance with held := received.reverse ++ provenance.held }
  else provenance.processBuffers extractor.trackMap received

def callback (extractor : StreamParserExtractor Parser) (provenance : Provenance) :
    ParserCallback → Provenance
  | .newBuffers audio video _ =>
    if !extractor.tracksRegistered then provenance
    else (provenance.dumpBuffers extractor audio).dumpBuffers (extractor.dumpBuffers audio).2 video
  | .endMediaSegment =>
    if extractor.reverseFrames && !extractor.reversedBuffers.isEmpty then
      { provenance.processBuffers extractor.trackMap provenance.held with held := [] }
    else provenance
  | _ => provenance

def runCallbacks : List ParserCallback → StreamParserExtractor Parser → Provenance → Provenance
  | [], _, provenance => provenance
  | next :: rest, extractor, provenance =>
    match extractor.callback next with
    | .ok (true, _, after) => runCallbacks rest after (provenance.callback extractor next)
    | _ => provenance.callback extractor next

def accept (streamParser : StreamParser Parser) (extractor : StreamParserExtractor Parser)
    (result : Upstream.ReadResult) (provenance : Provenance) : Provenance :=
  match result with
  | .bytes [] => provenance
  | .bytes data =>
    provenance.runCallbacks (streamParser.parse extractor.parser data).1 extractor
  | .endOfInput => provenance
  | .ioError => provenance

-- Every held buffer was received under the Init that is in force.
def Current (provenance : Provenance) : Prop :=
  ∀ held ∈ provenance.held, held.1 = provenance.inits

structure Advances (before : Provenance) (calls : List OutputCall) (after : Provenance) : Prop where
  inits : after.inits = before.inits
  commits : ∃ added, after.commits = before.commits ++ added ∧
    (∀ commit ∈ added, commit.committed = before.inits) ∧
    added.map (fun commit => StreamParserExtractor.metadataOf commit.buffer) =
      calls.filterMap OutputCall.metadata? ∧
    (before.Current → ∀ commit ∈ added, commit.received = before.inits)
  current : before.Current → after.Current

theorem Advances.refl {calls : List OutputCall}
    (silent : calls.filterMap OutputCall.metadata? = []) (provenance : Provenance) :
    Advances provenance calls provenance where
  inits := rfl
  commits := ⟨[], (List.append_nil _).symm, by simp, silent.symm, by simp⟩
  current := id

theorem Advances.trans {before middle after : Provenance} {calls later : List OutputCall}
    (first : Advances before calls middle) (second : Advances middle later after) :
    Advances before (calls ++ later) after where
  inits := second.inits.trans first.inits
  commits := by
    obtain ⟨added, longer, under, metadata, current⟩ := first.commits
    obtain ⟨more, longerToo, underToo, metadataToo, currentToo⟩ := second.commits
    rw [first.inits] at underToo currentToo
    refine ⟨added ++ more, ?_, ?_, ?_, ?_⟩
    · rw [longerToo, longer, List.append_assoc]
    · exact List.forall_mem_append.mpr ⟨under, underToo⟩
    · rw [List.map_append, metadata, metadataToo, List.filterMap_append]
    · intro fresh
      exact List.forall_mem_append.mpr ⟨current fresh, currentToo (first.current fresh)⟩
  current fresh := second.current (first.current fresh)

structure Processes (trackMap : List Nat) (buffers : List (Nat × StreamParserBuffer))
    (before after : Provenance) : Prop where
  inits : after.inits = before.inits
  held : after.held = before.held
  commits : ∃ added, after.commits = before.commits ++ added ∧
    (∀ commit ∈ added, commit.committed = before.inits) ∧
    added.map (fun commit => StreamParserExtractor.metadataOf commit.buffer) =
      (StreamParserExtractor.processBuffers trackMap (buffers.map Prod.snd)).filterMap
        OutputCall.metadata? ∧
    ∀ commit ∈ added, ∃ received ∈ buffers, commit.received = received.1

theorem processBuffers_processes (trackMap : List Nat) (buffers : List (Nat × StreamParserBuffer))
    (provenance : Provenance) :
    Processes trackMap buffers provenance (provenance.processBuffers trackMap buffers) := by
  induction buffers generalizing provenance with
  | nil => exact ⟨rfl, rfl, [], (List.append_nil _).symm, by simp, rfl, by simp⟩
  | cons labelled buffers ih =>
    obtain ⟨received, buffer⟩ := labelled
    rw [processBuffers]
    by_cases ended : buffer.endOfStream = true
    · rw [if_pos ended]
      refine ⟨rfl, rfl, [], (List.append_nil _).symm, by simp, ?_, by simp⟩
      rw [List.map_cons, StreamParserExtractor.processBuffers, if_pos ended]
      rfl
    by_cases known : buffer.trackId ∈ trackMap
    · rw [if_neg ended, if_neg (not_not.mpr known)]
      obtain ⟨inits, held, added, longer, under, metadata, among⟩ := ih
        { provenance with
          commits := provenance.commits ++ [{ received, committed := provenance.inits, buffer }] }
      refine ⟨inits, held, { received, committed := provenance.inits, buffer } :: added, ?_, ?_, ?_,
        ?_⟩
      · rw [longer, List.append_assoc, List.singleton_append]
      · exact List.forall_mem_cons.mpr ⟨rfl, under⟩
      · have written : ∀ data : Bytes, (if data.isEmpty then []
            else [OutputCall.writeSampleData data]).filterMap OutputCall.metadata? = [] := by
          intro data
          cases data <;> rfl
        rw [List.map_cons, metadata, List.map_cons, StreamParserExtractor.processBuffers,
          if_neg ended, if_neg (not_not.mpr known), List.filterMap_append, written]
        rfl
      · refine List.forall_mem_cons.mpr ⟨⟨_, List.mem_cons_self, rfl⟩, ?_⟩
        intro commit inside
        obtain ⟨origin, member, label⟩ := among commit inside
        exact ⟨origin, List.mem_cons_of_mem _ member, label⟩
    · rw [if_neg ended, if_pos known]
      obtain ⟨inits, held, added, longer, under, metadata, among⟩ := ih provenance
      refine ⟨inits, held, added, longer, under, ?_, ?_⟩
      · rw [metadata, List.map_cons, StreamParserExtractor.processBuffers, if_neg ended,
          if_pos known]
      · intro commit inside
        obtain ⟨origin, member, label⟩ := among commit inside
        exact ⟨origin, List.mem_cons_of_mem _ member, label⟩

theorem dumpBuffers_held {extractor : StreamParserExtractor Parser} {provenance : Provenance}
    (follows : provenance.held.map Prod.snd = extractor.reversedBuffers)
    (buffers : List StreamParserBuffer) :
    (provenance.dumpBuffers extractor buffers).held.map Prod.snd =
      (extractor.dumpBuffers buffers).2.reversedBuffers := by
  unfold dumpBuffers StreamParserExtractor.dumpBuffers
  cases direction : extractor.reverseFrames with
  | false =>
    rw [if_neg Bool.false_ne_true, if_neg Bool.false_ne_true,
      (processBuffers_processes _ _ provenance).held, follows]
  | true => simp [follows, Function.comp_def]

theorem dumpBuffers_advances (extractor : StreamParserExtractor Parser) (provenance : Provenance)
    (buffers : List StreamParserBuffer) :
    Advances provenance (extractor.dumpBuffers buffers).1
      (provenance.dumpBuffers extractor buffers) := by
  unfold dumpBuffers StreamParserExtractor.dumpBuffers
  have labelled : ∀ received ∈ buffers.map fun buffer => (provenance.inits, buffer),
      received.1 = provenance.inits := by simp
  cases direction : extractor.reverseFrames with
  | false =>
    rw [if_neg Bool.false_ne_true, if_neg Bool.false_ne_true]
    obtain ⟨inits, held, added, longer, under, metadata, among⟩ := processBuffers_processes
      extractor.trackMap (buffers.map fun buffer => (provenance.inits, buffer)) provenance
    rw [List.map_map] at metadata
    refine ⟨inits, ⟨added, longer, under, ?_, ?_⟩, ?_⟩
    · simpa [Function.comp_def] using metadata
    · intro _ commit inside
      obtain ⟨received, member, label⟩ := among commit inside
      rw [label, labelled received member]
    · intro current entry inside
      rw [held] at inside
      rw [inits, current entry inside]
  | true =>
    rw [if_pos rfl, if_pos rfl]
    refine ⟨rfl, ⟨[], (List.append_nil _).symm, by simp, rfl, by simp⟩, ?_⟩
    intro current entry inside
    rcases List.mem_append.mp inside with new | old
    · exact labelled entry (List.mem_reverse.mp new)
    · exact current entry old

theorem register_silent (durationUs : Int) (mediaTracks : List MediaTrack) :
    ((mediaTracks.zipIdx.flatMap fun (track, trackId) =>
      StreamParserExtractor.registerCalls durationUs trackId track) ++
        [OutputCall.doneRegisteringTracks]).filterMap OutputCall.metadata? = [] := by
  rw [List.filterMap_eq_nil_iff]
  intro call inside
  rcases List.mem_append.mp inside with registers | done
  · obtain ⟨⟨track, trackId⟩, _, registers⟩ := List.mem_flatMap.mp registers
    cases call with
    | writeSampleMetadata metadata =>
      unfold StreamParserExtractor.registerCalls at registers
      cases kind : track.type <;> cases valid : track.validConfig <;>
        simp [kind, valid] at registers
    | _ => rfl
  · rw [List.mem_singleton.mp done]
    rfl

theorem callback_follows {extractor next : StreamParserExtractor Parser} {provenance : Provenance}
    (follows : provenance.held.map Prod.snd = extractor.reversedBuffers) {received : ParserCallback}
    {accepted : Bool} {calls : List OutputCall}
    (answered : extractor.callback received = .ok (accepted, calls, next)) :
    (provenance.callback extractor received).held.map Prod.snd = next.reversedBuffers ∧
      Advances provenance calls (provenance.callback extractor received) := by
  cases received with
  | initF durationUs =>
    cases answered
    exact ⟨follows, .refl rfl provenance⟩
  | newConfig mediaTracks =>
    simp only [StreamParserExtractor.callback, StreamParserExtractor.newConfigF] at answered
    split at answered
    · cases answered
      exact ⟨follows, .refl rfl provenance⟩
    split at answered
    · cases answered
      exact ⟨follows, .refl rfl provenance⟩
    · cases answered
      exact ⟨follows, .refl (register_silent _ _) provenance⟩
  | newBuffers audio video text =>
    simp only [StreamParserExtractor.callback, StreamParserExtractor.newBuffersF] at answered
    by_cases early : (!extractor.tracksRegistered) = true
    · rw [if_pos early] at answered
      cases answered
      rw [callback, if_pos early]
      exact ⟨follows, .refl rfl provenance⟩
    · rw [if_neg early] at answered
      cases answered
      rw [callback, if_neg early]
      exact ⟨dumpBuffers_held (dumpBuffers_held follows audio) video,
        (dumpBuffers_advances extractor provenance audio).trans (dumpBuffers_advances _ _ video)⟩
  | encryptedMediaInitData dataType initData =>
    cases answered
    exact ⟨follows, .refl rfl provenance⟩
  | newMediaSegment =>
    cases answered
    exact ⟨follows, .refl rfl provenance⟩
  | endMediaSegment =>
    simp only [StreamParserExtractor.callback, StreamParserExtractor.endMediaSegmentF] at answered
    by_cases ends : (extractor.reverseFrames && !extractor.reversedBuffers.isEmpty) = true
    · rw [if_pos ends] at answered
      cases answered
      rw [callback, if_pos ends]
      obtain ⟨inits, held, added, longer, under, metadata, among⟩ :=
        processBuffers_processes extractor.trackMap provenance.held provenance
      rw [follows] at metadata
      refine ⟨rfl, inits, ⟨added, longer, under, metadata, ?_⟩, ?_⟩
      · intro current commit inside
        obtain ⟨origin, member, label⟩ := among commit inside
        rw [label, current origin member]
      · intro _ entry inside
        cases inside
    · rw [if_neg ends] at answered
      cases answered
      rw [callback, if_neg ends]
      exact ⟨follows, .refl rfl provenance⟩
  | newSidx sizes offsets durationsUs timesUs =>
    obtain ⟨sidx, indexed, answered⟩ := bind_ok answered
    obtain ⟨seekMap, _, indexed⟩ := bind_ok indexed
    cases indexed
    cases answered
    exact ⟨follows, .refl rfl provenance⟩

theorem runCallbacks_follows {callbacks : List ParserCallback}
    {extractor next : StreamParserExtractor Parser} {provenance : Provenance}
    (follows : provenance.held.map Prod.snd = extractor.reversedBuffers) {accepted : Bool}
    {calls : List OutputCall}
    (ran : StreamParserExtractor.runCallbacks callbacks extractor = .ok (accepted, calls, next)) :
    (provenance.runCallbacks callbacks extractor).held.map Prod.snd = next.reversedBuffers ∧
      Advances provenance calls (provenance.runCallbacks callbacks extractor) := by
  induction callbacks generalizing extractor provenance calls with
  | nil =>
    cases ran
    exact ⟨follows, .refl rfl provenance⟩
  | cons received callbacks ih =>
    obtain ⟨⟨agreed, early, middle⟩, answered, rest⟩ := bind_ok ran
    obtain ⟨held, advances⟩ := callback_follows follows answered
    dsimp only at rest
    split at rest
    · cases rest
    cases agreed with
    | false =>
      cases rest
      rw [runCallbacks, answered]
      exact ⟨held, advances⟩
    | true =>
      obtain ⟨⟨_, more, last⟩, continued, finished⟩ := bind_ok rest
      cases finished
      rw [runCallbacks, answered]
      obtain ⟨heldToo, advancesToo⟩ := ih held continued
      exact ⟨heldToo, advances.trans advancesToo⟩

theorem accept_follows {streamParser : StreamParser Parser}
    {extractor next : StreamParserExtractor Parser} {provenance : Provenance}
    (follows : provenance.held.map Prod.snd = extractor.reversedBuffers)
    {result : Upstream.ReadResult} {outcome : ExtractorResult} {calls : List OutputCall}
    (accepted : extractor.accept streamParser result = .ok (outcome, calls, next)) :
    (provenance.accept streamParser extractor result).held.map Prod.snd = next.reversedBuffers ∧
      Advances provenance calls (provenance.accept streamParser extractor result) := by
  cases result with
  | endOfInput =>
    cases accepted
    exact ⟨follows, .refl rfl provenance⟩
  | ioError =>
    cases accepted
    exact ⟨follows, .refl rfl provenance⟩
  | bytes data =>
    cases data with
    | nil =>
      cases accepted
      exact ⟨follows, .refl rfl provenance⟩
    | cons byte data =>
      obtain ⟨⟨_, made, parsed⟩, ran, finished⟩ := bind_ok accepted
      cases finished
      obtain ⟨⟨_, _, last⟩, looped, finished⟩ := bind_ok ran
      cases finished
      have followed := runCallbacks_follows follows looped
      exact followed

end Provenance

namespace StreamParserExtractor

variable {Parser : Type}

structure Forward (extractor : StreamParserExtractor Parser) : Prop where
  direction : extractor.reverseFrames = false
  held : extractor.reversedBuffers = []

theorem Forward.dumpBuffers {extractor : StreamParserExtractor Parser} (forward : extractor.Forward)
    (buffers : List StreamParserBuffer) : (extractor.dumpBuffers buffers).2 = extractor := by
  simp [StreamParserExtractor.dumpBuffers, forward.direction]

theorem Forward.callback {extractor next : StreamParserExtractor Parser}
    (forward : extractor.Forward) {received : ParserCallback} {accepted : Bool}
    {calls : List OutputCall}
    (answered : extractor.callback received = .ok (accepted, calls, next)) : next.Forward := by
  cases received with
  | newBuffers audio video text =>
    simp only [StreamParserExtractor.callback, newBuffersF, forward.dumpBuffers] at answered
    split at answered <;> cases answered <;> exact forward
  | endMediaSegment =>
    simp only [StreamParserExtractor.callback, endMediaSegmentF, forward.direction, Bool.false_and,
      Bool.false_eq_true, if_false] at answered
    cases answered
    exact forward
  | newConfig mediaTracks =>
    simp only [StreamParserExtractor.callback, newConfigF] at answered
    split at answered
    · cases answered
      exact ⟨forward.direction, forward.held⟩
    split at answered <;> cases answered <;> exact ⟨forward.direction, forward.held⟩
  | newSidx sizes offsets durationsUs timesUs =>
    obtain ⟨_, _, answered⟩ := bind_ok answered
    cases answered
    exact forward
  | initF durationUs =>
    cases answered
    exact ⟨forward.direction, forward.held⟩
  | encryptedMediaInitData dataType initData =>
    cases answered
    exact forward
  | newMediaSegment =>
    cases answered
    exact forward

theorem Forward.runCallbacks {callbacks : List ParserCallback}
    {extractor next : StreamParserExtractor Parser} (forward : extractor.Forward) {accepted : Bool}
    {calls : List OutputCall}
    (ran : StreamParserExtractor.runCallbacks callbacks extractor = .ok (accepted, calls, next)) :
    next.Forward := by
  induction callbacks generalizing extractor calls with
  | nil =>
    cases ran
    exact forward
  | cons received callbacks ih =>
    obtain ⟨⟨agreed, early, middle⟩, answered, rest⟩ := bind_ok ran
    dsimp only at rest
    split at rest
    · cases rest
    split at rest
    · cases rest
      exact forward.callback answered
    · obtain ⟨⟨_, more, last⟩, continued, finished⟩ := bind_ok rest
      cases finished
      exact ih (forward.callback answered) continued

theorem Forward.accept {streamParser : StreamParser Parser}
    {extractor next : StreamParserExtractor Parser} (forward : extractor.Forward)
    {result : Upstream.ReadResult} {outcome : ExtractorResult} {calls : List OutputCall}
    (accepted : extractor.accept streamParser result = .ok (outcome, calls, next)) :
    next.Forward := by
  cases result with
  | endOfInput =>
    cases accepted
    exact forward
  | ioError =>
    cases accepted
    exact forward
  | bytes data =>
    cases data with
    | nil =>
      cases accepted
      exact forward
    | cons byte data =>
      obtain ⟨⟨_, made, parsed⟩, ran, finished⟩ := bind_ok accepted
      cases finished
      obtain ⟨⟨_, _, last⟩, looped, finished⟩ := bind_ok ran
      cases finished
      have kept := forward.runCallbacks looped
      exact ⟨kept.direction, kept.held⟩

end StreamParserExtractor

end NDash.Extractor

namespace NDash.Chunk

open Upstream Extractor

namespace ChunkExtractorWrapper

-- What a chunk does with its wrapper; a load that is abandoned just reads no more.
inductive LoadOp
  | init (output : Nat)
  | read (result : Upstream.ReadResult)
deriving DecidableEq, Repr

structure Followed (Parser : Type) where
  wrapper : ChunkExtractorWrapper (StreamParserExtractor Parser)
  provenance : Provenance

variable {Parser : Type} (streamParser : StreamParser Parser)

def Followed.step (state : Followed Parser) : LoadOp → Except Fault (Followed Parser)
  | .init output =>
    .ok { wrapper := state.wrapper.init (StreamParserExtractor.interface streamParser) output
          provenance := { state.provenance with inits := state.provenance.inits + 1 } }
  | .read result => do
    let (_, wrapper) ← state.wrapper.read (StreamParserExtractor.interface streamParser) result
    .ok { wrapper
          provenance := state.provenance.accept streamParser state.wrapper.extractor result }

def Followed.run : List LoadOp → Followed Parser → Except Fault (Followed Parser)
  | [], state => .ok state
  | op :: ops, state => do
    let state ← state.step streamParser op
    run ops state

def Followed.start (parser : Parser) (reverseFrames : Bool) : Followed Parser where
  wrapper := { extractor := { parser, reverseFrames } }
  provenance := {}

def Followed.cleanAt (state : Followed Parser) : LoadOp → Bool
  | .init _ => state.wrapper.extractor.reversedBuffers.isEmpty
  | .read _ => true

def Followed.initsClean : List LoadOp → Followed Parser → Bool
  | [], _ => true
  | op :: ops, state =>
    state.cleanAt op &&
      match state.step streamParser op with
      | .ok next => initsClean ops next
      | .error _ => true

structure Followed.Traced (state : Followed Parser) : Prop where
  held : state.provenance.held.map Prod.snd = state.wrapper.extractor.reversedBuffers
  past : ∀ commit ∈ state.provenance.commits, commit.committed ≤ state.provenance.inits
  calls : (state.provenance.commits.filter fun commit =>
      commit.committed = state.provenance.inits).map
        (fun commit => StreamParserExtractor.metadataOf commit.buffer) =
    state.wrapper.calls.filterMap OutputCall.metadata?

structure Followed.Own (state : Followed Parser) : Prop where
  held : state.provenance.Current
  commits : ∀ commit ∈ state.provenance.commits, commit.received = commit.committed

variable {streamParser}

theorem perform_metadata {Extractor : Type} {call : OutputCall}
    {wrapper next : ChunkExtractorWrapper Extractor} (performed : wrapper.perform call = .ok next) :
    next.extractor = wrapper.extractor ∧
      next.calls.filterMap OutputCall.metadata? =
        wrapper.calls.filterMap OutputCall.metadata? ++ [call].filterMap OutputCall.metadata? := by
  have forwarded : ∀ {call}, wrapper.forward call = .ok next → next.extractor = wrapper.extractor ∧
      next.calls.filterMap OutputCall.metadata? =
        wrapper.calls.filterMap OutputCall.metadata? ++ [call].filterMap OutputCall.metadata? := by
    intro call performed
    unfold forward at performed
    split at performed
    · cases performed
    · cases performed
      exact ⟨rfl, List.filterMap_append⟩
  cases call with
  | registerTrack id =>
    simp only [perform, registerTrack] at performed
    split at performed <;> cases performed
    exact ⟨rfl, (List.append_nil _).symm⟩
  | doneRegisteringTracks =>
    simp only [perform, doneRegisteringTracks] at performed
    split at performed <;> cases performed
    exact ⟨rfl, (List.append_nil _).symm⟩
  | _ => exact forwarded performed

theorem performAll_metadata {Extractor : Type} {calls : List OutputCall}
    {wrapper next : ChunkExtractorWrapper Extractor}
    (performed : performAll calls wrapper = .ok next) :
    next.extractor = wrapper.extractor ∧
      next.calls.filterMap OutputCall.metadata? =
        wrapper.calls.filterMap OutputCall.metadata? ++ calls.filterMap OutputCall.metadata? := by
  induction calls generalizing wrapper with
  | nil =>
    cases performed
    exact ⟨rfl, (List.append_nil _).symm⟩
  | cons call calls ih =>
    obtain ⟨middle, first, rest⟩ := bind_ok performed
    obtain ⟨kept, metadata⟩ := perform_metadata first
    obtain ⟨keptToo, metadataToo⟩ := ih rest
    refine ⟨keptToo.trans kept, ?_⟩
    rw [metadataToo, metadata, List.append_assoc, ← List.filterMap_append, List.singleton_append]

theorem step_read {state next : Followed Parser} {result : Upstream.ReadResult}
    (stepped : state.step streamParser (.read result) = .ok next) :
    ∃ outcome calls extractor,
      state.wrapper.extractor.accept streamParser result = .ok (outcome, calls, extractor) ∧
      next.provenance = state.provenance.accept streamParser state.wrapper.extractor result ∧
      next.wrapper.extractor = extractor ∧
      next.wrapper.calls.filterMap OutputCall.metadata? =
        state.wrapper.calls.filterMap OutputCall.metadata? ++
          calls.filterMap OutputCall.metadata? := by
  obtain ⟨⟨_, wrapper⟩, ran, finished⟩ := bind_ok stepped
  cases finished
  obtain ⟨⟨_, calls, extractor⟩, accepted, ran⟩ := bind_ok ran
  obtain ⟨last, performed, ran⟩ := bind_ok ran
  split at ran
  · cases ran
  cases ran
  obtain ⟨kept, metadata⟩ := performAll_metadata performed
  exact ⟨_, calls, extractor, accepted, rfl, kept, metadata⟩

theorem read_follows {state next : Followed Parser} {result : Upstream.ReadResult}
    (traced : state.Traced)
    (stepped : state.step streamParser (.read result) = .ok next) :
    ∃ calls, Provenance.Advances state.provenance calls next.provenance ∧
      next.provenance.held.map Prod.snd = next.wrapper.extractor.reversedBuffers ∧
      next.wrapper.calls.filterMap OutputCall.metadata? =
        state.wrapper.calls.filterMap OutputCall.metadata? ++
          calls.filterMap OutputCall.metadata? := by
  obtain ⟨outcome, calls, extractor, accepted, provenance, kept, metadata⟩ := step_read stepped
  obtain ⟨held, advances⟩ := Provenance.accept_follows traced.held accepted
  rw [← provenance] at held advances
  refine ⟨calls, advances, ?_, metadata⟩
  rw [held, kept]

theorem step_traced {state next : Followed Parser} {op : LoadOp} (traced : state.Traced)
    (stepped : state.step streamParser op = .ok next) : next.Traced := by
  cases op with
  | init output =>
    cases stepped
    refine ⟨?_, ?_, ?_⟩
    · rw [traced.held]
      unfold init
      dsimp only
      split <;> rfl
    · intro commit inside
      exact (traced.past commit inside).trans (Nat.le_succ _)
    · have none : state.provenance.commits.filter (fun commit =>
          commit.committed = state.provenance.inits + 1) = [] := by
        rw [List.filter_eq_nil_iff]
        intro commit inside
        have past := traced.past commit inside
        simp only [decide_eq_true_eq]
        omega
      rw [none]
      unfold init
      dsimp only
      split <;> rfl
  | read result =>
    obtain ⟨calls, advances, held, metadata⟩ := read_follows traced stepped
    obtain ⟨added, longer, under, committed, _⟩ := advances.commits
    refine ⟨held, ?_, ?_⟩
    · rw [longer, advances.inits]
      refine List.forall_mem_append.mpr ⟨traced.past, ?_⟩
      intro commit inside
      exact (under commit inside).le
    · have all : added.filter (fun commit => commit.committed = state.provenance.inits) = added := by
        rw [List.filter_eq_self]
        intro commit inside
        exact decide_eq_true (under commit inside)
      rw [longer, advances.inits, List.filter_append, List.map_append, traced.calls, all, committed,
        metadata]

theorem step_own {state next : Followed Parser} {op : LoadOp} (traced : state.Traced)
    (own : state.Own) (stepped : state.step streamParser op = .ok next)
    (clean : state.cleanAt op = true) : next.Own := by
  cases op with
  | init output =>
    cases stepped
    have nothing : state.provenance.held = [] := by
      rw [← List.map_eq_nil_iff, traced.held]
      exact List.isEmpty_iff.mp clean
    refine ⟨?_, own.commits⟩
    intro entry inside
    rw [nothing] at inside
    cases inside
  | read result =>
    obtain ⟨calls, advances, _, _⟩ := read_follows traced stepped
    obtain ⟨added, longer, under, _, received⟩ := advances.commits
    refine ⟨advances.current own.held, ?_⟩
    rw [longer]
    refine List.forall_mem_append.mpr ⟨own.commits, ?_⟩
    intro commit inside
    rw [received own.held commit inside, under commit inside]

theorem run_own {ops : List LoadOp} {state last : Followed Parser} (traced : state.Traced)
    (own : state.Own) (clean : state.initsClean streamParser ops = true)
    (ran : state.run streamParser ops = .ok last) : last.Own := by
  induction ops generalizing state with
  | nil =>
    cases ran
    exact own
  | cons op ops ih =>
    obtain ⟨next, stepped, rest⟩ := bind_ok ran
    rw [Followed.initsClean, stepped, Bool.and_eq_true] at clean
    exact ih (step_traced traced stepped) (step_own traced own stepped clean.1) clean.2 rest

theorem step_forward {state next : Followed Parser} {op : LoadOp}
    (forward : state.wrapper.extractor.Forward)
    (stepped : state.step streamParser op = .ok next) : next.wrapper.extractor.Forward := by
  cases op with
  | init output =>
    cases stepped
    unfold init
    dsimp only
    split <;> exact ⟨forward.direction, forward.held⟩
  | read result =>
    obtain ⟨outcome, calls, extractor, accepted, -, kept, -⟩ := step_read stepped
    rw [kept]
    exact forward.accept accepted

theorem initsClean_forward (ops : List LoadOp) {state : Followed Parser}
    (forward : state.wrapper.extractor.Forward) :
    state.initsClean streamParser ops = true := by
  induction ops generalizing state with
  | nil => rfl
  | cons op ops ih =>
    have here : state.cleanAt op = true := by
      cases op with
      | init output => exact List.isEmpty_iff.mpr forward.held
      | read result => rfl
    rw [Followed.initsClean, here, Bool.true_and]
    cases stepped : state.step streamParser op with
    | error fault => rfl
    | ok next => exact ih (step_forward forward stepped)

theorem start_traced (parser : Parser) (reverseFrames : Bool) :
    (Followed.start parser reverseFrames).Traced := ⟨rfl, by simp [Followed.start], rfl⟩

theorem start_own (parser : Parser) (reverseFrames : Bool) :
    (Followed.start parser reverseFrames).Own :=
  ⟨by simp [Followed.start, Provenance.Current], by simp [Followed.start]⟩

/-- Loads that are abandoned leave nothing to a later Init, unless they are abandoned in the middle of
a segment whose frames are reversed. -/
theorem run_commits_received {parser : Parser} {reverseFrames : Bool} {ops : List LoadOp}
    {last : Followed Parser}
    (clean : reverseFrames = true →
      (Followed.start parser reverseFrames).initsClean streamParser ops = true)
    (ran : (Followed.start parser reverseFrames).run streamParser ops = .ok last) :
    ∀ commit ∈ last.provenance.commits, commit.received = commit.committed := by
  have everyClean : (Followed.start parser reverseFrames).initsClean streamParser ops = true := by
    cases reverseFrames with
    | false => exact initsClean_forward ops ⟨rfl, rfl⟩
    | true => exact clean rfl
  exact (run_own (start_traced parser reverseFrames) (start_own parser reverseFrames) everyClean
    ran).commits

-- A parser whose bytes are its callbacks: 0 is a configuration, 255 the end of a segment and any other
-- byte a frame.
def frame (byte : UInt8) : StreamParserBuffer where
  endOfStream := false
  trackId := 0
  data := [byte]
  timestampUs := byte.toNat
  durationUs := 1
  isKeyFrame := true
  decryptConfig := none

def track : MediaTrack where
  type := .video
  id := "1"
  language := "und"
  validConfig := true
  extraData := []

def callbacksOf (byte : UInt8) : List ParserCallback :=
  if byte = 0 then [.initF 0, .newConfig [track]]
  else if byte = 255 then [.endMediaSegment]
  else [.newBuffers [] [frame byte] []]

def byteParser : StreamParser Unit where
  parse _ data := (data.flatMap callbacksOf, true, ())
  refused := id
  flush := id

-- The first load is abandoned before its segment ends.
def abandoned : List LoadOp :=
  [.init 0, .read (.bytes [0, 1]), .init 1, .read (.bytes [2, 255])]

def finished : List LoadOp :=
  [.init 0, .read (.bytes [0, 1, 255]), .init 1, .read (.bytes [2, 255])]

theorem run_commits_received_finished :
    (Followed.start () true).initsClean byteParser finished = true ∧
      ∃ last, (Followed.start () true).run byteParser finished = .ok last ∧
        last.provenance.commits.length = 2 ∧
        ∀ commit ∈ last.provenance.commits, commit.received = commit.committed := by
  have clean : (Followed.start () true).initsClean byteParser finished = true := by decide +kernel
  have counted : ((Followed.start () true).run byteParser finished).map
      (fun last => last.provenance.commits.length) = .ok 2 := by decide +kernel
  cases ran : (Followed.start () true).run byteParser finished with
  | error fault =>
    rw [ran] at counted
    cases counted
  | ok last =>
    rw [ran] at counted
    exact ⟨clean, last, rfl, Except.ok.inj counted, run_commits_received (fun _ => clean) ran⟩

-- The frame of the first Init is committed to the output of the second one.
theorem run_commits_abandoned :
    ¬ ∀ (reverseFrames : Bool) (ops : List LoadOp) (last : Followed Unit),
      (Followed.start () reverseFrames).run byteParser ops = .ok last →
        ∀ commit ∈ last.provenance.commits, commit.received = commit.committed := by
  intro received
  have commits : ((Followed.start () true).run byteParser abandoned).map
      (fun last => last.provenance.commits) =
        .ok [⟨2, 2, frame 2⟩, ⟨1, 2, frame 1⟩] := by decide +kernel
  cases ran : (Followed.start () true).run byteParser abandoned with
  | error fault =>
    rw [ran] at commits
    cases commits
  | ok last =>
    rw [ran] at commits
    have committed : (⟨1, 2, frame 1⟩ : Commit) ∈ last.provenance.commits := by
      have found : last.provenance.commits = [⟨2, 2, frame 2⟩, ⟨1, 2, frame 1⟩] :=
        Except.ok.inj commits
      rw [found]
      simp
    have same := received true abandoned last ran _ committed
    cases same

end ChunkExtractorWrapper

end NDash.Chunk
