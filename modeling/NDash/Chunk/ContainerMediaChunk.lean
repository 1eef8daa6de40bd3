import NDash.Chunk.ChunkExtractorWrapper
import NDash.Extractor.StreamParserExtractor

set_option autoImplicit false

namespace NDash.Chunk

open Upstream Extractor

structure ContainerMediaChunk where
  id : Nat
  dataSpec : DataSpec
  bytesLoaded : Int := 0
  loadCanceled : Bool := false
deriving DecidableEq, Repr

structure MediaLoading (Extractor : Type) where
  chunk : ContainerMediaChunk
  wrapper : ChunkExtractorWrapper Extractor
  delivered : Bytes := []

namespace ContainerMediaChunk

def isLoadCanceled (chunk : ContainerMediaChunk) : Bool := chunk.loadCanceled

def cancelLoad (chunk : ContainerMediaChunk) : ContainerMediaChunk :=
  { chunk with loadCanceled := true }

end ContainerMediaChunk

namespace MediaLoading

variable {Extractor : Type} (interface : ExtractorInterface Extractor) (content : Bytes)

def extract (loading : MediaLoading Extractor) (request : DataSpec) (openSize : Int)
    (answers : List SourceAnswer) : Except Fault (LoadOutcome (MediaLoading Extractor)) := do
  let input : UnbufferedExtractorInput :=
    { remaining := request.range content
      position := request.absoluteStreamPosition
      length := openSize }
  let wrapper :=
    if loading.chunk.bytesLoaded = 0 then loading.wrapper.init interface loading.chunk.id
    else loading.wrapper
  let (result, wrapper, input) ← wrapper.readWhileContinuing interface answers input
  .ok
    { result := decide (result = .endOfInput)
      request
      state :=
        { chunk :=
            { loading.chunk with
              -- The loop is left with RESULT_CONTINUE only after CancelLoad.
              loadCanceled := decide (result = .continueReading)
              bytesLoaded := input.position - request.absoluteStreamPosition }
          wrapper
          delivered := loading.delivered ++ input.delivered } }

def load (loading : MediaLoading Extractor) (script : LoadScript) :
    Except Fault (LoadOutcome (MediaLoading Extractor)) :=
  let request := loading.chunk.dataSpec.getRemainder loading.chunk.bytesLoaded
  if loading.chunk.isLoadCanceled || script.canceled then
    .ok
      { result := false
        request
        state := { loading with chunk := loading.chunk.cancelLoad } }
  else
    match script.openSize with
    | none => .ok { result := false, request, state := loading }
    | some openSize => loading.extract interface content request openSize script.answers

end MediaLoading

structure LoadAttempt (State : Type) where
  before : State
  script : LoadScript
  outcome : LoadOutcome State

def LoadScript.opens (script : LoadScript) (chunk : ContainerMediaChunk) : Bool :=
  !(chunk.isLoadCanceled || script.canceled) && script.openSize.isSome

namespace MediaLoading

variable {Extractor : Type} (interface : ExtractorInterface Extractor) (content : Bytes)

def loads : List LoadScript → MediaLoading Extractor →
    Except Fault (List (LoadAttempt (MediaLoading Extractor)))
  | [], _ => .ok []
  | script :: scripts, loading => do
    let outcome ← loading.load interface content script
    let later ← loads scripts outcome.state
    .ok ({ before := loading, script, outcome } :: later)

structure Resumable (loading : MediaLoading Extractor) : Prop where
  served : loading.delivered <+: loading.chunk.dataSpec.range content
  counted : loading.chunk.bytesLoaded = loading.delivered.length

-- What one Load does to the count and to the bytes passed on.
structure Loads (loading : MediaLoading Extractor) (script : LoadScript)
    (outcome : LoadOutcome (MediaLoading Extractor)) : Prop where
  request : outcome.request = loading.chunk.dataSpec.getRemainder loading.chunk.bytesLoaded
  dataSpec : outcome.state.chunk.dataSpec = loading.chunk.dataSpec
  closed : script.opens loading.chunk = false →
    outcome.state.delivered = loading.delivered ∧
      outcome.state.chunk.bytesLoaded = loading.chunk.bytesLoaded
  opened : script.opens loading.chunk = true →
    ∃ given, given <+: outcome.request.range content ∧
      outcome.state.delivered = loading.delivered ++ given ∧
      outcome.state.chunk.bytesLoaded = given.length

variable {interface content}

theorem extract_delivers {loading : MediaLoading Extractor} {request : DataSpec} {openSize : Int}
    {answers : List SourceAnswer} {outcome : LoadOutcome (MediaLoading Extractor)}
    (extracted : loading.extract interface content request openSize answers = .ok outcome) :
    outcome.request = request ∧ outcome.state.chunk.dataSpec = loading.chunk.dataSpec ∧
      ∃ given, given <+: request.range content ∧
        outcome.state.delivered = loading.delivered ++ given ∧
        outcome.state.chunk.bytesLoaded = given.length := by
  obtain ⟨⟨result, wrapper, input⟩, looped, rest⟩ := bind_ok extracted
  obtain ⟨conserved, counted⟩ := ChunkExtractorWrapper.readWhileContinuing_input looped
  cases rest
  refine ⟨rfl, rfl, input.delivered, ⟨input.remaining, conserved⟩, rfl, ?_⟩
  simp only [List.length_nil] at counted
  dsimp only
  omega

theorem load_loads {loading : MediaLoading Extractor} {script : LoadScript}
    {outcome : LoadOutcome (MediaLoading Extractor)}
    (loaded : loading.load interface content script = .ok outcome) :
    loading.Loads content script outcome := by
  unfold load at loaded
  by_cases canceled : (loading.chunk.isLoadCanceled || script.canceled) = true
  · have closed : script.opens loading.chunk = false := by
      rw [LoadScript.opens, canceled]
      rfl
    rw [if_pos canceled] at loaded
    cases loaded
    exact
      { request := rfl
        dataSpec := rfl
        closed := fun _ => ⟨rfl, rfl⟩
        opened := fun opened => absurd opened (by simp [closed]) }
  · rw [if_neg canceled] at loaded
    cases size : script.openSize with
    | none =>
      rw [size] at loaded
      cases loaded
      exact
        { request := rfl
          dataSpec := rfl
          closed := fun _ => ⟨rfl, rfl⟩
          opened := fun opened => absurd opened (by simp [LoadScript.opens, size]) }
    | some openSize =>
      rw [size] at loaded
      obtain ⟨request, dataSpec, delivers⟩ := extract_delivers loaded
      have opens : script.opens loading.chunk = true := by
        rw [LoadScript.opens, size, Bool.eq_false_iff.mpr canceled]
        rfl
      exact
        { request
          dataSpec
          closed := fun closed => absurd opens (by simp [closed])
          opened := fun _ => request ▸ delivers }

end MediaLoading

namespace LoadAttempt

variable {Extractor : Type}

/-- The attempt opens where the bytes passed on so far end, and afterwards these are still the
beginning of the chunk's range and still what the chunk has counted. -/
structure InSequence (content : Bytes) (attempt : LoadAttempt (MediaLoading Extractor)) : Prop where
  opens : attempt.outcome.request.position =
    attempt.before.chunk.dataSpec.position + attempt.before.delivered.length
  resumable : attempt.outcome.state.Resumable content

-- An attempt that gets past Open is the first one that does, or none has passed on a byte.
def StartsFresh (attempt : LoadAttempt (MediaLoading Extractor)) : Prop :=
  attempt.script.opens attempt.before.chunk = true → attempt.before.chunk.bytesLoaded = 0

instance (attempt : LoadAttempt (MediaLoading Extractor)) : Decidable attempt.StartsFresh :=
  inferInstanceAs (Decidable (_ → _))

theorem inSequence_iff {interface : ExtractorInterface Extractor} {content : Bytes}
    {attempt : LoadAttempt (MediaLoading Extractor)} (resumable : attempt.before.Resumable content)
    (loaded : attempt.before.load interface content attempt.script = .ok attempt.outcome) :
    attempt.InSequence content ↔ attempt.StartsFresh := by
  have loads := MediaLoading.load_loads loaded
  have position : attempt.outcome.request.position =
      attempt.before.chunk.dataSpec.position + attempt.before.delivered.length := by
    rw [loads.request, DataSpec.getRemainder_position, resumable.counted]
  constructor
  · intro sequence opened
    obtain ⟨given, _, delivered, counted⟩ := loads.opened opened
    have total := sequence.resumable.counted
    rw [counted, delivered, List.length_append] at total
    rw [resumable.counted]
    omega
  · intro fresh
    refine ⟨position, ?_⟩
    by_cases opened : attempt.script.opens attempt.before.chunk = true
    · obtain ⟨given, inRange, delivered, counted⟩ := loads.opened opened
      have unloaded := fresh opened
      have nothing : attempt.before.delivered = [] := by
        have total := resumable.counted
        rw [unloaded] at total
        exact List.length_eq_zero_iff.mp (by omega)
      rw [nothing, List.nil_append] at delivered
      refine ⟨?_, by rw [counted, delivered]⟩
      rw [delivered, loads.dataSpec]
      rwa [loads.request, unloaded, DataSpec.range_getRemainder_zero] at inRange
    · obtain ⟨delivered, counted⟩ := loads.closed (Bool.eq_false_iff.mpr opened)
      refine ⟨?_, by rw [counted, delivered, resumable.counted]⟩
      rw [delivered, loads.dataSpec]
      exact resumable.served

end LoadAttempt

namespace MediaLoading

variable {Extractor : Type} {interface : ExtractorInterface Extractor} {content : Bytes}

theorem loads_inSequence_iff {scripts : List LoadScript} {loading : MediaLoading Extractor}
    {attempts : List (LoadAttempt (MediaLoading Extractor))} (resumable : loading.Resumable content)
    (run : loads interface content scripts loading = .ok attempts) :
    (∀ attempt ∈ attempts, attempt.InSequence content) ↔
      ∀ attempt ∈ attempts, attempt.StartsFresh := by
  induction scripts generalizing loading attempts with
  | nil =>
    cases run
    simp
  | cons script scripts ih =>
    obtain ⟨outcome, loaded, rest⟩ := bind_ok run
    obtain ⟨later, ran, rest⟩ := bind_ok rest
    cases rest
    let attempt : LoadAttempt (MediaLoading Extractor) := { before := loading, script, outcome }
    have first : attempt.InSequence content ↔ attempt.StartsFresh :=
      LoadAttempt.inSequence_iff resumable loaded
    rw [List.forall_mem_cons, List.forall_mem_cons]
    constructor
    · intro sequence
      exact ⟨first.mp sequence.1, (ih sequence.1.resumable ran).mp sequence.2⟩
    · intro fresh
      have sequence := first.mpr fresh.1
      exact ⟨sequence, (ih sequence.resumable ran).mpr fresh.2⟩

end MediaLoading

/-- Over every sequence of loads of one chunk, the loads pass on the chunk's bytes without gap or
overlap exactly if no load gets past Open once bytes have been loaded. -/
theorem containerMediaChunk_resumes {Extractor : Type} (interface : ExtractorInterface Extractor)
    (content : Bytes) (id : Nat) (dataSpec : DataSpec) (wrapper : ChunkExtractorWrapper Extractor)
    (scripts : List LoadScript) {attempts : List (LoadAttempt (MediaLoading Extractor))}
    (run : MediaLoading.loads interface content scripts
      { chunk := { id, dataSpec }, wrapper } = .ok attempts) :
    (∀ attempt ∈ attempts, attempt.InSequence content) ↔
      ∀ attempt ∈ attempts, attempt.StartsFresh := by
  apply MediaLoading.loads_inSequence_iff _ run
  exact ⟨List.nil_prefix, rfl⟩

-- A parser that only buffers, as the mp4 parser does with the beginning of a box.
def bufferingParser : StreamParser Bytes where
  parse buffered data := ([], true, buffered ++ data)
  refused _ := []
  flush _ := []

def boxStart : Bytes := [0, 0, 1, 0, 102, 114, 101, 101, 0, 1]

def boxLoading : MediaLoading (StreamParserExtractor Bytes) where
  chunk :=
    { id := 0
      dataSpec := { uri := "segment", absoluteStreamPosition := 0, position := 0, length := 10 } }
  wrapper := { extractor := { parser := [] } }

def loadBox (scripts : List LoadScript) :
    Except Fault (List (LoadAttempt (MediaLoading (StreamParserExtractor Bytes)))) :=
  boxLoading.loads (StreamParserExtractor.interface bufferingParser) boxStart scripts

def reopenedScripts : List LoadScript :=
  [{ openSize := none },
    { openSize := some 10, answers := [.deliver 6, .deliver 4, .deliver 1] }]

theorem reopenedLoads_result :
    (loadBox reopenedScripts).map (List.all · (decide ·.StartsFresh)) = .ok true :=
  rfl

theorem containerMediaChunk_resumes_failed_open :
    ∃ attempts, loadBox reopenedScripts = .ok attempts ∧
      (∀ attempt ∈ attempts, attempt.StartsFresh) ∧
      ∀ attempt ∈ attempts, attempt.InSequence boxStart := by
  obtain ⟨attempts, run, checked⟩ := map_ok reopenedLoads_result
  have fresh : ∀ attempt ∈ attempts, attempt.StartsFresh := by
    intro attempt member
    exact of_decide_eq_true (List.all_eq_true.mp checked attempt member)
  have resumes := containerMediaChunk_resumes (StreamParserExtractor.interface bufferingParser)
    boxStart 0 boxLoading.chunk.dataSpec boxLoading.wrapper reopenedScripts run
  exact ⟨attempts, run, fresh, resumes.mpr fresh⟩

def interruptedScripts : List LoadScript :=
  [{ openSize := some 10, answers := [.deliver 4, .fail] },
    { openSize := some 6, answers := [.deliver 3, .fail] },
    { openSize := some 7, answers := [.deliver 7, .deliver 1] }]

def LoadAttempt.positions (attempt : LoadAttempt (MediaLoading (StreamParserExtractor Bytes))) :
    Int × Int :=
  (attempt.before.chunk.dataSpec.position + attempt.before.delivered.length,
    attempt.outcome.request.position)

theorem interruptedLoads_result :
    (loadBox interruptedScripts).map (List.map LoadAttempt.positions) =
      .ok [(0, 0), (4, 4), (7, 3)] :=
  rfl

theorem containerMediaChunk_repeats_bytes :
    ∃ attempts, loadBox interruptedScripts = .ok attempts ∧
      ¬ ∀ attempt ∈ attempts, attempt.InSequence boxStart := by
  obtain ⟨attempts, run, positions⟩ := map_ok interruptedLoads_result
  refine ⟨attempts, run, fun sequence => ?_⟩
  have third : ((7, 3) : Int × Int) ∈ attempts.map LoadAttempt.positions := by
    rw [positions]
    decide
  obtain ⟨attempt, member, opened⟩ := List.mem_map.mp third
  have expected := congrArg Prod.fst opened
  have actual := congrArg Prod.snd opened
  have same := (sequence attempt member).opens
  dsimp only [LoadAttempt.positions] at expected actual
  omega

end NDash.Chunk
