import NDash.Extractor.ExtractorInterface

set_option autoImplicit false

namespace NDash.Chunk

open Upstream Extractor

/-- What the world does during one Load: whether CancelLoad comes before Open returns, the size Open
answers (`none` is RESULT_IO_ERROR), and the answers to the reads. -/
structure LoadScript where
  canceled : Bool := false
  openSize : Option Int
  answers : List SourceAnswer := []
deriving DecidableEq, Repr

structure LoadOutcome (State : Type) where
  result : Bool
  request : DataSpec
  state : State

-- `calls` is what has been forwarded to the current output since Init chose it.
structure ChunkExtractorWrapper (Extractor : Type) where
  extractor : Extractor
  extractorInitialized : Bool := false
  output : Option Nat := none
  calls : List OutputCall := []
  seenTrack : Bool := false

namespace ChunkExtractorWrapper

variable {Extractor : Type} (interface : ExtractorInterface Extractor)

def init (wrapper : ChunkExtractorWrapper Extractor) (output : Nat) :
    ChunkExtractorWrapper Extractor :=
  let wrapper := { wrapper with output := some output, calls := [] }
  if !wrapper.extractorInitialized then
    { wrapper with extractor := interface.init wrapper.extractor, extractorInitialized := true }
  else { wrapper with extractor := interface.seek wrapper.extractor }

def registerTrack (wrapper : ChunkExtractorWrapper Extractor) :
    Except Fault (ChunkExtractorWrapper Extractor) :=
  if wrapper.seenTrack then .error .checkFailed else .ok { wrapper with seenTrack := true }

def doneRegisteringTracks (wrapper : ChunkExtractorWrapper Extractor) :
    Except Fault (ChunkExtractorWrapper Extractor) :=
  if wrapper.seenTrack then .ok wrapper else .error .checkFailed

def forward (wrapper : ChunkExtractorWrapper Extractor) (call : OutputCall) :
    Except Fault (ChunkExtractorWrapper Extractor) :=
  match wrapper.output with
  | none => .error .nullPointer
  | some _ => .ok { wrapper with calls := wrapper.calls ++ [call] }

def perform (wrapper : ChunkExtractorWrapper Extractor) (call : OutputCall) :
    Except Fault (ChunkExtractorWrapper Extractor) :=
  match call with
  | .registerTrack _ => wrapper.registerTrack
  | .doneRegisteringTracks => wrapper.doneRegisteringTracks
  | _ => wrapper.forward call

def performAll : List OutputCall → ChunkExtractorWrapper Extractor →
    Except Fault (ChunkExtractorWrapper Extractor)
  | [], wrapper => .ok wrapper
  | call :: calls, wrapper => (wrapper.perform call).bind (performAll calls)

def read (wrapper : ChunkExtractorWrapper Extractor) (result : Upstream.ReadResult) :
    Except Fault (ExtractorResult × ChunkExtractorWrapper Extractor) := do
  let (outcome, calls, extractor) ← interface.accept wrapper.extractor result
  let wrapper ← performAll calls { wrapper with extractor }
  if outcome = .seek then .error .checkFailed else .ok (outcome, wrapper)

/-- The loop of Load, with the data source's answers; where they end, the load is cancelled. -/
def readWhileContinuing : List SourceAnswer → ChunkExtractorWrapper Extractor →
    UnbufferedExtractorInput →
    Except Fault (ExtractorResult × ChunkExtractorWrapper Extractor × UnbufferedExtractorInput)
  | [], wrapper, input => .ok (.continueReading, wrapper, input)
  | answer :: answers, wrapper, input => do
    let (result, input) := input.read answer (interface.request wrapper.extractor)
    let (outcome, wrapper) ← wrapper.read interface result
    if outcome = .continueReading then readWhileContinuing answers wrapper input
    else .ok (outcome, wrapper, input)

theorem performAll_append (first second : List OutputCall)
    (wrapper : ChunkExtractorWrapper Extractor) :
    performAll (first ++ second) wrapper = (performAll first wrapper).bind (performAll second) := by
  induction first generalizing wrapper with
  | nil => rfl
  | cons call first ih =>
    cases performed : wrapper.perform call with
    | error fault => simp only [List.cons_append, performAll, performed, Except.bind]
    | ok next => simp only [List.cons_append, performAll, performed, Except.bind, ih]

theorem performAll_informs {calls : List OutputCall} (informs : calls.all OutputCall.informs)
    {wrapper : ChunkExtractorWrapper Extractor} (connected : wrapper.output.isSome) :
    performAll calls wrapper = .ok { wrapper with calls := wrapper.calls ++ calls } := by
  induction calls generalizing wrapper with
  | nil => simp [performAll]
  | cons call calls ih =>
    rw [List.all_cons, Bool.and_eq_true] at informs
    obtain ⟨output, chosen⟩ := Option.isSome_iff_exists.mp connected
    have performed : wrapper.perform call = .ok { wrapper with calls := wrapper.calls ++ [call] } := by
      cases call with
      | giveSeekMap seekMap => simp [perform, forward, chosen]
      | setDrmInitData initData => simp [perform, forward, chosen]
      | giveFormat format => simp [perform, forward, chosen]
      | registerTrack id => cases informs.1
      | doneRegisteringTracks => cases informs.1
      | writeSampleData data => cases informs.1
      | writeSampleMetadata metadata => cases informs.1
    let next := { wrapper with calls := wrapper.calls ++ [call] }
    have rest : performAll calls next = .ok { next with calls := next.calls ++ calls } :=
      ih informs.2 connected
    rw [performAll, performed, Except.bind, rest]
    simp [next]

variable {interface}

theorem readWhileContinuing_cons (answer : SourceAnswer) (answers : List SourceAnswer)
    (wrapper : ChunkExtractorWrapper Extractor) (input : UnbufferedExtractorInput) :
    wrapper.readWhileContinuing interface (answer :: answers) input =
      (wrapper.read interface (input.read answer (interface.request wrapper.extractor)).1).bind
        fun step =>
          if step.1 = .continueReading then
            step.2.readWhileContinuing interface answers
              (input.read answer (interface.request wrapper.extractor)).2
          else .ok (step.1, step.2, (input.read answer (interface.request wrapper.extractor)).2) :=
  rfl

theorem readWhileContinuing_input {answers : List SourceAnswer}
    {wrapper next : ChunkExtractorWrapper Extractor} {input last : UnbufferedExtractorInput}
    {result : ExtractorResult}
    (looped : wrapper.readWhileContinuing interface answers input = .ok (result, next, last)) :
    last.delivered ++ last.remaining = input.delivered ++ input.remaining ∧
      last.position - last.delivered.length = input.position - input.delivered.length := by
  induction answers generalizing wrapper input with
  | nil =>
    cases looped
    exact ⟨rfl, rfl⟩
  | cons answer answers ih =>
    have conserves := input.read_conserves answer (interface.request wrapper.extractor)
    have counts := input.read_counts answer (interface.request wrapper.extractor)
    rw [readWhileContinuing_cons] at looped
    obtain ⟨step, _, rest⟩ := bind_ok looped
    by_cases continues : step.1 = .continueReading
    · rw [if_pos continues] at rest
      have later := ih rest
      exact ⟨later.1.trans conserves, later.2.trans counts⟩
    · rw [if_neg continues] at rest
      cases rest
      exact ⟨conserves, counts⟩

end ChunkExtractorWrapper

end NDash.Chunk
