import NDash.Upstream.DataSpec
import NDash.Extractor.ChunkIndex
import NDash.Extractor.InfoQueue

set_option autoImplicit false

namespace NDash.Extractor

open Upstream

inductive ExtractorResult
  | continueReading
  | seek
  | endOfInput
  | ioError
deriving DecidableEq, Repr

inductive MediaTrackType
  | text
  | audio
  | video
  | unknown
deriving DecidableEq, Repr

/-- A track of an initialization segment; `validConfig` is IsValidConfig of its decoder config. -/
structure MediaTrack where
  type : MediaTrackType
  id : String
  language : String
  validConfig : Bool
  extraData : Bytes
deriving DecidableEq, Repr

structure MediaFormat where
  track : MediaTrack
  durationUs : Int
deriving DecidableEq, Repr

structure SchemeInitData where
  mimeType : String
  data : Bytes
deriving DecidableEq, Repr

inductive OutputCall
  | registerTrack (id : Nat)
  | doneRegisteringTracks
  | giveSeekMap (seekMap : ChunkIndex)
  | setDrmInitData (initData : SchemeInitData)
  | giveFormat (format : MediaFormat)
  | writeSampleData (data : Bytes)
  | writeSampleMetadata (metadata : SampleMetadata)
deriving DecidableEq, Repr

def OutputCall.isSample : OutputCall → Bool
  | .writeSampleData _ | .writeSampleMetadata _ => true
  | _ => false

def OutputCall.informs : OutputCall → Bool
  | .giveSeekMap _ | .setDrmInitData _ | .giveFormat _ => true
  | _ => false

-- Read asks the input once, for at most `request` bytes, and then works on the answer.
structure ExtractorInterface (Extractor : Type) where
  init : Extractor → Extractor
  seek : Extractor → Extractor
  request : Extractor → Nat
  accept : Extractor → ReadResult → Except Fault (ExtractorResult × List OutputCall × Extractor)

structure UnbufferedExtractorInput where
  remaining : Bytes
  delivered : Bytes := []
  position : Int
  length : Int
deriving DecidableEq, Repr

namespace UnbufferedExtractorInput

def read (input : UnbufferedExtractorInput) (answer : SourceAnswer) (length : Nat) :
    ReadResult × UnbufferedExtractorInput :=
  let (result, remaining) := answer.read input.remaining length
  (result,
    { input with
      remaining
      delivered := input.delivered ++ result.data
      position := input.position + result.data.length })

theorem read_conserves (input : UnbufferedExtractorInput) (answer : SourceAnswer) (length : Nat) :
    (input.read answer length).2.delivered ++ (input.read answer length).2.remaining =
      input.delivered ++ input.remaining := by
  cases answer with
  | fail => simp [read, SourceAnswer.read, ReadResult.data]
  | deliver count =>
    by_cases empty : input.remaining.isEmpty = true <;>
      simp [read, SourceAnswer.read, ReadResult.data, empty]

theorem read_counts (input : UnbufferedExtractorInput) (answer : SourceAnswer) (length : Nat) :
    (input.read answer length).2.position - (input.read answer length).2.delivered.length =
      input.position - input.delivered.length := by
  simp only [read, List.length_append]
  omega

theorem read_exhausted {input : UnbufferedExtractorInput} (exhausted : input.remaining.isEmpty)
    (count length : Nat) : (input.read (.deliver count) length).1 = .endOfInput := by
  simp [read, SourceAnswer.read, exhausted]

theorem read_deliver {input : UnbufferedExtractorInput} (more : ¬ input.remaining.isEmpty = true)
    (count length : Nat) :
    (input.read (.deliver count) length).1 = .bytes (input.remaining.take (min count length)) ∧
      (input.read (.deliver count) length).2.remaining =
        input.remaining.drop (min count length) := by
  simp [read, SourceAnswer.read, more]

end UnbufferedExtractorInput

/-- The bytes that reads of at most `request` bytes get out of `remaining`, and how they end if the
extractor goes on for as long as it is given bytes. -/
def serve (request : Nat) : List SourceAnswer → Bytes → Bytes × ExtractorResult
  | [], _ => ([], .continueReading)
  | .fail :: _, _ => ([], .ioError)
  | .deliver count :: answers, remaining =>
    if remaining.isEmpty then ([], .endOfInput)
    else
      let (data, ending) := serve request answers (remaining.drop (min count request))
      (remaining.take (min count request) ++ data, ending)

theorem serve_exhausted (request count : Nat) (answers : List SourceAnswer) {remaining : Bytes}
    (exhausted : remaining.isEmpty) :
    serve request (.deliver count :: answers) remaining = ([], .endOfInput) := by
  simp [serve, exhausted]

theorem serve_deliver (request count : Nat) (answers : List SourceAnswer) {remaining : Bytes}
    (more : ¬ remaining.isEmpty = true) :
    serve request (.deliver count :: answers) remaining =
      (remaining.take (min count request) ++
          (serve request answers (remaining.drop (min count request))).1,
        (serve request answers (remaining.drop (min count request))).2) := by
  simp [serve, more]

theorem serve_ne_seek (request : Nat) (answers : List SourceAnswer) (remaining : Bytes) :
    (serve request answers remaining).2 ≠ .seek := by
  induction answers generalizing remaining with
  | nil => simp [serve]
  | cons answer answers ih =>
    cases answer with
    | fail => simp [serve]
    | deliver count =>
      by_cases empty : remaining.isEmpty = true
      · simp [serve_exhausted request count answers empty]
      · rw [serve_deliver request count answers empty]
        exact ih _

theorem serve_endOfInput {request : Nat} {answers : List SourceAnswer} {remaining : Bytes}
    (ended : (serve request answers remaining).2 = .endOfInput) :
    (serve request answers remaining).1 = remaining := by
  induction answers generalizing remaining with
  | nil => cases ended
  | cons answer answers ih =>
    cases answer with
    | fail => cases ended
    | deliver count =>
      by_cases empty : remaining.isEmpty = true
      · rw [serve_exhausted request count answers empty]
        exact (List.isEmpty_iff.mp empty).symm
      · rw [serve_deliver request count answers empty] at ended ⊢
        rw [ih ended, List.take_append_drop]

end NDash.Extractor
