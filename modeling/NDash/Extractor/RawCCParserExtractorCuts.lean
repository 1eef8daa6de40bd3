import NDash.Extractor.RawCCParserExtractorFields

set_option autoImplicit false

namespace NDash.Extractor

open Upstream RawCC

namespace RawCC

variable (settings : Settings)

def Progress.advance (progress : Progress) (field : Bytes) : Progress :=
  match progress.phase, field with
  | .header, a :: b :: c :: d :: version :: _ =>
    if bigEndian a b c d = kHeader ∧ version = 0 then { progress with phase := .ptsAndCount }
    else { progress with phase := .failed }
  | .ptsAndCount, a :: b :: c :: d :: count :: _ =>
    { progress with phase := .behind (bigEndian a b c d) count.toNat }
  | .entries pts remaining, flags :: cc1 :: cc2 :: _ =>
    let entry := settings.entry pts flags cc1 cc2
    if !settings.inWindow pts then { progress with phase := .behind pts (remaining - 1) }
    else if settings.accepts progress.written entry then
      { phase := .behind pts (remaining - 1), written := progress.written ++ [entry] }
    else { progress with phase := .failed }
  | _, _ => progress

def grammar : Incremental.Parser UInt8 Progress where
  width progress := progress.phase.width
  advance := Progress.advance settings

end RawCC

namespace RawCCParserExtractor

variable (settings : Settings)

def Reports (parsed : Progress × Bytes) (result : ExtractorResult)
    (after : RawCCParserExtractor) : Prop :=
  (result = .continueReading ∧ parsed = (after.progress, after.pending) ∧ Waiting settings after) ∨
    (result = .ioError ∧ parsed.1 = ⟨.failed, after.written⟩)

variable {settings}

theorem parse_short {progress : Progress} {input : Bytes}
    (short : input.length < progress.phase.width) :
    (grammar settings).parse progress input = (progress, input) :=
  (grammar settings).parse_short short

theorem parse_field {progress : Progress} {rest : Bytes} (field : Bytes)
    (positive : 0 < progress.phase.width) (wide : field.length = progress.phase.width) :
    (grammar settings).parse progress (field ++ rest) =
      (grammar settings).parse (progress.advance settings field) rest :=
  (grammar settings).parse_field field positive wide

theorem progress_eq {extractor : RawCCParserExtractor} {phase : Phase}
    (same : extractor.progress.phase = phase) :
    extractor.progress = ⟨phase, extractor.written⟩ := by
  rw [← same]
  rfl

end RawCCParserExtractor

end NDash.Extractor
