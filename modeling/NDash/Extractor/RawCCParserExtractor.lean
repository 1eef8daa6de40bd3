import NDash.Extractor.ExtractorInterface

set_option autoImplicit false

namespace NDash.Extractor

open Upstream

namespace RawCC

def kHeaderSize : Nat := 8
def kHeader : BitVec 32 := 0x52434301#32
def kFlagsSize : Nat := 3
def kPtsAndCountSizeV0 : Nat := 5
def kSampleSize : Nat := 3
def kSampleEntrySize : Nat := 8
def kReadBufferSize : Nat := 4096
def kMaxEntriesPerSample : Nat := 120

inductive ParsingState
  | parsingHeader
  | parsingPtsAndCount
  | parsingEntries
deriving DecidableEq, Repr

/-- What a parser is created with, the 45 kHz to microsecond conversion, and whether the output
takes the entry behind the entries it has been given. -/
structure Settings where
  sampleOffset : Int := 0
  truncStartPts : Option Int := none
  truncEndPts : Option Int := none
  scaleToUs : BitVec 32 → Int
  accepts : List Bytes → Bytes → Bool := fun _ _ => true

def Settings.inWindow (settings : Settings) (pts : BitVec 32) : Bool :=
  settings.truncStartPts.all (fun start => !decide (settings.scaleToUs pts < start)) &&
    settings.truncEndPts.all (fun stop => !decide (settings.scaleToUs pts > stop))

-- Back to 45 kHz, on the master timeline; the product is stored in a uint32_t.
def Settings.entryPts (settings : Settings) (pts : BitVec 32) : BitVec 32 :=
  if settings.sampleOffset ≠ 0 then
    BitVec.ofInt 32 ((settings.scaleToUs pts + settings.sampleOffset).tdiv 1000 * 45)
  else pts

-- The byte `shift` bits up, as the shifts and the mask 0xFF take it out.
def byteAt (value : BitVec 32) (shift : Nat) : UInt8 := UInt8.ofNat (value.toNat >>> shift)

def Settings.entry (settings : Settings) (pts : BitVec 32) (flags cc1 cc2 : UInt8) : Bytes :=
  let entryPts := settings.entryPts pts
  [byteAt entryPts 24, byteAt entryPts 16, byteAt entryPts 8, byteAt entryPts 0,
    flags &&& 0x03, cc1, cc2, if flags &&& 0x04 ≠ 0 then 1 else 0]

end RawCC

open RawCC

-- `buf` holds the first write_pos_ bytes of buf_; `written` and `samples` are what the track got, and
-- `commits` is how many entries it had been given when it got each of the samples.
structure RawCCParserExtractor where
  state : ParsingState := .parsingHeader
  buf : Bytes := []
  readPos : Nat := 0
  version : UInt8 := 0
  pts : BitVec 32 := 0#32
  samplePts : Int := 0
  expectedCount : Nat := 0
  sampleIndex : Nat := 0
  totalWritten : Nat := 0
  producingToQueue : Bool := true
  written : List Bytes := []
  samples : List SampleMetadata := []
  commits : List Nat := []
deriving DecidableEq, Repr

inductive RawCC.Flow
  | proceed
  | wait
  | fail
deriving DecidableEq, Repr

namespace RawCCParserExtractor

variable (settings : Settings)

def available (extractor : RawCCParserExtractor) : Nat := extractor.buf.length - extractor.readPos

def reset (extractor : RawCCParserExtractor) : RawCCParserExtractor :=
  { written := extractor.written, samples := extractor.samples, commits := extractor.commits }

def readByte (extractor : RawCCParserExtractor) : UInt8 × RawCCParserExtractor :=
  (extractor.buf[extractor.readPos]?.getD 0, { extractor with readPos := extractor.readPos + 1 })

def readInt (extractor : RawCCParserExtractor) : BitVec 32 × RawCCParserExtractor :=
  let (first, extractor) := extractor.readByte
  let (second, extractor) := extractor.readByte
  let (third, extractor) := extractor.readByte
  let (fourth, extractor) := extractor.readByte
  (first.toBitVec.setWidth 32 <<< 24 ||| second.toBitVec.setWidth 32 <<< 16 |||
    third.toBitVec.setWidth 32 <<< 8 ||| fourth.toBitVec.setWidth 32, extractor)

def flushSample (extractor : RawCCParserExtractor) : RawCCParserExtractor :=
  if extractor.totalWritten > 0 && extractor.producingToQueue then
    { extractor with
      samples := extractor.samples ++
        [{ timeUs := extractor.samplePts
           durationUs := settings.scaleToUs extractor.pts - extractor.samplePts
           flags := kSampleFlagSync
           size := extractor.totalWritten * kSampleEntrySize
           offset := 0 }]
      commits := extractor.commits ++ [extractor.written.length]
      totalWritten := 0 }
  else extractor

def parseHeader (extractor : RawCCParserExtractor) : Flow × RawCCParserExtractor :=
  if extractor.available < kHeaderSize then (.wait, extractor)
  else
    let (header, extractor) := extractor.readInt
    if header ≠ kHeader then (.fail, extractor)
    else
      let (version, extractor) := extractor.readByte
      let extractor := { extractor with version }
      if extractor.version ≠ 0 then (.fail, extractor)
      else
        (.proceed,
          { extractor with
            readPos := extractor.readPos + kFlagsSize
            state := .parsingPtsAndCount })

def parsePtsAndCount (extractor : RawCCParserExtractor) : Flow × RawCCParserExtractor :=
  if extractor.available < kPtsAndCountSizeV0 then (.wait, extractor)
  else
    let (pts, extractor) := extractor.readInt
    let thisSamplePts := settings.scaleToUs pts
    let extractor := { extractor with pts, producingToQueue := settings.inWindow pts }
    let extractor :=
      if extractor.totalWritten = 0 then { extractor with samplePts := thisSamplePts }
      else extractor
    let (count, extractor) := extractor.readByte
    (.proceed,
      { extractor with
        expectedCount := count.toNat
        sampleIndex := 0
        state := .parsingEntries })

def translateEntries : Nat → RawCCParserExtractor → Flow × RawCCParserExtractor
  | 0, extractor => (.proceed, extractor)
  | remaining + 1, extractor =>
    if extractor.available < kSampleSize then (.wait, extractor)
    else
      let (flags, extractor) := extractor.readByte
      let (cc1, extractor) := extractor.readByte
      let (cc2, extractor) := extractor.readByte
      if !extractor.producingToQueue then
        translateEntries remaining { extractor with sampleIndex := extractor.sampleIndex + 1 }
      else
        let entry := settings.entry extractor.pts flags cc1 cc2
        if !settings.accepts extractor.written entry then (.fail, extractor)
        else
          let extractor :=
            { extractor with
              written := extractor.written ++ [entry]
              sampleIndex := extractor.sampleIndex + 1
              totalWritten := extractor.totalWritten + 1 }
          translateEntries remaining
            (if extractor.totalWritten > kMaxEntriesPerSample then extractor.flushSample settings
              else extractor)

def parseEntries (extractor : RawCCParserExtractor) : Flow × RawCCParserExtractor :=
  match translateEntries settings (extractor.expectedCount - extractor.sampleIndex) extractor with
  | (.proceed, extractor) =>
    (.proceed,
      { extractor with
        expectedCount := 0
        sampleIndex := 0
        state := .parsingPtsAndCount })
  | stopped => stopped

def andThen (result : Flow × RawCCParserExtractor)
    (next : RawCCParserExtractor → Flow × RawCCParserExtractor) : Flow × RawCCParserExtractor :=
  match result with
  | (.proceed, extractor) => next extractor
  | stopped => stopped

-- One pass of the switch, whose cases fall through.
def parseState (extractor : RawCCParserExtractor) : Flow × RawCCParserExtractor :=
  match extractor.state with
  | .parsingHeader =>
    andThen (andThen extractor.parseHeader (parsePtsAndCount settings)) (parseEntries settings)
  | .parsingPtsAndCount => andThen (extractor.parsePtsAndCount settings) (parseEntries settings)
  | .parsingEntries => extractor.parseEntries settings

def parseBuffer : Nat → RawCCParserExtractor → Except Fault (ExtractorResult × RawCCParserExtractor)
  | 0, _ => .error .diverges
  | fuel + 1, extractor =>
    if extractor.readPos < extractor.buf.length then
      match extractor.parseState settings with
      | (.wait, extractor) => .ok (.continueReading, extractor)
      | (.fail, extractor) => .ok (.ioError, extractor)
      | (.proceed, extractor) => parseBuffer fuel extractor
    else .ok (.continueReading, extractor.flushSample settings)

def compact (extractor : RawCCParserExtractor) : RawCCParserExtractor :=
  { extractor with buf := extractor.buf.drop extractor.readPos, readPos := 0 }

def request (extractor : RawCCParserExtractor) : Nat :=
  kReadBufferSize - extractor.compact.buf.length

def read (extractor : RawCCParserExtractor) (result : ReadResult) :
    Except Fault (ExtractorResult × RawCCParserExtractor) :=
  match result with
  | .bytes [] => .ok (.continueReading, extractor.compact)
  | .endOfInput => .ok (.endOfInput, extractor.compact.reset)
  | .ioError => .ok (.ioError, extractor.compact)
  | .bytes data =>
    if extractor.request < data.length then .error .outOfBounds
    else
      let extractor := extractor.compact
      parseBuffer settings (extractor.buf.length + data.length + 1)
        { extractor with buf := extractor.buf ++ data }

end RawCCParserExtractor

end NDash.Extractor
