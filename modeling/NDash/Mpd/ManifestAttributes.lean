import Mathlib.Algebra.Ring.Int.Defs
import NDash.Extractor.ExtractorInterface
import NDash.Mpd.MultiSegmentBase
import NDash.Mpd.MediaPresentationDescription
import NDash.Shared.PullRules
import NDash.Util.MimeTypes

set_option autoImplicit false

namespace NDash.Mpd.Manifest

open Util.MimeTypes (isVideo isAudio isText)

/-- An element: `name` is xmlNode::name, and the attributes go by their local names. -/
structure Node where
  qualifier : Option String := none
  name : String
  attributes : List (String × String) := []
deriving DecidableEq, Repr

-- What xmlTextReaderConstName gives.
def Node.qualifiedName (node : Node) : String :=
  match node.qualifier with
  | none => node.name
  | some qualifier => qualifier ++ ":" ++ node.name

-- No branch is for a text, whose name is text or #text.
def textNode : Node := { name := "text" }

/-- How parsing can end without an answer. Every null inside a Period ends up in a LOG(FATAL). -/
inductive Failure
  | couldNotParsePeriod
  | unableToDetermineStart
  | badCast
  | outOfBounds
  | diverges
deriving DecidableEq, Repr

abbrev ERANGE : Int := 34
abbrev EINVAL : Int := 22

/-- What works on the attributes of a node; errno outlasts every call. -/
abbrev Attempt := Pull.Effect Int Failure

/-- UriUtil::Resolve, Util::ParseXsDuration and Util::ParseXsDateTime, which may leave an errno. What a
duration is does not depend on the errno before. -/
structure External where
  resolve : String → String → String
  parseXsDuration : String → Int
  durationErrno : String → Int → Int
  parseXsDateTime : String → Int → Int × Int
deriving Inhabited

def orNull {α : Type} : Option α → Attempt α
  | none => throw .couldNotParsePeriod
  | some value => pure value

def isSpace (character : Char) : Bool := character ∈ [' ', '\t', '\n', '\x0b', '\x0c', '\r']

def digitsValue (digits : List Char) : Nat :=
  digits.foldl (fun value digit => value * 10 + (digit.toNat - '0'.toNat)) 0

structure Strtol where
  value : Int
  rest : List Char
  outOfRange : Bool
deriving DecidableEq, Repr

/-- strtol and strtoll in base 10, with a 64-bit long. -/
def scanLong (text : List Char) : Strtol :=
  let (negative, body) :=
    match text.dropWhile isSpace with
    | '-' :: body => (true, body)
    | '+' :: body => (false, body)
    | body => (false, body)
  let digits := body.takeWhile Char.isDigit
  if digits.isEmpty then { value := 0, rest := text, outOfRange := false }
  else
    let value : Int := if negative then -digitsValue digits else digitsValue digits
    let rest := body.dropWhile Char.isDigit
    if value < -2 ^ 63 then { value := -2 ^ 63, rest, outOfRange := true }
    else if value ≥ 2 ^ 63 then { value := 2 ^ 63 - 1, rest, outOfRange := true }
    else { value, rest, outOfRange := false }

def strtol (text : List Char) : Attempt (Int × List Char) := do
  let scanned := scanLong text
  if scanned.outOfRange then set ERANGE
  pure (scanned.value, scanned.rest)

def parseLong (text : String) : Attempt (Option Int) := do
  set (0 : Int)
  let (value, _) ← strtol text.toList
  let errno ← get
  if errno = ERANGE then pure none
  else if errno = EINVAL then pure none
  else pure (some value)

def parseInt (text : String) : Attempt (Option Int) := do
  let value ← parseLong text
  pure (value.map toInt32)

def parseRange (text : String) : Attempt (Option (Int × Int)) := do
  let (indexStart, rest) ← strtol text.toList
  if indexStart < 0 ∨ rest.head? ≠ some '-' then pure none
  else if (← get) = ERANGE then pure none
  else
    let (indexEnd, rest) ← strtol rest.tail
    if indexEnd < 0 ∨ rest ≠ [] then pure none
    else if (← get) = ERANGE then pure none
    else if indexEnd < indexStart then pure none
    else pure (some (indexStart, toInt64 (indexEnd - indexStart + 1)))

namespace Node

variable (node : Node)

def getProp (name : String) : Option String := node.attributes.lookup name

def getAttributeValue (name : String) (defaultValue : String := "") : String :=
  (node.getProp name).getD defaultValue

def parseLong (name : String) (defaultValue : Int) : Attempt (Option Int) :=
  let text := node.getAttributeValue name
  if text.isEmpty then pure (some defaultValue) else Manifest.parseLong text

def parseInt (name : String) (defaultValue : Int) : Attempt (Option Int) :=
  let text := node.getAttributeValue name
  if text.isEmpty then pure (some defaultValue) else Manifest.parseInt text

def parseDuration (external : External) (name : String) (defaultValue : Int) : Attempt Int :=
  match node.getProp name with
  | none => pure defaultValue
  | some value => modifyGet fun errno =>
      (external.parseXsDuration value, external.durationErrno value errno)

def parseDateTime (external : External) (name : String) (defaultValue : Int) : Attempt Int :=
  match node.getProp name with
  | none => pure defaultValue
  | some value => modifyGet (external.parseXsDateTime value)

end Node

-- The quotient of two integers, which the code computes in floating point.
structure FrameRate where
  numerator : Int
  denominator : Int
deriving DecidableEq, Repr

-- Without a slash the second getline leaves the denominator alone; with nothing behind it, it empties it.
def parseFrameRate (node : Node) (defaultValue : FrameRate) : Attempt (Option FrameRate) := do
  let text := (node.getAttributeValue "frameRate").toList
  if text.isEmpty then pure (some defaultValue)
  else
    let numerator := text.takeWhile (· ≠ '/')
    let denominator :=
      match text.dropWhile (· ≠ '/') with
      | [] => ['1']
      | _ :: rest => rest.takeWhile (· ≠ '/')
    match ← parseInt (String.ofList numerator) with
    | none => pure none
    | some numerator =>
      match ← parseInt (String.ofList denominator) with
      | none => pure none
      | some denominator => pure (some { numerator, denominator })

structure DescriptorType where
  schemeIdUri : String
  value : String
  id : String
deriving DecidableEq, Repr

-- The id is stored as the scheme.
def parseDescriptorType (node : Node) : DescriptorType where
  schemeIdUri := (node.getProp "id").getD (node.getAttributeValue "schemeIdUri")
  value := node.getAttributeValue "value"
  id := ""

inductive AdaptationType
  | unknown
  | video
  | audio
  | text
deriving DecidableEq, Repr

def parseContentType (node : Node) : AdaptationType :=
  let contentType := node.getAttributeValue "contentType"
  if contentType = "audio" then .audio
  else if contentType = "video" then .video
  else if contentType = "text" then .text
  else .unknown

def getContentType (mimeType codecs : String) : AdaptationType :=
  if mimeType.isEmpty then .unknown
  else if isVideo mimeType then .video
  else if isAudio mimeType then .audio
  else if isText mimeType then .text
  else if mimeType = "application/mp4" ∧ (codecs = "stpp" ∨ codecs = "wvtt") then .text
  else .unknown

def checkLanguageConsistency (firstLanguage secondLanguage : String) : String :=
  if firstLanguage.isEmpty then secondLanguage else firstLanguage

def checkContentTypeConsistency (firstType secondType : AdaptationType) : AdaptationType :=
  if firstType = .unknown then secondType else firstType

def parseAudioChannelConfiguration (node : Node) : Attempt Int := do
  if node.getAttributeValue "schemeIdUri" =
      "urn:mpeg:dash:23003:3:audio_channel_configuration:2011" then
    let value ← node.parseInt "value" (-1)
    pure (value.getD (-1))
  else pure (-1)

def parseRangedUrl (node : Node) (baseUrl urlAttribute rangeAttribute : String) :
    Attempt RangedUri := do
  let urlText := node.getAttributeValue urlAttribute
  let rangeText := node.getAttributeValue rangeAttribute
  if rangeText.isEmpty then pure (.create baseUrl urlText 0 (-1))
  else
    let (rangeStart, rangeLength) ← orNull (← parseRange rangeText)
    pure (.create baseUrl urlText rangeStart rangeLength)

def parseInitialization (node : Node) (baseUrl : String) : Attempt RangedUri :=
  parseRangedUrl node baseUrl "sourceURL" "range"

def parseSegmentUrl (node : Node) (baseUrl : String) : Attempt RangedUri :=
  parseRangedUrl node baseUrl "media" "mediaRange"

-- A compiled template is as good as the text it is compiled from.
abbrev UrlTemplate := String

def parseUrlTemplate (node : Node) (name : String) (defaultValue : Option UrlTemplate) :
    Option UrlTemplate :=
  let valueString := node.getAttributeValue name
  if valueString.isEmpty then defaultValue else some valueString

/-! ContentProtectionsBuilder -/

-- A uuid that is empty is `none`.
structure ContentProtection where
  schemeUriId : String
  uuid : Option String := none
  data : Option Extractor.SchemeInitData := none
deriving DecidableEq, Repr

structure ContentProtectionsBuilder where
  adaptationSetProtections : Option (List ContentProtection) := none
  representationProtections : Option (List ContentProtection) := none
  currentRepresentationProtections : Option (List ContentProtection) := none
deriving DecidableEq, Repr

namespace ContentProtectionsBuilder

def maybeAddContentProtection (list : List ContentProtection) (protection : ContentProtection) :
    Bool × List ContentProtection :=
  if protection ∈ list then (true, list)
  else if list.any (fun other => other.schemeUriId = protection.schemeUriId) then (false, list)
  else (true, list ++ [protection])

def addAdaptationSetProtection (builder : ContentProtectionsBuilder)
    (protection : ContentProtection) : Bool × ContentProtectionsBuilder :=
  let (consistent, list) :=
    maybeAddContentProtection (builder.adaptationSetProtections.getD []) protection
  (consistent, { builder with adaptationSetProtections := some list })

def addRepresentationProtection (builder : ContentProtectionsBuilder)
    (protection : ContentProtection) : Bool × ContentProtectionsBuilder :=
  let (consistent, list) :=
    maybeAddContentProtection (builder.currentRepresentationProtections.getD []) protection
  (consistent, { builder with currentRepresentationProtections := some list })

def sorted (list : List ContentProtection) : List ContentProtection :=
  list.mergeSort fun first second => decide (first.schemeUriId ≤ second.schemeUriId)

-- std::equal reads on behind the end of a second range that is shorter.
def rangeEqual : List ContentProtection → List ContentProtection → Except Failure Bool
  | [], _ => .ok true
  | _ :: _, [] => .error .outOfBounds
  | first :: firsts, second :: seconds =>
    if first = second then rangeEqual firsts seconds else .ok false

def endRepresentation (builder : ContentProtectionsBuilder) :
    Except Failure (Bool × ContentProtectionsBuilder) :=
  let next := { builder with currentRepresentationProtections := none }
  match builder.representationProtections, builder.currentRepresentationProtections with
  | some earlier, some current => do
    let consistent ← rangeEqual (sorted current) earlier
    .ok (consistent, next)
  | none, some current => .ok (true, { next with representationProtections := some (sorted current) })
  | some _, none => .ok (false, next)
  | none, none => .ok (true, next)

def addAll : List ContentProtection → Bool × List ContentProtection → Bool × List ContentProtection
  | [], state => state
  | protection :: protections, (consistent, list) =>
    let (added, list) := maybeAddContentProtection list protection
    addAll protections (consistent && added, list)

def build (builder : ContentProtectionsBuilder) : Option (List ContentProtection) :=
  match builder.adaptationSetProtections, builder.representationProtections with
  | none, representations => representations
  | adaptationSet, none => adaptationSet
  | some adaptationSet, some representations =>
    let (consistent, list) := addAll representations (true, adaptationSet)
    if consistent then some list else none

end ContentProtectionsBuilder

end NDash.Mpd.Manifest
