import NDash.Mpd.ManifestAttributes

set_option autoImplicit false

/-!
# MediaPresentationDescriptionParser

Every parse function that advances the reader is written for an arbitrary cursor: what its loop does
with a node is a list of rules, in the order of the branches in the loop's body.
-/

namespace NDash.Mpd.Manifest

open Pull
open Util.MimeTypes (isAudio)

/-! What the parser builds -/

structure SegmentBaseFields where
  baseUrl : String
  initialization : Option RangedUri
  timescale : Int
  presentationTimeOffset : Int
deriving DecidableEq, Repr

structure SingleSegmentBase extends SegmentBaseFields where
  indexStart : Int
  indexLength : Int
deriving DecidableEq, Repr

-- The timeline, like the segments of a list, is the parent's where the element has none.
structure MultiSegmentFields extends SegmentBaseFields where
  startNumber : Int
  duration : Int
  segmentTimeline : Option (List SegmentTimelineElement)
deriving DecidableEq, Repr

structure SegmentList extends MultiSegmentFields where
  mediaSegments : List RangedUri
deriving DecidableEq, Repr

structure SegmentTemplate extends MultiSegmentFields where
  initializationTemplate : Option UrlTemplate
  mediaTemplate : Option UrlTemplate
deriving DecidableEq, Repr

inductive SegmentBase
  | single (base : SingleSegmentBase)
  | list (base : SegmentList)
  | template (base : SegmentTemplate)
deriving DecidableEq, Repr

structure Format extends Mpd.Format where
  frameRate : FrameRate
  audioSamplingRate : Int
deriving DecidableEq, Repr

structure Representation where
  contentId : String
  format : Format
  segmentBase : SegmentBase
  supplementalProperties : List DescriptorType
  essentialProperties : List DescriptorType
deriving DecidableEq, Repr

structure AdaptationSet where
  id : Int
  type : AdaptationType
  representations : List Representation
  contentProtections : Option (List ContentProtection)
  segmentBase : Option SegmentBase
  supplementalProperties : List DescriptorType
  essentialProperties : List DescriptorType
deriving DecidableEq, Repr

structure Period where
  id : String
  startMs : Int
  adaptationSets : List AdaptationSet
  segmentBase : Option SegmentBase
  supplementalProperties : List DescriptorType
deriving DecidableEq, Repr

structure MediaPresentationDescription where
  availabilityStartTime : Int
  duration : Int
  minBufferTime : Int
  dynamic : Bool
  minUpdatePeriod : Int
  timeShiftBufferDepth : Int
  utcTiming : Option DescriptorType
  location : String
  periods : List Period
  supplementalProperties : List DescriptorType
  essentialProperties : List DescriptorType
deriving DecidableEq, Repr

/-! Casts of the segment base that is inherited -/

def asSingleSegmentBase : Option SegmentBase → Attempt (Option SingleSegmentBase)
  | none => pure none
  | some (.single base) => pure (some base)
  | some _ => throw .badCast

def asSegmentList : Option SegmentBase → Attempt (Option SegmentList)
  | none => pure none
  | some (.list base) => pure (some base)
  | some _ => throw .badCast

def asSegmentTemplate : Option SegmentBase → Attempt (Option SegmentTemplate)
  | none => pure none
  | some (.template base) => pure (some base)
  | some _ => throw .badCast

-- NodeNameEquals and CurrentNodeNameEquals
def named (name : String) (node : Node) : Bool := node.name == name
def called (name : String) (node : Node) : Bool := node.qualifiedName == name

section Parser

variable (external : External) (contentId : String) {S Place : Type}
  (cursor : Cursor Node S Int Failure Place)

abbrev ParserRule (S Place σ : Type) := Rule Node S Int Failure Place σ

abbrev ParseFunction (S α : Type) := Pull.Parser S Int Failure α

/-! SegmentTimeline -/

structure SegmentTimelineState where
  segmentTimeline : List SegmentTimelineElement := []
  elapsedTime : Int := 0
deriving DecidableEq, Repr

def pushSegments (duration : Int) : Nat → SegmentTimelineState → SegmentTimelineState
  | 0, state => state
  | count + 1, state =>
    pushSegments duration count
      { segmentTimeline := state.segmentTimeline ++ [⟨state.elapsedTime, duration⟩]
        elapsedTime := state.elapsedTime + duration }

def parseS (node : Node) (state : SegmentTimelineState) : Attempt SegmentTimelineState := do
  let elapsedTime ← orNull (← node.parseLong "t" state.elapsedTime)
  let duration ← orNull (← node.parseLong "d" (-1))
  let repetitions ← orNull (← node.parseInt "r" 0)
  pure (pushSegments duration (toInt32 (1 + repetitions)).toNat { state with elapsedTime })

def segmentTimelineRules : List (ParserRule S Place SegmentTimelineState) :=
  [.attributes (named "S") parseS]

def parseSegmentTimeline (place : Place) : ParseFunction S (List SegmentTimelineElement) :=
  element cursor (pure {}) segmentTimelineRules (fun state => pure state.segmentTimeline) place

/-! SegmentBase -/

def startSegmentBase (node : Node) (baseUrl : String) (parent : Option SegmentBase) :
    Attempt SingleSegmentBase := do
  let parent ← asSingleSegmentBase parent
  let timescale ← orNull (← node.parseLong "timescale" ((parent.map (·.timescale)).getD 1))
  let presentationTimeOffset ← orNull
    (← node.parseLong "presentationTimeOffset" ((parent.map (·.presentationTimeOffset)).getD 0))
  let indexRangeText := node.getAttributeValue "indexRange"
  let (indexStart, indexLength) ←
    if indexRangeText.isEmpty then
      pure ((parent.map (·.indexStart)).getD 0, (parent.map (·.indexLength)).getD (-1))
    else do orNull (← parseRange indexRangeText)
  pure
    { baseUrl
      initialization := parent.bind (·.initialization)
      timescale
      presentationTimeOffset
      indexStart
      indexLength }

def segmentBaseInitialization (node : Node) (base : SingleSegmentBase) :
    Attempt SingleSegmentBase := do
  let initialization ← parseInitialization node base.baseUrl
  pure { base with initialization := some initialization }

def segmentBaseRules : List (ParserRule S Place SingleSegmentBase) :=
  [.attributes (named "Initialization") segmentBaseInitialization]

def parseSegmentBase (node : Node) (place : Place) (baseUrl : String)
    (parent : Option SegmentBase) : ParseFunction S SegmentBase :=
  element cursor (startSegmentBase node baseUrl parent) segmentBaseRules
    (fun base => pure (.single base)) place

/-! SegmentList and SegmentTemplate -/

structure MultiSegmentState (Parent : Type) where
  parent : Option Parent
  fields : MultiSegmentFields
  segments : Option (List RangedUri) := none
deriving DecidableEq, Repr

def startMultiSegment {Parent : Type} (node : Node) (baseUrl : String) (parent : Option Parent)
    (fieldsOf : Parent → MultiSegmentFields) : Attempt (MultiSegmentState Parent) := do
  let inherited := parent.map fieldsOf
  let timescale ← orNull (← node.parseLong "timescale" ((inherited.map (·.timescale)).getD 1))
  let presentationTimeOffset ← orNull
    (← node.parseLong "presentationTimeOffset" ((inherited.map (·.presentationTimeOffset)).getD 0))
  let duration ← orNull (← node.parseLong "duration" ((inherited.map (·.duration)).getD (-1)))
  let startNumber ← orNull
    (← node.parseInt "startNumber" ((inherited.map (·.startNumber)).getD 1))
  pure
    { parent
      fields :=
        { baseUrl
          initialization := none
          timescale
          presentationTimeOffset
          startNumber
          duration
          segmentTimeline := none } }

def multiSegmentInitialization {Parent : Type} (node : Node) (state : MultiSegmentState Parent) :
    Attempt (MultiSegmentState Parent) := do
  let initialization ← parseInitialization node state.fields.baseUrl
  pure { state with fields := { state.fields with initialization := some initialization } }

def initializationRule {Parent : Type} : ParserRule S Place (MultiSegmentState Parent) :=
  .attributes (named "Initialization") multiSegmentInitialization

def segmentTimelineRule {Parent : Type} : ParserRule S Place (MultiSegmentState Parent) :=
  .inside (named "SegmentTimeline") (fun _ => false)
    (fun _ place _ => parseSegmentTimeline cursor place)
    fun state timeline =>
      pure { state with fields := { state.fields with segmentTimeline := some timeline } }

def pushSegmentUrl (node : Node) (state : MultiSegmentState SegmentList) :
    Attempt (MultiSegmentState SegmentList) := do
  let media ← parseSegmentUrl node state.fields.baseUrl
  pure { state with segments := some (state.segments.getD [] ++ [media]) }

def MultiSegmentFields.inherit (fields : MultiSegmentFields) (parent : Option MultiSegmentFields) :
    MultiSegmentFields :=
  { fields with
    initialization := fields.initialization.or (parent.bind (·.initialization))
    segmentTimeline := fields.segmentTimeline.or (parent.bind (·.segmentTimeline)) }

def startSegmentList (node : Node) (baseUrl : String) (parent : Option SegmentBase) :
    Attempt (MultiSegmentState SegmentList) := do
  let parent ← asSegmentList parent
  startMultiSegment node baseUrl parent (·.toMultiSegmentFields)

def segmentListRules : List (ParserRule S Place (MultiSegmentState SegmentList)) :=
  [initializationRule, segmentTimelineRule cursor, .attributes (named "SegmentURL") pushSegmentUrl]

def buildSegmentList (state : MultiSegmentState SegmentList) : SegmentList where
  toMultiSegmentFields := state.fields.inherit (state.parent.map (·.toMultiSegmentFields))
  mediaSegments := state.segments.getD ((state.parent.map (·.mediaSegments)).getD [])

def parseSegmentList (node : Node) (place : Place) (baseUrl : String)
    (parent : Option SegmentBase) : ParseFunction S SegmentBase :=
  element cursor (startSegmentList node baseUrl parent) (segmentListRules cursor)
    (fun state => pure (.list (buildSegmentList state))) place

def startSegmentTemplate (node : Node) (baseUrl : String) (parent : Option SegmentBase) :
    Attempt (MultiSegmentState SegmentTemplate) := do
  let parent ← asSegmentTemplate parent
  startMultiSegment node baseUrl parent (·.toMultiSegmentFields)

def segmentTemplateRules : List (ParserRule S Place (MultiSegmentState SegmentTemplate)) :=
  [initializationRule, segmentTimelineRule cursor]

def buildSegmentTemplate (node : Node) (state : MultiSegmentState SegmentTemplate) :
    SegmentTemplate where
  toMultiSegmentFields := state.fields.inherit (state.parent.map (·.toMultiSegmentFields))
  initializationTemplate := parseUrlTemplate node "initialization"
    (state.parent.bind (·.initializationTemplate))
  mediaTemplate := parseUrlTemplate node "media" (state.parent.bind (·.mediaTemplate))

def parseSegmentTemplate (node : Node) (place : Place) (baseUrl : String)
    (parent : Option SegmentBase) : ParseFunction S SegmentBase :=
  element cursor (startSegmentTemplate node baseUrl parent) (segmentTemplateRules cursor)
    (fun state => pure (.template (buildSegmentTemplate node state))) place

/-! ContentProtection -/

structure ContentProtectionState where
  schemeUriId : String
  seenPsshElement : Bool := false
deriving DecidableEq, Repr

-- The data of the element is thrown away with it: there is no uuid yet.
def contentProtectionRules : List (ParserRule S Place ContentProtectionState) :=
  [.inside (named "cenc:pssh") (fun _ => false) (fun _ place _ => cursor.nextText place)
    fun state _ => pure { state with seenPsshElement := true }]

def buildContentProtection (state : ContentProtectionState) : Option ContentProtection :=
  if state.seenPsshElement then none else some { schemeUriId := state.schemeUriId }

def parseContentProtection (node : Node) (place : Place) :
    ParseFunction S (Option ContentProtection) :=
  element cursor (pure { schemeUriId := node.getAttributeValue "schemeIdUri" })
    (contentProtectionRules cursor) (fun state => pure (buildContentProtection state)) place

/-! What the loops of several elements share -/

structure BaseUrlState where
  baseUrlOverride : String
  seenFirstBaseUrl : Bool := false
deriving DecidableEq, Repr

def BaseUrlState.resolve (state : BaseUrlState) (text : String) : BaseUrlState where
  baseUrlOverride := external.resolve state.baseUrlOverride text
  seenFirstBaseUrl := true

def baseUrlRule {σ : Type} (is : Node → Bool) (baseUrl : σ → BaseUrlState)
    (update : σ → BaseUrlState → σ) : ParserRule S Place σ :=
  .inside is (fun state => (baseUrl state).seenFirstBaseUrl) (fun _ place _ => cursor.nextText place)
    fun state text => pure (update state ((baseUrl state).resolve external text))

/-- The branches for a segment base, each of which replaces the one that is in force. -/
def segmentBaseBranches {σ : Type} (baseUrl : σ → String) (parent : σ → Option SegmentBase)
    (update : σ → SegmentBase → σ) : List (ParserRule S Place σ) :=
  let rule name
      (parse : Node → Place → String → Option SegmentBase → ParseFunction S SegmentBase) :=
    Rule.inside (named name) (fun _ => false)
      (fun node place state => parse node place (baseUrl state) (parent state))
      fun state base => pure (update state base)
  [rule "SegmentBase" (parseSegmentBase cursor), rule "SegmentList" (parseSegmentList cursor),
    rule "SegmentTemplate" (parseSegmentTemplate cursor)]

def descriptorRule {σ : Type} (name : String) (push : σ → DescriptorType → σ) :
    ParserRule S Place σ :=
  .attributes (called name) fun node state => pure (push state (parseDescriptorType node))

def audioChannelRule {σ : Type} (update : σ → Int → σ) : ParserRule S Place σ :=
  .attributes (named "AudioChannelConfiguration") fun node state => do
    let audioChannels ← parseAudioChannelConfiguration node
    pure (update state audioChannels)

def contentProtectionRule {σ : Type} (protect : σ → ContentProtection → σ) :
    ParserRule S Place σ :=
  .inside (named "ContentProtection") (fun _ => false)
    (fun node place _ => parseContentProtection cursor node place)
    fun state protection => pure ((protection.map (protect state)).getD state)

/-! Representation -/

structure AdaptationSetState where
  id : Int
  contentType : AdaptationType
  mimeType : String
  codecs : String
  width : Int
  height : Int
  frameRate : FrameRate
  maxPlayoutRate : Int
  audioChannels : Int
  audioSamplingRate : Int
  language : String
  baseUrl : BaseUrlState
  segmentBase : Option SegmentBase
  segmentBaseOverride : Option SegmentBase := none
  contentProtectionsBuilder : ContentProtectionsBuilder := {}
  representations : List Representation := []
  supplementalProperties : List DescriptorType := []
  essentialProperties : List DescriptorType := []
deriving DecidableEq, Repr

-- `segmentBase` is the one in force: the representation's own, or that of a higher level.
structure RepresentationState where
  id : String
  bandwidth : Int
  mimeType : String
  codecs : String
  width : Int
  height : Int
  frameRate : FrameRate
  maxPlayoutRate : Int
  audioChannels : Int
  audioSamplingRate : Int
  language : String
  baseUrl : BaseUrlState
  segmentBase : Option SegmentBase
  contentProtectionsBuilder : ContentProtectionsBuilder
  supplementalProperties : List DescriptorType := []
  essentialProperties : List DescriptorType := []
deriving DecidableEq, Repr

def startRepresentation (node : Node) (set : AdaptationSetState) : Attempt RepresentationState := do
  let bandwidth ← orNull (← node.parseInt "bandwidth" (-1))
  let width ← orNull (← node.parseInt "width" set.width)
  let height ← orNull (← node.parseInt "height" set.height)
  let frameRate ← orNull (← parseFrameRate node set.frameRate)
  let maxPlayoutRate ← orNull (← node.parseInt "maxPlayoutRate" set.maxPlayoutRate)
  let audioSamplingRate ← orNull (← node.parseInt "audioSamplingRate" set.audioSamplingRate)
  pure
    { id := node.getAttributeValue "id"
      bandwidth
      mimeType := node.getAttributeValue "mimeType" set.mimeType
      codecs := node.getAttributeValue "codecs" set.codecs
      width
      height
      frameRate
      maxPlayoutRate
      audioChannels := set.audioChannels
      audioSamplingRate
      language := set.language
      baseUrl := { baseUrlOverride := set.baseUrl.baseUrlOverride }
      segmentBase := set.segmentBase
      contentProtectionsBuilder := set.contentProtectionsBuilder }

def representationRules : List (ParserRule S Place RepresentationState) :=
  [baseUrlRule external cursor (named "BaseURL") (·.baseUrl)
      fun state baseUrl => { state with baseUrl },
    descriptorRule "SupplementalProperty" fun state descriptor =>
      { state with supplementalProperties := state.supplementalProperties ++ [descriptor] },
    descriptorRule "EssentialProperty" fun state descriptor =>
      { state with essentialProperties := state.essentialProperties ++ [descriptor] },
    audioChannelRule fun state audioChannels => { state with audioChannels }] ++
  segmentBaseBranches cursor (·.baseUrl.baseUrlOverride) (·.segmentBase)
    (fun state base => { state with segmentBase := some base }) ++
  [contentProtectionRule cursor fun state protection =>
      { state with
        contentProtectionsBuilder :=
          (state.contentProtectionsBuilder.addAdaptationSetProtection protection).2 }]

def buildFormat (state : RepresentationState) : Format where
  id := state.id
  mimeType := state.mimeType
  codecs := if isAudio state.mimeType ∧ state.codecs = "eac3" then "ec-3" else state.codecs
  language := state.language
  audioChannels := state.audioChannels
  width := state.width
  height := state.height
  maxPlayoutRate := state.maxPlayoutRate
  bitrate := state.bandwidth
  frameRate := state.frameRate
  audioSamplingRate := state.audioSamplingRate

def buildRepresentation (state : RepresentationState) : Representation where
  contentId
  format := buildFormat state
  segmentBase := state.segmentBase.getD (.single
    { baseUrl := state.baseUrl.baseUrlOverride
      initialization := none
      timescale := 1
      presentationTimeOffset := 0
      indexStart := 0
      indexLength := -1 })
  supplementalProperties := state.supplementalProperties
  essentialProperties := state.essentialProperties

def parseRepresentation (node : Node) (place : Place) (set : AdaptationSetState) :
    ParseFunction S (Representation × ContentProtectionsBuilder) :=
  element cursor (startRepresentation node set) (representationRules external cursor)
    (fun state => pure (buildRepresentation contentId state, state.contentProtectionsBuilder)) place

/-! AdaptationSet -/

def startAdaptationSet (node : Node) (baseUrl : String) (segmentBase : Option SegmentBase) :
    Attempt AdaptationSetState := do
  let id ← orNull (← node.parseInt "id" (-1))
  let width ← orNull (← node.parseInt "width" (-1))
  let height ← orNull (← node.parseInt "height" (-1))
  let frameRate ← orNull (← parseFrameRate node { numerator := -1, denominator := 1 })
  let maxPlayoutRate ← orNull (← node.parseInt "maxPlayoutRate" 1)
  let audioSamplingRate ← orNull (← node.parseInt "audioSamplingRate" (-1))
  pure
    { id
      contentType := parseContentType node
      mimeType := node.getAttributeValue "mimeType"
      codecs := node.getAttributeValue "codecs"
      width
      height
      frameRate
      maxPlayoutRate
      audioChannels := -1
      audioSamplingRate
      language := node.getAttributeValue "lang"
      baseUrl := { baseUrlOverride := baseUrl }
      segmentBase }

def contentComponent (node : Node) (state : AdaptationSetState) : Attempt AdaptationSetState :=
  pure { state with
    language := checkLanguageConsistency state.language (node.getAttributeValue "lang")
    contentType := checkContentTypeConsistency state.contentType (parseContentType node) }

def addRepresentation (state : AdaptationSetState)
    (parsed : Representation × ContentProtectionsBuilder) : Attempt AdaptationSetState := do
  let (representation, builder) := parsed
  let (_, contentProtectionsBuilder) ← liftM builder.endRepresentation
  pure { state with
    contentProtectionsBuilder
    contentType := checkContentTypeConsistency state.contentType
      (getContentType representation.format.mimeType representation.format.codecs)
    representations := state.representations ++ [representation] }

def adaptationSetRules : List (ParserRule S Place AdaptationSetState) :=
  [baseUrlRule external cursor (named "BaseURL") (·.baseUrl)
      fun state baseUrl => { state with baseUrl },
    descriptorRule "SupplementalProperty" fun state descriptor =>
      { state with supplementalProperties := state.supplementalProperties ++ [descriptor] },
    descriptorRule "EssentialProperty" fun state descriptor =>
      { state with essentialProperties := state.essentialProperties ++ [descriptor] },
    contentProtectionRule cursor fun state protection =>
      { state with
        contentProtectionsBuilder :=
          (state.contentProtectionsBuilder.addAdaptationSetProtection protection).2 },
    .attributes (named "ContentComponent") contentComponent,
    .inside (named "Representation") (fun _ => false)
      (parseRepresentation external contentId cursor) addRepresentation,
    audioChannelRule fun state audioChannels => { state with audioChannels }] ++
  segmentBaseBranches cursor (·.baseUrl.baseUrlOverride) (·.segmentBase) fun state base =>
    { state with segmentBase := some base, segmentBaseOverride := some base }

def buildAdaptationSet (state : AdaptationSetState) : AdaptationSet where
  id := state.id
  type := state.contentType
  representations := state.representations
  contentProtections := state.contentProtectionsBuilder.build
  segmentBase := state.segmentBaseOverride
  supplementalProperties := state.supplementalProperties
  essentialProperties := state.essentialProperties

def parseAdaptationSet (node : Node) (place : Place) (baseUrl : String)
    (segmentBase : Option SegmentBase) : ParseFunction S AdaptationSet :=
  element cursor (startAdaptationSet node baseUrl segmentBase)
    (adaptationSetRules external contentId cursor) (fun state => pure (buildAdaptationSet state)) place

/-! Period -/

structure PeriodState where
  id : String
  startMs : Int
  durationMs : Int
  baseUrl : BaseUrlState
  segmentBase : Option SegmentBase := none
  adaptationSets : List AdaptationSet := []
  supplementalProperties : List DescriptorType := []
deriving DecidableEq, Repr

def startPeriod (node : Node) (baseUrl : String) (defaultStartMs : Int) : Attempt PeriodState := do
  let startMs ← node.parseDuration external "start" defaultStartMs
  let durationMs ← node.parseDuration external "duration" (-1)
  pure
    { id := node.getAttributeValue "id"
      startMs
      durationMs
      baseUrl := { baseUrlOverride := baseUrl } }

def periodRules : List (ParserRule S Place PeriodState) :=
  [baseUrlRule external cursor (named "BaseURL") (·.baseUrl)
      fun state baseUrl => { state with baseUrl },
    descriptorRule "SupplementalProperty" fun state descriptor =>
      { state with supplementalProperties := state.supplementalProperties ++ [descriptor] },
    .inside (named "AdaptationSet") (fun _ => false)
      (fun node place state => parseAdaptationSet external contentId cursor node place
        state.baseUrl.baseUrlOverride state.segmentBase)
      fun state adaptationSet =>
        pure { state with adaptationSets := state.adaptationSets ++ [adaptationSet] }] ++
  segmentBaseBranches cursor (·.baseUrl.baseUrlOverride) (fun _ => none) fun state base =>
    { state with segmentBase := some base }

def buildPeriod (state : PeriodState) : Period where
  id := state.id
  startMs := state.startMs
  adaptationSets := state.adaptationSets
  segmentBase := state.segmentBase
  supplementalProperties := state.supplementalProperties

def parsePeriod (node : Node) (place : Place) (baseUrl : String) (defaultStartMs : Int) :
    ParseFunction S (Period × Int) :=
  element cursor (startPeriod external node baseUrl defaultStartMs)
    (periodRules external contentId cursor)
    (fun state => pure (buildPeriod state, state.durationMs)) place

/-! MPD -/

structure MpdState where
  availabilityStartTime : Int
  durationMs : Int
  minBufferTimeMs : Int
  dynamic : Bool
  minUpdateTimeMs : Int
  timeShiftBufferDepthMs : Int
  nextPeriodStartMs : Int
  baseUrl : BaseUrlState
  seenEarlyAccessPeriod : Bool := false
  utcTiming : Option DescriptorType := none
  location : String := ""
  periods : List Period := []
  supplementalProperties : List DescriptorType := []
  essentialProperties : List DescriptorType := []
deriving DecidableEq, Repr

def startMpd (node : Node) (baseUrl : String) : Attempt MpdState := do
  let availabilityStartTime ← node.parseDateTime external "availabilityStartTime" (-1)
  let durationMs ← node.parseDuration external "mediaPresentationDuration" (-1)
  let minBufferTimeMs ← node.parseDuration external "minBufferTime" (-1)
  let dynamic := node.getProp "type" == some "dynamic"
  let minUpdateTimeMs ←
    if dynamic then node.parseDuration external "minimumUpdatePeriod" (-1) else pure (-1)
  let timeShiftBufferDepthMs ←
    if dynamic then node.parseDuration external "timeShiftBufferDepth" (-1) else pure (-1)
  pure
    { availabilityStartTime
      durationMs
      minBufferTimeMs
      dynamic
      minUpdateTimeMs
      timeShiftBufferDepthMs
      nextPeriodStartMs := if dynamic then -1 else 0
      baseUrl := { baseUrlOverride := baseUrl } }

def addPeriod (state : MpdState) (parsed : Period × Int) : Attempt MpdState :=
  let (period, durationMs) := parsed
  if period.startMs = -1 then
    if state.dynamic then pure { state with seenEarlyAccessPeriod := true }
    else throw .unableToDetermineStart
  else
    pure { state with
      nextPeriodStartMs := if durationMs = -1 then -1 else period.startMs + durationMs
      periods := state.periods ++ [period] }

def mpdRules : List (ParserRule S Place MpdState) :=
  [baseUrlRule external cursor (called "BaseURL") (·.baseUrl)
      fun state baseUrl => { state with baseUrl },
    descriptorRule "SupplementalProperty" fun state descriptor =>
      { state with supplementalProperties := state.supplementalProperties ++ [descriptor] },
    descriptorRule "EssentialProperty" fun state descriptor =>
      { state with essentialProperties := state.essentialProperties ++ [descriptor] },
    descriptorRule "UTCTiming" fun state descriptor => { state with utcTiming := some descriptor },
    .inside (called "Location") (fun _ => false) (fun _ place _ => cursor.nextText place)
      fun state location => pure { state with location },
    .inside (called "Period") (·.seenEarlyAccessPeriod)
      (fun node place state => parsePeriod external contentId cursor node place
        state.baseUrl.baseUrlOverride state.nextPeriodStartMs)
      addPeriod]

def buildMpd (state : MpdState) : Option MediaPresentationDescription :=
  let duration :=
    if state.durationMs = -1 ∧ state.nextPeriodStartMs ≠ -1 then state.nextPeriodStartMs
    else state.durationMs
  if state.durationMs = -1 ∧ state.nextPeriodStartMs = -1 ∧ ¬ state.dynamic then none
  else if state.periods.isEmpty then none
  else
    some
      { availabilityStartTime := state.availabilityStartTime
        duration
        minBufferTime := state.minBufferTimeMs
        dynamic := state.dynamic
        minUpdatePeriod := state.minUpdateTimeMs
        timeShiftBufferDepth := state.timeShiftBufferDepthMs
        utcTiming := state.utcTiming
        location := state.location
        periods := state.periods
        supplementalProperties := state.supplementalProperties
        essentialProperties := state.essentialProperties }

def parseMediaPresentationDescription (node : Node) (place : Place) (baseUrl : String) :
    ParseFunction S (Option MediaPresentationDescription) :=
  element cursor (startMpd external node baseUrl) (mpdRules external contentId cursor)
    (fun state => pure (buildMpd state)) place

end Parser

def parse (external : External) (contentId connectionUrl : String) (events : List (Event Node))
    (errno : Int) : Except Failure (Option MediaPresentationDescription) :=
  match events with
  | [] => .ok none
  | event :: rest =>
    if called "MPD" (event.node textNode) then do
      let ((mpd, _), _) ← parseMediaPresentationDescription external contentId
        (reader textNode .diverges) (event.node textNode) event.depth connectionUrl rest errno
      .ok mpd
    else .ok none

end NDash.Mpd.Manifest
