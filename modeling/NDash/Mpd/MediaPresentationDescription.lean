import NDash.Mpd.DashSegmentIndex

set_option autoImplicit false

namespace NDash.Mpd

structure Format where
  id : String
  mimeType : String := ""
  codecs : String := ""
  language : String := ""
  audioChannels : Int := 0
  width : Int := -1
  height : Int := -1
  maxPlayoutRate : Int := 1
  bitrate : Int := 0
deriving DecidableEq, Repr

-- Format::operator==
def Format.same (first second : Format) : Bool := first.id == second.id

-- `index` is GetIndex(), what the manifest says of the segments. `owner` tells manifests of equal
-- content apart: pointers into a manifest are good as long as that one lives.
structure Representation where
  format : Format
  index : Option DashSegmentIndex := none
  initializationUri : Option RangedUri := none
  indexUri : Option RangedUri := none
  owner : Nat := 0

structure AdaptationSet where
  representations : List Representation
  supplementalSchemes : List String := []

structure Period where
  startMs : Nat
  adaptationSets : List AdaptationSet

structure MediaPresentationDescription where
  periods : List Period
  duration : Int := -1
  dynamic : Bool := false
  availabilityStartTime : Int := 0
  timeShiftBufferDepth : Int := -1

namespace MediaPresentationDescription

def getPeriod (manifest : MediaPresentationDescription) (index : Nat) : Except Fault Period :=
  match manifest.periods[index]? with
  | some period => .ok period
  | none => .error .outOfBounds

theorem getPeriod_ok {manifest : MediaPresentationDescription} {index : Nat} {period : Period} :
    manifest.getPeriod index = .ok period ↔ manifest.periods[index]? = some period := by
  unfold getPeriod
  cases manifest.periods[index]? with
  | none => simp
  | some listed => simp

def getPeriodDuration (manifest : MediaPresentationDescription) (index : Nat) : Int :=
  match manifest.periods[index]?, manifest.periods[index + 1]? with
  | none, _ => -1
  | some period, some next => next.startMs - period.startMs
  | some period, none =>
    if manifest.duration = -1 then -1
    else (manifest.periods.head?.map fun first => (first.startMs : Int)).getD 0 +
      manifest.duration - period.startMs

def startTimes (manifest : MediaPresentationDescription) : List Nat :=
  manifest.periods.map Period.startMs

end MediaPresentationDescription

/-! The same content in another manifest object -/

def Representation.ownedBy (owner : Nat) (representation : Representation) : Representation :=
  { representation with owner }

def AdaptationSet.ownedBy (owner : Nat) (set : AdaptationSet) : AdaptationSet :=
  { set with representations := set.representations.map (·.ownedBy owner) }

def Period.ownedBy (owner : Nat) (period : Period) : Period :=
  { period with adaptationSets := period.adaptationSets.map (·.ownedBy owner) }

def MediaPresentationDescription.ownedBy (owner : Nat) (manifest : MediaPresentationDescription) :
    MediaPresentationDescription :=
  { manifest with periods := manifest.periods.map (·.ownedBy owner) }

structure TrackCriteria where
  matchesMimeType : String → Bool
  preferTrick : Bool := false
  preferredLang : String := ""
  preferredChannels : Nat := 0
  preferredCodec : String := ""

end NDash.Mpd
