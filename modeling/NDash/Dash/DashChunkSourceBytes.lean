import NDash.Dash.DashChunkSource
import NDash.Mpd.ManifestRanges
import NDash.Upstream.DataSpec

set_option autoImplicit false

/-!
# The bytes of a request

A range of bytes comes from an attribute or from a segment index, becomes a RangedUri, and then the
DataSpec of a chunk.
-/

namespace NDash.Dash

open Mpd Extractor Upstream

-- What NewInitializationChunk and NewMediaChunk make of a URI and a cache key.
def dataSpec (resolve : String → String → String) (uri : RangedUri) (cacheKey : String) :
    DataSpec where
  uri := uri.getUriString resolve
  absoluteStreamPosition := uri.start
  position := uri.start
  length := uri.length
  key := some cacheKey

def InitializationChunk.dataSpec (resolve : String → String → String) (chunk : InitializationChunk)
    (cacheKey : String) : DataSpec := Dash.dataSpec resolve chunk.uri cacheKey

def MediaChunk.dataSpec (resolve : String → String → String) (chunk : Dash.MediaChunk)
    (cacheKey : String) : DataSpec := Dash.dataSpec resolve chunk.uri cacheKey

structure Requests (dataSpec : DataSpec) (start length : Int) : Prop where
  absolute : dataSpec.absoluteStreamPosition = start
  position : dataSpec.position = start
  amount : dataSpec.length = length
  served : ∀ content, dataSpec.range content = (content.drop start.toNat).take length.toNat

structure Carries (resolve : String → String → String) (uri : RangedUri) (start length : Int) :
    Prop where
  reportsStart : uri.start = start
  reportsLength : uri.length = length
  initialization : ∀ parentId representation cacheKey chunk,
    DashChunkSource.newInitializationChunk resolve parentId representation (some uri) none =
      .ok chunk → Requests (chunk.dataSpec resolve cacheKey) start length
  index : ∀ parentId representation cacheKey chunk,
    DashChunkSource.newInitializationChunk resolve parentId representation none (some uri) =
      .ok chunk → Requests (chunk.dataSpec resolve cacheKey) start length
  media : ∀ holder (representationHolder : RepresentationHolder) segmentNum cacheKey chunk,
    representationHolder.getSegmentUri segmentNum = .ok (some uri) →
      DashChunkSource.newMediaChunk holder representationHolder segmentNum = .ok chunk →
        Requests (chunk.dataSpec resolve cacheKey) start length

variable {resolve : String → String → String}

theorem requests_of_range {uri : RangedUri} (nonneg : 0 ≤ uri.length) (cacheKey : String) :
    Requests (dataSpec resolve uri cacheKey) uri.start uri.length where
  absolute := rfl
  position := rfl
  amount := rfl
  served := by
    intro content
    have bounded : (dataSpec resolve uri cacheKey).length ≠ kLengthUnbounded := by
      show uri.length ≠ -1
      omega
    exact if_neg bounded

theorem newMediaChunk_uri {holder : PeriodHolder} {representationHolder : RepresentationHolder}
    {segmentNum : Int} {uri : RangedUri} {chunk : Dash.MediaChunk}
    (located : representationHolder.getSegmentUri segmentNum = .ok (some uri))
    (made : DashChunkSource.newMediaChunk holder representationHolder segmentNum = .ok chunk) :
    chunk.uri = uri := by
  unfold DashChunkSource.newMediaChunk at made
  obtain ⟨startTimeUs, -, made⟩ := bind_ok made
  obtain ⟨endTimeUs, -, made⟩ := bind_ok made
  obtain ⟨found, same, made⟩ := bind_ok made
  rw [located] at same
  cases same
  cases made
  rfl

theorem carries_iff {uri : RangedUri} {start length : Int} (nonneg : 0 ≤ length) :
    Carries resolve uri start length ↔ uri.start = start ∧ uri.length = length := by
  constructor
  · intro carries
    exact ⟨carries.reportsStart, carries.reportsLength⟩
  · rintro ⟨rfl, rfl⟩
    constructor
    · rfl
    · rfl
    · intro parentId representation cacheKey chunk made
      cases made
      exact requests_of_range nonneg cacheKey
    · intro parentId representation cacheKey chunk made
      cases made
      exact requests_of_range nonneg cacheKey
    · intro holder representationHolder segmentNum cacheKey chunk located made
      have same := newMediaChunk_uri located made
      unfold MediaChunk.dataSpec
      rw [same]
      exact requests_of_range nonneg cacheKey

/-- Behind ParseRange the length is an int64_t, and positive unless the sum overflowed. -/
theorem parseRange_bounds {text : String} {errno errno' start length : Int}
    (parsed : Manifest.parseRange text errno = .ok (some (start, length), errno')) :
    0 ≤ start ∧ (0 < length ∧ length < 2 ^ 63 ∨ length = -2 ^ 63) := by
  by_cases stale : errno = Manifest.ERANGE
  · rw [stale, Manifest.parseRange_stale] at parsed
    cases parsed
  · obtain ⟨first, last, lenient, same, -⟩ := (Manifest.parseRange_iff stale).mp parsed
    obtain ⟨rfl, rfl⟩ := Prod.mk.inj same
    have bounds := lenient.bounds
    unfold toInt64
    omega

theorem parseRange_empty (errno : Int) : Manifest.parseRange "" errno = .ok (none, errno) := rfl

/-- A range of an attribute, and one of a segment index, is carried over exactly if its length is an
int32_t, and its start an int64_t. -/
theorem range_carries_iff (resolve : String → String → String) :
    (∀ node baseUrl urlAttribute rangeAttribute errno errno' start length,
      Manifest.parseRange (Manifest.Node.getAttributeValue node rangeAttribute) errno =
        .ok (some (start, length), errno') →
      ∃ uri, Manifest.parseRangedUrl node baseUrl urlAttribute rangeAttribute errno =
          .ok (uri, errno') ∧
        (Carries resolve uri start length ↔ 0 ≤ length ∧ length < 2147483648)) ∧
    (∀ (chunkIndex : ChunkIndex) indexUri (segmentNum : Int) (offset size : Nat), 0 ≤ segmentNum →
      chunkIndex.offsets[segmentNum.toNat]? = some offset →
      chunkIndex.sizes[segmentNum.toNat]? = some size → offset < 2 ^ 64 → size < 2 ^ 32 →
      ∃ uri, (wrappingSegmentIndex chunkIndex indexUri).getSegmentUrl segmentNum = some uri ∧
        (Carries resolve uri offset size ↔ offset < 2 ^ 63 ∧ size < 2147483648)) := by
  constructor
  · intro node baseUrl urlAttribute rangeAttribute errno errno' start length parsed
    have bounds := parseRange_bounds parsed
    refine ⟨.create baseUrl (node.getAttributeValue urlAttribute) start length, ?_, ?_⟩
    · have present : ¬ (node.getAttributeValue rangeAttribute).isEmpty := by
        intro absent
        rw [String.isEmpty_iff.mp absent, parseRange_empty] at parsed
        cases parsed
      unfold Manifest.parseRangedUrl
      dsimp only
      rw [if_neg present, Manifest.attempt_bind, parsed]
      rfl
    · constructor
      · intro carries
        have same : toInt32 length = length := carries.reportsLength
        unfold toInt32 at same
        omega
      · rintro ⟨nonneg, fits⟩
        exact (carries_iff nonneg).mpr ⟨rfl, (toInt32_eq_self_iff nonneg).mpr fits⟩
  · intro chunkIndex indexUri segmentNum offset size nonneg offsets sizes offsetFits sizeFits
    refine ⟨.create indexUri "" (toInt64 offset) size, ?_, ?_⟩
    · show (do
        guard (0 ≤ segmentNum)
        let offset ← chunkIndex.offsets[segmentNum.toNat]?
        let size ← chunkIndex.sizes[segmentNum.toNat]?
        return RangedUri.create indexUri "" (toInt64 offset) size) = _
      rw [offsets, sizes, guard, if_pos nonneg]
      rfl
    · rw [carries_iff (by omega)]
      show toInt64 offset = offset ∧ toInt32 size = size ↔ _
      rw [toInt64_eq_self_iff (by omega), toInt32_eq_self_iff (by omega)]
      omega

-- The 2 GiB of a mediaRange become a negative length, and a sidx entry of 4 GiB the rest of the file.
theorem range_carries_iff_large :
    let node : Manifest.Node :=
      { name := "SegmentURL", attributes := [("mediaRange", "0-2147483647")] }
    let chunkIndex : ChunkIndex := ⟨[4294967295], [1000], [2000000], [0]⟩
    Manifest.parseRange (node.getAttributeValue "mediaRange") 0 = .ok (some (0, 2147483648), 0) ∧
      Manifest.parseRangedUrl node "video" "media" "mediaRange" 0 =
        .ok (⟨"video", "", 0, -2147483648⟩, 0) ∧
      ¬ Carries (fun base _ => base) ⟨"video", "", 0, -2147483648⟩ 0 2147483648 ∧
      (wrappingSegmentIndex chunkIndex "video").getSegmentUrl 0 = some ⟨"video", "", 1000, -1⟩ ∧
      ¬ Carries (fun base _ => base) ⟨"video", "", 1000, -1⟩ 1000 4294967295 := by
  intro node chunkIndex
  refine ⟨by decide +kernel, by decide +kernel, ?_, rfl, ?_⟩
  · intro carries
    exact absurd carries.reportsLength (by decide)
  · intro carries
    exact absurd carries.reportsLength (by decide)

theorem range_carries_iff_small :
    let node : Manifest.Node :=
      { name := "SegmentURL", attributes := [("mediaRange", "100-149")] }
    let chunkIndex : ChunkIndex := ⟨[500], [1000], [2000000], [0]⟩
    (∃ uri, Manifest.parseRangedUrl node "video" "media" "mediaRange" 0 = .ok (uri, 0) ∧
      Carries (fun base _ => base) uri 100 50) ∧
      ∃ uri, (wrappingSegmentIndex chunkIndex "video").getSegmentUrl 0 = some uri ∧
        Carries (fun base _ => base) uri 1000 500 := by
  intro node chunkIndex
  obtain ⟨attributes, entries⟩ := range_carries_iff fun base _ => base
  obtain ⟨uri, parsed, carries⟩ :=
    attributes node "video" "media" "mediaRange" 0 0 100 50 (by decide +kernel)
  obtain ⟨entry, located, carried⟩ :=
    entries chunkIndex "video" 0 1000 500 (by decide) rfl rfl (by decide) (by decide)
  exact ⟨⟨uri, parsed, carries.mpr (by decide)⟩, entry, located, carried.mpr (by decide)⟩

end NDash.Dash
