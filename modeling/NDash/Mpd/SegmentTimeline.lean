import Mathlib.Data.Int.Basic
import NDash.Mpd.MultiSegmentBase

set_option autoImplicit false

namespace NDash.Mpd

structure Segment where
  startUs : Int
  durationUs : Int
  uri : RangedUri
deriving DecidableEq, Repr

/-- The index lists these segments, numbered from `first`. -/
structure DashSegmentIndex.Lists (index : DashSegmentIndex) (first : Int) (segments : List Segment) :
    Prop where
  explicit : index.isExplicit = true
  firstNum : index.getFirstSegmentNum = first
  lastNum : ∀ periodDurationUs, index.getLastSegmentNum periodDurationUs =
    first + segments.length - 1
  time : ∀ {i : Nat} {segment}, segments[i]? = some segment →
    index.getTimeUs (first + i) = segment.startUs
  duration : ∀ {i : Nat} {segment} (periodDurationUs : Int), segments[i]? = some segment →
    index.getDurationUs (first + i) periodDurationUs = segment.durationUs
  url : ∀ {i : Nat} {segment}, segments[i]? = some segment →
    index.getSegmentUrl (first + i) = some segment.uri

structure Contiguous (segments : List Segment) : Prop where
  positive : ∀ segment ∈ segments, 0 < segment.durationUs
  adjacent : ∀ {i : Nat} {segment next}, segments[i]? = some segment →
    segments[i + 1]? = some next → next.startUs = segment.startUs + segment.durationUs

theorem Contiguous.ends_by {segments : List Segment} (contiguous : Contiguous segments) {i j : Nat}
    {first second : Segment} (less : i < j) (here : segments[i]? = some first)
    (later : segments[j]? = some second) :
    first.startUs + first.durationUs ≤ second.startUs := by
  induction j generalizing second with
  | zero => omega
  | succ j ih =>
    have inside : j < segments.length := by
      have := (List.getElem?_eq_some_iff.mp later).1
      omega
    have before : segments[j]? = some segments[j] := List.getElem?_eq_getElem inside
    have step := contiguous.adjacent before later
    have positive := contiguous.positive segments[j] (List.getElem_mem inside)
    rcases Nat.lt_or_eq_of_le (Nat.le_of_lt_succ less) with earlier | same
    · have := ih earlier before
      omega
    · subst same
      rw [here] at before
      cases before
      omega

theorem Contiguous.starts_increase {segments : List Segment} (contiguous : Contiguous segments)
    {i j : Nat} {first second : Segment} (less : i < j) (here : segments[i]? = some first)
    (later : segments[j]? = some second) : first.startUs < second.startUs := by
  have ends := contiguous.ends_by less here later
  have positive := contiguous.positive first (List.mem_of_getElem? here)
  omega

theorem Contiguous.start_unique {segments : List Segment} (contiguous : Contiguous segments)
    {i j : Nat} {first second : Segment} (here : segments[i]? = some first)
    (also : segments[j]? = some second) (same : first.startUs = second.startUs) : i = j := by
  rcases Nat.lt_trichotomy i j with less | equal | more
  · have := contiguous.starts_increase less here also
    omega
  · exact equal
  · have := contiguous.starts_increase more also here
    omega

theorem DashSegmentIndex.Lists.increasing {index : DashSegmentIndex} {first last : Int}
    {segments : List Segment} (lists : index.Lists first segments)
    (contiguous : Contiguous segments) (bound : last < first + segments.length) :
    Bisection.Increasing index.getTimeUs first last := by
  intro left right above less below
  obtain ⟨i, rfl⟩ : ∃ i : Nat, left = first + i := ⟨(left - first).toNat, by omega⟩
  obtain ⟨j, rfl⟩ : ∃ j : Nat, right = first + j := ⟨(right - first).toNat, by omega⟩
  have inside : i < segments.length ∧ j < segments.length := by omega
  have here : segments[i]? = some segments[i] := List.getElem?_eq_getElem inside.1
  have there : segments[j]? = some segments[j] := List.getElem?_eq_getElem inside.2
  rw [lists.time here, lists.time there]
  exact contiguous.starts_increase (by omega) here there

namespace MultiSegmentBase

variable (rounded : Int → Int → Int → Int)

/-- A SegmentTemplate with a timeline of contiguous segments of positive length, whose times are
whole numbers of microseconds. -/
structure TimelineTemplate (base : MultiSegmentBase) (timeline : List SegmentTimelineElement)
    (buildUri : Int → Int → String) : Prop where
  media : base.media = .template buildUri
  listed : base.segmentTimeline = some timeline
  nonempty : timeline ≠ []
  positive : ∀ element ∈ timeline, 0 < element.duration
  adjacent : ∀ {i : Nat} {element next}, timeline[i]? = some element →
    timeline[i + 1]? = some next → next.startTime = element.startTime + element.duration
  timescale : 0 < base.timescale
  whole : base.timescale ∣ kMicrosPerSecond ∨
    ∃ factor, base.timescale = kMicrosPerSecond * factor ∧ ∀ element ∈ timeline,
      factor ∣ element.startTime - base.presentationTimeOffset ∧ factor ∣ element.duration

structure Representable (base : MultiSegmentBase) (timeline : List SegmentTimelineElement) :
    Prop where
  count : timeline.length ≤ 2147483648
  least : -2147483648 ≤ base.startNumber
  last : base.startNumber + timeline.length ≤ 2147483648

def fitsInt32 (value : Int) : Bool := decide (-2147483648 ≤ value ∧ value < 2147483648)

def searchFits (base : MultiSegmentBase) (timeUs periodDurationUs : Int) : Bool :=
  Bisection.along (fun low high => (low + high).tdiv 2) (base.getSegmentTimeUs rounded) timeUs
    (fun low high => fitsInt32 (low + high)) searchFuel base.getFirstSegmentNum
    (base.getLastSegmentNum periodDurationUs)

structure Timed (base : MultiSegmentBase) (timeline : List SegmentTimelineElement) : Prop where
  listed : base.segmentTimeline = some timeline
  nonempty : timeline ≠ []
  media : ∀ mediaSegments, base.media = .list mediaSegments →
    mediaSegments.length = timeline.length

def segment (base : MultiSegmentBase) (buildUri : Int → Int → String) (i : Nat)
    (element : SegmentTimelineElement) : Segment where
  startUs := scaleLargeTimestamp rounded (element.startTime - base.presentationTimeOffset)
    kMicrosPerSecond base.timescale
  durationUs := (element.duration * kMicrosPerSecond).tdiv base.timescale
  uri := .create base.baseUrl
    (buildUri (base.startNumber + i) (toInt32 element.startTime)) 0 (-1)

def segments (base : MultiSegmentBase) (timeline : List SegmentTimelineElement)
    (buildUri : Int → Int → String) : List Segment :=
  timeline.mapIdx (base.segment rounded buildUri)

variable {rounded}

theorem duration_whole {value timescale : Int}
    (whole : timescale ∣ kMicrosPerSecond ∨
      ∃ factor, timescale = kMicrosPerSecond * factor ∧ factor ∣ value) :
    (value * kMicrosPerSecond).tdiv timescale * timescale = value * kMicrosPerSecond := by
  apply Int.tdiv_mul_cancel
  obtain divides | ⟨factor, rfl, divides⟩ := whole
  · exact Int.dvd_mul_of_dvd_right divides
  · rw [Int.mul_comm value]
    exact Int.mul_dvd_mul_left _ divides

theorem scale_whole {value timescale : Int} (positive : 0 < timescale)
    (whole : timescale ∣ kMicrosPerSecond ∨
      ∃ factor, timescale = kMicrosPerSecond * factor ∧ factor ∣ value) :
    scaleLargeTimestamp rounded value kMicrosPerSecond timescale * timescale =
      value * kMicrosPerSecond := by
  have scale : WholeScale timescale :=
    whole.imp_right fun ⟨factor, product, _⟩ => ⟨positive, factor, product⟩
  rw [scale_eq scale]
  exact duration_whole whole

section

variable {base : MultiSegmentBase} {timeline : List SegmentTimelineElement}
  {buildUri : Int → Int → String}

theorem segments_get {i : Nat} {segment : Segment}
    (found : (base.segments rounded timeline buildUri)[i]? = some segment) :
    ∃ element, timeline[i]? = some element ∧ base.segment rounded buildUri i element = segment := by
  rw [segments, List.getElem?_mapIdx] at found
  exact Option.map_eq_some_iff.mp found

variable (rounded) in
theorem TimelineTemplate.whole_start (template : TimelineTemplate base timeline buildUri)
    {element : SegmentTimelineElement} (member : element ∈ timeline) (i : Nat) :
    (base.segment rounded buildUri i element).startUs * base.timescale =
      (element.startTime - base.presentationTimeOffset) * kMicrosPerSecond := by
  apply scale_whole template.timescale
  obtain divides | ⟨factor, product, each⟩ := template.whole
  · exact .inl divides
  · exact .inr ⟨factor, product, (each element member).1⟩

variable (rounded) in
theorem TimelineTemplate.whole_duration (template : TimelineTemplate base timeline buildUri)
    {element : SegmentTimelineElement} (member : element ∈ timeline) (i : Nat) :
    (base.segment rounded buildUri i element).durationUs * base.timescale =
      element.duration * kMicrosPerSecond := by
  apply duration_whole
  obtain divides | ⟨factor, product, each⟩ := template.whole
  · exact .inl divides
  · exact .inr ⟨factor, product, (each element member).2⟩

variable (rounded) in
theorem TimelineTemplate.contiguous (template : TimelineTemplate base timeline buildUri) :
    Contiguous (base.segments rounded timeline buildUri) where
  positive := by
    intro segment member
    obtain ⟨i, found⟩ := List.getElem?_of_mem member
    obtain ⟨element, here, rfl⟩ := segments_get found
    have inside := List.mem_of_getElem? here
    have whole := template.whole_duration rounded inside i
    have positive : 0 < element.duration * kMicrosPerSecond :=
      Int.mul_pos (template.positive element inside) (by decide)
    rw [← whole] at positive
    exact Int.pos_of_mul_pos_left positive template.timescale
  adjacent := by
    intro i segment next found later
    obtain ⟨element, here, rfl⟩ := segments_get found
    obtain ⟨successor, there, rfl⟩ := segments_get later
    have inside := List.mem_of_getElem? here
    have whole := template.whole_start rounded inside i
    have length := template.whole_duration rounded inside i
    have after := template.whole_start rounded (List.mem_of_getElem? there) (i + 1)
    apply Int.eq_of_mul_eq_mul_right (Int.ne_of_gt template.timescale)
    rw [after, Int.add_mul, whole, length, template.adjacent here there, ← Int.add_mul]
    congr 1
    omega

theorem Representable.element (representable : Representable base timeline) {i : Nat}
    (inside : i < timeline.length) :
    base.element timeline (base.startNumber + i) = timeline[i]? := by
  have count := representable.count
  have index : toInt32 (base.startNumber + i - base.startNumber) = i := by
    rw [toInt32_of_range (by omega) (by omega)]
    omega
  unfold MultiSegmentBase.element
  simp only [index]
  rw [if_neg (by omega), Int.toNat_natCast]

theorem Timed.last_num (timed : Timed base timeline) (representable : Representable base timeline)
    (periodDurationUs : Int) :
    base.getLastSegmentNum periodDurationUs = base.startNumber + timeline.length - 1 := by
  have least := representable.least
  have last := representable.last
  have nonempty : 0 < timeline.length := List.length_pos_iff.mpr timed.nonempty
  unfold getLastSegmentNum
  cases media : base.media with
  | list mediaSegments =>
    have count := timed.media mediaSegments media
    dsimp only
    rw [toInt32_of_range (by omega) (by omega), count]
  | template buildUri =>
    rw [timed.listed]
    dsimp only
    rw [toInt32_of_range (by omega) (by omega)]
    omega

theorem TimelineTemplate.timed (template : TimelineTemplate base timeline buildUri) :
    Timed base timeline where
  listed := template.listed
  nonempty := template.nonempty
  media := by
    intro mediaSegments isList
    rw [template.media] at isList
    cases isList

variable (rounded) in
theorem TimelineTemplate.lists (template : TimelineTemplate base timeline buildUri)
    (representable : Representable base timeline) :
    (base.index rounded).Lists base.startNumber (base.segments rounded timeline buildUri) where
  explicit := by
    show base.isExplicit = true
    rw [isExplicit, template.media, template.listed]
    rfl
  firstNum := rfl
  lastNum := by
    intro periodDurationUs
    rw [segments, List.length_mapIdx]
    exact template.timed.last_num representable periodDurationUs
  time := by
    intro i segment found
    obtain ⟨element, here, rfl⟩ := segments_get found
    show base.getSegmentTimeUs rounded (base.startNumber + i) = _
    rw [getSegmentTimeUs, template.listed]
    simp only [representable.element (List.getElem?_eq_some_iff.mp here).1, here]
    rfl
  duration := by
    intro i segment periodDurationUs found
    obtain ⟨element, here, rfl⟩ := segments_get found
    show base.getSegmentDurationUs rounded (base.startNumber + i) periodDurationUs = _
    rw [getSegmentDurationUs, template.listed]
    simp only [representable.element (List.getElem?_eq_some_iff.mp here).1, here]
    rfl
  url := by
    intro i segment found
    obtain ⟨element, here, rfl⟩ := segments_get found
    show base.getSegmentUri (base.startNumber + i) = _
    rw [getSegmentUri, template.media, template.listed]
    simp only [representable.element (List.getElem?_eq_some_iff.mp here).1, here]
    rfl

theorem half_between {low high : Int} (ordered : low ≤ high) :
    low ≤ (low + high).tdiv 2 ∧ (low + high).tdiv 2 ≤ high := by
  rcases Int.le_total 0 (low + high) with nonneg | negative
  · rw [Int.tdiv_eq_ediv_of_nonneg nonneg]
    omega
  · have half : (low + high).tdiv 2 = -((-(low + high)) / 2) := by
      rw [← Int.tdiv_eq_ediv_of_nonneg (by omega : 0 ≤ -(low + high)), Int.neg_tdiv, Int.neg_neg]
    rw [half]
    omega

/-- The search ends at the last segment that does not start after the time, or at the first one. -/
theorem Timed.getSegmentNum_isFloor (timed : Timed base timeline)
    (representable : Representable base timeline) {timeUs periodDurationUs : Int}
    (increasing : Bisection.Increasing (base.getSegmentTimeUs rounded) base.startNumber
      (base.startNumber + timeline.length - 1))
    (fits : base.searchFits rounded timeUs periodDurationUs = true) :
    ∃ segmentNum, base.getSegmentNum rounded timeUs periodDurationUs = .ok segmentNum ∧
      Bisection.IsFloor (base.getSegmentTimeUs rounded) timeUs base.startNumber
        (base.startNumber + timeline.length - 1) segmentNum := by
  have last := timed.last_num representable periodDurationUs
  have count := representable.count
  have nonempty : 0 < timeline.length := List.length_pos_iff.mpr timed.nonempty
  have wraps : ∀ low high, fitsInt32 (low + high) = true →
      midIndex low high = (low + high).tdiv 2 := by
    intro low high within
    have within := of_decide_eq_true within
    rw [midIndex, toInt32_of_range within.1 within.2]
  have correct : Bisection.Correct (base.getSegmentTimeUs rounded) timeUs base.startNumber
      (base.startNumber + timeline.length - 1)
      (Bisection.search (fun low high => (low + high).tdiv 2) (base.getSegmentTimeUs rounded) timeUs
        searchFuel base.startNumber (base.startNumber + timeline.length - 1)) :=
    Bisection.search_correct increasing (fun _ _ _ ordered _ => half_between ordered) (by omega)
      (by rw [searchFuel]; omega)
  rw [searchFits, getFirstSegmentNum, last] at fits
  rw [← Bisection.search_congr wraps fits] at correct
  unfold getSegmentNum
  simp only [timed.listed, getFirstSegmentNum, last]
  cases outcome : Bisection.search midIndex (base.getSegmentTimeUs rounded) timeUs searchFuel
      base.startNumber (base.startNumber + timeline.length - 1) with
  | found index =>
    rw [outcome] at correct
    exact ⟨index, rfl, correct.found_isFloor increasing⟩
  | crossed lowIndex highIndex =>
    rw [outcome] at correct
    exact ⟨_, rfl, correct.crossed_isFloor (by omega)⟩
  | diverged =>
    rw [outcome] at correct
    exact correct.elim

theorem TimelineTemplate.getSegmentNum_start (template : TimelineTemplate base timeline buildUri)
    (representable : Representable base timeline) {i : Nat} {segment : Segment}
    (found : (base.segments rounded timeline buildUri)[i]? = some segment) {periodDurationUs : Int}
    (fits : base.searchFits rounded segment.startUs periodDurationUs = true) :
    base.getSegmentNum rounded segment.startUs periodDurationUs = .ok (base.startNumber + i) := by
  have lists := template.lists rounded representable
  have inside : i < timeline.length := by
    obtain ⟨element, here, -⟩ := segments_get found
    exact (List.getElem?_eq_some_iff.mp here).1
  have increasing : Bisection.Increasing (base.getSegmentTimeUs rounded) base.startNumber
      (base.startNumber + timeline.length - 1) := by
    apply lists.increasing (template.contiguous rounded)
    rw [segments, List.length_mapIdx]
    omega
  obtain ⟨segmentNum, searched, floor⟩ :=
    template.timed.getSegmentNum_isFloor representable increasing fits
  rw [searched, floor.eq_of_key increasing (by omega) (by omega) (lists.time found)]

/-- Whatever the time, the search returns the last listed segment that starts at it or before it, or
the first one where all start later. -/
theorem timeline_lookup_exact (timed : Timed base timeline)
    (representable : Representable base timeline) {timeUs periodDurationUs : Int}
    (increasing : ∀ first second, base.startNumber ≤ first → first < second →
      second < base.startNumber + timeline.length →
      base.getSegmentTimeUs rounded first < base.getSegmentTimeUs rounded second)
    (fits : base.searchFits rounded timeUs periodDurationUs = true) :
    ∃ segmentNum, base.getSegmentNum rounded timeUs periodDurationUs = .ok segmentNum ∧
      base.startNumber ≤ segmentNum ∧ segmentNum < base.startNumber + timeline.length ∧
      (base.getSegmentTimeUs rounded segmentNum ≤ timeUs ∨
        segmentNum = base.startNumber ∧ ∀ other, base.startNumber ≤ other →
          other < base.startNumber + timeline.length →
          timeUs < base.getSegmentTimeUs rounded other) ∧
      ∀ other, base.startNumber ≤ other → other < base.startNumber + timeline.length →
        (base.getSegmentTimeUs rounded other ≤ timeUs → other ≤ segmentNum) ∧
        (base.getSegmentTimeUs rounded other = timeUs → segmentNum = other) := by
  have inside : Bisection.Increasing (base.getSegmentTimeUs rounded) base.startNumber
      (base.startNumber + timeline.length - 1) := by
    intro first second lower less upper
    exact increasing first second lower less (by omega)
  obtain ⟨segmentNum, searched, floor⟩ := timed.getSegmentNum_isFloor representable inside fits
  refine ⟨segmentNum, searched, floor.lower, Int.lt_of_le_sub_one floor.upper, ?_, ?_⟩
  · rcases floor.reached with reached | ⟨isFirst, later⟩
    · exact .inl reached
    · exact .inr ⟨isFirst, fun other lower upper => later other lower (by omega)⟩
  · intro other lower upper
    exact ⟨floor.latest other lower (by omega), floor.eq_of_key inside lower (by omega)⟩

-- Two segments with a gap between them, in a list that is numbered from 5.
theorem timeline_lookup_exact_gap :
    let rounded : Int → Int → Int → Int := fun timestamp _ _ => timestamp
    let base : MultiSegmentBase :=
      { startNumber := 5
        segmentTimeline := some [⟨0, 2⟩, ⟨10, 2⟩]
        media := .list [.create "first" "" 0 (-1), .create "second" "" 0 (-1)] }
    base.getSegmentNum rounded 7000000 0 = .ok 5 ∧ base.getSegmentNum rounded 10000000 0 = .ok 6 := by
  intro rounded base
  have timed : Timed base [⟨0, 2⟩, ⟨10, 2⟩] := ⟨rfl, nofun, by rintro _ ⟨⟩; rfl⟩
  have representable : Representable base [⟨0, 2⟩, ⟨10, 2⟩] := ⟨by decide, by decide, by decide⟩
  have increasing : ∀ first second, base.startNumber ≤ first → first < second →
      second < base.startNumber + [(⟨0, 2⟩ : SegmentTimelineElement), ⟨10, 2⟩].length →
      base.getSegmentTimeUs rounded first < base.getSegmentTimeUs rounded second := by
    intro first second lower less upper
    simp only [base, List.length_cons, List.length_nil] at lower upper
    obtain ⟨rfl, rfl⟩ : first = 5 ∧ second = 6 := by omega
    decide
  have early : base.searchFits rounded 7000000 0 = true := by decide
  have late : base.searchFits rounded 10000000 0 = true := by decide
  constructor
  · obtain ⟨segmentNum, searched, lower, upper, reached, -⟩ :=
      timeline_lookup_exact timed representable increasing early
    simp only [base, List.length_cons, List.length_nil] at lower upper
    have notSecond : segmentNum ≠ 6 := by
      rintro rfl
      rcases reached with reached | ⟨isFirst, -⟩
      · exact absurd reached (by decide)
      · exact absurd isFirst (by decide)
    obtain rfl : segmentNum = 5 := by omega
    exact searched
  · obtain ⟨segmentNum, searched, -, -, -, others⟩ :=
      timeline_lookup_exact timed representable increasing late
    obtain rfl : segmentNum = 6 := (others 6 (by decide) (by decide)).2 (by decide)
    exact searched

theorem midIndex_range (low high : Int) :
    -1073741824 ≤ midIndex low high ∧ midIndex low high < 1073741824 := by
  have bounds : -2147483648 ≤ toInt32 (low + high) ∧ toInt32 (low + high) < 2147483648 := by
    unfold toInt32
    omega
  unfold midIndex
  generalize toInt32 (low + high) = sum at bounds ⊢
  rcases Int.le_total 0 sum with nonneg | negative
  · rw [Int.tdiv_eq_ediv_of_nonneg nonneg]
    omega
  · have half : sum.tdiv 2 = -(-sum / 2) := by
      rw [← Int.tdiv_eq_ediv_of_nonneg (by omega : 0 ≤ -sum), Int.neg_tdiv, Int.neg_neg]
    rw [half]
    omega

/-- No middle reaches an index whose numbers start at 2^30 or above, so no lookup returns. -/
theorem TimelineTemplate.getSegmentNum_diverges
    (template : TimelineTemplate base timeline buildUri)
    (representable : Representable base timeline) (large : 1073741824 ≤ base.startNumber)
    {timeUs : Int} (nonneg : 0 ≤ timeUs) (periodDurationUs : Int) :
    base.getSegmentNum rounded timeUs periodDurationUs = .error .diverges := by
  have last := template.timed.last_num representable periodDurationUs
  have most := representable.last
  have nonempty : 0 < timeline.length := List.length_pos_iff.mpr template.nonempty
  have missing (low high : Int) : base.getSegmentTimeUs rounded (midIndex low high) = -1 := by
    have range := midIndex_range low high
    have outside : base.element timeline (midIndex low high) = none := by
      unfold element
      simp only
      split
      · rfl
      · next positive =>
        -- a number so far below the first wraps to one above the last
        apply List.getElem?_eq_none
        unfold toInt32 at positive ⊢
        omega
    rw [getSegmentTimeUs, template.listed]
    simp only [outside]
  have searched : Bisection.search midIndex (base.getSegmentTimeUs rounded) timeUs searchFuel
      base.getFirstSegmentNum (base.getLastSegmentNum periodDurationUs) = .diverged := by
    apply Bisection.search_diverges (fun low => low ≤ base.startNumber)
    · intro low trapped
      have range := midIndex_range low (base.getLastSegmentNum periodDurationUs)
      rw [missing]
      exact ⟨by omega, by omega, by omega⟩
    · exact Int.le_refl _
  unfold getSegmentNum
  simp only [template.listed, searched]

end

end MultiSegmentBase

end NDash.Mpd
