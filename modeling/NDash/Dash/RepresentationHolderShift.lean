import NDash.Dash.RepresentationHolder
import NDash.Mpd.SegmentTimeline

set_option autoImplicit false

namespace NDash.Dash

open Mpd

structure Listing where
  base : MultiSegmentBase
  timeline : List SegmentTimelineElement
  buildUri : Int → Int → String
  template : base.TimelineTemplate timeline buildUri
  representable : base.Representable timeline

variable (rounded : Int → Int → Int → Int)

namespace Listing

def index (listing : Listing) : DashSegmentIndex := listing.base.index rounded

def segments (listing : Listing) : List Segment :=
  listing.base.segments rounded listing.timeline listing.buildUri

def first (listing : Listing) : Int := listing.base.startNumber

def startUs (listing : Listing) : Int :=
  ((listing.segments rounded).head?.map Segment.startUs).getD 0

def endUs (listing : Listing) : Int :=
  ((listing.segments rounded).getLast?.map fun segment =>
    segment.startUs + segment.durationUs).getD 0

def Lists (listing : Listing) (startUs : Int) : Prop :=
  ∃ segment ∈ listing.segments rounded, segment.startUs = startUs

/-- The new listing starts where the old one ends, or at one of its segments, from which on the two
agree. -/
def Continues (old new : Listing) : Prop :=
  new.startUs rounded = old.endUs rounded ∨
    ∃ (i : Nat) (segment : Segment), (old.segments rounded)[i]? = some segment ∧
      new.startUs rounded = segment.startUs ∧
      ∀ (k : Nat) (before after : Segment), (old.segments rounded)[i + k]? = some before →
        (new.segments rounded)[k]? = some after →
        after.startUs = before.startUs ∧ after.durationUs = before.durationUs

end Listing

structure Refresh where
  listing : Listing
  periodDuration : Int
  representation : Representation
  indexed : representation.index = some (listing.index rounded)

def Refresh.Fits (old : Listing) (refresh : Refresh rounded) : Prop :=
  refresh.listing.startUs rounded = old.endUs rounded ∨
    old.base.searchFits rounded (refresh.listing.startUs rounded) refresh.periodDuration = true

namespace RepresentationHolder

def refresh : RepresentationHolder → List (Refresh rounded) →
    Except Fault (Bool × RepresentationHolder)
  | holder, [] => .ok (true, holder)
  | holder, next :: refreshes => do
    let (updated, holder) ← holder.updateRepresentation next.periodDuration next.representation
    if updated then refresh holder refreshes else return (false, holder)

def Numbers (holder : RepresentationHolder) (listing : Listing) (startUs segmentNum : Int) : Prop :=
  ∃ (i : Nat) (segment : Segment), (listing.segments rounded)[i]? = some segment ∧
    segment.startUs = startUs ∧ segmentNum = toInt32 (listing.first + i + holder.segmentNumShift)

structure Shows (holder : RepresentationHolder) (listing : Listing) : Prop where
  current : holder.representation.index = some (listing.index rounded)
  used : holder.segmentIndex = some (listing.index rounded)

end RepresentationHolder

namespace Listing

variable {rounded}

variable (rounded) in
theorem lists (listing : Listing) :
    (listing.index rounded).Lists listing.first (listing.segments rounded) :=
  listing.template.lists rounded listing.representable

variable (rounded) in
theorem contiguous (listing : Listing) : Contiguous (listing.segments rounded) :=
  listing.template.contiguous rounded

theorem count (listing : Listing) : (listing.segments rounded).length = listing.timeline.length :=
  List.length_mapIdx

variable (rounded) in
theorem nonempty (listing : Listing) : 0 < (listing.segments rounded).length := by
  rw [listing.count]
  exact List.length_pos_iff.mpr listing.template.nonempty

theorem startUs_eq (listing : Listing) {segment : Segment}
    (first : (listing.segments rounded)[0]? = some segment) :
    listing.startUs rounded = segment.startUs := by
  rw [startUs, List.head?_eq_getElem?, first]
  rfl

theorem endUs_eq (listing : Listing) {segment : Segment}
    (last : (listing.segments rounded)[(listing.segments rounded).length - 1]? = some segment) :
    listing.endUs rounded = segment.startUs + segment.durationUs := by
  rw [endUs, List.getLast?_eq_getElem?, last]
  rfl

theorem number_range (listing : Listing) {i : Nat} {segment : Segment}
    (found : (listing.segments rounded)[i]? = some segment) :
    toInt32 (listing.first + i) = listing.first + i := by
  have inside := (List.getElem?_eq_some_iff.mp found).1
  rw [listing.count] at inside
  have least := listing.representable.least
  have last := listing.representable.last
  exact toInt32_of_range (by rw [first]; omega) (by rw [first]; omega)

theorem startUs_le (listing : Listing) {i : Nat} {segment : Segment}
    (found : (listing.segments rounded)[i]? = some segment) :
    listing.startUs rounded ≤ segment.startUs := by
  have start : (listing.segments rounded)[0]? = some _ :=
    List.getElem?_eq_getElem (listing.nonempty rounded)
  rw [listing.startUs_eq start]
  rcases Nat.eq_zero_or_pos i with zero | later
  · subst zero
    rw [start] at found
    cases found
    exact Int.le_refl _
  · exact Int.le_of_lt ((listing.contiguous rounded).starts_increase later start found)

theorem startUs_lt_endUs (listing : Listing) {i : Nat} {segment : Segment}
    (found : (listing.segments rounded)[i]? = some segment) :
    segment.startUs < listing.endUs rounded := by
  have inside := (List.getElem?_eq_some_iff.mp found).1
  have last : (listing.segments rounded)[(listing.segments rounded).length - 1]? = some _ :=
    List.getElem?_eq_getElem (by omega)
  rw [listing.endUs_eq last]
  have positive := (listing.contiguous rounded).positive _ (List.mem_of_getElem? last)
  rcases Nat.lt_or_ge i ((listing.segments rounded).length - 1) with earlier | same
  · have := (listing.contiguous rounded).starts_increase earlier found last
    omega
  · have index : i = (listing.segments rounded).length - 1 := by omega
    subst index
    rw [last] at found
    cases found
    omega

theorem aligned {old new : Listing} {i a k : Nat} {first before after : Segment}
    (overlap : (old.segments rounded)[i]? = some first)
    (starts : new.startUs rounded = first.startUs)
    (agree : ∀ (k : Nat) (before after : Segment), (old.segments rounded)[i + k]? = some before →
      (new.segments rounded)[k]? = some after →
      after.startUs = before.startUs ∧ after.durationUs = before.durationUs)
    (here : (old.segments rounded)[a]? = some before)
    (there : (new.segments rounded)[k]? = some after) (same : before.startUs = after.startUs) :
    a = i + k := by
  have later : i ≤ a := by
    by_contra earlier
    have less := (old.contiguous rounded).starts_increase (Nat.lt_of_not_le earlier) here overlap
    have least := new.startUs_le there
    omega
  have inside := (List.getElem?_eq_some_iff.mp here).1
  by_cases listed : a - i < (new.segments rounded).length
  · have counterpart : (new.segments rounded)[a - i]? = some _ := List.getElem?_eq_getElem listed
    have shown : (old.segments rounded)[i + (a - i)]? = some before := by
      rw [Nat.add_sub_cancel' later]
      exact here
    have start := (agree (a - i) before _ shown counterpart).1
    have index := (new.contiguous rounded).start_unique counterpart there (start.trans same)
    omega
  · have bound := (List.getElem?_eq_some_iff.mp there).1
    have between : i + k < (old.segments rounded).length := by omega
    have shown : (old.segments rounded)[i + k]? = some _ := List.getElem?_eq_getElem between
    have start := (agree k _ after shown there).1
    have less := (old.contiguous rounded).starts_increase (by omega) shown here
    omega

end Listing

namespace RepresentationHolder

variable {rounded}

def renewed (holder : RepresentationHolder) (refresh : Refresh rounded) : RepresentationHolder :=
  { holder with
    periodDuration := refresh.periodDuration
    representation := refresh.representation
    segmentIndex := refresh.representation.index }

theorem Shows.update {holder : RepresentationHolder} {old : Listing}
    (shows : Shows rounded holder old) (refresh : Refresh rounded) :
    holder.updateRepresentation refresh.periodDuration refresh.representation =
      if old.endUs rounded = refresh.listing.startUs rounded then
        .ok (true,
          { holder.renewed refresh with
            segmentNumShift := toInt32 (holder.segmentNumShift +
              (old.first + (old.segments rounded).length - 1 - refresh.listing.first + 1)) })
      else if old.endUs rounded < refresh.listing.startUs rounded then
        .ok (false, holder.renewed refresh)
      else do
        let overlap ← old.base.getSegmentNum rounded (refresh.listing.startUs rounded)
          refresh.periodDuration
        return (true,
          { holder.renewed refresh with
            segmentNumShift :=
              toInt32 (holder.segmentNumShift + (overlap - refresh.listing.first)) }) := by
  have oldLists := old.lists rounded
  have newLists := refresh.listing.lists rounded
  obtain ⟨final, atFinal⟩ : ∃ segment,
      (old.segments rounded)[(old.segments rounded).length - 1]? = some segment :=
    ⟨_, List.getElem?_eq_getElem (by have := old.nonempty rounded; omega)⟩
  obtain ⟨start, atStart⟩ : ∃ segment, (refresh.listing.segments rounded)[0]? = some segment :=
    ⟨_, List.getElem?_eq_getElem (refresh.listing.nonempty rounded)⟩
  have lastNum : old.first + (old.segments rounded).length - 1 =
      old.first + ((old.segments rounded).length - 1 : Nat) := by
    have := old.nonempty rounded
    omega
  have endTime :
      (old.index rounded).getTimeUs (old.first + (old.segments rounded).length - 1) +
        (old.index rounded).getDurationUs (old.first + (old.segments rounded).length - 1)
          refresh.periodDuration = old.endUs rounded := by
    rw [lastNum, oldLists.time atFinal, oldLists.duration _ atFinal, old.endUs_eq atFinal]
  have startTime : (refresh.listing.index rounded).getTimeUs refresh.listing.first =
      refresh.listing.startUs rounded := by
    rw [refresh.listing.startUs_eq atStart]
    have := newLists.time atStart
    rwa [Int.natCast_zero, Int.add_zero] at this
  unfold updateRepresentation
  simp only [shows.current, refresh.indexed, oldLists.explicit, Bool.not_true, Bool.false_eq_true,
    if_false, newLists.firstNum, oldLists.lastNum, endTime, startTime]
  simp only [renewed, refresh.indexed]
  rfl

theorem toInt32_shift (number shift : Int) :
    toInt32 (number + toInt32 shift) = toInt32 (number + shift) := by
  rw [Int.add_comm, toInt32_add, Int.add_comm]

/-- A refresh whose listing continues the old one keeps the number of every segment that both list. -/
theorem Shows.refreshed {holder : RepresentationHolder} {old : Listing}
    (shows : Shows rounded holder old) (refresh : Refresh rounded)
    (continues : old.Continues rounded refresh.listing) (fits : refresh.Fits rounded old) :
    ∃ after, holder.updateRepresentation refresh.periodDuration refresh.representation =
        .ok (true, after) ∧
      Shows rounded after refresh.listing ∧ after.periodStartTime = holder.periodStartTime ∧
      ∀ startUs segmentNum, Numbers rounded holder old startUs segmentNum →
        refresh.listing.Lists rounded startUs →
        Numbers rounded after refresh.listing startUs segmentNum := by
  have shown (shift : Int) :
      Shows rounded { holder.renewed refresh with segmentNumShift := shift } refresh.listing :=
    ⟨refresh.indexed, refresh.indexed⟩
  rw [shows.update refresh]
  obtain ends | ⟨i, first, overlap, starts, agree⟩ := continues
  · rw [if_pos ends.symm]
    refine ⟨_, rfl, shown _, rfl, ?_⟩
    rintro startUs segmentNum ⟨a, before, here, rfl, -⟩ ⟨after, member, same⟩
    obtain ⟨k, there⟩ := List.getElem?_of_mem member
    have below := old.startUs_lt_endUs here
    have above := refresh.listing.startUs_le there
    omega
  · have below := old.startUs_lt_endUs overlap
    have lookup : old.base.getSegmentNum rounded (refresh.listing.startUs rounded)
        refresh.periodDuration = .ok (old.first + i) := by
      obtain ends | within := fits
      · omega
      · rw [starts] at within ⊢
        exact old.template.getSegmentNum_start old.representable overlap within
    rw [if_neg (by omega), if_neg (by omega), lookup]
    refine ⟨_, rfl, shown _, rfl, ?_⟩
    rintro startUs segmentNum ⟨a, before, here, rfl, rfl⟩ ⟨after, member, same⟩
    obtain ⟨k, there⟩ := List.getElem?_of_mem member
    have index := Listing.aligned overlap starts agree here there same.symm
    refine ⟨k, after, there, same, ?_⟩
    show _ = toInt32 (refresh.listing.first + k +
      toInt32 (holder.segmentNumShift + (old.first + i - refresh.listing.first)))
    rw [toInt32_shift]
    congr 1
    omega

theorem Shows.behind {holder : RepresentationHolder} {old : Listing}
    (shows : Shows rounded holder old) (refresh : Refresh rounded)
    (gap : old.endUs rounded < refresh.listing.startUs rounded) :
    holder.updateRepresentation refresh.periodDuration refresh.representation =
      .ok (false, holder.renewed refresh) := by
  rw [shows.update refresh, if_neg (by omega), if_pos gap]

theorem Shows.denotes {holder : RepresentationHolder} {listing : Listing}
    (shows : Shows rounded holder listing) {startUs segmentNum : Int}
    (numbers : Numbers rounded holder listing startUs segmentNum) :
    holder.getSegmentStartTime segmentNum = .ok (startUs + holder.periodStartTime) ∧
      ∃ segment ∈ listing.segments rounded, segment.startUs = startUs ∧
        holder.getSegmentUri segmentNum = .ok (some segment.uri) := by
  obtain ⟨i, segment, found, rfl, rfl⟩ := numbers
  have internal :
      holder.internalNum (toInt32 (listing.first + i + holder.segmentNumShift)) =
        listing.first + i := by
    rw [internalNum, Int.sub_eq_add_neg, toInt32_add, ← Int.sub_eq_add_neg, Int.add_sub_cancel,
      listing.number_range found]
  have lists := listing.lists rounded
  refine ⟨?_, segment, List.mem_of_getElem? found, rfl, ?_⟩
  · simp only [getSegmentStartTime, withIndex, shows.used, internal, lists.time found]
  · simp only [getSegmentUri, withIndex, shows.used, internal, lists.url found]

end RepresentationHolder

section

variable {rounded}

def latest : Listing → List (Refresh rounded) → Listing
  | listing, [] => listing
  | _, refresh :: refreshes => latest refresh.listing refreshes

variable (rounded) in
def Follow : Listing → List (Refresh rounded) → Prop
  | _, [] => True
  | old, refresh :: refreshes =>
    (old.Continues rounded refresh.listing ∧ refresh.Fits rounded old) ∧
      Follow refresh.listing refreshes

theorem Follow.split {listing : Listing} {before after : List (Refresh rounded)}
    (follow : Follow rounded listing (before ++ after)) :
    Follow rounded listing before ∧ Follow rounded (latest listing before) after := by
  induction before generalizing listing with
  | nil => exact ⟨trivial, follow⟩
  | cons refresh before ih =>
    have rest := ih follow.2
    exact ⟨⟨follow.1, rest.1⟩, rest.2⟩

end

namespace RepresentationHolder

variable {rounded}

theorem Shows.run {holder : RepresentationHolder} {old : Listing}
    (shows : Shows rounded holder old) {refreshes : List (Refresh rounded)}
    (follow : Follow rounded old refreshes) :
    ∃ final, holder.refresh rounded refreshes = .ok (true, final) ∧
      Shows rounded final (latest old refreshes) ∧
      final.periodStartTime = holder.periodStartTime ∧
      ∀ startUs segmentNum, Numbers rounded holder old startUs segmentNum →
        (∀ refresh ∈ refreshes, refresh.listing.Lists rounded startUs) →
        Numbers rounded final (latest old refreshes) startUs segmentNum := by
  induction refreshes generalizing holder old with
  | nil => exact ⟨holder, rfl, shows, rfl, fun _ _ numbers _ => numbers⟩
  | cons refresh refreshes ih =>
    obtain ⟨⟨continues, fits⟩, rest⟩ := follow
    obtain ⟨after, updated, shown, start, kept⟩ := shows.refreshed refresh continues fits
    obtain ⟨final, ran, last, same, keeps⟩ := ih shown rest
    refine ⟨final, ?_, last, same.trans start, ?_⟩
    · rw [RepresentationHolder.refresh, updated]
      exact ran
    · intro startUs segmentNum numbers listed
      apply keeps startUs segmentNum
      · exact kept startUs segmentNum numbers (listed refresh (by simp))
      · intro later member
        exact listed later (by simp [member])

variable (rounded) in
/-- Over any refreshes that continue what is listed, a segment keeps its external number as long as
it is listed, that number denotes the segment, and a refresh that leaves a gap fails. -/
theorem refreshes_keep_segment_numbers (periodStartTime : Int) (first : Refresh rounded)
    (before after : List (Refresh rounded))
    (follow : Follow rounded first.listing (before ++ after)) :
    let created := create periodStartTime first.periodDuration first.representation
    let middle := latest first.listing before
    let last := latest middle after
    ∃ holder final, created.refresh rounded before = .ok (true, holder) ∧
      holder.refresh rounded after = .ok (true, final) ∧
      (∀ startUs segmentNum, Numbers rounded holder middle startUs segmentNum →
        (∀ refresh ∈ after, refresh.listing.Lists rounded startUs) →
        Numbers rounded final last startUs segmentNum) ∧
      (∀ startUs segmentNum, Numbers rounded final last startUs segmentNum →
        final.getSegmentStartTime segmentNum = .ok (startUs + periodStartTime) ∧
          ∃ segment ∈ last.segments rounded, segment.startUs = startUs ∧
            final.getSegmentUri segmentNum = .ok (some segment.uri)) ∧
      ∀ next : Refresh rounded, last.endUs rounded < next.listing.startUs rounded →
        ∃ stopped, final.updateRepresentation next.periodDuration next.representation =
          .ok (false, stopped) := by
  intro created middle last
  have shows : Shows rounded created first.listing := ⟨first.indexed, first.indexed⟩
  obtain ⟨earlier, later⟩ := follow.split
  obtain ⟨holder, ran, shown, start, -⟩ := shows.run earlier
  obtain ⟨final, onward, finally_, same, keeps⟩ := shown.run later
  refine ⟨holder, final, ran, onward, keeps, ?_, ?_⟩
  · intro startUs segmentNum numbers
    have denotes := finally_.denotes numbers
    rw [same, start] at denotes
    exact denotes
  · intro next gap
    exact ⟨_, finally_.behind next gap⟩

end RepresentationHolder

def twoSegments (startNumber startTime : Int) (least : -2147483648 ≤ startNumber)
    (last : startNumber + 2 ≤ 2147483648) : Listing where
  base :=
    { startNumber
      segmentTimeline := some [⟨startTime, 2⟩, ⟨startTime + 2, 2⟩]
      media := .template fun number _ => toString number }
  timeline := [⟨startTime, 2⟩, ⟨startTime + 2, 2⟩]
  buildUri number _ := toString number
  template :=
    { media := rfl
      listed := rfl
      nonempty := nofun
      positive := by simp
      adjacent := by
        intro i element next here there
        match i, here, there with
        | 0, here, there =>
          cases here
          cases there
          rfl
        | _ + 1, _, there => simp at there
      timescale := Int.one_pos
      whole := .inl (Int.one_dvd _) }
  representable := ⟨by simp, least, last⟩

theorem twoSegments_continues {first second startTime : Int} (least : -2147483648 ≤ first)
    (last : first + 2 ≤ 2147483648) (least' : -2147483648 ≤ second)
    (last' : second + 2 ≤ 2147483648) :
    (twoSegments first startTime least last).Continues (fun timestamp _ _ => timestamp)
      (twoSegments second (startTime + 2) least' last') := by
  refine .inr ⟨1, _, rfl, rfl, ?_⟩
  intro k before after here there
  have inside := (List.getElem?_eq_some_iff.mp here).1
  rw [Listing.count] at inside
  have zero : k = 0 := by
    simp only [twoSegments, List.length_cons, List.length_nil] at inside
    omega
  subst zero
  cases here
  cases there
  exact ⟨rfl, rfl⟩

def Refresh.ofListing (listing : Listing) : Refresh rounded where
  listing
  periodDuration := 0
  representation := { format := { id := "video" }, index := some (listing.index rounded) }
  indexed := rfl

namespace RepresentationHolder

-- The segment at 2 s keeps number 2 when the refresh renumbers it from 5.
theorem refreshes_keep_segment_numbers_renumbered :
    let rounded : Int → Int → Int → Int := fun timestamp _ _ => timestamp
    let first : Refresh rounded :=
      .ofListing rounded (twoSegments 1 0 (by decide) (by decide))
    let next : Refresh rounded :=
      .ofListing rounded (twoSegments 5 2 (by decide) (by decide))
    ∃ final, (create 0 0 first.representation).refresh rounded [next] = .ok (true, final) ∧
      Numbers rounded final next.listing 2000000 2 ∧
      final.getSegmentStartTime 2 = .ok 2000000 := by
  intro rounded first next
  have follow : Follow rounded first.listing ([] ++ [next]) :=
    ⟨⟨twoSegments_continues (by decide) (by decide) (by decide) (by decide), .inr (by decide)⟩,
      trivial⟩
  obtain ⟨holder, final, start, ran, keeps, denotes, -⟩ :=
    refreshes_keep_segment_numbers rounded 0 first [] [next] follow
  cases start
  have numbers := keeps 2000000 2 ⟨1, _, rfl, rfl, rfl⟩ (by
    intro refresh member
    rw [List.mem_singleton.mp member]
    exact ⟨_, List.mem_cons_self, rfl⟩)
  exact ⟨final, ran, numbers, (denotes 2000000 2 numbers).1⟩

/-- A presentation numbered by seconds since 1970: looking up the second segment in the old index
overflows, and UpdateRepresentation does not return. -/
theorem refresh_of_epoch_numbers_diverges :
    let rounded : Int → Int → Int → Int := fun timestamp _ _ => timestamp
    let first : Refresh rounded :=
      .ofListing rounded (twoSegments 1700000000 0 (by decide) (by decide))
    let next : Refresh rounded :=
      .ofListing rounded (twoSegments 1700000001 2 (by decide) (by decide))
    first.listing.Continues rounded next.listing ∧
      (create 0 0 first.representation).updateRepresentation next.periodDuration
        next.representation = .error .diverges := by
  intro rounded first next
  refine ⟨twoSegments_continues (by decide) (by decide) (by decide) (by decide), ?_⟩
  have shows : Shows rounded (create 0 0 first.representation) first.listing :=
    ⟨first.indexed, first.indexed⟩
  have lookup : first.listing.base.getSegmentNum rounded (next.listing.startUs rounded)
      next.periodDuration = .error .diverges :=
    first.listing.template.getSegmentNum_diverges first.listing.representable (by decide)
      (by decide) _
  rw [shows.update next, if_neg (by decide), if_neg (by decide), lookup]
  rfl

end RepresentationHolder

end NDash.Dash
