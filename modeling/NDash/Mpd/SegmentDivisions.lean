import NDash.Mpd.ManifestSegments

set_option autoImplicit false

/-!
# The divisions of the segment arithmetic

The methods of MultiSegmentBase and SegmentTemplate once more, where a division by zero is an error.
-/

namespace NDash.Mpd

inductive Trap
  | divisionByZero
  | diverges
deriving DecidableEq, Repr

def divide (numerator denominator : Int) : Except Trap Int :=
  if denominator = 0 then .error .divisionByZero else .ok (numerator.tdiv denominator)

theorem divide_zero (numerator : Int) : divide numerator 0 = .error .divisionByZero := rfl

theorem divide_ok (numerator : Int) {denominator : Int} (divides : denominator ≠ 0) :
    divide numerator denominator = .ok (numerator.tdiv denominator) := if_neg divides

-- `guard && value % divisor == 0`, which divides only where the guard holds.
def multipleIf (guard : Bool) (value divisor : Int) : Except Trap Bool :=
  if guard then
    if divisor = 0 then .error .divisionByZero else .ok (value.tmod divisor == 0)
  else .ok false

namespace MultiSegmentBase.Checked

variable (rounded : Int → Int → Int → Int)

def scaleLargeTimestamp (timestamp multiplier divisor : Int) : Except Trap Int := do
  if ← multipleIf (divisor ≥ multiplier) divisor multiplier then
    divide timestamp (← divide divisor multiplier)
  else if ← multipleIf (divisor < multiplier) multiplier divisor then
    pure (timestamp * (← divide multiplier divisor))
  else pure (rounded timestamp multiplier divisor)

def ceilDivide (numerator denominator : Int) : Except Trap Int :=
  divide (numerator + denominator - 1) denominator

-- The numerator of the derived duration, a product of two int64_t.
def durationMicros (duration : Int) : Int := toInt64 (duration * kMicrosPerSecond)

def durationUs (base : MultiSegmentBase) : Except Trap Int :=
  divide (durationMicros base.duration) base.timescale

def getLastSegmentNum (base : MultiSegmentBase) (periodDurationUs : Int) : Except Trap Int :=
  match base.media, base.segmentTimeline with
  | .list mediaSegments, _ => pure (toInt32 (base.startNumber + mediaSegments.length - 1))
  | .template _, some timeline => pure (toInt32 (timeline.length + base.startNumber - 1))
  | .template _, none =>
    if periodDurationUs = 0 then pure kIndexUnbounded
    else do
      let durationUs ← durationUs base
      let segments ← ceilDivide periodDurationUs durationUs
      pure (toInt32 (base.startNumber + toInt32 segments - 1))

def getSegmentTimeUs (base : MultiSegmentBase) (sequenceNumber : Int) : Except Trap Int :=
  match base.segmentTimeline with
  | some timeline =>
    match base.element timeline sequenceNumber with
    | none => pure (-1)
    | some element =>
      scaleLargeTimestamp rounded (element.startTime - base.presentationTimeOffset)
        kMicrosPerSecond base.timescale
  | none =>
    scaleLargeTimestamp rounded (toInt32 (sequenceNumber - base.startNumber) * base.duration)
      kMicrosPerSecond base.timescale

def getSegmentDurationUs (base : MultiSegmentBase) (sequenceNumber periodDurationUs : Int) :
    Except Trap Int :=
  match base.segmentTimeline with
  | some timeline =>
    match base.element timeline sequenceNumber with
    | none => pure (-1)
    | some element => divide (element.duration * kMicrosPerSecond) base.timescale
  | none => do
    let lastSegmentNum ← getLastSegmentNum base periodDurationUs
    if sequenceNumber = lastSegmentNum then
      pure (periodDurationUs - (← getSegmentTimeUs rounded base sequenceNumber))
    else durationUs base

def answer (firstSegmentNum : Int) : Bisection.Outcome → Except Trap Int
  | .found index => .ok index
  | .crossed lowIndex highIndex =>
    .ok (if lowIndex = firstSegmentNum then lowIndex else highIndex)
  | .diverged => .error .diverges

def getSegmentNum (base : MultiSegmentBase) (timeUs periodDurationUs : Int) : Except Trap Int := do
  let firstSegmentNum := base.getFirstSegmentNum
  let lastSegmentNum ← getLastSegmentNum base periodDurationUs
  match base.segmentTimeline with
  | none =>
    let durationUs ← durationUs base
    let segments ← divide timeUs durationUs
    let segmentNum := toInt32 (base.startNumber + toInt32 segments)
    if segmentNum < firstSegmentNum then pure firstSegmentNum
    else if lastSegmentNum ≠ kIndexUnbounded ∧ segmentNum > lastSegmentNum then pure lastSegmentNum
    else pure segmentNum
  | some _ =>
    let outcome ← Bisection.attempt midIndex timeUs (getSegmentTimeUs rounded base) searchFuel
      firstSegmentNum lastSegmentNum
    answer firstSegmentNum outcome

variable {rounded} {base : MultiSegmentBase}

/-! Where every divisor is there -/

theorem scaleLargeTimestamp_ok (timestamp : Int) {timescale : Int} (scales : timescale ≠ 0) :
    scaleLargeTimestamp rounded timestamp kMicrosPerSecond timescale =
      .ok (Mpd.scaleLargeTimestamp rounded timestamp kMicrosPerSecond timescale) := by
  have micros : kMicrosPerSecond ≠ 0 := by decide
  unfold scaleLargeTimestamp Mpd.scaleLargeTimestamp multipleIf
  by_cases large : timescale ≥ kMicrosPerSecond
  · have small : ¬ timescale < kMicrosPerSecond := by omega
    have factor : timescale.tdiv kMicrosPerSecond ≠ 0 := by
      have := Int.tdiv_le_tdiv (show 0 < kMicrosPerSecond by decide) large
      rw [Int.tdiv_self micros] at this
      omega
    by_cases multiple : timescale.tmod kMicrosPerSecond = 0
    · simp [large, micros, multiple, divide_ok _ factor, divide_ok _ micros, bind, Except.bind]
    · simp [large, small, micros, multiple, bind, Except.bind, pure, Except.pure]
  · have small : timescale < kMicrosPerSecond := by omega
    by_cases multiple : kMicrosPerSecond.tmod timescale = 0
    · simp [large, small, scales, multiple, divide_ok _ scales, bind, Except.bind, pure, Except.pure]
    · simp [large, small, scales, multiple, bind, Except.bind, pure, Except.pure]

theorem scaleLargeTimestamp_zero (timestamp : Int) :
    scaleLargeTimestamp rounded timestamp kMicrosPerSecond 0 = .error .divisionByZero := by
  rfl

/-- What keeps every divisor from being zero: a timescale, and without a timeline a duration of a
microsecond or more. A timeline without an element is never scaled. -/
def Divisible (segmentTimeline : Option (List SegmentTimelineElement)) (timescale duration : Int) :
    Prop :=
  match segmentTimeline with
  | none => timescale ≠ 0 ∧ timescale.natAbs ≤ (durationMicros duration).natAbs
  | some timeline => timeline ≠ [] → timescale ≠ 0

instance (segmentTimeline : Option (List SegmentTimelineElement)) (timescale duration : Int) :
    Decidable (Divisible segmentTimeline timescale duration) :=
  match segmentTimeline with
  | none => inferInstanceAs (Decidable (timescale ≠ 0 ∧ _))
  | some timeline => inferInstanceAs (Decidable (timeline ≠ [] → timescale ≠ 0))

def Exact (duration : Int) : Prop := durationMicros duration = duration * kMicrosPerSecond

def quotient (base : MultiSegmentBase) : Int := (durationMicros base.duration).tdiv base.timescale

theorem quotient_ne_zero_iff :
    quotient base ≠ 0 ↔ base.timescale ≠ 0 ∧
      base.timescale.natAbs ≤ (durationMicros base.duration).natAbs := by
  have sizes : (quotient base).natAbs =
      (durationMicros base.duration).natAbs / base.timescale.natAbs := Int.natAbs_tdiv _ _
  rw [← Int.natAbs_ne_zero, sizes, Nat.div_ne_zero_iff, Int.natAbs_ne_zero]

theorem quotient_eq (exact : Exact base.duration) : quotient base = base.durationUs := by
  rw [quotient, exact, MultiSegmentBase.durationUs]

theorem durationUs_ok (scales : base.timescale ≠ 0) : durationUs base = .ok (quotient base) :=
  divide_ok _ scales

abbrev Divides (base : MultiSegmentBase) : Prop :=
  Divisible base.segmentTimeline base.timescale base.duration

theorem Divides.unlisted (divides : Divides base) (unlisted : base.segmentTimeline = none) :
    base.timescale ≠ 0 ∧ quotient base ≠ 0 := by
  rw [Divides, unlisted] at divides
  exact ⟨divides.1, quotient_ne_zero_iff.mpr divides⟩

theorem Divides.listed (divides : Divides base) {timeline : List SegmentTimelineElement}
    (listed : base.segmentTimeline = some timeline) {n : Int} {element : SegmentTimelineElement}
    (found : base.element timeline n = some element) : base.timescale ≠ 0 := by
  rw [Divides, listed] at divides
  refine divides fun empty => ?_
  subst empty
  simp [MultiSegmentBase.element] at found

theorem getLastSegmentNum_ok (divides : Divides base) (periodDurationUs : Int) :
    ∃ last, getLastSegmentNum base periodDurationUs = .ok last ∧
      (Exact base.duration → last = base.getLastSegmentNum periodDurationUs) := by
  unfold getLastSegmentNum MultiSegmentBase.getLastSegmentNum
  cases base.media with
  | list mediaSegments => exact ⟨_, rfl, fun _ => rfl⟩
  | template buildUri =>
    cases timeline : base.segmentTimeline with
    | some timeline => exact ⟨_, rfl, fun _ => rfl⟩
    | none =>
      obtain ⟨scales, positive⟩ := divides.unlisted timeline
      dsimp only
      by_cases unbounded : periodDurationUs = 0
      · exact ⟨_, if_pos unbounded, fun _ => (if_pos unbounded).symm⟩
      · rw [if_neg unbounded, if_neg unbounded, durationUs_ok scales]
        simp only [bind, Except.bind, ceilDivide, divide_ok _ positive]
        refine ⟨_, rfl, fun exact => ?_⟩
        rw [quotient_eq exact, Mpd.ceilDivide]

theorem getSegmentTimeUs_ok (divides : Divides base) (n : Int) :
    getSegmentTimeUs rounded base n = .ok (base.getSegmentTimeUs rounded n) := by
  unfold getSegmentTimeUs MultiSegmentBase.getSegmentTimeUs
  cases timeline : base.segmentTimeline with
  | none => exact scaleLargeTimestamp_ok _ (divides.unlisted timeline).1
  | some timeline' =>
    cases found : base.element timeline' n with
    | none => simp only [found, pure, Except.pure]
    | some element =>
      simp only [found]
      exact scaleLargeTimestamp_ok _ (divides.listed timeline found)

theorem getSegmentDurationUs_ok (divides : Divides base) (n periodDurationUs : Int) :
    ∃ duration, getSegmentDurationUs rounded base n periodDurationUs = .ok duration ∧
      (Exact base.duration → duration = base.getSegmentDurationUs rounded n periodDurationUs) := by
  obtain ⟨last, lastOk, lastEq⟩ := getLastSegmentNum_ok divides periodDurationUs
  unfold getSegmentDurationUs MultiSegmentBase.getSegmentDurationUs
  cases timeline : base.segmentTimeline with
  | some timeline' =>
    cases found : base.element timeline' n with
    | none => exact ⟨-1, by simp only [found, pure, Except.pure], fun _ => by simp only [found]⟩
    | some element =>
      simp only [found, divide_ok _ (divides.listed timeline found)]
      exact ⟨_, rfl, fun _ => rfl⟩
  | none =>
    simp only [lastOk, bind, Except.bind]
    by_cases final : n = last
    · rw [if_pos final, getSegmentTimeUs_ok divides]
      refine ⟨_, rfl, fun exact => ?_⟩
      rw [← lastEq exact, if_pos final]
    · rw [if_neg final, durationUs_ok (divides.unlisted timeline).1]
      refine ⟨_, rfl, fun exact => ?_⟩
      rw [← lastEq exact, if_neg final, quotient_eq exact]

theorem answer_ne (first : Int) (outcome : Bisection.Outcome) :
    answer first outcome ≠ .error .divisionByZero := by
  cases outcome <;> simp [answer]

theorem getSegmentNum_ok (divides : Divides base) (timeUs periodDurationUs : Int) :
    getSegmentNum rounded base timeUs periodDurationUs ≠ .error .divisionByZero ∧
      (Exact base.duration → getSegmentNum rounded base timeUs periodDurationUs =
        (base.getSegmentNum rounded timeUs periodDurationUs).mapError fun _ => .diverges) := by
  obtain ⟨last, lastOk, lastEq⟩ := getLastSegmentNum_ok divides periodDurationUs
  unfold getSegmentNum MultiSegmentBase.getSegmentNum
  simp only [lastOk, bind, Except.bind]
  cases timeline : base.segmentTimeline with
  | none =>
    obtain ⟨scales, positive⟩ := divides.unlisted timeline
    simp only [durationUs_ok scales, divide_ok _ positive]
    constructor
    · split
      · simp [pure, Except.pure]
      · split <;> simp [pure, Except.pure]
    · intro exact
      rw [← lastEq exact, quotient_eq exact]
      split
      · rfl
      · split <;> rfl
  | some timeline' =>
    have keys := @getSegmentTimeUs_ok rounded base divides
    simp only [Bisection.attempt_eq_search keys]
    refine ⟨answer_ne _ _, fun exact => ?_⟩
    rw [← lastEq exact]
    cases Bisection.search midIndex (base.getSegmentTimeUs rounded) timeUs searchFuel
      base.getFirstSegmentNum last <;> rfl

/-- Where every divisor is there and the derived duration does not overflow, these are the methods of
the object. -/
theorem checked_agrees (divides : Divides base) (exact : Exact base.duration)
    (n timeUs periodDurationUs : Int) :
    getSegmentNum rounded base timeUs periodDurationUs =
        (base.getSegmentNum rounded timeUs periodDurationUs).mapError (fun _ => .diverges) ∧
      getSegmentDurationUs rounded base n periodDurationUs =
        .ok (base.getSegmentDurationUs rounded n periodDurationUs) ∧
      getSegmentTimeUs rounded base n = .ok (base.getSegmentTimeUs rounded n) ∧
      getLastSegmentNum base periodDurationUs = .ok (base.getLastSegmentNum periodDurationUs) := by
  obtain ⟨duration, durationOk, durationEq⟩ :=
    @getSegmentDurationUs_ok rounded base divides n periodDurationUs
  obtain ⟨last, lastOk, lastEq⟩ := getLastSegmentNum_ok divides periodDurationUs
  refine ⟨(getSegmentNum_ok divides timeUs periodDurationUs).2 exact, ?_,
    getSegmentTimeUs_ok divides n, ?_⟩
  · rw [durationOk, durationEq exact]
  · rw [lastOk, lastEq exact]

/-! Where one is not -/

structure NeverDividesByZero (rounded : Int → Int → Int → Int) (base : MultiSegmentBase) : Prop where
  segmentNum : ∀ timeUs periodDurationUs,
    getSegmentNum rounded base timeUs periodDurationUs ≠ .error .divisionByZero
  durationUs : ∀ sequenceNumber periodDurationUs,
    getSegmentDurationUs rounded base sequenceNumber periodDurationUs ≠ .error .divisionByZero
  timeUs : ∀ sequenceNumber, getSegmentTimeUs rounded base sequenceNumber ≠ .error .divisionByZero
  lastSegmentNum : ∀ periodDurationUs,
    getLastSegmentNum base periodDurationUs ≠ .error .divisionByZero

theorem getLastSegmentNum_unbounded (base : MultiSegmentBase) :
    ∃ last, getLastSegmentNum base 0 = .ok last := by
  unfold getLastSegmentNum
  cases base.media with
  | list mediaSegments => exact ⟨_, rfl⟩
  | template buildUri => cases base.segmentTimeline <;> exact ⟨_, rfl⟩

-- The lookup of any time divides by both of them.
theorem getSegmentNum_unlisted (unlisted : base.segmentTimeline = none)
    (safe : getSegmentNum rounded base 0 0 ≠ .error .divisionByZero) :
    base.timescale ≠ 0 ∧ quotient base ≠ 0 := by
  obtain ⟨last, lastOk⟩ := getLastSegmentNum_unbounded base
  unfold getSegmentNum at safe
  simp only [lastOk, bind, Except.bind, unlisted] at safe
  constructor
  · intro zero
    rw [durationUs, zero, divide_zero] at safe
    exact safe rfl
  · intro zero
    have scales : base.timescale ≠ 0 := by
      intro scale
      rw [durationUs, scale, divide_zero] at safe
      exact safe rfl
    rw [durationUs_ok scales] at safe
    simp only [zero, divide_zero] at safe
    exact safe rfl

theorem getSegmentTimeUs_listed {first : SegmentTimelineElement}
    {rest : List SegmentTimelineElement} (listed : base.segmentTimeline = some (first :: rest))
    (safe : getSegmentTimeUs rounded base base.startNumber ≠ .error .divisionByZero) :
    base.timescale ≠ 0 := by
  intro zero
  have found : base.element (first :: rest) base.startNumber = some first := by
    have index : toInt32 (base.startNumber - base.startNumber) = 0 := by
      rw [Int.sub_self]
      rfl
    rw [MultiSegmentBase.element, index]
    rfl
  unfold getSegmentTimeUs at safe
  simp only [listed, found, zero] at safe
  exact safe (scaleLargeTimestamp_zero _)

/-- The arithmetic of an object divides by zero for no argument exactly if its divisors are there. -/
theorem neverDividesByZero_iff : NeverDividesByZero rounded base ↔ Divides base := by
  constructor
  · intro safe
    unfold Divides Divisible
    cases timeline : base.segmentTimeline with
    | none =>
      obtain ⟨scales, positive⟩ := getSegmentNum_unlisted timeline (safe.segmentNum 0 0)
      exact quotient_ne_zero_iff.mp positive
    | some elements =>
      intro nonempty
      obtain ⟨first, rest, rfl⟩ := List.exists_cons_of_ne_nil nonempty
      exact getSegmentTimeUs_listed timeline (safe.timeUs base.startNumber)
  · intro divides
    refine ⟨fun timeUs periodDurationUs => (getSegmentNum_ok divides timeUs periodDurationUs).1, ?_, ?_, ?_⟩
    · intro n periodDurationUs
      obtain ⟨duration, ok, _⟩ := @getSegmentDurationUs_ok rounded base divides n periodDurationUs
      simp [ok]
    · intro n
      simp [getSegmentTimeUs_ok divides n]
    · intro periodDurationUs
      obtain ⟨last, ok, _⟩ := getLastSegmentNum_ok divides periodDurationUs
      simp [ok]

end MultiSegmentBase.Checked

namespace Manifest

open Pull
open MultiSegmentBase.Checked (NeverDividesByZero Divisible neverDividesByZero_iff)

inductive Parsed (node : Node) (baseUrl : String) (parent : Option SegmentBase) :
    Option MultiSegmentFields → MultiSegmentBase → Prop
  | template {depth : Nat} {pulled pulled' : List (Event Node)} {errno errno' : Int}
    {template : SegmentTemplate} (buildUri : Int → Int → String)
    (parsed : parseSegmentTemplate (reader textNode .diverges) node depth baseUrl parent pulled errno =
      .ok ((.template template, pulled'), errno')) :
    Parsed node baseUrl parent (templateFields parent)
      (template.toMultiSegmentFields.multiSegmentBase (.template buildUri))
  | list {depth : Nat} {pulled pulled' : List (Event Node)} {errno errno' : Int} {list : SegmentList}
    (parsed : parseSegmentList (reader textNode .diverges) node depth baseUrl parent pulled errno =
      .ok ((.list list, pulled'), errno')) :
    Parsed node baseUrl parent (listFields parent)
      (list.toMultiSegmentFields.multiSegmentBase (.list list.mediaSegments))

theorem Parsed.fields {node : Node} {baseUrl : String} {parent : Option SegmentBase}
    {inherited : Option MultiSegmentFields} {base : MultiSegmentBase}
    (parsed : Parsed node baseUrl parent inherited base) :
    ∃ (fields : MultiSegmentFields) (media : MediaSegments),
      fields.bare = ownFields node baseUrl inherited ∧ base = fields.multiSegmentBase media := by
  cases parsed with
  | template buildUri parsed =>
    obtain ⟨template, built, fields⟩ := parseSegmentTemplate_fields parsed
    cases built
    exact ⟨_, _, fields, rfl⟩
  | list parsed =>
    obtain ⟨list, built, fields⟩ := parseSegmentList_fields parsed
    cases built
    exact ⟨_, _, fields, rfl⟩

/-- Whatever the attributes, no division by zero exactly if the timescale is none and, without a timeline,
the duration in microseconds is none either. -/
theorem parsed_neverDividesByZero_iff {rounded : Int → Int → Int → Int} {node : Node}
    {baseUrl : String} {parent : Option SegmentBase} {inherited : Option MultiSegmentFields}
    {base : MultiSegmentBase} (parsed : Parsed node baseUrl parent inherited base) :
    NeverDividesByZero rounded base ↔
      Divisible base.segmentTimeline
        (node.longAttribute "timescale" ((inherited.map (·.timescale)).getD 1))
        (node.longAttribute "duration" ((inherited.map (·.duration)).getD (-1))) := by
  obtain ⟨fields, media, bare, rfl⟩ := parsed.fields
  have timescale : fields.timescale = (ownFields node baseUrl inherited).timescale :=
    congrArg (·.timescale) bare
  have duration : fields.duration = (ownFields node baseUrl inherited).duration :=
    congrArg (·.duration) bare
  rw [neverDividesByZero_iff]
  show Divisible fields.segmentTimeline fields.timescale fields.duration ↔ _
  rw [timescale, duration]
  rfl

namespace Sample

def segmentTemplate (timescale duration : String) : Node where
  name := "SegmentTemplate"
  attributes := [("timescale", timescale), ("duration", duration), ("media", "a")]

def parsedTemplate (timescale duration : Int) : SegmentTemplate where
  baseUrl := ""
  initialization := none
  timescale
  presentationTimeOffset := 0
  startNumber := 1
  duration
  segmentTimeline := none
  initializationTemplate := none
  mediaTemplate := some "a"

def object (timescale duration : Int) : MultiSegmentBase :=
  (parsedTemplate timescale duration).toMultiSegmentFields.multiSegmentBase
    (.template fun _ _ => "a")

end Sample

open Sample in
theorem parsed_neverDividesByZero_milliseconds :
    Parsed (segmentTemplate "1000" "10000") "" none none (object 1000 10000) ∧
      NeverDividesByZero rounded (object 1000 10000) := by
  have parsed : Parsed (segmentTemplate "1000" "10000") "" none none (object 1000 10000) :=
    @Parsed.template _ "" none 0 [] [] 0 0 (parsedTemplate 1000 10000) (fun _ _ => "a")
      (by decide +kernel)
  exact ⟨parsed, (parsed_neverDividesByZero_iff parsed).mpr (by decide +kernel)⟩

-- Nothing keeps a timescale from being 0, or a duration from being less than a microsecond.
open Sample MultiSegmentBase.Checked in
theorem parsed_dividesByZero :
    Parsed (segmentTemplate "0" "10000") "" none none (object 0 10000) ∧
      getSegmentNum rounded (object 0 10000) 0 1000000 = .error .divisionByZero ∧
      ¬ NeverDividesByZero rounded (object 0 10000) ∧
    Parsed (segmentTemplate "1000" "abc") "" none none (object 1000 0) ∧
      getSegmentNum rounded (object 1000 0) 0 1000000 = .error .divisionByZero ∧
      ¬ NeverDividesByZero rounded (object 1000 0) := by
  refine ⟨@Parsed.template _ "" none 0 [] [] 0 0 (parsedTemplate 0 10000) (fun _ _ => "a")
      (by decide +kernel), by decide +kernel, fun safe => ?_,
    @Parsed.template _ "" none 0 [] [] 0 0 (parsedTemplate 1000 0) (fun _ _ => "a")
      (by decide +kernel), by decide +kernel, fun safe => ?_⟩
  · exact safe.segmentNum 0 1000000 (by decide +kernel)
  · exact safe.segmentNum 0 1000000 (by decide +kernel)

end Manifest

end NDash.Mpd
