import NDash.Mpd.MultiSegmentBase
import NDash.Mpd.UrlTemplateBuild

set_option autoImplicit false

/-!
# The time in the url of a segment

GetSegmentUri hands the start of a segment to BuildUri as an int32_t.
-/

namespace NDash.Mpd

namespace UrlTemplate

/-! Decimals -/

theorem length_toDigits_mono {first second : Nat} (le : first ≤ second) :
    (Nat.toDigits 10 first).length ≤ (Nat.toDigits 10 second).length := by
  have below : second < 10 ^ (Nat.toDigits 10 second).length :=
    (Nat.length_toDigits_le_iff (by decide) Nat.length_toDigits_pos).mp (Nat.le_refl _)
  exact (Nat.length_toDigits_le_iff (by decide) Nat.length_toDigits_pos).mpr (by omega)

theorem ofDigitChars_leftpad (width value : Nat) :
    Nat.ofDigitChars 10 ((Nat.toDigits 10 value).leftpad width '0') 0 = value := by
  rw [List.leftpad, Nat.ofDigitChars_append, Nat.ofDigitChars_replicate_zero, Nat.mul_zero,
    Nat.ofDigitChars_ten_toDigits]

theorem head_printDecimal (width : Nat) (value : Int) :
    (printDecimal width value).head? = some '-' ↔ value < 0 := by
  unfold printDecimal
  dsimp only
  split
  · next negative => simp [negative]
  · next nonneg =>
    refine iff_of_false (fun head => ?_) nonneg
    have inside := List.mem_of_mem_head? head
    rw [List.nil_append, List.leftpad, List.mem_append] at inside
    rcases inside with padding | digit
    · have := List.eq_of_mem_replicate padding
      cases this
    · have := Nat.isDigit_of_mem_toDigits (by decide) (by decide) digit
      cases this

theorem printDecimal_injective {width : Nat} {first second : Int}
    (same : printDecimal width first = printDecimal width second) : first = second := by
  have signs : first < 0 ↔ second < 0 := by
    rw [← head_printDecimal width, ← head_printDecimal width, same]
  have sizes : first.natAbs = second.natAbs := by
    unfold printDecimal at same
    dsimp only at same
    by_cases negative : first < 0
    · rw [if_pos negative, if_pos (signs.mp negative)] at same
      have digits := congrArg (Nat.ofDigitChars 10 · 0) (List.append_cancel_left same)
      simpa only [ofDigitChars_leftpad] using digits
    · rw [if_neg negative, if_neg (negative ∘ signs.mpr)] at same
      have digits := congrArg (Nat.ofDigitChars 10 · 0) (List.append_cancel_left same)
      simpa only [ofDigitChars_leftpad] using digits
  omega

theorem length_printDecimal (width : Nat) (value : Int) :
    (printDecimal width value).length =
      max width ((if value < 0 then 1 else 0) + (Nat.toDigits 10 value.natAbs).length) := by
  have := Nat.length_toDigits_pos (b := 10) (n := value.natAbs)
  unfold printDecimal
  dsimp only
  split <;> simp only [List.length_append, List.length_leftpad, List.length_cons, List.length_nil] <;>
    omega

theorem length_printDecimal_pos (width : Nat) (value : Int) : 0 < (printDecimal width value).length := by
  have := Nat.length_toDigits_pos (b := 10) (n := value.natAbs)
  rw [length_printDecimal]
  omega

theorem length_printDecimal_mono (width : Nat) {first second : Int} (signs : first < 0 ↔ second < 0)
    (sizes : first.natAbs ≤ second.natAbs) :
    (printDecimal width first).length ≤ (printDecimal width second).length := by
  have digits := length_toDigits_mono sizes
  simp only [length_printDecimal, signs]
  omega

theorem length_snprintf (formatTag : List Char) (value : Int) :
    (snprintf formatTag value).length = min 31 (printDecimal (tagWidth formatTag) value).length :=
  List.length_take

theorem length_snprintf_pos (formatTag : List Char) (value : Int) :
    0 < (snprintf formatTag value).length := by
  have := length_printDecimal_pos (tagWidth formatTag) value
  rw [length_snprintf]
  omega

theorem length_snprintf_mono (formatTag : List Char) {first second : Int}
    (signs : first < 0 ↔ second < 0) (sizes : first.natAbs ≤ second.natAbs) :
    (snprintf formatTag first).length ≤ (snprintf formatTag second).length := by
  have := length_printDecimal_mono (tagWidth formatTag) signs sizes
  rw [length_snprintf, length_snprintf]
  omega

theorem head_snprintf (formatTag : List Char) (value : Int) :
    (snprintf formatTag value).head? = some '-' ↔ value < 0 := by
  rw [← head_printDecimal (tagWidth formatTag), snprintf, List.head?_take]
  exact Iff.rfl

/-! Fillings of the same slots -/

section Fill

variable {fill fill' : Option Templatable → List Char → List Char} {slots : List Slot}
  {piece : List Char}

theorem printSlots_cons (fill : Option Templatable → List Char → List Char) (slot : Slot)
    (slots : List Slot) (piece : List Char) :
    printSlots fill (slot :: slots) piece =
      slot.piece ++ (fill (some slot.identifier) slot.formatTag ++ printSlots fill slots piece) := by
  simp [printSlots]

theorem printSlots_congr
    (same : ∀ slot ∈ slots, fill (some slot.identifier) slot.formatTag =
      fill' (some slot.identifier) slot.formatTag) :
    printSlots fill slots piece = printSlots fill' slots piece := by
  induction slots with
  | nil => rfl
  | cons slot slots ih =>
    obtain ⟨here, rest⟩ := List.forall_mem_cons.mp same
    rw [printSlots_cons, printSlots_cons, here, ih rest]

theorem printSlots_length
    (shorter : ∀ slot ∈ slots, (fill (some slot.identifier) slot.formatTag).length ≤
      (fill' (some slot.identifier) slot.formatTag).length) :
    (printSlots fill slots piece).length ≤ (printSlots fill' slots piece).length := by
  induction slots with
  | nil => exact Nat.le_refl _
  | cons slot slots ih =>
    obtain ⟨here, rest⟩ := List.forall_mem_cons.mp shorter
    have := ih rest
    simp only [printSlots_cons, List.length_append]
    omega

theorem printSlots_eq
    (shorter : ∀ slot ∈ slots, (fill (some slot.identifier) slot.formatTag).length ≤
      (fill' (some slot.identifier) slot.formatTag).length)
    (same : printSlots fill slots piece = printSlots fill' slots piece) :
    ∀ slot ∈ slots, fill (some slot.identifier) slot.formatTag =
      fill' (some slot.identifier) slot.formatTag := by
  induction slots with
  | nil =>
    intro slot absent
    cases absent
  | cons slot slots ih =>
    obtain ⟨here, rest⟩ := List.forall_mem_cons.mp shorter
    rw [printSlots_cons, printSlots_cons] at same
    have behind := List.append_cancel_left same
    have lengths := congrArg List.length behind
    have : (printSlots fill slots piece).length ≤ (printSlots fill' slots piece).length :=
      printSlots_length rest
    rw [List.length_append, List.length_append] at lengths
    obtain ⟨first, others⟩ := List.append_inj behind (by omega)
    exact List.forall_mem_cons.mpr ⟨first, ih rest others⟩

theorem printSlots_first {identifier : Templatable}
    (present : ∃ slot ∈ slots, slot.identifier = identifier)
    (others : ∀ slot ∈ slots, slot.identifier ≠ identifier →
      fill (some slot.identifier) slot.formatTag = fill' (some slot.identifier) slot.formatTag)
    (same : printSlots fill slots piece = printSlots fill' slots piece) :
    ∃ formatTag rest rest',
      fill (some identifier) formatTag ++ rest = fill' (some identifier) formatTag ++ rest' := by
  induction slots with
  | nil =>
    obtain ⟨slot, absent, _⟩ := present
    cases absent
  | cons slot slots ih =>
    rw [printSlots_cons, printSlots_cons] at same
    have behind := List.append_cancel_left same
    obtain ⟨here, rest⟩ := List.forall_mem_cons.mp others
    by_cases own : slot.identifier = identifier
    · rw [own] at behind
      exact ⟨_, _, _, behind⟩
    · obtain ⟨later, inside, its⟩ := present
      rw [here own] at behind
      refine ih ⟨later, ?_, its⟩ rest (List.append_cancel_left behind)
      exact (List.mem_cons.mp inside).resolve_left fun first => own (first ▸ its)

theorem head_of_append {first second rest rest' : List Char} (nonempty : 0 < first.length)
    (nonempty' : 0 < second.length) (same : first ++ rest = second ++ rest') :
    first.head? = second.head? := by
  obtain ⟨c, first, rfl⟩ := List.exists_cons_of_length_pos nonempty
  obtain ⟨d, second, rfl⟩ := List.exists_cons_of_length_pos nonempty'
  simpa using congrArg List.head? same

end Fill

/-! Times -/

def substituteFull (arguments : Arguments) (time : Int) (identifier : Option Templatable)
    (formatTag : List Char) : List Char :=
  if identifier = some .time then printDecimal (tagWidth formatTag) time
  else substitute arguments identifier formatTag

def timeTags (template : UrlTemplate) : List (List Char) :=
  ((template.identifiers.zip template.identifierFormatTags).filter (·.1 = some .time)).map (·.2)

section Times

variable {template : UrlTemplate} {slots : List Slot} {piece : List Char}

theorem Holds.timeTags_eq (holds : Holds template slots piece) :
    template.timeTags = (slots.filter (·.identifier = .time)).map (·.formatTag) := by
  have zipped : template.identifiers.zip template.identifierFormatTags =
      slots.map (fun slot => (some slot.identifier, slot.formatTag)) ++ [(none, [])] := by
    rw [holds.identifiers, holds.identifierFormatTags, List.zip_append (by simp), List.zip_map']
    rfl
  rw [timeTags, zipped, List.filter_append, List.filter_map]
  simp [Function.comp_def]

theorem Holds.mem_identifiers (holds : Holds template slots piece) (identifier : Templatable) :
    some identifier ∈ template.identifiers ↔ ∃ slot ∈ slots, slot.identifier = identifier := by
  rw [holds.identifiers]
  simp

theorem Holds.mem_timeTags (holds : Holds template slots piece) (formatTag : List Char) :
    formatTag ∈ template.timeTags ↔
      ∃ slot ∈ slots, slot.identifier = .time ∧ slot.formatTag = formatTag := by
  rw [holds.timeTags_eq]
  simp [and_assoc]

theorem snprintf_full {formatTag : List Char} {time : Int} (whole : toInt32 time = time)
    (narrow : tagWidth formatTag ≤ 31) :
    snprintf formatTag time = printDecimal (tagWidth formatTag) time := by
  have digits : (Nat.toDigits 10 time.natAbs).length ≤ 10 := by
    refine (Nat.length_toDigits_le_iff (by decide) (by decide)).mpr ?_
    unfold toInt32 at whole
    omega
  refine List.take_of_length_le ?_
  rw [length_printDecimal, kUrlBuilderBufSize]
  split <;> omega

theorem full_of_snprintf {formatTag : List Char} {first second : Int}
    (signs : first < 0 ↔ second < 0) (sizes : first.natAbs ≤ second.natAbs)
    (text : snprintf formatTag first = printDecimal (tagWidth formatTag) second) :
    first = second ∧ tagWidth formatTag ≤ 31 := by
  have lengths := congrArg List.length text
  have shorter := length_printDecimal_mono (tagWidth formatTag) signs sizes
  have width := length_printDecimal (tagWidth formatTag) second
  rw [length_snprintf] at lengths
  have whole : snprintf formatTag first = printDecimal (tagWidth formatTag) first :=
    List.take_of_length_le (by rw [kUrlBuilderBufSize]; omega)
  rw [whole] at text
  exact ⟨printDecimal_injective text, by omega⟩

theorem substitute_others (arguments : Arguments) (timeVal time : Int) {slot : Slot}
    (other : slot.identifier ≠ .time) :
    substitute { arguments with timeVal } (some slot.identifier) slot.formatTag =
      substituteFull arguments time (some slot.identifier) slot.formatTag := by
  rw [substituteFull, if_neg (by simpa using other)]
  cases identifier : slot.identifier with
  | time => exact absurd identifier other
  | representationId | number | bandwidth => rfl

theorem signs_of_interleave {fill fill' : Option Templatable → List Char → List Char}
    {first second : Int} (present : ∃ slot ∈ slots, slot.identifier = .time)
    (others : ∀ slot ∈ slots, slot.identifier ≠ .time →
      fill (some slot.identifier) slot.formatTag = fill' (some slot.identifier) slot.formatTag)
    (prints : ∀ formatTag, 0 < (fill (some .time) formatTag).length ∧
      ((fill (some .time) formatTag).head? = some '-' ↔ first < 0))
    (prints' : ∀ formatTag, 0 < (fill' (some .time) formatTag).length ∧
      ((fill' (some .time) formatTag).head? = some '-' ↔ second < 0))
    (same : printSlots fill slots piece = printSlots fill' slots piece) :
    first < 0 ↔ second < 0 := by
  obtain ⟨formatTag, rest, rest', begins⟩ := printSlots_first present others same
  have heads := head_of_append (prints formatTag).1 (prints' formatTag).1 begins
  rw [← (prints formatTag).2, ← (prints' formatTag).2, heads]

/-- The url has the time in full at every `$Time$` exactly if the time is an int32_t and no width is more
than the buffer takes. -/
theorem interleave_full_iff (holds : Holds template slots piece)
    (timed : some .time ∈ template.identifiers) (arguments : Arguments) (time : Int) :
    template.interleave (substitute { arguments with timeVal := toInt32 time }) =
        template.interleave (substituteFull arguments time) ↔
      toInt32 time = time ∧ ∀ formatTag ∈ template.timeTags, tagWidth formatTag ≤ 31 := by
  have present := (holds.mem_identifiers .time).mp timed
  have others : ∀ slot ∈ slots, slot.identifier ≠ .time →
      substitute { arguments with timeVal := toInt32 time } (some slot.identifier) slot.formatTag =
        substituteFull arguments time (some slot.identifier) slot.formatTag :=
    fun slot _ other => substitute_others arguments (toInt32 time) time other
  rw [holds.interleave_eq, holds.interleave_eq]
  constructor
  · intro same
    have signs : toInt32 time < 0 ↔ time < 0 :=
      signs_of_interleave present others
        (fun formatTag => ⟨length_snprintf_pos formatTag _, head_snprintf formatTag _⟩)
        (fun formatTag => ⟨length_printDecimal_pos _ _, head_printDecimal _ _⟩) same
    have sizes : (toInt32 time).natAbs ≤ time.natAbs := by
      unfold toInt32 at signs ⊢
      omega
    have slotwise := printSlots_eq (fun slot inside => ?_) same
    · have full : ∀ slot ∈ slots, slot.identifier = .time →
          toInt32 time = time ∧ tagWidth slot.formatTag ≤ 31 := by
        intro slot inside own
        have text := slotwise slot inside
        rw [own] at text
        exact full_of_snprintf signs sizes text
      obtain ⟨slot, inside, own⟩ := present
      refine ⟨(full slot inside own).1, fun formatTag tagged => ?_⟩
      obtain ⟨slot, inside, own, rfl⟩ := (holds.mem_timeTags formatTag).mp tagged
      exact (full slot inside own).2
    · by_cases own : slot.identifier = .time
      · have shorter : (snprintf slot.formatTag (toInt32 time)).length ≤
            (printDecimal (tagWidth slot.formatTag) time).length := by
          have := length_printDecimal_mono (tagWidth slot.formatTag) signs sizes
          rw [length_snprintf]
          omega
        rw [own]
        exact shorter
      · exact Nat.le_of_eq (congrArg List.length (others slot inside own))
  · rintro ⟨whole, narrow⟩
    refine printSlots_congr fun slot inside => ?_
    by_cases own : slot.identifier = .time
    · rw [own, whole]
      refine snprintf_full whole (narrow _ ?_)
      exact (holds.mem_timeTags _).mpr ⟨slot, inside, own, rfl⟩
    · exact others slot inside own

def Ordered (template : UrlTemplate) (first second : Arguments) : Prop :=
  some .number ∉ template.identifiers ∨
    (0 ≤ first.segmentNumber ∧ first.segmentNumber ≤ second.segmentNumber ∧
      0 ≤ first.timeVal ∧ first.timeVal ≤ second.timeVal)

theorem time_unique (holds : Holds template slots piece) (timed : some .time ∈ template.identifiers)
    (narrow : ∀ formatTag ∈ template.timeTags, tagWidth formatTag ≤ 31) {first second : Arguments}
    (whole : toInt32 first.timeVal = first.timeVal) (whole' : toInt32 second.timeVal = second.timeVal)
    (shorter : ∀ slot ∈ slots, (substitute first (some slot.identifier) slot.formatTag).length ≤
      (substitute second (some slot.identifier) slot.formatTag).length)
    (same : template.interleave (substitute first) = template.interleave (substitute second)) :
    first.timeVal = second.timeVal := by
  rw [holds.interleave_eq, holds.interleave_eq] at same
  obtain ⟨slot, inside, own⟩ := (holds.mem_identifiers .time).mp timed
  have text := printSlots_eq shorter same slot inside
  have width := narrow _ ((holds.mem_timeTags _).mpr ⟨slot, inside, own, rfl⟩)
  rw [own] at text
  have text : snprintf slot.formatTag first.timeVal = snprintf slot.formatTag second.timeVal := text
  rw [snprintf_full whole width, snprintf_full whole' width] at text
  exact printDecimal_injective text

structure Alike (first second : Arguments) : Prop where
  representationId : first.representationId = second.representationId
  bandwidth : first.bandwidth = second.bandwidth

def AtMost (first second : Int) : Prop :=
  (first < 0 ↔ second < 0) ∧ first.natAbs ≤ second.natAbs

theorem substitute_shorter {first second : Arguments} (alike : Alike first second)
    (numbers : (∀ slot ∈ slots, slot.identifier ≠ .number) ∨
      AtMost first.segmentNumber second.segmentNumber)
    (times : AtMost first.timeVal second.timeVal) :
    ∀ slot ∈ slots, (substitute first (some slot.identifier) slot.formatTag).length ≤
      (substitute second (some slot.identifier) slot.formatTag).length := by
  intro slot inside
  cases identifier : slot.identifier with
  | representationId => exact Nat.le_of_eq (congrArg List.length alike.representationId)
  | number =>
    have atMost := numbers.resolve_left fun none => none slot inside identifier
    exact length_snprintf_mono slot.formatTag atMost.1 atMost.2
  | bandwidth => exact Nat.le_of_eq (congrArg (fun value => (snprintf _ value).length) alike.bandwidth)
  | time => exact length_snprintf_mono slot.formatTag times.1 times.2

theorem substitute_same {first second : Arguments} (alike : Alike first second)
    (unnumbered : ∀ slot ∈ slots, slot.identifier ≠ .number) :
    ∀ slot ∈ slots, slot.identifier ≠ .time →
      substitute first (some slot.identifier) slot.formatTag =
        substitute second (some slot.identifier) slot.formatTag := by
  intro slot inside other
  cases identifier : slot.identifier with
  | representationId => exact alike.representationId
  | number => exact absurd identifier (unnumbered slot inside)
  | bandwidth => exact congrArg (snprintf slot.formatTag) alike.bandwidth
  | time => exact absurd identifier other

theorem interleave_distinct (holds : Holds template slots piece)
    (timed : some .time ∈ template.identifiers)
    (narrow : ∀ formatTag ∈ template.timeTags, tagWidth formatTag ≤ 31) {first second : Arguments}
    (alike : Alike first second) (whole : toInt32 first.timeVal = first.timeVal)
    (whole' : toInt32 second.timeVal = second.timeVal) (ordered : Ordered template first second)
    (different : first.timeVal ≠ second.timeVal) :
    template.interleave (substitute first) ≠ template.interleave (substitute second) := by
  intro same
  rcases ordered with unnumbered | ⟨number, numbers, time, times⟩
  · have unnumbered : ∀ slot ∈ slots, slot.identifier ≠ .number := fun slot inside own =>
      unnumbered ((holds.mem_identifiers .number).mpr ⟨slot, inside, own⟩)
    have signs : first.timeVal < 0 ↔ second.timeVal < 0 := by
      have printed := same
      rw [holds.interleave_eq, holds.interleave_eq] at printed
      exact signs_of_interleave ((holds.mem_identifiers .time).mp timed)
        (substitute_same alike unnumbered)
        (fun formatTag => ⟨length_snprintf_pos formatTag _, head_snprintf formatTag _⟩)
        (fun formatTag => ⟨length_snprintf_pos formatTag _, head_snprintf formatTag _⟩) printed
    rcases Nat.le_total first.timeVal.natAbs second.timeVal.natAbs with sizes | sizes
    · exact different (time_unique holds timed narrow whole whole'
        (substitute_shorter alike (.inl unnumbered) ⟨signs, sizes⟩) same)
    · have alike' : Alike second first := ⟨alike.1.symm, alike.2.symm⟩
      exact different (time_unique holds timed narrow whole' whole
        (substitute_shorter alike' (.inl unnumbered) ⟨signs.symm, sizes⟩) same.symm).symm
  · exact different (time_unique holds timed narrow whole whole'
      (substitute_shorter alike (.inr ⟨by omega, by omega⟩) ⟨by omega, by omega⟩) same)

-- Out of order, a number and a time can be written the same as others.
example : (compile "$Number$$Time$").map (·.buildUri "v" 1 1 11) =
    (compile "$Number$$Time$").map (·.buildUri "v" 11 1 1) := by decide +kernel

end Times

end UrlTemplate

namespace MultiSegmentBase

open UrlTemplate (Arguments substitute substituteFull tagWidth)

structure TimeTemplate (base : MultiSegmentBase) (template : UrlTemplate) (representationId : String)
    (bitrate : Int) : Prop where
  compiled : ∃ mediaTemplate, UrlTemplate.compile mediaTemplate = .ok template
  timed : some .time ∈ template.identifiers
  media : base.media = .template fun number time => template.buildUri representationId number bitrate time

def unscaledStart (base : MultiSegmentBase) (n : Int) : Option Int :=
  match base.segmentTimeline with
  | some timeline => (base.element timeline n).map (·.startTime)
  | none => some ((n - base.startNumber) * base.duration)

structure Starts (base : MultiSegmentBase) (periodDurationUs n time : Int) : Prop where
  number : toInt32 n = n
  first : base.getFirstSegmentNum ≤ n
  last : base.getLastSegmentNum periodDurationUs = kIndexUnbounded ∨
    n ≤ base.getLastSegmentNum periodDurationUs
  start : base.unscaledStart n = some time

def fullUri (base : MultiSegmentBase) (template : UrlTemplate) (representationId : String)
    (bitrate n time : Int) : RangedUri :=
  .create base.baseUrl (String.ofList (template.interleave (substituteFull
    { representationId := representationId.toList, segmentNumber := n, bandwidth := bitrate
      timeVal := time } time))) 0 (-1)

/-- The uri of every segment has the start in full where the template has `$Time$`, and segments with
different starts have different uris unless it also has `$Number$` and their order is another. -/
structure CarriesTime (base : MultiSegmentBase) (template : UrlTemplate) (representationId : String)
    (bitrate periodDurationUs : Int) : Prop where
  full : ∀ n time, base.Starts periodDurationUs n time →
    base.getSegmentUri n = some (base.fullUri template representationId bitrate n time)
  distinct : ∀ n m time time', base.Starts periodDurationUs n time →
    base.Starts periodDurationUs m time' → time ≠ time' →
      some .number ∉ template.identifiers ∨ (0 ≤ n ∧ n ≤ m ∧ 0 ≤ time ∧ time ≤ time') →
        base.getSegmentUri n ≠ base.getSegmentUri m

section

variable {base : MultiSegmentBase} {template : UrlTemplate} {representationId : String}
  {bitrate periodDurationUs n time : Int}

theorem toInt32_mul (value factor : Int) : toInt32 (toInt32 value * factor) = toInt32 (value * factor) := by
  obtain ⟨k, congruent⟩ := toInt32_congruent value
  have product : toInt32 value * factor = value * factor + k * factor * 4294967296 := by
    rw [congruent, Int.add_mul, Int.mul_right_comm]
  rw [product, toInt32_add_period]

-- The lower half of the start is what gets to BuildUri, whatever the type it is computed in.
theorem getSegmentUri_eq (timed : TimeTemplate base template representationId bitrate)
    (start : base.unscaledStart n = some time) :
    base.getSegmentUri n =
      some (.create base.baseUrl (template.buildUri representationId n bitrate (toInt32 time)) 0 (-1)) := by
  unfold unscaledStart at start
  unfold getSegmentUri
  rw [timed.media]
  cases timeline : base.segmentTimeline with
  | none =>
    rw [timeline] at start
    cases start
    dsimp only
    rw [toInt32_mul]
  | some elements =>
    rw [timeline] at start
    obtain ⟨element, found, rfl⟩ := Option.map_eq_some_iff.mp start
    simp only [found, Option.map_some]

theorem create_inj {baseUri first second : String} {start length : Int} :
    RangedUri.create baseUri first start length = .create baseUri second start length ↔
      first = second := by
  constructor
  · intro same
    exact congrArg RangedUri.referenceUri same
  · rintro rfl
    rfl

theorem getSegmentUri_full_iff (timed : TimeTemplate base template representationId bitrate)
    (start : base.unscaledStart n = some time) :
    base.getSegmentUri n = some (base.fullUri template representationId bitrate n time) ↔
      toInt32 time = time ∧ ∀ formatTag ∈ template.timeTags, tagWidth formatTag ≤ 31 := by
  obtain ⟨mediaTemplate, compiled⟩ := timed.compiled
  obtain ⟨slots, piece, holds⟩ := UrlTemplate.compile_holds compiled
  rw [getSegmentUri_eq timed start, Option.some.injEq, fullUri, create_inj, UrlTemplate.buildUri,
    String.ofList_inj]
  exact UrlTemplate.interleave_full_iff holds timed.timed
    { representationId := representationId.toList, segmentNumber := n, bandwidth := bitrate
      timeVal := time } time

/-- The uris carry the starts of the segments exactly if every start is an int32_t and no `$Time$` is
wider than the buffer. -/
theorem carriesTime_iff (timed : TimeTemplate base template representationId bitrate) :
    CarriesTime base template representationId bitrate periodDurationUs ↔
      ∀ n time, base.Starts periodDurationUs n time →
        toInt32 time = time ∧ ∀ formatTag ∈ template.timeTags, tagWidth formatTag ≤ 31 := by
  constructor
  · intro carries n time starts
    exact (getSegmentUri_full_iff timed starts.start).mp (carries.full n time starts)
  · intro condition
    refine ⟨fun n time starts => (getSegmentUri_full_iff timed starts.start).mpr
      (condition n time starts), ?_⟩
    intro n m time time' starts starts' different ordered
    obtain ⟨mediaTemplate, compiled⟩ := timed.compiled
    obtain ⟨slots, piece, holds⟩ := UrlTemplate.compile_holds compiled
    obtain ⟨whole, narrow⟩ := condition n time starts
    obtain ⟨whole', _⟩ := condition m time' starts'
    rw [getSegmentUri_eq timed starts.start, getSegmentUri_eq timed starts'.start, ne_eq,
      Option.some.injEq, create_inj, UrlTemplate.buildUri, UrlTemplate.buildUri,
      String.ofList_inj, whole, whole']
    exact UrlTemplate.interleave_distinct holds timed.timed narrow ⟨rfl, rfl⟩ whole whole' ordered
      different

end

namespace Sample

def template : UrlTemplate where
  urlPieces := [['t'], []]
  identifiers := [some .time, none]
  identifierFormatTags := [UrlTemplate.kDefaultFormatTag, []]
  identifierCount := 1

def timeline (first second : Int) : MultiSegmentBase where
  segmentTimeline := some [⟨first, second - first⟩, ⟨second, 10⟩]
  media := .template fun number time => template.buildUri "v" number 1 time

theorem timed (first second : Int) : TimeTemplate (timeline first second) template "v" 1 where
  compiled := ⟨"t$Time$", by decide +kernel⟩
  timed := List.mem_cons_self
  media := rfl

theorem starts {first second n time : Int} (starts : (timeline first second).Starts 0 n time) :
    time = first ∨ time = second := by
  obtain ⟨element, found, rfl⟩ := Option.map_eq_some_iff.mp starts.start
  have inside : element ∈ [⟨first, second - first⟩, ⟨second, 10⟩] := by
    unfold MultiSegmentBase.element at found
    dsimp only at found
    split at found
    · cases found
    · exact List.mem_of_getElem? found
  simp only [List.mem_cons, List.not_mem_nil, or_false] at inside
  exact inside.imp (congrArg SegmentTimelineElement.startTime) (congrArg SegmentTimelineElement.startTime)

end Sample

open Sample in
theorem carriesTime_sample : CarriesTime (timeline 0 2000000000) template "v" 1 0 := by
  refine (carriesTime_iff (timed 0 2000000000)).mpr fun n time its => ⟨?_, by decide⟩
  rcases starts its with rfl | rfl <;> decide

open Sample in
/-- Segments that start at 0 and at 2^32 have the same url. -/
theorem time_truncated :
    TimeTemplate (timeline 0 4294967296) template "v" 1 ∧
      (timeline 0 4294967296).Starts 0 1 0 ∧ (timeline 0 4294967296).Starts 0 2 4294967296 ∧
      (timeline 0 4294967296).getSegmentUri 1 = some (.create "" "t0" 0 (-1)) ∧
      (timeline 0 4294967296).getSegmentUri 2 = some (.create "" "t0" 0 (-1)) ∧
      ¬ CarriesTime (timeline 0 4294967296) template "v" 1 0 := by
  have starts : (timeline 0 4294967296).Starts 0 1 0 := ⟨rfl, by decide, by decide, by decide⟩
  have starts' : (timeline 0 4294967296).Starts 0 2 4294967296 := ⟨rfl, by decide, by decide, by decide⟩
  have uri : (timeline 0 4294967296).getSegmentUri 1 = some (.create "" "t0" 0 (-1)) := by
    decide +kernel
  have uri' : (timeline 0 4294967296).getSegmentUri 2 = some (.create "" "t0" 0 (-1)) := by
    decide +kernel
  refine ⟨timed 0 4294967296, starts, starts', uri, uri', fun carries => ?_⟩
  exact carries.distinct 1 2 0 4294967296 starts starts' (by decide) (.inl (by decide))
    (uri.trans uri'.symm)

end MultiSegmentBase

end NDash.Mpd
