import NDash.Mpd.ManifestAttributes

set_option autoImplicit false

/-!
# Ranges of bytes

What ParseRange accepts: numbers as strtol reads them, while errno is not ERANGE from before.
-/

namespace NDash.Mpd.Manifest

open Pull

theorem strtol_run (text : List Char) (errno : Int) :
    strtol text errno =
      .ok (((scanLong text).value, (scanLong text).rest),
        if (scanLong text).outOfRange then ERANGE else errno) := by
  unfold strtol
  dsimp only
  split <;> rfl

theorem bind_strtol {β : Type} {text : List Char} {second : Int × List Char → Attempt β}
    {errno : Int} {result : β × Int} (ran : (strtol text >>= second) errno = .ok result) :
    ∃ value rest errno', (errno' = ERANGE ∨ errno' = errno) ∧
      second (value, rest) errno' = .ok result := by
  obtain ⟨middle, began, next⟩ := effect_bind_ok ran
  rw [strtol_run] at began
  cases began
  refine ⟨_, _, _, ?_, next⟩
  split
  · exact .inl rfl
  · exact .inr rfl

theorem parseRange_errno {text : String} {errno errno' : Int} {range : Int × Int}
    (parsed : parseRange text errno = .ok (some range, errno')) : errno' = errno := by
  unfold parseRange at parsed
  obtain ⟨indexStart, rest, errno₁, first, parsed⟩ := bind_strtol parsed
  dsimp only at parsed
  split at parsed
  · cases parsed
  obtain ⟨⟨seen, errno₂⟩, got, parsed⟩ := effect_bind_ok parsed
  cases got
  split at parsed
  · cases parsed
  next clear =>
    obtain ⟨indexEnd, rest, errno₃, second, parsed⟩ := bind_strtol parsed
    dsimp only at parsed
    split at parsed
    · cases parsed
    obtain ⟨⟨seen, errno₄⟩, got, parsed⟩ := effect_bind_ok parsed
    cases got
    split at parsed
    · cases parsed
    next clear' =>
      split at parsed
      · cases parsed
      · cases parsed
        rw [second.resolve_left clear', first.resolve_left clear]

theorem parseRangedUrl_errno {node : Node} {baseUrl urlAttribute rangeAttribute : String}
    {errno errno' : Int} {uri : RangedUri}
    (parsed : parseRangedUrl node baseUrl urlAttribute rangeAttribute errno = .ok (uri, errno')) :
    errno' = errno := by
  unfold parseRangedUrl at parsed
  dsimp only at parsed
  split at parsed
  · cases parsed
    rfl
  obtain ⟨⟨range, errno₁⟩, found, parsed⟩ := effect_bind_ok parsed
  cases range with
  | none => cases parsed
  | some range =>
    cases parsed
    exact parseRange_errno found

/-! What strtol reads -/

def Digits (text : List Char) : Prop := text ≠ [] ∧ ∀ c ∈ text, c.isDigit = true

inductive Numeral : List Char → Int → Prop
  | plain {spaces digits : List Char} (blank : ∀ c ∈ spaces, isSpace c = true)
      (numeric : Digits digits) : Numeral (spaces ++ digits) (digitsValue digits)
  | plus {spaces digits : List Char} (blank : ∀ c ∈ spaces, isSpace c = true)
      (numeric : Digits digits) : Numeral (spaces ++ '+' :: digits) (digitsValue digits)
  | minus {spaces digits : List Char} (blank : ∀ c ∈ spaces, isSpace c = true)
      (numeric : Digits digits) : Numeral (spaces ++ '-' :: digits) (-digitsValue digits)

def Ends (rest : List Char) : Prop := ∀ c, rest.head? = some c → c.isDigit = false

def fitLong (value : Int) (rest : List Char) : Strtol :=
  if value < -2 ^ 63 then { value := -2 ^ 63, rest, outOfRange := true }
  else if value ≥ 2 ^ 63 then { value := 2 ^ 63 - 1, rest, outOfRange := true }
  else { value, rest, outOfRange := false }

theorem takeWhile_digits {digits rest : List Char} (numeric : Digits digits) (ends : Ends rest) :
    (digits ++ rest).takeWhile Char.isDigit = digits ∧
      (digits ++ rest).dropWhile Char.isDigit = rest := by
  rw [List.takeWhile_append_of_pos numeric.2, List.dropWhile_append_of_pos numeric.2]
  cases rest with
  | nil => simp
  | cons c rest => simp [ends c rfl]

theorem dropWhile_spaces {spaces rest : List Char} (blank : ∀ c ∈ spaces, isSpace c = true)
    (ends : ∀ c, rest.head? = some c → isSpace c = false) :
    (spaces ++ rest).dropWhile isSpace = rest := by
  rw [List.dropWhile_append_of_pos blank]
  cases rest with
  | nil => rfl
  | cons c rest => simp [ends c rfl]

theorem not_space_of_digit {c : Char} (digit : c.isDigit = true) : isSpace c = false := by
  rw [Bool.eq_false_iff]
  intro space
  simp only [isSpace, List.mem_cons, List.not_mem_nil, or_false, decide_eq_true_eq] at space
  rcases space with rfl | rfl | rfl | rfl | rfl | rfl <;> exact absurd digit (by decide)

def signed : List Char → Bool × List Char
  | '-' :: body => (true, body)
  | '+' :: body => (false, body)
  | body => (false, body)

theorem scanLong_eq (text : List Char) :
    scanLong text =
      if ((signed (text.dropWhile isSpace)).2.takeWhile Char.isDigit).isEmpty then
        { value := 0, rest := text, outOfRange := false }
      else
        fitLong
          (if (signed (text.dropWhile isSpace)).1 then
            -digitsValue ((signed (text.dropWhile isSpace)).2.takeWhile Char.isDigit)
          else digitsValue ((signed (text.dropWhile isSpace)).2.takeWhile Char.isDigit))
          ((signed (text.dropWhile isSpace)).2.dropWhile Char.isDigit) := rfl

theorem signed_digits {digits rest : List Char} (numeric : Digits digits) :
    signed (digits ++ rest) = (false, digits ++ rest) := by
  cases digits with
  | nil => exact absurd rfl numeric.1
  | cons c digits =>
    have digit := numeric.2 c List.mem_cons_self
    unfold signed
    split
    · next same =>
      cases same
      exact absurd digit (by decide)
    · next same =>
      cases same
      exact absurd digit (by decide)
    · rfl

/-- strtol reads a numeral up to where its digits end. -/
theorem scanLong_numeral {text rest : List Char} {value : Int} (numeral : Numeral text value)
    (ends : Ends rest) : scanLong (text ++ rest) = fitLong value rest := by
  have plainHead {digits : List Char} (numeric : Digits digits) (c : Char)
      (first : (digits ++ rest).head? = some c) : isSpace c = false := by
    cases digits with
    | nil => exact absurd rfl numeric.1
    | cons d digits =>
      cases first
      exact not_space_of_digit (numeric.2 c List.mem_cons_self)
  rw [scanLong_eq]
  cases numeral with
  | plain blank numeric =>
    obtain ⟨taken, left⟩ := takeWhile_digits numeric ends
    rw [List.append_assoc, dropWhile_spaces blank (plainHead numeric), signed_digits numeric]
    dsimp only
    rw [taken, left, if_neg (by simpa using numeric.1)]
    rfl
  | plus blank numeric =>
    obtain ⟨taken, left⟩ := takeWhile_digits numeric ends
    rw [List.append_assoc, List.cons_append, dropWhile_spaces blank (by rintro c ⟨⟩; decide), signed]
    dsimp only
    rw [taken, left, if_neg (by simpa using numeric.1)]
    rfl
  | minus blank numeric =>
    obtain ⟨taken, left⟩ := takeWhile_digits numeric ends
    rw [List.append_assoc, List.cons_append, dropWhile_spaces blank (by rintro c ⟨⟩; decide), signed]
    dsimp only
    rw [taken, left, if_neg (by simpa using numeric.1)]
    rfl

theorem signed_cases (body : List Char) :
    body = '-' :: (signed body).2 ∧ (signed body).1 = true ∨
      body = '+' :: (signed body).2 ∧ (signed body).1 = false ∨
      body = (signed body).2 ∧ (signed body).1 = false := by
  unfold signed
  split
  · exact .inl ⟨rfl, rfl⟩
  · exact .inr (.inl ⟨rfl, rfl⟩)
  · exact .inr (.inr ⟨rfl, rfl⟩)

theorem ends_dropWhile (text : List Char) : Ends (text.dropWhile Char.isDigit) := by
  intro c first
  have := List.head?_dropWhile_not Char.isDigit text
  rw [first] at this
  exact this

theorem mem_takeWhile (p : Char → Bool) (text : List Char) :
    ∀ c ∈ text.takeWhile p, p c = true :=
  List.all_eq_true.mp List.all_takeWhile

theorem scanLong_cases (text : List Char) :
    (∃ numeral value rest, text = numeral ++ rest ∧ Numeral numeral value ∧ Ends rest) ∨
      scanLong text = { value := 0, rest := text, outOfRange := false } := by
  have whole := List.takeWhile_append_dropWhile (p := isSpace) (l := text)
  have shape := signed_cases (text.dropWhile isSpace)
  have scanned := scanLong_eq text
  have blank := mem_takeWhile isSpace text
  generalize text.takeWhile isSpace = spaces at whole blank
  generalize text.dropWhile isSpace = behind at *
  generalize signed behind = found at *
  obtain ⟨negative, body⟩ := found
  have parts := List.takeWhile_append_dropWhile (p := Char.isDigit) (l := body)
  have ends := ends_dropWhile body
  have numbers := mem_takeWhile Char.isDigit body
  dsimp only at shape scanned
  generalize body.takeWhile Char.isDigit = digits at *
  generalize body.dropWhile Char.isDigit = rest at *
  subst whole parts
  cases digits with
  | nil => exact .inr scanned
  | cons d digits =>
    have numeric : Digits (d :: digits) := ⟨List.cons_ne_nil d digits, numbers⟩
    left
    rcases shape with ⟨rfl, -⟩ | ⟨rfl, -⟩ | ⟨rfl, -⟩
    · exact ⟨_, _, rest, by simp, .minus blank numeric, ends⟩
    · exact ⟨_, _, rest, by simp, .plus blank numeric, ends⟩
    · exact ⟨_, _, rest, by simp, .plain blank numeric, ends⟩

def Reads (text : List Char) (value : Int) (rest : List Char) : Prop :=
  scanLong text = { value, rest, outOfRange := false } ∧ 0 ≤ value

theorem fitLong_reads {value other : Int} {rest behind : List Char} (nonneg : 0 ≤ other) :
    fitLong value rest = { value := other, rest := behind, outOfRange := false } ↔
      value = other ∧ rest = behind ∧ value < 2 ^ 63 := by
  unfold fitLong
  split
  · simp
    omega
  · split
    · simp
      omega
    · simp
      omega

theorem scanLong_minus {behind : List Char} (ends : Ends behind) :
    scanLong ('-' :: behind) = { value := 0, rest := '-' :: behind, outOfRange := false } := by
  have stays : ('-' :: behind).dropWhile isSpace = '-' :: behind := rfl
  have none : (behind.takeWhile Char.isDigit).isEmpty = true := by
    cases behind with
    | nil => rfl
    | cons c behind => simp [ends c rfl]
  rw [scanLong_eq, stays, signed]
  dsimp only
  rw [if_pos none]

theorem ends_of_scanLong {behind : List Char}
    (nothing : scanLong ('-' :: behind) =
      { value := 0, rest := '-' :: behind, outOfRange := false }) : Ends behind := by
  intro c first
  by_contra digit
  have numeric : Digits (behind.takeWhile Char.isDigit) := by
    refine ⟨?_, mem_takeWhile Char.isDigit behind⟩
    cases behind with
    | nil => cases first
    | cons d behind =>
      cases first
      rw [List.takeWhile_cons_of_pos (by simpa using digit)]
      exact List.cons_ne_nil _ _
  have parts := List.takeWhile_append_dropWhile (p := Char.isDigit) (l := behind)
  have read := scanLong_numeral (@Numeral.minus [] _ (by simp) numeric) (ends_dropWhile behind)
  rw [List.nil_append, List.cons_append, parts, nothing] at read
  obtain ⟨-, same, -⟩ := (fitLong_reads (Int.le_refl 0)).mp read.symm
  have shorter := (List.dropWhile_suffix Char.isDigit (l := behind)).length_le
  have length := congrArg List.length same
  rw [List.length_cons] at length
  omega

/-- The first number: a numeral, or nothing in front of a minus that is not a sign. -/
theorem reads_before_iff {text behind : List Char} {first : Int} :
    Reads text first ('-' :: behind) ↔
      (∃ numeral, text = numeral ++ '-' :: behind ∧
        (Numeral numeral first ∨ numeral = [] ∧ first = 0 ∧ Ends behind)) ∧
      0 ≤ first ∧ first < 2 ^ 63 := by
  have stops : Ends ('-' :: behind) := by
    rintro c ⟨⟩
    rfl
  constructor
  · rintro ⟨read, nonneg⟩
    rcases scanLong_cases text with ⟨numeral, value, rest, rfl, isNumeral, ends⟩ | nothing
    · rw [scanLong_numeral isNumeral ends, fitLong_reads nonneg] at read
      obtain ⟨rfl, rfl, fits⟩ := read
      exact ⟨⟨numeral, rfl, .inl isNumeral⟩, nonneg, fits⟩
    · rw [nothing, Strtol.mk.injEq] at read
      obtain ⟨rfl, rfl, -⟩ := read
      exact ⟨⟨[], rfl, .inr ⟨rfl, rfl, ends_of_scanLong nothing⟩⟩, nonneg, by decide⟩
  · rintro ⟨⟨numeral, rfl, isNumeral | ⟨rfl, rfl, ends⟩⟩, nonneg, fits⟩
    · refine ⟨?_, nonneg⟩
      rw [scanLong_numeral isNumeral stops, fitLong_reads nonneg]
      exact ⟨rfl, rfl, fits⟩
    · exact ⟨scanLong_minus ends, nonneg⟩

/-- The second number: a numeral, or nothing at all. -/
theorem reads_end_iff {text : List Char} {last : Int} :
    Reads text last [] ↔ (Numeral text last ∨ text = [] ∧ last = 0) ∧ 0 ≤ last ∧ last < 2 ^ 63 := by
  constructor
  · rintro ⟨read, nonneg⟩
    rcases scanLong_cases text with ⟨numeral, value, rest, rfl, isNumeral, ends⟩ | nothing
    · rw [scanLong_numeral isNumeral ends, fitLong_reads nonneg] at read
      obtain ⟨rfl, rfl, fits⟩ := read
      rw [List.append_nil]
      exact ⟨.inl isNumeral, nonneg, fits⟩
    · rw [nothing, Strtol.mk.injEq] at read
      obtain ⟨rfl, rfl, -⟩ := read
      exact ⟨.inr ⟨rfl, rfl⟩, nonneg, by decide⟩
  · rintro ⟨isNumeral | ⟨rfl, rfl⟩, nonneg, fits⟩
    · have read := @scanLong_numeral _ [] _ isNumeral nofun
      rw [List.append_nil] at read
      refine ⟨?_, nonneg⟩
      rw [read, fitLong_reads nonneg]
      exact ⟨rfl, rfl, fits⟩
    · exact ⟨rfl, nonneg⟩

theorem attempt_bind {α β : Type} (first : Attempt α) (second : α → Attempt β) (errno : Int) :
    (first >>= second) errno =
      (first errno).bind fun result => second result.1 result.2 := rfl

theorem attempt_pure {α : Type} (value : α) (errno : Int) :
    (pure value : Attempt α) errno = .ok (value, errno) := rfl

theorem attempt_get (errno : Int) : (get : Attempt Int) errno = .ok (errno, errno) := rfl

def checkRange (first second : Strtol) (errno : Int) :
    Except Failure (Option (Int × Int) × Int) :=
  let errno₁ := if first.outOfRange then ERANGE else errno
  let errno₂ := if second.outOfRange then ERANGE else errno₁
  if first.value < 0 ∨ first.rest.head? ≠ some '-' then .ok (none, errno₁)
  else if errno₁ = ERANGE then .ok (none, errno₁)
  else if second.value < 0 ∨ second.rest ≠ [] then .ok (none, errno₂)
  else if errno₂ = ERANGE then .ok (none, errno₂)
  else if second.value < first.value then .ok (none, errno₂)
  else .ok (some (first.value, toInt64 (second.value - first.value + 1)), errno₂)

theorem parseRange_run (text : String) (errno : Int) :
    parseRange text errno =
      checkRange (scanLong text.toList) (scanLong (scanLong text.toList).rest.tail) errno := by
  unfold parseRange checkRange
  rw [attempt_bind, strtol_run]
  dsimp only [Except.bind]
  generalize (if (scanLong text.toList).outOfRange then ERANGE else errno) = errno₁
  split
  · rfl
  · rw [attempt_bind, attempt_get]
    dsimp only [Except.bind]
    split
    · rfl
    · rw [attempt_bind, strtol_run]
      dsimp only [Except.bind]
      generalize (if (scanLong (scanLong text.toList).rest.tail).outOfRange then ERANGE
        else errno₁) = errno₂
      split
      · rfl
      · rw [attempt_bind, attempt_get]
        dsimp only [Except.bind]
        split
        · rfl
        · split <;> rfl

theorem checkRange_iff {first second : Strtol} {errno errno' : Int} {range : Int × Int}
    (clear : errno ≠ ERANGE) :
    checkRange first second errno = .ok (some range, errno') ↔
      (first.outOfRange = false ∧ 0 ≤ first.value ∧ first.rest.head? = some '-') ∧
      (second.outOfRange = false ∧ 0 ≤ second.value ∧ second.rest = []) ∧
      first.value ≤ second.value ∧ range = (first.value, toInt64 (second.value - first.value + 1)) ∧
      errno' = errno := by
  obtain ⟨value, rest, outOfRange⟩ := first
  obtain ⟨value', rest', outOfRange'⟩ := second
  unfold checkRange
  constructor
  · intro checked
    grind
  · rintro ⟨⟨rfl, nonneg, minus⟩, ⟨rfl, nonneg', done⟩, ordered, rfl, rfl⟩
    grind

/-! The grammar of a range -/

def IsRange (text : String) (first last : Int) : Prop :=
  ∃ before behind, text.toList = before ++ '-' :: behind ∧ Digits before ∧ Digits behind ∧
    (digitsValue before : Int) = first ∧ (digitsValue behind : Int) = last ∧
    first ≤ last ∧ last < 2 ^ 63

def Lenient (text : String) (first last : Int) : Prop :=
  ∃ before behind, text.toList = before ++ '-' :: behind ∧
    (Numeral before first ∨ before = [] ∧ first = 0 ∧ Ends behind) ∧
    (Numeral behind last ∨ behind = [] ∧ last = 0) ∧ 0 ≤ first ∧ first ≤ last ∧ last < 2 ^ 63

theorem IsRange.lenient {text : String} {first last : Int} (range : IsRange text first last) :
    Lenient text first last := by
  obtain ⟨before, behind, split, numeric, numeric', rfl, rfl, ordered, fits⟩ := range
  refine ⟨before, behind, split, .inl ?_, .inl ?_, by omega, ordered, fits⟩
  · exact @Numeral.plain [] _ (by simp) numeric
  · exact @Numeral.plain [] _ (by simp) numeric'

-- Once errno is ERANGE, it stays.
theorem parseRange_stale (text : String) : parseRange text ERANGE = .ok (none, ERANGE) := by
  rw [parseRange_run]
  simp [checkRange]

/-- What ParseRange accepts as long as errno is not ERANGE. -/
theorem parseRange_iff {text : String} {errno : Int} (clear : errno ≠ ERANGE) {range : Int × Int}
    {errno' : Int} :
    parseRange text errno = .ok (some range, errno') ↔
      ∃ first last, Lenient text first last ∧ range = (first, toInt64 (last - first + 1)) ∧
        errno' = errno := by
  constructor
  · intro parsed
    rw [parseRange_run] at parsed
    obtain ⟨⟨fits, nonneg, minus⟩, ⟨fits', nonneg', done⟩, ordered, rfl, rfl⟩ :=
      (checkRange_iff clear).mp parsed
    obtain ⟨behind, split⟩ : ∃ behind, (scanLong text.toList).rest = '-' :: behind :=
      List.head?_eq_some_iff.mp minus
    rw [split, List.tail_cons] at done fits' nonneg' ordered ⊢
    have read : Reads text.toList (scanLong text.toList).value ('-' :: behind) :=
      ⟨by rw [← split, ← fits], nonneg⟩
    have read' : Reads behind (scanLong behind).value [] := ⟨by rw [← done, ← fits'], nonneg'⟩
    obtain ⟨⟨before, parts, isFirst⟩, -, -⟩ := reads_before_iff.mp read
    obtain ⟨isLast, -, below⟩ := reads_end_iff.mp read'
    exact ⟨_, _, ⟨before, behind, parts, isFirst, isLast, nonneg, ordered, below⟩, rfl, rfl⟩
  · rintro ⟨first, last, ⟨before, behind, split, isFirst, isLast, nonneg, ordered, fits⟩, rfl, rfl⟩
    have read : Reads text.toList first ('-' :: behind) :=
      reads_before_iff.mpr ⟨⟨before, split, isFirst⟩, nonneg, by omega⟩
    have read' : Reads behind last [] := reads_end_iff.mpr ⟨isLast, by omega, fits⟩
    rw [parseRange_run, read.1]
    dsimp only [List.tail_cons]
    rw [read'.1]
    exact (checkRange_iff clear).mpr
      ⟨⟨rfl, nonneg, rfl⟩, ⟨rfl, read'.2, rfl⟩, ordered, rfl, rfl⟩

theorem checkRange_total (first second : Strtol) (errno : Int) :
    ∃ range errno', checkRange first second errno = .ok (range, errno') := by
  unfold checkRange
  dsimp only
  generalize (if first.outOfRange then ERANGE else errno) = errno₁
  generalize (if second.outOfRange then ERANGE else errno₁) = errno₂
  split_ifs <;> exact ⟨_, _, rfl⟩

theorem parseRange_total (text : String) (errno : Int) :
    ∃ range errno', parseRange text errno = .ok (range, errno') := by
  rw [parseRange_run]
  exact checkRange_total _ _ errno

theorem Lenient.bounds {text : String} {first last : Int} (range : Lenient text first last) :
    0 ≤ first ∧ first ≤ last ∧ last < 2 ^ 63 := by
  obtain ⟨before, behind, -, -, -, bounds⟩ := range
  exact bounds

theorem Lenient.length_eq {text : String} {first last last' : Int} (range : Lenient text first last)
    (range' : Lenient text first last')
    (same : toInt64 (last - first + 1) = toInt64 (last' - first + 1)) : last = last' := by
  have bounds := range.bounds
  have bounds' := range'.bounds
  unfold toInt64 at same
  omega

def FollowsGrammar (text : String) (errno : Int) : Prop :=
  (∀ first last, IsRange text first last →
    ∃ errno', parseRange text errno = .ok (some (first, last - first + 1), errno')) ∧
  ((∀ first last, ¬ IsRange text first last) →
    ∃ errno', parseRange text errno = .ok (none, errno'))

/-- The grammar is followed exactly if an ERANGE from before meets no range, and otherwise nothing
but a range is taken for one and its length is an int64_t. -/
theorem parseRange_followsGrammar_iff (text : String) (errno : Int) :
    FollowsGrammar text errno ↔
      (errno = ERANGE → ∀ first last, ¬ IsRange text first last) ∧
      (errno ≠ ERANGE → ∀ first last, Lenient text first last →
        IsRange text first last ∧ last - first + 1 < 2 ^ 63) := by
  constructor
  · rintro ⟨accepts, rejects⟩
    constructor
    · rintro rfl first last range
      obtain ⟨errno', parsed⟩ := accepts first last range
      rw [parseRange_stale] at parsed
      cases parsed
    · intro clear first last lenient
      have parsed := (parseRange_iff clear).mpr ⟨first, last, lenient, rfl, rfl⟩
      by_cases some : ∃ first last, IsRange text first last
      · obtain ⟨first', last', range⟩ := some
        obtain ⟨errno', same⟩ := accepts first' last' range
        rw [parsed] at same
        obtain ⟨rfl, length⟩ := Prod.mk.inj (Option.some.inj (Prod.mk.inj (Except.ok.inj same)).1)
        have fits : last' - first + 1 < 2 ^ 63 := by
          rw [← length]
          unfold toInt64
          omega
        have bounds := range.lenient.bounds
        have lengths : toInt64 (last - first + 1) = toInt64 (last' - first + 1) := by
          rw [length, toInt64_of_range (by omega) (by omega)]
        obtain rfl := lenient.length_eq range.lenient lengths
        exact ⟨range, fits⟩
      · obtain ⟨errno', same⟩ := rejects fun first last range => some ⟨first, last, range⟩
        rw [parsed] at same
        cases same
  · rintro ⟨stale, strict⟩
    constructor
    · intro first last range
      have clear : errno ≠ ERANGE := fun same => stale same first last range
      have fits := (strict clear first last range.lenient).2
      have bounds := range.lenient.bounds
      have parsed := (parseRange_iff clear).mpr ⟨first, last, range.lenient, rfl, rfl⟩
      rw [toInt64_of_range (by omega) (by omega)] at parsed
      exact ⟨errno, parsed⟩
    · intro none
      by_cases same : errno = ERANGE
      · rw [same]
        exact ⟨ERANGE, parseRange_stale text⟩
      · obtain ⟨range, errno', parsed⟩ := parseRange_total text errno
        cases range with
        | none => exact ⟨errno', parsed⟩
        | some range =>
          obtain ⟨first, last, lenient, -, -⟩ := (parseRange_iff same).mp parsed
          exact absurd (strict same first last lenient).1 (none first last)

-- A hyphen alone is the range of the first byte, and after an ERANGE no range is one.
theorem parseRange_leniency :
    ¬ FollowsGrammar "-" 0 ∧ ¬ FollowsGrammar "5-9" ERANGE := by
  constructor
  · rintro ⟨-, rejects⟩
    obtain ⟨errno', parsed⟩ := rejects (by
      rintro first last ⟨before, behind, split, numeric, -⟩
      cases before with
      | nil => exact numeric.1 rfl
      | cons c before =>
        have length := congrArg List.length split
        simp at length)
    have accepted : parseRange "-" 0 = .ok (some (0, 1), 0) := by decide
    rw [accepted] at parsed
    cases parsed
  · rintro ⟨accepts, -⟩
    obtain ⟨errno', parsed⟩ := accepts 5 9
      ⟨['5'], ['9'], rfl, by simp [Digits], by simp [Digits], rfl, rfl, by decide, by decide⟩
    rw [parseRange_stale] at parsed
    cases parsed

end NDash.Mpd.Manifest
