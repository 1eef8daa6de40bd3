import NDash.Util

set_option autoImplicit false

namespace NDash.Util

structure Uuid where
  value : Bytes
  sized : value.length = 16
deriving DecidableEq, Repr

namespace Uuid

def empty : Uuid := ⟨List.replicate 16 0, rfl⟩

-- 32 hex digits and 4 dashes
def kValidStringLength : Nat := 32 + 4

def digitValue (c : Char) : Option Nat :=
  let lower := c.toLower
  if '0' ≤ lower ∧ lower ≤ '9' then some (lower.toNat - '0'.toNat)
  else if 'a' ≤ lower ∧ lower ≤ 'f' then some (lower.toNat - 'a'.toNat + 10)
  else none

def byteOf (high low : Nat) : UInt8 := UInt8.ofNat (high <<< 4 ||| low)

-- The text is what is left of the string from `i` on, and the bytes are those written so far: the
-- loop goes on while two characters are left and fewer than 16 bytes are written.
def parseLoop (value : Bytes) : List Char → Option Bytes
  | c1 :: c2 :: rest =>
    if value.length < 16 then
      if c1 = '-' then parseLoop value (c2 :: rest)
      else if c1 = '\x00' then some value
      else
        match digitValue c1, digitValue c2 with
        | some high, some low => parseLoop (value ++ [byteOf high low]) rest
        | _, _ => none
    else some value
  | _ => some value

def parse (string : List Char) : Uuid :=
  if string.length ≠ kValidStringLength then empty
  else
    match parseLoop [] string with
    | some value => if sized : value.length = 16 then ⟨value, sized⟩ else empty
    | none => empty

-- %02X
def hexDigit (digit : Nat) : Char :=
  Char.ofNat (if digit < 10 then '0'.toNat + digit else 'A'.toNat + (digit - 10))

def printByte (byte : UInt8) : List Char := [hexDigit (byte.toNat / 16), hexDigit (byte.toNat % 16)]

def toString (uuid : Uuid) : List Char :=
  let bytes := fun first count => ((uuid.value.drop first).take count).flatMap printByte
  bytes 0 4 ++ '-' :: bytes 4 2 ++ '-' :: bytes 6 2 ++ '-' :: bytes 8 2 ++ '-' :: bytes 10 6

theorem digitValue_lt {c : Char} {digit : Nat} (is : digitValue c = some digit) : digit < 16 := by
  unfold digitValue at is
  dsimp only at is
  split at is
  · next numeral =>
    have upper : c.toLower.toNat ≤ 57 := numeral.2
    cases is
    have : '0'.toNat = 48 := rfl
    omega
  · split at is
    · next letter =>
      have upper : c.toLower.toNat ≤ 102 := letter.2
      cases is
      have : 'a'.toNat = 97 := rfl
      omega
    · cases is

theorem digitValue_hexDigit : ∀ digit < 16, digitValue (hexDigit digit) = some digit := by
  decide

theorem toNat_toLower_hexDigit : ∀ digit < 16, (hexDigit digit).toLower.toNat =
    if digit < 10 then 48 + digit else 87 + digit := by
  decide

theorem toLower_hexDigit {c : Char} {digit : Nat} (is : digitValue c = some digit) :
    (hexDigit digit).toLower = c.toLower := by
  have bounded := digitValue_lt is
  apply Char.toNat_inj.mp
  rw [toNat_toLower_hexDigit digit bounded]
  unfold digitValue at is
  dsimp only at is
  split at is
  · next numeral =>
    have lower : 48 ≤ c.toLower.toNat := numeral.1
    have upper : c.toLower.toNat ≤ 57 := numeral.2
    cases is
    have : '0'.toNat = 48 := rfl
    split <;> omega
  · split at is
    · next letter =>
      have lower : 97 ≤ c.toLower.toNat := letter.1
      cases is
      have : 'a'.toNat = 97 := rfl
      split <;> omega
    · cases is

theorem toNat_byteOf {high low : Nat} (high_lt : high < 16) (low_lt : low < 16) :
    (byteOf high low).toNat = 16 * high + low := by
  have halves : high <<< 4 ||| low = high <<< 4 + low :=
    (Nat.shiftLeft_add_eq_or_of_lt (by omega) high).symm
  rw [byteOf, halves, Nat.shiftLeft_eq, UInt8.toNat_ofNat']
  omega

theorem byteOf_toNat (byte : UInt8) : byteOf (byte.toNat / 16) (byte.toNat % 16) = byte := by
  have bounded := byte.toNat_lt
  apply UInt8.toNat_inj.mp
  rw [toNat_byteOf (by omega) (by omega)]
  omega

/-- Pairs of digits with dashes in front of each of them, as many as the gaps say, and then any text. -/
inductive Written : List Nat → Bytes → List Char → Prop
  | done (text : List Char) : Written [] [] text
  | pair {gaps : List Nat} {bytes : Bytes} {text : List Char} {c1 c2 : Char} {high low : Nat}
      (first : digitValue c1 = some high) (second : digitValue c2 = some low)
      (rest : Written gaps bytes text) :
      Written (0 :: gaps) (byteOf high low :: bytes) (c1 :: c2 :: text)
  | dash {gap : Nat} {gaps : List Nat} {bytes : Bytes} {text : List Char}
      (rest : Written (gap :: gaps) bytes text) : Written ((gap + 1) :: gaps) bytes ('-' :: text)

theorem Written.length_eq {gaps : List Nat} {bytes : Bytes} {text : List Char}
    (written : Written gaps bytes text) : gaps.length = bytes.length := by
  induction written with
  | done => rfl
  | pair first second rest ih => exact congrArg (· + 1) ih
  | dash rest ih => exact ih

theorem Written.two_le {gap : Nat} {gaps : List Nat} {bytes : Bytes} {text : List Char}
    (written : Written (gap :: gaps) bytes text) : ∃ c1 c2 rest, text = c1 :: c2 :: rest := by
  induction gap generalizing text with
  | zero =>
    cases written with
    | pair first second rest => exact ⟨_, _, _, rfl⟩
  | succ gap ih =>
    cases written with
    | dash rest =>
      obtain ⟨c1, c2, rest, rfl⟩ := ih rest
      exact ⟨_, _, _, rfl⟩

theorem digitValue_dash : digitValue '-' = none := by decide

theorem digitValue_nul : digitValue '\x00' = none := by decide

theorem parseLoop_dash {value : Bytes} (room : value.length < 16) (c2 : Char) (rest : List Char) :
    parseLoop value ('-' :: c2 :: rest) = parseLoop value (c2 :: rest) := by
  rw [parseLoop, if_pos room, if_pos rfl]

theorem parseLoop_pair {value : Bytes} (room : value.length < 16) {c1 c2 : Char} {high low : Nat}
    (first : digitValue c1 = some high) (second : digitValue c2 = some low) (rest : List Char) :
    parseLoop value (c1 :: c2 :: rest) = parseLoop (value ++ [byteOf high low]) rest := by
  have notDash : c1 ≠ '-' := by
    rintro rfl
    simp [digitValue_dash] at first
  have notNul : c1 ≠ '\x00' := by
    rintro rfl
    simp [digitValue_nul] at first
  rw [parseLoop, if_pos room, if_neg notDash, if_neg notNul, first, second]

theorem parseLoop_full {value : Bytes} (full : 16 ≤ value.length) (text : List Char) :
    parseLoop value text = some value := by
  unfold parseLoop
  split
  · rw [if_neg (by omega)]
  · rfl

/-- The loop reads pairs that are written so, dashes skipped, and does not look at what follows. -/
theorem Written.parseLoop_eq {gaps : List Nat} {bytes : Bytes} {text : List Char}
    (written : Written gaps bytes text) {value : Bytes}
    (full : value.length + bytes.length = 16) : parseLoop value text = some (value ++ bytes) := by
  induction written generalizing value with
  | done text => rw [List.append_nil, parseLoop_full (by simpa using Nat.le_of_eq full.symm)]
  | pair first second rest ih =>
    rw [List.length_cons] at full
    rw [parseLoop_pair (by omega) first second, ih (by rw [List.length_append]; simp; omega)]
    simp
  | dash rest ih =>
    have some_left := rest.length_eq
    rw [List.length_cons] at some_left
    obtain ⟨c1, c2, text, rfl⟩ := rest.two_le
    rw [parseLoop_dash (by omega), ih full]

theorem written_of_parseLoop {value bytes : Bytes} {text : List Char} (bounded : value.length ≤ 16)
    (read : parseLoop value text = some bytes) (full : bytes.length = 16) :
    ∃ gaps tail, bytes = value ++ tail ∧ Written gaps tail text := by
  fun_induction parseLoop value text with
  | case1 value c2 rest room ih =>
    obtain ⟨gaps, tail, rfl, written⟩ := ih bounded read
    cases gaps with
    | nil =>
      have none_left : tail = [] := by cases written; rfl
      rw [none_left, List.append_nil] at full
      omega
    | cons gap gaps => exact ⟨(gap + 1) :: gaps, tail, rfl, .dash written⟩
  | case2 value c2 rest room notDash =>
    cases read
    omega
  | case3 value c1 c2 rest room notDash notNul high low second first ih =>
    obtain ⟨gaps, tail, rfl, written⟩ := ih (by rw [List.length_append]; simp; omega) read
    exact ⟨0 :: gaps, byteOf high low :: tail, by simp, .pair first second written⟩
  | case4 => cases read
  | case5 value c1 c2 rest closed =>
    cases read
    exact ⟨[], [], by simp, .done _⟩
  | case6 value text short =>
    cases read
    exact ⟨[], [], by simp, .done _⟩

theorem parse_of_written {gaps : List Nat} {uuid : Uuid} {string : List Char}
    (length : string.length = kValidStringLength) (written : Written gaps uuid.value string) :
    parse string = uuid := by
  have read : parseLoop [] string = some ([] ++ uuid.value) :=
    written.parseLoop_eq (by simp [uuid.sized])
  rw [List.nil_append] at read
  rw [parse, if_neg (not_not_intro length), read]
  simp only [uuid.sized, ↓reduceDIte]

theorem written_of_parse {string : List Char} (parsed : parse string ≠ empty) :
    string.length = kValidStringLength ∧ ∃ gaps, Written gaps (parse string).value string := by
  unfold parse at parsed ⊢
  split at parsed
  · exact absurd rfl parsed
  · next length =>
    split at parsed
    · next value read =>
      split at parsed
      · next sized =>
        obtain ⟨gaps, tail, rfl, written⟩ := written_of_parseLoop (Nat.zero_le _) read sized
        rw [if_neg length, dif_pos sized]
        exact ⟨not_not.mp length, gaps, written⟩
      · exact absurd rfl parsed
    · exact absurd rfl parsed

theorem Written.unique {gaps gaps' : List Nat} {bytes bytes' : Bytes} {text : List Char}
    (written : Written gaps bytes text) (written' : Written gaps' bytes' text)
    (same : bytes.length = bytes'.length) : gaps = gaps' := by
  induction written generalizing gaps' bytes' with
  | done text =>
    have lengths := written'.length_eq
    rw [← same] at lengths
    exact (List.eq_nil_of_length_eq_zero lengths).symm
  | pair first second rest ih =>
    cases written' with
    | done => cases same
    | pair first' second' rest' => rw [ih rest' (by simpa using same)]
    | dash rest' => simp [digitValue_dash] at first
  | dash rest ih =>
    cases written' with
    | done =>
      have lengths := rest.length_eq
      rw [same] at lengths
      cases lengths
    | pair first' second' rest' => simp [digitValue_dash] at first'
    | dash rest' =>
      have gaps_eq := ih rest' same
      rw [List.cons.injEq] at gaps_eq ⊢
      exact ⟨congrArg (· + 1) gaps_eq.1, gaps_eq.2⟩

-- One dash each before the bytes 4, 6, 8 and 10.
def kGaps : List Nat := [0, 0, 0, 0, 1, 0, 1, 0, 1, 0, 1, 0, 0, 0, 0, 0]

/-- 8-4-4-4-12 digits. -/
def Formed (string : List Char) : Prop :=
  ∃ first second third fourth fifth : List Char,
    string = first ++ '-' :: second ++ '-' :: third ++ '-' :: fourth ++ '-' :: fifth ∧
      [first, second, third, fourth, fifth].map List.length = [8, 4, 4, 4, 12] ∧
      ∀ group ∈ [first, second, third, fourth, fifth], ∀ c ∈ group, (digitValue c).isSome

def SameLetters (first second : List Char) : Prop := first.map Char.toLower = second.map Char.toLower

theorem SameLetters.append {first second first' second' : List Char}
    (left : SameLetters first second) (right : SameLetters first' second') :
    SameLetters (first ++ first') (second ++ second') := by
  unfold SameLetters at *
  rw [List.map_append, List.map_append, left, right]

theorem Written.group (count : Nat) {gaps : List Nat} {bytes : Bytes} {text : List Char}
    (written : Written (List.replicate count 0 ++ gaps) bytes text) :
    ∃ group rest here there, text = group ++ rest ∧ bytes = here ++ there ∧ here.length = count ∧
      group.length = 2 * count ∧ (∀ c ∈ group, (digitValue c).isSome) ∧
      SameLetters (here.flatMap printByte) group ∧ Written gaps there rest := by
  induction count generalizing bytes text with
  | zero => exact ⟨[], text, [], bytes, rfl, rfl, rfl, rfl, by simp, rfl, written⟩
  | succ count ih =>
    rw [List.replicate_succ, List.cons_append] at written
    cases written with
    | @pair _ _ _ c1 c2 high low first second rest =>
      obtain ⟨group, rest', here, there, rfl, rfl, here_length, length, digits, same, left⟩ := ih rest
      refine ⟨c1 :: c2 :: group, rest', byteOf high low :: here, there, rfl, rfl, by simp [here_length],
        by simp [length]; omega, ?_, ?_, left⟩
      · intro c member
        rcases List.mem_cons.mp member with rfl | member
        · simp [first]
        · rcases List.mem_cons.mp member with rfl | member
          · simp [second]
          · exact digits c member
      · have high_lt := digitValue_lt first
        have low_lt := digitValue_lt second
        have printed : printByte (byteOf high low) = [hexDigit high, hexDigit low] := by
          rw [printByte, toNat_byteOf high_lt low_lt]
          congr <;> omega
        have pair : SameLetters (printByte (byteOf high low)) [c1, c2] := by
          rw [SameLetters, printed]
          simp [toLower_hexDigit first, toLower_hexDigit second]
        exact pair.append same

theorem Written.dashed {gaps : List Nat} {bytes : Bytes} {text : List Char}
    (written : Written (1 :: gaps) bytes text) :
    ∃ rest, text = '-' :: rest ∧ Written (0 :: gaps) bytes rest := by
  cases written with
  | dash rest => exact ⟨_, rfl, rest⟩

theorem Written.digits {group rest : List Char} {gaps : List Nat} {there : Bytes}
    (left : Written gaps there rest) (count : Nat) (length : group.length = 2 * count)
    (digits : ∀ c ∈ group, (digitValue c).isSome) :
    ∃ here, here.length = count ∧
      Written (List.replicate count 0 ++ gaps) (here ++ there) (group ++ rest) := by
  induction count generalizing group with
  | zero =>
    obtain rfl := List.eq_nil_of_length_eq_zero length
    exact ⟨[], rfl, left⟩
  | succ count ih =>
    match group, length with
    | c1 :: c2 :: group, length =>
      obtain ⟨high, first⟩ := Option.isSome_iff_exists.mp (digits c1 (by simp))
      obtain ⟨low, second⟩ := Option.isSome_iff_exists.mp (digits c2 (by simp))
      have shorter : group.length = 2 * count := by
        simp only [List.length_cons] at length
        omega
      obtain ⟨here, here_length, written⟩ := ih shorter fun c member => digits c (by simp [member])
      exact ⟨byteOf high low :: here, by simp [here_length], .pair first second written⟩

theorem Written.printed {rest : List Char} {gaps : List Nat} {there : Bytes}
    (left : Written gaps there rest) (here : Bytes) :
    Written (List.replicate here.length 0 ++ gaps) (here ++ there) (here.flatMap printByte ++ rest) := by
  induction here with
  | nil => exact left
  | cons byte here ih =>
    have bounded := byte.toNat_lt
    have pair := Written.pair (digitValue_hexDigit (byte.toNat / 16) (by omega))
      (digitValue_hexDigit (byte.toNat % 16) (by omega)) ih
    rw [byteOf_toNat] at pair
    exact pair

theorem Formed.written {string : List Char} (formed : Formed string) :
    ∃ bytes, bytes.length = 16 ∧ Written kGaps bytes string := by
  obtain ⟨first, second, third, fourth, fifth, rfl, lengths, digits⟩ := formed
  simp only [List.map_cons, List.map_nil, List.cons.injEq, and_true] at lengths
  simp only [List.forall_mem_cons] at digits
  obtain ⟨length1, length2, length3, length4, length5⟩ := lengths
  obtain ⟨digits1, digits2, digits3, digits4, digits5, -⟩ := digits
  obtain ⟨bytes5, count5, written5⟩ := (Written.done []).digits 6 length5 digits5
  obtain ⟨bytes4, count4, written4⟩ := written5.dash.digits 2 length4 digits4
  obtain ⟨bytes3, count3, written3⟩ := written4.dash.digits 2 length3 digits3
  obtain ⟨bytes2, count2, written2⟩ := written3.dash.digits 2 length2 digits2
  obtain ⟨bytes1, count1, written1⟩ := written2.dash.digits 4 length1 digits1
  refine ⟨bytes1 ++ (bytes2 ++ (bytes3 ++ (bytes4 ++ (bytes5 ++ [])))), ?_, ?_⟩
  · simp only [List.length_append, List.length_nil]
    omega
  · simpa [kGaps, List.replicate] using written1

theorem toString_eq {uuid : Uuid} {first second third fourth fifth : Bytes}
    (value : uuid.value = first ++ (second ++ (third ++ (fourth ++ fifth))))
    (lengths : [first, second, third, fourth, fifth].map List.length = [4, 2, 2, 2, 6]) :
    toString uuid = first.flatMap printByte ++ '-' :: second.flatMap printByte ++
      '-' :: third.flatMap printByte ++ '-' :: fourth.flatMap printByte ++
      '-' :: fifth.flatMap printByte := by
  simp only [List.map_cons, List.map_nil, List.cons.injEq, and_true] at lengths
  obtain ⟨length1, length2, length3, length4, length5⟩ := lengths
  simp (disch := omega) [toString, value, List.drop_append, length1, length2, length3, length4,
    List.drop_eq_nil_of_le, List.take_of_length_le]

theorem length_flatMap_printByte (bytes : Bytes) :
    (bytes.flatMap printByte).length = 2 * bytes.length := by
  induction bytes with
  | nil => rfl
  | cons byte bytes ih =>
    rw [List.flatMap_cons, List.length_append, ih, List.length_cons, printByte]
    simp only [List.length_cons, List.length_nil]
    omega

theorem Written.formed {uuid : Uuid} {string : List Char} (written : Written kGaps uuid.value string)
    (length : string.length = kValidStringLength) :
    Formed string ∧ SameLetters (toString uuid) string := by
  have sized := uuid.sized
  obtain ⟨group1, rest1, bytes1, left1, rfl, value1, count1, length1, digits1, same1, written1⟩ :=
    Written.group 4 written
  obtain ⟨text1, rfl, dashed1⟩ := written1.dashed
  obtain ⟨group2, rest2, bytes2, left2, rfl, value2, count2, length2, digits2, same2, written2⟩ :=
    Written.group 2 dashed1
  obtain ⟨text2, rfl, dashed2⟩ := written2.dashed
  obtain ⟨group3, rest3, bytes3, left3, rfl, value3, count3, length3, digits3, same3, written3⟩ :=
    Written.group 2 dashed2
  obtain ⟨text3, rfl, dashed3⟩ := written3.dashed
  obtain ⟨group4, rest4, bytes4, left4, rfl, value4, count4, length4, digits4, same4, written4⟩ :=
    Written.group 2 dashed3
  obtain ⟨text4, rfl, dashed4⟩ := written4.dashed
  obtain ⟨group5, rest5, bytes5, left5, rfl, value5, count5, length5, digits5, same5, written5⟩ :=
    Written.group 6 dashed4
  -- The groups and the dashes are all of it.
  obtain rfl : left5 = [] := by cases written5; rfl
  have ends : rest5.length = 0 := by
    simp only [List.length_append, List.length_cons, kValidStringLength] at length
    omega
  obtain rfl := List.eq_nil_of_length_eq_zero ends
  rw [value2, value3, value4, value5, List.append_nil] at value1
  constructor
  · refine ⟨group1, group2, group3, group4, group5, by simp, by simp [*], ?_⟩
    simp only [List.forall_mem_cons]
    exact ⟨digits1, digits2, digits3, digits4, digits5, by simp⟩
  · rw [toString_eq value1 (by simp [*])]
    have dash : SameLetters ['-'] ['-'] := rfl
    have same := same1.append (dash.append (same2.append (dash.append (same3.append (dash.append
      (same4.append (dash.append same5)))))))
    simpa using same

theorem groups (uuid : Uuid) : ∃ first second third fourth fifth : Bytes,
    uuid.value = first ++ (second ++ (third ++ (fourth ++ fifth))) ∧
      [first, second, third, fourth, fifth].map List.length = [4, 2, 2, 2, 6] := by
  have sized := uuid.sized
  have rest : ∀ first count, (uuid.value.drop first).take count ++ uuid.value.drop (first + count) =
      uuid.value.drop first := by
    intro first count
    rw [← List.drop_drop, List.take_append_drop]
  refine ⟨uuid.value.take 4, (uuid.value.drop 4).take 2, (uuid.value.drop 6).take 2,
    (uuid.value.drop 8).take 2, uuid.value.drop 10, ?_, by simp [sized]⟩
  rw [rest 8 2, rest 6 2, rest 4 2, List.take_append_drop]

theorem written_toString (uuid : Uuid) : Written kGaps uuid.value (toString uuid) := by
  obtain ⟨first, second, third, fourth, fifth, value, lengths⟩ := uuid.groups
  rw [toString_eq value lengths, value]
  simp only [List.map_cons, List.map_nil, List.cons.injEq, and_true] at lengths
  obtain ⟨length1, length2, length3, length4, length5⟩ := lengths
  have written5 := (Written.done []).printed fifth
  rw [length5] at written5
  have written4 := written5.dash.printed fourth
  rw [length4] at written4
  have written3 := written4.dash.printed third
  rw [length3] at written3
  have written2 := written3.dash.printed second
  rw [length2] at written2
  have written1 := written2.dash.printed first
  rw [length1] at written1
  simpa [kGaps, List.replicate] using written1

theorem length_toString (uuid : Uuid) : (toString uuid).length = kValidStringLength := by
  have sized := uuid.sized
  simp only [toString, List.length_append, List.length_cons, length_flatMap_printByte,
    List.length_take, List.length_drop, sized, kValidStringLength]
  rfl

theorem parse_toString (uuid : Uuid) : parse (toString uuid) = uuid :=
  parse_of_written (length_toString uuid) (written_toString uuid)

/-- Sixteen bytes, not all 0, with dashes elsewhere than in the form, in as many characters. What is
behind the bytes then takes the place of dashes. -/
def Misplaced (string : List Char) : Prop :=
  string.length = kValidStringLength ∧ ∃ gaps bytes, Written gaps bytes string ∧
    bytes.length = 16 ∧ bytes ≠ List.replicate 16 0 ∧ gaps ≠ kGaps

/-- Every value reads back from its text. A text that is accepted is of the form, unless its dashes
are misplaced. -/
theorem parse_strict (uuid : Uuid) (string : List Char) :
    parse (toString uuid) = uuid ∧
      ((parse string ≠ empty → Formed string ∧ SameLetters (toString (parse string)) string) ↔
        ¬ Misplaced string) := by
  refine ⟨parse_toString uuid, ?_, ?_⟩
  · rintro strict ⟨length, gaps, bytes, written, sized, nonzero, differs⟩
    have parsed : parse string = ⟨bytes, sized⟩ := parse_of_written length written
    have nonempty : parse string ≠ empty := by
      rw [parsed]
      exact fun same => nonzero (congrArg value same)
    obtain ⟨bytes', sized', written'⟩ := (strict nonempty).1.written
    exact differs (written.unique written' (by rw [sized, sized']))
  · intro placed nonempty
    obtain ⟨length, gaps, written⟩ := written_of_parse nonempty
    by_cases same : gaps = kGaps
    · rw [same] at written
      exact written.formed length
    · refine absurd ⟨length, gaps, _, written, (parse string).sized, ?_, same⟩ placed
      intro zero
      generalize parse string = uuid at nonempty zero
      cases uuid
      exact nonempty (by subst zero; rfl)

theorem parse_not_strict :
    let string := "09514A5CF8EB4B5FB0C397F52B47AE8A/../".toList
    ¬ (parse string ≠ empty → Formed string ∧ SameLetters (toString (parse string)) string) := by
  intro string strict
  obtain ⟨first, second, third, fourth, fifth, text, -⟩ := (strict (by decide)).1
  have dashed : '-' ∈ string := by
    rw [text]
    simp
  exact absurd dashed (by decide)

end Uuid

end NDash.Util
