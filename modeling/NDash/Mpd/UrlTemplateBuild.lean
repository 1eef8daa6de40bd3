import NDash.Mpd.UrlTemplate

set_option autoImplicit false

/-!
# Urls of a template

What a template that is written by the rules for templates is scanned to, and the url that is built of
it.
-/

namespace NDash.Mpd.UrlTemplate

open Machine (Loop)

/-! The vectors as one list -/

/-- A url piece with the identifier behind it. -/
structure Slot where
  piece : List Char
  identifier : Templatable
  formatTag : List Char
deriving DecidableEq, Repr

structure Holds (template : UrlTemplate) (slots : List Slot) (piece : List Char) : Prop where
  urlPieces : template.urlPieces = slots.map (·.piece) ++ [piece]
  identifiers : template.identifiers = slots.map (fun slot => some slot.identifier) ++ [none]
  identifierFormatTags : template.identifierFormatTags = slots.map (·.formatTag) ++ [[]]
  identifierCount : template.identifierCount = slots.length

def printSlots (fill : Option Templatable → List Char → List Char) (slots : List Slot)
    (piece : List Char) : List Char :=
  slots.flatMap (fun slot => slot.piece ++ fill (some slot.identifier) slot.formatTag) ++ piece

theorem modify_length {α : Type} (front : List α) (last : α) (change : α → α) :
    (front ++ [last]).modify front.length change = front ++ [change last] := by
  induction front with
  | nil => rfl
  | cons first front ih => simpa using ih

theorem flatMap_range {α β : Type} {list : List α} {each : α → List β} {at' : Nat → List β}
    (same : ∀ i value, list[i]? = some value → at' i = each value) :
    (List.range list.length).flatMap at' = list.flatMap each := by
  induction list generalizing at' with
  | nil => rfl
  | cons first list ih =>
    have head := same 0 first rfl
    have tail := @ih (fun i => at' (i + 1)) fun i value found => same (i + 1) value found
    rw [List.length_cons, List.range_succ_eq_map, List.flatMap_cons, List.flatMap_cons, head,
      List.flatMap_map, tail]

namespace Holds

variable {template : UrlTemplate} {scan : Scan} {slots : List Slot} {piece : List Char}

theorem start : Holds Scan.start.toUrlTemplate [] [] := ⟨rfl, rfl, rfl, rfl⟩

theorem append (holds : Holds scan.toUrlTemplate slots piece) (text : List Char) (index : Nat) :
    Holds (scan.append text index).toUrlTemplate slots (piece ++ text) where
  urlPieces := by
    have count : scan.identifierCount = (slots.map (·.piece)).length := by
      rw [holds.identifierCount, List.length_map]
    simp only [Scan.append]
    rw [holds.urlPieces, count, modify_length]
  identifiers := holds.identifiers
  identifierFormatTags := holds.identifierFormatTags
  identifierCount := holds.identifierCount

theorem push (holds : Holds scan.toUrlTemplate slots piece) (identifier : Templatable)
    (formatTag : List Char) (index : Nat) :
    Holds (scan.push identifier formatTag index).toUrlTemplate
      (slots ++ [⟨piece, identifier, formatTag⟩]) [] where
  urlPieces := by
    simp only [Scan.push]
    rw [holds.urlPieces, List.map_append, List.map_singleton]
  identifiers := by
    have count : scan.identifierCount = (slots.map fun slot => some slot.identifier).length := by
      rw [holds.identifierCount, List.length_map]
    simp only [Scan.push]
    rw [holds.identifiers, count, List.set_append_right _ _ (Nat.le_refl _), Nat.sub_self,
      List.set_cons_zero, List.map_append, List.map_singleton]
  identifierFormatTags := by
    have count : scan.identifierCount = (slots.map (·.formatTag)).length := by
      rw [holds.identifierCount, List.length_map]
    simp only [Scan.push]
    rw [holds.identifierFormatTags, count, List.set_append_right _ _ (Nat.le_refl _), Nat.sub_self,
      List.set_cons_zero, List.map_append, List.map_singleton]
  identifierCount := by
    simp only [Scan.push]
    rw [holds.identifierCount, List.length_append, List.length_singleton]

theorem length_urlPieces (holds : Holds template slots piece) :
    template.urlPieces.length = template.identifierCount + 1 := by
  rw [holds.urlPieces, holds.identifierCount, List.length_append, List.length_map,
    List.length_singleton]

theorem length_identifiers (holds : Holds template slots piece) :
    (template.identifiers.filterMap id).length = template.identifierCount := by
  rw [holds.identifiers, holds.identifierCount, List.filterMap_append, List.filterMap_map]
  simp

theorem interleave_eq (holds : Holds template slots piece)
    (fill : Option Templatable → List Char → List Char) :
    template.interleave fill = printSlots fill slots piece := by
  have last : template.urlPieces.getD template.identifierCount [] = piece := by
    rw [holds.urlPieces, holds.identifierCount]
    simp
  unfold interleave printSlots
  rw [last, holds.identifierCount]
  congr 1
  refine flatMap_range fun i slot found => ?_
  obtain ⟨inside, rfl⟩ := List.getElem?_eq_some_iff.mp found
  rw [holds.urlPieces, holds.identifiers, holds.identifierFormatTags]
  simp [List.getElem?_append_left, inside]

end Holds

/-! Every template -/

theorem findDollar_ge {text : List Char} {start index : Nat}
    (found : findDollar text start = some index) : start ≤ index := by
  obtain ⟨offset, _, rfl⟩ := Option.map_eq_some_iff.mp found
  exact Nat.le_add_right start offset

/-- What a round of the scanner does: it gets on, and appends to the piece at hand or fills a slot. -/
theorem scanner_steps {text : List Char} {scan next : Scan} (steps : (scanner text).Steps scan next) :
    scan.templateIndex < text.length ∧ scan.templateIndex < next.templateIndex ∧
      ((∃ piece, next = scan.append piece next.templateIndex) ∨
        ∃ identifier formatTag, next = scan.push identifier formatTag next.templateIndex) := by
  obtain ⟨going, stepped⟩ := steps
  have inside : scan.templateIndex < text.length := of_decide_eq_true going
  refine ⟨inside, ?_⟩
  simp only [scanner] at stepped
  split at stepped
  · cases stepped
    exact ⟨inside, .inl ⟨_, rfl⟩⟩
  · next dollarIndex found =>
    have := findDollar_ge found
    split at stepped
    · cases stepped
      exact ⟨by simp only [Scan.append]; omega, .inl ⟨_, rfl⟩⟩
    · split at stepped
      · cases stepped
        exact ⟨by simp only [Scan.append]; omega, .inl ⟨_, rfl⟩⟩
      · obtain ⟨compiled, _, rfl⟩ := map_ok stepped
        refine ⟨?_, .inr ⟨_, _, rfl⟩⟩
        simp only [Scan.push]
        cases second : findDollar text (scan.templateIndex + 1) with
        | none =>
          rw [Option.getD_none]
          omega
        | some secondIndex =>
          have := findDollar_ge second
          rw [Option.getD_some]
          omega

def remaining (text : List Char) (scan : Scan) : Nat := text.length - scan.templateIndex

theorem remaining_decreases {text : List Char} (scan next : Scan)
    (steps : (scanner text).Steps scan next) : remaining text next < remaining text scan := by
  obtain ⟨inside, further, _⟩ := scanner_steps steps
  unfold remaining
  omega

theorem parseTemplate_holds {text : List Char} {scan : Scan} (parsed : parseTemplate text = .ok scan) :
    ∃ slots piece, Holds scan.toUrlTemplate slots piece := by
  refine Machine.Loop.run_keeps (fun scan => ∃ slots piece, Holds scan.toUrlTemplate slots piece) ?_
    ⟨[], [], .start⟩ parsed
  rintro scan next ⟨slots, piece, holds⟩ steps
  obtain ⟨_, _, ⟨text, same⟩ | ⟨identifier, formatTag, same⟩⟩ := scanner_steps steps
  · rw [same]
    exact ⟨_, _, holds.append _ _⟩
  · rw [same]
    exact ⟨_, _, holds.push _ _ _⟩

theorem compile_holds {templateStr : String} {template : UrlTemplate}
    (compiled : compile templateStr = .ok template) : ∃ slots piece, Holds template slots piece := by
  obtain ⟨scan, parsed, rfl⟩ := map_ok compiled
  exact parseTemplate_holds parsed

theorem compile_length {templateStr : String} {template : UrlTemplate}
    (compiled : compile templateStr = .ok template) :
    (template.identifiers.filterMap id).length = template.identifierCount ∧
      template.urlPieces.length = template.identifierCount + 1 := by
  obtain ⟨slots, piece, holds⟩ := compile_holds compiled
  exact ⟨holds.length_identifiers, holds.length_urlPieces⟩

/-! The rounds -/

section Rounds

variable {text : List Char} {scan final : Scan}

theorem findIdx_plain {text : List Char} (plain : '$' ∉ text) : text.findIdx? (· == '$') = none := by
  refine List.findIdx?_eq_none_iff.mpr fun c inside => ?_
  simp only [beq_eq_false_iff_ne]
  rintro rfl
  exact plain inside

theorem findDollar_at {start : Nat} {run rest : List Char} (here : text.drop start = run ++ '$' :: rest)
    (plain : '$' ∉ run) : findDollar text start = some (start + run.length) := by
  rw [findDollar, here, List.findIdx?_append, findIdx_plain plain, List.findIdx?_cons]
  simp

theorem findDollar_none {start : Nat} (plain : '$' ∉ text.drop start) :
    findDollar text start = none := by
  rw [findDollar, findIdx_plain plain, Option.map_none]

theorem going_of_drop {c : Char} {rest : List Char} (here : text.drop scan.templateIndex = c :: rest) :
    (scanner text).going scan = true := by
  have length := congrArg List.length here
  rw [List.length_drop, List.length_cons] at length
  exact decide_eq_true (by omega)

theorem steps_literal {run rest : List Char} (here : text.drop scan.templateIndex = run ++ rest)
    (plain : '$' ∉ run) (nonempty : run ≠ []) (ends : rest = [] ∨ rest.head? = some '$') :
    (scanner text).Steps scan (scan.append run (scan.templateIndex + run.length)) := by
  obtain ⟨c, tail, rfl⟩ := List.exists_cons_of_ne_nil nonempty
  refine ⟨going_of_drop here, ?_⟩
  rcases ends with rfl | ends
  · rw [List.append_nil] at here
    have length := congrArg List.length here
    rw [List.length_drop] at length
    simp only [scanner, findDollar_none (here ▸ plain), here]
    congr 2
    simp only [List.length_cons] at length ⊢
    omega
  · obtain ⟨more, rfl⟩ := List.head?_eq_some_iff.mp ends
    simp only [scanner, findDollar_at here plain, here]
    rw [if_pos (by simp)]
    congr 2
    simp

theorem steps_dollar {rest : List Char}
    (here : text.drop scan.templateIndex = '$' :: '$' :: rest) :
    (scanner text).Steps scan (scan.append ['$'] (scan.templateIndex + 2)) := by
  refine ⟨going_of_drop here, ?_⟩
  have found := @findDollar_at text scan.templateIndex [] ('$' :: rest) here (by simp)
  simp only [scanner, found, here]
  rw [if_neg (by simp), if_pos (by simp)]

theorem steps_identifier {name rest formatTag : List Char} {identifier : Templatable}
    (here : text.drop scan.templateIndex = '$' :: (name ++ '$' :: rest)) (plain : '$' ∉ name)
    (compiled : compileIdentifier name = .ok (identifier, formatTag)) (nonempty : name ≠ []) :
    (scanner text).Steps scan
      (scan.push identifier formatTag (scan.templateIndex + name.length + 2)) := by
  obtain ⟨c, tail, rfl⟩ := List.exists_cons_of_ne_nil nonempty
  refine ⟨going_of_drop here, ?_⟩
  have found := @findDollar_at text scan.templateIndex [] _ here (by simp)
  have next : text.drop (scan.templateIndex + 1) = c :: tail ++ '$' :: rest := by
    rw [← List.drop_drop, here]
    rfl
  have second := findDollar_at next plain
  have other : '$' ≠ c := by
    rintro rfl
    exact plain (by simp)
  have name : ((c :: tail) ++ '$' :: rest).take
      (scan.templateIndex + 1 + (c :: tail).length - (scan.templateIndex + 1)) = c :: tail := by
    rw [Nat.add_sub_cancel_left, List.take_left]
  simp only [scanner, found, here, second, Option.getD_some, List.tail_cons]
  rw [if_neg (by simp), if_neg (by simpa using other), name, compiled]
  simp only [Except.map]
  congr 2
  omega

theorem append_append (scan : Scan) (first second : List Char) (i j : Nat) :
    (scan.append first i).append second j = scan.append (first ++ second) j := by
  have twice : ((· ++ second) ∘ (· ++ first) : List Char → List Char) = (· ++ (first ++ second)) := by
    funext piece
    exact List.append_assoc piece first second
  simp only [Scan.append]
  rw [List.modify_modify_eq, twice]

theorem exists_literal (text : List Char) :
    ∃ run rest, text = run ++ rest ∧ '$' ∉ run ∧ (rest = [] ∨ rest.head? = some '$') := by
  induction text with
  | nil => exact ⟨[], [], rfl, by simp, .inl rfl⟩
  | cons c text ih =>
    by_cases dollar : c = '$'
    · exact ⟨[], c :: text, rfl, by simp, .inr (by rw [dollar]; rfl)⟩
    · obtain ⟨run, rest, rfl, plain, ends⟩ := ih
      exact ⟨c :: run, rest, rfl, by simp [Ne.symm dollar, plain], ends⟩

/-- A literal that the scanner takes together with what is behind it might as well be taken alone. -/
theorem returns_literal {literal more : List Char}
    (here : text.drop scan.templateIndex = literal ++ more) (plain : '$' ∉ literal)
    (nonempty : literal ≠ []) :
    (scanner text).Returns .diverges scan final ↔
      (scanner text).Returns .diverges
        (scan.append literal (scan.templateIndex + literal.length)) final := by
  obtain ⟨run, rest, rfl, free, ends⟩ := exists_literal more
  by_cases nothing : run = []
  · subst nothing
    exact Loop.returns_iff_of_reaches (.single (steps_literal here plain nonempty ends))
  · have far : (scanner text).Steps scan
        (scan.append (literal ++ run) (scan.templateIndex + (literal ++ run).length)) := by
      refine steps_literal ?_ ?_ ?_ ends
      · rw [here, List.append_assoc]
      · simp [plain, free]
      · simp [nothing]
    have near : (scanner text).Steps (scan.append literal (scan.templateIndex + literal.length))
        ((scan.append literal (scan.templateIndex + literal.length)).append run
          (scan.templateIndex + literal.length + run.length)) := by
      refine steps_literal ?_ free nothing ends
      show text.drop (scan.templateIndex + literal.length) = _
      rw [← List.drop_drop, here, List.drop_left]
    rw [Loop.returns_iff_of_reaches (.single far), Loop.returns_iff_of_reaches (.single near),
      append_append, List.length_append, ← Nat.add_assoc]

end Rounds

/-! The rules for templates -/

inductive Variable
  | number
  | bandwidth
  | time
deriving DecidableEq, Repr

def Variable.name : Variable → List Char
  | number => kNumber
  | bandwidth => kBandwidth
  | time => kTime

def Variable.identifier : Variable → Templatable
  | number => .number
  | bandwidth => .bandwidth
  | time => .time

structure Width where
  digits : List Char
  numeric : ∀ c ∈ digits, c.isDigit = true

def Width.formatTag (width : Width) : List Char := '%' :: '0' :: width.digits ++ ['d']

def Width.value (width : Width) : Nat := Nat.ofDigitChars 10 width.digits 0

inductive Piece
  | literal (text : List Char) (plain : '$' ∉ text)
  | escaped
  | representationId
  | value (name : Variable) (width : Option Width)

def formatTag : Option Width → List Char
  | none => []
  | some width => width.formatTag

def Piece.written : Piece → List Char
  | literal text _ => text
  | escaped => ['$', '$']
  | representationId => '$' :: (kRepresentation ++ ['$'])
  | value name width => '$' :: (name.name ++ formatTag width ++ ['$'])

structure Values where
  representationId : List Char
  get : Variable → Nat
  inRange : ∀ name, get name < 2147483648

def Values.arguments (values : Values) : Arguments where
  representationId := values.representationId
  segmentNumber := values.get .number
  bandwidth := values.get .bandwidth
  timeVal := values.get .time

def printValue (width : Option Width) (value : Nat) : List Char :=
  (Nat.toDigits 10 value).leftpad ((width.map Width.value).getD 0) '0'

def Piece.printed (values : Values) : Piece → List Char
  | literal text _ => text
  | escaped => ['$']
  | representationId => values.representationId
  | value name width => printValue width (values.get name)

def Piece.Fits (values : Values) : Piece → Prop
  | value name (some width) => (printValue (some width) (values.get name)).length ≤ 31
  | _ => True

theorem name_plain (name : Variable) : '$' ∉ name.name := by
  cases name <;> decide

theorem findFormatTag_tag (name : Variable) (tag : List Char) :
    findFormatTag (name.name ++ '%' :: '0' :: tag) = some name.name.length := by
  cases name <;> rfl

theorem checkFormatTag_width (width : Width) : checkFormatTag width.formatTag = width.formatTag := by
  have last : width.formatTag.getLast? = some 'd' := List.getLast?_concat
  have inside : (width.formatTag.drop 1).dropLast = '0' :: width.digits := by
    show (('0' :: width.digits) ++ ['d']).dropLast = _
    exact List.dropLast_concat
  have digits : ('0' :: width.digits).all Char.isDigit = true := by
    simpa using width.numeric
  simp only [checkFormatTag, last, if_true, inside, digits]

theorem compileIdentifier_name (name : Variable) :
    compileIdentifier name.name = .ok (name.identifier, kDefaultFormatTag) := by
  cases name <;> decide +kernel

theorem compileIdentifier_width (name : Variable) (width : Width) :
    compileIdentifier (name.name ++ width.formatTag) = .ok (name.identifier, width.formatTag) := by
  have found : findFormatTag (name.name ++ width.formatTag) = some name.name.length :=
    findFormatTag_tag name _
  have apart : name.name ++ width.formatTag ≠ kRepresentation := by
    cases name <;> simp [Variable.name, kNumber, kBandwidth, kTime, kRepresentation]
  unfold compileIdentifier
  simp only [if_neg apart, found, Option.map_some, Option.getD_some, List.take_left, List.drop_left,
    checkFormatTag_width]
  cases name <;> rfl

theorem snprintf_eq {formatTag : List Char} {width value : Nat}
    (tagged : tagWidth formatTag = width)
    (fits : ((Nat.toDigits 10 value).leftpad width '0').length ≤ 31) :
    snprintf formatTag value = (Nat.toDigits 10 value).leftpad width '0' := by
  have sign : ¬ (value : Int) < 0 := by omega
  unfold snprintf printDecimal
  simp only [tagged, sign, if_false, List.length_nil, Nat.sub_zero, List.nil_append, Int.natAbs_natCast]
  exact List.take_of_length_le fits

theorem snprintf_width {width : Width} {value : Nat}
    (fits : (printValue (some width) value).length ≤ 31) :
    snprintf width.formatTag value = printValue (some width) value := by
  refine snprintf_eq ?_ fits
  show Nat.ofDigitChars 10 (('0' :: width.digits) ++ ['d']).dropLast 0 = _
  rw [List.dropLast_concat, Nat.ofDigitChars_cons]
  rfl

theorem snprintf_default {value : Nat} (small : value < 2147483648) :
    snprintf kDefaultFormatTag value = printValue none value := by
  have digits : (Nat.toDigits 10 value).length ≤ 10 :=
    (Nat.length_toDigits_le_iff (by decide) (by decide)).mpr (by omega)
  have some' := Nat.length_toDigits_pos (b := 10) (n := value)
  have padding : (Nat.toDigits 10 value).leftpad 1 '0' = printValue none value := by
    unfold printValue List.leftpad
    rw [show 1 - (Nat.toDigits 10 value).length = 0 by omega]
    simp
  rw [← padding]
  refine snprintf_eq (by decide) ?_
  rw [List.length_leftpad]
  omega

theorem substitute_value {values : Values} {name : Variable} {width : Option Width}
    (fits : (Piece.value name width).Fits values) :
    substitute values.arguments (some name.identifier)
        ((width.map Width.formatTag).getD kDefaultFormatTag) =
      printValue width (values.get name) := by
  cases width with
  | none => cases name <;> exact snprintf_default (values.inRange _)
  | some width => cases name <;> exact snprintf_width fits

theorem compileIdentifier_value (name : Variable) (width : Option Width) :
    compileIdentifier (name.name ++ formatTag width) =
      .ok (name.identifier, (width.map Width.formatTag).getD kDefaultFormatTag) := by
  cases width with
  | none =>
    rw [formatTag, List.append_nil]
    exact compileIdentifier_name name
  | some width => exact compileIdentifier_width name width

theorem identifier_plain (name : Variable) (width : Option Width) :
    '$' ∉ name.name ++ formatTag width ∧ name.name ++ formatTag width ≠ [] := by
  constructor
  · cases width with
    | none => simpa [formatTag] using name_plain name
    | some width =>
      have digits : '$' ∉ width.digits := fun inside => by
        have := width.numeric _ inside
        cases this
      simp [formatTag, Width.formatTag, name_plain, digits]
  · cases name <;> simp [Variable.name, kNumber, kBandwidth, kTime]

theorem printSlots_append (fill : Option Templatable → List Char → List Char) (slots : List Slot)
    (piece text : List Char) :
    printSlots fill slots (piece ++ text) = printSlots fill slots piece ++ text := by
  rw [printSlots, printSlots, List.append_assoc]

theorem printSlots_push (fill : Option Templatable → List Char → List Char) (slots : List Slot)
    (piece : List Char) (identifier : Templatable) (formatTag : List Char) :
    printSlots fill (slots ++ [⟨piece, identifier, formatTag⟩]) [] =
      printSlots fill slots piece ++ fill (some identifier) formatTag := by
  simp [printSlots]

theorem drop_identifier (name rest : List Char) :
    ('$' :: (name ++ '$' :: rest)).drop (name.length + 2) = rest := by
  have parts : '$' :: (name ++ '$' :: rest) = '$' :: (name ++ ['$']) ++ rest := by simp
  have length : name.length + 2 = ('$' :: (name ++ ['$'])).length := by simp
  rw [parts, length, List.drop_left]

def Scans (text : List Char) (arguments : Arguments) (scan : Scan) (slots : List Slot)
    (piece more : List Char) : Prop :=
  ∃ final slots' piece', (scanner text).Returns .diverges scan final ∧
    Holds final.toUrlTemplate slots' piece' ∧
      printSlots (substitute arguments) slots' piece' =
        printSlots (substitute arguments) slots piece ++ more

theorem Scans.behind {text : List Char} {arguments : Arguments} {scan next : Scan}
    {slots slots' : List Slot} {piece piece' first more : List Char}
    (scans : Scans text arguments next slots' piece' more)
    (returns : ∀ final, (scanner text).Returns .diverges next final →
      (scanner text).Returns .diverges scan final)
    (printed : printSlots (substitute arguments) slots' piece' =
      printSlots (substitute arguments) slots piece ++ first) :
    Scans text arguments scan slots piece (first ++ more) := by
  obtain ⟨final, slots'', piece'', returned, holds, rest⟩ := scans
  refine ⟨final, slots'', piece'', returns final returned, holds, ?_⟩
  rw [rest, printed, List.append_assoc]

/-- From where the rest of the template is made of these pieces, the scanner comes to slots that print
them. -/
theorem scan_pieces {text : List Char} {pieces : List Piece} {values : Values}
    (fits : ∀ piece ∈ pieces, piece.Fits values) {scan : Scan} {slots : List Slot}
    {piece : List Char} (holds : Holds scan.toUrlTemplate slots piece)
    (here : text.drop scan.templateIndex = pieces.flatMap Piece.written) :
    Scans text values.arguments scan slots piece (pieces.flatMap (Piece.printed values)) := by
  induction pieces generalizing scan slots piece with
  | nil =>
    have stopped : (scanner text).going scan = false := by
      have := List.drop_eq_nil_iff.mp here
      exact decide_eq_false (by omega)
    exact ⟨scan, slots, piece, (Loop.returns_iff_of_stopped stopped).mpr rfl, holds, by simp⟩
  | cons first pieces ih =>
    obtain ⟨firstFits, restFits⟩ := List.forall_mem_cons.mp fits
    rw [List.flatMap_cons] at here
    rw [List.flatMap_cons]
    cases first with
    | literal literal plain =>
      simp only [Piece.written] at here
      by_cases nothing : literal = []
      · subst nothing
        exact ih restFits holds here
      · have next : text.drop (scan.templateIndex + literal.length) =
            pieces.flatMap Piece.written := by
          rw [← List.drop_drop, here, List.drop_left]
        have scans := ih restFits (holds.append literal (scan.templateIndex + literal.length)) next
        exact scans.behind (fun final => (returns_literal here plain nothing).mpr)
          (printSlots_append _ slots piece literal)
    | escaped =>
      have next : text.drop (scan.templateIndex + 2) = pieces.flatMap Piece.written := by
        rw [← List.drop_drop, here]
        rfl
      have scans := ih restFits (holds.append ['$'] (scan.templateIndex + 2)) next
      exact scans.behind (fun final => (Loop.returns_iff_of_reaches (.single (steps_dollar here))).mpr)
        (printSlots_append _ slots piece ['$'])
    | representationId =>
      have identifier : text.drop scan.templateIndex =
          '$' :: (kRepresentation ++ '$' :: pieces.flatMap Piece.written) := by
        rw [here]
        rfl
      have next : text.drop (scan.templateIndex + kRepresentation.length + 2) =
          pieces.flatMap Piece.written := by
        rw [Nat.add_assoc, ← List.drop_drop, identifier, drop_identifier]
      have steps := steps_identifier identifier (by decide) rfl (by decide)
      have scans := ih restFits (holds.push .representationId [] _) next
      exact scans.behind (fun final => (Loop.returns_iff_of_reaches (.single steps)).mpr)
        (printSlots_push _ slots piece _ _)
    | value name width =>
      have identifier : text.drop scan.templateIndex =
          '$' :: (name.name ++ formatTag width ++ '$' :: pieces.flatMap Piece.written) := by
        rw [here]
        simp [Piece.written]
      have next : text.drop (scan.templateIndex + (name.name ++ formatTag width).length + 2) =
          pieces.flatMap Piece.written := by
        rw [Nat.add_assoc, ← List.drop_drop, identifier, drop_identifier]
      obtain ⟨plain, nonempty⟩ := identifier_plain name width
      have steps := steps_identifier identifier plain (compileIdentifier_value name width) nonempty
      have scans := ih restFits (holds.push name.identifier
        ((width.map Width.formatTag).getD kDefaultFormatTag) _) next
      refine scans.behind (fun final => (Loop.returns_iff_of_reaches (.single steps)).mpr) ?_
      rw [printSlots_push, substitute_value firstFits]
      rfl

/-- A template that is written by the rules compiles to one more url piece than identifiers, and the
url that is built of it has every value in its place. -/
theorem compile_buildUri (pieces : List Piece) (values : Values)
    (fits : ∀ piece ∈ pieces, piece.Fits values) :
    ∃ template, compile (String.ofList (pieces.flatMap Piece.written)) = .ok template ∧
      (template.identifiers.filterMap id).length = template.identifierCount ∧
      template.urlPieces.length = template.identifierCount + 1 ∧
      template.buildUri (String.ofList values.representationId) (values.get .number)
          (values.get .bandwidth) (values.get .time) =
        String.ofList (pieces.flatMap (Piece.printed values)) := by
  obtain ⟨final, slots, piece, returns, holds, printed⟩ :=
    @scan_pieces (pieces.flatMap Piece.written) pieces values fits .start [] [] .start rfl
  have parsed : parseTemplate (pieces.flatMap Piece.written) = .ok final :=
    returns.run_eq remaining_decreases (Nat.sub_le _ _)
  have compiled : compile (String.ofList (pieces.flatMap Piece.written)) = .ok final.toUrlTemplate := by
    rw [compile, String.toList_ofList, parsed]
    rfl
  obtain ⟨identifiers, urlPieces⟩ := compile_length compiled
  refine ⟨final.toUrlTemplate, compiled, identifiers, urlPieces, ?_⟩
  rw [buildUri, String.toList_ofList]
  exact congrArg String.ofList ((holds.interleave_eq (substitute values.arguments)).trans printed)

namespace Sample

-- `v$RepresentationID$$$$Number%04d$$Time$`
def pieces : List Piece :=
  [.literal ['v'] (by decide), .representationId, .escaped,
    .value .number (some ⟨['4'], List.forall_mem_singleton.mpr rfl⟩), .value .time none]

def values : Values where
  representationId := ['i', 'd']
  get
    | .number => 12
    | .bandwidth => 1
    | .time => 3
  inRange name := by cases name <;> decide

end Sample

open Sample in
theorem compile_buildUri_sample :
    ∃ template, compile "v$RepresentationID$$$$Number%04d$$Time$" = .ok template ∧
      (template.identifiers.filterMap id).length = template.identifierCount ∧
      template.urlPieces.length = template.identifierCount + 1 ∧
      template.buildUri "id" 12 1 3 = "vid$00123" := by
  have fits : ∀ piece ∈ pieces, piece.Fits values := by
    simp [pieces, Piece.Fits]
    decide
  have written : String.ofList (pieces.flatMap Piece.written) =
      "v$RepresentationID$$$$Number%04d$$Time$" := by decide +kernel
  have printed : String.ofList (pieces.flatMap (Piece.printed values)) = "vid$00123" := by
    decide +kernel
  obtain ⟨template, compiled, identifiers, urlPieces, built⟩ := compile_buildUri pieces values fits
  rw [written] at compiled
  rw [printed] at built
  exact ⟨template, compiled, identifiers, urlPieces, built⟩

end NDash.Mpd.UrlTemplate
