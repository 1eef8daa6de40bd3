import NDash.Shared.UriReference
import Mathlib.Data.List.TakeWhile

set_option autoImplicit false

namespace Uri

def segments : Text → List Text
  | [] => [[]]
  | first :: rest =>
    if first = '/' then [] :: segments rest
    else
      match segments rest with
      | [] => [[first]]
      | segment :: more => (first :: segment) :: more

def join : List Text → Text
  | [] => []
  | [segment] => segment
  | segment :: next :: more => segment ++ '/' :: join (next :: more)

theorem join_cons (segment : Text) {more : List Text} (some : more ≠ []) :
    join (segment :: more) = segment ++ '/' :: join more := by
  cases more with
  | nil => exact absurd rfl some
  | cons next more => rfl

theorem segments_ne_nil (text : Text) : segments text ≠ [] := by
  cases text with
  | nil => simp [segments]
  | cons first rest =>
    simp only [segments]
    split
    · simp
    · split <;> simp

theorem join_segments (text : Text) : join (segments text) = text := by
  induction text with
  | nil => rfl
  | cons first rest ih =>
    by_cases slash : first = '/'
    · rw [segments, if_pos slash, join_cons _ (segments_ne_nil rest), ih, slash]
      rfl
    · rw [segments, if_neg slash]
      split
      next none => exact absurd none (segments_ne_nil rest)
      next segment more present =>
        rw [present] at ih
        cases more with
        | nil => simpa [join] using ih
        | cons next more => simpa [join] using ih

theorem slash_notMem_of_mem_segments {text segment : Text} (member : segment ∈ segments text) :
    '/' ∉ segment := by
  induction text generalizing segment with
  | nil =>
    obtain rfl : segment = [] := by simpa [segments] using member
    simp
  | cons first rest ih =>
    by_cases slash : first = '/'
    · rw [segments, if_pos slash, List.mem_cons] at member
      rcases member with rfl | later
      · simp
      · exact ih later
    · rw [segments, if_neg slash] at member
      split at member
      next none => exact absurd none (segments_ne_nil rest)
      next head more present =>
        rcases List.mem_cons.mp member with rfl | later
        · simp only [List.mem_cons, not_or]
          exact ⟨fun same => slash same.symm, ih (by simp [present])⟩
        · exact ih (by simp [present, later])

theorem segments_cases (text : Text) :
    ∃ segment more, segments text = segment :: more ∧ text = join (segment :: more) ∧
      ∀ name ∈ segment :: more, '/' ∉ name := by
  obtain ⟨segment, more, present⟩ := List.exists_cons_of_ne_nil (segments_ne_nil text)
  refine ⟨segment, more, present, ?_, ?_⟩
  · rw [← present, join_segments]
  · rw [← present]
    exact fun name member => slash_notMem_of_mem_segments member

theorem segments_of_plain {segment : Text} (plain : '/' ∉ segment) : segments segment = [segment] := by
  induction segment with
  | nil => rfl
  | cons first rest ih =>
    simp only [List.mem_cons, not_or] at plain
    have other : ¬ first = '/' := fun same => plain.1 same.symm
    rw [segments, if_neg other, ih plain.2]

theorem segments_append {segment : Text} (plain : '/' ∉ segment) (rest : Text) :
    segments (segment ++ '/' :: rest) = segment :: segments rest := by
  induction segment with
  | nil => simp [segments]
  | cons first more ih =>
    simp only [List.mem_cons, not_or] at plain
    have other : ¬ first = '/' := fun same => plain.1 same.symm
    rw [List.cons_append, segments, if_neg other, ih plain.2]

theorem segments_join {names : List Text} (some : names ≠ []) (plain : ∀ name ∈ names, '/' ∉ name) :
    segments (join names) = names := by
  induction names with
  | nil => exact absurd rfl some
  | cons segment more ih =>
    by_cases last : more = []
    · rw [last]
      exact segments_of_plain (plain segment (by simp))
    · rw [join_cons segment last, segments_append (plain segment (by simp)),
        ih last fun name member => plain name (by simp [member])]

theorem join_reverse_inj {first second : List Text} (someFirst : first ≠ []) (someSecond : second ≠ [])
    (plainFirst : ∀ name ∈ first, '/' ∉ name) (plainSecond : ∀ name ∈ second, '/' ∉ name)
    (same : join first.reverse = join second.reverse) : first = second := by
  have names := congrArg segments same
  rw [segments_join (by simpa using someFirst) (by simpa using plainFirst),
    segments_join (by simpa using someSecond) (by simpa using plainSecond)] at names
  exact List.reverse_inj.mp names

def Dots (segment : Text) : Prop := segment = ['.'] ∨ segment = ['.', '.']

instance (segment : Text) : Decidable (Dots segment) :=
  inferInstanceAs (Decidable (segment = ['.'] ∨ segment = ['.', '.']))

-- What is left to visit after a dot segment: one at the end leaves an empty segment behind.
def orEmpty (more : List Text) : List Text := if more = [] then [[]] else more

theorem orEmpty_ne_nil (more : List Text) : orEmpty more ≠ [] := by
  unfold orEmpty
  split <;> simp_all

theorem mem_orEmpty {more : List Text} {segment : Text} (member : segment ∈ orEmpty more) :
    segment = [] ∨ segment ∈ more := by
  unfold orEmpty at member
  split at member
  · exact .inl (by simpa using member)
  · exact .inr member

section Settle

variable (parent : List Text → List Text)

-- The innermost directory comes first.
def visit (stack : List Text) (segment : Text) : List Text :=
  if segment = ['.'] then stack
  else if segment = ['.', '.'] then parent stack
  else segment :: stack

/-- The directories and the last segment that a path comes to, when `..` goes to `parent`. -/
def settle (stack : List Text) : List Text → List Text
  | [] => stack
  | [segment] =>
    if Dots segment then [] :: visit parent stack segment else visit parent stack segment
  | segment :: next :: more => settle (visit parent stack segment) (next :: more)

theorem settle_cons (stack : List Text) (segment : Text) {more : List Text} (some : more ≠ []) :
    settle parent stack (segment :: more) = settle parent (visit parent stack segment) more := by
  cases more with
  | nil => exact absurd rfl some
  | cons next more => rfl

theorem settle_last (stack : List Text) {segment : Text} (named : ¬ Dots segment) :
    settle parent stack [segment] = segment :: stack := by
  simp only [settle, if_neg named, visit]
  simp only [Dots, not_or] at named
  simp [named]

theorem settle_dots (stack : List Text) {segment : Text} (dots : Dots segment) (more : List Text) :
    settle parent stack (segment :: more) =
      settle parent (visit parent stack segment) (orEmpty more) := by
  by_cases last : more = []
  · have plain : ¬ Dots ([] : Text) := by decide
    rw [last, orEmpty, if_pos rfl, settle, if_pos dots, settle_last parent _ plain]
  · rw [settle_cons parent stack segment last, orEmpty, if_neg last]

theorem visit_named (stack : List Text) {segment : Text} (named : ¬ Dots segment) :
    visit parent stack segment = segment :: stack := by
  simp only [Dots, not_or] at named
  simp [visit, named]

theorem plain_visit {stack : List Text} {segment : Text}
    (inner : ∀ stack name, name ∈ parent stack → name ∈ stack) (plain : '/' ∉ segment)
    (plainStack : ∀ name ∈ stack, '/' ∉ name) : ∀ name ∈ visit parent stack segment, '/' ∉ name := by
  intro name member
  unfold visit at member
  split at member
  · exact plainStack name member
  · split at member
    · exact plainStack name (inner stack name member)
    · rcases List.mem_cons.mp member with rfl | below
      · exact plain
      · exact plainStack name below

theorem settle_ne_nil {stack names : List Text} (some : names ≠ []) : settle parent stack names ≠ [] := by
  induction names generalizing stack with
  | nil => exact absurd rfl some
  | cons segment more ih =>
    by_cases last : more = []
    · subst last
      by_cases dots : Dots segment
      · simp [settle, dots]
      · simp [settle_last parent stack dots]
    · rw [settle_cons parent stack segment last]
      exact ih last

theorem plain_settle {stack names : List Text}
    (inner : ∀ stack name, name ∈ parent stack → name ∈ stack)
    (plainNames : ∀ name ∈ names, '/' ∉ name) (plainStack : ∀ name ∈ stack, '/' ∉ name) :
    ∀ name ∈ settle parent stack names, '/' ∉ name := by
  induction names generalizing stack with
  | nil => exact plainStack
  | cons segment more ih =>
    have plainVisited := plain_visit parent inner (plainNames segment (by simp)) plainStack
    by_cases last : more = []
    · subst last
      simp only [settle]
      split
      · intro name member
        rcases List.mem_cons.mp member with rfl | below
        · simp
        · exact plainVisited name below
      · exact plainVisited
    · rw [settle_cons parent stack segment last]
      exact ih (fun name member => plainNames name (by simp [member])) plainVisited

end Settle

def slashed (names : List Text) : Text := (names.map ('/' :: ·)).flatten

theorem slashed_eq {names : List Text} (some : names ≠ []) : slashed names = '/' :: join names := by
  induction names with
  | nil => exact absurd rfl some
  | cons segment more ih =>
    cases more with
    | nil => simp [slashed, join]
    | cons next more =>
      have later := ih (by simp)
      simp only [slashed, List.map_cons, List.flatten_cons] at later ⊢
      simp [later, join]

theorem inSegment_of_plain {segment : Text} (plain : '/' ∉ segment) :
    ∀ c ∈ segment, inSegment c = true := by
  intro c member
  simp only [inSegment, ne_eq, decide_not, Bool.not_eq_eq_eq_not, Bool.not_true,
    decide_eq_false_iff_not]
  rintro rfl
  exact plain member

theorem takeWhile_plain {segment : Text} (plain : '/' ∉ segment) (rest : Text) :
    (segment ++ '/' :: rest).takeWhile inSegment = segment ∧
      (segment ++ '/' :: rest).dropWhile inSegment = '/' :: rest := by
  have inside := inSegment_of_plain plain
  rw [List.takeWhile_append_of_pos inside, List.dropWhile_append_of_pos inside]
  simp [inSegment]

theorem takeWhile_all {segment : Text} (plain : '/' ∉ segment) :
    segment.takeWhile inSegment = segment ∧ segment.dropWhile inSegment = [] := by
  have inside := inSegment_of_plain plain
  exact ⟨List.takeWhile_eq_self_iff.mpr inside, List.dropWhile_eq_nil_iff.mpr inside⟩

theorem takeWhile_join {segment : Text} (plain : '/' ∉ segment) (more : List Text) :
    (join (segment :: more)).takeWhile inSegment = segment ∧
      (join (segment :: more)).dropWhile inSegment = if more = [] then [] else '/' :: join more := by
  by_cases last : more = []
  · rw [if_pos last, last]
    exact takeWhile_all plain
  · rw [if_neg last, join_cons segment last]
    exact takeWhile_plain plain (join more)

theorem dropSegment_slashed {top : Text} (plain : '/' ∉ top) (output : Text) :
    dropSegment (output ++ '/' :: top) = output := by
  have plainBack : '/' ∉ top.reverse := by simpa using plain
  simp only [dropSegment, List.reverse_append, List.reverse_cons, List.append_assoc,
    List.singleton_append, (takeWhile_plain plainBack output.reverse).2, List.drop_one, List.tail_cons,
    List.reverse_reverse]

theorem dropSegment_stack {stack : List Text} (plain : ∀ segment ∈ stack, '/' ∉ segment) :
    dropSegment (slashed stack.reverse) = slashed stack.tail.reverse := by
  cases stack with
  | nil => rfl
  | cons top below =>
    have whole : slashed (top :: below).reverse = slashed below.reverse ++ '/' :: top := by
      simp [slashed]
    rw [whole, dropSegment_slashed (plain top (by simp)), List.tail_cons]

theorem removeDotSegmentsFrom_nil (rounds : Nat) (output : Text) :
    removeDotSegmentsFrom rounds [] output = output := by
  cases rounds <;> rfl

theorem removeDotSegmentsFrom_rooted (rounds : Nat) (output : Text) {segment : Text}
    {more : List Text} (plain : '/' ∉ segment) :
    removeDotSegmentsFrom (rounds + 1) ('/' :: join (segment :: more)) output =
      if Dots segment then
        removeDotSegmentsFrom rounds ('/' :: join (orEmpty more))
          (if segment = ['.'] then output else dropSegment output)
      else
        removeDotSegmentsFrom rounds (if more = [] then [] else '/' :: join more)
          (output ++ '/' :: segment) := by
  obtain ⟨taken, dropped⟩ := takeWhile_join plain more
  have later : (if (if more = [] then [] else '/' :: join more) = [] then ['/']
      else (if more = [] then [] else '/' :: join more)) = '/' :: join (orEmpty more) := by
    by_cases last : more = [] <;> simp [last, orEmpty, join]
  simp only [removeDotSegmentsFrom, if_true, taken, dropped, later, Dots]
  by_cases one : segment = ['.']
  · simp [one]
  · by_cases two : segment = ['.', '.'] <;> simp [one, two]

theorem length_join_orEmpty_lt {segment : Text} (dots : Dots segment) (more : List Text) :
    (join (orEmpty more)).length < (join (segment :: more)).length := by
  have size : 0 < segment.length := by
    rcases dots with rfl | rfl <;> simp
  by_cases last : more = []
  · simpa [orEmpty, last, join] using size
  · rw [orEmpty, if_neg last, join_cons segment last, List.length_append, List.length_cons]
    omega

theorem removeDotSegmentsFrom_settle {rounds : Nat} {names : List Text} (stack : List Text)
    (some : names ≠ []) (plain : ∀ segment ∈ names, '/' ∉ segment)
    (plainStack : ∀ segment ∈ stack, '/' ∉ segment)
    (enough : ('/' :: join names).length ≤ rounds) :
    removeDotSegmentsFrom rounds ('/' :: join names) (slashed stack.reverse) =
      slashed (settle List.tail stack names).reverse := by
  induction rounds generalizing names stack with
  | zero => simp at enough
  | succ rounds ih =>
    cases names with
    | nil => exact absurd rfl some
    | cons segment more =>
      have plainHead : '/' ∉ segment := plain segment (by simp)
      rw [removeDotSegmentsFrom_rooted rounds _ plainHead]
      by_cases dots : Dots segment
      · have shorter := length_join_orEmpty_lt dots more
        simp only [List.length_cons] at enough
        rw [if_pos dots, settle_dots _ _ dots]
        have output : (if segment = ['.'] then slashed stack.reverse else dropSegment (slashed stack.reverse)) =
            slashed (visit List.tail stack segment).reverse := by
          rcases dots with rfl | rfl
          · simp [visit]
          · simp [visit, dropSegment_stack plainStack]
        rw [output]
        refine ih _ (orEmpty_ne_nil more) ?_ ?_ ?_
        · intro name member
          rcases mem_orEmpty member with rfl | later
          · simp
          · exact plain name (by simp [later])
        · exact plain_visit List.tail (fun _ _ => List.mem_of_mem_tail) plainHead plainStack
        · simp only [List.length_cons]
          omega
      · have pushed : slashed stack.reverse ++ '/' :: segment = slashed (segment :: stack).reverse := by
          simp [slashed]
        rw [if_neg dots, pushed]
        by_cases last : more = []
        · rw [if_pos last, removeDotSegmentsFrom_nil, last, settle_last _ _ dots]
        · rw [if_neg last, settle_cons _ _ _ last, visit_named _ _ dots]
          refine ih _ last ?_ ?_ ?_
          · intro name member
            exact plain name (by simp [member])
          · intro name member
            rcases List.mem_cons.mp member with rfl | below
            · exact plainHead
            · exact plainStack name below
          · rw [join_cons segment last] at enough
            simp only [List.length_cons, List.length_append] at enough ⊢
            omega

theorem removeDotSegments_rooted (rest : Text) :
    removeDotSegments ('/' :: rest) = slashed (settle List.tail [] (segments rest)).reverse := by
  have settled := removeDotSegmentsFrom_settle [] (segments_ne_nil rest)
    (fun segment member => slash_notMem_of_mem_segments member) (by simp)
    (Nat.le_refl ('/' :: join (segments rest)).length)
  rw [join_segments] at settled
  exact settled

theorem length_dropSegment_le (output : Text) : (dropSegment output).length ≤ output.length := by
  have shorter := (List.dropWhile_suffix inSegment (l := output.reverse)).length_le
  simp only [dropSegment, List.length_reverse, List.length_drop]
  simp only [List.length_reverse] at shorter
  omega

theorem length_output_le (segment output : Text) :
    (if segment = ['.'] then output else dropSegment output).length ≤ output.length := by
  split
  · exact Nat.le_refl _
  · exact length_dropSegment_le output

theorem removeDotSegmentsFrom_rootless (rounds : Nat) (output : Text) {segment : Text}
    (more : List Text) (plain : '/' ∉ segment) (some : segment ≠ []) :
    removeDotSegmentsFrom (rounds + 1) (join (segment :: more)) output =
      if Dots segment then removeDotSegmentsFrom rounds (join more) output
      else
        removeDotSegmentsFrom rounds (if more = [] then [] else '/' :: join more)
          (output ++ segment) := by
  obtain ⟨taken, dropped⟩ := takeWhile_join plain more
  obtain ⟨first, rest, whole⟩ : ∃ first rest, join (segment :: more) = first :: rest := by
    cases whole : join (segment :: more) with
    | nil =>
      rw [whole] at taken
      exact absurd taken.symm some
    | cons first rest => exact ⟨first, rest, rfl⟩
  have other : ¬ first = '/' := by
    rintro rfl
    rw [whole] at taken
    exact some (by simpa [inSegment] using taken.symm)
  have later : (if more = [] then [] else '/' :: join more).drop 1 = join more := by
    by_cases last : more = [] <;> simp [last, join]
  rw [whole] at taken dropped ⊢
  simp only [removeDotSegmentsFrom, if_neg other, taken, dropped, later]
  rfl

theorem length_join_cons (segment : Text) (more : List Text) :
    (join (segment :: more)).length =
      segment.length + (if more = [] then [] else '/' :: join more).length := by
  by_cases last : more = []
  · simp [last, join]
  · simp [last, join_cons segment last]

theorem head_segment_ne_nil {first : Char} (other : first ≠ '/') {rest segment : Text}
    {more : List Text} (present : segments (first :: rest) = segment :: more) : segment ≠ [] := by
  rw [segments, if_neg other] at present
  split at present <;> cases present <;> simp

-- No rule of the loop makes the two buffers longer, and those for dot segments make them shorter.
theorem length_removeDotSegmentsFrom_le (rounds : Nat) (input output : Text) :
    (removeDotSegmentsFrom rounds input output).length ≤ input.length + output.length := by
  induction rounds generalizing input output with
  | zero => simp [removeDotSegmentsFrom]
  | succ rounds ih =>
    cases input with
    | nil => simp [removeDotSegmentsFrom]
    | cons first rest =>
      by_cases slash : first = '/'
      · obtain ⟨segment, more, -, whole, plain⟩ := segments_cases rest
        rw [slash, whole, removeDotSegmentsFrom_rooted rounds _ (plain segment (by simp))]
        by_cases dots : Dots segment
        · have shorter := length_join_orEmpty_lt dots more
          have bound := ih ('/' :: join (orEmpty more))
            (if segment = ['.'] then output else dropSegment output)
          have kept := length_output_le segment output
          rw [if_pos dots]
          simp only [List.length_cons] at bound ⊢
          omega
        · have bound := ih (if more = [] then [] else '/' :: join more) (output ++ '/' :: segment)
          have total := length_join_cons segment more
          rw [if_neg dots]
          simp only [List.length_append, List.length_cons] at bound ⊢
          omega
      · obtain ⟨segment, more, present, whole, plain⟩ := segments_cases (first :: rest)
        have total := length_join_cons segment more
        rw [whole, removeDotSegmentsFrom_rootless rounds _ more (plain segment (by simp))
          (head_segment_ne_nil slash present)]
        split
        next dots =>
          have bound := ih (join more) output
          have tail : (join more).length ≤ (if more = [] then [] else '/' :: join more).length := by
            by_cases last : more = [] <;> simp [last, join]
          omega
        next =>
          have bound := ih (if more = [] then [] else '/' :: join more) (output ++ segment)
          simp only [List.length_append] at bound
          omega

def DotFree (path : Text) : Prop := ∀ segment ∈ segments path, ¬ Dots segment

instance (path : Text) : Decidable (DotFree path) :=
  inferInstanceAs (Decidable (∀ segment ∈ segments path, ¬ Dots segment))

theorem removeDotSegmentsFrom_dotFree {rounds : Nat} {names : List Text} (output : Text)
    (some : names ≠ []) (plain : ∀ segment ∈ names, '/' ∉ segment)
    (free : ∀ segment ∈ names, ¬ Dots segment) (enough : ('/' :: join names).length ≤ rounds) :
    removeDotSegmentsFrom rounds ('/' :: join names) output = output ++ '/' :: join names := by
  induction rounds generalizing names output with
  | zero => simp at enough
  | succ rounds ih =>
    cases names with
    | nil => exact absurd rfl some
    | cons segment more =>
      rw [removeDotSegmentsFrom_rooted rounds _ (plain segment (by simp)),
        if_neg (free segment (by simp))]
      by_cases last : more = []
      · rw [if_pos last, removeDotSegmentsFrom_nil, last]
        rfl
      · rw [join_cons segment last] at enough ⊢
        rw [if_neg last, ih _ last (fun name member => plain name (by simp [member]))
          (fun name member => free name (by simp [member])), List.append_assoc, List.cons_append]
        simp only [List.length_cons, List.length_append] at enough ⊢
        omega

theorem removeDotSegmentsFrom_shorter {rounds : Nat} {names : List Text} (output : Text)
    (plain : ∀ segment ∈ names, '/' ∉ segment) (dots : ∃ segment ∈ names, Dots segment)
    (enough : ('/' :: join names).length ≤ rounds) :
    (removeDotSegmentsFrom rounds ('/' :: join names) output).length <
      ('/' :: join names).length + output.length := by
  induction rounds generalizing names output with
  | zero => simp at enough
  | succ rounds ih =>
    cases names with
    | nil => simp at dots
    | cons segment more =>
      rw [removeDotSegmentsFrom_rooted rounds _ (plain segment (by simp))]
      by_cases here : Dots segment
      · have shorter := length_join_orEmpty_lt here more
        have bound := length_removeDotSegmentsFrom_le rounds ('/' :: join (orEmpty more))
          (if segment = ['.'] then output else dropSegment output)
        have kept := length_output_le segment output
        rw [if_pos here]
        simp only [List.length_cons] at bound ⊢
        omega
      · obtain ⟨name, member, dotted⟩ := dots
        have later : name ∈ more := by
          rcases List.mem_cons.mp member with rfl | later
          · exact absurd dotted here
          · exact later
        have last : ¬ more = [] := List.ne_nil_of_mem later
        rw [join_cons segment last] at enough ⊢
        rw [if_neg here, if_neg last]
        have bound := ih (output ++ '/' :: segment)
          (fun name member => plain name (by simp [member])) ⟨name, later, dotted⟩ (by
            simp only [List.length_cons, List.length_append] at enough ⊢
            omega)
        simp only [List.length_cons, List.length_append] at bound ⊢
        omega

theorem removeDotSegments_rooted_iff (rest : Text) :
    removeDotSegments ('/' :: rest) = '/' :: rest ↔ DotFree rest := by
  obtain ⟨segment, more, present, whole, plain⟩ := segments_cases rest
  unfold DotFree removeDotSegments
  rw [present]
  constructor
  · intro same name member dots
    have shorter := removeDotSegmentsFrom_shorter [] plain ⟨name, member, dots⟩ (Nat.le_refl _)
    rw [← whole, same] at shorter
    simp at shorter
  · intro free
    rw [whole]
    exact removeDotSegmentsFrom_dotFree [] (by simp) plain free (Nat.le_refl _)

theorem removeDotSegments_eq_self_iff (path : Text) : removeDotSegments path = path ↔ DotFree path := by
  cases path with
  | nil => decide
  | cons first rest =>
    by_cases slash : first = '/'
    · rw [slash, removeDotSegments_rooted_iff]
      simp [DotFree, segments, Dots]
    · obtain ⟨segment, more, present, whole, plain⟩ := segments_cases (first :: rest)
      have some := head_segment_ne_nil slash present
      have total := length_join_cons segment more
      have round := removeDotSegmentsFrom_rootless rest.length [] more (plain segment (by simp)) some
      rw [← whole, ← List.length_cons (a := first)] at round
      unfold removeDotSegments
      rw [round, DotFree, present, whole]
      by_cases dots : Dots segment
      · have bound := length_removeDotSegmentsFrom_le rest.length (join more) []
        have size : 0 < segment.length := List.length_pos_iff.mpr some
        have tail : (join more).length ≤ (if more = [] then [] else '/' :: join more).length := by
          by_cases last : more = [] <;> simp [last, join]
        rw [if_pos dots]
        refine iff_of_false ?_ fun free => free segment (by simp) dots
        intro same
        rw [same] at bound
        simp only [List.length_nil] at bound
        omega
      · rw [if_neg dots, List.nil_append]
        by_cases last : more = []
        · simp [last, removeDotSegmentsFrom_nil, join, dots]
        · have length : (first :: rest).length = segment.length + (join more).length + 1 := by
            rw [whole, total, if_neg last, List.length_cons]
            omega
          have size : 0 < segment.length := List.length_pos_iff.mpr some
          have enough : ('/' :: join more).length ≤ rest.length := by
            simp only [List.length_cons] at length ⊢
            omega
          have plainMore : ∀ name ∈ more, '/' ∉ name := fun name member => plain name (by simp [member])
          rw [if_neg last, join_cons segment last]
          constructor
          · intro same name member dotted
            have later : name ∈ more := by
              rcases List.mem_cons.mp member with rfl | later
              · exact absurd dotted dots
              · exact later
            have shorter := removeDotSegmentsFrom_shorter segment plainMore ⟨name, later, dotted⟩ enough
            rw [same, List.length_append] at shorter
            omega
          · intro free
            exact removeDotSegmentsFrom_dotFree segment last plainMore
              (fun name member => free name (by simp [member])) enough

end Uri
