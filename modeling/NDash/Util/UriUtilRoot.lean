import NDash.Util.UriUtilClimb

set_option autoImplicit false

namespace NDash.Util.UriUtil

open Machine Uri

variable {origin authority post segment : Text} {stack ahead names more : List Text}

def straysAfter (stack : List Text) (strayed : Bool) (segment : Text) : Bool :=
  if segment = ['.', '.'] then stack.tail ≠ [] && (strayed || stack.head? = some []) else strayed

def strays : List Text → Bool → List Text → Bool
  | _, strayed, [] => strayed
  | stack, strayed, segment :: more =>
    strays (visit List.tail stack segment) (straysAfter stack strayed segment) more

def Behind (strayed : Bool) (stack ahead : List Text) : Prop :=
  if strayed then stack.length < ahead.length else stack = ahead

theorem Behind.cons {strayed : Bool} (behind : Behind strayed stack ahead) (name : Text) :
    Behind strayed (name :: stack) (name :: ahead) := by
  cases strayed with
  | false => exact congrArg (name :: ·) behind
  | true => exact Nat.succ_lt_succ behind

theorem length_climb_le (stack : List Text) : (climb stack).length ≤ stack.length - 1 := by
  match stack with
  | [] => simp [climb]
  | [] :: below => simp [climb]
  | (first :: rest) :: below => simp [climb]

theorem Behind.visit {strayed : Bool} (behind : Behind strayed stack ahead) (segment : Text) :
    Behind (straysAfter ahead strayed segment) (Uri.visit climb stack segment)
      (Uri.visit List.tail ahead segment) := by
  by_cases up : segment = ['.', '.']
  · subst up
    have shorter := length_climb_le stack
    have visits (parent : List Text → List Text) (stack : List Text) :
        Uri.visit parent stack ['.', '.'] = parent stack := rfl
    rw [visits, visits]
    cases strayed with
    | false =>
      obtain rfl : stack = ahead := behind
      match stack with
      | [] => rfl
      | [[]] => rfl
      | [_ :: _] => rfl
      | [] :: next :: below => simp [Behind, straysAfter, climb]
      | (first :: rest) :: next :: below => simp [Behind, straysAfter, climb]
    | true =>
      have fewer : stack.length < ahead.length := behind
      by_cases back : ahead.tail = []
      · have size := congrArg List.length back
        simp only [List.length_tail, List.length_nil] at size
        obtain rfl : stack = [] := List.eq_nil_of_length_eq_zero (by omega)
        simp [Behind, straysAfter, back, climb]
      · have size := List.length_pos_iff.mpr back
        have strays : straysAfter ahead true ['.', '.'] = true := by simp [straysAfter, back]
        rw [strays]
        simp only [List.length_tail] at size
        simp only [Behind, if_true, List.length_tail]
        omega
  · unfold straysAfter Uri.visit
    simp only [if_neg up]
    split
    · exact behind
    · exact behind.cons segment

/-- The source and the RFC come to the same directories unless the source has strayed. -/
theorem Behind.settle {strayed : Bool} (behind : Behind strayed stack ahead) (some : names ≠ []) :
    Behind (strays ahead strayed names) (Uri.settle climb stack names)
      (Uri.settle List.tail ahead names) := by
  induction names generalizing stack ahead strayed with
  | nil => exact absurd rfl some
  | cons segment more ih =>
    have visited := behind.visit segment
    by_cases last : more = []
    · subst last
      simp only [strays, Uri.settle]
      split
      · exact visited.cons []
      · exact visited
    · rw [settle_cons climb stack segment last, settle_cons List.tail ahead segment last, strays]
      exact ih visited last

section Dotted

-- How the loop can stand once it has erased an authority `.`, which nothing of the text restores.
inductive Broken (origin post : Text) : DotScan → Prop
  | start (later : Text) : Broken origin post (scanAt [] (rootOf origin ++ later) post)
  | slash (later : Text) : Broken origin post (scanAt (origin ++ ['/']) ('/' :: later) post)
  | root (later : Text) : Broken origin post (scanAt (rootOf origin) later post)
  | inside (first passed later : Text) (plain : '/' ∉ first) (named : first ≠ ['.']) :
      Broken origin post (scanAt (rootOf origin ++ first ++ '/' :: passed) later post)

theorem cut_cases (rest : Text) :
    (∃ segment later, Cut rest segment ['/'] later) ∨ Cut rest rest [] [] := by
  obtain ⟨segment, more, -, whole, plain⟩ := segments_cases rest
  have cut := cut_join (plain segment (by simp)) more
  rw [← whole] at cut
  by_cases last : more = []
  · subst last
    refine .inr ⟨by simp, ?_, .inr ⟨rfl, rfl⟩⟩
    rw [whole]
    exact plain segment (by simp)
  · rw [if_neg last] at cut
    exact .inl ⟨segment, join more, cut⟩

theorem dot_lost {first later : Text} (plain : '/' ∉ first) (named : first ≠ ['.'])
    (other : later.head? ≠ some '.') : ¬ ['.', '/'] <+: first ++ later := by
  rintro ⟨rest, same⟩
  match first with
  | [] =>
    rw [List.nil_append] at same
    rw [← same] at other
    exact other rfl
  | [char] =>
    simp only [List.cons_append, List.nil_append, List.cons.injEq] at same
    exact named (by rw [same.1])
  | char :: second :: more =>
    simp only [List.cons_append, List.nil_append, List.cons.injEq] at same
    exact plain (by simp [← same.2.1])

theorem lead_lost {first later : Text} (plain : '/' ∉ first) (named : first ≠ ['.'])
    (other : later.head? ≠ some '.') : ¬ leadOf origin ['.'] <+: rootOf origin ++ (first ++ later) := by
  have whole : leadOf origin ['.'] = rootOf origin ++ ['.', '/'] := by simp [leadOf]
  rw [whole, List.prefix_append_right_inj]
  exact dot_lost plain named other

-- A `..` that goes back to `front'` keeps what lies between there and the start of the path.
theorem Cut.back {offset : Nat} {front front' rest separator later : Text}
    (cut : Cut rest ['.', '.'] separator later) (post : Text) (deep : 2 ≤ front.length)
    (start : parentStart front = front'.length) (reached : front' <+: front)
    (inside : offset ≤ (front ++ ['.', '.'] ++ separator).length) :
    ∃ kept, front' ++ kept = (front ++ ['.', '.'] ++ separator).take (max front'.length offset) ∧
      Relation.TransGen (dotLoop offset).Steps (scanAt front rest post)
        (scanAt front' (kept ++ later) post) := by
  obtain ⟨more, rfl⟩ := reached
  have leaves : (front' ++ more ++ ['.', '.'] ++ separator).take (max front'.length offset) =
      front' ++ (more ++ ['.', '.'] ++ separator).take (max front'.length offset - front'.length) := by
    rw [List.append_assoc, List.append_assoc front', List.take_append,
      List.take_of_length_le (Nat.le_max_left _ _), List.append_assoc more]
  refine ⟨_, leaves.symm, cut.dotDot_path deep start (Nat.max_le.mpr ⟨?_, inside⟩) leaves⟩
  simp only [List.length_append]
  omega

theorem length_leadOf_dot (origin : Text) : (leadOf origin ['.']).length = (rootOf origin).length + 2 := by
  simp [leadOf]

theorem inside_of_root {front : Text} (reached : rootOf origin <+: front) (separator : Text) :
    (leadOf origin ['.']).length ≤ (front ++ ['.', '.'] ++ separator).length := by
  have longer := reached.length_le
  rw [length_leadOf_dot]
  simp only [List.length_append, List.length_cons, List.length_nil]
  omega

theorem last_slash {text : Text} (member : '/' ∈ text) :
    ∃ before word, text = before ++ '/' :: word ∧ '/' ∉ word := by
  obtain ⟨word, before, split, plain⟩ := List.eq_append_cons_of_mem (List.mem_reverse.mpr member)
  refine ⟨before.reverse, word.reverse, ?_, by simpa using plain⟩
  rw [← List.reverse_reverse text, split]
  simp

theorem boundary_root (origin : Text) : Boundary (rootOf origin) :=
  .inr ⟨origin ++ ['/'], by simp [rootOf]⟩

theorem parentStart_root (plainOrigin : '/' ∉ origin) : parentStart (rootOf origin) = 0 := by
  refine parentStart_zero ?_
  rw [rootOf, take_sub_two]
  exact plainOrigin

section Up

variable {later rest separator : Text}

theorem broken_up_root (post : Text) (plainOrigin : '/' ∉ origin)
    (cut : Cut rest ['.', '.'] separator later) :
    ∃ next, Relation.TransGen (dotLoop (leadOf origin ['.']).length).Steps
      (scanAt (rootOf origin) rest post) next ∧ Broken origin post next := by
  have deep : 2 ≤ (rootOf origin).length := by simp [rootOf]
  have start : parentStart (rootOf origin) = ([] : Text).length := parentStart_root plainOrigin
  obtain ⟨kept, leaves, back⟩ := cut.back post deep start List.nil_prefix
    (inside_of_root List.prefix_rfl separator)
  refine ⟨_, back, ?_⟩
  have whole : kept ++ later = rootOf origin ++ (['.', '.'] ++ later) := by
    rw [List.nil_append, length_leadOf_dot] at leaves
    have all := List.take_of_length_le (Nat.le_add_right (rootOf origin).length 2)
    simp [leaves, List.take_append, all]
  rw [whole]
  exact .start _

theorem broken_up_word (post word : Text) (first second : Char) (plain : '/' ∉ word)
    (cut : Cut rest ['.', '.'] separator later) :
    ∃ next, Relation.TransGen (dotLoop (leadOf origin ['.']).length).Steps
      (scanAt (rootOf origin ++ word ++ [first, second]) rest post) next ∧ Broken origin post next := by
  have start : parentStart (rootOf origin ++ word ++ [first, second]) = (rootOf origin).length :=
    parentStart_of_boundary first second (boundary_root origin) rfl plain
  have reached : rootOf origin <+: rootOf origin ++ word ++ [first, second] := by simp
  obtain ⟨kept, -, back⟩ := cut.back post (by simp; omega) start reached
    (inside_of_root reached separator)
  exact ⟨_, back, .root _⟩

theorem broken_up_inside (post : Text) {first passed : Text} (plain : '/' ∉ first)
    (named : first ≠ ['.']) (cut : Cut rest ['.', '.'] separator later) :
    ∃ next, Relation.TransGen (dotLoop (leadOf origin ['.']).length).Steps
      (scanAt (rootOf origin ++ first ++ '/' :: passed) rest post) next ∧ Broken origin post next := by
  rcases List.eq_nil_or_concat passed with rfl | ⟨passed, second, rfl⟩
  · rcases List.eq_nil_or_concat first with rfl | ⟨init, last, rfl⟩
    · have shape : rootOf origin ++ [] ++ ['/'] = origin ++ ['/'] ++ [] ++ ['/', '/'] := by
        simp [rootOf]
      have start : parentStart (rootOf origin ++ [] ++ ['/']) = (origin ++ ['/']).length :=
        parentStart_of_boundary '/' '/' (.inr ⟨origin, rfl⟩) shape List.not_mem_nil
      have inside := inside_of_root (show rootOf origin <+: rootOf origin ++ [] ++ ['/'] by simp) separator
      obtain ⟨kept, leaves, back⟩ := cut.back post (by simp [rootOf]) start (by simp [rootOf]) inside
      refine ⟨_, back, ?_⟩
      have whole : kept = ['/', '/', '.'] := by
        have text : rootOf origin ++ [] ++ ['/'] ++ ['.', '.'] ++ separator =
            origin ++ ['/'] ++ ['/', '/', '.'] ++ '.' :: separator := by simp [rootOf]
        have size : max (origin ++ ['/']).length (leadOf origin ['.']).length =
            (origin ++ ['/'] ++ ['/', '/', '.']).length := by
          rw [length_leadOf_dot]
          simp [rootOf]
        rw [text, size, List.take_left] at leaves
        exact List.append_cancel_left leaves
      rw [whole]
      exact .slash _
    · rw [List.concat_eq_append] at plain ⊢
      have shape : rootOf origin ++ (init ++ [last]) ++ ['/'] = rootOf origin ++ init ++ [last, '/'] := by
        simp
      rw [shape]
      exact broken_up_word post init last '/' (fun member => plain (by simp [member])) cut
  · rw [List.concat_eq_append]
    rcases List.eq_nil_or_concat passed with rfl | ⟨passed, third, rfl⟩
    · have shape : rootOf origin ++ first ++ '/' :: ([] ++ [second]) =
          rootOf origin ++ first ++ ['/', second] := by simp
      rw [shape]
      exact broken_up_word post first '/' second plain cut
    · -- A slash behind the first segment comes last: at least the one that ends it.
      rw [List.concat_eq_append]
      obtain ⟨before, word, split, plainWord⟩ := last_slash (show '/' ∈ '/' :: passed by simp)
      have shape : rootOf origin ++ first ++ '/' :: (passed ++ [third] ++ [second]) =
          rootOf origin ++ first ++ before ++ ['/'] ++ word ++ [third, second] := by
        rw [show '/' :: (passed ++ [third] ++ [second]) = '/' :: passed ++ [third, second] by simp, split]
        simp
      have start : parentStart (rootOf origin ++ first ++ '/' :: (passed ++ [third] ++ [second])) =
          (rootOf origin ++ first ++ before ++ ['/']).length :=
        parentStart_of_boundary third second (.inr ⟨_, rfl⟩) shape plainWord
      have inside := inside_of_root
        (show rootOf origin <+: rootOf origin ++ first ++ '/' :: (passed ++ [third] ++ [second]) by simp)
        separator
      obtain ⟨kept, -, back⟩ := cut.back post (by simp; omega) start (by rw [shape]; simp) inside
      obtain ⟨passed', ends⟩ : ∃ passed', before ++ ['/'] = '/' :: passed' := by
        cases before with
        | nil => exact ⟨[], rfl⟩
        | cons char before =>
          rw [List.cons_append, List.cons.injEq] at split
          exact ⟨before ++ ['/'], by rw [split.1]; rfl⟩
      rw [List.append_assoc (rootOf origin ++ first), ends] at back
      exact ⟨_, back, .inside first passed' _ plain named⟩

end Up

/-- Whatever the loop does to a text without its authority `.`, the authority does not come back. -/
theorem Broken.advance (plainOrigin : '/' ∉ origin) (namedOrigin : ¬ Dots origin)
    (other : post.head? ≠ some '.') (state : DotScan) (broken : Broken origin post state) :
    (∃ next, Relation.TransGen (dotLoop (leadOf origin ['.']).length).Steps state next ∧
      Broken origin post next) ∨
    ∃ last, (dotLoop (leadOf origin ['.']).length).Reaches state last ∧
      (dotLoop (leadOf origin ['.']).length).going last = false ∧
      ¬ leadOf origin ['.'] <+: last.uri := by
  have unnamed : ¬ Dots ([] : Text) := by decide
  cases broken with
  | start later =>
    have whole : rootOf origin ++ later = origin ++ '/' :: '/' :: later := by simp [rootOf]
    rw [whole]
    exact .inl ⟨_, (cut_slash plainOrigin _).named_path namedOrigin, .slash later⟩
  | slash later =>
    have root : rootOf origin = origin ++ ['/'] ++ [] ++ ['/'] := by simp [rootOf]
    have next : Broken origin post (scanAt (origin ++ ['/'] ++ [] ++ ['/']) later post) :=
      root ▸ .root later
    exact .inl ⟨_, (cut_slash (by simp) later).named_path unnamed, next⟩
  | root later =>
    rcases cut_cases later with ⟨segment, rest, cut⟩ | cut
    · by_cases dots : Dots segment
      · rcases dots with rfl | rfl
        · exact .inl ⟨_, cut.dot_path, .root rest⟩
        · exact .inl (broken_up_root post plainOrigin cut)
      · refine .inl ⟨_, cut.named_path dots, ?_⟩
        exact .inside segment [] rest cut.plain fun dot => dots (.inl dot)
    · by_cases dots : Dots later
      · rcases dots with rfl | rfl
        · exact .inl ⟨_, cut.dot_path, .root []⟩
        · exact .inl (broken_up_root post plainOrigin cut)
      · obtain ⟨last, reaches, stopped, uri⟩ := cut.named_last dots
        refine .inr ⟨last, reaches, stopped, ?_⟩
        rw [uri, List.append_assoc]
        exact lead_lost cut.plain (fun dot => dots (.inl dot)) other
  | inside first passed later plain named =>
    rcases cut_cases later with ⟨segment, rest, cut⟩ | cut
    · by_cases dots : Dots segment
      · rcases dots with rfl | rfl
        · exact .inl ⟨_, cut.dot_path, .inside first passed rest plain named⟩
        · exact .inl (broken_up_inside post plain named cut)
      · refine .inl ⟨_, cut.named_path dots, ?_⟩
        have shape : rootOf origin ++ first ++ '/' :: passed ++ segment ++ ['/'] =
            rootOf origin ++ first ++ '/' :: (passed ++ segment ++ ['/']) := by simp
        rw [shape]
        exact .inside first _ rest plain named
    · by_cases dots : Dots later
      · rcases dots with rfl | rfl
        · exact .inl ⟨_, cut.dot_path, .inside first passed [] plain named⟩
        · exact .inl (broken_up_inside post plain named cut)
      · obtain ⟨last, reaches, stopped, uri⟩ := cut.named_last dots
        refine .inr ⟨last, reaches, stopped, ?_⟩
        have shape : rootOf origin ++ first ++ '/' :: passed ++ later ++ post =
            rootOf origin ++ (first ++ '/' :: (passed ++ later ++ post)) := by simp
        rw [uri, shape]
        exact lead_lost plain named (by simp)

theorem dotDot_cycle (post rest : Text) (plainOrigin : '/' ∉ origin) (namedOrigin : ¬ Dots origin) :
    Relation.TransGen (dotLoop (leadOf origin ['.', '.']).length).Steps
      (scanAt (rootOf origin) (['.', '.'] ++ '/' :: rest) post)
      (scanAt (rootOf origin) (['.', '.'] ++ '/' :: rest) post) := by
  have unnamed : ¬ Dots ([] : Text) := by decide
  have start : parentStart (rootOf origin) = ([] : Text).length := parentStart_root plainOrigin
  obtain ⟨kept, leaves, back⟩ := (cut_slash (by decide) rest).back post
    (show 2 ≤ (rootOf origin).length by simp [rootOf]) start List.nil_prefix
    (Nat.le_refl (leadOf origin ['.', '.']).length)
  have whole : kept ++ rest = origin ++ '/' :: '/' :: (['.', '.'] ++ '/' :: rest) := by
    have all : max ([] : Text).length (leadOf origin ['.', '.']).length =
        (rootOf origin ++ ['.', '.'] ++ ['/']).length := by
      simp [leadOf]
    rw [all, List.take_length, List.nil_append] at leaves
    rw [leaves]
    simp [rootOf]
  have root : rootOf origin = [] ++ origin ++ ['/'] ++ [] ++ ['/'] := by simp [rootOf]
  rw [whole] at back
  have again := (back.trans ((cut_slash plainOrigin _).named_path namedOrigin)).trans
    ((cut_slash (by simp) (['.', '.'] ++ '/' :: rest)).named_path unnamed)
  rw [← root] at again
  exact again

-- A `..` at the root of a dotted authority: the text loses the authority, or the loop never ends.
theorem root_lost (plainOrigin : '/' ∉ origin) (namedOrigin : ¬ Dots origin)
    (other : post.head? ≠ some '.') (dotted : Dots authority) (empty : stack = [] ∨ stack = [[]])
    {final : DotScan}
    (returns : (dotLoop (leadOf origin authority).length).Returns .diverges
      (scanPath (leadOf origin authority) stack (['.', '.'] :: more) post) final) :
    ¬ leadOf origin authority <+: final.uri := by
  have plain : '/' ∉ authority := by rcases dotted with rfl | rfl <;> decide
  obtain ⟨front, rest, back, ⟨rfl, rfl⟩ | ⟨rfl, -⟩⟩ := scanPath_root origin post more plain empty
  · have later := (Loop.returns_iff_of_reaches back.to_reflTransGen).mp returns
    rcases dotted with rfl | rfl
    · have erased : (dotLoop (leadOf origin ['.']).length).Returns .diverges
          (scanAt (rootOf origin) (join (orEmpty more)) post) final :=
        (Loop.returns_iff_of_reaches (cut_slash plain _).dot_path.to_reflTransGen).mp later
      exact Loop.Returns.cutPoints (Broken origin post) (fun last => ¬ leadOf origin ['.'] <+: last.uri)
        (Broken.advance plainOrigin namedOrigin other) (.root _) erased
    · have cycle := dotDot_cycle post (join (orEmpty more)) plainOrigin namedOrigin
      exact absurd later (Loop.not_returns_of_cycle cycle)
  · rcases dotted with none | none <;> cases none

def Apart (stack ahead names : List Text) : Prop :=
  (stack = ahead ∧ leavesNames ahead names = false) ∨ stack.length < ahead.length

theorem Apart.visit {segment : Text} (apart : Apart stack ahead (segment :: more))
    (deep : segment = ['.', '.'] → ¬ (stack = [] ∨ stack = [[]])) :
    Apart (Uri.visit climb stack segment) (Uri.visit List.tail ahead segment) more := by
  rcases apart with ⟨rfl, leaves⟩ | fewer
  · by_cases here : segment = ['.', '.'] → leavesName stack = true
    · refine .inl ⟨visit_climb here, ?_⟩
      simp only [leavesNames, Bool.and_eq_false_iff] at leaves
      refine leaves.resolve_left ?_
      by_cases up : segment = ['.', '.']
      · simp [here up]
      · simp [up]
    · simp only [Classical.not_imp] at here
      obtain ⟨rfl, unnamed⟩ := here
      refine .inr ?_
      cases stack with
      | nil => exact absurd (.inl rfl) (deep rfl)
      | cons name below =>
        cases name with
        | cons first rest => simp [leavesName] at unnamed
        | nil =>
          cases below with
          | nil => exact absurd (.inr rfl) (deep rfl)
          | cons next below => simp [Uri.visit, climb]
  · refine .inr ?_
    by_cases up : segment = ['.', '.']
    · subst up
      have shorter := length_climb_le stack
      have some : stack ≠ [] := fun none => deep rfl (.inl none)
      have size := List.length_pos_iff.mpr some
      have visits (parent : List Text → List Text) (stack : List Text) :
          Uri.visit parent stack ['.', '.'] = parent stack := rfl
      rw [visits, visits, List.length_tail]
      omega
    · unfold Uri.visit
      simp only [if_neg up]
      split
      · exact fewer
      · exact Nat.succ_lt_succ fewer

theorem last_differs {lead : Text} (plain : '/' ∉ segment) (plainStack : ∀ name ∈ stack, '/' ∉ name)
    (plainAhead : ∀ name ∈ ahead, '/' ∉ name) (fewer : stack.length < ahead.length) :
    lead ++ join (segment :: stack).reverse ++ post ≠ lead ++ join (segment :: ahead).reverse ++ post := by
  intro same
  have plainCons {names : List Text} (plainNames : ∀ name ∈ names, '/' ∉ name) :
      ∀ name ∈ segment :: names, '/' ∉ name := by
    intro name member
    rcases List.mem_cons.mp member with rfl | later
    · exact plain
    · exact plainNames name later
  have names := join_reverse_inj (by simp) (by simp) (plainCons plainStack) (plainCons plainAhead)
    (List.append_cancel_left (List.append_cancel_right same))
  have lengths := congrArg List.length names
  simp only [List.length_cons] at lengths
  omega

theorem dotted_differs (plainOrigin : '/' ∉ origin) (namedOrigin : ¬ Dots origin)
    (other : post.head? ≠ some '.') (dotted : Dots authority) (some : names ≠ [])
    (plainNames : ∀ name ∈ names, '/' ∉ name) (plainStack : ∀ name ∈ stack, '/' ∉ name)
    (plainAhead : ∀ name ∈ ahead, '/' ∉ name) (apart : Apart stack ahead names) {final : DotScan}
    (returns : (dotLoop (leadOf origin authority).length).Returns .diverges
      (scanPath (leadOf origin authority) stack names post) final) :
    final.uri ≠ leadOf origin authority ++ join (settle List.tail ahead names).reverse ++ post := by
  have plain : '/' ∉ authority := by rcases dotted with rfl | rfl <;> decide
  induction names generalizing stack ahead with
  | nil => exact absurd rfl some
  | cons segment more ih =>
    have plainSegment : '/' ∉ segment := plainNames segment (by simp)
    have plainVisited := plain_visit climb (fun _ _ => mem_of_mem_climb) plainSegment plainStack
    have plainAheadVisited := plain_visit List.tail (fun _ _ => List.mem_of_mem_tail) plainSegment
      plainAhead
    by_cases root : segment = ['.', '.'] ∧ (stack = [] ∨ stack = [[]])
    · obtain ⟨rfl, empty⟩ := root
      intro same
      refine root_lost plainOrigin namedOrigin other dotted empty returns ?_
      rw [same, List.append_assoc]
      exact List.prefix_append _ _
    have deep (up : segment = ['.', '.']) : ¬ (stack = [] ∨ stack = [[]]) := fun empty => root ⟨up, empty⟩
    have apartVisited := apart.visit deep
    -- With the last segment behind, the directories themselves differ.
    have ends (apart : Apart (visit climb stack segment) (visit List.tail ahead segment) []) :
        (visit climb stack segment).length < (visit List.tail ahead segment).length := by
      rcases apart with ⟨-, leaves⟩ | fewer
      · cases leaves
      · exact fewer
    by_cases goesOn : Dots segment ∨ more ≠ []
    · have visited := scanPath_visit origin post plain plainStack plainSegment goesOn fun _ => deep
      have later := (Loop.returns_iff_of_reaches visited.to_reflTransGen).mp returns
      by_cases last : more = []
      · have dots : Dots segment := goesOn.resolve_right (by simp [last])
        have unnamed : ¬ Dots ([] : Text) := by decide
        subst last
        obtain ⟨reached, reaches, stopped, uri⟩ := scanPath_last (leadOf origin authority).length
          (leadOf origin authority) post (visit climb stack segment) (by simp) unnamed
        have stops := (Loop.returns_iff_of_reaches reaches).mp later
        rw [(Loop.returns_iff_of_stopped stopped).mp stops, uri, settle_dots List.tail ahead dots,
          orEmpty, if_pos rfl, settle_last List.tail _ unnamed]
        exact last_differs (by simp) plainVisited plainAheadVisited (ends apartVisited)
      · rw [orEmpty, if_neg last] at later
        rw [settle_cons List.tail ahead segment last]
        exact ih last (fun name member => plainNames name (by simp [member])) plainVisited
          plainAheadVisited apartVisited later
    · simp only [not_or, ne_eq, not_not] at goesOn
      obtain ⟨named, rfl⟩ := goesOn
      obtain ⟨reached, reaches, stopped, uri⟩ := scanPath_last (leadOf origin authority).length
        (leadOf origin authority) post stack plainSegment named
      have stops := (Loop.returns_iff_of_reaches reaches).mp returns
      have fewer := ends apartVisited
      rw [visit_named climb stack named, visit_named List.tail ahead named] at fewer
      rw [(Loop.returns_iff_of_stopped stopped).mp stops, uri, settle_last List.tail ahead named]
      exact last_differs plainSegment plainStack plainAhead (Nat.lt_of_succ_lt_succ fewer)

end Dotted

/-- When the source removes dot segments as the RFC does, under a given authority. -/
def KeepsDirectories (authority : Text) (names : List Text) : Prop :=
  if Dots authority then leavesNames [] names = true else strays [] false names = false

instance (authority : Text) (names : List Text) : Decidable (KeepsDirectories authority names) :=
  inferInstanceAs (Decidable (if Dots authority then _ else _))

theorem settle_climb_of_leavesNames (leaves : leavesNames stack names = true) :
    settle climb stack names = settle List.tail stack names := by
  induction names generalizing stack with
  | nil => rfl
  | cons segment more ih =>
    simp only [leavesNames, Bool.and_eq_true, Bool.or_eq_true] at leaves
    have same : visit climb stack segment = visit List.tail stack segment := by
      refine visit_climb fun up => ?_
      simpa [up] using leaves.1
    by_cases last : more = []
    · subst last
      simp only [settle, same]
    · rw [settle_cons climb stack segment last, settle_cons List.tail stack segment last, same]
      exact ih leaves.2

theorem scanPath_returns_iff (plainOrigin : '/' ∉ origin) (namedOrigin : ¬ Dots origin)
    (plain : '/' ∉ authority) (other : post.head? ≠ some '.') (some : names ≠ [])
    (plainNames : ∀ name ∈ names, '/' ∉ name) :
    (∃ final, (dotLoop (leadOf origin authority).length).Returns .diverges
        (scanPath (leadOf origin authority) [] names post) final ∧
      final.uri = leadOf origin authority ++ join (settle List.tail [] names).reverse ++ post) ↔
      KeepsDirectories authority names := by
  have none : ∀ name ∈ ([] : List Text), '/' ∉ name := by simp
  unfold KeepsDirectories
  by_cases dotted : Dots authority
  · rw [if_pos dotted]
    constructor
    · rintro ⟨final, returns, uri⟩
      by_contra leaves
      exact dotted_differs plainOrigin namedOrigin other dotted some plainNames none none
        (.inl ⟨rfl, Bool.eq_false_iff.mpr leaves⟩) returns uri
    · intro leaves
      obtain ⟨last, reaches, stopped, uri⟩ := scanPath_settles plain some plainNames none fun _ => leaves
      refine ⟨last, (Loop.returns_iff_of_reaches reaches).mpr ?_, ?_⟩
      · exact (Loop.returns_iff_of_stopped stopped).mpr rfl
      · rw [uri, settle_climb_of_leavesNames leaves]
  · have behind := Behind.settle (show Behind false [] [] from rfl) some
    obtain ⟨last, reaches, stopped, uri⟩ := scanPath_settles plain some plainNames none
      fun dots => absurd dots dotted
    rw [if_neg dotted]
    constructor
    · rintro ⟨final, returns, result⟩
      have stops := (Loop.returns_iff_of_reaches reaches).mp returns
      rw [(Loop.returns_iff_of_stopped stopped).mp stops, uri] at result
      have same := join_reverse_inj (settle_ne_nil climb some) (settle_ne_nil List.tail some)
        (plain_settle climb (fun _ _ => mem_of_mem_climb) plainNames none)
        (plain_settle List.tail (fun _ _ => List.mem_of_mem_tail) plainNames none)
        (List.append_cancel_left (List.append_cancel_right result))
      by_contra strayed
      rw [Bool.not_eq_false] at strayed
      rw [strayed, same] at behind
      exact Nat.lt_irrefl _ behind
    · intro straight
      rw [straight] at behind
      refine ⟨last, (Loop.returns_iff_of_reaches reaches).mpr ?_, ?_⟩
      · exact (Loop.returns_iff_of_stopped stopped).mpr rfl
      · rw [uri, show settle climb [] names = settle List.tail [] names from behind]

end NDash.Util.UriUtil
