import NDash.Util.UriUtilSegments

set_option autoImplicit false

namespace NDash.Util.UriUtil

open Machine Uri

-- The directories that were passed, the innermost first, each with its slash.
def flat : List Text → Text
  | [] => []
  | top :: below => flat below ++ top ++ ['/']

theorem flat_append_eq (stack : List Text) (segment : Text) :
    flat stack ++ segment = join (segment :: stack).reverse := by
  induction stack generalizing segment with
  | nil => rfl
  | cons top below ih =>
    have earlier := ih top
    have snoc (names : List Text) (some : names ≠ []) :
        join (names ++ [segment]) = join names ++ '/' :: segment := by
      induction names with
      | nil => exact absurd rfl some
      | cons first more ih =>
        by_cases last : more = []
        · simp [last, join]
        · rw [List.cons_append, join_cons first (by simp), join_cons first last, ih last]
          simp
    rw [List.reverse_cons, snoc _ (by simp), ← earlier, flat]
    simp

theorem slash_ends_flat {lead : Text} (slash : ∃ before, lead = before ++ ['/']) (stack : List Text) :
    ∃ before, lead ++ flat stack = before ++ ['/'] := by
  cases stack with
  | nil => simpa [flat] using slash
  | cons top below => exact ⟨lead ++ flat below ++ top, by simp [flat]⟩

def scanPath (lead : Text) (stack names : List Text) (post : Text) : DotScan :=
  scanAt (lead ++ flat stack) (join names) post

variable {offset : Nat} {lead post segment top : Text} {stack below more : List Text}

theorem cut_join (plain : '/' ∉ segment) (more : List Text) :
    Cut (join (segment :: more)) segment (if more = [] then [] else ['/']) (join more) := by
  by_cases last : more = []
  · simp only [last, if_true]
    exact ⟨by simp [join], plain, .inr ⟨rfl, rfl⟩⟩
  · simp only [if_neg last]
    exact ⟨by rw [join_cons segment last]; simp, plain, .inl rfl⟩

theorem join_orEmpty (more : List Text) : join (orEmpty more) = join more := by
  by_cases last : more = [] <;> simp [last, orEmpty, join]

theorem scanPath_named (plain : '/' ∉ segment) (named : ¬ Dots segment) (some : more ≠ []) :
    Relation.TransGen (dotLoop offset).Steps (scanPath lead stack (segment :: more) post)
      (scanPath lead (segment :: stack) more post) := by
  have cut := cut_join plain more
  rw [if_neg some] at cut
  have pushed : Relation.TransGen (dotLoop offset).Steps
      (scanAt (lead ++ flat stack) (join (segment :: more)) post)
      (scanAt (lead ++ flat stack ++ segment ++ ['/']) (join more) post) := cut.named_path named
  simpa [scanPath, flat] using pushed

theorem scanPath_last (offset : Nat) (lead post : Text) (stack : List Text) (plain : '/' ∉ segment)
    (named : ¬ Dots segment) :
    ∃ last, (dotLoop offset).Reaches (scanPath lead stack [segment] post) last ∧
      (dotLoop offset).going last = false ∧
      last.uri = lead ++ join (segment :: stack).reverse ++ post := by
  have cut := cut_join plain []
  obtain ⟨last, reaches, stopped, uri⟩ := cut.named_last named
  refine ⟨last, reaches, stopped, ?_⟩
  rw [uri, ← flat_append_eq, List.append_assoc lead]
  rfl

theorem scanPath_dot :
    Relation.TransGen (dotLoop offset).Steps (scanPath lead stack (['.'] :: more) post)
      (scanPath lead stack (orEmpty more) post) := by
  rw [scanPath, scanPath, join_orEmpty]
  exact (cut_join (by decide) more).dot_path

theorem take_sub_two (passed : Text) (first second : Char) :
    (passed ++ [first, second]).take ((passed ++ [first, second]).length - 2) = passed := by
  simp

def Boundary (front : Text) : Prop := front = [] ∨ ∃ before, front = before ++ ['/']

theorem parentStart_of_boundary {front front' word : Text} (first second : Char)
    (boundary : Boundary front') (passed : front = front' ++ word ++ [first, second])
    (plain : '/' ∉ word) : parentStart front = front'.length := by
  obtain rfl | ⟨before, rfl⟩ := boundary
  · refine parentStart_zero ?_
    rw [passed, take_sub_two]
    exact plain
  · have taken : front.take (front.length - 2) = before ++ '/' :: word := by
      rw [passed, take_sub_two]
      simp
    rw [parentStart_eq taken plain, List.length_append, List.length_singleton]

theorem scanPath_back {front front' : Text} (word : Text) (first second : Char)
    (slash : ∃ before, front' = before ++ ['/']) (outer : lead.length ≤ front'.length)
    (passed : front = front' ++ word ++ [first, second]) (plain : '/' ∉ word) :
    Relation.TransGen (dotLoop lead.length).Steps (scanAt front (join (['.', '.'] :: more)) post)
      (scanAt front' (join (orEmpty more)) post) := by
  have start : parentStart front = front'.length :=
    parentStart_of_boundary first second (.inr slash) passed plain
  rw [join_orEmpty]
  have leaves : (front ++ ['.', '.'] ++ if more = [] then [] else ['/']).take
      (max front'.length lead.length) = front' ++ [] := by
    rw [Nat.max_eq_left outer, passed]
    simp
  refine (cut_join (by decide) more).dotDot_path ?_ start ?_ leaves
  · rw [passed, List.length_append, List.length_cons, List.length_cons]
    omega
  · rw [Nat.max_eq_left outer, passed]
    simp

theorem scanPath_parent (slash : ∃ before, lead = before ++ ['/']) (plain : '/' ∉ top)
    (some : top ≠ []) :
    Relation.TransGen (dotLoop lead.length).Steps
      (scanPath lead (top :: below) (['.', '.'] :: more) post)
      (scanPath lead below (orEmpty more) post) := by
  rcases List.eq_nil_or_concat top with rfl | ⟨init, last, rfl⟩
  · exact absurd rfl some
  · rw [List.concat_eq_append] at plain ⊢
    refine scanPath_back init last '/' (slash_ends_flat slash below) (by simp) ?_ ?_
    · simp [flat]
    · exact fun member => plain (by simp [member])

theorem scanPath_grandparent {next : Text} (slash : ∃ before, lead = before ++ ['/'])
    (plain : '/' ∉ next) :
    Relation.TransGen (dotLoop lead.length).Steps
      (scanPath lead ([] :: next :: below) (['.', '.'] :: more) post)
      (scanPath lead below (orEmpty more) post) := by
  refine scanPath_back next '/' '/' (slash_ends_flat slash below) (by simp) ?_ plain
  simp [flat]

section Root

def rootOf (origin : Text) : Text := origin ++ ['/', '/']
def leadOf (origin authority : Text) : Text := rootOf origin ++ authority ++ ['/']

theorem slash_ends_lead (origin authority : Text) : ∃ before, leadOf origin authority = before ++ ['/'] :=
  ⟨rootOf origin ++ authority, rfl⟩

variable {origin authority : Text}

-- Nothing before the path goes: of the text behind the slash found, all up to the path is kept.
theorem scanAt_reread (before word kept : Text) (first second : Char) {front : Text}
    (passed : front = before ++ '/' :: word ++ [first, second]) (plain : '/' ∉ word)
    (whole : lead = before ++ ['/'] ++ kept) (reached : lead <+: front) :
    Relation.TransGen (dotLoop lead.length).Steps (scanAt front (join (['.', '.'] :: more)) post)
      (scanAt (before ++ ['/']) (kept ++ join (orEmpty more)) post) := by
  obtain ⟨later, rfl⟩ := reached
  have outer : (before ++ ['/']).length ≤ lead.length := by simp [whole]
  rw [join_orEmpty]
  refine (cut_join (by decide) more).dotDot_path ?_ ?_ ?_ ?_
  · rw [passed, List.length_append, List.length_cons, List.length_cons]
    omega
  · rw [parentStart_eq (by rw [passed, take_sub_two]) plain]
    simp
  · rw [Nat.max_eq_right outer]
    simp
  · rw [Nat.max_eq_right outer, List.append_assoc, List.append_assoc, List.take_left]
    exact whole

theorem scanPath_root (origin post : Text) (more : List Text) (plain : '/' ∉ authority)
    (empty : stack = [] ∨ stack = [[]]) :
    ∃ front rest,
      Relation.TransGen (dotLoop (leadOf origin authority).length).Steps
        (scanPath (leadOf origin authority) stack (['.', '.'] :: more) post) (scanAt front rest post) ∧
      ((front = rootOf origin ∧ rest = authority ++ '/' :: join (orEmpty more)) ∨
        (authority = [] ∧ front = origin ++ ['/'] ∧ rest = '/' :: '/' :: join (orEmpty more))) := by
  have root : origin ++ ['/'] ++ ['/'] = rootOf origin := by simp [rootOf]
  have whole : leadOf origin authority = origin ++ ['/'] ++ ['/'] ++ (authority ++ ['/']) := by
    simp [leadOf, rootOf]
  have kept : authority ++ ['/'] ++ join (orEmpty more) = authority ++ '/' :: join (orEmpty more) := by
    simp
  rcases empty with rfl | rfl
  · rcases List.eq_nil_or_concat authority with rfl | ⟨init, last, rfl⟩
    · refine ⟨_, _, scanAt_reread origin [] ['/', '/'] '/' '/' ?_ (by simp) ?_ ?_,
        .inr ⟨rfl, rfl, rfl⟩⟩
      · simp [leadOf, rootOf, flat]
      · simp [leadOf, rootOf]
      · simp [flat]
    · rw [List.concat_eq_append] at plain whole kept ⊢
      refine ⟨_, _, scanAt_reread (origin ++ ['/']) init _ last '/' ?_ ?_ whole ?_, .inl ⟨root, kept⟩⟩
      · simp [leadOf, rootOf, flat]
      · exact fun member => plain (by simp [member])
      · simp [flat]
  · refine ⟨_, _, scanAt_reread (origin ++ ['/']) authority _ '/' '/' ?_ plain whole ?_,
      .inl ⟨root, kept⟩⟩
    · simp [leadOf, rootOf, flat]
    · simp [flat]

theorem cut_slash (plain : '/' ∉ segment) (later : Text) :
    Cut (segment ++ '/' :: later) segment ['/'] later :=
  ⟨by simp, plain, .inl rfl⟩

theorem scanPath_root_named (plain : '/' ∉ authority) (named : ¬ Dots authority)
    (empty : stack = [] ∨ stack = [[]]) :
    Relation.TransGen (dotLoop (leadOf origin authority).length).Steps
      (scanPath (leadOf origin authority) stack (['.', '.'] :: more) post)
      (scanPath (leadOf origin authority) [] (orEmpty more) post) := by
  have final : scanPath (leadOf origin authority) [] (orEmpty more) post =
      scanAt (rootOf origin ++ authority ++ ['/']) (join (orEmpty more)) post := by
    simp [scanPath, flat, leadOf]
  rw [final]
  obtain ⟨front, rest, back, ⟨rfl, rfl⟩ | ⟨rfl, rfl, rfl⟩⟩ := scanPath_root origin post more plain empty
  · exact back.trans ((cut_slash plain _).named_path named)
  · have root : rootOf origin = origin ++ ['/'] ++ [] ++ ['/'] := by simp [rootOf]
    rw [root]
    exact (back.trans ((cut_slash plain ('/' :: join (orEmpty more))).named_path named)).trans
      ((cut_slash plain (join (orEmpty more))).named_path named)

/-- Where a `..` of the source leads: an empty directory goes together with the one around it. -/
def climb : List Text → List Text
  | [] => []
  | [] :: below => below.tail
  | _ :: below => below

theorem scanPath_dotDot (plain : '/' ∉ authority) (plainStack : ∀ name ∈ stack, '/' ∉ name)
    (safe : Dots authority → ¬ (stack = [] ∨ stack = [[]])) :
    Relation.TransGen (dotLoop (leadOf origin authority).length).Steps
      (scanPath (leadOf origin authority) stack (['.', '.'] :: more) post)
      (scanPath (leadOf origin authority) (climb stack) (orEmpty more) post) := by
  have slash := slash_ends_lead origin authority
  match stack with
  | [] => exact scanPath_root_named plain (fun dots => safe dots (.inl rfl)) (.inl rfl)
  | [[]] => exact scanPath_root_named plain (fun dots => safe dots (.inr rfl)) (.inr rfl)
  | [] :: next :: below => exact scanPath_grandparent slash (plainStack next (by simp))
  | (first :: rest) :: below =>
    exact scanPath_parent slash (plainStack _ (by simp)) (by simp)

def leavesName (stack : List Text) : Bool := stack.head? ≠ none && stack.head? ≠ some []

theorem not_root_of_leavesName (leaves : leavesName stack = true) : ¬ (stack = [] ∨ stack = [[]]) := by
  rintro (rfl | rfl) <;> simp [leavesName] at leaves

theorem climb_of_leavesName (leaves : leavesName stack = true) : climb stack = stack.tail := by
  match stack with
  | [] => rfl
  | [] :: below => simp [leavesName] at leaves
  | (first :: rest) :: below => rfl

theorem mem_of_mem_climb {name : Text} (member : name ∈ climb stack) : name ∈ stack := by
  match stack with
  | [] => exact member
  | [] :: below => exact .tail _ (List.mem_of_mem_tail member)
  | (first :: rest) :: below => exact .tail _ member

def leavesNames : List Text → List Text → Bool
  | _, [] => true
  | stack, segment :: more =>
    (segment ≠ ['.', '.'] || leavesName stack) && leavesNames (visit List.tail stack segment) more

theorem visit_climb (leaves : segment = ['.', '.'] → leavesName stack = true) :
    visit climb stack segment = visit List.tail stack segment := by
  unfold visit
  split
  · rfl
  · split
    next up => exact climb_of_leavesName (leaves up)
    next => rfl

theorem scanPath_visit (origin post : Text) (plain : '/' ∉ authority) (plainStack : ∀ name ∈ stack, '/' ∉ name)
    (plainSegment : '/' ∉ segment) (goesOn : Dots segment ∨ more ≠ [])
    (safe : Dots authority → segment = ['.', '.'] → ¬ (stack = [] ∨ stack = [[]])) :
    Relation.TransGen (dotLoop (leadOf origin authority).length).Steps
      (scanPath (leadOf origin authority) stack (segment :: more) post)
      (scanPath (leadOf origin authority) (visit climb stack segment) (orEmpty more) post) := by
  by_cases dots : Dots segment
  · rcases dots with rfl | rfl
    · exact scanPath_dot
    · exact scanPath_dotDot plain plainStack fun dotted => safe dotted rfl
  · have some := goesOn.resolve_left dots
    rw [visit_named climb stack dots, orEmpty, if_neg some]
    exact scanPath_named plainSegment dots some

/-- The source's walk of a whole path, when no `..` is met at the root of a dotted authority. -/
theorem scanPath_settles (plain : '/' ∉ authority) {names : List Text} (some : names ≠ [])
    (plainNames : ∀ name ∈ names, '/' ∉ name) (plainStack : ∀ name ∈ stack, '/' ∉ name)
    (safe : Dots authority → leavesNames stack names = true) :
    ∃ last,
      (dotLoop (leadOf origin authority).length).Reaches
        (scanPath (leadOf origin authority) stack names post) last ∧
      (dotLoop (leadOf origin authority).length).going last = false ∧
      last.uri = leadOf origin authority ++ join (settle climb stack names).reverse ++ post := by
  induction names generalizing stack with
  | nil => exact absurd rfl some
  | cons segment more ih =>
    have plainSegment : '/' ∉ segment := plainNames segment (by simp)
    have plainVisited := plain_visit climb (fun _ _ => mem_of_mem_climb) plainSegment plainStack
    have safeHere (dotted : Dots authority) (up : segment = ['.', '.']) : leavesName stack = true := by
      have leaves := safe dotted
      simp only [leavesNames, up, Bool.and_eq_true, Bool.or_eq_true] at leaves
      simpa using leaves.1
    have safeLater (dotted : Dots authority) :
        leavesNames (visit climb stack segment) more = true := by
      have leaves := safe dotted
      simp only [leavesNames, Bool.and_eq_true] at leaves
      rw [visit_climb (safeHere dotted)]
      exact leaves.2
    by_cases goesOn : Dots segment ∨ more ≠ []
    · have visited := scanPath_visit origin post plain plainStack plainSegment goesOn
        fun dotted up => not_root_of_leavesName (safeHere dotted up)
      by_cases final : more = []
      · -- The dot segment was the last one, and leaves an empty one.
        have dots : Dots segment := goesOn.resolve_right (by simp [final])
        have unnamed : ¬ Dots ([] : Text) := by decide
        obtain ⟨last, reaches, stopped, uri⟩ := scanPath_last (leadOf origin authority).length
          (leadOf origin authority) post (visit climb stack segment) (by simp) unnamed
        refine ⟨last, ?_, stopped, ?_⟩
        · rw [orEmpty, if_pos final] at visited
          exact visited.to_reflTransGen.trans reaches
        · rw [uri, settle_dots climb stack dots, orEmpty, if_pos final, settle_last climb _ unnamed]
      · obtain ⟨last, reaches, stopped, uri⟩ := ih final
          (fun name member => plainNames name (by simp [member])) plainVisited safeLater
        refine ⟨last, ?_, stopped, ?_⟩
        · rw [orEmpty, if_neg final] at visited
          exact visited.to_reflTransGen.trans reaches
        · rw [uri, settle_cons climb stack segment final]
    · simp only [not_or, ne_eq, not_not] at goesOn
      obtain ⟨named, rfl⟩ := goesOn
      obtain ⟨last, reaches, stopped, uri⟩ := scanPath_last (leadOf origin authority).length
        (leadOf origin authority) post stack plainSegment named
      refine ⟨last, reaches, stopped, ?_⟩
      rw [uri, settle_last climb stack named]

end Root

end NDash.Util.UriUtil
