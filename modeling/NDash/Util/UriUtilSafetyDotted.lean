import NDash.Util.UriUtilSafetyWalks

set_option autoImplicit false

namespace NDash.Util.UriUtil

open Machine Uri

variable {origin front rest post segment name text : Text} {stack more names : List Text}

/-! A text that begins with two dots in place of the authority -/

def glue (stack : List Text) : Text := if stack = [] then ['.', '.'] else []

def comesBack : List Text → List Text → Bool
  | stack, [] => stack = []
  | stack, name :: more => comesBack (visit climb stack (glue stack ++ name)) more

def restored : Text → Bool
  | '.' :: '/' :: text => restored text
  | '.' :: '.' :: text => !comesBack [] (segments text)
  | '.' :: _ :: _ => true
  | _ => false

def Anchored : List Text → Prop
  | [] => True
  | [bottom] => ['.', '.'] <+: bottom
  | _ :: next :: below => Anchored (next :: below)

theorem Anchored.cons (anchored : Anchored stack) (begins : stack = [] → ['.', '.'] <+: name) :
    Anchored (name :: stack) := by
  match stack with
  | [] => exact begins rfl
  | next :: below => exact anchored

theorem Anchored.tail {top : Text} (anchored : Anchored (top :: stack)) : Anchored stack := by
  match stack with
  | [] => trivial
  | next :: below => exact anchored

theorem Anchored.climb (anchored : Anchored stack) : Anchored (climb stack) := by
  match stack with
  | [] => trivial
  | [[]] => trivial
  | [] :: next :: below => exact anchored.tail.tail
  | (first :: rest) :: below => exact anchored.tail

theorem Anchored.flat (anchored : Anchored stack) (some : stack ≠ []) :
    ['.', '.'] <+: flat stack := by
  induction stack with
  | nil => exact absurd rfl some
  | cons top below ih =>
    match below with
    | [] => exact List.IsPrefix.trans anchored ⟨['/'], by simp [UriUtil.flat]⟩
    | next :: below =>
      have inner := ih anchored (List.cons_ne_nil _ _)
      rw [UriUtil.flat, List.append_assoc]
      exact inner.trans (List.prefix_append _ _)

theorem Anchored.not_shallow (anchored : Anchored stack) (some : stack ≠ []) :
    shallow stack = false := by
  rw [shallow_eq_false]
  rintro (none | rfl)
  · exact some none
  · cases List.prefix_nil.mp anchored

theorem glue_nil : glue [] = ['.', '.'] := rfl

theorem glue_some (some : stack ≠ []) : glue stack = [] := if_neg some

theorem plain_glue (stack : List Text) (plain : '/' ∉ name) : '/' ∉ glue stack ++ name := by
  unfold glue
  split <;> simp [plain]

theorem join_append (front name : Text) (more : List Text) :
    front ++ join (name :: more) = join ((front ++ name) :: more) := by
  cases more with
  | nil => rfl
  | cons next more => simp [join]

theorem take_of_length {front tail : Text} {size : Nat} (same : size = front.length) :
    (front ++ tail).take size = front := by
  rw [same, List.take_left]

theorem passes_climb (plain : ∀ name ∈ stack, '/' ∉ name) (anchored : Anchored stack)
    (some : stack ≠ []) :
    Passes (leadOf origin ['.']).length post (rootOf origin ++ flat stack)
      (join (['.', '.'] :: more)) (rootOf origin ++ flat (climb stack))
      (glue (climb stack) ++ join more) := by
  have cut : Cut (join (['.', '.'] :: more)) ['.', '.'] (if more = [] then [] else ['/'])
      (join more) := cut_join (by decide) more
  obtain ⟨word, first, second, passed, plainWord⟩ := flat_climb plain (anchored.not_shallow some)
  have boundary := boundary_flat (boundary_root origin) (climb stack)
  have shape : rootOf origin ++ flat stack =
      rootOf origin ++ flat (climb stack) ++ word ++ [first, second] := by
    rw [passed]
    simp
  have deep : 2 ≤ (rootOf origin ++ flat stack).length := by
    simp [rootOf]
    omega
  have start := (prevSegmentStart_eq deep (join (['.', '.'] :: more)) post).trans
    (parentStart_of_boundary first second boundary shape plainWord)
  obtain ⟨behind, dots⟩ := anchored.flat some
  have length := length_leadOf_dot origin
  -- At the root the limit of what is erased stands behind the two dots.
  have kept : rootOf origin ++ flat (climb stack) ++ glue (climb stack) <+:
        rootOf origin ++ flat stack ∧
      (rootOf origin ++ flat (climb stack) ++ glue (climb stack)).length =
        max (rootOf origin ++ flat (climb stack)).length (leadOf origin ['.']).length := by
    by_cases root : climb stack = []
    · rw [root, glue_nil, ← dots]
      refine ⟨⟨behind, by simp [flat]⟩, ?_⟩
      rw [length]
      simp [flat]
    · obtain ⟨inner, dots⟩ := anchored.climb.flat root
      rw [glue_some root, List.append_nil, shape]
      refine ⟨⟨word ++ [first, second], by simp⟩, ?_⟩
      rw [length, ← dots]
      simp
  obtain ⟨⟨tail, whole⟩, size⟩ := kept
  have longer := congrArg List.length whole
  rw [List.length_append, size] at longer
  refine .dotDot cut start ?_ ?_ (.inl ?_)
  · simp only [List.length_append] at longer ⊢
    omega
  · rw [← whole, List.append_assoc, List.append_assoc _ tail]
    exact take_of_length size.symm
  · simp only [List.length_append, List.length_cons, List.length_nil] at longer ⊢
    omega

theorem passes_stray (plainStack : ∀ name ∈ stack, '/' ∉ name) (plain : '/' ∉ name)
    (anchored : Anchored stack) (apart : stack = [] → name ≠ [])
    (goesOn : Dots (glue stack ++ name) ∨ more ≠ []) :
    Passes (leadOf origin ['.']).length post (rootOf origin ++ flat stack)
      (glue stack ++ join (name :: more))
      (rootOf origin ++ flat (visit climb stack (glue stack ++ name)))
      (glue (visit climb stack (glue stack ++ name)) ++ join more) := by
  have plainGlued : '/' ∉ glue stack ++ name := plain_glue stack plain
  have cut := cut_join plainGlued more
  rw [join_append]
  by_cases dots : Dots (glue stack ++ name)
  · have some : stack ≠ [] := by
      rintro rfl
      obtain ⟨first, rest, rfl⟩ := List.exists_cons_of_ne_nil (apart rfl)
      rcases dots with dots | dots <;> simp [glue_nil] at dots
    rw [glue_some some, List.nil_append] at cut dots ⊢
    obtain rfl | rfl := dots
    · have visited : visit climb stack ['.'] = stack := rfl
      rw [visited, glue_some some]
      exact .dot cut
    · exact passes_climb plainStack anchored some
  · rw [visit_named climb stack dots, glue_some (List.cons_ne_nil _ _), List.nil_append]
    rw [if_neg (goesOn.resolve_left dots)] at cut
    have passes : Passes (leadOf origin ['.']).length post (rootOf origin ++ flat stack)
        (join ((glue stack ++ name) :: more))
        (rootOf origin ++ flat stack ++ (glue stack ++ name) ++ ['/']) (join more) := .named cut dots
    simpa [flat] using passes

theorem passes_restart (plainOrigin : '/' ∉ origin) (post : Text) (some : more ≠ []) :
    Passes (leadOf origin ['.']).length post (rootOf origin) (['.', '.'] ++ join ([] :: more)) []
      (rootOf origin ++ (['.', '.'] ++ join more)) := by
  have cut : Cut (['.', '.'] ++ join ([] :: more)) ['.', '.'] ['/'] (join more) :=
    ⟨by simp [join_cons [] some], by decide, .inl rfl⟩
  have deep : 2 ≤ (rootOf origin).length := by simp [rootOf]
  have start : parentStart (rootOf origin) = ([] : Text).length := parentStart_root plainOrigin
  have width : max ([] : Text).length (leadOf origin ['.']).length =
      (rootOf origin ++ ['.', '.']).length := by
    rw [length_leadOf_dot]
    simp
  have passes : Passes (leadOf origin ['.']).length post (rootOf origin)
      (['.', '.'] ++ join ([] :: more)) [] (rootOf origin ++ ['.', '.'] ++ join more) := by
    refine .dotDot cut ((prevSegmentStart_eq deep _ post).trans start) ?_ ?_ (.inl ?_)
    · rw [width]
      simp
    · rw [List.nil_append]
      exact take_of_length width
    · rw [width]
      simp
  rwa [List.append_assoc] at passes

theorem passes_origin (plainOrigin : '/' ∉ origin) (namedOrigin : ¬ Dots origin) (offset : Nat)
    (post text : Text) :
    Passes offset post [] (rootOf origin ++ text) (origin ++ ['/']) ('/' :: text) := by
  have shape : rootOf origin ++ text = origin ++ '/' :: '/' :: text := by simp [rootOf]
  rw [shape]
  exact .named (cut_slash plainOrigin ('/' :: text)) namedOrigin

theorem passes_slash (offset : Nat) (origin post text : Text) :
    Passes offset post (origin ++ ['/']) ('/' :: text) (rootOf origin) text := by
  have shape : rootOf origin = origin ++ ['/'] ++ [] ++ ['/'] := by simp [rootOf]
  rw [shape]
  exact .named (cut_slash List.not_mem_nil text) (by decide)

inductive Strays (origin : Text) : Text → Text → Prop
  | walks (stack names : List Text) (plainStack : ∀ name ∈ stack, '/' ∉ name)
      (plain : ∀ name ∈ names, '/' ∉ name) (anchored : Anchored stack)
      (leaves : comesBack stack names = false) :
      Strays origin (rootOf origin ++ flat stack) (glue stack ++ join names)
  | start (names : List Text) (plain : ∀ name ∈ names, '/' ∉ name)
      (leaves : comesBack [] names = false) :
      Strays origin [] (rootOf origin ++ (['.', '.'] ++ join names))
  | slash (names : List Text) (plain : ∀ name ∈ names, '/' ∉ name)
      (leaves : comesBack [] names = false) :
      Strays origin (origin ++ ['/']) ('/' :: (['.', '.'] ++ join names))

theorem Strays.root (plain : ∀ name ∈ names, '/' ∉ name) (leaves : comesBack [] names = false) :
    Strays origin (rootOf origin) (['.', '.'] ++ join names) := by
  have walks : Strays origin (rootOf origin ++ flat []) (glue [] ++ join names) :=
    .walks [] names nofun plain trivial leaves
  rwa [flat, List.append_nil] at walks

theorem anchored_visit (anchored : Anchored stack) :
    Anchored (visit climb stack (glue stack ++ name)) := by
  unfold visit
  split
  · exact anchored
  · split
    · exact anchored.climb
    · refine anchored.cons ?_
      rintro rfl
      exact List.prefix_append _ _

theorem guides_of_strays (plainOrigin : '/' ∉ origin) (namedOrigin : ¬ Dots origin) (post : Text) :
    Guides (leadOf origin ['.']).length post (Strays origin) := by
  intro front rest strays
  cases strays with
  | walks stack names plainStack plain anchored leaves =>
    cases names with
    | nil =>
      have some : stack ≠ [] := by simpa [comesBack] using leaves
      rw [glue_some some]
      exact .inr ⟨⟨rfl, List.not_mem_nil, .inr ⟨rfl, rfl⟩⟩, by decide⟩
    | cons name more =>
      obtain ⟨plainName, plainMore⟩ := List.forall_mem_cons.mp plain
      by_cases alone : stack = [] ∧ name = []
      · obtain ⟨rfl, rfl⟩ := alone
        have some : more ≠ [] := by
          rintro rfl
          exact absurd leaves (by decide)
        rw [flat, List.append_nil]
        exact .inl ⟨_, _, passes_restart plainOrigin post some, .start more plainMore leaves⟩
      · have plainGlued : '/' ∉ glue stack ++ name := plain_glue stack plainName
        by_cases goesOn : Dots (glue stack ++ name) ∨ more ≠ []
        · refine .inl ⟨_, _, passes_stray plainStack plainName anchored
            (fun none nothing => alone ⟨none, nothing⟩) goesOn, ?_⟩
          exact .walks _ more (plain_visit climb (fun _ _ => mem_of_mem_climb) plainGlued plainStack)
            plainMore (anchored_visit anchored) leaves
        · simp only [not_or, ne_eq, not_not] at goesOn
          obtain ⟨named, rfl⟩ := goesOn
          exact .inr ⟨cut_join plainGlued [], named⟩
  | start names plain leaves =>
    exact .inl ⟨_, _, passes_origin plainOrigin namedOrigin _ post _, .slash names plain leaves⟩
  | slash names plain leaves =>
    exact .inl ⟨_, _, passes_slash _ origin post _, .root plain leaves⟩

theorem Strays.keeps_dot (strays : Strays origin front rest) :
    rootOf origin ++ ['.'] <+: front ++ rest := by
  cases strays with
  | walks stack names plainStack plain anchored leaves =>
    rw [List.append_assoc, List.prefix_append_right_inj]
    by_cases none : stack = []
    · rw [none]
      exact ⟨'.' :: join names, rfl⟩
    · obtain ⟨behind, dots⟩ := anchored.flat none
      exact ⟨'.' :: (behind ++ (glue stack ++ join names)), by rw [← dots]; rfl⟩
  | start names plain leaves => exact ⟨'.' :: join names, by simp⟩
  | slash names plain leaves => exact ⟨'.' :: join names, by simp [rootOf]⟩

theorem reaches_back (plainOrigin : '/' ∉ origin) (namedOrigin : ¬ Dots origin)
    (plainStack : ∀ name ∈ stack, '/' ∉ name) (plain : ∀ name ∈ names, '/' ∉ name)
    (anchored : Anchored stack) (back : comesBack stack names = true) :
    (dotLoop (leadOf origin ['.']).length).Reaches
      (scanAt (rootOf origin ++ flat stack) (glue stack ++ join names) post)
      (scanAt (rootOf origin) ['.', '.'] post) := by
  induction names generalizing stack with
  | nil =>
    obtain rfl : stack = [] := by simpa [comesBack] using back
    rw [flat, List.append_nil]
    exact .refl
  | cons name more ih =>
    obtain ⟨plainName, plainMore⟩ := List.forall_mem_cons.mp plain
    have plainGlued : '/' ∉ glue stack ++ name := plain_glue stack plainName
    have later := ih (plain_visit climb (fun _ _ => mem_of_mem_climb) plainGlued plainStack)
      plainMore (anchored_visit anchored) back
    by_cases alone : stack = [] ∧ name = []
    · obtain ⟨rfl, rfl⟩ := alone
      by_cases last : more = []
      · rw [last, flat, List.append_nil]
        exact .refl
      · have again := ((passes_restart plainOrigin post last).path.trans
          (passes_origin plainOrigin namedOrigin _ post _).path).trans
          (passes_slash _ origin post (['.', '.'] ++ join more)).path
        have root : visit climb [] (glue [] ++ []) = [] := rfl
        rw [root, flat, List.append_nil] at later
        rw [flat, List.append_nil]
        exact again.to_reflTransGen.trans later
    · by_cases goesOn : Dots (glue stack ++ name) ∨ more ≠ []
      · have passes : Passes (leadOf origin ['.']).length post _ _ _ _ :=
          passes_stray plainStack plainName anchored (fun none nothing => alone ⟨none, nothing⟩) goesOn
        exact passes.path.to_reflTransGen.trans later
      · simp only [not_or, ne_eq, not_not] at goesOn
        obtain ⟨named, rfl⟩ := goesOn
        rw [comesBack, visit_named climb stack named] at back
        cases back

/-! What takes the place of the authority -/

theorem root_flat (origin : Text) : rootOf origin = flat [[], origin] := by simp [rootOf, flat]

theorem undotted_root {word : Text} (plainOrigin : '/' ∉ origin) (namedOrigin : ¬ Dots origin)
    (plain : '/' ∉ word)
    (named : ∀ middle segment separator later,
      Cut (word ++ middle) segment separator later → ¬ Dots segment) :
    Undotted (rootOf origin ++ word) := by
  have root : Undotted (rootOf origin) := by
    rw [root_flat]
    refine undotted_flat ?_ ?_
    · simp [plainOrigin]
    · simp only [List.forall_mem_cons]
      exact ⟨by decide, namedOrigin, List.forall_mem_nil _⟩
  intro front tail whole some boundary middle segment separator later cut
  obtain ⟨inner, rfl, split⟩ | ⟨outer, split, rfl⟩ := List.append_eq_append_iff.mp whole
  · -- Behind the root there is no other boundary.
    obtain rfl | ⟨init, last, rfl⟩ := List.eq_nil_or_concat inner
    · rw [List.nil_append] at split
      rw [← split] at cut
      exact named middle _ _ _ cut
    · obtain bare | ⟨before, ends⟩ := boundary
      · simp at bare
      · rw [List.concat_eq_append, ← List.append_assoc] at ends
        have slash : last = '/' := List.singleton_inj.mp (List.append_inj_right' ends rfl)
        exact absurd (by rw [split, slash]; simp) plain
  · by_cases none : outer = []
    · rw [none, List.nil_append] at cut
      exact named middle _ _ _ cut
    · rw [List.append_assoc] at cut
      exact root front outer split none boundary _ _ _ _ cut

theorem undotted_dot {second : Char} (plainOrigin : '/' ∉ origin) (namedOrigin : ¬ Dots origin)
    (slash : second ≠ '/') (dot : second ≠ '.') : Undotted (rootOf origin ++ ['.', second]) := by
  refine undotted_root plainOrigin namedOrigin (by simp [slash.symm]) ?_
  intro middle segment separator later cut
  have plain : '/' ∉ ['.', second] := by simp [slash.symm]
  have begins : segment = ['.', second] ++ middle.takeWhile inSegment := by
    rw [cut.segment_eq, List.takeWhile_append_of_pos (inSegment_of_plain plain)]
  rintro (rfl | rfl)
  · simp at begins
  · simp only [List.cons_append, List.nil_append, List.cons.injEq] at begins
    exact dot begins.2.1.symm

theorem undotted_other {first : Char} (plainOrigin : '/' ∉ origin) (namedOrigin : ¬ Dots origin)
    (dot : first ≠ '.') : Undotted (rootOf origin ++ [first]) := by
  by_cases slash : first = '/'
  · subst slash
    have shape : rootOf origin ++ ['/'] = flat [[], [], origin] := by simp [rootOf, flat]
    rw [shape]
    refine undotted_flat ?_ ?_
    · simp [plainOrigin]
    · simp only [List.forall_mem_cons]
      exact ⟨by decide, by decide, namedOrigin, List.forall_mem_nil _⟩
  · have plain : '/' ∉ [first] := by simp [Ne.symm slash]
    refine undotted_root plainOrigin namedOrigin plain ?_
    intro middle segment separator later cut
    have begins : segment = [first] ++ middle.takeWhile inSegment := by
      rw [cut.segment_eq, List.takeWhile_append_of_pos (inSegment_of_plain plain)]
    rintro (rfl | rfl) <;>
      · simp only [List.cons_append, List.cons.injEq] at begins
        exact dot begins.1.symm

theorem guides_of_root {word : Text} (undotted : Undotted (rootOf origin ++ word))
    (some : 1 ≤ word.length) (short : word.length ≤ 2) (post : Text) :
    Guides (leadOf origin ['.']).length post (Keeps (rootOf origin ++ word)) := by
  have length := length_leadOf_dot origin
  have deep : 2 ≤ (rootOf origin).length := by simp [rootOf]
  refine guides_of_undotted undotted (by simp [rootOf]) ?_ ?_ ?_ post
  · intro slash
    have size := congrArg List.length slash
    rw [List.length_append, List.length_singleton] at size
    omega
  · rw [length, List.length_append]
    omega
  · rw [length, List.length_append]
    omega

theorem keeps_root (origin word later : Text) :
    Keeps (rootOf origin ++ word) (rootOf origin) (word ++ later) := by
  refine .of_boundary (by simp [rootOf]) ?_ (boundary_root origin) ?_
  · intro slash
    have size := congrArg List.length slash
    simp [rootOf] at size
    omega
  · rw [← List.append_assoc]
    exact List.prefix_append _ _

theorem restored_cases (holds : restored text = true) :
    (∃ later, text = '.' :: '/' :: later ∧ restored later = true) ∨
    (∃ later, text = '.' :: '.' :: later ∧ comesBack [] (segments later) = false) ∨
    ∃ second later, text = '.' :: second :: later ∧ second ≠ '/' ∧ second ≠ '.' := by
  unfold restored at holds
  split at holds
  · exact .inl ⟨_, rfl, holds⟩
  · exact .inr (.inl ⟨_, rfl, by simpa using holds⟩)
  · next second later slash dot =>
    exact .inr (.inr ⟨second, later, rfl, slash, dot⟩)
  · cases holds

theorem restored_dot (holds : restored text = true) : ['.'] <+: text := by
  obtain ⟨later, rfl, -⟩ | ⟨later, rfl, -⟩ | ⟨second, later, rfl, -⟩ := restored_cases holds
  · exact ⟨'/' :: later, rfl⟩
  · exact ⟨'.' :: later, rfl⟩
  · exact ⟨second :: later, rfl⟩

def Rejoins (stack names : List Text) : Prop :=
  ∀ more ∈ meets shallow stack names, restored (join more) = true

inductive Stays (origin : Text) : Text → Text → Prop
  | walks {front rest : Text} (walks : Walks (leadOf origin ['.']) Rejoins front rest) :
      Stays origin front rest
  | erased {text : Text} (holds : restored text = true) : Stays origin (rootOf origin) text
  | strays {front rest : Text} (strays : Strays origin front rest) : Stays origin front rest
  | keeps {front rest : Text} (second : Char) (slash : second ≠ '/') (dot : second ≠ '.')
      (keeps : Keeps (rootOf origin ++ ['.', second]) front rest) : Stays origin front rest

theorem passes_root (origin post : Text) (more : List Text) (root : shallow stack = true) :
    Passes (leadOf origin ['.']).length post (leadOf origin ['.'] ++ flat stack)
      (join (['.', '.'] :: more)) (rootOf origin) ('.' :: '/' :: join more) := by
  have cut : Cut (join (['.', '.'] :: more)) ['.', '.'] (if more = [] then [] else ['/'])
      (join more) := cut_join (by decide) more
  have lead : leadOf origin ['.'] = rootOf origin ++ ['.', '/'] := by simp [leadOf]
  obtain ⟨word, first, second, passed, plain⟩ : ∃ word first second,
      leadOf origin ['.'] ++ flat stack = rootOf origin ++ word ++ [first, second] ∧
        '/' ∉ word := by
    obtain rfl | rfl : stack = [] ∨ stack = [[]] := by simpa [shallow] using root
    · exact ⟨[], '.', '/', by simp [lead, flat], List.not_mem_nil⟩
    · exact ⟨['.'], '/', '/', by simp [lead, flat], by decide⟩
  have deep : 2 ≤ (leadOf origin ['.'] ++ flat stack).length := by
    simp [lead]
    omega
  have start := (prevSegmentStart_eq deep (join (['.', '.'] :: more)) post).trans
    (parentStart_of_boundary first second (boundary_root origin) passed plain)
  have width : max (rootOf origin).length (leadOf origin ['.']).length =
      (leadOf origin ['.']).length := by
    rw [length_leadOf_dot]
    omega
  have passes : Passes (leadOf origin ['.']).length post (leadOf origin ['.'] ++ flat stack)
      (join (['.', '.'] :: more)) (rootOf origin) (['.', '/'] ++ join more) := by
    refine .dotDot cut start ?_ ?_ (.inl ?_) <;> rw [width]
    · simp
    · rw [List.append_assoc, List.append_assoc, List.take_left, lead]
    · simp only [List.length_append, List.length_cons]
      omega
  exact passes

theorem guides_of_stays (plainOrigin : '/' ∉ origin) (namedOrigin : ¬ Dots origin) (post : Text) :
    Guides (leadOf origin ['.']).length post (Stays origin) := by
  intro front rest stays
  cases stays with
  | walks walks =>
    obtain ⟨stack, names, rfl, rfl, some, plainStack, plain, goes⟩ := walks
    obtain ⟨segment, more, rfl⟩ := List.exists_cons_of_ne_nil some
    by_cases met : segment = ['.', '.'] ∧ shallow stack = true
    · have holds : restored (join more) = true := goes more (if_pos met)
      obtain ⟨rfl, root⟩ := met
      exact .inl ⟨_, _, passes_root origin post more root, .erased (by rwa [restored])⟩
    · have deep (up : segment = ['.', '.']) : shallow stack = false := by simpa [up] using met
      have later : Rejoins (visit climb stack segment) (orEmpty more) := by
        rw [Rejoins, meets_orEmpty, ← meets_of_named met]
        exact goes
      obtain ⟨front', rest', passes, walks⟩ | ends :=
        walks_on post (.inr (slash_ends_lead origin ['.'])) plainStack plain deep later
      · exact .inl ⟨front', rest', passes, .walks walks⟩
      · exact .inr ends
  | erased holds =>
    obtain ⟨later, rfl, again⟩ | ⟨later, rfl, leaves⟩ | ⟨second, later, rfl, slash, dot⟩ :=
      restored_cases holds
    · have plain : '/' ∉ (['.'] : Text) := by decide
      have cut : Cut ('.' :: '/' :: later) ['.'] ['/'] later := cut_slash plain later
      exact .inl ⟨_, _, .dot cut, .erased again⟩
    · have strays : Strays origin (rootOf origin) (['.', '.'] ++ join (segments later)) :=
        .root (fun _ => slash_notMem_of_mem_segments) leaves
      rw [join_segments] at strays
      exact (guides_of_strays plainOrigin namedOrigin post _ _ strays).imp
        (fun ⟨front', rest', passes, strays⟩ => ⟨front', rest', passes, .strays strays⟩) id
    · have keeps : Keeps (rootOf origin ++ ['.', second]) (rootOf origin)
          (['.', second] ++ later) := keeps_root origin _ later
      have undotted := undotted_dot plainOrigin namedOrigin slash dot
      have short : ['.', second].length = 2 := rfl
      exact (guides_of_root undotted (by omega) (by omega) post _ _ keeps).imp
        (fun ⟨front', rest', passes, keeps⟩ => ⟨front', rest', passes, .keeps second slash dot keeps⟩)
        id
  | strays strays =>
    exact (guides_of_strays plainOrigin namedOrigin post _ _ strays).imp
      (fun ⟨front', rest', passes, strays⟩ => ⟨front', rest', passes, .strays strays⟩) id
  | keeps second slash dot keeps =>
    have undotted := undotted_dot plainOrigin namedOrigin slash dot
    have short : ['.', second].length = 2 := rfl
    exact (guides_of_root undotted (by omega) (by omega) post _ _ keeps).imp
      (fun ⟨front', rest', passes, keeps⟩ => ⟨front', rest', passes, .keeps second slash dot keeps⟩) id

theorem Stays.keeps_dot (stays : Stays origin front rest) :
    rootOf origin ++ ['.'] <+: front ++ rest := by
  cases stays with
  | walks walks =>
    obtain ⟨stack, names, rfl, -⟩ := walks
    have lead : leadOf origin ['.'] = rootOf origin ++ ['.'] ++ ['/'] := rfl
    rw [lead, List.append_assoc, List.append_assoc]
    exact List.prefix_append _ _
  | erased holds => exact (List.prefix_append_right_inj _).mpr (restored_dot holds)
  | strays strays => exact strays.keeps_dot
  | keeps second slash dot keeps => exact .trans ⟨[second], by simp⟩ keeps.whole

theorem safe_of_restored {path : Text} (plainOrigin : '/' ∉ origin) (namedOrigin : ¬ Dots origin)
    (rejoins : Rejoins [] (segments path)) (post : Text) :
    (callOf (rootOf origin ++ ['.']) ('/' :: path) post).Safe := by
  have filled : '/' :: path ≠ [] := List.cons_ne_nil _ _
  have start : startOf (rootOf origin ++ ['.']) ('/' :: path) = (leadOf origin ['.'], path) := rfl
  have guides : Guides (startOf (rootOf origin ++ ['.']) ('/' :: path)).1.length post
      (Stays origin) := guides_of_stays plainOrigin namedOrigin post
  rw [← pathStart_callOf post filled] at guides
  refine safe_of_guides filled guides ?_ fun _ _ stays => stays.keeps_dot
  rw [start]
  exact .walks (Walks.start _ _ rejoins)

/-! An authority that is lost -/

theorem dots_cycle (plainOrigin : '/' ∉ origin) (namedOrigin : ¬ Dots origin) (post : Text) :
    Relation.TransGen (dotLoop (leadOf origin ['.']).length).Steps
      (scanAt (rootOf origin) ['.', '.'] post) (scanAt (rootOf origin) ['.', '.'] post) := by
  have cut : Cut ['.', '.'] ['.', '.'] [] [] := ⟨rfl, by decide, .inr ⟨rfl, rfl⟩⟩
  have deep : 2 ≤ (rootOf origin).length := by simp [rootOf]
  have start : parentStart (rootOf origin) = ([] : Text).length := parentStart_root plainOrigin
  have width : max ([] : Text).length (leadOf origin ['.']).length =
      (rootOf origin ++ ['.', '.'] ++ []).length := by
    rw [length_leadOf_dot]
    simp
  have back : Relation.TransGen (dotLoop (leadOf origin ['.']).length).Steps
      (scanAt (rootOf origin) ['.', '.'] post)
      (scanAt [] (rootOf origin ++ ['.', '.'] ++ [] ++ []) post) := by
    refine cut.dotDot_path deep start width.le ?_
    rw [width, List.take_length, List.nil_append]
  rw [List.append_nil, List.append_nil] at back
  exact (back.trans (passes_origin plainOrigin namedOrigin _ post _).path).trans
    (passes_slash _ origin post ['.', '.']).path

theorem lost_of_head {first : Char} (plainOrigin : '/' ∉ origin) (namedOrigin : ¬ Dots origin)
    (dot : first ≠ '.') (later : Text) {final : DotScan}
    (returns : (dotLoop (leadOf origin ['.']).length).Returns .diverges
      (scanAt (rootOf origin) (first :: later) post) final) :
    ¬ rootOf origin ++ ['.'] <+: final.uri := by
  have short : [first].length = 1 := rfl
  have guides := guides_of_root (undotted_other plainOrigin namedOrigin dot) (by omega) (by omega) post
  have keeps : Keeps (rootOf origin ++ [first]) (rootOf origin) ([first] ++ later) :=
    keeps_root origin _ later
  obtain ⟨-, other, front, rest, settles, kept, uri⟩ := guides.settles keeps
  obtain rfl : other = final := returns.unique settles
  intro dotted
  rw [uri] at dotted
  have begins := kept.whole.trans (List.prefix_append (front ++ rest) post)
  have same := (List.prefix_of_prefix_length_le begins dotted (by simp)).eq_of_length (by simp)
  exact dot (List.singleton_inj.mp (List.append_cancel_left same))

theorem lost_of_empty (other : post.head? ≠ some '.') {final : DotScan}
    (returns : (dotLoop (leadOf origin ['.']).length).Returns .diverges
      (scanAt (rootOf origin) [] post) final) :
    ¬ rootOf origin ++ ['.'] <+: final.uri := by
  have cut : Cut [] [] [] [] := ⟨rfl, List.not_mem_nil, .inr ⟨rfl, rfl⟩⟩
  obtain ⟨last, reaches, stopped, uri⟩ := cut.named_last (by decide)
  obtain rfl := (Loop.returns_iff_of_stopped stopped).mp
    ((Loop.returns_iff_of_reaches reaches).mp returns)
  rw [uri, List.append_nil, List.prefix_append_right_inj]
  rintro ⟨rest, rfl⟩
  exact other rfl

/-- What does not begin with a dot again, or never settles for the one it begins with, is lost. -/
theorem lost_of_not_restored (plainOrigin : '/' ∉ origin) (namedOrigin : ¬ Dots origin)
    (other : post.head? ≠ some '.') (lost : restored text = false) {final : DotScan}
    (returns : (dotLoop (leadOf origin ['.']).length).Returns .diverges
      (scanAt (rootOf origin) text post) final) :
    ¬ rootOf origin ++ ['.'] <+: final.uri := by
  fun_induction restored text with
  | case1 text ih =>
    have plain : '/' ∉ (['.'] : Text) := by decide
    exact ih lost ((Loop.returns_iff_of_reaches
      (cut_slash plain text).dot_path.to_reflTransGen).mp returns)
  | case2 text =>
    have ends : comesBack [] (segments text) = true := by simpa using lost
    have anchored : Anchored [] := trivial
    have back : (dotLoop (leadOf origin ['.']).length).Reaches
        (scanAt (rootOf origin ++ flat []) (['.', '.'] ++ join (segments text)) post)
        (scanAt (rootOf origin) ['.', '.'] post) :=
      reaches_back plainOrigin namedOrigin (List.forall_mem_nil _)
        (fun _ => slash_notMem_of_mem_segments) anchored ends
    rw [flat, List.append_nil, join_segments] at back
    exact absurd ((Loop.returns_iff_of_reaches back).mp returns)
      (Loop.not_returns_of_cycle (dots_cycle plainOrigin namedOrigin post))
  | case3 => cases lost
  | case4 text slash dots dotted =>
    obtain _ | ⟨first, _ | ⟨second, later⟩⟩ := text
    · exact lost_of_empty other returns
    · by_cases dot : first = '.'
      · subst dot
        have cut : Cut ['.'] ['.'] [] [] := ⟨rfl, by decide, .inr ⟨rfl, rfl⟩⟩
        exact lost_of_empty other
          ((Loop.returns_iff_of_reaches cut.dot_path.to_reflTransGen).mp returns)
      · exact lost_of_head plainOrigin namedOrigin dot [] returns
    · refine lost_of_head plainOrigin namedOrigin ?_ (second :: later) returns
      rintro rfl
      exact dotted second later rfl

end NDash.Util.UriUtil
