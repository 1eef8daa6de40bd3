import NDash.Util.UriUtilSafety

set_option autoImplicit false

namespace NDash.Util.UriUtil

open Machine Uri

variable {offset : Nat} {lead front rest post segment separator later : Text}

theorem parentStart_boundary (front : Text) :
    ∃ front', parentStart front = front'.length ∧ front' <+: front.take (front.length - 2) ∧
      Boundary front' := by
  by_cases slash : '/' ∈ front.take (front.length - 2)
  · obtain ⟨before, word, passed, plain⟩ := last_slash slash
    refine ⟨before ++ ['/'], ?_, ⟨word, by rw [passed]; simp⟩, .inr ⟨before, rfl⟩⟩
    rw [parentStart_eq passed plain, List.length_append, List.length_singleton]
  · exact ⟨[], parentStart_zero slash, List.nil_prefix, .inl rfl⟩

/-! Leads that are passed unchanged when they are read as segments -/

def Undotted (lead : Text) : Prop :=
  ∀ front tail, lead = front ++ tail → tail ≠ [] → Boundary front →
    ∀ middle segment separator later, Cut (tail ++ middle) segment separator later → ¬ Dots segment

theorem undotted_top {top : Text} (plain : '/' ∉ top) (named : ¬ Dots top) (middle : Text)
    (cut : Cut (top ++ ['/'] ++ middle) segment separator later) : ¬ Dots segment := by
  rw [List.append_assoc, List.singleton_append] at cut
  obtain ⟨rfl, -, -⟩ := (cut_slash plain middle).unique cut
  exact named

theorem undotted_flat {stack : List Text} (plain : ∀ name ∈ stack, '/' ∉ name)
    (named : ∀ name ∈ stack, ¬ Dots name) : Undotted (flat stack) := by
  induction stack with
  | nil =>
    intro front tail whole some
    exact absurd (List.append_eq_nil_iff.mp whole.symm).2 some
  | cons top below ih =>
    obtain ⟨plainTop, plain⟩ := List.forall_mem_cons.mp plain
    obtain ⟨namedTop, named⟩ := List.forall_mem_cons.mp named
    intro front tail whole some boundary middle segment separator later cut
    rw [flat, List.append_assoc] at whole
    obtain ⟨rest, outer, inner⟩ | ⟨word, outer, inner⟩ := List.append_eq_append_iff.mp whole.symm
    · rw [inner] at cut
      cases rest with
      | nil =>
        rw [List.nil_append] at cut
        exact undotted_top plainTop namedTop middle cut
      | cons first rest =>
        rw [List.append_assoc] at cut
        exact ih plain named front _ outer (List.cons_ne_nil _ _) boundary _ _ _ _ cut
    · -- A boundary within the innermost name could only stand in front of it.
      have start : word = [] := by
        obtain rfl | ⟨init, last, rfl⟩ := List.eq_nil_or_concat word
        · rfl
        · have slash : last = '/' := by
            obtain bare | ⟨before, ends⟩ := boundary
            · rw [outer] at bare
              simp at bare
            · rw [outer, List.concat_eq_append, ← List.append_assoc] at ends
              exact List.singleton_inj.mp (List.append_inj_right' ends rfl)
          obtain ⟨front', last', rfl⟩ := List.eq_nil_or_concat tail |>.resolve_left some
          rw [List.concat_eq_append, List.concat_eq_append, slash, ← List.append_assoc] at inner
          have inside := List.append_inj_left' inner rfl
          exact absurd (show '/' ∈ top by rw [inside]; simp) plainTop
      rw [start, List.nil_append] at inner
      rw [← inner] at cut
      exact undotted_top plainTop namedTop middle cut

theorem undotted_colon {scheme : Text} (plain : '/' ∉ scheme) : Undotted (scheme ++ [':']) := by
  intro front tail whole some boundary middle segment separator later cut
  have plainLead : '/' ∉ scheme ++ [':'] := by simp [plain]
  obtain rfl | ⟨before, rfl⟩ := boundary
  · obtain rfl : scheme ++ [':'] = tail := whole
    have inside : ':' ∈ segment := by
      rw [cut.segment_eq, List.takeWhile_append_of_pos (inSegment_of_plain plainLead)]
      simp
    rintro (rfl | rfl) <;> simp at inside
  · rw [whole] at plainLead
    simp at plainLead

structure Keeps (lead front rest : Text) : Prop where
  whole : lead <+: front ++ rest
  stands : (lead <+: front ∧ 2 ≤ front.length) ∨ (front <+: lead ∧ front ≠ lead ∧ Boundary front)

theorem two_le_of_boundary (some : lead ≠ []) (unrooted : lead ≠ ['/']) {before : Text}
    (reached : lead <+: before ++ ['/']) : 2 ≤ (before ++ ['/']).length := by
  cases before with
  | nil =>
    obtain bare | whole := List.prefix_cons_iff.mp reached
    · exact absurd bare some
    · obtain ⟨rest, rfl, nothing⟩ := whole
      rw [List.prefix_nil.mp nothing] at unrooted
      exact absurd rfl unrooted
  | cons first before => simp

theorem Keeps.of_boundary (some : lead ≠ []) (unrooted : lead ≠ ['/']) (boundary : Boundary front)
    (whole : lead <+: front ++ rest) : Keeps lead front rest := by
  refine ⟨whole, ?_⟩
  obtain reached | inside := List.prefix_or_prefix_of_prefix whole (List.prefix_append front rest)
  · obtain rfl | ⟨before, rfl⟩ := boundary
    · exact absurd (List.prefix_nil.mp reached) some
    · exact .inl ⟨reached, two_le_of_boundary some unrooted reached⟩
  · by_cases same : front = lead
    · obtain rfl | ⟨before, rfl⟩ := boundary
      · exact absurd same.symm some
      · have reached : lead <+: before ++ ['/'] := same ▸ List.prefix_rfl
        exact .inl ⟨reached, two_le_of_boundary some unrooted reached⟩
    · exact .inr ⟨inside, same, boundary⟩

-- A `..` behind the lead goes back to a boundary; what it skips of the lead is kept.
theorem Keeps.up (some : lead ≠ []) (unrooted : lead ≠ ['/']) (reached : lead <+: front)
    (deep : 2 ≤ front.length) (outer : lead.length ≤ offset) (near : offset ≤ lead.length + 1)
    (cut : Cut rest ['.', '.'] separator later) :
    ∃ front' rest', Passes offset post front rest front' rest' ∧ Keeps lead front' rest' := by
  obtain ⟨front', start, inner, boundary⟩ := parentStart_boundary front
  have size := inner.length_le
  have reachedSize := reached.length_le
  rw [List.length_take] at size
  obtain ⟨word, rfl⟩ : front' <+: front := inner.trans (List.take_prefix _ _)
  have short : max front'.length offset < (front' ++ word ++ ['.', '.'] ++ separator).length := by
    simp only [List.length_append, List.length_cons, List.length_nil] at size reachedSize ⊢
    omega
  have leaves : (front' ++ word ++ ['.', '.'] ++ separator).take (max front'.length offset) =
      front' ++ (word ++ ['.', '.'] ++ separator).take (max front'.length offset - front'.length) := by
    rw [List.append_assoc, List.append_assoc front', List.take_append,
      List.take_of_length_le (Nat.le_max_left _ _), List.append_assoc word]
  refine ⟨_, _, .dotDot cut ((prevSegmentStart_eq deep rest post).trans start) short.le leaves
    (.inl short), .of_boundary some unrooted boundary ?_⟩
  have kept : lead <+: front' ++
      (word ++ ['.', '.'] ++ separator).take (max front'.length offset - front'.length) := by
    rw [← leaves, List.append_assoc]
    refine List.prefix_take_iff.mpr ⟨reached.trans (List.prefix_append _ _), ?_⟩
    exact outer.trans (Nat.le_max_right _ _)
  rw [← List.append_assoc]
  exact kept.trans (List.prefix_append _ _)

theorem guides_of_undotted (undotted : Undotted lead) (some : lead ≠ []) (unrooted : lead ≠ ['/'])
    (outer : lead.length ≤ offset) (near : offset ≤ lead.length + 1) (post : Text) :
    Guides offset post (Keeps lead) := by
  intro front rest keepsLead
  -- A name with its slash is passed over, wherever the loop stands.
  have pass {segment later : Text} (cut : Cut rest segment ['/'] later) (named : ¬ Dots segment) :
      ∃ front' rest', Passes offset post front rest front' rest' ∧ Keeps lead front' rest' := by
    refine ⟨_, _, .named cut named, .of_boundary some unrooted (.inr ⟨_, rfl⟩) ?_⟩
    have whole := keepsLead.whole
    rw [cut.whole] at whole
    simpa using whole
  obtain ⟨reached, deep⟩ | ⟨⟨tail, rfl⟩, apart, boundary⟩ := keepsLead.stands
  · have dots {segment separator later : Text} (cut : Cut rest segment separator later)
        (dots : Dots segment) : ∃ front' rest',
          Passes offset post front rest front' rest' ∧ Keeps lead front' rest' := by
      obtain rfl | rfl := dots
      · exact ⟨_, _, .dot cut, reached.trans (List.prefix_append _ _), .inl ⟨reached, deep⟩⟩
      · exact Keeps.up some unrooted reached deep outer near cut
    obtain ⟨segment, later, cut⟩ | cut := cut_cases rest
    · by_cases dotted : Dots segment
      · exact .inl (dots cut dotted)
      · exact .inl (pass cut dotted)
    · by_cases dotted : Dots rest
      · exact .inl (dots cut dotted)
      · exact .inr ⟨cut, dotted⟩
  · have ahead : tail ≠ [] := fun nothing => apart (by rw [nothing, List.append_nil])
    obtain ⟨middle, whole⟩ := keepsLead.whole
    rw [List.append_assoc] at whole
    obtain rfl := List.append_cancel_left whole
    have named {segment separator later : Text} :=
      undotted front tail rfl ahead boundary middle segment separator later
    obtain ⟨segment, later, cut⟩ | cut := cut_cases (tail ++ middle)
    · exact .inl (pass cut (named cut))
    · exact .inr ⟨cut, named cut⟩

theorem startOf_reaches (lead path : Text) : lead <+: (startOf lead path).1 := by
  unfold startOf
  split
  · exact List.prefix_append _ _
  · exact List.prefix_rfl

theorem safe_of_undotted {path : Text} (filled : path ≠ [])
    (undotted : Undotted (startOf lead path).1) (deep : 2 ≤ (startOf lead path).1.length)
    (post : Text) : (callOf lead path post).Safe := by
  have reached := startOf_reaches lead path
  have some : (startOf lead path).1 ≠ [] := fun none => by simp [none] at deep
  have unrooted : (startOf lead path).1 ≠ ['/'] := fun slash => by simp [slash] at deep
  have guides := guides_of_undotted undotted some unrooted (Nat.le_refl _) (Nat.le_succ _) post
  rw [← pathStart_callOf post filled] at guides
  refine safe_of_guides filled guides ?_ fun front rest keeps => reached.trans keeps.whole
  exact ⟨List.prefix_append _ _, .inl ⟨List.prefix_rfl, deep⟩⟩

/-! Walks by segments -/

theorem plain_orEmpty {more : List Text} (plain : ∀ name ∈ more, '/' ∉ name) :
    ∀ name ∈ orEmpty more, '/' ∉ name := by
  intro name member
  obtain rfl | member := mem_orEmpty member
  · exact List.not_mem_nil
  · exact plain name member

def meets (atRoot : List Text → Bool) : List Text → List Text → Option (List Text)
  | _, [] => none
  | stack, segment :: more =>
    if segment = ['.', '.'] ∧ atRoot stack = true then some more
    else meets atRoot (visit climb stack segment) more

def shallow (stack : List Text) : Bool := stack = [] || stack = [[]]

section Meets

variable {atRoot : List Text → Bool} {stack more names : List Text}

theorem meets_of_named (up : ¬ (segment = ['.', '.'] ∧ atRoot stack = true)) :
    meets atRoot stack (segment :: more) = meets atRoot (visit climb stack segment) more := by
  rw [meets, if_neg up]

theorem meets_orEmpty (stack more : List Text) :
    meets atRoot stack (orEmpty more) = meets atRoot stack more := by
  by_cases last : more = []
  · rw [last, orEmpty, if_pos rfl, meets_of_named (by simp)]
    rfl
  · rw [orEmpty, if_neg last]

theorem shallow_eq_false : shallow stack = false ↔ ¬ (stack = [] ∨ stack = [[]]) := by
  simp [shallow]

theorem flat_climb (plain : ∀ name ∈ stack, '/' ∉ name) (deep : shallow stack = false) :
    ∃ word first second, flat stack = flat (climb stack) ++ word ++ [first, second] ∧
      '/' ∉ word := by
  rw [shallow_eq_false] at deep
  match stack with
  | [] => exact absurd (.inl rfl) deep
  | [[]] => exact absurd (.inr rfl) deep
  | [] :: next :: below =>
    exact ⟨next, '/', '/', by simp [flat, climb], plain next (by simp)⟩
  | (first :: rest) :: below =>
    obtain ⟨init, last, split⟩ :=
      (List.eq_nil_or_concat (first :: rest)).resolve_left (List.cons_ne_nil _ _)
    rw [List.concat_eq_append] at split
    refine ⟨init, last, '/', by rw [flat, split]; simp [climb], fun slash => ?_⟩
    exact plain (first :: rest) (by simp) (by rw [split]; simp [slash])

theorem boundary_flat (boundary : Boundary lead) (stack : List Text) :
    Boundary (lead ++ flat stack) := by
  cases stack with
  | nil => rwa [flat, List.append_nil]
  | cons top below => exact .inr ⟨lead ++ flat below ++ top, by simp [flat]⟩

theorem passes_up {front' word : Text} (first second : Char) (boundary : Boundary front')
    (outer : offset ≤ front'.length) (passed : front = front' ++ word ++ [first, second])
    (plain : '/' ∉ word) (cut : Cut rest ['.', '.'] separator later) :
    Passes offset post front rest front' later := by
  have deep : 2 ≤ front.length := by
    rw [passed]
    simp only [List.length_append, List.length_cons]
    omega
  have start := parentStart_of_boundary first second boundary passed plain
  have short : front'.length ≤ (front ++ ['.', '.'] ++ separator).length := by
    rw [passed]
    simp only [List.length_append]
    omega
  have leaves : (front ++ ['.', '.'] ++ separator).take (max front'.length offset) =
      front' ++ [] := by
    rw [Nat.max_eq_left outer, passed]
    simp
  have passes : Passes offset post front rest front' ([] ++ later) := by
    refine .dotDot cut ((prevSegmentStart_eq deep rest post).trans start) ?_ leaves (.inl ?_)
    · rwa [Nat.max_eq_left outer]
    · rw [Nat.max_eq_left outer, passed]
      simp only [List.length_append, List.length_cons]
      omega
  exact passes

/-- Every segment but a name at the end is passed to the directory that it visits. -/
theorem passes_visit (boundary : Boundary lead)
    (plainStack : ∀ name ∈ stack, '/' ∉ name) (plain : '/' ∉ segment)
    (goesOn : Dots segment ∨ more ≠ []) (deep : segment = ['.', '.'] → shallow stack = false) :
    Passes lead.length post (lead ++ flat stack) (join (segment :: more))
      (lead ++ flat (visit climb stack segment)) (join (orEmpty more)) := by
  have cut := cut_join plain more
  rw [join_orEmpty]
  by_cases dots : Dots segment
  · obtain rfl | rfl := dots
    · exact .dot cut
    · obtain ⟨word, first, second, passed, plainWord⟩ := flat_climb plainStack (deep rfl)
      have visited : visit climb stack ['.', '.'] = climb stack := rfl
      rw [visited]
      refine passes_up first second (boundary_flat boundary (climb stack)) ?_ ?_ plainWord cut
      · rw [List.length_append]
        omega
      · rw [passed]
        simp
  · rw [visit_named climb stack dots]
    have some := goesOn.resolve_left dots
    rw [if_neg some] at cut
    have passes : Passes lead.length post (lead ++ flat stack) (join (segment :: more))
        (lead ++ flat stack ++ segment ++ ['/']) (join more) := .named cut dots
    simpa [flat] using passes

end Meets

def Walks (lead : Text) (goes : List Text → List Text → Prop) (front rest : Text) : Prop :=
  ∃ stack names, front = lead ++ flat stack ∧ rest = join names ∧ names ≠ [] ∧
    (∀ name ∈ stack, '/' ∉ name) ∧ (∀ name ∈ names, '/' ∉ name) ∧ goes stack names

section Walks

variable {goes : List Text → List Text → Prop} {stack more : List Text}

theorem Walks.start (lead rest : Text) (begins : goes [] (segments rest)) :
    Walks lead goes lead rest :=
  ⟨[], segments rest, by simp [flat], (join_segments rest).symm, segments_ne_nil rest, nofun,
    fun _ => slash_notMem_of_mem_segments, begins⟩

theorem walks_on (post : Text) (boundary : Boundary lead)
    (plainStack : ∀ name ∈ stack, '/' ∉ name) (plain : ∀ name ∈ segment :: more, '/' ∉ name)
    (deep : segment = ['.', '.'] → shallow stack = false)
    (later : goes (visit climb stack segment) (orEmpty more)) :
    (∃ front' rest',
      Passes lead.length post (lead ++ flat stack) (join (segment :: more)) front' rest' ∧
        Walks lead goes front' rest') ∨
    (Cut (join (segment :: more)) (join (segment :: more)) [] [] ∧
      ¬ Dots (join (segment :: more))) := by
  obtain ⟨plainSegment, plainMore⟩ := List.forall_mem_cons.mp plain
  by_cases goesOn : Dots segment ∨ more ≠ []
  · refine .inl ⟨_, _, passes_visit boundary plainStack plainSegment goesOn deep, _, _, rfl,
      rfl, orEmpty_ne_nil more, ?_, plain_orEmpty plainMore, later⟩
    exact plain_visit climb (fun _ _ => mem_of_mem_climb) plainSegment plainStack
  · simp only [not_or, ne_eq, not_not] at goesOn
    obtain ⟨named, rfl⟩ := goesOn
    exact .inr ⟨cut_join plainSegment [], named⟩

theorem guides_of_unmet (boundary : Boundary lead) (post : Text) :
    Guides lead.length post
      (Walks lead fun stack names => meets shallow stack names = none) := by
  rintro _ _ ⟨stack, names, rfl, rfl, some, plainStack, plain, unmet⟩
  obtain ⟨segment, more, rfl⟩ := List.exists_cons_of_ne_nil some
  have deep : ¬ (segment = ['.', '.'] ∧ shallow stack = true) := fun up => by
    rw [meets, if_pos up] at unmet
    cases unmet
  refine walks_on post boundary plainStack plain ?_ ?_
  · intro up
    by_contra root
    exact deep ⟨up, by simpa using root⟩
  · rw [meets_orEmpty, ← meets_of_named deep, unmet]

theorem safe_of_unmet {path : Text} (filled : path ≠ [])
    (boundary : Boundary (startOf lead path).1)
    (unmet : meets shallow [] (segments (startOf lead path).2) = none) (post : Text) :
    (callOf lead path post).Safe := by
  have reached := startOf_reaches lead path
  have guides := guides_of_unmet boundary post
  rw [← pathStart_callOf post filled] at guides
  refine safe_of_guides filled guides (Walks.start _ _ unmet) ?_
  rintro _ _ ⟨stack, names, rfl, -⟩
  rw [List.append_assoc]
  exact reached.trans (List.prefix_append _ _)

end Walks

/-! A `..` that is met with less than two characters in front of it -/

theorem prevSegmentStart_short (short : front.length < 2) :
    (scanAt front rest post).prevSegmentStart =
      ((findLastOf (front ++ rest ++ post) '/').map (· + 1)).getD 0 := by
  unfold DotScan.prevSegmentStart substrBefore scanAt
  dsimp only
  rw [if_pos short]

theorem single_of_plain {more : List Text} (plain : '/' ∉ join more) :
    more = [] ∨ ∃ name, more = [name] := by
  match more with
  | [] => exact .inl rfl
  | [name] => exact .inr ⟨name, rfl⟩
  | name :: next :: more => simp [join] at plain

theorem passes_short {more : List Text} (short : front.length < 2)
    (inside : offset ≤ front.length) (plain : '/' ∉ join more ++ post) :
    (∃ name, more = [name] ∧
      Passes offset post front (join (['.', '.'] :: more)) (front ++ ['.', '.', '/']) name) ∨
    (more = [] ∧ front = ['/'] ∧
      Passes offset post front (join (['.', '.'] :: more)) ['/'] []) ∨
    (more = [] ∧ '/' ∉ front ∧
      Passes offset post front (join (['.', '.'] :: more)) [] (front.take offset)) := by
  rw [List.mem_append, not_or] at plain
  obtain ⟨plainMore, plainPost⟩ := plain
  have cut : Cut (join (['.', '.'] :: more)) ['.', '.'] (if more = [] then [] else ['/'])
      (join more) := cut_join (by decide) more
  obtain rfl | ⟨name, rfl⟩ := single_of_plain plainMore
  · have cut : Cut (join [['.', '.']]) ['.', '.'] [] [] := cut
    have start : (scanAt front (join [['.', '.']]) post).prevSegmentStart =
        ((findLastOf (front ++ ['.', '.'] ++ post) '/').map (· + 1)).getD 0 :=
      prevSegmentStart_short short
    by_cases slash : '/' ∈ front
    · obtain rfl : front = ['/'] := by
        match front, short with
        | [first], _ => rw [List.mem_singleton.mp slash]
      have found : findLastOf (['/'] ++ ['.', '.'] ++ post) '/' = some 0 := by
        have absent : '/' ∉ '.' :: '.' :: post := by simp [plainPost]
        exact findLastOf_append absent []
      rw [found] at start
      have width : max (['/'] : Text).length offset = 1 := by
        rw [List.length_singleton] at inside ⊢
        omega
      refine .inr (.inl ⟨rfl, rfl, ?_⟩)
      have passes : Passes offset post ['/'] (join [['.', '.']]) ['/'] ([] ++ []) := by
        refine .dotDot cut start ?_ ?_ (.inl ?_) <;> rw [width]
        · simp
        · rfl
        · simp
      exact passes
    · have absent : '/' ∉ front ++ ['.', '.'] ++ post := by simp [slash, plainPost]
      rw [findLastOf_absent absent] at start
      refine .inr (.inr ⟨rfl, slash, ?_⟩)
      have leaves : (front ++ ['.', '.'] ++ []).take (max ([] : Text).length offset) =
          [] ++ front.take offset := by
        rw [List.length_nil, Nat.zero_max, List.append_assoc, List.take_append_of_le_length inside,
          List.nil_append]
      have passes : Passes offset post front (join [['.', '.']]) []
          (front.take offset ++ []) := by
        refine .dotDot cut start ?_ leaves (.inl ?_)
        · simp only [List.length_append, List.length_nil]
          omega
        · simp only [List.length_append, List.length_cons, List.length_nil]
          omega
      rwa [List.append_nil] at passes
  · have cut : Cut (join [['.', '.'], name]) ['.', '.'] ['/'] name := cut
    have plainName : '/' ∉ name := plainMore
    have start : (scanAt front (join [['.', '.'], name]) post).prevSegmentStart =
        (front ++ ['.', '.', '/']).length := by
      have whole : front ++ join [['.', '.'], name] ++ post =
          front ++ ['.', '.'] ++ '/' :: (name ++ post) := by simp [join]
      rw [prevSegmentStart_short short, whole,
        findLastOf_append (by simp [plainName, plainPost]) (front ++ ['.', '.'])]
      simp
    refine .inl ⟨name, rfl, ?_⟩
    have width : max (front ++ ['.', '.', '/']).length offset =
        (front ++ ['.', '.', '/']).length := by
      rw [List.length_append]
      omega
    have passes : Passes offset post front (join [['.', '.'], name])
        (front ++ ['.', '.', '/']) ([] ++ name) := by
      refine .dotDot cut start ?_ ?_ (.inr ?_)
      · rw [width]
        simp
      · have whole : front ++ ['.', '.'] ++ ['/'] = front ++ ['.', '.', '/'] := by simp
        rw [width, whole, List.take_length, List.append_nil]
      · simp
    exact passes

def Unslashed (met : Option (List Text)) (post : Text) : Prop :=
  ∀ more ∈ met, '/' ∉ join more ++ post

def short (lead : Text) (stack : List Text) : Bool := (lead ++ flat stack).length < 2

section Short

variable {names more stack : List Text}

def Bare (lead : Text) : Prop := lead = [] ∨ lead = ['/']

theorem Bare.boundary (bare : Bare lead) : Boundary lead :=
  bare.imp id fun slash => ⟨[], slash⟩

theorem Bare.shallow_cases (bare : Bare lead) (deep : short lead stack = false) :
    shallow stack = false ∨ (lead = ['/'] ∧ stack = [[]]) := by
  match stack with
  | [] => rcases bare with rfl | rfl <;> simp [short, flat] at deep
  | [[]] => rcases bare with rfl | rfl <;> simp [short, flat] at deep ⊢
  | [] :: next :: below => exact .inl (by simp [shallow])
  | (first :: rest) :: below => exact .inl (by simp [shallow])

def Rereads (lead : Text) (goes : List Text → List Text → Prop) (front rest : Text) : Prop :=
  lead = ['/'] ∧ front = [] ∧ ∃ names, rest = '/' :: join names ∧ names ≠ [] ∧
    (∀ name ∈ names, '/' ∉ name) ∧ goes [] names

def BareGoes (lead post : Text) (stack names : List Text) : Prop :=
  Unslashed (meets (short lead) stack names) post

theorem bareGoes_last (lead post : Text) {stack : List Text} {name : Text}
    (deep : ¬ (name = ['.', '.'] ∧ short lead stack = true)) :
    BareGoes lead post stack [name] := by
  rw [BareGoes, meets_of_named deep]
  exact nofun

theorem walks_last {front rest : Text} (stack : List Text) (stands : front = lead ++ flat stack)
    (plainStack : ∀ name ∈ stack, '/' ∉ name) (plain : '/' ∉ rest)
    (deep : ¬ (rest = ['.', '.'] ∧ short lead stack = true)) :
    Walks lead (BareGoes lead post) front rest :=
  ⟨stack, [rest], stands, rfl, List.cons_ne_nil _ _, plainStack,
    List.forall_mem_singleton.mpr plain, bareGoes_last lead post deep⟩

theorem walks_short (bare : Bare lead)
    (plainStack : ∀ name ∈ stack, '/' ∉ name) (root : short lead stack = true)
    (plain : '/' ∉ join more ++ post) :
    ∃ front' rest', Passes lead.length post (lead ++ flat stack)
        (join (['.', '.'] :: more)) front' rest' ∧
      Walks lead (BareGoes lead post) front' rest' := by
  have width : (lead ++ flat stack).length < 2 := of_decide_eq_true root
  have inside : lead.length ≤ (lead ++ flat stack).length := by simp
  obtain ⟨name, rfl, passes⟩ | ⟨rfl, front, passes⟩ | ⟨rfl, absent, passes⟩ :=
    passes_short width inside plain
  · refine ⟨_, _, passes, walks_last (['.', '.'] :: stack) (by simp [flat]) ?_ ?_ ?_⟩
    · exact List.forall_mem_cons.mpr ⟨by decide, plainStack⟩
    · exact fun slash => plain (List.mem_append_left _ slash)
    · simp [short, flat]
      omega
  · exact ⟨_, _, passes, walks_last stack front.symm plainStack (by simp) (by simp)⟩
  · obtain rfl : lead = [] := bare.resolve_right fun slash => absent (by simp [slash])
    obtain rfl : stack = [] := by
      cases stack with
      | nil => rfl
      | cons top below => simp [flat] at absent
    exact ⟨_, _, passes, walks_last [] rfl (List.forall_mem_nil _) (by simp) (by simp)⟩

-- Behind `//` it goes back to the start of the string, and the slash of the path is kept.
theorem passes_reread (post : Text) (more : List Text) :
    Passes 1 post ['/', '/'] (join (['.', '.'] :: more)) [] ('/' :: join more) := by
  have cut : Cut (join (['.', '.'] :: more)) ['.', '.'] (if more = [] then [] else ['/'])
      (join more) := cut_join (by decide) more
  have start : (scanAt ['/', '/'] (join (['.', '.'] :: more)) post).prevSegmentStart =
      ([] : Text).length := (prevSegmentStart_eq (by decide) _ _).trans rfl
  have passes : Passes 1 post ['/', '/'] (join (['.', '.'] :: more)) []
      (['/'] ++ join more) := by
    refine .dotDot cut start ?_ rfl (.inl ?_)
    · simp
    · simp
  exact passes

theorem guides_of_bare (bare : Bare lead) (post : Text) :
    Guides lead.length post fun front rest =>
      Walks lead (BareGoes lead post) front rest ∨ Rereads lead (BareGoes lead post) front rest := by
  rintro _ _ (⟨stack, names, rfl, rfl, some, plainStack, plain, goes⟩ |
    ⟨rfl, rfl, names, rfl, some, plain, goes⟩)
  · obtain ⟨segment, more, rfl⟩ := List.exists_cons_of_ne_nil some
    obtain ⟨plainSegment, plainMore⟩ := List.forall_mem_cons.mp plain
    have laterPlain : ∀ name ∈ orEmpty more, '/' ∉ name := plain_orEmpty plainMore
    by_cases met : segment = ['.', '.'] ∧ short lead stack = true
    · have behind : '/' ∉ join more ++ post := goes more (if_pos met)
      obtain ⟨rfl, root⟩ := met
      obtain ⟨front', rest', passes, walks⟩ := walks_short bare plainStack root behind
      exact .inl ⟨front', rest', passes, .inl walks⟩
    · have later : BareGoes lead post (visit climb stack segment) (orEmpty more) := by
        rw [BareGoes, meets_orEmpty, ← meets_of_named met]
        exact goes
      by_cases reread : segment = ['.', '.'] ∧ lead = ['/'] ∧ stack = [[]]
      · obtain ⟨rfl, rfl, rfl⟩ := reread
        have rest := join_orEmpty more
        refine .inl ⟨_, _, passes_reread post more, .inr ⟨rfl, rfl, orEmpty more, by rw [rest],
          orEmpty_ne_nil more, laterPlain, later⟩⟩
      · have deep (up : segment = ['.', '.']) : shallow stack = false := by
          have far : short lead stack = false := by
            by_contra root
            exact met ⟨up, by simpa using root⟩
          exact (bare.shallow_cases far).resolve_right fun start => reread ⟨up, start⟩
        obtain ⟨front', rest', passes, walks⟩ | ends :=
          walks_on post bare.boundary plainStack plain deep later
        · exact .inl ⟨front', rest', passes, .inl walks⟩
        · exact .inr ends
  · have cut : Cut ('/' :: join names) [] ['/'] (join names) :=
      ⟨rfl, List.not_mem_nil, .inl rfl⟩
    refine .inl ⟨_, _, .named cut (by decide), .inl ⟨[], names, rfl, rfl, some, nofun, plain, goes⟩⟩

theorem safe_of_bare {path : Text} (filled : path ≠ []) (bare : Bare (startOf lead path).1)
    (goes : BareGoes (startOf lead path).1 post [] (segments (startOf lead path).2)) :
    (callOf lead path post).Safe := by
  have reached := startOf_reaches lead path
  have guides := guides_of_bare bare post
  rw [← pathStart_callOf post filled] at guides
  refine safe_of_guides filled guides (.inl (Walks.start _ _ goes)) ?_
  rintro _ _ (⟨stack, names, rfl, -⟩ | ⟨slash, rfl, names, rfl, -⟩)
  · rw [List.append_assoc]
    exact reached.trans (List.prefix_append _ _)
  · rw [slash] at reached
    exact reached.trans ⟨join names, rfl⟩

end Short

/-! A lead that is nothing but a colon -/

def leadingUp : List Text → Option (List Text)
  | [] => none
  | segment :: more =>
    if segment = ['.'] then leadingUp more
    else if segment = ['.', '.'] then some more
    else none

theorem leadingUp_orEmpty (more : List Text) : leadingUp (orEmpty more) = leadingUp more := by
  by_cases last : more = []
  · rw [last]
    rfl
  · rw [orEmpty, if_neg last]

def ColonStands (post front rest : Text) : Prop :=
  Keeps [':'] front rest ∨ (front = [':'] ∧ ∃ names, rest = join names ∧ names ≠ [] ∧
    (∀ name ∈ names, '/' ∉ name) ∧ Unslashed (leadingUp names) post)

theorem guides_of_colon (post : Text) : Guides 1 post (ColonStands post) := by
  have undotted : Undotted [':'] := undotted_colon (List.not_mem_nil)
  have guides : Guides 1 post (Keeps [':']) :=
    guides_of_undotted undotted (by decide) (by decide) (Nat.le_refl 1) (Nat.le_succ 1) post
  rintro front rest (keepsColon | ⟨rfl, names, rfl, some, plain, goes⟩)
  · obtain ⟨front', rest', passes, stands⟩ | ends := guides front rest keepsColon
    · exact .inl ⟨front', rest', passes, .inl stands⟩
    · exact .inr ends
  · obtain ⟨segment, more, rfl⟩ := List.exists_cons_of_ne_nil some
    obtain ⟨plainSegment, plainMore⟩ := List.forall_mem_cons.mp plain
    have cut := cut_join plainSegment more
    by_cases dot : segment = ['.']
    · subst dot
      refine .inl ⟨_, _, .dot cut, .inr ⟨rfl, orEmpty more, (join_orEmpty more).symm,
        orEmpty_ne_nil more, plain_orEmpty plainMore, ?_⟩⟩
      rw [leadingUp_orEmpty]
      exact goes
    · by_cases up : segment = ['.', '.']
      · subst up
        have behind : '/' ∉ join more ++ post := goes more rfl
        obtain ⟨name, rfl, passes⟩ | ⟨-, slash, -⟩ | ⟨rfl, -, passes⟩ :=
          passes_short (show ([':'] : Text).length < 2 by decide)
            (show 1 ≤ ([':'] : Text).length by decide) behind
        · exact .inl ⟨_, _, passes, .inl ⟨⟨_, rfl⟩, .inl ⟨⟨_, rfl⟩, by decide⟩⟩⟩
        · cases slash
        · exact .inl ⟨_, _, passes, .inl ⟨⟨_, rfl⟩, .inr ⟨⟨_, rfl⟩, by decide, .inl rfl⟩⟩⟩
      · have named : ¬ Dots segment := fun dots => dots.elim dot up
        by_cases last : more = []
        · subst last
          exact .inr ⟨cut, named⟩
        · rw [if_neg last] at cut
          refine .inl ⟨_, _, .named cut named, .inl ⟨⟨_, rfl⟩, .inl ⟨⟨_, rfl⟩, ?_⟩⟩⟩
          simp

theorem safe_of_colon {path : Text} (filled : path ≠ []) (rootless : path.head? ≠ some '/')
    (goes : Unslashed (leadingUp (segments path)) post) : (callOf [':'] path post).Safe := by
  have start : startOf [':'] path = ([':'], path) := startOf_other rootless
  have guides : Guides (callOf [':'] path post).pathStart post (ColonStands post) := by
    rw [pathStart_callOf post filled, start]
    exact guides_of_colon post
  refine safe_of_guides filled guides ?_ ?_
  · rw [start]
    exact .inr ⟨rfl, segments path, (join_segments path).symm, segments_ne_nil path,
      fun _ => slash_notMem_of_mem_segments, goes⟩
  · rintro front rest (keepsColon | ⟨rfl, names, rfl, -⟩)
    · exact keepsColon.whole
    · exact ⟨join names, rfl⟩

end NDash.Util.UriUtil
