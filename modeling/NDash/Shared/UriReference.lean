import Mathlib.Data.List.TakeWhile
import Mathlib.Tactic.Common

set_option autoImplicit false

/-!
# URI references

The components of a URI reference and its resolution against a base URI, after sections 5.2 and 5.3
and the expression of Appendix B of RFC 3986.
-/

namespace Uri

abbrev Text := List Char

-- An undefined component is `none`, an empty one `some []`; a path is never undefined.
structure Reference where
  scheme : Option Text
  authority : Option Text
  path : Text
  query : Option Text
  fragment : Option Text
deriving DecidableEq, Repr

def inScheme (c : Char) : Bool := c ≠ ':' && c ≠ '/' && c ≠ '?' && c ≠ '#'
def inAuthority (c : Char) : Bool := c ≠ '/' && c ≠ '?' && c ≠ '#'
def inPath (c : Char) : Bool := c ≠ '?' && c ≠ '#'
def inQuery (c : Char) : Bool := c ≠ '#'
def inSegment (c : Char) : Bool := c ≠ '/'

def splitScheme (text : Text) : Option Text × Text :=
  match text.takeWhile inScheme, text.dropWhile inScheme with
  | first :: scheme, ':' :: rest => (some (first :: scheme), rest)
  | _, _ => (none, text)

def splitAuthority (text : Text) : Option Text × Text :=
  match text with
  | '/' :: '/' :: rest => (some (rest.takeWhile inAuthority), rest.dropWhile inAuthority)
  | _ => (none, text)

def splitQuery (text : Text) : Option Text × Text :=
  match text with
  | '?' :: rest => (some (rest.takeWhile inQuery), rest.dropWhile inQuery)
  | _ => (none, text)

def splitFragment (text : Text) : Option Text :=
  match text with
  | '#' :: rest => some rest
  | _ => none

def parse (text : Text) : Reference :=
  let (scheme, rest) := splitScheme text
  let (authority, rest) := splitAuthority rest
  let (query, last) := splitQuery (rest.dropWhile inPath)
  { scheme, authority, path := rest.takeWhile inPath, query, fragment := splitFragment last }

def schemeText : Option Text → Text
  | none => []
  | some scheme => scheme ++ [':']

def authorityText : Option Text → Text
  | none => []
  | some authority => '/' :: '/' :: authority

def queryText : Option Text → Text
  | none => []
  | some query => '?' :: query

def fragmentText : Option Text → Text
  | none => []
  | some fragment => '#' :: fragment

def recompose (reference : Reference) : Text :=
  schemeText reference.scheme ++ authorityText reference.authority ++ reference.path ++
    queryText reference.query ++ fragmentText reference.fragment

def dropSegment (output : Text) : Text := ((output.reverse.dropWhile inSegment).drop 1).reverse

/-- The loop of section 5.2.4 with its input and output buffers; the input gets shorter each round. -/
def removeDotSegmentsFrom : Nat → Text → Text → Text
  | 0, _, output => output
  | _ + 1, [], output => output
  | rounds + 1, first :: rest, output =>
    if first = '/' then
      let segment := rest.takeWhile inSegment
      let later := rest.dropWhile inSegment
      -- B and C: a dot segment at the end leaves its slash.
      if segment = ['.'] then
        removeDotSegmentsFrom rounds (if later = [] then ['/'] else later) output
      else if segment = ['.', '.'] then
        removeDotSegmentsFrom rounds (if later = [] then ['/'] else later) (dropSegment output)
      else removeDotSegmentsFrom rounds later (output ++ '/' :: segment)
    else
      let segment := (first :: rest).takeWhile inSegment
      let later := (first :: rest).dropWhile inSegment
      -- A and D: dot segments before any slash.
      if segment = ['.'] ∨ segment = ['.', '.'] then removeDotSegmentsFrom rounds (later.drop 1) output
      else removeDotSegmentsFrom rounds later (output ++ segment)

def removeDotSegments (path : Text) : Text := removeDotSegmentsFrom path.length path []

def merge (base : Reference) (path : Text) : Text :=
  if base.authority.isSome ∧ base.path = [] then '/' :: path
  else (base.path.reverse.dropWhile inSegment).reverse ++ path

def hierarchicalPath (base reference : Reference) : Text :=
  if reference.path.head? = some '/' then reference.path else merge base reference.path

/-- The strict transformation of section 5.2.2. -/
def transform (base reference : Reference) : Reference :=
  if reference.scheme.isSome then { reference with path := removeDotSegments reference.path }
  else if reference.authority.isSome then
    { reference with scheme := base.scheme, path := removeDotSegments reference.path }
  else if reference.path = [] then
    { base with
      query := if reference.query.isSome then reference.query else base.query
      fragment := reference.fragment }
  else
    { base with
      path := removeDotSegments (hierarchicalPath base reference)
      query := reference.query
      fragment := reference.fragment }

def resolve (base reference : Text) : Text := recompose (transform (parse base) (parse reference))

theorem dropWhile_cons {p : Char → Bool} {text rest : Text} {c : Char}
    (dropped : text.dropWhile p = c :: rest) : p c = false := by
  have head := List.head?_dropWhile_not p text
  rw [dropped] at head
  exact head

theorem directory_split {path : Text} (slash : '/' ∈ path) :
    ∃ before last, path = before ++ '/' :: last ∧ '/' ∉ last ∧
      (path.reverse.dropWhile inSegment).reverse = before ++ ['/'] := by
  have whole := List.takeWhile_append_dropWhile (p := inSegment) (l := path.reverse)
  have plain : '/' ∉ path.reverse.takeWhile inSegment := fun member => by
    simpa [inSegment] using List.mem_takeWhile_imp member
  cases dropped : path.reverse.dropWhile inSegment with
  | nil =>
    rw [dropped, List.append_nil] at whole
    rw [whole, List.mem_reverse] at plain
    exact absurd slash plain
  | cons c before =>
    obtain rfl : c = '/' := by simpa [inSegment] using dropWhile_cons dropped
    refine ⟨before.reverse, (path.reverse.takeWhile inSegment).reverse, ?_, by simpa using plain, by simp⟩
    rw [dropped] at whole
    simpa using (congrArg List.reverse whole).symm

theorem schemeText_splitScheme (text : Text) :
    schemeText (splitScheme text).1 ++ (splitScheme text).2 = text := by
  unfold splitScheme
  split
  next first scheme rest taken dropped =>
    have whole := List.takeWhile_append_dropWhile (p := inScheme) (l := text)
    rw [taken, dropped] at whole
    simpa [schemeText] using whole
  next => rfl

theorem authorityText_splitAuthority (text : Text) :
    authorityText (splitAuthority text).1 ++ (splitAuthority text).2 = text := by
  unfold splitAuthority
  split
  next rest => simp [authorityText]
  next => rfl

theorem queryText_splitQuery (text : Text) :
    queryText (splitQuery text).1 ++ (splitQuery text).2 = text := by
  unfold splitQuery
  split
  next rest => simp [queryText]
  next => rfl

theorem fragmentText_splitFragment (text : Text) :
    fragmentText (splitFragment (splitQuery (text.dropWhile inPath)).2) =
      (splitQuery (text.dropWhile inPath)).2 := by
  have last : ∀ c rest, (splitQuery (text.dropWhile inPath)).2 = c :: rest → c = '#' := by
    intro c rest
    unfold splitQuery
    split
    next later _ =>
      intro dropped
      simpa [inQuery] using dropWhile_cons dropped
    next other =>
      intro dropped
      have ends := dropWhile_cons dropped
      simp only [inPath, ne_eq, Bool.and_eq_false_iff, decide_eq_false_iff_not, not_not] at ends
      rcases ends with rfl | rfl
      · exact absurd dropped (other rest)
      · rfl
  cases present : (splitQuery (text.dropWhile inPath)).2 with
  | nil => rfl
  | cons c rest =>
    obtain rfl := last c rest present
    rfl

theorem recompose_parse (text : Text) : recompose (parse text) = text := by
  simp only [recompose, parse]
  rw [fragmentText_splitFragment, List.append_assoc _ (queryText _), queryText_splitQuery,
    List.append_assoc _ (List.takeWhile _ _), List.takeWhile_append_dropWhile, List.append_assoc,
    authorityText_splitAuthority, schemeText_splitScheme]

structure Reference.WellFormed (reference : Reference) : Prop where
  scheme : ∀ scheme, reference.scheme = some scheme → ∀ c ∈ scheme, inScheme c = true
  authority : ∀ authority, reference.authority = some authority → ∀ c ∈ authority, inAuthority c = true
  path : ∀ c ∈ reference.path, inPath c = true
  query : ∀ query, reference.query = some query → ∀ c ∈ query, inQuery c = true
  rooted : reference.authority.isSome = true → reference.path = [] ∨ ∃ rest, reference.path = '/' :: rest
  single : reference.authority = none → ∀ rest, reference.path ≠ '/' :: '/' :: rest
  relative : reference.scheme = none → reference.authority = none →
    ':' ∉ reference.path.takeWhile inSegment

theorem splitScheme_none {text : Text} (none : (splitScheme text).1 = none)
    (other : text.head? ≠ some ':') :
    (splitScheme text).2 = text ∧ ':' ∉ text.takeWhile inAuthority := by
  have whole := List.takeWhile_append_dropWhile (p := inScheme) (l := text)
  have inside : ∀ c ∈ text.takeWhile inScheme, inAuthority c = true := by
    intro c member
    have named := List.mem_takeWhile_imp member
    simp only [inScheme, Bool.and_eq_true] at named
    simp only [inAuthority, Bool.and_eq_true]
    exact ⟨⟨named.1.1.2, named.1.2⟩, named.2⟩
  have colon : ':' ∉ text.takeWhile inScheme := fun member => by
    simpa [inScheme] using List.mem_takeWhile_imp member
  unfold splitScheme at none ⊢
  split at none
  next => cases none
  next unsplit =>
    refine ⟨rfl, ?_⟩
    rw [← whole, List.takeWhile_append_of_pos inside, List.mem_append, not_or]
    refine ⟨colon, ?_⟩
    cases dropped : text.dropWhile inScheme with
    | nil => simp
    | cons c rest =>
      have ends := dropWhile_cons dropped
      by_cases same : c = ':'
      · subst same
        cases taken : text.takeWhile inScheme with
        | nil =>
          rw [taken, dropped, List.nil_append] at whole
          exact absurd (by rw [← whole]; rfl) other
        | cons first scheme => exact absurd dropped (unsplit first scheme rest taken)
      · have stops : inAuthority c = false := by
          simpa [inScheme, inAuthority, same] using ends
        simp [stops]

theorem splitScheme_some {text scheme : Text} (present : (splitScheme text).1 = some scheme) :
    ∃ first rest, scheme = first :: rest ∧ text.head? = some first ∧ first ≠ ':' := by
  unfold splitScheme at present
  split at present
  next first rest later taken dropped =>
    cases present
    refine ⟨first, rest, rfl, ?_, ?_⟩
    · have whole := List.takeWhile_append_dropWhile (p := inScheme) (l := text)
      rw [← whole, taken]
      rfl
    · have named : inScheme first = true := List.mem_takeWhile_imp (l := text) (by rw [taken]; simp)
      rintro rfl
      exact absurd named (by decide)
  next => cases present

theorem splitAuthority_none {text : Text} (none : (splitAuthority text).1 = none) :
    (splitAuthority text).2 = text ∧ ∀ rest, text ≠ '/' :: '/' :: rest := by
  unfold splitAuthority at none ⊢
  split at none
  next => cases none
  next unsplit => exact ⟨rfl, unsplit⟩

theorem parse_wellFormed {text : Text} (other : text.head? ≠ some ':') : (parse text).WellFormed where
  scheme := by
    intro scheme present c member
    simp only [parse, splitScheme] at present
    split at present
    next first rest later taken dropped =>
      cases present
      rw [← taken] at member
      exact List.mem_takeWhile_imp member
    next => cases present
  authority := by
    intro authority present c member
    simp only [parse, splitAuthority] at present
    split at present
    next =>
      cases present
      exact List.mem_takeWhile_imp member
    next => cases present
  path := by
    intro c member
    exact List.mem_takeWhile_imp member
  query := by
    intro query present c member
    simp only [parse, splitQuery] at present
    split at present
    next =>
      cases present
      exact List.mem_takeWhile_imp member
    next => cases present
  rooted := by
    intro present
    simp only [parse, splitAuthority] at present ⊢
    split at present
    next rest _ =>
      cases dropped : rest.dropWhile inAuthority with
      | nil => exact .inl rfl
      | cons c later =>
        have ends := dropWhile_cons dropped
        by_cases slash : c = '/'
        · exact .inr ⟨later.takeWhile inPath, by simp [slash, inPath]⟩
        · have stops : inPath c = false := by simpa [inAuthority, inPath, slash] using ends
          exact .inl (by simp [stops])
    next => cases present
  single := by
    intro none rest path
    have absent : (splitAuthority (splitScheme text).2).1 = .none := none
    obtain ⟨same, unsplit⟩ := splitAuthority_none absent
    simp only [parse, same] at path
    have whole := List.takeWhile_append_dropWhile (p := inPath) (l := (splitScheme text).2)
    rw [path] at whole
    exact unsplit _ whole.symm
  relative := by
    intro none none'
    have absent : (splitAuthority (splitScheme text).2).1 = .none := none'
    obtain ⟨same, colon⟩ := splitScheme_none none other
    obtain ⟨unsplit, -⟩ := splitAuthority_none absent
    rw [same] at unsplit
    simp only [parse, same, unsplit]
    have narrow : (fun c => decide (inSegment c = true ∧ inPath c = true)) = inAuthority := by
      funext c
      simp [inSegment, inPath, inAuthority, Bool.and_assoc]
    rw [List.takeWhile_takeWhile, narrow]
    exact colon

end Uri
