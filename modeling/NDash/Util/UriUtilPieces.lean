import NDash.Util.UriUtilCalls

set_option autoImplicit false

namespace NDash.Util.UriUtil

open Machine Uri

def slice (text : Text) (start stop : Nat) : Text := (text.take stop).drop start

theorem slice_append (front middle back : Text) :
    slice (front ++ (middle ++ back)) front.length (front.length + middle.length) = middle := by
  rw [slice, ← List.append_assoc, ← List.length_append, List.take_left, List.drop_left]

theorem getElem?_behind (front back : Text) (c : Char) :
    (front ++ c :: back)[front.length]? = some c := by
  rw [List.getElem?_append_right (Nat.le_refl _), Nat.sub_self, List.getElem?_cons_zero]

def piecesOf (uri : Text) (indices : UriIndices) : Reference where
  scheme :=
    if indices.schemeColon = -1 then none else some (uri.take indices.schemeColon.toNat)
  authority :=
    if indices.path = indices.hierPart then none
    else some (slice uri (indices.hierPart + 2) indices.path)
  path := slice uri indices.path indices.query
  query :=
    if indices.query = indices.fragment then none
    else some (slice uri (indices.query + 1) indices.fragment)
  fragment :=
    if indices.fragment = uri.length then none else some (uri.drop (indices.fragment + 1))

/-- The indices are in order, each stands at the first delimiter of its kind, and the pieces with their
delimiters are the string. -/
structure SplitsWell (uri : Text) (indices : UriIndices) : Prop where
  ordered : -1 ≤ indices.schemeColon ∧ indices.schemeColon < indices.path ∧
    indices.path ≤ indices.query ∧ indices.query ≤ indices.fragment ∧ indices.fragment ≤ uri.length
  colon : indices.schemeColon ≠ -1 → uri[indices.schemeColon.toNat]? = some ':' ∧
    ∀ c ∈ uri.take indices.schemeColon.toNat, c ≠ '/' ∧ c ≠ '?' ∧ c ≠ '#'
  query : indices.query < indices.fragment → uri[indices.query]? = some '?'
  fragment : indices.fragment < uri.length → uri[indices.fragment]? = some '#'
  beforeQuery : '?' ∉ uri.take indices.query ∧ '#' ∉ uri.take indices.query
  beforeFragment : '#' ∉ uri.take indices.fragment
  whole : recompose (piecesOf uri indices) = uri

section Pieces

variable (reference : Reference)

theorem length_recompose :
    (recompose reference).length =
      (indicesOf reference).fragment + (fragmentText reference.fragment).length := by
  rw [fragment_of_lead, recompose_lead, behindPath]
  simp [Nat.add_assoc]

theorem schemeColon_eq {scheme : Text} (present : reference.scheme = some scheme) :
    (indicesOf reference).schemeColon = scheme.length := by
  simp [indicesOf, present, schemeText]

theorem scheme_pieces : (piecesOf (recompose reference) (indicesOf reference)).scheme =
    reference.scheme := by
  cases present : reference.scheme with
  | none => simp [piecesOf, indicesOf, present, schemeText]
  | some scheme =>
    have colon := schemeColon_eq reference present
    have apart : ¬ (indicesOf reference).schemeColon = -1 := by omega
    have text : recompose reference = scheme ++ (':' :: authorityText reference.authority ++
        reference.path ++ behindPath reference) := by
      rw [recompose_lead, leadText, present]
      simp [schemeText]
    simp only [piecesOf, if_neg apart]
    rw [colon, Int.toNat_natCast, text, List.take_left]

theorem authority_pieces : (piecesOf (recompose reference) (indicesOf reference)).authority =
    reference.authority := by
  have hierPart := hierPart_of_scheme reference
  have path := path_of_lead reference
  rw [leadText, List.length_append] at path
  cases present : reference.authority with
  | none =>
    rw [present, authorityText, List.length_nil, Nat.add_zero, ← hierPart] at path
    simp only [piecesOf, if_pos path]
  | some authority =>
    rw [present, ← hierPart] at path
    simp only [authorityText, List.length_cons] at path
    have apart : ¬ (indicesOf reference).path = (indicesOf reference).hierPart := by omega
    have text : recompose reference = schemeText reference.scheme ++ ['/', '/'] ++
        (authority ++ (reference.path ++ behindPath reference)) := by
      rw [recompose_lead, leadText, present]
      simp [authorityText]
    have start : (indicesOf reference).hierPart + 2 =
        (schemeText reference.scheme ++ ['/', '/']).length := by
      rw [hierPart, List.length_append]
      rfl
    have stop : (indicesOf reference).path =
        (schemeText reference.scheme ++ ['/', '/']).length + authority.length := by
      omega
    simp only [piecesOf, if_neg apart]
    rw [text, start, stop, slice_append]

theorem path_pieces : (piecesOf (recompose reference) (indicesOf reference)).path =
    reference.path := by
  simp only [piecesOf]
  rw [path_of_lead, query_of_lead, recompose_lead, List.append_assoc, slice_append]

theorem query_pieces : (piecesOf (recompose reference) (indicesOf reference)).query =
    reference.query := by
  have start := query_of_lead reference
  have stop := fragment_of_lead reference
  rw [List.length_append, List.length_append, ← start] at stop
  cases present : reference.query with
  | none =>
    rw [present, queryText, List.length_nil, Nat.add_zero] at stop
    simp only [piecesOf, if_pos stop.symm]
  | some query =>
    simp only [present, queryText, List.length_cons] at stop
    have apart : ¬ (indicesOf reference).query = (indicesOf reference).fragment := by omega
    have text : recompose reference = leadText reference.scheme reference.authority ++
        reference.path ++ ['?'] ++ (query ++ fragmentText reference.fragment) := by
      rw [recompose_lead, behindPath, present]
      simp [queryText]
    have front : (indicesOf reference).query + 1 =
        (leadText reference.scheme reference.authority ++ reference.path ++ ['?']).length := by
      rw [start]
      simp only [List.length_append, List.length_singleton]
    have back : (indicesOf reference).fragment =
        (leadText reference.scheme reference.authority ++ reference.path ++ ['?']).length +
          query.length := by
      omega
    simp only [piecesOf, if_neg apart]
    rw [text, front, back, slice_append]

theorem fragment_pieces : (piecesOf (recompose reference) (indicesOf reference)).fragment =
    reference.fragment := by
  have length := length_recompose reference
  cases present : reference.fragment with
  | none =>
    rw [present, fragmentText, List.length_nil, Nat.add_zero] at length
    simp only [piecesOf, if_pos length.symm]
  | some fragment =>
    simp only [present, fragmentText, List.length_cons] at length
    have apart : ¬ (indicesOf reference).fragment = (recompose reference).length := by omega
    have text : recompose reference = leadText reference.scheme reference.authority ++
        reference.path ++ queryText reference.query ++ ['#'] ++ fragment := by
      rw [recompose_lead, behindPath, present]
      simp [fragmentText]
    have front : (indicesOf reference).fragment + 1 = (leadText reference.scheme
        reference.authority ++ reference.path ++ queryText reference.query ++ ['#']).length := by
      rw [fragment_of_lead]
      simp only [List.length_append, List.length_singleton]
    simp only [piecesOf, if_neg apart]
    rw [text, front, List.drop_left]

/-- The indices of a reference cut its text into its components again. -/
theorem piecesOf_recompose :
    piecesOf (recompose reference) (indicesOf reference) = reference := by
  have scheme := scheme_pieces reference
  have authority := authority_pieces reference
  have path := path_pieces reference
  have query := query_pieces reference
  have fragment := fragment_pieces reference
  generalize piecesOf (recompose reference) (indicesOf reference) = pieces at *
  cases pieces
  cases reference
  simp only at scheme authority path query fragment
  rw [scheme, authority, path, query, fragment]

end Pieces

/-! What stands at the indices and before them -/

section Marks

variable {reference : Reference}

theorem ordered_indicesOf : -1 ≤ (indicesOf reference).schemeColon ∧
    (indicesOf reference).schemeColon < (indicesOf reference).path ∧
    (indicesOf reference).path ≤ (indicesOf reference).query ∧
    (indicesOf reference).query ≤ (indicesOf reference).fragment ∧
    (indicesOf reference).fragment ≤ (recompose reference).length := by
  rw [length_recompose]
  simp only [indicesOf]
  omega

theorem query_mark (inside : (indicesOf reference).query < (indicesOf reference).fragment) :
    (recompose reference)[(indicesOf reference).query]? = some '?' := by
  rw [fragment_of_lead, query_of_lead] at inside
  cases present : reference.query with
  | none =>
    rw [present] at inside
    simp [queryText] at inside
  | some query =>
    have text : recompose reference = (leadText reference.scheme reference.authority ++
        reference.path) ++ '?' :: (query ++ fragmentText reference.fragment) := by
      rw [recompose_lead, behindPath, present]
      rfl
    rw [text, query_of_lead, ← List.length_append, getElem?_behind]

theorem fragment_mark (inside : (indicesOf reference).fragment < (recompose reference).length) :
    (recompose reference)[(indicesOf reference).fragment]? = some '#' := by
  rw [length_recompose] at inside
  cases present : reference.fragment with
  | none =>
    rw [present] at inside
    simp [fragmentText] at inside
  | some fragment =>
    have text : recompose reference = (leadText reference.scheme reference.authority ++
        reference.path ++ queryText reference.query) ++ '#' :: fragment := by
      rw [recompose_lead, behindPath, present]
      simp [fragmentText]
    rw [text, fragment_of_lead, getElem?_behind]

variable (wellFormed : reference.WellFormed)
include wellFormed

theorem colon_mark (absolute : (indicesOf reference).schemeColon ≠ -1) :
    (recompose reference)[(indicesOf reference).schemeColon.toNat]? = some ':' ∧
      ∀ c ∈ (recompose reference).take (indicesOf reference).schemeColon.toNat,
        c ≠ '/' ∧ c ≠ '?' ∧ c ≠ '#' := by
  cases present : reference.scheme with
  | none => exact absurd (by simp [indicesOf, present, schemeText]) absolute
  | some scheme =>
    have text : recompose reference = scheme ++ ':' :: (authorityText reference.authority ++
        reference.path ++ behindPath reference) := by
      rw [recompose_lead, leadText, present]
      simp [schemeText]
    rw [schemeColon_eq reference present, Int.toNat_natCast, text, List.take_left]
    refine ⟨getElem?_behind _ _ _, fun c member => ?_⟩
    have inside := wellFormed.scheme scheme present c member
    simp only [inScheme, Bool.and_eq_true, decide_eq_true_eq] at inside
    exact ⟨inside.1.1.2, inside.1.2, inside.2⟩

theorem beforeQuery_notMem {c : Char} (query : c = '?' ∨ c = '#') :
    c ∉ (recompose reference).take (indicesOf reference).query := by
  rw [take_hierarchy, leadText]
  exact hierarchy_notMem wellFormed query

theorem beforeFragment_notMem : '#' ∉ (recompose reference).take (indicesOf reference).fragment := by
  rw [take_fragment, leadText, List.mem_append, not_or]
  exact ⟨hierarchy_notMem wellFormed (.inr rfl), hash_notMem_query wellFormed⟩

theorem indicesOf_splitsWell : SplitsWell (recompose reference) (indicesOf reference) where
  ordered := ordered_indicesOf
  colon := colon_mark wellFormed
  query := query_mark
  fragment := fragment_mark
  beforeQuery := ⟨beforeQuery_notMem wellFormed (.inl rfl), beforeQuery_notMem wellFormed (.inr rfl)⟩
  beforeFragment := beforeFragment_notMem wellFormed
  whole := congrArg recompose (piecesOf_recompose reference)

end Marks

theorem getUriIndices_components (uri : Text) : getUriIndices uri = indicesOf (components uri) := by
  have indices := getUriIndices_recompose (components_wellFormed uri)
  rwa [recompose_components] at indices

-- The indices are those of the components, which answer for every part of it.
theorem getUriIndices_splitsWell (uri : Text) : SplitsWell uri (getUriIndices uri) := by
  have splits := indicesOf_splitsWell (components_wellFormed uri)
  rwa [recompose_components, ← getUriIndices_components] at splits

end NDash.Util.UriUtil
