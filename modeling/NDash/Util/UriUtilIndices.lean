import NDash.Util.UriUtilSegments

set_option autoImplicit false

namespace NDash.Util.UriUtil

open Uri

theorem upTo_le (found : Option Nat) (limit : Nat) : upTo found limit ≤ limit := by
  cases found with
  | none => exact Nat.le_refl _
  | some index =>
    simp only [upTo]
    split <;> omega

theorem upTo_some_le (index limit : Nat) : upTo (some index) limit ≤ index := by
  simp only [upTo]
  split <;> omega

theorem upTo_some {index limit : Nat} (inside : index ≤ limit) : upTo (some index) limit = index := by
  have behind : ¬ index > limit := by omega
  simp [upTo, behind]

theorem upTo_behind (found : Option Nat) {limit distance : Nat} (behind : limit ≤ distance) :
    upTo (found.map (distance + ·)) limit = limit := by
  cases found with
  | none => rfl
  | some index =>
    simp only [Option.map_some, upTo]
    split <;> omega

theorem le_upTo (found : Option Nat) {limit distance : Nat} (inside : distance ≤ limit) :
    distance ≤ upTo (found.map (distance + ·)) limit := by
  cases found with
  | none => exact inside
  | some index =>
    simp only [Option.map_some, upTo]
    split <;> omega

theorem head_of_find_zero {text : Text} {char : Char} (found : find text char = some 0) :
    text.head? = some char := by
  cases text with
  | nil => cases found
  | cons first rest =>
    by_cases same : first = char
    · rw [same]
      rfl
    · simp [find, same] at found

variable {reference : Reference}

def indicesOf (reference : Reference) : UriIndices :=
  let hierPart := (schemeText reference.scheme).length
  let path := hierPart + (authorityText reference.authority).length
  let query := path + reference.path.length
  { schemeColon := hierPart - 1
    path
    query
    fragment := query + (queryText reference.query).length }

theorem notMem_of_class {p : Char → Bool} {text : Text} {c : Char} (inside : ∀ c ∈ text, p c = true)
    (outside : p c = false) : c ∉ text := by
  intro member
  rw [inside c member] at outside
  cases outside

section Outside

variable (wellFormed : reference.WellFormed)
include wellFormed

theorem notMem_scheme {c : Char} (outside : inScheme c = false) (colon : c ≠ ':') :
    c ∉ schemeText reference.scheme := by
  cases present : reference.scheme with
  | none => simp [schemeText]
  | some scheme =>
    have absent := notMem_of_class (wellFormed.scheme scheme present) outside
    simp [schemeText, absent, colon]

theorem notMem_authority {c : Char} (outside : inAuthority c = false) (slash : c ≠ '/') :
    c ∉ authorityText reference.authority := by
  cases present : reference.authority with
  | none => simp [authorityText]
  | some authority =>
    have absent := notMem_of_class (wellFormed.authority authority present) outside
    simp [authorityText, absent, slash]

theorem hash_notMem_query : '#' ∉ queryText reference.query := by
  cases present : reference.query with
  | none => simp [queryText]
  | some query =>
    have absent := notMem_of_class (c := '#') (wellFormed.query query present) rfl
    simp [queryText, absent]

theorem hierarchy_notMem {c : Char} (query : c = '?' ∨ c = '#') :
    c ∉ schemeText reference.scheme ++ authorityText reference.authority ++ reference.path := by
  have scheme : inScheme c = false ∧ c ≠ ':' := by rcases query with rfl | rfl <;> decide
  have authority : inAuthority c = false ∧ c ≠ '/' := by rcases query with rfl | rfl <;> decide
  have path : inPath c = false := by rcases query with rfl | rfl <;> decide
  simp only [List.mem_append, not_or]
  exact ⟨⟨notMem_scheme wellFormed scheme.1 scheme.2, notMem_authority wellFormed authority.1 authority.2⟩,
    notMem_of_class wellFormed.path path⟩

theorem fragmentIndex_eq :
    (find (recompose reference) '#').getD (recompose reference).length =
      (indicesOf reference).fragment := by
  have absent : '#' ∉ schemeText reference.scheme ++ authorityText reference.authority ++
      reference.path ++ queryText reference.query := by
    rw [List.mem_append, not_or]
    exact ⟨hierarchy_notMem wellFormed (.inr rfl), hash_notMem_query wellFormed⟩
  rw [recompose, find_append absent]
  cases reference.fragment with
  | none => simp [fragmentText, find, indicesOf, Nat.add_assoc]
  | some fragment => simp [fragmentText, find, indicesOf, Nat.add_assoc]

theorem queryIndex_eq :
    upTo (find (recompose reference) '?') (indicesOf reference).fragment =
      (indicesOf reference).query := by
  rw [recompose, List.append_assoc _ (queryText _), find_append (hierarchy_notMem wellFormed (.inl rfl))]
  cases present : reference.query with
  | none =>
    have limit : (indicesOf reference).fragment = (indicesOf reference).query := by
      simp [indicesOf, present, queryText]
    rw [limit]
    exact upTo_behind _ (by simp [indicesOf, Nat.add_assoc])
  | some query =>
    simp only [queryText, List.cons_append, find_self, Option.map_some]
    rw [upTo_some (by simp [indicesOf, ← Nat.add_assoc])]
    simp [indicesOf, Nat.add_assoc]

theorem colon_behind (noScheme : reference.scheme = none) {index : Nat}
    (found : find (recompose reference) ':' = some index) :
    upTo (find (recompose reference) '/') (indicesOf reference).query < index := by
  cases present : reference.authority with
  | some authority =>
    have whole : recompose reference = '/' :: ('/' :: authority ++ reference.path ++
        queryText reference.query ++ fragmentText reference.fragment) := by
      simp [recompose, noScheme, present, schemeText, authorityText]
    rw [whole] at found ⊢
    rw [find_self, upTo_some (Nat.zero_le _)]
    simp only [find, show ¬ ('/' : Char) = ':' by decide, if_false, Option.map_eq_some_iff] at found
    obtain ⟨before, -, rfl⟩ := found
    exact Nat.succ_pos before
  | none =>
    have colon := wellFormed.relative noScheme present
    have split := List.takeWhile_append_dropWhile (p := inSegment) (l := reference.path)
    have plain : '/' ∉ reference.path.takeWhile inSegment := fun member => by
      simpa [inSegment] using List.mem_takeWhile_imp member
    have whole : recompose reference = reference.path.takeWhile inSegment ++
        (reference.path.dropWhile inSegment ++ queryText reference.query ++
          fragmentText reference.fragment) := by
      simp only [recompose, noScheme, present, schemeText, authorityText, List.nil_append]
      rw [← List.append_assoc, ← List.append_assoc, split]
    have limit : (indicesOf reference).query = reference.path.length := by
      simp [indicesOf, noScheme, present, schemeText, authorityText]
    rw [whole] at found ⊢
    rw [find_append colon, Option.map_eq_some_iff] at found
    obtain ⟨distance, foundLater, rfl⟩ := found
    rw [find_append plain]
    have before : upTo ((find (reference.path.dropWhile inSegment ++ queryText reference.query ++
        fragmentText reference.fragment) '/').map
          ((reference.path.takeWhile inSegment).length + ·)) (indicesOf reference).query ≤
        (reference.path.takeWhile inSegment).length := by
      cases dropped : reference.path.dropWhile inSegment with
      | nil =>
        rw [dropped, List.append_nil] at split
        have all := congrArg List.length split
        exact Nat.le_trans (upTo_le _ _) (by omega)
      | cons c rest =>
        have slash : c = '/' := by simpa [inSegment] using dropWhile_cons dropped
        rw [slash, List.cons_append, List.cons_append, find_self, Option.map_some]
        exact upTo_some_le _ _
    have further : distance ≠ 0 := by
      rintro rfl
      have head := head_of_find_zero foundLater
      cases dropped : reference.path.dropWhile inSegment with
      | nil =>
        rw [dropped] at head
        cases query : reference.query <;> cases fragment : reference.fragment <;>
          simp [query, fragment, queryText, fragmentText] at head
      | cons c rest =>
        rw [dropped] at head
        have slash : c = '/' := by simpa [inSegment] using dropWhile_cons dropped
        simp [slash] at head
    omega

theorem schemeIndex_eq :
    unlessBehind (find (recompose reference) ':')
        (upTo (find (recompose reference) '/') (indicesOf reference).query) =
      (indicesOf reference).schemeColon := by
  cases present : reference.scheme with
  | none =>
    have before : (indicesOf reference).schemeColon = -1 := by simp [indicesOf, present, schemeText]
    rw [before]
    cases found : find (recompose reference) ':' with
    | none => rfl
    | some index =>
      have behind := colon_behind wellFormed present found
      simp only [unlessBehind, gt_iff_lt, if_pos behind]
  | some scheme =>
    have colon := notMem_of_class (c := ':') (wellFormed.scheme scheme present) rfl
    have slash := notMem_of_class (c := '/') (wellFormed.scheme scheme present) rfl
    have whole : recompose reference = scheme ++ ':' :: (authorityText reference.authority ++
        reference.path ++ queryText reference.query ++ fragmentText reference.fragment) := by
      simp [recompose, present, schemeText]
    have before : scheme.length ≤ upTo (find (recompose reference) '/') (indicesOf reference).query := by
      rw [whole, find_append slash]
      refine le_upTo _ ?_
      simp only [indicesOf, present, schemeText, List.length_append]
      omega
    have inside : ¬ scheme.length > upTo (find (recompose reference) '/') (indicesOf reference).query := by
      omega
    have found : find (recompose reference) ':' = some scheme.length := by
      rw [whole, find_append colon, find_self]
      rfl
    simp only [found, unlessBehind, if_neg inside]
    simp [indicesOf, present, schemeText]

theorem pathIndex_eq :
    (if (schemeText reference.scheme).length + 1 < (indicesOf reference).query ∧
          (recompose reference)[(schemeText reference.scheme).length]? = some '/' ∧
          (recompose reference)[(schemeText reference.scheme).length + 1]? = some '/' then
        upTo (findFrom (recompose reference) '/' ((schemeText reference.scheme).length + 2))
          (indicesOf reference).query
      else (schemeText reference.scheme).length) = (indicesOf reference).path := by
  cases present : reference.authority with
  | none =>
    have whole : recompose reference = schemeText reference.scheme ++ (reference.path ++
        queryText reference.query ++ fragmentText reference.fragment) := by
      simp [recompose, present, authorityText]
    have limit : (indicesOf reference).query =
        (schemeText reference.scheme).length + reference.path.length := by
      simp [indicesOf, present, authorityText]
    have single := wellFormed.single present
    rw [if_neg]
    · simp [indicesOf, present, authorityText]
    · rintro ⟨inside, first, second⟩
      rw [whole] at first second
      cases path : reference.path with
      | nil =>
        rw [limit, path, List.length_nil] at inside
        omega
      | cons c tail =>
        cases tail with
        | nil =>
          rw [limit, path, List.length_singleton] at inside
          omega
        | cons d rest =>
          rw [path] at first second
          simp at first second
          exact single rest (by rw [path, first, second])
  | some authority =>
    have slash := notMem_of_class (c := '/') (wellFormed.authority authority present) rfl
    have whole : recompose reference = schemeText reference.scheme ++ '/' :: '/' :: (authority ++
        (reference.path ++ queryText reference.query ++ fragmentText reference.fragment)) := by
      simp [recompose, present, authorityText]
    have limit : (indicesOf reference).query =
        (schemeText reference.scheme).length + (authority.length + 2) + reference.path.length := by
      simp [indicesOf, present, authorityText]
    have rest : (recompose reference).drop ((schemeText reference.scheme).length + 2) = authority ++
        (reference.path ++ queryText reference.query ++ fragmentText reference.fragment) := by
      rw [whole, ← List.drop_drop, List.drop_left]
      rfl
    have inside : (schemeText reference.scheme).length + 1 < (indicesOf reference).query := by omega
    have start : (indicesOf reference).path =
        (schemeText reference.scheme).length + (authority.length + 2) := by
      simp [indicesOf, present, authorityText]
    rw [if_pos ⟨inside, by simp [whole], by simp [whole]⟩, findFrom, rest, find_append slash,
      Option.map_map]
    rcases wellFormed.rooted (by rw [present]; rfl) with none | ⟨later, path⟩
    · have distance : (fun index => index + ((schemeText reference.scheme).length + 2)) ∘
          (authority.length + ·) = ((indicesOf reference).query + ·) := by
        funext index
        simp only [Function.comp_apply, limit, none, List.length_nil]
        omega
      rw [distance, upTo_behind _ (Nat.le_refl _), limit, start, none, List.length_nil, Nat.add_zero]
    · rw [path, List.cons_append, List.cons_append, find_self, Option.map_some, Function.comp_apply,
        upTo_some (by omega), start]
      omega

end Outside

theorem getUriIndices_recompose (wellFormed : reference.WellFormed) :
    getUriIndices (recompose reference) = indicesOf reference := by
  have hierPart : ((indicesOf reference).schemeColon + 1).toNat = (schemeText reference.scheme).length := by
    simp [indicesOf]
  by_cases empty : (recompose reference).length = 0
  · rw [getUriIndices, if_pos empty]
    simp only [recompose, List.length_append, Nat.add_eq_zero_iff] at empty
    obtain ⟨⟨⟨⟨scheme, authority⟩, path⟩, query⟩, -⟩ := empty
    simp [indicesOf, scheme, authority, path, query]
  · simp only [getUriIndices, if_neg empty, fragmentIndex_eq wellFormed, queryIndex_eq wellFormed,
      schemeIndex_eq wellFormed, hierPart, pathIndex_eq wellFormed]

end NDash.Util.UriUtil
