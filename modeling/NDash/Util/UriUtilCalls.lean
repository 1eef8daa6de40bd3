import NDash.Util.UriUtilIndices

set_option autoImplicit false

namespace NDash.Util.UriUtil

open Machine Uri

structure DotCall where
  uri : Text
  offset : Nat
  limit : Nat
deriving DecidableEq, Repr

def resolveCall (baseUri referenceUri : Text) : Option DotCall :=
  let refIndices := getUriIndices referenceUri
  if refIndices.schemeColon ≠ -1 then some ⟨referenceUri, refIndices.path, refIndices.query⟩
  else
    let baseIndices := getUriIndices baseUri
    if refIndices.fragment = 0 then none
    else if refIndices.query = 0 then none
    else if refIndices.path ≠ 0 then
      let baseLimit := baseIndices.hierPart
      some ⟨baseUri.take baseLimit ++ referenceUri, baseLimit + refIndices.path,
        baseLimit + refIndices.query⟩
    else if refIndices.path ≠ refIndices.query ∧ referenceUri[refIndices.path]? = some '/' then
      some ⟨baseUri.take baseIndices.path ++ referenceUri, baseIndices.path,
        baseIndices.path + refIndices.query⟩
    else if baseIndices.schemeColon + 2 < baseIndices.path ∧ baseIndices.path = baseIndices.query then
      some ⟨baseUri.take baseIndices.path ++ '/' :: referenceUri, baseIndices.path,
        baseIndices.path + refIndices.query + 1⟩
    else
      let baseLimit :=
        match findLastOf (baseUri.take baseIndices.query) '/' with
        | none => baseIndices.path
        | some lastSlashIndex => lastSlashIndex + 1
      some ⟨baseUri.take baseLimit ++ referenceUri, baseIndices.path, baseLimit + refIndices.query⟩

def DotCall.result (rounds : Nat) (call : DotCall) : Except Fault Text :=
  removeDotSegments rounds call.uri call.offset call.limit

theorem resolve_of_call (rounds : Nat) (baseUri referenceUri : Text) :
    match resolveCall baseUri referenceUri with
    | none => ∃ text, resolve rounds baseUri referenceUri = .ok text
    | some call => resolve rounds baseUri referenceUri = call.result rounds ∨
        resolve rounds baseUri referenceUri = (call.result rounds).bind fun _ => .ok referenceUri := by
  unfold resolveCall resolve DotCall.result
  dsimp only
  by_cases absolute : (getUriIndices referenceUri).schemeColon ≠ -1
  · rw [if_pos absolute, if_pos absolute]
    exact .inr rfl
  rw [if_neg absolute, if_neg absolute]
  by_cases onlyFragment : (getUriIndices referenceUri).fragment = 0
  · rw [if_pos onlyFragment, if_pos onlyFragment]
    exact ⟨_, rfl⟩
  rw [if_neg onlyFragment, if_neg onlyFragment]
  by_cases onlyQuery : (getUriIndices referenceUri).query = 0
  · rw [if_pos onlyQuery, if_pos onlyQuery]
    exact ⟨_, rfl⟩
  rw [if_neg onlyQuery, if_neg onlyQuery]
  split_ifs <;> exact .inl rfl

theorem resolve_of_relative (rounds : Nat) {baseUri referenceUri : Text} {call : DotCall}
    (relative : (getUriIndices referenceUri).schemeColon = -1)
    (made : resolveCall baseUri referenceUri = some call) :
    resolve rounds baseUri referenceUri = call.result rounds := by
  have noScheme : ¬ (getUriIndices referenceUri).schemeColon ≠ -1 := fun other => other relative
  unfold resolveCall at made
  unfold resolve DotCall.result
  dsimp only at made ⊢
  rw [if_neg noScheme] at made ⊢
  split_ifs at made ⊢ <;> cases made <;> rfl

/-! The components as the source takes them -/

-- Nothing but a colon is a scheme too, an empty one.
def components : Text → Reference
  | ':' :: text =>
    let (authority, rest) := splitAuthority text
    let (query, last) := splitQuery (rest.dropWhile inPath)
    { scheme := some [], authority, path := rest.takeWhile inPath, query
      fragment := splitFragment last }
  | text => parse text

theorem components_colon (text : Text) :
    components (':' :: text) = { parse ('a' :: ':' :: text) with scheme := some [] } := by
  have split : splitScheme ('a' :: ':' :: text) = (some ['a'], text) := by
    simp [splitScheme, inScheme]
  simp only [components, parse, split]

theorem components_other {text : Text} (other : text.head? ≠ some ':') :
    components text = parse text := by
  unfold components
  split
  · exact absurd rfl other
  · rfl

theorem components_wellFormed (text : Text) : (components text).WellFormed := by
  by_cases colon : text.head? = some ':'
  · obtain ⟨rest, rfl⟩ : ∃ rest, text = ':' :: rest := by
      cases text <;> simp_all
    have named : (parse ('a' :: ':' :: rest)).WellFormed := parse_wellFormed (by simp)
    rw [components_colon]
    refine ⟨fun scheme present => ?_, named.authority, named.path, named.query, named.rooted,
      named.single, nofun⟩
    cases present
    exact nofun
  · rw [components_other colon]
    exact parse_wellFormed colon

theorem recompose_components (text : Text) : recompose (components text) = text := by
  by_cases colon : text.head? = some ':'
  · obtain ⟨rest, rfl⟩ : ∃ rest, text = ':' :: rest := by
      cases text <;> simp_all
    have whole := recompose_parse ('a' :: ':' :: rest)
    have scheme : (parse ('a' :: ':' :: rest)).scheme = some ['a'] := by
      simp [parse, splitScheme, inScheme]
    rw [components_colon]
    simp only [recompose, scheme, schemeText, List.nil_append, List.cons_append,
      List.append_assoc] at whole ⊢
    exact List.tail_eq_of_cons_eq whole
  · rw [components_other colon]
    exact recompose_parse text

/-! The call in terms of the components -/

def behindPath (reference : Reference) : Text :=
  queryText reference.query ++ fragmentText reference.fragment

theorem behindPath_head (reference : Reference) : (behindPath reference).head? ≠ some '.' := by
  unfold behindPath
  cases reference.query <;> cases reference.fragment <;> simp [queryText, fragmentText]

def callOf (lead path post : Text) : DotCall :=
  ⟨lead ++ path ++ post, lead.length, lead.length + path.length⟩

def leadText (scheme authority : Option Text) : Text := schemeText scheme ++ authorityText authority

def componentsCall (base reference : Reference) : Option DotCall :=
  if reference.scheme.isSome then
    some (callOf (leadText reference.scheme reference.authority) reference.path
      (behindPath reference))
  else if reference.authority.isSome then
    some (callOf (leadText base.scheme reference.authority) reference.path (behindPath reference))
  else if reference.path = [] then none
  else
    some (callOf (leadText base.scheme base.authority) (hierarchicalPath base reference)
      (behindPath reference))

section Components

variable {base reference : Reference}

theorem recompose_lead (reference : Reference) :
    recompose reference =
      leadText reference.scheme reference.authority ++ reference.path ++ behindPath reference := by
  simp [recompose, leadText, behindPath]

theorem hierPart_of_scheme (reference : Reference) :
    (indicesOf reference).hierPart = (schemeText reference.scheme).length := by
  simp [indicesOf, UriIndices.hierPart]

theorem path_of_lead (reference : Reference) :
    (indicesOf reference).path = (leadText reference.scheme reference.authority).length := by
  simp [indicesOf, leadText]

theorem query_of_lead (reference : Reference) :
    (indicesOf reference).query =
      (leadText reference.scheme reference.authority).length + reference.path.length := by
  simp [indicesOf, leadText]

theorem fragment_of_lead (reference : Reference) :
    (indicesOf reference).fragment = (leadText reference.scheme reference.authority ++
      reference.path ++ queryText reference.query).length := by
  simp [indicesOf, leadText, Nat.add_assoc]

theorem take_scheme (base : Reference) :
    (recompose base).take (indicesOf base).hierPart = schemeText base.scheme := by
  rw [recompose_lead, hierPart_of_scheme, leadText, List.append_assoc, List.append_assoc, List.take_left]

theorem take_lead (base : Reference) :
    (recompose base).take (indicesOf base).path = leadText base.scheme base.authority := by
  rw [recompose_lead, path_of_lead, List.append_assoc, List.take_left]

theorem take_hierarchy (base : Reference) :
    (recompose base).take (indicesOf base).query =
      leadText base.scheme base.authority ++ base.path := by
  rw [recompose_lead, query_of_lead, ← List.length_append, List.take_left]

theorem take_fragment (base : Reference) :
    (recompose base).take (indicesOf base).fragment =
      leadText base.scheme base.authority ++ base.path ++ queryText base.query := by
  rw [recompose_lead, fragment_of_lead, behindPath, ← List.append_assoc, List.take_left]

theorem slash_notMem_leadText (baseFormed : base.WellFormed) (none : base.authority = none) :
    '/' ∉ leadText base.scheme base.authority := by
  rw [leadText, none, authorityText, List.append_nil]
  exact notMem_scheme baseFormed rfl (by decide)

theorem lastSlash_directory (baseFormed : base.WellFormed)
    (unbare : ¬ (base.authority.isSome = true ∧ base.path = [])) :
    ∃ limit, (match findLastOf ((recompose base).take (indicesOf base).query) '/' with
      | none => (indicesOf base).path
      | some lastSlashIndex => lastSlashIndex + 1) = limit ∧
      (recompose base).take limit =
        leadText base.scheme base.authority ++ (base.path.reverse.dropWhile inSegment).reverse ∧
      limit = (leadText base.scheme base.authority).length +
        (base.path.reverse.dropWhile inSegment).length := by
  refine ⟨_, rfl, ?_⟩
  rw [take_hierarchy]
  by_cases slash : '/' ∈ base.path
  · obtain ⟨before, last, split, plain, directory⟩ := directory_split slash
    have found : findLastOf (leadText base.scheme base.authority ++ base.path) '/' =
        some (leadText base.scheme base.authority ++ before).length := by
      rw [split, ← List.append_assoc]
      exact findLastOf_append plain _
    have size : (base.path.reverse.dropWhile inSegment).length = before.length + 1 := by
      rw [← List.length_reverse, directory, List.length_append, List.length_singleton]
    have limit : (leadText base.scheme base.authority ++ before).length + 1 =
        (leadText base.scheme base.authority ++ (before ++ ['/'])).length := by
      simp only [List.length_append, List.length_singleton, Nat.add_assoc]
    have whole : recompose base = leadText base.scheme base.authority ++ (before ++ ['/']) ++
        (last ++ behindPath base) := by
      rw [recompose_lead, split]
      simp
    rw [found, directory, size]
    dsimp only
    rw [limit, whole, List.take_left]
    refine ⟨rfl, ?_⟩
    simp only [List.length_append, List.length_singleton]
  · have noAuthority : base.authority = none := by
      cases present : base.authority with
      | none => rfl
      | some authority =>
        obtain bare | ⟨rest, rooted⟩ := baseFormed.rooted (by rw [present]; rfl)
        · exact absurd ⟨by rw [present]; rfl, bare⟩ unbare
        · exact absurd (by rw [rooted]; simp) slash
    have absent : '/' ∉ leadText base.scheme base.authority ++ base.path := by
      rw [List.mem_append, not_or]
      exact ⟨slash_notMem_leadText baseFormed noAuthority, slash⟩
    have nothing : base.path.reverse.dropWhile inSegment = [] := by
      rw [List.dropWhile_eq_nil_iff]
      exact inSegment_of_plain (by simpa using slash)
    rw [findLastOf_absent absent, nothing]
    dsimp only
    rw [take_lead, path_of_lead]
    simp

variable (baseFormed : base.WellFormed) (wellFormed : reference.WellFormed)
include baseFormed wellFormed

theorem resolveCall_path (relative : reference.scheme = none) (here : reference.authority = none)
    (filled : reference.path ≠ []) :
    resolveCall (recompose base) (recompose reference) =
      some (callOf (leadText base.scheme base.authority) (hierarchicalPath base reference)
        (behindPath reference)) := by
  have size := List.length_pos_iff.mpr filled
  have noScheme : ¬ (indicesOf reference).schemeColon ≠ -1 := by simp [indicesOf, relative, schemeText]
  have path : (indicesOf reference).path = 0 := by
    simp [indicesOf, relative, here, schemeText, authorityText]
  have query : (indicesOf reference).query = reference.path.length := by
    simp [indicesOf, relative, here, schemeText, authorityText]
  have inside : (indicesOf reference).query ≤ (indicesOf reference).fragment := by simp [indicesOf]
  have text : recompose reference = reference.path ++ behindPath reference := by
    rw [recompose_lead, relative, here]
    rfl
  have first : (recompose reference)[0]? = reference.path.head? := by
    rw [text]
    cases whole : reference.path with
    | nil => exact absurd whole filled
    | cons c rest => rfl
  have someFragment : ¬ (indicesOf reference).fragment = 0 := by omega
  have someQuery : ¬ reference.path.length = 0 := by omega
  have noAuthority : ¬ (0 : Nat) ≠ 0 := by simp
  simp only [resolveCall, getUriIndices_recompose wellFormed, getUriIndices_recompose baseFormed,
    if_neg noScheme, if_neg someFragment, query, if_neg someQuery, path, if_neg noAuthority, first]
  by_cases slash : reference.path.head? = some '/'
  · have rooted : hierarchicalPath base reference = reference.path := by
      simp [hierarchicalPath, slash]
    have somePath : 0 ≠ reference.path.length := by omega
    rw [if_pos ⟨somePath, slash⟩, take_lead, path_of_lead, rooted, text, callOf,
      List.append_assoc _ reference.path]
  · have merged : hierarchicalPath base reference = merge base reference.path := by
      simp [hierarchicalPath, slash]
    rw [if_neg (fun rooted => slash rooted.2), merged, merge]
    by_cases bare : base.authority.isSome = true ∧ base.path = []
    · obtain ⟨authority, present⟩ := Option.isSome_iff_exists.mp bare.1
      have colon : (indicesOf base).schemeColon + 2 < (indicesOf base).path := by
        simp only [indicesOf, present, authorityText, List.length_cons]
        omega
      have ends : (indicesOf base).path = (indicesOf base).query := by
        rw [path_of_lead, query_of_lead, bare.2, List.length_nil, Nat.add_zero]
      rw [if_pos ⟨colon, ends⟩, if_pos bare, take_lead, path_of_lead, text, callOf,
        List.append_assoc _ ('/' :: reference.path), List.length_cons, Nat.add_assoc]
      rfl
    · have apart : ¬ ((indicesOf base).schemeColon + 2 < (indicesOf base).path ∧
          (indicesOf base).path = (indicesOf base).query) := by
        rintro ⟨deep, ends⟩
        rw [path_of_lead, query_of_lead] at ends
        refine bare ⟨?_, List.length_eq_zero_iff.mp (by omega)⟩
        cases present : base.authority with
        | none =>
          simp only [indicesOf, present, authorityText, List.length_nil, Nat.add_zero] at deep
          omega
        | some authority => rfl
      obtain ⟨limit, found, taken, length⟩ := lastSlash_directory baseFormed bare
      rw [if_neg apart, if_neg bare, found, taken, path_of_lead, text, length, callOf]
      simp [Nat.add_assoc]

theorem resolveCall_recompose :
    resolveCall (recompose base) (recompose reference) = componentsCall base reference := by
  unfold componentsCall
  cases relative : reference.scheme with
  | some scheme =>
    have absolute : (indicesOf reference).schemeColon ≠ -1 := by
      simp [indicesOf, relative, schemeText]
    rw [if_pos Option.isSome_some, ← relative, resolveCall, getUriIndices_recompose wellFormed]
    dsimp only
    rw [if_pos absolute, path_of_lead, query_of_lead, recompose_lead, callOf]
  | none =>
    have noScheme : ¬ (indicesOf reference).schemeColon ≠ -1 := by
      simp [indicesOf, relative, schemeText]
    rw [if_neg (by simp)]
    cases here : reference.authority with
    | some host =>
      have path : (indicesOf reference).path = host.length + 2 := by
        simp [indicesOf, relative, here, schemeText, authorityText]
      have query : (indicesOf reference).query = host.length + 2 + reference.path.length := by
        simp [indicesOf, relative, here, schemeText, authorityText]
      have inside : (indicesOf reference).query ≤ (indicesOf reference).fragment := by
        simp [indicesOf]
      have text : schemeText base.scheme ++ recompose reference =
          leadText base.scheme (some host) ++ reference.path ++ behindPath reference := by
        rw [recompose_lead, relative, here, leadText, leadText]
        simp [schemeText]
      have lead : (leadText base.scheme (some host)).length =
          (indicesOf base).hierPart + (host.length + 2) := by
        simp [leadText, authorityText, indicesOf, UriIndices.hierPart]
      rw [if_pos Option.isSome_some, resolveCall, getUriIndices_recompose wellFormed,
        getUriIndices_recompose baseFormed]
      dsimp only
      rw [if_neg noScheme, if_neg (by omega), if_neg (by omega), if_pos (by omega), take_scheme, text,
        path, query, callOf, lead]
      simp [Nat.add_assoc]
    | none =>
      rw [if_neg (by simp)]
      by_cases bare : reference.path = []
      · have query : (indicesOf reference).query = 0 := by
          simp [indicesOf, relative, here, bare, schemeText, authorityText]
        rw [if_pos bare, resolveCall, getUriIndices_recompose wellFormed,
          getUriIndices_recompose baseFormed]
        dsimp only
        rw [if_neg noScheme, if_pos query, ite_self]
      · rw [if_neg bare]
        exact resolveCall_path baseFormed wellFormed relative here bare

end Components

theorem resolveCall_components (base reference : Text) :
    resolveCall base reference = componentsCall (components base) (components reference) := by
  rw [← resolveCall_recompose (components_wellFormed base) (components_wellFormed reference),
    recompose_components, recompose_components]

end NDash.Util.UriUtil
