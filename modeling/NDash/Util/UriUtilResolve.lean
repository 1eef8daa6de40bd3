import NDash.Util.UriUtilCalls
import NDash.Util.UriUtilRoot

set_option autoImplicit false

namespace NDash.Util.UriUtil

open Machine Uri

theorem charAt_append (front rest : Text) (c : Char) : charAt (front ++ c :: rest) front.length = .ok c := by
  simp [charAt]

theorem returns_iff {offset : Nat} {scan : DotScan} {result : Text} :
    (∃ rounds, ((dotLoop offset).run .diverges rounds scan).bind (fun scan => .ok scan.uri) = .ok result) ↔
      ∃ final, (dotLoop offset).Returns .diverges scan final ∧ final.uri = result := by
  constructor
  · rintro ⟨rounds, bound⟩
    obtain ⟨final, returned, uri⟩ := bind_ok bound
    exact ⟨final, ⟨rounds, returned⟩, Except.ok.inj uri⟩
  · rintro ⟨final, ⟨rounds, returned⟩, uri⟩
    refine ⟨rounds, ?_⟩
    simp only [returned, Except.bind, uri]

theorem removeDotSegments_slash (rounds : Nat) (front rest post : Text) :
    removeDotSegments rounds (front ++ '/' :: rest ++ post) front.length
        (front.length + ('/' :: rest).length) =
      ((dotLoop (front ++ ['/']).length).run .diverges rounds (scanAt (front ++ ['/']) rest post)).bind
        fun scan => .ok scan.uri := by
  have inside : ¬ front.length ≥ front.length + ('/' :: rest).length := by simp
  have slash : charAt (front ++ '/' :: rest ++ post) front.length = .ok '/' := by
    rw [List.append_assoc]
    exact charAt_append front (rest ++ post) '/'
  have start : scanAt (front ++ ['/']) rest post =
      ⟨front ++ '/' :: rest ++ post, front.length + ('/' :: rest).length, front.length + 1,
        front.length + 1⟩ := by
    simp [scanAt]
    omega
  simp only [removeDotSegments, if_neg inside, slash, bind, Except.bind, if_true]
  rw [start]
  simp only [List.length_append, List.length_singleton]

theorem removeDotSegments_iff {origin authority path post : Text} (plainOrigin : '/' ∉ origin)
    (namedOrigin : ¬ Dots origin) (plain : '/' ∉ authority) (other : post.head? ≠ some '.')
    (rooted : path = [] ∨ ∃ rest, path = '/' :: rest) :
    (∃ rounds, removeDotSegments rounds (rootOf origin ++ authority ++ path ++ post)
        (rootOf origin ++ authority).length ((rootOf origin ++ authority).length + path.length) =
      .ok (rootOf origin ++ authority ++ Uri.removeDotSegments path ++ post)) ↔
      KeepsDirectories authority (segments (path.drop 1)) := by
  rcases rooted with rfl | ⟨rest, rfl⟩
  · refine iff_of_true ⟨0, ?_⟩ ?_
    · simp [removeDotSegments, Uri.removeDotSegments, removeDotSegmentsFrom]
    · unfold KeepsDirectories
      split <;> rfl
  · have some := segments_ne_nil rest
    have plainNames : ∀ name ∈ segments rest, '/' ∉ name := fun _ => slash_notMem_of_mem_segments
    have returns := scanPath_returns_iff plainOrigin namedOrigin plain other some plainNames
    have settled : Uri.removeDotSegments ('/' :: rest) =
        '/' :: join (settle List.tail [] (segments rest)).reverse := by
      rw [removeDotSegments_rooted, slashed_eq]
      simpa using settle_ne_nil List.tail some
    have start : scanPath (leadOf origin authority) [] (segments rest) post =
        scanAt (rootOf origin ++ authority ++ ['/']) rest post := by
      simp [scanPath, flat, leadOf, join_segments]
    have result : rootOf origin ++ authority ++ Uri.removeDotSegments ('/' :: rest) ++ post =
        leadOf origin authority ++ join (settle List.tail [] (segments rest)).reverse ++ post := by
      rw [settled]
      simp [leadOf]
    rw [List.drop_one, List.tail_cons, ← returns, start, result, leadOf]
    simp only [removeDotSegments_slash]
    exact returns_iff

theorem scanAt_dotFree (offset : Nat) (front post : Text) {names : List Text} (some : names ≠ [])
    (plain : ∀ name ∈ names, '/' ∉ name) (free : ∀ name ∈ names, ¬ Dots name) :
    ∃ last, (dotLoop offset).Reaches (scanAt front (join names) post) last ∧
      (dotLoop offset).going last = false ∧ last.uri = front ++ join names ++ post := by
  induction names generalizing front with
  | nil => exact absurd rfl some
  | cons segment more ih =>
    have cut := cut_join (plain segment (by simp)) more
    by_cases last : more = []
    · subst last
      exact cut.named_last (free segment (by simp))
    · rw [if_neg last] at cut
      obtain ⟨final, reaches, stopped, uri⟩ := ih (front ++ segment ++ ['/']) last
        (fun name member => plain name (by simp [member]))
        (fun name member => free name (by simp [member]))
      refine ⟨final, ?_, stopped, ?_⟩
      · exact (cut.named_path (free segment (by simp))).to_reflTransGen.trans reaches
      · rw [uri, join_cons segment last]
        simp

theorem removeDotSegments_other (rounds : Nat) (front rest post : Text) {first : Char}
    (other : first ≠ '/') :
    removeDotSegments rounds (front ++ first :: rest ++ post) front.length
        (front.length + (first :: rest).length) =
      ((dotLoop front.length).run .diverges rounds (scanAt front (first :: rest) post)).bind
        fun scan => .ok scan.uri := by
  have inside : ¬ front.length ≥ front.length + (first :: rest).length := by simp
  have start : charAt (front ++ first :: rest ++ post) front.length = .ok first := by
    rw [List.append_assoc]
    exact charAt_append front (rest ++ post) first
  simp only [removeDotSegments, if_neg inside, start, bind, Except.bind, if_neg other, scanAt]

theorem removeDotSegments_dotFree (front path post : Text) (free : DotFree path) :
    ∃ rounds, removeDotSegments rounds (front ++ path ++ post) front.length
      (front.length + path.length) = .ok (front ++ path ++ post) := by
  have returned (offset : Nat) (front rest : Text) (free : DotFree rest) :
      ∃ final, (dotLoop offset).Returns .diverges (scanAt front rest post) final ∧
        final.uri = front ++ rest ++ post := by
    obtain ⟨last, reaches, stopped, uri⟩ := scanAt_dotFree offset front post (segments_ne_nil rest)
      (fun _ => slash_notMem_of_mem_segments) free
    rw [join_segments] at reaches uri
    exact ⟨last, (Loop.returns_iff_of_reaches reaches).mpr
      ((Loop.returns_iff_of_stopped stopped).mpr rfl), uri⟩
  cases path with
  | nil => exact ⟨0, by simp [removeDotSegments]⟩
  | cons first rest =>
    by_cases slash : first = '/'
    · subst slash
      have freeRest : DotFree rest := by
        intro name member
        exact free name (by simp [segments, member])
      have whole : front ++ '/' :: rest ++ post = front ++ ['/'] ++ rest ++ post := by simp
      simp only [removeDotSegments_slash]
      rw [whole]
      exact returns_iff.mpr (returned _ _ _ freeRest)
    · simp only [removeDotSegments_other _ _ _ _ slash]
      exact returns_iff.mpr (returned _ _ _ free)

/-- Which references the source resolves as the RFC does. -/
def Resolves (base reference : Reference) : Prop :=
  if reference.scheme.isSome then DotFree reference.path
  else if reference.authority.isSome then
    KeepsDirectories (reference.authority.getD []) (segments (reference.path.drop 1))
  else
    reference.path = [] ∨ KeepsDirectories (base.authority.getD [])
      (segments ((hierarchicalPath base reference).drop 1))

instance (base reference : Reference) : Decidable (Resolves base reference) :=
  inferInstanceAs (Decidable
    (if reference.scheme.isSome then _ else if reference.authority.isSome then _ else _))

section Resolve

variable {base reference : Reference} {scheme authority : Text}

theorem origin_plain (wellFormed : base.WellFormed) (present : base.scheme = some scheme) :
    '/' ∉ scheme ++ [':'] := by
  have absent := notMem_of_class (c := '/') (wellFormed.scheme scheme present) rfl
  simp [absent]

theorem origin_named (scheme : Text) : ¬ Dots (scheme ++ [':']) := by
  rintro (same | same)
  · simpa using congrArg List.getLast? same
  · simpa using congrArg List.getLast? same

theorem relative_index (wellFormed : reference.WellFormed) (relative : reference.scheme = none) :
    (getUriIndices (recompose reference)).schemeColon = -1 := by
  rw [getUriIndices_recompose wellFormed]
  simp [indicesOf, relative, schemeText]

theorem resolve_absolute (rounds : Nat) (wellFormed : reference.WellFormed)
    (present : reference.scheme = some scheme) (base : Text) :
    resolve rounds base (recompose reference) =
      (removeDotSegments rounds (recompose reference) (indicesOf reference).path
        (indicesOf reference).query).bind fun _ => .ok (recompose reference) := by
  have absolute : (indicesOf reference).schemeColon ≠ -1 := by
    simp [indicesOf, present, schemeText]
  simp only [resolve, getUriIndices_recompose wellFormed, if_pos absolute, bind]

-- The dot segments of an absolute reference stay, as the text without them is dropped.
theorem resolve_absolute_iff (wellFormed : reference.WellFormed)
    (present : reference.scheme = some scheme) (text : Text) :
    (∃ rounds, resolve rounds text (recompose reference) = .ok (recompose (transform base reference))) ↔
      DotFree reference.path := by
  have target : transform base reference =
      { reference with path := Uri.removeDotSegments reference.path } := by
    simp [transform, present]
  have changed : recompose (transform base reference) =
      leadText reference.scheme reference.authority ++ Uri.removeDotSegments reference.path ++
        behindPath reference := by
    rw [target]
    exact recompose_lead _
  rw [← removeDotSegments_eq_self_iff]
  simp only [resolve_absolute _ wellFormed present]
  constructor
  · rintro ⟨rounds, resolved⟩
    obtain ⟨-, -, same⟩ := bind_ok resolved
    rw [Except.ok.injEq, changed, recompose_lead] at same
    exact (List.append_cancel_left (List.append_cancel_right same)).symm
  · intro same
    obtain ⟨rounds, removed⟩ := removeDotSegments_dotFree
      (leadText reference.scheme reference.authority) reference.path (behindPath reference) ((removeDotSegments_eq_self_iff _).mp same)
    refine ⟨rounds, ?_⟩
    rw [changed, same, path_of_lead, query_of_lead, recompose_lead, removed]
    rfl

section Relative

variable (present : base.scheme = some scheme) (named : base.authority = some authority)
include present named

variable (baseFormed : base.WellFormed) (wellFormed : reference.WellFormed)
  (relative : reference.scheme = none)
include baseFormed wellFormed relative

omit named in
theorem resolve_network (rounds : Nat) {host : Text} (network : reference.authority = some host) :
    resolve rounds (recompose base) (recompose reference) =
      removeDotSegments rounds
        (rootOf (scheme ++ [':']) ++ host ++ reference.path ++ behindPath reference)
        (rootOf (scheme ++ [':']) ++ host).length
        ((rootOf (scheme ++ [':']) ++ host).length + reference.path.length) := by
  have made : resolveCall (recompose base) (recompose reference) =
      some (callOf (leadText base.scheme (some host)) reference.path (behindPath reference)) := by
    rw [resolveCall_recompose baseFormed wellFormed, componentsCall, relative, network]
    rfl
  have lead : leadText base.scheme (some host) = rootOf (scheme ++ [':']) ++ host := by
    simp [leadText, present, schemeText, authorityText, rootOf]
  rw [resolve_of_relative rounds (relative_index wellFormed relative) made, lead]
  rfl

omit present named in
theorem resolve_same (rounds : Nat) (here : reference.authority = none) (path : reference.path = []) :
    resolve rounds (recompose base) (recompose reference) = .ok (recompose (transform base reference)) := by
  have noScheme : ¬ (indicesOf reference).schemeColon ≠ -1 := by simp [indicesOf, relative, schemeText]
  have query : (indicesOf reference).query = 0 := by
    simp [indicesOf, relative, here, path, schemeText, authorityText]
  have text : recompose reference = behindPath reference := by
    rw [recompose_lead, relative, here, path]
    rfl
  have target : recompose (transform base reference) = leadText base.scheme base.authority ++
      base.path ++ queryText (if reference.query.isSome then reference.query else base.query) ++
        fragmentText reference.fragment := by
    simp [transform, relative, here, path, recompose, leadText]
  simp only [resolve, getUriIndices_recompose wellFormed, getUriIndices_recompose baseFormed,
    if_neg noScheme, query, if_true]
  cases asked : reference.query with
  | none =>
    have fragment : (indicesOf reference).fragment = 0 := by
      simp [indicesOf, relative, here, path, asked, schemeText, authorityText, queryText]
    rw [if_pos fragment, take_fragment, target, text, behindPath, asked]
    simp [queryText]
  | some wanted =>
    have fragment : ¬ (indicesOf reference).fragment = 0 := by
      simp [indicesOf, asked, queryText]
    rw [if_neg fragment, take_hierarchy, target, text, behindPath, asked]
    simp

omit present wellFormed relative in
theorem hierarchicalPath_rooted (filled : reference.path ≠ []) :
    ∃ rest, hierarchicalPath base reference = '/' :: rest := by
  unfold hierarchicalPath merge
  split
  next slash =>
    cases path : reference.path with
    | nil => exact absurd path filled
    | cons c rest =>
      rw [path] at slash
      obtain rfl : c = '/' := by simpa using slash
      exact ⟨rest, rfl⟩
  next =>
    split
    next => exact ⟨reference.path, rfl⟩
    next full =>
      have someBase : base.path ≠ [] := by simpa [named] using full
      obtain ⟨later, path⟩ := (baseFormed.rooted (by rw [named]; rfl)).resolve_left someBase
      obtain ⟨before, last, split, plain, directory⟩ := directory_split (show '/' ∈ base.path by simp [path])
      rw [directory]
      cases before with
      | nil => exact ⟨reference.path, rfl⟩
      | cons c before =>
        obtain rfl : '/' = c := by
          rw [path] at split
          simpa using congrArg List.head? split
        exact ⟨before ++ ['/'] ++ reference.path, by simp⟩

theorem resolve_path (rounds : Nat) (here : reference.authority = none) (filled : reference.path ≠ []) :
    resolve rounds (recompose base) (recompose reference) =
      removeDotSegments rounds (rootOf (scheme ++ [':']) ++ authority ++
          hierarchicalPath base reference ++ behindPath reference)
        (rootOf (scheme ++ [':']) ++ authority).length
        ((rootOf (scheme ++ [':']) ++ authority).length +
          (hierarchicalPath base reference).length) := by
  have made : resolveCall (recompose base) (recompose reference) =
      some (callOf (leadText base.scheme base.authority) (hierarchicalPath base reference)
        (behindPath reference)) := resolveCall_path baseFormed wellFormed relative here filled
  have lead : leadText base.scheme base.authority = rootOf (scheme ++ [':']) ++ authority := by
    simp [leadText, present, named, schemeText, authorityText, rootOf]
  rw [resolve_of_relative rounds (relative_index wellFormed relative) made, lead]
  rfl

theorem resolve_relative_iff :
    (∃ rounds, resolve rounds (recompose base) (recompose reference) =
      .ok (recompose (transform base reference))) ↔ Resolves base reference := by
  have origin := origin_plain baseFormed present
  have behind := behindPath_head reference
  cases host : reference.authority with
  | some host' =>
    have target : recompose (transform base reference) = rootOf (scheme ++ [':']) ++ host' ++
        Uri.removeDotSegments reference.path ++ behindPath reference := by
      simp [transform, relative, host, recompose, present, schemeText, authorityText, rootOf, behindPath]
    have plain := notMem_of_class (c := '/') (wellFormed.authority host' host) rfl
    have resolves : Resolves base reference ↔
        KeepsDirectories host' (segments (reference.path.drop 1)) := by
      simp [Resolves, relative, host]
    simp only [resolve_network present baseFormed wellFormed relative _ host, target]
    rw [resolves]
    exact removeDotSegments_iff origin (origin_named scheme) plain behind
      (wellFormed.rooted (by rw [host]; rfl))
  | none =>
    by_cases bare : reference.path = []
    · refine iff_of_true ⟨0, ?_⟩ ?_
      · exact resolve_same baseFormed wellFormed relative 0 host bare
      · simp [Resolves, relative, host, bare]
    · have target : recompose (transform base reference) = rootOf (scheme ++ [':']) ++ authority ++
          Uri.removeDotSegments (hierarchicalPath base reference) ++ behindPath reference := by
        simp [transform, relative, host, bare, recompose, present, named, schemeText, authorityText,
          rootOf, behindPath]
      have plain := notMem_of_class (c := '/') (baseFormed.authority authority named) rfl
      have resolves : Resolves base reference ↔
          KeepsDirectories authority (segments ((hierarchicalPath base reference).drop 1)) := by
        simp [Resolves, relative, host, bare, named]
      simp only [resolve_path present named baseFormed wellFormed relative _ host bare, target]
      rw [resolves]
      exact removeDotSegments_iff origin (origin_named scheme) plain behind
        (.inr (hierarchicalPath_rooted named baseFormed bare))

end Relative

end Resolve

theorem resolve_colon (rounds : Nat) (base rest : Text) :
    resolve rounds base (':' :: rest) =
      (removeDotSegments rounds (':' :: rest) (getUriIndices (':' :: rest)).path
        (getUriIndices (':' :: rest)).query).bind fun _ => .ok (':' :: rest) := by
  have absolute : (getUriIndices (':' :: rest)).schemeColon ≠ -1 := by
    simp [getUriIndices, find, unlessBehind]
  simp only [resolve, if_pos absolute, bind]

theorem resolve_eq_target_iff (base reference : Text) {scheme authority : Text}
    (present : (parse base).scheme = some scheme) (named : (parse base).authority = some authority) :
    (∃ rounds, resolve rounds base reference = .ok (Uri.resolve base reference)) ↔
      reference.head? ≠ some ':' ∧ Resolves (parse base) (parse reference) := by
  obtain ⟨first, later, rfl, head, other⟩ := splitScheme_some present
  have baseFormed : (parse base).WellFormed := by
    refine parse_wellFormed ?_
    rw [head]
    simpa using other
  by_cases colon : reference.head? = some ':'
  · refine iff_of_false ?_ fun both => both.1 colon
    rintro ⟨rounds, resolved⟩
    cases reference with
    | nil => cases colon
    | cons c rest =>
      obtain rfl : c = ':' := by simpa using colon
      rw [resolve_colon] at resolved
      obtain ⟨-, -, same⟩ := bind_ok resolved
      have noScheme : (parse (':' :: rest)).scheme = none := by
        simp [parse, splitScheme, inScheme]
      have scheme : (transform (parse base) (parse (':' :: rest))).scheme = some (first :: later) := by
        simp only [transform, noScheme, Option.isSome_none, Bool.false_eq_true, if_false]
        split
        · exact present
        · split <;> exact present
      rw [Except.ok.injEq, Uri.resolve, recompose, scheme] at same
      have heads := congrArg List.head? same
      simp only [schemeText, List.cons_append, List.head?_cons, Option.some.injEq] at heads
      exact other heads.symm
  · have wellFormed := parse_wellFormed colon
    have texts (rounds : Nat) : resolve rounds base reference =
        resolve rounds (recompose (parse base)) (recompose (parse reference)) := by
      rw [recompose_parse, recompose_parse]
    simp only [texts, Uri.resolve, ne_eq, colon, not_false_eq_true, true_and]
    cases absolute : (parse reference).scheme with
    | some scheme =>
      rw [resolve_absolute_iff wellFormed absolute]
      simp [Resolves, absolute]
    | none => exact resolve_relative_iff present named baseFormed wellFormed absolute

theorem resolve_eq_target_up_and_down :
    ∃ rounds, resolve rounds "http://somewhere/some/other".toList "../path/./x?y".toList =
      .ok (Uri.resolve "http://somewhere/some/other".toList "../path/./x?y".toList) :=
  have present : (parse "http://somewhere/some/other".toList).scheme = some "http".toList := by decide
  have named : (parse "http://somewhere/some/other".toList).authority = some "somewhere".toList := by
    decide
  (resolve_eq_target_iff _ _ present named).mpr ⟨by decide, by decide⟩

theorem resolve_keeps_dot_segments :
    ¬ ∃ rounds, resolve rounds "http://somewhere/".toList "http://absolute/some/../path".toList =
      .ok (Uri.resolve "http://somewhere/".toList "http://absolute/some/../path".toList) := by
  rintro ⟨rounds, resolved⟩
  have absolute : (getUriIndices "http://absolute/some/../path".toList).schemeColon ≠ -1 := by decide
  simp only [resolve, if_pos absolute] at resolved
  obtain ⟨-, -, same⟩ := bind_ok resolved
  exact absurd same (by decide)

end NDash.Util.UriUtil
