import NDash.Util.UriUtilSafetyDotted

set_option autoImplicit false

namespace NDash.Util.UriUtil

open Machine Uri

variable {offset : Nat} {lead front path post segment : Text} {stack more names : List Text}

/-! Calls that are not safe -/

theorem not_safe_of_reached (filled : path ≠ []) {scan : DotScan}
    (reaches : (dotLoop (startOf lead path).1.length).Reaches
      (scanAt (startOf lead path).1 (startOf lead path).2 post) scan)
    (going : (dotLoop (startOf lead path).1.length).going scan = true)
    (escapes : ¬ RoundSafe (startOf lead path).1.length scan) :
    ¬ (callOf lead path post).Safe := by
  intro safe
  have inside : (callOf lead path post).offset < (callOf lead path post).limit := by
    have := List.length_pos_iff.mpr filled
    simp only [callOf]
    omega
  have rounds := safe.rounds inside
  rw [enters_callOf filled, pathStart_callOf post filled] at rounds
  exact escapes (rounds scan reaches going)

theorem reaches_met {atRoot : List Text → Bool}
    (passes : ∀ stack segment more, (∀ name ∈ stack, '/' ∉ name) → '/' ∉ segment → more ≠ [] →
      ¬ (segment = ['.', '.'] ∧ atRoot stack = true) →
        (dotLoop offset).Reaches (scanPath lead stack (segment :: more) post)
          (scanPath lead (visit climb stack segment) more post))
    (plainStack : ∀ name ∈ stack, '/' ∉ name) (plain : ∀ name ∈ names, '/' ∉ name)
    (met : meets atRoot stack names = some more) :
    ∃ stack', atRoot stack' = true ∧ (dotLoop offset).Reaches (scanPath lead stack names post)
      (scanPath lead stack' (['.', '.'] :: more) post) := by
  induction names generalizing stack with
  | nil => cases met
  | cons segment later ih =>
    obtain ⟨plainSegment, plainLater⟩ := List.forall_mem_cons.mp plain
    by_cases up : segment = ['.', '.'] ∧ atRoot stack = true
    · rw [meets, if_pos up] at met
      cases met
      exact ⟨stack, up.2, up.1 ▸ .refl⟩
    · rw [meets_of_named up] at met
      have some : later ≠ [] := by
        rintro rfl
        cases met
      obtain ⟨stack', root, reaches⟩ := ih
        (plain_visit climb (fun _ _ => mem_of_mem_climb) plainSegment plainStack) plainLater met
      exact ⟨stack', root, (passes stack segment later plainStack plainSegment some up).trans reaches⟩

theorem reaches_visit (boundary : Boundary lead) (plainStack : ∀ name ∈ stack, '/' ∉ name)
    (plain : '/' ∉ segment) (some : more ≠ [])
    (deep : segment = ['.', '.'] → shallow stack = false) :
    (dotLoop lead.length).Reaches (scanPath lead stack (segment :: more) post)
      (scanPath lead (visit climb stack segment) more post) := by
  have passes : Passes lead.length post (lead ++ flat stack) (join (segment :: more))
      (lead ++ flat (visit climb stack segment)) (join (orEmpty more)) :=
    passes_visit boundary plainStack plain (.inr some) deep
  rw [orEmpty, if_neg some] at passes
  exact passes.path.to_reflTransGen

theorem not_roundSafe_short (short : front.length < 2) (slash : '/' ∈ join more ++ post) :
    ¬ RoundSafe offset
      (scanWithin front (join (['.', '.'] :: more)) post ['.', '.']) := by
  intro safe
  have cut : Cut (join (['.', '.'] :: more)) ['.', '.'] (if more = [] then [] else ['/'])
      (join more) := cut_join (by decide) more
  obtain ⟨before, word, split, plain⟩ := last_slash slash
  have whole : front ++ join (['.', '.'] :: more) ++ post =
      front ++ ['.', '.'] ++ (if more = [] then [] else ['/']) ++ before ++ '/' :: word := by
    rw [cut.whole, List.append_assoc, List.append_assoc, List.append_assoc, split]
    simp only [List.append_assoc]
  have start : (scanAt front (join (['.', '.'] :: more)) post).prevSegmentStart =
      (front ++ ['.', '.'] ++ (if more = [] then [] else ['/']) ++ before).length + 1 := by
    rw [prevSegmentStart_short short, whole, findLastOf_append plain]
    rfl
  have erases := safe.erases _ _ (by rw [cut.erased_eq, if_neg (by decide), if_pos rfl])
  rw [start] at erases
  simp only [List.length_append] at erases
  omega

theorem not_safe_of_lost (filled : path ≠ [])
    (lost : ∀ final, (dotLoop (startOf lead path).1.length).Returns .diverges
      (scanAt (startOf lead path).1 (startOf lead path).2 post) final → ¬ lead <+: final.uri) :
    ¬ (callOf lead path post).Safe := by
  intro safe
  obtain ⟨rounds, middle, returned⟩ := safe.returns
  have taken : (callOf lead path post).uri.take (callOf lead path post).offset = lead := by
    simp [callOf]
  rw [result_callOf filled, enters_callOf filled, pathStart_callOf post filled, taken] at returned
  obtain ⟨final, stopped, uri⟩ := bind_ok returned
  refine lost final ⟨rounds, stopped⟩ ?_
  rw [Except.ok.inj uri, List.append_assoc]
  exact List.prefix_append _ _

/-! A dotted authority -/

section Dotted

variable {origin authority rest : Text}

theorem startOf_slash (lead rest : Text) : startOf lead ('/' :: rest) = (lead ++ ['/'], rest) := rfl

theorem reaches_root (dotted : Dots authority) (met : meets shallow [] (segments rest) = some more)
    (post : Text) :
    (dotLoop (leadOf origin authority).length).Reaches (scanAt (leadOf origin authority) rest post)
      (scanAt (rootOf origin) (authority ++ '/' :: join more) post) := by
  have plain : '/' ∉ authority := by rcases dotted with rfl | rfl <;> decide
  have boundary : Boundary (leadOf origin authority) := .inr (slash_ends_lead origin authority)
  have plainNames : ∀ name ∈ segments rest, '/' ∉ name := fun _ => slash_notMem_of_mem_segments
  have start : scanPath (leadOf origin authority) [] (segments rest) post =
      scanAt (leadOf origin authority) rest post := by
    simp [scanPath, flat, join_segments]
  have passes (stack : List Text) (segment : Text) (more : List Text)
      (plainStack : ∀ name ∈ stack, '/' ∉ name) (plain : '/' ∉ segment) (some : more ≠ [])
      (deep : ¬ (segment = ['.', '.'] ∧ shallow stack = true)) :
      (dotLoop (leadOf origin authority).length).Reaches
        (scanPath (leadOf origin authority) stack (segment :: more) post)
        (scanPath (leadOf origin authority) (visit climb stack segment) more post) :=
    reaches_visit boundary plainStack plain some fun up => by simpa [up] using deep
  obtain ⟨stack', root, walked⟩ := reaches_met passes (List.forall_mem_nil _) plainNames met
  have empty : stack' = [] ∨ stack' = [[]] := by
    simpa [shallow] using root
  rw [← start]
  obtain ⟨front, later, back, ⟨rfl, rfl⟩ | ⟨none, -⟩⟩ :=
    scanPath_root origin post more plain empty
  · rw [← join_orEmpty more]
    exact walked.trans back.to_reflTransGen
  · rcases dotted with nothing | nothing <;> simp [none] at nothing

-- An authority `.` is erased then, and what takes its place may be something else.
theorem not_safe_dot (plainOrigin : '/' ∉ origin) (namedOrigin : ¬ Dots origin)
    (other : post.head? ≠ some '.') (lost : ¬ Rejoins [] (segments rest)) :
    ¬ (callOf (rootOf origin ++ ['.']) ('/' :: rest) post).Safe := by
  unfold Rejoins at lost
  push Not at lost
  obtain ⟨more, met, lost⟩ := lost
  refine not_safe_of_lost (List.cons_ne_nil _ _) fun final returns => ?_
  have reaches : (dotLoop (leadOf origin ['.']).length).Reaches (scanAt (leadOf origin ['.']) rest post)
      (scanAt (rootOf origin) (['.'] ++ '/' :: join more) post) := reaches_root (.inl rfl) met post
  have plain : '/' ∉ (['.'] : Text) := by decide
  have erased := reaches.trans (cut_slash plain (join more)).dot_path.to_reflTransGen
  exact lost_of_not_restored plainOrigin namedOrigin other (by simpa using lost)
    ((Loop.returns_iff_of_reaches erased).mp returns)

theorem endless_dotDot (plainOrigin : '/' ∉ origin) (namedOrigin : ¬ Dots origin)
    (met : meets shallow [] (segments rest) = some more) (post : Text) (final : DotScan) :
    ¬ (dotLoop (leadOf origin ['.', '.']).length).Returns .diverges
      (scanAt (leadOf origin ['.', '.']) rest post) final := by
  intro returns
  have reaches : (dotLoop (leadOf origin ['.', '.']).length).Reaches
      (scanAt (leadOf origin ['.', '.']) rest post)
      (scanAt (rootOf origin) (['.', '.'] ++ '/' :: join more) post) :=
    reaches_root (.inr rfl) met post
  exact Loop.not_returns_of_cycle (dotDot_cycle post (join more) plainOrigin namedOrigin)
    ((Loop.returns_iff_of_reaches reaches).mp returns)

theorem not_safe_dotDot (plainOrigin : '/' ∉ origin) (namedOrigin : ¬ Dots origin)
    (met : meets shallow [] (segments rest) = some more) (post : Text) :
    ¬ (callOf (rootOf origin ++ ['.', '.']) ('/' :: rest) post).Safe :=
  not_safe_of_lost (List.cons_ne_nil _ _) fun final returns =>
    absurd returns (endless_dotDot plainOrigin namedOrigin met post final)

end Dotted

/-! A path with too little in front of it -/

theorem exists_of_not_unslashed {met : Option (List Text)} (slashed : ¬ Unslashed met post) :
    ∃ more, met = some more ∧ '/' ∈ join more ++ post := by
  unfold Unslashed at slashed
  push Not at slashed
  exact slashed

theorem not_safe_of_short (filled : path ≠ [])
    (reaches : (dotLoop (startOf lead path).1.length).Reaches
      (scanAt (startOf lead path).1 (startOf lead path).2 post)
      (scanAt front (join (['.', '.'] :: more)) post))
    (short : front.length < 2) (slash : '/' ∈ join more ++ post) :
    ¬ (callOf lead path post).Safe := by
  have cut : Cut (join (['.', '.'] :: more)) ['.', '.'] (if more = [] then [] else ['/'])
      (join more) := cut_join (by decide) more
  exact not_safe_of_reached filled (reaches.trans cut.reaches) cut.going
    (not_roundSafe_short short slash)

theorem reaches_reread (post : Text) (more : List Text) :
    (dotLoop 1).Reaches (scanPath ['/'] [[]] (['.', '.'] :: more) post)
      (scanPath ['/'] [] more post) := by
  have unnamed : ¬ Dots ([] : Text) := by decide
  have back : Relation.TransGen (dotLoop 1).Steps (scanAt ['/', '/'] (join (['.', '.'] :: more)) post)
      (scanAt [] ('/' :: join more) post) := (passes_reread post more).path
  have again : Relation.TransGen (dotLoop 1).Steps (scanAt [] ([] ++ '/' :: join more) post)
      (scanAt ['/'] (join more) post) := (cut_slash List.not_mem_nil (join more)).named_path unnamed
  exact (back.trans again).to_reflTransGen

theorem not_safe_of_bare (filled : path ≠ []) (bare : Bare (startOf lead path).1)
    (slashed : ¬ BareGoes (startOf lead path).1 post [] (segments (startOf lead path).2)) :
    ¬ (callOf lead path post).Safe := by
  obtain ⟨more, met, slash⟩ := exists_of_not_unslashed slashed
  generalize started : startOf lead path = parts at bare met
  obtain ⟨front, rest⟩ := parts
  have passes (stack : List Text) (segment : Text) (more : List Text)
      (plainStack : ∀ name ∈ stack, '/' ∉ name) (plain : '/' ∉ segment) (some : more ≠ [])
      (deep : ¬ (segment = ['.', '.'] ∧ short front stack = true)) :
      (dotLoop front.length).Reaches (scanPath front stack (segment :: more) post)
        (scanPath front (visit climb stack segment) more post) := by
    by_cases reread : segment = ['.', '.'] ∧ front = ['/'] ∧ stack = [[]]
    · obtain ⟨rfl, rfl, rfl⟩ := reread
      exact reaches_reread post more
    · refine reaches_visit bare.boundary plainStack plain some fun up => ?_
      have far : short front stack = false := by simpa [up] using deep
      exact (bare.shallow_cases far).resolve_right fun start => reread ⟨up, start⟩
  have plainNames : ∀ name ∈ segments rest, '/' ∉ name := fun _ => slash_notMem_of_mem_segments
  obtain ⟨stack', root, walked⟩ := reaches_met passes (List.forall_mem_nil _) plainNames met
  have start : scanPath front [] (segments rest) post = scanAt front rest post := by
    simp [scanPath, flat, join_segments]
  rw [start] at walked
  refine not_safe_of_short filled ?_ (of_decide_eq_true root) slash
  rw [started]
  exact walked

theorem reaches_leadingUp (met : leadingUp names = some more) :
    (dotLoop offset).Reaches (scanAt front (join names) post)
      (scanAt front (join (['.', '.'] :: more)) post) := by
  induction names with
  | nil => cases met
  | cons segment later ih =>
    unfold leadingUp at met
    split at met
    · next dot =>
      subst dot
      have cut : Cut (join (['.'] :: later)) ['.'] (if later = [] then [] else ['/'])
          (join later) := cut_join (by decide) later
      exact cut.dot_path.to_reflTransGen.trans (ih met)
    · split at met
      · next up =>
        cases met
        rw [up]
        exact .refl
      · cases met

theorem not_safe_of_colon (filled : path ≠ []) (rootless : path.head? ≠ some '/')
    (slashed : ¬ Unslashed (leadingUp (segments path)) post) :
    ¬ (callOf [':'] path post).Safe := by
  obtain ⟨more, met, slash⟩ := exists_of_not_unslashed slashed
  refine not_safe_of_short filled ?_ (show ([':'] : Text).length < 2 by decide) slash
  rw [startOf_other rootless]
  have walked : (dotLoop 1).Reaches (scanAt [':'] (join (segments path)) post)
      (scanAt [':'] (join (['.', '.'] :: more)) post) :=
    reaches_leadingUp met
  rwa [join_segments] at walked

/-! Every call -/

-- A dotted authority stands if no `..` is met at its root; of a `.` it is enough that what takes its
-- place begins with a dot again.
def HostWithstands (host path : Text) : Prop :=
  if host = ['.'] then Rejoins [] (segments (path.drop 1))
  else if host = ['.', '.'] then meets shallow [] (segments (path.drop 1)) = none
  else True

/-- Where nothing of the path takes the loop astray. What stands in front of the path is read again
unchanged, unless it is a dotted authority, or too short to go back in. -/
def Withstands (scheme authority : Option Text) (path post : Text) : Prop :=
  match authority, scheme with
  | some host, _ => HostWithstands host path
  | none, some (_ :: _) => True
  | none, some [] => path.head? ≠ some '/' → Unslashed (leadingUp (segments path)) post
  | none, none => BareGoes (startOf [] path).1 post [] (segments (startOf [] path).2)

instance (met : Option (List Text)) (post : Text) : Decidable (Unslashed met post) :=
  inferInstanceAs (Decidable (∀ more ∈ met, _))

instance (stack names : List Text) : Decidable (Rejoins stack names) :=
  inferInstanceAs (Decidable (∀ more ∈ meets shallow stack names, _))

instance (host path : Text) : Decidable (HostWithstands host path) :=
  inferInstanceAs (Decidable (if host = ['.'] then _ else if host = ['.', '.'] then _ else True))

instance (scheme authority : Option Text) (path post : Text) :
    Decidable (Withstands scheme authority path post) :=
  match authority, scheme with
  | some host, _ => inferInstanceAs (Decidable (HostWithstands host path))
  | none, some (_ :: _) => inferInstanceAs (Decidable True)
  | none, some [] =>
    inferInstanceAs (Decidable (path.head? ≠ some '/' → Unslashed (leadingUp (segments path)) post))
  | none, none => inferInstanceAs (Decidable (Unslashed (meets _ _ _) post))

theorem hostWithstands_nil (host : Text) : HostWithstands host [] := by
  unfold HostWithstands
  split_ifs
  · exact nofun
  · rfl

theorem withstands_nil (scheme authority : Option Text) (post : Text) :
    Withstands scheme authority [] post := by
  match authority, scheme with
  | some host, _ => exact hostWithstands_nil host
  | none, some (_ :: _) => trivial
  | none, some [] => exact fun _ => nofun
  | none, none => exact bareGoes_last _ _ (by simp [startOf])

section Every

variable {scheme authority : Option Text}

theorem safe_iff_of_authority {host : Text} (plainScheme : ∀ name ∈ scheme, '/' ∉ name)
    (plain : '/' ∉ host) (rooted : ∃ rest, path = '/' :: rest) (other : post.head? ≠ some '.') :
    (callOf (leadText scheme (some host)) path post).Safe ↔
      Withstands scheme (some host) path post := by
  obtain ⟨rest, rfl⟩ := rooted
  have plainOrigin : '/' ∉ schemeText scheme := by
    cases scheme with
    | none => exact List.not_mem_nil
    | some scheme => simp [schemeText, plainScheme scheme rfl]
  have namedOrigin : ¬ Dots (schemeText scheme) := by
    cases scheme with
    | none => decide
    | some scheme => exact origin_named scheme
  have lead : leadText scheme (some host) = rootOf (schemeText scheme) ++ host := by
    simp [leadText, authorityText, rootOf]
  have start : startOf (leadText scheme (some host)) ('/' :: rest) =
      (leadOf (schemeText scheme) host, rest) := by
    rw [startOf_slash, lead, leadOf]
  have filled : '/' :: rest ≠ [] := List.cons_ne_nil _ _
  rw [Withstands, HostWithstands, List.drop_one, List.tail_cons]
  by_cases dot : host = ['.']
  · subst dot
    rw [if_pos rfl, lead]
    constructor
    · intro safe
      by_contra lost
      exact not_safe_dot plainOrigin namedOrigin other lost safe
    · exact fun rejoins => safe_of_restored plainOrigin namedOrigin rejoins post
  rw [if_neg dot]
  by_cases up : host = ['.', '.']
  · subst up
    rw [if_pos rfl]
    constructor
    · intro safe
      rw [Option.eq_none_iff_forall_ne_some]
      intro more met
      rw [lead] at safe
      exact not_safe_dotDot plainOrigin namedOrigin met post safe
    · intro unmet
      refine safe_of_unmet filled ?_ ?_ post <;> rw [start]
      · exact .inr (slash_ends_lead _ _)
      · exact unmet
  · have shape : leadOf (schemeText scheme) host = flat [host, [], schemeText scheme] := by
      simp [leadOf, rootOf, flat]
    have deep : 2 ≤ (leadOf (schemeText scheme) host).length := by
      simp [leadOf, rootOf]
      omega
    have named : ¬ Dots host := fun dots => dots.elim dot up
    rw [if_neg up]
    refine iff_of_true ?_ trivial
    refine safe_of_undotted filled ?_ ?_ post <;> rw [start]
    · rw [shape]
      refine undotted_flat ?_ ?_
      · simp [plain, plainOrigin]
      · simp only [List.forall_mem_cons]
        exact ⟨named, by decide, namedOrigin, List.forall_mem_nil _⟩
    · exact deep

theorem safe_of_scheme {name : Text} (plain : '/' ∉ name) (filled : path ≠ [])
    (deep : path.head? = some '/' ∨ name ≠ []) (post : Text) :
    (callOf (name ++ [':']) path post).Safe := by
  by_cases slash : path.head? = some '/'
  · obtain ⟨rest, rfl⟩ : ∃ rest, path = '/' :: rest := by
      cases path <;> simp_all
    have shape : name ++ [':'] ++ ['/'] = flat [name ++ [':']] := rfl
    refine safe_of_undotted filled ?_ ?_ post <;> rw [startOf_slash]
    · rw [shape]
      refine undotted_flat ?_ ?_
      · simp [plain]
      · exact List.forall_mem_singleton.mpr (origin_named name)
    · simp
  · have some : name ≠ [] := deep.resolve_left slash
    refine safe_of_undotted filled ?_ ?_ post <;> rw [startOf_other slash]
    · exact undotted_colon plain
    · have := List.length_pos_iff.mpr some
      rw [List.length_append, List.length_singleton]
      omega

theorem bare_startOf (path : Text) : Bare (startOf [] path).1 := by
  unfold startOf
  split
  · exact .inr rfl
  · exact .inl rfl

/-- A call is safe exactly if its path takes it nowhere astray. -/
theorem safe_iff (plainScheme : ∀ name ∈ scheme, '/' ∉ name)
    (plainAuthority : ∀ host ∈ authority, '/' ∉ host)
    (rooted : authority.isSome = true → path = [] ∨ ∃ rest, path = '/' :: rest)
    (other : post.head? ≠ some '.') :
    (callOf (leadText scheme authority) path post).Safe ↔ Withstands scheme authority path post := by
  by_cases filled : path = []
  · rw [filled]
    exact iff_of_true (safe_callOf_nil _ _) (withstands_nil _ _ _)
  · match authority, scheme with
    | some host, scheme =>
      exact safe_iff_of_authority plainScheme (plainAuthority host rfl)
        ((rooted rfl).resolve_left filled) other
    | none, some (first :: name) =>
      have lead : leadText (some (first :: name)) none = first :: name ++ [':'] := by
        simp [leadText, schemeText, authorityText]
      rw [lead]
      exact iff_of_true
        (safe_of_scheme (plainScheme _ rfl) filled (.inr (List.cons_ne_nil _ _)) post) trivial
    | none, some [] =>
      have lead : leadText (some []) none = [] ++ [':'] := rfl
      rw [lead, Withstands]
      by_cases slash : path.head? = some '/'
      · exact iff_of_true (safe_of_scheme (plainScheme _ rfl) filled (.inl slash) post)
          fun rootless => absurd slash rootless
      · constructor
        · intro safe _
          by_contra slashed
          exact not_safe_of_colon filled slash slashed safe
        · exact fun goes => safe_of_colon filled slash (goes slash)
    | none, none =>
      have lead : leadText none none = [] := rfl
      rw [lead, Withstands]
      constructor
      · intro safe
        by_contra slashed
        exact not_safe_of_bare filled (bare_startOf path) slashed safe
      · exact fun goes => safe_of_bare filled (bare_startOf path) goes

end Every

def CallWithstands (base reference : Reference) : Prop :=
  if reference.scheme.isSome then
    Withstands reference.scheme reference.authority reference.path (behindPath reference)
  else if reference.authority.isSome then
    Withstands base.scheme reference.authority reference.path (behindPath reference)
  else if reference.path = [] then True
  else
    Withstands base.scheme base.authority (hierarchicalPath base reference) (behindPath reference)

instance (base reference : Reference) : Decidable (CallWithstands base reference) :=
  inferInstanceAs (Decidable
    (if reference.scheme.isSome then _ else if reference.authority.isSome then _
      else if reference.path = [] then True else _))

/-- The calls that Resolve makes are safe exactly where their paths take them nowhere astray. -/
theorem removeDotSegments_safe_iff (base reference : Text) :
    (∀ call, resolveCall base reference = some call → call.Safe) ↔
      CallWithstands (components base) (components reference) := by
  rw [resolveCall_components]
  have baseFormed := components_wellFormed base
  have wellFormed := components_wellFormed reference
  generalize components base = base at baseFormed
  generalize components reference = reference at wellFormed
  have plainScheme {reference : Reference} (wellFormed : reference.WellFormed) :
      ∀ name ∈ reference.scheme, '/' ∉ name := fun name present =>
    notMem_of_class (wellFormed.scheme name present) rfl
  have plainAuthority {reference : Reference} (wellFormed : reference.WellFormed) :
      ∀ host ∈ reference.authority, '/' ∉ host := fun host present =>
    notMem_of_class (wellFormed.authority host present) rfl
  unfold componentsCall CallWithstands
  split_ifs with absolute network bare
  · simp only [Option.some.injEq, forall_eq']
    exact safe_iff (plainScheme wellFormed) (plainAuthority wellFormed) wellFormed.rooted
      (behindPath_head reference)
  · simp only [Option.some.injEq, forall_eq']
    exact safe_iff (plainScheme baseFormed) (plainAuthority wellFormed) wellFormed.rooted
      (behindPath_head reference)
  · exact iff_of_true nofun trivial
  · simp only [Option.some.injEq, forall_eq']
    refine safe_iff (plainScheme baseFormed) (plainAuthority baseFormed) ?_ (behindPath_head reference)
    intro present
    obtain ⟨authority, named⟩ := Option.isSome_iff_exists.mp present
    exact .inr (hierarchicalPath_rooted named baseFormed bare)

-- Where the loop reads the start of the string again, it may find it unchanged.
example : CallWithstands (components "http://host/a".toList) (components "../../../x?/y".toList) := by
  decide
example : ¬ CallWithstands (components []) (components "../a/b".toList) := by decide
example : CallWithstands (components []) (components "../a".toList) := by decide

-- A call that never returns, one that loses the authority, and one that loses part of the query.
theorem removeDotSegments_astray :
    (∃ call, resolveCall "http://../a".toList "../x".toList = some call ∧
      ∀ rounds text, call.result rounds ≠ .ok text) ∧
    (∃ call, resolveCall "http://./a".toList "../x".toList = some call ∧
      call.result 20 = .ok "http://x".toList) ∧
    (∃ call, resolveCall [] "..?x/y".toList = some call ∧ call.result 10 = .ok "..?x/".toList) ∧
    ¬ ∀ base reference call, resolveCall base reference = some call → call.Safe := by
  have made : resolveCall "http://../a".toList "../x".toList =
      some (callOf (rootOf "http:".toList ++ ['.', '.']) ('/' :: "../x".toList) []) := by
    decide
  have met : meets shallow [] (segments "../x".toList) = some (segments ['x']) := by decide
  have plainOrigin : '/' ∉ "http:".toList := by decide
  have namedOrigin : ¬ Dots "http:".toList := by decide
  have single : resolveCall "http://./a".toList "../x".toList =
      some ⟨"http://./../x".toList, 8, 13⟩ := by decide
  have short : resolveCall [] "..?x/y".toList = some ⟨"..?x/y".toList, 0, 2⟩ := by decide
  refine ⟨⟨_, made, fun rounds text returned => ?_⟩, ⟨_, single, by decide +kernel⟩,
    ⟨_, short, by decide +kernel⟩, fun safe => ?_⟩
  · rw [result_callOf (List.cons_ne_nil _ _), enters_callOf (List.cons_ne_nil _ _),
      pathStart_callOf [] (List.cons_ne_nil _ _)] at returned
    obtain ⟨final, stopped, -⟩ := bind_ok returned
    exact endless_dotDot plainOrigin namedOrigin met [] final ⟨rounds, stopped⟩
  · exact not_safe_dotDot plainOrigin namedOrigin met [] (safe _ _ _ made)

end NDash.Util.UriUtil
