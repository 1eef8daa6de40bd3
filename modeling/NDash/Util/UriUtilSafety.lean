import NDash.Util.UriUtilCalls
import NDash.Util.UriUtilResolve

set_option autoImplicit false

namespace NDash.Util.UriUtil

open Machine Uri

def DotScan.erased (offset : Nat) (scan : DotScan) : Option (Nat × Nat) :=
  match scan.nextSegmentStart with
  | .ok (some next) =>
    if scan.i = scan.segmentStart + 1 ∧ scan.uri[scan.segmentStart]? = some '.' then
      some (scan.segmentStart, next)
    else if scan.i = scan.segmentStart + 2 ∧ scan.uri[scan.segmentStart]? = some '.' ∧
        scan.uri[scan.segmentStart + 1]? = some '.' then
      some (max scan.prevSegmentStart offset, next)
    else none
  | _ => none

theorem DotScan.body_erased {offset : Nat} {scan after : DotScan}
    (done : scan.body offset = .ok after) :
    match scan.erased offset with
    | some (start, stop) => erase scan.uri start stop = .ok after.uri
    | none => after.uri = scan.uri := by
  unfold DotScan.body at done
  unfold DotScan.erased
  obtain ⟨reached, found, done⟩ := bind_ok done
  rw [found]
  cases reached with
  | none =>
    cases done
    rfl
  | some next =>
    dsimp only at done ⊢
    split at done
    · next dot =>
      obtain ⟨uri, erases, done⟩ := bind_ok done
      cases done
      rw [if_pos dot]
      exact erases
    · next undotted =>
      rw [if_neg undotted]
      split at done
      · next dots =>
        obtain ⟨uri, erases, done⟩ := bind_ok done
        cases done
        rw [if_pos dots]
        exact erases
      · next named =>
        cases done
        rw [if_neg named]

structure RoundSafe (offset : Nat) (scan : DotScan) : Prop where
  ordered : scan.segmentStart ≤ scan.i ∧ scan.i ≤ scan.limit ∧ scan.limit ≤ scan.uri.length
  erases : ∀ start stop, scan.erased offset = some (start, stop) →
    start ≤ stop ∧ stop ≤ scan.limit

def DotCall.pathStart (call : DotCall) : Nat :=
  if call.uri[call.offset]? = some '/' then call.offset + 1 else call.offset

def DotCall.enters (call : DotCall) : DotScan :=
  ⟨call.uri, call.limit, call.pathStart, call.pathStart⟩

/-- The call returns, each of its rounds is safe, and what stands before the offset and from the limit
on is returned as it was. -/
structure DotCall.Safe (call : DotCall) : Prop where
  bounds : call.offset ≤ call.limit ∧ call.limit ≤ call.uri.length
  rounds : call.offset < call.limit → ∀ scan,
    (dotLoop call.pathStart).Reaches call.enters scan →
    (dotLoop call.pathStart).going scan = true → RoundSafe call.pathStart scan
  returns : ∃ rounds path, call.result rounds =
    .ok (call.uri.take call.offset ++ path ++ call.uri.drop call.limit)

/-! The rounds of one segment -/

section Pass

variable {offset : Nat} {front rest post segment separator later : Text}

theorem Cut.segment_eq (cut : Cut rest segment separator later) :
    segment = rest.takeWhile inSegment := by
  obtain ⟨rfl, plain, rfl | ⟨rfl, rfl⟩⟩ := cut
  · rw [List.append_assoc, List.singleton_append, (takeWhile_plain plain later).1]
  · rw [List.append_nil, List.append_nil, (takeWhile_all plain).1]

theorem Cut.unique {segment' separator' later' : Text} (cut : Cut rest segment separator later)
    (other : Cut rest segment' separator' later') :
    segment' = segment ∧ separator' = separator ∧ later' = later := by
  obtain rfl : segment' = segment := other.segment_eq.trans cut.segment_eq.symm
  have same := other.whole.symm.trans cut.whole
  rw [List.append_assoc, List.append_assoc] at same
  have same := List.append_cancel_left same
  obtain rfl | ⟨rfl, rfl⟩ := cut.ends <;> obtain rfl | ⟨rfl, rfl⟩ := other.ends
  · exact ⟨rfl, rfl, List.append_cancel_left same⟩
  · cases same
  · cases same
  · exact ⟨rfl, rfl, rfl⟩

theorem Cut.length_eq (cut : Cut rest segment separator later) :
    rest.length = segment.length + separator.length + later.length := by
  rw [cut.whole, List.length_append, List.length_append]

theorem Cut.erased_eq (cut : Cut rest segment separator later) :
    (scanWithin front rest post segment).erased offset =
      if segment = ['.'] then
        some (front.length, front.length + segment.length + separator.length)
      else if segment = ['.', '.'] then
        some (max (scanAt front rest post).prevSegmentStart offset,
          front.length + segment.length + separator.length)
      else none := by
  simp only [DotScan.erased, cut.nextSegmentStart, cut.dot_iff, cut.dotDot_iff]
  rfl

inductive Passes (offset : Nat) (post front rest : Text) : Text → Text → Prop
  | dot {separator later : Text} (cut : Cut rest ['.'] separator later) :
      Passes offset post front rest front later
  | dotDot {separator later front' kept : Text} (cut : Cut rest ['.', '.'] separator later)
      (back : (scanAt front rest post).prevSegmentStart = front'.length)
      (inside : max front'.length offset ≤ (front ++ ['.', '.'] ++ separator).length)
      (leaves : (front ++ ['.', '.'] ++ separator).take (max front'.length offset) =
        front' ++ kept)
      (advances : max front'.length offset < (front ++ ['.', '.'] ++ separator).length ∨
        front.length + 2 < front'.length) : Passes offset post front rest front' (kept ++ later)
  | named {segment later : Text} (cut : Cut rest segment ['/'] later) (named : ¬ Dots segment) :
      Passes offset post front rest (front ++ segment ++ ['/']) later

theorem Cut.nextSegmentStart_inside (cut : Cut rest segment separator later) {read : Nat}
    (inside : read < segment.length) :
    DotScan.nextSegmentStart { scanAt front rest post with i := front.length + read } =
      .ok none := by
  have size := cut.length_eq
  have inner : ¬ front.length + read = front.length + rest.length := by omega
  have char : (front ++ rest ++ post)[front.length + read]? = some segment[read] := by
    rw [cut.whole]
    simp [List.getElem?_append, inside]
  have other : segment[read] ≠ '/' := fun slash => cut.plain (slash ▸ List.getElem_mem inside)
  simp only [DotScan.nextSegmentStart, scanAt, if_neg inner, charAt, char, Except.map, if_neg other]

theorem roundSafe_inside (cut : Cut rest segment separator later) {read : Nat}
    (inside : read < segment.length) :
    RoundSafe offset { scanAt front rest post with i := front.length + read } := by
  have size := cut.length_eq
  refine ⟨⟨?_, ?_, ?_⟩, fun start stop erases => ?_⟩
  · simp only [scanAt]
    omega
  · simp only [scanAt]
    omega
  · simp [scanAt]
  · rw [DotScan.erased, cut.nextSegmentStart_inside inside] at erases
    cases erases

theorem Cut.steps_inside (cut : Cut rest segment separator later) {read : Nat}
    (inside : read < segment.length) :
    (dotLoop offset).Steps { scanAt front rest post with i := front.length + read }
      { scanAt front rest post with i := front.length + (read + 1) } := by
  have size := cut.length_eq
  refine ⟨by simp [dotLoop, scanAt]; omega, ?_⟩
  simp only [dotLoop, DotScan.body, cut.nextSegmentStart_inside inside, bind, Except.bind]
  rfl

theorem ordered_within (cut : Cut rest segment separator later) (front post : Text) :
    (scanWithin front rest post segment).segmentStart ≤ (scanWithin front rest post segment).i ∧
      (scanWithin front rest post segment).i ≤ (scanWithin front rest post segment).limit ∧
      (scanWithin front rest post segment).limit ≤
        (scanWithin front rest post segment).uri.length := by
  have size := cut.length_eq
  simp only [scanWithin, scanAt, List.length_append]
  omega

variable {front' rest' : Text}

theorem Passes.round (passes : Passes offset post front rest front' rest') :
    ∃ segment separator later, Cut rest segment separator later ∧
      RoundSafe offset (scanWithin front rest post segment) ∧
      (dotLoop offset).Steps (scanWithin front rest post segment) (scanAt front' rest' post) := by
  cases passes with
  | @dot separator later cut =>
    refine ⟨_, _, _, cut, ⟨ordered_within cut front post, ?_⟩, cut.dot⟩
    intro start stop erases
    rw [cut.erased_eq, if_pos rfl] at erases
    cases erases
    have size := cut.length_eq
    simp only [scanWithin, scanAt]
    omega
  | @dotDot separator later _ kept cut back inside leaves advances =>
    refine ⟨_, _, _, cut, ⟨ordered_within cut front post, ?_⟩, ?_⟩
    · intro start stop erases
      rw [cut.erased_eq, if_neg (by decide), if_pos rfl, back] at erases
      cases erases
      have size := cut.length_eq
      simp only [List.length_append] at inside
      simp only [scanWithin, scanAt]
      omega
    · have steps := cut.dotDot_steps (back.symm ▸ inside)
      have length : max front'.length offset = front'.length + kept.length := by
        rw [← List.length_append, ← leaves, List.length_take, Nat.min_eq_left inside]
      rw [back, leaves, length] at steps
      have same : scanAt front' (kept ++ later) post =
          ⟨front' ++ kept ++ (later ++ post), front'.length + kept.length + later.length,
            front'.length, front'.length⟩ := by
        simp [scanAt]
        omega
      rw [same]
      exact steps
  | @named segment _ cut named =>
    refine ⟨_, _, _, cut, ⟨ordered_within cut front post, ?_⟩, ?_⟩
    · intro start stop erases
      simp only [Dots, not_or] at named
      rw [cut.erased_eq, if_neg named.1, if_neg named.2] at erases
      cases erases
    · have same : scanAt (front ++ segment ++ ['/']) rest' post =
          ⟨front ++ rest ++ post, front.length + rest.length, front.length + segment.length + 1,
            front.length + segment.length + 1⟩ := by
        rw [cut.whole]
        simp [scanAt]
        omega
      rw [same]
      exact cut.named named

theorem Passes.smaller (passes : Passes offset post front rest front' rest') :
    front'.length + rest'.length < front.length + rest.length ∨
      (front'.length + rest'.length = front.length + rest.length ∧
        front.length + (rest.takeWhile inSegment).length < front'.length) := by
  cases passes with
  | dot cut =>
    have size := cut.length_eq
    simp only [List.length_cons, List.length_nil] at size
    omega
  | @dotDot separator later _ kept cut back inside leaves advances =>
    have size := cut.length_eq
    have length : max front'.length offset = front'.length + kept.length := by
      rw [← List.length_append, ← leaves, List.length_take, Nat.min_eq_left inside]
    rw [← cut.segment_eq]
    simp only [List.length_append, List.length_cons, List.length_nil] at size inside advances ⊢
    omega
  | named cut named =>
    have size := cut.length_eq
    rw [← cut.segment_eq]
    simp only [List.length_append, List.length_cons, List.length_nil] at size ⊢
    omega

theorem Passes.path (passes : Passes offset post front rest front' rest') :
    Relation.TransGen (dotLoop offset).Steps (scanAt front rest post)
      (scanAt front' rest' post) := by
  obtain ⟨segment, separator, later, cut, -, steps⟩ := passes.round
  exact .tail' cut.reaches steps

end Pass

/-! Walks that are safe throughout -/

section Walk

variable {offset : Nat} {front rest post : Text} {stands : Text → Text → Prop}

def Guides (offset : Nat) (post : Text) (stands : Text → Text → Prop) : Prop :=
  ∀ front rest, stands front rest →
    (∃ front' rest', Passes offset post front rest front' rest' ∧ stands front' rest') ∨
    (Cut rest rest [] [] ∧ ¬ Dots rest)

inductive Scanning (stands : Text → Text → Prop) (post : Text) : DotScan → Prop
  | within {front rest segment separator later : Text} (holds : stands front rest)
      (cut : Cut rest segment separator later) (read : Nat) (inside : read ≤ segment.length) :
      Scanning stands post { scanAt front rest post with i := front.length + read }
  | behind {front rest : Text} (holds : stands front rest) :
      Scanning stands post ⟨front ++ rest ++ post, front.length + rest.length,
        front.length + rest.length + 1, front.length + rest.length + 1⟩

theorem Scanning.between (holds : stands front rest) :
    Scanning stands post (scanAt front rest post) := by
  obtain ⟨segment, later, cut⟩ | cut := cut_cases rest
  · exact .within holds cut 0 (Nat.zero_le _)
  · exact .within holds cut 0 (Nat.zero_le _)

def DotScan.size (scan : DotScan) : Nat × Nat := (scan.limit, scan.limit + 1 - scan.i)

theorem Scanning.advance (guides : Guides offset post stands) {scan : DotScan}
    (scanning : Scanning stands post scan) (going : (dotLoop offset).going scan = true) :
    RoundSafe offset scan ∧
      ∃ next, (dotLoop offset).Steps scan next ∧ Scanning stands post next ∧
        Prod.Lex (· < ·) (· < ·) next.size scan.size := by
  cases scanning with
  | @behind front rest holds =>
    simp only [dotLoop, decide_eq_true_eq] at going
    omega
  | @within front rest segment separator later holds cut read inside =>
    have size := cut.length_eq
    obtain more | rfl := Nat.lt_or_eq_of_le inside
    · refine ⟨roundSafe_inside cut more, _, cut.steps_inside more, .within holds cut _ more, ?_⟩
      refine .right _ ?_
      simp only [scanAt]
      omega
    · obtain ⟨front', rest', passes, stood⟩ | ⟨last, named⟩ := guides front rest holds
      · obtain ⟨segment', separator', later', cut', safe, steps⟩ := passes.round
        obtain ⟨rfl, -, -⟩ := cut.unique cut'
        refine ⟨safe, _, steps, .between stood, ?_⟩
        obtain less | ⟨same, further⟩ := passes.smaller
        · exact .left _ _ less
        · rw [← cut.segment_eq] at further
          have size : (scanAt front' rest' post).size =
              (front.length + rest.length, front.length + rest.length + 1 - front'.length) := by
            rw [DotScan.size, scanAt, same]
          rw [size]
          refine .right _ ?_
          simp only [scanAt]
          omega
      · obtain ⟨rfl, -, -⟩ := cut.unique last
        have safe : RoundSafe offset (scanWithin front rest post rest) := by
          refine ⟨ordered_within last front post, fun start stop erases => ?_⟩
          simp only [Dots, not_or] at named
          rw [last.erased_eq, if_neg named.1, if_neg named.2] at erases
          cases erases
        refine ⟨safe, _, last.named named, .behind holds, .right _ ?_⟩
        simp only [scanAt]
        omega

/-- A guided walk is safe in every round, and comes to an end where the walk stands. -/
theorem Guides.settles (guides : Guides offset post stands) (begins : stands front rest) :
    (∀ scan, (dotLoop offset).Reaches (scanAt front rest post) scan →
      (dotLoop offset).going scan = true → RoundSafe offset scan) ∧
    ∃ final front' rest', (dotLoop offset).Returns .diverges (scanAt front rest post) final ∧
      stands front' rest' ∧ final.uri = front' ++ rest' ++ post := by
  have scanning : Scanning stands post (scanAt front rest post) := .between begins
  constructor
  · intro scan reaches going
    have kept := Loop.Reaches.keeps (Scanning stands post)
      (fun state holds going =>
        have ⟨next, steps, again, _⟩ := (holds.advance guides going).2
        ⟨next, steps, again⟩) reaches scanning
    exact (kept.advance guides going).1
  · have wellFounded : WellFounded (Prod.Lex (· < ·) (· < ·) : Nat × Nat → Nat × Nat → Prop) :=
      WellFoundedRelation.wf
    obtain ⟨final, returns, holds, stopped⟩ : ∃ final,
        (dotLoop offset).Returns .diverges (scanAt front rest post) final ∧
          Scanning stands post final ∧ (dotLoop offset).going final = false :=
      Loop.Returns.of_variant (Scanning stands post) wellFounded DotScan.size
        (fun state holds going => (holds.advance guides going).2) scanning
    cases holds with
    | @within front rest segment separator later holds cut read inside =>
      have size := cut.length_eq
      simp only [dotLoop, scanAt, decide_eq_false_iff_not] at stopped
      omega
    | @behind front' rest' holds => exact ⟨_, front', rest', returns, holds, rfl⟩

end Walk

/-! The call on a path -/

section Call

variable {lead path post : Text}

def startOf (lead : Text) : Text → Text × Text
  | '/' :: rest => (lead ++ ['/'], rest)
  | path => (lead, path)

theorem startOf_other (other : path.head? ≠ some '/') : startOf lead path = (lead, path) := by
  unfold startOf
  split
  · exact absurd rfl other
  · rfl

theorem startOf_append (lead path : Text) :
    (startOf lead path).1 ++ (startOf lead path).2 = lead ++ path := by
  unfold startOf
  split
  · simp
  · rfl

theorem pathStart_callOf (post : Text) (filled : path ≠ []) :
    (callOf lead path post).pathStart = (startOf lead path).1.length := by
  obtain ⟨first, rest, rfl⟩ := List.exists_cons_of_ne_nil filled
  have char : (lead ++ first :: rest ++ post)[lead.length]? = some first := by simp
  rw [DotCall.pathStart, callOf, char]
  by_cases slash : first = '/'
  · subst slash
    simp [startOf]
  · rw [startOf_other (by simpa using slash), if_neg (by simpa using slash)]

theorem enters_callOf (filled : path ≠ []) :
    (callOf lead path post).enters =
      scanAt (startOf lead path).1 (startOf lead path).2 post := by
  have whole := startOf_append lead path
  have size := congrArg List.length whole
  rw [List.length_append, List.length_append] at size
  rw [DotCall.enters, pathStart_callOf _ filled, scanAt, whole, size]
  rfl

theorem result_callOf (filled : path ≠ []) (rounds : Nat) :
    (callOf lead path post).result rounds =
      ((dotLoop (callOf lead path post).pathStart).run .diverges rounds
        (callOf lead path post).enters).bind fun scan => .ok scan.uri := by
  rw [enters_callOf filled, pathStart_callOf _ filled]
  obtain ⟨first, rest, rfl⟩ := List.exists_cons_of_ne_nil filled
  by_cases slash : first = '/'
  · subst slash
    exact removeDotSegments_slash rounds lead rest post
  · rw [startOf_other (by simpa using slash)]
    exact removeDotSegments_other rounds lead rest post slash

theorem safe_callOf_nil (lead post : Text) : (callOf lead [] post).Safe where
  bounds := by simp [callOf]
  rounds := by
    intro inside
    simp [callOf] at inside
  returns := by
    refine ⟨0, [], ?_⟩
    simp [DotCall.result, callOf, removeDotSegments]

theorem safe_of_guides {stands : Text → Text → Prop} (filled : path ≠ [])
    (guides : Guides (callOf lead path post).pathStart post stands)
    (begins : stands (startOf lead path).1 (startOf lead path).2)
    (keeps : ∀ front rest, stands front rest → lead <+: front ++ rest) :
    (callOf lead path post).Safe := by
  obtain ⟨rounds, final, front, rest, returns, stood, uri⟩ := guides.settles begins
  rw [← enters_callOf filled] at rounds returns
  refine ⟨by simp [callOf], fun _ => rounds, ?_⟩
  obtain ⟨middle, whole⟩ := keeps front rest stood
  have taken : (callOf lead path post).uri.take (callOf lead path post).offset = lead := by
    simp [callOf]
  have dropped : (callOf lead path post).uri.drop (callOf lead path post).limit = post := by
    rw [callOf, ← List.length_append, List.drop_left]
  obtain ⟨enough, returned⟩ := returns
  refine ⟨enough, middle, ?_⟩
  rw [result_callOf filled, returned, taken, dropped, whole, ← uri]
  rfl

end Call

end NDash.Util.UriUtil
