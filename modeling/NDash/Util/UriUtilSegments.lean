import NDash.Shared.UriSegments
import NDash.Util.UriUtil

set_option autoImplicit false

namespace NDash.Util.UriUtil

open Machine Uri

section Find

theorem find_append {front : Text} {char : Char} (absent : char ∉ front) (rest : Text) :
    find (front ++ rest) char = (find rest char).map (front.length + ·) := by
  induction front with
  | nil => simp
  | cons first front ih =>
    simp only [List.mem_cons, not_or] at absent
    have other : ¬ first = char := fun same => absent.1 same.symm
    rw [List.cons_append, find, if_neg other, ih absent.2, Option.map_map]
    congr 1
    funext index
    simp only [Function.comp_apply, List.length_cons]
    omega

theorem find_self (char : Char) (rest : Text) : find (char :: rest) char = some 0 := by
  simp [find]

theorem find_absent {text : Text} {char : Char} (absent : char ∉ text) : find text char = none := by
  have found := find_append absent []
  rwa [List.append_nil] at found

theorem findLastOf_append {rest : Text} {char : Char} (absent : char ∉ rest) (front : Text) :
    findLastOf (front ++ char :: rest) char = some front.length := by
  have absentBack : char ∉ rest.reverse := by simpa using absent
  simp only [findLastOf, List.reverse_append, List.reverse_cons, List.append_assoc,
    List.singleton_append, find_append absentBack, find_self, Option.map_some, List.length_append,
    List.length_reverse, List.length_cons]
  congr 1
  omega

theorem findLastOf_absent {text : Text} {char : Char} (absent : char ∉ text) :
    findLastOf text char = none := by
  have absentBack : char ∉ text.reverse := by simpa using absent
  simp [findLastOf, find_absent absentBack]

end Find

def scanAt (front rest post : Text) : DotScan :=
  ⟨front ++ rest ++ post, front.length + rest.length, front.length, front.length⟩

def scanWithin (front rest post : Text) (segment : Text) : DotScan :=
  { scanAt front rest post with i := front.length + segment.length }

structure Cut (rest segment separator later : Text) : Prop where
  whole : rest = segment ++ separator ++ later
  plain : '/' ∉ segment
  ends : separator = ['/'] ∨ (separator = [] ∧ later = [])

variable {offset : Nat} {front rest post segment separator later : Text}

theorem scan_segment (offset limit start : Nat) (front segment tail : Text)
    (plain : '/' ∉ segment) (inside : front.length + segment.length ≤ limit) :
    (dotLoop offset).Reaches ⟨front ++ (segment ++ tail), limit, start, front.length⟩
      ⟨front ++ (segment ++ tail), limit, start, front.length + segment.length⟩ := by
  induction segment generalizing front with
  | nil => exact .refl
  | cons first segment ih =>
    simp only [List.mem_cons, not_or] at plain
    have other : ¬ first = '/' := fun same => plain.1 same.symm
    have steps : (dotLoop offset).Steps ⟨front ++ (first :: segment ++ tail), limit, start, front.length⟩
        ⟨front ++ (first :: segment ++ tail), limit, start, front.length + 1⟩ := by
      simp only [List.length_cons] at inside
      have inner : ¬ front.length = limit := by omega
      refine ⟨by simp [dotLoop]; omega, ?_⟩
      simp [dotLoop, DotScan.body, DotScan.nextSegmentStart, inner, charAt, other, Except.map, bind,
        Except.bind]
    refine .head steps ?_
    have later := ih (front ++ [first]) plain.2 (by simp at inside ⊢; omega)
    simp only [List.append_assoc, List.singleton_append, List.length_append, List.length_cons,
      List.length_nil, Nat.zero_add] at later
    rw [List.length_cons, ← Nat.add_assoc, Nat.add_right_comm]
    exact later

theorem Cut.reaches (cut : Cut rest segment separator later) :
    (dotLoop offset).Reaches (scanAt front rest post) (scanWithin front rest post segment) := by
  have scanned := scan_segment offset (front.length + rest.length) front.length front segment
    (separator ++ later ++ post) cut.plain (by rw [cut.whole]; simp)
  have shape : front ++ (segment ++ (separator ++ later ++ post)) = front ++ rest ++ post := by
    rw [cut.whole]
    simp
  rw [shape] at scanned
  exact scanned

theorem Cut.nextSegmentStart (cut : Cut rest segment separator later) :
    (scanWithin front rest post segment).nextSegmentStart =
      .ok (some (front.length + segment.length + separator.length)) := by
  obtain ⟨rfl, plain, ends⟩ := cut
  rcases ends with rfl | ⟨rfl, rfl⟩
  · have slash : (front ++ (segment ++ ['/'] ++ later) ++ post)[front.length + segment.length]? =
        some '/' := by simp
    have inner : ¬ front.length + segment.length =
        front.length + (segment ++ ['/'] ++ later).length := by
      simp
    simp only [DotScan.nextSegmentStart, scanWithin, scanAt, inner, if_false, charAt, slash,
      Except.map, if_true, List.length_singleton]
  · simp [DotScan.nextSegmentStart, scanWithin, scanAt]

theorem Cut.dot_iff (cut : Cut rest segment separator later) :
    ((scanWithin front rest post segment).i = (scanWithin front rest post segment).segmentStart + 1 ∧
      (scanWithin front rest post segment).uri[(scanWithin front rest post segment).segmentStart]? =
        some '.') ↔ segment = ['.'] := by
  obtain ⟨rfl, -, -⟩ := cut
  match segment with
  | [] => simp [scanWithin, scanAt]
  | [first] => simp [scanWithin, scanAt]
  | first :: second :: more => simp [scanWithin, scanAt]

theorem Cut.dotDot_iff (cut : Cut rest segment separator later) :
    ((scanWithin front rest post segment).i = (scanWithin front rest post segment).segmentStart + 2 ∧
      (scanWithin front rest post segment).uri[(scanWithin front rest post segment).segmentStart]? =
        some '.' ∧
      (scanWithin front rest post segment).uri[(scanWithin front rest post segment).segmentStart + 1]? =
        some '.') ↔ segment = ['.', '.'] := by
  obtain ⟨rfl, -, -⟩ := cut
  match segment with
  | [] => simp [scanWithin, scanAt]
  | [first] => simp [scanWithin, scanAt]
  | [first, second] => simp [scanWithin, scanAt]
  | first :: second :: third :: more => simp [scanWithin, scanAt]

theorem Cut.going (cut : Cut rest segment separator later) :
    (dotLoop offset).going (scanWithin front rest post segment) = true := by
  obtain ⟨rfl, -, -⟩ := cut
  simp [dotLoop, scanWithin, scanAt]

theorem Cut.named (cut : Cut rest segment separator later) (named : ¬ Dots segment) :
    (dotLoop offset).Steps (scanWithin front rest post segment)
      ⟨front ++ rest ++ post, front.length + rest.length, front.length + segment.length + 1,
        front.length + segment.length + 1⟩ := by
  simp only [Dots, not_or] at named
  refine ⟨cut.going, ?_⟩
  simp only [dotLoop, DotScan.body, cut.nextSegmentStart, cut.dot_iff, cut.dotDot_iff, named,
    if_false, bind, Except.bind]
  rfl

theorem Cut.erase (cut : Cut rest segment separator later) (front post : Text) {start : Nat}
    (inside : start ≤ (front ++ segment ++ separator).length) :
    UriUtil.erase (front ++ rest ++ post) start
        (front.length + segment.length + separator.length) =
      .ok ((front ++ segment ++ separator).take start ++ (later ++ post)) := by
  have shape : front ++ rest ++ post = front ++ segment ++ separator ++ (later ++ post) := by
    rw [cut.whole]
    simp
  have stop : front.length + segment.length + separator.length =
      (front ++ segment ++ separator).length := by
    simp only [List.length_append]
  have short : ¬ (front ++ segment ++ separator ++ (later ++ post)).length < start := by
    rw [List.length_append]
    omega
  rw [shape, stop, UriUtil.erase, if_neg short, if_pos inside, List.take_append_of_le_length inside,
    List.drop_left]

theorem Cut.dot (cut : Cut rest ['.'] separator later) :
    (dotLoop offset).Steps (scanWithin front rest post ['.']) (scanAt front later post) := by
  have erased := cut.erase front post (show front.length ≤ _ by simp)
  have kept : (front ++ ['.'] ++ separator).take front.length = front := by simp
  have left : front.length + rest.length + front.length - (front.length + 1 + separator.length) =
      front.length + later.length := by
    rw [cut.whole]
    simp
    omega
  rw [kept] at erased
  refine ⟨cut.going, ?_⟩
  simp only [dotLoop, DotScan.body, cut.nextSegmentStart, cut.dot_iff, if_true, bind, Except.bind]
  simp only [List.length_singleton] at erased
  simp only [scanWithin, scanAt, List.length_singleton, erased, left]
  rw [List.append_assoc]

theorem Cut.dotDot_steps (cut : Cut rest ['.', '.'] separator later)
    (inside : max (scanAt front rest post).prevSegmentStart offset ≤
      (front ++ ['.', '.'] ++ separator).length) :
    (dotLoop offset).Steps (scanWithin front rest post ['.', '.'])
      ⟨(front ++ ['.', '.'] ++ separator).take (max (scanAt front rest post).prevSegmentStart offset) ++
          (later ++ post),
        max (scanAt front rest post).prevSegmentStart offset + later.length,
        (scanAt front rest post).prevSegmentStart, (scanAt front rest post).prevSegmentStart⟩ := by
  have erased := cut.erase front post inside
  have previous : (scanWithin front rest post ['.', '.']).prevSegmentStart =
      (scanAt front rest post).prevSegmentStart := rfl
  have different : ¬ (['.', '.'] : Text) = ['.'] := by decide
  have left : front.length + rest.length + max (scanAt front rest post).prevSegmentStart offset -
      (front.length + 2 + separator.length) =
        max (scanAt front rest post).prevSegmentStart offset + later.length := by
    rw [cut.whole]
    simp
    omega
  refine ⟨cut.going, ?_⟩
  simp only [dotLoop, DotScan.body, cut.nextSegmentStart, cut.dot_iff, cut.dotDot_iff, different,
    if_true, if_false, bind, Except.bind, previous]
  generalize (scanAt front rest post).prevSegmentStart = start at erased left ⊢
  simp only [List.length_cons, List.length_nil, Nat.zero_add] at erased
  simp only [scanWithin, scanAt, List.length_cons, List.length_nil, Nat.zero_add, erased, left]

def parentStart (front : Text) : Nat :=
  ((findLastOf (front.take (front.length - 2)) '/').map (· + 1)).getD 0

theorem prevSegmentStart_eq (deep : 2 ≤ front.length) (rest post : Text) :
    (scanAt front rest post).prevSegmentStart = parentStart front := by
  have deeper : ¬ front.length < 2 := by omega
  simp only [DotScan.prevSegmentStart, scanAt, substrBefore, if_neg deeper, parentStart,
    List.append_assoc]
  rw [List.take_append_of_le_length (Nat.sub_le _ _)]

theorem Cut.dotDot (cut : Cut rest ['.', '.'] separator later) (deep : 2 ≤ front.length)
    (inside : max (parentStart front) offset ≤ (front ++ ['.', '.'] ++ separator).length) :
    (dotLoop offset).Steps (scanWithin front rest post ['.', '.'])
      ⟨(front ++ ['.', '.'] ++ separator).take (max (parentStart front) offset) ++ (later ++ post),
        max (parentStart front) offset + later.length, parentStart front, parentStart front⟩ := by
  rw [← prevSegmentStart_eq deep rest post] at inside ⊢
  exact cut.dotDot_steps inside

theorem Cut.dot_path (cut : Cut rest ['.'] separator later) :
    Relation.TransGen (dotLoop offset).Steps (scanAt front rest post) (scanAt front later post) :=
  .tail' cut.reaches cut.dot

theorem Cut.named_path (cut : Cut rest segment ['/'] later) (named : ¬ Dots segment) :
    Relation.TransGen (dotLoop offset).Steps (scanAt front rest post)
      (scanAt (front ++ segment ++ ['/']) later post) := by
  have scanned : (dotLoop offset).Reaches (scanAt front rest post)
      (scanWithin front rest post segment) := cut.reaches
  have stepped := Relation.TransGen.tail' scanned (cut.named named)
  have same : scanAt (front ++ segment ++ ['/']) later post =
      ⟨front ++ rest ++ post, front.length + rest.length, front.length + segment.length + 1,
        front.length + segment.length + 1⟩ := by
    rw [cut.whole]
    simp [scanAt]
    omega
  rw [same]
  exact stepped

theorem Cut.named_last (cut : Cut segment segment [] []) (named : ¬ Dots segment) :
    ∃ last, (dotLoop offset).Reaches (scanAt front segment post) last ∧
      (dotLoop offset).going last = false ∧ last.uri = front ++ segment ++ post := by
  refine ⟨_, (Relation.TransGen.tail' cut.reaches (cut.named named)).to_reflTransGen, ?_, rfl⟩
  simp [dotLoop]

/-- A `..` leaves what stands before `front'`, and of what stood behind only what is `kept`. -/
theorem Cut.dotDot_path (cut : Cut rest ['.', '.'] separator later) {front' kept : Text}
    (deep : 2 ≤ front.length) (start : parentStart front = front'.length)
    (inside : max front'.length offset ≤ (front ++ ['.', '.'] ++ separator).length)
    (leaves : (front ++ ['.', '.'] ++ separator).take (max front'.length offset) = front' ++ kept) :
    Relation.TransGen (dotLoop offset).Steps (scanAt front rest post)
      (scanAt front' (kept ++ later) post) := by
  rw [← start] at inside leaves
  have scanned : (dotLoop offset).Reaches (scanAt front rest post)
      (scanWithin front rest post ['.', '.']) := cut.reaches
  have stepped := Relation.TransGen.tail' scanned (cut.dotDot deep inside)
  have length : max (parentStart front) offset = front'.length + kept.length := by
    rw [← List.length_append, ← leaves, List.length_take, Nat.min_eq_left inside]
  rw [leaves, length, start] at stepped
  have same : scanAt front' (kept ++ later) post =
      ⟨front' ++ kept ++ (later ++ post), front'.length + kept.length + later.length, front'.length,
        front'.length⟩ := by
    simp [scanAt]
    omega
  rw [same]
  exact stepped

theorem parentStart_eq {before word : Text} (passed : front.take (front.length - 2) = before ++ '/' :: word)
    (plain : '/' ∉ word) : parentStart front = before.length + 1 := by
  rw [parentStart, passed, findLastOf_append plain]
  rfl

theorem parentStart_zero (passed : '/' ∉ front.take (front.length - 2)) : parentStart front = 0 := by
  rw [parentStart, findLastOf_absent passed]
  rfl

end NDash.Util.UriUtil
