import Mathlib.Algebra.Order.BigOperators.Group.List
import Mathlib.Algebra.Order.Ring.Nat
import NDash.Mpd.ManifestNotation
import NDash.Mpd.ManifestSegments

set_option autoImplicit false

/-!
# Expansion of a SegmentTimeline

An S element stands for a run of segments, one and as many as it repeats, of which the parser keeps the
number as an int32_t.
-/

namespace NDash.Mpd.Manifest

open Pull

/-- A run of segments: where it starts if it says so, how long each segment lasts, and how many follow
the first. -/
structure SegmentRun where
  start : Option Int
  duration : Int
  repetitions : Int
deriving DecidableEq, Repr

def segmentsFrom (duration : Int) : Int → Nat → List SegmentTimelineElement
  | _, 0 => []
  | start, count + 1 => ⟨start, duration⟩ :: segmentsFrom duration (start + duration) count

/-- The segments of the runs, where `count` says how many there are in one. A run without a start follows
the one before it. -/
def expand (count : SegmentRun → Nat) : Int → List SegmentRun → List SegmentTimelineElement
  | _, [] => []
  | elapsed, run :: runs =>
    let start := run.start.getD elapsed
    segmentsFrom run.duration start (count run) ++
      expand count (start + count run * run.duration) runs

namespace SegmentRun

def count (run : SegmentRun) : Nat := (1 + run.repetitions).toNat

def parsedCount (run : SegmentRun) : Nat := (toInt32 (1 + run.repetitions)).toNat

theorem parsedCount_le {run : SegmentRun} (nonneg : 0 ≤ run.repetitions) :
    run.parsedCount ≤ run.count := by
  unfold parsedCount count
  have := toInt32_le (show 0 ≤ 1 + run.repetitions by omega)
  omega

theorem parsedCount_eq_iff {run : SegmentRun} (nonneg : 0 ≤ run.repetitions) :
    run.parsedCount = run.count ↔ run.repetitions < 2147483647 := by
  unfold parsedCount count toInt32
  omega

end SegmentRun

theorem segmentsFrom_length (duration start : Int) (count : Nat) :
    (segmentsFrom duration start count).length = count := by
  induction count generalizing start with
  | zero => rfl
  | succ count ih => rw [segmentsFrom, List.length_cons, ih]

theorem expand_length (count : SegmentRun → Nat) (elapsed : Int) (runs : List SegmentRun) :
    (expand count elapsed runs).length = (runs.map count).sum := by
  induction runs generalizing elapsed with
  | nil => rfl
  | cons run runs ih =>
    simp only [expand, List.length_append, segmentsFrom_length, ih, List.map_cons, List.sum_cons]

theorem expand_congr {count count' : SegmentRun → Nat} {runs : List SegmentRun}
    (same : ∀ run ∈ runs, count run = count' run) (elapsed : Int) :
    expand count elapsed runs = expand count' elapsed runs := by
  induction runs generalizing elapsed with
  | nil => rfl
  | cons run runs ih =>
    obtain ⟨here, rest⟩ := List.forall_mem_cons.mp same
    simp only [expand, here, ih rest]

-- If no run is counted too far, the sum shows whether one is not counted to its end.
theorem counts_eq {count count' : SegmentRun → Nat} {runs : List SegmentRun}
    (atMost : ∀ run ∈ runs, count run ≤ count' run)
    (sums : (runs.map count).sum = (runs.map count').sum) : ∀ run ∈ runs, count run = count' run := by
  induction runs with
  | nil =>
    intro run absent
    cases absent
  | cons run runs ih =>
    obtain ⟨here, rest⟩ := List.forall_mem_cons.mp atMost
    simp only [List.map_cons, List.sum_cons] at sums
    have below : (runs.map count).sum ≤ (runs.map count').sum := List.sum_le_sum rest
    exact List.forall_mem_cons.mpr ⟨by omega, ih rest (by omega)⟩

theorem expand_parsedCount_iff {runs : List SegmentRun} (nonneg : ∀ run ∈ runs, 0 ≤ run.repetitions)
    (elapsed : Int) :
    expand SegmentRun.parsedCount elapsed runs = expand SegmentRun.count elapsed runs ↔
      ∀ run ∈ runs, run.repetitions < 2147483647 := by
  constructor
  · intro same run inside
    have sums := congrArg List.length same
    rw [expand_length, expand_length] at sums
    have counts := counts_eq (fun run inside => SegmentRun.parsedCount_le (nonneg run inside)) sums
    exact (SegmentRun.parsedCount_eq_iff (nonneg run inside)).mp (counts run inside)
  · intro small
    refine expand_congr (fun run inside => ?_) elapsed
    exact (SegmentRun.parsedCount_eq_iff (nonneg run inside)).mpr (small run inside)

/-! Parsing -/

theorem pushSegments_eq (duration : Int) (count : Nat) (state : SegmentTimelineState) :
    pushSegments duration count state =
      { segmentTimeline := state.segmentTimeline ++ segmentsFrom duration state.elapsedTime count
        elapsedTime := state.elapsedTime + count * duration } := by
  induction count generalizing state with
  | zero => simp [pushSegments, segmentsFrom]
  | succ count ih =>
    have ends : state.elapsedTime + duration + count * duration =
        state.elapsedTime + (count + 1 : Nat) * duration := by
      rw [Nat.cast_succ, Int.add_mul, Int.one_mul]
      omega
    rw [pushSegments, ih, segmentsFrom, List.append_assoc, List.singleton_append, ends]

namespace Node

def Fits (node : Node) (name : String) : Prop :=
  (node.getAttributeValue name).isEmpty = false →
    (scanLong (node.getAttributeValue name).toList).outOfRange = false

theorem Fits.parseLong {node : Node} {name : String} (fits : node.Fits name) (defaultValue errno : Int) :
    ∃ errno', node.parseLong name defaultValue errno =
      .ok (some (node.longAttribute name defaultValue), errno') := by
  unfold Node.parseLong longAttribute
  dsimp only
  cases empty : (node.getAttributeValue name).isEmpty with
  | true => exact ⟨errno, rfl⟩
  | false =>
    refine ⟨0, ?_⟩
    simp only [Bool.false_eq_true, if_false, parseLong_run, fits empty]

theorem Fits.parseInt {node : Node} {name : String} (fits : node.Fits name) (defaultValue errno : Int) :
    ∃ errno', node.parseInt name defaultValue errno =
      .ok (some (node.intAttribute name defaultValue), errno') := by
  unfold Node.parseInt intAttribute
  dsimp only
  cases empty : (node.getAttributeValue name).isEmpty with
  | true => exact ⟨errno, rfl⟩
  | false =>
    refine ⟨0, ?_⟩
    simp only [Bool.false_eq_true, if_false]
    unfold Manifest.parseInt
    rw [attempt_bind, parseLong_run, fits empty]
    rfl

def run (node : Node) : SegmentRun where
  start :=
    if (node.getAttributeValue "t").isEmpty then none else some (node.longAttribute "t" 0)
  duration := node.longAttribute "d" (-1)
  repetitions := node.longAttribute "r" 0

end Node

structure ValidSegment (node : Node) : Prop where
  named : node.name = "S"
  start : node.Fits "t"
  duration : node.Fits "d"
  repetitions : node.Fits "r"
  nonneg : 0 ≤ node.run.repetitions

theorem start_getD (node : Node) (elapsed : Int) :
    node.longAttribute "t" elapsed = node.run.start.getD elapsed := by
  unfold Node.run Node.longAttribute
  dsimp only
  split <;> rfl

theorem intAttribute_eq (node : Node) :
    node.intAttribute "r" 0 = toInt32 (node.longAttribute "r" 0) := by
  unfold Node.intAttribute Node.longAttribute
  dsimp only
  split <;> rfl

theorem ValidSegment.parseS {node : Node} (valid : ValidSegment node) (state : SegmentTimelineState)
    (errno : Int) :
    ∃ errno', parseS node state errno =
      .ok (pushSegments node.run.duration node.run.parsedCount
        { state with elapsedTime := node.run.start.getD state.elapsedTime }, errno') := by
  obtain ⟨errno₁, first⟩ := valid.start.parseLong state.elapsedTime errno
  obtain ⟨errno₂, second⟩ := valid.duration.parseLong (-1) errno₁
  obtain ⟨errno₃, third⟩ := valid.repetitions.parseInt 0 errno₂
  refine ⟨errno₃, ?_⟩
  have wrapped : toInt32 (1 + toInt32 (node.longAttribute "r" 0)) =
      toInt32 (1 + node.longAttribute "r" 0) := by
    rw [Int.add_comm, toInt32_add, Int.add_comm]
  unfold Manifest.parseS
  simp only [attempt_bind, first, second, third, Except.bind, orNull, attempt_pure, start_getD,
    intAttribute_eq, wrapped]
  rfl

/-! What the elements are written as -/

inductive Segments : Content Node → List Node → Prop
  | nil : Segments .nil []
  | text (content : String) {more : Content Node} {nodes : List Node} (segments : Segments more nodes) :
    Segments (.text content more) nodes
  | empty {node : Node} {more : Content Node} {nodes : List Node} (valid : ValidSegment node)
    (segments : Segments more nodes) : Segments (.empty node more) (node :: nodes)

inductive TimelineEvents (own : Node) (depth : Nat) : List Node → List (Event Node) → Prop
  | full {inside : Content Node} {nodes : List Node} (segments : Segments inside nodes)
    (after : List (Event Node)) :
    TimelineEvents own depth nodes (inside.events (depth + 1) ++ .finish own depth :: after)
  | empty (content : String) (after : List (Event Node)) :
    TimelineEvents own depth [] (.text content depth :: after)
  | last : TimelineEvents own depth [] []

def segmentForest : List Node → Forest Node
  | [] => .nil
  | node :: nodes => .element node "" .nil (segmentForest nodes)

theorem Segments.neat (external : External) {inside : Content Node} {nodes : List Node}
    (segments : Segments inside nodes) :
    inside.Neat (grammar external) .segmentTimeline ∧ inside.forest textual = segmentForest nodes := by
  induction segments with
  | nil => exact ⟨trivial, rfl⟩
  | text content segments ih => exact ih
  | @empty node more nodes valid segments ih =>
    have counted : (grammar external).branch .segmentTimeline node = .counted := by
      simp [grammar, Grammar.ofRows, rows, branchOf, named, valid.named]
    refine ⟨⟨fun takes => ?_, ?_⟩, ?_⟩
    · rw [counted] at takes
      cases takes
    · rw [counted]
      exact ih.1
    · rw [Content.forest, ih.2, segmentForest]

theorem TimelineEvents.written (external : External) {own : Node} {depth : Nat} {nodes : List Node}
    {events : List (Event Node)} (written : TimelineEvents own depth nodes events) :
    ∃ text after, Written textual (Content.Neat (grammar external) .segmentTimeline) own depth text
      (segmentForest nodes) events after := by
  cases written with
  | @full inside _ segments after =>
    obtain ⟨neat, forest⟩ := segments.neat external
    refine ⟨if textual own then inside.texts else "", after, ?_⟩
    rw [← forest]
    exact .full inside after neat
  | empty content after => exact ⟨"", after, .empty content after⟩
  | last => exact ⟨"", [], .last⟩

theorem walk_segments {nodes : List Node} (valid : ∀ node ∈ nodes, ValidSegment node)
    (state : SegmentTimelineState) (taken : Bool) (errno : Int) :
    ∃ elapsedTime taken' errno',
      walk (dispatch segmentTimelineRules) (segmentForest nodes) state taken errno =
        .ok ((({ segmentTimeline := state.segmentTimeline ++
                  expand SegmentRun.parsedCount state.elapsedTime (nodes.map Node.run)
                 elapsedTime } : SegmentTimelineState), taken'), errno') := by
  induction nodes generalizing state taken errno with
  | nil =>
    refine ⟨state.elapsedTime, taken, errno, ?_⟩
    rw [List.map_nil, expand, List.append_nil]
    rfl
  | cons node nodes ih =>
    obtain ⟨here, rest⟩ := List.forall_mem_cons.mp valid
    obtain ⟨errno₁, parsed⟩ := here.parseS state errno
    have visited : dispatch segmentTimelineRules node ("", (.nil : Forest Node)) state false errno =
        .ok ((pushSegments node.run.duration node.run.parsedCount
          { state with elapsedTime := node.run.start.getD state.elapsedTime }, false), errno₁) := by
      rw [segmentTimelineRules, dispatch]
      simp only [Rule.attributes, named_iff.mpr here.named, if_true, Bool.false_eq_true, if_false]
      rw [run_lift, parsed]
      rfl
    rw [segmentForest, run_walk, visited]
    obtain ⟨elapsedTime, taken', errno', walked⟩ := ih rest
      (pushSegments node.run.duration node.run.parsedCount
        { state with elapsedTime := node.run.start.getD state.elapsedTime }) false errno₁
    refine ⟨elapsedTime, taken', errno', ?_⟩
    rw [pushSegments_eq] at walked ⊢
    rw [List.map_cons, expand, ← List.append_assoc]
    exact walked

theorem parseSegmentTimeline_expands {own : Node} (timeline : own.name = "SegmentTimeline")
    {depth : Nat} {nodes : List Node} {events : List (Event Node)}
    (written : TimelineEvents own depth nodes events) (valid : ∀ node ∈ nodes, ValidSegment node)
    (errno : Int) :
    ∃ after errno', parseSegmentTimeline (reader textNode .diverges) depth events errno =
      .ok ((expand SegmentRun.parsedCount 0 (nodes.map Node.run), after), errno') := by
  obtain ⟨text, after, written⟩ := written.written default
  have follows := parseSegmentTimeline_alike timeline depth written errno
  obtain ⟨elapsedTime, taken, errno', walked⟩ := walk_segments valid {} false errno
  have parsed : parseSegmentTimeline tree (text, segmentForest nodes) false errno =
      .ok ((expand SegmentRun.parsedCount 0 (nodes.map Node.run), true), errno') := by
    unfold parseSegmentTimeline element tree
    simp only [run_bind, run_lift, run_set, attempt_pure, Except.map, Except.bind]
    rw [walked]
    rfl
  rw [parsed] at follows
  exact ⟨after, errno', follows⟩

/-! Looking the segments up -/

/-- The timeline that was parsed is the expansion, and every index that a number gives finds in it the
start and the duration of that segment. -/
structure Expands (rounded : Int → Int → Int → Int)
    (parsed expansion : List SegmentTimelineElement) : Prop where
  entries : parsed = expansion
  lookup : ∀ (base : MultiSegmentBase) (n : Int) (k : Nat) (segment : SegmentTimelineElement),
    base.segmentTimeline = some parsed → toInt32 (n - base.startNumber) = k →
      expansion[k]? = some segment →
        base.getSegmentTimeUs rounded n =
            scaleLargeTimestamp rounded (segment.startTime - base.presentationTimeOffset)
              kMicrosPerSecond base.timescale ∧
          ∀ periodDurationUs, base.getSegmentDurationUs rounded n periodDurationUs =
            (segment.duration * kMicrosPerSecond).tdiv base.timescale

theorem Expands.refl (rounded : Int → Int → Int → Int) (timeline : List SegmentTimelineElement) :
    Expands rounded timeline timeline where
  entries := rfl
  lookup base n k segment listed index found := by
    have element : base.element timeline n = some segment := by
      unfold MultiSegmentBase.element
      simp only [index, Int.toNat_natCast, found]
      exact if_neg (by omega)
    unfold MultiSegmentBase.getSegmentTimeUs MultiSegmentBase.getSegmentDurationUs
    simp only [listed, element, true_and, implies_true]

/-- The segments that the parser makes of a SegmentTimeline are the expansion of its runs exactly if none
repeats 2^31 - 1 times or more. -/
theorem parseSegmentTimeline_expands_iff (rounded : Int → Int → Int → Int) {own : Node}
    (timeline : own.name = "SegmentTimeline") {depth : Nat} {nodes : List Node}
    {events : List (Event Node)} (written : TimelineEvents own depth nodes events)
    (valid : ∀ node ∈ nodes, ValidSegment node) (errno : Int) :
    ∃ parsed after errno',
      parseSegmentTimeline (reader textNode .diverges) depth events errno =
        .ok ((parsed, after), errno') ∧
      (Expands rounded parsed (expand SegmentRun.count 0 (nodes.map Node.run)) ↔
        ∀ node ∈ nodes, node.run.repetitions < 2147483647) := by
  obtain ⟨after, errno', ran⟩ := parseSegmentTimeline_expands timeline written valid errno
  refine ⟨_, after, errno', ran, ?_⟩
  have nonneg : ∀ run ∈ nodes.map Node.run, 0 ≤ run.repetitions :=
    List.forall_mem_map.mpr fun node inside => (valid node inside).nonneg
  rw [← List.forall_mem_map (f := Node.run) (P := fun run => run.repetitions < 2147483647),
    ← expand_parsedCount_iff nonneg 0]
  constructor
  · exact Expands.entries
  · intro same
    rw [same]
    exact .refl rounded _

namespace Sample

def run (attributes : List (String × String)) : Node := leaf "S" attributes

theorem valid_run {attributes : List (String × String)} (start : (run attributes).Fits "t")
    (duration : (run attributes).Fits "d") (repetitions : (run attributes).Fits "r")
    (nonneg : 0 ≤ (run attributes).run.repetitions) : ValidSegment (run attributes) :=
  ⟨rfl, start, duration, repetitions, nonneg⟩

-- Three segments from 10 on, one more behind them, and one behind a gap.
def runs : List Node :=
  [run [("t", "10"), ("d", "5"), ("r", "2")], run [("d", "7")], run [("t", "40"), ("d", "7")]]

theorem valid_runs : ∀ node ∈ runs, ValidSegment node := by
  simp only [runs, List.forall_mem_cons]
  refine ⟨valid_run ?_ ?_ ?_ (by decide +kernel), valid_run ?_ ?_ ?_ (by decide +kernel),
    valid_run ?_ ?_ ?_ (by decide +kernel), fun _ absent => by cases absent⟩
  all_goals exact fun _ => by decide +kernel

def runsInside : Content Node :=
  .text "\n" (.empty (run [("t", "10"), ("d", "5"), ("r", "2")])
    (.empty (run [("d", "7")]) (.text "\n" (.empty (run [("t", "40"), ("d", "7")]) .nil))))

theorem segments_runs : Segments runsInside runs :=
  .text _ (.empty (valid_runs _ (by simp [runs])) (.empty (valid_runs _ (by simp [runs]))
    (.text _ (.empty (valid_runs _ (by simp [runs])) .nil))))

end Sample

open Sample in
theorem parseSegmentTimeline_expands_runs :
    ∃ parsed after errno',
      parseSegmentTimeline (reader textNode .diverges) 0
          (runsInside.events 1 ++ [.finish (leaf "SegmentTimeline" []) 0]) 0 =
        .ok ((parsed, after), errno') ∧
      Expands rounded parsed [⟨10, 5⟩, ⟨15, 5⟩, ⟨20, 5⟩, ⟨25, 7⟩, ⟨40, 7⟩] := by
  obtain ⟨parsed, after, errno', ran, expands⟩ :=
    @parseSegmentTimeline_expands_iff rounded (leaf "SegmentTimeline" []) rfl 0 runs _
      (.full segments_runs []) valid_runs 0
  exact ⟨parsed, after, errno', ran, expands.mpr (by decide +kernel)⟩

-- A number of repetitions that is 0 as an int32_t.
open Sample in
theorem parseSegmentTimeline_not_expands :
    TimelineEvents (leaf "SegmentTimeline" []) 0 [run [("d", "1"), ("r", "4294967296")]]
        [.start (run [("d", "1"), ("r", "4294967296")]) 1, .finish (leaf "SegmentTimeline" []) 0] ∧
      parseSegmentTimeline (reader textNode .diverges) 0
          [.start (run [("d", "1"), ("r", "4294967296")]) 1, .finish (leaf "SegmentTimeline" []) 0] 0 =
        .ok (([⟨0, 1⟩], []), 0) ∧
      ¬ Expands rounded [⟨0, 1⟩]
        (expand SegmentRun.count 0 [(run [("d", "1"), ("r", "4294967296")]).run]) := by
  refine ⟨.full (.empty (valid_run ?_ ?_ ?_ (by decide +kernel)) .nil) [], by decide +kernel,
    fun expands => ?_⟩
  · exact fun _ => by decide +kernel
  · exact fun _ => by decide +kernel
  · exact fun _ => by decide +kernel
  · have lengths := congrArg List.length expands.entries
    rw [expand_length] at lengths
    exact absurd lengths (by decide +kernel)

end NDash.Mpd.Manifest
