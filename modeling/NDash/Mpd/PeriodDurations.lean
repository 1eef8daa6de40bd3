import Mathlib.Algebra.BigOperators.Group.List.Basic
import NDash.Mpd.ManifestNotation
import NDash.Shared.PullLog

set_option autoImplicit false

/-!
# The durations of the periods

The duration of the last period is counted from the start of the first one to the duration of the
presentation. Where the parser derives that from the last period, it takes the end instead.
-/

namespace NDash.Mpd.Manifest

open Pull
open Outcome (bind_ok map_ok)

namespace MediaPresentationDescription

variable (manifest : MediaPresentationDescription)

def getPeriodDuration (index : Int) : Int :=
  if index < 0 ∨ index ≥ manifest.periods.length then -1
  else
    match manifest.periods[index.toNat]?, manifest.periods[index.toNat + 1]? with
    | some period, some next => next.startMs - period.startMs
    | some period, none =>
      if manifest.duration = -1 then -1
      else (manifest.periods.head?.map (·.startMs)).getD 0 + manifest.duration - period.startMs
    | none, _ => -1

def firstStartMs : Int := (manifest.periods.head?.map (·.startMs)).getD 0

def bound (index : Nat) : Int :=
  (manifest.periods[index]?.map (·.startMs)).getD (manifest.firstStartMs + manifest.duration)

variable {manifest}

theorem getPeriodDuration_eq (known : manifest.duration ≠ -1) {index : Nat}
    (inside : index < manifest.periods.length) :
    manifest.getPeriodDuration index = manifest.bound (index + 1) - manifest.bound index := by
  have within : ¬ ((index : Int) < 0 ∨ (index : Int) ≥ manifest.periods.length) := by omega
  rw [getPeriodDuration, if_neg within, Int.toNat_natCast, bound, bound, List.getElem?_eq_getElem inside]
  cases next : manifest.periods[index + 1]? with
  | some next => rfl
  | none =>
    simp only [if_neg known]
    rfl

theorem bound_zero (some' : manifest.periods ≠ []) : manifest.bound 0 = manifest.firstStartMs := by
  unfold bound firstStartMs
  cases periods : manifest.periods with
  | nil => exact absurd periods some'
  | cons first rest => rfl

theorem bound_length :
    manifest.bound manifest.periods.length = manifest.firstStartMs + manifest.duration := by
  rw [bound, List.getElem?_eq_none le_rfl]
  rfl

/-- However the periods follow each other, their durations make up that of the presentation. -/
theorem sum_getPeriodDuration (known : manifest.duration ≠ -1) (some' : manifest.periods ≠ []) :
    ((List.range manifest.periods.length).map fun (index : Nat) => manifest.getPeriodDuration index).sum =
      manifest.duration := by
  have each : (List.range manifest.periods.length).map (fun (index : Nat) => manifest.getPeriodDuration index) =
      (List.range manifest.periods.length).map
        fun index => manifest.bound (index + 1) - manifest.bound index :=
    List.map_congr_left fun index inside => getPeriodDuration_eq known (List.mem_range.mp inside)
  rw [each, List.sum_range_sub, bound_length, bound_zero some']
  omega

theorem getPeriodDuration_between (known : manifest.duration ≠ -1) {index : Nat} {period next : Period}
    (here : manifest.periods[index]? = some period)
    (behind : manifest.periods[index + 1]? = some next) :
    manifest.getPeriodDuration index = next.startMs - period.startMs := by
  obtain ⟨inside, _⟩ := List.getElem?_eq_some_iff.mp here
  rw [getPeriodDuration_eq known inside, bound, bound, here, behind]
  rfl

theorem getPeriodDuration_last (known : manifest.duration ≠ -1) {last : Period}
    (ends : manifest.periods.getLast? = some last) :
    manifest.getPeriodDuration (manifest.periods.length - 1 : Nat) =
      manifest.firstStartMs + manifest.duration - last.startMs := by
  rw [List.getLast?_eq_getElem?] at ends
  obtain ⟨inside, _⟩ := List.getElem?_eq_some_iff.mp ends
  have length : manifest.periods.length - 1 + 1 = manifest.periods.length := by omega
  rw [getPeriodDuration_eq known inside, length, bound_length, bound, ends]
  rfl

end MediaPresentationDescription

/-! What ParsePeriod has declared -/

section Observed

variable (external : External) (contentId : String)

structure Observed where
  manifest : MediaPresentationDescription
  mediaPresentationDuration : Int
  declared : List (Period × Int)
deriving DecidableEq, Repr

def observingRules :
    List (ParserRule (List (Event Node)) Nat (MpdState × List (Period × Int))) :=
  ((mpdRules external contentId (reader textNode .diverges)).dropLast.map Rule.keepLog) ++
    [.insideLogged (called "Period") (·.seenEarlyAccessPeriod)
      (fun node place state => parsePeriod external contentId (reader textNode .diverges) node place
        state.baseUrl.baseUrlOverride state.nextPeriodStartMs)
      addPeriod]

def observeMediaPresentationDescription (node : Node) (depth : Nat) (baseUrl : String) :
    ParseFunction (List (Event Node)) (Option Observed) :=
  element (reader textNode .diverges)
    (do
      let state ← startMpd external node baseUrl
      pure (state, []))
    (observingRules external contentId)
    (fun state => pure ((buildMpd state.1).map fun manifest =>
      { manifest, mediaPresentationDuration := state.1.durationMs, declared := state.2 })) depth

def observe (connectionUrl : String) (events : List (Event Node)) (errno : Int) :
    Except Failure (Option Observed) :=
  match events with
  | [] => .ok none
  | event :: rest =>
    if called "MPD" (event.node textNode) then do
      let ((observed, _), _) ← observeMediaPresentationDescription external contentId
        (event.node textNode) event.depth connectionUrl rest errno
      .ok observed
    else .ok none

theorem observingRules_erase : List.Forall₂ (Rule.Erases Prod.fst) (observingRules external contentId)
    (mpdRules external contentId (reader textNode .diverges)) := by
  simp only [observingRules, mpdRules, List.dropLast, List.map_cons, List.map_nil, List.cons_append,
    List.nil_append]
  exact .cons (Rule.keepLog_erases _) (.cons (Rule.keepLog_erases _) (.cons (Rule.keepLog_erases _)
    (.cons (Rule.keepLog_erases _) (.cons (Rule.keepLog_erases _)
      (.cons (Rule.insideLogged_erases _ _ _ _) .nil)))))

theorem observe_erases (connectionUrl : String) (events : List (Event Node)) (errno : Int) :
    parse external contentId connectionUrl events errno =
      (observe external contentId connectionUrl events errno).map (Option.map (·.manifest)) := by
  cases events with
  | nil => rfl
  | cons event rest =>
    have erases : Erases (Option.map (·.manifest))
        (observeMediaPresentationDescription external contentId (event.node textNode) event.depth
          connectionUrl)
        (parseMediaPresentationDescription external contentId (reader textNode .diverges)
          (event.node textNode) event.depth connectionUrl) := by
      refine element_erases ?_ (observingRules_erase external contentId) ?_ event.depth
      · intro world
        show _ = (Except.bind _ _).map _
        cases startMpd external (event.node textNode) connectionUrl world <;> rfl
      · intro state world
        show Except.ok _ = Except.ok _
        cases buildMpd state.1 <;> rfl
    simp only [parse, observe]
    split
    · simp only [bind, erases rest errno]
      cases observeMediaPresentationDescription external contentId (event.node textNode) event.depth
        connectionUrl rest errno <;> rfl
    · rfl

/-! What the loop keeps -/

def nextStartMs (declared : List (Period × Int)) : Int :=
  match declared.getLast? with
  | none => 0
  | some (period, durationMs) => if durationMs = -1 then -1 else period.startMs + durationMs

def Recorded (declared : List (Period × Int)) (state : MpdState) : Prop :=
  state.dynamic = false →
    state.periods = declared.map (·.1) ∧ state.nextPeriodStartMs = nextStartMs declared

variable {external contentId}

theorem startMpd_recorded {node : Node} {baseUrl : String} {world : Int} {result : MpdState × Int}
    (started : startMpd external node baseUrl world = .ok result) : Recorded [] result.1 := by
  obtain ⟨_, _, started⟩ := effect_bind_ok started
  obtain ⟨_, _, started⟩ := effect_bind_ok started
  obtain ⟨_, _, started⟩ := effect_bind_ok started
  dsimp only at started
  split at started
  case isTrue live =>
    obtain ⟨_, _, started⟩ := effect_bind_ok started
    obtain ⟨_, _, started⟩ := effect_bind_ok started
    cases started
    intro static
    exact absurd live (Bool.eq_false_iff.mp static)
  case isFalse still =>
    obtain ⟨_, _, started⟩ := effect_bind_ok started
    obtain ⟨_, _, started⟩ := effect_bind_ok started
    cases started
    intro static
    exact ⟨rfl, rfl⟩

theorem addPeriod_recorded {declared : List (Period × Int)} {state : MpdState}
    {parsed : Period × Int} {errno : Int} {result : MpdState × Int}
    (recorded : Recorded declared state) (added : addPeriod state parsed errno = .ok result) :
    Recorded (declared ++ [parsed]) result.1 := by
  unfold addPeriod at added
  dsimp only at added
  split at added
  · split at added
    case isTrue live =>
      -- A period that is not kept: the manifest is not static.
      cases added
      intro static
      exact absurd live (Bool.eq_false_iff.mp static)
    case isFalse => cases added
  · cases added
    intro static
    obtain ⟨periods, _⟩ := recorded static
    refine ⟨?_, ?_⟩
    · simp only [periods, List.map_append, List.map_cons, List.map_nil]
    · simp only [nextStartMs, List.getLast?_concat]

section Rules

variable {S Place Value : Type} {is : Node → Bool} {idle : MpdState → Bool}
  {node : Node} {place : Place} {state : MpdState × List (Period × Int)} {pulled : S} {errno : Int}
  {result : ((MpdState × List (Period × Int)) × S) × Int}

theorem descriptor_recorded {name : String} {push : MpdState → DescriptorType → MpdState}
    (keeps : ∀ declared state descriptor, Recorded declared state →
      Recorded declared (push state descriptor))
    (recorded : Recorded state.2 state.1)
    (ran : (descriptorRule name push : ParserRule S Place MpdState).keepLog.run node place state pulled
      errno = .ok result) :
    Recorded result.1.1.2 result.1.1.1 := by
  refine Rule.keepLog_keeps (fun log node place state pulled errno result recorded ran => ?_)
    recorded ran
  refine Rule.attributes_keeps (Recorded log) (fun node state errno result recorded pushed => ?_)
    recorded ran
  cases pushed
  exact keeps log state _ recorded

theorem inside_recorded {parse : Node → Place → MpdState → ParseFunction S Value}
    {update : MpdState → Value → Effect Int Failure MpdState}
    (each : ∀ declared state value errno result, Recorded declared state →
      update state value errno = .ok result → Recorded declared result.1)
    (recorded : Recorded state.2 state.1)
    (ran : (Rule.inside is idle parse update).keepLog.run node place state pulled errno = .ok result) :
    Recorded result.1.1.2 result.1.1.1 := by
  refine Rule.keepLog_keeps (fun log node place state pulled errno result recorded ran => ?_)
    recorded ran
  exact Rule.inside_keeps (Recorded log) (fun state value => each log state value) recorded ran

end Rules

theorem observingRules_keep : ∀ rule ∈ observingRules external contentId,
    ∀ node place state pulled world result, Recorded state.2 state.1 →
      rule.run node place state pulled world = .ok result →
        Recorded result.1.1.2 result.1.1.1 := by
  simp only [observingRules, mpdRules, List.dropLast, List.map_cons, List.map_nil, List.cons_append,
    List.nil_append, List.forall_mem_cons]
  refine ⟨?_, ?_, ?_, ?_, ?_, ?_, fun _ absent => by cases absent⟩
  · intro node place state pulled world result
    refine inside_recorded fun declared state text errno result recorded updated => ?_
    cases updated
    exact recorded
  · intro node place state pulled world result
    refine descriptor_recorded ?_
    exact fun declared state descriptor recorded => recorded
  · intro node place state pulled world result
    refine descriptor_recorded ?_
    exact fun declared state descriptor recorded => recorded
  · intro node place state pulled world result
    refine descriptor_recorded ?_
    exact fun declared state descriptor recorded => recorded
  · intro node place state pulled world result
    refine inside_recorded fun declared state location errno result recorded updated => ?_
    cases updated
    exact recorded
  · intro node place state pulled world result
    refine Rule.insideLogged_keeps ?_
    intro log state parsed world result recorded added
    exact addPeriod_recorded recorded added

theorem buildMpd_static {state : MpdState} {manifest : MediaPresentationDescription}
    (built : buildMpd state = some manifest) (static : manifest.dynamic = false) :
    state.dynamic = false ∧ manifest.periods = state.periods ∧ manifest.periods ≠ [] ∧
      manifest.duration ≠ -1 ∧
        manifest.duration =
          if state.durationMs = -1 then state.nextPeriodStartMs else state.durationMs := by
  unfold buildMpd at built
  dsimp only at built
  split at built
  · cases built
  · split at built
    · cases built
    case isFalse unknown kept =>
      cases built
      have still : state.dynamic = false := static
      simp only [still, Bool.false_eq_true, not_false_eq_true, and_true] at unknown
      refine ⟨still, rfl, by simpa using kept, ?_, ?_⟩ <;> dsimp only <;> split_ifs <;> omega

/-- What a manifest that the parser accepts was built from. -/
theorem observe_recorded {connectionUrl : String} {events : List (Event Node)} {errno : Int}
    {observed : Observed}
    (ran : observe external contentId connectionUrl events errno = .ok (some observed)) :
    ∃ state, Recorded observed.declared state ∧ buildMpd state = some observed.manifest ∧
      state.durationMs = observed.mediaPresentationDuration := by
  unfold observe at ran
  split at ran
  · cases ran
  · split at ran
    · obtain ⟨result, parsed, last⟩ := bind_ok ran
      obtain ⟨state, world, recorded, finished⟩ := element_keeps
        (fun state : MpdState × List (Period × Int) => Recorded state.2 state.1)
        (by
          intro world first started
          obtain ⟨begun, beginning, started⟩ := effect_bind_ok started
          cases started
          exact startMpd_recorded beginning)
        observingRules_keep parsed
      obtain ⟨⟨value, pulled⟩, world'⟩ := result
      cases last
      obtain ⟨built, _⟩ := Prod.mk.inj (Except.ok.inj finished)
      obtain ⟨manifest, builds, same⟩ := Option.map_eq_some_iff.mp built
      cases same
      exact ⟨state.1, recorded, builds, rfl⟩
    · cases ran

/-- The durations agree with the manifest: a period ends where the next one starts, the last one ends as
it has declared where the presentation has no duration of its own, and together they make up the whole. -/
structure Consistent (observed : Observed) : Prop where
  between : ∀ (index : Nat) (period next : Period), observed.manifest.periods[index]? = some period →
    observed.manifest.periods[index + 1]? = some next →
      observed.manifest.getPeriodDuration index = next.startMs - period.startMs
  last : observed.mediaPresentationDuration = -1 → ∀ period durationMs,
    observed.declared.getLast? = some (period, durationMs) →
      observed.manifest.getPeriodDuration (observed.manifest.periods.length - 1 : Nat) = durationMs
  whole : ((List.range observed.manifest.periods.length).map
    fun (index : Nat) => observed.manifest.getPeriodDuration index).sum = observed.manifest.duration

theorem observed_consistent_iff {connectionUrl : String} {events : List (Event Node)} {errno : Int}
    {observed : Observed}
    (ran : observe external contentId connectionUrl events errno = .ok (some observed))
    (static : observed.manifest.dynamic = false) :
    observed.manifest.periods = observed.declared.map (·.1) ∧
      (Consistent observed ↔
        (observed.mediaPresentationDuration = -1 → observed.manifest.firstStartMs = 0)) := by
  obtain ⟨state, recorded, built, declaredDuration⟩ := observe_recorded ran
  obtain ⟨still, periods, some', known, duration⟩ := buildMpd_static built static
  obtain ⟨kept, next⟩ := recorded still
  have listed : observed.manifest.periods = observed.declared.map (·.1) := periods.trans kept
  rw [declaredDuration, next] at duration
  refine ⟨listed, ?_⟩
  obtain ⟨⟨last, durationMs⟩, ends⟩ : ∃ parsed, observed.declared.getLast? = some parsed := by
    cases declared : observed.declared.getLast? with
    | none => simp [listed, List.getLast?_eq_none_iff.mp declared] at some'
    | some parsed => exact ⟨parsed, rfl⟩
  have lastPeriod : observed.manifest.periods.getLast? = some last := by
    rw [listed, List.getLast?_map, ends]
    rfl
  have lasts := MediaPresentationDescription.getPeriodDuration_last known lastPeriod
  simp only [nextStartMs, ends] at duration
  constructor
  · intro consistent derived
    have declared := consistent.last derived last durationMs ends
    rw [if_pos derived] at duration
    split at duration <;> omega
  · intro begins
    refine ⟨fun index period next => MediaPresentationDescription.getPeriodDuration_between known, ?_,
      MediaPresentationDescription.sum_getPeriodDuration known some'⟩
    intro derived period durationMs' ends'
    cases ends.symm.trans ends'
    have first := begins derived
    rw [if_pos derived] at duration
    split at duration <;> omega

/-- In every static manifest that the parser accepts, the durations of the periods are consistent exactly
if the first period starts at 0 or the presentation has a duration of its own. -/
theorem parse_consistent_iff {connectionUrl : String} {events : List (Event Node)} {errno : Int}
    {manifest : MediaPresentationDescription}
    (parsed : parse external contentId connectionUrl events errno = .ok (some manifest))
    (static : manifest.dynamic = false) :
    ∃ observed, observe external contentId connectionUrl events errno = .ok (some observed) ∧
      observed.manifest = manifest ∧ manifest.periods = observed.declared.map (·.1) ∧
        (Consistent observed ↔
          (observed.mediaPresentationDuration = -1 → manifest.firstStartMs = 0)) := by
  rw [observe_erases] at parsed
  obtain ⟨result, ran, last⟩ := map_ok parsed
  obtain ⟨observed, rfl, rfl⟩ := Option.map_eq_some_iff.mp last
  exact ⟨observed, ran, rfl, observed_consistent_iff ran static⟩

end Observed

namespace Sample

-- ParseXsDuration on PT10S and PT20S, the only durations below.
def durations : External where
  resolve _ text := text
  parseXsDuration text := if text = "PT10S" then 10000 else 20000
  durationErrno _ errno := errno
  parseXsDateTime _ errno := (0, errno)

def presentation (periods : Content Node) : List (Event Node) :=
  (Document.mk (leaf "MPD" []) (some periods)).events

def period (attributes : List (String × String)) (more : Content Node) : Content Node :=
  .empty (leaf "Period" attributes) (.text "\n" more)

def parsedPeriod (startMs : Int) : Period where
  id := ""
  startMs
  adaptationSets := []
  segmentBase := none
  supplementalProperties := []

def parsedManifest (duration : Int) (periods : List Period) : MediaPresentationDescription where
  availabilityStartTime := -1
  duration
  minBufferTime := -1
  dynamic := false
  minUpdatePeriod := -1
  timeShiftBufferDepth := -1
  utcTiming := none
  location := ""
  periods
  supplementalProperties := []
  essentialProperties := []

end Sample

open Sample in
theorem parse_consistent_chained :
    ∃ observed, observe durations "content" ""
        (presentation (period [("duration", "PT10S")] (period [("duration", "PT20S")] .nil))) 0 =
          .ok (some observed) ∧
      observed.manifest = parsedManifest 30000 [parsedPeriod 0, parsedPeriod 10000] ∧
        Consistent observed := by
  obtain ⟨observed, ran, same, _, consistent⟩ :=
    @parse_consistent_iff durations "content" ""
      (presentation (period [("duration", "PT10S")] (period [("duration", "PT20S")] .nil))) 0
      (parsedManifest 30000 [parsedPeriod 0, parsedPeriod 10000]) (by decide +kernel) rfl
  exact ⟨observed, ran, same, consistent.mpr fun _ => rfl⟩

-- One period of 20 seconds that starts after 10: the presentation is taken to last 30 seconds from there.
open Sample in
theorem parse_not_consistent :
    ∃ observed,
      parse durations "content" ""
          (presentation (period [("start", "PT10S"), ("duration", "PT20S")] .nil)) 0 =
        .ok (some observed.manifest) ∧
      observed.manifest.dynamic = false ∧
      observe durations "content" ""
          (presentation (period [("start", "PT10S"), ("duration", "PT20S")] .nil)) 0 =
        .ok (some observed) ∧
      observed.declared = [(parsedPeriod 10000, 20000)] ∧
      observed.manifest.getPeriodDuration 0 = 30000 ∧ ¬ Consistent observed := by
  refine ⟨⟨parsedManifest 30000 [parsedPeriod 10000], -1, [(parsedPeriod 10000, 20000)]⟩,
    by decide +kernel, rfl, by decide +kernel, rfl, rfl, fun consistent => ?_⟩
  have last := consistent.last rfl (parsedPeriod 10000) 20000 rfl
  exact absurd last (by decide)

end NDash.Mpd.Manifest
