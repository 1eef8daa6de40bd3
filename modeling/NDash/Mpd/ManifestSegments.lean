import NDash.Mpd.ManifestParser
import NDash.Mpd.ManifestRanges
import NDash.Shared.PullLog

set_option autoImplicit false

/-!
# The fields of a SegmentList or a SegmentTemplate

What the parser takes for them: the attribute, or the parent's value, or a default.
-/

namespace NDash.Mpd.Manifest

open Pull

theorem parseLong_run (text : String) (errno : Int) :
    parseLong text errno =
      .ok (if (scanLong text.toList).outOfRange then none else some (scanLong text.toList).value,
        if (scanLong text.toList).outOfRange then ERANGE else 0) := by
  unfold parseLong
  rw [attempt_bind]
  show (strtol text.toList >>= fun scanned => _) 0 = _
  rw [attempt_bind, strtol_run]
  cases (scanLong text.toList).outOfRange <;> rfl

namespace Node

variable (node : Node)

def longAttribute (name : String) (defaultValue : Int) : Int :=
  let text := node.getAttributeValue name
  if text.isEmpty then defaultValue else (scanLong text.toList).value

def intAttribute (name : String) (defaultValue : Int) : Int :=
  let text := node.getAttributeValue name
  if text.isEmpty then defaultValue else toInt32 (scanLong text.toList).value

variable {node}

theorem parseLong_ok {name : String} {defaultValue errno errno' value : Int}
    (parsed : node.parseLong name defaultValue errno = .ok (some value, errno')) :
    value = node.longAttribute name defaultValue := by
  unfold parseLong at parsed
  unfold longAttribute
  dsimp only at parsed ⊢
  by_cases empty : (node.getAttributeValue name).isEmpty = true
  · rw [if_pos empty] at parsed ⊢
    cases parsed
    rfl
  · rw [if_neg empty, parseLong_run] at parsed
    rw [if_neg empty]
    split at parsed
    · cases parsed
    · cases parsed
      rfl

theorem parseInt_ok {name : String} {defaultValue errno errno' value : Int}
    (parsed : node.parseInt name defaultValue errno = .ok (some value, errno')) :
    value = node.intAttribute name defaultValue := by
  unfold parseInt at parsed
  unfold intAttribute
  dsimp only at parsed ⊢
  by_cases empty : (node.getAttributeValue name).isEmpty = true
  · rw [if_pos empty] at parsed ⊢
    cases parsed
    rfl
  · rw [if_neg empty] at parsed ⊢
    unfold Manifest.parseInt at parsed
    rw [attempt_bind, parseLong_run] at parsed
    split at parsed
    · cases parsed
    · cases parsed
      rfl

end Node

theorem bind_orNull {α β : Type} {first : Attempt (Option α)} {next : α → Attempt β} {errno : Int}
    {result : β × Int} (ran : (do next (← orNull (← first))) errno = .ok result) :
    ∃ value errno', first errno = .ok (some value, errno') ∧ next value errno' = .ok result := by
  obtain ⟨⟨parsed, errno'⟩, began, ran⟩ := effect_bind_ok ran
  cases parsed with
  | none => cases ran
  | some value => exact ⟨value, errno', began, ran⟩

/-! From the element to the object -/

def MultiSegmentFields.bare (fields : MultiSegmentFields) : MultiSegmentFields :=
  { fields with initialization := none, segmentTimeline := none }

def ownFields (node : Node) (baseUrl : String) (inherited : Option MultiSegmentFields) :
    MultiSegmentFields where
  baseUrl
  initialization := none
  timescale := node.longAttribute "timescale" ((inherited.map (·.timescale)).getD 1)
  presentationTimeOffset :=
    node.longAttribute "presentationTimeOffset" ((inherited.map (·.presentationTimeOffset)).getD 0)
  startNumber := node.intAttribute "startNumber" ((inherited.map (·.startNumber)).getD 1)
  duration := node.longAttribute "duration" ((inherited.map (·.duration)).getD (-1))
  segmentTimeline := none

theorem startMultiSegment_fields {Parent : Type} {node : Node} {baseUrl : String}
    {parent : Option Parent} {fieldsOf : Parent → MultiSegmentFields} {errno : Int}
    {result : MultiSegmentState Parent × Int}
    (started : startMultiSegment node baseUrl parent fieldsOf errno = .ok result) :
    result.1.fields.bare = ownFields node baseUrl (parent.map fieldsOf) := by
  obtain ⟨timescale, _, first, started⟩ := bind_orNull started
  obtain ⟨presentationTimeOffset, _, second, started⟩ := bind_orNull started
  obtain ⟨duration, _, third, started⟩ := bind_orNull started
  obtain ⟨startNumber, _, fourth, started⟩ := bind_orNull started
  cases started
  rw [Node.parseLong_ok first, Node.parseLong_ok second, Node.parseLong_ok third,
    Node.parseInt_ok fourth]
  rfl

def templateFields (parent : Option SegmentBase) : Option MultiSegmentFields :=
  match parent with
  | some (.template base) => some base.toMultiSegmentFields
  | _ => none

def listFields (parent : Option SegmentBase) : Option MultiSegmentFields :=
  match parent with
  | some (.list base) => some base.toMultiSegmentFields
  | _ => none

theorem startSegmentTemplate_fields {node : Node} {baseUrl : String} {parent : Option SegmentBase}
    {errno : Int} {result : MultiSegmentState SegmentTemplate × Int}
    (started : startSegmentTemplate node baseUrl parent errno = .ok result) :
    result.1.fields.bare = ownFields node baseUrl (templateFields parent) := by
  obtain ⟨inherited, cast, started⟩ := effect_bind_ok started
  rw [startMultiSegment_fields started]
  rcases parent with - | ⟨base | base | base⟩ <;> cases cast <;> rfl

theorem startSegmentList_fields {node : Node} {baseUrl : String} {parent : Option SegmentBase}
    {errno : Int} {result : MultiSegmentState SegmentList × Int}
    (started : startSegmentList node baseUrl parent errno = .ok result) :
    result.1.fields.bare = ownFields node baseUrl (listFields parent) := by
  obtain ⟨inherited, cast, started⟩ := effect_bind_ok started
  rw [startMultiSegment_fields started]
  rcases parent with - | ⟨base | base | base⟩ <;> cases cast <;> rfl

section Rules

variable {Parent S Place : Type} {fields : MultiSegmentFields} {node : Node} {place : Place}
  {pulled : S} {errno : Int}

section

variable {state : MultiSegmentState Parent} {result : (MultiSegmentState Parent × S) × Int}

theorem initializationRule_keeps (kept : state.fields.bare = fields)
    (ran : (initializationRule : ParserRule S Place _).run node place state pulled errno = .ok result) :
    result.1.1.fields.bare = fields := by
  refine Rule.attributes_keeps
    (fun state : MultiSegmentState Parent => state.fields.bare = fields) ?_ kept ran
  intro node state errno result kept initialized
  obtain ⟨_, _, initialized⟩ := effect_bind_ok initialized
  cases initialized
  exact kept

theorem segmentTimelineRule_keeps {cursor : Cursor Node S Int Failure Place}
    (kept : state.fields.bare = fields)
    (ran : (segmentTimelineRule cursor).run node place state pulled errno = .ok result) :
    result.1.1.fields.bare = fields := by
  refine Rule.inside_keeps
    (fun state : MultiSegmentState Parent => state.fields.bare = fields) ?_ kept ran
  intro state timeline errno result kept updated
  cases updated
  exact kept

end

theorem segmentUrlRule_keeps {state : MultiSegmentState SegmentList}
    {result : (MultiSegmentState SegmentList × S) × Int} (kept : state.fields.bare = fields)
    (ran : (.attributes (named "SegmentURL") pushSegmentUrl : ParserRule S Place _).run node place state
      pulled errno = .ok result) :
    result.1.1.fields.bare = fields := by
  refine Rule.attributes_keeps
    (fun state : MultiSegmentState SegmentList => state.fields.bare = fields) ?_ kept ran
  intro node state errno result kept pushed
  obtain ⟨_, _, pushed⟩ := effect_bind_ok pushed
  cases pushed
  exact kept

end Rules

section Parsed

variable {node : Node} {depth : Nat} {baseUrl : String} {parent : Option SegmentBase}
  {pulled : List (Event Node)} {errno : Int} {result : (SegmentBase × List (Event Node)) × Int}

theorem parseSegmentTemplate_fields
    (parsed : parseSegmentTemplate (reader textNode .diverges) node depth baseUrl parent pulled errno =
      .ok result) :
    ∃ template, result.1.1 = .template template ∧
      template.toMultiSegmentFields.bare = ownFields node baseUrl (templateFields parent) := by
  obtain ⟨state, errno', kept, finished⟩ := element_keeps
    (fun state => state.fields.bare = ownFields node baseUrl (templateFields parent))
    (fun _ _ => startSegmentTemplate_fields)
    (by
      simp only [segmentTemplateRules, List.forall_mem_cons]
      refine ⟨fun _ _ _ _ _ _ => initializationRule_keeps,
        fun _ _ _ _ _ _ => segmentTimelineRule_keeps, fun _ absent => by cases absent⟩)
    parsed
  have built := congrArg Prod.fst (Except.ok.inj finished)
  exact ⟨buildSegmentTemplate node state, built.symm, kept⟩

theorem parseSegmentList_fields
    (parsed : parseSegmentList (reader textNode .diverges) node depth baseUrl parent pulled errno =
      .ok result) :
    ∃ list, result.1.1 = .list list ∧
      list.toMultiSegmentFields.bare = ownFields node baseUrl (listFields parent) := by
  obtain ⟨state, errno', kept, finished⟩ := element_keeps
    (fun state => state.fields.bare = ownFields node baseUrl (listFields parent))
    (fun _ _ => startSegmentList_fields)
    (by
      simp only [segmentListRules, List.forall_mem_cons]
      refine ⟨fun _ _ _ _ _ _ => initializationRule_keeps,
        fun _ _ _ _ _ _ => segmentTimelineRule_keeps, fun _ _ _ _ _ _ => segmentUrlRule_keeps,
        fun _ absent => by cases absent⟩)
    parsed
  have built := congrArg Prod.fst (Except.ok.inj finished)
  exact ⟨buildSegmentList state, built.symm, kept⟩

end Parsed

/-! The objects -/

def MultiSegmentFields.multiSegmentBase (fields : MultiSegmentFields) (media : MediaSegments) :
    MultiSegmentBase where
  baseUrl := fields.baseUrl
  timescale := fields.timescale
  presentationTimeOffset := fields.presentationTimeOffset
  startNumber := fields.startNumber
  duration := fields.duration
  segmentTimeline := fields.segmentTimeline
  media

def Sample.rounded (timestamp multiplier divisor : Int) : Int :=
  (timestamp * multiplier).tdiv divisor

end NDash.Mpd.Manifest
