import Mathlib.Data.Set.Image
import NDash.Mpd.ManifestParser
import NDash.Mpd.ManifestRanges

set_option autoImplicit false

/-!
# Notation of a manifest

A loop matches the names of elements at their start and at their end, and goes on reading behind an
element that has no end. So what is parsed depends on the element tree alone only where the elements
that a branch is taken for are written neatly.
-/

namespace NDash.Mpd.Manifest

open Pull

def textual (node : Node) : Bool :=
  named "BaseURL" node || called "BaseURL" node || called "Location" node || named "cenc:pssh" node

/-- Where the loop of the MPD has come to, as far as it matters for what it does with an element. -/
structure MpdLoop where
  dynamic : Bool
  nextPeriodStartMs : Int
  seenFirstBaseUrl : Bool := false
  seenEarlyAccessPeriod : Bool := false
deriving DecidableEq, Repr

inductive Loop
  | mpd (here : MpdLoop)
  | period (seenFirstBaseUrl : Bool)
  | adaptationSet (seenFirstBaseUrl : Bool)
  | representation (seenFirstBaseUrl : Bool)
  | segmentBase
  | segmentList
  | segmentTemplate
  | segmentTimeline
  | contentProtection
deriving DecidableEq, Repr

section Grammar

variable (external : External)

def Node.durationMs (node : Node) (name : String) (defaultMs : Int) : Int :=
  ((node.getProp name).map external.parseXsDuration).getD defaultMs

def MpdLoop.behindPeriod (here : MpdLoop) (node : Node) : MpdLoop :=
  let startMs := node.durationMs external "start" here.nextPeriodStartMs
  let durationMs := node.durationMs external "duration" (-1)
  if startMs = -1 then { here with seenEarlyAccessPeriod := true }
  else { here with nextPeriodStartMs := if durationMs = -1 then -1 else startMs + durationMs }

-- Only the first BaseURL is read.
def baseUrlRow (is : Node → Bool) (seenFirstBaseUrl : Bool) (next : Loop) : Row Node Loop where
  is
  branch _ := if seenFirstBaseUrl then .passed else .text next

def containerRow (name : String) (inner here : Loop) : Row Node Loop where
  is := named name
  branch _ := .loop inner here

def segmentBaseRows (here : Loop) : List (Row Node Loop) :=
  [containerRow "SegmentBase" .segmentBase here, containerRow "SegmentList" .segmentList here,
    containerRow "SegmentTemplate" .segmentTemplate here]

/-- The branches of every loop, in the order of the source. -/
def rows : Loop → List (Row Node Loop)
  | .mpd here =>
    [baseUrlRow (called "BaseURL") here.seenFirstBaseUrl (.mpd { here with seenFirstBaseUrl := true }),
      ⟨called "SupplementalProperty", fun _ => .counted⟩,
      ⟨called "EssentialProperty", fun _ => .counted⟩,
      ⟨called "UTCTiming", fun _ => .repeated⟩,
      ⟨called "Location", fun _ => .text (.mpd here)⟩,
      ⟨called "Period", fun node =>
        if here.seenEarlyAccessPeriod then .passed
        else .loop (.period false) (.mpd (here.behindPeriod external node))⟩]
  | .period seen =>
    [baseUrlRow (named "BaseURL") seen (.period true),
      ⟨called "SupplementalProperty", fun _ => .counted⟩,
      containerRow "AdaptationSet" (.adaptationSet false) (.period seen)] ++
    segmentBaseRows (.period seen)
  | .adaptationSet seen =>
    [baseUrlRow (named "BaseURL") seen (.adaptationSet true),
      ⟨called "SupplementalProperty", fun _ => .counted⟩,
      ⟨called "EssentialProperty", fun _ => .counted⟩,
      containerRow "ContentProtection" .contentProtection (.adaptationSet seen),
      ⟨named "ContentComponent", fun _ => .settled⟩,
      containerRow "Representation" (.representation false) (.adaptationSet seen),
      ⟨named "AudioChannelConfiguration", fun _ => .repeated⟩] ++
    segmentBaseRows (.adaptationSet seen)
  | .representation seen =>
    [baseUrlRow (named "BaseURL") seen (.representation true),
      ⟨called "SupplementalProperty", fun _ => .counted⟩,
      ⟨called "EssentialProperty", fun _ => .counted⟩,
      ⟨named "AudioChannelConfiguration", fun _ => .repeated⟩] ++
    segmentBaseRows (.representation seen) ++
    [containerRow "ContentProtection" .contentProtection (.representation seen)]
  | .segmentBase => [⟨named "Initialization", fun _ => .repeated⟩]
  | .segmentList =>
    [⟨named "Initialization", fun _ => .repeated⟩,
      containerRow "SegmentTimeline" .segmentTimeline .segmentList,
      ⟨named "SegmentURL", fun _ => .counted⟩]
  | .segmentTemplate =>
    [⟨named "Initialization", fun _ => .repeated⟩,
      containerRow "SegmentTimeline" .segmentTimeline .segmentTemplate]
  | .segmentTimeline => [⟨named "S", fun _ => .counted⟩]
  | .contentProtection => [⟨named "cenc:pssh", fun _ => .text .contentProtection⟩]

def grammar : Grammar Node Loop := .ofRows textual (rows external)

end Grammar

theorem named_iff {name : String} {node : Node} : named name node = true ↔ node.name = name := by
  simp [named]

theorem name_of_called {name : String} {node : Node} (plain : ':' ∉ name.toList)
    (matching : called name node = true) : node.name = name := by
  have same : node.qualifiedName = name := by simpa [called] using matching
  unfold Node.qualifiedName at same
  cases qualifier : node.qualifier with
  | none =>
    rw [qualifier] at same
    exact same
  | some text =>
    rw [qualifier] at same
    refine absurd ?_ plain
    rw [← same]
    simp

theorem named_other {name other : String} {node : Node} (same : node.name = name)
    (different : name ≠ other) : named other node = false := by
  simp [named, same, different]

theorem called_other {name other : String} {node : Node} (plain : ':' ∉ other.toList)
    (same : node.name = name) (different : name ≠ other) : called other node = false := by
  rw [Bool.eq_false_iff]
  intro matching
  exact different (same.symm.trans (name_of_called plain matching))

/-! What is done again at the end of an element -/

theorem parseAudioChannelConfiguration_repeats {node : Node} {errno errno' : Int} {channels : Int}
    (parsed : parseAudioChannelConfiguration node errno = .ok (channels, errno')) :
    parseAudioChannelConfiguration node errno' = .ok (channels, errno') := by
  unfold parseAudioChannelConfiguration at parsed ⊢
  split at parsed
  next scheme =>
    rw [if_pos scheme]
    unfold Node.parseInt at parsed ⊢
    dsimp only at parsed ⊢
    split at parsed
    next absent =>
      rw [if_pos absent]
      cases parsed
      rfl
    next present =>
      rw [if_neg present]
      exact parsed
  next scheme =>
    rw [if_neg scheme]
    cases parsed
    rfl

theorem segmentBaseInitialization_repeats {node : Node} {base base' : SingleSegmentBase}
    {errno errno' : Int} (parsed : segmentBaseInitialization node base errno = .ok (base', errno')) :
    segmentBaseInitialization node base' errno' = .ok (base', errno') := by
  obtain ⟨⟨initialization, errno₁⟩, found, built⟩ := effect_bind_ok parsed
  cases built
  obtain rfl := parseRangedUrl_errno found
  have again : parseInitialization node base.baseUrl errno₁ = .ok (initialization, errno₁) := found
  unfold segmentBaseInitialization
  change (parseInitialization node base.baseUrl errno₁).bind _ = _
  rw [again]
  rfl

theorem multiSegmentInitialization_repeats {Parent : Type} {node : Node}
    {state state' : MultiSegmentState Parent} {errno errno' : Int}
    (parsed : multiSegmentInitialization node state errno = .ok (state', errno')) :
    multiSegmentInitialization node state' errno' = .ok (state', errno') := by
  obtain ⟨⟨initialization, errno₁⟩, found, built⟩ := effect_bind_ok parsed
  cases built
  obtain rfl := parseRangedUrl_errno found
  have again : parseInitialization node state.fields.baseUrl errno₁ = .ok (initialization, errno₁) :=
    found
  unfold multiSegmentInitialization
  change (parseInitialization node state.fields.baseUrl errno₁).bind _ = _
  rw [again]
  rfl

def Settled (node : Node) (state : AdaptationSetState) : Prop :=
  (state.language = "" → node.getAttributeValue "lang" = "") ∧
    (state.contentType = .unknown → parseContentType node = .unknown)

theorem checkLanguageConsistency_empty {first second : String}
    (empty : checkLanguageConsistency first second = "") : first = "" ∧ second = "" := by
  unfold checkLanguageConsistency at empty
  split at empty
  next nothing => exact ⟨String.isEmpty_iff.mp nothing, empty⟩
  next something => exact absurd (String.isEmpty_iff.mpr empty) something

theorem checkContentTypeConsistency_unknown {first second : AdaptationType}
    (unknown : checkContentTypeConsistency first second = .unknown) :
    first = .unknown ∧ second = .unknown := by
  unfold checkContentTypeConsistency at unknown
  split at unknown
  next nothing => exact ⟨nothing, unknown⟩
  next something => exact absurd unknown something

theorem contentComponent_run {node : Node} {state : AdaptationSetState} {errno : Int}
    {result : AdaptationSetState × Int} (ran : contentComponent node state errno = .ok result) :
    result.1 = { state with
      language := checkLanguageConsistency state.language (node.getAttributeValue "lang")
      contentType := checkContentTypeConsistency state.contentType (parseContentType node) } := by
  cases ran
  rfl

theorem contentComponent_settles {node : Node} {state : AdaptationSetState} {errno : Int}
    {result : AdaptationSetState × Int} (ran : contentComponent node state errno = .ok result) :
    Settled node result.1 := by
  rw [contentComponent_run ran]
  exact ⟨fun empty => (checkLanguageConsistency_empty empty).2,
    fun unknown => (checkContentTypeConsistency_unknown unknown).2⟩

theorem contentComponent_settled {node : Node} {state : AdaptationSetState}
    (settled : Settled node state) : contentComponent node state = pure state := by
  obtain ⟨language, contentType⟩ := settled
  have first : checkLanguageConsistency state.language (node.getAttributeValue "lang") =
      state.language := by
    unfold checkLanguageConsistency
    split
    next nothing =>
      have empty := String.isEmpty_iff.mp nothing
      rw [language empty, empty]
    next => rfl
  have second : checkContentTypeConsistency state.contentType (parseContentType node) =
      state.contentType := by
    unfold checkContentTypeConsistency
    split
    next unknown => rw [contentType unknown, unknown]
    next => rfl
  unfold contentComponent
  rw [first, second]

theorem Settled.mono {node : Node} {state state' : AdaptationSetState} (settled : Settled node state)
    (language : state'.language = "" → state.language = "")
    (contentType : state'.contentType = .unknown → state.contentType = .unknown) :
    Settled node state' :=
  ⟨settled.1 ∘ language, settled.2 ∘ contentType⟩

/-! Parse functions on the reader and on the tree -/

abbrev pull : Cursor Node (List (Event Node)) Int Failure Nat := reader textNode .diverges

section Alike

variable (external : External)

def Alike {α : Type} (here : Loop) (node : Node) (onReader : Nat → ParseFunction (List (Event Node)) α)
    (onTree : String × Forest Node → ParseFunction Bool α) : Prop :=
  ∀ depth {text inside before after},
    Written textual (Content.Neat (grammar external) here) node depth text inside before after →
      Follows before after false (onReader depth) (onTree (text, inside))

abbrev Agrees {σ : Type} (node : Node) (stable : Set (σ → Prop)) (loopOf : σ → Loop)
    (rules : List (ParserRule (List (Event Node)) Nat σ))
    (rules' : List (ParserRule Bool (String × Forest Node) σ)) : Prop :=
  ∀ state, Agree (grammar external) textNode node stable loopOf state (rows external (loopOf state))
    rules rules'

variable {external}

theorem Alike.element {σ α : Type} {here : Loop} {node : Node} {stable : Set (σ → Prop)}
    {loopOf : σ → Loop} {rules : List (ParserRule (List (Event Node)) Nat σ)}
    {rules' : List (ParserRule Bool (String × Forest Node) σ)}
    (agree : Agrees external node stable loopOf rules rules') {start : Attempt σ}
    (starts : ∀ {errno result}, start errno = .ok result → loopOf result.1 = here)
    (finish : σ → Attempt α) :
    Alike external here node (element pull start rules finish) (element tree start rules' finish) :=
  fun _ _ _ _ _ written => Follows.element agree starts finish written

def Keeps {σ α : Type} (stable : Set (σ → Prop)) (update : σ → α → σ) : Prop :=
  ∀ kept ∈ stable, ∀ state value, kept state → kept (update state value)

theorem Keeps.pure {σ α : Type} {stable : Set (σ → Prop)} {update : σ → α → σ}
    (keeps : Keeps stable update) : ∀ kept ∈ stable, ∀ state value errno result, kept state →
      (Pure.pure (update state value) : Attempt σ) errno = .ok result → kept result.1 := by
  intro kept member state value errno result holds updated
  cases updated
  exact keeps kept member state value holds

section Branches

variable {node : Node} {σ : Type} {stable : Set (σ → Prop)} {loopOf : σ → Loop} {state : σ}

theorem container_agrees {α : Type} {name : String} {inner : Loop}
    {parse : Node → Nat → σ → ParseFunction (List (Event Node)) α}
    {parse' : Node → String × Forest Node → σ → ParseFunction Bool α} {update : σ → α → Attempt σ}
    (text : named name textNode = false) (apart : named name node = false)
    (keeps : ∀ kept ∈ stable, ∀ state value errno result, kept state →
      update state value errno = .ok result → kept result.1)
    (stays : ∀ {value errno result}, update state value errno = .ok result →
      loopOf result.1 = loopOf state)
    (alike : ∀ child, child.name = name →
      Alike external inner child (parse child · state) (parse' child · state))
    (takes : ∀ child place, Takes (parse' child place state)) :
    Rule.Agrees (grammar external) textNode node stable loopOf state
      (containerRow name inner (loopOf state)) (.inside (named name) (fun _ => false) parse update)
      (.inside (named name) (fun _ => false) parse' update) := by
  refine Rule.inside_agrees text apart (by simp) (fun _ _ => rfl) (.inl rfl) keeps ?_ ?_ takes
  · intro child place errno parsed result _ _ _ updated
    exact stays updated
  · intro child matching _ depth text inside before after written
    exact alike child (named_iff.mp matching) depth written

theorem text_agrees {is : Node → Bool} {next : Loop} {update : σ → String → Attempt σ}
    (text : is textNode = false) (apart : is node = false)
    (holds : ∀ child, is child = true → textual child = true)
    (keeps : ∀ kept ∈ stable, ∀ state value errno result, kept state →
      update state value errno = .ok result → kept result.1)
    (moves : ∀ {value errno result}, update state value errno = .ok result →
      loopOf result.1 = next) :
    Rule.Agrees (grammar external) textNode node stable loopOf state ⟨is, fun _ => .text next⟩
      (.inside is (fun _ => false) (fun _ place _ => pull.nextText place) update)
      (.inside is (fun _ => false) (fun _ place _ => tree.nextText place) update) := by
  refine Rule.inside_agrees text apart (by simp) (fun _ _ => rfl) (.inl rfl) keeps ?_ ?_ ?_
  · intro child place errno parsed result _ _ _ updated
    exact moves updated
  · intro child matching _ depth text inside before after written
    exact Follows.nextText (holds child matching) written
  · intro child place
    exact Takes.nextText place

theorem baseUrlRule_agrees {is : Node → Bool} {baseUrl : σ → BaseUrlState}
    {update : σ → BaseUrlState → σ} {next : Loop} (text : is textNode = false)
    (apart : is node = false) (holds : ∀ child, is child = true → textual child = true)
    (member : (fun state => (baseUrl state).seenFirstBaseUrl = true) ∈ stable)
    (keeps : Keeps stable fun state text => update state ((baseUrl state).resolve external text))
    (moves : ∀ text, loopOf (update state ((baseUrl state).resolve external text)) = next) :
    Rule.Agrees (grammar external) textNode node stable loopOf state
      (baseUrlRow is (baseUrl state).seenFirstBaseUrl next)
      (baseUrlRule external pull is baseUrl update) (baseUrlRule external tree is baseUrl update) := by
  refine Rule.inside_agrees text apart ?_ ?_ (.inr member) keeps.pure ?_ ?_ ?_
  · intro child
    cases (baseUrl state).seenFirstBaseUrl <;> simp
  · intro child unseen
    rw [unseen]
    rfl
  · intro child place errno parsed result _ unseen _ updated
    cases updated
    rw [unseen]
    exact moves _
  · intro child matching _ depth text inside before after written
    exact Follows.nextText (holds child matching) written
  · intro child place
    exact Takes.nextText place

theorem descriptorRule_agrees {name : String} {push : σ → DescriptorType → σ}
    (text : called name textNode = false) (apart : called name node = false)
    (keeps : Keeps stable push)
    (stays : ∀ descriptor, loopOf (push state descriptor) = loopOf state) :
    Rule.Agrees (grammar external) textNode node stable loopOf state
      ⟨called name, fun _ => .counted⟩ (descriptorRule name push) (descriptorRule name push) := by
  refine Rule.attributes_agrees text apart ?_ ?_ fun _ _ => .inl rfl
  · intro kept member child state errno result holds pushed
    cases pushed
    exact keeps kept member state _ holds
  · intro child errno result pushed
    cases pushed
    exact stays _

theorem audioChannelRule_agrees {update : σ → Int → σ}
    (apart : named "AudioChannelConfiguration" node = false) (keeps : Keeps stable update)
    (stays : ∀ channels, loopOf (update state channels) = loopOf state)
    (overwrites : ∀ state channels, update (update state channels) channels = update state channels) :
    Rule.Agrees (grammar external) textNode node stable loopOf state
      ⟨named "AudioChannelConfiguration", fun _ => .repeated⟩ (audioChannelRule update)
      (audioChannelRule update) := by
  refine Rule.attributes_agrees (by decide) apart ?_ ?_ fun child _ => .inr (.inl ⟨rfl, ?_⟩)
  · intro kept member child state errno result holds updated
    obtain ⟨channels, found, built⟩ := effect_bind_ok updated
    cases built
    exact keeps kept member state _ holds
  · intro child errno result updated
    obtain ⟨channels, found, built⟩ := effect_bind_ok updated
    cases built
    exact stays _
  · intro state errno result updated
    obtain ⟨⟨channels, errno₁⟩, found, built⟩ := effect_bind_ok updated
    cases built
    change (parseAudioChannelConfiguration child errno₁).bind _ = _
    rw [parseAudioChannelConfiguration_repeats found]
    change Except.ok (update (update state channels) channels, errno₁) = _
    rw [overwrites]

end Branches

theorem parseSegmentTimeline_alike {node : Node} (own : node.name = "SegmentTimeline") :
    Alike external .segmentTimeline node (parseSegmentTimeline pull) (parseSegmentTimeline tree) := by
  have agree : Agrees external node ∅ (fun _ => .segmentTimeline) segmentTimelineRules
      segmentTimelineRules := by
    intro state
    refine .cons ?_ .nil
    exact Rule.attributes_agrees (by decide) (named_other own (by decide)) (by simp) (by simp)
      fun _ _ => .inl rfl
  exact Alike.element agree (fun _ => rfl) _

theorem parseSegmentBase_alike {node : Node} (own : node.name = "SegmentBase") (baseUrl : String)
    (parent : Option SegmentBase) :
    Alike external .segmentBase node (parseSegmentBase pull node · baseUrl parent)
      (parseSegmentBase tree node · baseUrl parent) := by
  have agree : Agrees external node ∅ (fun _ => .segmentBase) segmentBaseRules segmentBaseRules := by
    intro state
    refine .cons ?_ .nil
    exact Rule.attributes_agrees (by decide) (named_other own (by decide)) (by simp) (by simp)
      fun _ _ => .inr (.inl ⟨rfl, segmentBaseInitialization_repeats⟩)
  exact Alike.element agree (fun _ => rfl) _

section MultiSegment

variable {node : Node} {Parent : Type} {here : Loop} {state : MultiSegmentState Parent}

theorem initializationRule_agrees (apart : named "Initialization" node = false) :
    Rule.Agrees (grammar external) textNode node ∅ (fun _ => here) state
      ⟨named "Initialization", fun _ => .repeated⟩ initializationRule initializationRule :=
  Rule.attributes_agrees (by decide) apart (by simp) (by simp)
    fun _ _ => .inr (.inl ⟨rfl, multiSegmentInitialization_repeats⟩)

theorem segmentTimelineRule_agrees (apart : named "SegmentTimeline" node = false) :
    Rule.Agrees (grammar external) textNode node ∅ (fun _ => here) state
      (containerRow "SegmentTimeline" .segmentTimeline here) (segmentTimelineRule pull)
      (segmentTimelineRule tree) := by
  refine container_agrees (by decide) apart (by simp) (by simp) ?_ ?_
  · intro child own
    exact parseSegmentTimeline_alike own
  · intro child place
    exact Takes.element _ _ _

theorem parseSegmentList_alike (own : node.name = "SegmentList") (baseUrl : String)
    (parent : Option SegmentBase) :
    Alike external .segmentList node (parseSegmentList pull node · baseUrl parent)
      (parseSegmentList tree node · baseUrl parent) := by
  have agree : Agrees external node ∅ (fun _ => .segmentList) (segmentListRules pull)
      (segmentListRules tree) := by
    intro state
    refine .cons (initializationRule_agrees (named_other own (by decide)))
      (.cons (segmentTimelineRule_agrees (named_other own (by decide))) (.cons ?_ .nil))
    exact Rule.attributes_agrees (by decide) (named_other own (by decide)) (by simp) (by simp)
      fun _ _ => .inl rfl
  exact Alike.element agree (fun _ => rfl) _

theorem parseSegmentTemplate_alike (own : node.name = "SegmentTemplate") (baseUrl : String)
    (parent : Option SegmentBase) :
    Alike external .segmentTemplate node (parseSegmentTemplate pull node · baseUrl parent)
      (parseSegmentTemplate tree node · baseUrl parent) := by
  have agree : Agrees external node ∅ (fun _ => .segmentTemplate) (segmentTemplateRules pull)
      (segmentTemplateRules tree) :=
    fun _ => .cons (initializationRule_agrees (named_other own (by decide)))
      (.cons (segmentTimelineRule_agrees (named_other own (by decide))) .nil)
  exact Alike.element agree (fun _ => rfl) _

end MultiSegment

theorem parseContentProtection_alike {node : Node} (own : node.name = "ContentProtection") :
    Alike external .contentProtection node (parseContentProtection pull node)
      (parseContentProtection tree node) := by
  have agree : Agrees external node ∅ (fun _ => .contentProtection) (contentProtectionRules pull)
      (contentProtectionRules tree) := by
    intro state
    refine .cons (text_agrees (by decide) (named_other own (by decide)) ?_ (by simp) (by simp)) .nil
    intro child matching
    simp [textual, matching]
  exact Alike.element agree (fun _ => rfl) _

section Shared

variable {node : Node} {σ : Type} {stable : Set (σ → Prop)} {loopOf : σ → Loop} {state : σ}

theorem segmentBaseBranches_agree {baseUrl : σ → String} {parent : σ → Option SegmentBase}
    {update : σ → SegmentBase → σ}
    (apart : node.name ∉ ["SegmentBase", "SegmentList", "SegmentTemplate"])
    (keeps : Keeps stable update) (stays : ∀ base, loopOf (update state base) = loopOf state) :
    Agree (grammar external) textNode node stable loopOf state (segmentBaseRows (loopOf state))
      (segmentBaseBranches pull baseUrl parent update)
      (segmentBaseBranches tree baseUrl parent update) := by
  simp only [List.mem_cons, List.not_mem_nil, or_false, not_or] at apart
  have kept {base : SegmentBase} {errno : Int} {result : σ × Int}
      (updated : (pure (update state base) : Attempt σ) errno = .ok result) :
      loopOf result.1 = loopOf state := by
    cases updated
    exact stays base
  refine .cons ?_ (.cons ?_ (.cons ?_ .nil))
  · exact container_agrees (by decide) (by simp [named, apart]) keeps.pure kept
      (fun child own => parseSegmentBase_alike own _ _) fun child place => Takes.element _ _ _
  · exact container_agrees (by decide) (by simp [named, apart]) keeps.pure kept
      (fun child own => parseSegmentList_alike own _ _) fun child place => Takes.element _ _ _
  · exact container_agrees (by decide) (by simp [named, apart]) keeps.pure kept
      (fun child own => parseSegmentTemplate_alike own _ _) fun child place => Takes.element _ _ _

theorem contentProtectionRule_agrees {protect : σ → ContentProtection → σ}
    (apart : named "ContentProtection" node = false) (keeps : Keeps stable protect)
    (stays : ∀ protection, loopOf (protect state protection) = loopOf state) :
    Rule.Agrees (grammar external) textNode node stable loopOf state
      (containerRow "ContentProtection" .contentProtection (loopOf state))
      (contentProtectionRule pull protect) (contentProtectionRule tree protect) := by
  refine container_agrees (by decide) apart ?_ ?_ ?_ ?_
  · intro kept member state protection errno result holds updated
    cases updated
    cases protection with
    | none => exact holds
    | some protection => exact keeps kept member state protection holds
  · intro protection errno result updated
    cases updated
    cases protection with
    | none => rfl
    | some protection => exact stays protection
  · intro child own
    exact parseContentProtection_alike own
  · intro child place
    exact Takes.element _ _ _

end Shared

theorem textual_of_baseUrl {child : Node} (matching : named "BaseURL" child = true) :
    textual child = true := by
  simp [textual, matching]

theorem startRepresentation_run {node : Node} {set : AdaptationSetState} {errno : Int}
    {result : RepresentationState × Int} (started : startRepresentation node set errno = .ok result) :
    result.1.baseUrl.seenFirstBaseUrl = false := by
  iterate 12 obtain ⟨_, _, started⟩ := effect_bind_ok started
  cases started
  rfl

theorem parseRepresentation_alike (contentId : String) {node : Node}
    (own : node.name = "Representation") (set : AdaptationSetState) :
    Alike external (.representation false) node (parseRepresentation external contentId pull node · set)
      (parseRepresentation external contentId tree node · set) := by
  have agree : Agrees external node {fun state => state.baseUrl.seenFirstBaseUrl = true}
      (fun state => .representation state.baseUrl.seenFirstBaseUrl)
      (representationRules external pull) (representationRules external tree) := by
    intro state
    refine .append (.append (.cons ?_ (.cons ?_ (.cons ?_ (.cons ?_ .nil)))) ?_) (.cons ?_ .nil)
    · exact baseUrlRule_agrees (by decide) (named_other own (by decide))
        (fun _ => textual_of_baseUrl) (by simp) (by simp [Keeps, BaseUrlState.resolve])
        (by simp [BaseUrlState.resolve])
    · exact descriptorRule_agrees (by decide) (called_other (by decide) own (by decide))
        (by simp [Keeps]) (by simp)
    · exact descriptorRule_agrees (by decide) (called_other (by decide) own (by decide))
        (by simp [Keeps]) (by simp)
    · exact audioChannelRule_agrees (named_other own (by decide)) (by simp [Keeps]) (by simp)
        (by simp)
    · exact segmentBaseBranches_agree (by simp [own]) (by simp [Keeps]) (by simp)
    · exact contentProtectionRule_agrees (named_other own (by decide)) (by simp [Keeps]) (by simp)
  exact Alike.element agree (fun started => by rw [startRepresentation_run started]) _

theorem addRepresentation_run {state : AdaptationSetState}
    {parsed : Representation × ContentProtectionsBuilder} {errno : Int}
    {result : AdaptationSetState × Int} (added : addRepresentation state parsed errno = .ok result) :
    result.1.baseUrl = state.baseUrl ∧ result.1.language = state.language ∧
      result.1.contentType = checkContentTypeConsistency state.contentType
        (getContentType parsed.1.format.mimeType parsed.1.format.codecs) := by
  obtain ⟨middle, _, built⟩ := effect_bind_ok added
  cases built
  exact ⟨rfl, rfl, rfl⟩

theorem startAdaptationSet_run {node : Node} {baseUrl : String} {segmentBase : Option SegmentBase}
    {errno : Int} {result : AdaptationSetState × Int}
    (started : startAdaptationSet node baseUrl segmentBase errno = .ok result) :
    result.1.baseUrl.seenFirstBaseUrl = false := by
  iterate 12 obtain ⟨_, _, started⟩ := effect_bind_ok started
  cases started
  rfl

theorem parseAdaptationSet_alike (contentId : String) {node : Node}
    (own : node.name = "AdaptationSet") (baseUrl : String) (segmentBase : Option SegmentBase) :
    Alike external (.adaptationSet false) node
      (parseAdaptationSet external contentId pull node · baseUrl segmentBase)
      (parseAdaptationSet external contentId tree node · baseUrl segmentBase) := by
  have agree : Agrees external node
      (insert (fun state => state.baseUrl.seenFirstBaseUrl = true) (Set.range Settled))
      (fun state => .adaptationSet state.baseUrl.seenFirstBaseUrl)
      (adaptationSetRules external contentId pull) (adaptationSetRules external contentId tree) := by
    intro state
    refine .append (.cons ?_ (.cons ?_ (.cons ?_ (.cons ?_ (.cons ?_ (.cons ?_
      (.cons ?_ .nil))))))) ?_
    · exact baseUrlRule_agrees (by decide) (named_other own (by decide))
        (fun _ => textual_of_baseUrl) (by simp) (by simp [Keeps, Settled, BaseUrlState.resolve])
        (by simp [BaseUrlState.resolve])
    · exact descriptorRule_agrees (by decide) (called_other (by decide) own (by decide))
        (by simp [Keeps, Settled]) (by simp)
    · exact descriptorRule_agrees (by decide) (called_other (by decide) own (by decide))
        (by simp [Keeps, Settled]) (by simp)
    · exact contentProtectionRule_agrees (named_other own (by decide)) (by simp [Keeps, Settled])
        (by simp)
    · refine Rule.attributes_agrees (by decide) (named_other own (by decide)) ?_ ?_ ?_
      · intro kept member child state errno result holds ran
        rw [contentComponent_run ran]
        rcases member with rfl | ⟨component, rfl⟩
        · exact holds
        · exact holds.mono (fun empty => (checkLanguageConsistency_empty empty).1)
            fun unknown => (checkContentTypeConsistency_unknown unknown).1
      · intro child errno result ran
        rw [contentComponent_run ran]
      · intro child _
        exact .inr (.inr ⟨rfl, Settled child, .inr ⟨child, rfl⟩, contentComponent_settles,
          fun state => contentComponent_settled⟩)
    · refine container_agrees (by decide) (named_other own (by decide)) ?_ ?_ ?_ ?_
      · intro kept member state parsed errno result holds added
        obtain ⟨sameUrl, language, contentType⟩ := addRepresentation_run added
        rcases member with rfl | ⟨component, rfl⟩
        · rw [sameUrl]
          exact holds
        · refine holds.mono (fun empty => language.symm.trans empty) fun unknown => ?_
          exact (checkContentTypeConsistency_unknown (contentType.symm.trans unknown)).1
      · intro parsed errno result added
        rw [(addRepresentation_run added).1]
      · intro child own
        exact parseRepresentation_alike contentId own state
      · intro child place
        exact Takes.element _ _ _
    · exact audioChannelRule_agrees (named_other own (by decide)) (by simp [Keeps, Settled])
        (by simp) (by simp)
    · exact segmentBaseBranches_agree (by simp [own]) (by simp [Keeps, Settled]) (by simp)
  exact Alike.element agree (fun started => by rw [startAdaptationSet_run started]) _

theorem parseDuration_run {node : Node} {name : String} {defaultMs errno : Int} {result : Int × Int}
    (parsed : node.parseDuration external name defaultMs errno = .ok result) :
    result.1 = node.durationMs external name defaultMs := by
  unfold Node.parseDuration at parsed
  unfold Node.durationMs
  cases prop : node.getProp name with
  | none =>
    rw [prop] at parsed
    cases parsed
    rfl
  | some value =>
    rw [prop] at parsed
    cases parsed
    rfl

theorem startPeriod_run {node : Node} {baseUrl : String} {defaultStartMs errno : Int}
    {result : PeriodState × Int}
    (started : startPeriod external node baseUrl defaultStartMs errno = .ok result) :
    result.1.baseUrl.seenFirstBaseUrl = false ∧
      result.1.startMs = node.durationMs external "start" defaultStartMs ∧
      result.1.durationMs = node.durationMs external "duration" (-1) := by
  obtain ⟨⟨startMs, _⟩, start, started⟩ := effect_bind_ok started
  obtain ⟨⟨durationMs, _⟩, duration, started⟩ := effect_bind_ok started
  cases started
  exact ⟨rfl, parseDuration_run start, parseDuration_run duration⟩

theorem parsePeriod_alike (contentId : String) {node : Node}
    (own : node.name = "Period") (baseUrl : String) (defaultStartMs : Int) :
    Alike external (.period false) node
      (parsePeriod external contentId pull node · baseUrl defaultStartMs)
      (parsePeriod external contentId tree node · baseUrl defaultStartMs) := by
  have agree : Agrees external node {fun state => state.baseUrl.seenFirstBaseUrl = true}
      (fun state => .period state.baseUrl.seenFirstBaseUrl)
      (periodRules external contentId pull) (periodRules external contentId tree) := by
    intro state
    refine .append (.cons ?_ (.cons ?_ (.cons ?_ .nil))) ?_
    · exact baseUrlRule_agrees (by decide) (named_other own (by decide))
        (fun _ => textual_of_baseUrl) (by simp) (by simp [Keeps, BaseUrlState.resolve])
        (by simp [BaseUrlState.resolve])
    · exact descriptorRule_agrees (by decide) (called_other (by decide) own (by decide))
        (by simp [Keeps]) (by simp)
    · refine container_agrees (by decide) (named_other own (by decide)) ?_ ?_ ?_ ?_
      · intro kept member state set errno result holds added
        cases added
        obtain rfl := Set.mem_singleton_iff.mp member
        exact holds
      · intro set errno result added
        cases added
        rfl
      · intro child own
        exact parseAdaptationSet_alike contentId own _ _
      · intro child place
        exact Takes.element _ _ _
    · exact segmentBaseBranches_agree (by simp [own]) (by simp [Keeps]) (by simp)
  exact Alike.element agree (fun started => by rw [(startPeriod_run started).1]) _

theorem periodRules_keepTimes {contentId : String} {startMs durationMs : Int} :
    ∀ rule ∈ periodRules external contentId tree, ∀ node place state pulled errno result,
      (state.startMs = startMs ∧ state.durationMs = durationMs) →
        rule.run node place state pulled errno = .ok result →
          result.1.1.startMs = startMs ∧ result.1.1.durationMs = durationMs := by
  simp only [periodRules, segmentBaseBranches, List.cons_append, List.nil_append,
    List.forall_mem_cons]
  refine ⟨?_, ?_, ?_, ?_, ?_, ?_, fun _ absent => by cases absent⟩
  case refine_2 =>
    intro node place state pulled errno result
    refine Rule.attributes_keeps
      (fun state : PeriodState => state.startMs = startMs ∧ state.durationMs = durationMs) ?_
    intro node state errno result kept pushed
    cases pushed
    exact kept
  all_goals
    intro node place state pulled errno result
    refine Rule.inside_keeps
      (fun state : PeriodState => state.startMs = startMs ∧ state.durationMs = durationMs) ?_
    intro state value errno result kept updated
    cases updated
    exact kept

theorem parsePeriod_times {contentId : String} {node : Node} {place : String × Forest Node}
    {baseUrl : String} {defaultStartMs errno : Int} {taken : Bool}
    {result : ((Period × Int) × Bool) × Int}
    (parsed : parsePeriod external contentId tree node place baseUrl defaultStartMs taken errno =
      .ok result) :
    result.1.1.1.startMs = node.durationMs external "start" defaultStartMs ∧
      result.1.1.2 = node.durationMs external "duration" (-1) := by
  obtain ⟨state, errno', kept, finished⟩ := element_tree_keeps
    (fun state : PeriodState =>
      state.startMs = node.durationMs external "start" defaultStartMs ∧
        state.durationMs = node.durationMs external "duration" (-1))
    (fun errno first started => (startPeriod_run started).2)
    periodRules_keepTimes parsed
  have last : buildPeriod state = result.1.1.1 ∧ state.durationMs = result.1.1.2 :=
    Prod.mk.inj (Prod.mk.inj (Except.ok.inj finished)).1
  rw [← last.1, ← last.2]
  exact kept

-- A period without a start is the first early access period, the others go to the presentation.
theorem addPeriod_cases {state : MpdState} {parsed : Period × Int} {errno : Int}
    {result : MpdState × Int} (added : addPeriod state parsed errno = .ok result) :
    (parsed.1.startMs = -1 ∧ result.1 = { state with seenEarlyAccessPeriod := true }) ∨
      parsed.1.startMs ≠ -1 ∧ result.1 = { state with
        nextPeriodStartMs := if parsed.2 = -1 then -1 else parsed.1.startMs + parsed.2
        periods := state.periods ++ [parsed.1] } := by
  unfold addPeriod at added
  dsimp only at added
  split at added
  case isTrue early =>
    split at added
    · cases added
      exact .inl ⟨early, rfl⟩
    · cases added
  case isFalse known =>
    cases added
    exact .inr ⟨known, rfl⟩

def MpdState.loop (state : MpdState) : MpdLoop where
  dynamic := state.dynamic
  nextPeriodStartMs := state.nextPeriodStartMs
  seenFirstBaseUrl := state.baseUrl.seenFirstBaseUrl
  seenEarlyAccessPeriod := state.seenEarlyAccessPeriod

theorem addPeriod_moves {contentId : String} {state : MpdState} {node : Node}
    {place : String × Forest Node} {baseUrl : String} {errno : Int} {taken : Bool}
    {parsed : ((Period × Int) × Bool) × Int} {result : MpdState × Int}
    (ran : parsePeriod external contentId tree node place baseUrl state.nextPeriodStartMs taken errno =
      .ok parsed)
    (added : addPeriod state parsed.1.1 parsed.2 = .ok result) :
    result.1.loop = state.loop.behindPeriod external node := by
  obtain ⟨start, duration⟩ := parsePeriod_times ran
  unfold MpdLoop.behindPeriod
  dsimp only [MpdState.loop]
  rw [← start, ← duration]
  rcases addPeriod_cases added with ⟨early, same⟩ | ⟨known, same⟩
  · rw [if_pos early, same]
  · rw [if_neg known, same]

def MpdLoop.start (root : Node) : MpdLoop :=
  let dynamic := root.getProp "type" == some "dynamic"
  { dynamic, nextPeriodStartMs := if dynamic then -1 else 0 }

theorem startMpd_run {node : Node} {baseUrl : String} {errno : Int} {result : MpdState × Int}
    (started : startMpd external node baseUrl errno = .ok result) :
    result.1.loop = .start node := by
  iterate 3 obtain ⟨_, _, started⟩ := effect_bind_ok started
  dsimp only at started
  split at started
  case isTrue dynamic =>
    iterate 2 obtain ⟨_, _, started⟩ := effect_bind_ok started
    cases started
    simp [MpdState.loop, MpdLoop.start, dynamic]
  case isFalse static =>
    iterate 2 obtain ⟨_, _, started⟩ := effect_bind_ok started
    cases started
    simp [MpdState.loop, MpdLoop.start, static]

theorem parseMediaPresentationDescription_alike (contentId : String) {node : Node}
    (own : node.name = "MPD") (baseUrl : String) :
    Alike external (.mpd (.start node)) node
      (parseMediaPresentationDescription external contentId pull node · baseUrl)
      (parseMediaPresentationDescription external contentId tree node · baseUrl) := by
  have agree : Agrees external node
      {fun state => state.baseUrl.seenFirstBaseUrl = true,
        fun state => state.seenEarlyAccessPeriod = true}
      (fun state => .mpd state.loop)
      (mpdRules external contentId pull) (mpdRules external contentId tree) := by
    intro state
    refine .cons ?_ (.cons ?_ (.cons ?_ (.cons ?_ (.cons ?_ (.cons ?_ .nil)))))
    · refine baseUrlRule_agrees (by decide) (called_other (by decide) own (by decide))
        ?_ (by simp) (by simp [Keeps, BaseUrlState.resolve])
        (by simp [MpdState.loop, BaseUrlState.resolve])
      intro child matching
      simp [textual, matching]
    · exact descriptorRule_agrees (by decide) (called_other (by decide) own (by decide))
        (by simp [Keeps]) (by simp [MpdState.loop])
    · exact descriptorRule_agrees (by decide) (called_other (by decide) own (by decide))
        (by simp [Keeps]) (by simp [MpdState.loop])
    · refine Rule.attributes_agrees (by decide) (called_other (by decide) own (by decide)) ?_ ?_
        fun child _ => .inr (.inl ⟨rfl, ?_⟩)
      · intro kept member child state errno result holds updated
        cases updated
        rcases member with rfl | rfl <;> exact holds
      · intro child errno result updated
        cases updated
        rfl
      · intro state errno result updated
        cases updated
        rfl
    · refine text_agrees (by decide) (called_other (by decide) own (by decide)) ?_ ?_ ?_
      · intro child matching
        simp [textual, matching]
      · intro kept member state location errno result holds updated
        cases updated
        rcases member with rfl | rfl <;> exact holds
      · intro location errno result updated
        cases updated
        rfl
    · refine Rule.inside_agrees (by decide) (called_other (by decide) own (by decide)) ?_ ?_
        (.inr (by simp)) ?_ ?_ ?_ ?_
      · intro child
        cases early : state.seenEarlyAccessPeriod <;> simp [MpdState.loop, early]
      · intro child allowed
        simp [MpdState.loop, allowed, Branch.takes]
      · intro kept member state parsed errno result holds added
        rcases addPeriod_cases added with ⟨-, same⟩ | ⟨-, same⟩
        · rw [same]
          rcases member with rfl | rfl
          · exact holds
          · rfl
        · rw [same]
          rcases member with rfl | rfl <;> exact holds
      · intro child place errno parsed result _ allowed ran added
        rw [addPeriod_moves ran added]
        simp [MpdState.loop, allowed, Branch.next]
      · intro child matching allowed depth text inside before after written
        simp only [MpdState.loop, allowed] at written
        exact parsePeriod_alike contentId (name_of_called (by decide) matching) _ _ depth written
      · intro child place
        exact Takes.element _ _ _
  exact Alike.element agree (fun started => by rw [startMpd_run started]) _

end Alike

/-! Documents -/

/-- A document is its root element, which has no inside where it is written `<e/>`. -/
structure Document where
  root : Node
  inside : Option (Content Node)
deriving DecidableEq, Repr

namespace Document

def content (document : Document) : Content Node :=
  match document.inside with
  | none => .empty document.root .nil
  | some inside => .full document.root inside .nil

def events (document : Document) : List (Event Node) := document.content.events 0

def tree (document : Document) : Node × Forest Node :=
  (document.root, (document.inside.map (·.forest textual)).getD .nil)

/-- Whether the root is an MPD decides whether anything in it is looked at. -/
def Neat (external : External) (document : Document) : Prop :=
  called "MPD" document.root = true → ∀ inside ∈ document.inside,
    inside.Neat (grammar external) (.mpd (.start document.root))

end Document

/-- Parse on the element tree: every element is looked at once. -/
def parseTree (external : External) (contentId connectionUrl : String) (root : Node)
    (inside : Forest Node) (errno : Int) : Except Failure (Option MediaPresentationDescription) :=
  if called "MPD" root then do
    let ((mpd, _), _) ← parseMediaPresentationDescription external contentId tree root ("", inside)
      connectionUrl false errno
    .ok mpd
  else .ok none

theorem Document.written {external : External} {document : Document} (neat : document.Neat external)
    (root : called "MPD" document.root = true) :
    ∃ rest, document.events = .start document.root 0 :: rest ∧
      Written textual (Content.Neat (grammar external) (.mpd (.start document.root))) document.root 0 ""
        document.tree.2 rest [] := by
  have own := name_of_called (by decide) root
  have qualified : document.root.qualifiedName = "MPD" := by simpa [called] using root
  have silent : textual document.root = false := by
    simp [textual, named, called, own, qualified]
  have neatInside := neat root
  obtain ⟨node, inside⟩ := document
  cases inside with
  | none => exact ⟨[], rfl, .last⟩
  | some inside =>
    refine ⟨inside.events 1 ++ [.finish node 0], rfl, ?_⟩
    have written : Written textual _ node 0 _ _ _ _ := .full inside [] (neatInside inside rfl)
    rwa [silent] at written

theorem parse_start (external : External) (contentId connectionUrl : String) (errno : Int)
    (root : Node) (rest : List (Event Node)) :
    parse external contentId connectionUrl (.start root 0 :: rest) errno =
      if called "MPD" root then
        (parseMediaPresentationDescription external contentId pull root 0 connectionUrl rest
          errno).bind fun result => .ok result.1.1
      else .ok none := rfl

theorem parse_eq_parseTree (external : External) (contentId connectionUrl : String) (errno : Int)
    {document : Document} (neat : document.Neat external) :
    parse external contentId connectionUrl document.events errno =
      parseTree external contentId connectionUrl document.tree.1 document.tree.2 errno := by
  have same : document.tree.1 = document.root := rfl
  by_cases root : called "MPD" document.root = true
  · obtain ⟨rest, events, written⟩ := document.written neat root
    have ran : parseMediaPresentationDescription external contentId pull document.root 0
        connectionUrl rest errno = _ :=
      parseMediaPresentationDescription_alike contentId (name_of_called (by decide) root)
        connectionUrl 0 written errno
    rw [events, parse_start, parseTree, same, if_pos root, if_pos root, ran]
    dsimp only
    cases parseMediaPresentationDescription external contentId tree document.root
      ("", document.tree.2) connectionUrl false errno <;> rfl
  · obtain ⟨rest, events⟩ : ∃ rest, document.events = .start document.root 0 :: rest := by
      obtain ⟨node, _ | inside⟩ := document
      · exact ⟨[], rfl⟩
      · exact ⟨_, rfl⟩
    rw [events, parse_start, parseTree, same, if_neg root, if_neg root]

theorem parse_same_tree (external : External) (contentId connectionUrl : String) (errno : Int)
    {document document' : Document} (neat : document.Neat external)
    (neat' : document'.Neat external)
    (same : document.tree = document'.tree) :
    parse external contentId connectionUrl document.events errno =
        parse external contentId connectionUrl document'.events errno ∧
      parse external contentId connectionUrl document.events errno =
        parseTree external contentId connectionUrl document.tree.1 document.tree.2 errno := by
  refine ⟨?_, parse_eq_parseTree external contentId connectionUrl errno neat⟩
  rw [parse_eq_parseTree external contentId connectionUrl errno neat,
    parse_eq_parseTree external contentId connectionUrl errno neat', same]

/-! Two writings of a manifest -/

namespace Sample

-- ParseXsDuration on PT10S, the only duration below.
def external : External where
  resolve _ text := text
  parseXsDuration _ := 10000
  durationErrno _ errno := errno
  parseXsDateTime _ errno := (0, errno)

def leaf (name : String) (attributes : List (String × String)) : Node := { name, attributes }

def manifest (adaptationSet : Content Node) : Document where
  root := leaf "MPD" [("mediaPresentationDuration", "PT10S")]
  inside := some (.full (leaf "Period" []) (.full (leaf "AdaptationSet" []) adaptationSet .nil) .nil)

def segment : Node := leaf "S" [("d", "5")]
def template : Node := leaf "SegmentTemplate" [("media", "a")]
def representation : Node := leaf "Representation" [("id", "1")]

def timeline (segments : Content Node) : Document :=
  manifest (.full template (.full (leaf "SegmentTimeline" []) segments .nil) .nil)

def representations (behind : Content Node) : Document := manifest (.empty template behind)

end Sample

-- Elements without an inside: on lines of their own, or with end tags and no space at all.
open Sample in
theorem parse_same_tree_representations :
    parse external "content" ""
          (representations (.text "\n" (.empty representation (.text "\n" .nil)))).events 0 =
        parse external "content" ""
          (manifest (.full template .nil (.full representation .nil .nil))).events 0 ∧
      parse external "content" ""
          (representations (.text "\n" (.empty representation (.text "\n" .nil)))).events 0 =
        parseTree external "content" ""
          (representations (.text "\n" (.empty representation (.text "\n" .nil)))).tree.1
          (representations (.text "\n" (.empty representation (.text "\n" .nil)))).tree.2 0 := by
  refine parse_same_tree external "content" "" 0 ?_ ?_ (by decide +kernel)
  · simp [Document.Neat, representations, manifest, Content.Neat, Content.StartsWithText, leaf, template,
      representation, grammar, Grammar.ofRows, rows, branchOf, baseUrlRow, containerRow, segmentBaseRows,
      named, called, Node.qualifiedName, Branch.next, MpdLoop.start, Node.getProp]
  · simp [Document.Neat, manifest, Content.Neat, leaf, template, representation, grammar, Grammar.ofRows,
      rows, branchOf, baseUrlRow, containerRow, segmentBaseRows, named, called, Node.qualifiedName,
      MpdLoop.start, Node.getProp]

-- What no branch enters may be written anyhow: a second BaseURL, or a ContentProtection in a Period.
open Sample in
example : (Document.mk (leaf "MPD" []) (some
    (.full (leaf "BaseURL" []) (.text "a" .nil) (.empty (leaf "BaseURL" [])
      (.full (leaf "Period" []) (.empty (leaf "ContentProtection" [])
        (.full (leaf "AdaptationSet" []) .nil .nil)) .nil))))).Neat external := by
  simp [Document.Neat, Content.Neat, leaf, grammar, Grammar.ofRows, rows, branchOf, baseUrlRow,
    containerRow, segmentBaseRows, named, called, Node.qualifiedName, Branch.takes, Branch.next,
    MpdLoop.start, MpdLoop.behindPeriod, Node.durationMs, Node.getProp]

-- A segment with an end tag is counted twice, and a representation right behind a template without
-- one is lost.
open Sample in
theorem parse_not_same_tree :
    (timeline (.empty segment .nil)).tree = (timeline (.full segment .nil .nil)).tree ∧
      parse external "content" "" (timeline (.empty segment .nil)).events 0 ≠
        parse external "content" "" (timeline (.full segment .nil .nil)).events 0 ∧
      (representations (.text "\n" (.empty representation (.text "\n" .nil)))).tree =
        (representations (.empty representation (.text "\n" .nil))).tree ∧
      parse external "content" ""
          (representations (.text "\n" (.empty representation (.text "\n" .nil)))).events 0 ≠
        parse external "content" ""
          (representations (.empty representation (.text "\n" .nil))).events 0 := by
  decide +kernel

end NDash.Mpd.Manifest
