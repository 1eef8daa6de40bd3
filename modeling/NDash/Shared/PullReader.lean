import NDash.Shared.Outcome

set_option autoImplicit false

/-!
# Pull readers

Parse functions that share one reader of a document, each of them a loop over what stands inside
its element, and the element tree that such functions are meant to depend on.
-/

namespace Pull

open Outcome (bind_ok)

inductive Event (Node : Type)
  | start (node : Node) (depth : Nat)
  | finish (node : Node) (depth : Nat)
  | text (content : String) (depth : Nat)
deriving DecidableEq, Repr

def Event.depth {Node : Type} : Event Node → Nat
  | .start _ depth | .finish _ depth | .text _ depth => depth

def Event.node {Node : Type} (textNode : Node) : Event Node → Node
  | .start node _ | .finish node _ => node
  | .text _ _ => textNode

inductive Content (Node : Type)
  | nil
  | text (content : String) (more : Content Node)
  | empty (node : Node) (more : Content Node)
  | full (node : Node) (inside more : Content Node)
deriving DecidableEq, Repr

/-- Elements in the order of the document, those that hold text with their text. -/
inductive Forest (Node : Type)
  | nil
  | element (node : Node) (text : String) (inside more : Forest Node)
deriving DecidableEq, Repr

namespace Content

variable {Node : Type}

def events (depth : Nat) : Content Node → List (Event Node)
  | nil => []
  | text content more => .text content depth :: more.events depth
  | empty node more => .start node depth :: more.events depth
  | full node inside more =>
    .start node depth :: (inside.events (depth + 1) ++ .finish node depth :: more.events depth)

def texts : Content Node → String
  | nil => ""
  | text content more => content ++ more.texts
  | empty _ more => more.texts
  | full _ _ more => more.texts

-- The texts of an element count only where it is `textual`.
def forest (textual : Node → Bool) : Content Node → Forest Node
  | nil => .nil
  | text _ more => more.forest textual
  | empty node more => .element node "" .nil (more.forest textual)
  | full node inside more =>
    .element node (if textual node then inside.texts else "") (inside.forest textual)
      (more.forest textual)

end Content

section Cursor

variable (Node S ω ε : Type)

-- What a parse function does beside reading: `ω` is what outlasts the call, `ε` how it can fail.
abbrev Effect := StateT ω (Except ε)

abbrev Parser := StateT S (Effect ω ε)

/-- How parse functions get at the inside of the current element, whose place is a `Place`. -/
structure Cursor (Place : Type) where
  children : {σ : Type} → Place → (Node → Place → σ → Parser S ω ε σ) → σ → Parser S ω ε σ
  nextText : Place → Parser S ω ε String

end Cursor

section Reader

variable {Node ω ε σ : Type} (textNode : Node) (diverged : ε)

/-- `do { read; visit } while (depth > parentDepth)`. The visit may read on, so the list of events
bounds the rounds without being what the recursion is on. -/
def childLoop (visit : Node → Nat → σ → Parser (List (Event Node)) ω ε σ) (parentDepth : Nat) :
    Nat → σ → Parser (List (Event Node)) ω ε σ
  | 0, _ => throw diverged
  | rounds + 1, state => do
    match ← get with
    | [] => pure state
    | event :: rest =>
      set rest
      let state ← visit (event.node textNode) event.depth state
      if event.depth > parentDepth then childLoop visit parentDepth rounds state else pure state

def textLoop (parentDepth : Nat) : List (Event Node) → String → String × List (Event Node)
  | [], text => (text, [])
  | .text content depth :: rest, text =>
    let text := if depth = parentDepth + 1 then text ++ content else text
    if depth > parentDepth then textLoop parentDepth rest text else (text, rest)
  | .start _ depth :: rest, text =>
    if depth > parentDepth then textLoop parentDepth rest text else (text, rest)
  | .finish _ depth :: rest, text =>
    if depth > parentDepth then textLoop parentDepth rest text else (text, rest)

def reader : Cursor Node (List (Event Node)) ω ε Nat where
  children depth visit state := do
    let events ← get
    childLoop textNode diverged visit depth (events.length + 1) state
  nextText depth := do
    let events ← get
    let (text, rest) := textLoop depth events ""
    set rest
    pure text

end Reader

section Tree

variable {Node ω ε σ : Type}

-- Every element is visited once. The flag says whether the visit has taken what is inside.
def walk (visit : Node → String × Forest Node → σ → Parser Bool ω ε σ) :
    Forest Node → σ → Parser Bool ω ε σ
  | .nil, state => pure state
  | .element node text inside more, state => do
    set false
    let state ← visit node (text, inside) state
    let state ← if ← get then pure state else walk visit inside state
    walk visit more state

def tree : Cursor Node Bool ω ε (String × Forest Node) where
  children place visit state := do
    let state ← walk visit place.2 state
    set true
    pure state
  nextText place := do
    set true
    pure place.1

end Tree

/-- What a loop does with an element that it comes to: nothing; something whenever it comes by, or the
same again; something that has no effect later on; or it reads on, for the text of the element or with
a loop for its inside, and comes to `next`. -/
inductive Branch (Loop : Type)
  | passed
  | counted
  | repeated
  | settled
  | text (next : Loop)
  | loop (inner next : Loop)

def Branch.takes {Loop : Type} : Branch Loop → Bool
  | text _ | loop _ _ => true
  | _ => false

def Branch.next {Loop : Type} (here : Loop) : Branch Loop → Loop
  | text next | loop _ next => next
  | _ => here

/-- What the loops of a document do. A `Loop` is a loop and where it has come to. -/
structure Grammar (Node Loop : Type) where
  textual : Node → Bool
  branch : Loop → Node → Branch Loop

namespace Content

variable {Node Loop : Type} (grammar : Grammar Node Loop)

def StartsWithText : Content Node → Prop
  | .text _ _ => True
  | _ => False

def behind : Loop → Content Node → Loop
  | here, .nil => here
  | here, .text _ more => behind here more
  | here, .empty node more => behind ((grammar.branch here node).next here) more
  | here, .full node inside more =>
    if (grammar.branch here node).takes then behind ((grammar.branch here node).next here) more
    else behind (behind here inside) more

def Passed (here : Loop) : Content Node → Prop
  | .nil => True
  | .text _ more => more.Passed here
  | .empty node more => grammar.branch here node = .passed ∧ more.Passed here
  | .full node inside more =>
    grammar.branch here node = .passed ∧ inside.Passed here ∧ more.Passed here

/-- What is counted is written `<e/>`, nothing happens within what is repeated, and a text follows what
is read on for and written `<e/>`. -/
def Neat : Loop → Content Node → Prop
  | _, .nil => True
  | here, .text _ more => Neat here more
  | here, .empty node more =>
    ((grammar.branch here node).takes = true → more.StartsWithText) ∧
      Neat ((grammar.branch here node).next here) more
  | here, .full node inside more =>
    match grammar.branch here node with
    | .passed | .settled => Neat here inside ∧ Neat (behind grammar here inside) more
    | .counted => False
    | .repeated => inside.Passed grammar here ∧ Neat here more
    | .text next => Neat next more
    | .loop inner next => Neat inner inside ∧ Neat next more

end Content

def Branch.Fits {Node Loop : Type} (grammar : Grammar Node Loop) :
    Branch Loop → Content Node → Prop
  | loop inner _ => Content.Neat grammar inner
  | _ => fun _ => True

section Neat

variable {Node Loop : Type} {grammar : Grammar Node Loop} {here : Loop}

theorem Branch.next_of_not_takes {branch : Branch Loop} (walked : branch.takes = false) :
    branch.next here = here := by
  cases branch with
  | passed | counted | repeated | settled => rfl
  | text | loop => cases walked

theorem Content.Passed.behind {content : Content Node} (passed : content.Passed grammar here) :
    content.behind grammar here = here := by
  induction content with
  | nil => rfl
  | text content more ih => exact ih passed
  | empty node more ih => simpa [Content.behind, passed.1, Branch.next] using ih passed.2
  | full node inside more ihInside ihMore =>
    simp [Content.behind, passed.1, Branch.takes, ihInside passed.2.1, ihMore passed.2.2]

theorem Content.Passed.neat {content : Content Node} (passed : content.Passed grammar here) :
    content.Neat grammar here := by
  induction content with
  | nil => trivial
  | text content more ih => exact ih passed
  | empty node more ih => simpa [Content.Neat, passed.1, Branch.takes, Branch.next] using ih passed.2
  | full node inside more ihInside ihMore =>
    simp [Content.Neat, passed.1, passed.2.1.behind, ihInside passed.2.1, ihMore passed.2.2]

structure Content.NeatElement (grammar : Grammar Node Loop) (here : Loop) (node : Node)
    (inside more : Content Node) : Prop where
  uncounted : grammar.branch here node ≠ .counted
  repeated : grammar.branch here node = .repeated → inside.Passed grammar here
  fits : (grammar.branch here node).takes = true → (grammar.branch here node).Fits grammar inside
  walked : (grammar.branch here node).takes = false → inside.Neat grammar here
  more : more.Neat grammar ((Content.full node inside .nil).behind grammar here)

theorem Content.Neat.element {node : Node} {inside more : Content Node}
    (neat : (Content.full node inside more).Neat grammar here) :
    NeatElement grammar here node inside more := by
  rw [Content.Neat] at neat
  cases kind : grammar.branch here node with
  | passed | settled =>
    rw [kind] at neat
    constructor <;> simp [kind, Branch.takes, Content.behind, neat.1, neat.2]
  | counted =>
    rw [kind] at neat
    cases neat
  | repeated =>
    rw [kind] at neat
    constructor <;>
      simp [kind, Branch.takes, Content.behind, neat.1, neat.1.neat, neat.1.behind, neat.2]
  | text next =>
    rw [kind] at neat
    constructor <;> simp [kind, Branch.takes, Branch.Fits, Branch.next, Content.behind, neat]
  | loop inner next =>
    rw [kind] at neat
    constructor <;> simp [kind, Branch.takes, Branch.Fits, Branch.next, Content.behind, neat.1, neat.2]

end Neat

section Written

variable {Node : Type} (textual : Node → Bool) (fits : Content Node → Prop)

/-- The events behind the start of an element with this text and these elements inside, up to the
first that is not its own. -/
inductive Written (node : Node) (depth : Nat) :
    String → Forest Node → List (Event Node) → List (Event Node) → Prop
  | full (inside : Content Node) (after : List (Event Node)) (neat : fits inside) :
      Written node depth (if textual node then inside.texts else "") (inside.forest textual)
        (inside.events (depth + 1) ++ .finish node depth :: after) after
  | empty (content : String) (after : List (Event Node)) :
      Written node depth "" .nil (.text content depth :: after) after
  | last : Written node depth "" .nil [] []

end Written

section Run

variable {S ω ε α β : Type}

theorem run_bind (first : Parser S ω ε α) (second : α → Parser S ω ε β) (state : S) (world : ω) :
    (first >>= second) state world =
      (first state world).bind fun result => second result.1.1 result.1.2 result.2 := rfl

theorem run_pure (value : α) (state : S) (world : ω) :
    (pure value : Parser S ω ε α) state world = .ok ((value, state), world) := rfl

theorem run_lift (effect : Effect ω ε α) (state : S) (world : ω) :
    (liftM effect : Parser S ω ε α) state world =
      (effect world).map fun result => ((result.1, state), result.2) := by
  show (effect >>= fun value => pure (value, state)) world = _
  simp only [bind, StateT.bind]
  cases effect world <;> rfl

theorem run_get (state : S) (world : ω) :
    (get : Parser S ω ε S) state world = .ok ((state, state), world) := rfl

theorem run_set (state state' : S) (world : ω) :
    (set state' : Parser S ω ε PUnit) state world = .ok ((⟨⟩, state'), world) := rfl

theorem effect_bind_ok {first : Effect ω ε α} {second : α → Effect ω ε β} {world : ω}
    {result : β × ω} (ran : (first >>= second) world = .ok result) :
    ∃ middle, first world = .ok middle ∧ second middle.1 middle.2 = .ok result :=
  bind_ok ran

theorem run_bind_ok {first : Parser S ω ε α} {second : α → Parser S ω ε β} {state : S} {world : ω}
    {result : (β × S) × ω} (ran : (first >>= second) state world = .ok result) :
    ∃ middle, first state world = .ok middle ∧ second middle.1.1 middle.1.2 middle.2 = .ok result :=
  bind_ok ran

theorem run_lift_ok {effect : Effect ω ε α} {state : S} {world : ω} {result : (α × S) × ω}
    (ran : (liftM effect : Parser S ω ε α) state world = .ok result) :
    ∃ value, effect world = .ok value ∧ result = ((value.1, state), value.2) := by
  obtain ⟨value, first, last⟩ := bind_ok ran
  cases last
  exact ⟨value, first, rfl⟩

end Run

section Follows

variable {Node ω ε α β : Type}

def position (before after : List (Event Node)) (taken : Bool) : List (Event Node) :=
  if taken then after else before

theorem position_false (before after : List (Event Node)) : position before after false = before := rfl

/-- What is run on the reader does what is run on the tree, and takes the events of the element
exactly if the other takes its inside. -/
def Follows (before after : List (Event Node)) (taken : Bool)
    (program : Parser (List (Event Node)) ω ε α) (spec : Parser Bool ω ε α) : Prop :=
  ∀ world, program (position before after taken) world =
    (spec taken world).map fun result =>
      ((result.1.1, position before after result.1.2), result.2)

variable {before after : List (Event Node)} {taken : Bool}

theorem Follows.pure (value : α) :
    Follows before after taken (pure value : Parser (List (Event Node)) ω ε α) (Pure.pure value) :=
  fun _ => rfl

theorem Follows.lift (effect : Effect ω ε α) :
    Follows before after taken (liftM effect : Parser (List (Event Node)) ω ε α) (liftM effect) := by
  intro world
  rw [run_lift, run_lift]
  cases effect world <;> rfl

theorem Follows.bind {first : Parser (List (Event Node)) ω ε α} {first' : Parser Bool ω ε α}
    {second : α → Parser (List (Event Node)) ω ε β} {second' : α → Parser Bool ω ε β}
    (follows : Follows before after taken first first')
    (next : ∀ value taken, Follows before after taken (second value) (second' value)) :
    Follows before after taken (first >>= second) (first' >>= second') := by
  intro world
  rw [run_bind, run_bind, follows world]
  cases first' taken world with
  | error failure => rfl
  | ok result => exact next result.1.1 result.1.2 result.2

theorem Follows.lift_bind (effect : Effect ω ε α)
    {second : α → Parser (List (Event Node)) ω ε β} {second' : α → Parser Bool ω ε β}
    (next : ∀ {world result}, effect world = .ok result →
      Follows before after taken (second result.1) (second' result.1)) :
    Follows before after taken (liftM effect >>= second) (liftM effect >>= second') := by
  intro world
  rw [run_bind, run_bind, run_lift, run_lift]
  cases ran : effect world with
  | error failure => rfl
  | ok result => exact next ran result.2

end Follows

section Visits

variable {Node Loop ω ε σ : Type} {grammar : Grammar Node Loop} {textNode own : Node} {diverged : ε}
  {visit : Node → Nat → σ → Parser (List (Event Node)) ω ε σ}
  {visit' : Node → String × Forest Node → σ → Parser Bool ω ε σ} {loopOf : σ → Loop}
  {Skips : Node → σ → Prop}

/-- What makes a loop over the reader and one over the tree agree: the visits agree and do what the
grammar says, a text and the end of the element itself do nothing, and neither does the end of an
element that was not read. -/
structure Visits (grammar : Grammar Node Loop) (textNode own : Node)
    (visit : Node → Nat → σ → Parser (List (Event Node)) ω ε σ)
    (visit' : Node → String × Forest Node → σ → Parser Bool ω ε σ) (loopOf : σ → Loop)
    (Skips : Node → σ → Prop) : Prop where
  follows : ∀ node depth {text inside before after} state,
    ((grammar.branch (loopOf state) node).takes = true →
      Written grammar.textual ((grammar.branch (loopOf state) node).Fits grammar) node depth text
        inside before after) →
      Follows before after false (visit node depth state) (visit' node (text, inside) state)
  text : ∀ depth state, visit textNode depth state = pure state
  own : ∀ depth state, visit own depth state = pure state
  moves : ∀ {node place state world result},
    visit' node place state false world = .ok result →
      loopOf result.1.1 = (grammar.branch (loopOf state) node).next (loopOf state) ∧
        result.1.2 = (grammar.branch (loopOf state) node).takes
  passes : ∀ {node state}, grammar.branch (loopOf state) node = .passed →
    Skips node state ∧ ∀ place, visit' node place state = pure state
  settles : ∀ {node place state world result}, grammar.branch (loopOf state) node = .settled →
    visit' node place state false world = .ok result → Skips node result.1.1
  repeats : ∀ {node place state world result}, grammar.branch (loopOf state) node = .repeated →
    visit' node place state false world = .ok result → ∀ depth events,
      visit node depth result.1.1 events result.2 = .ok ((result.1.1, events), result.2)
  skips : ∀ {node state}, Skips node state → ∀ depth, visit node depth state = pure state
  keeps : ∀ {node node' place state taken world result}, Skips node state →
    visit' node' place state taken world = .ok result → Skips node result.1.1

theorem run_walk (node : Node) (text : String) (inside more : Forest Node) (state : σ) (taken : Bool)
    (world : ω) :
    walk visit' (.element node text inside more) state taken world =
      (visit' node (text, inside) state false world).bind fun result =>
        (if result.1.2 then .ok result else walk visit' inside result.1.1 result.1.2 result.2).bind
          fun result => walk visit' more result.1.1 result.1.2 result.2 := by
  rw [walk]
  simp only [run_bind, run_set, Except.bind]
  cases visit' node (text, inside) state false world with
  | error failure => rfl
  | ok result =>
    obtain ⟨⟨state, taken⟩, world⟩ := result
    cases taken <;> rfl

theorem run_childLoop (event : Event Node) (rest : List (Event Node)) (parentDepth rounds : Nat)
    (state : σ) (world : ω) :
    childLoop textNode diverged visit parentDepth (rounds + 1) state (event :: rest) world =
      (visit (event.node textNode) event.depth state rest world).bind fun result =>
        if event.depth > parentDepth then
          childLoop textNode diverged visit parentDepth rounds result.1.1 result.1.2 result.2
        else .ok result := by
  rw [childLoop]
  simp only [run_bind, run_get, run_set, Except.bind]
  cases visit (event.node textNode) event.depth state rest world with
  | error failure => rfl
  | ok result =>
    simp only
    split <;> rfl

theorem childLoop_pass (event : Event Node) {state : σ} {rest : List (Event Node)} {world : ω}
    {parentDepth : Nat} (deeper : parentDepth < event.depth)
    (nothing : visit (event.node textNode) event.depth state rest world = .ok ((state, rest), world))
    (rounds : Nat) :
    childLoop textNode diverged visit parentDepth (rounds + 1) state (event :: rest) world =
      childLoop textNode diverged visit parentDepth rounds state rest world := by
  rw [run_childLoop, nothing]
  simp only [Except.bind, if_pos deeper]

theorem walk_keeps {keeps : σ → Prop}
    (each : ∀ node place state taken world result, keeps state →
      visit' node place state taken world = .ok result → keeps result.1.1)
    (forest : Forest Node) {state : σ} {taken : Bool} {world : ω} {result : (σ × Bool) × ω}
    (kept : keeps state) (walked : walk visit' forest state taken world = .ok result) :
    keeps result.1.1 := by
  induction forest generalizing state taken world result with
  | nil =>
    cases walked
    exact kept
  | element inner text inside more ihInside ihMore =>
    rw [run_walk] at walked
    obtain ⟨first, visited, walked⟩ := bind_ok walked
    obtain ⟨second, within, walked⟩ := bind_ok walked
    have after := each _ _ _ _ _ _ kept visited
    split at within
    · cases within
      exact ihMore after walked
    · exact ihMore (ihInside after within) walked

variable (grammar textNode diverged visit visit' loopOf) in
/-- The loop over the reader gets behind the events of a content where the walk over the content
comes to. -/
def LoopWalks (parentDepth : Nat) (content : Content Node) : Prop :=
  ∀ {depth : Nat} (after : List (Event Node)) (state : σ) (taken : Bool) (world : ω) {rounds : Nat},
    parentDepth < depth → content.Neat grammar (loopOf state) →
    (content.events depth ++ after).length < rounds →
    ∃ left, after.length < left ∧
      childLoop textNode diverged visit parentDepth rounds state (content.events depth ++ after) world =
        (walk visit' (content.forest grammar.textual) state taken world).bind fun result =>
          childLoop textNode diverged visit parentDepth left result.1.1 after result.2

variable (visits : Visits grammar textNode own visit visit' loopOf Skips)
include visits

theorem Visits.walk_moves {content : Content Node} {state : σ} {taken : Bool} {world : ω}
    {result : (σ × Bool) × ω}
    (walked : walk visit' (content.forest grammar.textual) state taken world = .ok result) :
    loopOf result.1.1 = content.behind grammar (loopOf state) := by
  induction content generalizing state taken world result with
  | nil =>
    cases walked
    rfl
  | text content more ih => exact ih walked
  | empty node more ih =>
    rw [Content.forest, run_walk] at walked
    obtain ⟨first, visited, walked⟩ := bind_ok walked
    obtain ⟨second, within, walked⟩ := bind_ok walked
    have same : second.1.1 = first.1.1 := by
      split at within <;> cases within <;> rfl
    rw [ih walked, same, (visits.moves visited).1]
    rfl
  | full node inside more ihInside ihMore =>
    rw [Content.forest, run_walk] at walked
    obtain ⟨first, visited, walked⟩ := bind_ok walked
    obtain ⟨second, within, walked⟩ := bind_ok walked
    obtain ⟨moved, taken⟩ := visits.moves visited
    rw [ihMore walked, Content.behind]
    rw [taken] at within
    split at within
    · rename_i takes
      cases within
      rw [if_pos takes, moved]
    · rename_i untaken
      have stays : (grammar.branch (loopOf state) node).next (loopOf state) = loopOf state := by
        cases kind : grammar.branch (loopOf state) node <;> simp_all [Branch.next, Branch.takes]
      rw [if_neg untaken, ihInside within, moved, stays]

theorem Visits.walk_passed {content : Content Node} {state : σ}
    (passed : content.Passed grammar (loopOf state)) {taken : Bool} {world : ω}
    {result : (σ × Bool) × ω}
    (walked : walk visit' (content.forest grammar.textual) state taken world = .ok result) :
    result.1.1 = state ∧ result.2 = world := by
  induction content generalizing taken world result with
  | nil =>
    cases walked
    exact ⟨rfl, rfl⟩
  | text content more ih => exact ih passed walked
  | empty node more ih =>
    rw [Content.forest, run_walk, (visits.passes passed.1).2] at walked
    exact ih passed.2 walked
  | full node inside more ihInside ihMore =>
    obtain ⟨isPassed, inner, passed⟩ := passed
    rw [Content.forest, run_walk, (visits.passes isPassed).2] at walked
    obtain ⟨first, visited, walked⟩ := bind_ok walked
    cases visited
    obtain ⟨second, within, walked⟩ := bind_ok walked
    obtain ⟨state', world'⟩ := ihInside inner within
    rw [state', world'] at walked
    exact ihMore passed walked

-- At its end an element whose inside was walked is visited again, to no effect.
theorem Visits.closing {node : Node} {place : String × Forest Node} {inside : Content Node} {state : σ}
    {world : ω} {visited walked : (σ × Bool) × ω}
    (uncounted : grammar.branch (loopOf state) node ≠ .counted)
    (repeated : grammar.branch (loopOf state) node = .repeated →
      inside.Passed grammar (loopOf state))
    (first : visit' node place state false world = .ok visited) (untaken : visited.1.2 = false)
    (within : walk visit' (inside.forest grammar.textual) visited.1.1 false visited.2 = .ok walked)
    (depth : Nat) (rest : List (Event Node)) :
    visit node depth walked.1.1 rest walked.2 = .ok ((walked.1.1, rest), walked.2) := by
  obtain ⟨moved, taken⟩ := visits.moves first
  rw [untaken] at taken
  have skipped (skips : Skips node visited.1.1) :
      visit node depth walked.1.1 rest walked.2 = .ok ((walked.1.1, rest), walked.2) := by
    rw [visits.skips (walk_keeps (fun _ _ _ _ _ _ => visits.keeps) _ skips within)]
    rfl
  cases kind : grammar.branch (loopOf state) node with
  | passed =>
    obtain ⟨skips, nothing⟩ := visits.passes kind
    rw [nothing] at first
    cases first
    exact skipped skips
  | counted => exact absurd kind uncounted
  | repeated =>
    have passed := repeated kind
    rw [kind] at moved
    rw [← show loopOf visited.1.1 = loopOf state from moved] at passed
    obtain ⟨sameState, sameWorld⟩ := visits.walk_passed passed within
    rw [sameState, sameWorld]
    exact visits.repeats kind first depth rest
  | settled => exact skipped (visits.settles kind first)
  | text | loop =>
    rw [kind] at taken
    cases taken

-- The visit of an empty element takes the text behind it, or nothing.
theorem Visits.loopWalks_empty {parentDepth : Nat} {node : Node} {more : Content Node}
    (ih : LoopWalks grammar textNode diverged visit visit' loopOf parentDepth more) :
    LoopWalks grammar textNode diverged visit visit' loopOf parentDepth (.empty node more) := by
  intro depth after state taken world rounds deeper neat enough
  obtain ⟨round, rfl⟩ : ∃ round, rounds = round + 1 := ⟨rounds - 1, by omega⟩
  simp only [Content.events, List.cons_append, List.length_cons] at enough ⊢
  rw [run_childLoop, Content.forest, run_walk]
  simp only [Event.node, Event.depth, gt_iff_lt, if_pos deeper]
  have nothing (result : (σ × Bool) × ω) :
      ((if result.1.2 then .ok result else walk visit' .nil result.1.1 result.1.2 result.2) :
        Except ε ((σ × Bool) × ω)) = .ok result := by
    split <;> rfl
  simp only [nothing]
  obtain ⟨starts, neat⟩ := neat
  by_cases takes : (grammar.branch (loopOf state) node).takes = true
  · obtain ⟨content, rest, rfl⟩ : ∃ content rest, more = .text content rest := by
      have isText := starts takes
      cases more with
      | text content rest => exact ⟨content, rest, rfl⟩
      | nil | empty | full => cases isText
    have ran : visit node depth state ((Content.text content rest).events depth ++ after) world = _ :=
      visits.follows node depth state (fun _ => .empty content (rest.events depth ++ after)) world
    rw [ran]
    cases visited : visit' node ("", .nil) state false world with
    | error failure => exact ⟨round + 1, by simp only [List.length_append] at enough; omega, rfl⟩
    | ok result =>
      obtain ⟨moved, taken⟩ := visits.moves visited
      rw [takes] at taken
      obtain ⟨⟨state', consumed⟩, world'⟩ := result
      obtain rfl : consumed = true := taken
      have back : childLoop textNode diverged visit parentDepth (round + 1) state'
          (.text content depth :: (rest.events depth ++ after)) world' = _ :=
        childLoop_pass (.text content depth) deeper (by rw [Event.node, visits.text]; rfl) round
      simp only [Except.map, Except.bind, position, if_true]
      rw [← back]
      exact ih after state' true world' deeper (moved ▸ neat) (by omega)
  · have follows : Follows (more.events depth ++ after) (more.events depth ++ after) false
        (visit node depth state) (visit' node ("", .nil) state) :=
      visits.follows node depth state fun is => absurd is takes
    have ran : visit node depth state (more.events depth ++ after) world = _ := follows world
    rw [ran]
    cases visited : visit' node ("", .nil) state false world with
    | error failure => exact ⟨round + 1, by simp only [List.length_append] at enough; omega, rfl⟩
    | ok result =>
      have moved := (visits.moves visited).1
      obtain ⟨⟨state', consumed⟩, world'⟩ := result
      simp only [Except.map, Except.bind, position, ite_self]
      exact ih after state' consumed world' deeper (moved ▸ neat) (by omega)

-- The visit of an element with a content takes the content, or leaves it to the loop, which then
-- meets the end of the element as well.
theorem Visits.loopWalks_full {parentDepth : Nat} {node : Node} {inside more : Content Node}
    (ihInside : LoopWalks grammar textNode diverged visit visit' loopOf parentDepth inside)
    (ihMore : LoopWalks grammar textNode diverged visit visit' loopOf parentDepth more) :
    LoopWalks grammar textNode diverged visit visit' loopOf parentDepth (.full node inside more) := by
  intro depth after state taken world rounds deeper neat enough
  obtain ⟨round, rfl⟩ : ∃ round, rounds = round + 1 := ⟨rounds - 1, by omega⟩
  have neat := neat.element
  have behind := neat.more
  rw [Content.behind] at behind
  simp only [Content.events, List.cons_append, List.append_assoc, List.length_cons] at enough ⊢
  rw [run_childLoop, Content.forest, run_walk]
  simp only [Event.node, Event.depth, gt_iff_lt, if_pos deeper]
  have ran : visit node depth state (inside.events (depth + 1) ++
      .finish node depth :: (more.events depth ++ after)) world = _ :=
    visits.follows node depth state (fun takes =>
      .full inside (more.events depth ++ after) (neat.fits takes)) world
  rw [ran]
  cases visited : visit' node (if grammar.textual node then inside.texts else "",
      inside.forest grammar.textual) state false world with
  | error failure =>
    exact ⟨round + 1, by simp only [List.length_append, List.length_cons] at enough; omega, rfl⟩
  | ok result =>
    obtain ⟨moved, taken⟩ := visits.moves visited
    obtain ⟨⟨state', consumed⟩, world'⟩ := result
    dsimp only at moved taken
    cases consumed with
    | true =>
      rw [if_pos taken.symm, ← moved] at behind
      exact ihMore after state' true world' deeper behind
        (by simp only [List.length_append, List.length_cons] at enough ⊢; omega)
    | false =>
      rw [Branch.next_of_not_takes taken.symm] at moved
      rw [if_neg (by simp [← taken]), ← moved] at behind
      have neatInside := neat.walked taken.symm
      rw [← moved] at neatInside
      obtain ⟨left, enoughLeft, within⟩ := ihInside
        (.finish node depth :: (more.events depth ++ after)) state' false world'
        (Nat.lt_succ_of_lt deeper) neatInside (Nat.lt_of_succ_lt_succ enough)
      obtain ⟨next, rfl⟩ : ∃ next, left = next + 1 := ⟨left - 1, by omega⟩
      simp only [Except.map, Except.bind, position, Bool.false_eq_true, if_false] at within ⊢
      rw [within]
      cases walked : walk visit' (inside.forest grammar.textual) state' false world' with
      | error failure =>
        exact ⟨next + 1, by simp only [List.length_append, List.length_cons] at enoughLeft; omega, rfl⟩
      | ok result =>
        have nothing := visits.closing neat.uncounted neat.repeated visited rfl walked depth
          (more.events depth ++ after)
        rw [← visits.walk_moves walked] at behind
        obtain ⟨⟨state'', taken''⟩, world''⟩ := result
        simp only
        rw [childLoop_pass (.finish node depth) deeper nothing]
        exact ihMore after state'' taken'' world'' deeper behind (by simpa using enoughLeft)

theorem Visits.loopWalks (diverged : ε) (parentDepth : Nat) (content : Content Node) :
    LoopWalks grammar textNode diverged visit visit' loopOf parentDepth content := by
  induction content with
  | nil => exact fun after state taken world rounds deeper neat enough => ⟨rounds, enough, rfl⟩
  | text content more ih =>
    intro depth after state taken world rounds deeper neat enough
    obtain ⟨round, rfl⟩ : ∃ round, rounds = round + 1 := ⟨rounds - 1, by omega⟩
    simp only [Content.events, List.cons_append, List.length_cons] at enough ⊢
    rw [childLoop_pass (.text content depth) deeper (by rw [Event.node, visits.text]; rfl)]
    exact ih after state taken world deeper neat (by omega)
  | empty node more ih => exact visits.loopWalks_empty ih
  | full node inside more ihInside ihMore => exact visits.loopWalks_full ihInside ihMore

theorem Visits.children {depth : Nat} {text : String} {inside : Forest Node}
    {before after : List (Event Node)} {state : σ}
    (written : Written grammar.textual (Content.Neat grammar (loopOf state)) own depth text inside before
      after) :
    Follows before after false ((reader textNode diverged).children depth visit state)
      (tree.children (text, inside) visit' state) := by
  intro world
  have spec : (tree.children (text, inside) visit' state) false world =
      (walk visit' inside state false world).map fun result => ((result.1.1, true), result.2) := by
    simp only [tree, run_bind, run_set, run_pure]
    cases walk visit' inside state false world <;> rfl
  have start (events : List (Event Node)) :
      (reader textNode diverged).children depth visit state events world =
        childLoop textNode diverged visit depth (events.length + 1) state events world := rfl
  rw [spec, position_false]
  cases written with
  | full content after neat =>
    obtain ⟨left, enough, looped⟩ := visits.loopWalks diverged depth content
      (.finish own depth :: after) state false world (Nat.lt_add_one depth) neat (Nat.lt_add_one _)
    obtain ⟨next, rfl⟩ : ∃ next, left = next + 1 := ⟨left - 1, by omega⟩
    rw [start, looped]
    cases walk visit' (content.forest grammar.textual) state false world with
    | error failure => rfl
    | ok result =>
      simp only [Except.bind]
      rw [run_childLoop, Event.node, visits.own]
      simp [Event.depth, run_pure, Except.bind, Except.map, position]
  | empty content after =>
    rw [start, List.length_cons, run_childLoop, Event.node, visits.text]
    simp [Event.depth, run_pure, Except.bind, Except.map, position, walk]
  | last => rfl

omit visits in
theorem textLoop_deeper (inside : Content Node) {parentDepth depth : Nat}
    (deeper : parentDepth + 1 < depth) (rest : List (Event Node)) (text : String) :
    textLoop parentDepth (inside.events depth ++ rest) text = textLoop parentDepth rest text := by
  have below : depth > parentDepth := by omega
  induction inside generalizing depth rest with
  | nil => rfl
  | text content more ih =>
    have apart : depth ≠ parentDepth + 1 := by omega
    simp only [Content.events, List.cons_append, textLoop, if_neg apart, if_pos below]
    exact ih deeper rest below
  | empty node more ih =>
    simp only [Content.events, List.cons_append, textLoop, if_pos below]
    exact ih deeper rest below
  | full node inside more ihInside ihMore =>
    simp only [Content.events, List.cons_append, List.append_assoc, textLoop, if_pos below]
    rw [ihInside (by omega) _ (by omega)]
    simp only [textLoop, if_pos below]
    exact ihMore deeper rest below

omit visits in
theorem textLoop_texts (inside : Content Node) (depth : Nat) (rest : List (Event Node))
    (text : String) :
    textLoop depth (inside.events (depth + 1) ++ rest) text =
      textLoop depth rest (text ++ inside.texts) := by
  have below : depth + 1 > depth := Nat.lt_add_one depth
  induction inside generalizing rest text with
  | nil => simp [Content.events, Content.texts]
  | text content more ih =>
    simp only [Content.events, List.cons_append, textLoop, Content.texts, if_true, if_pos below]
    rw [ih, String.append_assoc]
  | empty node more ih =>
    simp only [Content.events, List.cons_append, textLoop, Content.texts, if_pos below]
    exact ih rest text
  | full node inside more ihInside ihMore =>
    simp only [Content.events, List.cons_append, List.append_assoc, textLoop, Content.texts,
      if_pos below]
    rw [textLoop_deeper inside (Nat.lt_add_one _)]
    simp only [textLoop, if_pos below]
    exact ihMore rest text

omit visits in
theorem Follows.nextText {textual : Node → Bool} {fits : Content Node → Prop} {node : Node}
    {depth : Nat} {text : String} {inside : Forest Node} {before after : List (Event Node)}
    (isTextual : textual node = true)
    (written : Written textual fits node depth text inside before after) :
    Follows before after false ((reader textNode diverged : Cursor Node _ ω ε Nat).nextText depth)
      (tree.nextText (text, inside)) := by
  have ran (events : List (Event Node)) (world : ω) :
      (reader textNode diverged : Cursor Node _ ω ε Nat).nextText depth events world =
        .ok (((textLoop depth events "").1, (textLoop depth events "").2), world) := rfl
  have spec (world : ω) : (tree.nextText (text, inside) : Parser Bool ω ε String) false world =
      .ok ((text, true), world) := rfl
  intro world
  rw [position_false, spec, ran]
  cases written with
  | full content after neat =>
    rw [textLoop_texts]
    simp [textLoop, Except.map, position, isTextual]
  | empty content after => simp [textLoop, Except.map, position]
  | last => rfl

end Visits

end Pull
