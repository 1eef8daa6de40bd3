import Mathlib.Data.Set.Basic
import NDash.Shared.PullReader

set_option autoImplicit false

/-!
# Rules of a pull reader

A parse function for an element reads its attributes, runs the first matching rule on everything inside
and builds its result. Written once for every cursor, it agrees on the reader and on the tree if its
rules do.
-/

namespace Pull

section Rules

variable {Node S ω ε Place σ α : Type}

structure Rule (Node S ω ε Place σ : Type) where
  is : Node → Bool
  idle : σ → Bool
  run : Node → Place → σ → Parser S ω ε σ

-- The first rule that is for the node runs, and none that comes behind it.
def dispatch : List (Rule Node S ω ε Place σ) → Node → Place → σ → Parser S ω ε σ
  | [], _, _, state => pure state
  | rule :: rules, node, place, state =>
    if rule.is node then if rule.idle state then pure state else rule.run node place state
    else dispatch rules node place state

def Rule.attributes (is : Node → Bool) (effect : Node → σ → Effect ω ε σ) :
    Rule Node S ω ε Place σ where
  is
  idle _ := false
  run node _ state := liftM (effect node state)

def Rule.inside (is : Node → Bool) (idle : σ → Bool) (parse : Node → Place → σ → Parser S ω ε α)
    (update : σ → α → Effect ω ε σ) : Rule Node S ω ε Place σ where
  is
  idle
  run node place state := do
    let value ← parse node place state
    liftM (update state value)

def element (cursor : Cursor Node S ω ε Place) (start : Effect ω ε σ)
    (rules : List (Rule Node S ω ε Place σ)) (finish : σ → Effect ω ε α) (place : Place) :
    Parser S ω ε α := do
  let state ← liftM start
  let state ← cursor.children place (dispatch rules) state
  liftM (finish state)

theorem Rule.attributes_keeps {is : Node → Bool} {effect : Node → σ → Effect ω ε σ} (keeps : σ → Prop)
    (each : ∀ node state world result, keeps state → effect node state world = .ok result →
      keeps result.1)
    {node : Node} {place : Place} {state : σ} {pulled : S} {world : ω} {result : (σ × S) × ω}
    (kept : keeps state)
    (ran : (Rule.attributes is effect : Rule Node S ω ε Place σ).run node place state pulled world =
      .ok result) : keeps result.1.1 := by
  obtain ⟨value, first, rfl⟩ := run_lift_ok ran
  exact each node state world value kept first

theorem Rule.inside_keeps {is : Node → Bool} {idle : σ → Bool}
    {parse : Node → Place → σ → Parser S ω ε α} {update : σ → α → Effect ω ε σ} (keeps : σ → Prop)
    (each : ∀ state value world result, keeps state → update state value world = .ok result →
      keeps result.1)
    {node : Node} {place : Place} {state : σ} {pulled : S} {world : ω} {result : (σ × S) × ω}
    (kept : keeps state)
    (ran : (Rule.inside is idle parse update).run node place state pulled world = .ok result) :
    keeps result.1.1 := by
  obtain ⟨middle, _, ran⟩ := run_bind_ok ran
  obtain ⟨value, updated, rfl⟩ := run_lift_ok ran
  exact each state middle.1.1 middle.2 value kept updated

theorem dispatch_keeps {rules : List (Rule Node S ω ε Place σ)} (keeps : σ → Prop)
    (each : ∀ rule ∈ rules, ∀ node place state pulled world result, keeps state →
      rule.run node place state pulled world = .ok result → keeps result.1.1)
    {node : Node} {place : Place} {state : σ} {pulled : S} {world : ω} {result : (σ × S) × ω}
    (kept : keeps state)
    (ran : dispatch rules node place state pulled world = .ok result) : keeps result.1.1 := by
  induction rules with
  | nil =>
    cases ran
    exact kept
  | cons rule rules ih =>
    rw [dispatch] at ran
    by_cases own : rule.is node = true
    · rw [if_pos own] at ran
      by_cases idle : rule.idle state = true
      · rw [if_pos idle] at ran
        cases ran
        exact kept
      · rw [if_neg idle] at ran
        exact each rule List.mem_cons_self _ _ _ _ _ _ kept ran
    · rw [if_neg own] at ran
      exact ih (fun other inside => each other (List.mem_cons_of_mem _ inside)) ran

theorem element_tree_keeps {start : Effect ω ε σ}
    {rules : List (Rule Node Bool ω ε (String × Forest Node) σ)} {finish : σ → Effect ω ε α}
    {place : String × Forest Node} {pulled : Bool} {world : ω} {result : (α × Bool) × ω}
    (keeps : σ → Prop) (starts : ∀ world first, start world = .ok first → keeps first.1)
    (each : ∀ rule ∈ rules, ∀ node place state pulled world result, keeps state →
      rule.run node place state pulled world = .ok result → keeps result.1.1)
    (ran : element tree start rules finish place pulled world = .ok result) :
    ∃ state world, keeps state ∧ finish state world = .ok (result.1.1, result.2) := by
  obtain ⟨first, started, ran⟩ := run_bind_ok ran
  obtain ⟨begun, beginning, rfl⟩ := run_lift_ok started
  obtain ⟨last, looped, ran⟩ := run_bind_ok ran
  obtain ⟨_, finished, rfl⟩ := run_lift_ok ran
  obtain ⟨inner, walked, looped⟩ := run_bind_ok looped
  cases looped
  exact ⟨inner.1.1, inner.2, walk_keeps (fun _ _ _ _ _ _ => dispatch_keeps keeps each) _
    (starts _ _ beginning) walked, finished⟩

end Rules

section Rows

variable {Node Loop : Type}

structure Row (Node Loop : Type) where
  is : Node → Bool
  branch : Node → Branch Loop

def branchOf : List (Row Node Loop) → Node → Branch Loop
  | [], _ => .passed
  | row :: rows, node => if row.is node then row.branch node else branchOf rows node

def Grammar.ofRows (textual : Node → Bool) (rows : Loop → List (Row Node Loop)) :
    Grammar Node Loop where
  textual
  branch here := branchOf (rows here)

end Rows

section Agreement

variable {Node Loop ω ε σ α : Type} (grammar : Grammar Node Loop) (textNode own : Node)
  (stable : Set (σ → Prop)) (loopOf : σ → Loop) (state : σ)

/-- In this state the two rules do the same, which is what the row says, and the end of an element that
is not read does nothing again: right behind its start, or for good because of something stable. What
is stable no rule undoes. -/
structure Rule.Agrees (row : Row Node Loop) (rule : Rule Node (List (Event Node)) ω ε Nat σ)
    (rule' : Rule Node Bool ω ε (String × Forest Node) σ) : Prop where
  is : rule.is = row.is
  is' : rule'.is = row.is
  idle : rule'.idle = rule.idle
  text : row.is textNode = false
  own : row.is own = false
  passes : ∀ node, row.is node = true → (rule.idle state = true ↔ row.branch node = .passed)
  lasts : rule.idle = (fun _ => false) ∨ (fun state => rule.idle state = true) ∈ stable
  follows : ∀ node, row.is node = true → rule.idle state = false →
    ∀ depth {text inside before after},
      ((row.branch node).takes = true → Written grammar.textual ((row.branch node).Fits grammar) node
        depth text inside before after) →
      Follows before after false (rule.run node depth state) (rule'.run node (text, inside) state)
  moves : ∀ {node place world result}, row.is node = true → rule.idle state = false →
    rule'.run node place state false world = .ok result →
      loopOf result.1.1 = (row.branch node).next (loopOf state) ∧
        result.1.2 = (row.branch node).takes
  settles : ∀ {node place world result}, row.is node = true → row.branch node = .settled →
    rule'.run node place state false world = .ok result →
      ∃ kept ∈ stable, kept result.1.1 ∧ ∀ state, kept state → ∀ depth,
        rule.run node depth state = pure state
  repeats : ∀ {node place world result}, row.is node = true → row.branch node = .repeated →
    rule'.run node place state false world = .ok result → ∀ depth events,
      rule.run node depth result.1.1 events result.2 = .ok ((result.1.1, events), result.2)
  keeps : ∀ kept ∈ stable, ∀ node place state pulled world result, kept state →
    rule'.run node place state pulled world = .ok result → kept result.1.1

inductive Agree : List (Row Node Loop) → List (Rule Node (List (Event Node)) ω ε Nat σ) →
    List (Rule Node Bool ω ε (String × Forest Node) σ) → Prop
  | nil : Agree [] [] []
  | cons {row rows rule rules rule' rules'}
      (first : Rule.Agrees grammar textNode own stable loopOf state row rule rule')
      (others : Agree rows rules rules') : Agree (row :: rows) (rule :: rules) (rule' :: rules')

def Skips (rules : List (Rule Node (List (Event Node)) ω ε Nat σ)) (node : Node) (state : σ) : Prop :=
  (∀ state depth, dispatch rules node depth state = pure state) ∨
    ∃ kept ∈ stable, kept state ∧
      ∀ state, kept state → ∀ depth, dispatch rules node depth state = pure state

variable {grammar textNode own stable loopOf state} {rows : List (Row Node Loop)}
  {rules : List (Rule Node (List (Event Node)) ω ε Nat σ)}
  {rules' : List (Rule Node Bool ω ε (String × Forest Node) σ)}

theorem Agree.append {others : List (Row Node Loop)}
    {more : List (Rule Node (List (Event Node)) ω ε Nat σ)}
    {more' : List (Rule Node Bool ω ε (String × Forest Node) σ)}
    (first : Agree grammar textNode own stable loopOf state rows rules rules')
    (second : Agree grammar textNode own stable loopOf state others more more') :
    Agree grammar textNode own stable loopOf state (rows ++ others) (rules ++ more)
      (rules' ++ more') := by
  induction first with
  | nil => exact second
  | cons agrees _ ih => exact .cons agrees ih

theorem Agree.silent (agree : Agree grammar textNode own stable loopOf state rows rules rules')
    {node : Node} (silent : node = textNode ∨ node = own) (depth : Nat) (now : σ) :
    dispatch rules node depth now = pure now := by
  induction agree with
  | nil => rfl
  | cons agrees _ ih =>
    have other : _ = false := silent.elim (· ▸ agrees.text) (· ▸ agrees.own)
    rw [dispatch, agrees.is, if_neg (Bool.eq_false_iff.mp other)]
    exact ih

theorem Agree.follows (agree : Agree grammar textNode own stable loopOf state rows rules rules')
    (node : Node) (depth : Nat) {text : String} {inside : Forest Node}
    {before after : List (Event Node)}
    (written : (branchOf rows node).takes = true → Written grammar.textual
      ((branchOf rows node).Fits grammar) node depth text inside before after) :
    Follows before after false (dispatch rules node depth state)
      (dispatch rules' node (text, inside) state) := by
  induction agree with
  | nil => exact Follows.pure state
  | @cons row _ rule _ rule' _ agrees _ ih =>
    rw [dispatch, dispatch, agrees.is, agrees.is', agrees.idle]
    rw [branchOf] at written
    by_cases ownRule : row.is node = true
    · rw [if_pos ownRule] at written
      rw [if_pos ownRule, if_pos ownRule]
      by_cases idle : rule.idle state = true
      · rw [if_pos idle, if_pos idle]
        exact Follows.pure state
      · rw [if_neg idle, if_neg idle]
        exact agrees.follows node ownRule (Bool.eq_false_iff.mpr idle) depth written
    · rw [if_neg ownRule] at written
      rw [if_neg ownRule, if_neg ownRule]
      exact ih written

theorem Agree.moves (agree : Agree grammar textNode own stable loopOf state rows rules rules')
    {node : Node} {place : String × Forest Node} {world : ω} {result : (σ × Bool) × ω}
    (ran : dispatch rules' node place state false world = .ok result) :
    loopOf result.1.1 = (branchOf rows node).next (loopOf state) ∧
      result.1.2 = (branchOf rows node).takes := by
  induction agree with
  | nil =>
    cases ran
    exact ⟨rfl, rfl⟩
  | @cons row _ rule _ rule' _ agrees _ ih =>
    rw [dispatch, agrees.is', agrees.idle] at ran
    rw [branchOf]
    by_cases ownRule : row.is node = true
    · rw [if_pos ownRule] at ran ⊢
      by_cases idle : rule.idle state = true
      · rw [if_pos idle] at ran
        cases ran
        rw [(agrees.passes node ownRule).mp idle]
        exact ⟨rfl, rfl⟩
      · rw [if_neg idle] at ran
        exact agrees.moves ownRule (Bool.eq_false_iff.mpr idle) ran
    · rw [if_neg ownRule] at ran ⊢
      exact ih ran

theorem Skips.cons {rule : Rule Node (List (Event Node)) ω ε Nat σ} {node : Node} {now : σ}
    (other : rule.is node = false) (skips : Skips stable rules node now) :
    Skips stable (rule :: rules) node now := by
  have passed (state : σ) (depth : Nat) :
      dispatch (rule :: rules) node depth state = dispatch rules node depth state := by
    rw [dispatch, if_neg (Bool.eq_false_iff.mp other)]
  rcases skips with never | ⟨kept, member, holds, nothing⟩
  · refine .inl fun state depth => ?_
    rw [passed]
    exact never state depth
  · refine .inr ⟨kept, member, holds, fun state holds depth => ?_⟩
    rw [passed]
    exact nothing state holds depth

theorem Agree.passes (agree : Agree grammar textNode own stable loopOf state rows rules rules')
    {node : Node} (passed : branchOf rows node = .passed) :
    Skips stable rules node state ∧ ∀ place, dispatch rules' node place state = pure state := by
  induction agree with
  | nil => exact ⟨.inl fun _ _ => rfl, fun _ => rfl⟩
  | @cons row _ rule _ rule' _ agrees _ ih =>
    rw [branchOf] at passed
    by_cases ownRule : row.is node = true
    · rw [if_pos ownRule] at passed
      have idle := (agrees.passes node ownRule).mpr passed
      constructor
      · rcases agrees.lasts with never | lasting
        · rw [never] at idle
          cases idle
        · refine .inr ⟨_, lasting, idle, fun state idle depth => ?_⟩
          rw [dispatch, agrees.is, if_pos ownRule, if_pos idle]
      · intro place
        rw [dispatch, agrees.is', if_pos ownRule, agrees.idle, if_pos idle]
    · rw [if_neg ownRule] at passed
      obtain ⟨skips, nothing⟩ := ih passed
      refine ⟨skips.cons (by rw [agrees.is]; exact Bool.eq_false_iff.mpr ownRule), fun place => ?_⟩
      rw [dispatch, agrees.is', if_neg ownRule]
      exact nothing place

theorem Agree.settles (agree : Agree grammar textNode own stable loopOf state rows rules rules')
    {node : Node} {place : String × Forest Node} {world : ω} {result : (σ × Bool) × ω}
    (settled : branchOf rows node = .settled)
    (ran : dispatch rules' node place state false world = .ok result) :
    Skips stable rules node result.1.1 := by
  induction agree with
  | nil => cases settled
  | @cons row _ rule _ rule' _ agrees _ ih =>
    rw [dispatch, agrees.is', agrees.idle] at ran
    rw [branchOf] at settled
    by_cases ownRule : row.is node = true
    · rw [if_pos ownRule] at ran settled
      by_cases idle : rule.idle state = true
      · rw [(agrees.passes node ownRule).mp idle] at settled
        cases settled
      · rw [if_neg idle] at ran
        obtain ⟨kept, member, holds, nothing⟩ := agrees.settles ownRule settled ran
        refine .inr ⟨kept, member, holds, fun state holds depth => ?_⟩
        rw [dispatch, agrees.is, if_pos ownRule, nothing state holds depth, ite_self]
    · rw [if_neg ownRule] at ran settled
      exact (ih settled ran).cons (by rw [agrees.is]; exact Bool.eq_false_iff.mpr ownRule)

theorem Agree.repeats (agree : Agree grammar textNode own stable loopOf state rows rules rules')
    {node : Node} {place : String × Forest Node} {world : ω} {result : (σ × Bool) × ω}
    (repeated : branchOf rows node = .repeated)
    (ran : dispatch rules' node place state false world = .ok result) (depth : Nat)
    (events : List (Event Node)) :
    dispatch rules node depth result.1.1 events result.2 =
      .ok ((result.1.1, events), result.2) := by
  induction agree with
  | nil => cases repeated
  | @cons row _ rule _ rule' _ agrees _ ih =>
    rw [dispatch, agrees.is', agrees.idle] at ran
    rw [branchOf] at repeated
    rw [dispatch, agrees.is]
    by_cases ownRule : row.is node = true
    · rw [if_pos ownRule] at ran repeated ⊢
      by_cases idle : rule.idle state = true
      · rw [(agrees.passes node ownRule).mp idle] at repeated
        cases repeated
      · rw [if_neg idle] at ran
        split
        · rfl
        · exact agrees.repeats ownRule repeated ran depth events
    · rw [if_neg ownRule] at ran repeated ⊢
      exact ih repeated ran

theorem Agree.keeps (agree : Agree grammar textNode own stable loopOf state rows rules rules')
    {kept : σ → Prop} (member : kept ∈ stable) :
    ∀ rule' ∈ rules', ∀ node place state pulled world result,
      kept state → rule'.run node place state pulled world = .ok result → kept result.1.1 := by
  induction agree with
  | nil =>
    intro rule' inside
    cases inside
  | cons agrees _ ih => exact List.forall_mem_cons.mpr ⟨agrees.keeps kept member, ih⟩

theorem Agree.visits {textual : Node → Bool} {rows : Loop → List (Row Node Loop)}
    (agree : ∀ state, Agree (.ofRows textual rows) textNode own stable loopOf state
      (rows (loopOf state)) rules rules') :
    Visits (.ofRows textual rows) textNode own (dispatch rules) (dispatch rules') loopOf
      (Skips stable rules) where
  follows node depth _ _ _ _ state written := (agree state).follows node depth written
  text depth state := (agree state).silent (.inl rfl) depth state
  own depth state := (agree state).silent (.inr rfl) depth state
  moves ran := (agree _).moves ran
  passes passed := (agree _).passes passed
  settles settled ran := (agree _).settles settled ran
  repeats repeated ran depth events := (agree _).repeats repeated ran depth events
  skips := by
    rintro node state (never | ⟨kept, _, holds, nothing⟩) depth
    · exact never state depth
    · exact nothing state holds depth
  keeps := by
    rintro node node' place state taken world result (never | ⟨kept, member, holds, nothing⟩) ran
    · exact .inl never
    · exact .inr ⟨kept, member,
        dispatch_keeps kept ((agree state).keeps member) holds ran, nothing⟩

def Takes (spec : Parser Bool ω ε α) : Prop :=
  ∀ {pulled world result}, spec pulled world = .ok result → result.1.2 = true

theorem Takes.element (start : Effect ω ε σ) (finish : σ → Effect ω ε α)
    (place : String × Forest Node) : Takes (element tree start rules' finish place) := by
  intro pulled world result ran
  obtain ⟨first, _, ran⟩ := run_bind_ok ran
  obtain ⟨last, walked, ran⟩ := run_bind_ok ran
  obtain ⟨value, _, rfl⟩ := run_lift_ok ran
  obtain ⟨inner, _, walked⟩ := run_bind_ok walked
  cases walked
  rfl

theorem Takes.nextText (place : String × Forest Node) :
    Takes (tree.nextText place : Parser Bool ω ε String) := by
  intro pulled world result ran
  cases ran
  rfl

theorem Follows.element {diverged : ε} {textual : Node → Bool} {rows : Loop → List (Row Node Loop)}
    {here : Loop}
    (agree : ∀ state, Agree (.ofRows textual rows) textNode own stable loopOf state
      (rows (loopOf state)) rules rules')
    {start : Effect ω ε σ} (starts : ∀ {world result}, start world = .ok result → loopOf result.1 = here)
    (finish : σ → Effect ω ε α) {depth : Nat}
    {text : String} {inside : Forest Node} {before after : List (Event Node)}
    (written : Written textual (Content.Neat (.ofRows textual rows) here) own depth text inside before
      after) :
    Follows before after false (element (reader textNode diverged) start rules finish depth)
      (element tree start rules' finish (text, inside)) := by
  refine Follows.lift_bind start fun started => ?_
  rw [← starts started] at written
  refine Follows.bind ((Agree.visits agree).children written) fun value pulled => ?_
  exact Follows.lift (finish value)

-- What a rule without a loop of its own does is done once, or again to no effect.
theorem Rule.attributes_agrees {is : Node → Bool} {branch : Node → Branch Loop}
    {effect : Node → σ → Effect ω ε σ} (text : is textNode = false) (apart : is own = false)
    (keeps : ∀ kept ∈ stable, ∀ node state world result, kept state →
      effect node state world = .ok result → kept result.1)
    (stays : ∀ {node world result}, effect node state world = .ok result →
      loopOf result.1 = loopOf state)
    (once : ∀ node, is node = true → branch node = .counted ∨
      (branch node = .repeated ∧ ∀ {state world result},
        effect node state world = .ok result → effect node result.1 result.2 = .ok result) ∨
      branch node = .settled ∧ ∃ kept ∈ stable,
        (∀ {state world result}, effect node state world = .ok result → kept result.1) ∧
        ∀ state, kept state → effect node state = pure state) :
    Rule.Agrees grammar textNode own stable loopOf state ⟨is, branch⟩ (.attributes is effect)
      (.attributes is effect) where
  is := rfl
  is' := rfl
  idle := rfl
  text := text
  own := apart
  passes node matching := by
    rcases once node matching with counted | ⟨repeated, -⟩ | ⟨settled, -⟩ <;>
      simp_all [Rule.attributes]
  lasts := .inl rfl
  follows node _ _ _ _ _ _ _ _ := Follows.lift (effect node state)
  moves := by
    intro node place world result matching _ ran
    obtain ⟨value, first, rfl⟩ := run_lift_ok ran
    rcases once node matching with counted | ⟨repeated, -⟩ | ⟨settled, -⟩ <;>
      simp_all [Branch.next, Branch.takes, stays first]
  settles := by
    intro node place world result matching settled ran
    obtain ⟨value, first, rfl⟩ := run_lift_ok ran
    rcases once node matching with counted | ⟨repeated, -⟩ | ⟨-, kept, member, settles, nothing⟩
    · simp_all
    · simp_all
    · refine ⟨kept, member, settles first, fun state holds depth => ?_⟩
      simp only [Rule.attributes]
      rw [nothing state holds]
      rfl
  repeats := by
    intro node place world result matching repeated ran depth events
    obtain ⟨value, first, rfl⟩ := run_lift_ok ran
    rcases once node matching with counted | ⟨-, again⟩ | ⟨settled, -⟩
    · simp_all
    · simp only [Rule.attributes]
      rw [run_lift, again first]
      rfl
    · simp_all
  keeps kept member _ _ _ _ _ _ := Rule.attributes_keeps kept (keeps kept member)

theorem read_or_passed {branch : Node → Branch Loop} {idle : Bool}
    (passes : ∀ node, branch node = .passed ↔ idle = true)
    (reads : ∀ node, idle = false → (branch node).takes = true) (node : Node) :
    branch node ≠ .settled ∧ branch node ≠ .repeated := by
  have read := reads node
  have passed := passes node
  cases kind : branch node <;> cases idle <;> simp_all [Branch.takes]

theorem Rule.inside_agrees {is : Node → Bool} {branch : Node → Branch Loop} {idle : σ → Bool}
    {parse : Node → Nat → σ → Parser (List (Event Node)) ω ε α}
    {parse' : Node → String × Forest Node → σ → Parser Bool ω ε α} {update : σ → α → Effect ω ε σ}
    (text : is textNode = false) (apart : is own = false)
    (passes : ∀ node, branch node = .passed ↔ idle state = true)
    (reads : ∀ node, idle state = false → (branch node).takes = true)
    (lasts : idle = (fun _ => false) ∨ (fun state => idle state = true) ∈ stable)
    (keeps : ∀ kept ∈ stable, ∀ state value world result, kept state →
      update state value world = .ok result → kept result.1)
    (moves : ∀ {node place world parsed result}, is node = true → idle state = false →
      parse' node place state false world = .ok parsed →
      update state parsed.1.1 parsed.2 = .ok result →
      loopOf result.1 = (branch node).next (loopOf state))
    (follows : ∀ node, is node = true → idle state = false →
      ∀ depth {text inside before after},
        Written grammar.textual ((branch node).Fits grammar) node depth text inside before after →
        Follows before after false (parse node depth state) (parse' node (text, inside) state))
    (takes : ∀ node place, Takes (parse' node place state)) :
    Rule.Agrees grammar textNode own stable loopOf state ⟨is, branch⟩ (.inside is idle parse update)
      (.inside is idle parse' update) where
  is := rfl
  is' := rfl
  idle := rfl
  text := text
  own := apart
  passes node _ := (passes node).symm
  lasts := lasts
  follows node matching busy depth _ _ _ _ written :=
    Follows.bind (follows node matching busy depth (written (reads node busy)))
      fun value _ => Follows.lift (update state value)
  moves := by
    intro node place world result matching busy ran
    obtain ⟨middle, parsed, ran⟩ := run_bind_ok ran
    obtain ⟨value, updated, rfl⟩ := run_lift_ok ran
    exact ⟨moves matching busy parsed updated,
      (takes node place parsed).trans (reads node busy).symm⟩
  settles := by
    intro node place world result _ settled
    exact absurd settled (read_or_passed passes reads node).1
  repeats := by
    intro node place world result _ repeated
    exact absurd repeated (read_or_passed passes reads node).2
  keeps kept member _ _ _ _ _ _ := Rule.inside_keeps kept (keeps kept member)

end Agreement

end Pull
