import Mathlib.Data.List.Basic
import NDash.Mpd.ManifestAttributes
import NDash.Shared.Machine
import NDash.Shared.Outcome

set_option autoImplicit false

namespace NDash.Mpd.Manifest

open Machine

def ContentProtection.Clash (first second : ContentProtection) : Prop :=
  first ≠ second ∧ first.schemeUriId = second.schemeUriId

def SchemesDistinct (list : List ContentProtection) : Prop :=
  list.Pairwise fun first second => first.schemeUriId ≠ second.schemeUriId

def SameProtections (first second : List ContentProtection) : Prop :=
  ∀ protection, protection ∈ first ↔ protection ∈ second

def Begins (list all : List ContentProtection) : Prop :=
  (∀ protection ∈ list, protection ∈ all) ∧
    ∀ later ∈ all, later ∉ list → ∀ protection ∈ list, protection.schemeUriId < later.schemeUriId

-- Two lists that differ, but not where both have an entry.
def Cut (first second : List ContentProtection) : Prop :=
  first ≠ [] ∧ second ≠ [] ∧ ¬ SameProtections first second ∧
    (Begins first second ∨ Begins second first)

theorem SchemesDistinct.eq_of_scheme {list : List ContentProtection}
    (distinct : SchemesDistinct list) {first second : ContentProtection} (left : first ∈ list)
    (right : second ∈ list) (same : first.schemeUriId = second.schemeUriId) : first = second := by
  induction list with
  | nil => cases left
  | cons head rest ih =>
    obtain ⟨apart, distinct⟩ := List.pairwise_cons.mp distinct
    obtain rfl | behind := List.mem_cons.mp left <;> obtain rfl | after := List.mem_cons.mp right
    · rfl
    · exact absurd same (apart second after)
    · exact absurd same.symm (apart first behind)
    · exact ih distinct behind after

theorem SchemesDistinct.nodup {list : List ContentProtection} (distinct : SchemesDistinct list) :
    list.Nodup :=
  distinct.imp fun apart same => apart (congrArg ContentProtection.schemeUriId same)

namespace ContentProtectionsBuilder

theorem maybeAddContentProtection_cases (list : List ContentProtection)
    (protection : ContentProtection) :
    (protection ∈ list ∧ maybeAddContentProtection list protection = (true, list)) ∨
    ((∃ other ∈ list, other.Clash protection) ∧
      maybeAddContentProtection list protection = (false, list)) ∨
    ((∀ other ∈ list, other.schemeUriId ≠ protection.schemeUriId) ∧
      maybeAddContentProtection list protection = (true, list ++ [protection])) := by
  unfold maybeAddContentProtection
  by_cases present : protection ∈ list
  · exact .inl ⟨present, if_pos present⟩
  · rw [if_neg present]
    by_cases clash : list.any (fun other => other.schemeUriId = protection.schemeUriId) = true
    · obtain ⟨other, member, same⟩ := List.any_eq_true.mp clash
      have differ : other ≠ protection := fun equal => present (equal ▸ member)
      exact .inr (.inl ⟨⟨other, member, differ, of_decide_eq_true same⟩, if_pos clash⟩)
    · refine .inr (.inr ⟨fun other member same => clash ?_, if_neg clash⟩)
      exact List.any_eq_true.mpr ⟨other, member, decide_eq_true same⟩

theorem maybeAddContentProtection_distinct {list : List ContentProtection}
    (distinct : SchemesDistinct list) (protection : ContentProtection) :
    SchemesDistinct (maybeAddContentProtection list protection).2 := by
  obtain ⟨-, eq⟩ | ⟨-, eq⟩ | ⟨apart, eq⟩ := maybeAddContentProtection_cases list protection
  · rwa [eq]
  · rwa [eq]
  · rw [eq]
    refine List.pairwise_append.mpr ⟨distinct, List.pairwise_singleton _ _, ?_⟩
    intro other member last inside
    rw [List.mem_singleton.mp inside]
    exact apart other member

theorem mem_maybeAddContentProtection {list : List ContentProtection}
    {added protection : ContentProtection} :
    protection ∈ (maybeAddContentProtection list added).2 ↔
      protection ∈ list ∨
        ((maybeAddContentProtection list added).1 = true ∧ protection = added) := by
  obtain ⟨present, eq⟩ | ⟨-, eq⟩ | ⟨-, eq⟩ := maybeAddContentProtection_cases list added <;> rw [eq]
  · exact ⟨.inl, fun either => either.elim id fun same => same.2 ▸ present⟩
  · simp
  · simp

/-! What Build adds to the protections of the adaptation set -/

theorem addAll_distinct (protections : List ContentProtection) {list : List ContentProtection}
    (distinct : SchemesDistinct list) (consistent : Bool) :
    SchemesDistinct (addAll protections (consistent, list)).2 := by
  induction protections generalizing list consistent with
  | nil => exact distinct
  | cons protection protections ih =>
    exact ih (maybeAddContentProtection_distinct distinct protection) _

theorem subset_addAll (protections : List ContentProtection) {list : List ContentProtection}
    (consistent : Bool) {protection : ContentProtection} (member : protection ∈ list) :
    protection ∈ (addAll protections (consistent, list)).2 := by
  induction protections generalizing list consistent with
  | nil => exact member
  | cons added protections ih =>
    exact ih _ (mem_maybeAddContentProtection.mpr (.inl member))

theorem addAll_consistent {protections list : List ContentProtection} {consistent : Bool}
    (accepted : (addAll protections (consistent, list)).1 = true) :
    consistent = true ∧
      ∀ protection ∈ protections, protection ∈ (addAll protections (consistent, list)).2 := by
  induction protections generalizing list consistent with
  | nil => exact ⟨accepted, nofun⟩
  | cons added protections ih =>
    obtain ⟨both, rest⟩ := ih accepted
    obtain ⟨so_far, here⟩ := Bool.and_eq_true_iff.mp both
    refine ⟨so_far, List.forall_mem_cons.mpr ⟨?_, rest⟩⟩
    exact subset_addAll protections _ (mem_maybeAddContentProtection.mpr (.inr ⟨here, rfl⟩))

theorem addAll_clash {protections list : List ContentProtection}
    (distinct : SchemesDistinct protections)
    (refused : (addAll protections (true, list)).1 = false) :
    ∃ other ∈ list, ∃ protection ∈ protections, other.Clash protection := by
  induction protections generalizing list with
  | nil => exact absurd refused nofun
  | cons added protections ih =>
    obtain ⟨apart, distinct⟩ := List.pairwise_cons.mp distinct
    obtain ⟨-, eq⟩ | ⟨⟨other, member, clash⟩, -⟩ | ⟨-, eq⟩ :=
      maybeAddContentProtection_cases list added
    · rw [addAll, eq] at refused
      obtain ⟨other, member, protection, inside, clash⟩ := ih distinct refused
      exact ⟨other, member, protection, List.mem_cons_of_mem _ inside, clash⟩
    · exact ⟨other, member, added, List.mem_cons_self, clash⟩
    · rw [addAll, eq] at refused
      obtain ⟨other, member, protection, inside, clash⟩ := ih distinct refused
      obtain old | new := List.mem_append.mp member
      · exact ⟨other, old, protection, List.mem_cons_of_mem _ inside, clash⟩
      · obtain rfl := List.mem_singleton.mp new
        exact absurd clash.2 (apart protection inside)

/-! What EndRepresentation compares -/

def InOrder (list : List ContentProtection) : Prop :=
  list.Pairwise fun first second => first.schemeUriId ≤ second.schemeUriId

theorem sorted_inOrder (list : List ContentProtection) : InOrder (sorted list) := by
  have ordered : (sorted list).Pairwise fun first second =>
      decide (first.schemeUriId ≤ second.schemeUriId) = true := by
    refine List.pairwise_mergeSort (fun _ _ _ low high => ?_) (fun first second => ?_) list
    · exact decide_eq_true (String.le_trans (of_decide_eq_true low) (of_decide_eq_true high))
    · simpa using String.le_total first.schemeUriId second.schemeUriId
  exact ordered.imp of_decide_eq_true

theorem mem_sorted {list : List ContentProtection} {protection : ContentProtection} :
    protection ∈ sorted list ↔ protection ∈ list :=
  List.mem_mergeSort

theorem sorted_eq {list : List ContentProtection} (ordered : InOrder list) : sorted list = list :=
  List.mergeSort_of_pairwise (ordered.imp decide_eq_true)

theorem sorted_distinct {list : List ContentProtection} (distinct : SchemesDistinct list) :
    SchemesDistinct (sorted list) :=
  ((List.mergeSort_perm _ _).pairwise_iff fun apart => apart.symm).mpr distinct

theorem inOrder_unique {first second : List ContentProtection} (left : InOrder first)
    (right : InOrder second) (firstDistinct : SchemesDistinct first)
    (secondDistinct : SchemesDistinct second) (same : SameProtections first second) :
    first = second := by
  refine List.Perm.eq_of_pairwise ?_ left right
    ((List.perm_ext_iff_of_nodup firstDistinct.nodup secondDistinct.nodup).mpr same)
  intro one other oneMember otherMember low high
  exact firstDistinct.eq_of_scheme oneMember ((same other).mpr otherMember)
    (String.le_antisymm low high)

theorem begins_of_isPrefix {list all : List ContentProtection} (ordered : InOrder all)
    (distinct : SchemesDistinct all) (front : list <+: all) : Begins list all := by
  obtain ⟨rest, rfl⟩ := front
  refine ⟨fun protection member => List.mem_append_left _ member, ?_⟩
  intro later member outside protection inside
  have behind := (List.mem_append.mp member).resolve_left outside
  have low := (List.pairwise_append.mp ordered).2.2 protection inside later behind
  have apart := (List.pairwise_append.mp distinct).2.2 protection inside later behind
  exact String.not_le.mp fun high => apart (String.le_antisymm low high)

theorem rangeEqual_eq (first second : List ContentProtection)
    (long : second <+: first → first = second) :
    rangeEqual first second = .ok (decide (first <+: second)) := by
  induction first generalizing second with
  | nil => simp [rangeEqual]
  | cons protection first ih =>
    cases second with
    | nil => exact absurd (long List.nil_prefix) (by simp)
    | cons other second =>
      rw [rangeEqual]
      by_cases same : protection = other
      · subst same
        rw [if_pos rfl, ih second ?_]
        · simp [List.cons_prefix_cons]
        · intro front
          exact List.tail_eq_of_cons_eq (long (List.cons_prefix_cons.mpr ⟨rfl, front⟩))
      · rw [if_neg same]
        simp [List.cons_prefix_cons, same]

theorem isPrefix_of_rangeEqual {first second : List ContentProtection}
    (equal : rangeEqual first second = .ok true) : first <+: second := by
  fun_induction rangeEqual first second with
  | case1 => exact List.nil_prefix
  | case2 => cases equal
  | case3 protection firsts seconds ih => exact List.cons_prefix_cons.mpr ⟨rfl, ih equal⟩
  | case4 => cases equal

end ContentProtectionsBuilder

open ContentProtectionsBuilder

/-! The calls on a builder -/

inductive BuilderCall
  | addAdaptationSetProtection (protection : ContentProtection)
  | addRepresentationProtection (protection : ContentProtection)
  | endRepresentation
deriving DecidableEq, Repr

/-- A builder with the protections that were added to it (whose call returned true) and, for each
representation that has ended, what EndRepresentation returned. -/
structure BuilderWorld where
  builder : ContentProtectionsBuilder := {}
  adaptationSet : List ContentProtection := []
  current : List ContentProtection := []
  ended : List (List ContentProtection × Bool) := []
deriving DecidableEq, Repr

namespace BuilderWorld

def apply (world : BuilderWorld) : BuilderCall → Except Failure BuilderWorld
  | .addAdaptationSetProtection protection =>
    let (consistent, builder) := world.builder.addAdaptationSetProtection protection
    .ok { world with
      builder
      adaptationSet := world.adaptationSet ++ if consistent then [protection] else [] }
  | .addRepresentationProtection protection =>
    let (consistent, builder) := world.builder.addRepresentationProtection protection
    .ok { world with
      builder
      current := world.current ++ if consistent then [protection] else [] }
  | .endRepresentation => do
    let (consistent, builder) ← world.builder.endRepresentation
    .ok { world with
      builder
      current := []
      ended := world.ended ++ [(world.current, consistent)] }

-- The first representation may be the one that is about to end.
def first (world : BuilderWorld) : List ContentProtection :=
  (world.ended.map Prod.fst).headD world.current

-- The first representation has no protections, and another one has some.
def FirstBare (world : BuilderWorld) : Prop :=
  world.first = [] ∧
    (world.current ≠ [] ∨ ∃ representation ∈ world.ended, representation.1 ≠ [])

end BuilderWorld

def builderSystem : System BuilderWorld BuilderCall where
  Start world := world = {}
  Step world call next := world.apply call = .ok next

/-! What the lists of the builder hold -/

def Records (stored : Option (List ContentProtection)) (added : List ContentProtection) : Prop :=
  match stored with
  | none => added = []
  | some list => added ≠ [] ∧ SchemesDistinct list ∧ SameProtections list added

def RecordsFirst (stored : Option (List ContentProtection))
    (ended : List (List ContentProtection × Bool)) : Prop :=
  match stored with
  | none => ∀ representation ∈ ended, representation.1 = []
  | some list =>
    SchemesDistinct list ∧ InOrder list ∧
    (∃ representation ∈ ended, representation.1 ≠ [] ∧ SameProtections list representation.1) ∧
    (∀ first ∈ ended.head?, first.1 ≠ [] → SameProtections list first.1) ∧
    ∀ representation ∈ ended, representation.2 = true →
      ∀ protection ∈ representation.1, protection ∈ list

structure BuilderWorld.Tracks (world : BuilderWorld) : Prop where
  adaptationSet : Records world.builder.adaptationSetProtections world.adaptationSet
  current : Records world.builder.currentRepresentationProtections world.current
  representations : RecordsFirst world.builder.representationProtections world.ended

theorem Records.add {stored : Option (List ContentProtection)} {added : List ContentProtection}
    (records : Records stored added) (protection : ContentProtection) :
    Records (some (maybeAddContentProtection (stored.getD []) protection).2)
      (added ++ if (maybeAddContentProtection (stored.getD []) protection).1 then [protection]
        else []) := by
  cases stored with
  | none =>
    obtain rfl : added = [] := records
    refine ⟨by simp [maybeAddContentProtection], ?_, ?_⟩
    · exact maybeAddContentProtection_distinct .nil protection
    · simp [maybeAddContentProtection, SameProtections]
  | some list =>
    obtain ⟨present, distinct, same⟩ := records
    refine ⟨by simp [present], ?_, ?_⟩
    · exact maybeAddContentProtection_distinct distinct protection
    · intro other
      rw [mem_maybeAddContentProtection, List.mem_append, ← same other]
      split <;> simp_all

theorem RecordsFirst.endRepresentation {builder next : ContentProtectionsBuilder}
    {ended : List (List ContentProtection × Bool)} {current : List ContentProtection}
    {consistent : Bool} (records : RecordsFirst builder.representationProtections ended)
    (now : Records builder.currentRepresentationProtections current)
    (ends : builder.endRepresentation = .ok (consistent, next)) :
    RecordsFirst next.representationProtections (ended ++ [(current, consistent)]) := by
  obtain ⟨adaptationSet, earlier, stored⟩ := builder
  rw [ContentProtectionsBuilder.endRepresentation] at ends
  cases earlier with
  | none =>
    have bare : ∀ representation ∈ ended, representation.1 = [] := records
    cases stored with
    | none =>
      cases ends
      obtain rfl : current = [] := now
      exact List.forall_mem_append.mpr ⟨bare, List.forall_mem_singleton.mpr rfl⟩
    | some list =>
      cases ends
      obtain ⟨present, distinct, same⟩ := now
      have same : SameProtections (sorted list) current :=
        fun protection => mem_sorted.trans (same protection)
      refine ⟨sorted_distinct distinct,
        sorted_inOrder list, ?_, ?_, ?_⟩
      · exact ⟨(current, true), by simp, present, same⟩
      · intro first head some
        cases ended with
        | nil =>
          cases Option.mem_some.mp head
          exact same
        | cons early ended =>
          cases Option.mem_some.mp head
          exact absurd (bare _ List.mem_cons_self) some
      · refine List.forall_mem_append.mpr ⟨?_, List.forall_mem_singleton.mpr ?_⟩
        · intro representation member _ protection inside
          rw [bare representation member] at inside
          cases inside
        · exact fun _ protection inside => (same protection).mpr inside
  | some list =>
    obtain ⟨distinct, ordered, ⟨early, member, present, same⟩, first, contains⟩ := records
    have head : (ended ++ [(current, consistent)]).head? = ended.head? := by
      obtain ⟨head, rest, rfl⟩ := List.exists_cons_of_ne_nil (List.ne_nil_of_mem member)
      rfl
    have kept : next.representationProtections = some list ∧
        (consistent = true → ∀ protection ∈ current, protection ∈ list) := by
      cases stored with
      | none =>
        cases ends
        exact ⟨rfl, nofun⟩
      | some fresh =>
        obtain ⟨equal, compared, ends⟩ := Outcome.bind_ok ends
        cases ends
        refine ⟨rfl, fun accepted protection inside => ?_⟩
        subst accepted
        refine (isPrefix_of_rangeEqual compared).subset ?_
        exact mem_sorted.mpr ((now.2.2 protection).mpr inside)
    rw [kept.1]
    refine ⟨distinct, ordered, ⟨early, List.mem_append_left _ member, present, same⟩, ?_, ?_⟩
    · rwa [head]
    · exact List.forall_mem_append.mpr ⟨contains, List.forall_mem_singleton.mpr kept.2⟩

theorem endRepresentation_frame {builder next : ContentProtectionsBuilder} {consistent : Bool}
    (ends : builder.endRepresentation = .ok (consistent, next)) :
    next.adaptationSetProtections = builder.adaptationSetProtections ∧
      next.currentRepresentationProtections = none := by
  obtain ⟨adaptationSet, earlier, stored⟩ := builder
  cases earlier <;> cases stored
  case some.some =>
    obtain ⟨equal, -, ends⟩ := Outcome.bind_ok ends
    cases ends
    exact ⟨rfl, rfl⟩
  all_goals
    cases ends
    exact ⟨rfl, rfl⟩

theorem builderSystem_tracks {world : BuilderWorld} (reachable : Reachable builderSystem world) :
    world.Tracks := by
  refine reachable.invariant BuilderWorld.Tracks ?_ ?_
  · rintro _ rfl
    exact ⟨rfl, rfl, nofun⟩
  · intro world call next tracks step
    cases call with
    | addAdaptationSetProtection protection =>
      cases step
      exact ⟨tracks.adaptationSet.add protection, tracks.current, tracks.representations⟩
    | addRepresentationProtection protection =>
      cases step
      exact ⟨tracks.adaptationSet, tracks.current.add protection, tracks.representations⟩
    | endRepresentation =>
      obtain ⟨⟨consistent, builder⟩, ends, step⟩ := Outcome.bind_ok step
      cases step
      obtain ⟨kept, cleared⟩ := endRepresentation_frame ends
      refine ⟨?_, ?_, tracks.representations.endRepresentation tracks.current ends⟩
      · simpa only [kept] using tracks.adaptationSet
      · simp only [cleared, Records]

theorem SameProtections.symm {first second : List ContentProtection}
    (same : SameProtections first second) : SameProtections second first :=
  fun protection => (same protection).symm

theorem SameProtections.trans {first second third : List ContentProtection}
    (left : SameProtections first second) (right : SameProtections second third) :
    SameProtections first third :=
  fun protection => (left protection).trans (right protection)

theorem Begins.congr {list all list' all' : List ContentProtection} (begins : Begins list all)
    (same : SameProtections list list') (sameAll : SameProtections all all') :
    Begins list' all' := by
  constructor
  · intro protection member
    exact (sameAll protection).mp (begins.1 protection ((same protection).mpr member))
  · intro later member outside protection inside
    exact begins.2 later ((sameAll later).mpr member) (outside ∘ (same later).mp) protection
      ((same protection).mpr inside)

-- Both lists in order, so that a proper beginning is a cut.
theorem rangeEqual_same {current list fresh first : List ContentProtection}
    (distinct : SchemesDistinct fresh) (same : SameProtections fresh current)
    (ordered : InOrder list) (listDistinct : SchemesDistinct list)
    (sameFirst : SameProtections list first) (cut : ¬ Cut current first)
    (present : current ≠ []) (firstPresent : first ≠ []) :
    ∃ equal, rangeEqual (sorted fresh) list =
      .ok equal ∧ (equal = true ↔ SameProtections current first) := by
  have freshOrdered := sorted_inOrder fresh
  have freshDistinct := sorted_distinct distinct
  have sortedSame : SameProtections (sorted fresh) current :=
    fun protection => mem_sorted.trans (same protection)
  have unique : SameProtections current first →
      sorted fresh = list := fun agree =>
    inOrder_unique freshOrdered ordered freshDistinct listDistinct
      (sortedSame.trans (agree.trans sameFirst.symm))
  have decided : Begins current first ∨ Begins first current → SameProtections current first := by
    intro begins
    by_contra differ
    exact cut ⟨present, firstPresent, differ, begins⟩
  refine ⟨_, rangeEqual_eq _ _ fun front => ?_, ?_⟩
  · have begins := begins_of_isPrefix freshOrdered freshDistinct front
    exact unique (decided (.inr (begins.congr sameFirst sortedSame)))
  · rw [decide_eq_true_iff]
    constructor
    · intro front
      have begins := begins_of_isPrefix ordered listDistinct front
      exact decided (.inl (begins.congr sortedSame sameFirst))
    · intro agree
      exact unique agree ▸ List.prefix_rfl

theorem BuilderWorld.Tracks.endRepresentation_same {world : BuilderWorld} (tracks : world.Tracks)
    (bare : ¬ world.FirstBare) (cut : ¬ Cut world.current world.first) :
    ∃ consistent next, world.builder.endRepresentation = .ok (consistent, next) ∧
      (consistent = true ↔ SameProtections world.current world.first) := by
  obtain ⟨⟨adaptationSet, earlier, stored⟩, added, current, ended⟩ := world
  obtain ⟨-, now, before⟩ := tracks
  cases earlier with
  | none =>
    have empty : ∀ representation ∈ ended, representation.1 = [] := before
    have first : BuilderWorld.first ⟨⟨adaptationSet, none, stored⟩, added, current, ended⟩ =
        current := by
      cases ended with
      | nil => rfl
      | cons early ended =>
        have nothing : early.1 = [] := empty early List.mem_cons_self
        by_contra differ
        refine bare ⟨nothing, .inl fun none => differ ?_⟩
        exact nothing.trans none.symm
    refine ⟨true, ?_⟩
    rw [first]
    cases stored with
    | none => exact ⟨_, rfl, fun _ _ => Iff.rfl, fun _ => rfl⟩
    | some fresh => exact ⟨_, rfl, fun _ _ => Iff.rfl, fun _ => rfl⟩
  | some list =>
    obtain ⟨distinct, ordered, ⟨early, member, present, -⟩, same, -⟩ := before
    cases ended with
    | nil => cases member
    | cons head ended =>
      have firstPresent : head.1 ≠ [] := fun nothing =>
        bare ⟨nothing, .inr ⟨early, member, present⟩⟩
      have sameFirst := same head rfl firstPresent
      cases stored with
      | none =>
        obtain rfl : current = [] := now
        refine ⟨false, _, rfl, nofun, fun agree => ?_⟩
        obtain ⟨protection, inside⟩ := List.exists_mem_of_ne_nil _ firstPresent
        cases (agree protection).mpr inside
      | some fresh =>
        obtain ⟨filled, freshDistinct, sameFresh⟩ := now
        obtain ⟨equal, compared, decided⟩ :=
          rangeEqual_same freshDistinct sameFresh ordered distinct sameFirst cut filled firstPresent
        refine ⟨equal, ⟨adaptationSet, some list, none⟩, ?_, decided⟩
        rw [ContentProtectionsBuilder.endRepresentation]
        dsimp only
        rw [compared]
        rfl

theorem BuilderWorld.Tracks.build_null {world : BuilderWorld} (tracks : world.Tracks)
    (null : world.builder.build = none) :
    (world.adaptationSet = [] ∧ ∀ representation ∈ world.ended, representation.1 = []) ∨
      ∃ protection ∈ world.adaptationSet, ∃ representation ∈ world.ended,
        ∃ other ∈ representation.1, protection.Clash other := by
  obtain ⟨⟨adaptationSet, earlier, stored⟩, added, current, ended⟩ := world
  obtain ⟨records, -, before⟩ := tracks
  cases adaptationSet with
  | none =>
    obtain rfl : earlier = none := null
    exact .inl ⟨records, before⟩
  | some list =>
    cases earlier with
    | none => cases null
    | some first =>
      obtain ⟨distinct, -, ⟨early, member, -, same⟩, -⟩ := before
      have refused : (addAll first (true, list)).1 = false := by
        by_contra accepted
        rw [Bool.not_eq_false] at accepted
        exact absurd ((if_pos accepted).symm.trans null) nofun
      obtain ⟨protection, inside, other, own, clash⟩ :=
        addAll_clash distinct refused
      exact .inr ⟨protection, (records.2.2 protection).mp inside, early, member, other,
        (same other).mp own, clash⟩

theorem BuilderWorld.Tracks.build_list {world : BuilderWorld} (tracks : world.Tracks)
    {list : List ContentProtection} (built : world.builder.build = some list) :
    SchemesDistinct list ∧ (∀ protection ∈ world.adaptationSet, protection ∈ list) ∧
      ∀ representation ∈ world.ended, representation.2 = true →
        ∀ protection ∈ representation.1, protection ∈ list := by
  obtain ⟨⟨adaptationSet, earlier, stored⟩, added, current, ended⟩ := world
  obtain ⟨records, -, before⟩ := tracks
  cases adaptationSet with
  | none =>
    obtain rfl : added = [] := records
    obtain rfl : earlier = some list := built
    exact ⟨before.1, nofun, before.2.2.2.2⟩
  | some own =>
    obtain ⟨-, distinct, same⟩ := records
    cases earlier with
    | none =>
      obtain rfl : own = list := Option.some.inj built
      have empty : ∀ representation ∈ ended, representation.1 = [] := before
      refine ⟨distinct, fun protection member => (same protection).mpr member, ?_⟩
      intro representation member _ protection inside
      rw [empty representation member] at inside
      cases inside
    | some first =>
      by_cases accepted : (addAll first (true, own)).1 = true
      · obtain rfl : (addAll first (true, own)).2 = list :=
          Option.some.inj ((if_pos accepted).symm.trans built)
        refine ⟨addAll_distinct first distinct true, ?_, ?_⟩
        · intro protection member
          exact subset_addAll first true ((same protection).mpr member)
        · intro representation member consistent protection inside
          exact (addAll_consistent accepted).2 protection
            (before.2.2.2.2 representation member consistent protection inside)
      · exact absurd ((if_neg accepted).symm.trans built) nofun

/-- EndRepresentation compares with the first representation where that one has protections if any
has, and the lists differ within both, if at all. Build returns every protection of the adaptation
set and of the representations that were consistent, one for each scheme. -/
theorem contentProtectionsBuilder_consistent {world : BuilderWorld}
    (reachable : Reachable builderSystem world) :
    (¬ world.FirstBare → ¬ Cut world.current world.first →
      ∃ consistent next, world.builder.endRepresentation = .ok (consistent, next) ∧
        (consistent = true ↔ SameProtections world.current world.first)) ∧
    (world.builder.build = none →
      (world.adaptationSet = [] ∧ ∀ representation ∈ world.ended, representation.1 = []) ∨
        ∃ protection ∈ world.adaptationSet, ∃ representation ∈ world.ended,
          ∃ other ∈ representation.1, protection.Clash other) ∧
    ∀ list, world.builder.build = some list →
      SchemesDistinct list ∧ (∀ protection ∈ world.adaptationSet, protection ∈ list) ∧
        ∀ representation ∈ world.ended, representation.2 = true →
          ∀ protection ∈ representation.1, protection ∈ list := by
  have tracks := builderSystem_tracks reachable
  exact ⟨tracks.endRepresentation_same, tracks.build_null, fun _ => tracks.build_list⟩

namespace Sample

def cenc : ContentProtection := { schemeUriId := "urn:mpeg:dash:mp4protection:2011" }

def widevine : ContentProtection :=
  { schemeUriId := "urn:uuid:edef8ba9", uuid := some "edef8ba9", data := some ⟨"video/mp4", [8, 1]⟩ }

theorem inOrder : InOrder [cenc, widevine] :=
  List.pairwise_pair.mpr (by decide)

def adding (list : List ContentProtection) : BuilderWorld where
  builder := { currentRepresentationProtections := some list }
  current := list

def firstEnded (list : List ContentProtection) : BuilderWorld where
  builder := { representationProtections := some list }
  ended := [(list, true)]

theorem firstEnded_reachable {list : List ContentProtection}
    (adds : Reachable builderSystem (adding list))
    (ordered : InOrder list) :
    Reachable builderSystem (firstEnded list) := by
  refine adds.next .endRepresentation ?_
  exact congrArg (fun stored => Except.ok (ε := Failure)
      ({ builder := { representationProtections := some stored }, ended := [(list, true)] } :
        BuilderWorld))
    (sorted_eq ordered)

theorem cenc_added : Reachable builderSystem (adding [cenc]) :=
  (Reachable.start builderSystem (rfl : builderSystem.Start {})).next
    (.addRepresentationProtection cenc) rfl

theorem both_added : Reachable builderSystem (adding [cenc, widevine]) :=
  cenc_added.next (.addRepresentationProtection widevine) rfl

def secondAdded (list current : List ContentProtection) : BuilderWorld where
  builder := {
    representationProtections := some list
    currentRepresentationProtections := some current }
  current := current
  ended := [(list, true)]

theorem secondAdded_ends {list current : List ContentProtection}
    (ordered : InOrder current) :
    (secondAdded list current).builder.endRepresentation =
      (rangeEqual current list).bind fun consistent =>
        .ok (consistent, { representationProtections := some list }) := by
  rw [ContentProtectionsBuilder.endRepresentation]
  dsimp only [secondAdded]
  rw [sorted_eq ordered]
  rfl

end Sample

theorem contentProtectionsBuilder_consistent_both :
    ∃ next, (Sample.secondAdded [Sample.cenc, Sample.widevine]
      [Sample.widevine, Sample.cenc]).builder.endRepresentation = .ok (true, next) := by
  have reachable : Reachable builderSystem (Sample.secondAdded [Sample.cenc, Sample.widevine]
      [Sample.widevine, Sample.cenc]) :=
    ((Sample.firstEnded_reachable Sample.both_added Sample.inOrder).next
      (.addRepresentationProtection Sample.widevine) rfl).next
      (.addRepresentationProtection Sample.cenc) rfl
  have same : SameProtections [Sample.widevine, Sample.cenc] [Sample.cenc, Sample.widevine] := by
    intro protection
    simp [or_comm]
  obtain ⟨consistent, next, ends, agree⟩ := (contentProtectionsBuilder_consistent reachable).1
    (fun bare => absurd bare.1 (by decide)) (fun cut => cut.2.2.1 same)
  obtain rfl := agree.mpr same
  exact ⟨next, ends⟩

/-- Build is null without protections and leaves out those of a representation that is not
consistent; the comparison ends with the second list, or reads on behind the first; a first
representation without protections is not compared with. -/
theorem contentProtectionsBuilder_inconsistent :
    ((Reachable builderSystem {} ∧ ({} : BuilderWorld).builder.build = none) ∧
      ∃ world, Reachable builderSystem world ∧
        world.ended = [([Sample.cenc], true), ([Sample.widevine], false)] ∧
        world.builder.build = some [Sample.cenc]) ∧
    (∃ world next, Reachable builderSystem world ∧ world.current = [Sample.cenc] ∧
      world.ended = [([Sample.cenc, Sample.widevine], true)] ∧
      world.builder.endRepresentation = .ok (true, next)) ∧
    (∃ world, Reachable builderSystem world ∧ world.current = [Sample.cenc, Sample.widevine] ∧
      world.ended = [([Sample.cenc], true)] ∧
      world.builder.endRepresentation = .error .outOfBounds) ∧
    ∃ world next, Reachable builderSystem world ∧ world.current = [Sample.cenc] ∧
      world.ended = [([], true)] ∧ world.builder.endRepresentation = .ok (true, next) := by
  have start : Reachable builderSystem {} := .start builderSystem rfl
  have single (protection : ContentProtection) :
      InOrder [protection] := List.pairwise_singleton _ _
  have one := Sample.firstEnded_reachable Sample.cenc_added (single _)
  have both := Sample.firstEnded_reachable Sample.both_added Sample.inOrder
  refine ⟨⟨⟨start, rfl⟩, ?_⟩, ?_, ?_, ?_⟩
  · have added : Reachable builderSystem (Sample.secondAdded [Sample.cenc] [Sample.widevine]) :=
      one.next (.addRepresentationProtection Sample.widevine) rfl
    refine ⟨{ Sample.firstEnded [Sample.cenc] with
      ended := [([Sample.cenc], true), ([Sample.widevine], false)] }, ?_, rfl, rfl⟩
    refine added.next .endRepresentation ?_
    exact congrArg (fun ends => ends.bind fun ended => Except.ok (ε := Failure)
      ({ builder := ended.2, ended := [([Sample.cenc], true), ([Sample.widevine], ended.1)] } :
        BuilderWorld)) (Sample.secondAdded_ends (single _))
  · have added : Reachable builderSystem
        (Sample.secondAdded [Sample.cenc, Sample.widevine] [Sample.cenc]) :=
      both.next (.addRepresentationProtection Sample.cenc) rfl
    exact ⟨_, _, added, rfl, rfl, Sample.secondAdded_ends (single _)⟩
  · have added : Reachable builderSystem
        (Sample.secondAdded [Sample.cenc] [Sample.cenc, Sample.widevine]) :=
      (one.next (.addRepresentationProtection Sample.cenc) rfl).next
        (.addRepresentationProtection Sample.widevine) rfl
    exact ⟨_, added, rfl, rfl, Sample.secondAdded_ends Sample.inOrder⟩
  · have bare : Reachable builderSystem { ended := [([], true)] } :=
      start.next .endRepresentation rfl
    exact ⟨_, _, bare.next (.addRepresentationProtection Sample.cenc) rfl, rfl, rfl, rfl⟩

end NDash.Mpd.Manifest
