import NDash.Dash.RepresentationHolder

set_option autoImplicit false

namespace NDash.Dash

open Mpd

def kTrickScheme : String := "http://dashif.org/guidelines/trickmode"

namespace AdaptationSetComparator

def isTrick (set : AdaptationSet) : Bool := set.supplementalSchemes.any (· == kTrickScheme)

def getLang (set : AdaptationSet) : String :=
  match set.representations with
  | [] => ""
  | representation :: _ => representation.format.language

def getChannels (set : AdaptationSet) : Int :=
  match set.representations with
  | [] => 2
  | representation :: _ => representation.format.audioChannels

def getCodecs (set : AdaptationSet) : String :=
  match set.representations with
  | [] => ""
  | representation :: _ => representation.format.codecs

-- The values that the comparator ties together; the channels are compared as a size_t.
def values (criteria : TrackCriteria) (set : AdaptationSet) : List Int :=
  let trick := if criteria.preferTrick then isTrick set else !isTrick set
  let lang := criteria.preferredLang ≠ "" && getLang set == criteria.preferredLang
  let channels := getChannels set
  let enough := channels < 0 || channels ≥ criteria.preferredChannels
  let codecs := criteria.preferredCodec ≠ "" && getCodecs set == criteria.preferredCodec
  [if trick then 1 else 0, if lang then 1 else 0,
    if criteria.preferredChannels ≠ 0 && enough then channels else 0, if codecs then 1 else 0]

def less (criteria : TrackCriteria) (first second : AdaptationSet) : Bool :=
  decide (values criteria second < values criteria first)

end AdaptationSetComparator

-- std::min_element
def minElement {α : Type} (less : α → α → Bool) (first : α) (rest : List α) : α :=
  rest.foldl (fun smallest element => if less element smallest then element else smallest) first

def selectAdaptationSet (period : Period) (criteria : TrackCriteria) : Option AdaptationSet :=
  let all := period.adaptationSets.filter fun set =>
    match set.representations with
    | [] => false
    | representation :: _ => criteria.matchesMimeType representation.format.mimeType
  match all with
  | [] => none
  | first :: rest => some (minElement (AdaptationSetComparator.less criteria) first rest)

structure PeriodHolder where
  localIndex : Int
  startTime : Int
  representationHolders : List (String × RepresentationHolder) := []
  representationIndices : List Nat := []
  indexIsUnbounded : Bool := true
  indexIsExplicit : Bool := false
  availableStartTime : Int := 0
  availableEndTime : Int := 0

namespace PeriodHolder

def getRepresentationHolder (holder : PeriodHolder) (id : String) : Option RepresentationHolder :=
  holder.representationHolders.lookup id

def getAvailableEndTime (holder : PeriodHolder) : Option Int :=
  if holder.indexIsUnbounded then none else some holder.availableEndTime

def formats (holder : PeriodHolder) : List Format :=
  holder.representationHolders.map fun entry => entry.2.representation.format

-- In microseconds; a period of unknown duration has none.
def periodDuration (manifest : MediaPresentationDescription) (index : Nat) : Int :=
  let durationMs := manifest.getPeriodDuration index
  if durationMs = -1 then 0 else durationMs * 1000

def updateRepresentationIndependentProperties (holder : PeriodHolder) (periodDuration : Int)
    (segmentIndex : Option DashSegmentIndex) : PeriodHolder :=
  match segmentIndex with
  | some segmentIndex =>
    let firstSegmentNum := segmentIndex.getFirstSegmentNum
    let lastSegmentNum := segmentIndex.getLastSegmentNum periodDuration
    let holder :=
      { holder with
        indexIsUnbounded := lastSegmentNum = kIndexUnbounded
        indexIsExplicit := segmentIndex.isExplicit
        availableStartTime := holder.startTime + segmentIndex.getTimeUs firstSegmentNum }
    if holder.indexIsUnbounded then holder
    else
      { holder with
        availableEndTime := holder.startTime + segmentIndex.getTimeUs lastSegmentNum +
          segmentIndex.getDurationUs lastSegmentNum periodDuration }
  | none =>
    { holder with
      indexIsUnbounded := false
      indexIsExplicit := true
      availableStartTime := holder.startTime
      availableEndTime := holder.startTime + periodDuration }

-- std::map::insert: the entries are ordered by id, and one that is there is kept.
def insert (id : String) (holder : RepresentationHolder) :
    List (String × RepresentationHolder) → List (String × RepresentationHolder)
  | [] => [(id, holder)]
  | entry :: rest =>
    if entry.1 = id then entry :: rest
    else if id < entry.1 then (id, holder) :: entry :: rest
    else entry :: insert id holder rest

def store (holders : List (String × RepresentationHolder)) (id : String)
    (holder : RepresentationHolder) : List (String × RepresentationHolder) :=
  holders.map fun entry => if entry.1 = id then (id, holder) else entry

def holdersOf (startTime duration : Int) (representations : List Representation) :
    List (String × RepresentationHolder) :=
  representations.foldl (fun holders representation =>
    insert representation.format.id (.create startTime duration representation) holders) []

def create (localIndex : Int) (manifest : MediaPresentationDescription) (manifestIndex : Nat)
    (criteria : TrackCriteria) : Except Fault PeriodHolder := do
  let period ← manifest.getPeriod manifestIndex
  let duration := periodDuration manifest manifestIndex
  let holder : PeriodHolder := { localIndex, startTime := (period.startMs : Int) * 1000 }
  match selectAdaptationSet period criteria with
  | none => return holder.updateRepresentationIndependentProperties duration none
  | some set =>
    let holder :=
      { holder with
        representationHolders := holdersOf holder.startTime duration set.representations
        representationIndices := List.range set.representations.length }
    match set.representations with
    | [] => .error .outOfBounds
    | first :: _ =>
      return holder.updateRepresentationIndependentProperties duration first.index

/-- The loop over the indices that the period was created with. -/
def updateRepresentations (set : AdaptationSet) (duration : Int) :
    List Nat → PeriodHolder → Except Fault (Bool × PeriodHolder)
  | [], holder => .ok (true, holder)
  | index :: indices, holder =>
    match set.representations[index]? with
    | none => .error .outOfBounds
    | some representation =>
      match holder.representationHolders.lookup representation.format.id with
      | none => .error .outOfBounds
      | some representationHolder => do
        let (updated, representationHolder) ←
          representationHolder.updateRepresentation duration representation
        let holder :=
          { holder with
            representationHolders :=
              store holder.representationHolders representation.format.id representationHolder }
        if updated then updateRepresentations set duration indices holder
        else return (false, holder)

def updatePeriod (holder : PeriodHolder) (manifest : MediaPresentationDescription)
    (manifestIndex : Nat) (criteria : TrackCriteria) : Except Fault (Bool × PeriodHolder) := do
  let period ← manifest.getPeriod manifestIndex
  let duration := periodDuration manifest manifestIndex
  match selectAdaptationSet period criteria with
  | none => return (false, holder)
  | some set =>
    let (updated, holder) ← updateRepresentations set duration holder.representationIndices holder
    if !updated then return (false, holder)
    else
      -- the first of the indices, which a period without representations does not have
      match holder.representationIndices with
      | [] => .error .outOfBounds
      | first :: _ =>
        match set.representations[first]? with
        | none => .error .outOfBounds
        | some representation =>
          return (true, holder.updateRepresentationIndependentProperties duration
            representation.index)

def outline (holder : PeriodHolder) : Int × Int × List String :=
  (holder.localIndex, holder.startTime, holder.representationHolders.map Prod.fst)

@[simp]
theorem map_fst_store (holders : List (String × RepresentationHolder)) (id : String)
    (holder : RepresentationHolder) :
    (store holders id holder).map Prod.fst = holders.map Prod.fst := by
  rw [store, List.map_map]
  apply List.map_congr_left
  intro entry member
  by_cases same : entry.1 = id
  · simp [same]
  · simp [same]

theorem updateRepresentationIndependentProperties_window (holder : PeriodHolder) (duration : Int)
    (index : Option DashSegmentIndex) :
    ∃ unbounded start stop, holder.updateRepresentationIndependentProperties duration index =
      { holder with
        indexIsUnbounded := unbounded
        indexIsExplicit := (index.map DashSegmentIndex.isExplicit).getD true
        availableStartTime := start
        availableEndTime := stop } := by
  unfold updateRepresentationIndependentProperties
  cases index with
  | none => exact ⟨_, _, _, rfl⟩
  | some index =>
    dsimp only
    split
    · exact ⟨_, _, _, rfl⟩
    · exact ⟨_, _, _, rfl⟩

@[simp]
theorem outline_updateRepresentationIndependentProperties (holder : PeriodHolder) (duration : Int)
    (index : Option DashSegmentIndex) :
    (holder.updateRepresentationIndependentProperties duration index).outline = holder.outline := by
  obtain ⟨_, _, _, same⟩ := updateRepresentationIndependentProperties_window holder duration index
  rw [same]
  rfl

theorem updateRepresentationIndependentProperties_holders (holder : PeriodHolder) (duration : Int)
    (index : Option DashSegmentIndex) :
    (holder.updateRepresentationIndependentProperties duration index).representationHolders =
      holder.representationHolders := by
  obtain ⟨_, _, _, same⟩ := updateRepresentationIndependentProperties_window holder duration index
  rw [same]

theorem updateRepresentations_cons {set : AdaptationSet} {duration : Int} {index : Nat}
    {indices : List Nat} {holder after : PeriodHolder} {updated : Bool}
    (update : updateRepresentations set duration (index :: indices) holder = .ok (updated, after)) :
    ∃ representation old new done, set.representations[index]? = some representation ∧
      holder.representationHolders.lookup representation.format.id = some old ∧
      old.updateRepresentation duration representation = .ok (done, new) ∧
      (done = true ∧ updateRepresentations set duration indices
          { holder with
            representationHolders :=
              store holder.representationHolders representation.format.id new } =
            .ok (updated, after) ∨
        updated = false ∧ after =
          { holder with
            representationHolders :=
              store holder.representationHolders representation.format.id new }) := by
  rw [updateRepresentations] at update
  split at update
  · cases update
  · rename_i representation listed
    split at update
    · cases update
    · rename_i old found
      obtain ⟨⟨done, new⟩, one, update⟩ := bind_ok update
      refine ⟨representation, old, new, done, listed, found, one, ?_⟩
      cases done with
      | true => exact .inl ⟨rfl, update⟩
      | false =>
        cases update
        exact .inr ⟨rfl, rfl⟩

theorem updateRepresentations_preserves (property : PeriodHolder → Prop) {set : AdaptationSet}
    {duration : Int} {indices : List Nat} {holder after : PeriodHolder} {updated : Bool}
    (step : ∀ index ∈ indices, ∀ (holder : PeriodHolder) (representation : Representation)
      (old new : RepresentationHolder) (done : Bool),
      set.representations[index]? = some representation →
      holder.representationHolders.lookup representation.format.id = some old →
      old.updateRepresentation duration representation = .ok (done, new) → property holder →
      property { holder with
        representationHolders := store holder.representationHolders representation.format.id new })
    (initial : property holder)
    (update : updateRepresentations set duration indices holder = .ok (updated, after)) :
    property after := by
  induction indices generalizing holder with
  | nil =>
    cases update
    exact initial
  | cons index indices ih =>
    obtain ⟨representation, old, new, done, listed, found, one, rest⟩ :=
      updateRepresentations_cons update
    have stored := step index List.mem_cons_self holder representation old new done listed found one
      initial
    obtain ⟨-, onward⟩ | ⟨-, rfl⟩ := rest
    · exact ih (fun other member => step other (List.mem_cons_of_mem _ member)) stored onward
    · exact stored

theorem updatePeriod_cases {holder after : PeriodHolder} {manifest : MediaPresentationDescription}
    {index : Nat} {criteria : TrackCriteria} {updated : Bool}
    (update : holder.updatePeriod manifest index criteria = .ok (updated, after)) :
    ∃ period, manifest.periods[index]? = some period ∧
      ((selectAdaptationSet period criteria = none ∧ updated = false ∧ after = holder) ∨
        ∃ set between, selectAdaptationSet period criteria = some set ∧
          updateRepresentations set (periodDuration manifest index) holder.representationIndices
            holder = .ok (updated, between) ∧
          ((updated = false ∧ after = between) ∨
            updated = true ∧ ∃ first rest representation,
              between.representationIndices = first :: rest ∧
              set.representations[first]? = some representation ∧
              after = between.updateRepresentationIndependentProperties
                (periodDuration manifest index) representation.index)) := by
  obtain ⟨period, found, update⟩ := bind_ok update
  refine ⟨period, MediaPresentationDescription.getPeriod_ok.mp found, ?_⟩
  dsimp only at update
  split at update
  · rename_i nothing
    cases update
    exact .inl ⟨nothing, rfl, rfl⟩
  · rename_i set selected
    obtain ⟨⟨done, between⟩, representations, update⟩ := bind_ok update
    refine .inr ⟨set, between, selected, ?_⟩
    cases done with
    | false =>
      cases update
      exact ⟨representations, .inl ⟨rfl, rfl⟩⟩
    | true =>
      simp only [Bool.not_true, Bool.false_eq_true, if_false] at update
      split at update
      · cases update
      · rename_i first rest indices
        split at update
        · cases update
        · rename_i representation isFirst
          cases update
          exact ⟨representations, .inr ⟨rfl, first, rest, representation, indices, isFirst, rfl⟩⟩

theorem updatePeriod_preserves (property : PeriodHolder → Prop) {holder after : PeriodHolder}
    {manifest : MediaPresentationDescription} {index : Nat} {criteria : TrackCriteria}
    {updated : Bool}
    (step : ∀ (holder : PeriodHolder) (representation : Representation)
      (old new : RepresentationHolder) (duration : Int) (done : Bool),
      holder.representationHolders.lookup representation.format.id = some old →
      old.updateRepresentation duration representation = .ok (done, new) → property holder →
      property { holder with
        representationHolders := store holder.representationHolders representation.format.id new })
    (properties : ∀ (holder : PeriodHolder) duration index, property holder →
      property (holder.updateRepresentationIndependentProperties duration index))
    (initial : property holder)
    (update : holder.updatePeriod manifest index criteria = .ok (updated, after)) :
    property after := by
  obtain ⟨period, -, ⟨-, -, rfl⟩ | ⟨set, between, -, representations, result⟩⟩ :=
    updatePeriod_cases update
  · exact initial
  · have kept : property between :=
      updateRepresentations_preserves property (fun _ _ holder representation old new done _ =>
        step holder representation old new _ done) initial representations
    obtain ⟨-, rfl⟩ | ⟨-, first, rest, representation, -, -, rfl⟩ := result
    · exact kept
    · exact properties between _ _ kept

theorem updatePeriod_outline {holder after : PeriodHolder} {manifest : MediaPresentationDescription}
    {index : Nat} {criteria : TrackCriteria} {updated : Bool}
    (update : holder.updatePeriod manifest index criteria = .ok (updated, after)) :
    after.outline = holder.outline := by
  refine updatePeriod_preserves (fun other => other.outline = holder.outline) ?_ ?_ rfl update
  · intro other representation old new duration done _ _ kept
    rw [← kept]
    simp [outline]
  · intro other duration index kept
    rw [← kept]
    exact outline_updateRepresentationIndependentProperties _ _ _

theorem create_eq {manifest : MediaPresentationDescription} {index : Nat} {criteria : TrackCriteria}
    {period : Period} {set : AdaptationSet} {first : Representation} {rest : List Representation}
    (localIndex : Int) (listed : manifest.periods[index]? = some period)
    (selected : selectAdaptationSet period criteria = some set)
    (representations : set.representations = first :: rest) :
    create localIndex manifest index criteria =
      .ok (updateRepresentationIndependentProperties
        { localIndex
          startTime := (period.startMs : Int) * 1000
          representationHolders := holdersOf ((period.startMs : Int) * 1000)
            (periodDuration manifest index) set.representations
          representationIndices := List.range set.representations.length }
        (periodDuration manifest index) first.index) := by
  simp only [create, MediaPresentationDescription.getPeriod, listed, bind, Except.bind, selected,
    representations]
  rfl

theorem create_cases {localIndex : Int} {manifest : MediaPresentationDescription} {index : Nat}
    {criteria : TrackCriteria} {holder : PeriodHolder}
    (created : create localIndex manifest index criteria = .ok holder) :
    ∃ period, manifest.periods[index]? = some period ∧
      ((selectAdaptationSet period criteria = none ∧
          holder = updateRepresentationIndependentProperties
            { localIndex, startTime := (period.startMs : Int) * 1000 }
            (periodDuration manifest index) none) ∨
        ∃ set first rest, selectAdaptationSet period criteria = some set ∧
          set.representations = first :: rest ∧
          holder = updateRepresentationIndependentProperties
            { localIndex
              startTime := (period.startMs : Int) * 1000
              representationHolders := holdersOf ((period.startMs : Int) * 1000)
                (periodDuration manifest index) set.representations
              representationIndices := List.range set.representations.length }
            (periodDuration manifest index) first.index) := by
  obtain ⟨period, found, created⟩ := bind_ok created
  refine ⟨period, MediaPresentationDescription.getPeriod_ok.mp found, ?_⟩
  dsimp only at created
  split at created
  · rename_i nothing
    cases created
    exact .inl ⟨nothing, rfl⟩
  · rename_i set selected
    split at created
    · cases created
    · rename_i first rest representations
      cases created
      exact .inr ⟨set, first, rest, selected, representations, rfl⟩

theorem create_startTime {localIndex : Int} {manifest : MediaPresentationDescription} {index : Nat}
    {criteria : TrackCriteria} {holder : PeriodHolder}
    (created : create localIndex manifest index criteria = .ok holder) :
    ∃ period, manifest.periods[index]? = some period ∧ holder.localIndex = localIndex ∧
      holder.startTime = (period.startMs : Int) * 1000 := by
  have kept := outline_updateRepresentationIndependentProperties
  simp only [outline, Prod.mk.injEq] at kept
  obtain ⟨period, listed, ⟨-, rfl⟩ | ⟨set, first, rest, -, -, rfl⟩⟩ := create_cases created
  · exact ⟨period, listed, (kept _ _ _).1, (kept _ _ _).2.1⟩
  · exact ⟨period, listed, (kept _ _ _).1, (kept _ _ _).2.1⟩

theorem lookup_isSome (holders : List (String × RepresentationHolder)) (id : String) :
    (holders.lookup id).isSome ↔ id ∈ holders.map Prod.fst := by
  rw [List.lookup_isSome_iff, List.mem_map]
  simp only [beq_iff_eq, eq_comm (a := id)]

theorem lookup_store (holders : List (String × RepresentationHolder)) (id key : String)
    (holder : RepresentationHolder) :
    (store holders id holder).lookup key =
      if key = id then (holders.lookup id).map fun _ => holder else holders.lookup key := by
  induction holders with
  | nil => simp [store]
  | cons entry rest ih =>
    obtain ⟨name, value⟩ := entry
    rw [store] at ih ⊢
    rw [List.map_cons]
    by_cases isId : name = id
    · subst name
      by_cases isKey : key = id
      · simp [isKey]
      · have differs : (key == id) = false := by simpa using isKey
        simpa [List.lookup_cons, differs, isKey] using ih
    · have differs : (id == name) = false := by simpa using Ne.symm isId
      by_cases isKey : key = id
      · subst key
        simpa [List.lookup_cons, isId, differs] using ih
      · simp only [isId, isKey, if_false, List.lookup_cons] at ih ⊢
        rw [ih]

def Keyed (holder : PeriodHolder) : Prop :=
  ∀ entry ∈ holder.representationHolders, entry.2.representation.format.id = entry.1

theorem getRepresentationHolder_of_mem_formats {holder : PeriodHolder} {format : Format}
    (keyed : holder.Keyed) (member : format ∈ holder.formats) :
    (holder.getRepresentationHolder format.id).isSome := by
  obtain ⟨entry, held, rfl⟩ := List.mem_map.mp member
  rw [getRepresentationHolder, lookup_isSome, keyed entry held]
  exact List.mem_map_of_mem held

theorem mem_of_getRepresentationHolder {holder : PeriodHolder} {id : String}
    {representationHolder : RepresentationHolder}
    (found : holder.getRepresentationHolder id = some representationHolder) :
    (id, representationHolder) ∈ holder.representationHolders := by
  obtain ⟨before, behind, entries, -⟩ := List.lookup_eq_some_iff.mp found
  rw [entries]
  exact List.mem_append_right _ List.mem_cons_self

theorem getRepresentationHolder_id {holder : PeriodHolder} {id : String}
    {representationHolder : RepresentationHolder} (keyed : holder.Keyed)
    (found : holder.getRepresentationHolder id = some representationHolder) :
    representationHolder.representation.format.id = id :=
  keyed _ (mem_of_getRepresentationHolder found)

theorem store_keyed {holders : List (String × RepresentationHolder)} {id : String}
    {holder : RepresentationHolder} (itself : holder.representation.format.id = id)
    (keyed : ∀ entry ∈ holders, entry.2.representation.format.id = entry.1) :
    ∀ entry ∈ store holders id holder, entry.2.representation.format.id = entry.1 := by
  intro entry member
  obtain ⟨old, held, rfl⟩ := List.mem_map.mp member
  by_cases same : old.1 = id
  · simpa [same] using itself
  · simpa [same] using keyed old held

theorem updateRepresentationIndependentProperties_keyed {holder : PeriodHolder}
    (keyed : holder.Keyed) (duration : Int) (index : Option DashSegmentIndex) :
    (holder.updateRepresentationIndependentProperties duration index).Keyed := by
  unfold updateRepresentationIndependentProperties
  cases index with
  | none => exact keyed
  | some index =>
    dsimp only
    split
    · exact keyed
    · exact keyed

theorem updatePeriod_keyed {holder after : PeriodHolder} {manifest : MediaPresentationDescription}
    {index : Nat} {criteria : TrackCriteria} {updated : Bool} (keyed : holder.Keyed)
    (update : holder.updatePeriod manifest index criteria = .ok (updated, after)) :
    after.Keyed := by
  refine updatePeriod_preserves Keyed ?_ ?_ keyed update
  · intro other representation old new duration done _ one kept
    have itself := RepresentationHolder.updateRepresentation_representation one
    exact store_keyed (congrArg (fun representation => representation.format.id) itself) kept
  · intro other duration index kept
    exact updateRepresentationIndependentProperties_keyed kept _ _

theorem insert_ne_nil (id : String) (holder : RepresentationHolder)
    (holders : List (String × RepresentationHolder)) : insert id holder holders ≠ [] := by
  cases holders with
  | nil => simp [insert]
  | cons entry rest =>
    rw [insert]
    split
    · simp
    · split
      · simp
      · simp

theorem mem_insert {id : String} {holder : RepresentationHolder}
    {holders : List (String × RepresentationHolder)} {entry : String × RepresentationHolder}
    (member : entry ∈ insert id holder holders) : entry = (id, holder) ∨ entry ∈ holders := by
  induction holders with
  | nil => simpa [insert] using member
  | cons first rest ih =>
    rw [insert] at member
    split at member
    · exact .inr member
    · split at member
      · exact List.mem_cons.mp member
      · rcases List.mem_cons.mp member with isFirst | member
        · exact .inr (isFirst ▸ List.mem_cons_self)
        · exact (ih member).imp_right (List.mem_cons_of_mem _)

theorem mem_holdersOf {startTime duration : Int} {representations : List Representation}
    {entry : String × RepresentationHolder}
    (member : entry ∈ holdersOf startTime duration representations) :
    ∃ representation ∈ representations,
      entry = (representation.format.id, .create startTime duration representation) := by
  revert entry
  unfold holdersOf
  apply List.foldlRecOn (motive := fun holders => ∀ {entry : String × RepresentationHolder},
    entry ∈ holders → ∃ representation ∈ representations,
      entry = (representation.format.id, .create startTime duration representation))
  · simp
  · intro holders known representation listed entry member
    rcases mem_insert member with isNew | old
    · exact ⟨representation, listed, isNew⟩
    · exact known old

theorem holdersOf_ne_nil {startTime duration : Int} {representations : List Representation}
    (some : representations ≠ []) : holdersOf startTime duration representations ≠ [] := by
  cases representations with
  | nil => exact absurd rfl some
  | cons first rest =>
    unfold holdersOf
    rw [List.foldl_cons]
    apply List.foldlRecOn (motive := fun holders => holders ≠ [])
    · exact insert_ne_nil _ _ _
    · intro holders _ representation _
      exact insert_ne_nil _ _ _

theorem create_keyed {localIndex : Int} {manifest : MediaPresentationDescription} {index : Nat}
    {criteria : TrackCriteria} {holder : PeriodHolder}
    (created : create localIndex manifest index criteria = .ok holder) : holder.Keyed := by
  obtain ⟨period, -, ⟨-, rfl⟩ | ⟨set, first, rest, -, -, rfl⟩⟩ := create_cases created
  · exact updateRepresentationIndependentProperties_keyed (by simp [Keyed]) _ _
  · apply updateRepresentationIndependentProperties_keyed
    intro entry member
    obtain ⟨representation, _, rfl⟩ := mem_holdersOf member
    rfl

end PeriodHolder

end NDash.Dash
