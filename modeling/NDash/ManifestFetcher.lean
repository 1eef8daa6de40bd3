import Mathlib.Data.List.Induction
import Mathlib.Data.List.TakeWhile
import NDash.Upstream.DataSpec
import NDash.Upstream.LoaderThread

set_option autoImplicit false

namespace NDash

open Upstream Machine

def kBufSize : Nat := 8192

structure ManifestLoadable where
  loadBuffer : Bytes := List.replicate (kBufSize + 1) 0
  manifestUri : String
  manifestXml : Bytes := []
deriving DecidableEq, Repr

def cString (buffer : Bytes) : Bytes := buffer.takeWhile (· ≠ 0)

namespace ManifestLoadable

-- Read answers each request of kBufSize - 1 bytes with the next result; it has to end them.
def readLoop (loadable : ManifestLoadable) : List ReadResult → Except Fault ManifestLoadable
  | [] => .error .diverges
  | .bytes data :: results =>
    if data.isEmpty then readLoop loadable results
    else if loadable.loadBuffer.length ≤ data.length then .error .outOfBounds
    else
      let buffer := overwrite (overwrite loadable.loadBuffer 0 data) data.length [0]
      readLoop { loadable with
        loadBuffer := buffer
        manifestXml := loadable.manifestXml ++ cString buffer } results
  | .endOfInput :: _ => .ok loadable
  | .ioError :: _ => .ok loadable

def load (loadable : ManifestLoadable) (opens : Bool) (results : List ReadResult) :
    Except Fault (Bool × ManifestLoadable) :=
  if opens then do
    let loadable ← loadable.readLoop results
    .ok (true, loadable)
  else .ok (false, loadable)

theorem cString_append_zero (data rest : Bytes) : cString (data ++ 0 :: rest) = cString data := by
  induction data with
  | nil => rfl
  | cons byte data ih =>
    unfold cString at ih ⊢
    rw [List.cons_append, List.takeWhile_cons, List.takeWhile_cons, ih]

-- What is behind the terminating zero, of an earlier read, is not appended again.
theorem cString_overwrite (buffer data : Bytes) :
    cString (overwrite (overwrite buffer 0 data) data.length [0]) = cString data := by
  have written : (overwrite buffer 0 data).take data.length = data := by
    simp [overwrite]
  rw [overwrite, written, List.append_assoc, List.singleton_append, cString_append_zero]

theorem cString_eq_self_iff (data : Bytes) : cString data = data ↔ 0 ∉ data := by
  rw [cString, List.takeWhile_eq_self_iff]
  simp only [ne_eq, decide_not, Bool.not_eq_eq_eq_not, Bool.not_true, decide_eq_false_iff_not]
  exact ⟨fun every member => every 0 member rfl, fun absent byte member zero => absent (zero ▸ member)⟩

theorem length_cString_le (data : Bytes) : (cString data).length ≤ data.length :=
  (List.takeWhile_sublist _).length_le

theorem readLoop_append {loadable : ManifestLoadable} {chunks : List Bytes}
    (requested : ∀ chunk ∈ chunks, chunk.length < loadable.loadBuffer.length)
    (results : List ReadResult) :
    ∃ loadBuffer, loadable.readLoop (chunks.map .bytes ++ results) =
      { loadable with
        loadBuffer
        manifestXml := loadable.manifestXml ++ chunks.flatMap cString }.readLoop results := by
  induction chunks generalizing loadable with
  | nil => exact ⟨loadable.loadBuffer, by simp⟩
  | cons chunk chunks ih =>
    have room := requested chunk (by simp)
    rw [List.map_cons, List.cons_append, readLoop, if_neg (Nat.not_le.mpr room)]
    split
    · next nothing =>
      obtain rfl := List.isEmpty_iff.mp nothing
      exact ih fun chunk member => requested chunk (by simp [member])
    · have kept : (overwrite (overwrite loadable.loadBuffer 0 chunk) chunk.length [0]).length =
          loadable.loadBuffer.length := by
        have first := length_overwrite (show 0 + chunk.length ≤ loadable.loadBuffer.length by omega)
        rw [length_overwrite (by rw [first, List.length_singleton]; omega), first]
      dsimp only
      rw [cString_overwrite, List.flatMap_cons, ← List.append_assoc]
      refine ih ?_
      intro other member
      rw [kept]
      exact requested other (by simp [member])

theorem length_flatMap_cString_le (chunks : List Bytes) :
    (chunks.flatMap cString).length ≤ chunks.flatten.length := by
  induction chunks with
  | nil => exact Nat.le_refl _
  | cons chunk chunks ih =>
    have := length_cString_le chunk
    rw [List.flatMap_cons, List.flatten_cons, List.length_append, List.length_append]
    omega

theorem flatMap_cString_eq_iff (chunks : List Bytes) :
    chunks.flatMap cString = chunks.flatten ↔ ∀ chunk ∈ chunks, 0 ∉ chunk := by
  induction chunks with
  | nil => simp
  | cons chunk chunks ih =>
    rw [List.flatMap_cons, List.flatten_cons, List.forall_mem_cons, ← ih, ← cString_eq_self_iff]
    constructor
    · intro same
      have total := congrArg List.length same
      rw [List.length_append, List.length_append] at total
      have here := length_cString_le chunk
      have there := length_flatMap_cString_le chunks
      exact List.append_inj same (by omega)
    · rintro ⟨here, there⟩
      rw [here, there]

theorem load_eq (manifestUri : String) {chunks : List Bytes}
    (requested : ∀ chunk ∈ chunks, chunk.length ≤ kBufSize - 1) (fails : Bool) :
    ∃ loadBuffer, ({ manifestUri } : ManifestLoadable).load true
        (chunks.map .bytes ++ [if fails then .ioError else .endOfInput]) =
      .ok (true, { manifestUri, loadBuffer, manifestXml := chunks.flatMap cString }) := by
  have room : ∀ chunk ∈ chunks,
      chunk.length < ({ manifestUri } : ManifestLoadable).loadBuffer.length := by
    intro chunk member
    have := requested chunk member
    simp only [List.length_replicate]
    omega
  obtain ⟨loadBuffer, read⟩ := readLoop_append room [if fails then .ioError else .endOfInput]
  refine ⟨loadBuffer, ?_⟩
  rw [load, if_pos rfl, read]
  cases fails <;> rfl

/-- Load reports what it read, and all of it, where the source ends without an error and delivers no
byte that is 0. -/
theorem load_complete_iff (manifestUri : String) {chunks : List Bytes}
    (requested : ∀ chunk ∈ chunks, chunk.length ≤ kBufSize - 1) (fails : Bool) :
    ∃ result loadable, ({ manifestUri } : ManifestLoadable).load true
        (chunks.map .bytes ++ [if fails then .ioError else .endOfInput]) = .ok (result, loadable) ∧
      (((result = true ↔ fails = false) ∧
          (result = true → loadable.manifestXml = chunks.flatten)) ↔
        fails = false ∧ ∀ chunk ∈ chunks, 0 ∉ chunk) := by
  obtain ⟨loadBuffer, loaded⟩ := load_eq manifestUri requested fails
  refine ⟨_, _, loaded, ?_⟩
  dsimp only
  rw [flatMap_cString_eq_iff, eq_self_iff_true, true_iff, true_imp_iff]

theorem load_complete_iff_split :
    ∃ loadable, ({ manifestUri := "live.mpd" } : ManifestLoadable).load true
        [.bytes [60, 77], .bytes [80, 68, 47, 62], .endOfInput] = .ok (true, loadable) ∧
      loadable.manifestXml = [60, 77, 80, 68, 47, 62] := by
  have requested : ∀ chunk ∈ ([[60, 77], [80, 68, 47, 62]] : List Bytes),
      chunk.length ≤ kBufSize - 1 := by decide
  obtain ⟨result, loadable, loaded, complete⟩ := load_complete_iff "live.mpd" requested false
  obtain ⟨succeeds, whole⟩ := complete.mpr ⟨rfl, by decide⟩
  obtain rfl := succeeds.mpr rfl
  exact ⟨loadable, loaded, whole rfl⟩

-- The connection breaks within the document, or the document has a byte that is 0.
theorem load_incomplete :
    (¬ ∃ result loadable, ({ manifestUri := "live.mpd" } : ManifestLoadable).load true
        [.bytes [60, 77], .ioError] = .ok (result, loadable) ∧
      (result = true ↔ ReadResult.ioError = .endOfInput)) ∧
    ¬ ∃ loadable, ({ manifestUri := "live.mpd" } : ManifestLoadable).load true
        [.bytes [60, 0, 62], .endOfInput] = .ok (true, loadable) ∧
      loadable.manifestXml = [60, 0, 62] := by
  constructor
  · rintro ⟨result, loadable, loaded, reported⟩
    obtain ⟨loadBuffer, fails⟩ := load_eq "live.mpd"
      (show ∀ chunk ∈ ([[60, 77]] : List Bytes), chunk.length ≤ kBufSize - 1 by decide) true
    cases loaded.symm.trans fails
    exact absurd (reported.mp rfl) nofun
  · rintro ⟨loadable, loaded, whole⟩
    obtain ⟨loadBuffer, cut⟩ := load_eq "live.mpd"
      (show ∀ chunk ∈ ([[60, 0, 62]] : List Bytes), chunk.length ≤ kBufSize - 1 by decide) false
    cases loaded.symm.trans cut
    have cut : ([60] : Bytes) = [60, 0, 62] := whole
    exact absurd cut (by decide)

end ManifestLoadable

inductive ManifestFetchError
  | none
  | unknownError
  | networkError
  | parsingError
deriving DecidableEq, Repr

inductive ManifestEvent
  | onManifestRefreshStarted
  | onManifestRefreshed
  | onManifestError (error : ManifestFetchError)
deriving DecidableEq, Repr

/-- The members, and the loadable its loader is busy with; times are in microseconds. Loadables are
told apart by the order of their creation. -/
structure ManifestFetcher (Manifest : Type) where
  loading : Option Nat := none
  manifestUri : String
  hasListener : Bool := false
  loadError : ManifestFetchError := .none
  loadErrorCount : Int := 0
  loadErrorTimestamp : Int := 0
  manifestLoadStartTimestamp : Int := 0
  manifestLoadCompleteTimestamp : Int := 0
  created : Nat := 0
  currentLoadable : Option (Nat × ManifestLoadable) := none
  currentLoadStartTimestamp : Int := 0
  manifest : Option Manifest := none
  enabledCount : Int := 0
  posted : List ManifestEvent := []

namespace ManifestFetcher

variable {Manifest : Type} (parse : String → Bytes → Option Manifest)

-- We allow fast retry after the first error but implement increasing back-off thereafter.
def getRetryDelayMillis (errorCount : Int) : Int := min ((errorCount - 1) * 1000) 5000

def notify (fetcher : ManifestFetcher Manifest) (event : ManifestEvent) : ManifestFetcher Manifest :=
  { fetcher with
    posted := if fetcher.hasListener then fetcher.posted ++ [event] else fetcher.posted }

def updateManifestUri (fetcher : ManifestFetcher Manifest) (manifestUri : String) :
    ManifestFetcher Manifest :=
  { fetcher with manifestUri }

-- `starts` is what StartLoading returns: whether there is a thread to load on.
def requestRefresh (fetcher : ManifestFetcher Manifest) (now : Int) (starts : Bool) :
    Bool × ManifestFetcher Manifest :=
  if fetcher.loadError ≠ .none ∧
      now < fetcher.loadErrorTimestamp + 1000 * getRetryDelayMillis fetcher.loadErrorCount then
    (false, fetcher)
  else if fetcher.loading.isSome then (true, fetcher)
  else
    (true, { fetcher with
      created := fetcher.created + 1
      currentLoadable := some (fetcher.created, { manifestUri := fetcher.manifestUri })
      currentLoadStartTimestamp := now
      loading := if starts then some fetcher.created else none
    }.notify .onManifestRefreshStarted)

def processLoadCompleted (fetcher : ManifestFetcher Manifest) (loadable : ManifestLoadable)
    (now : Int) : ManifestFetcher Manifest :=
  let fetcher := { fetcher with manifest := parse loadable.manifestUri loadable.manifestXml }
  if fetcher.manifest.isSome then
    { fetcher with
      manifestLoadStartTimestamp := fetcher.currentLoadStartTimestamp
      manifestLoadCompleteTimestamp := now
      loadError := .none
      loadErrorCount := 0 }.notify .onManifestRefreshed
  else
    { fetcher with
      loadErrorCount := fetcher.loadErrorCount + 1
      loadErrorTimestamp := now
      loadError := .parsingError }.notify (.onManifestError .parsingError)

def processLoadError (fetcher : ManifestFetcher Manifest) (now : Int) : ManifestFetcher Manifest :=
  { fetcher with
    loadErrorCount := fetcher.loadErrorCount + 1
    loadErrorTimestamp := now
    loadError := .unknownError }.notify (.onManifestError .unknownError)

-- A loadable that is not the current one is a stale event.
def loadComplete (fetcher : ManifestFetcher Manifest) (loadable : Nat) (outcome : LoaderOutcome)
    (now : Int) : ManifestFetcher Manifest :=
  match fetcher.currentLoadable with
  | none => fetcher
  | some (current, currentLoadable) =>
    if current ≠ loadable then fetcher
    else
      let fetcher :=
        match outcome with
        | .loadComplete => fetcher.processLoadCompleted parse currentLoadable now
        | .loadError => fetcher.processLoadError now
        | .loadCanceled => fetcher
      { fetcher with currentLoadable := none }

def enable (fetcher : ManifestFetcher Manifest) : ManifestFetcher Manifest :=
  let fetcher := if fetcher.enabledCount = 0
    then { fetcher with loadError := .none, loadErrorCount := 0 } else fetcher
  { fetcher with enabledCount := fetcher.enabledCount + 1 }

-- CancelLoading asks the loadable, whose CancelLoad does nothing.
def disable (fetcher : ManifestFetcher Manifest) : ManifestFetcher Manifest :=
  { fetcher with enabledCount := fetcher.enabledCount - 1 }

end ManifestFetcher

structure Refresh where
  start : Int
  complete : Int
  body : Option (String × Bytes)
deriving DecidableEq, Repr

/-- A fetcher with the outcome of a load that is not reported yet, when the refresh under way was
requested, and the refreshes that have ended. -/
structure FetcherWorld (Manifest : Type) where
  fetcher : ManifestFetcher Manifest
  outcome : Option LoaderOutcome := none
  requested : Int := 0
  log : List Refresh := []

inductive FetcherOp
  | requestRefresh (now : Int) (starts : Bool)
  | updateManifestUri (manifestUri : String)
  | enable
  | disable
  | load (opens : Bool) (results : List ReadResult)
  | doneLoad (now : Int)
deriving DecidableEq, Repr

namespace FetcherWorld

variable {Manifest : Type} (parse : String → Bytes → Option Manifest)

def load (world : FetcherWorld Manifest) (opens : Bool) (results : List ReadResult) :
    Option (FetcherWorld Manifest) :=
  match world.fetcher.loading, world.fetcher.currentLoadable, world.outcome with
  | some loading, some (current, loadable), none =>
    if current ≠ loading then none
    else
      match loadable.load opens results with
      | .error _ => none
      | .ok (result, loadable) =>
        some { world with
          fetcher := { world.fetcher with currentLoadable := some (current, loadable) }
          outcome := some (if result then .loadComplete else .loadError) }
  | _, _, _ => none

def loaded (world : FetcherWorld Manifest) (outcome : LoaderOutcome) : Option (String × Bytes) :=
  match outcome, world.fetcher.currentLoadable with
  | .loadComplete, some (_, loadable) => some (loadable.manifestUri, loadable.manifestXml)
  | _, _ => none

-- DoneLoad has the loader idle before it runs the callback, which is LoadComplete.
def doneLoad (world : FetcherWorld Manifest) (now : Int) : Option (FetcherWorld Manifest) :=
  match world.fetcher.loading, world.outcome with
  | some loading, some outcome =>
    some { world with
      fetcher := { world.fetcher with loading := none }.loadComplete parse loading outcome now
      outcome := none
      log := world.log ++ [⟨world.requested, now, world.loaded outcome⟩] }
  | _, _ => none

def apply (world : FetcherWorld Manifest) : FetcherOp → Option (FetcherWorld Manifest)
  | .requestRefresh now starts =>
    let fetcher := (world.fetcher.requestRefresh now starts).2
    some { world with
      fetcher
      requested :=
        if world.fetcher.loading.isNone && fetcher.loading.isSome then now else world.requested }
  | .updateManifestUri manifestUri =>
    some { world with fetcher := world.fetcher.updateManifestUri manifestUri }
  | .enable => some { world with fetcher := world.fetcher.enable }
  | .disable =>
    if 0 < world.fetcher.enabledCount then some { world with fetcher := world.fetcher.disable }
    else none
  | .load opens results => world.load opens results
  | .doneLoad now => world.doneLoad parse now

end FetcherWorld

def fetcherSystem {Manifest : Type} (parse : String → Bytes → Option Manifest) :
    System (FetcherWorld Manifest) FetcherOp where
  Start world := ∃ manifestUri hasListener, world = { fetcher := { manifestUri, hasListener } }
  Step world op next := world.apply parse op = some next

section

variable {Manifest : Type} (parse : String → Bytes → Option Manifest)

def Refresh.manifest (refresh : Refresh) : Option Manifest :=
  refresh.body.bind fun (manifestUri, xml) => parse manifestUri xml

def lastWhere (holds : Refresh → Bool) (log : List Refresh) : Option Refresh :=
  (log.filter holds).getLast?

def lastParsed : List Refresh → Option Refresh :=
  lastWhere fun refresh => (refresh.manifest parse).isSome

def lastBody : List Refresh → Option Refresh := lastWhere fun refresh => refresh.body.isSome

def FetcherWorld.KeepsParsed (world : FetcherWorld Manifest) : Prop :=
  world.fetcher.manifest = (lastParsed parse world.log).bind (Refresh.manifest parse) ∧
    ∀ refresh, lastParsed parse world.log = some refresh →
      world.fetcher.manifestLoadStartTimestamp = refresh.start ∧
        world.fetcher.manifestLoadCompleteTimestamp = refresh.complete

structure FetcherWorld.Follows (world : FetcherWorld Manifest) : Prop where
  manifest : world.fetcher.manifest = (lastBody world.log).bind (Refresh.manifest parse)
  timestamps : ∀ refresh, lastParsed parse world.log = some refresh →
    world.fetcher.manifestLoadStartTimestamp = refresh.start ∧
      world.fetcher.manifestLoadCompleteTimestamp = refresh.complete
  current : ∀ loading, world.fetcher.loading = some loading →
    (∃ loadable, world.fetcher.currentLoadable = some (loading, loadable)) ∧
      world.fetcher.currentLoadStartTimestamp = world.requested

variable {parse}

theorem lastWhere_append (holds : Refresh → Bool) (log : List Refresh) (refresh : Refresh) :
    lastWhere holds (log ++ [refresh]) =
      if holds refresh then some refresh else lastWhere holds log := by
  unfold lastWhere
  rw [List.filter_append]
  split
  · next here => rw [List.filter_cons_of_pos here, List.filter_nil, List.getLast?_concat]
  · next not_here => rw [List.filter_cons_of_neg not_here, List.filter_nil, List.append_nil]

theorem lastWhere_eq_none_iff (holds : Refresh → Bool) (log : List Refresh) :
    lastWhere holds log = none ↔ ∀ refresh ∈ log, ¬ holds refresh := by
  rw [lastWhere, List.getLast?_eq_none_iff, List.filter_eq_nil_iff]

theorem lastWhere_some {holds : Refresh → Bool} {log : List Refresh} {refresh : Refresh}
    (last : lastWhere holds log = some refresh) : refresh ∈ log ∧ holds refresh := by
  have member := List.mem_of_getLast? last
  exact List.mem_filter.mp member

theorem lastWhere_of_imp {holds holds' : Refresh → Bool} {log : List Refresh} {refresh : Refresh}
    (imp : ∀ refresh, holds' refresh → holds refresh) (last : lastWhere holds log = some refresh)
    (here : holds' refresh) : lastWhere holds' log = some refresh := by
  induction log using List.reverseRecOn with
  | nil => cases last
  | append_singleton log other ih =>
    rw [lastWhere_append] at last ⊢
    split at last
    · cases last
      rw [if_pos here]
    · next not_other =>
      rw [if_neg fun other_holds => not_other (imp other other_holds)]
      exact ih last

theorem not_parses_iff (refresh : Refresh) :
    ¬ (refresh.manifest parse).isSome ↔ refresh.manifest parse = none := by
  rw [Bool.not_eq_true, Option.isSome_eq_false_iff, Option.isNone_iff_eq_none]

theorem lastParsed_eq_none_iff (log : List Refresh) :
    lastParsed parse log = none ↔ ∀ refresh ∈ log, refresh.manifest parse = none := by
  simp only [lastParsed, lastWhere_eq_none_iff, not_parses_iff]

theorem body_of_parses {refresh : Refresh} (parses : (refresh.manifest parse).isSome) :
    refresh.body.isSome := by
  cases body : refresh.body with
  | none => simp [Refresh.manifest, body] at parses
  | some _ => rfl

structure ManifestFetcher.SameManifest (fetcher next : ManifestFetcher Manifest) : Prop where
  manifest : next.manifest = fetcher.manifest
  start : next.manifestLoadStartTimestamp = fetcher.manifestLoadStartTimestamp
  complete : next.manifestLoadCompleteTimestamp = fetcher.manifestLoadCompleteTimestamp

theorem ManifestFetcher.requestRefresh_cases (fetcher : ManifestFetcher Manifest) (now : Int)
    (starts : Bool) :
    (fetcher.requestRefresh now starts).2 = fetcher ∨
      fetcher.loading = none ∧ (fetcher.requestRefresh now starts).2 = { fetcher with
        created := fetcher.created + 1
        currentLoadable := some (fetcher.created, { manifestUri := fetcher.manifestUri })
        currentLoadStartTimestamp := now
        loading := if starts then some fetcher.created else none
      }.notify .onManifestRefreshStarted := by
  unfold requestRefresh
  split
  · exact .inl rfl
  · split
    · exact .inl rfl
    · next idle => exact .inr ⟨by simpa using idle, rfl⟩

namespace FetcherWorld

variable {world next : FetcherWorld Manifest}

theorem Follows.keep (follows : world.Follows parse) (log : next.log = world.log)
    (same : world.fetcher.SameManifest next.fetcher)
    (current : ∀ loading, next.fetcher.loading = some loading →
      (∃ loadable, next.fetcher.currentLoadable = some (loading, loadable)) ∧
        next.fetcher.currentLoadStartTimestamp = next.requested) : next.Follows parse := by
  refine ⟨?_, ?_, current⟩
  · rw [log, same.manifest, follows.manifest]
  · intro refresh last
    rw [log] at last
    rw [same.start, same.complete]
    exact follows.timestamps refresh last

theorem Follows.loaded (follows : world.Follows parse) {refresh : Refresh}
    (log : next.log = world.log ++ [refresh]) (idle : next.fetcher.loading = none)
    (manifest : next.fetcher.manifest =
      if refresh.body.isSome then refresh.manifest parse else world.fetcher.manifest)
    (timestamps : if (refresh.manifest parse).isSome then
        next.fetcher.manifestLoadStartTimestamp = refresh.start ∧
          next.fetcher.manifestLoadCompleteTimestamp = refresh.complete
      else next.fetcher.manifestLoadStartTimestamp = world.fetcher.manifestLoadStartTimestamp ∧
        next.fetcher.manifestLoadCompleteTimestamp = world.fetcher.manifestLoadCompleteTimestamp) :
    next.Follows parse := by
  refine ⟨?_, ?_, by simp [idle]⟩
  · rw [log, manifest, lastBody, lastWhere_append]
    split
    · rfl
    · exact follows.manifest
  · intro last is_last
    rw [log, lastParsed, lastWhere_append] at is_last
    split at is_last
    · next parses =>
      cases is_last
      rwa [if_pos parses] at timestamps
    · next fails =>
      rw [if_neg fails] at timestamps
      rw [timestamps.1, timestamps.2]
      exact follows.timestamps last is_last

theorem doneLoad_follows (follows : world.Follows parse) {now : Int}
    (done : world.doneLoad parse now = some next) : next.Follows parse := by
  unfold doneLoad at done
  split at done
  · next loading outcome isLoading reported =>
    cases done
    obtain ⟨⟨loadable, current⟩, start⟩ := follows.current loading isLoading
    -- The loadable that is reported is the current one.
    cases outcome with
    | loadComplete =>
      cases parsed : parse loadable.manifestUri loadable.manifestXml <;>
        apply follows.loaded rfl <;>
        simp [ManifestFetcher.loadComplete, ManifestFetcher.processLoadCompleted,
          ManifestFetcher.notify, loaded, current, Refresh.manifest, parsed, start]
    | loadError =>
      apply follows.loaded rfl <;>
        simp [ManifestFetcher.loadComplete, ManifestFetcher.processLoadError,
          ManifestFetcher.notify, loaded, current, Refresh.manifest]
    | loadCanceled =>
      apply follows.loaded rfl <;>
        simp [ManifestFetcher.loadComplete, loaded, current, Refresh.manifest]
  · cases done

theorem load_follows (follows : world.Follows parse) {opens : Bool} {results : List ReadResult}
    (loads : world.load opens results = some next) : next.Follows parse := by
  unfold load at loads
  split at loads
  · next loading current loadable isLoading isCurrent idle =>
    split at loads
    · cases loads
    · next same =>
      obtain rfl := not_not.mp same
      split at loads
      · cases loads
      · next result loaded ends =>
        cases loads
        refine follows.keep ?_ ⟨?_, ?_, ?_⟩ ?_ <;> try rfl
        intro other isOther
        obtain rfl : current = other := Option.some_inj.mp (isLoading.symm.trans isOther)
        exact ⟨⟨loaded, rfl⟩, (follows.current current isLoading).2⟩
  · cases loads

theorem requestRefresh_follows (follows : world.Follows parse) {now : Int} {starts : Bool}
    (requests : world.apply parse (.requestRefresh now starts) = some next) : next.Follows parse := by
  simp only [apply, Option.some.injEq] at requests
  subst requests
  rcases world.fetcher.requestRefresh_cases now starts with same | ⟨idle, started⟩
  · rw [same]
    refine follows.keep ?_ ⟨?_, ?_, ?_⟩ ?_ <;> try rfl
    intro loading isLoading
    have kept := follows.current loading isLoading
    simpa [show world.fetcher.loading = some loading from isLoading] using kept
  · rw [started]
    refine follows.keep ?_ ⟨?_, ?_, ?_⟩ ?_ <;> try rfl
    intro loading isLoading
    cases starts with
    | false => cases isLoading
    | true =>
      cases isLoading
      refine ⟨⟨_, rfl⟩, ?_⟩
      simp [ManifestFetcher.notify, idle]

theorem apply_follows (follows : world.Follows parse) {op : FetcherOp}
    (applied : world.apply parse op = some next) : next.Follows parse := by
  cases op with
  | requestRefresh now starts => exact requestRefresh_follows follows applied
  | updateManifestUri manifestUri =>
    cases applied
    exact ⟨follows.manifest, follows.timestamps, follows.current⟩
  | enable =>
    cases applied
    have same : ∃ loadError loadErrorCount, world.fetcher.enable = { world.fetcher with
        loadError, loadErrorCount, enabledCount := world.fetcher.enabledCount + 1 } := by
      unfold ManifestFetcher.enable
      dsimp only
      split
      · exact ⟨_, _, rfl⟩
      · exact ⟨_, _, rfl⟩
    obtain ⟨loadError, loadErrorCount, same⟩ := same
    rw [same]
    exact ⟨follows.manifest, follows.timestamps, follows.current⟩
  | disable =>
    simp only [apply] at applied
    split at applied
    · cases applied
      exact ⟨follows.manifest, follows.timestamps, follows.current⟩
    · cases applied
  | load opens results => exact load_follows follows applied
  | doneLoad now => exact doneLoad_follows follows applied

end FetcherWorld

theorem fetcherSystem_follows {world : FetcherWorld Manifest}
    (reachable : Reachable (fetcherSystem parse) world) : world.Follows parse := by
  refine Reachable.invariant (FetcherWorld.Follows parse) ?_ ?_ reachable
  · rintro _ ⟨manifestUri, hasListener, rfl⟩
    exact ⟨rfl, nofun, nofun⟩
  · intro world op next follows step
    exact FetcherWorld.apply_follows follows step

/-- The fetcher has the most recent manifest that parsed unless its last body does not parse, after
one that did. -/
theorem manifestFetcher_keeps_iff {world : FetcherWorld Manifest}
    (reachable : Reachable (fetcherSystem parse) world) :
    world.KeepsParsed parse ↔
      ∀ last, lastBody world.log = some last → last.manifest parse = none →
        ∀ refresh ∈ world.log, refresh.manifest parse = none := by
  have follows := fetcherSystem_follows reachable
  rw [FetcherWorld.KeepsParsed, follows.manifest, ← lastParsed_eq_none_iff]
  constructor
  · rintro ⟨same, -⟩ last isLast unparsed
    rw [isLast, Option.bind_some, unparsed] at same
    cases parsed : lastParsed parse world.log with
    | none => rfl
    | some refresh =>
      have parses := (lastWhere_some parsed).2
      rw [parsed, Option.bind_some] at same
      simp [← same] at parses
  · intro condition
    refine ⟨?_, follows.timestamps⟩
    cases isLast : lastBody world.log with
    | none =>
      have bodies := (lastWhere_eq_none_iff _ _).mp isLast
      have unparsed : lastParsed parse world.log = none := by
        rw [lastParsed, lastWhere_eq_none_iff]
        exact fun refresh member parses => bodies refresh member (body_of_parses parses)
      rw [unparsed, Option.bind_none]
    | some last =>
      cases parsed : last.manifest parse with
      | none =>
        rw [condition last isLast parsed, Option.bind_some, parsed, Option.bind_none]
      | some manifest =>
        have same : lastParsed parse world.log = some last :=
          lastWhere_of_imp (fun _ => body_of_parses) isLast (by rw [parsed]; rfl)
        rw [same]

end

namespace FetcherSample

-- A document is what it holds; an empty one does not parse.
def parse (_ : String) (xml : Bytes) : Option Bytes := if xml.isEmpty then none else some xml

def world : FetcherWorld Bytes := { fetcher := { manifestUri := "live.mpd" } }

def refresh (now : Int) (document : Bytes) : List FetcherOp :=
  [.requestRefresh now true, .load true [.bytes document, .endOfInput], .doneLoad (now + 5)]

end FetcherSample

theorem FetcherSample.reachable {ops : List FetcherOp} {last : FetcherWorld Bytes}
    (executed : execute (FetcherWorld.apply FetcherSample.parse) FetcherSample.world ops =
      some last) :
    Reachable (fetcherSystem FetcherSample.parse) last :=
  (Reachable.start (fetcherSystem FetcherSample.parse) ⟨"live.mpd", false, rfl⟩).run
    (.of_execute (fun _ _ _ _ step => step) executed)

theorem FetcherSample.refresh_runs (world : FetcherWorld Bytes) (idle : world.fetcher.loading = none)
    (fresh : world.outcome = none) (noError : world.fetcher.loadError = .none) (now : Int)
    (document : Bytes) (short : document.length ≤ kBufSize - 1) :
    ∃ next, execute (FetcherWorld.apply FetcherSample.parse) world
        (FetcherSample.refresh now document) = some next ∧
      next.fetcher.loading = none ∧ next.outcome = none ∧
      (cString document ≠ [] → next.fetcher.loadError = .none) ∧
      next.fetcher.manifestUri = world.fetcher.manifestUri ∧
      next.log = world.log ++ [⟨now, now + 5, some (world.fetcher.manifestUri, cString document)⟩] := by
  obtain ⟨loadBuffer, loads⟩ := ManifestLoadable.load_eq world.fetcher.manifestUri
    (show ∀ chunk ∈ [document], chunk.length ≤ kBufSize - 1 by simpa using short) false
  simp only [List.map_cons, List.map_nil, List.cons_append, List.nil_append, Bool.false_eq_true,
    if_false, List.flatMap_cons, List.flatMap_nil, List.append_nil] at loads
  by_cases empty : cString document = [] <;>
    simp [FetcherSample.refresh, execute, FetcherWorld.apply, ManifestFetcher.requestRefresh, noError,
      idle, FetcherWorld.load, ManifestFetcher.notify, fresh, loads, FetcherWorld.doneLoad,
      FetcherWorld.loaded, ManifestFetcher.loadComplete, ManifestFetcher.processLoadCompleted,
      FetcherSample.parse, empty]

theorem FetcherSample.two_refreshes (second : Bytes) (short : second.length ≤ kBufSize - 1) :
    ∃ world, Reachable (fetcherSystem FetcherSample.parse) world ∧
      world.log = [⟨0, 5, some ("live.mpd", [60])⟩, ⟨10, 15, some ("live.mpd", cString second)⟩] := by
  obtain ⟨middle, first, idle, fresh, noError, uri, log⟩ :=
    FetcherSample.refresh_runs FetcherSample.world rfl rfl rfl 0 [60] (by decide)
  obtain ⟨world, rest, -, -, -, -, log'⟩ :=
    FetcherSample.refresh_runs middle idle fresh (noError (by decide)) 10 second short
  refine ⟨world,
    (FetcherSample.reachable first).run (.of_execute (fun _ _ _ _ step => step) rest), ?_⟩
  rw [log', log, uri]
  rfl

theorem manifestFetcher_keeps_second :
    ∃ world, Reachable (fetcherSystem FetcherSample.parse) world ∧ world.log.length = 2 ∧
      world.KeepsParsed FetcherSample.parse := by
  obtain ⟨world, reachable, log⟩ := FetcherSample.two_refreshes [62] (by decide)
  refine ⟨world, reachable, by rw [log]; rfl, (manifestFetcher_keeps_iff reachable).mpr ?_⟩
  rw [log]
  intro last isLast unparsed
  cases isLast
  exact absurd unparsed (by decide)

/-- A document that does not parse takes the place of the one before it. -/
theorem manifestFetcher_loses_manifest :
    ∃ world, Reachable (fetcherSystem FetcherSample.parse) world ∧
      world.log = [⟨0, 5, some ("live.mpd", [60])⟩, ⟨10, 15, some ("live.mpd", [])⟩] ∧
      ¬ world.KeepsParsed FetcherSample.parse := by
  obtain ⟨world, reachable, log⟩ := FetcherSample.two_refreshes [] (by decide)
  refine ⟨world, reachable, log, ?_⟩
  rintro ⟨same, -⟩
  rw [(fetcherSystem_follows reachable).manifest, log] at same
  exact absurd same (by decide)

end NDash
