import NDash.Chunk.AdaptiveEvaluator
import NDash.Dash.DashChunkSource

set_option autoImplicit false

namespace NDash.Chunk

open Mpd (Format)
open Dash (FormatEvaluation)

inductive TriggerReason
  | unspecified
  | initial
  | manual
  | adaptive
  | trickPlay
deriving DecidableEq, Repr

structure Evaluation extends FormatEvaluation where
  trigger : TriggerReason := .initial
deriving DecidableEq, Repr

-- In microseconds. `fractionOf` is llrint(bitrate_estimate * bandwidth_fraction_).
structure AdaptiveEvaluator where
  maxInitialBitrate : Int := 16000000
  minDurationForQualityIncrease : Int := 10000000
  maxDurationForQualityDecrease : Int := 25000000
  minDurationToRetainAfterDiscard : Int := 15000000
  fractionOf : Int → Int

namespace AdaptiveEvaluator

def kNoEstimate : Int := -1
def kMinHdHeight : Int := 720
def kMinHdWidth : Int := 1280

def effectiveBitrate (evaluator : AdaptiveEvaluator) (bitrateEstimate : Int) : Int :=
  if bitrateEstimate = kNoEstimate then evaluator.maxInitialBitrate
  else evaluator.fractionOf bitrateEstimate

def bufferedDuration (queue : List Dash.MediaChunk) (playbackPosition : Int) : Int :=
  match queue.getLast? with
  | none => 0
  | some last => last.endTimeUs - playbackPosition

def Discardable (evaluator : AdaptiveEvaluator) (playbackPosition : Int) (ideal : Format)
    (chunk : Dash.MediaChunk) : Prop :=
  chunk.startTimeUs - playbackPosition ≥ evaluator.minDurationToRetainAfterDiscard ∧
    chunk.format.bitrate < ideal.bitrate ∧ chunk.format.height < ideal.height ∧
    chunk.format.height < kMinHdHeight ∧ chunk.format.width < kMinHdWidth

instance (evaluator : AdaptiveEvaluator) (playbackPosition : Int) (ideal : Format)
    (chunk : Dash.MediaChunk) : Decidable (evaluator.Discardable playbackPosition ideal chunk) :=
  inferInstanceAs (Decidable (_ ∧ _))

def discardLoop (evaluator : AdaptiveEvaluator) (playbackPosition : Int) (ideal : Format) (i : Nat) :
    List Dash.MediaChunk → Nat → Nat
  | [], queueSize => queueSize
  | chunk :: later, queueSize =>
    if evaluator.Discardable playbackPosition ideal chunk then i
    else evaluator.discardLoop playbackPosition ideal (i + 1) later queueSize

/-- What is left of Evaluate once the ideal format is known. Where the current format is kept, it is
not copied. -/
def select (evaluator : AdaptiveEvaluator) (queue : List Dash.MediaChunk) (playbackPosition : Int)
    (evaluation : Evaluation) (ideal : Format) : Evaluation :=
  match evaluation.format with
  | none => { evaluation with format := some ideal }
  | some current =>
    let evaluation := { evaluation with trigger := .adaptive }
    let buffered := bufferedDuration queue playbackPosition
    if ideal.bitrate > current.bitrate then
      if buffered < evaluator.minDurationForQualityIncrease then evaluation
      else if buffered ≥ evaluator.minDurationToRetainAfterDiscard then
        { evaluation with
          queueSize := evaluator.discardLoop playbackPosition ideal 1 queue.tail evaluation.queueSize
          format := some ideal }
      else { evaluation with format := some ideal }
    else if ideal.bitrate < current.bitrate then
      if buffered ≥ evaluator.maxDurationForQualityDecrease then evaluation
      else { evaluation with format := some ideal }
    else { evaluation with format := some ideal }

-- The estimate is that of the bandwidth meter.
def evaluate (evaluator : AdaptiveEvaluator) (bitrateEstimate : Int) (queue : List Dash.MediaChunk)
    (playbackPosition : Int) (formats : List Format) (evaluation : Evaluation)
    (playbackRate : Rat) : Except Fault Evaluation := do
  match ← determineIdealFormat float formats bitrateEstimate playbackRate with
  | none => .error .checkFailed
  | some ideal => .ok (evaluator.select queue playbackPosition evaluation ideal)

/-- The paths that protect the buffer: the current format stays. -/
def Retains (evaluator : AdaptiveEvaluator) (queue : List Dash.MediaChunk) (playbackPosition : Int)
    (current ideal : Format) : Prop :=
  (current.bitrate < ideal.bitrate ∧
      bufferedDuration queue playbackPosition < evaluator.minDurationForQualityIncrease) ∨
    (ideal.bitrate < current.bitrate ∧
      evaluator.maxDurationForQualityDecrease ≤ bufferedDuration queue playbackPosition)

section Select

variable {evaluator : AdaptiveEvaluator} {queue : List Dash.MediaChunk} {playbackPosition : Int}
  {evaluation : Evaluation} {current ideal : Format}

theorem select_initial (initial : evaluation.format = none) :
    evaluator.select queue playbackPosition evaluation ideal =
      { evaluation with format := some ideal } := by
  unfold select
  rw [initial]

theorem select_retained (previous : evaluation.format = some current)
    (retains : evaluator.Retains queue playbackPosition current ideal) :
    evaluator.select queue playbackPosition evaluation ideal =
      { evaluation with trigger := .adaptive } := by
  unfold select
  rw [previous]
  rcases retains with ⟨higher, short⟩ | ⟨lower, enough⟩
  · simp [higher, short]
  · have notHigher : ¬ current.bitrate < ideal.bitrate := by omega
    simp [notHigher, lower, enough]

theorem select_switched (previous : evaluation.format = some current)
    (switches : ¬ evaluator.Retains queue playbackPosition current ideal) :
    (evaluator.select queue playbackPosition evaluation ideal).format = some ideal ∧
      ((evaluator.select queue playbackPosition evaluation ideal).queueSize =
          evaluation.queueSize ∨
        current.bitrate < ideal.bitrate ∧
          (evaluator.select queue playbackPosition evaluation ideal).queueSize =
            evaluator.discardLoop playbackPosition ideal 1 queue.tail evaluation.queueSize) := by
  simp only [Retains, not_or, not_and, not_lt, not_le] at switches
  unfold select
  rw [previous]
  dsimp only
  by_cases higher : ideal.bitrate > current.bitrate
  · rw [if_pos higher, if_neg (not_lt.mpr (switches.1 higher))]
    split
    · exact ⟨rfl, .inr ⟨higher, rfl⟩⟩
    · exact ⟨rfl, .inl rfl⟩
  · rw [if_neg higher]
    by_cases lower : ideal.bitrate < current.bitrate
    · rw [if_pos lower, if_neg (not_le.mpr (switches.2 lower))]
      exact ⟨rfl, .inl rfl⟩
    · rw [if_neg lower]
      exact ⟨rfl, .inl rfl⟩

end Select

theorem discardLoop_cases (evaluator : AdaptiveEvaluator) (playbackPosition : Int) (ideal : Format)
    (i : Nat) (chunks : List Dash.MediaChunk) (queueSize : Nat) :
    evaluator.discardLoop playbackPosition ideal i chunks queueSize = queueSize ∨
      ∃ before chunk behind, chunks = before ++ chunk :: behind ∧
        evaluator.discardLoop playbackPosition ideal i chunks queueSize = i + before.length ∧
        evaluator.Discardable playbackPosition ideal chunk ∧
        ∀ other ∈ before, ¬ evaluator.Discardable playbackPosition ideal other := by
  induction chunks generalizing i with
  | nil => exact .inl rfl
  | cons chunk later ih =>
    rw [discardLoop]
    by_cases discardable : evaluator.Discardable playbackPosition ideal chunk
    · rw [if_pos discardable]
      exact .inr ⟨[], chunk, later, rfl, rfl, discardable, by simp⟩
    · rw [if_neg discardable]
      rcases ih (i + 1) with same | ⟨before, found, behind, rfl, index, ok, first⟩
      · exact .inl same
      · refine .inr ⟨chunk :: before, found, behind, rfl, ?_, ok, ?_⟩
        · rw [index, List.length_cons]
          omega
        · exact List.forall_mem_cons.mpr ⟨discardable, first⟩

theorem evaluate_eq {formats : List Format} (offered : formats ≠ []) (evaluator : AdaptiveEvaluator)
    (bitrateEstimate : Int) (queue : List Dash.MediaChunk) (playbackPosition : Int)
    (evaluation : Evaluation) (playbackRate : Rat) :
    ∃ ideal, determineIdealFormat float formats bitrateEstimate playbackRate = .ok (some ideal) ∧
      IsIdeal float formats bitrateEstimate playbackRate ideal ∧
      evaluator.evaluate bitrateEstimate queue playbackPosition formats evaluation playbackRate =
        .ok (evaluator.select queue playbackPosition evaluation ideal) := by
  obtain ⟨ideal, determined, isIdeal⟩ :=
    determineIdealFormat_ideal offered bitrateEstimate playbackRate
  refine ⟨ideal, determined, isIdeal, ?_⟩
  rw [evaluate, determined]
  rfl

structure DiscardsFrom (evaluator : AdaptiveEvaluator) (queue : List Dash.MediaChunk)
    (playbackPosition : Int) (selected : Format) (i : Nat) : Prop where
  behindFirst : 1 ≤ i
  chunk : ∃ chunk, queue[i]? = some chunk ∧
    evaluator.Discardable playbackPosition selected chunk
  first : ∀ j chunk, 1 ≤ j → j < i → queue[j]? = some chunk →
    ¬ evaluator.Discardable playbackPosition selected chunk

theorem discardLoop_discardsFrom (evaluator : AdaptiveEvaluator) (queue : List Dash.MediaChunk)
    (playbackPosition : Int) (ideal : Format) (queueSize : Nat) :
    evaluator.discardLoop playbackPosition ideal 1 queue.tail queueSize = queueSize ∨
      evaluator.DiscardsFrom queue playbackPosition ideal
        (evaluator.discardLoop playbackPosition ideal 1 queue.tail queueSize) := by
  rcases discardLoop_cases evaluator playbackPosition ideal 1 queue.tail queueSize with
    same | ⟨before, chunk, behind, shape, index, ok, first⟩
  · exact .inl same
  · obtain ⟨head, rfl⟩ : ∃ head, queue = head :: (before ++ chunk :: behind) := by
      cases queue with
      | nil => simp at shape
      | cons head later => exact ⟨head, by rw [← shape]; rfl⟩
    rw [index]
    refine .inr ⟨by omega, ⟨chunk, ?_, ok⟩, ?_⟩
    · rw [Nat.add_comm, List.getElem?_cons_succ, List.getElem?_append_right (Nat.le_refl _)]
      simp
    · intro j other positive early found
      obtain ⟨place, rfl⟩ : ∃ place, j = place + 1 := ⟨j - 1, by omega⟩
      have within : place < before.length := by omega
      rw [List.getElem?_cons_succ, List.getElem?_append_left within] at found
      exact first other (List.mem_of_getElem? found)

/-- Only a switch upwards discards chunks, and the bitrate changes only as far as the buffer allows. -/
theorem evaluate_discards {formats : List Format} (offered : formats ≠ [])
    (evaluator : AdaptiveEvaluator) (bitrateEstimate : Int) (queue : List Dash.MediaChunk)
    (playbackPosition : Int) (evaluation : Evaluation) (playbackRate : Rat) :
    ∃ after selected, evaluator.evaluate bitrateEstimate queue playbackPosition formats evaluation
        playbackRate = .ok after ∧ after.format = some selected ∧
      (after.queueSize = evaluation.queueSize ∨
        evaluator.DiscardsFrom queue playbackPosition selected after.queueSize ∧
          ∃ current, evaluation.format = some current ∧ current.bitrate < selected.bitrate) ∧
      ∀ current, evaluation.format = some current →
        (bufferedDuration queue playbackPosition < evaluator.minDurationForQualityIncrease →
          selected.bitrate ≤ current.bitrate) ∧
        (evaluator.maxDurationForQualityDecrease ≤ bufferedDuration queue playbackPosition →
          current.bitrate ≤ selected.bitrate) := by
  obtain ⟨ideal, -, -, evaluated⟩ := evaluate_eq offered evaluator bitrateEstimate queue
    playbackPosition evaluation playbackRate
  rw [evaluated]
  cases previous : evaluation.format with
  | none =>
    refine ⟨_, ideal, rfl, ?_, .inl ?_, by simp⟩
    · rw [select_initial previous]
    · rw [select_initial previous]
  | some current =>
    by_cases retains : evaluator.Retains queue playbackPosition current ideal
    · refine ⟨_, current, rfl, ?_, .inl ?_, by simp⟩
      · rw [select_retained previous retains]
        exact previous
      · rw [select_retained previous retains]
    · obtain ⟨format, size⟩ := select_switched previous retains
      refine ⟨_, ideal, rfl, format, ?_, ?_⟩
      · rcases size with same | ⟨higher, size⟩
        · exact .inl same
        · rw [size]
          rcases discardLoop_discardsFrom evaluator queue playbackPosition ideal
              evaluation.queueSize with same | discards
          · exact .inl same
          · exact .inr ⟨discards, current, rfl, higher⟩
      · rintro _ ⟨rfl⟩
        simp only [Retains, not_or, not_and, not_lt, not_le] at retains
        constructor
        · intro short
          by_contra higher
          have := retains.1 (by omega)
          omega
        · intro enough
          by_contra lower
          have := retains.2 (by omega)
          omega

namespace Sample

def evaluator : AdaptiveEvaluator where
  fractionOf estimate := estimate * 9 / 10

def sd : Format := { id := "sd", width := 640, height := 480, bitrate := 500000 }
def hd : Format := { id := "hd", width := 1920, height := 1080, bitrate := 5000000 }

def chunk (index : Nat) : Dash.MediaChunk where
  parentId := 0
  format := sd
  chunkIndex := index
  startTimeUs := index * 20000000
  endTimeUs := index * 20000000 + 20000000
  uri := .create "" "segment.mp4" 0 (-1)

end Sample

open Sample in
theorem evaluate_discards_second :
    evaluator.evaluate 6000000 [chunk 0, chunk 1] 0 [sd, hd] { queueSize := 2, format := some sd } 1 =
        .ok { queueSize := 1, format := some hd, trigger := .adaptive } ∧
      evaluator.DiscardsFrom [chunk 0, chunk 1] 0 hd 1 := by
  have ran : evaluator.evaluate 6000000 [chunk 0, chunk 1] 0 [sd, hd]
      { queueSize := 2, format := some sd } 1 =
        .ok { queueSize := 1, format := some hd, trigger := .adaptive } := by decide +kernel
  obtain ⟨after, selected, again, found, discards, -⟩ :=
    evaluate_discards (List.cons_ne_nil sd [hd]) evaluator 6000000 [chunk 0, chunk 1] 0
      { queueSize := 2, format := some sd } 1
  rw [ran] at again
  cases again
  cases found
  rcases discards with same | ⟨discards, -⟩
  · cases same
  · exact ⟨ran, discards⟩

/-! The selected format -/

def Offered (formats : List Format) (format : Format) : Prop :=
  ∃ offered ∈ formats, offered.id = format.id

/-- A format that is retained is one of another list only if it was already. -/
theorem evaluate_selects_iff {formats : List Format} (offered : formats ≠ [])
    (evaluator : AdaptiveEvaluator) (bitrateEstimate : Int) (queue : List Dash.MediaChunk)
    (playbackPosition : Int) (evaluation : Evaluation) (playbackRate : Rat) :
    ∃ after selected, evaluator.evaluate bitrateEstimate queue playbackPosition formats evaluation
        playbackRate = .ok after ∧ after.format = some selected ∧
      (Offered formats selected ↔ ∀ current ideal, evaluation.format = some current →
        IsIdeal float formats bitrateEstimate playbackRate ideal →
        evaluator.Retains queue playbackPosition current ideal → Offered formats current) := by
  obtain ⟨ideal, -, isIdeal, evaluated⟩ := evaluate_eq offered evaluator bitrateEstimate queue
    playbackPosition evaluation playbackRate
  have listed : Offered formats ideal := ⟨ideal, isIdeal.offered, rfl⟩
  -- Every ideal format has the same bitrate.
  have same {other : Format} (otherIdeal : IsIdeal float formats bitrateEstimate playbackRate other)
      {current : Format} (retains : evaluator.Retains queue playbackPosition current other) :
      evaluator.Retains queue playbackPosition current ideal := by
    have bitrate := (otherIdeal.agree (List.Perm.refl formats) isIdeal).2
    simpa only [Retains, bitrate] using retains
  rw [evaluated]
  cases previous : evaluation.format with
  | none =>
    refine ⟨_, ideal, rfl, by rw [select_initial previous], ?_⟩
    simp [listed]
  | some current =>
    by_cases retains : evaluator.Retains queue playbackPosition current ideal
    · refine ⟨_, current, rfl, by rw [select_retained previous retains]; exact previous, ?_⟩
      constructor
      · rintro inside _ other ⟨rfl⟩ - -
        exact inside
      · intro always
        exact always current ideal rfl isIdeal retains
    · refine ⟨_, ideal, rfl, (select_switched previous retains).1, ?_⟩
      constructor
      · rintro - _ other ⟨rfl⟩ otherIdeal otherRetains
        exact absurd (same otherIdeal otherRetains) retains
      · intro _
        exact listed

open Sample in
theorem evaluate_selects_hd :
    ∃ after selected, evaluator.evaluate 6000000 [chunk 0] 0 [sd, hd] { format := some sd } 1 =
        .ok after ∧ after.format = some selected ∧ Offered [sd, hd] selected := by
  obtain ⟨after, selected, ran, found, iff⟩ :=
    evaluate_selects_iff (List.cons_ne_nil sd [hd]) evaluator 6000000 [chunk 0] 0
      { format := some sd } 1
  refine ⟨after, selected, ran, found, iff.mpr ?_⟩
  rintro _ ideal ⟨rfl⟩ - -
  exact ⟨sd, List.mem_cons_self, rfl⟩

-- The period has nothing but HD, and too little is buffered to switch up to it.
open Sample in
theorem evaluate_keeps_other_period :
    evaluator.evaluate 6000000 [] 0 [hd] { format := some sd } 1 =
        .ok { format := some sd, trigger := .adaptive } ∧ ¬ Offered [hd] sd := by
  constructor
  · decide +kernel
  · rintro ⟨offered, member, same⟩
    rw [List.mem_singleton.mp member] at same
    revert same
    decide

/-! The bitrate that is budgeted with -/

/-- No format of the playout rate for this playback has a bitrate above the lower limit and up to the
upper one, but perhaps the lowest. -/
def NoneBetween (formats : List Format) (playbackRate : Rat) (lower upper : Int) : Prop :=
  ∀ format ∈ formats,
    Nearest.IsNearest |playbackRate| (playoutRates float formats) (float format.maxPlayoutRate) →
    lower < format.bitrate → format.bitrate ≤ upper →
      ∀ other ∈ formats, float other.maxPlayoutRate = float format.maxPlayoutRate →
        format.bitrate ≤ other.bitrate

theorem IsIdeal.bitrate_eq_iff {formats : List Format} {lower upper : Int} {playbackRate : Rat}
    {low high : Format} (ordered : lower ≤ upper)
    (ideal : IsIdeal float formats lower playbackRate low)
    (ideal' : IsIdeal float formats upper playbackRate high) :
    low.bitrate = high.bitrate ↔ NoneBetween formats playbackRate lower upper := by
  have rate := ideal.same_rate ideal'
  have nearest := ideal.bitrate_nearest
  rw [rate] at nearest
  have swapped : low.bitrate = high.bitrate ↔
      OrderDual.toDual high.bitrate = OrderDual.toDual low.bitrate := by
    rw [OrderDual.toDual_inj]
    exact eq_comm
  rw [swapped, ideal'.bitrate_nearest.eq_iff nearest (OrderDual.toDual_le_toDual.mpr ordered)]
  constructor
  · intro between format member isNearest above below other offered same
    have atRate : float format.maxPlayoutRate = float high.maxPlayoutRate :=
      isNearest.unique ideal'.rate_nearest
    have least := between (OrderDual.toDual format.bitrate) ⟨format, member, atRate, rfl⟩
      (OrderDual.toDual_le_toDual.mpr below) (OrderDual.toDual_lt_toDual.mpr above)
    have greatest : OrderDual.toDual other.bitrate ≤ OrderDual.toDual format.bitrate :=
      least.2 ⟨other, offered, same.trans atRate, rfl⟩
    exact OrderDual.toDual_le_toDual.mp greatest
  · rintro none bitrate ⟨format, member, atRate, isBitrate⟩ below above
    refine ⟨⟨format, member, atRate, isBitrate⟩, ?_⟩
    rintro another ⟨other, offered, same, isOther⟩
    have isNearest : Nearest.IsNearest |playbackRate| (playoutRates float formats)
        (float format.maxPlayoutRate) := by
      rw [atRate]
      exact ideal'.rate_nearest
    have lowest := none format member isNearest (by rw [isBitrate]; exact above)
      (by rw [isBitrate]; exact below) other offered (same.trans atRate.symm)
    rw [isBitrate, isOther] at lowest
    exact lowest

def evaluateEffective (evaluator : AdaptiveEvaluator) (bitrateEstimate : Int)
    (queue : List Dash.MediaChunk) (playbackPosition : Int) (formats : List Format)
    (evaluation : Evaluation) (playbackRate : Rat) : Except Fault Evaluation := do
  match ← determineIdealFormat float formats (evaluator.effectiveBitrate bitrateEstimate) playbackRate with
  | none => .error .checkFailed
  | some ideal => .ok (evaluator.select queue playbackPosition evaluation ideal)

theorem evaluate_budgets_iff (evaluator : AdaptiveEvaluator) (bitrateEstimate : Int)
    (queue : List Dash.MediaChunk) (playbackPosition : Int) (formats : List Format)
    (playbackRate : Rat) :
    (∀ evaluation,
      evaluator.evaluate bitrateEstimate queue playbackPosition formats evaluation playbackRate =
        evaluator.evaluateEffective bitrateEstimate queue playbackPosition formats evaluation
          playbackRate) ↔
      NoneBetween formats playbackRate
        (min bitrateEstimate (evaluator.effectiveBitrate bitrateEstimate))
        (max bitrateEstimate (evaluator.effectiveBitrate bitrateEstimate)) := by
  by_cases offered : formats = []
  · subst offered
    constructor
    · rintro - format ⟨⟩
    · intro _ evaluation
      rfl
  · obtain ⟨considered, determined, ideal⟩ :=
      determineIdealFormat_ideal offered bitrateEstimate playbackRate
    obtain ⟨effective, determined', ideal'⟩ := determineIdealFormat_ideal offered
      (evaluator.effectiveBitrate bitrateEstimate) playbackRate
    have ran (evaluation : Evaluation) : evaluator.evaluate bitrateEstimate queue playbackPosition
        formats evaluation playbackRate =
          .ok (evaluator.select queue playbackPosition evaluation considered) := by
      rw [evaluate, determined]
      rfl
    have ran' (evaluation : Evaluation) : evaluator.evaluateEffective bitrateEstimate queue
        playbackPosition formats evaluation playbackRate =
          .ok (evaluator.select queue playbackPosition evaluation effective) := by
      rw [evaluateEffective, determined']
      rfl
    -- Without a format so far, the one that is considered is the one that is selected.
    have same : (∀ evaluation, evaluator.evaluate bitrateEstimate queue playbackPosition formats
        evaluation playbackRate = evaluator.evaluateEffective bitrateEstimate queue
          playbackPosition formats evaluation playbackRate) ↔ considered = effective := by
      simp only [ran, ran', Except.ok.injEq]
      constructor
      · intro always
        have initial := congrArg (·.format) (always {})
        rw [select_initial rfl, select_initial rfl] at initial
        exact Option.some.inj initial
      · intro equal evaluation
        rw [equal]
    have byBitrate : considered = effective ↔ considered.bitrate = effective.bitrate := by
      constructor
      · intro equal
        rw [equal]
      · intro bitrate
        have first := determineIdealFormat_eq_find offered determined
        have first' := determineIdealFormat_eq_find offered determined'
        rw [bitrate, ideal.same_rate ideal', first'] at first
        exact (Option.some.inj first).symm
    rw [same, byBitrate]
    rcases le_total bitrateEstimate (evaluator.effectiveBitrate bitrateEstimate) with below | above
    · rw [min_eq_left below, max_eq_right below]
      exact ideal.bitrate_eq_iff below ideal'
    · rw [min_eq_right above, max_eq_left above, eq_comm]
      exact ideal'.bitrate_eq_iff above ideal

-- Playback has only just started: there is no estimate, and the lowest bitrate is considered.
open Sample in
theorem evaluate_considers_lowest :
    evaluator.evaluate kNoEstimate [] 0 [sd, hd] {} 1 = .ok { format := some sd } ∧
      evaluator.evaluateEffective kNoEstimate [] 0 [sd, hd] {} 1 = .ok { format := some hd } := by
  decide +kernel

end AdaptiveEvaluator

end NDash.Chunk
