import RendezMix.Guarantees.HistogramBins

/-!
# Drawing a padding delay from a histogram

The walk of `circpad_machine_sample_delay` stops at the first bin whose tokens, with those of the
bins in front of it, are not fewer than the choice. A choice is one of as many numbers as there are
tokens, counted from zero, so the first bin with tokens is chosen by one number too many.
-/
namespace RendezMix.Guarantees
open Source Library.IndexScans

/-- The tokens in front of a bin. -/
def tokensBefore (histogram : List Nat) (bin : Nat) : Nat := (histogram.take bin).sum

section

variable (histogram : List Nat)

section

variable (binChoice bin : Nat)

theorem tokensBefore_succ :
    tokensBefore histogram (bin + 1) = tokensBefore histogram bin + histogram.getD bin 0 := by
  rw [tokensBefore, tokensBefore, List.take_add_one, List.sum_append, List.getD_eq_getElem?_getD]
  cases histogram[bin]? with
  | none => rfl
  | some tokens => simp

theorem tokensBefore_mono {i j : Nat} (before : i ≤ j) :
    tokensBefore histogram i ≤ tokensBefore histogram j := by
  induction j, before using Nat.le_induction with
  | base => exact le_rfl
  | succ j _ ih =>
    rw [tokensBefore_succ]
    omega

theorem tokensBefore_eq_zero {bin : Nat} (empty : ∀ i, i < bin → histogram.getD i 0 = 0) :
    tokensBefore histogram bin = 0 := by
  induction bin with
  | zero => rfl
  | succ bin ih => rw [tokensBefore_succ, ih fun i less => empty i (by omega), empty bin (by omega)]

theorem tokensBefore_length : tokensBefore histogram histogram.length = histogram.sum := by
  rw [tokensBefore, List.take_length]

/-- From a bin on, the weights are added up to the first one at which the choice is reached. -/
theorem addWeights_eq_some (remaining currBin bin : Nat) :
    addWeights histogram binChoice remaining currBin (tokensBefore histogram (currBin + 1))
        = some bin ↔
      currBin ≤ bin ∧ bin ≤ currBin + remaining ∧ binChoice ≤ tokensBefore histogram (bin + 1)
        ∧ (bin = currBin ∨ tokensBefore histogram bin < binChoice) := by
  induction remaining generalizing currBin with
  | zero =>
    rw [addWeights]
    split
    next less =>
      simp only [reduceCtorEq, false_iff]
      intro ⟨above, below, reached, _⟩
      have same : bin = currBin := by omega
      rw [same] at reached
      omega
    next reached =>
      rw [Option.some.injEq]
      constructor
      · intro same
        subst same
        exact ⟨le_rfl, by omega, by omega, Or.inl rfl⟩
      · intro ⟨above, below, _⟩
        omega
  | succ remaining ih =>
    rw [addWeights]
    split
    next less =>
      rw [← tokensBefore_succ, ih]
      constructor
      · intro ⟨above, below, reached, stops⟩
        refine ⟨by omega, by omega, reached, Or.inr ?_⟩
        cases stops with
        | inl same => exact same ▸ less
        | inr later => exact later
      · intro ⟨above, below, reached, stops⟩
        have later : bin ≠ currBin := by
          intro same
          rw [same] at reached
          omega
        exact ⟨by omega, by omega, reached, Or.inr (stops.resolve_left later)⟩
    next reached =>
      rw [Option.some.injEq]
      constructor
      · intro same
        subst same
        exact ⟨le_rfl, by omega, by omega, Or.inl rfl⟩
      · intro ⟨above, below, _, stops⟩
        by_contra other
        have := tokensBefore_mono histogram (show currBin + 1 ≤ bin by omega)
        have := stops.resolve_left (fun same => other same.symm)
        omega

/-- A bin is chosen if it has tokens and the choice is at most those up to it, and above those in
front of it unless there are none. -/
theorem chooseBin_eq_some :
    chooseBin histogram binChoice = some bin ↔
      bin < histogram.length ∧ histogram.getD bin 0 ≠ 0
        ∧ binChoice ≤ tokensBefore histogram (bin + 1)
        ∧ (tokensBefore histogram bin = 0 ∨ tokensBefore histogram bin < binChoice) := by
  rw [chooseBin]
  cases scanned : scanUp (fun bin => decide (histogram.getD bin 0 ≠ 0)) histogram.length 0 with
  | none =>
    simp only [reduceCtorEq, false_iff]
    intro ⟨within, nonempty, _⟩
    exact of_decide_eq_false (scanUp_none.mp scanned bin bin.zero_le (by omega)) nonempty
  | some first =>
    obtain ⟨-, within, passes, before⟩ := scanUp_some.mp scanned
    have firstTokens : histogram.getD first 0 ≠ 0 := of_decide_eq_true passes
    have empty : ∀ i, i < first → histogram.getD i 0 = 0 := fun i less =>
      not_not.mp (of_decide_eq_false (before i i.zero_le less))
    have none := tokensBefore_eq_zero histogram empty
    have upTo := tokensBefore_succ histogram first
    rw [none, Nat.zero_add] at upTo
    have walk := addWeights_eq_some histogram binChoice (histogram.length - 1 - first) first
    rw [upTo] at walk
    have order : histogram.getD bin 0 ≠ 0 →
        (first ≤ bin ∧ (bin = first ∨ tokensBefore histogram bin < binChoice) ↔
          tokensBefore histogram bin = 0 ∨ tokensBefore histogram bin < binChoice) := by
      intro nonempty
      have after : first ≤ bin := by
        by_contra earlier
        exact nonempty (empty bin (by omega))
      simp only [after, true_and]
      apply or_congr_left
      constructor
      · intro same
        rw [same]
        exact none
      · intro nothing
        by_contra later
        have := tokensBefore_mono histogram (show first + 1 ≤ bin by omega)
        omega
    dsimp only
    cases walked : addWeights histogram binChoice (histogram.length - 1 - first) first
        (histogram.getD first 0) with
    | none =>
      simp only [reduceCtorEq, false_iff]
      intro ⟨inside, nonempty, reached, stops⟩
      obtain ⟨after, here⟩ := (order nonempty).mpr stops
      rw [(walk bin).mpr ⟨after, by omega, reached, here⟩] at walked
      cases walked
    | some currBin =>
      obtain ⟨after, inside, reached, here⟩ := (walk currBin).mp walked
      dsimp only
      constructor
      · intro chosen
        split at chosen
        next empty => cases chosen
        next nonempty =>
          cases chosen
          exact ⟨by omega, nonempty, reached, (order nonempty).mp ⟨after, here⟩⟩
      · intro ⟨binInside, nonempty, binReached, stops⟩
        obtain ⟨binAfter, binHere⟩ := (order nonempty).mpr stops
        have same := (walk bin).mpr ⟨binAfter, by omega, binReached, binHere⟩
        rw [walked, Option.some.injEq] at same
        rw [same, if_neg nonempty]

theorem chooseBin_total {binChoice : Nat} (positive : 0 < histogram.sum)
    (within : binChoice ≤ histogram.sum) : ∃ bin, chooseBin histogram binChoice = some bin := by
  have all := tokensBefore_length histogram
  have nonempty : 0 < histogram.length := by
    by_contra none
    have nil : histogram = [] := List.length_eq_zero_iff.mp (by omega)
    rw [nil] at positive
    exact absurd positive (by decide)
  let reached := fun bin =>
    binChoice ≤ tokensBefore histogram (bin + 1) ∧ 0 < tokensBefore histogram (bin + 1)
  have last : reached (histogram.length - 1) := by
    dsimp only [reached]
    rw [Nat.sub_add_cancel nonempty, all]
    exact ⟨within, positive⟩
  have exists_reached : ∃ bin, reached bin := ⟨_, last⟩
  have least := fun bin => Nat.find_min exists_reached (m := bin)
  have atMost := Nat.find_le (h := exists_reached) last
  obtain ⟨enough, some⟩ := Nat.find_spec exists_reached
  generalize Nat.find exists_reached = bin at least atMost enough some
  have front : tokensBefore histogram bin = 0 ∨ tokensBefore histogram bin < binChoice := by
    by_contra both
    rw [not_or] at both
    have later : bin ≠ 0 := by
      intro first
      rw [first] at both
      exact both.1 rfl
    have earlier := least (bin - 1) (by omega)
    dsimp only [reached] at earlier
    rw [Nat.sub_add_cancel (by omega)] at earlier
    omega
  refine ⟨bin, (chooseBin_eq_some histogram binChoice bin).mpr ⟨by omega, ?_, enough, front⟩⟩
  intro empty
  rw [tokensBefore_succ, empty] at enough some
  omega

theorem tokensBefore_alone {bin : Nat} (within : bin < histogram.length)
    (alone : ∀ other, histogram.getD other 0 ≠ 0 → other = bin) :
    tokensBefore histogram bin = 0 ∧ histogram.sum = histogram.getD bin 0 := by
  have empty : ∀ other, other ≠ bin → histogram.getD other 0 = 0 := fun other differs =>
    by_contra fun nonempty => differs (alone other nonempty)
  have front : tokensBefore histogram bin = 0 :=
    tokensBefore_eq_zero histogram fun i less => empty i (by omega)
  refine ⟨front, ?_⟩
  have behind : ∀ last, bin + 1 ≤ last →
      tokensBefore histogram last = histogram.getD bin 0 := by
    intro last later
    induction last, later using Nat.le_induction with
    | base => rw [tokensBefore_succ, front, Nat.zero_add]
    | succ last later ih => rw [tokensBefore_succ, ih, empty last (by omega), Nat.add_zero]
  rw [← tokensBefore_length]
  exact behind _ (by omega)

end

end

variable {state : CircpadState}

/-- The bin that `circpad_machine_sample_delay` chooses, if it draws for one. -/
def selectedBin (mi : CircpadMachineRuntime state) (binChoice : Nat) : Option Nat :=
  if state.hasIatDist then none
  else if (samplingHistogram mi).2 = 0 then none
  else chooseBin (samplingHistogram mi).1 binChoice

theorem selectedBin_some (mi : CircpadMachineRuntime state) {binChoice bin : Nat}
    (selected : selectedBin mi binChoice = some bin) :
    ¬state.hasIatDist = true ∧ (samplingHistogram mi).2 ≠ 0
      ∧ chooseBin (samplingHistogram mi).1 binChoice = some bin := by
  rw [selectedBin] at selected
  split at selected
  next => cases selected
  next noDist =>
    split at selected
    next => cases selected
    next tokens => exact ⟨noDist, tokens, selected⟩

/-- The delay in a bin in front of the infinity bin. -/
theorem circpadMachineSampleDelay_delay (sampleIatDelay : CircpadState → Nat → Nat)
    (rng : FastRng) (mi : CircpadMachineRuntime state) (binChoice : Nat) {bin : Nat}
    (selected : selectedBin mi binChoice = some bin) (inside : bin < circpadInfinityBin state) :
    (circpadMachineSampleDelay sampleIatDelay rng mi binChoice).2
      = if circpadHistogramBinToUsec state mi.rttEstimateUsec (bin + 1)
            ≤ circpadHistogramBinToUsec state mi.rttEstimateUsec bin then
          circpadHistogramBinToUsec state mi.rttEstimateUsec bin
        else
          cryptoFastRngUint64Range rng (circpadHistogramBinToUsec state mi.rttEstimateUsec bin)
            (circpadHistogramBinToUsec state mi.rttEstimateUsec (bin + 1)) := by
  obtain ⟨noDist, tokens, chosen⟩ := selectedBin_some mi selected
  rw [circpadMachineSampleDelay, if_neg noDist]
  dsimp only
  rw [if_neg tokens, chosen]
  dsimp only
  rw [if_neg (by omega)]
  split <;> rfl

/-- Each bin is chosen by as many choices as it has tokens, every choice is of a bin with tokens,
and the delay lies between the edges of the chosen bin. -/
structure ProportionalDraws (sampleIatDelay : CircpadState → Nat → Nat)
    (mi : CircpadMachineRuntime state) : Prop where
  counts : ∀ bin, bin < state.histogramLen →
    (List.range (samplingHistogram mi).2).countP (fun binChoice =>
        decide (selectedBin mi binChoice = some bin))
      = (samplingHistogram mi).1.getD bin 0
  nonempty : ∀ binChoice, binChoice < (samplingHistogram mi).2 → ∃ bin,
    selectedBin mi binChoice = some bin ∧ bin < state.histogramLen
      ∧ (samplingHistogram mi).1.getD bin 0 ≠ 0
  delays : ∀ (rng : FastRng) (binChoice bin : Nat), binChoice < (samplingHistogram mi).2 →
    selectedBin mi binChoice = some bin → bin < circpadInfinityBin state →
      binEdge state mi.rttEstimateUsec bin
          ≤ (circpadMachineSampleDelay sampleIatDelay rng mi binChoice).2
        ∧ (circpadMachineSampleDelay sampleIatDelay rng mi binChoice).2
          < binEdge state mi.rttEstimateUsec (bin + 1)

/-- The delays are drawn from the histogram, all tokens of which are in one bin; the lower edge of
this bin fits into 32 bits unless it is the infinity bin. -/
def AllInOneBin (mi : CircpadMachineRuntime state) : Prop :=
  state.hasIatDist = false ∧ ∃ bin, bin < state.histogramLen
    ∧ (samplingHistogram mi).1.getD bin 0 ≠ 0
    ∧ (∀ other, (samplingHistogram mi).1.getD other 0 ≠ 0 → other = bin)
    ∧ (bin < circpadInfinityBin state → binEdge state mi.rttEstimateUsec bin < 2 ^ 32)

theorem samplingHistogram_spec (valid : ValidHistogram state) (mi : CircpadMachineRuntime state) :
    (samplingHistogram mi).1.length = state.histogramLen
      ∧ (∀ bin, (samplingHistogram mi).1.getD bin 0 < 2 ^ 32)
      ∧ ((samplingHistogram mi).2 = (samplingHistogram mi).1.sum
        ∨ (samplingHistogram mi).2 = (samplingHistogram mi).1.sum % 2 ^ 32) := by
  have small : ∀ tokens : List Nat, (∀ count ∈ tokens, count < 2 ^ 32) →
      ∀ bin, tokens.getD bin 0 < 2 ^ 32 := by
    intro tokens fits bin
    rw [List.getD_eq_getElem?_getD]
    cases read : tokens[bin]? with
    | none => decide
    | some count => exact fits count (List.mem_of_getElem? read)
  rw [samplingHistogram]
  split
  next histogram present =>
    exact ⟨(mi.length histogram present).1, small histogram (mi.fits histogram present), Or.inl rfl⟩
  next => exact ⟨rfl, small _ state.tokensFit, Or.inr valid.total.symm⟩

section Draws

variable (valid : ValidHistogram state) (sampleIatDelay : CircpadState → Nat → Nat)
  (mi : CircpadMachineRuntime state)

theorem selectedBin_eq_chooseBin (noDist : state.hasIatDist = false) {binChoice : Nat}
    (within : binChoice < (samplingHistogram mi).2) :
    selectedBin mi binChoice = chooseBin (samplingHistogram mi).1 binChoice := by
  rw [selectedBin, if_neg (by rw [noDist]; decide), if_neg (by omega)]

theorem countP_other {bin other : Nat} (selects : ∀ binChoice,
    binChoice < (samplingHistogram mi).2 → selectedBin mi binChoice = some bin)
    (differs : other ≠ bin) :
    (List.range (samplingHistogram mi).2).countP (fun binChoice =>
      decide (selectedBin mi binChoice = some other)) = 0 := by
  rw [List.countP_eq_zero]
  intro binChoice member
  rw [decide_eq_true_eq, selects binChoice (List.mem_range.mp member), Option.some.injEq]
  exact fun chosen => differs chosen.symm

include valid

theorem selectedBin_nonempty (noDist : state.hasIatDist = false) {binChoice : Nat}
    (within : binChoice < (samplingHistogram mi).2) :
    ∃ bin, selectedBin mi binChoice = some bin ∧ bin < state.histogramLen
      ∧ (samplingHistogram mi).1.getD bin 0 ≠ 0 := by
  obtain ⟨length, -, total⟩ := samplingHistogram_spec valid mi
  have atMost := Nat.mod_le (samplingHistogram mi).1.sum (2 ^ 32)
  obtain ⟨bin, chosen⟩ : ∃ bin, chooseBin (samplingHistogram mi).1 binChoice = some bin :=
    chooseBin_total _ (by omega) (by omega)
  obtain ⟨inside, nonempty, _⟩ := (chooseBin_eq_some _ _ _).mp chosen
  rw [selectedBin_eq_chooseBin mi noDist within]
  exact ⟨bin, chosen, by omega, nonempty⟩

theorem proportionalDraws_of_allInOneBin (one : AllInOneBin mi) :
    ProportionalDraws sampleIatDelay mi := by
  obtain ⟨noDist, bin, inside, nonempty, alone, edgeFits⟩ := one
  obtain ⟨length, small, total⟩ := samplingHistogram_spec valid mi
  obtain ⟨front, sum⟩ := tokensBefore_alone (samplingHistogram mi).1 (by omega) alone
  have size := small bin
  have all : (samplingHistogram mi).2 = (samplingHistogram mi).1.getD bin 0 := by
    rw [sum] at total
    omega
  have selects : ∀ binChoice, binChoice < (samplingHistogram mi).2 →
      selectedBin mi binChoice = some bin := by
    intro binChoice within
    obtain ⟨chosen, selected, _, chosenTokens⟩ := selectedBin_nonempty valid mi noDist within
    rw [selected, alone chosen chosenTokens]
  constructor
  · intro other _
    by_cases same : other = bin
    · have every := List.countP_eq_length.mpr fun binChoice (member : binChoice ∈
          List.range (samplingHistogram mi).2) =>
        decide_eq_true (selects binChoice (List.mem_range.mp member))
      rw [List.length_range] at every
      rw [same, ← all, every]
    · have none : (samplingHistogram mi).1.getD other 0 = 0 :=
        by_contra fun tokens => same (alone other tokens)
      rw [none, countP_other mi selects same]
  · exact fun binChoice within => selectedBin_nonempty valid mi noDist within
  · intro rng binChoice chosen within selected ahead
    rw [selects binChoice within, Option.some.injEq] at selected
    subst selected
    have fits := edgeFits ahead
    have later : bin + 1 < state.histogramLen := by
      rw [circpadInfinityBin] at ahead
      omega
    have width := valid.binEdge_lt mi.rttEstimateUsec (Nat.lt_add_one bin) later
    have wrapped := Nat.mod_le (binEdge state mi.rttEstimateUsec (bin + 1)) (2 ^ 32)
    rw [circpadMachineSampleDelay_delay sampleIatDelay rng mi binChoice (selects binChoice within)
      ahead, circpadHistogramBinToUsec_eq inside, circpadHistogramBinToUsec_eq later,
      Nat.mod_eq_of_lt fits]
    split
    next => exact ⟨le_rfl, width⟩
    next apart =>
      rw [cryptoFastRngUint64Range, if_neg apart]
      have below := rng.property (binEdge state mi.rttEstimateUsec (bin + 1) % 2 ^ 32
        - binEdge state mi.rttEstimateUsec bin) (by omega)
      omega

/-- The first bin with tokens is chosen by one choice more than it has, if there are as many. -/
theorem countP_firstBin (noDist : state.hasIatDist = false) {bin : Nat}
    (inside : bin < state.histogramLen) (nonempty : (samplingHistogram mi).1.getD bin 0 ≠ 0)
    (front : tokensBefore (samplingHistogram mi).1 bin = 0)
    (more : (samplingHistogram mi).1.getD bin 0 < (samplingHistogram mi).2) :
    (samplingHistogram mi).1.getD bin 0
      < (List.range (samplingHistogram mi).2).countP fun binChoice =>
        decide (selectedBin mi binChoice = some bin) := by
  obtain ⟨length, _, _⟩ := samplingHistogram_spec valid mi
  have upTo := tokensBefore_succ (samplingHistogram mi).1 bin
  have lower := (List.range_sublist.mpr (Nat.succ_le_of_lt more)).countP_le
    (p := fun binChoice => decide (selectedBin mi binChoice = some bin))
  have every : (List.range ((samplingHistogram mi).1.getD bin 0 + 1)).countP
      (fun binChoice => decide (selectedBin mi binChoice = some bin))
      = (List.range ((samplingHistogram mi).1.getD bin 0 + 1)).length := by
    apply List.countP_eq_length.mpr
    intro binChoice member
    have small := List.mem_range.mp member
    rw [selectedBin_eq_chooseBin mi noDist (by omega), decide_eq_true_eq]
    apply (chooseBin_eq_some _ _ _).mpr
    exact ⟨by omega, nonempty, by omega, Or.inl front⟩
  rw [List.length_range] at every
  rw [Nat.succ_eq_add_one, every] at lower
  exact lower

theorem allInOneBin_of_proportionalDraws (tokens : 0 < (samplingHistogram mi).1.sum)
    (draws : ProportionalDraws sampleIatDelay mi) : AllInOneBin mi := by
  obtain ⟨length, small, _⟩ := samplingHistogram_spec valid mi
  obtain ⟨bin, first⟩ := chooseBin_total (samplingHistogram mi).1 tokens (Nat.zero_le _)
  obtain ⟨inside, nonempty, -, front⟩ := (chooseBin_eq_some _ _ _).mp first
  have front : tokensBefore (samplingHistogram mi).1 bin = 0 := by omega
  have noDist : state.hasIatDist = false := by
    by_contra dist
    have count := draws.counts bin (by omega)
    have none : ∀ binChoice, selectedBin mi binChoice = none := fun binChoice =>
      if_pos (eq_true_of_ne_false dist)
    simp only [none, reduceCtorEq, decide_false, List.countP_false] at count
    exact nonempty count.symm
  have enough : (samplingHistogram mi).2 ≤ (samplingHistogram mi).1.getD bin 0 := by
    by_contra more
    have := countP_firstBin valid mi noDist (by omega) nonempty front (by omega)
    have := draws.counts bin (by omega)
    omega
  have upTo := tokensBefore_succ (samplingHistogram mi).1 bin
  have selects : ∀ binChoice, binChoice < (samplingHistogram mi).2 →
      selectedBin mi binChoice = some bin := by
    intro binChoice within
    rw [selectedBin_eq_chooseBin mi noDist within]
    exact (chooseBin_eq_some _ _ _).mpr ⟨inside, nonempty, by omega, Or.inl front⟩
  have alone : ∀ other, (samplingHistogram mi).1.getD other 0 ≠ 0 → other = bin := by
    intro other otherTokens
    by_contra differs
    have within : other < state.histogramLen := by
      by_contra outside
      rw [List.getD_eq_default _ _ (by omega)] at otherTokens
      exact otherTokens rfl
    rw [← draws.counts other within] at otherTokens
    exact otherTokens (countP_other mi selects differs)
  refine ⟨noDist, bin, by omega, nonempty, alone, ?_⟩
  intro ahead
  have some : 0 < (samplingHistogram mi).2 := by
    by_contra none
    have count := draws.counts bin (by omega)
    rw [Nat.eq_zero_of_not_pos none] at count
    exact nonempty count.symm
  -- the least value of the bin's range is its shifted edge without what leaves 32 bits
  let least : FastRng := ⟨fun _ => 0, fun _ positive => positive⟩
  have bounds := (draws.delays least 0 bin some (selects 0 some) ahead).1
  have atEdge : ∀ min max, cryptoFastRngUint64Range least min max = min := by
    intro min max
    rw [cryptoFastRngUint64Range]
    split <;> rfl
  rw [circpadMachineSampleDelay_delay sampleIatDelay least mi 0 (selects 0 some) ahead, atEdge,
    ite_self, circpadHistogramBinToUsec_eq (show bin < state.histogramLen by omega)] at bounds
  exact lt_of_le_of_lt bounds (Nat.mod_lt _ (by decide))

end Draws

/-- For a valid state and a histogram with tokens the draws are in proportion to the tokens
exactly if all of them are in one bin. -/
theorem circpadMachineSampleDelay_proportional_iff (sampleIatDelay : CircpadState → Nat → Nat)
    (state : CircpadState) (mi : CircpadMachineRuntime state)
    (valid : paddingMachineStateIsValid state = true) (tokens : 0 < (samplingHistogram mi).1.sum) :
    ProportionalDraws sampleIatDelay mi ↔ AllInOneBin mi := by
  have bins : state.histogramLen ≠ 0 := by
    intro none
    have nil : (samplingHistogram mi).1 = [] := by
      rw [samplingHistogram]
      split
      next histogram present =>
        have length := mi.length histogram present
        exact List.length_eq_zero_iff.mp (by omega)
      next => exact List.length_eq_zero_iff.mp none
    rw [nil] at tokens
    exact absurd tokens (by decide)
  have histogram := ((paddingMachineStateIsValid_iff state).mp valid).resolve_left bins
  constructor
  · exact allInOneBin_of_proportionalDraws histogram sampleIatDelay mi tokens
  · exact proportionalDraws_of_allInOneBin histogram sampleIatDelay mi

/-- Of the seven choices two are of bin 0, which has one token. -/
theorem circpadMachineSampleDelay_firstBin :
    ¬ ∀ (sampleIatDelay : CircpadState → Nat → Nat) (state : CircpadState)
      (mi : CircpadMachineRuntime state), paddingMachineStateIsValid state = true →
      0 < (samplingHistogram mi).1.sum → ProportionalDraws sampleIatDelay mi := by
  intro proportional
  have draws := proportional (fun _ _ => 0) basicBurstState basicBurstRuntime (by decide) (by decide)
  exact absurd (draws.counts 0 (by decide)) (by decide)

/-- The histogram when only the tokens of bin 2 are left. -/
def lastBinRuntime : CircpadMachineRuntime basicBurstState where
  histogram := some [0, 0, 2, 0, 0]
  chosenBin := 0
  rttEstimateUsec := 1000
  removal := by decide
  length := by decide
  fits := by decide
  rttFits := basicBurstRuntime.rttFits

theorem circpadMachineSampleDelay_proportional_iff_lastBin :
    ProportionalDraws (fun _ _ => 0) lastBinRuntime ↔ AllInOneBin lastBinRuntime :=
  circpadMachineSampleDelay_proportional_iff (fun _ _ => 0) basicBurstState lastBinRuntime
    (by decide) (by decide)

end RendezMix.Guarantees
