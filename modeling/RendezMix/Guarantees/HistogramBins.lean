import RendezMix.Source.CircuitPadding

/-!
# Which bin a delay falls into

The edges of a valid histogram increase, and each is shifted by the RTT estimate of the machine.
`circpad_histogram_usec_to_bin` walks over the upper bounds of the bins, which are shifted
already, and adds the estimate to them once more. The bin that it finds is compared with the one
in which the delay lies by the edges.
-/
namespace RendezMix.Guarantees
open Source Library.IndexScans

/-- What `padding_machine_state_is_valid` checks of a state with a histogram. -/
structure ValidHistogram (state : CircpadState) : Prop where
  bins : 2 ≤ state.histogramLen
  increasing : state.histogramEdges.Pairwise (· < ·)
  total : state.histogram.sum % 2 ^ 32 = state.histogramTotalTokens

theorem countTokens_later {prevBinEdge tokensCount counted : Nat} (small : tokensCount < 2 ^ 32)
    {bins : List (Nat × Nat)} :
    countTokens false prevBinEdge tokensCount bins = some counted ↔
      (prevBinEdge :: bins.map Prod.fst).Pairwise (· < ·)
        ∧ (tokensCount + (bins.map Prod.snd).sum) % 2 ^ 32 = counted := by
  induction bins generalizing prevBinEdge tokensCount with
  | nil =>
    rw [countTokens, List.map_nil, List.map_nil, List.sum_nil, Nat.add_zero,
      Nat.mod_eq_of_lt small, Option.some.injEq]
    exact ⟨fun same => ⟨List.pairwise_singleton _ _, same⟩, And.right⟩
  | cons bin rest ih =>
    obtain ⟨edge, tokens⟩ := bin
    rw [countTokens, List.map_cons, List.map_cons, List.sum_cons]
    by_cases stops : edge ≤ prevBinEdge
    · rw [if_pos ⟨stops, rfl⟩]
      simp only [reduceCtorEq, List.pairwise_cons, List.mem_cons, forall_eq_or_imp, false_iff]
      omega
    · rw [if_neg (fun both => stops both.1), ih (Nat.mod_lt _ (by decide)), Nat.mod_add_mod,
        Nat.add_assoc]
      simp only [List.pairwise_cons, List.mem_cons, forall_eq_or_imp]
      constructor
      · intro ⟨⟨above, ordered⟩, sum⟩
        refine ⟨⟨⟨by omega, ?_⟩, above, ordered⟩, sum⟩
        exact fun later member => lt_trans (by omega) (above later member)
      · exact fun ⟨⟨_, rest⟩, sum⟩ => ⟨rest, sum⟩

theorem countTokens_all (bins : List (Nat × Nat)) (counted : Nat) :
    countTokens true 0 0 bins = some counted ↔
      (bins.map Prod.fst).Pairwise (· < ·) ∧ (bins.map Prod.snd).sum % 2 ^ 32 = counted := by
  cases bins with
  | nil => simp [countTokens]
  | cons bin rest =>
    obtain ⟨edge, tokens⟩ := bin
    rw [countTokens, if_neg (by simp), countTokens_later (Nat.mod_lt _ (by decide)),
      Nat.mod_add_mod, Nat.zero_add]
    rfl

theorem paddingMachineStateIsValid_iff (state : CircpadState) :
    paddingMachineStateIsValid state = true ↔
      state.histogramLen = 0 ∨ ValidHistogram state := by
  have edges : (state.histogramEdges.zip state.histogram).map Prod.fst = state.histogramEdges :=
    List.map_fst_zip state.sameLength.le
  have tokens : (state.histogramEdges.zip state.histogram).map Prod.snd = state.histogram :=
    List.map_snd_zip state.sameLength.ge
  have loop := countTokens_all (state.histogramEdges.zip state.histogram)
  rw [edges, tokens] at loop
  rw [paddingMachineStateIsValid]
  by_cases none : state.histogramLen = 0
  · simp [none]
  rw [if_neg none]
  by_cases one : state.histogramLen < 2
  · rw [if_pos one]
    simp only [Bool.false_eq_true, none, false_or, false_iff]
    exact fun valid => absurd valid.bins (by omega)
  rw [if_neg one]
  cases counted : countTokens true 0 0 (state.histogramEdges.zip state.histogram) with
  | none =>
    simp only [Bool.false_eq_true, none, false_or, false_iff]
    intro valid
    rw [(loop _).mpr ⟨valid.increasing, rfl⟩] at counted
    cases counted
  | some tokensCount =>
    obtain ⟨ordered, sum⟩ := (loop tokensCount).mp counted
    simp only [beq_iff_eq, none, false_or]
    constructor
    · exact fun same => ⟨by omega, ordered, sum.trans same⟩
    · exact fun valid => sum.symm.trans valid.total

variable {state : CircpadState} {rtt usec : Nat}

/-- The lower edge of a bin, with the shift and without a bound on its size. -/
def binEdge (state : CircpadState) (rtt bin : Nat) : Nat :=
  state.histogramEdges.getD bin 0 + rttAddUsec state rtt

section

variable {bin i j : Nat}

section

variable (valid : ValidHistogram state)

include valid

theorem ValidHistogram.binEdge_lt (rtt : Nat) (before : i < j) (within : j < state.histogramLen) :
    binEdge state rtt i < binEdge state rtt j := by
  have same := state.sameLength
  have len : state.histogramLen = state.histogram.length := rfl
  rw [binEdge, binEdge, List.getD_eq_getElem _ _ (by omega), List.getD_eq_getElem _ _ (by omega)]
  have := List.pairwise_iff_getElem.mp valid.increasing i j (by omega) (by omega) before
  omega

theorem ValidHistogram.binEdge_le (rtt : Nat) (before : i ≤ j) (within : j < state.histogramLen) :
    binEdge state rtt i ≤ binEdge state rtt j := by
  cases Nat.lt_or_eq_of_le before with
  | inl less => exact (valid.binEdge_lt rtt less within).le
  | inr same => rw [same]

end

theorem circpadHistogramBinToUsec_eq (within : bin < state.histogramLen) :
    circpadHistogramBinToUsec state rtt bin = binEdge state rtt bin % 2 ^ 32 := by
  rw [circpadHistogramBinToUsec, if_neg, binEdge]
  rw [circpadInfinityBin]
  omega

theorem ValidHistogram.upperBound_eq (valid : ValidHistogram state)
    (within : bin + 1 < state.histogramLen) :
    histogramGetBinUpperBound state rtt bin = (binEdge state rtt (bin + 1) - 1) % 2 ^ 32 := by
  have := valid.binEdge_lt rtt (Nat.lt_add_one bin) within
  rw [histogramGetBinUpperBound, circpadHistogramBinToUsec_eq within]
  omega

/-- What the walk over the bins compares a delay with. -/
def binThreshold (state : CircpadState) (rtt bin : Nat) : Nat :=
  (histogramGetBinUpperBound state rtt bin + rttAddUsec state rtt) % 2 ^ 32

theorem ValidHistogram.usecToBin_eq_iff (valid : ValidHistogram state) :
    circpadHistogramUsecToBin state rtt usec = bin ↔
      bin + 1 < state.histogramLen ∧ (∀ i, i < bin → binThreshold state rtt i < usec)
        ∧ (bin + 2 < state.histogramLen → usec ≤ binThreshold state rtt bin) := by
  have bins := valid.bins
  have last : (circpadInfinityBin state).toNat = state.histogramLen - 1 := by
    rw [circpadInfinityBin]
    omega
  rw [circpadHistogramUsecToBin, last]
  split
  next found scanned =>
    obtain ⟨-, within, passes, before⟩ := scanUp_some.mp scanned
    have passes : usec ≤ binThreshold state rtt found := of_decide_eq_true passes
    have before : ∀ i, i < found → binThreshold state rtt i < usec := fun i less =>
      Nat.lt_of_not_le (of_decide_eq_false (before i i.zero_le less))
    constructor
    · intro same
      have same : found = bin := by omega
      subst same
      exact ⟨by omega, before, fun _ => passes⟩
    · intro ⟨inside, lower, upper⟩
      by_contra other
      cases Nat.lt_or_gt_of_ne (fun same : found = bin => other (by omega)) with
      | inl less =>
        have := lower found less
        omega
      | inr more =>
        have := before bin more
        have := upper (by omega)
        omega
  next scanned =>
    have above : ∀ i, i + 1 < state.histogramLen → binThreshold state rtt i < usec :=
      fun i within => Nat.lt_of_not_le
        (of_decide_eq_false (scanUp_none.mp scanned i i.zero_le (by omega)))
    constructor
    · intro same
      exact ⟨by omega, fun i less => above i (by omega), by omega⟩
    · intro ⟨inside, lower, upper⟩
      by_contra other
      have := above bin inside
      have := upper (by omega)
      omega

/-- The bin of a delay by the edges: the last non-infinity bin that starts at or below it, and
bin 0 if none does. -/
def targetBin (state : CircpadState) (rtt usec : Nat) : Nat :=
  Nat.findGreatest (fun bin => binEdge state rtt bin ≤ usec) (state.histogramLen - 2)

theorem ValidHistogram.targetBin_eq_iff (valid : ValidHistogram state) :
    targetBin state rtt usec = bin ↔
      bin + 1 < state.histogramLen ∧ (∀ i, i < bin → binEdge state rtt (i + 1) ≤ usec)
        ∧ (bin + 2 < state.histogramLen → usec < binEdge state rtt (bin + 1)) := by
  have bins := valid.bins
  rw [targetBin, Nat.findGreatest_eq_iff]
  constructor
  · intro ⟨within, starts, above⟩
    refine ⟨by omega, ?_, ?_⟩
    · intro i less
      have := valid.binEdge_le rtt (i := i + 1) less (by omega)
      exact le_trans this (starts (by omega))
    · intro more
      exact Nat.lt_of_not_le (above bin.lt_succ_self (by omega))
  · intro ⟨within, lower, upper⟩
    refine ⟨by omega, ?_, ?_⟩
    · intro positive
      have starts := lower (bin - 1) (by omega)
      rw [Nat.sub_add_cancel (by omega)] at starts
      exact starts
    · intro later more less
      have := valid.binEdge_le rtt (i := bin + 1) more (by omega)
      have := upper (by omega)
      exact Nat.not_le_of_lt (by omega)

/-- No edge is shifted out of 32 bits. -/
def SumsFit (state : CircpadState) (rtt : Nat) : Prop :=
  ∀ bin, bin < state.histogramLen → binEdge state rtt bin < 2 ^ 32

/-- A delay between the bounds of a non-infinity bin is mapped to it, one below the first edge to
bin 0 and one above the last non-infinity bin to this bin. -/
structure InvertsEdges (state : CircpadState) (rtt usec : Nat) : Prop where
  inside : ∀ bin : Nat, bin < circpadInfinityBin state →
    circpadHistogramBinToUsec state rtt bin ≤ usec → usec ≤ histogramGetBinUpperBound state rtt bin →
      circpadHistogramUsecToBin state rtt usec = bin
  below : 0 < state.histogramLen → usec < circpadHistogramBinToUsec state rtt 0 →
    circpadHistogramUsecToBin state rtt usec = 0
  above : ∀ last : Nat, (last : Int) = circpadInfinityBin state - 1 →
    histogramGetBinUpperBound state rtt last < usec →
      circpadHistogramUsecToBin state rtt usec = last

theorem ValidHistogram.invertsEdges_iff_targetBin (valid : ValidHistogram state)
    (fit : SumsFit state rtt) :
    InvertsEdges state rtt usec ↔
      circpadHistogramUsecToBin state rtt usec = targetBin state rtt usec := by
  have bins := valid.bins
  have edge : ∀ bin, bin < state.histogramLen →
      circpadHistogramBinToUsec state rtt bin = binEdge state rtt bin := fun bin within => by
    rw [circpadHistogramBinToUsec_eq within, Nat.mod_eq_of_lt (fit bin within)]
  have upper : ∀ bin, bin + 1 < state.histogramLen →
      histogramGetBinUpperBound state rtt bin + 1 = binEdge state rtt (bin + 1) := by
    intro bin within
    have := valid.binEdge_lt rtt (Nat.lt_add_one bin) within
    have := fit (bin + 1) within
    rw [valid.upperBound_eq within]
    omega
  have infinity : circpadInfinityBin state = state.histogramLen - 1 := rfl
  constructor
  · intro inverts
    obtain ⟨inside, lower, next⟩ := valid.targetBin_eq_iff.mp (rfl : targetBin state rtt usec = _)
    generalize targetBin state rtt usec = target at inside lower next ⊢
    by_cases starts : binEdge state rtt target ≤ usec
    · by_cases ends : usec < binEdge state rtt (target + 1)
      · have := upper target inside
        have := edge target (by omega)
        exact inverts.inside target (by omega) (by omega) (by omega)
      · have := upper target inside
        exact inverts.above target (by omega) (by omega)
    · have first : target = 0 := by
        by_contra positive
        have := lower (target - 1) (by omega)
        rw [Nat.sub_add_cancel (by omega)] at this
        exact starts this
      subst first
      have := edge 0 (by omega)
      exact inverts.below (by omega) (by omega)
  · intro found
    constructor
    · intro bin within starts ends
      have := upper bin (by omega)
      have := edge bin (by omega)
      have target : targetBin state rtt usec = bin := by
        apply valid.targetBin_eq_iff.mpr
        refine ⟨by omega, ?_, by omega⟩
        intro i less
        have := valid.binEdge_le rtt (i := i + 1) less (by omega)
        omega
      rw [found, target]
    · intro _ early
      have := edge 0 (by omega)
      have := valid.binEdge_lt rtt (Nat.lt_add_one 0) (by omega)
      have target : targetBin state rtt usec = 0 :=
        valid.targetBin_eq_iff.mpr ⟨by omega, by omega, by omega⟩
      rw [found, target]
      rfl
    · intro last isLast late
      have := upper last (by omega)
      have target : targetBin state rtt usec = last := by
        apply valid.targetBin_eq_iff.mpr
        refine ⟨by omega, ?_, by omega⟩
        intro i less
        have := valid.binEdge_le rtt (i := i + 1) (j := last + 1) (by omega) (by omega)
        omega
      rw [found, target]

/-- Adding the shift a second time leaves every inner edge on its side of the delay: those at or
below it stay there or leave 32 bits, and the first one above it stays above it. -/
structure ShiftHarmless (state : CircpadState) (rtt usec : Nat) : Prop where
  lower : ∀ bin, bin + 2 < state.histogramLen → binEdge state rtt (bin + 1) ≤ usec →
    binEdge state rtt (bin + 1) + rttAddUsec state rtt ≤ usec
      ∨ 2 ^ 32 < binEdge state rtt (bin + 1) + rttAddUsec state rtt
  next : ∀ bin, bin + 2 < state.histogramLen → usec < binEdge state rtt (bin + 1) →
    (∀ i, i < bin → binEdge state rtt (i + 1) ≤ usec) →
    binEdge state rtt (bin + 1) + rttAddUsec state rtt ≤ 2 ^ 32
      ∨ usec + 2 ^ 32 < binEdge state rtt (bin + 1) + rttAddUsec state rtt

theorem ValidHistogram.binThreshold_eq (valid : ValidHistogram state)
    (within : bin + 1 < state.histogramLen) :
    binThreshold state rtt bin
      = (binEdge state rtt (bin + 1) - 1 + rttAddUsec state rtt) % 2 ^ 32 := by
  rw [binThreshold, valid.upperBound_eq within, Nat.mod_add_mod]

end

theorem rttAddUsec_lt (state : CircpadState) (rttFits : rtt < 2 ^ 32) : rttAddUsec state rtt < 2 ^ 32 := by
  rw [rttAddUsec]
  split
  · exact rttFits
  · decide

theorem ValidHistogram.shiftHarmless_iff (valid : ValidHistogram state) (rttFits : rtt < 2 ^ 32)
    (fit : SumsFit state rtt) :
    ShiftHarmless state rtt usec ↔
      circpadHistogramUsecToBin state rtt usec = targetBin state rtt usec := by
  have shift := rttAddUsec_lt state rttFits
  obtain ⟨inside, lower, next⟩ := valid.targetBin_eq_iff.mp (rfl : targetBin state rtt usec = _)
  rw [valid.usecToBin_eq_iff]
  generalize targetBin state rtt usec = target at inside lower next ⊢
  constructor
  · intro harmless
    refine ⟨inside, ?_, ?_⟩
    · intro i less
      have starts := lower i less
      have := fit (i + 1) (by omega)
      have := valid.binEdge_lt rtt (Nat.lt_add_one i) (by omega)
      have := harmless.lower i (by omega) starts
      rw [valid.binThreshold_eq (by omega)]
      omega
    · intro more
      have ends := next more
      have := fit (target + 1) (by omega)
      have := harmless.next target more ends lower
      rw [valid.binThreshold_eq (by omega)]
      omega
  · intro ⟨_, passed, stopped⟩
    constructor
    · intro bin more starts
      have less : bin < target := by
        by_contra later
        have := valid.binEdge_le rtt (i := target + 1) (j := bin + 1) (by omega) (by omega)
        have := next (by omega)
        omega
      have below := passed bin less
      have := fit (bin + 1) (by omega)
      have := valid.binEdge_lt rtt (Nat.lt_add_one bin) (by omega)
      rw [valid.binThreshold_eq (by omega)] at below
      omega
    · intro bin more ends first
      have here : bin = target := by
        apply Nat.le_antisymm
        · by_contra later
          have := first target (by omega)
          have := next (by omega)
          omega
        · by_contra earlier
          have := lower bin (by omega)
          omega
      subst here
      have above := stopped more
      have := fit (bin + 1) (by omega)
      rw [valid.binThreshold_eq (by omega)] at above
      omega

/-- The lookup inverts the edges for a delay exactly if the second shift does no harm. -/
theorem circpadHistogramUsecToBin_inverts_iff (state : CircpadState) (rtt usec : Nat)
    (valid : paddingMachineStateIsValid state = true) (rttFits : rtt < 2 ^ 32)
    (fit : SumsFit state rtt) : InvertsEdges state rtt usec ↔ ShiftHarmless state rtt usec := by
  cases (paddingMachineStateIsValid_iff state).mp valid with
  | inl none =>
    have infinity : circpadInfinityBin state = state.histogramLen - 1 := rfl
    constructor
    · intro _
      exact ⟨by omega, by omega⟩
    · intro _
      exact ⟨by omega, by omega, by omega⟩
  | inr histogram =>
    rw [histogram.shiftHarmless_iff rttFits fit, histogram.invertsEdges_iff_targetBin fit]

/-- A state of five bins that uses the RTT estimate. -/
def basicBurstState : CircpadState where
  histogram := [1, 0, 2, 2, 2]
  histogramEdges := [500, 2500, 5000, 10000, 20000]
  histogramTotalTokens := 7
  hasIatDist := false
  distAddedShiftUsec := 0
  tokenRemoval := .higher
  useRttEstimate := true
  sameLength := rfl
  short := by decide
  tokensFit := by decide
  edgesFit := by decide

/-- The five bins with their first tokens and an estimate of a millisecond. -/
def basicBurstRuntime : CircpadMachineRuntime basicBurstState where
  histogram := some [1, 0, 2, 2, 2]
  chosenBin := 0
  rttEstimateUsec := 1000
  removal := by decide
  length := by decide
  fits := by decide
  rttFits := by decide

theorem basicBurstState_sumsFit : SumsFit basicBurstState 1000 := by
  unfold SumsFit
  decide

/-- With an estimate of a millisecond the lower edge of bin 1, at 3500, is mapped to bin 0. -/
theorem circpadHistogramUsecToBin_edge :
    ¬ ∀ (state : CircpadState) (rtt usec : Nat), paddingMachineStateIsValid state = true →
      rtt < 2 ^ 32 → SumsFit state rtt → InvertsEdges state rtt usec := by
  intro inverts
  have sums := inverts basicBurstState 1000 3500 (by decide) (by decide) basicBurstState_sumsFit
  have inside := sums.inside 1 (by decide) (by decide) (by decide)
  exact absurd inside (by decide)

/-- A delay in the middle of the same bin is mapped to it. -/
theorem circpadHistogramUsecToBin_inverts_iff_middle :
    InvertsEdges basicBurstState 1000 5000 ↔ ShiftHarmless basicBurstState 1000 5000 :=
  circpadHistogramUsecToBin_inverts_iff basicBurstState 1000 5000 (by decide) (by decide)
    basicBurstState_sumsFit

end RendezMix.Guarantees
