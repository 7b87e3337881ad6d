import RendezMix.Guarantees.HistogramBins

/-!
# Which token is removed

When a cell is sent in place of padding, a token is taken from a bin near the delay after which it
was sent. The four strategies scan for non-empty bins from the bin that
`circpad_histogram_usec_to_bin` finds. None of them touches the infinity bin or an empty one. That
they take the token of the nearest bin depends on this lookup, on the bounds not leaving 32 bits
and, for the distance of midpoints, on the widths of neighbouring bins.
-/
namespace RendezMix.Guarantees
open Source Library.IndexScans CircpadMachineRuntime

variable {state : CircpadState} {rtt target : Nat}

/-- A bin other than the infinity bin that has tokens. -/
def HasToken (mi : CircpadMachineRuntime state) (bin : Nat) : Prop :=
  bin + 1 < state.histogramLen ∧ mi.tokens bin ≠ 0

/-- Nothing is removed, or one token of a non-empty bin in front of the infinity bin. -/
def OneTokenAtMost (mi after : CircpadMachineRuntime state) : Prop :=
  after = mi ∨ ∃ bin, HasToken mi bin ∧ after = mi.decrement bin

/-- A token is removed from a non-empty candidate with the least distance, if there is one. -/
def TakesNearest (mi after : CircpadMachineRuntime state) (candidate : Nat → Prop)
    (distance : Nat → Nat) : Prop :=
  (∃ bin, HasToken mi bin ∧ candidate bin ∧ after = mi.decrement bin
    ∧ ∀ other, HasToken mi other → candidate other →
      distance bin ≤ distance other)
  ∨ (∀ bin, HasToken mi bin → ¬ candidate bin) ∧ after = mi

/-- The middle of a bin, between its bounds without a limit on their size. -/
def binMidpoint (state : CircpadState) (rtt bin : Nat) : Nat :=
  binEdge state rtt bin + (binEdge state rtt (bin + 1) - 1 - binEdge state rtt bin) / 2

/-- What the strategies promise: the nearest bin at or above the target, the nearest at or below
it, the nearest by index, and the one with the nearest midpoint. -/
structure TakesRightToken (mi : CircpadMachineRuntime state) (target : Nat) : Prop where
  higher : TakesNearest mi (circpadMachineRemoveHigherToken mi target)
    (fun bin => target < binEdge state mi.rttEstimateUsec (bin + 1)) (fun bin => bin)
  lower : TakesNearest mi (circpadMachineRemoveLowerToken mi target)
    (fun bin => binEdge state mi.rttEstimateUsec bin ≤ target)
    (fun bin => state.histogramLen - bin)
  closest : TakesNearest mi (circpadMachineRemoveClosestToken mi target false)
    (fun _ => True) (fun bin => Nat.dist bin (targetBin state mi.rttEstimateUsec target))
  closestUsec : TakesNearest mi (circpadMachineRemoveClosestToken mi target true)
    (fun _ => True) (fun bin => Nat.dist (binMidpoint state mi.rttEstimateUsec bin) target)

theorem runtime_histogram (mi : CircpadMachineRuntime state) (removal : state.tokenRemoval ≠ .none) :
    ∃ tokens, mi.histogram = some tokens ∧ tokens.length = state.histogramLen := by
  obtain ⟨tokens, present⟩ := Option.isSome_iff_exists.mp (mi.removal.mpr removal)
  exact ⟨tokens, present, (mi.length tokens present).1⟩

theorem runtime_histogramLen (mi : CircpadMachineRuntime state)
    (removal : state.tokenRemoval ≠ .none) : mi.histogramLen = state.histogramLen := by
  obtain ⟨tokens, present, length⟩ := runtime_histogram mi removal
  rw [histogramLen, present]
  exact length

theorem decrement_tokens (mi : CircpadMachineRuntime state) (bin other : Nat) :
    (mi.decrement bin).tokens other = mi.tokens other - if other = bin then 1 else 0 := by
  rw [tokens, tokens, decrement]
  dsimp only
  cases mi.histogram with
  | none => simp
  | some tokens =>
    simp only [Option.map_some, Option.getD_some, List.getD_eq_getElem?_getD, List.getElem?_modify]
    cases tokens[other]? with
    | none => simp
    | some count =>
      by_cases same : bin = other
      · simp [same]
      · simp [same, Ne.symm same]

theorem decrement_injective (mi : CircpadMachineRuntime state) {bin other : Nat}
    (nonempty : mi.tokens bin ≠ 0) (same : mi.decrement bin = mi.decrement other) : bin = other := by
  by_contra differ
  have counts := congrArg (fun after => tokens after bin) same
  simp only [decrement_tokens, if_neg differ, if_true] at counts
  omega

theorem decrement_ne (mi : CircpadMachineRuntime state) {bin : Nat} (nonempty : mi.tokens bin ≠ 0) :
    mi.decrement bin ≠ mi := by
  intro same
  have counts := congrArg (fun after => tokens after bin) same
  simp only [decrement_tokens, if_true] at counts
  omega

section Safety

variable (valid : ValidHistogram state) (mi : CircpadMachineRuntime state)

include valid

theorem ValidHistogram.usecToBin_exists (rtt usec : Nat) :
    ∃ bin : Nat, circpadHistogramUsecToBin state rtt usec = bin ∧ bin + 1 < state.histogramLen := by
  have bins := valid.bins
  have nonneg : 0 ≤ circpadHistogramUsecToBin state rtt usec := by
    rw [circpadHistogramUsecToBin, circpadInfinityBin]
    split <;> omega
  obtain ⟨bin, same⟩ := Int.eq_ofNat_of_zero_le nonneg
  exact ⟨bin, same, (valid.usecToBin_eq_iff.mp same).1⟩

/-- The search upwards: the first bin with tokens from the one that is looked up on whose upper
bound is not below the target, or the length of the histogram. -/
theorem firstHigherIndex_cases (removal : state.tokenRemoval ≠ .none) {current : Nat}
    (lookup : circpadHistogramUsecToBin state mi.rttEstimateUsec target = current) :
    (∃ bin, circpadMachineFirstHigherIndex mi target = bin ∧ current ≤ bin ∧ HasToken mi bin
      ∧ target ≤ histogramGetBinUpperBound state mi.rttEstimateUsec bin
      ∧ ∀ other, current ≤ other → other < bin → HasToken mi other →
        ¬ target ≤ histogramGetBinUpperBound state mi.rttEstimateUsec other)
    ∨ circpadMachineFirstHigherIndex mi target = state.histogramLen
      ∧ ∀ other, current ≤ other → HasToken mi other →
        ¬ target ≤ histogramGetBinUpperBound state mi.rttEstimateUsec other := by
  have within := (valid.usecToBin_eq_iff.mp lookup).1
  rw [circpadMachineFirstHigherIndex, lookup, runtime_histogramLen mi removal, Int.toNat_natCast]
  cases scanned : scanUp _ (state.histogramLen - 1 - current) current with
  | some bin =>
    obtain ⟨after, inside, passes, before⟩ := scanUp_some.mp scanned
    obtain ⟨nonempty, bound⟩ := of_decide_eq_true passes
    refine Or.inl ⟨bin, rfl, after, ⟨by omega, nonempty⟩, bound, ?_⟩
    intro other above below hasToken reaches
    exact of_decide_eq_false (before other above below) ⟨hasToken.2, reaches⟩
  | none =>
    refine Or.inr ⟨rfl, ?_⟩
    intro other above hasToken reaches
    have inside := hasToken.1
    exact of_decide_eq_false (scanUp_none.mp scanned other above (by omega)) ⟨hasToken.2, reaches⟩

/-- The search downwards: the last bin with tokens up to the one that is looked up which does not
start above the target, or -1. -/
theorem firstLowerIndex_cases {current : Nat}
    (lookup : circpadHistogramUsecToBin state mi.rttEstimateUsec target = current) :
    (∃ bin : Nat, circpadMachineFirstLowerIndex mi target = bin ∧ bin ≤ current ∧ HasToken mi bin
      ∧ circpadHistogramBinToUsec state mi.rttEstimateUsec bin ≤ target
      ∧ ∀ other, bin < other → other ≤ current → HasToken mi other →
        ¬ circpadHistogramBinToUsec state mi.rttEstimateUsec other ≤ target)
    ∨ circpadMachineFirstLowerIndex mi target = -1
      ∧ ∀ other, other ≤ current → HasToken mi other →
        ¬ circpadHistogramBinToUsec state mi.rttEstimateUsec other ≤ target := by
  have within := (valid.usecToBin_eq_iff.mp lookup).1
  rw [circpadMachineFirstLowerIndex, lookup, Int.toNat_natCast]
  split
  next bin scanned =>
    obtain ⟨below, passes, later⟩ := scanDown_some.mp scanned
    obtain ⟨nonempty, starts⟩ := of_decide_eq_true passes
    refine Or.inl ⟨bin, rfl, below, ⟨by omega, nonempty⟩, starts, ?_⟩
    intro other above inside hasToken reaches
    exact of_decide_eq_false (later other above inside) ⟨hasToken.2, reaches⟩
  next scanned =>
    refine Or.inr ⟨rfl, ?_⟩
    intro other inside hasToken reaches
    exact of_decide_eq_false (scanDown_none.mp scanned other inside) ⟨hasToken.2, reaches⟩

omit valid in
theorem ensuredDecrement_of_hasToken {bin : Nat} (hasToken : HasToken mi bin) :
    ensuredDecrement mi bin = mi.decrement bin :=
  if_neg hasToken.2

omit valid in
theorem removeFromBin_of_hasToken (removal : state.tokenRemoval ≠ .none) {bin : Nat}
    (hasToken : HasToken mi bin) : removeFromBin mi bin = mi.decrement bin := by
  have inside := hasToken.1
  have length := runtime_histogramLen mi removal
  rw [removeFromBin, if_pos (by omega), Int.toNat_natCast, if_neg hasToken.2]

section Closest

variable {mi} {current : Nat}
  (lookup : circpadHistogramUsecToBin state mi.rttEstimateUsec target = current)
  (removal : state.tokenRemoval ≠ .none)

include lookup removal

section OneSide

variable (useUsec : Bool)

omit valid in
theorem removeClosest_none (within : current < state.histogramLen)
    (higher : circpadMachineFirstHigherIndex mi target = state.histogramLen)
    (lower : circpadMachineFirstLowerIndex mi target = -1) :
    circpadMachineRemoveClosestToken mi target useUsec = mi := by
  have length := runtime_histogramLen mi removal
  rw [circpadMachineRemoveClosestToken, lookup, higher, lower, length]
  rw [if_neg (by omega), if_pos ⟨rfl, rfl⟩]

variable {bin : Nat} (hasToken : HasToken mi bin)

include hasToken

omit valid in
theorem removeClosest_lower (within : current < state.histogramLen)
    (higher : circpadMachineFirstHigherIndex mi target = state.histogramLen)
    (lower : circpadMachineFirstLowerIndex mi target = bin) (below : bin ≤ current) :
    circpadMachineRemoveClosestToken mi target useUsec = mi.decrement bin := by
  have length := runtime_histogramLen mi removal
  rw [circpadMachineRemoveClosestToken, lookup, higher, lower, length]
  rw [if_neg (by omega), if_neg (by omega), if_pos rfl, Int.toNat_natCast,
    ensuredDecrement_of_hasToken mi hasToken]

omit valid in
theorem removeClosest_higher (higher : circpadMachineFirstHigherIndex mi target = bin)
    (above : current ≤ bin) (lower : circpadMachineFirstLowerIndex mi target = -1) :
    circpadMachineRemoveClosestToken mi target useUsec = mi.decrement bin := by
  have length := runtime_histogramLen mi removal
  have inside := hasToken.1
  rw [circpadMachineRemoveClosestToken, lookup, higher, lower, length]
  rw [if_neg (by omega), if_neg (by omega), if_neg (by omega), if_pos rfl,
    ensuredDecrement_of_hasToken mi hasToken]

end OneSide

section Both

variable {below above : Nat}
  (lower : circpadMachineFirstLowerIndex mi target = below) (lowerBin : below ≤ current)
  (lowerToken : HasToken mi below)
  (higher : circpadMachineFirstHigherIndex mi target = above) (higherBin : current ≤ above)
  (higherToken : HasToken mi above)

include lower lowerBin lowerToken higher higherBin higherToken

omit valid in
theorem removeClosest_index :
    circpadMachineRemoveClosestToken mi target false
      = mi.decrement (if above - current < current - below then above else below) := by
  have length := runtime_histogramLen mi removal
  have inside := higherToken.1
  rw [circpadMachineRemoveClosestToken, lookup, higher, lower, length]
  rw [if_neg (by omega), if_neg (by omega), if_neg (by omega), if_neg (by omega),
    if_neg Bool.false_ne_true, Int.toNat_natCast, ensuredDecrement_of_hasToken mi lowerToken,
    ensuredDecrement_of_hasToken mi higherToken]
  by_cases nearer : above - current < current - below
  · rw [if_pos nearer, if_pos (by omega)]
  · rw [if_neg nearer, if_neg (by omega)]

omit valid in
theorem removeClosest_midpoint :
    circpadMachineRemoveClosestToken mi target true
      = mi.decrement
        (if target < circpadGetHistogramBinMidpoint state mi.rttEstimateUsec below then below
        else if circpadGetHistogramBinMidpoint state mi.rttEstimateUsec above < target then above
        else if circpadGetHistogramBinMidpoint state mi.rttEstimateUsec above - target
            < target - circpadGetHistogramBinMidpoint state mi.rttEstimateUsec below then above
        else below) := by
  have length := runtime_histogramLen mi removal
  have inside := higherToken.1
  rw [circpadMachineRemoveClosestToken, lookup, higher, lower, length]
  dsimp only
  rw [if_neg (by omega), if_neg (by omega), if_neg (by omega), if_neg (by omega), if_pos rfl,
    Int.toNat_natCast, ensuredDecrement_of_hasToken mi lowerToken,
    ensuredDecrement_of_hasToken mi higherToken]
  split
  · rfl
  · split
    · rfl
    · split <;> rfl

end Both

end Closest

theorem removeClosest_oneToken (removal : state.tokenRemoval ≠ .none) (useUsec : Bool) :
    OneTokenAtMost mi (circpadMachineRemoveClosestToken mi target useUsec) := by
  obtain ⟨current, lookup, within⟩ := valid.usecToBin_exists mi.rttEstimateUsec target
  cases firstLowerIndex_cases valid mi lookup with
  | inl found =>
    obtain ⟨below, lower, lowerBin, lowerToken, -⟩ := found
    cases firstHigherIndex_cases valid mi removal lookup with
    | inl found =>
      obtain ⟨above, higher, higherBin, higherToken, -⟩ := found
      right
      cases useUsec with
      | false =>
        rw [removeClosest_index lookup removal lower lowerBin lowerToken higher higherBin
          higherToken]
        split
        · exact ⟨above, higherToken, rfl⟩
        · exact ⟨below, lowerToken, rfl⟩
      | true =>
        rw [removeClosest_midpoint lookup removal lower lowerBin lowerToken higher higherBin
          higherToken]
        split
        · exact ⟨below, lowerToken, rfl⟩
        · split
          · exact ⟨above, higherToken, rfl⟩
          · split
            · exact ⟨above, higherToken, rfl⟩
            · exact ⟨below, lowerToken, rfl⟩
    | inr none =>
      exact Or.inr ⟨below, lowerToken, removeClosest_lower lookup removal useUsec lowerToken (by omega)
        none.1 lower lowerBin⟩
  | inr noLower =>
    cases firstHigherIndex_cases valid mi removal lookup with
    | inl found =>
      obtain ⟨above, higher, higherBin, higherToken, -⟩ := found
      exact Or.inr ⟨above, higherToken, removeClosest_higher lookup removal useUsec higherToken
        higher higherBin noLower.1⟩
    | inr none =>
      exact Or.inl (removeClosest_none lookup removal useUsec (by omega) none.1 noLower.1)

omit valid in
theorem removeFromBin_oneToken (removal : state.tokenRemoval ≠ .none) (bin : Int) :
    OneTokenAtMost mi (removeFromBin mi bin) := by
  have length := runtime_histogramLen mi removal
  rw [removeFromBin]
  split
  next inside =>
    split
    next empty => exact Or.inl rfl
    next nonempty => exact Or.inr ⟨bin.toNat, ⟨by omega, nonempty⟩, rfl⟩
  next outside => exact Or.inl rfl

end Safety

/-- The scans start at the bin of the target and read its neighbours' bounds as they are: the
lookup finds the bin, no upper bound above the target is shifted below it, and bin 0 is not read
as starting at or below a target that lies in front of it. -/
structure Located (state : CircpadState) (rtt target : Nat) : Prop where
  found : circpadHistogramUsecToBin state rtt target = targetBin state rtt target
  upper : ∀ bin, bin + 1 < state.histogramLen → target < binEdge state rtt (bin + 1) →
    target ≤ histogramGetBinUpperBound state rtt bin
  first : circpadHistogramBinToUsec state rtt 0 ≤ target → binEdge state rtt 0 ≤ target

/-- The condition for all four strategies: the target is located and, if it lies in a bin, no
other bin has its midpoint nearer to the target. -/
structure RightlyPlaced (state : CircpadState) (rtt target : Nat) : Prop
    extends Located state rtt target where
  midpoints : binEdge state rtt 0 ≤ target →
    target < binEdge state rtt (state.histogramLen - 1) →
    ∀ bin, bin + 1 < state.histogramLen →
      Nat.dist (binMidpoint state rtt (targetBin state rtt target)) target
        ≤ Nat.dist (binMidpoint state rtt bin) target

section Located

variable (valid : ValidHistogram state)

include valid

theorem targetBin_le_of_lt {bin : Nat}
    (ends : target < binEdge state rtt (bin + 1)) : targetBin state rtt target ≤ bin := by
  obtain ⟨_, lower, _⟩ := valid.targetBin_eq_iff.mp (rfl : targetBin state rtt target = _)
  by_contra later
  have := lower bin (by omega)
  omega

theorem le_targetBin_of_le {bin : Nat} (within : bin + 1 < state.histogramLen)
    (starts : binEdge state rtt bin ≤ target) : bin ≤ targetBin state rtt target := by
  obtain ⟨_, _, next⟩ := valid.targetBin_eq_iff.mp (rfl : targetBin state rtt target = _)
  by_contra earlier
  have := next (by omega)
  have := valid.binEdge_le rtt (i := targetBin state rtt target + 1) (j := bin) (by omega)
    (by omega)
  omega

theorem targetBin_starts {bin : Nat} (positive : 0 < bin)
    (before : bin ≤ targetBin state rtt target) : binEdge state rtt bin ≤ target := by
  obtain ⟨_, lower, _⟩ := valid.targetBin_eq_iff.mp (rfl : targetBin state rtt target = _)
  have starts := lower (bin - 1) (by omega)
  rw [Nat.sub_add_cancel positive] at starts
  exact starts

theorem lt_of_le_upperBound {bin : Nat} (within : bin + 1 < state.histogramLen)
    (reaches : target ≤ histogramGetBinUpperBound state rtt bin) :
    target < binEdge state rtt (bin + 1) := by
  have := valid.binEdge_lt rtt (Nat.lt_add_one bin) within
  have := Nat.mod_le (binEdge state rtt (bin + 1) - 1) (2 ^ 32)
  rw [valid.upperBound_eq within] at reaches
  omega

variable (mi : CircpadMachineRuntime state)

theorem nearestAbove (removal : state.tokenRemoval ≠ .none)
    (located : Located state mi.rttEstimateUsec target) :
    (∃ bin, circpadMachineFirstHigherIndex mi target = bin
      ∧ targetBin state mi.rttEstimateUsec target ≤ bin ∧ HasToken mi bin
      ∧ target < binEdge state mi.rttEstimateUsec (bin + 1)
      ∧ ∀ other, HasToken mi other → target < binEdge state mi.rttEstimateUsec (other + 1) →
        bin ≤ other)
    ∨ circpadMachineFirstHigherIndex mi target = state.histogramLen
      ∧ ∀ other, HasToken mi other →
        ¬ target < binEdge state mi.rttEstimateUsec (other + 1) := by
  cases firstHigherIndex_cases valid mi removal located.found with
  | inl found =>
    obtain ⟨bin, index, above, hasToken, reaches, before⟩ := found
    refine Or.inl ⟨bin, index, above, hasToken, lt_of_le_upperBound valid hasToken.1 reaches, ?_⟩
    intro other otherToken ends
    by_contra less
    exact before other (targetBin_le_of_lt valid ends) (by omega) otherToken
      (located.upper other otherToken.1 ends)
  | inr none =>
    refine Or.inr ⟨none.1, ?_⟩
    intro other otherToken ends
    exact none.2 other (targetBin_le_of_lt valid ends) otherToken
      (located.upper other otherToken.1 ends)

section

variable {bin : Nat}

theorem starts_of_located (located : Located state rtt target)
    (before : bin ≤ targetBin state rtt target)
    (starts : circpadHistogramBinToUsec state rtt bin ≤ target) :
    binEdge state rtt bin ≤ target := by
  cases Nat.eq_zero_or_pos bin with
  | inl first =>
    subst first
    exact located.first starts
  | inr positive => exact targetBin_starts valid positive before

theorem nearestBelow (located : Located state mi.rttEstimateUsec target) :
    (∃ bin : Nat, circpadMachineFirstLowerIndex mi target = bin
      ∧ bin ≤ targetBin state mi.rttEstimateUsec target ∧ HasToken mi bin
      ∧ binEdge state mi.rttEstimateUsec bin ≤ target
      ∧ ∀ other, HasToken mi other → binEdge state mi.rttEstimateUsec other ≤ target →
        other ≤ bin)
    ∨ circpadMachineFirstLowerIndex mi target = -1
      ∧ ∀ other, HasToken mi other → ¬ binEdge state mi.rttEstimateUsec other ≤ target := by
  have read : ∀ other, HasToken mi other → binEdge state mi.rttEstimateUsec other ≤ target →
      circpadHistogramBinToUsec state mi.rttEstimateUsec other ≤ target := by
    intro other otherToken starts
    have inside := otherToken.1
    rw [circpadHistogramBinToUsec_eq (by omega)]
    exact le_trans (Nat.mod_le _ _) starts
  cases firstLowerIndex_cases valid mi located.found with
  | inl found =>
    obtain ⟨bin, index, below, hasToken, starts, later⟩ := found
    refine Or.inl ⟨bin, index, below, hasToken, starts_of_located valid located below starts, ?_⟩
    intro other otherToken otherStarts
    by_contra more
    exact later other (by omega) (le_targetBin_of_le valid otherToken.1 otherStarts) otherToken
      (read other otherToken otherStarts)
  | inr none =>
    refine Or.inr ⟨none.1, ?_⟩
    intro other otherToken otherStarts
    exact none.2 other (le_targetBin_of_le valid otherToken.1 otherStarts) otherToken
      (read other otherToken otherStarts)

theorem removeHigher_nearest (removal : state.tokenRemoval ≠ .none)
    (located : Located state mi.rttEstimateUsec target) :
    TakesNearest mi (circpadMachineRemoveHigherToken mi target)
      (fun bin => target < binEdge state mi.rttEstimateUsec (bin + 1)) (fun bin => bin) := by
  rw [circpadMachineRemoveHigherToken]
  cases nearestAbove valid mi removal located with
  | inl found =>
    obtain ⟨bin, index, _, hasToken, ends, least⟩ := found
    left
    rw [index, removeFromBin_of_hasToken mi removal hasToken]
    exact ⟨bin, hasToken, ends, rfl, least⟩
  | inr none =>
    right
    rw [none.1, removeFromBin, if_neg]
    · exact ⟨none.2, rfl⟩
    · have length := runtime_histogramLen mi removal
      omega

theorem removeLower_nearest (removal : state.tokenRemoval ≠ .none)
    (located : Located state mi.rttEstimateUsec target) :
    TakesNearest mi (circpadMachineRemoveLowerToken mi target)
      (fun bin => binEdge state mi.rttEstimateUsec bin ≤ target)
      (fun bin => state.histogramLen - bin) := by
  rw [circpadMachineRemoveLowerToken]
  cases nearestBelow valid mi located with
  | inl found =>
    obtain ⟨bin, index, _, hasToken, starts, greatest⟩ := found
    left
    rw [index, removeFromBin_of_hasToken mi removal hasToken]
    refine ⟨bin, hasToken, starts, rfl, ?_⟩
    intro other otherToken otherStarts
    exact Nat.sub_le_sub_left (greatest other otherToken otherStarts) _
  | inr none =>
    right
    rw [none.1, removeFromBin, if_neg (by omega)]
    exact ⟨none.2, rfl⟩

theorem starts_or_ends (rtt target : Nat) (within : bin + 1 < state.histogramLen) :
    binEdge state rtt bin ≤ target ∨ target < binEdge state rtt (bin + 1) := by
  have := valid.binEdge_lt rtt (Nat.lt_add_one bin) within
  omega

/-- A distance by which the bins in front of the target are the nearer the later they are, those
behind it the nearer the earlier they are, and a bin around it is the nearest of all. -/
structure Approaches (state : CircpadState) (rtt target : Nat) (distance : Nat → Nat) : Prop where
  front : ∀ bin other, bin + 1 < state.histogramLen → other ≤ bin →
    binEdge state rtt (bin + 1) ≤ target → distance bin ≤ distance other
  behind : ∀ bin other, other + 1 < state.histogramLen → bin ≤ other →
    target < binEdge state rtt bin → distance bin ≤ distance other
  around : ∀ bin other, bin + 1 < state.histogramLen → other + 1 < state.histogramLen →
    binEdge state rtt bin ≤ target → target < binEdge state rtt (bin + 1) →
      distance bin ≤ distance other

/-- Removing the closest token is right if, of the nearest bins on both sides, the nearer one is
taken. -/
theorem removeClosest_nearest (removal : state.tokenRemoval ≠ .none)
    (located : Located state mi.rttEstimateUsec target) (useUsec : Bool) (distance : Nat → Nat)
    (approaches : Approaches state mi.rttEstimateUsec target distance)
    (both : ∀ below above : Nat, circpadMachineFirstLowerIndex mi target = below →
      below ≤ targetBin state mi.rttEstimateUsec target → HasToken mi below →
      circpadMachineFirstHigherIndex mi target = above →
      targetBin state mi.rttEstimateUsec target ≤ above → HasToken mi above →
      (below < above → binEdge state mi.rttEstimateUsec (below + 1) ≤ target) →
      (below < above → target < binEdge state mi.rttEstimateUsec above) →
      ∃ bin, (bin = below ∨ bin = above)
        ∧ circpadMachineRemoveClosestToken mi target useUsec = mi.decrement bin
        ∧ distance bin ≤ distance below ∧ distance bin ≤ distance above) :
    TakesNearest mi (circpadMachineRemoveClosestToken mi target useUsec) (fun _ => True)
      distance := by
  have lookup := located.found
  have within := (valid.usecToBin_eq_iff.mp lookup).1
  have sides := fun other (otherToken : HasToken mi other) =>
    starts_or_ends valid mi.rttEstimateUsec target otherToken.1
  cases nearestBelow valid mi located with
  | inl found =>
    obtain ⟨below, lower, lowerBin, lowerToken, starts, greatest⟩ := found
    left
    cases nearestAbove valid mi removal located with
    | inl found =>
      obtain ⟨above, higher, higherBin, higherToken, ends, least⟩ := found
      have lowerEnds : below < above →
          binEdge state mi.rttEstimateUsec (below + 1) ≤ target := by
        intro apart
        by_contra reaches
        have := least below lowerToken (by omega)
        omega
      have higherStarts : below < above → target < binEdge state mi.rttEstimateUsec above := by
        intro apart
        by_contra reaches
        have := greatest above higherToken (by omega)
        omega
      obtain ⟨bin, picked, removed, atMostLower, atMostHigher⟩ := both below above lower lowerBin
        lowerToken higher higherBin higherToken lowerEnds higherStarts
      have hasToken : HasToken mi bin := by
        cases picked with
        | inl same => exact same ▸ lowerToken
        | inr same => exact same ▸ higherToken
      refine ⟨bin, hasToken, trivial, removed, ?_⟩
      intro other otherToken _
      have lowerInside := lowerToken.1
      cases Nat.lt_or_ge below above with
      | inl apart =>
        cases sides other otherToken with
        | inl otherStarts =>
          have earlier := greatest other otherToken otherStarts
          exact le_trans atMostLower
            (approaches.front below other lowerInside earlier (lowerEnds apart))
        | inr otherEnds =>
          have later := least other otherToken otherEnds
          exact le_trans atMostHigher
            (approaches.behind above other otherToken.1 later (higherStarts apart))
      | inr same =>
        have same : above = below := by omega
        subst same
        exact le_trans atMostLower
          (approaches.around above other lowerInside otherToken.1 starts ends)
    | inr none =>
      refine ⟨below, lowerToken, trivial,
        removeClosest_lower lookup removal useUsec lowerToken (by omega) none.1 lower lowerBin, ?_⟩
      intro other otherToken _
      have otherStarts := (sides other otherToken).resolve_right (none.2 other otherToken)
      exact approaches.front below other lowerToken.1 (greatest other otherToken otherStarts)
        (Nat.le_of_not_lt (none.2 below lowerToken))
  | inr noLower =>
    cases nearestAbove valid mi removal located with
    | inl found =>
      obtain ⟨above, higher, higherBin, higherToken, ends, least⟩ := found
      left
      refine ⟨above, higherToken, trivial,
        removeClosest_higher lookup removal useUsec higherToken higher higherBin noLower.1, ?_⟩
      intro other otherToken _
      have otherEnds := (sides other otherToken).resolve_left (noLower.2 other otherToken)
      exact approaches.behind above other otherToken.1 (least other otherToken otherEnds)
        (Nat.lt_of_not_le (noLower.2 above higherToken))
    | inr none =>
      right
      refine ⟨?_, removeClosest_none lookup removal useUsec (by omega) none.1 noLower.1⟩
      intro other otherToken _
      exact (sides other otherToken).elim (noLower.2 other otherToken) (none.2 other otherToken)

theorem index_approaches :
    Approaches state rtt target (fun bin => Nat.dist bin (targetBin state rtt target)) := by
  constructor
  · intro bin other within earlier ends
    have := valid.binEdge_lt rtt (Nat.lt_add_one bin) within
    have : bin ≤ targetBin state rtt target := le_targetBin_of_le valid within (by omega)
    simp only [Nat.dist]
    omega
  · intro bin other within later starts
    have := valid.binEdge_lt rtt (Nat.lt_add_one bin) (by omega)
    have : targetBin state rtt target ≤ bin := targetBin_le_of_lt valid (by omega)
    simp only [Nat.dist]
    omega
  · intro bin other within _ starts ends
    have : bin ≤ targetBin state rtt target := le_targetBin_of_le valid within starts
    have := targetBin_le_of_lt valid ends
    simp only [Nat.dist]
    omega

theorem removeClosest_index_nearest (removal : state.tokenRemoval ≠ .none)
    (located : Located state mi.rttEstimateUsec target) :
    TakesNearest mi (circpadMachineRemoveClosestToken mi target false) (fun _ => True)
      (fun bin => Nat.dist bin (targetBin state mi.rttEstimateUsec target)) := by
  apply removeClosest_nearest valid mi removal located false _ (index_approaches valid)
  intro below above lower lowerBin lowerToken higher higherBin higherToken _ _
  rw [removeClosest_index located.found removal lower lowerBin lowerToken higher higherBin
    higherToken]
  simp only [Nat.dist]
  split
  next nearer => exact ⟨above, Or.inr rfl, rfl, by omega, le_rfl⟩
  next farther => exact ⟨below, Or.inl rfl, rfl, le_rfl, by omega⟩

theorem binMidpoint_bounds (rtt : Nat) (within : bin + 1 < state.histogramLen) :
    binEdge state rtt bin ≤ binMidpoint state rtt bin
      ∧ binMidpoint state rtt bin < binEdge state rtt (bin + 1) := by
  have := valid.binEdge_lt rtt (Nat.lt_add_one bin) within
  unfold binMidpoint
  omega

theorem binMidpoint_mono (rtt : Nat) {bin other : Nat} (before : bin ≤ other)
    (within : other + 1 < state.histogramLen) :
    binMidpoint state rtt bin ≤ binMidpoint state rtt other := by
  cases Nat.lt_or_eq_of_le before with
  | inl less =>
    have := (binMidpoint_bounds valid rtt (show bin + 1 < _ by omega)).2
    have := (binMidpoint_bounds valid rtt within).1
    have := valid.binEdge_le rtt (i := bin + 1) less (by omega)
    omega
  | inr same => rw [same]

theorem circpadGetHistogramBinMidpoint_eq (within : bin + 1 < state.histogramLen)
    (fits : binEdge state rtt (bin + 1) ≤ 2 ^ 32) :
    circpadGetHistogramBinMidpoint state rtt bin = binMidpoint state rtt bin := by
  have := valid.binEdge_lt rtt (Nat.lt_add_one bin) within
  rw [circpadGetHistogramBinMidpoint, circpadHistogramBinToUsec_eq (by omega),
    valid.upperBound_eq within, binMidpoint]
  rw [Nat.mod_eq_of_lt (a := binEdge state rtt bin) (by omega),
    Nat.mod_eq_of_lt (a := binEdge state rtt (bin + 1) - 1) (by omega)]
  omega

theorem binEdge_fits (located : Located state rtt target) (within : bin + 1 < state.histogramLen)
    (late : binEdge state rtt 0 ≤ target) (ends : target < binEdge state rtt (bin + 1)) :
    binEdge state rtt (bin + 1) ≤ 2 ^ 32 := by
  have reaches := located.upper bin within ends
  rw [valid.upperBound_eq within] at reaches
  have edgeFits : state.histogramEdges.getD (bin + 1) 0 < 2 ^ 32 := by
    have same := state.sameLength
    have length : state.histogramLen = state.histogram.length := rfl
    rw [List.getD_eq_getElem _ _ (by omega)]
    exact state.edgesFit _ (List.getElem_mem _)
  unfold binEdge at reaches late ends ⊢
  omega

theorem midpoint_approaches (placed : RightlyPlaced state rtt target) :
    Approaches state rtt target (fun bin => Nat.dist (binMidpoint state rtt bin) target) := by
  constructor
  · intro bin other within earlier ends
    have := (binMidpoint_bounds valid rtt within).2
    have := binMidpoint_mono valid rtt earlier within
    simp only [Nat.dist]
    omega
  · intro bin other within later starts
    have := (binMidpoint_bounds valid rtt (show bin + 1 < _ by omega)).1
    have := binMidpoint_mono valid rtt later within
    simp only [Nat.dist]
    omega
  · intro bin other within otherWithin starts ends
    have after := le_targetBin_of_le valid within starts
    have before := targetBin_le_of_lt valid ends
    have same : targetBin state rtt target = bin := by omega
    have first := valid.binEdge_le rtt (Nat.zero_le bin) (by omega)
    have last := valid.binEdge_le rtt (i := bin + 1) (j := state.histogramLen - 1)
      (by omega) (by omega)
    have nearest := placed.midpoints (by omega) (by omega) other otherWithin
    rw [same] at nearest
    exact nearest

theorem removeClosest_midpoint_nearest (removal : state.tokenRemoval ≠ .none)
    (placed : RightlyPlaced state mi.rttEstimateUsec target) :
    TakesNearest mi (circpadMachineRemoveClosestToken mi target true) (fun _ => True)
      (fun bin => Nat.dist (binMidpoint state mi.rttEstimateUsec bin) target) := by
  have located := placed.toLocated
  apply removeClosest_nearest valid mi removal located true _ (midpoint_approaches valid placed)
  intro below above lower lowerBin lowerToken higher higherBin higherToken lowerEnds higherStarts
  have removed := removeClosest_midpoint located.found removal lower lowerBin lowerToken higher
    higherBin higherToken
  have lowerInside := lowerToken.1
  have higherInside := higherToken.1
  cases Nat.lt_or_ge below above with
  | inl apart =>
    have lowerEnds := lowerEnds apart
    have higherStarts := higherStarts apart
    have first := valid.binEdge_le mi.rttEstimateUsec (Nat.zero_le (below + 1)) (by omega)
    have width := valid.binEdge_lt mi.rttEstimateUsec (Nat.lt_add_one above) higherInside
    have fits := binEdge_fits valid located higherInside (by omega) (by omega)
    have lowerMid := binMidpoint_bounds valid mi.rttEstimateUsec lowerInside
    have higherMid := binMidpoint_bounds valid mi.rttEstimateUsec higherInside
    rw [circpadGetHistogramBinMidpoint_eq valid lowerInside (by omega),
      circpadGetHistogramBinMidpoint_eq valid higherInside fits, if_neg (by omega),
      if_neg (by omega)] at removed
    simp only [Nat.dist]
    split at removed
    next nearer => exact ⟨above, Or.inr rfl, removed, by omega, le_rfl⟩
    next farther => exact ⟨below, Or.inl rfl, removed, le_rfl, by omega⟩
  | inr same =>
    have same : above = below := by omega
    subst same
    simp only [ite_self] at removed
    exact ⟨above, Or.inl rfl, removed, le_rfl, le_rfl⟩

/-- A bin around the target loses a token if it has one. -/
theorem removeClosest_around (removal : state.tokenRemoval ≠ .none)
    (located : Located state mi.rttEstimateUsec target) (hasToken : HasToken mi bin)
    (starts : binEdge state mi.rttEstimateUsec bin ≤ target)
    (ends : target < binEdge state mi.rttEstimateUsec (bin + 1)) :
    circpadMachineRemoveClosestToken mi target true = mi.decrement bin := by
  have after := le_targetBin_of_le valid hasToken.1 starts
  have before := targetBin_le_of_lt valid ends
  have lower : circpadMachineFirstLowerIndex mi target = bin := by
    cases nearestBelow valid mi located with
    | inl found =>
      obtain ⟨below, lower, lowerBin, _, _, greatest⟩ := found
      have := greatest bin hasToken starts
      rw [lower]
      omega
    | inr none => exact absurd starts (none.2 bin hasToken)
  have higher : circpadMachineFirstHigherIndex mi target = bin := by
    cases nearestAbove valid mi removal located with
    | inl found =>
      obtain ⟨above, higher, higherBin, _, _, least⟩ := found
      have := least bin hasToken ends
      omega
    | inr none => exact absurd ends (none.2 bin hasToken)
  rw [removeClosest_midpoint located.found removal lower after hasToken higher before hasToken]
  simp only [ite_self]

end

theorem takesRightToken_of_placed (removal : state.tokenRemoval ≠ .none)
    (placed : RightlyPlaced state mi.rttEstimateUsec target) : TakesRightToken mi target :=
  ⟨removeHigher_nearest valid mi removal placed.toLocated,
    removeLower_nearest valid mi removal placed.toLocated,
    removeClosest_index_nearest valid mi removal placed.toLocated,
    removeClosest_midpoint_nearest valid mi removal placed⟩

theorem removeHigher_changes (removal : state.tokenRemoval ≠ .none) {current : Nat}
    (lookup : circpadHistogramUsecToBin state mi.rttEstimateUsec target = current)
    (changes : circpadMachineRemoveHigherToken mi target ≠ mi) :
    ∃ bin, current ≤ bin ∧ HasToken mi bin
      ∧ target ≤ histogramGetBinUpperBound state mi.rttEstimateUsec bin := by
  cases firstHigherIndex_cases valid mi removal lookup with
  | inl found =>
    obtain ⟨bin, _, above, hasToken, reaches, _⟩ := found
    exact ⟨bin, above, hasToken, reaches⟩
  | inr none =>
    have length := runtime_histogramLen mi removal
    rw [circpadMachineRemoveHigherToken, none.1, removeFromBin, if_neg (by omega)] at changes
    exact absurd rfl changes

theorem removeLower_changes {current : Nat}
    (lookup : circpadHistogramUsecToBin state mi.rttEstimateUsec target = current)
    (changes : circpadMachineRemoveLowerToken mi target ≠ mi) :
    ∃ bin, bin ≤ current ∧ HasToken mi bin
      ∧ circpadHistogramBinToUsec state mi.rttEstimateUsec bin ≤ target := by
  cases firstLowerIndex_cases valid mi lookup with
  | inl found =>
    obtain ⟨bin, _, below, hasToken, starts, _⟩ := found
    exact ⟨bin, below, hasToken, starts⟩
  | inr none =>
    rw [circpadMachineRemoveLowerToken, none.1, removeFromBin, if_neg (by omega)] at changes
    exact absurd rfl changes

end Located

section Probes

/-- A runtime histogram with one token in each of the given bins. -/
def probe (valid : ValidHistogram state) (removal : state.tokenRemoval ≠ .none)
    (rttFits : rtt < 2 ^ 32) (filled : Nat → Bool) : CircpadMachineRuntime state where
  histogram := some ((List.range state.histogramLen).map fun bin => if filled bin then 1 else 0)
  chosenBin := 0
  rttEstimateUsec := rtt
  removal := ⟨fun _ => removal, fun _ => rfl⟩
  length := by
    have bins := valid.bins
    intro tokens member
    cases member
    rw [List.length_map, List.length_range]
    exact ⟨rfl, by omega⟩
  fits := by
    intro tokens member count counted
    cases member
    obtain ⟨bin, _, rfl⟩ := List.mem_map.mp counted
    split <;> decide
  rttFits := rttFits

variable (valid : ValidHistogram state) (removal : state.tokenRemoval ≠ .none)
  (rttFits : rtt < 2 ^ 32)

theorem probe_hasToken (filled : Nat → Bool) (bin : Nat) :
    HasToken (probe valid removal rttFits filled) bin ↔
      bin + 1 < state.histogramLen ∧ filled bin = true := by
  rw [HasToken]
  apply and_congr_right
  intro within
  rw [tokens, probe]
  rw [Option.getD_some, List.getD_eq_getElem _ _ (by rw [List.length_map, List.length_range]; omega),
    List.getElem_map, List.getElem_range]
  cases filled bin <;> decide

section

variable {mi after : CircpadMachineRuntime state} {candidate : Nat → Prop} {distance : Nat → Nat}
  (takes : TakesNearest mi after candidate distance) {bin : Nat}

include takes

theorem TakesNearest.changes (hasToken : HasToken mi bin) (isCandidate : candidate bin) : after ≠ mi := by
  cases takes with
  | inl taken =>
    obtain ⟨other, otherToken, _, removed, _⟩ := taken
    rw [removed]
    exact decrement_ne mi otherToken.2
  | inr none => exact absurd isCandidate (none.1 bin hasToken)

theorem TakesNearest.least {other : Nat} (removed : after = mi.decrement bin) (hasToken : HasToken mi other)
    (isCandidate : candidate other) : distance bin ≤ distance other := by
  cases takes with
  | inl taken =>
    obtain ⟨chosen, chosenToken, _, chosenRemoved, least⟩ := taken
    rw [← decrement_injective mi chosenToken.2 (chosenRemoved.symm.trans removed)]
    exact least other hasToken isCandidate
  | inr none => exact absurd isCandidate (none.1 other hasToken)

end

include valid removal rttFits

theorem placed_of_takesRightToken
    (right : ∀ mi : CircpadMachineRuntime state, mi.rttEstimateUsec = rtt →
      TakesRightToken mi target) : RightlyPlaced state rtt target := by
  obtain ⟨current, lookup, within⟩ := valid.usecToBin_exists rtt target
  have alone : ∀ bin, bin + 1 < state.histogramLen →
      HasToken (probe valid removal rttFits (· == bin)) bin := fun bin inside =>
    (probe_hasToken valid removal rttFits _ bin).mpr ⟨inside, beq_self_eq_true bin⟩
  have only : ∀ bin other, HasToken (probe valid removal rttFits (· == bin)) other →
      other = bin := fun bin other token =>
    eq_of_beq ((probe_hasToken valid removal rttFits _ other).mp token).2
  have above : ∀ bin, bin + 1 < state.histogramLen → target < binEdge state rtt (bin + 1) →
      current ≤ bin ∧ target ≤ histogramGetBinUpperBound state rtt bin := by
    intro bin inside ends
    have changes := (right (probe valid removal rttFits (· == bin)) rfl).higher.changes
      (alone bin inside) ends
    obtain ⟨other, later, token, reaches⟩ := removeHigher_changes valid
      (probe valid removal rttFits (· == bin)) removal lookup changes
    have same := only bin other token
    subst same
    exact ⟨later, reaches⟩
  have below : ∀ bin, bin + 1 < state.histogramLen → binEdge state rtt bin ≤ target →
      bin ≤ current := by
    intro bin inside starts
    have changes := (right (probe valid removal rttFits (· == bin)) rfl).lower.changes
      (alone bin inside) starts
    obtain ⟨other, earlier, token, _⟩ := removeLower_changes valid
      (probe valid removal rttFits (· == bin)) lookup changes
    have same := only bin other token
    subst same
    exact earlier
  have located : Located state rtt target := by
    obtain ⟨inside, _, next⟩ := valid.targetBin_eq_iff.mp (rfl : targetBin state rtt target = _)
    constructor
    · have atLeast : targetBin state rtt target ≤ current := by
        cases Nat.eq_zero_or_pos (targetBin state rtt target) with
        | inl first => omega
        | inr positive => exact below _ inside (targetBin_starts valid positive le_rfl)
      have atMost : current ≤ targetBin state rtt target := by
        by_cases more : targetBin state rtt target + 2 < state.histogramLen
        · exact (above _ inside (next more)).1
        · omega
      rw [lookup, Nat.le_antisymm atMost atLeast]
    · exact fun bin within ends => (above bin within ends).2
    · intro starts
      by_contra early
      have token := alone 0 (by omega)
      have unchanged : circpadMachineRemoveLowerToken (probe valid removal rttFits (· == 0)) target
          = probe valid removal rttFits (· == 0) := by
        cases (right (probe valid removal rttFits (· == 0)) rfl).lower with
        | inl taken =>
          obtain ⟨bin, otherToken, otherStarts, _⟩ := taken
          rw [only 0 bin otherToken] at otherStarts
          exact absurd otherStarts early
        | inr none => exact none.2
      cases firstLowerIndex_cases valid (probe valid removal rttFits (· == 0)) lookup with
      | inl found =>
        obtain ⟨bin, index, _, otherToken, _⟩ := found
        rw [circpadMachineRemoveLowerToken, index,
          removeFromBin_of_hasToken _ removal otherToken] at unchanged
        exact decrement_ne _ otherToken.2 unchanged
      | inr none => exact none.2 0 (Nat.zero_le _) token starts
  refine ⟨located, ?_⟩
  intro late early bin inside
  -- with tokens in both bins, the one around the target is taken
  have starts : binEdge state rtt (targetBin state rtt target) ≤ target := by
    cases Nat.eq_zero_or_pos (targetBin state rtt target) with
    | inl first => rw [first]; exact late
    | inr positive => exact targetBin_starts valid positive le_rfl
  obtain ⟨targetInside, _, next⟩ :=
    valid.targetBin_eq_iff.mp (rfl : targetBin state rtt target = _)
  generalize place : targetBin state rtt target = here at starts targetInside next ⊢
  have ends : target < binEdge state rtt (here + 1) := by
    by_cases more : here + 2 < state.histogramLen
    · exact next more
    · have same : state.histogramLen - 1 = here + 1 := by omega
      rw [← same]
      exact early
  let mi := probe valid removal rttFits fun other => other == here || other == bin
  have hereToken : HasToken mi here :=
    (probe_hasToken valid removal rttFits _ here).mpr ⟨targetInside, by simp⟩
  have binToken : HasToken mi bin :=
    (probe_hasToken valid removal rttFits _ bin).mpr ⟨inside, by simp⟩
  have taken := removeClosest_around valid mi removal located hereToken starts ends
  exact (right mi rfl).closestUsec.least taken binToken trivial

end Probes

/-- Whatever the tokens are, at most one is removed, never from the infinity bin or from an empty
one. The strategies take the right one for every histogram exactly if the target is rightly
placed. -/
theorem circpadMachineRemoveToken_right_iff (state : CircpadState) (rtt target : Nat)
    (valid : paddingMachineStateIsValid state = true) (bins : state.histogramLen ≠ 0)
    (removal : state.tokenRemoval ≠ .none) (rttFits : rtt < 2 ^ 32) :
    (∀ mi : CircpadMachineRuntime state,
      OneTokenAtMost mi (circpadMachineRemoveHigherToken mi target)
        ∧ OneTokenAtMost mi (circpadMachineRemoveLowerToken mi target)
        ∧ ∀ useUsec, OneTokenAtMost mi (circpadMachineRemoveClosestToken mi target useUsec))
    ∧ ((∀ mi : CircpadMachineRuntime state, mi.rttEstimateUsec = rtt →
        TakesRightToken mi target) ↔ RightlyPlaced state rtt target) := by
  have histogram := ((paddingMachineStateIsValid_iff state).mp valid).resolve_left bins
  constructor
  · intro mi
    exact ⟨removeFromBin_oneToken mi removal _, removeFromBin_oneToken mi removal _,
      removeClosest_oneToken histogram mi removal⟩
  · constructor
    · exact placed_of_takesRightToken histogram removal rttFits
    · intro placed mi same
      subst same
      exact takesRightToken_of_placed histogram mi removal placed

/-- A narrow bin in front of a wide one, without an RTT estimate. -/
def wideBinState : CircpadState where
  histogram := [1, 1, 1]
  histogramEdges := [0, 100, 10000]
  histogramTotalTokens := 3
  hasIatDist := false
  distAddedShiftUsec := 0
  tokenRemoval := .closestUsec
  useRttEstimate := false
  sameLength := rfl
  short := by decide
  tokensFit := by decide
  edgesFit := by decide

def wideBinRuntime : CircpadMachineRuntime wideBinState where
  histogram := some [1, 1, 1]
  chosenBin := 0
  rttEstimateUsec := 0
  removal := by decide
  length := by decide
  fits := by decide
  rttFits := by decide

/-- At 6000, where bin 2 starts, the lower strategy takes the token of bin 0; at 150 the token of
the wide bin is taken, although the midpoint of the narrow one is nearer. -/
theorem circpadMachineRemoveToken_wrong :
    (paddingMachineStateIsValid basicBurstState = true
      ∧ ¬ TakesRightToken basicBurstRuntime 6000)
    ∧ paddingMachineStateIsValid wideBinState = true ∧ ¬ TakesRightToken wideBinRuntime 150 := by
  refine ⟨⟨by decide, ?_⟩, by decide, ?_⟩
  · intro right
    have removed : circpadMachineRemoveLowerToken basicBurstRuntime 6000
        = basicBurstRuntime.decrement 0 := rfl
    have nearest := right.lower.least removed
      (⟨by decide, by decide⟩ : HasToken basicBurstRuntime 2) (by decide)
    exact absurd nearest (by decide)
  · intro right
    have lookup : circpadHistogramUsecToBin wideBinState wideBinRuntime.rttEstimateUsec 150
        = (1 : Nat) := by decide
    have hasToken : ∀ bin, bin < 2 → HasToken wideBinRuntime bin := by
      unfold HasToken
      decide
    have removed := removeClosest_midpoint lookup (by decide) (by decide) le_rfl
      (hasToken 1 (by decide)) (by decide) le_rfl (hasToken 1 (by decide))
    rw [ite_self, ite_self, ite_self] at removed
    have hasToken := hasToken 0 (by decide)
    have nearest := right.closestUsec.least removed hasToken trivial
    exact absurd nearest (by decide)

/-- The condition at a delay of 1600, which bin 0 contains. -/
theorem circpadMachineRemoveToken_right_iff_burst :
    (∀ mi : CircpadMachineRuntime basicBurstState,
      OneTokenAtMost mi (circpadMachineRemoveHigherToken mi 1600)
        ∧ OneTokenAtMost mi (circpadMachineRemoveLowerToken mi 1600)
        ∧ ∀ useUsec, OneTokenAtMost mi (circpadMachineRemoveClosestToken mi 1600 useUsec))
    ∧ ((∀ mi : CircpadMachineRuntime basicBurstState, mi.rttEstimateUsec = 1000 →
        TakesRightToken mi 1600) ↔ RightlyPlaced basicBurstState 1000 1600) :=
  circpadMachineRemoveToken_right_iff basicBurstState 1000 1600 (by decide) (by decide)
    (by decide) (by decide)

end RendezMix.Guarantees
