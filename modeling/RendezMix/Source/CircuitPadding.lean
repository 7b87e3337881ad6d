import Mathlib
import RendezMix.Library.IndexScans

/-!
# Histograms of circuit padding

`core/or/circuitpadding.c`: the edges of the bins, `padding_machine_state_is_valid`,
`circpad_machine_sample_delay` and the removal of tokens. A helper that reads of the runtime
nothing but its RTT estimate takes this estimate in place of the runtime. Delays and edges are
`uint32_t`; the state is the current one of the machine, which the callers have checked to exist.
What the distribution of a state without a histogram gives is a parameter, since it is computed in
floating point.
-/
namespace RendezMix.Source
open Library.IndexScans

def circpadMaxHistogramLen : Nat := 100

def circpadDelayInfinite : Nat := 2 ^ 32 - 1

inductive CircpadRemoval where
  | none | higher | lower | closest | closestUsec | exact
  deriving DecidableEq, Repr

/-- `circpad_state_t`: the first `histogram_len` entries of its arrays, and whether it has an
`iat_dist`. -/
structure CircpadState where
  histogram : List Nat
  histogramEdges : List Nat
  histogramTotalTokens : Nat
  hasIatDist : Bool
  distAddedShiftUsec : Nat
  tokenRemoval : CircpadRemoval
  useRttEstimate : Bool
  sameLength : histogramEdges.length = histogram.length
  short : histogram.length ≤ circpadMaxHistogramLen
  tokensFit : ∀ tokens ∈ histogram, tokens < 2 ^ 32
  edgesFit : ∀ edge ∈ histogramEdges, edge < 2 ^ 32

def CircpadState.histogramLen (state : CircpadState) : Nat := state.histogram.length

def circpadInfinityBin (state : CircpadState) : Int := state.histogramLen - 1

/-- `circpad_machine_runtime_t` in a state: what `circpad_is_token_removal_supported` asserts of
its histogram holds. -/
structure CircpadMachineRuntime (state : CircpadState) where
  histogram : Option (List Nat)
  chosenBin : Nat
  rttEstimateUsec : Nat
  removal : histogram.isSome ↔ state.tokenRemoval ≠ .none
  length : ∀ tokens ∈ histogram, tokens.length = state.histogramLen ∧ tokens.length ≠ 0
  fits : ∀ tokens ∈ histogram, ∀ count ∈ tokens, count < 2 ^ 32
  rttFits : rttEstimateUsec < 2 ^ 32

/-- The loop of `padding_machine_state_is_valid` over the bins: the tokens counted, unless the
edges stop increasing. -/
def countTokens : (first : Bool) → (prevBinEdge tokensCount : Nat) → List (Nat × Nat) → Option Nat
  | _, _, tokensCount, [] => some tokensCount
  | first, prevBinEdge, tokensCount, (edge, tokens) :: rest =>
      if edge ≤ prevBinEdge ∧ first = false then none
      else countTokens false edge ((tokensCount + tokens) % 2 ^ 32) rest

def paddingMachineStateIsValid (state : CircpadState) : Bool :=
  if state.histogramLen = 0 then true
  else if state.histogramLen < 2 then false
  else
    match countTokens true 0 0 (state.histogramEdges.zip state.histogram) with
    | none => false
    | some tokensCount => tokensCount == state.histogramTotalTokens

/-- What a state adds to its edges: the RTT estimate, if it uses one. -/
def rttAddUsec (state : CircpadState) (rtt : Nat) : Nat :=
  if state.useRttEstimate then rtt else 0

def circpadHistogramBinToUsec (state : CircpadState) (rtt bin : Nat) : Nat :=
  if circpadInfinityBin state < bin then circpadDelayInfinite
  else (state.histogramEdges.getD bin 0 + rttAddUsec state rtt) % 2 ^ 32

/-- `x - 1` of a `uint32_t`. -/
def histogramGetBinUpperBound (state : CircpadState) (rtt bin : Nat) : Nat :=
  (circpadHistogramBinToUsec state rtt (bin + 1) + (2 ^ 32 - 1)) % 2 ^ 32

def circpadGetHistogramBinMidpoint (state : CircpadState) (rtt bin : Nat) : Nat :=
  let leftBound := circpadHistogramBinToUsec state rtt bin
  let rightBound := histogramGetBinUpperBound state rtt bin
  (leftBound + (rightBound + 2 ^ 32 - leftBound) % 2 ^ 32 / 2) % 2 ^ 32

def circpadHistogramUsecToBin (state : CircpadState) (rtt usec : Nat) : Int :=
  let rttAdd := rttAddUsec state rtt
  match scanUp
      (fun bin => decide (usec ≤ (histogramGetBinUpperBound state rtt bin + rttAdd) % 2 ^ 32))
      (circpadInfinityBin state).toNat 0 with
  | some bin => bin
  | none => circpadInfinityBin state - 1

variable {state : CircpadState}

/-- `mi->histogram[bin]` -/
def CircpadMachineRuntime.tokens (mi : CircpadMachineRuntime state) (bin : Nat) : Nat :=
  (mi.histogram.getD []).getD bin 0

def CircpadMachineRuntime.histogramLen (mi : CircpadMachineRuntime state) : Nat :=
  (mi.histogram.getD []).length

/-- `mi->histogram[bin]--` of a bin with tokens. -/
def CircpadMachineRuntime.decrement (mi : CircpadMachineRuntime state) (bin : Nat) :
    CircpadMachineRuntime state :=
  { mi with
    histogram := mi.histogram.map fun tokens => tokens.modify bin (· - 1)
    removal := by rw [Option.isSome_map]; exact mi.removal
    length := by
      intro tokens member
      obtain ⟨old, inside, rfl⟩ := Option.map_eq_some_iff.mp member
      rw [List.length_modify]
      exact mi.length old inside
    fits := by
      intro tokens member count counted
      obtain ⟨old, inside, rfl⟩ := Option.map_eq_some_iff.mp member
      obtain ⟨i, within, rfl⟩ := List.getElem_of_mem counted
      have bound : i < old.length := by
        rw [← List.length_modify (· - 1) old bin]
        exact within
      have before := mi.fits old inside old[i] (List.getElem_mem bound)
      rw [List.getElem_modify]
      split <;> omega }

/-- The index or `histogram_len`. -/
def circpadMachineFirstHigherIndex (mi : CircpadMachineRuntime state) (targetBinUsec : Nat) : Nat :=
  let bin := (circpadHistogramUsecToBin state mi.rttEstimateUsec targetBinUsec).toNat
  (scanUp
    (fun bin => decide (mi.tokens bin ≠ 0
      ∧ targetBinUsec ≤ histogramGetBinUpperBound state mi.rttEstimateUsec bin))
    (mi.histogramLen - 1 - bin) bin).getD mi.histogramLen

/-- The index or `-1`. -/
def circpadMachineFirstLowerIndex (mi : CircpadMachineRuntime state) (targetBinUsec : Nat) : Int :=
  let bin := (circpadHistogramUsecToBin state mi.rttEstimateUsec targetBinUsec).toNat
  match scanDown
      (fun bin => decide (mi.tokens bin ≠ 0
        ∧ circpadHistogramBinToUsec state mi.rttEstimateUsec bin ≤ targetBinUsec)) bin with
  | some bin => bin
  | none => -1

/-- The end of `remove_higher_token` and `remove_lower_token`. -/
def removeFromBin (mi : CircpadMachineRuntime state) (bin : Int) : CircpadMachineRuntime state :=
  if 0 ≤ bin ∧ bin < mi.histogramLen - 1 then
    if mi.tokens bin.toNat = 0 then mi else mi.decrement bin.toNat
  else mi

def circpadMachineRemoveHigherToken (mi : CircpadMachineRuntime state) (targetBinUsec : Nat) :
    CircpadMachineRuntime state :=
  removeFromBin mi (circpadMachineFirstHigherIndex mi targetBinUsec)

def circpadMachineRemoveLowerToken (mi : CircpadMachineRuntime state) (targetBinUsec : Nat) :
    CircpadMachineRuntime state :=
  removeFromBin mi (circpadMachineFirstLowerIndex mi targetBinUsec)

/-- `ENSURE_BIN_CAPACITY` and the decrement behind it. -/
def ensuredDecrement (mi : CircpadMachineRuntime state) (bin : Nat) : CircpadMachineRuntime state :=
  if mi.tokens bin = 0 then mi else mi.decrement bin

def circpadMachineRemoveClosestToken (mi : CircpadMachineRuntime state) (targetBinUsec : Nat)
    (useUsec : Bool) : CircpadMachineRuntime state :=
  let lower := circpadMachineFirstLowerIndex mi targetBinUsec
  let higher := circpadMachineFirstHigherIndex mi targetBinUsec
  let current := circpadHistogramUsecToBin state mi.rttEstimateUsec targetBinUsec
  if current < lower ∨ (higher : Int) < current then mi
  else if higher = mi.histogramLen ∧ lower = -1 then mi
  else if higher = mi.histogramLen then ensuredDecrement mi lower.toNat
  else if lower = -1 then ensuredDecrement mi higher
  else if useUsec then
    let lowerUsec := circpadGetHistogramBinMidpoint state mi.rttEstimateUsec lower.toNat
    let higherUsec := circpadGetHistogramBinMidpoint state mi.rttEstimateUsec higher
    if targetBinUsec < lowerUsec then ensuredDecrement mi lower.toNat
    else if higherUsec < targetBinUsec then ensuredDecrement mi higher
    else if higherUsec - targetBinUsec < targetBinUsec - lowerUsec then ensuredDecrement mi higher
    else ensuredDecrement mi lower.toNat
  else if (higher : Int) - current < current - lower then ensuredDecrement mi higher
  else ensuredDecrement mi lower.toNat

/-- `crypto_fast_rng_get_uint64`: a value below each limit. -/
abbrev FastRng := { draw : Nat → Nat // ∀ limit, 0 < limit → draw limit < limit }

def cryptoFastRngUint64Range (rng : FastRng) (min max : Nat) : Nat :=
  if max ≤ min then min else min + rng.val (max - min)

/-- The loop that adds up weights until they reach the choice: the bin it stops at, among the
current one and the `remaining` bins behind it. -/
def addWeights (histogram : List Nat) (binChoice : Nat) : Nat → Nat → Nat → Option Nat
  | remaining, currBin, currWeight =>
    if currWeight < binChoice then
      match remaining with
      | 0 => none
      | remaining + 1 =>
          addWeights histogram binChoice remaining (currBin + 1)
            (currWeight + histogram.getD (currBin + 1) 0)
    else some currBin

/-- The bin that `circpad_machine_sample_delay` chooses, unless it runs past the end of the
histogram or stops at an empty bin. -/
def chooseBin (histogram : List Nat) (binChoice : Nat) : Option Nat :=
  match scanUp (fun bin => decide (histogram.getD bin 0 ≠ 0)) histogram.length 0 with
  | none => none
  | some first =>
    match addWeights histogram binChoice (histogram.length - 1 - first) first
        (histogram.getD first 0) with
    | none => none
    | some currBin => if histogram.getD currBin 0 = 0 then none else some currBin

/-- The histogram that delays are drawn from, with the sum of its tokens. -/
def samplingHistogram (mi : CircpadMachineRuntime state) : List Nat × Nat :=
  match mi.histogram with
  | some histogram => (histogram, histogram.sum)
  | none => (state.histogram, state.histogramTotalTokens)

/-- `circpad_machine_sample_delay`, given what the draw for the bin returned. -/
def circpadMachineSampleDelay (sampleIatDelay : CircpadState → Nat → Nat) (rng : FastRng)
    (mi : CircpadMachineRuntime state) (binChoice : Nat) : CircpadMachineRuntime state × Nat :=
  let rtt := mi.rttEstimateUsec
  if state.hasIatDist then
    let iatDelayShift :=
      if state.useRttEstimate then (rtt + state.distAddedShiftUsec) % 2 ^ 32
      else state.distAddedShiftUsec
    (mi, sampleIatDelay state iatDelayShift)
  else
    let (histogram, histogramTotalTokens) := samplingHistogram mi
    if histogramTotalTokens = 0 then (mi, circpadDelayInfinite)
    else
      match chooseBin histogram binChoice with
      | none => (mi, circpadDelayInfinite)
      | some currBin =>
          let mi := if state.tokenRemoval ≠ .none then { mi with chosenBin := currBin } else mi
          if circpadInfinityBin state ≤ currBin then
            (if state.tokenRemoval ≠ .none ∧ 0 < mi.tokens currBin then mi.decrement currBin
              else mi, circpadDelayInfinite)
          else
            let binStart := circpadHistogramBinToUsec state rtt currBin
            let binEnd := circpadHistogramBinToUsec state rtt (currBin + 1)
            if binEnd ≤ binStart then (mi, binStart)
            else (mi, cryptoFastRngUint64Range rng binStart binEnd)

end RendezMix.Source
