import RendezMix.Library.EveryNth
import RendezMix.Source.EdgePackaging

/-!
# Randomness in the cells of a circuit

In each interval of `send_randomness_after_n_cells` one cell leaves room for random padding, at the
latest the one that ends the interval. The short cell can be the first of one interval and the
last of the next, so that the bound on the cells between two of them is about two intervals.
-/
namespace RendezMix.Guarantees
open Source Library.Gaps StreamCircuit

/-- One call of `connection_edge_get_inbuf_bytes_to_package`, with its random choice. -/
structure PackageCall where
  env : PackagingEnv
  nAvailable : Nat
  packagePartial : Bool

def PackageCall.result (call : PackageCall) (circ : StreamCircuit) : Nat × StreamCircuit :=
  circ.getInbufBytesToPackage call.env call.nAvailable call.packagePartial

/-- The lengths of the cells that are packaged. -/
def packagedLengths : List PackageCall → StreamCircuit → List Nat
  | [], _ => []
  | call :: rest, circ =>
      if (call.result circ).1 = 0 then packagedLengths rest (call.result circ).2
      else (call.result circ).1 :: packagedLengths rest (call.result circ).2

def afterCalls (calls : List PackageCall) (circ : StreamCircuit) : StreamCircuit :=
  calls.foldl (fun circ call => (call.result circ).2) circ

/-- The cell has room for sixteen random bytes. -/
def hasRandomness (packageLength : Nat) : Bool := packageLength ≤ randomSendmesLength

/-- The counter, the flag and the number of cells since the last one with randomness. -/
structure Interval (circ : StreamCircuit) (since : Nat) : Prop where
  counter : circ.sendRandomnessAfterNCells.toNat < 100
  sent : circ.haveSentSufficientlyRandomCell = true →
    since + circ.sendRandomnessAfterNCells.toNat ≤ 98
  unsent : circ.haveSentSufficientlyRandomCell = false →
    since + circ.sendRandomnessAfterNCells.toNat ≤ 197

/-- What a call does to the counter: nothing, one less, or a new interval. -/
def CountsDown (circ : StreamCircuit) (call : PackageCall) : Prop :=
  if (call.result circ).1 = 0 then (call.result circ).2 = circ
  else if circ.sendRandomnessAfterNCells = 0 then
    49 ≤ (call.result circ).2.sendRandomnessAfterNCells.toNat
      ∧ (call.result circ).2.sendRandomnessAfterNCells.toNat ≤ 98
  else
    (call.result circ).2.sendRandomnessAfterNCells.toNat + 1
      = circ.sendRandomnessAfterNCells.toNat

theorem resetSendmeRandomness_counter (env : PackagingEnv) (circ : StreamCircuit) :
    50 ≤ (circ.resetSendmeRandomness env).sendRandomnessAfterNCells.toNat
      ∧ (circ.resetSendmeRandomness env).sendRandomnessAfterNCells.toNat ≤ 99 := by
  have below := Nat.mod_lt (env.randomUint circ).toNat (by decide : 0 < 50)
  have value : (circ.resetSendmeRandomness env).sendRandomnessAfterNCells.toNat
      = (50 + (env.randomUint circ).toNat % 50) % 65536 := by
    rw [resetSendmeRandomness]
    dsimp only
    rw [UInt16.toNat_add, UInt16.toNat_mod]
    rfl
  omega

variable {circ : StreamCircuit} (env : PackagingEnv) {since : Nat}

theorem resetSendmeRandomness_interval (circ : StreamCircuit) :
    Interval (circ.resetSendmeRandomness env) 0 := by
  have counter := (resetSendmeRandomness_counter env circ).2
  constructor
  · omega
  · intro sent
    cases sent
  · omega

theorem toNat_pred (counter : UInt16) (positive : counter.toNat ≠ 0) :
    (counter - 1).toNat = counter.toNat - 1 := by
  apply UInt16.toNat_sub_of_le
  rw [UInt16.le_iff_toNat_le]
  have one : (1 : UInt16).toNat = 1 := rfl
  omega

/-- A cell at the end of an interval begins a new one, whose counter it takes one from. -/
theorem countRandomness_ends (packageLength : Nat) (circ : StreamCircuit)
    (zero : circ.sendRandomnessAfterNCells = 0) :
    49 ≤ (circ.countRandomness env packageLength).sendRandomnessAfterNCells.toNat
      ∧ (circ.countRandomness env packageLength).sendRandomnessAfterNCells.toNat ≤ 98
      ∧ (circ.countRandomness env packageLength).haveSentSufficientlyRandomCell = false := by
  rw [countRandomness]
  dsimp only
  rw [if_pos zero]
  have counter := resetSendmeRandomness_counter env
    { circ with
      haveSentSufficientlyRandomCell :=
        circ.haveSentSufficientlyRandomCell || packageLength ≤ randomSendmesLength }
  generalize fresh : resetSendmeRandomness env _ = reset at counter ⊢
  rw [toNat_pred _ (by omega)]
  refine ⟨by omega, by omega, ?_⟩
  rw [← fresh]
  rfl

/-- A cell inside an interval counts it down and may be its cell with randomness. -/
theorem countRandomness_goesOn (packageLength : Nat) (circ : StreamCircuit)
    (more : circ.sendRandomnessAfterNCells ≠ 0) :
    (circ.countRandomness env packageLength).sendRandomnessAfterNCells.toNat + 1
        = circ.sendRandomnessAfterNCells.toNat
      ∧ (circ.countRandomness env packageLength).haveSentSufficientlyRandomCell
        = (circ.haveSentSufficientlyRandomCell || hasRandomness packageLength) := by
  have positive : circ.sendRandomnessAfterNCells.toNat ≠ 0 := fun zero =>
    more (UInt16.toNat_inj.mp zero)
  rw [countRandomness]
  dsimp only
  rw [if_neg more]
  dsimp only
  rw [toNat_pred _ positive]
  exact ⟨by omega, rfl⟩

theorem inbufBytesToPackage_forced (nAvailable : Nat) (packagePartial : Bool)
    (circ : StreamCircuit) (zero : circ.sendRandomnessAfterNCells = 0)
    (unsent : circ.haveSentSufficientlyRandomCell = false) :
    hasRandomness (circ.inbufBytesToPackage nAvailable packagePartial) = true := by
  apply decide_eq_true
  have forced := And.intro zero unsent
  rw [inbufBytesToPackage, if_pos forced]
  split
  next => exact le_rfl
  next less =>
    split
    next => omega
    next => exact Nat.zero_le _

/-- What a call that packages a cell makes of the interval. -/
theorem Interval.packaged (interval : Interval circ since) (call : PackageCall)
    (packaged : (call.result circ).1 ≠ 0) :
    CountsDown circ call
      ∧ Interval (call.result circ).2
        (if hasRandomness (call.result circ).1 then 0 else since + 1) := by
  rw [CountsDown, if_neg packaged]
  rw [PackageCall.result, getInbufBytesToPackage] at packaged ⊢
  have some : circ.inbufBytesToPackage call.nAvailable call.packagePartial ≠ 0 := by
    intro none
    rw [if_pos none] at packaged
    exact packaged rfl
  rw [if_neg some]
  dsimp only
  have forced := inbufBytesToPackage_forced call.nAvailable call.packagePartial circ
  generalize circ.inbufBytesToPackage call.nAvailable call.packagePartial = packageLength at forced ⊢
  have before := interval.counter
  by_cases zero : circ.sendRandomnessAfterNCells = 0
  · obtain ⟨low, high, unsent⟩ := countRandomness_ends call.env packageLength circ zero
    rw [if_pos zero]
    refine ⟨⟨low, high⟩, ?_⟩
    constructor
    · omega
    · intro sent
      rw [unsent] at sent
      cases sent
    · intro _
      -- without randomness in this cell there was some earlier in the interval
      split
      next => omega
      next long =>
        have earlier : circ.haveSentSufficientlyRandomCell = true := by
          by_contra unsentBefore
          exact long (forced zero (Bool.eq_false_iff.mpr unsentBefore))
        have := interval.sent earlier
        omega
  · obtain ⟨oneLess, flag⟩ := countRandomness_goesOn call.env packageLength circ zero
    rw [if_neg zero]
    refine ⟨oneLess, ?_⟩
    constructor
    · omega
    · intro sent
      split
      next => omega
      next long =>
        rw [flag, Bool.eq_false_iff.mpr long, Bool.or_false] at sent
        have := interval.sent sent
        omega
    · intro unsent
      rw [flag, Bool.or_eq_false_iff] at unsent
      rw [if_neg (by rw [unsent.2]; exact Bool.false_ne_true)]
      have := interval.unsent unsent.1
      omega

theorem Interval.call (interval : Interval circ since) (call : PackageCall) :
    CountsDown circ call ∧ ∃ later, Interval (call.result circ).2 later := by
  by_cases none : (call.result circ).1 = 0
  · have same : (call.result circ).2 = circ := by
      rw [PackageCall.result, getInbufBytesToPackage] at none ⊢
      split at none
      next empty => rw [if_pos empty]
      next some => exact absurd none some
    rw [CountsDown, if_pos none, same]
    exact ⟨rfl, since, interval⟩
  · obtain ⟨counts, later⟩ := interval.packaged call none
    exact ⟨counts, _, later⟩

theorem Interval.since_le (interval : Interval circ since) : since ≤ 197 := by
  cases flag : circ.haveSentSufficientlyRandomCell with
  | true =>
    have := interval.sent flag
    omega
  | false =>
    have := interval.unsent flag
    omega

theorem Interval.afterCalls (interval : Interval circ since) (calls : List PackageCall) :
    ∃ later, Interval (afterCalls calls circ) later := by
  induction calls generalizing circ since with
  | nil => exact ⟨since, interval⟩
  | cons call calls ih =>
    obtain ⟨_, later, next⟩ := interval.call call
    exact ih next

theorem Interval.gaps (interval : Interval circ since) (calls : List PackageCall) :
    GapsAtMost hasRandomness 197 since (packagedLengths calls circ) := by
  induction calls generalizing circ since with
  | nil => exact interval.since_le
  | cons call calls ih =>
    rw [packagedLengths]
    split
    next none =>
      have kept := (interval.call call).1
      rw [CountsDown, if_pos none] at kept
      rw [kept]
      exact ih interval
    next packaged => exact ⟨interval.since_le, ih (interval.packaged call packaged).2⟩

/-- Among any 198 cells that are packaged one after the other, two less than twice the increment of
the circuit window, one has room for randomness, and the counter never wraps. -/
theorem getInbufBytesToPackage_randomness (env : PackagingEnv) (circ : StreamCircuit)
    (calls : List PackageCall) :
    (∀ front window back,
      packagedLengths calls (circ.resetSendmeRandomness env) = front ++ window ++ back →
      2 * circwindowIncrement - 2 ≤ window.length →
      ∃ packageLength ∈ window, packageLength ≤ randomSendmesLength)
    ∧ ∀ call, CountsDown (afterCalls calls (circ.resetSendmeRandomness env)) call := by
  have start := resetSendmeRandomness_interval env circ
  constructor
  · intro front window back split long
    have bounded := start.gaps calls
    rw [split] at bounded
    have increment : circwindowIncrement = 100 := rfl
    obtain ⟨packageLength, member, short⟩ := bounded.window (by omega)
    exact ⟨packageLength, member, of_decide_eq_true short⟩
  · intro call
    obtain ⟨later, interval⟩ := start.afterCalls calls
    exact (interval.call call).1

/-- The random choice is always the greatest one. -/
def longIntervals : PackagingEnv where
  maxQueueSize := 1000
  highwatermark := 100
  lowwatermark := 10
  randomUint := fun _ => 49
  delays := fun _ => false
  oomCloses := fun _ => false

def newStreamCircuit : StreamCircuit where
  streams := []
  ccontrol := fun _ => ⟨0, 0⟩
  queueLen := 0
  delayLen := 0
  streamsBlocked := false
  markedForClose := false
  haveSentSufficientlyRandomCell := false
  sendRandomnessAfterNCells := 0
  sent := []

/-- A cell of a hundred bytes, and full cells behind it. -/
def earlyShortCell : List PackageCall :=
  ⟨longIntervals, 100, true⟩ :: List.replicate 197 ⟨longIntervals, 498, false⟩

/-- With the longest intervals 197 full cells follow each other. -/
theorem getInbufBytesToPackage_fullCells :
    ¬ ∀ (env : PackagingEnv) (circ : StreamCircuit) (calls : List PackageCall)
      (front window back : List Nat),
      packagedLengths calls (circ.resetSendmeRandomness env) = front ++ window ++ back →
      circwindowIncrement ≤ window.length →
      ∃ packageLength ∈ window, packageLength ≤ randomSendmesLength := by
  intro all
  have lengths : packagedLengths earlyShortCell
      (newStreamCircuit.resetSendmeRandomness longIntervals)
      = [100] ++ List.replicate 197 498 ++ [] := by decide +kernel
  have long : circwindowIncrement ≤ (List.replicate 197 498).length := by
    rw [List.length_replicate]
    decide
  obtain ⟨packageLength, member, short⟩ := all longIntervals newStreamCircuit earlyShortCell [100]
    (List.replicate 197 498) [] lengths long
  rw [List.eq_of_mem_replicate member] at short
  exact absurd short (by decide)

end RendezMix.Guarantees
