import Mathlib.Tactic.Ring
import RendezMix.Library.Runs

/-!
# Token meters

A meter has a level that tokens are taken from, also below zero. From time to time it is
refilled with a number of tokens for each step of a clock, up to its burst. What a clock makes of
two stamps is a parameter: a number of steps, or nothing when the refill is put off.
-/
namespace RendezMix.Library.TokenMeters
open Runs

structure Meter where
  rate : Nat
  burst : Int
  level : Int
  /-- The stamp of the last refill. -/
  stamp : Nat
  deriving DecidableEq

inductive MeterEvent
  | refill (now : Nat)
  | take (n : Nat)
  | adjust (rate : Nat) (burst : Int)

/-- The level after a refill of some steps. -/
def refilled (rate : Nat) (burst level : Int) (steps : Nat) : Int :=
  min burst (level + (steps : Int) * rate)

variable (elapsed : Nat → Nat → Option Nat)

/-- What an event does to the meter. -/
def Meter.after (meter : Meter) : MeterEvent → Meter
  | .refill now =>
    match elapsed meter.stamp now with
    | some steps =>
      { meter with
        level := refilled meter.rate meter.burst meter.level steps
        stamp := now }
    | none => meter
  | .take n => { meter with level := meter.level - n }
  | .adjust rate burst =>
    { meter with rate := rate, burst := burst, level := min meter.level burst }

section

variable (rate : Nat) (burst level : Int) (steps : Nat)

theorem refilled_le_burst : refilled rate burst level steps ≤ burst := min_le_left _ _

theorem refilled_le :
    refilled rate burst level steps ≤ level + (steps : Int) * rate := min_le_right _ _

end

/-! ## What is taken -/

/-- The tokens that an event takes. -/
def MeterEvent.taken : MeterEvent → Nat
  | .take n => n
  | _ => 0

/-- The last stamp of some events, after an earlier one. -/
def lastStamp (start : Nat) : List MeterEvent → Nat
  | [] => start
  | .refill now :: events => lastStamp now events
  | _ :: events => lastStamp start events

/-- The configuration stays and the stamps do not go back. -/
def Steady (start : Nat) : List MeterEvent → Prop
  | [] => True
  | .refill now :: events => start ≤ now ∧ Steady now events
  | .take _ :: events => Steady start events
  | .adjust _ _ :: _ => False

variable {elapsed} {start : Nat} {span : Nat → Nat}

/-- What is taken is within the level at the start and what the clock has granted since then,
where the steps of two refills are among the steps of the time that they span. -/
theorem Meter.taken_le
    (within : ∀ a b steps, start ≤ a → a ≤ b → elapsed a b = some steps → span a + steps ≤ span b)
    (monotone : ∀ a b, a ≤ b → span a ≤ span b) {latest : Nat} (events : List MeterEvent)
    (meter : Meter) (started : start ≤ meter.stamp) (behind : meter.stamp ≤ latest)
    (steady : Steady latest events) :
    ((events.map MeterEvent.taken).sum : Int) + (events.foldl (Meter.after elapsed) meter).level
      ≤ meter.level + meter.rate * ((span (lastStamp latest events) : Int) - span meter.stamp) := by
  induction events generalizing meter latest with
  | nil =>
    have later : 0 ≤ (span latest : Int) - span meter.stamp := by
      have le := monotone _ _ behind
      omega
    have granted := Int.mul_nonneg (Int.natCast_nonneg meter.rate) later
    simp only [List.map_nil, List.sum_nil, List.foldl_nil, lastStamp]
    omega
  | cons event events ih =>
    rw [List.map_cons, List.sum_cons, List.foldl_cons]
    cases event with
    | refill now =>
      obtain ⟨forward, steady⟩ := steady
      change ((0 + (events.map MeterEvent.taken).sum : Nat) : Int) + _ ≤ _
      rw [Nat.zero_add, lastStamp]
      cases steps : elapsed meter.stamp now with
      | none =>
        have same : meter.after elapsed (.refill now) = meter := by rw [Meter.after, steps]
        rw [same]
        exact ih meter started (behind.trans forward) steady
      | some n =>
        have next : meter.after elapsed (.refill now)
            = { meter with
                level := refilled meter.rate meter.burst meter.level n
                stamp := now } := by
          rw [Meter.after, steps]
        have rest := ih (meter.after elapsed (.refill now)) (by
          rw [next]
          exact started.trans (behind.trans forward)) (by rw [next]) steady
        have level := refilled_le meter.rate meter.burst meter.level n
        have granted := within _ _ n started (behind.trans forward) steps
        have product : (meter.rate : Int) * (span meter.stamp + n) ≤ meter.rate * span now := by
          apply Int.mul_le_mul_of_nonneg_left _ (Int.natCast_nonneg meter.rate)
          exact_mod_cast granted
        rw [next] at rest ⊢
        simp only at rest
        have expand : (meter.rate : Int) * ((span (lastStamp now events) : Int) - span meter.stamp)
            = meter.rate * ((span (lastStamp now events) : Int) - span now)
              + (meter.rate * span now - meter.rate * span meter.stamp) := by
          ring
        rw [Int.mul_add, Int.mul_comm (meter.rate : Int) n] at product
        omega
    | take n =>
      have rest := ih { meter with level := meter.level - n } started behind steady
      change ((n + (events.map MeterEvent.taken).sum : Nat) : Int)
        + (events.foldl (Meter.after elapsed) { meter with level := meter.level - n }).level ≤ _
      rw [lastStamp]
      · simp only at rest
        omega
      · intro now other
        cases other
    | adjust => exact steady.elim

end RendezMix.Library.TokenMeters
