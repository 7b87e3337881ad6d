import Mathlib.Tactic.Ring
import Mathlib.Tactic.Linarith

/-!
# Machine words as numbers

The larger and the smaller of two words, and sums and differences that do not
wrap.
-/
namespace RendezMix.Library.Words

theorem uint64_toNat_max (a b : UInt64) : (max a b).toNat = max a.toNat b.toNat := by
  change (if a ≤ b then b else a).toNat = _
  split
  · next le =>
    rw [UInt64.le_iff_toNat_le] at le
    omega
  · next le =>
    rw [UInt64.le_iff_toNat_le] at le
    omega

theorem uint64_toNat_min (a b : UInt64) : (min a b).toNat = min a.toNat b.toNat := by
  change (if a ≤ b then a else b).toNat = _
  split
  · next le =>
    rw [UInt64.le_iff_toNat_le] at le
    omega
  · next le =>
    rw [UInt64.le_iff_toNat_le] at le
    omega

theorem uint64_toNat_add {a b : UInt64} (room : a.toNat + b.toNat < 2 ^ 64) :
    (a + b).toNat = a.toNat + b.toNat := by
  rw [UInt64.toNat_add, Nat.mod_eq_of_lt room]

theorem uint64_toNat_sub {a b : UInt64} (enough : b.toNat ≤ a.toNat) :
    (a - b).toNat = a.toNat - b.toNat :=
  UInt64.toNat_sub_of_le _ _ (UInt64.le_iff_toNat_le.mpr enough)

end RendezMix.Library.Words

/-!
# Two-place numbers with carry and borrow

A pair of a high and a low part stands for `high * base + low`. Addition with
one carry and subtraction with one borrow keep the low part in range, and for
pairs in range the lexicographic order is the order of the values.
-/
namespace RendezMix.Library.CarryPair

/-- A two-place number; the base is a parameter of the operations. -/
structure Pair where
  high : Int
  low : Int
  deriving DecidableEq, Repr

variable (base : Int)

def value (p : Pair) : Int := p.high * base + p.low

/-- The low part is a digit of the base. -/
def Normal (p : Pair) : Prop := 0 ≤ p.low ∧ p.low < base

instance (p : Pair) : Decidable (Normal base p) := inferInstanceAs (Decidable (_ ∧ _))

def add (p q : Pair) : Pair :=
  if p.low + q.low ≥ base then ⟨p.high + q.high + 1, p.low + q.low - base⟩
  else ⟨p.high + q.high, p.low + q.low⟩

def sub (p q : Pair) : Pair :=
  if p.low - q.low < 0 then ⟨p.high - q.high - 1, p.low - q.low + base⟩
  else ⟨p.high - q.high, p.low - q.low⟩

/-- The lexicographic order. -/
def before (p q : Pair) : Prop := p.high < q.high ∨ (p.high = q.high ∧ p.low < q.low)

instance (p q : Pair) : Decidable (before p q) := inferInstanceAs (Decidable (_ ∨ _))

theorem value_add (p q : Pair) : value base (add base p q) = value base p + value base q := by
  unfold add value
  split
  · dsimp only
    ring
  · dsimp only
    ring

theorem value_sub (p q : Pair) : value base (sub base p q) = value base p - value base q := by
  unfold sub value
  split
  · dsimp only
    ring
  · dsimp only
    ring

section

variable (p q : Pair) (hp : Normal base p) (hq : Normal base q)

include hp hq

theorem normal_add : Normal base (add base p q) := by
  unfold Normal at *
  unfold add
  split
  · dsimp only
    omega
  · dsimp only
    omega

theorem normal_sub : Normal base (sub base p q) := by
  unfold Normal at *
  unfold sub
  split
  · dsimp only
    omega
  · dsimp only
    omega

/-- A smaller high part decides the order, whatever the low parts are. -/
theorem value_lt_of_high (less : p.high < q.high) : value base p < value base q := by
  have positive : 0 ≤ base := by
    have := hp.1
    have := hp.2
    omega
  have step : (p.high + 1) * base ≤ q.high * base :=
    Int.mul_le_mul_of_nonneg_right (by omega) positive
  have expand : (p.high + 1) * base = p.high * base + base := by ring
  have := hp.2
  have := hq.1
  unfold value
  omega

theorem before_iff_value : before p q ↔ value base p < value base q := by
  unfold before
  rcases lt_trichotomy p.high q.high with less | equal | more
  · have := value_lt_of_high base p q hp hq less
    omega
  · simp [value, equal]
  · have := value_lt_of_high base q p hq hp more
    omega

/-- The borrow reaches the high part exactly when the difference is negative. -/
theorem sub_high_neg_iff : (sub base p q).high < 0 ↔ value base p < value base q := by
  rw [← before_iff_value base p q hp hq]
  unfold Normal at hp hq
  unfold sub before
  split
  · dsimp only
    omega
  · dsimp only
    omega

end

end RendezMix.Library.CarryPair
