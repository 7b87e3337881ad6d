import Mathlib.Data.Nat.Digits.Lemmas

/-!
# Decimal numbers

Numbers as ASCII digits, most significant first, and reading such a number off
the front of a string.
-/
namespace RendezMix.Library.Decimals

instance lawfulBytes : LawfulBEq (List UInt8) := inferInstance

/-- The ASCII digit of a number below ten. -/
def digitByte (d : Nat) : UInt8 := UInt8.ofNat (48 + d)

def isDigit (byte : UInt8) : Bool := 48 ≤ byte && byte ≤ 57

def digitValue (byte : UInt8) : Nat := byte.toNat - 48

/-- A number in base ten, without leading zeros. -/
def decimal (n : Nat) : List UInt8 :=
  if n = 0 then [48] else ((Nat.digits 10 n).map digitByte).reverse

/-- The number a string of digits stands for. -/
def decimalValue (digits : List UInt8) : Nat :=
  Nat.ofDigits 10 (digits.reverse.map digitValue)

/-- Read the digits at the front of a string, of which there is at least one. -/
def readDecimal (input : List UInt8) : Option (Nat × List UInt8) :=
  let digits := input.takeWhile isDigit
  if digits = [] then none
  else some (decimalValue digits, input.drop digits.length)

section

variable (d n : Nat)

section

variable (small : d < 10)

include small

theorem digitByte_toNat : (digitByte d).toNat = 48 + d := by
  simp only [digitByte, UInt8.toNat_ofNat']
  omega

theorem digitValue_digitByte : digitValue (digitByte d) = d := by
  rw [digitValue, digitByte_toNat d small]
  omega

theorem isDigit_digitByte : isDigit (digitByte d) = true := by
  have value := digitByte_toNat d small
  simp only [isDigit, Bool.and_eq_true, decide_eq_true_eq, UInt8.le_iff_toNat_le, value]
  change 48 ≤ 48 + d ∧ 48 + d ≤ 57
  omega

end

theorem decimal_isDigit : ∀ byte ∈ decimal n, isDigit byte = true := by
  intro byte mem
  unfold decimal at mem
  split at mem
  · simp only [List.mem_singleton] at mem
    rw [mem]
    rfl
  · simp only [List.mem_reverse, List.mem_map] at mem
    obtain ⟨d, member, rfl⟩ := mem
    exact isDigit_digitByte d (Nat.digits_lt_base (by omega) member)

theorem decimal_ne_nil : decimal n ≠ [] := by
  unfold decimal
  split
  · simp
  · next positive => simp [Nat.digits_ne_nil_iff_ne_zero, positive]

theorem map_digitValue_digitByte (digits : List Nat) (small : ∀ d ∈ digits, d < 10) :
    (digits.map digitByte).map digitValue = digits := by
  induction digits with
  | nil => rfl
  | cons d digits ih =>
    rw [List.map_cons, List.map_cons, digitValue_digitByte d (small d List.mem_cons_self),
      ih fun e mem => small e (List.mem_cons_of_mem d mem)]

theorem decimalValue_decimal : decimalValue (decimal n) = n := by
  unfold decimalValue decimal
  split
  · next zero => rw [zero]; rfl
  · have small : ∀ d ∈ Nat.digits 10 n, d < 10 := fun d mem => Nat.digits_lt_base (by omega) mem
    rw [List.reverse_reverse, map_digitValue_digitByte _ small, Nat.ofDigits_digits]

/-- A number is read back whatever follows it, unless more digits do. -/
theorem readDecimal_decimal (rest : List UInt8)
    (ends : ∀ byte, rest.head? = some byte → isDigit byte = false) :
    readDecimal (decimal n ++ rest) = some (n, rest) := by
  have stop : rest.takeWhile isDigit = [] := by
    cases rest with
    | nil => rfl
    | cons byte rest => rw [List.takeWhile_cons, ends byte rfl]; rfl
  have digits : (decimal n ++ rest).takeWhile isDigit = decimal n := by
    rw [List.takeWhile_append_of_pos (decimal_isDigit n), stop, List.append_nil]
  unfold readDecimal
  simp only [digits]
  rw [if_neg (decimal_ne_nil n), decimalValue_decimal, List.drop_left]

/-- The value of a string of digits is accumulated from its front. -/
theorem foldl_eq_decimalValue (digits : List UInt8) :
    digits.foldl (fun value c => value * 10 + digitValue c) 0 = decimalValue digits := by
  induction digits using List.reverseRecOn with
  | nil => rfl
  | append_singleton digits c ih =>
    rw [List.foldl_append, ih]
    simp only [decimalValue, List.foldl_cons, List.foldl_nil, List.reverse_append,
      List.reverse_singleton, List.singleton_append, List.map_cons, Nat.ofDigits_cons]
    omega

/-- A number below `10 ^ k` has at most `k` digits. -/
theorem decimal_length_le (k : Nat) (positive : 0 < k) (bound : n < 10 ^ k) :
    (decimal n).length ≤ k := by
  unfold decimal
  split
  · exact positive
  · rw [List.length_reverse, List.length_map]
    exact (Nat.digits_length_le_iff (by omega) n).mpr bound

end

example : decimal 2048 = [50, 48, 52, 56] := by decide

end RendezMix.Library.Decimals
