import Mathlib.Algebra.Order.BigOperators.Group.Finset
import RendezMix.Source.CryptoOpe

/-!
# Order-preserving encryption preserves the order

The encryption of a number is the sum of as many values of the stream, from its start, whatever
sample the sum is continued from. No addition wraps.
-/
namespace RendezMix.Guarantees.OrderPreserving
open Library.ByteStrings Source.Ope Finset

/-- A value of the stream, in little-endian order. -/
def streamVal (stream : Nat → UInt8) (i : Nat) : Nat :=
  (stream (2 * i)).toNat + 256 * (stream (2 * i + 1)).toNat

/-- The sum of `n` values from place `start` on, each with one added. -/
def streamSum (stream : Nat → UInt8) (start n : Nat) : Nat :=
  ∑ i ∈ range n, (streamVal stream (start + i) + 1)

section

variable (stream : Nat → UInt8) (start n : Nat)

theorem streamVal_lt (i : Nat) : streamVal stream i < 2 ^ 16 := by
  have low := (stream (2 * i)).toNat_lt
  have high := (stream (2 * i + 1)).toNat_lt
  unfold streamVal
  omega

theorem streamSum_succ :
    streamSum stream start (n + 1)
      = streamVal stream start + 1 + streamSum stream (start + 1) n := by
  unfold streamSum
  rw [sum_range_succ']
  simp only [Nat.add_zero, Nat.add_assoc, Nat.add_comm, Nat.add_left_comm]

theorem streamSum_add (m : Nat) :
    streamSum stream start (n + m)
      = streamSum stream start n + streamSum stream (start + n) m := by
  unfold streamSum
  rw [sum_range_add]
  simp only [Nat.add_assoc]

theorem streamSum_le : streamSum stream start n ≤ 2 ^ 16 * n := by
  induction n generalizing start with
  | zero => exact Nat.le_refl 0
  | succ n ih =>
    have value := streamVal_lt stream start
    have rest := ih (start + 1)
    rw [streamSum_succ]
    omega

theorem streamSum_lt {m n : Nat} (less : m < n) :
    streamSum stream start m < streamSum stream start n := by
  obtain ⟨more, rfl⟩ : ∃ more, n = m + (more + 1) := ⟨n - m - 1, by omega⟩
  rw [streamSum_add, streamSum_succ]
  omega

/-! ## Summing up -/

theorem addUint64_eq {a b : Nat} (fits : a + b < 2 ^ 64) : addUint64 a b = some (a + b) :=
  if_pos fits

theorem opeVals_zeros :
    opeVals ((List.replicate (2 * n) 0).mapIdx fun i byte => byte ^^^ stream (2 * start + i))
      = (List.range n).map fun i => streamVal stream (start + i) := by
  induction n generalizing start with
  | zero => rfl
  | succ n ih =>
    have two : List.replicate (2 * (n + 1)) (0 : UInt8) = 0 :: 0 :: List.replicate (2 * n) 0 := rfl
    have shift : ∀ i, 2 * start + (i + 1 + 1) = 2 * (start + 1) + i := fun i => by omega
    have zero : ∀ byte : UInt8, 0 ^^^ byte = byte := fun byte => UInt8.zero_xor
    rw [two, List.mapIdx_cons, List.mapIdx_cons, opeVals, List.range_succ_eq_map, List.map_cons,
      List.map_map]
    simp only [shift, zero, ih]
    simp only [streamVal, Nat.add_zero, Function.comp_def, Nat.add_assoc, Nat.add_comm 1]

section

variable (total : Nat) (fits : total + streamSum stream start n < 2 ^ 64)

include fits

theorem addVals_stream :
    addVals ((List.range n).map fun i => streamVal stream (start + i)) total
      = some (total + streamSum stream start n) := by
  induction n generalizing start total with
  | zero => rfl
  | succ n ih =>
    rw [streamSum_succ] at fits ⊢
    have next : (List.range n).map ((fun i => streamVal stream (start + i)) ∘ Nat.succ)
        = (List.range n).map fun i => streamVal stream (start + 1 + i) := by
      apply List.map_congr_left
      intro i _
      exact congrArg (streamVal stream) (by omega)
    rw [List.range_succ_eq_map, List.map_cons, List.map_map, next, addVals, Nat.add_zero]
    rw [addUint64_eq (by omega), Option.bind_eq_bind, Option.bind_some, addUint64_eq (by omega),
      Option.bind_some, ih (start + 1) _ (by omega)]
    congr 1
    omega

theorem crypt_zeros :
    addVals (opeVals (cryptoCipherCryptInplace ⟨stream, 2 * start⟩ (List.replicate (2 * n) 0)).1)
      total = some (total + streamSum stream start n) := by
  unfold cryptoCipherCryptInplace
  rw [opeVals_zeros]
  exact addVals_stream stream start n total fits

end

theorem crypt_pos :
    (cryptoCipherCryptInplace ⟨stream, 2 * start⟩ (List.replicate (2 * n) 0)).2
      = ⟨stream, 2 * (start + n)⟩ := by
  unfold cryptoCipherCryptInplace
  rw [List.length_replicate, Nat.mul_add]

theorem sumValuesLoop_eq (start total : Nat) (fits : total + streamSum stream start n < 2 ^ 64) :
    sumValuesLoop ⟨stream, 2 * start⟩ n total
      = some (total + streamSum stream start n, ⟨stream, 2 * (start + n)⟩) := by
  induction n using Nat.strong_induction_on generalizing start total with
  | h n ih =>
    rw [sumValuesLoop]
    split
    next enough =>
      obtain ⟨rest, rfl⟩ := Nat.exists_eq_add_of_le enough
      have positive : 0 < bufsz := by decide
      rw [streamSum_add] at fits
      dsimp only
      rw [crypt_zeros stream start bufsz total (by omega), crypt_pos, Option.bind_some,
        Nat.add_sub_cancel_left, ih rest (by omega) _ _ (by omega), streamSum_add]
      simp only [Nat.add_assoc]
    next =>
      dsimp only
      rw [crypt_zeros stream start n total fits, crypt_pos]
      rfl

theorem sumValuesFromCipher_eq (start : Nat) (fits : streamSum stream start n < 2 ^ 64) :
    sumValuesFromCipher ⟨stream, 2 * start⟩ n
      = some (streamSum stream start n, ⟨stream, 2 * (start + n)⟩) := by
  rw [sumValuesFromCipher, sumValuesLoop_eq stream n start 0 (by omega), Nat.zero_add]

/-! ## Samples -/

theorem samplesLoop_eq (left done : Nat) (few : (done + left) * sampleInterval ≤ opeInputMax) :
    samplesLoop ⟨stream, 2 * (done * sampleInterval)⟩ (streamSum stream 0 (done * sampleInterval))
        left
      = some ((List.range left).map fun i =>
          streamSum stream 0 ((done + i + 1) * sampleInterval)) := by
  induction left generalizing done with
  | zero => rfl
  | succ left ih =>
    have next : done * sampleInterval + sampleInterval = (done + 1) * sampleInterval := by
      rw [Nat.succ_mul]
    have whole := streamSum_add stream 0 (done * sampleInterval) sampleInterval
    rw [next, Nat.zero_add] at whole
    have most : (done + 1) * sampleInterval ≤ (done + (left + 1)) * sampleInterval :=
      Nat.mul_le_mul_right _ (by omega)
    have bound := streamSum_le stream 0 ((done + 1) * sampleInterval)
    have limit : opeInputMax = 2 ^ 18 := rfl
    rw [samplesLoop, sumValuesFromCipher_eq stream _ _ (by omega), Option.bind_eq_bind,
      Option.bind_some]
    dsimp only
    have fewer : (done + 1 + left) * sampleInterval ≤ opeInputMax := by
      have same : done + 1 + left = done + (left + 1) := by omega
      rw [same]
      exact few
    rw [addUint64_eq (by omega), Option.bind_eq_bind, Option.bind_some, ← whole, next,
      ih (done + 1) fewer, Option.bind_eq_bind, Option.bind_some, List.range_succ_eq_map,
      List.map_cons, List.map_map]
    simp only [Nat.add_zero, Function.comp_def, Nat.add_assoc, Nat.add_comm 1]

end

section
variable (aesCtr : Bytes 32 → Nat → UInt8)

section

variable (key : Bytes 32)

theorem opeGetCipher_eq {idx : Nat} (block : idx % 16 = 0) (small : idx < 2 ^ 32) :
    opeGetCipher aesCtr key (UInt32.ofNat idx) = some ⟨aesCtr key, idx⟩ := by
  have value : (UInt32.ofNat idx).toNat = idx := UInt32.toNat_ofNat_of_lt' small
  have aligned : UInt32.ofNat idx &&& 0xf = 0 := by
    apply UInt32.toNat_inj.mp
    rw [UInt32.toNat_and, value]
    exact (Nat.and_two_pow_sub_one_eq_mod idx 4).trans block
  have counter : (UInt32.ofNat idx >>> 4).toNat = idx / 16 := by
    rw [UInt32.toNat_shiftRight, value]
    exact Nat.shiftRight_eq_div_pow idx 4
  have zeros : ofBigEndian (List.replicate 12 0) = 0 := by decide
  have number : ofBigEndian (be32 (UInt32.ofNat idx >>> 4)) = idx / 16 := by
    rw [be32, ofBigEndian_bigEndian_of_lt 4 _ (UInt32.toNat_lt _), counter]
  unfold opeGetCipher cryptoCipherNewWithIvAndBits
  rw [if_pos aligned]
  dsimp only
  rw [ofBigEndian_append, zeros, number, Nat.zero_mul, Nat.zero_add,
    Nat.mul_div_cancel' (Nat.dvd_of_mod_eq_zero block)]

/-- The samples of a key. -/
def opeOf (key : Bytes 32) : CryptoOpe :=
  ⟨key, (List.range nSamples).map fun i => streamSum (aesCtr key) 0 ((i + 1) * sampleInterval)⟩

theorem cryptoOpeNew_eq : cryptoOpeNew aesCtr key = some (opeOf aesCtr key) := by
  have samples := samplesLoop_eq (aesCtr key) nSamples 0 (by decide)
  simp only [Nat.zero_mul, Nat.mul_zero, Nat.zero_add] at samples
  have start : opeGetCipher aesCtr key 0 = some ⟨aesCtr key, 0⟩ :=
    opeGetCipher_eq aesCtr key rfl (by decide)
  unfold cryptoOpeNew
  rw [start, Option.bind_some]
  have none : streamSum (aesCtr key) 0 0 = 0 := rfl
  rw [none] at samples
  rw [samples]
  rfl

/-- The sum goes on from the sample before the number. -/
theorem cryptoOpeEncrypt_eq {n : Nat} (positive : 1 ≤ n) (most : n ≤ opeInputMax) :
    cryptoOpeEncrypt aesCtr (opeOf aesCtr key) n = some (streamSum (aesCtr key) 0 n) := by
  have limit : opeInputMax = 2 ^ 18 := rfl
  have interval : sampleInterval = 1024 := rfl
  have below : n / sampleInterval * sampleInterval ≤ n := Nat.div_mul_le_self n sampleInterval
  have rest : n / sampleInterval * sampleInterval + (n - n / sampleInterval * sampleInterval)
      = n := by
    omega
  have sample : (if n / sampleInterval = 0 then some 0
      else (opeOf aesCtr key).samples[n / sampleInterval - 1]?)
        = some (streamSum (aesCtr key) 0 (n / sampleInterval * sampleInterval)) := by
    split
    next first =>
      rw [first, Nat.zero_mul]
      rfl
    next later =>
      have inside : n / sampleInterval - 1 < nSamples := by
        have count : nSamples = 256 := rfl
        rw [interval]
        omega
      have place : n / sampleInterval - 1 + 1 = n / sampleInterval :=
        Nat.sub_add_cancel (Nat.one_le_iff_ne_zero.mpr later)
      rw [opeOf, List.getElem?_map, List.getElem?_range inside, Option.map_some, place]
  have split := streamSum_add (aesCtr key) 0 (n / sampleInterval * sampleInterval)
    (n - n / sampleInterval * sampleInterval)
  rw [rest, Nat.zero_add] at split
  have bound := streamSum_le (aesCtr key) 0 n
  have aligned : n / sampleInterval * sampleInterval * 2 % 16 = 0 := by
    rw [interval]
    omega
  have cipher := opeGetCipher_eq aesCtr key aligned (by omega)
  rw [Nat.mul_comm _ 2] at cipher
  unfold cryptoOpeEncrypt
  rw [if_neg (by omega), Int.toNat_natCast]
  dsimp only
  rw [sample, Option.bind_some, Nat.mul_comm _ 2, show (opeOf aesCtr key).key = key from rfl,
    cipher, Option.bind_some, sumValuesFromCipher_eq _ _ _ (by omega), Option.bind_some,
    addUint64_eq (by omega), split]

/-- The encryption is the sum of the first values of the stream, and grows with the number. -/
theorem cryptoOpeEncrypt_sum (key : Bytes 32) :
    ∃ ope, cryptoOpeNew aesCtr key = some ope
      ∧ (∀ n : Nat, 1 ≤ n → n ≤ opeInputMax →
        cryptoOpeEncrypt aesCtr ope n = some (∑ i ∈ range n, (streamVal (aesCtr key) i + 1)))
      ∧ ∀ m n : Nat, 1 ≤ m → m < n → n ≤ opeInputMax → ∃ a b,
        cryptoOpeEncrypt aesCtr ope m = some a ∧ cryptoOpeEncrypt aesCtr ope n = some b
          ∧ a < b := by
  refine ⟨opeOf aesCtr key, cryptoOpeNew_eq aesCtr key, ?_, ?_⟩
  · intro n positive most
    rw [cryptoOpeEncrypt_eq aesCtr key positive most]
    simp only [streamSum, Nat.zero_add]
  · intro m n positive less most
    exact ⟨_, _, cryptoOpeEncrypt_eq aesCtr key positive (by omega),
      cryptoOpeEncrypt_eq aesCtr key (by omega) most, streamSum_lt (aesCtr key) 0 less⟩

end

end

end RendezMix.Guarantees.OrderPreserving
