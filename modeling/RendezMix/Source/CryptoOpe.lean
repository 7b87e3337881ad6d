import RendezMix.Library.ByteStrings

/-!
# Order-preserving encryption

`lib/crypt_ops/crypto_ope.c`. AES in counter mode is a function that gives the stream of a key,
by the position of the byte. An addition of numbers of 64 bits that would wrap, a failed
assertion and a read outside of the samples are `none`.
-/
namespace RendezMix.Source.Ope
open Library.ByteStrings

def opeInputMax : Nat := 2 ^ 18

def cryptoOpeError : Nat := 2 ^ 64 - 1

def sampleInterval : Nat := 1024

def nSamples : Nat := opeInputMax / sampleInterval

def bufsz : Nat := 256

structure CryptoOpe where
  key : Bytes 32
  samples : List Nat

/-- `crypto_cipher_t`: the stream of its key, and the position of the next byte. -/
structure Cipher where
  stream : Nat → UInt8
  pos : Nat

/-- The sum of two values of type `uint64_t`. -/
def addUint64 (a b : Nat) : Option Nat := if a + b < 2 ^ 64 then some (a + b) else none

section
variable (aesCtr : Bytes 32 → Nat → UInt8)

/-- `crypto_cipher_new_with_iv_and_bits`; the counter starts at the IV and counts blocks. -/
def cryptoCipherNewWithIvAndBits (key : Bytes 32) (iv : List UInt8) : Cipher :=
  ⟨aesCtr key, 16 * ofBigEndian iv⟩

def opeGetCipher (key : Bytes 32) (initialIdx : UInt32) : Option Cipher :=
  if initialIdx &&& 0xf = 0 then
    let iv := List.replicate 12 (0 : UInt8) ++ be32 (initialIdx >>> 4)
    some (cryptoCipherNewWithIvAndBits aesCtr key iv)
  else none

def cryptoCipherCryptInplace (c : Cipher) (buf : List UInt8) : List UInt8 × Cipher :=
  (buf.mapIdx fun i byte => byte ^^^ c.stream (c.pos + i), { c with pos := c.pos + buf.length })

/-- The memory of an array of `ope_val_t`, as its values. -/
def opeVals : List UInt8 → List Nat
  | low :: high :: rest => (low.toNat + 256 * high.toNat) :: opeVals rest
  | _ => []

/-- The loops that add up a buffer. -/
def addVals : List Nat → Nat → Option Nat
  | [], total => some total
  | v :: vs, total => do
    let total ← addUint64 total v
    let total ← addUint64 total 1
    addVals vs total

/-- The loop of `sum_values_from_cipher`, and what comes after it. -/
def sumValuesLoop (c : Cipher) (n total : Nat) : Option (Nat × Cipher) :=
  if bufsz ≤ n then
    let crypted := cryptoCipherCryptInplace c (List.replicate (2 * bufsz) 0)
    (addVals (opeVals crypted.1) total).bind fun total => sumValuesLoop crypted.2 (n - bufsz) total
  else
    let crypted := cryptoCipherCryptInplace c (List.replicate (2 * n) 0)
    (addVals (opeVals crypted.1) total).map fun total => (total, crypted.2)
termination_by n
decreasing_by
  unfold bufsz at *
  omega

def sumValuesFromCipher (c : Cipher) (n : Nat) : Option (Nat × Cipher) := sumValuesLoop c n 0

/-- The loop of `crypto_ope_new`, with `left` samples to go. -/
def samplesLoop (cipher : Cipher) (v : Nat) : Nat → Option (List Nat)
  | 0 => some []
  | left + 1 => do
    let (sum, cipher) ← sumValuesFromCipher cipher sampleInterval
    let v ← addUint64 v sum
    let samples ← samplesLoop cipher v left
    some (v :: samples)

def cryptoOpeNew (key : Bytes 32) : Option CryptoOpe :=
  (opeGetCipher aesCtr key 0).bind fun cipher =>
    (samplesLoop cipher 0 nSamples).map fun samples => ⟨key, samples⟩

def cryptoOpeEncrypt (ope : CryptoOpe) (plaintext : Int) : Option Nat :=
  if plaintext ≤ 0 ∨ plaintext > opeInputMax then some cryptoOpeError
  else
    let plaintext := plaintext.toNat
    let sampleIdx := plaintext / sampleInterval
    let startingIv := sampleIdx * sampleInterval
    let remainingValues := plaintext - startingIv
    let v := if sampleIdx = 0 then some 0 else ope.samples[sampleIdx - 1]?
    v.bind fun v =>
      (opeGetCipher aesCtr ope.key (UInt32.ofNat (startingIv * 2))).bind fun cipher =>
        (sumValuesFromCipher cipher remainingValues).bind fun sum => addUint64 v sum.1

end

end RendezMix.Source.Ope
