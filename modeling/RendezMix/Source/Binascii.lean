import RendezMix.Library.ByteStrings

/-!
# Base 16 and base 64

`base16_encode`, `base16_decode`, `base64_encode`, `base64_encode_nopad` and
`base64_decode` of `lib/encoding/binascii.c`. Strings are lists of bytes
without the NUL that ends them.
-/
namespace RendezMix.Source

/-- The bytes of an ASCII text. -/
def textBytes (text : String) : List UInt8 := text.toList.map fun c => UInt8.ofNat c.toNat

/-! ## Base 16 -/

def hexDigits : List UInt8 := textBytes "0123456789ABCDEF"

def base16Encode (src : List UInt8) : List UInt8 :=
  src.flatMap fun byte => [hexDigits.getD (byte.toNat / 16) 0, hexDigits.getD (byte.toNat % 16) 0]

def hexDecodeDigit (c : UInt8) : Option Nat :=
  if 48 ≤ c.toNat ∧ c.toNat ≤ 57 then some (c.toNat - 48)
  else if 65 ≤ c.toNat ∧ c.toNat ≤ 70 then some (c.toNat - 65 + 10)
  else if 97 ≤ c.toNat ∧ c.toNat ≤ 102 then some (c.toNat - 97 + 10)
  else none

/-- `base16_decode`, where the result has room. -/
def base16Decode : List UInt8 → Option (List UInt8)
  | [] => some []
  | [_] => none
  | high :: low :: rest => do
    let v1 ← hexDecodeDigit high
    let v2 ← hexDecodeDigit low
    let dest ← base16Decode rest
    some (UInt8.ofNat (v1 * 16 + v2) :: dest)

/-! ## Base 64 -/

def base64EncodeTable : List UInt8 :=
  textBytes "ABCDEFGHIJKLMNOPQRSTUVWXYZabcdefghijklmnopqrstuvwxyz0123456789+/"

/-- The character of the six bits of `n` at `idx`, which counts from the left. -/
def base64EncodeN (n idx : Nat) : UInt8 :=
  base64EncodeTable.getD (n / 2 ^ ((3 - idx) * 6) % 64) 0

def base64Pad : UInt8 := 61

/-- `base64_encode` without flags. -/
def base64Encode : List UInt8 → List UInt8
  | [] => []
  | [a] =>
    let n := a.toNat * 16
    [base64EncodeN n 2, base64EncodeN n 3, base64Pad, base64Pad]
  | [a, b] =>
    let n := (a.toNat * 256 + b.toNat) * 4
    [base64EncodeN n 1, base64EncodeN n 2, base64EncodeN n 3, base64Pad]
  | a :: b :: c :: rest =>
    let n := (a.toNat * 256 + b.toNat) * 256 + c.toNat
    base64EncodeN n 0 :: base64EncodeN n 1 :: base64EncodeN n 2 :: base64EncodeN n 3
      :: base64Encode rest

def base64EncodeNopad (src : List UInt8) : List UInt8 :=
  (base64Encode src).filter fun c => c ≠ base64Pad ∧ c ≠ 10

/-- What a character stands for. -/
inductive Base64Value where
  | invalid
  | space
  | pad
  | digit (v : Nat)
  deriving DecidableEq

def base64DecodeTable (c : UInt8) : Base64Value :=
  let n := c.toNat
  if n = 9 ∨ n = 10 ∨ n = 11 ∨ n = 13 ∨ n = 32 then .space
  else if n = 43 then .digit 62
  else if n = 47 then .digit 63
  else if 48 ≤ n ∧ n ≤ 57 then .digit (n - 48 + 52)
  else if n = 61 then .pad
  else if 65 ≤ n ∧ n ≤ 90 then .digit (n - 65)
  else if 97 ≤ n ∧ n ≤ 122 then .digit (n - 97 + 26)
  else .invalid

/-- The loop of `base64_decode`: the bits left over, how many characters they come from, and what
was written. -/
def base64DecodeLoop (destlen : Nat) :
    List UInt8 → Nat → Nat → List UInt8 → Option (Nat × Nat × List UInt8)
  | [], n, nIdx, dest => some (n, nIdx, dest)
  | c :: src, n, nIdx, dest =>
    match base64DecodeTable c with
    | .invalid => none
    | .space => base64DecodeLoop destlen src n nIdx dest
    | .pad => some (n, nIdx, dest)
    | .digit v =>
      let n := n * 64 + v
      if nIdx + 1 = 4 then
        if destlen < 3 ∨ destlen - 3 < dest.length then none
        else base64DecodeLoop destlen src 0 0
          (dest ++ [UInt8.ofNat (n / 65536), UInt8.ofNat (n / 256 % 256), UInt8.ofNat (n % 256)])
      else base64DecodeLoop destlen src n (nIdx + 1) dest

/-- `base64_decode`: the bytes written to a buffer of `destlen`. -/
def base64Decode (destlen : Nat) (src : List UInt8) : Option (List UInt8) :=
  match base64DecodeLoop destlen src 0 0 [] with
  | none => none
  | some (n, nIdx, dest) =>
    if nIdx = 1 then none
    else if nIdx = 2 then
      if destlen < 1 ∨ destlen - 1 < dest.length then none
      else some (dest ++ [UInt8.ofNat (n / 16)])
    else if nIdx = 3 then
      if destlen < 2 ∨ destlen - 2 < dest.length then none
      else some (dest ++ [UInt8.ofNat (n / 1024), UInt8.ofNat (n / 4)])
    else some dest

/-! ## Lemmas -/

section

variable (src : List UInt8)

theorem base16Encode_length : (base16Encode src).length = 2 * src.length := by
  induction src with
  | nil => rfl
  | cons byte src ih =>
    rw [base16Encode] at ih ⊢
    rw [List.flatMap_cons, List.length_append, ih]
    simp only [List.length_cons, List.length_nil]
    omega

theorem hexDecodeDigit_hexDigits {v : Nat} (small : v < 16) :
    hexDecodeDigit (hexDigits.getD v 0) = some v := by
  have all : ∀ v < 16, hexDecodeDigit (hexDigits.getD v 0) = some v := by decide
  exact all v small

theorem base16Decode_base16Encode : base16Decode (base16Encode src) = some src := by
  induction src with
  | nil => rfl
  | cons byte src ih =>
    have below := byte.toNat_lt
    have whole : byte.toNat / 16 * 16 + byte.toNat % 16 = byte.toNat := by omega
    have text : base16Encode (byte :: src) = hexDigits.getD (byte.toNat / 16) 0
        :: hexDigits.getD (byte.toNat % 16) 0 :: base16Encode src := rfl
    rw [text, base16Decode, hexDecodeDigit_hexDigits (by omega),
      hexDecodeDigit_hexDigits (Nat.mod_lt _ (by decide)), ih]
    change some (UInt8.ofNat (byte.toNat / 16 * 16 + byte.toNat % 16) :: src) = _
    rw [whole, UInt8.ofNat_toNat]

theorem base16Encode_injective {src src' : List UInt8}
    (same : base16Encode src = base16Encode src') : src = src' := by
  have read := base16Decode_base16Encode src
  rw [same, base16Decode_base16Encode, Option.some.injEq] at read
  exact read.symm

theorem base64EncodeTable_eq : base64EncodeTable = (List.range' 65 26 ++ List.range' 97 26
    ++ List.range' 48 10 ++ [43, 47]).map UInt8.ofNat := by
  unfold base64EncodeTable textBytes
  rw [String.toList_ofList]
  rfl

theorem base64DecodeTable_encodeN (n idx : Nat) :
    base64DecodeTable (base64EncodeN n idx) = .digit (n / 2 ^ ((3 - idx) * 6) % 64) := by
  have all : ∀ d < 64, base64DecodeTable (base64EncodeTable.getD d 0) = .digit d := by
    rw [base64EncodeTable_eq]
    decide
  exact all _ (Nat.mod_lt _ (by decide))

section

variable {c : UInt8} (foreign : ∀ v < 64, base64DecodeTable c ≠ .digit v)

include foreign

theorem base64EncodeN_ne (n idx : Nat) : base64EncodeN n idx ≠ c := by
  intro same
  apply foreign _ (Nat.mod_lt (n / 2 ^ ((3 - idx) * 6)) (by decide))
  rw [← same, base64DecodeTable_encodeN]

theorem base64Encode_ne (notPad : c ≠ base64Pad) : c ∉ base64Encode src := by
  have digit (n idx : Nat) : c ≠ base64EncodeN n idx := (base64EncodeN_ne foreign n idx).symm
  induction src using Library.ByteStrings.triples_induction with
  | none => simp [base64Encode]
  | one a | two a b => simp [base64Encode, digit, notPad]
  | more a b c rest ih => simp [base64Encode, digit, ih]

end

/-- No line break is inside the encoding. -/
theorem base64Encode_ne_newline : (10 : UInt8) ∉ base64Encode src :=
  base64Encode_ne src (by decide) (by decide)

end

example : base64Encode (textBytes "Man") = textBytes "TWFu" := by decide

end RendezMix.Source
