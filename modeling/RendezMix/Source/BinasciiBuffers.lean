import RendezMix.Library.Destinations
import RendezMix.Source.Binascii

/-!
# Encoding and decoding into a buffer

The functions of `lib/encoding/binascii.c` with the buffers they write to: the sizes they are
given and predict, the loops that fill a destination by index, and what they do where it is too
short. A destination is given by the bytes it holds before the call, as many as `destlen`. A call
has no result where an assertion of it fails.
-/
namespace RendezMix.Source.BinasciiBuffers
open Library.Destinations

def intMax : Nat := 2147483647

def sizeTCeiling : Nat := 2 ^ 63 - 1 - 16

def ceilDiv (a b : Nat) : Nat := (a + (b - 1)) / b

/-- What a call returns, and the destination after it. -/
structure CodecCall where
  result : Int
  dest : Destination
  deriving DecidableEq

/-! ## Base 32 -/

def base32Chars : List UInt8 := textBytes "abcdefghijklmnopqrstuvwxyz234567"

def base32NopadBufsize (n : Nat) : Nat := ceilDiv (n * 8) 5 + 1

/-- `base32_encoded_size`. It counts the NUL. -/
def base32EncodedSize (srclen : Nat) : Option Nat :=
  if srclen < sizeTCeiling / 8 then
    let enclen := base32NopadBufsize srclen
    if enclen < intMax ∧ srclen < enclen then some enclen else none
  else none

/-- The five bits of `src` from `bit` on, filled up with zeros. -/
def base32Digit (src : List UInt8) (bit : Nat) : Nat :=
  let idx := bit / 8
  let v := (src.getD idx 0).toNat * 256
    + (if idx + 1 < src.length then (src.getD (idx + 1) 0).toNat else 0)
  v / 2 ^ (11 - bit % 8) % 32

/-- `base32_encode`. -/
def base32EncodeTo (dest src : List UInt8) : Option Destination :=
  match base32EncodedSize src.length with
  | none => none
  | some enclen =>
    if enclen ≤ dest.length ∧ dest.length < sizeTCeiling then
      let rounds := ceilDiv (src.length * 8) 5
      let dest := (List.range rounds).foldl
        (fun dest i => dest.put i (base32Chars.getD (base32Digit src (5 * i)) 0))
        (Destination.filled dest.length [])
      some (dest.put rounds 0)
    else none

/-- The value of a character, in either case. -/
def base32Value (c : UInt8) : Option Nat :=
  if 0x60 < c.toNat ∧ c.toNat < 0x7B then some (c.toNat - 0x61)
  else if 0x31 < c.toNat ∧ c.toNat < 0x38 then some (c.toNat - 0x18)
  else if 0x40 < c.toNat ∧ c.toNat < 0x5B then some (c.toNat - 0x41)
  else none

/-- The byte of the values `tmp` at `bit`, from the two or three values that it overlaps. -/
def base32Byte (tmp : List Nat) (bit : Nat) : UInt8 :=
  let first := tmp.getD (bit / 5) 0
  let second := tmp.getD (bit / 5 + 1) 0
  let third := tmp.getD (bit / 5 + 2) 0
  match bit % 40 with
  | 0 => UInt8.ofNat (first * 8 + second / 4)
  | 8 => UInt8.ofNat (first * 64 + second * 2 + third / 16)
  | 16 => UInt8.ofNat (first * 16 + second / 2)
  | 24 => UInt8.ofNat (first * 128 + second * 4 + third / 8)
  | 32 => UInt8.ofNat (first * 32 + second)
  | _ => 0

/-- `base32_decode`. -/
def base32DecodeTo (dest src : List UInt8) : Option CodecCall :=
  let nbits := src.length * 5 / 8 * 8
  if src.length < sizeTCeiling / 5 ∧ nbits / 8 ≤ dest.length ∧ dest.length < sizeTCeiling then
    match src.mapM base32Value with
    | none => some ⟨-1, Destination.filled dest.length []⟩
    | some tmp =>
      let rounds := nbits / 8
      some ⟨rounds, (List.range rounds).foldl (fun dest i => dest.put i (base32Byte tmp (8 * i)))
        (Destination.filled dest.length [])⟩
  else none

/-! ## Base 64 -/

/-- `flags & BASE64_ENCODE_MULTILINE`. -/
def isMultiline (flags : Nat) : Bool := flags % 2 = 1

def base64Len (n : Nat) : Nat := ceilDiv n 3 * 4

/-- `BASE64_OPENSSL_LINELEN`. -/
def base64LineLen : Nat := 64

/-- `base64_encode_size`. It does not count the NUL. -/
def base64EncodeSize (srclen flags : Nat) : Option Nat :=
  if srclen < intMax ∧ ceilDiv srclen 3 < intMax / 4 then
    let enclen := base64Len srclen
    let enclen := if isMultiline flags then enclen + ceilDiv enclen base64LineLen else enclen
    if enclen < intMax ∧ (enclen = 0 ∨ srclen < enclen) then some enclen else none
  else none

/-- The destination, where the next character goes, and how many there are in the line. -/
structure Writer where
  dest : Destination
  d : Nat
  linelen : Nat

/-- `*d++ = ch`. -/
def Writer.add (w : Writer) (ch : UInt8) : Writer :=
  { w with dest := w.dest.put w.d ch, d := w.d + 1 }

def newlineChar : UInt8 := 10

def encodeChar (flags : Nat) (w : Writer) (ch : UInt8) : Writer :=
  let w := w.add ch
  if isMultiline flags then
    let linelen := w.linelen + 1
    if linelen % base64LineLen = 0 then { w with linelen := 0 }.add newlineChar
    else { w with linelen := linelen }
  else w

def encodeN (flags n : Nat) (w : Writer) (idx : Nat) : Writer :=
  encodeChar flags w (base64EncodeN n idx)

def encodePad (flags : Nat) (w : Writer) : Writer := encodeChar flags w base64Pad

/-- The loop of `base64_encode`: the bits left over, how many bytes they come from, and what was
written. -/
def base64EncodeLoop (flags : Nat) : List UInt8 → Nat → Nat → Writer → Nat × Nat × Writer
  | [], n, nIdx, w => (n, nIdx, w)
  | byte :: src, n, nIdx, w =>
    let n := n * 256 + byte.toNat
    if nIdx + 1 = 3 then base64EncodeLoop flags src 0 0 ([0, 1, 2, 3].foldl (encodeN flags n) w)
    else base64EncodeLoop flags src n (nIdx + 1) w

/-- What `base64_encode` does with the bits left over. -/
def base64EncodeRest (flags : Nat) : Nat × Nat × Writer → Option Writer
  | (_, 0, w) => some w
  | (n, 1, w) => some (encodePad flags (encodePad flags ([2, 3].foldl (encodeN flags (n * 16)) w)))
  | (n, 2, w) => some (encodePad flags ([1, 2, 3].foldl (encodeN flags (n * 4)) w))
  | _ => none

/-- `base64_encode`, of a source and a destination that are not null. -/
def base64EncodeTo (dest src : List UInt8) (flags : Nat) : Option CodecCall :=
  match base64EncodeSize src.length flags with
  | none => none
  | some enclen =>
    if dest.length < enclen + 1 ∨ sizeTCeiling < dest.length ∨ intMax < enclen then
      some ⟨-1, dest, false⟩
    else
      let start : Writer := ⟨Destination.filled dest.length [], 0, 0⟩
      match base64EncodeRest flags (base64EncodeLoop flags src 0 0 start) with
      | none => none
      | some w =>
        let w := if isMultiline flags ∧ w.linelen ≠ 0 then w.add newlineChar else w
        if w.d = enclen then some ⟨enclen, (w.add 0).dest⟩ else none

/-- The loop of `base64_encode_nopad`, which moves the characters that stay to the front. -/
def stripPadding : Nat → Nat → Nat → Destination → Nat × Destination
  | 0, _, out, dest => (out, dest)
  | fuel + 1, inp, out, dest =>
    let c := dest.bytes.getD inp 0
    if c = 0 then (out, dest)
    else if c = base64Pad ∨ c = newlineChar then stripPadding fuel (inp + 1) out dest
    else stripPadding fuel (inp + 1) (out + 1) (dest.put out c)

/-- `base64_encode_nopad`. -/
def base64EncodeNopadTo (dest src : List UInt8) : Option CodecCall :=
  match base64EncodeTo dest src 0 with
  | none => none
  | some call =>
    if call.result ≤ 0 then some call
    else
      let n := call.result.toNat
      if n < dest.length ∧ call.dest.bytes.getD n 1 = 0 then
        let (out, dest) := stripPadding dest.length 0 0 call.dest
        if out ≤ intMax then some ⟨out, dest.put out 0⟩ else none
      else none

/-- The bits read, how many characters they come from, and what was written. -/
structure Base64Reader where
  n : Nat
  nIdx : Nat
  di : Nat
  dest : Destination

/-- `dest[di++] = byte`. -/
def Base64Reader.add (r : Base64Reader) (byte : Nat) : Base64Reader :=
  { r with dest := r.dest.put r.di (UInt8.ofNat byte), di := r.di + 1 }

/-- The loop of `base64_decode`. Where the function returns −1 the destination is left. -/
def base64DecodeLoopTo (destlen : Nat) : List UInt8 → Base64Reader →
    Except Destination Base64Reader
  | [], r => .ok r
  | c :: src, r =>
    match base64DecodeTable c with
    | .invalid => .error r.dest
    | .space => base64DecodeLoopTo destlen src r
    | .pad => .ok r
    | .digit v =>
      let n := r.n * 64 + v
      if r.nIdx + 1 = 4 then
        if destlen < 3 ∨ destlen - 3 < r.di then .error r.dest
        else
          let r := ((r.add (n / 65536)).add (n / 256 % 256)).add (n % 256)
          base64DecodeLoopTo destlen src { r with n := 0, nIdx := 0 }
      else base64DecodeLoopTo destlen src { r with n := n, nIdx := r.nIdx + 1 }

/-- What `base64_decode` does with the bits left over. -/
def base64DecodeRest (destlen : Nat) (r : Base64Reader) : Except Destination Base64Reader :=
  if r.nIdx = 1 then .error r.dest
  else if r.nIdx = 2 then
    if destlen < 1 ∨ destlen - 1 < r.di then .error r.dest else .ok (r.add (r.n / 16))
  else if r.nIdx = 3 then
    if destlen < 2 ∨ destlen - 2 < r.di then .error r.dest
    else .ok ((r.add (r.n / 1024)).add (r.n / 4))
  else .ok r

/-- `base64_decode`. -/
def base64DecodeTo (dest src : List UInt8) : Option CodecCall :=
  if intMax < dest.length then some ⟨-1, dest, false⟩
  else
    match base64DecodeLoopTo dest.length src ⟨0, 0, 0, Destination.filled dest.length []⟩ >>=
      base64DecodeRest dest.length with
    | .error left => some ⟨-1, left⟩
    | .ok r => if r.di ≤ dest.length then some ⟨r.di, r.dest⟩ else none

/-! ## Base 16 -/

def base16Bufsize (n : Nat) : Nat := n * 2 + 1

/-- The loop of `base16_encode`, which writes from `cp` on. -/
def base16EncodeLoop : List UInt8 → Nat → Destination → Nat × Destination
  | [], cp, dest => (cp, dest)
  | byte :: src, cp, dest =>
    base16EncodeLoop src (cp + 2) ((dest.put cp (hexDigits.getD (byte.toNat / 16) 0)).put (cp + 1)
      (hexDigits.getD (byte.toNat % 16) 0))

/-- `base16_encode`. -/
def base16EncodeTo (dest src : List UInt8) : Option Destination :=
  if src.length < sizeTCeiling / 2 - 1 ∧ base16Bufsize src.length ≤ dest.length
      ∧ dest.length < sizeTCeiling then
    let (cp, dest) := base16EncodeLoop src 0 (Destination.filled dest.length [])
    some (dest.put cp 0)
  else none

/-- The loop of `base16_decode`: how many bytes were written, or where it returns −1 what was. -/
def base16DecodeLoop : List UInt8 → Nat → Destination → Except Destination (Nat × Destination)
  | high :: low :: src, i, dest =>
    match hexDecodeDigit high, hexDecodeDigit low with
    | some v1, some v2 => base16DecodeLoop src (i + 1) (dest.put i (UInt8.ofNat (v1 * 16 + v2)))
    | _, _ => .error dest
  | _, i, dest => .ok (i, dest)

/-- `base16_decode`. -/
def base16DecodeTo (dest src : List UInt8) : Option CodecCall :=
  if src.length % 2 ≠ 0 then some ⟨-1, dest, false⟩
  else if dest.length < src.length / 2 ∨ intMax < dest.length then some ⟨-1, dest, false⟩
  else
    match base16DecodeLoop src 0 (Destination.filled dest.length []) with
    | .error left => some ⟨-1, left⟩
    | .ok (written, after) => if written ≤ dest.length then some ⟨written, after⟩ else none

example : base32EncodeTo (List.replicate 9 7) (textBytes "abcd") =
    some (Destination.filled 9 (textBytes "mfrggza")) := by decide

end RendezMix.Source.BinasciiBuffers
