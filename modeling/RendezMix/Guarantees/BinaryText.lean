import RendezMix.Source.BinasciiBuffers

/-!
# Binary data as text

What `base16_encode`, `base32_encode`, `base64_encode` and `base64_encode_nopad` write is decoded
to what was encoded, into every destination that has room for it. The decoders refuse what is not
of their alphabets and write nowhere but in their destinations. `base64_decode` reads no further
than the first `=`, and `base64_decode` and `base16_decode` take no destination of more than
`INT_MAX` bytes.
-/
namespace RendezMix.Guarantees.BinaryText
open Library.ByteStrings Library.Destinations Source BinasciiBuffers Destination

/-! ## Base 16 -/

variable (destlen : Nat) {c : UInt8} (a : UInt8) (flags size : Nat) {call : Option CodecCall}
  (b : UInt8) (n idx : Nat) (dest src : List UInt8)

theorem base16EncodeLoop_filled (text : List UInt8) (room : text.length + 2 * src.length ≤ size) :
    base16EncodeLoop src text.length (filled size text) =
      ((text ++ base16Encode src).length, filled size (text ++ base16Encode src)) := by
  induction src generalizing text with
  | nil => simp [base16EncodeLoop, base16Encode]
  | cons byte src ih =>
    rw [List.length_cons] at room
    have second := put_filled size (text ++ [hexDigits.getD (byte.toNat / 16) 0])
      (by rw [List.length_append, List.length_singleton]; omega)
      (hexDigits.getD (byte.toNat % 16) 0)
    rw [List.length_append, List.length_singleton, List.append_assoc] at second
    have longer : (text ++ [hexDigits.getD (byte.toNat / 16) 0,
        hexDigits.getD (byte.toNat % 16) 0]).length = text.length + 2 := by
      rw [List.length_append]
      rfl
    have rest := ih (text ++ [hexDigits.getD (byte.toNat / 16) 0,
      hexDigits.getD (byte.toNat % 16) 0]) (by omega)
    rw [longer, List.append_assoc] at rest
    rw [base16EncodeLoop, put_filled _ _ (by omega), second]
    exact rest

theorem base16EncodeTo_eq (short : src.length < sizeTCeiling / 2 - 1)
    (room : base16Bufsize src.length ≤ dest.length) (small : dest.length < sizeTCeiling) :
    base16EncodeTo dest src = some (filled dest.length (base16Encode src)) := by
  unfold base16Bufsize at room
  have loop := base16EncodeLoop_filled dest.length src [] (by rw [List.length_nil]; omega)
  rw [List.length_nil, List.nil_append] at loop
  rw [base16EncodeTo, if_pos ⟨short, room, small⟩, loop]
  dsimp only
  rw [put_zero_filled _ _ (by rw [base16Encode_length]; omega)]

/-- The loop of `base16_decode` against the bytes that a text stands for. -/
theorem base16DecodeLoop_filled (written : List UInt8) (even : src.length % 2 = 0)
    (room : written.length + src.length / 2 ≤ size) :
    (∃ bytes, base16Decode src = some bytes ∧ bytes.length = src.length / 2
      ∧ base16DecodeLoop src written.length (filled size written) =
        .ok ((written ++ bytes).length, filled size (written ++ bytes)))
    ∨ (base16Decode src = none ∧ ∃ left, left.length ≤ size
      ∧ base16DecodeLoop src written.length (filled size written) =
        .error (filled size left)) := by
  induction src using pairs_induction generalizing written with
  | none =>
    left
    exact ⟨[], rfl, rfl, by rw [List.append_nil]; rfl⟩
  | one single => simp at even
  | more high low rest ih =>
    simp only [List.length_cons] at even room
    rw [base16Decode, base16DecodeLoop]
    cases hexDecodeDigit high with
    | none =>
      right
      exact ⟨rfl, written, by omega, rfl⟩
    | some v1 =>
      cases hexDecodeDigit low with
      | none =>
        right
        exact ⟨rfl, written, by omega, rfl⟩
      | some v2 =>
        have next := put_filled size written (by omega)
          (UInt8.ofNat (v1 * 16 + v2))
        have rest := ih (written ++ [UInt8.ofNat (v1 * 16 + v2)]) (by omega)
          (by rw [List.length_append, List.length_singleton]; omega)
        rw [List.length_append, List.length_singleton] at rest
        simp only [next]
        obtain ⟨bytes, read, length, ran⟩ | ⟨unread, left, within, ran⟩ := rest
        · left
          rw [ran, read]
          refine ⟨UInt8.ofNat (v1 * 16 + v2) :: bytes, rfl, ?_, ?_⟩
          · simp only [List.length_cons, length]
            omega
          · rw [List.append_assoc]
            rfl
        · right
          rw [ran, unread]
          exact ⟨rfl, left, within, rfl⟩

/-- What a decoder does with a text into a destination that it takes: it returns the bytes that
the text stands for, or −1 where there are none. -/
def Decodes (dest : List UInt8) (bytes : Option (List UInt8)) (call : Option CodecCall) : Prop :=
  match bytes with
  | some bytes => bytes.length ≤ dest.length
      ∧ call = some ⟨bytes.length, filled dest.length bytes⟩
  | none => ∃ left, left.length ≤ dest.length
      ∧ call = some ⟨-1, filled dest.length left⟩

theorem base16DecodeTo_decodes (even : src.length % 2 = 0) (room : src.length / 2 ≤ dest.length)
    (small : dest.length ≤ intMax) : Decodes dest (base16Decode src) (base16DecodeTo dest src) := by
  have loop := base16DecodeLoop_filled dest.length src [] even (by rw [List.length_nil]; omega)
  rw [List.length_nil] at loop
  rw [base16DecodeTo, if_neg (by omega), if_neg (by omega)]
  obtain ⟨bytes, read, length, ran⟩ | ⟨unread, left, within, ran⟩ := loop
  · rw [List.nil_append] at ran
    rw [ran, read]
    dsimp only
    rw [if_pos (by omega)]
    exact ⟨by omega, rfl⟩
  · rw [ran, unread]
    exact ⟨left, within, rfl⟩

/-! ## Base 32 -/

theorem base32Value_base32Chars {u : Nat} (small : u < 32) :
    base32Value (base32Chars.getD u 0) = some u := by
  have all : ∀ u < 32, base32Value (base32Chars.getD u 0) = some u := by decide
  exact all u small

/-- The characters of `base32_encode`. -/
def base32Text (src : List UInt8) : List UInt8 :=
  (List.range (ceilDiv (src.length * 8) 5)).map fun i =>
    base32Chars.getD (base32Digit src (5 * i)) 0

theorem base32Text_length : (base32Text src).length = ceilDiv (src.length * 8) 5 := by
  rw [base32Text, List.length_map, List.length_range]

theorem base32EncodedSize_eq {srclen enclen : Nat} (size : base32EncodedSize srclen = some enclen) :
    enclen = ceilDiv (srclen * 8) 5 + 1 ∧ enclen < intMax := by
  unfold base32EncodedSize base32NopadBufsize at size
  dsimp only at size
  split at size
  · split at size
    · next fits =>
      cases size
      exact ⟨rfl, fits.1⟩
    · cases size
  · cases size

section

variable (bit enclen linelen : Nat) (text : List UInt8)

theorem base32EncodeTo_eq (size : base32EncodedSize src.length = some enclen)
    (room : enclen ≤ dest.length) (small : dest.length < sizeTCeiling) :
    base32EncodeTo dest src = some (filled dest.length (base32Text src)) := by
  have exactly := (base32EncodedSize_eq size).1
  have loop := foldl_put_filled dest.length
    (fun i => base32Chars.getD (base32Digit src (5 * i)) 0) (ceilDiv (src.length * 8) 5) (by omega)
  have last := put_zero_filled dest.length (base32Text src)
    (by rw [base32Text_length]; omega)
  rw [base32Text_length] at last
  rw [base32EncodeTo, size]
  dsimp only
  rw [if_pos ⟨room, small⟩, loop]
  exact congrArg some last

theorem base32Digit_lt : base32Digit src bit < 32 :=
  Nat.mod_lt _ (by decide)

theorem mapM_base32Text :
    (base32Text src).mapM base32Value =
      some ((List.range (ceilDiv (src.length * 8) 5)).map fun i => base32Digit src (5 * i)) := by
  unfold base32Text
  induction List.range (ceilDiv (src.length * 8) 5) with
  | nil => rfl
  | cons i rounds ih =>
    rw [List.map_cons, List.mapM_cons, base32Value_base32Chars (base32Digit_lt src _), ih]
    rfl

theorem base32Digit_eq :
    base32Digit src bit = ((src.getD (bit / 8) 0).toNat * 256 + (src.getD (bit / 8 + 1) 0).toNat)
      / 2 ^ (11 - bit % 8) % 32 := by
  have beyond : (if bit / 8 + 1 < src.length then (src.getD (bit / 8 + 1) 0).toNat else 0)
      = (src.getD (bit / 8 + 1) 0).toNat := by
    split
    · rfl
    · next past =>
      rw [List.getD_eq_getElem?_getD, List.getElem?_eq_none (by omega)]
      rfl
  unfold base32Digit
  dsimp only
  rw [beyond]

theorem base32Digit_group (k s : Nat) :
    base32Digit src (5 * (8 * k + s)) =
      ((src.getD (5 * k + 5 * s / 8) 0).toNat * 256
        + (src.getD (5 * k + (5 * s / 8 + 1)) 0).toNat) / 2 ^ (11 - 5 * s % 8) % 32 := by
  have byte : 5 * (8 * k + s) / 8 = 5 * k + 5 * s / 8 := by omega
  have within : 5 * (8 * k + s) % 8 = 5 * s % 8 := by omega
  rw [base32Digit_eq, byte, within, Nat.add_assoc (5 * k)]

theorem byte_eq_of_mod {n : Nat} {byte : UInt8} (same : n % 256 = byte.toNat) :
    UInt8.ofNat n = byte := by
  apply UInt8.toNat_inj.mp
  rw [UInt8.toNat_ofNat']
  exact same

/-- Each of the five cases of `base32_decode` puts the byte together again. -/
theorem base32Byte_digits (tmp : List Nat) (i : Nat) (inside : i < src.length)
    (values : ∀ j, 5 * j < 8 * src.length → tmp.getD j 0 = base32Digit src (5 * j)) :
    base32Byte tmp (8 * i) = src.getD i 0 := by
  obtain ⟨k, r, small, rfl⟩ : ∃ k r, r < 5 ∧ i = 5 * k + r :=
    ⟨i / 5, i % 5, Nat.mod_lt _ (by decide), by omega⟩
  have here : 8 * (5 * k + r) / 5 = 8 * k + 8 * r / 5 := by omega
  have which : 8 * (5 * k + r) % 40 = 8 * r := by omega
  obtain ⟨t, value⟩ : ∃ t : Nat → Nat, ∀ s, tmp.getD (8 * k + s) 0 = t s := ⟨_, fun _ => rfl⟩
  obtain ⟨g, byte⟩ : ∃ g : Nat → Nat, ∀ j, (src.getD (5 * k + j) 0).toNat = g j :=
    ⟨_, fun _ => rfl⟩
  have below : ∀ j, g j < 256 := by
    intro j
    rw [← byte j]
    exact UInt8.toNat_lt _
  have digit : ∀ s, 5 * s < 8 * (r + 1) →
      t s = (g (5 * s / 8) * 256 + g (5 * s / 8 + 1)) / 2 ^ (11 - 5 * s % 8) % 32 := by
    intro s overlap
    rw [← value, values (8 * k + s) (by omega), base32Digit_group, byte, byte]
  unfold base32Byte
  rw [which, here]
  simp only [Nat.add_assoc, value]
  have b0 := below 0
  have b1 := below 1
  have b2 := below 2
  have b3 := below 3
  have b4 := below 4
  have b5 := below 5
  have first := digit (8 * r / 5) (by omega)
  have second := digit (8 * r / 5 + 1) (by omega)
  have third : r = 1 ∨ r = 3 → _ := fun three => digit (8 * r / 5 + 2) (by omega)
  obtain rfl | rfl | rfl | rfl | rfl : r = 0 ∨ r = 1 ∨ r = 2 ∨ r = 3 ∨ r = 4 := by omega
  all_goals
    apply byte_eq_of_mod
    rw [byte]
    norm_num at first second third ⊢
    omega

theorem base32DecodeTo_base32Text (size : base32EncodedSize src.length = some enclen)
    (room : src.length ≤ dest.length) (small : dest.length < sizeTCeiling) :
    base32DecodeTo dest (base32Text src) =
      some ⟨src.length, filled dest.length src⟩ := by
  obtain ⟨exactly, short⟩ := base32EncodedSize_eq size
  have characters := base32Text_length src
  have count : (base32Text src).length * 5 / 8 * 8 / 8 = src.length := by
    rw [characters]
    unfold ceilDiv
    omega
  have bounded : (base32Text src).length < sizeTCeiling / 5 := by
    have ceiling : intMax < sizeTCeiling / 5 := by decide
    omega
  have values : ∀ j, 5 * j < 8 * src.length →
      ((List.range (ceilDiv (src.length * 8) 5)).map fun i =>
        base32Digit src (5 * i)).getD j 0 = base32Digit src (5 * j) := by
    intro j inside
    have within : j < ceilDiv (src.length * 8) 5 := by
      omega
    rw [List.getD_eq_getElem?_getD, List.getElem?_map, List.getElem?_range within]
    rfl
  have bytes : (List.range src.length).map (fun i => base32Byte
      ((List.range (ceilDiv (src.length * 8) 5)).map fun i => base32Digit src (5 * i)) (8 * i)) =
      src := by
    apply List.ext_getElem
    · rw [List.length_map, List.length_range]
    · intro i _ inside
      rw [List.getElem_map, List.getElem_range, base32Byte_digits src _ i inside values,
        List.getD_eq_getElem?_getD, List.getElem?_eq_getElem inside]
      rfl
  have loop := foldl_put_filled dest.length (fun i => base32Byte
    ((List.range (ceilDiv (src.length * 8) 5)).map fun i => base32Digit src (5 * i)) (8 * i))
    src.length room
  rw [bytes] at loop
  unfold base32DecodeTo
  dsimp only
  rw [count, if_pos ⟨bounded, room, small⟩, mapM_base32Text]
  dsimp only
  rw [loop]

theorem base32DecodeTo_decodes (bounded : src.length < sizeTCeiling / 5)
    (room : src.length * 5 / 8 ≤ dest.length) (small : dest.length < sizeTCeiling) :
    Decodes dest ((src.mapM base32Value).map fun tmp =>
      (List.range (src.length * 5 / 8)).map fun i => base32Byte tmp (8 * i))
      (base32DecodeTo dest src) := by
  have count : src.length * 5 / 8 * 8 / 8 = src.length * 5 / 8 := by omega
  unfold base32DecodeTo
  dsimp only
  rw [count, if_pos ⟨bounded, room, small⟩]
  cases src.mapM base32Value with
  | none => exact ⟨[], Nat.zero_le _, rfl⟩
  | some tmp =>
    have loop := foldl_put_filled dest.length (fun i => base32Byte tmp (8 * i)) _ room
    constructor
    · rw [List.length_map, List.length_range]
      exact room
    · rw [List.length_map, List.length_range]
      exact congrArg (fun dest => some (CodecCall.mk _ dest)) loop

/-! ## Base 64: the lines -/

/-- A writer that has written `text` and nothing else. -/
def writerFilled (size : Nat) (text : List UInt8) (linelen : Nat) : Writer :=
  ⟨filled size text, text.length, linelen⟩

theorem add_writerFilled {size : Nat} {text : List UInt8} (room : text.length < size)
    (linelen : Nat) (ch : UInt8) :
    (writerFilled size text linelen).add ch = writerFilled size (text ++ [ch]) linelen := by
  unfold Writer.add writerFilled
  rw [put_filled _ _ room, List.length_append, List.length_singleton]

/-- A text in lines of 64 characters, each with a line break, the first of which begins after
`linelen` characters. -/
def inLines : Nat → List UInt8 → List UInt8
  | linelen, [] => if linelen ≠ 0 then [newlineChar] else []
  | linelen, ch :: text =>
    if linelen + 1 = base64LineLen then ch :: newlineChar :: inLines 0 text
    else ch :: inLines (linelen + 1) text

theorem inLines_length (short : linelen < base64LineLen) :
    (inLines linelen text).length =
      text.length + ceilDiv (linelen + text.length) base64LineLen := by
  unfold ceilDiv
  induction text generalizing linelen with
  | nil =>
    unfold base64LineLen at *
    rw [inLines]
    split
    · rw [List.length_singleton, List.length_nil]
      omega
    · rw [List.length_nil]
      omega
  | cons ch text ih =>
    rw [inLines]
    split
    · next full =>
      rw [List.length_cons, List.length_cons, ih 0 (by decide), List.length_cons]
      unfold base64LineLen at *
      omega
    · next more =>
      rw [List.length_cons, ih (linelen + 1) (by omega), List.length_cons]
      unfold base64LineLen at *
      omega

theorem inLines_filter (plain : newlineChar ∉ text) :
    (inLines linelen text).filter (· ≠ newlineChar) = text := by
  induction text generalizing linelen with
  | nil =>
    rw [inLines]
    split <;> rfl
  | cons ch text ih =>
    rw [List.mem_cons, not_or] at plain
    have other : decide (ch ≠ newlineChar) = true := decide_eq_true (Ne.symm plain.1)
    have break_ : decide (newlineChar ≠ newlineChar) = false := rfl
    rw [inLines]
    split
    · simp only [List.filter_cons, other, break_, if_true, Bool.false_eq_true, if_false,
        ih 0 plain.2]
    · simp only [List.filter_cons, other, if_true, ih _ plain.2]

end

/-- What `base64_encode` writes for the characters `text`. -/
def encodedText (flags : Nat) (text : List UInt8) : List UInt8 :=
  if isMultiline flags then inLines 0 text else text

/-- The line break that ends the last line. -/
def endLine (flags : Nat) (w : Writer) : Writer :=
  if isMultiline flags ∧ w.linelen ≠ 0 then w.add newlineChar else w

/-- `ENCODE_CHAR` for each character of a text, and the line break that ends the last line. -/
theorem foldl_encodeChar_multiline (multiline : isMultiline flags = true)
    (text written : List UInt8) (linelen : Nat) (short : linelen < base64LineLen)
    (room : written.length + (inLines linelen text).length < size) :
    ∃ last, endLine flags (text.foldl (encodeChar flags) (writerFilled size written linelen)) =
      writerFilled size (written ++ inLines linelen text) last := by
  induction text generalizing written linelen with
  | nil =>
    refine ⟨linelen, ?_⟩
    rw [inLines] at room ⊢
    change (if isMultiline flags = true ∧ linelen ≠ 0 then _ else _) = _
    by_cases begun : linelen ≠ 0
    · rw [if_pos begun, List.length_singleton] at room
      rw [if_pos ⟨multiline, begun⟩, if_pos begun]
      exact add_writerFilled (by omega) _ _
    · rw [if_neg (fun both => begun both.2), if_neg begun, List.append_nil]
      rfl
  | cons ch text ih =>
    rw [inLines] at room ⊢
    have first : written.length < size := by omega
    rw [List.foldl_cons, encodeChar, add_writerFilled first]
    rw [if_pos multiline]
    have count : (writerFilled size (written ++ [ch]) linelen).linelen = linelen := rfl
    rw [count]
    by_cases full : linelen + 1 = base64LineLen
    · rw [if_pos full] at room ⊢
      simp only [List.length_cons] at room
      have ends : (linelen + 1) % base64LineLen = 0 := by rw [full, Nat.mod_self]
      have reset : ({ writerFilled size (written ++ [ch]) linelen with linelen := 0 } : Writer) =
          writerFilled size (written ++ [ch]) 0 := rfl
      rw [if_pos ends, reset, add_writerFilled (by
        rw [List.length_append, List.length_singleton]
        omega)]
      have rest := ih (written ++ [ch] ++ [newlineChar]) 0 (by decide) (by
        simp only [List.length_append, List.length_singleton]
        omega)
      rw [List.append_assoc, List.append_assoc] at rest
      rw [List.append_assoc]
      exact rest
    · rw [if_neg full] at room ⊢
      simp only [List.length_cons] at room
      have goesOn : (linelen + 1) % base64LineLen ≠ 0 := by
        unfold base64LineLen at *
        omega
      have grown : ({ writerFilled size (written ++ [ch]) linelen with linelen := linelen + 1 } :
          Writer) = writerFilled size (written ++ [ch]) (linelen + 1) := rfl
      rw [if_neg goesOn, grown]
      have rest := ih (written ++ [ch]) (linelen + 1) (by omega) (by
        rw [List.length_append, List.length_singleton]
        omega)
      rw [List.append_assoc] at rest
      exact rest

theorem foldl_encodeChar_plain (plain : isMultiline flags = false) (text written : List UInt8)
    (linelen : Nat) (room : written.length + text.length < size) :
    text.foldl (encodeChar flags) (writerFilled size written linelen) =
      writerFilled size (written ++ text) linelen := by
  induction text generalizing written with
  | nil => rw [List.append_nil, List.foldl_nil]
  | cons ch text ih =>
    rw [List.length_cons] at room
    have first : encodeChar flags (writerFilled size written linelen) ch =
        writerFilled size (written ++ [ch]) linelen := by
      rw [encodeChar, add_writerFilled (by omega)]
      rw [if_neg (by rw [plain]; decide)]
    rw [List.foldl_cons, first, ih (written ++ [ch]) (by
      rw [List.length_append, List.length_singleton]
      omega), List.append_assoc]
    rfl

/-! ## Base 64: encoding -/

theorem base64EncodeLoop_eq (w : Writer) :
    base64EncodeRest flags (base64EncodeLoop flags src 0 0 w) =
      some ((base64Encode src).foldl (encodeChar flags) w) := by
  induction src using triples_induction generalizing w with
  | none => rfl
  | one a | two a b =>
    simp [base64EncodeLoop, base64EncodeRest, base64Encode, encodeN, encodePad]
  | more a b c rest ih =>
    simp [base64EncodeLoop, base64Encode, encodeN, ih]

theorem base64Encode_length : (base64Encode src).length = base64Len src.length := by
  unfold base64Len ceilDiv
  induction src using triples_induction with
  | none => rfl
  | one a => simp [base64Encode]
  | two a b => simp [base64Encode]
  | more a b c rest ih =>
    simp only [base64Encode, List.length_cons, ih]
    omega

theorem encodedText_length (flags enclen : Nat)
    (size : base64EncodeSize src.length flags = some enclen) :
    (encodedText flags (base64Encode src)).length = enclen ∧ enclen < intMax := by
  have length : (encodedText flags (base64Encode src)).length =
      if isMultiline flags then base64Len src.length
        + ceilDiv (base64Len src.length) base64LineLen else base64Len src.length := by
    unfold encodedText
    split
    · rw [inLines_length 0 _ (by decide), base64Encode_length, Nat.zero_add]
    · exact base64Encode_length src
  unfold base64EncodeSize at size
  dsimp only at size
  rw [← length] at size
  split at size
  · split at size
    · next fits =>
      rw [Option.some.injEq] at size
      exact ⟨size, size ▸ fits.1⟩
    · cases size
  · cases size

theorem base64EncodeTo_eq (flags enclen : Nat)
    (size : base64EncodeSize src.length flags = some enclen) (room : enclen + 1 ≤ dest.length)
    (small : dest.length ≤ sizeTCeiling) :
    base64EncodeTo dest src flags = some ⟨enclen,
      filled dest.length (encodedText flags (base64Encode src))⟩ := by
  obtain ⟨length, short⟩ := encodedText_length src flags enclen size
  have all : ∃ last, endLine flags ((base64Encode src).foldl (encodeChar flags)
      (writerFilled dest.length [] 0)) =
        writerFilled dest.length (encodedText flags (base64Encode src)) last := by
    unfold encodedText at length ⊢
    cases multiline : isMultiline flags with
    | true =>
      rw [multiline, if_pos rfl] at length
      exact foldl_encodeChar_multiline flags dest.length multiline _ [] 0 (by decide)
        (by rw [length, List.length_nil]; omega)
    | false =>
      rw [multiline, if_neg (by decide)] at length
      refine ⟨0, ?_⟩
      rw [foldl_encodeChar_plain flags dest.length multiline _ [] 0
        (by rw [length, List.length_nil]; omega), endLine, if_neg (by simp [multiline])]
      rfl
  obtain ⟨last, all⟩ := all
  have nul := put_zero_filled dest.length
    (encodedText flags (base64Encode src)) (by omega)
  rw [base64EncodeTo, size]
  dsimp only
  rw [if_neg (by omega), base64EncodeLoop_eq]
  change (if (endLine flags _).d = enclen then some (CodecCall.mk enclen
    ((endLine flags _).add 0).dest) else none) = _
  change endLine flags (List.foldl (encodeChar flags) ⟨filled dest.length [], 0, 0⟩
    (base64Encode src)) = _ at all
  rw [all, if_pos (by exact length)]
  exact congrArg (fun dest => some (CodecCall.mk _ dest)) nul

/-! ## Base 64: the text without padding -/

section

variable (rest : List UInt8)

theorem base64EncodeN_stays :
    ((base64EncodeN n idx :: rest).filter fun c => c ≠ base64Pad ∧ c ≠ 10) =
      base64EncodeN n idx :: rest.filter fun c => c ≠ base64Pad ∧ c ≠ 10 := by
  rw [List.filter_cons, if_pos]
  exact decide_eq_true ⟨base64EncodeN_ne (by decide) n idx, base64EncodeN_ne (by decide) n idx⟩

theorem base64EncodeNopad_one : base64EncodeNopad [a] =
    [base64EncodeN (a.toNat * 16) 2, base64EncodeN (a.toNat * 16) 3] := by
  unfold base64EncodeNopad base64Encode
  rw [base64EncodeN_stays, base64EncodeN_stays]
  rfl

theorem base64EncodeNopad_two : base64EncodeNopad [a, b] =
    [1, 2, 3].map (base64EncodeN ((a.toNat * 256 + b.toNat) * 4)) := by
  unfold base64EncodeNopad base64Encode
  rw [base64EncodeN_stays, base64EncodeN_stays, base64EncodeN_stays]
  rfl

theorem base64EncodeNopad_three (c : UInt8) (rest : List UInt8) :
    base64EncodeNopad (a :: b :: c :: rest) =
      [0, 1, 2, 3].map (base64EncodeN ((a.toNat * 256 + b.toNat) * 256 + c.toNat))
        ++ base64EncodeNopad rest := by
  unfold base64EncodeNopad
  rw [base64Encode, base64EncodeN_stays, base64EncodeN_stays, base64EncodeN_stays,
    base64EncodeN_stays]
  rfl

theorem base64Encode_eq_nopad : base64Encode src =
    base64EncodeNopad src ++ List.replicate ((3 - src.length % 3) % 3) base64Pad := by
  induction src using triples_induction with
  | none => rfl
  | one a => rw [base64EncodeNopad_one]; rfl
  | two a b => rw [base64EncodeNopad_two]; rfl
  | more a b c rest ih =>
    have same : (a :: b :: c :: rest).length % 3 = rest.length % 3 := by
      simp only [List.length_cons]
      omega
    rw [base64EncodeNopad_three, same, List.append_assoc, ← ih]
    rfl

/-- The loop of `base64_encode_nopad` between `kept`, the characters that it has moved to the
front, and `text`, those it has not come to; `stale` is what is left behind. -/
theorem stripPadding_eq (text : List UInt8) (fuel : Nat) (kept stale rest : List UInt8)
    (enough : text.length < fuel) (plain : (0 : UInt8) ∉ text) :
    ∃ left, left.length = stale.length + (text.length
        - (text.filter fun c => c ≠ base64Pad ∧ c ≠ 10).length) + rest.length + 1
      ∧ stripPadding fuel (kept.length + stale.length) kept.length
          ⟨kept ++ (stale ++ (text ++ 0 :: rest)), false⟩ =
        ((kept ++ text.filter fun c => c ≠ base64Pad ∧ c ≠ 10).length,
          ⟨kept ++ (text.filter fun c => c ≠ base64Pad ∧ c ≠ 10) ++ left, false⟩) := by
  induction text generalizing fuel kept stale with
  | nil =>
    obtain ⟨fuel, rfl⟩ := Nat.exists_eq_add_of_lt enough
    refine ⟨stale ++ 0 :: rest, ?_, ?_⟩
    · simp
      omega
    · have here : (kept ++ (stale ++ ([] ++ 0 :: rest))).getD
          (kept.length + stale.length) 0 = 0 := by
        simp
      rw [stripPadding]
      rw [here, if_pos rfl]
      simp
  | cons ch text ih =>
    obtain ⟨fuel, rfl⟩ : ∃ n, fuel = n + 1 := ⟨fuel - 1, by omega⟩
    rw [List.length_cons] at enough
    rw [List.mem_cons, not_or] at plain
    have here : (kept ++ (stale ++ (ch :: text ++ 0 :: rest))).getD
        (kept.length + stale.length) 0 = ch := by
      rw [← List.append_assoc, List.getD_eq_getElem?_getD, List.getElem?_append_right (by simp)]
      simp
    have some_ : ch ≠ 0 := Ne.symm plain.1
    rw [stripPadding]
    rw [here, if_neg some_]
    by_cases goes : ch = base64Pad ∨ ch = newlineChar
    · have dropped : decide (ch ≠ base64Pad ∧ ch ≠ 10) = false := by
        apply decide_eq_false
        intro stays
        exact goes.elim stays.1 stays.2
      have onward := ih fuel kept (stale ++ [ch]) (by omega) plain.2
      have most := List.length_filter_le (fun c => decide (c ≠ base64Pad ∧ c ≠ 10)) text
      rw [List.length_append, List.length_singleton, ← Nat.add_assoc, List.append_assoc] at onward
      obtain ⟨left, length, ran⟩ := onward
      rw [if_pos goes, List.filter_cons, if_neg (by rw [dropped]; decide)]
      refine ⟨left, ?_, ran⟩
      rw [length, List.length_cons]
      omega
    · have stays : decide (ch ≠ base64Pad ∧ ch ≠ 10) = true := by
        apply decide_eq_true
        exact not_or.mp goes
      have moved : (⟨kept ++ (stale ++ (ch :: text ++ 0 :: rest)), false⟩ : Destination).put
          kept.length ch =
            ⟨kept ++ [ch] ++ ((stale ++ [ch]).tail ++ (text ++ 0 :: rest)), false⟩ := by
        have inside : kept.length < (kept ++ (stale ++ (ch :: text ++ 0 :: rest))).length := by
          simp only [List.length_append, List.length_cons]
          omega
        rw [put, if_pos inside]
        rw [List.set_append_right _ _ (Nat.le_refl _), Nat.sub_self, List.append_assoc kept]
        cases stale <;> simp
      have tail : (stale ++ [ch]).tail.length = stale.length := by simp
      have onward := ih fuel (kept ++ [ch]) (stale ++ [ch]).tail (by omega) plain.2
      rw [tail, List.length_append, List.length_singleton, Nat.add_right_comm kept.length,
        List.append_assoc kept, List.append_assoc kept] at onward
      rw [if_neg goes, List.filter_cons, if_pos stays, moved, List.length_cons, List.length_cons,
        Nat.add_sub_add_right, List.append_assoc kept]
      exact onward

/-- `base64_encode_nopad` leaves the characters that are not padding, and a NUL behind them. -/
theorem base64EncodeNopadTo_eq (enclen : Nat) (size : base64EncodeSize src.length 0 = some enclen)
    (room : enclen + 1 ≤ dest.length) (small : dest.length ≤ sizeTCeiling) :
    ∃ left, (base64EncodeNopad src ++ 0 :: left).length = dest.length
      ∧ base64EncodeNopadTo dest src =
        some ⟨(base64EncodeNopad src).length, base64EncodeNopad src ++ 0 :: left, false⟩ := by
  obtain ⟨length, short⟩ := encodedText_length src 0 enclen size
  change (base64Encode src).length = enclen at length
  have wrote := base64EncodeTo_eq dest src 0 enclen size room small
  change base64EncodeTo dest src 0 =
    some ⟨enclen, filled dest.length (base64Encode src)⟩ at wrote
  have zeros : dest.length - (base64Encode src).length =
      dest.length - (base64Encode src).length - 1 + 1 := by omega
  have behind : filled dest.length (base64Encode src) = ⟨base64Encode src ++ 0 ::
      List.replicate (dest.length - (base64Encode src).length - 1) 0, false⟩ := by
    rw [filled, zeros, List.replicate_succ]
    rfl
  have most : (base64EncodeNopad src).length ≤ (base64Encode src).length :=
    List.length_filter_le _ _
  rw [base64EncodeNopadTo, wrote]
  dsimp only
  by_cases empty : enclen = 0
  · have none_ : base64Encode src = [] := List.length_eq_zero_iff.mp (by omega)
    have noText : base64EncodeNopad src = [] := by
      rw [base64EncodeNopad, none_]
      rfl
    rw [if_pos (by omega), behind, none_, noText, empty]
    refine ⟨_, ?_, rfl⟩
    simp only [List.length_nil, List.nil_append, List.length_cons, List.length_replicate]
    omega
  · have nul : (filled dest.length (base64Encode src)).bytes.getD enclen 1 = 0 := by
      rw [behind, ← length, List.getD_eq_getElem?_getD, List.getElem?_append_right (Nat.le_refl _)]
      simp
    have stripped := stripPadding_eq (base64Encode src) dest.length [] []
      (List.replicate (dest.length - (base64Encode src).length - 1) 0) (by omega)
      (base64Encode_ne src (by decide) (by decide))
    rw [List.nil_append, List.nil_append, List.nil_append, ← behind] at stripped
    obtain ⟨left, size_, ran⟩ := stripped
    change stripPadding dest.length 0 0 _ = ((base64EncodeNopad src).length,
      ⟨base64EncodeNopad src ++ left, false⟩) at ran
    change left.length = 0 + ((base64Encode src).length - (base64EncodeNopad src).length)
      + (List.replicate _ _).length + 1 at size_
    rw [List.length_replicate] at size_
    obtain ⟨first, after, rfl⟩ := List.exists_cons_of_length_pos (by omega : 0 < left.length)
    rw [List.length_cons] at size_
    have inside : (base64EncodeNopad src).length <
        (base64EncodeNopad src ++ first :: after).length := by simp
    have written : (⟨base64EncodeNopad src ++ first :: after, false⟩ : Destination).put
        (base64EncodeNopad src).length 0 = ⟨base64EncodeNopad src ++ 0 :: after, false⟩ := by
      rw [put, if_pos inside]
      rw [List.set_append_right _ _ (Nat.le_refl _), Nat.sub_self, List.set_cons_zero]
    have positive : ¬ (enclen : Int) ≤ 0 := by omega
    rw [if_neg positive, Int.toNat_natCast, if_pos ⟨by omega, nul⟩, ran]
    rw [if_pos (by omega), written]
    refine ⟨after, ?_, rfl⟩
    rw [List.length_append, List.length_cons]
    omega

/-! ## Base 64: decoding -/

/-- What `base64_decode` makes of the bits left over. -/
def base64Finish (destlen : Nat) : Nat × Nat × List UInt8 → Option (List UInt8)
  | (n, nIdx, dest) =>
    if nIdx = 1 then none
    else if nIdx = 2 then
      if destlen < 1 ∨ destlen - 1 < dest.length then none
      else some (dest ++ [UInt8.ofNat (n / 16)])
    else if nIdx = 3 then
      if destlen < 2 ∨ destlen - 2 < dest.length then none
      else some (dest ++ [UInt8.ofNat (n / 1024), UInt8.ofNat (n / 4)])
    else some dest

theorem base64Decode_eq :
    base64Decode destlen src =
      (base64DecodeLoop destlen src 0 0 []).bind (base64Finish destlen) := by
  unfold base64Decode
  cases base64DecodeLoop destlen src 0 0 [] <;> rfl

theorem base64DecodeLoop_filter (n nIdx : Nat) (dest : List UInt8) :
    base64DecodeLoop destlen (src.filter (· ≠ newlineChar)) n nIdx dest =
      base64DecodeLoop destlen src n nIdx dest := by
  induction src generalizing n nIdx dest with
  | nil => rfl
  | cons c src ih =>
    rw [List.filter_cons]
    split
    · rw [base64DecodeLoop, base64DecodeLoop]
      simp only [ih]
    · next dropped =>
      have newline : c = newlineChar := by simpa using dropped
      have space : base64DecodeTable c = .space := by rw [newline]; decide
      rw [ih, base64DecodeLoop, space]

theorem base64DecodeLoop_pad (n nIdx : Nat) (dest : List UInt8) :
    base64DecodeLoop destlen (src ++ base64Pad :: rest) n nIdx dest =
      base64DecodeLoop destlen src n nIdx dest := by
  induction src generalizing n nIdx dest with
  | nil => rfl
  | cons c src ih =>
    rw [List.cons_append, base64DecodeLoop, base64DecodeLoop]
    simp only [ih]

end

theorem base64DecodeLoop_digit (m nIdx : Nat) (src dest : List UInt8) (open_ : nIdx + 1 ≠ 4) :
    base64DecodeLoop destlen (base64EncodeN n idx :: src) m nIdx dest =
      base64DecodeLoop destlen src (m * 64 + n / 2 ^ ((3 - idx) * 6) % 64) (nIdx + 1) dest := by
  rw [base64DecodeLoop, base64DecodeTable_encodeN]
  dsimp only
  rw [if_neg open_]

/-- The digit that completes a group. -/
theorem base64DecodeLoop_last (m : Nat) (src dest : List UInt8) (room : dest.length + 3 ≤ destlen) :
    base64DecodeLoop destlen (base64EncodeN n idx :: src) m 3 dest =
      base64DecodeLoop destlen src 0 0 (dest ++
        [UInt8.ofNat ((m * 64 + n / 2 ^ ((3 - idx) * 6) % 64) / 65536),
          UInt8.ofNat ((m * 64 + n / 2 ^ ((3 - idx) * 6) % 64) / 256 % 256),
          UInt8.ofNat ((m * 64 + n / 2 ^ ((3 - idx) * 6) % 64) % 256)]) := by
  rw [base64DecodeLoop, base64DecodeTable_encodeN]
  dsimp only
  rw [if_pos rfl, if_neg (by omega)]

theorem base64DecodeLoop_group (c : UInt8) (rest dest : List UInt8)
    (room : dest.length + 3 ≤ destlen) :
    base64DecodeLoop destlen ([0, 1, 2, 3].map (base64EncodeN
      ((a.toNat * 256 + b.toNat) * 256 + c.toNat)) ++ rest) 0 0 dest =
      base64DecodeLoop destlen rest 0 0 (dest ++ [a, b, c]) := by
  have ha := a.toNat_lt
  have hb := b.toNat_lt
  have hc := c.toNat_lt
  rw [List.map_cons, List.map_cons, List.map_cons, List.map_cons, List.map_nil]
  rw [List.cons_append, List.cons_append, List.cons_append, List.cons_append, List.nil_append]
  rw [base64DecodeLoop_digit _ _ _ _ _ _ _ (by decide),
    base64DecodeLoop_digit _ _ _ _ _ _ _ (by decide),
    base64DecodeLoop_digit _ _ _ _ _ _ _ (by decide), base64DecodeLoop_last _ _ _ _ _ _ room]
  congr
  · apply byte_eq_of_mod
    omega
  · apply byte_eq_of_mod
    omega
  · apply byte_eq_of_mod
    omega

/-- The text without padding is read as what was encoded. -/
theorem base64Finish_nopad (written : List UInt8) (room : written.length + src.length ≤ destlen) :
    (base64DecodeLoop destlen (base64EncodeNopad src) 0 0 written).bind (base64Finish destlen) =
      some (written ++ src) := by
  induction src using triples_induction generalizing written with
  | none => rw [List.append_nil]; rfl
  | one a =>
    have ha := a.toNat_lt
    rw [List.length_singleton] at room
    have fits : ¬ (destlen < 1 ∨ destlen - 1 < written.length) := by omega
    rw [base64EncodeNopad_one, base64DecodeLoop_digit _ _ _ _ _ _ _ (by decide),
      base64DecodeLoop_digit _ _ _ _ _ _ _ (by decide), base64DecodeLoop, Option.bind_some,
      base64Finish]
    rw [if_neg (by decide), if_pos rfl, if_neg fits]
    congr
    apply byte_eq_of_mod
    omega
  | two a b =>
    have ha := a.toNat_lt
    have hb := b.toNat_lt
    rw [List.length_cons, List.length_singleton] at room
    have fits : ¬ (destlen < 2 ∨ destlen - 2 < written.length) := by omega
    rw [base64EncodeNopad_two, List.map_cons, List.map_cons, List.map_cons, List.map_nil]
    rw [base64DecodeLoop_digit _ _ _ _ _ _ _ (by decide),
      base64DecodeLoop_digit _ _ _ _ _ _ _ (by decide),
      base64DecodeLoop_digit _ _ _ _ _ _ _ (by decide), base64DecodeLoop, Option.bind_some,
      base64Finish]
    rw [if_neg (by decide), if_neg (by decide), if_pos rfl, if_neg fits]
    congr
    · apply byte_eq_of_mod
      omega
    · apply byte_eq_of_mod
      omega
  | more a b c rest ih =>
    simp only [List.length_cons] at room
    have next : (written ++ [a, b, c]).length + rest.length ≤ destlen := by
      simp only [List.length_append, List.length_cons, List.length_nil]
      omega
    rw [base64EncodeNopad_three, base64DecodeLoop_group destlen a b c _ written (by omega),
      ih (written ++ [a, b, c]) next, List.append_assoc]
    rfl

section

variable (room : src.length ≤ destlen)

include room

theorem base64Decode_nopad : base64Decode destlen (base64EncodeNopad src) = some src := by
  rw [base64Decode_eq]
  exact base64Finish_nopad destlen src [] (by rw [List.length_nil]; omega)

theorem base64Decode_encodedText :
    base64Decode destlen (encodedText flags (base64Encode src)) = some src := by
  have plain : base64DecodeLoop destlen (encodedText flags (base64Encode src)) 0 0 [] =
      base64DecodeLoop destlen (base64Encode src) 0 0 [] := by
    unfold encodedText
    split
    · rw [← base64DecodeLoop_filter, inLines_filter 0 _ (base64Encode_ne_newline src)]
    · rfl
  have unpadded : base64DecodeLoop destlen (base64Encode src) 0 0 [] =
      base64DecodeLoop destlen (base64EncodeNopad src) 0 0 [] := by
    rw [base64Encode_eq_nopad]
    cases (3 - src.length % 3) % 3 with
    | zero => rw [List.replicate_zero, List.append_nil]
    | succ pads => rw [List.replicate_succ, base64DecodeLoop_pad]
  rw [base64Decode_eq, plain, unpadded, ← base64Decode_eq, base64Decode_nopad destlen src room]

end

/-- A reader that has written `dest` and nothing else. -/
def readerFilled (destlen n nIdx : Nat) (dest : List UInt8) : Base64Reader :=
  ⟨n, nIdx, dest.length, filled destlen dest⟩

theorem add_readerFilled {destlen : Nat} {dest : List UInt8} (room : dest.length < destlen)
    (n nIdx byte : Nat) : (readerFilled destlen n nIdx dest).add byte =
      readerFilled destlen n nIdx (dest ++ [UInt8.ofNat byte]) := by
  unfold Base64Reader.add readerFilled
  rw [put_filled _ _ room, List.length_append, List.length_singleton]

/-- The loop that fills the destination does what the loop on lists does. -/
theorem base64DecodeLoopTo_filled (n nIdx : Nat) (dest : List UInt8)
    (room : dest.length ≤ destlen) :
    (∃ n' nIdx' dest', base64DecodeLoop destlen src n nIdx dest = some (n', nIdx', dest')
      ∧ dest'.length ≤ destlen
      ∧ base64DecodeLoopTo destlen src (readerFilled destlen n nIdx dest) =
        .ok (readerFilled destlen n' nIdx' dest'))
    ∨ (base64DecodeLoop destlen src n nIdx dest = none ∧ ∃ left, left.length ≤ destlen
      ∧ base64DecodeLoopTo destlen src (readerFilled destlen n nIdx dest) =
        .error (filled destlen left)) := by
  induction src generalizing n nIdx dest with
  | nil =>
    left
    exact ⟨n, nIdx, dest, rfl, room, rfl⟩
  | cons c src ih =>
    rw [base64DecodeLoop, base64DecodeLoopTo]
    cases base64DecodeTable c with
    | invalid =>
      right
      exact ⟨rfl, dest, room, rfl⟩
    | space => exact ih n nIdx dest room
    | pad =>
      left
      exact ⟨n, nIdx, dest, rfl, room, rfl⟩
    | digit v =>
      have bits : (readerFilled destlen n nIdx dest).n = n := rfl
      have count : (readerFilled destlen n nIdx dest).nIdx = nIdx := rfl
      have place : (readerFilled destlen n nIdx dest).di = dest.length := rfl
      rw [bits, count, place]
      by_cases full : nIdx + 1 = 4
      · simp only [if_pos full]
        by_cases short : destlen < 3 ∨ destlen - 3 < dest.length
        · simp only [if_pos short]
          right
          exact ⟨trivial, dest, room, rfl⟩
        · have onward := ih 0 0 (dest ++ [UInt8.ofNat ((n * 64 + v) / 65536),
            UInt8.ofNat ((n * 64 + v) / 256 % 256), UInt8.ofNat ((n * 64 + v) % 256)])
            (by simp; omega)
          have second : (dest ++ [UInt8.ofNat ((n * 64 + v) / 65536)]).length < destlen := by
            simp
            omega
          have third : (dest ++ [UInt8.ofNat ((n * 64 + v) / 65536)]
              ++ [UInt8.ofNat ((n * 64 + v) / 256 % 256)]).length < destlen := by
            simp
            omega
          simp only [if_neg short]
          rw [add_readerFilled (by omega), add_readerFilled second, add_readerFilled third,
            List.append_assoc, List.append_assoc]
          exact onward
      · simp only [if_neg full]
        exact ih (n * 64 + v) (nIdx + 1) dest room

theorem base64DecodeRest_filled (nIdx : Nat) (dest : List UInt8) (room : dest.length ≤ destlen) :
    (∃ r bytes, base64Finish destlen (n, nIdx, dest) = some bytes ∧ bytes.length ≤ destlen
      ∧ base64DecodeRest destlen (readerFilled destlen n nIdx dest) = .ok r
      ∧ r.di = bytes.length ∧ r.dest = filled destlen bytes)
    ∨ (base64Finish destlen (n, nIdx, dest) = none
      ∧ base64DecodeRest destlen (readerFilled destlen n nIdx dest) =
        .error (filled destlen dest)) := by
  have bits : (readerFilled destlen n nIdx dest).n = n := rfl
  have count : (readerFilled destlen n nIdx dest).nIdx = nIdx := rfl
  have place : (readerFilled destlen n nIdx dest).di = dest.length := rfl
  unfold base64Finish base64DecodeRest
  rw [bits, count, place]
  by_cases one : nIdx = 1
  · simp only [if_pos one]
    right
    exact ⟨trivial, rfl⟩
  by_cases two : nIdx = 2
  · simp only [if_neg one, if_pos two]
    by_cases short : destlen < 1 ∨ destlen - 1 < dest.length
    · simp only [if_pos short]
      right
      exact ⟨trivial, rfl⟩
    · simp only [if_neg short]
      left
      rw [add_readerFilled (by omega)]
      exact ⟨_, _, rfl, by simp; omega, rfl, rfl, rfl⟩
  by_cases three : nIdx = 3
  · simp only [if_neg one, if_neg two, if_pos three]
    by_cases short : destlen < 2 ∨ destlen - 2 < dest.length
    · simp only [if_pos short]
      right
      exact ⟨trivial, rfl⟩
    · have second : (dest ++ [UInt8.ofNat (n / 1024)]).length < destlen := by
        simp
        omega
      simp only [if_neg short]
      left
      rw [add_readerFilled (by omega), add_readerFilled second, List.append_assoc]
      exact ⟨_, _, rfl, by simp; omega, rfl, rfl, rfl⟩
  · simp only [if_neg one, if_neg two, if_neg three]
    left
    exact ⟨_, dest, rfl, room, rfl, rfl, rfl⟩

theorem base64DecodeTo_decodes (small : dest.length ≤ intMax) :
    Decodes dest (base64Decode dest.length src) (base64DecodeTo dest src) := by
  rw [base64DecodeTo, if_neg (by omega), base64Decode_eq]
  rw [show (⟨0, 0, 0, _⟩ : Base64Reader) = readerFilled dest.length 0 0 [] from rfl]
  obtain ⟨n, nIdx, written, read, room, ran⟩ | ⟨unread, left, within, ran⟩ :=
    base64DecodeLoopTo_filled dest.length src 0 0 [] (Nat.zero_le _)
  · rw [read, ran, Option.bind_some]
    dsimp only [bind, Except.bind]
    obtain ⟨r, bytes, finished, fits, ended, count, filled⟩ | ⟨unfinished, ended⟩ :=
      base64DecodeRest_filled dest.length n nIdx written room
    · rw [finished, ended]
      dsimp only
      rw [count, filled, if_pos fits]
      exact ⟨fits, rfl⟩
    · rw [unfinished, ended]
      exact ⟨written, room, rfl⟩
  · rw [unread, ran]
    exact ⟨left, within, rfl⟩

/-! ## Alphabets -/

/-- Digits, and letters up to F in either case. -/
def Base16Char (c : UInt8) : Prop :=
  (48 ≤ c.toNat ∧ c.toNat ≤ 57) ∨ (65 ≤ c.toNat ∧ c.toNat ≤ 70) ∨ (97 ≤ c.toNat ∧ c.toNat ≤ 102)

/-- Letters in either case, and the digits from 2 to 7. -/
def Base32Char (c : UInt8) : Prop :=
  (65 ≤ c.toNat ∧ c.toNat ≤ 90) ∨ (97 ≤ c.toNat ∧ c.toNat ≤ 122) ∨ (50 ≤ c.toNat ∧ c.toNat ≤ 55)

/-- Letters, digits, `+`, `/`, the white space that may stand between them, and the padding. -/
def Base64Char (c : UInt8) : Prop :=
  (65 ≤ c.toNat ∧ c.toNat ≤ 90) ∨ (97 ≤ c.toNat ∧ c.toNat ≤ 122)
    ∨ (48 ≤ c.toNat ∧ c.toNat ≤ 57) ∨ c.toNat = 43 ∨ c.toNat = 47
    ∨ c.toNat = 9 ∨ c.toNat = 10 ∨ c.toNat = 11 ∨ c.toNat = 13 ∨ c.toNat = 32 ∨ c = base64Pad

theorem hexDecodeDigit_foreign (c : UInt8) (foreign : ¬ Base16Char c) : hexDecodeDigit c = none := by
  unfold Base16Char at foreign
  rw [hexDecodeDigit, if_neg (by omega), if_neg (by omega), if_neg (by omega)]

theorem base32Value_foreign (c : UInt8) (foreign : ¬ Base32Char c) : base32Value c = none := by
  unfold Base32Char at foreign
  rw [base32Value, if_neg (by omega), if_neg (by omega), if_neg (by omega)]

theorem eq_base64Pad (pad : c.toNat = 61) : c = base64Pad := UInt8.toNat_inj.mp pad

theorem base64DecodeTable_foreign (c : UInt8) (foreign : ¬ Base64Char c) :
    base64DecodeTable c = .invalid := by
  unfold Base64Char at foreign
  have pad : c.toNat ≠ 61 := fun pad => foreign (by simp [eq_base64Pad pad])
  unfold base64DecodeTable
  rw [if_neg (by omega), if_neg (by omega), if_neg (by omega), if_neg (by omega), if_neg pad,
    if_neg (by omega), if_neg (by omega)]

theorem base64DecodeTable_pad (read : base64DecodeTable c = .pad) : c = base64Pad := by
  unfold base64DecodeTable at read
  dsimp only at read
  split at read
  · cases read
  split at read
  · cases read
  split at read
  · cases read
  split at read
  · cases read
  split at read
  · next pad => exact eq_base64Pad pad
  split at read
  · cases read
  split at read <;> cases read

theorem base16Decode_foreign {src : List UInt8} (member : c ∈ src) (foreign : ¬ Base16Char c) :
    base16Decode src = none := by
  have unread := hexDecodeDigit_foreign c foreign
  induction src using pairs_induction with
  | none => cases member
  | one => rfl
  | more high low rest ih =>
    rw [base16Decode]
    simp only [List.mem_cons] at member
    obtain rfl | rfl | later := member
    · rw [unread]
      rfl
    · rw [unread]
      cases hexDecodeDigit high <;> rfl
    · rw [ih later]
      cases hexDecodeDigit high with
      | none => rfl
      | some v1 => cases hexDecodeDigit low <;> rfl

theorem mapM_base32Value_foreign {src : List UInt8} (member : c ∈ src) (foreign : ¬ Base32Char c) :
    src.mapM base32Value = none := by
  induction src with
  | nil => cases member
  | cons first src ih =>
    rw [List.mapM_cons]
    obtain rfl | later := List.mem_cons.mp member
    · rw [base32Value_foreign c foreign]
      rfl
    · rw [ih later]
      cases base32Value first <;> rfl

theorem base64DecodeLoop_foreign {destlen : Nat} {src : List UInt8}
    (member : c ∈ src.takeWhile (· ≠ base64Pad)) (foreign : ¬ Base64Char c) (n nIdx : Nat)
    (dest : List UInt8) : base64DecodeLoop destlen src n nIdx dest = none := by
  induction src generalizing n nIdx dest with
  | nil => cases member
  | cons first src ih =>
    rw [List.takeWhile_cons] at member
    split at member
    · next more =>
      have notPad : base64DecodeTable first ≠ .pad :=
        fun pad => of_decide_eq_true more (base64DecodeTable_pad pad)
      rw [base64DecodeLoop]
      obtain rfl | later := List.mem_cons.mp member
      · rw [base64DecodeTable_foreign c foreign]
      · cases read : base64DecodeTable first with
        | invalid => rfl
        | space => exact ih later n nIdx dest
        | pad => exact absurd read notPad
        | digit v =>
          dsimp only
          split
          · split
            · rfl
            · exact ih later _ _ _
          · exact ih later _ _ _
    · cases member

/-! ## The codecs -/

/-- The text and a NUL at the front of the destination, and nothing outside of it. -/
def Writes (dest text : List UInt8) (after : Destination) : Prop :=
  ∃ left, after = ⟨text ++ 0 :: left, false⟩ ∧ (text ++ 0 :: left).length = dest.length

/-- The text is decoded to `src`, into every destination of at most `limit` bytes that has room. -/
def ReadsBack (decode : List UInt8 → List UInt8 → Option CodecCall) (limit : Nat)
    (text src : List UInt8) : Prop :=
  ∀ out : List UInt8, src.length ≤ out.length → out.length ≤ limit →
    decode out text = some ⟨src.length, filled out.length src⟩

def Refuses (call : Option CodecCall) : Prop := ∃ left, call = some ⟨-1, left⟩

/-- Nothing is written outside of the destination. -/
def StaysInside (dest : List UInt8) (call : Option CodecCall) : Prop :=
  ∀ c ∈ call, c.dest.outside = false ∧ c.dest.bytes.length = dest.length

theorem writes_filled {dest text : List UInt8} (room : text.length < dest.length) :
    Writes dest text (filled dest.length text) := by
  have zeros : dest.length - text.length = dest.length - text.length - 1 + 1 := by omega
  refine ⟨List.replicate (dest.length - text.length - 1) 0, ?_, ?_⟩
  · unfold filled
    rw [zeros, List.replicate_succ]
    rfl
  · rw [List.length_append, List.length_cons, List.length_replicate]
    omega

/-- A decoder refuses the destination and leaves it as it is, or reads the text. -/
def Answers (dest : List UInt8) (bytes : Option (List UInt8)) (call : Option CodecCall) : Prop :=
  call = some ⟨-1, dest, false⟩ ∨ Decodes dest bytes call

theorem Answers.refuses {dest : List UInt8} (answers : Answers dest none call) : Refuses call := by
  obtain refused | ⟨left, -, refused⟩ := answers <;> exact ⟨_, refused⟩

theorem Answers.inside {dest : List UInt8} {bytes : Option (List UInt8)}
    (answers : Answers dest bytes call) : call.isSome ∧ StaysInside dest call := by
  have one (c : CodecCall) (outside : c.dest.outside = false)
      (length : c.dest.bytes.length = dest.length) :
      (some c).isSome ∧ StaysInside dest (some c) := by
    refine ⟨rfl, ?_⟩
    rintro c ⟨⟩
    exact ⟨outside, length⟩
  obtain rfl | decodes := answers
  · exact one _ rfl rfl
  cases bytes with
  | none =>
    obtain ⟨left, room, rfl⟩ := decodes
    exact one _ rfl (filled_length room)
  | some bytes =>
    obtain ⟨room, rfl⟩ := decodes
    exact one _ rfl (filled_length room)

theorem base16DecodeTo_answers : Answers dest (base16Decode src) (base16DecodeTo dest src) := by
  by_cases odd : src.length % 2 ≠ 0
  · rw [base16DecodeTo, if_pos odd]
    exact Or.inl rfl
  by_cases unfit : dest.length < src.length / 2 ∨ intMax < dest.length
  · rw [base16DecodeTo, if_neg odd, if_pos unfit]
    exact Or.inl rfl
  · exact Or.inr (base16DecodeTo_decodes dest src (by omega) (by omega) (by omega))

theorem base16DecodeTo_refuses (c : UInt8) (member : c ∈ src) (foreign : ¬ Base16Char c) :
    Refuses (base16DecodeTo dest src) := by
  have answers := base16DecodeTo_answers dest src
  rw [base16Decode_foreign member foreign] at answers
  exact answers.refuses

theorem base32DecodeTo_inside : StaysInside dest (base32DecodeTo dest src) := by
  by_cases taken : src.length < sizeTCeiling / 5 ∧ src.length * 5 / 8 ≤ dest.length
      ∧ dest.length < sizeTCeiling
  · exact (Answers.inside (.inr (base32DecodeTo_decodes dest src taken.1 taken.2.1 taken.2.2))).2
  · have count : src.length * 5 / 8 * 8 / 8 = src.length * 5 / 8 := by omega
    unfold base32DecodeTo
    dsimp only
    rw [count, if_neg taken]
    intro c returned
    cases returned

theorem base64DecodeTo_answers :
    Answers dest (base64Decode dest.length src) (base64DecodeTo dest src) := by
  by_cases large : intMax < dest.length
  · rw [base64DecodeTo, if_pos large]
    exact Or.inl rfl
  · exact Or.inr (base64DecodeTo_decodes dest src (by omega))

theorem base64DecodeTo_refuses (c : UInt8) (member : c ∈ src.takeWhile (· ≠ base64Pad))
    (foreign : ¬ Base64Char c) : Refuses (base64DecodeTo dest src) := by
  have answers := base64DecodeTo_answers dest src
  rw [base64Decode_eq, base64DecodeLoop_foreign member foreign] at answers
  exact answers.refuses

theorem base64DecodeTo_readsBack {text src : List UInt8}
    (read : ∀ destlen, src.length ≤ destlen → base64Decode destlen text = some src) :
    ReadsBack base64DecodeTo intMax text src := by
  intro out room small
  have decodes := base64DecodeTo_decodes out text small
  rw [read out.length room] at decodes
  exact decodes.2

theorem base16DecodeTo_readsBack : ReadsBack base16DecodeTo intMax (base16Encode src) src := by
  intro out room small
  have length := base16Encode_length src
  have decodes := base16DecodeTo_decodes out (base16Encode src) (by omega) (by omega) small
  rw [base16Decode_base16Encode] at decodes
  exact decodes.2

/-- Wherever the sizes pass the assertions of the encoders, the codecs round trip: each writes as
many characters as its size function predicts and reads them back. The decoders refuse foreign
characters, `base64_decode` up to the first `=`, and write only in their destinations. -/
theorem binascii_roundTrips :
    (∀ (dest src : List UInt8) (flags enclen : Nat),
      base64EncodeSize src.length flags = some enclen →
      enclen + 1 ≤ dest.length → dest.length ≤ sizeTCeiling →
      ∃ text after, base64EncodeTo dest src flags = some ⟨enclen, after⟩
        ∧ text.length = enclen ∧ Writes dest text after
        ∧ ReadsBack base64DecodeTo intMax text src)
    ∧ (∀ (dest src : List UInt8) (enclen : Nat), base64EncodeSize src.length 0 = some enclen →
      enclen + 1 ≤ dest.length → dest.length ≤ sizeTCeiling →
      ∃ text after, base64EncodeNopadTo dest src = some ⟨text.length, after⟩
        ∧ text.length = enclen - (3 - src.length % 3) % 3 ∧ Writes dest text after
        ∧ ReadsBack base64DecodeTo intMax text src)
    ∧ (∀ (dest src : List UInt8) (enclen : Nat), base32EncodedSize src.length = some enclen →
      enclen ≤ dest.length → dest.length < sizeTCeiling →
      ∃ text after, base32EncodeTo dest src = some after
        ∧ text.length + 1 = enclen ∧ Writes dest text after
        ∧ ReadsBack base32DecodeTo (sizeTCeiling - 1) text src)
    ∧ (∀ dest src : List UInt8, src.length < sizeTCeiling / 2 - 1 →
      base16Bufsize src.length ≤ dest.length → dest.length < sizeTCeiling →
      ∃ text after, base16EncodeTo dest src = some after
        ∧ text.length + 1 = base16Bufsize src.length ∧ Writes dest text after
        ∧ ReadsBack base16DecodeTo intMax text src)
    ∧ (∀ (dest src : List UInt8) (c : UInt8), c ∈ src.takeWhile (· ≠ base64Pad) →
      ¬ Base64Char c → Refuses (base64DecodeTo dest src))
    ∧ (∀ (dest src : List UInt8) (c : UInt8), c ∈ src → ¬ Base32Char c →
      src.length < sizeTCeiling / 5 → src.length * 5 / 8 ≤ dest.length →
      dest.length < sizeTCeiling → Refuses (base32DecodeTo dest src))
    ∧ (∀ (dest src : List UInt8) (c : UInt8), c ∈ src → ¬ Base16Char c →
      Refuses (base16DecodeTo dest src))
    ∧ ∀ dest src : List UInt8, StaysInside dest (base64DecodeTo dest src)
      ∧ StaysInside dest (base32DecodeTo dest src) ∧ StaysInside dest (base16DecodeTo dest src)
      ∧ (base64DecodeTo dest src).isSome ∧ (base16DecodeTo dest src).isSome := by
  refine ⟨?_, ?_, ?_, ?_, base64DecodeTo_refuses, ?_, base16DecodeTo_refuses, ?_⟩
  · intro dest src flags enclen size room small
    have length := (encodedText_length src flags enclen size).1
    exact ⟨_, _, base64EncodeTo_eq dest src flags enclen size room small, length,
      writes_filled (by omega),
      base64DecodeTo_readsBack fun destlen => base64Decode_encodedText destlen flags src⟩
  · intro dest src enclen size room small
    obtain ⟨left, whole, ran⟩ := base64EncodeNopadTo_eq dest src enclen size room small
    have length := (encodedText_length src 0 enclen size).1
    change (base64Encode src).length = enclen at length
    rw [base64Encode_eq_nopad, List.length_append, List.length_replicate] at length
    exact ⟨base64EncodeNopad src, _, ran, by omega, ⟨left, rfl, whole⟩,
      base64DecodeTo_readsBack fun destlen => base64Decode_nopad destlen src⟩
  · intro dest src enclen size room small
    have length := base32Text_length src
    have predicted := (base32EncodedSize_eq size).1
    refine ⟨_, _, base32EncodeTo_eq dest src enclen size room small, by omega,
      writes_filled (by omega), ?_⟩
    intro out fits bounded
    exact base32DecodeTo_base32Text out src enclen size fits (by
      have positive : 0 < sizeTCeiling := by decide
      omega)
  · intro dest src short room small
    have length := base16Encode_length src
    unfold base16Bufsize at room ⊢
    exact ⟨_, _, base16EncodeTo_eq dest src short room small, by omega,
      writes_filled (by omega), base16DecodeTo_readsBack src⟩
  · intro dest src c member foreign bounded room small
    have decodes := base32DecodeTo_decodes dest src bounded room small
    rw [mapM_base32Value_foreign member foreign] at decodes
    exact Answers.refuses (Or.inr decodes)
  · intro dest src
    have ⟨some64, inside64⟩ := (base64DecodeTo_answers dest src).inside
    have ⟨some16, inside16⟩ := (base16DecodeTo_answers dest src).inside
    exact ⟨inside64, base32DecodeTo_inside dest src, inside16, some64, some16⟩

theorem binascii_roundTrips_letter :
    ∃ text, text.length = 4 ∧ ReadsBack base64DecodeTo intMax text [77] := by
  obtain ⟨text, after, -, length, -, reads⟩ := binascii_roundTrips.1 (List.replicate 5 255) [77] 0 4
    (by decide) (by decide) (by decide)
  exact ⟨text, length, reads⟩

/-- What follows a `=` is not looked at, and a destination of 2³¹ bytes is refused. -/
theorem base64DecodeTo_unchecked :
    ¬ (∀ (dest src : List UInt8) (c : UInt8), c ∈ src → ¬ Base64Char c →
        Refuses (base64DecodeTo dest src))
      ∧ ¬ ∀ (src out : List UInt8), src.length ≤ out.length →
        base64DecodeTo out (base64Encode src) =
          some ⟨src.length, filled out.length src⟩ := by
  constructor
  · intro all
    obtain ⟨left, refused⟩ := all [255] [base64Pad, 33] 33 (by decide)
      (by simp [Base64Char, base64Pad])
    have accepted : base64DecodeTo [255] [base64Pad, 33] = some ⟨0, filled 1 []⟩ := by
      decide
    rw [accepted] at refused
    cases refused
  · intro all
    have large : (List.replicate (2 ^ 31) (0 : UInt8)).length = 2 ^ 31 := List.length_replicate
    have decoded := all [77] (List.replicate (2 ^ 31) 0) (by rw [large]; decide)
    rw [base64DecodeTo, if_pos (by rw [large]; decide)] at decoded
    have results := congrArg (fun call => (call.map CodecCall.result).getD 0) decoded
    exact absurd results (by decide)

end RendezMix.Guarantees.BinaryText
