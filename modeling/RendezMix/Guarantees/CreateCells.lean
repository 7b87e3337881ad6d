import RendezMix.Source.Onion

/-!
# Create cells over the wire

What `create_cell_format_impl` writes, `create_cell_parse` reads back. The
policy stands right behind the onionskin in both, and where there is none the
zeros that fill the cell are not taken for one.
-/
namespace RendezMix.Guarantees
open Source Library.ByteStrings

/-- The bytes that a policy adds to a cell. -/
def policyBytes (isSet : Bool) (policy : RawPolicy) : List UInt8 :=
  if isSet then delayPolicyMagic.val ++ policy.val else []

/-- The policy that is read back. -/
def policyRead (isSet : Bool) (policy : RawPolicy) : RawPolicy :=
  if isSet then policy else fit delayPolicySize []

theorem policyBytes_length (isSet : Bool) (policy : RawPolicy) :
    (policyBytes isSet policy).length = if isSet then 16 + delayPolicySize else 0 := by
  cases isSet with
  | false => rfl
  | true => simp [policyBytes, delayPolicyMagic.property, policy.property]

theorem zeros_ne_delayPolicyMagic : List.replicate 16 0 ≠ delayPolicyMagic.val := by decide

/-- `create_cell_init` on an onionskin, the policy if there is one, and zeros. -/
theorem createCellInit_formatted (cellType : UInt8) (handshakeType handshakeLen : UInt16)
    (onionskin : List UInt8) (size : onionskin.length = handshakeLen.toNat) (isSet : Bool)
    (policy : RawPolicy) (zeros : Nat) (room : isSet = false → 16 ≤ zeros) (rest : List UInt8) :
    createCellInit cellType handshakeType handshakeLen
        (onionskin ++ (policyBytes isSet policy ++ (List.replicate zeros 0 ++ rest))) =
      ⟨cellType, handshakeType, handshakeLen, fit onionskinSize onionskin, isSet,
        policyRead isSet policy⟩ := by
  have skin : ∀ tail, bytesAt (onionskin ++ tail) 0 handshakeLen.toNat = onionskin :=
    fun tail => bytesAt_of_append [] onionskin tail 0 _ rfl size
  cases isSet with
  | false =>
    have empty : bytesAt (onionskin ++ (List.replicate zeros 0 ++ rest)) handshakeLen.toNat 16 =
        List.replicate 16 0 := by
      apply bytesAt_zeros
      · omega
      · have enough := room rfl
        omega
    simp only [createCellInit, policyBytes, policyRead, Bool.false_eq_true, if_false,
      List.nil_append, skin, empty, if_neg zeros_ne_delayPolicyMagic,
      decide_eq_false zeros_ne_delayPolicyMagic]
  | true =>
    have magic : bytesAt (onionskin ++ (delayPolicyMagic.val ++ policy.val ++
        (List.replicate zeros 0 ++ rest))) handshakeLen.toNat 16 = delayPolicyMagic.val := by
      rw [List.append_assoc]
      exact bytesAt_of_append onionskin _ _ _ _ size delayPolicyMagic.property
    have body : bytesAt (onionskin ++ (delayPolicyMagic.val ++ policy.val ++
        (List.replicate zeros 0 ++ rest))) (handshakeLen.toNat + 16) delayPolicySize =
          policy.val := by
      rw [List.append_assoc, ← List.append_assoc onionskin]
      apply bytesAt_of_append
      · rw [List.length_append, size, delayPolicyMagic.property]
      · exact policy.property
    simp only [createCellInit, policyBytes, policyRead, if_true, skin, magic, body, fit_bytes,
      decide_true]

/-! ## The wire form -/

/-- The first `handshake_len` bytes of the onionskin. -/
def CreateCell.skin (cell : CreateCell) : List UInt8 :=
  bytesAt cell.onionskin.val 0 cell.handshakeLen.toNat

variable (cell : CreateCell) (unknownOk : Bool)

theorem skin_length (fits : cell.handshakeLen.toNat ≤ onionskinSize) :
    (CreateCell.skin cell).length = cell.handshakeLen.toNat := by
  apply bytesAt_length
  rw [cell.onionskin.property]
  omega

/-- What `create_cell_format_impl` writes in front of the onionskin. -/
def wireHeader (cell : CreateCell) : List UInt8 :=
  if cell.cellType = cellCreate2 then be16 cell.handshakeType ++ be16 cell.handshakeLen
  else if cell.cellType = cellCreate ∧ cell.handshakeType = onionHandshakeTypeNtor then
    ntorCreateMagic.val
  else []

/-- The bytes that a create cell takes in its payload. -/
def wireLength (cell : CreateCell) : Nat :=
  (wireHeader cell).length + cell.handshakeLen.toNat +
    if cell.delayPolicyIsSet then 16 + delayPolicySize else 0

def wirePayload (cell : CreateCell) : CellPayload :=
  fit cellPayloadSize (wireHeader cell ++ CreateCell.skin cell ++
    policyBytes cell.delayPolicyIsSet cell.delayPolicy)

section

variable (ok : CheckCreateCell cell unknownOk)

include ok

theorem checkCreateCell_type :
    cell.cellType = cellCreate ∨ cell.cellType = cellCreateFast ∨ cell.cellType = cellCreate2 := by
  have types := ok.1
  split at types
  · exact Or.inl ‹_›
  · split at types
    · exact Or.inr (Or.inl ‹_›)
    · exact Or.inr (Or.inr types)

theorem checkCreateCell_create (isCreate : cell.cellType = cellCreate) :
    (cell.handshakeType = onionHandshakeTypeTap ∧
        cell.handshakeLen.toNat = tapOnionskinChallengeLen) ∨
      (cell.handshakeType = onionHandshakeTypeNtor ∧
        cell.handshakeLen.toNat = ntorOnionskinLen) := by
  obtain ⟨types, lengths⟩ := ok
  rw [if_pos isCreate] at types
  rcases types with tap | ntor
  · rw [if_pos tap] at lengths
    exact Or.inl ⟨tap, lengths⟩
  · rw [if_neg (by rw [ntor]; decide), if_neg (by rw [ntor]; decide), if_pos ntor] at lengths
    exact Or.inr ⟨ntor, lengths⟩

theorem checkCreateCell_createFast (isFast : cell.cellType = cellCreateFast) :
    cell.handshakeType = onionHandshakeTypeFast ∧ cell.handshakeLen.toNat = createFastLen := by
  obtain ⟨types, lengths⟩ := ok
  rw [if_neg (by rw [isFast]; decide), if_pos isFast] at types
  rw [if_neg (by rw [types]; decide), if_pos types] at lengths
  exact ⟨types, lengths⟩

end

theorem wireHeader_create2 (isCreate2 : cell.cellType = cellCreate2) :
    wireHeader cell = be16 cell.handshakeType ++ be16 cell.handshakeLen := if_pos isCreate2

theorem wireHeader_ntor (isCreate : cell.cellType = cellCreate)
    (isNtor : cell.handshakeType = onionHandshakeTypeNtor) :
    wireHeader cell = ntorCreateMagic.val := by
  rw [wireHeader, if_neg (by rw [isCreate]; decide), if_pos ⟨isCreate, isNtor⟩]

theorem wireHeader_plain (isOld : cell.cellType ≠ cellCreate2)
    (plain : ¬ (cell.cellType = cellCreate ∧ cell.handshakeType = onionHandshakeTypeNtor)) :
    wireHeader cell = [] := by
  rw [wireHeader, if_neg isOld, if_neg plain]

theorem wireHeader_length_le : (wireHeader cell).length ≤ 16 := by
  unfold wireHeader
  split
  · simp
  · split
    · exact ntorCreateMagic.property.le
    · exact Nat.zero_le 16

/-- None of the assertions before the policy fails. -/
theorem createCellBody_ok (ok : CheckCreateCell cell unknownOk)
    (fits : cell.handshakeLen.toNat ≤ onionskinSize) :
    createCellBody cell = .ok (wireHeader cell ++ CreateCell.skin cell) := by
  rcases checkCreateCell_type cell unknownOk ok with isCreate | isFast | isCreate2
  · rcases checkCreateCell_create cell unknownOk ok isCreate with ⟨tap, length⟩ | ⟨ntor, length⟩
    · have header : wireHeader cell = [] :=
        wireHeader_plain cell (by rw [isCreate]; decide)
          (fun ntor => absurd (tap.symm.trans ntor.2) (by decide))
      have room : cell.handshakeLen.toNat ≤ cellPayloadSize := by rw [length]; decide
      simp [createCellBody, isCreate, tap, header, CreateCell.skin, torAssert, room,
        show onionHandshakeTypeTap ≠ onionHandshakeTypeNtorV3 by decide,
        show onionHandshakeTypeTap ≠ onionHandshakeTypeNtor by decide, bind, Except.bind]
    · have header := wireHeader_ntor cell isCreate ntor
      have room : cell.handshakeLen.toNat ≤ cellPayloadSize - 16 := by rw [length]; decide
      simp [createCellBody, isCreate, ntor, header, CreateCell.skin, torAssert, room,
        ntorCreateMagic.property, show onionHandshakeTypeNtor ≠ onionHandshakeTypeNtorV3 by decide, bind, Except.bind]
  · obtain ⟨fast, length⟩ := checkCreateCell_createFast cell unknownOk ok isFast
    have header : wireHeader cell = [] :=
      wireHeader_plain cell (by rw [isFast]; decide)
        (fun create => absurd (isFast.symm.trans create.1) (by decide))
    have room : cell.handshakeLen.toNat ≤ cellPayloadSize := by rw [length]; decide
    simp [createCellBody, isFast, header, CreateCell.skin, torAssert, room,
      show cellCreateFast ≠ cellCreate by decide, bind, Except.bind]
  · have header := wireHeader_create2 cell isCreate2
    have room : cell.handshakeLen.toNat ≤ cellPayloadSize - 4 := fits
    simp [createCellBody, isCreate2, header, CreateCell.skin, torAssert, room,
      show cellCreate2 ≠ cellCreate by decide, show cellCreate2 ≠ cellCreateFast by decide, bind, Except.bind]

theorem wireBody_length (fits : cell.handshakeLen.toNat ≤ onionskinSize) :
    (wireHeader cell ++ CreateCell.skin cell).length =
      (wireHeader cell).length + cell.handshakeLen.toNat := by
  rw [List.length_append, skin_length cell fits]

theorem createCellFormatImpl_eq (relayed : Bool) (ok : CheckCreateCell cell relayed)
    (fits : cell.handshakeLen.toNat ≤ onionskinSize) :
    createCellFormatImpl cell relayed =
      if cell.delayPolicyIsSet = true ∧ cellPayloadSize < wireLength cell then .error .assertion
      else .ok (cell.cellType, wirePayload cell) := by
  have body := createCellBody_ok cell relayed ok fits
  have length := wireBody_length cell fits
  unfold createCellFormatImpl
  rw [if_neg (not_not.mpr ok), body]
  cases isSet : cell.delayPolicyIsSet with
  | false =>
    simp only [wirePayload, policyBytes, isSet, bind, Except.bind, Bool.false_eq_true, if_false,
      false_and, List.append_nil]
  | true =>
    simp only [wirePayload, policyBytes, wireLength, isSet, bind, Except.bind, if_true, true_and,
      torAssert, length]
    by_cases room : 16 + delayPolicySize ≤
        cellPayloadSize - ((wireHeader cell).length + cell.handshakeLen.toNat)
    · rw [if_pos room, if_neg (by simp only [delayPolicySize, cellPayloadSize] at room ⊢; omega)]
      simp only [List.append_assoc]
    · rw [if_neg room, if_pos (by simp only [delayPolicySize, cellPayloadSize] at room ⊢; omega)]

/-! ## Reading back -/

/-- A cell as the other side sees it. -/
def readBack (cell : CreateCell) : CreateCell :=
  { cell with
    onionskin := fit onionskinSize (CreateCell.skin cell)
    delayPolicy := policyRead cell.delayPolicyIsSet cell.delayPolicy }

theorem readBack_skin (fits : cell.handshakeLen.toNat ≤ onionskinSize) :
    CreateCell.skin (readBack cell) = CreateCell.skin cell := by
  have size := skin_length cell fits
  have whole := fit_take onionskinSize (CreateCell.skin cell) (size.trans_le fits)
  rw [size, ← bytesAt_zero] at whole
  exact whole

/-- There is room for the policy, or for the zeros that show that there is none. -/
def Roomy (cell : CreateCell) : Prop :=
  (wireHeader cell).length + cell.handshakeLen.toNat +
    (if cell.delayPolicyIsSet then 16 + delayPolicySize else 16) ≤ cellPayloadSize

instance (cell : CreateCell) : Decidable (Roomy cell) := inferInstanceAs (Decidable (_ ≤ _))

theorem Roomy.fits {cell : CreateCell} (roomy : Roomy cell) :
    cell.handshakeLen.toNat ≤ onionskinSize := by
  unfold Roomy at roomy
  simp only [cellPayloadSize, onionskinSize, delayPolicySize] at roomy ⊢
  split at roomy <;> omega

theorem Roomy.formats {cell : CreateCell} (roomy : Roomy cell) (relayed : Bool)
    (ok : CheckCreateCell cell relayed) :
    createCellFormatImpl cell relayed = .ok (cell.cellType, wirePayload cell) := by
  rw [createCellFormatImpl_eq cell relayed ok roomy.fits]
  apply if_neg
  rintro ⟨isSet, beyond⟩
  unfold Roomy at roomy
  simp only [isSet, if_true, wireLength] at roomy beyond
  omega

section

variable (roomy : Roomy cell) (memory : List UInt8)

include roomy

theorem wirePayload_memory :
    ∃ zeros, (cell.delayPolicyIsSet = false → 16 ≤ zeros) ∧
      (wirePayload cell).val ++ memory = wireHeader cell ++ (CreateCell.skin cell ++
        (policyBytes cell.delayPolicyIsSet cell.delayPolicy ++
          (List.replicate zeros 0 ++ memory))) := by
  have length : (wireHeader cell ++ CreateCell.skin cell ++
      policyBytes cell.delayPolicyIsSet cell.delayPolicy).length = wireLength cell := by
    rw [List.length_append, wireBody_length cell roomy.fits, policyBytes_length, wireLength]
  unfold Roomy at roomy
  have within : wireLength cell ≤ cellPayloadSize := by
    cases isSet : cell.delayPolicyIsSet <;>
      simp only [wireLength, isSet, if_true, Bool.false_eq_true, if_false] at roomy ⊢ <;> omega
  refine ⟨cellPayloadSize - wireLength cell, fun isSet => ?_, ?_⟩
  · simp only [isSet, Bool.false_eq_true, if_false] at roomy
    simp only [wireLength, isSet, Bool.false_eq_true, if_false]
    omega
  · rw [wirePayload, fit_val _ _ (length ▸ within), length]
    simp only [List.append_assoc]

theorem createCellInit_wire :
    createCellInit cell.cellType cell.handshakeType cell.handshakeLen
        ((wirePayload cell).val.drop (wireHeader cell).length ++ memory) = readBack cell := by
  obtain ⟨zeros, room, bytes⟩ := wirePayload_memory cell roomy memory
  have header : (wireHeader cell).length ≤ (wirePayload cell).val.length := by
    rw [(wirePayload cell).property]
    unfold Roomy at roomy
    omega
  have skin : (wirePayload cell).val.drop (wireHeader cell).length ++ memory =
      CreateCell.skin cell ++ (policyBytes cell.delayPolicyIsSet cell.delayPolicy ++
        (List.replicate zeros 0 ++ memory)) := by
    rw [← List.drop_append_of_le_length header, bytes, List.drop_left]
  rw [skin]
  exact createCellInit_formatted _ _ _ _ (skin_length cell roomy.fits) _ _ zeros room memory

end

theorem parseCreate2Payload_wire (isCreate2 : cell.cellType = cellCreate2) (roomy : Roomy cell)
    (memory : List UInt8) :
    parseCreate2Payload (wirePayload cell) memory =
      if cell.handshakeType = onionHandshakeTypeFast then .error .rejected
      else .ok (readBack cell) := by
  have reads := createCellInit_wire cell roomy memory
  obtain ⟨zeros, room, bytes⟩ := wirePayload_memory cell roomy []
  have header := wireHeader_create2 cell isCreate2
  rw [List.append_nil, header, List.append_assoc] at bytes
  have type : getUint16 (bytesAt (wirePayload cell).val 0 2) = cell.handshakeType := by
    rw [bytes]
    exact (congrArg getUint16 (bytesAt_of_append [] _ _ 0 2 rfl (be16_length _))).trans
      (getUint16_be16 _)
  have length : getUint16 (bytesAt (wirePayload cell).val 2 2) = cell.handshakeLen := by
    rw [bytes]
    exact (congrArg getUint16 (bytesAt_of_append (be16 cell.handshakeType) _ _ 2 2
      (be16_length _) (be16_length _))).trans (getUint16_be16 _)
  have fits : ¬ cell.handshakeLen.toNat > cellPayloadSize - 4 := Nat.not_lt.mpr roomy.fits
  rw [header, isCreate2] at reads
  simp only [List.length_append, be16_length] at reads
  unfold parseCreate2Payload
  simp only [type, length]
  rw [if_neg fits, reads]

/-- `create_cell_parse` reads a formatted cell back, whatever follows it in memory. A
TAP onionskin that begins with the ntor magic would be taken for an ntor one. -/
theorem createCellParse_wire (ok : CheckCreateCell cell false) (roomy : Roomy cell)
    (notFast : cell.cellType = cellCreate2 → cell.handshakeType ≠ onionHandshakeTypeFast)
    (noMagic : cell.cellType = cellCreate → cell.handshakeType = onionHandshakeTypeTap →
      bytesAt cell.onionskin.val 0 16 ≠ ntorCreateMagic.val) (memory : List UInt8) :
    createCellParse cell.cellType (wirePayload cell) memory = .ok (readBack cell) := by
  have reads := createCellInit_wire cell roomy memory
  obtain ⟨zeros, room, bytes⟩ := wirePayload_memory cell roomy []
  rw [List.append_nil] at bytes
  have checked : CheckCreateCell (readBack cell) false := ok
  have lengthEq : ∀ n, cell.handshakeLen.toNat = n → UInt16.ofNat n = cell.handshakeLen := by
    intro n length
    rw [← length]
    exact UInt16.ofNat_toNat
  unfold createCellParse
  rcases checkCreateCell_type cell false ok with isCreate | isFast | isCreate2
  · rcases checkCreateCell_create cell false ok isCreate with ⟨tap, length⟩ | ⟨ntor, length⟩
    · have header : wireHeader cell = [] :=
        wireHeader_plain cell (by rw [isCreate]; decide)
          (fun ntor => absurd (tap.symm.trans ntor.2) (by decide))
      have front : bytesAt (wirePayload cell).val 0 16 ≠ ntorCreateMagic.val := by
        have size := skin_length cell roomy.fits
        rw [bytes, header, List.nil_append, bytesAt_zero,
          List.take_append_of_le_length (by rw [size, length]; decide), CreateCell.skin,
          bytesAt_zero, List.take_take, length, ← bytesAt_zero]
        exact noMagic isCreate tap
      rw [header, List.length_nil, List.drop_zero, isCreate, tap] at reads
      rw [if_pos isCreate, if_neg front, lengthEq _ length, reads]
      exact if_pos checked
    · have header := wireHeader_ntor cell isCreate ntor
      have front : bytesAt (wirePayload cell).val 0 16 = ntorCreateMagic.val := by
        rw [bytes, header]
        exact bytesAt_of_append [] _ _ 0 16 rfl ntorCreateMagic.property
      rw [header, ntorCreateMagic.property, isCreate, ntor] at reads
      rw [if_pos isCreate, if_pos front, lengthEq _ length, reads]
      exact if_pos checked
  · obtain ⟨fast, length⟩ := checkCreateCell_createFast cell false ok isFast
    have header : wireHeader cell = [] :=
      wireHeader_plain cell (by rw [isFast]; decide)
        (fun create => absurd (isFast.symm.trans create.1) (by decide))
    rw [header, List.length_nil, List.drop_zero, isFast, fast] at reads
    rw [if_neg (by rw [isFast]; decide), if_pos isFast, lengthEq _ length, reads]
    exact if_pos checked
  · rw [if_neg (by rw [isCreate2]; decide), if_neg (by rw [isCreate2]; decide),
      if_pos isCreate2, parseCreate2Payload_wire cell isCreate2 roomy memory,
      if_neg (notFast isCreate2)]
    exact if_pos checked

end RendezMix.Guarantees
