import RendezMix.Guarantees.CreateCells

/-!
# What the parser of create cells reads

The parser looks for a policy behind the handshake, and only the handshake is known to lie in the
cell. The fixed lengths of the older create cells leave room for a policy; the length in a CREATE2
cell need not.
-/
namespace RendezMix.Guarantees
open Source Library.ByteStrings Library.MemoryReads Recording Pointer

/-! ## The policy behind a handshake -/

section

variable (p : Pointer) (offset : Nat)

theorem delayPolicyReading_result :
    (delayPolicyReading p offset).result =
      if bytesAt p.memory offset 16 = delayPolicyMagic.val then
        some (fit delayPolicySize (bytesAt p.memory (offset + 16) delayPolicySize))
      else none := by
  unfold delayPolicyReading
  rw [bind_result, read_result]
  split
  · rfl
  · rfl

theorem delayPolicyReading_within_iff (low high : Int) :
    (delayPolicyReading p offset).Within low high ↔
      low ≤ p.index + offset ∧ p.index + offset + 16 ≤ high ∧
        (bytesAt p.memory offset 16 = delayPolicyMagic.val →
          p.index + offset + 16 + delayPolicySize ≤ high) := by
  unfold delayPolicyReading
  rw [within_bind, read_result, read_within_iff]
  by_cases found : bytesAt p.memory offset 16 = delayPolicyMagic.val
  · rw [if_pos found, within_map, read_within_iff]
    simp only [found, forall_const, delayPolicySize]
    omega
  · rw [if_neg found]
    simp only [within_pure, found, false_imp_iff, and_true]
    omega

end

variable (cellType command : UInt8) (payload : CellPayload) (handshakeType handshakeLen : UInt16)
  (onionskin : Pointer) (memory : List UInt8)

theorem createCellInitReading_result :
    (createCellInitReading cellType handshakeType handshakeLen onionskin).result =
      createCellInit cellType handshakeType handshakeLen onionskin.memory := by
  unfold createCellInitReading createCellInit
  rw [bind_result, bind_result, pure_result, delayPolicyReading_result,
    read_result]
  by_cases found : bytesAt onionskin.memory handshakeLen.toNat 16 = delayPolicyMagic.val
  · simp [found]
  · simp [found]

theorem createCellInitReading_within_iff (high : Int) (start : 0 ≤ onionskin.index) :
    (createCellInitReading cellType handshakeType handshakeLen onionskin).Within 0 high ↔
      onionskin.index + handshakeLen.toNat + 16 ≤ high ∧
        (bytesAt onionskin.memory handshakeLen.toNat 16 = delayPolicyMagic.val →
          onionskin.index + handshakeLen.toNat + 16 + delayPolicySize ≤ high) := by
  unfold createCellInitReading
  rw [within_bind, within_bind, read_within_iff,
    delayPolicyReading_within_iff]
  simp only [within_pure, and_true]
  constructor
  · intro inside
    exact inside.2.2
  · intro room
    refine ⟨?_, ?_, room⟩ <;> omega

/-! ## The parser and its reads -/

theorem bytesAt_cellPointer (offset length : Nat) (room : offset + length ≤ cellPayloadSize) :
    bytesAt (cellPointer payload memory).memory offset length =
      bytesAt payload.val offset length := by
  rw [cellPointer, bytesAt, bytesAt, List.drop_append_of_le_length (by omega),
    List.take_append_of_le_length]
  rw [List.length_drop]
  omega

theorem advance_cellPointer (n : Nat) (room : n ≤ cellPayloadSize) :
    ((cellPointer payload memory).advance n).memory = payload.val.drop n ++ memory := by
  rw [advance_memory, cellPointer, List.drop_append_of_le_length (by omega)]

theorem parseCreate2PayloadReading_result :
    (parseCreate2PayloadReading (cellPointer payload memory)).result =
      parseCreate2Payload payload memory := by
  unfold parseCreate2PayloadReading parseCreate2Payload
  rw [bind_result, bind_result, read_result, read_result,
    bytesAt_cellPointer payload memory 0 2 (by decide),
    bytesAt_cellPointer payload memory 2 2 (by decide)]
  simp only
  split
  · rfl
  · split
    · rfl
    · rw [map_result, createCellInitReading_result,
        advance_cellPointer payload memory 4 (by decide)]

/-- The cell that `create_cell_parse` has before it checks it. -/
def readCreate (command : UInt8) (payload : CellPayload) (memory : List UInt8) :
    Result CreateCell :=
  if command = cellCreate then
    if bytesAt payload.val 0 16 = ntorCreateMagic.val then
      .ok (createCellInit cellCreate onionHandshakeTypeNtor (UInt16.ofNat ntorOnionskinLen)
        (payload.val.drop 16 ++ memory))
    else
      .ok (createCellInit cellCreate onionHandshakeTypeTap
        (UInt16.ofNat tapOnionskinChallengeLen) (payload.val ++ memory))
  else if command = cellCreateFast then
    .ok (createCellInit cellCreateFast onionHandshakeTypeFast (UInt16.ofNat createFastLen)
      (payload.val ++ memory))
  else if command = cellCreate2 then parseCreate2Payload payload memory
  else .error .rejected

theorem createCellParse_eq :
    createCellParse command payload memory = readCreate command payload memory >>= fun cell =>
      if CheckCreateCell cell false then .ok cell else .error .rejected := by
  unfold createCellParse readCreate
  split
  · split <;> rfl
  · split
    · rfl
    · split <;> rfl

theorem createCellParseReading_result :
    (createCellParseReading command payload memory).result =
      createCellParse command payload memory := by
  have read : (createCellReading command (cellPointer payload memory)).result =
      readCreate command payload memory := by
    unfold createCellReading readCreate
    split
    · rw [bind_result, read_result,
        bytesAt_cellPointer payload memory 0 16 (by decide)]
      split
      · rw [map_result, createCellInitReading_result,
          advance_cellPointer payload memory 16 (by decide)]
      · rw [map_result, createCellInitReading_result, cellPointer]
    · split
      · rw [map_result, createCellInitReading_result, cellPointer]
      · split
        · exact parseCreate2PayloadReading_result payload memory
        · rfl
  rw [createCellParse_eq, createCellParseReading, bind_result, pure_result, read]

/-! ## Reads inside the cell -/

/-- The handshake of a CREATE2 cell leaves room for the magic of a policy behind it, and for a
policy where the magic is there. -/
def PolicyFits (payload : CellPayload) : Prop :=
  let handshakeType := getUint16 (bytesAt payload.val 0 2)
  let handshakeLen := (getUint16 (bytesAt payload.val 2 2)).toNat
  handshakeType ≠ onionHandshakeTypeFast → handshakeLen ≤ cellPayloadSize - 4 →
    4 + handshakeLen + 16 ≤ cellPayloadSize ∧
      (bytesAt payload.val (4 + handshakeLen) 16 = delayPolicyMagic.val →
        4 + handshakeLen + 16 + delayPolicySize ≤ cellPayloadSize)

instance (payload : CellPayload) : Decidable (PolicyFits payload) :=
  inferInstanceAs (Decidable (_ → _ → _ ∧ (_ → _)))

theorem parseCreate2PayloadReading_within_iff :
    (parseCreate2PayloadReading (cellPointer payload memory)).Within 0 cellPayloadSize ↔
      PolicyFits payload := by
  have front : ∀ offset, offset + 2 ≤ 4 →
      ((cellPointer payload memory).read offset 2).Within 0 cellPayloadSize := by
    intro offset early
    rw [read_within_iff]
    simp only [cellPointer, cellPayloadSize]
    omega
  unfold parseCreate2PayloadReading PolicyFits
  rw [within_bind, and_iff_right (front 0 (by decide)), within_bind,
    and_iff_right (front 2 (by decide)), read_result, read_result,
    bytesAt_cellPointer payload memory 0 2 (by decide),
    bytesAt_cellPointer payload memory 2 2 (by decide)]
  generalize getUint16 (bytesAt payload.val 2 2) = handshakeLen
  simp only
  split
  · next long => simp [Nat.not_le.mpr long]
  · next short =>
    split
    · next isFast => simp [isFast]
    · next slow =>
      have window : bytesAt ((cellPointer payload memory).memory.drop 4) handshakeLen.toNat 16 =
          bytesAt (cellPointer payload memory).memory (4 + handshakeLen.toNat) 16 := by
        rw [bytesAt, bytesAt, List.drop_drop]
      have origin : (cellPointer payload memory).index = 0 := rfl
      rw [within_map, createCellInitReading_within_iff _ _ _ _ _ (Int.natCast_nonneg 4),
        advance_memory, advance_index, window, origin]
      simp only [ne_eq, slow, not_false_eq_true, Nat.not_lt.mp short, true_imp_iff]
      by_cases room : 4 + handshakeLen.toNat + 16 ≤ cellPayloadSize
      · rw [bytesAt_cellPointer payload memory _ _ room]
        apply and_congr
        · omega
        · apply imp_congr_right
          intro _
          omega
      · apply iff_of_false
        · intro inside
          omega
        · intro inside
          exact room inside.1

theorem createCellInitReading_within (start : 0 ≤ onionskin.index)
    (room : onionskin.index + handshakeLen.toNat + 16 + delayPolicySize ≤ cellPayloadSize) :
    (createCellInitReading cellType handshakeType handshakeLen onionskin).Within
      0 cellPayloadSize := by
  rw [createCellInitReading_within_iff _ _ _ _ _ start]
  refine ⟨?_, fun _ => room⟩
  omega

theorem createCellReading_within (older : command ≠ cellCreate2) :
    (createCellReading command (cellPointer payload memory)).Within 0 cellPayloadSize := by
  have origin : (cellPointer payload memory).index = 0 := rfl
  unfold createCellReading
  rw [if_neg older]
  split
  · rw [within_bind, read_within_iff, origin]
    refine ⟨by decide, ?_⟩
    split
    · rw [within_map]
      apply createCellInitReading_within
      · rw [advance_index, origin]
        decide
      · rw [advance_index, origin]
        decide
    · rw [within_map]
      apply createCellInitReading_within
      · rw [origin]
      · rw [origin]
        decide
  · split
    · rw [within_map]
      apply createCellInitReading_within
      · rw [origin]
      · rw [origin]
        decide
    · exact within_pure _ _ _

theorem createCellParse_handshakeLen (cell : CreateCell)
    (parsed : createCellParse command payload memory = .ok cell) :
    cell.handshakeLen.toNat ≤ onionskinSize := by
  rw [createCellParse_eq] at parsed
  obtain ⟨read, readEq, checked⟩ := (bind_eq_ok _ _ _).mp parsed
  have same : read = cell := by
    split at checked
    · cases checked
      rfl
    · cases checked
  subst same
  unfold readCreate at readEq
  split at readEq
  · split at readEq
    · cases readEq
      change (UInt16.ofNat ntorOnionskinLen).toNat ≤ onionskinSize
      decide
    · cases readEq
      change (UInt16.ofNat tapOnionskinChallengeLen).toNat ≤ onionskinSize
      decide
  · split at readEq
    · cases readEq
      change (UInt16.ofNat createFastLen).toNat ≤ onionskinSize
      decide
    · split at readEq
      · unfold parseCreate2Payload at readEq
        simp only at readEq
        split at readEq
        · cases readEq
        · next short =>
          split at readEq
          · cases readEq
          · cases readEq
            exact Nat.not_lt.mp short
      · cases readEq

/-- The parser of create cells reads the payload of the cell only, and accepts only handshakes that
fit in their field, if and only if what a CREATE2 cell says of its handshake leaves room for the
policy. -/
theorem createCellParseReading_within_iff (command : UInt8) (payload : CellPayload)
    (memory : List UInt8) :
    (createCellParseReading command payload memory).Within 0 cellPayloadSize ∧
        (∀ cell, (createCellParseReading command payload memory).result = .ok cell →
          cell.handshakeLen.toNat ≤ onionskinSize) ↔
      (command = cellCreate2 → PolicyFits payload) := by
  have accepted : ∀ cell, (createCellParseReading command payload memory).result = .ok cell →
      cell.handshakeLen.toNat ≤ onionskinSize := by
    intro cell parsed
    rw [createCellParseReading_result] at parsed
    exact createCellParse_handshakeLen command payload memory cell parsed
  rw [and_iff_left accepted]
  unfold createCellParseReading
  rw [within_bind, and_iff_left (within_pure _ _ _)]
  by_cases isCreate2 : command = cellCreate2
  · have reads : createCellReading command (cellPointer payload memory) =
        parseCreate2PayloadReading (cellPointer payload memory) := by
      rw [isCreate2]
      rfl
    rw [reads, parseCreate2PayloadReading_within_iff, imp_iff_right isCreate2]
  · exact iff_of_true (createCellReading_within command payload memory isCreate2)
      fun same => absurd same isCreate2

/-- An ntor-v3 handshake that fills the cell. -/
def fullCreate2Payload : CellPayload :=
  fit cellPayloadSize (be16 onionHandshakeTypeNtorV3 ++ be16 505 ++ List.replicate 505 7)

/-- The parser accepts that cell, after it has looked for a policy in the bytes behind it. -/
theorem createCellParseReading_full :
    (createCellParseReading cellCreate2 fullCreate2Payload (List.replicate 48 0)).result.toOption.isSome
        = true ∧
      ¬ (createCellParseReading cellCreate2 fullCreate2Payload (List.replicate 48 0)).Within
        0 cellPayloadSize := by
  constructor
  · decide +kernel
  · decide +kernel

end RendezMix.Guarantees
