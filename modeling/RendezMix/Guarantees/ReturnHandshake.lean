import RendezMix.Source.Onion

/-!
# The way of an answer back to the client

The hop that answers a handshake formats a created cell, the previous hop parses
it and wraps it in an extended cell, and the client parses that. The marker that
the policy was accepted stands behind the reply, where it does not always fit
and where a fixed-size reply does not leave it.
-/
namespace RendezMix.Guarantees
open Source Library.ByteStrings RelayPayload

/-! ## The marker behind a reply -/

/-- The bytes that say that the policy was accepted. -/
def responseBytes (isSet : Bool) : List UInt8 :=
  if isSet then delayPolicyResponseMagic.val else []

theorem responseBytes_length (isSet : Bool) :
    (responseBytes isSet).length = if isSet then 16 else 0 := by
  cases isSet with
  | false => rfl
  | true => exact delayPolicyResponseMagic.property

theorem response_ne_of_head (bytes : List UInt8) (zero : bytes.head? = some 0) :
    bytes ≠ delayPolicyResponseMagic.val := by
  rintro rfl
  exact absurd zero (by decide)

theorem response_found (front rest : List UInt8) (isSet : Bool) (offset : Nat)
    (start : front.length = offset) (zero : isSet = false → rest.head? = some 0) :
    bytesAt (front ++ (responseBytes isSet ++ rest)) offset 16 = delayPolicyResponseMagic.val ↔
      isSet = true := by
  cases isSet with
  | true =>
    constructor
    · intro _
      rfl
    · intro _
      exact bytesAt_of_append front _ rest offset 16 start delayPolicyResponseMagic.property
  | false =>
    constructor
    · intro found
      apply absurd found
      apply response_ne_of_head
      rw [bytesAt, responseBytes, if_neg (by decide), List.nil_append, List.drop_left' start,
        List.head?_take, if_neg (by decide)]
      exact zero rfl
    · intro set
      cases set

variable (n : Nat) (cell : CreatedCell)

section

variable (rest : List UInt8)

theorem fit_response (front rest : List UInt8) (isSet : Bool) (room : front.length + 16 ≤ n)
    (zero : rest.headD 0 = 0) :
    ∃ tail, (fit n (front ++ responseBytes isSet ++ rest)).val =
        front ++ (responseBytes isSet ++ tail) ∧
      (isSet = false → tail.head? = some 0) := by
  have length := responseBytes_length isSet
  refine ⟨(fit (n - (front ++ responseBytes isSet).length) rest).val, ?_, ?_⟩
  · rw [fit_append, List.append_assoc]
    rw [List.length_append, length]
    split <;> omega
  · intro notSet
    apply fit_head _ _ _ zero
    rw [List.length_append, length, notSet, if_neg (by decide)]
    omega

/-! ## Answers of any length -/

/-- The first `handshake_len` bytes of the reply. -/
def CreatedCell.answer (cell : CreatedCell) : List UInt8 :=
  bytesAt cell.reply.val 0 cell.handshakeLen.toNat

theorem answer_length (fits : cell.handshakeLen.toNat ≤ replySize) :
    (CreatedCell.answer cell).length = cell.handshakeLen.toNat := by
  apply bytesAt_length
  rw [cell.reply.property]
  omega

/-- The length field and the reply of a CREATED2 or an EXTENDED2 cell. -/
def created2Body (cell : CreatedCell) : List UInt8 :=
  be16 cell.handshakeLen ++ CreatedCell.answer cell

theorem created2Body_length (fits : cell.handshakeLen.toNat ≤ replySize) :
    (created2Body cell).length = 2 + cell.handshakeLen.toNat := by
  rw [created2Body, List.length_append, be16_length, answer_length cell fits]

/-- A cell as the next one to parse it sees it. -/
def answerBack (cell : CreatedCell) : CreatedCell :=
  { cell with reply := fit replySize (CreatedCell.answer cell) }

@[simp] theorem answerBack_handshakeLen :
    (answerBack cell).handshakeLen = cell.handshakeLen := rfl

@[simp] theorem answerBack_delayPolicyIsSet :
    (answerBack cell).delayPolicyIsSet = cell.delayPolicyIsSet := rfl

theorem answerBack_answer (fits : cell.handshakeLen.toNat ≤ replySize) :
    CreatedCell.answer (answerBack cell) = CreatedCell.answer cell := by
  have size := answer_length cell fits
  have whole := fit_take replySize (CreatedCell.answer cell) (size.trans_le fits)
  rw [size, ← bytesAt_zero] at whole
  exact whole

/-- What a reader of a buffer with such a body finds. -/
structure HoldsAnswer (memory : List UInt8) (cell : CreatedCell) : Prop where
  length : getUint16 (bytesAt memory 0 2) = cell.handshakeLen
  answer : bytesAt memory 2 cell.handshakeLen.toNat = CreatedCell.answer cell
  isSet : bytesAt memory (2 + cell.handshakeLen.toNat) 16 = delayPolicyResponseMagic.val ↔
    cell.delayPolicyIsSet = true

theorem fit_created2_length (room : 2 ≤ n) :
    getUint16 (bytesAt (fit n (created2Body cell ++ rest)).val 0 2) = cell.handshakeLen := by
  rw [created2Body, List.append_assoc, fit_append _ _ _ (by rw [be16_length]; exact room),
    bytesAt_zero, List.take_left' (be16_length _)]
  exact getUint16_be16 _

theorem fit_created2 (fits : cell.handshakeLen.toNat ≤ replySize)
    (room : 2 + cell.handshakeLen.toNat + 16 ≤ n) (zero : rest.headD 0 = 0) :
    HoldsAnswer (fit n (created2Body cell ++ responseBytes cell.delayPolicyIsSet ++ rest)).val
      cell := by
  have size := created2Body_length cell fits
  obtain ⟨tail, bytes, noMarker⟩ := fit_response n (created2Body cell) rest cell.delayPolicyIsSet
    (by rw [size]; exact room) zero
  constructor
  · rw [List.append_assoc]
    apply fit_created2_length
    omega
  · rw [bytes, created2Body, List.append_assoc]
    exact bytesAt_of_append _ _ _ _ _ (be16_length _) (answer_length cell fits)
  · rw [bytes]
    exact response_found _ _ _ _ size noMarker

theorem checkCreatedCell_created2 (isCreated2 : cell.cellType = cellCreated2) :
    CheckCreatedCell cell ↔ cell.handshakeLen.toNat ≤ relayPayloadSize - 2 := by
  unfold CheckCreatedCell
  rw [if_neg (by rw [isCreated2]; decide), if_neg (by rw [isCreated2]; decide),
    if_pos isCreated2]

end

/-- The payload of a CREATED2 cell. -/
def created2Payload (cell : CreatedCell) : CellPayload :=
  fit cellPayloadSize (created2Body cell ++ responseBytes cell.delayPolicyIsSet)

section

variable (isCreated2 : cell.cellType = cellCreated2)
  (fits : cell.handshakeLen.toNat ≤ relayPayloadSize - 2)

include isCreated2 fits

theorem createdCellFormat_created2 :
    createdCellFormat cell =
      if cell.delayPolicyIsSet = true ∧ cellPayloadSize < 2 + cell.handshakeLen.toNat + 16 then
        .error .assertion
      else .ok (cellCreated2, created2Payload cell) := by
  have size := created2Body_length cell (fits.trans (by decide))
  have room : cell.handshakeLen.toNat ≤ cellPayloadSize - 2 := fits.trans (by decide)
  unfold createdCellFormat
  rw [if_neg (not_not.mpr ((checkCreatedCell_created2 cell isCreated2).mpr fits)), isCreated2]
  simp only [show ¬ (cellCreated2 = cellCreated ∨ cellCreated2 = cellCreatedFast) by decide,
    if_false, if_true, torAssert, room, bind, Except.bind]
  rw [← CreatedCell.answer, ← created2Body, size, created2Payload]
  cases isSet : cell.delayPolicyIsSet with
  | false =>
    simp only [Bool.false_eq_true, if_false, false_and, responseBytes, List.append_nil]
  | true =>
    simp only [if_true, true_and, responseBytes]
    by_cases enough : 2 + cell.handshakeLen.toNat + 16 ≤ cellPayloadSize
    · rw [if_pos enough, if_neg (by omega)]
    · rw [if_neg enough, if_pos (by omega)]

theorem createdCellParse_created2 :
    createdCellParse cellCreated2 (created2Payload cell) =
      if cellPayloadSize < 2 + cell.handshakeLen.toNat + 16 then .error .rejected
      else .ok (answerBack cell) := by
  have length : getUint16 (bytesAt (created2Payload cell).val 0 2) = cell.handshakeLen :=
    fit_created2_length _ _ _ (by decide)
  have room : ¬ cell.handshakeLen.toNat > cellPayloadSize - 2 := by
    simp only [cellPayloadSize, relayPayloadSize] at fits ⊢
    omega
  unfold createdCellParse
  simp only [show cellCreated2 ≠ cellCreated by decide, show cellCreated2 ≠ cellCreatedFast by decide,
    if_false, if_true, length, room, bind, Except.bind]
  by_cases beyond : cellPayloadSize < 2 + cell.handshakeLen.toNat + 16
  · rw [if_pos beyond, if_pos beyond]
  · have holds := fit_created2 cellPayloadSize cell [] (fits.trans (by decide)) (by omega) rfl
    rw [List.append_nil, ← created2Payload] at holds
    rw [if_neg beyond, if_neg beyond]
    simp only [holds.answer, holds.isSet, Bool.decide_eq_true]
    rw [← isCreated2]
    exact if_pos ((checkCreatedCell_created2 (answerBack cell) isCreated2).mpr fits)

theorem extendedCellFormat_created2 :
    extendedCellFormat (extendedCellOfCreated cell) =
      if cell.delayPolicyIsSet = true ∧ relayPayloadSize < 2 + cell.handshakeLen.toNat + 16 then
        .error .rejected
      else .ok (relayCommandExtended2,
        created2Body cell ++ responseBytes cell.delayPolicyIsSet) := by
  have size := created2Body_length cell (fits.trans (by decide))
  have room : ¬ 2 + cell.handshakeLen.toNat > relayPayloadSize := by
    simp only [relayPayloadSize] at fits ⊢
    omega
  have checked : CheckExtendedCell (extendedCellOfCreated cell) := by
    constructor
    · simp only [extendedCellOfCreated, isCreated2, if_true, if_false,
        show cellCreated2 ≠ cellCreated by decide]
    · exact (checkCreatedCell_created2 cell isCreated2).mpr fits
  unfold extendedCellFormat
  rw [if_neg (not_not.mpr checked)]
  simp only [extendedCellOfCreated, isCreated2, if_true, room, if_false,
    show relayCommandExtended2 ≠ relayCommandExtended by decide, bind, Except.bind]
  rw [← CreatedCell.answer, ← created2Body, size]
  cases isSet : cell.delayPolicyIsSet with
  | false =>
    simp only [Bool.false_eq_true, if_false, false_and, responseBytes, List.append_nil]
  | true => simp only [if_true, true_and, responseBytes, gt_iff_lt]

end

theorem sizeSub2_of_le (payloadLen : Nat) (low : 2 ≤ payloadLen) (high : payloadLen < 2 ^ 64) :
    sizeSub2 payloadLen = payloadLen - 2 := by
  unfold sizeSub2
  omega

theorem extendedCellParse_created2 (isCreated2 : cell.cellType = cellCreated2)
    (fits : cell.handshakeLen.toNat ≤ relayPayloadSize - 2)
    (within : cell.delayPolicyIsSet = true → 2 + cell.handshakeLen.toNat + 16 ≤ relayPayloadSize)
    (padding : List UInt8) :
    extendedCellParse relayCommandExtended2 (packed
        (created2Body cell ++ responseBytes cell.delayPolicyIsSet) padding) =
      if relayPayloadSize < 2 + cell.handshakeLen.toNat + 16 then .error .rejected
      else .ok ⟨relayCommandExtended2, answerBack cell⟩ := by
  have size : (created2Body cell ++ responseBytes cell.delayPolicyIsSet).length =
      2 + cell.handshakeLen.toNat + if cell.delayPolicyIsSet then 16 else 0 := by
    rw [List.length_append, created2Body_length cell (fits.trans (by decide)),
      responseBytes_length]
  have low : 2 + cell.handshakeLen.toNat ≤
      (created2Body cell ++ responseBytes cell.delayPolicyIsSet).length := by omega
  have high : (created2Body cell ++ responseBytes cell.delayPolicyIsSet).length ≤
      relayPayloadSize := by
    rw [size]
    cases isSet : cell.delayPolicyIsSet with
    | false =>
      simp only [Bool.false_eq_true, if_false, relayPayloadSize] at fits ⊢
      omega
    | true => exact within isSet
  generalize bodyEq : created2Body cell ++ responseBytes cell.delayPolicyIsSet = body at low high ⊢
  have lengthNat : (packed body padding).length.toNat = body.length := by
    simp only [relayPayloadSize] at high
    exact UInt16.toNat_ofNat_of_lt' (by change _ < 65536; omega)
  have length : getUint16 (bytesAt (packed body padding).bytes.val 0 2) =
      cell.handshakeLen := by
    change getUint16 (bytesAt (fit relayPayloadSize (body ++ _)).val 0 2) = _
    rw [← bodyEq, List.append_assoc]
    exact fit_created2_length _ _ _ (by decide)
  have accepted : ¬ (cell.handshakeLen.toNat > relayPayloadSize - 2 ∨
      cell.handshakeLen.toNat > sizeSub2 body.length) := by
    rw [sizeSub2_of_le _ (by omega) (by simp only [relayPayloadSize] at high; omega)]
    omega
  unfold extendedCellParse
  simp only [lengthNat, Nat.not_lt.mpr high, show relayCommandExtended2 ≠ relayCommandExtended by decide,
    if_false, if_true, length, accepted, bind, Except.bind, gt_iff_lt]
  by_cases beyond : relayPayloadSize < 2 + cell.handshakeLen.toNat + 16
  · rw [if_pos beyond, if_pos beyond]
  · have holds := fit_created2 relayPayloadSize cell (List.replicate cellPaddingGap 0 ++ padding)
      (fits.trans (by decide)) (by omega) rfl
    rw [bodyEq] at holds
    change HoldsAnswer (packed body padding).bytes.val cell at holds
    have checked : CheckExtendedCell ⟨relayCommandExtended2, answerBack cell⟩ := by
      constructor
      · simp only [answerBack, isCreated2, if_true, show cellCreated2 ≠ cellCreated by decide,
          if_false]
      · exact (checkCreatedCell_created2 (answerBack cell) isCreated2).mpr fits
    rw [if_neg beyond, if_neg beyond]
    simp only [holds.answer, holds.isSet, Bool.decide_eq_true]
    rw [← isCreated2]
    exact if_pos checked

/-- The client sees the answer that the hop gave. -/
structure Answered (cell received : CreatedCell) : Prop where
  answer : bytesAt received.reply.val 0 cell.handshakeLen.toNat = CreatedCell.answer cell
  isSet : received.delayPolicyIsSet = cell.delayPolicyIsSet

/-- The answer comes back to the client. -/
def Returned (cell : CreatedCell) (padding : List UInt8) : Prop :=
  ∃ received, returnHandshake cell padding = .ok received ∧ Answered cell received

theorem answerBack_answerBack (fits : cell.handshakeLen.toNat ≤ replySize) :
    answerBack (answerBack cell) = answerBack cell := by
  have same := answerBack_answer cell fits
  unfold answerBack at same ⊢
  rw [same]

/-- A CREATED2 answer comes back if there is room for the marker in an EXTENDED2 cell,
whether there is a marker or not. -/
theorem returned_created2 (isCreated2 : cell.cellType = cellCreated2)
    (fits : cell.handshakeLen.toNat ≤ relayPayloadSize - 2) (padding : List UInt8) :
    Returned cell padding ↔ 2 + cell.handshakeLen.toNat + 16 ≤ relayPayloadSize := by
  have back : cell.handshakeLen.toNat ≤ replySize := fits.trans (by decide)
  have formatted := createdCellFormat_created2 cell isCreated2 fits
  have parsed := createdCellParse_created2 cell isCreated2 fits
  have wrapped := extendedCellFormat_created2 (answerBack cell) isCreated2 fits
  have unwrapped := extendedCellParse_created2 (answerBack cell) isCreated2 fits
  rw [answerBack_answerBack cell back] at unwrapped
  simp only [answerBack_handshakeLen, answerBack_delayPolicyIsSet] at wrapped unwrapped
  unfold Returned returnHandshake
  rw [formatted]
  by_cases room : 2 + cell.handshakeLen.toNat + 16 ≤ relayPayloadSize
  · have inCell : ¬ cellPayloadSize < 2 + cell.handshakeLen.toNat + 16 := by
      simp only [cellPayloadSize, relayPayloadSize] at room ⊢
      omega
    have inRelay : ¬ relayPayloadSize < 2 + cell.handshakeLen.toNat + 16 := Nat.not_lt.mpr room
    simp only [inCell, and_false, if_false, bind, Except.bind] at parsed ⊢
    simp only [inRelay, and_false, if_false] at wrapped unwrapped
    rw [parsed]
    simp only
    rw [wrapped]
    simp only
    rw [unwrapped (fun _ => room) padding]
    constructor
    · intro _
      exact room
    · intro _
      refine ⟨answerBack cell, rfl, ?_, rfl⟩
      exact answerBack_answer cell back
  · have beyond : relayPayloadSize < 2 + cell.handshakeLen.toNat + 16 := Nat.not_le.mp room
    simp only [beyond, and_true, if_true] at wrapped unwrapped
    constructor
    · rintro ⟨received, came, _⟩
      obtain ⟨⟨command, payload⟩, first, came⟩ := (bind_eq_ok _ _ _).mp came
      obtain ⟨created, second, came⟩ := (bind_eq_ok _ _ _).mp came
      obtain ⟨⟨command', payload'⟩, third, came⟩ := (bind_eq_ok _ _ _).mp came
      obtain ⟨extended, fourth, _⟩ := (bind_eq_ok _ _ _).mp came
      split at first
      · cases first
      · cases first
        rw [parsed] at second
        split at second
        · cases second
        · cases second
          rw [wrapped] at third
          split at third
          · cases third
          · next notSet =>
            cases third
            rw [unwrapped (absurd · notSet) padding] at fourth
            cases fourth
    · intro enough
      exact absurd enough room

/-! ## Answers of a fixed size -/

/-- What a relay reads as the reply of a CREATED cell. -/
def createdReply (cell : CreatedCell) : CreatedCell where
  cellType := cellCreated
  handshakeLen := UInt16.ofNat tapOnionskinReplyLen
  reply := fit replySize (bytesAt (fit cellPayloadSize
    (CreatedCell.answer cell ++ responseBytes cell.delayPolicyIsSet)).val 0 tapOnionskinReplyLen)
  delayPolicyIsSet := cell.delayPolicyIsSet &&
    decide (cell.handshakeLen.toNat = tapOnionskinReplyLen)

theorem checkCreatedCell_created (isCreated : cell.cellType = cellCreated) :
    CheckCreatedCell cell ↔
      cell.handshakeLen.toNat = tapOnionskinReplyLen ∨ cell.handshakeLen.toNat = ntorReplyLen := by
  unfold CheckCreatedCell
  rw [if_pos isCreated]

section

variable (isCreated : cell.cellType = cellCreated) (checked : CheckCreatedCell cell)

include isCreated checked

theorem createdAnswer_short : cell.handshakeLen.toNat ≤ tapOnionskinReplyLen := by
  have lengths := (checkCreatedCell_created cell isCreated).mp checked
  simp only [tapOnionskinReplyLen, ntorReplyLen] at lengths ⊢
  omega

theorem createdCellFormat_created :
    createdCellFormat cell = .ok (cellCreated, fit cellPayloadSize
      (CreatedCell.answer cell ++ responseBytes cell.delayPolicyIsSet)) := by
  have short := createdAnswer_short cell isCreated checked
  have size := answer_length cell (short.trans (by decide))
  have room : cell.handshakeLen.toNat ≤ cellPayloadSize := short.trans (by decide)
  have more : cell.handshakeLen.toNat + 16 ≤ cellPayloadSize := by
    simp only [tapOnionskinReplyLen, cellPayloadSize] at short ⊢
    omega
  unfold createdCellFormat
  rw [if_neg (not_not.mpr checked), isCreated]
  simp only [true_or, if_true, torAssert, room, bind, Except.bind]
  rw [← CreatedCell.answer, size]
  cases isSet : cell.delayPolicyIsSet with
  | false => simp only [Bool.false_eq_true, if_false, responseBytes, List.append_nil]
  | true => simp only [if_true, more, responseBytes]

theorem created_marker :
    bytesAt (fit cellPayloadSize (CreatedCell.answer cell ++
        responseBytes cell.delayPolicyIsSet)).val tapOnionskinReplyLen 16 =
      delayPolicyResponseMagic.val ↔
        (cell.delayPolicyIsSet = true ∧ cell.handshakeLen.toNat = tapOnionskinReplyLen) := by
  rcases (checkCreatedCell_created cell isCreated).mp checked with tap | ntor
  · have size := answer_length cell (by rw [tap]; decide)
    obtain ⟨tail, bytes, noMarker⟩ := fit_response cellPayloadSize (CreatedCell.answer cell) []
      cell.delayPolicyIsSet (by rw [size, tap]; decide) rfl
    rw [List.append_nil] at bytes
    rw [bytes, response_found _ _ _ _ (size.trans tap) noMarker, and_iff_left tap]
  · have size := answer_length cell (by rw [ntor]; decide)
    have short : (CreatedCell.answer cell ++ responseBytes cell.delayPolicyIsSet).length ≤
        ntorReplyLen + 16 := by
      rw [List.length_append, size, ntor, responseBytes_length]
      split <;> omega
    have zeros : bytesAt (fit cellPayloadSize (CreatedCell.answer cell ++
        responseBytes cell.delayPolicyIsSet)).val tapOnionskinReplyLen 16 =
          List.replicate 16 0 := by
      simp only [ntorReplyLen] at short
      rw [fit_val _ _ (by simp only [cellPayloadSize]; omega),
        ← List.append_nil (List.replicate _ 0)]
      apply bytesAt_zeros
      · simp only [tapOnionskinReplyLen]
        omega
      · simp only [tapOnionskinReplyLen, cellPayloadSize]
        omega
    rw [zeros]
    constructor
    · intro found
      exact absurd found (by decide)
    · intro tap
      rw [ntor] at tap
      exact absurd tap.2 (by decide)

theorem createdCellParse_created :
    createdCellParse cellCreated (fit cellPayloadSize
      (CreatedCell.answer cell ++ responseBytes cell.delayPolicyIsSet)) =
        .ok (createdReply cell) := by
  have length : (UInt16.ofNat tapOnionskinReplyLen).toNat = tapOnionskinReplyLen := by decide
  have room : ¬ tapOnionskinReplyLen + 16 > cellPayloadSize := by decide
  unfold createdCellParse
  simp only [if_true, bind, Except.bind, length, room, if_false, Nat.zero_add,
    created_marker cell isCreated checked, Bool.decide_and, Bool.decide_eq_true]
  exact if_pos (Or.inl length)

end

theorem createdReply_checked : CheckCreatedCell (createdReply cell) :=
  Or.inl (by decide : (UInt16.ofNat tapOnionskinReplyLen).toNat = tapOnionskinReplyLen)

theorem createdReply_answer :
    bytesAt (createdReply cell).reply.val 0 tapOnionskinReplyLen =
      bytesAt (fit cellPayloadSize (CreatedCell.answer cell ++
        responseBytes cell.delayPolicyIsSet)).val 0 tapOnionskinReplyLen := by
  have size : (bytesAt (fit cellPayloadSize (CreatedCell.answer cell ++
      responseBytes cell.delayPolicyIsSet)).val 0 tapOnionskinReplyLen).length =
        tapOnionskinReplyLen := by
    apply bytesAt_length
    rw [(fit _ _).property]
    decide
  have whole := fit_take replySize _ (size.trans_le (by decide))
  rw [size, ← bytesAt_zero] at whole
  exact whole

theorem createdReply_front (isCreated : cell.cellType = cellCreated)
    (checked : CheckCreatedCell cell) :
    bytesAt (bytesAt (createdReply cell).reply.val 0 tapOnionskinReplyLen) 0
      cell.handshakeLen.toNat = CreatedCell.answer cell := by
  have short := createdAnswer_short cell isCreated checked
  have size := answer_length cell (short.trans (by decide))
  rw [createdReply_answer, bytesAt_zero, bytesAt_zero, List.take_take, Nat.min_eq_left short,
    fit_append _ _ _ (size.trans_le (short.trans (by decide))), List.take_left' size]

theorem extendedCellFormat_created (isCreated : cell.cellType = cellCreated)
    (checked : CheckCreatedCell cell) :
    extendedCellFormat (extendedCellOfCreated cell) = .ok (relayCommandExtended,
      bytesAt cell.reply.val 0 tapOnionskinReplyLen ++ responseBytes cell.delayPolicyIsSet) := by
  have accepted : CheckExtendedCell (extendedCellOfCreated cell) := by
    constructor
    · simp only [extendedCellOfCreated, isCreated, if_true,
        show cellCreated ≠ cellCreated2 by decide, if_false]
    · exact checked
  have size : (bytesAt cell.reply.val 0 tapOnionskinReplyLen).length = tapOnionskinReplyLen := by
    apply bytesAt_length
    rw [cell.reply.property]
    decide
  unfold extendedCellFormat
  rw [if_neg (not_not.mpr accepted)]
  simp only [extendedCellOfCreated, isCreated, show cellCreated ≠ cellCreated2 by decide,
    if_false, if_true, bind, Except.bind, size]
  cases cell.delayPolicyIsSet with
  | false => simp only [Bool.false_eq_true, if_false, responseBytes, List.append_nil]
  | true =>
    rw [if_pos rfl, if_neg (by decide)]
    rfl

/-- The client takes an EXTENDED cell of exactly the length of a TAP reply. -/
theorem extendedCellParse_created (reply padding : List UInt8)
    (size : reply.length = tapOnionskinReplyLen) (isSet : Bool) :
    extendedCellParse relayCommandExtended
        (packed (reply ++ responseBytes isSet) padding) =
      if isSet = true then .error .rejected
      else .ok ⟨relayCommandExtended,
        ⟨cellCreated, UInt16.ofNat tapOnionskinReplyLen, fit replySize reply, false⟩⟩ := by
  unfold extendedCellParse
  cases isSet with
  | true =>
    have length : (packed (reply ++ responseBytes true) padding).length.toNat =
        164 := by
      change (UInt16.ofNat (reply ++ responseBytes true).length).toNat = 164
      rw [List.length_append, size, responseBytes_length]
      decide
    rw [length, if_pos rfl]
    rfl
  | false =>
    have length : (packed (reply ++ responseBytes false) padding).length.toNat =
        tapOnionskinReplyLen := by
      change (UInt16.ofNat (reply ++ responseBytes false).length).toNat = tapOnionskinReplyLen
      rw [List.length_append, size, responseBytes_length]
      decide
    obtain ⟨tail, bytes, noMarker⟩ := fit_response relayPayloadSize reply
      (List.replicate cellPaddingGap 0 ++ padding) false (by rw [size]; decide) rfl
    change (packed (reply ++ responseBytes false) padding).bytes.val = _ at bytes
    have notSet := mt (response_found reply tail false _ size noMarker).mp (by decide)
    have read : bytesAt (reply ++ (responseBytes false ++ tail)) 0 tapOnionskinReplyLen = reply :=
      bytesAt_of_append [] _ _ 0 _ rfl size
    have short : (UInt16.ofNat tapOnionskinReplyLen).toNat = tapOnionskinReplyLen := by decide
    rw [length, bytes]
    simp only [show ¬ tapOnionskinReplyLen > relayPayloadSize by decide, if_false, if_true, ne_eq,
      not_true_eq_false, bind, Except.bind, short, Nat.zero_add,
      show ¬ tapOnionskinReplyLen + 16 > relayPayloadSize by decide, read, notSet, decide_false,
      Bool.false_eq_true]
    exact if_pos ⟨rfl, Or.inl short⟩

/-- A CREATED answer comes back if there is no marker. A marker behind a TAP reply
makes the EXTENDED cell too long for the client, and behind an ntor reply the
previous hop does not look for it. -/
theorem returned_created (isCreated : cell.cellType = cellCreated)
    (checked : CheckCreatedCell cell) (padding : List UInt8) :
    Returned cell padding ↔ cell.delayPolicyIsSet = false := by
  have size : (bytesAt (createdReply cell).reply.val 0 tapOnionskinReplyLen).length =
      tapOnionskinReplyLen := by
    apply bytesAt_length
    rw [(createdReply cell).reply.property]
    decide
  have way : returnHandshake cell padding =
      if (createdReply cell).delayPolicyIsSet = true then .error .rejected
      else .ok ⟨cellCreated, UInt16.ofNat tapOnionskinReplyLen, fit replySize
        (bytesAt (createdReply cell).reply.val 0 tapOnionskinReplyLen), false⟩ := by
    unfold returnHandshake
    rw [createdCellFormat_created cell isCreated checked]
    simp only [bind, Except.bind]
    rw [createdCellParse_created cell isCreated checked]
    simp only
    rw [extendedCellFormat_created (createdReply cell) rfl (createdReply_checked cell)]
    simp only
    rw [extendedCellParse_created _ padding size]
    cases (createdReply cell).delayPolicyIsSet with
    | false => rfl
    | true => rfl
  unfold Returned
  rw [way]
  constructor
  · rintro ⟨received, came, answered⟩
    split at came
    · cases came
    · cases came
      exact answered.isSet.symm
  · intro notSet
    have silent : (createdReply cell).delayPolicyIsSet = false := by
      simp only [createdReply, notSet, Bool.false_and]
    rw [silent, if_neg (by decide)]
    refine ⟨_, rfl, ?_, notSet.symm⟩
    have short := createdAnswer_short cell isCreated checked
    rw [bytesAt_fit _ _ _ (size.trans_le (by decide)) (short.trans size.ge)]
    exact createdReply_front cell isCreated checked

/-! ## When the answer comes back -/

/-- Cells that leave room for the marker all the way, or do not need it. -/
def ReturnsWhole (cell : CreatedCell) : Prop :=
  (cell.cellType = cellCreated ∧ cell.delayPolicyIsSet = false) ∨
    (cell.cellType = cellCreated2 ∧ 2 + cell.handshakeLen.toNat + 16 ≤ relayPayloadSize)

instance (cell : CreatedCell) : Decidable (ReturnsWhole cell) :=
  inferInstanceAs (Decidable (_ ∨ _))

/-- The answer of a hop comes back to the client, whatever the padding, exactly if a
CREATED cell has no marker and a CREATED2 cell leaves room for one. -/
theorem returnHandshake_returned (cell : CreatedCell)
    (kind : cell.cellType = cellCreated ∨ cell.cellType = cellCreated2)
    (checked : CheckCreatedCell cell) (padding : List UInt8) :
    Returned cell padding ↔ ReturnsWhole cell := by
  unfold ReturnsWhole
  rcases kind with isCreated | isCreated2
  · have notCreated2 : cell.cellType ≠ cellCreated2 := by
      rw [isCreated]
      decide
    rw [returned_created cell isCreated checked, and_iff_right isCreated, iff_false_intro
      (fun both => notCreated2 both.1 : ¬ (cell.cellType = cellCreated2 ∧ _)), or_false]
  · have notCreated : cell.cellType ≠ cellCreated := by
      rw [isCreated2]
      decide
    have fits := (checkCreatedCell_created2 cell isCreated2).mp checked
    rw [returned_created2 cell isCreated2 fits, and_iff_right isCreated2, iff_false_intro
      (fun both => notCreated both.1 : ¬ (cell.cellType = cellCreated ∧ _)), false_or]

/-- An ntor answer in a CREATED2 cell, with the policy accepted. -/
def ntorAnswer : CreatedCell where
  cellType := cellCreated2
  handshakeLen := UInt16.ofNat ntorReplyLen
  reply := fit replySize [7]
  delayPolicyIsSet := true

/-- The same policy accepted in a TAP answer. -/
def tapAnswer : CreatedCell :=
  { ntorAnswer with
    cellType := cellCreated
    handshakeLen := UInt16.ofNat tapOnionskinReplyLen }

/-- An answer that nearly fills a CREATED2 cell, without a policy. -/
def longAnswer : CreatedCell :=
  { ntorAnswer with
    handshakeLen := 481
    delayPolicyIsSet := false }

theorem returnHandshake_returned_ntor : Returned ntorAnswer [] ↔ ReturnsWhole ntorAnswer :=
  returnHandshake_returned ntorAnswer (Or.inr rfl) (by decide) []

/-- The client rejects the EXTENDED cell that is made of a TAP answer with a marker, and
the EXTENDED2 cell that is made of a long answer without one. -/
theorem returnHandshake_rejected :
    (CheckCreatedCell tapAnswer ∧ returnHandshake tapAnswer [] = .error .rejected ∧
      ¬ Returned tapAnswer []) ∧
    CheckCreatedCell longAnswer ∧ returnHandshake longAnswer [] = .error .rejected ∧
      ¬ Returned longAnswer [] := by
  have rejected : ∀ cell, returnHandshake cell [] = .error .rejected → ¬ Returned cell [] := by
    rintro cell failed ⟨received, came, _⟩
    rw [failed] at came
    cases came
  have tap : returnHandshake tapAnswer [] = .error .rejected := by decide +kernel
  have long : returnHandshake longAnswer [] = .error .rejected := by decide +kernel
  exact ⟨⟨by decide, tap, rejected _ tap⟩, by decide, long, rejected _ long⟩

end RendezMix.Guarantees
