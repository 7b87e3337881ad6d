import RendezMix.Guarantees.ForwardHandshake
import RendezMix.Guarantees.ReturnHandshake
import RendezMix.Guarantees.ExtendAsserts

/-!
# What a cell says about the policy

Whoever parses a cell that was formatted with a policy finds that policy, and
whoever parses an answer finds the marker only if the answer was given with it.
These hold for every cell that is accepted, whatever the handshake in it.
-/
namespace RendezMix.Guarantees
open Source Library.ByteStrings RelayPayload

/-! ## Extend cells with a policy -/

section

variable (cell : CreatedCell) (command : UInt8) (payload padding : List UInt8)

theorem packed_take (short : payload.length ≤ relayPayloadSize) :
    (packed payload padding).bytes.val.take
        (packed payload padding).length.toNat = payload := by
  have length : (UInt16.ofNat payload.length).toNat = payload.length := by
    simp only [relayPayloadSize] at short
    exact UInt16.toNat_ofNat_of_lt' (by change _ < 65536; omega)
  change (fit relayPayloadSize (payload ++ _)).val.take (UInt16.ofNat payload.length).toNat = _
  rw [length, fit_append _ _ _ short, List.take_left]

/-- A create cell that carries a policy, as a relay takes it out of an EXTEND2 cell. -/
structure HoldsPolicy (policy : RawPolicy) (cell : CreateCell) : Prop where
  type : cell.cellType = cellCreate2
  fits : cell.handshakeLen.toNat ≤ onionskinSize
  isSet : cell.delayPolicyIsSet = true
  policy : cell.delayPolicy = policy

theorem policyWindow_split (before : Bytes 16) (body : List UInt8) (policy : RawPolicy) :
    (policyWindow before (body ++ policyBytes true policy)).take 16 = delayPolicyMagic.val ∧
      bytesAt (policyWindow before (body ++ policyBytes true policy)) 16 delayPolicySize =
        policy.val := by
  have window := policyWindow_appended before body policy
  rw [List.append_assoc] at window
  rw [policyBytes, if_pos rfl, window]
  constructor
  · exact List.take_left' delayPolicyMagic.property
  · have found := bytesAt_of_append delayPolicyMagic.val policy.val [] 16 delayPolicySize
      delayPolicyMagic.property policy.property
    rwa [List.append_nil] at found

/-- A relay that accepts a formatted EXTEND2 cell finds the policy that was appended. -/
theorem extendCellParse_holds (options : OnionOptions) (cell : ExtendCell)
    (delayPolicy : RawPolicy) (command : UInt8) (payload padding : List UInt8)
    (isExtend2 : cell.cellType = relayCommandExtend2) (enforced : options.enforceDelayPolicy = true)
    (formatted : extendCellFormat options cell delayPolicy = .ok (command, payload)) :
    command = relayCommandExtend2 ∧ ∀ before parsed,
      extendCellParse before command ((packed payload padding).bytes.val.take
        (packed payload padding).length.toNat) = .ok parsed →
      HoldsPolicy delayPolicy parsed.createCell := by
  obtain ⟨checked, body, encoded, whole, room⟩ :=
    extendCellFormat_split options cell delayPolicy command payload formatted
  have emits : options.emitsPolicy delayPolicy = true := by
    rw [OnionOptions.emitsPolicy, enforced, Bool.true_or]
  rw [emits] at whole room
  have isCommand : command = relayCommandExtend2 := by
    unfold extendCellBody at encoded
    simp only [isExtend2, show relayCommandExtend2 ≠ relayCommandExtend by decide, if_false,
      if_true] at encoded
    split at encoded
    · cases encoded
    · cases encoded
      rfl
  have short : payload.length ≤ relayPayloadSize := by
    have enough := room rfl
    rw [whole, List.length_append, policyBytes_length, if_pos rfl]
    omega
  refine ⟨isCommand, fun before parsed accepted => ?_⟩
  rw [packed_take payload padding short, whole] at accepted
  obtain ⟨_, read, readEq, rfl, _⟩ := (extendCellParse_eq_ok_iff _ _ _ _).mp accepted
  obtain ⟨magic, policyEq⟩ := policyWindow_split before body delayPolicy
  unfold readExtend at readEq
  rw [isCommand, if_neg (by decide), if_pos rfl] at readEq
  obtain ⟨extend2, _, embedded⟩ := Option.bind_eq_some_iff.mp readEq
  obtain ⟨isCreate2, _, fits⟩ := extendCellFromExtend2CellBody_createCell _ _ embedded
  refine ⟨?_, ?_, ?_, ?_⟩
  · rw [notePolicy_cellType]
    exact isCreate2
  · rw [notePolicy_handshakeLen]
    exact fits
  · rw [notePolicy_isSet]
    exact magic
  · rw [notePolicy, if_pos magic, policyEq]
    exact fit_bytes delayPolicy

/-! ## Create cells -/

/-- What a relay finds in a create cell. -/
structure FindsPolicy (given : Bool) (policy : RawPolicy) (found : CreateCell) : Prop where
  isSet : found.delayPolicyIsSet = given
  policy : found.delayPolicy = policyRead given policy

theorem createCellParse_create2 (cell : CreateCell) (isCreate2 : cell.cellType = cellCreate2)
    (roomy : Roomy cell) (memory : List UInt8) (found : CreateCell)
    (parsed : createCellParse cellCreate2 (wirePayload cell) memory = .ok found) :
    FindsPolicy cell.delayPolicyIsSet cell.delayPolicy found := by
  unfold createCellParse at parsed
  rw [if_neg (by decide), if_neg (by decide), if_pos rfl,
    parseCreate2Payload_wire cell isCreate2 roomy memory] at parsed
  obtain ⟨read, readEq, checked⟩ := (bind_eq_ok _ _ _).mp parsed
  split at readEq
  · cases readEq
  · cases readEq
    simp only at checked
    split at checked
    · cases checked
      exact ⟨rfl, rfl⟩
    · cases checked

/-- A CREATE2 cell that could be formatted has room for its policy; where there is none,
a handshake that is not too long leaves room for the zeros that show it. -/
theorem createCellFormatImpl_finds (cell : CreateCell) (relayed : Bool) (command : UInt8)
    (payload : CellPayload) (isCreate2 : cell.cellType = cellCreate2)
    (fits : cell.handshakeLen.toNat ≤ onionskinSize)
    (short : cell.delayPolicyIsSet = false → 4 + cell.handshakeLen.toNat + 16 ≤ cellPayloadSize)
    (formatted : createCellFormatImpl cell relayed = .ok (command, payload)) :
    command = cellCreate2 ∧ ∀ memory found,
      createCellParse command payload memory = .ok found →
        FindsPolicy cell.delayPolicyIsSet cell.delayPolicy found := by
  have checked : CheckCreateCell cell relayed := by
    by_contra bad
    unfold createCellFormatImpl at formatted
    rw [if_pos bad] at formatted
    cases formatted
  have header : (wireHeader cell).length = 4 := by
    rw [wireHeader_create2 cell isCreate2, List.length_append, be16_length, be16_length]
  rw [createCellFormatImpl_eq cell relayed checked fits] at formatted
  split at formatted
  · cases formatted
  · next within =>
    cases formatted
    have roomy : Roomy cell := by
      unfold Roomy
      unfold wireLength at within
      rw [header] at within ⊢
      cases isSet : cell.delayPolicyIsSet with
      | true =>
        simp only [isSet, if_true, true_and] at within ⊢
        omega
      | false => exact short isSet
    refine ⟨isCreate2, fun memory found parsed => ?_⟩
    rw [isCreate2] at parsed
    exact createCellParse_create2 cell isCreate2 roomy memory found parsed

/-! ## Answers -/

theorem checkCreatedCell_of_format (result : UInt8 × CellPayload)
    (formatted : createdCellFormat cell = .ok result) : CheckCreatedCell cell := by
  by_contra bad
  unfold createdCellFormat at formatted
  rw [if_pos bad] at formatted
  cases formatted

/-- The previous hop finds the marker only if the answer was given with it. -/
theorem createdCellParse_marker (payload : CellPayload)
    (kind : cell.cellType = cellCreated ∨ cell.cellType = cellCreated2)
    (formatted : createdCellFormat cell = .ok (command, payload)) (found : CreatedCell)
    (parsed : createdCellParse command payload = .ok found)
    (isSet : found.delayPolicyIsSet = true) : cell.delayPolicyIsSet = true := by
  have checked := checkCreatedCell_of_format cell _ formatted
  rcases kind with isCreated | isCreated2
  · rw [createdCellFormat_created cell isCreated checked] at formatted
    cases formatted
    rw [createdCellParse_created cell isCreated checked] at parsed
    cases parsed
    simp only [createdReply, Bool.and_eq_true] at isSet
    exact isSet.1
  · have fits := (checkCreatedCell_created2 cell isCreated2).mp checked
    rw [createdCellFormat_created2 cell isCreated2 fits] at formatted
    split at formatted
    · cases formatted
    · cases formatted
      rw [createdCellParse_created2 cell isCreated2 fits] at parsed
      split at parsed
      · cases parsed
      · cases parsed
        exact isSet

theorem checkExtendedCell_of_format (cell : ExtendedCell) (result : UInt8 × List UInt8)
    (formatted : extendedCellFormat cell = .ok result) : CheckExtendedCell cell := by
  by_contra bad
  unfold extendedCellFormat at formatted
  rw [if_pos bad] at formatted
  cases formatted

theorem extendedCellParse_marker
    (formatted : extendedCellFormat (extendedCellOfCreated cell) = .ok (command, payload))
    (found : ExtendedCell)
    (parsed : extendedCellParse command (packed payload padding) = .ok found)
    (isSet : found.createdCell.delayPolicyIsSet = true) : cell.delayPolicyIsSet = true := by
  obtain ⟨types, checked⟩ := checkExtendedCell_of_format _ _ formatted
  change CheckCreatedCell cell at checked
  by_cases isCreated : cell.cellType = cellCreated
  · rw [extendedCellFormat_created cell isCreated checked] at formatted
    cases formatted
    rw [extendedCellParse_created _ _ (bytesAt_length _ _ _ (by
      rw [cell.reply.property]
      decide))] at parsed
    split at parsed
    · cases parsed
    · cases parsed
      cases isSet
  · have isCreated2 : cell.cellType = cellCreated2 := by
      by_contra other
      simp only [extendedCellOfCreated, isCreated, other, if_false] at types
    have fits := (checkCreatedCell_created2 cell isCreated2).mp checked
    rw [extendedCellFormat_created2 cell isCreated2 fits] at formatted
    split at formatted
    · cases formatted
    · next within =>
      cases formatted
      have room : cell.delayPolicyIsSet = true →
          2 + cell.handshakeLen.toNat + 16 ≤ relayPayloadSize :=
        fun set => Nat.not_lt.mp (fun beyond => within ⟨set, beyond⟩)
      rw [extendedCellParse_created2 cell isCreated2 fits room] at parsed
      split at parsed
      · cases parsed
      · cases parsed
        exact isSet

end

end RendezMix.Guarantees
