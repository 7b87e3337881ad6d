import RendezMix.Guarantees.ExtendCells

/-!
# The way of a handshake to the next hop

A client formats an extend cell, the hop at the end of its circuit parses it and
formats the create cell inside, and the next hop parses that. Whatever the
options and addresses, the next hop sees the client's handshake, and the
client's policy if the client appended one.
-/
namespace RendezMix.Guarantees
open Source Library.ByteStrings

/-! ## The embedded create cell -/

/-- Handshake types that `check_create_cell` knows in a cell to be answered. -/
def Recognised (handshakeType : UInt16) : Prop :=
  handshakeType = onionHandshakeTypeTap ∨ handshakeType = onionHandshakeTypeNtor ∨
    handshakeType = onionHandshakeTypeNtorV3

instance (handshakeType : UInt16) : Decidable (Recognised handshakeType) :=
  inferInstanceAs (Decidable (_ ∨ _ ∨ _))

/-- The onionskin of a TAP handshake in an EXTEND cell does not begin like an ntor one. -/
def NoNtorMagic (cell : ExtendCell) : Prop :=
  cell.cellType = relayCommandExtend →
    cell.createCell.handshakeType = onionHandshakeTypeTap →
      bytesAt cell.createCell.onionskin.val 0 16 ≠ ntorCreateMagic.val

instance (cell : ExtendCell) : Decidable (NoNtorMagic cell) :=
  inferInstanceAs (Decidable (_ → _ → _))

/-- The handshake of `create` is that of `cell`. -/
structure SameHandshake (cell create : CreateCell) : Prop where
  type : create.handshakeType = cell.handshakeType
  length : create.handshakeLen = cell.handshakeLen
  skin : CreateCell.skin create = CreateCell.skin cell

/-- What a relay reads as the create cell of an extend cell, before the policy. -/
structure Embedded (cell : ExtendCell) (create : CreateCell) : Prop where
  type : create.cellType = cellCreate2 ∨
    (create.cellType = cellCreate ∧ cell.cellType = relayCommandExtend)
  notFast : create.handshakeType ≠ onionHandshakeTypeFast
  checked : CheckCreateCell create true
  fits : create.handshakeLen.toNat ≤ onionskinSize
  noPolicy : create.delayPolicy = fit delayPolicySize []
  same : Recognised cell.createCell.handshakeType → NoNtorMagic cell →
    CheckCreateCell create false ∧ SameHandshake cell.createCell create ∧
      (create.cellType = cellCreate → create.handshakeType = onionHandshakeTypeTap →
        bytesAt create.onionskin.val 0 16 ≠ ntorCreateMagic.val)

section

variable (onionskin : Bytes onionskinSize) (isSet : Bool) (policy : RawPolicy) (unknownOk : Bool)

theorem checkCreateCell_lengths (cell : CreateCell) (unknownOk : Bool)
    (ok : CheckCreateCell cell unknownOk) :
    (cell.handshakeType = onionHandshakeTypeTap →
        cell.handshakeLen.toNat = tapOnionskinChallengeLen) ∧
      (cell.handshakeType = onionHandshakeTypeNtor →
        cell.handshakeLen.toNat = ntorOnionskinLen) := by
  obtain ⟨_, lengths⟩ := ok
  constructor
  · intro tap
    rwa [if_pos tap] at lengths
  · intro ntor
    rwa [if_neg (by rw [ntor]; decide), if_neg (by rw [ntor]; decide), if_pos ntor] at lengths

/-- The onionskin field of an EXTEND cell. -/
def extend1Onionskin (cell : CreateCell) : Bytes tapOnionskinChallengeLen :=
  fit tapOnionskinChallengeLen
    (if cell.handshakeType = onionHandshakeTypeNtor then
      ntorCreateMagic.val ++ bytesAt cell.onionskin.val 0 ntorOnionskinLen
    else bytesAt cell.onionskin.val 0 tapOnionskinChallengeLen)

theorem extend1Onionskin_ntor (cell : CreateCell)
    (ntor : cell.handshakeType = onionHandshakeTypeNtor) :
    bytesAt (extend1Onionskin cell).val 0 16 = ntorCreateMagic.val ∧
      bytesAt (extend1Onionskin cell).val 16 ntorOnionskinLen =
        bytesAt cell.onionskin.val 0 ntorOnionskinLen := by
  have size : (bytesAt cell.onionskin.val 0 ntorOnionskinLen).length = ntorOnionskinLen :=
    bytesAt_length _ _ _ (by rw [cell.onionskin.property]; decide)
  have room : (ntorCreateMagic.val ++ bytesAt cell.onionskin.val 0 ntorOnionskinLen).length ≤
      tapOnionskinChallengeLen := by
    rw [List.length_append, size, ntorCreateMagic.property]
    decide
  rw [extend1Onionskin, if_pos ntor, fit_val _ _ room, List.append_assoc]
  exact ⟨bytesAt_of_append [] _ _ 0 16 rfl ntorCreateMagic.property,
    bytesAt_of_append _ _ _ 16 _ ntorCreateMagic.property size⟩

theorem extend1Onionskin_other (cell : CreateCell)
    (other : cell.handshakeType ≠ onionHandshakeTypeNtor) :
    (extend1Onionskin cell).val = bytesAt cell.onionskin.val 0 tapOnionskinChallengeLen := by
  have size : (bytesAt cell.onionskin.val 0 tapOnionskinChallengeLen).length =
      tapOnionskinChallengeLen :=
    bytesAt_length _ _ _ (by rw [cell.onionskin.property]; decide)
  rw [extend1Onionskin, if_neg other, fit_val _ _ size.le, size, Nat.sub_self,
    List.replicate_zero, List.append_nil]

theorem ntor_ne_fast : onionHandshakeTypeNtor ≠ onionHandshakeTypeFast := by decide

theorem tap_ne_fast : onionHandshakeTypeTap ≠ onionHandshakeTypeFast := by decide

theorem create2_ne_create : cellCreate2 ≠ cellCreate := by decide

theorem ntorOnionskinLen_fits : (UInt16.ofNat ntorOnionskinLen).toNat ≤ onionskinSize := by decide

theorem tapOnionskinChallengeLen_fits :
    (UInt16.ofNat tapOnionskinChallengeLen).toNat ≤ onionskinSize := by
  decide

theorem checkCreateCell_ntor :
    CheckCreateCell ⟨cellCreate2, onionHandshakeTypeNtor, UInt16.ofNat ntorOnionskinLen, onionskin,
      isSet, policy⟩ unknownOk := by
  constructor
  · rfl
  · rfl

theorem checkCreateCell_tap :
    CheckCreateCell ⟨cellCreate, onionHandshakeTypeTap, UInt16.ofNat tapOnionskinChallengeLen,
      onionskin, isSet, policy⟩ unknownOk := by
  constructor
  · exact Or.inl rfl
  · rfl

end

variable (options : OnionOptions) (cell : ExtendCell)

theorem embedded_extend1 (isExtend : cell.cellType = relayCommandExtend)
    (checked : CheckExtendCell cell)
    (notV3 : cell.createCell.handshakeType ≠ onionHandshakeTypeNtorV3) (ipv4addr : UInt32)
    (port : UInt16) :
    Embedded cell (extendCellFromExtend1CellBody
      ⟨ipv4addr, port, extend1Onionskin cell.createCell, cell.nodeId⟩).createCell := by
  obtain ⟨tapLength, ntorLength⟩ := checkCreateCell_lengths _ _ checked.2.2.2.2
  have skinSize : cell.createCell.onionskin.val.length = onionskinSize :=
    cell.createCell.onionskin.property
  unfold extendCellFromExtend1CellBody
  by_cases ntor : cell.createCell.handshakeType = onionHandshakeTypeNtor
  · obtain ⟨magic, skin⟩ := extend1Onionskin_ntor cell.createCell ntor
    have length : (bytesAt cell.createCell.onionskin.val 0 ntorOnionskinLen).length =
        ntorOnionskinLen := bytesAt_length _ _ _ (by rw [skinSize]; decide)
    simp only [magic, if_true, skin]
    refine ⟨Or.inl rfl, ntor_ne_fast, checkCreateCell_ntor _ _ _ _, ntorOnionskinLen_fits, rfl,
      fun _ _ => ?_⟩
    refine ⟨checkCreateCell_ntor _ _ _ _, ⟨ntor.symm, ?_, ?_⟩,
      fun create => absurd create create2_ne_create⟩
    · rw [← ntorLength ntor]
      exact UInt16.ofNat_toNat
    · simp only [CreateCell.skin, ntorLength ntor]
      exact (bytesAt_fit _ _ _ (by rw [length]; decide) (by rw [length]; decide)).trans
        (bytesAt_bytesAt _ _ _ le_rfl)
  · have skin := extend1Onionskin_other cell.createCell ntor
    have length : (bytesAt cell.createCell.onionskin.val 0 tapOnionskinChallengeLen).length =
        tapOnionskinChallengeLen := bytesAt_length _ _ _ (by rw [skinSize]; decide)
    have first : bytesAt (extend1Onionskin cell.createCell).val 0 16 =
        bytesAt cell.createCell.onionskin.val 0 16 := by
      rw [skin]
      exact bytesAt_bytesAt _ _ _ (by decide)
    have isTap : Recognised cell.createCell.handshakeType →
        cell.createCell.handshakeType = onionHandshakeTypeTap := fun recognised =>
      recognised.elim id (fun other => other.elim (absurd · ntor) (absurd · notV3))
    by_cases magic : bytesAt (extend1Onionskin cell.createCell).val 0 16 = ntorCreateMagic.val
    · simp only [magic, if_true]
      refine ⟨Or.inl rfl, ntor_ne_fast, checkCreateCell_ntor _ _ _ _, ntorOnionskinLen_fits, rfl,
        fun recognised noMagic => ?_⟩
      exact absurd (first.symm.trans magic) (noMagic isExtend (isTap recognised))
    · simp only [magic, if_false]
      refine ⟨Or.inr ⟨rfl, isExtend⟩, tap_ne_fast, checkCreateCell_tap _ _ _ _,
        tapOnionskinChallengeLen_fits, rfl, fun recognised noMagic => ?_⟩
      have tap := isTap recognised
      refine ⟨checkCreateCell_tap _ _ _ _, ⟨tap.symm, ?_, ?_⟩, fun _ _ => ?_⟩
      · rw [← tapLength tap]
        exact UInt16.ofNat_toNat
      · simp only [CreateCell.skin, tapLength tap, skin]
        exact (bytesAt_fit _ _ _ (by rw [length]; decide) (by rw [length]; decide)).trans
          (bytesAt_bytesAt _ _ _ le_rfl)
      · rw [bytesAt_fit _ _ _ (by rw [skin, length]; decide) (by rw [skin, length]; decide)]
        exact magic

theorem checkExtendCell_create2 (checked : CheckExtendCell cell)
    (isExtend2 : cell.cellType = relayCommandExtend2) : cell.createCell.cellType = cellCreate2 := by
  have types := checked.2.2.1
  split at types
  · rw [isExtend2] at types
    exact absurd types (by decide)
  · split at types
    · assumption
    · exact types.elim

theorem embedded_extend2 (isExtend2 : cell.cellType = relayCommandExtend2)
    (checked : CheckExtendCell cell) (fits : cell.createCell.handshakeLen.toNat ≤ onionskinSize) :
    ∃ create, createCellFromCreate2CellBody ⟨cell.createCell.handshakeType,
        cell.createCell.handshakeLen, CreateCell.skin cell.createCell⟩ = some create ∧
      Embedded cell create ∧ create.cellType = cellCreate2 ∧
      create.handshakeLen = cell.createCell.handshakeLen := by
  have isCreate2 := checkExtendCell_create2 cell checked isExtend2
  have size := skin_length cell.createCell fits
  unfold createCellFromCreate2CellBody
  rw [if_neg (Nat.not_lt.mpr fits)]
  refine ⟨_, rfl, ⟨Or.inl rfl, checked.2.2.2.1, ?_, fits, rfl, fun recognised _ => ?_⟩, rfl, rfl⟩
  · obtain ⟨types, lengths⟩ := checked.2.2.2.2
    exact ⟨by rwa [isCreate2] at types, lengths⟩
  · obtain ⟨types, lengths⟩ := checked.2.2.2.2
    refine ⟨⟨by rwa [isCreate2] at types, ?_⟩, ⟨rfl, rfl, ?_⟩,
      fun create => absurd create create2_ne_create⟩
    · rcases recognised with tap | ntor | v3
      · rw [if_pos tap] at lengths ⊢
        exact lengths
      · rw [if_neg (by rw [ntor]; decide), if_neg (by rw [ntor]; decide), if_pos ntor]
          at lengths ⊢
        exact lengths
      · rw [if_neg (by rw [v3]; decide), if_neg (by rw [v3]; decide), if_neg (by rw [v3]; decide)]
        exact Or.inl v3
    · simp only [CreateCell.skin] at size ⊢
      rw [bytesAt_bytesAt _ _ _ le_rfl, bytesAt_fit _ _ _ (by rw [size]; exact fits) size.ge,
        bytesAt_bytesAt _ _ _ le_rfl]

/-! ## Reading the body -/

/-- What a relay reads in a body, whatever follows it. -/
structure Reads (cell : ExtendCell) (body : List UInt8) (create : CreateCell) : Prop where
  read : ∀ rest, ∃ read, readExtend cell.cellType (body ++ rest) = some read ∧
    Carries cell read create
  embedded : Embedded cell create
  room : (wireHeader create).length + create.handshakeLen.toNat + 5 ≤ body.length
  short : body.length ≤ relayPayloadSize

/-- The body of an EXTEND cell. -/
def extend1Body (cell : ExtendCell) : Extend1CellBody :=
  ⟨torAddrToIpv4h cell.orportIpv4.addr, cell.orportIpv4.port, extend1Onionskin cell.createCell,
    cell.nodeId⟩

def extend1Bytes (cell : ExtendCell) : List UInt8 :=
  be32 (torAddrToIpv4h cell.orportIpv4.addr) ++ be16 cell.orportIpv4.port ++
    (extend1Onionskin cell.createCell).val ++ cell.nodeId.val

theorem extend1Bytes_length : (extend1Bytes cell).length = 212 := by
  rw [extend1Bytes, List.length_append, List.length_append, List.length_append, be32_length,
    be16_length, (extend1Onionskin cell.createCell).property, cell.nodeId.property]
  rfl

theorem extend1Bytes_reads (isExtend : cell.cellType = relayCommandExtend)
    (checked : CheckExtendCell cell) (kept : AddressKept cell)
    (notV3 : cell.createCell.handshakeType ≠ onionHandshakeTypeNtorV3) :
    ∃ create, Reads cell (extend1Bytes cell) create := by
  have notExtend2 : cell.cellType ≠ relayCommandExtend2 := by
    rw [isExtend]
    decide
  have address := kept.resolve_right (fun six => notExtend2 six.1)
  have embedded := embedded_extend1 cell isExtend checked notV3
    (torAddrToIpv4h cell.orportIpv4.addr) cell.orportIpv4.port
  refine ⟨(extendCellFromExtend1CellBody (extend1Body cell)).createCell, fun rest => ?_, embedded,
    ?_, by rw [extend1Bytes_length]; decide⟩
  · refine ⟨extendCellFromExtend1CellBody (extend1Body cell), ?_, isExtend.symm, rfl, rfl,
      Or.inl (torAddrPortIsValidAp_inet _ address.1 address.2)⟩
    have parsed : extend1CellBodyParse (extend1Bytes cell ++ rest) = some (extend1Body cell) := by
      rw [extend1Bytes, List.append_assoc, List.append_assoc, List.append_assoc]
      exact extend1CellBodyParse_encoded (extend1Body cell) rest
    rw [readExtend, if_pos isExtend, parsed]
    rfl
  · have header := wireHeader_length_le
      (extendCellFromExtend1CellBody (extend1Body cell)).createCell
    have length : (extendCellFromExtend1CellBody
        (extend1Body cell)).createCell.handshakeLen.toNat ≤ tapOnionskinChallengeLen := by
      unfold extendCellFromExtend1CellBody
      by_cases magic : bytesAt (extend1Body cell).onionskin.val 0 16 = ntorCreateMagic.val
      · simp only [if_pos magic]
        exact (by decide : (UInt16.ofNat ntorOnionskinLen).toNat ≤ tapOnionskinChallengeLen)
      · simp only [if_neg magic]
        exact (by decide : (UInt16.ofNat tapOnionskinChallengeLen).toNat ≤
          tapOnionskinChallengeLen)
    rw [extend1Bytes_length]
    simp only [tapOnionskinChallengeLen] at length
    omega

theorem extend2Body_reads (isExtend2 : cell.cellType = relayCommandExtend2)
    (checked : CheckExtendCell cell) (kept : AddressKept cell) (body : List UInt8)
    (encoded : extend2CellBodyEncode relayPayloadSize
      ⟨UInt8.ofNat (extend2Specifiers options cell).length, extend2Specifiers options cell,
        ⟨cell.createCell.handshakeType, cell.createCell.handshakeLen,
          CreateCell.skin cell.createCell⟩⟩ = some body) : ∃ create, Reads cell body create := by
  obtain ⟨_, length⟩ := extend2CellBodyEncode_length _ _ _ encoded
  have count := extend2Specifiers_length options cell
    (kept.elim (fun four => Or.inl four.1) (fun six => Or.inr six.2.1))
  dsimp only at length
  have parse := fun rest => extend2CellBodyParse_encoded _ _
    (extend2Specifiers_typed options cell) body rest encoded
  have short := (parse []).2
  have fits : cell.createCell.handshakeLen.toNat ≤ onionskinSize := by
    simp only [relayPayloadSize, onionskinSize] at short ⊢
    omega
  obtain ⟨create, made, embedded, isCreate2, sameLength⟩ :=
    embedded_extend2 cell isExtend2 checked fits
  refine ⟨create, fun rest => ?_, embedded, ?_, short⟩
  · obtain ⟨read, reads, carries⟩ :=
      extendCellFromExtend2CellBody_specifiers options cell isExtend2 kept _ _ create made
    refine ⟨read, ?_, carries⟩
    rw [readExtend, isExtend2, if_neg (by decide), if_pos rfl, (parse rest).1]
    exact reads
  · rw [wireHeader_create2 create isCreate2, sameLength, List.length_append, be16_length,
      be16_length]
    omega

theorem extendCellBody_reads (checked : CheckExtendCell cell) (kept : AddressKept cell)
    (command : UInt8) (body : List UInt8)
    (encoded : extendCellBody options cell = .ok (command, body)) :
    command = cell.cellType ∧ ∃ create, Reads cell body create := by
  unfold extendCellBody at encoded
  dsimp only at encoded
  split at encoded
  · next isExtend =>
    split at encoded
    · cases encoded
    · next notV3 =>
      cases encoded
      exact ⟨isExtend.symm, extend1Bytes_reads cell isExtend checked kept notV3⟩
  · split at encoded
    · next isExtend2 =>
      split at encoded
      · cases encoded
      · next payload encoding =>
        cases encoded
        exact ⟨isExtend2.symm, extend2Body_reads options cell isExtend2 checked kept _ encoding⟩
    · cases encoded

/-! ## The way to the next hop -/

/-- The create cell with the policy that was found behind it. -/
def withPolicy (create : CreateCell) (isSet : Bool) (policy : RawPolicy) : CreateCell :=
  { create with delayPolicyIsSet := isSet, delayPolicy := policyRead isSet policy }

theorem notePolicy_formatted (before : Bytes 16) (body : List UInt8) (isSet : Bool)
    (policy : RawPolicy) (plain : ¬ EndsInPolicy body)
    (header : before.val.drop 14 = be16 (UInt16.ofNat (body ++ policyBytes isSet policy).length))
    (read : ExtendCell) (create : CreateCell) (embeds : read.createCell = create)
    (noPolicy : create.delayPolicy = fit delayPolicySize []) :
    notePolicy (policyWindow before (body ++ policyBytes isSet policy)) read =
      { read with createCell := withPolicy create isSet policy } := by
  subst embeds
  cases isSet with
  | false =>
    simp only [policyBytes, Bool.false_eq_true, if_false, List.append_nil] at header ⊢
    have none := policyWindow_none before body header plain
    rw [notePolicy, if_neg none, withPolicy, policyRead, if_neg Bool.false_ne_true, ← noPolicy]
  | true =>
    have window := policyWindow_appended before body policy
    rw [List.append_assoc] at window
    have found : (delayPolicyMagic.val ++ policy.val).take 16 = delayPolicyMagic.val :=
      List.take_left' delayPolicyMagic.property
    have bytes : bytesAt (delayPolicyMagic.val ++ policy.val) 16 delayPolicySize = policy.val := by
      have inside := bytesAt_of_append delayPolicyMagic.val policy.val [] 16 delayPolicySize
        delayPolicyMagic.property policy.property
      rwa [List.append_nil] at inside
    simp only [policyBytes, if_true, window, notePolicy, found, bytes, fit_bytes, withPolicy,
      policyRead]

theorem checkExtendCell_type (checked : CheckExtendCell cell) :
    cell.cellType = relayCommandExtend2 ∨ cell.cellType = relayCommandExtend := by
  have types := checked.2.2.1
  split at types
  · exact Or.inr types
  · split at types
    · exact types
    · exact types.elim

theorem checkExtendCell_read (read : ExtendCell) (create : CreateCell) (isSet : Bool)
    (policy : RawPolicy) (checked : CheckExtendCell cell) (carries : Carries cell read create)
    (embedded : Embedded cell create) :
    CheckExtendCell { read with createCell := withPolicy create isSet policy } := by
  refine ⟨?_, ?_, ?_, embedded.notFast, embedded.checked⟩
  · rw [carries.node]
    exact checked.1
  · rw [carries.type]
    exact carries.address
  · change if create.cellType = cellCreate then read.cellType = _
      else if create.cellType = cellCreate2 then read.cellType = _ ∨ read.cellType = _ else False
    rw [carries.type]
    rcases embedded.type with isCreate2 | ⟨isCreate, isExtend⟩
    · rw [if_neg (by rw [isCreate2]; decide), if_pos isCreate2]
      exact checkExtendCell_type cell checked
    · rw [if_pos isCreate]
      exact isExtend

theorem extendCellFormat_split (delayPolicy : RawPolicy) (command : UInt8) (payload : List UInt8)
    (formatted : extendCellFormat options cell delayPolicy = .ok (command, payload)) :
    CheckExtendCell cell ∧ ∃ body, extendCellBody options cell = .ok (command, body) ∧
      payload = body ++ policyBytes (options.emitsPolicy delayPolicy) delayPolicy ∧
      (options.emitsPolicy delayPolicy = true →
        body.length + 16 + delayPolicySize ≤ relayPayloadSize) := by
  unfold extendCellFormat at formatted
  split at formatted
  · cases formatted
  · next checked =>
    refine ⟨not_not.mp checked, ?_⟩
    cases encoded : extendCellBody options cell with
    | error failure =>
      rw [encoded] at formatted
      cases formatted
    | ok result =>
      obtain ⟨command', body⟩ := result
      rw [encoded] at formatted
      simp only [bind, Except.bind] at formatted
      split at formatted
      · next emits =>
        split at formatted
        · cases formatted
        · next room =>
          cases formatted
          refine ⟨body, rfl, ?_, fun _ => Nat.not_lt.mp room⟩
          rw [policyBytes, if_pos emits, List.append_assoc]
      · next silent =>
        cases formatted
        refine ⟨_, rfl, ?_, fun emits => absurd emits silent⟩
        rw [policyBytes, if_neg silent, List.append_nil]

/-- What the next hop sees of the client's request. -/
structure Delivered (cell : CreateCell) (emits : Bool) (delayPolicy : RawPolicy)
    (received : CreateCell) : Prop where
  handshake : SameHandshake cell received
  isSet : received.delayPolicyIsSet = emits
  policy : emits = true → received.delayPolicy = delayPolicy

/-- If a client formats an extend cell, the relay at the end of its circuit parses it
and formats the create cell in it, and the next hop sees the handshake of the
client and, exactly if the client appended one, the policy of the client. In
`before` are the bytes of the relay's cell in front of the payload, which end
with the payload's length; `memory` is what follows the next hop's cell. -/
theorem extendCellFormat_delivered (options : OnionOptions) (cell : ExtendCell)
    (delayPolicy : RawPolicy) (command : UInt8) (payload : List UInt8)
    (formatted : extendCellFormat options cell delayPolicy = .ok (command, payload))
    (plain : ∀ command body, extendCellBody options cell = .ok (command, body) →
      ¬ EndsInPolicy body)
    (kept : AddressKept cell) (noMagic : NoNtorMagic cell) (before : Bytes 16)
    (header : before.val.drop 14 = be16 (UInt16.ofNat payload.length)) (memory : List UInt8) :
    ∃ parsed create, extendCellParse before command payload = .ok parsed ∧
      createCellFormatRelayed parsed.createCell = .ok create ∧
      (Recognised cell.createCell.handshakeType →
        ∃ received, createCellParse create.1 create.2 memory = .ok received ∧
          Delivered cell.createCell (options.emitsPolicy delayPolicy) delayPolicy received) := by
  obtain ⟨checked, body, encoded, whole, room⟩ :=
    extendCellFormat_split options cell delayPolicy command payload formatted
  obtain ⟨commandEq, create, reads⟩ :=
    extendCellBody_reads options cell checked kept command body encoded
  generalize options.emitsPolicy delayPolicy = emits at whole room ⊢
  subst whole commandEq
  obtain ⟨read, readEq, carries⟩ := reads.read (policyBytes emits delayPolicy)
  have noted := notePolicy_formatted before body emits delayPolicy (plain _ body encoded) header
    read create carries.create reads.embedded.noPolicy
  have length : (body ++ policyBytes emits delayPolicy).length ≤ relayPayloadSize := by
    rw [List.length_append, policyBytes_length]
    cases emits with
    | false => exact reads.short
    | true => exact room rfl
  have roomy : Roomy (withPolicy create emits delayPolicy) := by
    have start := reads.room
    have short := reads.short
    change (wireHeader create).length + create.handshakeLen.toNat + _ ≤ _
    cases emits with
    | false =>
      simp only [withPolicy, Bool.false_eq_true, if_false, relayPayloadSize, cellPayloadSize]
        at short ⊢
      omega
    | true =>
      have room := room rfl
      simp only [withPolicy, if_true, relayPayloadSize, cellPayloadSize, delayPolicySize]
        at room ⊢
      omega
  refine ⟨{ read with createCell := withPolicy create emits delayPolicy }, _, ?_,
    roomy.formats true reads.embedded.checked, fun recognised => ?_⟩
  · rw [extendCellParse_eq_ok_iff]
    exact ⟨length, read, readEq, noted.symm,
      checkExtendCell_read cell read create emits delayPolicy checked carries reads.embedded⟩
  · obtain ⟨relayed, same, magic⟩ := reads.embedded.same recognised noMagic
    refine ⟨_, createCellParse_wire (withPolicy create emits delayPolicy) relayed roomy
      (fun _ => reads.embedded.notFast) magic memory, ⟨same.type, same.length, ?_⟩, rfl, ?_⟩
    · rw [readBack_skin _ roomy.fits]
      exact same.skin
    · rintro rfl
      rfl

/-! ## Three extend cells -/

theorem not_endsInPolicy (body : List UInt8)
    (other : bytesAt body (body.length - (16 + delayPolicySize)) 16 ≠ delayPolicyMagic.val) :
    ¬ EndsInPolicy body := by
  rintro ⟨front, policy, size, rfl⟩
  apply other
  apply bytesAt_of_append
  · simp only [List.length_append, size, delayPolicyMagic.property]
    omega
  · exact delayPolicyMagic.property

/-- The bytes in front of a relay payload, all zero but for the length. -/
def relayBefore (payload : List UInt8) : Bytes 16 :=
  ⟨List.replicate 14 0 ++ be16 (UInt16.ofNat payload.length), by simp⟩

/-- The way of a handshake from the client to the next hop. -/
def forwardHandshake (options : OnionOptions) (cell : ExtendCell) (delayPolicy : RawPolicy) :
    Result CreateCell := do
  let (command, payload) ← extendCellFormat options cell delayPolicy
  let parsed ← extendCellParse (relayBefore payload) command payload
  let create ← createCellFormatRelayed parsed.createCell
  createCellParse create.1 create.2 []

def sampleOptions : OnionOptions := ⟨-1, false, true⟩

def sampleRawPolicy : RawPolicy := fit delayPolicySize [2]

/-- An ntor handshake in an EXTEND2 cell. -/
def ntorExtendCell : ExtendCell where
  cellType := relayCommandExtend2
  orportIpv4 := ⟨.inet 167772161, 9001⟩
  orportIpv6 := ⟨.unspec, 0⟩
  nodeId := fit digestLen [1]
  edPubkey := fit 32 []
  createCell := ⟨cellCreate2, onionHandshakeTypeNtor, UInt16.ofNat ntorOnionskinLen,
    fit onionskinSize [7], false, fit delayPolicySize []⟩

def ntorExtendPayload : List UInt8 :=
  match extendCellFormat sampleOptions ntorExtendCell sampleRawPolicy with
  | .ok (_, payload) => payload
  | .error _ => []

/-- A TAP handshake in an EXTEND cell; its onionskin begins like an ntor one. -/
def magicTapCell : ExtendCell :=
  { ntorExtendCell with
    cellType := relayCommandExtend
    createCell := ⟨cellCreate, onionHandshakeTypeTap, UInt16.ofNat tapOnionskinChallengeLen,
      fit onionskinSize ntorCreateMagic.val, false, fit delayPolicySize []⟩ }

/-- An IPv6 address where the IPv4 address of an EXTEND cell should be. -/
def wrongFamilyCell : ExtendCell :=
  { magicTapCell with
    orportIpv4 := ⟨.inet6 (fit 16 [32, 1]), 9001⟩
    createCell := { magicTapCell.createCell with onionskin := fit onionskinSize [7] } }

theorem extendCellFormat_delivered_ntor :
    ∃ parsed create, extendCellParse (relayBefore ntorExtendPayload) relayCommandExtend2
        ntorExtendPayload = .ok parsed ∧
      createCellFormatRelayed parsed.createCell = .ok create ∧
      (Recognised ntorExtendCell.createCell.handshakeType →
        ∃ received, createCellParse create.1 create.2 [] = .ok received ∧
          Delivered ntorExtendCell.createCell (sampleOptions.emitsPolicy sampleRawPolicy)
            sampleRawPolicy received) := by
  have plain : ∀ command body, extendCellBody sampleOptions ntorExtendCell = .ok (command, body) →
      ¬ EndsInPolicy body := by
    rintro command body ⟨⟩
    apply not_endsInPolicy
    decide +kernel
  exact extendCellFormat_delivered sampleOptions ntorExtendCell sampleRawPolicy _
    ntorExtendPayload (by rfl) plain (Or.inl ⟨by decide, _, rfl⟩) (by decide) _ rfl []

/-- Both cells are formatted, and neither ends in a policy by itself; the next hop
takes the first handshake for another one, and never sees the second. -/
theorem forwardHandshake_differs :
    ((∀ command body, extendCellBody sampleOptions magicTapCell = .ok (command, body) →
        ¬ EndsInPolicy body) ∧
      (extendCellFormat sampleOptions magicTapCell sampleRawPolicy).toOption.isSome = true ∧
      (forwardHandshake sampleOptions magicTapCell sampleRawPolicy).toOption.map
        CreateCell.handshakeType = some onionHandshakeTypeNtor) ∧
    (∀ command body, extendCellBody sampleOptions wrongFamilyCell = .ok (command, body) →
        ¬ EndsInPolicy body) ∧
      (extendCellFormat sampleOptions wrongFamilyCell sampleRawPolicy).toOption.isSome = true ∧
      (forwardHandshake sampleOptions wrongFamilyCell sampleRawPolicy).toOption = none := by
  refine ⟨⟨?_, by decide +kernel, by decide +kernel⟩, ?_, by decide +kernel, by decide +kernel⟩
  · rintro command body ⟨⟩
    apply not_endsInPolicy
    decide +kernel
  · rintro command body ⟨⟩
    apply not_endsInPolicy
    decide +kernel

end RendezMix.Guarantees
