import RendezMix.Guarantees.ExtendCells

/-!
# Extend cells that stop a relay

The policy of an extend cell is looked for before the end of the payload,
wherever the handshake ends. A handshake long enough to reach into those bytes
can hold what is taken for a policy, and then the create cell has no room for
both.
-/
namespace RendezMix.Guarantees
open Source Library.ByteStrings

/-! ## The embedded create cell -/

variable (before : Bytes 16) (payload : List UInt8) (body : Extend2CellBody)

section

variable (n : Nat) (input window : List UInt8) (cell : ExtendCell)

theorem notePolicy_handshakeLen :
    (notePolicy window cell).createCell.handshakeLen = cell.createCell.handshakeLen := by
  unfold notePolicy
  split <;> rfl

theorem notePolicy_cellType :
    (notePolicy window cell).createCell.cellType = cell.createCell.cellType := by
  unfold notePolicy
  split <;> rfl

theorem notePolicy_isSet :
    (notePolicy window cell).createCell.delayPolicyIsSet = true ↔
      window.take 16 = delayPolicyMagic.val := by
  unfold notePolicy
  split
  · next found => exact iff_of_true rfl found
  · next silent => exact iff_of_false (by simp) silent

theorem extendCellFromExtend1CellBody_handshakeLen (body : Extend1CellBody) :
    (extendCellFromExtend1CellBody body).createCell.handshakeLen.toNat ≤
      tapOnionskinChallengeLen := by
  unfold extendCellFromExtend1CellBody
  by_cases magic : bytesAt body.onionskin.val 0 16 = ntorCreateMagic.val
  · simp only [if_pos magic]
    decide
  · simp only [if_neg magic]
    decide

theorem extendCellFromExtend2CellBody_createCell (read : ExtendCell) (accepted : extendCellFromExtend2CellBody body = some read) :
    read.createCell.cellType = cellCreate2 ∧
      read.createCell.handshakeLen = body.create2.handshakeLen ∧
      read.createCell.handshakeLen.toNat ≤ onionskinSize := by
  unfold extendCellFromExtend2CellBody at accepted
  obtain ⟨found, _, accepted⟩ := Option.bind_eq_some_iff.mp accepted
  split at accepted
  · cases accepted
  · split at accepted
    · cases accepted
    · obtain ⟨create, embedded, accepted⟩ := Option.bind_eq_some_iff.mp accepted
      cases accepted
      unfold createCellFromCreate2CellBody at embedded
      split at embedded
      · cases embedded
      · next fits =>
        cases embedded
        exact ⟨rfl, rfl, Nat.not_lt.mp fits⟩

/-! ## The assertion -/

/-- Payloads of EXTEND2 cells that end in a policy and whose handshake leaves no room
for one in a create cell. -/
def OverlongHandshake (command : UInt8) (payload : List UInt8) : Prop :=
  command = relayCommandExtend2 ∧
    bytesAt payload (payload.length - (16 + delayPolicySize)) 16 = delayPolicyMagic.val ∧
    ∃ body ∈ extend2CellBodyParse payload,
      cellPayloadSize < 4 + body.create2.handshakeLen.toNat + (16 + delayPolicySize)

theorem policyWindow_take (long : 16 + delayPolicySize ≤ payload.length) :
    (policyWindow before payload).take 16 =
      bytesAt payload (payload.length - (16 + delayPolicySize)) 16 := by
  have start : 16 + payload.length - (16 + delayPolicySize) =
      before.val.length + (payload.length - (16 + delayPolicySize)) := by
    rw [before.property]
    omega
  rw [policyWindow, start, List.drop_length_add_append, bytesAt]

theorem takeBytes_length (front : Bytes n) (rest : List UInt8)
    (taken : takeBytes n input = some (front, rest)) : input.length = n + rest.length := by
  unfold takeBytes at taken
  split at taken
  · next room =>
    cases taken
    rw [List.length_drop]
    omega
  · cases taken

theorem create2CellBodyParse_length (body : Create2CellBody)
    (parsed : create2CellBodyParse input = some body) :
    4 + body.handshakeLen.toNat ≤ input.length := by
  unfold create2CellBodyParse at parsed
  obtain ⟨⟨type, afterType⟩, first, parsed⟩ := Option.bind_eq_some_iff.mp parsed
  obtain ⟨⟨length, afterLength⟩, second, parsed⟩ := Option.bind_eq_some_iff.mp parsed
  obtain ⟨⟨data, afterData⟩, third, parsed⟩ := Option.bind_eq_some_iff.mp parsed
  cases parsed
  have one := takeBytes_length _ _ _ _ first
  have two := takeBytes_length _ _ _ _ second
  have three := takeBytes_length _ _ _ _ third
  simp only at one two three ⊢
  omega

theorem linkSpecifiersParse_length (ls : List LinkSpecifier) (rest : List UInt8)
    (parsed : linkSpecifiersParse n input = some (ls, rest)) : rest.length ≤ input.length := by
  induction n generalizing input ls with
  | zero =>
    cases parsed
    exact le_rfl
  | succ n ih =>
    obtain ⟨⟨head, afterHead⟩, first, parsed⟩ := Option.bind_eq_some_iff.mp parsed
    obtain ⟨⟨tail, afterTail⟩, second, parsed⟩ := Option.bind_eq_some_iff.mp parsed
    cases parsed
    have shorter := ih _ _ second
    unfold linkSpecifierParse at first
    split at first
    · obtain ⟨⟨body, afterBody⟩, taken, first⟩ := Option.bind_eq_some_iff.mp first
      obtain ⟨specifier, _, first⟩ := Option.bind_eq_some_iff.mp first
      cases first
      have front := takeBytes_length _ _ _ _ taken
      simp only [List.length_cons] at front shorter ⊢
      omega
    · cases first

end

theorem extend2CellBodyParse_length (parsed : extend2CellBodyParse payload = some body) :
    4 + body.create2.handshakeLen.toNat < payload.length := by
  unfold extend2CellBodyParse at parsed
  split at parsed
  · cases parsed
  · obtain ⟨⟨ls, afterLs⟩, first, parsed⟩ := Option.bind_eq_some_iff.mp parsed
    obtain ⟨create2, second, parsed⟩ := Option.bind_eq_some_iff.mp parsed
    cases parsed
    have short := linkSpecifiersParse_length _ _ _ _ first
    have long := create2CellBodyParse_length _ _ second
    simp only [List.length_cons] at short long ⊢
    omega

/-- A relay that accepts an extend cell formats the create cell in it without a failed
assertion, exactly unless the handshake is too long for the policy after it. -/
theorem extendCellParse_noAssert (command : UInt8) (payload : List UInt8) (cell : ExtendCell) (accepted : extendCellParse before command payload = .ok cell) :
    createCellFormatRelayed cell.createCell ≠ .error .assertion ↔
      ¬ OverlongHandshake command payload := by
  obtain ⟨_, read, readEq, rfl, checked⟩ :=
    (extendCellParse_eq_ok_iff before command payload cell).mp accepted
  have checkedCreate := checked.2.2.2.2
  have lengthEq := notePolicy_handshakeLen (policyWindow before payload) read
  have typeEq := notePolicy_cellType (policyWindow before payload) read
  have setIff := notePolicy_isSet (policyWindow before payload) read
  generalize (notePolicy (policyWindow before payload) read).createCell = create
    at checkedCreate lengthEq typeEq setIff ⊢
  unfold readExtend at readEq
  unfold createCellFormatRelayed
  apply not_congr
  split at readEq
  · next isExtend =>
    obtain ⟨body, _, rfl⟩ := Option.map_eq_some_iff.mp readEq
    have short := extendCellFromExtend1CellBody_handshakeLen body
    rw [← lengthEq] at short
    have header := wireHeader_length_le create
    have fits : create.handshakeLen.toNat ≤ onionskinSize := short.trans (by decide)
    have room : wireLength create ≤ cellPayloadSize := by
      simp only [wireLength, tapOnionskinChallengeLen, cellPayloadSize, delayPolicySize]
        at short ⊢
      split <;> omega
    rw [createCellFormatImpl_eq create true checkedCreate fits, if_neg (by omega)]
    constructor
    · rintro ⟨⟩
    · rintro ⟨isExtend2, _⟩
      rw [isExtend] at isExtend2
      exact absurd isExtend2 (by decide)
  · split at readEq
    · next isExtend2 =>
      obtain ⟨body, parsed, embedded⟩ := Option.bind_eq_some_iff.mp readEq
      obtain ⟨isCreate2, fieldEq, fits⟩ := extendCellFromExtend2CellBody_createCell _ _ embedded
      rw [← typeEq] at isCreate2
      rw [← lengthEq] at fieldEq fits
      have header : (wireHeader create).length = 4 := by
        rw [wireHeader_create2 create isCreate2, List.length_append, be16_length, be16_length]
      rw [createCellFormatImpl_eq create true checkedCreate fits]
      constructor
      · intro failed
        split at failed
        · next overlong =>
          obtain ⟨isSet, beyond⟩ := overlong
          rw [wireLength, header, isSet, if_pos rfl, fieldEq] at beyond
          have length := extend2CellBodyParse_length payload body parsed
          refine ⟨isExtend2, ?_, body, parsed, beyond⟩
          rw [← policyWindow_take before payload]
          · exact setIff.mp isSet
          · simp only [cellPayloadSize, delayPolicySize] at beyond ⊢
            omega
        · cases failed
      · rintro ⟨_, magic, body', parsed', beyond⟩
        rw [parsed] at parsed'
        cases parsed'
        have length := extend2CellBodyParse_length payload body parsed
        have isSet : create.delayPolicyIsSet = true := by
          rw [setIff, policyWindow_take]
          · exact magic
          · simp only [cellPayloadSize, delayPolicySize] at beyond ⊢
            omega
        apply if_pos
        refine ⟨isSet, ?_⟩
        rw [wireLength, header, isSet, if_pos rfl, fieldEq]
        exact beyond
    · cases readEq

/-! ## Two payloads -/

/-- An EXTEND2 payload with an IPv4 address, an identity and the handshake `data`. -/
def extend2Payload (handshakeType : UInt16) (data : List UInt8) : List UInt8 :=
  [2, 0, 6, 10, 0, 0, 1, 35, 41, 2, 20] ++ List.replicate 20 1 ++
    be16 handshakeType ++ be16 (UInt16.ofNat data.length) ++ data

/-- An ntor handshake. -/
def ntorPayload : List UInt8 :=
  extend2Payload onionHandshakeTypeNtor (List.replicate ntorOnionskinLen 7)

/-- What is read of it, without a policy. -/
def ntorParsed : ExtendCell where
  cellType := relayCommandExtend2
  orportIpv4 := ⟨.inet 167772161, 9001⟩
  orportIpv6 := ⟨.unspec, 0⟩
  nodeId := ⟨List.replicate digestLen 1, rfl⟩
  edPubkey := fit 32 []
  createCell := ⟨cellCreate2, onionHandshakeTypeNtor, UInt16.ofNat ntorOnionskinLen,
    fit onionskinSize (List.replicate ntorOnionskinLen 7), false, fit delayPolicySize []⟩

/-- An ntor-v3 handshake of 458 bytes, which ends like a policy. -/
def overlongPayload : List UInt8 :=
  extend2Payload onionHandshakeTypeNtorV3
    (List.replicate 410 7 ++ delayPolicyMagic.val ++ List.replicate 32 0)

/-- The cell that a relay makes of an extend cell. -/
def relayedCreate (before : Bytes 16) (command : UInt8) (payload : List UInt8) :
    Result (UInt8 × CellPayload) := do
  let cell ← extendCellParse before command payload
  createCellFormatRelayed cell.createCell

theorem extendCellParse_noAssert_ntor :
    ∃ cell, extendCellParse (fit 16 []) relayCommandExtend2 ntorPayload = .ok cell ∧
      (createCellFormatRelayed cell.createCell ≠ .error .assertion ↔
        ¬ OverlongHandshake relayCommandExtend2 ntorPayload) := by
  have accepted : extendCellParse (fit 16 []) relayCommandExtend2 ntorPayload =
      .ok ntorParsed := by decide +kernel
  exact ⟨ntorParsed, accepted, extendCellParse_noAssert _ _ _ _ accepted⟩

/-- The relay accepts this payload, and then stops. -/
theorem extendCellParse_asserts :
    overlongPayload.length ≤ relayPayloadSize ∧
      (extendCellParse (fit 16 []) relayCommandExtend2 overlongPayload).toOption.isSome = true ∧
      relayedCreate (fit 16 []) relayCommandExtend2 overlongPayload = .error .assertion := by
  refine ⟨?_, ?_, ?_⟩
  · decide +kernel
  · decide +kernel
  · decide +kernel

end RendezMix.Guarantees
