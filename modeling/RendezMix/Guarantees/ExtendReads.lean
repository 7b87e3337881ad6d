import Mathlib.Algebra.Group.Action.Defs
import Mathlib.Algebra.Order.BigOperators.Group.List
import RendezMix.Guarantees.CreateReads
import RendezMix.Guarantees.ExtendAsserts

/-!
# What the parsers of extend and extended cells read

A policy is looked for before the end of the payload of an extend cell, and the answer to one
behind the reply in an extended cell. A short payload does not reach back far enough for the first,
and need not reach on far enough for the second, so that both may be looked for outside of it. The
parser of extend cells is never misled by that; that of extended cells is.
-/
namespace RendezMix.Guarantees
open Source Library.ByteStrings Library.MemoryReads Recording

/-! ## The size of an extend cell -/

/-- What a link specifier takes in a payload. -/
def specifierSize (ls : LinkSpecifier) : Nat := 2 + ls.body.length

section

variable {n : Nat} (command : UInt8) {body : List UInt8} {ls : LinkSpecifier}

theorem addressBody_length (specifier : Bytes n → Bytes 2 → LinkSpecifier)
    (size : ∀ addr port, (specifier addr port).body.length = n + 2)
    (parsed : ((takeBytes n body).bind fun addr => (takeBytes 2 addr.2).bind fun port =>
      if port.2 ≠ [] then none else some (specifier addr.1 port.1)) = some ls) :
    ls.body.length = body.length := by
  obtain ⟨addr, first, parsed⟩ := Option.bind_eq_some_iff.mp parsed
  obtain ⟨port, second, parsed⟩ := Option.bind_eq_some_iff.mp parsed
  have one := takeBytes_length _ _ _ _ first
  have two := takeBytes_length _ _ _ _ second
  split at parsed
  · cases parsed
  · next done =>
    cases parsed
    rw [not_not.mp done, List.length_nil] at two
    rw [size, one, two]

theorem idBody_length (specifier : Bytes n → LinkSpecifier)
    (size : ∀ id, (specifier id).body.length = n) (parsed : ((takeBytes n body).bind fun id =>
      if id.2 ≠ [] then none else some (specifier id.1)) = some ls) :
    ls.body.length = body.length := by
  obtain ⟨id, first, parsed⟩ := Option.bind_eq_some_iff.mp parsed
  have one := takeBytes_length _ _ _ _ first
  split at parsed
  · cases parsed
  · next done =>
    cases parsed
    rw [not_not.mp done] at one
    exact (size id.1).trans one.symm

theorem linkSpecifierOfBody_length (lsType : UInt8) (body : List UInt8) (ls : LinkSpecifier)
    (parsed : linkSpecifierOfBody lsType body = some ls) : ls.body.length = body.length := by
  unfold linkSpecifierOfBody at parsed
  split at parsed
  · exact addressBody_length (fun (addr : Bytes 4) port => .ipv4 (getUint32 addr.val)
      (getUint16 port.val)) (fun _ _ => by
        simp only [LinkSpecifier.body, List.length_append, be32_length, be16_length]) parsed
  · split at parsed
    · exact addressBody_length (fun addr port => .ipv6 addr (getUint16 port.val))
        (fun addr _ => by
          simp only [LinkSpecifier.body, List.length_append, addr.property, be16_length]) parsed
    · split at parsed
      · exact idBody_length .legacyId (fun id => id.property) parsed
      · split at parsed
        · exact idBody_length .ed25519Id (fun id => id.property) parsed
        · cases parsed
          rfl

theorem linkSpecifiersParse_size (n : Nat) (input : List UInt8) (ls : List LinkSpecifier)
    (rest : List UInt8) (parsed : linkSpecifiersParse n input = some (ls, rest)) :
    ls.length = n ∧ (ls.map specifierSize).sum + rest.length = input.length := by
  induction n generalizing input ls with
  | zero =>
    cases parsed
    exact ⟨rfl, Nat.zero_add _⟩
  | succ n ih =>
    obtain ⟨⟨head, afterHead⟩, first, parsed⟩ := Option.bind_eq_some_iff.mp parsed
    obtain ⟨⟨tail, afterTail⟩, second, parsed⟩ := Option.bind_eq_some_iff.mp parsed
    cases parsed
    obtain ⟨count, size⟩ := ih _ _ second
    unfold linkSpecifierParse at first
    split at first
    · obtain ⟨⟨body, afterBody⟩, taken, first⟩ := Option.bind_eq_some_iff.mp first
      obtain ⟨specifier, ofBody, first⟩ := Option.bind_eq_some_iff.mp first
      cases first
      have front := takeBytes_length _ _ _ _ taken
      have whole := linkSpecifierOfBody_length _ _ _ ofBody
      simp only [List.length_cons, List.map_cons, List.sum_cons, specifierSize]
        at count front size ⊢
      omega
    · cases first

/-- What the specifiers that were found take at least. -/
def FoundSpecs.taken (found : FoundSpecs) : Nat :=
  (if found.foundRsaId then 22 else 0) + if found.foundIpv4 || found.foundIpv6 then 8 else 0

theorem note_taken (found after : FoundSpecs) (ls : LinkSpecifier)
    (noted : found.note ls = some after) :
    FoundSpecs.taken after ≤ FoundSpecs.taken found + specifierSize ls := by
  cases ls with
  | ipv4 addr port =>
    unfold FoundSpecs.note at noted
    simp only at noted
    split at noted
    · cases noted
      omega
    · cases noted
      simp only [FoundSpecs.taken, specifierSize, LinkSpecifier.body, Bool.true_or, if_true,
        List.length_append, be32_length, be16_length]
      omega
  | ipv6 addr port =>
    unfold FoundSpecs.note at noted
    simp only at noted
    split at noted
    · cases noted
      omega
    · cases noted
      have length := addr.property
      simp only [FoundSpecs.taken, specifierSize, LinkSpecifier.body, Bool.or_true, if_true,
        List.length_append, be16_length]
      omega
  | legacyId id =>
    unfold FoundSpecs.note at noted
    simp only at noted
    split at noted
    · cases noted
    · cases noted
      have length := id.property
      simp only [FoundSpecs.taken, specifierSize, LinkSpecifier.body, if_true]
      omega
  | ed25519Id id =>
    unfold FoundSpecs.note at noted
    simp only at noted
    split at noted
    · cases noted
    · cases noted
      exact Nat.le_add_right _ _
  | unrecognized lsType body =>
    cases noted
    exact Nat.le_add_right _ _

theorem foldlM_note_taken (specs : List LinkSpecifier) (start found : FoundSpecs)
    (noted : specs.foldlM FoundSpecs.note start = some found) :
    FoundSpecs.taken found ≤ FoundSpecs.taken start + (specs.map specifierSize).sum := by
  induction specs generalizing start with
  | nil =>
    cases noted
    exact le_rfl
  | cons ls specs ih =>
    rw [List.foldlM_cons] at noted
    obtain ⟨after, first, rest⟩ := Option.bind_eq_some_iff.mp noted
    have one := note_taken start after ls first
    have more := ih after rest
    simp only [List.map_cons, List.sum_cons]
    omega

/-- A cell that is read is long enough for the policy to be looked for in it, up to some bytes of
which the first is a small number. -/
theorem readExtend_size (payload : List UInt8) (read : ExtendCell)
    (readEq : readExtend command payload = some read) :
    35 ≤ payload.length ∧
      (payload.length < 16 + delayPolicySize →
        ∃ nSpec rest, payload = nSpec :: rest ∧ nSpec.toNat < 48) := by
  unfold readExtend at readEq
  split at readEq
  · obtain ⟨body, parsed, _⟩ := Option.map_eq_some_iff.mp readEq
    obtain ⟨⟨addr, rest₁⟩, first, parsed⟩ := Option.bind_eq_some_iff.mp parsed
    obtain ⟨⟨port, rest₂⟩, second, parsed⟩ := Option.bind_eq_some_iff.mp parsed
    obtain ⟨⟨onionskin, rest₃⟩, third, _⟩ := Option.bind_eq_some_iff.mp parsed
    have one := takeBytes_length _ _ _ _ first
    have two := takeBytes_length _ _ _ _ second
    have three := takeBytes_length _ _ _ _ third
    simp only [delayPolicySize] at one two three ⊢
    exact ⟨by omega, fun short => by omega⟩
  · split at readEq
    · obtain ⟨body, parsed, embedded⟩ := Option.bind_eq_some_iff.mp readEq
      unfold extend2CellBodyParse at parsed
      split at parsed
      · cases parsed
      · next nSpec input =>
        obtain ⟨⟨ls, afterLs⟩, specs, parsed⟩ := Option.bind_eq_some_iff.mp parsed
        obtain ⟨create2, embeddedCreate, parsed⟩ := Option.bind_eq_some_iff.mp parsed
        cases parsed
        obtain ⟨count, size⟩ := linkSpecifiersParse_size _ _ _ _ specs
        have long := create2CellBodyParse_length _ _ embeddedCreate
        obtain ⟨found, noted, embedded⟩ := Option.bind_eq_some_iff.mp embedded
        have taken := foldlM_note_taken _ _ _ noted
        have twice : 2 * ls.length ≤ (ls.map specifierSize).sum := by
          have each := List.card_nsmul_le_sum (ls.map specifierSize) 2 (by
            intro size member
            obtain ⟨spec, _, rfl⟩ := List.mem_map.mp member
            exact Nat.le_add_right _ _)
          rw [List.length_map, smul_eq_mul] at each
          omega
        split at embedded
        · cases embedded
        · next rsa =>
          split at embedded
          · cases embedded
          · next ip =>
            have both : FoundSpecs.taken found = 30 := by
              unfold FoundSpecs.taken
              cases rsaEq : found.foundRsaId with
              | false => exact absurd rsaEq rsa
              | true =>
                cases v4 : found.foundIpv4 with
                | true => rfl
                | false =>
                  cases v6 : found.foundIpv6 with
                  | true => rfl
                  | false => exact absurd ⟨v4, v6⟩ ip
            have start : FoundSpecs.taken ⟨{ zeroExtendCell with cellType := relayCommandExtend2 },
              false, false, false, false⟩ = 0 := rfl
            rw [both, start] at taken
            simp only [List.length_cons, delayPolicySize] at size taken ⊢
            exact ⟨by omega, fun short => ⟨nSpec, input, rfl, by omega⟩⟩
    · cases readEq

/-! ## Extend cells -/

theorem extendCellParse_eq (before : Bytes 16) (command : UInt8) (payload : List UInt8) :
    extendCellParse before command payload =
      if payload.length > relayPayloadSize then .error .rejected
      else match readExtend command payload with
        | none => .error .rejected
        | some read =>
          if CheckExtendCell (notePolicy (policyWindow before payload) read) then
            .ok (notePolicy (policyWindow before payload) read)
          else .error .rejected := by
  unfold extendCellParse readExtend
  by_cases long : payload.length > relayPayloadSize
  · rw [if_pos long, if_pos long]
    rfl
  · rw [if_neg long, if_neg long]
    by_cases isExtend : command = relayCommandExtend
    · simp only [if_pos isExtend]
      cases extend1CellBodyParse payload <;> rfl
    · simp only [if_neg isExtend]
      by_cases isExtend2 : command = relayCommandExtend2
      · simp only [if_pos isExtend2]
        cases (extend2CellBodyParse payload).bind extendCellFromExtend2CellBody <;> rfl
      · simp only [if_neg isExtend2]
        rfl

theorem policyWindow_short (before : Bytes 16) (command : UInt8) (payload : List UInt8)
    (read : ExtendCell) (readEq : readExtend command payload = some read)
    (short : payload.length < 16 + delayPolicySize) :
    (policyWindow before payload).take 16 ≠ delayPolicyMagic.val := by
  intro found
  obtain ⟨long, start⟩ := readExtend_size command payload read readEq
  obtain ⟨nSpec, rest, rfl, small⟩ := start short
  simp only [delayPolicySize] at short
  have member : nSpec ∈ delayPolicyMagic.val := by
    rw [← found]
    apply List.mem_of_getElem? (i := 48 - (nSpec :: rest).length)
    rw [policyWindow, List.getElem?_take_of_lt (by omega), List.getElem?_drop,
      List.getElem?_append_right (by rw [before.property, delayPolicySize]; omega),
      before.property]
    have first : 16 + (nSpec :: rest).length - (16 + delayPolicySize) +
        (48 - (nSpec :: rest).length) - 16 = 0 := by
      simp only [delayPolicySize]
      omega
    rw [first]
    rfl
  have high : ∀ byte ∈ delayPolicyMagic.val, 48 ≤ byte.toNat := by decide +kernel
  exact absurd (high nSpec member) (by omega)

theorem extendCellParse_before (before before' : Bytes 16) (command : UInt8)
    (payload : List UInt8) :
    extendCellParse before' command payload = extendCellParse before command payload := by
  rw [extendCellParse_eq, extendCellParse_eq]
  split
  · rfl
  · cases readEq : readExtend command payload with
    | none => rfl
    | some read =>
      have same : notePolicy (policyWindow before' payload) read =
          notePolicy (policyWindow before payload) read := by
        by_cases short : payload.length < 16 + delayPolicySize
        · unfold notePolicy
          rw [if_neg (policyWindow_short before' command payload read readEq short),
            if_neg (policyWindow_short before command payload read readEq short)]
        · have window : ∀ front : Bytes 16, policyWindow front payload =
              payload.drop (payload.length - (16 + delayPolicySize)) := by
            intro front
            have start : 16 + payload.length - (16 + delayPolicySize) =
                front.val.length + (payload.length - (16 + delayPolicySize)) := by
              rw [front.property]
              omega
            rw [policyWindow, start, List.drop_length_add_append]
          rw [window, window]
      simp only [same]

theorem relayPointer_advance (before : Bytes 16) (payload : List UInt8) :
    (relayPointer before payload).advance 16 = ⟨payload, 0⟩ := by
  unfold Pointer.advance relayPointer
  rw [List.drop_left' before.property]
  rfl

theorem extendCellBodyReading_result (payload : List UInt8) (index : Int) :
    (extendCellBodyReading command ⟨payload, index⟩ payload.length).result =
      readExtend command payload := by
  have whole : bytesAt payload 0 payload.length = payload := by
    rw [bytesAt_zero, List.take_length]
  unfold extendCellBodyReading readExtend
  split
  · rw [map_result, Pointer.read_result, whole]
  · split
    · rw [map_result, Pointer.read_result, whole]
    · rfl

end

theorem extendCellBodyReading_within (command : UInt8) (payload : List UInt8) :
    (extendCellBodyReading command ⟨payload, 0⟩ payload.length).Within 0 payload.length := by
  have inside : (Pointer.read ⟨payload, 0⟩ 0 payload.length).Within 0 payload.length := by
    rw [Pointer.read_within_iff]
    intro _
    simp
  unfold extendCellBodyReading
  split
  · rw [within_map]
    exact inside
  · split
    · rw [within_map]
      exact inside
    · exact within_pure _ _ _

theorem extendCellParseReading_within_iff (before : Bytes 16) (command : UInt8)
    (payload : List UInt8) (room : payload.length ≤ relayPayloadSize) :
    (extendCellParseReading before command payload).Within 0 payload.length ↔
      ((readExtend command payload).isSome = true → 16 + delayPolicySize ≤ payload.length) := by
  unfold extendCellParseReading
  rw [if_neg (Nat.not_lt.mpr room), relayPointer_advance, within_bind,
    and_iff_right (extendCellBodyReading_within command payload), extendCellBodyReading_result]
  cases readEq : readExtend command payload with
  | none => simp
  | some read =>
    simp only [Option.isSome_some, true_imp_iff]
    rw [within_bind, delayPolicyReading_within_iff]
    simp only [within_pure, and_true, relayPointer, delayPolicySize]
    constructor
    · intro inside
      omega
    · intro long
      refine ⟨by omega, by omega, fun _ => by omega⟩

/-! ## Extended cells -/

/-- The extended cell whose reply is at an offset of the buffer. -/
def extendedAt (command cellType : UInt8) (buffer : Bytes relayPayloadSize) (offset : Nat)
    (handshakeLen : UInt16) : ExtendedCell where
  cellType := command
  createdCell :=
    { cellType := cellType
      handshakeLen := handshakeLen
      reply := fit replySize (bytesAt buffer.val offset handshakeLen.toNat)
      delayPolicyIsSet :=
        bytesAt buffer.val (offset + handshakeLen.toNat) 16 = delayPolicyResponseMagic.val }

/-- The length that an EXTENDED2 cell says its handshake has. -/
def extended2HandshakeLen (buffer : Bytes relayPayloadSize) : UInt16 :=
  getUint16 (bytesAt buffer.val 0 2)

/-- The length of the handshake of an EXTENDED2 cell is accepted. -/
def Extended2Accepted (payload : RelayPayload) : Prop :=
  (extended2HandshakeLen payload.bytes).toNat ≤ relayPayloadSize - 2 ∧
    (extended2HandshakeLen payload.bytes).toNat ≤ sizeSub2 payload.length.toNat ∧
    2 + (extended2HandshakeLen payload.bytes).toNat + 16 ≤ relayPayloadSize

instance (payload : RelayPayload) : Decidable (Extended2Accepted payload) :=
  inferInstanceAs (Decidable (_ ∧ _ ∧ _))

section Extended

variable (payload : RelayPayload) (room : payload.length.toNat ≤ relayPayloadSize)

include room

theorem extendedCellParse_extended :
    extendedCellParse relayCommandExtended payload =
      if payload.length.toNat = tapOnionskinReplyLen then
        .ok (extendedAt relayCommandExtended cellCreated payload.bytes 0
          (UInt16.ofNat tapOnionskinReplyLen))
      else .error .rejected := by
  unfold extendedCellParse
  rw [if_neg (Nat.not_lt.mpr room)]
  by_cases size : payload.length.toNat = tapOnionskinReplyLen
  · simp only [if_pos size, if_neg (not_not.mpr size)]
    rfl
  · simp only [if_neg size, if_pos size]
    rfl

omit room in
/-- The length of the handshake is too long, leaves no room for the answer, or is accepted. -/
theorem extended2_cases :
    (((extended2HandshakeLen payload.bytes).toNat > relayPayloadSize - 2 ∨
        (extended2HandshakeLen payload.bytes).toNat > sizeSub2 payload.length.toNat) ∧
      ¬ Extended2Accepted payload) ∨
    ¬ ((extended2HandshakeLen payload.bytes).toNat > relayPayloadSize - 2 ∨
        (extended2HandshakeLen payload.bytes).toNat > sizeSub2 payload.length.toNat) ∧
      (2 + (extended2HandshakeLen payload.bytes).toNat + 16 > relayPayloadSize ∧
          ¬ Extended2Accepted payload ∨
        ¬ 2 + (extended2HandshakeLen payload.bytes).toNat + 16 > relayPayloadSize ∧
          Extended2Accepted payload) := by
  unfold Extended2Accepted
  omega

theorem extendedCellParse_extended2 :
    extendedCellParse relayCommandExtended2 payload =
      if Extended2Accepted payload then
        .ok (extendedAt relayCommandExtended2 cellCreated2 payload.bytes 2
          (extended2HandshakeLen payload.bytes))
      else .error .rejected := by
  have other : relayCommandExtended2 ≠ relayCommandExtended := by decide
  unfold extendedCellParse
  rw [if_neg (Nat.not_lt.mpr room)]
  rcases extended2_cases payload with ⟨long, rejected⟩ | ⟨short, ⟨late, rejected⟩ | ⟨fits, accepted⟩⟩
  · rw [if_neg rejected]
    exact if_pos long
  · rw [if_neg rejected]
    exact (if_neg short).trans (if_pos late)
  · rw [if_pos accepted]
    refine (if_neg short).trans ((if_neg fits).trans ?_)
    apply if_pos
    exact ⟨rfl, accepted.1⟩

theorem extendedCellParse_other (command : UInt8) (extended : command ≠ relayCommandExtended)
    (extended2 : command ≠ relayCommandExtended2) :
    extendedCellParse command payload = .error .rejected := by
  unfold extendedCellParse
  rw [if_neg (Nat.not_lt.mpr room)]
  simp only [if_neg extended, if_neg extended2]
  rfl

theorem extendedCellParseReading_extended_within_iff :
    (extendedCellParseReading relayCommandExtended payload).Within 0 payload.length.toNat ↔
      payload.length.toNat ≠ tapOnionskinReplyLen := by
  unfold extendedCellParseReading
  rw [if_neg (Nat.not_lt.mpr room), within_bind]
  unfold extendedCellReading
  rw [if_pos rfl]
  by_cases size : payload.length.toNat = tapOnionskinReplyLen
  · rw [if_neg (not_not.mpr size)]
    apply iff_of_false _ (not_not.mpr size)
    intro inside
    have magic := ((within_bind _ _ _ _).mp inside.2).1
    rw [Pointer.read_within_iff, Pointer.index] at magic
    have short := (magic (by decide)).2
    rw [size] at short
    change (0 : Int) + _ + _ ≤ _ at short
    exact absurd short (by decide)
  · rw [if_pos size]
    exact iff_of_true ⟨within_pure _ _ _, within_pure _ _ _⟩ size

theorem extendedCellParseReading_extended2_within_iff :
    (extendedCellParseReading relayCommandExtended2 payload).Within 0 payload.length.toNat ↔
      2 ≤ payload.length.toNat ∧ (Extended2Accepted payload →
        2 + (extended2HandshakeLen payload.bytes).toNat + 16 ≤ payload.length.toNat) := by
  unfold extendedCellParseReading
  rw [if_neg (Nat.not_lt.mpr room), within_bind]
  unfold extendedCellReading
  have front : (Pointer.read ⟨payload.bytes.val, 0⟩ 0 2).Within 0 payload.length.toNat ↔
      2 ≤ payload.length.toNat := by
    rw [Pointer.read_within_iff]
    simp only
    omega
  rw [if_neg (by decide), if_pos rfl, within_bind, bind_result,
    Pointer.read_result, and_assoc, front]
  apply and_congr_right
  intro two
  have left : sizeSub2 payload.length.toNat = payload.length.toNat - 2 := by
    unfold sizeSub2
    simp only [relayPayloadSize] at room
    omega
  rcases extended2_cases payload with ⟨long, rejected⟩ | ⟨short, fitting⟩
  · unfold extended2HandshakeLen at long
    simp only [if_pos long, rejected, false_imp_iff, iff_true, pure_result]
    exact ⟨within_pure _ _ _, within_pure _ _ _⟩
  · have reply : (Pointer.read ⟨payload.bytes.val, 0⟩ 2
        (extended2HandshakeLen payload.bytes).toNat).Within 0 payload.length.toNat := by
      rw [Pointer.read_within_iff]
      simp only
      omega
    unfold extended2HandshakeLen at short
    simp only [if_neg short, map_result, within_map]
    refine (and_iff_right reply).trans ?_
    rcases fitting with ⟨late, rejected⟩ | ⟨fits, accepted⟩
    · unfold extended2HandshakeLen at late
      simp only [rejected, false_imp_iff, if_pos late, within_pure]
    · unfold extended2HandshakeLen at fits
      simp only [accepted, true_imp_iff, if_neg fits, within_bind, within_pure,
        and_true, Pointer.read_within_iff]
      unfold extended2HandshakeLen
      omega

theorem extendedCellParseReading_other_within (command : UInt8)
    (extended : command ≠ relayCommandExtended) (extended2 : command ≠ relayCommandExtended2) :
    (extendedCellParseReading command payload).Within 0 payload.length.toNat := by
  unfold extendedCellParseReading
  rw [if_neg (Nat.not_lt.mpr room), within_bind]
  unfold extendedCellReading
  rw [if_neg extended, if_neg extended2]
  exact ⟨within_pure _ _ _, within_pure _ _ _⟩

end Extended

/-! ## Two buffers -/

/-- Both parsers return for every buffer what they return for this one, if only the payloads are the
same. -/
def Determined (before : Bytes 16) (command : UInt8) (buffer : Bytes relayPayloadSize)
    (length : Nat) : Prop :=
  ∀ (before' : Bytes 16) (buffer' : Bytes relayPayloadSize),
    buffer'.val.take length = buffer.val.take length →
      extendCellParse before' command (buffer'.val.take length) =
          extendCellParse before command (buffer.val.take length) ∧
        extendedCellParse command ⟨buffer', UInt16.ofNat length⟩ =
          extendedCellParse command ⟨buffer, UInt16.ofNat length⟩

/-- The payload of an extended cell says all that the parser returns. -/
def AnswerSettled (command : UInt8) (buffer : Bytes relayPayloadSize) (length : Nat) : Prop :=
  (command = relayCommandExtended → length ≠ tapOnionskinReplyLen) ∧
  (command = relayCommandExtended2 →
    if length < 2 then length = 1 ∧ 2 ≤ (buffer.val.headD 0).toNat
    else Extended2Accepted ⟨buffer, UInt16.ofNat length⟩ →
      2 + (extended2HandshakeLen buffer).toNat + 16 ≤ length ∨
        ¬ (buffer.val.take length).drop (2 + (extended2HandshakeLen buffer).toNat) <+:
          delayPolicyResponseMagic.val)

/-- The payload is followed by the rest of the answer to a policy. -/
def answered (payload : List UInt8) (offset : Nat) : Bytes relayPayloadSize :=
  fit relayPayloadSize (payload ++ delayPolicyResponseMagic.val.drop (payload.length - offset))

section Answers

variable {payload : List UInt8} {offset : Nat} (early : offset ≤ payload.length)
  (room : offset + 16 ≤ relayPayloadSize)

include early room

theorem answered_bytesAt (begun : payload.drop offset <+: delayPolicyResponseMagic.val) :
    bytesAt (answered payload offset).val offset 16 = delayPolicyResponseMagic.val := by
  obtain ⟨rest, whole⟩ := begun
  have tail : delayPolicyResponseMagic.val.drop (payload.length - offset) = rest := by
    rw [← whole, ← List.length_drop, List.drop_left]
  have bytes : payload ++ rest = payload.take offset ++ delayPolicyResponseMagic.val := by
    rw [← whole, ← List.append_assoc, List.take_append_drop]
  have start : (payload.take offset).length = offset := List.length_take_of_le early
  rw [answered, tail, bytes, fit_append _ _ _ (by omega), start,
    fit_val _ _ (by rw [delayPolicyResponseMagic.property]; omega)]
  exact bytesAt_of_append _ _ _ _ _ start delayPolicyResponseMagic.property

theorem padded_bytesAt (short : payload.length < offset + 16) :
    bytesAt (fit relayPayloadSize payload).val offset 16 ≠ delayPolicyResponseMagic.val := by
  intro same
  have last : (bytesAt (fit relayPayloadSize payload).val offset 16)[15]? = some 0 := by
    rw [bytesAt, List.getElem?_take_of_lt (by decide), List.getElem?_drop,
      fit_val _ _ (by omega), List.getElem?_append_right (by omega), List.getElem?_replicate,
      if_pos (by omega)]
  rw [same] at last
  exact absurd last (by decide)

end Answers

/-- Where the answer begins in the payload and ends behind it, the buffer does not say which answer it
is. -/
theorem exists_answers (buffer : Bytes relayPayloadSize) (length offset : Nat)
    (fits : length ≤ relayPayloadSize) (early : offset ≤ length) (late : length < offset + 16)
    (room : offset + 16 ≤ relayPayloadSize)
    (begun : (buffer.val.take length).drop offset <+: delayPolicyResponseMagic.val) :
    ∃ first second : Bytes relayPayloadSize,
      first.val.take length = buffer.val.take length ∧
      second.val.take length = buffer.val.take length ∧
      bytesAt first.val offset 16 = delayPolicyResponseMagic.val ∧
      bytesAt second.val offset 16 ≠ delayPolicyResponseMagic.val := by
  have taken : (buffer.val.take length).length = length :=
    List.length_take_of_le (fits.trans buffer.property.ge)
  refine ⟨answered (buffer.val.take length) offset, fit _ (buffer.val.take length), ?_, ?_, ?_, ?_⟩
  · rw [answered, fit_append _ _ _ (taken.le.trans fits), List.take_left' taken]
  · rw [fit_val _ _ (taken.le.trans fits), List.take_left' taken]
  · exact answered_bytesAt (early.trans taken.ge) room begun
  · exact padded_bytesAt (early.trans taken.ge) room (taken.le.trans_lt late)

theorem payloadLength (bytes : Bytes relayPayloadSize) (length : Nat)
    (room : length ≤ relayPayloadSize) :
    (RelayPayload.mk bytes (UInt16.ofNat length)).length.toNat = length := by
  simp only [relayPayloadSize] at room
  exact UInt16.toNat_ofNat_of_lt' (by change _ < 65536; omega)

theorem payloadLength_le {length : Nat} (room : length ≤ relayPayloadSize)
    (bytes : Bytes relayPayloadSize) :
    (RelayPayload.mk bytes (UInt16.ofNat length)).length.toNat ≤ relayPayloadSize := by
  rw [payloadLength _ _ room]
  exact room

theorem extended2HandshakeLen_congr {buffer buffer' : Bytes relayPayloadSize} {length : Nat}
    (same : buffer'.val.take length = buffer.val.take length) (two : 2 ≤ length) :
    extended2HandshakeLen buffer' = extended2HandshakeLen buffer := by
  unfold extended2HandshakeLen
  rw [bytesAt_congr same 0 2 two]

theorem extended2Accepted_congr {buffer buffer' : Bytes relayPayloadSize} {length : Nat}
    (same : buffer'.val.take length = buffer.val.take length) (two : 2 ≤ length) :
    Extended2Accepted ⟨buffer', UInt16.ofNat length⟩ ↔
      Extended2Accepted ⟨buffer, UInt16.ofNat length⟩ := by
  unfold Extended2Accepted
  rw [extended2HandshakeLen_congr same two]

/-- What is parsed of two buffers with the payload of this one is the same. -/
theorem Determined.parsed {before : Bytes 16} {command : UInt8} {buffer : Bytes relayPayloadSize}
    {length : Nat} (determined : Determined before command buffer length)
    (first second : Bytes relayPayloadSize) (same : first.val.take length = buffer.val.take length)
    (same' : second.val.take length = buffer.val.take length) :
    extendedCellParse command ⟨first, UInt16.ofNat length⟩ =
      extendedCellParse command ⟨second, UInt16.ofNat length⟩ := by
  rw [(determined before first same).2, (determined before second same').2]

section Settled

variable {before : Bytes 16} {buffer : Bytes relayPayloadSize} {length : Nat}
  (room : length ≤ relayPayloadSize)

include room

theorem not_determined_extended (size : length = tapOnionskinReplyLen) :
    ¬ Determined before relayCommandExtended buffer length := by
  intro determined
  obtain ⟨first, second, payload, payload', answer, none'⟩ :=
    exists_answers buffer length tapOnionskinReplyLen room size.ge (by omega) (by decide) (by
      rw [List.drop_eq_nil_of_le (by rw [List.length_take]; omega)]
      exact List.nil_prefix)
  have same := determined.parsed first second payload payload'
  rw [extendedCellParse_extended _ (payloadLength_le room _),
    extendedCellParse_extended _ (payloadLength_le room _),
    if_pos (by rw [payloadLength _ _ room]; exact size),
    if_pos (by rw [payloadLength _ _ room]; exact size)] at same
  have marks := congrArg (fun cell => cell.createdCell.delayPolicyIsSet) (Except.ok.inj same)
  have position : 0 + (UInt16.ofNat tapOnionskinReplyLen).toNat = tapOnionskinReplyLen := by decide
  simp only [extendedAt, position, answer, none', decide_true, decide_false] at marks
  cases marks

theorem not_determined_extended2_late (two : 2 ≤ length)
    (accepted : Extended2Accepted ⟨buffer, UInt16.ofNat length⟩)
    (late : length < 2 + (extended2HandshakeLen buffer).toNat + 16)
    (begun : (buffer.val.take length).drop (2 + (extended2HandshakeLen buffer).toNat) <+:
      delayPolicyResponseMagic.val) : ¬ Determined before relayCommandExtended2 buffer length := by
  intro determined
  have fits := accepted.2.1
  unfold sizeSub2 at fits
  rw [payloadLength _ _ room] at fits
  simp only at fits
  obtain ⟨first, second, payload, payload', answer, none'⟩ :=
    exists_answers buffer length (2 + (extended2HandshakeLen buffer).toNat) room
      (by simp only [relayPayloadSize] at room; omega) late accepted.2.2 begun
  have same := determined.parsed first second payload payload'
  rw [extendedCellParse_extended2 _ (payloadLength_le room _),
    extendedCellParse_extended2 _ (payloadLength_le room _),
    if_pos ((extended2Accepted_congr payload two).mpr accepted),
    if_pos ((extended2Accepted_congr payload' two).mpr accepted),
    extended2HandshakeLen_congr payload two, extended2HandshakeLen_congr payload' two] at same
  have marks := congrArg (fun cell => cell.createdCell.delayPolicyIsSet) (Except.ok.inj same)
  simp only [extendedAt, answer, none', decide_true, decide_false] at marks
  cases marks

omit room in
theorem extended2HandshakeLen_high (bytes : Bytes relayPayloadSize)
    (high : 2 ≤ (bytes.val.headD 0).toNat) : 512 ≤ (extended2HandshakeLen bytes).toNat := by
  obtain ⟨bytes, size⟩ := bytes
  match bytes with
  | [] => cases size
  | [_] => cases size
  | first :: second :: rest =>
    have front : bytesAt (first :: second :: rest) 0 2 = [first, second] := rfl
    unfold extended2HandshakeLen getUint16
    rw [front]
    have small := first.toNat_lt
    have small' := second.toNat_lt
    simp only [List.headD_cons] at high
    simp only [ofBigEndian, List.length_cons, List.length_nil, Nat.zero_add, Nat.pow_one,
      Nat.pow_zero, Nat.mul_one, Nat.add_zero, UInt16.toNat_ofNat']
    omega

omit room in
theorem extended2HandshakeLen_pair (high low : UInt8) :
    (extended2HandshakeLen (fit relayPayloadSize [high, low])).toNat =
      high.toNat * 256 + low.toNat := by
  have front : bytesAt (fit relayPayloadSize [high, low]).val 0 2 = [high, low] := by
    rw [bytesAt_zero]
    exact fit_take relayPayloadSize [high, low] (Nat.le_add_left 2 496)
  unfold extended2HandshakeLen getUint16
  rw [front]
  have small := high.toNat_lt
  have small' := low.toNat_lt
  simp only [ofBigEndian, List.length_cons, List.length_nil, Nat.zero_add, Nat.pow_one,
    Nat.pow_zero, Nat.mul_one, Nat.add_zero, UInt16.toNat_ofNat']
  omega

theorem not_determined_extended2_short (short : length < 2) (high : UInt8) (small : high.toNat < 2)
    (begins : length = 1 → buffer.val.headD 0 = high) :
    ¬ Determined before relayCommandExtended2 buffer length := by
  intro determined
  have payload : ∀ low : UInt8,
      (fit relayPayloadSize [high, low]).val.take length = buffer.val.take length := by
    intro low
    obtain ⟨bytes, size⟩ := buffer
    cases bytes with
    | nil => cases size
    | cons first rest =>
      cases length with
      | zero => rfl
      | succ n =>
        have one : n = 0 := by omega
        subst one
        rw [show first = high from begins rfl]
        rfl
  have accepted : ∀ low : UInt8, low.toNat < 2 →
      Extended2Accepted ⟨fit relayPayloadSize [high, low], UInt16.ofNat length⟩ := by
    intro low small'
    unfold Extended2Accepted sizeSub2
    rw [payloadLength _ _ room, extended2HandshakeLen_pair]
    simp only [relayPayloadSize]
    omega
  have same := determined.parsed _ _ (payload 0) (payload 1)
  rw [extendedCellParse_extended2 _ (payloadLength_le room _),
    extendedCellParse_extended2 _ (payloadLength_le room _),
    if_pos (accepted 0 (by decide)), if_pos (accepted 1 (by decide))] at same
  have lengths := congrArg (fun cell => cell.createdCell.handshakeLen.toNat) (Except.ok.inj same)
  simp only [extendedAt, extended2HandshakeLen_pair] at lengths
  have apart : (0 : UInt8).toNat ≠ (1 : UInt8).toNat := by decide
  omega

theorem AnswerSettled.of_determined {command : UInt8}
    (determined : Determined before command buffer length) :
    AnswerSettled command buffer length := by
  constructor
  · intro isExtended size
    subst isExtended
    exact not_determined_extended room size determined
  · intro isExtended2
    subst isExtended2
    split
    · next short =>
      by_cases none : length = 0
      · exact absurd determined (not_determined_extended2_short room short 0 (by decide)
          fun one => by omega)
      · refine ⟨by omega, ?_⟩
        by_contra small
        exact not_determined_extended2_short room short _ (not_le.mp small) (fun _ => rfl)
          determined
    · next two =>
      intro accepted
      by_contra unseen
      obtain ⟨late, begun⟩ := not_or.mp unseen
      exact not_determined_extended2_late room (not_lt.mp two) accepted (not_le.mp late)
        (not_not.mp begun) determined

omit room in
theorem extended2_rejected (one : length = 1) (high : 2 ≤ (buffer.val.headD 0).toNat)
    (bytes : Bytes relayPayloadSize) (same : bytes.val.take length = buffer.val.take length) :
    ¬ Extended2Accepted ⟨bytes, UInt16.ofNat length⟩ := by
  intro accepted
  have head : bytes.val.headD 0 = buffer.val.headD 0 := by
    rw [one] at same
    have first := congrArg (fun l => l.headD 0) same
    simpa [List.head?_take] using first
  have long := extended2HandshakeLen_high bytes (by rw [head]; exact high)
  have fits := accepted.1
  simp only [relayPayloadSize] at fits
  omega

/-- What the payload says of the answer in an EXTENDED2 cell, every buffer with it says. -/
theorem extendedAt_settled (accepted : Extended2Accepted ⟨buffer, UInt16.ofNat length⟩)
    (two : 2 ≤ length)
    (seen : 2 + (extended2HandshakeLen buffer).toNat + 16 ≤ length ∨
      ¬ (buffer.val.take length).drop (2 + (extended2HandshakeLen buffer).toNat) <+:
        delayPolicyResponseMagic.val)
    (buffer' : Bytes relayPayloadSize) (payload : buffer'.val.take length = buffer.val.take length) :
    extendedAt relayCommandExtended2 cellCreated2 buffer' 2 (extended2HandshakeLen buffer) =
      extendedAt relayCommandExtended2 cellCreated2 buffer 2 (extended2HandshakeLen buffer) := by
  have fits := accepted.2.1
  rw [payloadLength _ _ room, sizeSub2] at fits
  simp only [relayPayloadSize] at room fits
  have replies : bytesAt buffer'.val 2 (extended2HandshakeLen buffer).toNat =
      bytesAt buffer.val 2 (extended2HandshakeLen buffer).toNat :=
    bytesAt_congr payload _ _ (by omega)
  have marks : bytesAt buffer'.val (2 + (extended2HandshakeLen buffer).toNat) 16 =
        delayPolicyResponseMagic.val ↔
      bytesAt buffer.val (2 + (extended2HandshakeLen buffer).toNat) 16 =
        delayPolicyResponseMagic.val := by
    by_cases inside : 2 + (extended2HandshakeLen buffer).toNat + 16 ≤ length
    · rw [bytesAt_congr payload _ _ inside]
    · have plain := seen.resolve_left inside
      have silent : ∀ bytes : Bytes relayPayloadSize,
          bytes.val.take length = buffer.val.take length →
            bytesAt bytes.val (2 + (extended2HandshakeLen buffer).toNat) 16 ≠
              delayPolicyResponseMagic.val := by
        intro bytes same found
        apply plain
        rw [← same, List.drop_take, ← found, bytesAt]
        exact List.take_prefix_take_left (by omega)
      exact iff_of_false (silent _ payload) (silent _ rfl)
  unfold extendedAt
  simp only [replies, marks]

theorem extendedCellParse_settled {command : UInt8} (settled : AnswerSettled command buffer length)
    (buffer' : Bytes relayPayloadSize) (payload : buffer'.val.take length = buffer.val.take length) :
    extendedCellParse command ⟨buffer', UInt16.ofNat length⟩ =
      extendedCellParse command ⟨buffer, UInt16.ofNat length⟩ := by
  have fits := payloadLength_le room
  by_cases isExtended : command = relayCommandExtended
  · subst isExtended
    have other : ∀ bytes : Bytes relayPayloadSize,
        (RelayPayload.mk bytes (UInt16.ofNat length)).length.toNat ≠ tapOnionskinReplyLen := by
      intro bytes
      rw [payloadLength bytes length room]
      exact settled.1 rfl
    rw [extendedCellParse_extended _ (fits _), extendedCellParse_extended _ (fits _),
      if_neg (other _), if_neg (other _)]
  · by_cases isExtended2 : command = relayCommandExtended2
    · subst isExtended2
      have seen := settled.2 rfl
      rw [extendedCellParse_extended2 _ (fits _), extendedCellParse_extended2 _ (fits _)]
      split at seen
      · have rejected := extended2_rejected seen.1 seen.2
        rw [if_neg (rejected _ payload), if_neg (rejected _ rfl)]
      · next two =>
        have long := not_lt.mp two
        by_cases accepted : Extended2Accepted ⟨buffer, UInt16.ofNat length⟩
        · rw [if_pos accepted, if_pos ((extended2Accepted_congr payload long).mpr accepted),
            extended2HandshakeLen_congr payload long,
            extendedAt_settled room accepted long (seen accepted) buffer' payload]
        · rw [if_neg accepted, if_neg (mt (extended2Accepted_congr payload long).mp accepted)]
    · rw [extendedCellParse_other _ (fits _) command isExtended isExtended2,
        extendedCellParse_other _ (fits _) command isExtended isExtended2]

end Settled

/-! ## The payload and nothing else -/

/-- Both parsers read the payload only. -/
def ReadsInside (before : Bytes 16) (command : UInt8) (buffer : Bytes relayPayloadSize)
    (length : Nat) : Prop :=
  (extendCellParseReading before command (buffer.val.take length)).Within 0 length ∧
    (extendedCellParseReading command ⟨buffer, UInt16.ofNat length⟩).Within 0 length

/-- The policy of an extend cell would be in its payload, and the answer in an extended cell is. -/
def AnswerInside (command : UInt8) (buffer : Bytes relayPayloadSize) (length : Nat) : Prop :=
  ((readExtend command (buffer.val.take length)).isSome = true → 16 + delayPolicySize ≤ length) ∧
  (command = relayCommandExtended → length ≠ tapOnionskinReplyLen) ∧
  (command = relayCommandExtended2 →
    2 ≤ length ∧ (Extended2Accepted ⟨buffer, UInt16.ofNat length⟩ →
      2 + (extended2HandshakeLen buffer).toNat + 16 ≤ length))

theorem extendedCellParseReading_within_iff (command : UInt8) (payload : RelayPayload)
    (room : payload.length.toNat ≤ relayPayloadSize) :
    (extendedCellParseReading command payload).Within 0 payload.length.toNat ↔
      (command = relayCommandExtended → payload.length.toNat ≠ tapOnionskinReplyLen) ∧
      (command = relayCommandExtended2 →
        2 ≤ payload.length.toNat ∧ (Extended2Accepted payload →
          2 + (extended2HandshakeLen payload.bytes).toNat + 16 ≤ payload.length.toNat)) := by
  by_cases isExtended : command = relayCommandExtended
  · subst isExtended
    rw [extendedCellParseReading_extended_within_iff payload room, imp_iff_right rfl]
    exact (and_iff_left fun other => absurd other (by decide)).symm
  · by_cases isExtended2 : command = relayCommandExtended2
    · subst isExtended2
      rw [extendedCellParseReading_extended2_within_iff payload room, imp_iff_right rfl]
      exact (and_iff_right fun other => absurd other isExtended).symm
    · exact iff_of_true
        (extendedCellParseReading_other_within payload room command isExtended isExtended2)
        ⟨fun same => absurd same isExtended, fun same => absurd same isExtended2⟩

/-- What the parsers return is settled by the payload, and they read nothing else, exactly under the
two conditions. -/
theorem extendParsers_payload_iff (before : Bytes 16) (command : UInt8)
    (buffer : Bytes relayPayloadSize) (length : Nat) (room : length ≤ relayPayloadSize) :
    (Determined before command buffer length ↔ AnswerSettled command buffer length) ∧
      (ReadsInside before command buffer length ↔ AnswerInside command buffer length) := by
  have taken : (buffer.val.take length).length = length :=
    List.length_take_of_le (room.trans buffer.property.ge)
  constructor
  · constructor
    · intro determined
      exact AnswerSettled.of_determined room determined
    · intro settled before' buffer' payload
      rw [payload]
      exact ⟨extendCellParse_before before before' command _,
        extendedCellParse_settled room settled buffer' payload⟩
  · have extend := extendCellParseReading_within_iff before command (buffer.val.take length)
      (taken.le.trans room)
    have extended := extendedCellParseReading_within_iff command ⟨buffer, UInt16.ofNat length⟩
      (payloadLength_le room _)
    rw [taken] at extend
    rw [payloadLength _ _ room] at extended
    exact and_congr extend extended

/-- An EXTENDED2 cell with the reply to an ntor handshake, and what a buffer holds after it. -/
def ntorExtended2 (rest : List UInt8) : Bytes relayPayloadSize :=
  fit relayPayloadSize (be16 (UInt16.ofNat ntorReplyLen) ++ List.replicate ntorReplyLen 7 ++ rest)

theorem extendParsers_payload_iff_ntor :
    66 ≤ relayPayloadSize ∧
      (Determined (fit 16 []) relayCommandExtended2 (ntorExtended2 []) 66 ↔
        AnswerSettled relayCommandExtended2 (ntorExtended2 []) 66) ∧
      (ReadsInside (fit 16 []) relayCommandExtended2 (ntorExtended2 []) 66 ↔
        AnswerInside relayCommandExtended2 (ntorExtended2 []) 66) :=
  ⟨by decide, extendParsers_payload_iff (fit 16 []) relayCommandExtended2 (ntorExtended2 []) 66
    (by decide)⟩

/-- Two buffers with this payload of which two different cells are parsed. -/
theorem extendedCellParse_unsettled :
    (ntorExtended2 delayPolicyResponseMagic.val).val.take 66 = (ntorExtended2 []).val.take 66 ∧
      extendedCellParse relayCommandExtended2
          ⟨ntorExtended2 delayPolicyResponseMagic.val, UInt16.ofNat 66⟩ ≠
        extendedCellParse relayCommandExtended2 ⟨ntorExtended2 [], UInt16.ofNat 66⟩ := by
  constructor
  · decide +kernel
  · decide +kernel

end RendezMix.Guarantees
