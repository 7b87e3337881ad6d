import RendezMix.Guarantees.CreateCells

/-!
# Extend cells over the wire

What the trunnel encoders and `extend_cell_format` write, `extend_cell_parse`
reads back: the create cell inside an extend cell, and the policy behind it.
-/
namespace RendezMix.Guarantees
open Source Library.ByteStrings

/-! ## Bodies -/

section

variable (avail : Nat) (body : Extend2CellBody) (ap : TorAddrPort) (ls : LinkSpecifier)

theorem extend1CellBodyParse_encoded (body : Extend1CellBody) (rest : List UInt8) :
    extend1CellBodyParse (be32 body.ipv4addr ++ (be16 body.port ++ (body.onionskin.val ++
      (body.identity.val ++ rest)))) = some body := by
  simp only [extend1CellBodyParse, bind, Option.bind, pure,
    takeBytes_of_length 4 (be32 _) _ (be32_length _),
    takeBytes_of_length 2 (be16 _) _ (be16_length _), takeBytes_append, getUint32_be32,
    getUint16_be16]

theorem create2CellBodyParse_encoded (body : Create2CellBody) (output rest : List UInt8)
    (encoded : create2CellBodyEncode body = some output) :
    create2CellBodyParse (output ++ rest) = some body := by
  unfold create2CellBodyEncode at encoded
  split at encoded
  · cases encoded
  · next size =>
    cases encoded
    have length : body.handshakeData.length = (getUint16 (be16 body.handshakeLen)).toNat := by
      rw [getUint16_be16]
      exact not_not.mp size
    have data := takeBytes_of_length _ body.handshakeData rest length
    simp only [create2CellBodyParse, List.append_assoc, bind, Option.bind, pure,
      takeBytes_of_length 2 (be16 _) _ (be16_length _), getUint16_be16, data]

/-- A specifier whose type says which specifier it is. -/
def LinkSpecifier.Typed : LinkSpecifier → Prop
  | .unrecognized lsType _ =>
    lsType ≠ lsIpv4 ∧ lsType ≠ lsIpv6 ∧ lsType ≠ lsLegacyId ∧ lsType ≠ lsEd25519Id
  | _ => True

section

variable (typed : LinkSpecifier.Typed ls)

include typed

theorem linkSpecifierOfBody_body : linkSpecifierOfBody ls.lsType ls.body = some ls := by
  cases ls with
  | ipv4 addr port =>
    have port' := takeBytes_of_length 2 (be16 port) [] (be16_length _)
    rw [List.append_nil] at port'
    simp [linkSpecifierOfBody, LinkSpecifier.lsType, LinkSpecifier.body,
      takeBytes_of_length 4 (be32 _) _ (be32_length _), port']
  | ipv6 addr port =>
    have port' := takeBytes_of_length 2 (be16 port) [] (be16_length _)
    rw [List.append_nil] at port'
    simp [linkSpecifierOfBody, LinkSpecifier.lsType, LinkSpecifier.body, takeBytes_append, port',
      show lsIpv6 ≠ lsIpv4 by decide]
  | legacyId id =>
    have whole := takeBytes_append id []
    rw [List.append_nil] at whole
    simp [linkSpecifierOfBody, LinkSpecifier.lsType, LinkSpecifier.body, whole,
      show lsLegacyId ≠ lsIpv4 by decide, show lsLegacyId ≠ lsIpv6 by decide]
  | ed25519Id id =>
    have whole := takeBytes_append id []
    rw [List.append_nil] at whole
    simp [linkSpecifierOfBody, LinkSpecifier.lsType, LinkSpecifier.body, whole,
      show lsEd25519Id ≠ lsIpv4 by decide, show lsEd25519Id ≠ lsIpv6 by decide,
      show lsEd25519Id ≠ lsLegacyId by decide]
  | unrecognized lsType body =>
    obtain ⟨ipv4, ipv6, legacyId, ed25519Id⟩ := typed
    simp [linkSpecifierOfBody, LinkSpecifier.lsType, LinkSpecifier.body, ipv4, ipv6, legacyId,
      ed25519Id]

theorem linkSpecifierParse_encoded (output rest : List UInt8)
    (encoded : linkSpecifierEncode ls = some output) :
    linkSpecifierParse (output ++ rest) = some (ls, rest) := by
  unfold linkSpecifierEncode at encoded
  split at encoded
  · cases encoded
  · next size =>
    cases encoded
    have length : (UInt8.ofNat ls.body.length).toNat = ls.body.length := by
      rw [UInt8.toNat_ofNat']
      omega
    have body := takeBytes_of_length _ ls.body rest length.symm
    simp [linkSpecifierParse, body, linkSpecifierOfBody_body ls typed]

end

theorem linkSpecifiersParse_encoded (specs : List LinkSpecifier)
    (typed : ∀ ls ∈ specs, LinkSpecifier.Typed ls) (outputs : List (List UInt8))
    (rest : List UInt8) (encoded : specs.mapM linkSpecifierEncode = some outputs) :
    linkSpecifiersParse specs.length (outputs.flatten ++ rest) = some (specs, rest) := by
  induction specs generalizing outputs with
  | nil =>
    cases encoded
    rfl
  | cons ls specs ih =>
    rw [List.mapM_cons] at encoded
    simp only [bind, Option.bind_eq_some_iff] at encoded
    obtain ⟨output, first, others, later, whole⟩ := encoded
    cases whole
    have rest' := ih (fun other member => typed other (List.mem_cons_of_mem ls member)) others later
    simp only [List.flatten_cons, List.append_assoc, List.length_cons, linkSpecifiersParse, bind,
      linkSpecifierParse_encoded ls (typed ls List.mem_cons_self) output _ first, Option.bind_some,
      rest', pure]

theorem extend2CellBodyParse_encoded (typed : ∀ ls ∈ body.ls, LinkSpecifier.Typed ls)
    (output rest : List UInt8) (encoded : extend2CellBodyEncode avail body = some output) :
    extend2CellBodyParse (output ++ rest) = some body ∧ output.length ≤ avail := by
  unfold extend2CellBodyEncode at encoded
  split at encoded
  · cases encoded
  · next count =>
    simp only [bind, Option.bind_eq_some_iff] at encoded
    obtain ⟨specs, specsEq, create2, create2Eq, whole⟩ := encoded
    split at whole
    · cases whole
    · next room =>
      cases whole
      have ls := linkSpecifiersParse_encoded body.ls typed specs (create2 ++ rest) specsEq
      rw [not_not.mp count] at ls
      refine ⟨?_, Nat.not_lt.mp room⟩
      simp only [List.cons_append, List.append_assoc, extend2CellBodyParse, ls, bind,
        Option.bind_some, create2CellBodyParse_encoded body.create2 create2 rest create2Eq, pure]

theorem extend2CellBodyEncode_length (output : List UInt8)
    (encoded : extend2CellBodyEncode avail body = some output) :
    body.create2.handshakeData.length = body.create2.handshakeLen.toNat ∧
      2 * body.ls.length + 5 + body.create2.handshakeLen.toNat ≤ output.length := by
  have specLength : ∀ (specs : List LinkSpecifier) (outputs : List (List UInt8)),
      specs.mapM linkSpecifierEncode = some outputs →
        2 * specs.length ≤ outputs.flatten.length := by
    intro specs
    induction specs with
    | nil => exact fun _ _ => Nat.zero_le _
    | cons ls specs ih =>
      intro outputs encoded
      rw [List.mapM_cons] at encoded
      simp only [bind, Option.bind_eq_some_iff] at encoded
      obtain ⟨output, first, others, later, whole⟩ := encoded
      cases whole
      have two : 2 ≤ output.length := by
        unfold linkSpecifierEncode at first
        split at first
        · cases first
        · cases first
          simp
      have rest := ih others later
      simp only [List.flatten_cons, List.length_append, List.length_cons]
      omega
  unfold extend2CellBodyEncode at encoded
  split at encoded
  · cases encoded
  · simp only [bind, Option.bind_eq_some_iff] at encoded
    obtain ⟨specs, specsEq, create2, create2Eq, whole⟩ := encoded
    split at whole
    · cases whole
    · cases whole
      have ls := specLength body.ls specs specsEq
      unfold create2CellBodyEncode at create2Eq
      split at create2Eq
      · cases create2Eq
      · next size =>
        cases create2Eq
        have data := not_not.mp size
        refine ⟨data, ?_⟩
        simp only [List.length_cons, List.length_append, be16_length, data]
        omega

/-! ## The cell in a body -/

/-- An address that makes `check_extend_cell` accept the cell is of the family of
its field. -/
def AddressKept (cell : ExtendCell) : Prop :=
  (torAddrPortIsValidAp cell.orportIpv4 = true ∧ ∃ addr, cell.orportIpv4.addr = .inet addr) ∨
    (cell.cellType = relayCommandExtend2 ∧ torAddrPortIsValidAp cell.orportIpv6 = true ∧
      ∃ addr, cell.orportIpv6.addr = .inet6 addr)

/-- The cell that is read back has a node id and a valid address. -/
structure Carries (cell read : ExtendCell) (createCell : CreateCell) : Prop where
  type : read.cellType = cell.cellType
  node : read.nodeId = cell.nodeId
  create : read.createCell = createCell
  address : torAddrPortIsValidAp read.orportIpv4 = true ∨
    (cell.cellType = relayCommandExtend2 ∧ torAddrPortIsValidAp read.orportIpv6 = true)

section

variable (valid : torAddrPortIsValidAp ap = true)

include valid

theorem torAddrPortIsValidAp_inet (inet : ∃ addr, ap.addr = .inet addr) :
    torAddrPortIsValidAp ⟨.inet (torAddrToIpv4h ap.addr), ap.port⟩ = true := by
  obtain ⟨addr, isInet⟩ := inet
  rw [isInet, torAddrToIpv4h, ← isInet]
  exact valid

theorem torAddrPortIsValidAp_inet6 (inet6 : ∃ addr, ap.addr = .inet6 addr) :
    torAddrPortIsValidAp ⟨.inet6 (torAddrCopyIpv6Bytes ap.addr), ap.port⟩ = true := by
  obtain ⟨addr, isInet6⟩ := inet6
  rw [isInet6, torAddrCopyIpv6Bytes, ← isInet6]
  exact valid

end

end

variable (options : OnionOptions) (before : Bytes 16) (cell : ExtendCell)

theorem extend2Specifiers_typed :
    ∀ ls ∈ extend2Specifiers options cell, LinkSpecifier.Typed ls := by
  intro ls member
  unfold extend2Specifiers at member
  cases ls with
  | unrecognized lsType body => simp at member
  | _ => trivial

theorem extend2Specifiers_length (valid : torAddrPortIsValidAp cell.orportIpv4 = true ∨
      torAddrPortIsValidAp cell.orportIpv6 = true) :
    2 ≤ (extend2Specifiers options cell).length := by
  unfold extend2Specifiers
  simp only [List.length_append, List.length_singleton]
  rcases valid with valid4 | valid6
  · rw [if_pos valid4, List.length_singleton]
    omega
  · rw [if_pos valid6, List.length_singleton]
    omega

/-- The specifiers of an extend cell are read back as the cell they came from. -/
theorem extendCellFromExtend2CellBody_specifiers (isExtend2 : cell.cellType = relayCommandExtend2)
    (kept : AddressKept cell) (nSpec : UInt8) (create2 : Create2CellBody)
    (createCell : CreateCell) (embedded : createCellFromCreate2CellBody create2 = some createCell) :
    ∃ read, extendCellFromExtend2CellBody ⟨nSpec, extend2Specifiers options cell, create2⟩ =
        some read ∧ Carries cell read createCell := by
  unfold extendCellFromExtend2CellBody extend2Specifiers
  rcases kept with ⟨valid4, inet⟩ | ⟨_, valid6, inet6⟩
  · have address := torAddrPortIsValidAp_inet cell.orportIpv4 valid4 inet
    by_cases valid6 : torAddrPortIsValidAp cell.orportIpv6 = true <;>
      by_cases ed : shouldIncludeEd25519IdExtendCells options = true ∧
        cell.edPubkey ≠ fit 32 [] <;>
      simp [valid4, valid6, ed, FoundSpecs.note, embedded] <;>
      exact ⟨isExtend2.symm, rfl, rfl, Or.inl address⟩
  · have address := torAddrPortIsValidAp_inet6 cell.orportIpv6 valid6 inet6
    by_cases valid4 : torAddrPortIsValidAp cell.orportIpv4 = true <;>
      by_cases ed : shouldIncludeEd25519IdExtendCells options = true ∧
        cell.edPubkey ≠ fit 32 [] <;>
      simp [valid4, valid6, ed, FoundSpecs.note, embedded] <;>
      exact ⟨isExtend2.symm, rfl, rfl, Or.inr ⟨isExtend2, address⟩⟩

/-! ## The policy at the end -/

/-- The body ends like one that a policy was appended to. -/
def EndsInPolicy (body : List UInt8) : Prop :=
  ∃ front policy, policy.length = delayPolicySize ∧
    body = front ++ (delayPolicyMagic.val ++ policy)

theorem policyWindow_appended (body : List UInt8) (policy : RawPolicy) :
    policyWindow before (body ++ delayPolicyMagic.val ++ policy.val) =
      delayPolicyMagic.val ++ policy.val := by
  have start : (before.val ++ body).length =
      16 + (body ++ delayPolicyMagic.val ++ policy.val).length - (16 + delayPolicySize) := by
    simp only [List.length_append, before.property, delayPolicyMagic.property, policy.property]
    omega
  rw [policyWindow, ← start, List.append_assoc body, ← List.append_assoc before.val,
    List.drop_left]

/-- Where the payload does not end in a policy, none is found: the window reaches
back to the length in the relay header at most, and no byte of a length below
48 is a byte of the magic. -/
theorem policyWindow_none (payload : List UInt8)
    (header : before.val.drop 14 = be16 (UInt16.ofNat payload.length))
    (plain : ¬ EndsInPolicy payload) :
    (policyWindow before payload).take 16 ≠ delayPolicyMagic.val := by
  intro found
  unfold policyWindow at found
  by_cases long : 16 + delayPolicySize ≤ payload.length
  · apply plain
    have start : 16 + payload.length - (16 + delayPolicySize) =
        before.val.length + (payload.length - (16 + delayPolicySize)) := by
      rw [before.property]
      omega
    rw [start, List.drop_length_add_append] at found
    refine ⟨payload.take (payload.length - (16 + delayPolicySize)),
      (payload.drop (payload.length - (16 + delayPolicySize))).drop 16, ?_, ?_⟩
    · simp only [List.length_drop]
      omega
    · rw [← found, List.take_append_drop, List.take_append_drop]
  · have short : payload.length < 48 := by
      simp only [delayPolicySize] at long
      omega
    have bytes : be16 (UInt16.ofNat payload.length) = [0, UInt8.ofNat payload.length] := by
      have small : (UInt16.ofNat payload.length).toNat = payload.length := by
        rw [UInt16.toNat_ofNat']
        omega
      have high : payload.length / 256 = 0 := by omega
      simp [be16, bigEndian, small, high]
    rw [bytes] at header
    have seen : ∀ i, 14 ≤ i → i < 16 → ∀ byte, before.val[i]? = some byte →
        16 + payload.length - (16 + delayPolicySize) ≤ i → byte ∈ delayPolicyMagic.val := by
      intro i low high byte here start
      rw [← found]
      apply List.mem_of_getElem? (i := i - (16 + payload.length - (16 + delayPolicySize)))
      rw [List.getElem?_take_of_lt (by omega), List.getElem?_drop,
        Nat.add_sub_cancel' start, List.getElem?_append_left (by rw [before.property]; exact high)]
      exact here
    have first : before.val[14]? = some 0 := by
      have tail := congrArg (fun l => l[0]?) header
      simpa using tail
    have second : before.val[15]? = some (UInt8.ofNat payload.length) := by
      have tail := congrArg (fun l => l[1]?) header
      simpa using tail
    by_cases last : payload.length = 47
    · rw [last] at second
      exact absurd (seen 15 (by decide) (by decide) _ second (by rw [last]; decide)) (by decide)
    · apply absurd (seen 14 (by decide) (by decide) _ first _) (by decide)
      simp only [delayPolicySize]
      omega

/-! ## `extend_cell_parse` -/

/-- The cell that `extend_cell_parse` has before it looks for a policy. -/
def readExtend (command : UInt8) (payload : List UInt8) : Option ExtendCell :=
  if command = relayCommandExtend then
    (extend1CellBodyParse payload).map extendCellFromExtend1CellBody
  else if command = relayCommandExtend2 then
    (extend2CellBodyParse payload).bind extendCellFromExtend2CellBody
  else none

def notePolicy (window : List UInt8) (cell : ExtendCell) : ExtendCell :=
  if window.take 16 = delayPolicyMagic.val then
    { cell with createCell := { cell.createCell with
        delayPolicyIsSet := true
        delayPolicy := fit delayPolicySize (bytesAt window 16 delayPolicySize) } }
  else { cell with createCell := { cell.createCell with delayPolicyIsSet := false } }

theorem extendCellParse_eq_ok_iff (command : UInt8) (payload : List UInt8) (cell : ExtendCell) :
    extendCellParse before command payload = .ok cell ↔
      payload.length ≤ relayPayloadSize ∧ ∃ read, readExtend command payload = some read ∧
        cell = notePolicy (policyWindow before payload) read ∧ CheckExtendCell cell := by
  have checks : ∀ read : ExtendCell,
      (if CheckExtendCell (notePolicy (policyWindow before payload) read) then
          (.ok (notePolicy (policyWindow before payload) read) : Result ExtendCell)
        else .error .rejected) = .ok cell ↔
      cell = notePolicy (policyWindow before payload) read ∧ CheckExtendCell cell := by
    intro read
    split
    · next ok =>
      constructor
      · rintro ⟨rfl⟩
        exact ⟨rfl, ok⟩
      · rintro ⟨rfl, _⟩
        rfl
    · next bad =>
      constructor
      · rintro ⟨⟩
      · rintro ⟨rfl, ok⟩
        exact absurd ok bad
  unfold extendCellParse readExtend
  by_cases long : payload.length > relayPayloadSize
  · rw [if_pos long]
    constructor
    · rintro ⟨⟩
    · rintro ⟨room, _⟩
      exact absurd room (Nat.not_le.mpr long)
  · rw [if_neg long]
    by_cases isExtend : command = relayCommandExtend
    · simp only [if_pos isExtend]
      cases extend1CellBodyParse payload with
      | none => simp [bind, Except.bind]
      | some body =>
        simp only [Nat.not_lt.mp long, true_and, Option.map_some, Option.some.injEq,
          exists_eq_left']
        exact checks (extendCellFromExtend1CellBody body)
    · simp only [if_neg isExtend]
      by_cases isExtend2 : command = relayCommandExtend2
      · simp only [if_pos isExtend2]
        cases (extend2CellBodyParse payload).bind extendCellFromExtend2CellBody with
        | none => simp [bind, Except.bind]
        | some read =>
          simp only [Nat.not_lt.mp long, true_and, Option.some.injEq, exists_eq_left']
          exact checks read
      · simp [isExtend2, bind, Except.bind]

end RendezMix.Guarantees
