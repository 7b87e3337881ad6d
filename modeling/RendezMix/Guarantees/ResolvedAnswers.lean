import RendezMix.Source.ResolvedCells

/-!
# The answers in a resolved cell

`resolved_cell_parse` accepts exactly the strings of well-formed answers, gives one result
for each answer that can be used, in their order, and reads nothing but the answers. What
`append_address_to_payload` writes is read back as the address.
-/
namespace RendezMix.Guarantees.ResolvedAnswers
open Source Library.ByteStrings Library.MemoryReads Recording Pointer

/-- The length of the value of an answer fits its type. -/
def LengthFits (answerType : UInt8) (length : Nat) : Prop :=
  (answerType = resolvedTypeIpv4 → length = 4) ∧ (answerType = resolvedTypeIpv6 → length = 16)
    ∧ (answerType = resolvedTypeHostname → length ≠ 0)

instance (answerType : UInt8) (length : Nat) : Decidable (LengthFits answerType length) :=
  inferInstanceAs (Decidable (_ ∧ _ ∧ _))

/-- A well-formed answer. -/
structure ResolvedAnswer where
  answerType : UInt8
  value : List UInt8
  ttl : Bytes 4
  short : value.length < 256
  fits : LengthFits answerType value.length

/-- Type, length, value and time to live. -/
def ResolvedAnswer.encode (answer : ResolvedAnswer) : List UInt8 :=
  answer.answerType :: UInt8.ofNat answer.value.length :: (answer.value ++ answer.ttl.val)

/-- The result that an answer gives: none if it is an error or of a type that is not known. -/
def usableAnswer (answerType : UInt8) (value ttl : List UInt8) : Option AddressTtl :=
  if answerType = resolvedTypeIpv4 then
    some ⟨.inet (getUint32 value), none, (getUint32 ttl).toInt32⟩
  else if answerType = resolvedTypeIpv6 then
    some ⟨.inet6 (fit 16 value), none, (getUint32 ttl).toInt32⟩
  else if answerType = resolvedTypeHostname then
    some ⟨.unspec, some value, (getUint32 ttl).toInt32⟩
  else none

def ResolvedAnswer.usable (answer : ResolvedAnswer) : Option AddressTtl :=
  usableAnswer answer.answerType answer.value answer.ttl.val

/-- The error code after an answer. -/
def errcodeAfter (errcode answerType : UInt8) : UInt8 :=
  if answerType = resolvedTypeErrorTransient ∨ answerType = resolvedTypeError then answerType
  else errcode

/-! ## One answer -/

variable (cp : Pointer) (answerType : UInt8) (payload : Bytes relayPayloadSize)
  (memory : List UInt8) (answerLen : UInt8) (length : UInt16) (addrs : List AddressTtl)
  (errcode : UInt8)

theorem resolvedAnswerParse_result :
    (resolvedAnswerParse cp answerType answerLen addrs errcode).result
      = if LengthFits answerType answerLen.toNat then
          .ok (answerLen.toNat + 4, addrs ++ (usableAnswer answerType
            (bytesAt cp.memory 0 answerLen.toNat) (bytesAt cp.memory answerLen.toNat 4)).toList,
            errcodeAfter errcode answerType)
        else .error .rejected := by
  have sameLength : ∀ n : UInt8, answerLen.toNat = n.toNat → answerLen = n :=
    fun n => UInt8.toNat_inj.mp
  unfold resolvedAnswerParse
  by_cases ipv4 : answerType = resolvedTypeIpv4
  · subst ipv4
    by_cases four : answerLen = 4
    · subst four
      rfl
    · rw [if_pos rfl, if_pos four, if_neg]
      · rfl
      · exact fun fits => four (sameLength 4 (fits.1 rfl))
  by_cases ipv6 : answerType = resolvedTypeIpv6
  · subst ipv6
    by_cases sixteen : answerLen = 16
    · subst sixteen
      rfl
    · rw [if_neg ipv4, if_pos rfl, if_pos sixteen, if_neg]
      · rfl
      · exact fun fits => sixteen (sameLength 16 (fits.2.1 rfl))
  by_cases hostname : answerType = resolvedTypeHostname
  · subst hostname
    by_cases empty : answerLen = 0
    · subst empty
      rfl
    · rw [if_neg ipv4, if_neg ipv6, if_pos rfl, if_neg empty, if_pos]
      · rfl
      · refine ⟨fun absurd => (ipv4 absurd).elim, fun absurd => (ipv6 absurd).elim, fun _ => ?_⟩
        exact fun zero => empty (sameLength 0 zero)
  · have fits : LengthFits answerType answerLen.toNat :=
      ⟨fun absurd => (ipv4 absurd).elim, fun absurd => (ipv6 absurd).elim,
        fun absurd => (hostname absurd).elim⟩
    have nothing : ∀ value ttl, usableAnswer answerType value ttl = none := by
      intro value ttl
      rw [usableAnswer, if_neg ipv4, if_neg ipv6, if_neg hostname]
    rw [if_neg ipv4, if_neg ipv6, if_neg hostname, if_pos fits, nothing, Option.toList_none,
      List.append_nil, errcodeAfter]
    split <;> rfl

theorem resolvedAnswerParse_within (low high : Int) (start : low ≤ cp.index)
    (stop : cp.index + answerLen.toNat + 4 ≤ high) :
    (resolvedAnswerParse cp answerType answerLen addrs errcode).Within low high := by
  have two : ∀ (value : Nat) (next : List UInt8 → List UInt8 →
      Result (Nat × List AddressTtl × UInt8)), answerLen.toNat = value →
      (do
        let bytes ← cp.read 0 value
        let ttl ← cp.read value 4
        return next bytes ttl : Recording _).Within low high := by
    rintro value next rfl
    rw [within_bind, within_bind, read_within_iff,
      read_within_iff]
    refine ⟨fun _ => by omega, fun _ => by omega, within_pure _ low high⟩
  unfold resolvedAnswerParse
  split
  · split
    · exact within_pure _ low high
    next four =>
      rw [not_not.mp four] at two
      exact two 4 _ rfl
  split
  · split
    · exact within_pure _ low high
    next sixteen =>
      rw [not_not.mp sixteen] at two
      exact two 16 _ rfl
  split
  · split
    · exact within_pure _ low high
    · exact two _ _ rfl
  split
  · exact within_pure _ low high
  · exact within_pure _ low high

/-! ## The loop -/

/-- One round of the loop, on a type, a length and what comes behind them. -/
theorem resolvedAnswersParse_round (body : List UInt8) (index : Int) (remaining : Nat)
    (addrs : List AddressTtl) (errcode : UInt8) (more : 2 ≤ remaining) :
    (resolvedAnswersParse ⟨answerType :: answerLen :: body, index⟩ remaining addrs errcode).result
      = if remaining < 2 + answerLen.toNat + 4 ∨ ¬ LengthFits answerType answerLen.toNat then
          .error .rejected
        else
          (resolvedAnswersParse
            ⟨body.drop (answerLen.toNat + 4), index + (2 + (answerLen.toNat + 4) : Nat)⟩
            (remaining - (2 + (answerLen.toNat + 4)))
            (addrs ++ (usableAnswer answerType (bytesAt body 0 answerLen.toNat)
              (bytesAt body answerLen.toNat 4)).toList)
            (errcodeAfter errcode answerType)).result := by
  have readType : (bytesAt (answerType :: answerLen :: body) 0 1).headD 0 = answerType := rfl
  have readLen : (bytesAt (answerType :: answerLen :: body) 1 1).headD 0 = answerLen := rfl
  rw [resolvedAnswersParse, if_neg (by omega), if_neg (by omega)]
  simp only [bind_result, read_result, readType, readLen]
  by_cases short : remaining < 2 + answerLen.toNat + 4
  · rw [if_pos short, if_pos (Or.inl short)]
    rfl
  rw [if_neg short]
  simp only [bind_result, resolvedAnswerParse_result]
  by_cases fits : LengthFits answerType answerLen.toNat
  · rw [if_pos fits, if_neg (by rw [not_or, not_not]; exact ⟨short, fits⟩)]
    have behind : (⟨answerType :: answerLen :: body, index⟩ : Pointer).advance
          (2 + (answerLen.toNat + 4))
        = ⟨body.drop (answerLen.toNat + 4), index + (2 + (answerLen.toNat + 4) : Nat)⟩ := by
      rw [advance, Nat.add_comm 2 (answerLen.toNat + 4)]
      rfl
    dsimp only
    rw [if_neg (by omega), behind]
    rfl
  · rw [if_neg fits, if_pos (Or.inr fits)]
    rfl

theorem resolvedAnswersParse_zero :
    resolvedAnswersParse cp 0 addrs errcode = pure (.ok (addrs, errcode)) := by
  rw [resolvedAnswersParse, if_pos rfl]

theorem encode_length (answer : ResolvedAnswer) :
    answer.encode.length = 2 + (answer.value.length + 4) := by
  rw [ResolvedAnswer.encode, List.length_cons, List.length_cons, List.length_append,
    answer.ttl.property]
  omega

/-- The last error code among the answers. -/
def lastErrcode (errcode : UInt8) (answers : List ResolvedAnswer) : UInt8 :=
  answers.foldl (fun errcode answer => errcodeAfter errcode answer.answerType) errcode

/-- Well-formed answers are accepted, whatever follows them. -/
theorem resolvedAnswersParse_encoded (answers : List ResolvedAnswer) (rest : List UInt8)
    (index : Int) (addrs : List AddressTtl) (errcode : UInt8) :
    (resolvedAnswersParse ⟨answers.flatMap ResolvedAnswer.encode ++ rest, index⟩
      (answers.flatMap ResolvedAnswer.encode).length addrs errcode).result
      = .ok (addrs ++ answers.filterMap ResolvedAnswer.usable, lastErrcode errcode answers) := by
  induction answers generalizing index addrs errcode with
  | nil =>
    rw [List.flatMap_nil, List.length_nil, resolvedAnswersParse_zero]
    simp [lastErrcode]
  | cons answer answers ih =>
    have len : (UInt8.ofNat answer.value.length).toNat = answer.value.length :=
      UInt8.toNat_ofNat_of_lt' answer.short
    have text : (answer :: answers).flatMap ResolvedAnswer.encode ++ rest
        = answer.answerType :: UInt8.ofNat answer.value.length
          :: (answer.value ++ (answer.ttl.val
            ++ (answers.flatMap ResolvedAnswer.encode ++ rest))) := by
      simp [ResolvedAnswer.encode]
    have length : ((answer :: answers).flatMap ResolvedAnswer.encode).length
        = 2 + (answer.value.length + 4) + (answers.flatMap ResolvedAnswer.encode).length := by
      rw [List.flatMap_cons, List.length_append, encode_length]
    have value : bytesAt (answer.value ++ (answer.ttl.val
        ++ (answers.flatMap ResolvedAnswer.encode ++ rest))) 0 answer.value.length
        = answer.value := by
      rw [bytesAt_zero, List.take_left]
    have ttl : bytesAt (answer.value ++ (answer.ttl.val
        ++ (answers.flatMap ResolvedAnswer.encode ++ rest))) answer.value.length 4
        = answer.ttl.val :=
      bytesAt_of_append _ _ _ _ _ rfl answer.ttl.property
    have behind : (answer.value ++ (answer.ttl.val
        ++ (answers.flatMap ResolvedAnswer.encode ++ rest))).drop (answer.value.length + 4)
        = answers.flatMap ResolvedAnswer.encode ++ rest := by
      rw [List.drop_length_add_append, List.drop_left' answer.ttl.property]
    rw [text, length, resolvedAnswersParse_round _ _ _ _ _ _ _ (by omega), len, value, ttl, behind,
      if_neg, Nat.add_sub_cancel_left, ih]
    · have next : lastErrcode (errcodeAfter errcode answer.answerType) answers
          = lastErrcode errcode (answer :: answers) := rfl
      have results : addrs ++ (usableAnswer answer.answerType answer.value answer.ttl.val).toList
          ++ answers.filterMap ResolvedAnswer.usable
          = addrs ++ (answer :: answers).filterMap ResolvedAnswer.usable := by
        rw [List.append_assoc, List.filterMap_cons]
        unfold ResolvedAnswer.usable
        cases usableAnswer answer.answerType answer.value answer.ttl.val <;> rfl
      rw [next, results]
    · rw [not_or, not_not]
      exact ⟨by omega, answer.fits⟩

/-- What is accepted is a string of well-formed answers, and what is not is rejected. -/
theorem resolvedAnswersParse_accepted (index : Int) (remaining : Nat) (addrs : List AddressTtl)
    (errcode : UInt8) (room : remaining ≤ memory.length) :
    (∃ answers : List ResolvedAnswer,
        memory.take remaining = answers.flatMap ResolvedAnswer.encode)
      ∨ (resolvedAnswersParse ⟨memory, index⟩ remaining addrs errcode).result
        = .error .rejected := by
  induction remaining using Nat.strong_induction_on generalizing memory index addrs errcode with
  | _ remaining ih =>
    by_cases done : remaining = 0
    · left
      refine ⟨[], ?_⟩
      rw [done]
      rfl
    by_cases more : 2 ≤ remaining
    · obtain ⟨answerType, memory, rfl⟩ :=
        List.exists_cons_of_ne_nil (List.length_pos_iff.mp (by omega : 0 < memory.length))
      rw [List.length_cons] at room
      obtain ⟨answerLen, body, rfl⟩ :=
        List.exists_cons_of_ne_nil (List.length_pos_iff.mp (by omega : 0 < memory.length))
      rw [List.length_cons] at room
      rw [resolvedAnswersParse_round _ _ _ _ _ _ _ more]
      by_cases rejects : remaining < 2 + answerLen.toNat + 4
          ∨ ¬ LengthFits answerType answerLen.toNat
      · right
        rw [if_pos rejects]
      · rw [if_neg rejects]
        rw [not_or, not_not] at rejects
        have valueLength : (bytesAt body 0 answerLen.toNat).length = answerLen.toNat :=
          bytesAt_length _ _ _ (by omega)
        rcases ih (remaining - (2 + (answerLen.toNat + 4))) (by omega)
          (body.drop (answerLen.toNat + 4)) (index + (2 + (answerLen.toNat + 4) : Nat)) _ _
          (by rw [List.length_drop]; omega) with ⟨answers, later⟩ | rejected
        · left
          refine ⟨⟨answerType, bytesAt body 0 answerLen.toNat,
            ⟨bytesAt body answerLen.toNat 4, bytesAt_length _ _ _ (by omega)⟩,
            by rw [valueLength]; exact answerLen.toNat_lt, by rw [valueLength]; exact rejects.2⟩
              :: answers, ?_⟩
          have split : remaining
              = 2 + (answerLen.toNat + (4 + (remaining - (2 + (answerLen.toNat + 4))))) := by omega
          have bodySplit : body.take
                (answerLen.toNat + (4 + (remaining - (2 + (answerLen.toNat + 4)))))
              = bytesAt body 0 answerLen.toNat ++ (bytesAt body answerLen.toNat 4
                ++ answers.flatMap ResolvedAnswer.encode) := by
            rw [List.take_add, List.take_add, List.drop_drop, ← later, bytesAt_zero]
            rfl
          have front : (answerType :: answerLen :: body).take remaining
              = answerType :: answerLen :: (bytesAt body 0 answerLen.toNat
                ++ (bytesAt body answerLen.toNat 4 ++ answers.flatMap ResolvedAnswer.encode)) := by
            rw [split, Nat.add_comm 2, List.take_succ_cons, List.take_succ_cons, bodySplit]
          have code : UInt8.ofNat (bytesAt body 0 answerLen.toNat).length = answerLen := by
            rw [valueLength, UInt8.ofNat_toNat]
          rw [front, List.flatMap_cons, ResolvedAnswer.encode]
          rw [code]
          simp only [List.cons_append, List.append_assoc]
        · exact Or.inr rejected
    · right
      rw [resolvedAnswersParse, if_neg done, if_pos (by omega)]
      rfl

theorem resolvedAnswersParse_within (remaining : Nat) (addrs : List AddressTtl) (errcode : UInt8)
    (low high : Int) (start : low ≤ cp.index) (stop : cp.index + remaining ≤ high) :
    (resolvedAnswersParse cp remaining addrs errcode).Within low high := by
  induction remaining using Nat.strong_induction_on generalizing cp addrs errcode with
  | _ remaining ih =>
    rw [resolvedAnswersParse]
    split
    · exact within_pure _ low high
    split
    · exact within_pure _ low high
    next more =>
      rw [within_bind, within_bind, read_within_iff,
        read_within_iff]
      refine ⟨fun _ => by omega, fun _ => by omega, ?_⟩
      dsimp only
      split
      · exact within_pure _ low high
      next room =>
        rw [within_bind]
        constructor
        · apply resolvedAnswerParse_within
          · rw [advance_index]
            omega
          · rw [advance_index]
            omega
        · split
          · exact within_pure _ low high
          · split
            · exact within_pure _ low high
            next fits =>
              apply ih
              · omega
              · rw [advance_index]
                omega
              · rw [advance_index]
                omega

/-! ## The cell -/

/-- The results and the error code of a cell of these answers: an error counts only where
there is no result. -/
def answersParse (addressesOut : List AddressTtl) (answers : List ResolvedAnswer) :
    ResolvedCellParse where
  rv := 0
  addressesOut := addressesOut ++ answers.filterMap ResolvedAnswer.usable
  errcodeOut :=
    if lastErrcode 0 answers ≠ 0 ∧ (answers.filterMap ResolvedAnswer.usable).length = 0 then
      lastErrcode 0 answers
    else 0

section

variable (fits : length.toNat ≤ relayPayloadSize) (addressesOut : List AddressTtl)

include fits

theorem resolvedCellParse_encoded (answers : List ResolvedAnswer)
    (text : payload.val.take length.toNat = answers.flatMap ResolvedAnswer.encode) :
    (resolvedCellParse payload memory length addressesOut).result
      = some (answersParse addressesOut answers) := by
  have size : (answers.flatMap ResolvedAnswer.encode).length = length.toNat := by
    rw [← text, List.length_take, payload.property, Nat.min_eq_left fits]
  have split : payload.val ++ memory = answers.flatMap ResolvedAnswer.encode
      ++ (payload.val.drop length.toNat ++ memory) := by
    rw [← text, ← List.append_assoc, List.take_append_drop]
  have parsed := resolvedAnswersParse_encoded answers (payload.val.drop length.toNat ++ memory) 0
    [] 0
  rw [← split, size, List.nil_append] at parsed
  rw [resolvedCellParse, if_neg (by omega), bind_result, parsed]
  rfl

theorem resolvedCellParse_rejected (malformed : ¬ ∃ answers : List ResolvedAnswer,
      payload.val.take length.toNat = answers.flatMap ResolvedAnswer.encode) :
    (resolvedCellParse payload memory length addressesOut).result
      = some { rv := -1, addressesOut := addressesOut, errcodeOut := 0 } := by
  have room : length.toNat ≤ (payload.val ++ memory).length := by
    rw [List.length_append, payload.property]
    omega
  rcases resolvedAnswersParse_accepted (payload.val ++ memory) 0 length.toNat [] 0 room with
    ⟨answers, text⟩ | rejected
  · rw [List.take_append_of_le_length (by rw [payload.property]; exact fits)] at text
    exact absurd ⟨answers, text⟩ malformed
  · rw [resolvedCellParse, if_neg (by omega), bind_result, rejected]
    rfl

end

theorem resolvedCellParse_within (addressesOut : List AddressTtl) :
    (resolvedCellParse payload memory length addressesOut).Within 0 length.toNat := by
  rw [resolvedCellParse]
  split
  · exact within_pure _ _ _
  · rw [within_bind]
    constructor
    · exact resolvedAnswersParse_within _ _ _ _ _ _ (le_refl _) (by simp)
    · split <;> exact within_pure _ _ _

theorem appendAddressToPayload_decodes (payloadOut : List UInt8) (addr : TorAddr)
    (ip : torAddrFamily addr = .inet ∨ torAddrFamily addr = .inet6) :
    ∃ payload n, appendAddressToPayload payloadOut addr = some (payload, n)
      ∧ ∀ payloadLen, n ≤ payloadLen →
        decodeAddressFromPayload payload payloadLen = some (addr, payload.drop n) := by
  cases addr with
  | inet a =>
    refine ⟨_, _, rfl, ?_⟩
    intro payloadLen room
    have value : bytesAt (resolvedTypeIpv4 :: 4 :: (be32 a ++ payloadOut.drop 6)) 2 4 = be32 a :=
      bytesAt_of_append [resolvedTypeIpv4, 4] (be32 a) (payloadOut.drop 6) 2 4 rfl (be32_length a)
    have four : (4 : UInt8).toNat = 4 := rfl
    unfold decodeAddressFromPayload
    simp only [List.getD_cons_zero, List.getD_cons_succ, value, getUint32_be32, four]
    rw [if_neg (by omega), if_neg (by omega), if_pos trivial, if_neg (not_not_intro rfl)]
  | inet6 a =>
    refine ⟨_, _, rfl, ?_⟩
    intro payloadLen room
    have value : bytesAt (resolvedTypeIpv6 :: 16 :: (a.val ++ payloadOut.drop 18)) 2 16 = a.val :=
      bytesAt_of_append [resolvedTypeIpv6, 16] a.val (payloadOut.drop 18) 2 16 rfl a.property
    have sixteen : (16 : UInt8).toNat = 16 := rfl
    unfold decodeAddressFromPayload
    simp only [List.getD_cons_zero, List.getD_cons_succ, value, fit_bytes, sixteen]
    rw [if_neg (by omega), if_neg (by omega), if_neg (by decide), if_pos trivial,
      if_neg (not_not_intro rfl)]
  | unspec | unix | other => rcases ip with absurd | absurd <;> cases absurd

/-- A resolved cell is accepted exactly if its answers are well formed, with one result for each
that can be used and no result otherwise, and nothing behind the answers is read; an address
that is appended to a payload is decoded, up to the byte behind it. -/
theorem resolvedCellParse_exact (payload : Bytes relayPayloadSize) (memory : List UInt8)
    (length : UInt16) (fits : length.toNat ≤ relayPayloadSize) (addressesOut : List AddressTtl) :
    (∀ answers : List ResolvedAnswer,
        payload.val.take length.toNat = answers.flatMap ResolvedAnswer.encode →
        (resolvedCellParse payload memory length addressesOut).result
          = some (answersParse addressesOut answers))
      ∧ ((¬ ∃ answers : List ResolvedAnswer,
          payload.val.take length.toNat = answers.flatMap ResolvedAnswer.encode) →
        (resolvedCellParse payload memory length addressesOut).result
          = some { rv := -1, addressesOut := addressesOut, errcodeOut := 0 })
      ∧ (resolvedCellParse payload memory length addressesOut).Within 0 length.toNat
      ∧ ∀ payloadOut addr, torAddrFamily addr = .inet ∨ torAddrFamily addr = .inet6 →
        ∃ written n, appendAddressToPayload payloadOut addr = some (written, n)
          ∧ ∀ payloadLen, n ≤ payloadLen →
            decodeAddressFromPayload written payloadLen = some (addr, written.drop n) :=
  ⟨resolvedCellParse_encoded payload memory length fits addressesOut,
    resolvedCellParse_rejected payload memory length fits addressesOut,
    resolvedCellParse_within payload memory length addressesOut,
    appendAddressToPayload_decodes⟩

/-- A cell with the address 127.0.0.1, to be kept for a minute. -/
theorem resolvedCellParse_exact_localhost :
    (∀ answers : List ResolvedAnswer,
        (fit relayPayloadSize [4, 4, 127, 0, 0, 1, 0, 0, 0, 60]).val.take (10 : UInt16).toNat
          = answers.flatMap ResolvedAnswer.encode →
        (resolvedCellParse (fit relayPayloadSize [4, 4, 127, 0, 0, 1, 0, 0, 0, 60]) [] 10
          []).result = some (answersParse [] answers))
      ∧ ((¬ ∃ answers : List ResolvedAnswer,
          (fit relayPayloadSize [4, 4, 127, 0, 0, 1, 0, 0, 0, 60]).val.take (10 : UInt16).toNat
            = answers.flatMap ResolvedAnswer.encode) →
        (resolvedCellParse (fit relayPayloadSize [4, 4, 127, 0, 0, 1, 0, 0, 0, 60]) [] 10
          []).result = some { rv := -1, addressesOut := [], errcodeOut := 0 })
      ∧ (resolvedCellParse (fit relayPayloadSize [4, 4, 127, 0, 0, 1, 0, 0, 0, 60]) [] 10
          []).Within 0 (10 : UInt16).toNat
      ∧ ∀ payloadOut addr, torAddrFamily addr = .inet ∨ torAddrFamily addr = .inet6 →
        ∃ written n, appendAddressToPayload payloadOut addr = some (written, n)
          ∧ ∀ payloadLen, n ≤ payloadLen →
            decodeAddressFromPayload written payloadLen = some (addr, written.drop n) :=
  resolvedCellParse_exact (fit relayPayloadSize [4, 4, 127, 0, 0, 1, 0, 0, 0, 60]) [] 10
    (by decide) []

end RendezMix.Guarantees.ResolvedAnswers
