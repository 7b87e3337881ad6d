import RendezMix.Source.Addressmap

/-!
# Virtual addresses

An address that is made of random bytes is in the network that it is made for, so that the
assertion of `get_random_virtual_addr` holds, and a virtual address that is handed out is not
mapped yet.
-/
namespace RendezMix.Guarantees.VirtualAddresses
open Library ByteStrings Source Addressmap

/-! ## Bits of byte strings -/

/-- Numbers whose bytes agree in the first bits agree in them. -/
theorem ofBigEndian_shiftRight {a b : List UInt8} {m : Nat} (lengths : a.length = b.length)
    (most : m ≤ 8 * a.length) (same : SameBits a b m) :
    ofBigEndian a >>> (8 * a.length - m) = ofBigEndian b >>> (8 * a.length - m) := by
  induction a generalizing b m with
  | nil =>
    rw [List.eq_nil_of_length_eq_zero lengths.symm]
  | cons x a ih =>
    cases b with
    | nil => simp at lengths
    | cons y b =>
      have lengths' : a.length = b.length := Nat.succ.inj lengths
      have power : 256 ^ a.length = 2 ^ (8 * a.length) := by rw [Nat.pow_mul]
      have rest := ofBigEndian_lt a
      have rest' := ofBigEndian_lt b
      obtain ⟨whole, left⟩ := same
      simp only [ofBigEndian, List.length_cons, ← lengths'] at most rest' ⊢
      rw [power] at rest rest' ⊢
      by_cases short : m < 8
      · have split : 8 * (a.length + 1) - m = 8 * a.length + (8 - m) := by omega
        rw [Nat.div_eq_of_lt short, Nat.mod_eq_of_lt short] at left
        simp only [List.getD_cons_zero] at left
        rw [split, Nat.shiftRight_add, Nat.shiftRight_add, Nat.shiftRight_eq_div_pow _ (8 * _),
          Nat.shiftRight_eq_div_pow _ (8 * _), Nat.mul_comm x.toNat, Nat.mul_comm y.toNat,
          Nat.mul_add_div (Nat.two_pow_pos _), Nat.mul_add_div (Nat.two_pow_pos _),
          Nat.div_eq_of_lt rest, Nat.div_eq_of_lt rest']
        exact left
      · have next : m / 8 = (m - 8) / 8 + 1 := by omega
        have level : m % 8 = (m - 8) % 8 := by omega
        rw [next, List.take_succ_cons, List.take_succ_cons, List.cons.injEq] at whole
        rw [next, level, List.getD_cons_succ, List.getD_cons_succ] at left
        have tails := ih lengths' (by omega) ⟨whole.2, left⟩
        have width : 8 * (a.length + 1) - m = 8 * a.length - (m - 8) := by omega
        have high : 2 ^ (8 * a.length) = 2 ^ (8 * a.length - (m - 8)) * 2 ^ (m - 8) := by
          rw [← Nat.pow_add]
          congr 1
          omega
        rw [Nat.shiftRight_eq_div_pow, Nat.shiftRight_eq_div_pow] at tails ⊢
        rw [width, whole.1, high, Nat.mul_left_comm, Nat.mul_add_div (Nat.two_pow_pos _),
          Nat.mul_add_div (Nat.two_pow_pos _), tails]

theorem masked_shiftRight (a b : UInt8) {r : Nat} (small : r < 8) :
    ((b &&& UInt8.ofNat (255 >>> r)) ||| (a &&& ~~~UInt8.ofNat (255 >>> r))).toNat >>> (8 - r)
      = a.toNat >>> (8 - r) := by
  have low : ∀ r < 8, (UInt8.ofNat (255 >>> r)).toNat >>> (8 - r) = 0 := by decide
  have high : ∀ r < 8, (~~~UInt8.ofNat (255 >>> r)).toNat >>> (8 - r) = 2 ^ r - 1 := by decide
  have width : 2 ^ 8 = 2 ^ (8 - r) * 2 ^ r := by
    rw [← Nat.pow_add]
    congr 1
    omega
  have bound : a.toNat >>> (8 - r) < 2 ^ r := by
    rw [Nat.shiftRight_eq_div_pow]
    apply Nat.div_lt_of_lt_mul
    rw [← width]
    exact a.toNat_lt
  rw [UInt8.toNat_or, UInt8.toNat_and, UInt8.toNat_and, Nat.shiftRight_or_distrib,
    Nat.shiftRight_and_distrib, Nat.shiftRight_and_distrib, low r small, high r small,
    Nat.and_two_pow_sub_one_eq_mod, Nat.mod_eq_of_lt bound, Nat.and_zero, Nat.zero_or]

section

variable {bits : Nat} {addr bytes : List UInt8} (lengths : addr.length = bytes.length)

include lengths

theorem replaceBits_length (room : bits ≤ 8 * addr.length) :
    (replaceBits bits addr bytes).length = addr.length := by
  have whole : (addr.take (bits / 8) ++ bytes.drop (bits / 8)).length = addr.length := by
    rw [List.length_append, List.length_take, List.length_drop]
    omega
  rw [replaceBits]
  split
  next => exact whole
  next =>
    rw [List.length_modify]
    exact whole

theorem replaceBits_sameBits (room : bits < 8 * addr.length) :
    SameBits (replaceBits bits addr bytes) addr bits := by
  have front : (addr.take (bits / 8)).length = bits / 8 := by
    rw [List.length_take]
    omega
  have level : bits % 8 < 8 := Nat.mod_lt _ (by decide)
  rw [replaceBits]
  split
  next even =>
    refine ⟨?_, ?_⟩
    · rw [List.take_append_of_le_length (by omega), List.take_of_length_le (by omega)]
    · rw [even, Nat.sub_zero, Nat.shiftRight_eq_div_pow, Nat.shiftRight_eq_div_pow,
        Nat.div_eq_of_lt (UInt8.toNat_lt _), Nat.div_eq_of_lt (UInt8.toNat_lt _)]
  next odd =>
    refine ⟨?_, ?_⟩
    · rw [List.take_modify, List.modify_eq_self, List.take_append_of_le_length (by omega),
        List.take_of_length_le (by omega)]
      rw [List.length_take]
      exact Nat.min_le_left _ _
    · rw [List.getD_eq_getElem?_getD, List.getElem?_modify_eq,
        List.getElem?_append_right (by omega), front, Nat.sub_self, List.getElem?_drop,
        Nat.add_zero, List.getElem?_eq_getElem (by omega)]
      exact masked_shiftRight _ _ level

end

/-! ## A random address -/

theorem samePrefix_inet (addr : UInt32) {bits : UInt8} (most : bits ≤ 16) (rand : Bytes 16) :
    SamePrefix bits (.inet (getUint32 (replaceBits bits.toNat (be32 addr) (rand.val.take 4))))
      (.inet addr) := by
  have short : bits.toNat ≤ 16 := UInt8.le_iff_toNat_le.mp most
  have four : (be32 addr).length = 4 := be32_length addr
  have lengths : (be32 addr).length = (rand.val.take 4).length := by
    rw [List.length_take, rand.property, four]
    rfl
  have length := replaceBits_length lengths (show bits.toNat ≤ _ by omega)
  rw [four] at length
  have bound := ofBigEndian_lt (replaceBits bits.toNat (be32 addr) (rand.val.take 4))
  have number : ofBigEndian (be32 addr) = addr.toNat := ofBigEndian_bigEndian_of_lt 4 _ addr.toNat_lt
  have agree := ofBigEndian_shiftRight (length.trans four.symm) (by omega)
    (replaceBits_sameBits lengths (show bits.toNat < _ by omega))
  rw [length] at bound agree
  rw [samePrefix_iff]
  simp only
  rw [Nat.min_eq_left (by omega), getUint32, UInt32.toNat_ofNat_of_lt' bound, agree, number]

theorem samePrefix_inet6 (addr : Bytes 16) {bits : UInt8} (most : bits ≤ 104) (rand : Bytes 16) :
    SamePrefix bits (.inet6 (fit 16 (replaceBits bits.toNat addr.val (rand.val.take 16))))
      (.inet6 addr) := by
  have short : bits.toNat ≤ 104 := UInt8.le_iff_toNat_le.mp most
  have sixteen : addr.val.length = 16 := addr.property
  have lengths : addr.val.length = (rand.val.take 16).length := by
    rw [List.length_take, rand.property, sixteen]
    rfl
  have length := replaceBits_length lengths (show bits.toNat ≤ _ by omega)
  rw [sixteen] at length
  have whole := fit_bytes (⟨_, length⟩ : Bytes 16)
  simp only at whole
  rw [samePrefix_iff, whole]
  simp only
  rw [Nat.min_eq_left (by omega)]
  exact replaceBits_sameBits lengths (by omega)

theorem getRandomVirtualAddr_ok (nets : VirtualNets) (ipv6 : Bool) (rand : Bytes 16) :
    ∃ addr, getRandomVirtualAddr (if ipv6 then nets.virtaddrConfIpv6 else nets.virtaddrConfIpv4) rand
      = .ok addr := by
  obtain ⟨⟨addr4, bits4⟩, ⟨addr6, bits6⟩, ⟨family4, most4⟩, ⟨family6, most6⟩⟩ := nets
  simp only at family4 most4 family6 most6
  cases ipv6 with
  | true =>
    cases addr6 with
    | inet6 addr =>
      have short : bits6.toNat ≤ 104 := UInt8.le_iff_toNat_le.mp most6
      have same := samePrefix_inet6 addr most6 rand
      refine ⟨.inet6 (fit 16 (replaceBits bits6.toNat addr.val (rand.val.take 16))), ?_⟩
      rw [SamePrefix] at same
      simp only [getRandomVirtualAddr, torAddrFamily, if_true, addrBytes, torAddrCopyIpv6Bytes]
      rw [if_pos (by omega), if_pos same]
    | _ => cases family6
  | false =>
    cases addr4 with
    | inet addr =>
      have short : bits4.toNat ≤ 16 := UInt8.le_iff_toNat_le.mp most4
      have same := samePrefix_inet addr most4 rand
      refine ⟨.inet (getUint32 (replaceBits bits4.toNat (be32 addr) (rand.val.take 4))), ?_⟩
      rw [SamePrefix] at same
      simp only [getRandomVirtualAddr, torAddrFamily, addrBytes, torAddrToIpv4h, reduceCtorEq, if_false,
        Bool.false_eq_true]
      rw [if_pos (by omega), if_pos same]
    | _ => cases family4

/-! ## What is handed out -/

section Drawing

variable {text : AddressText} {nets : VirtualNets} {addressmap : List (CString × AddressmapEntry)}

/-- No call for a virtual address fails an assertion, and what it gives is not mapped. -/
def HandsOut (addressmap : List (CString × AddressmapEntry)) (result : Except Halt (Option CString)) :
    Prop :=
  match result with
  | .ok none => True
  | .ok (some address) => KeyedMap.get addressmap address = none
  | .error halt => halt = .drawing

theorem drawHostname_handsOut (draws : List (Bytes 16)) :
    HandsOut addressmap (drawHostname addressmap draws) := by
  induction draws with
  | nil => rfl
  | cons rand draws ih =>
    rw [drawHostname]
    split
    next free => exact free
    next => exact ih

theorem drawAddress_handsOut (ipv6 : Bool) (attempts : Nat) (draws : List (Bytes 16)) :
    HandsOut addressmap (drawAddress text nets addressmap ipv6 attempts draws) := by
  induction attempts generalizing draws with
  | zero => exact trivial
  | succ attempts ih =>
    cases draws with
    | nil => rfl
    | cons rand draws =>
      obtain ⟨addr, made⟩ := getRandomVirtualAddr_ok nets ipv6 rand
      rw [drawAddress]
      simp only [made, bind, Except.bind]
      split
      next => exact ih draws
      next =>
        split
        next free =>
          split
          next => exact free
          next => exact ih draws
        next => exact ih draws

theorem addressmapGetVirtualAddress_handsOut (type : ResolvedType) (draws : List (Bytes 16)) :
    HandsOut addressmap (addressmapGetVirtualAddress text nets addressmap type draws) := by
  cases type with
  | hostname => exact drawHostname_handsOut draws
  | ipv4 => exact drawAddress_handsOut false 1000 draws
  | ipv6 => exact drawAddress_handsOut true 1000 draws
  | other => exact trivial

end Drawing

end RendezMix.Guarantees.VirtualAddresses
