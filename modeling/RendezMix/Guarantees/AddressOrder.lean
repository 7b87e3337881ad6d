import RendezMix.Source.RouterStatus

/-!
# The order of addresses

`tor_addr_compare` orders any addresses exactly. By their meaning it does not: an IPv4 address
equals the mapped address that stands for it, but it comes before every IPv6 address that is
not mapped, also before those that a mapped address comes after.
-/
namespace RendezMix.Guarantees.AddressOrder
open Library.ByteStrings Library.Comparisons Source SaFamily

/-- An IPv4 address, an IPv6 address or none. -/
abbrev IpAddr := {addr : TorAddr // torAddrFamily addr ∈ [unspec, .inet, .inet6]}

theorem IpAddr.kinds (addr : IpAddr) :
    addr.val = .unspec ∨ (∃ a, addr.val = .inet a) ∨ ∃ a, addr.val = .inet6 a := by
  obtain ⟨addr, family⟩ := addr
  cases addr with
  | unspec => exact Or.inl rfl
  | inet a => exact Or.inr (Or.inl ⟨a, rfl⟩)
  | inet6 a => exact Or.inr (Or.inr ⟨a, rfl⟩)
  | unix | other => simp [torAddrFamily] at family

/-! ## The bits of an address -/

def addressWidth : TorAddr → Nat
  | .inet _ => 32
  | .inet6 _ => 128
  | _ => 0

/-- A bit of a byte string, counted from the most significant bit of the first byte. -/
def byteBit (bytes : List UInt8) (i : Nat) : Bool :=
  (bytes.getD (i / 8) 0).toNat.testBit (7 - i % 8)

/-- A bit of an address, counted from the left. -/
def addressBit (addr : TorAddr) (i : Nat) : Bool :=
  match addr with
  | .inet a => a.toNat.testBit (31 - i)
  | .inet6 a => byteBit a.val i
  | _ => false

theorem shiftRight_eq_iff {x y width n : Nat} (first : x < 2 ^ width) (second : y < 2 ^ width)
    (most : n ≤ width) :
    x >>> (width - n) = y >>> (width - n)
      ↔ ∀ i < n, x.testBit (width - 1 - i) = y.testBit (width - 1 - i) := by
  constructor
  · intro same i less
    have bit := congrArg (fun z => z.testBit (n - 1 - i)) same
    have place : width - n + (n - 1 - i) = width - 1 - i := by omega
    simpa only [Nat.testBit_shiftRight, place] using bit
  · intro same
    apply Nat.eq_of_testBit_eq
    intro j
    rw [Nat.testBit_shiftRight, Nat.testBit_shiftRight]
    by_cases inside : width - n + j < width
    · have place : width - n + j = width - 1 - (n - 1 - j) := by omega
      rw [place]
      exact same _ (by omega)
    · have large : 2 ^ width ≤ 2 ^ (width - n + j) := Nat.pow_le_pow_right (by omega) (by omega)
      rw [Nat.testBit_lt_two_pow (by omega), Nat.testBit_lt_two_pow (by omega)]

theorem byte_shiftRight_eq_iff (x y : UInt8) {n : Nat} (most : n ≤ 8) :
    x.toNat >>> (8 - n) = y.toNat >>> (8 - n)
      ↔ ∀ i < n, x.toNat.testBit (7 - i) = y.toNat.testBit (7 - i) :=
  shiftRight_eq_iff x.toNat_lt y.toNat_lt most

theorem take_eq_iff {a b : List UInt8} {n : Nat} (length : a.length = b.length)
    (most : n ≤ a.length) : a.take n = b.take n ↔ ∀ j < n, a.getD j 0 = b.getD j 0 := by
  constructor
  · intro same j less
    have at_j := congrArg (fun bytes => bytes.getD j 0) same
    simpa only [List.getD_eq_getElem?_getD, List.getElem?_take_of_lt less] using at_j
  · intro same
    apply List.ext_getElem (by simp [length])
    intro j first second
    rw [List.length_take] at first second
    have at_j := same j (by omega)
    have inside : j < a.length ∧ j < b.length := by omega
    rw [List.getD_eq_getElem?_getD, List.getD_eq_getElem?_getD, List.getElem?_eq_getElem inside.1,
      List.getElem?_eq_getElem inside.2] at at_j
    rw [List.getElem_take, List.getElem_take]
    exact at_j

theorem sameBits_iff {a b : List UInt8} {m : Nat} (length : a.length = b.length)
    (most : m ≤ 8 * a.length) : SameBits a b m ↔ ∀ i < m, byteBit a i = byteBit b i := by
  have last : m % 8 ≤ 8 := by omega
  rw [SameBits, take_eq_iff length (by omega), byte_shiftRight_eq_iff _ _ last]
  constructor
  · intro same i less
    by_cases whole : i / 8 < m / 8
    · rw [byteBit, byteBit, same.1 _ whole]
    · have level : i / 8 = m / 8 := by omega
      rw [byteBit, byteBit, level]
      exact same.2 _ (by omega)
  · intro same
    constructor
    · intro j less
      have bits : ∀ r < 8, (a.getD j 0).toNat.testBit (7 - r)
          = (b.getD j 0).toNat.testBit (7 - r) := by
        intro r small
        have bit := same (8 * j + r) (by omega)
        have byte : (8 * j + r) / 8 = j := by omega
        have place : (8 * j + r) % 8 = r := by omega
        rwa [byteBit, byteBit, byte, place] at bit
      exact UInt8.toNat_inj.mp ((byte_shiftRight_eq_iff _ _ le_rfl).mpr bits)
    · intro r small
      have bit := same (8 * (m / 8) + r) (by omega)
      have byte : (8 * (m / 8) + r) / 8 = m / 8 := by omega
      have place : (8 * (m / 8) + r) % 8 = r := by omega
      rwa [byteBit, byteBit, byte, place] at bit

variable (a : IpAddr) (p : Bytes 16) (b : IpAddr) (how : TorAddrComparison)

theorem torAddrCompareMasked_exact (m : UInt8) :
    torAddrCompareMasked a.val b.val m .exact = 0
      ↔ torAddrFamily a.val = torAddrFamily b.val
        ∧ ∀ i < min m.toNat (addressWidth a.val), addressBit a.val i = addressBit b.val i := by
  change SamePrefix m a.val b.val ↔ _
  rw [samePrefix_iff]
  rcases a.kinds with first | ⟨x, first⟩ | ⟨p, first⟩ <;>
    rcases b.kinds with second | ⟨y, second⟩ | ⟨q, second⟩ <;>
    simp only [first, second, torAddrFamily, addressWidth, addressBit, reduceCtorEq, false_and,
      true_and]
  · simp
  · exact shiftRight_eq_iff x.toNat_lt y.toNat_lt (Nat.min_le_right _ _)
  · apply sameBits_iff (p.2.trans q.2.symm)
    rw [p.2]
    exact Nat.min_le_right _ _

/-! ## Comparing numbers -/

theorem tristate_swap (a b : Nat) : tristate b a = -tristate a b := by
  unfold tristate
  split <;> split <;> (try split) <;> omega

theorem tristate_le (a b : Nat) : tristate a b ≤ 0 ↔ a ≤ b := by
  unfold tristate
  split <;> (try split) <;> omega

theorem torMemcmp_swap (a b : List UInt8) : torMemcmp b a = -torMemcmp a b := by
  induction a generalizing b with
  | nil => cases b <;> rfl
  | cons x a ih =>
    cases b with
    | nil => rfl
    | cons y b =>
      rw [torMemcmp, torMemcmp]
      by_cases same : x = y
      · rw [if_pos same, if_pos same.symm, ih]
      · rw [if_neg same, if_neg fun other => same other.symm]
        omega

theorem torMemcmp_le (a b : List UInt8) (length : a.length = b.length) :
    torMemcmp a b ≤ 0 ↔ ofBigEndian a ≤ ofBigEndian b := by
  induction a generalizing b with
  | nil =>
    rw [List.eq_nil_of_length_eq_zero length.symm]
    exact iff_of_true le_rfl le_rfl
  | cons x a ih =>
    cases b with
    | nil => cases length
    | cons y b =>
      have length' : a.length = b.length := Nat.succ.inj length
      have low := ofBigEndian_lt a
      have low' := ofBigEndian_lt b
      rw [torMemcmp, ofBigEndian, ofBigEndian, ← length']
      rw [← length'] at low'
      split
      next same =>
        rw [same, ih b length']
        omega
      next differ =>
        have apart : x.toNat ≠ y.toNat := fun same => differ (UInt8.toNat_inj.mp same)
        by_cases less : x.toNat < y.toNat
        · have more := Nat.mul_le_mul_right (256 ^ a.length) less
          rw [Nat.succ_mul] at more
          constructor <;> omega
        · have most : y.toNat + 1 ≤ x.toNat := by omega
          have more := Nat.mul_le_mul_right (256 ^ a.length) most
          rw [Nat.succ_mul] at more
          constructor <;> omega

section

variable (x y : UInt32) (q : Bytes 16)

theorem compare_inet6 (how : TorAddrComparison) :
    torAddrCompare (.inet6 p) (.inet6 q) how = torMemcmp p.val q.val := by
  have whole : torAddrCompare (.inet6 p) (.inet6 q) how = compareMaskedIpv6 p.val q.val 128 := rfl
  have first : p.val.take 16 = p.val := List.take_of_length_le (le_of_eq p.2)
  have second : q.val.take 16 = q.val := List.take_of_length_le (le_of_eq q.2)
  rw [whole]
  unfold compareMaskedIpv6
  simp only [gt_iff_lt, lt_irrefl, if_false, Nat.reduceDiv, Nat.reduceMod, first, second, ne_eq,
    not_true_eq_false, OfNat.ofNat_ne_zero, not_false_eq_true, true_and]
  split
  next => rfl
  next same => exact (not_not.mp same).symm

theorem compare_inet (how : TorAddrComparison) :
    torAddrCompare (.inet x) (.inet y) how = tristate x.toNat y.toNat := rfl

theorem compare_inet_inet6 (how : TorAddrComparison) :
    torAddrCompare (.inet x) (.inet6 q) how
      = if how = .semantic ∧ torAddrIsV4 (.inet6 q) = true
        then tristate x.toNat (torAddrToMappedIpv4h (.inet6 q)).toNat else -1 := by
  cases how with
  | exact => rfl
  | semantic =>
    have whole : torAddrCompare (.inet x) (.inet6 q) .semantic
        = compareMaskedSemantic (.inet x) (.inet6 q) 128 := rfl
    rw [whole]
    unfold compareMaskedSemantic
    cases mapped : torAddrIsV4 (.inet6 q) with
    | true =>
      simp only [mapped, and_self, if_true]
      rfl
    | false =>
      simp only [mapped, Bool.false_eq_true, and_false, if_false]
      rfl

theorem compare_inet6_inet (how : TorAddrComparison) :
    torAddrCompare (.inet6 p) (.inet y) how
      = if how = .semantic ∧ torAddrIsV4 (.inet6 p) = true
        then tristate (torAddrToMappedIpv4h (.inet6 p)).toNat y.toNat else 1 := by
  cases how with
  | exact => rfl
  | semantic =>
    have whole : torAddrCompare (.inet6 p) (.inet y) .semantic
        = compareMaskedSemantic (.inet6 p) (.inet y) 128 := rfl
    rw [whole]
    unfold compareMaskedSemantic
    cases mapped : torAddrIsV4 (.inet6 p) with
    | true =>
      simp only [mapped, and_self, if_true]
      rfl
    | false =>
      simp only [mapped, Bool.false_eq_true, and_false, if_false]
      rfl

theorem compare_unspec :
    torAddrCompare .unspec b.val how = if b.val = .unspec then 0 else -1 := by
  rcases b.kinds with same | ⟨y, same⟩ | ⟨q, same⟩ <;> rw [same] <;> cases how
  · rfl
  · rfl
  · rfl
  · rfl
  · rfl
  · change compareMaskedSemantic .unspec (.inet6 q) 128 = _
    unfold compareMaskedSemantic
    have none : torAddrIsV4 .unspec = false := rfl
    cases mapped : torAddrIsV4 (.inet6 q) <;> simp only [none, mapped] <;> rfl

theorem compare_unspec_right :
    torAddrCompare a.val .unspec how = if a.val = .unspec then 0 else 1 := by
  rcases a.kinds with same | ⟨x, same⟩ | ⟨p, same⟩ <;> rw [same] <;> cases how
  · rfl
  · rfl
  · rfl
  · rfl
  · rfl
  · change compareMaskedSemantic (.inet6 p) .unspec 128 = _
    unfold compareMaskedSemantic
    have none : torAddrIsV4 .unspec = false := rfl
    cases mapped : torAddrIsV4 (.inet6 p) <;> simp only [none, mapped] <;> rfl

theorem torAddrCompare_swap : torAddrCompare b.val a.val how = -torAddrCompare a.val b.val how := by
  rcases a.kinds with first | ⟨x, first⟩ | ⟨p, first⟩
  · rw [first, compare_unspec_right, compare_unspec]
    split <;> rfl
  · rcases b.kinds with second | ⟨y, second⟩ | ⟨q, second⟩
    · rw [second, compare_unspec_right, compare_unspec, first]
      rfl
    · rw [first, second, compare_inet, compare_inet, tristate_swap]
    · rw [first, second, compare_inet_inet6, compare_inet6_inet]
      split
      next => exact tristate_swap _ _
      next => rfl
  · rcases b.kinds with second | ⟨y, second⟩ | ⟨q, second⟩
    · rw [second, compare_unspec_right, compare_unspec, first]
      rfl
    · rw [first, second, compare_inet_inet6, compare_inet6_inet]
      split
      next => exact tristate_swap _ _
      next => rfl
    · rw [first, second, compare_inet6, compare_inet6, torMemcmp_swap]

/-! ## The number of an IPv6 address -/

def ipv6Number (a : Bytes 16) : Nat := ofBigEndian a.val

theorem ofBigEndian_inj {a b : List UInt8} (length : a.length = b.length)
    (same : ofBigEndian a = ofBigEndian b) : a = b := by
  have le := (torMemcmp_le a b length).mpr same.le
  have ge := (torMemcmp_le b a length.symm).mpr same.ge
  rw [torMemcmp_swap a b] at ge
  exact (torMemcmp_eq_zero a b length).mp (by omega)

theorem ipv6Number_split (a : Bytes 16) :
    ipv6Number a = ofBigEndian (a.val.take 12) * 2 ^ 32 + ofBigEndian (a.val.drop 12)
      ∧ ofBigEndian (a.val.drop 12) < 2 ^ 32 := by
  have length : (a.val.drop 12).length = 4 := by rw [List.length_drop, a.2]
  have low := ofBigEndian_lt (a.val.drop 12)
  have whole := ofBigEndian_append (a.val.take 12) (a.val.drop 12)
  rw [List.take_append_drop] at whole
  rw [length] at low whole
  exact ⟨whole, low⟩

theorem torAddrIsV4_inet6 (a : Bytes 16) :
    torAddrIsV4 (.inet6 a) = true ↔ ipv6Number a / 2 ^ 32 = 65535 := by
  obtain ⟨whole, low⟩ := ipv6Number_split a
  have high : ipv6Number a / 2 ^ 32 = ofBigEndian (a.val.take 12) := by omega
  have length : (a.val.take 12).length = (List.replicate 10 (0 : UInt8) ++ [255, 255]).length := by
    rw [List.length_take, a.2]
    rfl
  have value : ofBigEndian (List.replicate 10 0 ++ [255, 255]) = 65535 := by decide
  rw [high, ← value, torAddrIsV4, decide_eq_true_eq]
  exact ⟨congrArg ofBigEndian, ofBigEndian_inj length⟩

theorem torAddrToMappedIpv4h_inet6 (a : Bytes 16) :
    (torAddrToMappedIpv4h (.inet6 a)).toNat = ipv6Number a % 2 ^ 32 := by
  obtain ⟨whole, low⟩ := ipv6Number_split a
  rw [torAddrToMappedIpv4h, getUint32, UInt32.toNat_ofNat']
  omega

theorem inet6_le (how : TorAddrComparison) :
    torAddrCompare (.inet6 p) (.inet6 q) how ≤ 0 ↔ ipv6Number p ≤ ipv6Number q := by
  rw [compare_inet6]
  exact torMemcmp_le p.val q.val (p.2.trans q.2.symm)

end

/-! ## When the comparison is an order -/

/-- The number that the bytes of an address stand for. -/
def addressNumber : TorAddr → Nat
  | .inet a => a.toNat
  | .inet6 a => ipv6Number a
  | _ => 0

section

variable {S : Set IpAddr}

theorem torAddrCompare_exact_le :
    torAddrCompare a.val b.val .exact ≤ 0
      ↔ (torAddrFamily a.val).value < (torAddrFamily b.val).value
        ∨ (torAddrFamily a.val).value = (torAddrFamily b.val).value
          ∧ addressNumber a.val ≤ addressNumber b.val := by
  rcases a.kinds with first | ⟨x, first⟩ | ⟨p, first⟩
  · rw [first, compare_unspec]
    rcases b.kinds with second | ⟨y, second⟩ | ⟨q, second⟩ <;>
      simp [second, torAddrFamily, value, addressNumber]
  · rcases b.kinds with second | ⟨y, second⟩ | ⟨q, second⟩
    · rw [second, compare_unspec_right, first]
      simp [torAddrFamily, value]
    · rw [first, second, compare_inet, tristate_le]
      simp [torAddrFamily, addressNumber]
    · rw [first, second, compare_inet_inet6]
      simp [torAddrFamily, value]
  · rcases b.kinds with second | ⟨y, second⟩ | ⟨q, second⟩
    · rw [second, compare_unspec_right, first]
      simp [torAddrFamily, value]
    · rw [first, second, compare_inet6_inet]
      simp [torAddrFamily, value]
    · rw [first, second, inet6_le]
      simp [torAddrFamily, addressNumber]

/-- By their meaning, addresses are in the order of their families too, but for IPv4 addresses
and mapped ones. -/
theorem torAddrCompare_semantic_le :
    torAddrCompare a.val b.val .semantic ≤ 0
      ↔ (torAddrFamily a.val).value = (torAddrFamily b.val).value
          ∧ addressNumber a.val ≤ addressNumber b.val
        ∨ (torAddrFamily a.val).value < (torAddrFamily b.val).value
          ∧ ¬ ((torAddrFamily a.val).value = 2 ∧ addressNumber b.val / 2 ^ 32 = 65535
            ∧ addressNumber b.val % 2 ^ 32 < addressNumber a.val)
        ∨ (torAddrFamily b.val).value = 2 ∧ (torAddrFamily a.val).value = 10
          ∧ addressNumber a.val / 2 ^ 32 = 65535
          ∧ addressNumber a.val % 2 ^ 32 ≤ addressNumber b.val := by
  rcases a.kinds with first | ⟨x, first⟩ | ⟨p, first⟩
  · rw [first, compare_unspec]
    rcases b.kinds with second | ⟨y, second⟩ | ⟨q, second⟩ <;>
      simp [second, torAddrFamily, value, addressNumber]
  · rcases b.kinds with second | ⟨y, second⟩ | ⟨q, second⟩
    · rw [second, compare_unspec_right]
      simp [first, torAddrFamily, value]
    · rw [first, second, compare_inet, tristate_le]
      simp [torAddrFamily, value, addressNumber]
    · rw [first, second, compare_inet_inet6]
      simp only [torAddrIsV4_inet6, torAddrToMappedIpv4h_inet6]
      split
      next mapped =>
        rw [tristate_le]
        simp [torAddrFamily, value, addressNumber]
        omega
      next other =>
        rw [true_and] at other
        simp [torAddrFamily, value, addressNumber]
        omega
  · rcases b.kinds with second | ⟨y, second⟩ | ⟨q, second⟩
    · rw [second, compare_unspec_right]
      simp [first, torAddrFamily, value]
    · rw [first, second, compare_inet6_inet]
      simp only [torAddrIsV4_inet6, torAddrToMappedIpv4h_inet6]
      split
      next mapped =>
        rw [tristate_le]
        simp [torAddrFamily, value, addressNumber]
        omega
      next other =>
        rw [true_and] at other
        simp [torAddrFamily, value, addressNumber]
        omega
    · rw [first, second, inet6_le]
      simp [torAddrFamily, value, addressNumber]

theorem IpAddr.value :
    (torAddrFamily a.val).value = 0 ∧ addressNumber a.val = 0
      ∨ (torAddrFamily a.val).value = 2 ∧ addressNumber a.val < 2 ^ 32
      ∨ (torAddrFamily a.val).value = 10 := by
  rcases a.kinds with same | ⟨x, same⟩ | ⟨p, same⟩ <;> rw [same]
  · exact Or.inl ⟨rfl, rfl⟩
  · exact Or.inr (Or.inl ⟨rfl, x.toNat_lt⟩)
  · exact Or.inr (Or.inr rfl)

/-- Among the addresses are an IPv4 address, a mapped address that stands for the same one or
for one before it, and an IPv6 address that comes before the mapped ones. -/
def Crossing (S : Set IpAddr) : Prop :=
  ∃ v4 ∈ S, ∃ low ∈ S, ∃ mapped ∈ S, torAddrFamily v4.val = .inet
    ∧ torAddrFamily low.val = .inet6 ∧ torAddrFamily mapped.val = .inet6
    ∧ addressNumber low.val / 2 ^ 32 < 65535 ∧ addressNumber mapped.val / 2 ^ 32 = 65535
    ∧ addressNumber mapped.val % 2 ^ 32 ≤ addressNumber v4.val

theorem IpAddr.family_inet {a : IpAddr} (value : (torAddrFamily a.val).value = 2) :
    torAddrFamily a.val = .inet := by
  rcases a.kinds with same | ⟨x, same⟩ | ⟨p, same⟩ <;> rw [same] at value ⊢ <;>
    first | rfl | cases value

theorem IpAddr.family_inet6 {a : IpAddr} (value : (torAddrFamily a.val).value = 10) :
    torAddrFamily a.val = .inet6 := by
  rcases a.kinds with same | ⟨x, same⟩ | ⟨p, same⟩ <;> rw [same] at value ⊢ <;>
    first | rfl | cases value

theorem torAddrCompare_exact_trans (c : IpAddr) (first : torAddrCompare a.val b.val .exact ≤ 0)
    (second : torAddrCompare b.val c.val .exact ≤ 0) : torAddrCompare a.val c.val .exact ≤ 0 := by
  rw [torAddrCompare_exact_le] at *
  omega

theorem torAddrCompare_semantic_trans (apart : ¬ Crossing S) {a b c : IpAddr} (inA : a ∈ S)
    (inB : b ∈ S) (inC : c ∈ S) (first : torAddrCompare a.val b.val .semantic ≤ 0)
    (second : torAddrCompare b.val c.val .semantic ≤ 0) :
    torAddrCompare a.val c.val .semantic ≤ 0 := by
  have uncrossed : ∀ v4 ∈ S, ∀ low ∈ S, ∀ mapped ∈ S, ¬ ((torAddrFamily v4.val).value = 2
      ∧ (torAddrFamily low.val).value = 10 ∧ (torAddrFamily mapped.val).value = 10
      ∧ addressNumber low.val / 2 ^ 32 < 65535 ∧ addressNumber mapped.val / 2 ^ 32 = 65535
      ∧ addressNumber mapped.val % 2 ^ 32 ≤ addressNumber v4.val) := by
    rintro v4 inV4 low inLow mapped inMapped ⟨inet, inet6, inet6', before, at_, most⟩
    exact apart ⟨v4, inV4, low, inLow, mapped, inMapped, IpAddr.family_inet inet,
      IpAddr.family_inet6 inet6, IpAddr.family_inet6 inet6', before, at_, most⟩
  have valueA := a.value
  have valueB := b.value
  have valueC := c.value
  have order := uncrossed a inA b inB c inC
  have order' := uncrossed c inC a inA b inB
  have order'' := uncrossed b inB c inC a inA
  rw [torAddrCompare_semantic_le] at *
  rcases valueA with ⟨familyA, _⟩ | ⟨familyA, _⟩ | familyA <;>
    rcases valueB with ⟨familyB, _⟩ | ⟨familyB, _⟩ | familyB <;>
    rcases valueC with ⟨familyC, _⟩ | ⟨familyC, _⟩ | familyC <;>
    simp [familyA, familyB, familyC] at first second order order' order'' ⊢ <;> omega

theorem torAddrCompare_crossing (crossing : Crossing S) :
    ∃ a ∈ S, ∃ b ∈ S, ∃ c ∈ S, torAddrCompare a.val b.val .semantic ≤ 0
      ∧ torAddrCompare b.val c.val .semantic ≤ 0 ∧ ¬ torAddrCompare a.val c.val .semantic ≤ 0 := by
  obtain ⟨v4, inV4, low, inLow, mapped, inMapped, inet, inet6, inet6', before, at_, most⟩ :=
    crossing
  refine ⟨low, inLow, mapped, inMapped, v4, inV4, ?_, ?_, ?_⟩ <;>
    rw [torAddrCompare_semantic_le]
  · simp only [inet6, inet6', value, true_and]
    omega
  · simp only [inet, inet6', value, true_and]
    omega
  · simp only [inet, inet6, value, true_and]
    omega

/-- Addresses are ordered unless they are compared by their meaning and cross each other; under
a mask they compare equal exactly when they are of one family and agree in its bits. -/
theorem torAddrCompare_total_iff (how : TorAddrComparison) (S : Set IpAddr) :
    ((TotalPreorder fun a b : S => torAddrCompare a.1.val b.1.val how)
        ∧ (∀ a ∈ S, torAddrCompare a.val a.val how = 0)
        ∧ ∀ (a b : IpAddr) (m : UInt8), torAddrCompareMasked a.val b.val m .exact = 0
          ↔ torAddrFamily a.val = torAddrFamily b.val
            ∧ ∀ i < min m.toNat (addressWidth a.val), addressBit a.val i = addressBit b.val i)
      ↔ ¬ (how = .semantic ∧ Crossing S) := by
  constructor
  · rintro ⟨total, -, -⟩ ⟨rfl, crossing⟩
    obtain ⟨a, inA, b, inB, c, inC, first, second, not⟩ := torAddrCompare_crossing crossing
    exact not (total.trans ⟨a, inA⟩ ⟨b, inB⟩ ⟨c, inC⟩ first second)
  · intro apart
    have total : TotalPreorder fun a b : S => torAddrCompare a.1.val b.1.val how := by
      constructor
      · intro a b
        have swap := torAddrCompare_swap a.1 b.1 how
        omega
      · intro a b c first second
        cases how with
        | exact => exact torAddrCompare_exact_trans a.1 b.1 c.1 first second
        | semantic =>
          exact torAddrCompare_semantic_trans (fun crossing => apart ⟨rfl, crossing⟩) a.2 b.2 c.2
            first second
    exact ⟨total, fun a inA => total.self ⟨a, inA⟩, torAddrCompareMasked_exact⟩

/-- `1.2.3.4` comes before `::1`, which comes before `::ffff:1.2.3.4`, which equals the first. -/
theorem torAddrCompare_not_total :
    ¬ ∀ how, TotalPreorder fun a b : IpAddr => torAddrCompare a.val b.val how := by
  intro total
  let v4 : IpAddr := ⟨.inet 0x01020304, by decide⟩
  let low : IpAddr := ⟨.inet6 (fit 16 (List.replicate 15 0 ++ [1])), by decide⟩
  let mapped : IpAddr :=
    ⟨.inet6 (fit 16 (List.replicate 10 0 ++ [255, 255, 1, 2, 3, 4])), by decide⟩
  have trans := (total .semantic).trans low mapped v4 (by decide) (by decide)
  exact absurd trans (by decide)

end

end RendezMix.Guarantees.AddressOrder
