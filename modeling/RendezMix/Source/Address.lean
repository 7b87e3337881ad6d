import RendezMix.Library.ByteStrings

/-!
# Network addresses

`tor_addr_t` and what `lib/net/address.c` does with it, with the masked comparison.
Two addresses of the family `AF_UNIX` are compared by their pointers there; here no two
of them are the same object.
-/
namespace RendezMix.Source
open Library.ByteStrings

/-- `tor_addr_t`; an IPv4 address is kept in host order. -/
inductive TorAddr
  | unspec
  | inet (addr : UInt32)
  | inet6 (addr : Bytes 16)
  | unix
  | other (family : UInt16)
  deriving DecidableEq

structure TorAddrPort where
  addr : TorAddr
  port : UInt16
  deriving DecidableEq

def torAddrIsNull : TorAddr → Bool
  | .unspec => true
  | .inet addr => addr = 0
  | .inet6 addr => addr = fit 16 []
  | .unix => true
  | .other _ => false

/-- `tor_addr_port_is_valid_ap`, not for listening. -/
def torAddrPortIsValidAp (ap : TorAddrPort) : Bool := !torAddrIsNull ap.addr && ap.port != 0

def torAddrToIpv4h : TorAddr → UInt32
  | .inet addr => addr
  | _ => 0

def torAddrCopyIpv6Bytes : TorAddr → Bytes 16
  | .inet6 addr => addr
  | _ => fit 16 []

/-! ## Masked comparison -/

inductive SaFamily
  | unspec
  | inet
  | inet6
  | unix
  | other (family : UInt16)
  deriving DecidableEq, Repr

/-- The values on Linux. -/
def SaFamily.value : SaFamily → Nat
  | .unspec => 0
  | .inet => 2
  | .inet6 => 10
  | .unix => 1
  | .other family => family.toNat

def torAddrFamily : TorAddr → SaFamily
  | .unspec => .unspec
  | .inet _ => .inet
  | .inet6 _ => .inet6
  | .unix => .unix
  | .other family => .other family

/-- `tor_addr_to_mapped_ipv4h`, which does not check that the address is a mapped one. -/
def torAddrToMappedIpv4h : TorAddr → UInt32
  | .inet6 addr => getUint32 (addr.val.drop 12)
  | _ => 0

def torAddrIsV4 : TorAddr → Bool
  | .inet _ => true
  | .inet6 addr => addr.val.take 12 = List.replicate 10 0 ++ [255, 255]
  | _ => false

inductive TorAddrComparison
  | exact
  | semantic
  deriving DecidableEq, Repr

def tristate (a b : Nat) : Int := if a < b then -1 else if a = b then 0 else 1

/-- `TRISTATE` of two families. -/
def tristateFamily (family1 family2 : SaFamily) : Int :=
  if family1.value < family2.value then -1 else if family1 = family2 then 0 else 1

/-- `tor_memcmp`: the difference at the first byte in which the strings differ. -/
def torMemcmp : List UInt8 → List UInt8 → Int
  | x :: a, y :: b => if x = y then torMemcmp a b else x.toNat - y.toNat
  | _, _ => 0

/-- The branch `AF_INET` of the comparison. -/
def compareMaskedIpv4 (a1 a2 : UInt32) (mbits : Nat) : Int :=
  if mbits = 0 then 0
  else
    let mbits := if mbits > 32 then 32 else mbits
    tristate (a1.toNat >>> (32 - mbits)) (a2.toNat >>> (32 - mbits))

/-- The branch `AF_INET6` of the comparison. -/
def compareMaskedIpv6 (a1 a2 : List UInt8) (mbits : Nat) : Int :=
  let mbits := if mbits > 128 then 128 else mbits
  let bytes := mbits / 8
  let leftoverBits := mbits % 8
  let r := torMemcmp (a1.take bytes) (a2.take bytes)
  if bytes ≠ 0 ∧ r ≠ 0 then r
  else if leftoverBits ≠ 0 then
    tristate ((a1.getD bytes 0).toNat >>> (8 - leftoverBits))
      ((a2.getD bytes 0).toNat >>> (8 - leftoverBits))
  else 0

/-- Unequal families that are compared by what the addresses mean. -/
def compareMaskedSemantic (addr1 addr2 : TorAddr) (mbits : Nat) : Int :=
  let vFamily (addr : TorAddr) : SaFamily := if torAddrIsV4 addr then .inet else torAddrFamily addr
  let a2 := if torAddrFamily addr2 = .inet6 then torAddrToMappedIpv4h addr2 else torAddrToIpv4h addr2
  if mbits = 0 then 0
  else if vFamily addr1 = vFamily addr2 then
    if torAddrFamily addr1 = .inet6 then
      if mbits ≤ 96 then 0
      else compareMaskedIpv4 (torAddrToMappedIpv4h addr1) a2 (mbits - 96)
    else compareMaskedIpv4 (torAddrToIpv4h addr1) a2 mbits
  else tristateFamily (torAddrFamily addr1) (torAddrFamily addr2)

def torAddrCompareMasked (addr1 addr2 : TorAddr) (mbits : UInt8) (how : TorAddrComparison) : Int :=
  match addr1, addr2 with
  | .unspec, .unspec => 0
  | .inet a1, .inet a2 => compareMaskedIpv4 a1 a2 mbits.toNat
  | .inet6 a1, .inet6 a2 => compareMaskedIpv6 a1.val a2.val mbits.toNat
  | .unix, .unix => 1
  | addr1, addr2 =>
    if torAddrFamily addr1 = torAddrFamily addr2 then 0
    else if how = .exact then tristateFamily (torAddrFamily addr1) (torAddrFamily addr2)
    else compareMaskedSemantic addr1 addr2 mbits.toNat

/-! ## When two addresses agree under a mask -/

section

variable {mbits : UInt8} {addr1 addr2 : TorAddr}

theorem tristate_eq_zero (a b : Nat) : tristate a b = 0 ↔ a = b := by
  unfold tristate
  split
  next less =>
    constructor
    · intro absurd
      cases absurd
    · omega
  next => split <;> simp_all

theorem torMemcmp_eq_zero (a b : List UInt8) (length : a.length = b.length) :
    torMemcmp a b = 0 ↔ a = b := by
  induction a generalizing b with
  | nil =>
    cases b with
    | nil => simp [torMemcmp]
    | cons => simp at length
  | cons x a ih =>
    cases b with
    | nil => simp at length
    | cons y b =>
      rw [torMemcmp, List.cons.injEq]
      split
      next same =>
        rw [ih b (by simpa using length)]
        exact (and_iff_right same).symm
      next differ =>
        have apart : x.toNat ≠ y.toNat := fun same => differ (UInt8.toNat_inj.mp same)
        constructor
        · omega
        · exact fun same => absurd same.1 differ

/-- Numbers of `width` bits agree in their first `mbits` bits. -/
theorem shiftRight_eq_of_le {a b width n m : Nat} (less : n ≤ m) (most : m ≤ width)
    (same : a >>> (width - m) = b >>> (width - m)) : a >>> (width - n) = b >>> (width - n) := by
  have split : width - n = (width - m) + (m - n) := by omega
  rw [split, Nat.shiftRight_add, Nat.shiftRight_add, same]

theorem compareMaskedIpv4_eq_zero (a1 a2 : UInt32) (mbits : Nat) :
    compareMaskedIpv4 a1 a2 mbits = 0
      ↔ a1.toNat >>> (32 - min mbits 32) = a2.toNat >>> (32 - min mbits 32) := by
  have clamped : (if mbits > 32 then 32 else mbits) = min mbits 32 := by
    split <;> omega
  unfold compareMaskedIpv4
  split
  next none =>
    have whole : 32 - min mbits 32 = 32 := by omega
    rw [whole, Nat.shiftRight_eq_div_pow, Nat.shiftRight_eq_div_pow, Nat.div_eq_of_lt a1.toNat_lt,
      Nat.div_eq_of_lt a2.toNat_lt]
    exact iff_of_true rfl rfl
  next => rw [clamped, tristate_eq_zero]

/-- The first bits of two strings agree: whole bytes, and the rest in the next byte. -/
def SameBits (a1 a2 : List UInt8) (mbits : Nat) : Prop :=
  a1.take (mbits / 8) = a2.take (mbits / 8)
    ∧ (a1.getD (mbits / 8) 0).toNat >>> (8 - mbits % 8)
      = (a2.getD (mbits / 8) 0).toNat >>> (8 - mbits % 8)

theorem compareMaskedIpv6_eq_zero (a1 a2 : List UInt8) (mbits : Nat)
    (length : a1.length = a2.length) :
    compareMaskedIpv6 a1 a2 mbits = 0 ↔ SameBits a1 a2 (min mbits 128) := by
  have clamped : (if mbits > 128 then 128 else mbits) = min mbits 128 := by
    split <;> omega
  have none : ∀ byte : UInt8, byte.toNat >>> 8 = 0 := by
    intro byte
    rw [Nat.shiftRight_eq_div_pow]
    exact Nat.div_eq_of_lt byte.toNat_lt
  unfold compareMaskedIpv6 SameBits
  rw [clamped]
  simp only
  generalize min mbits 128 = mbits
  rw [← torMemcmp_eq_zero (a1.take (mbits / 8)) (a2.take (mbits / 8)) (by simp [length])]
  split
  next differ => exact iff_of_false differ.2 fun same => differ.2 same.1
  next same =>
    have whole : torMemcmp (a1.take (mbits / 8)) (a2.take (mbits / 8)) = 0 := by
      by_cases empty : mbits / 8 = 0
      · rw [empty]
        rfl
      · exact not_not.mp fun differ => same ⟨empty, differ⟩
    split
    next => rw [tristate_eq_zero, and_iff_right whole]
    next noneLeft =>
      rw [not_not.mp noneLeft, none, none]
      simp [whole]

theorem SameBits.mono {a1 a2 : List UInt8} {n m : Nat} (less : n ≤ m) (same : SameBits a1 a2 m) :
    SameBits a1 a2 n := by
  obtain ⟨whole, rest⟩ := same
  by_cases level : n / 8 = m / 8
  · rw [← level] at whole rest
    exact ⟨whole, shiftRight_eq_of_le (by omega) (by omega) rest⟩
  · have below : n / 8 < m / 8 := lt_of_le_of_ne (Nat.div_le_div_right less) level
    constructor
    · have shorter := congrArg (List.take (n / 8)) whole
      rwa [List.take_take, List.take_take, Nat.min_eq_left below.le] at shorter
    · have byte := congrArg (fun bytes => bytes.getD (n / 8) 0) whole
      simp only [List.getD_eq_getElem?_getD, List.getElem?_take_of_lt below] at byte ⊢
      rw [byte]

/-- Two addresses are of one family and agree in the first `mbits` bits. -/
def SamePrefix (mbits : UInt8) (addr1 addr2 : TorAddr) : Prop :=
  torAddrCompareMasked addr1 addr2 mbits .exact = 0

instance (mbits : UInt8) (addr1 addr2 : TorAddr) : Decidable (SamePrefix mbits addr1 addr2) :=
  inferInstanceAs (Decidable (torAddrCompareMasked addr1 addr2 mbits .exact = 0))

theorem samePrefix_iff (mbits : UInt8) (addr1 addr2 : TorAddr) :
    SamePrefix mbits addr1 addr2 ↔
      match addr1, addr2 with
      | .unspec, .unspec => True
      | .other family1, .other family2 => family1 = family2
      | .inet a1, .inet a2 =>
        a1.toNat >>> (32 - min mbits.toNat 32) = a2.toNat >>> (32 - min mbits.toNat 32)
      | .inet6 a1, .inet6 a2 => SameBits a1.val a2.val (min mbits.toNat 128)
      | _, _ => False := by
  unfold SamePrefix torAddrCompareMasked
  cases addr1 <;> cases addr2
  case inet.inet a1 a2 => exact compareMaskedIpv4_eq_zero a1 a2 mbits.toNat
  case inet6.inet6 a1 a2 =>
    exact compareMaskedIpv6_eq_zero a1.val a2.val mbits.toNat (a1.property.trans a2.property.symm)
  all_goals simp [torAddrFamily, tristateFamily]
  all_goals split <;> simp

section

variable (same : SamePrefix mbits addr1 addr2)

include same

theorem SamePrefix.family : torAddrFamily addr1 = torAddrFamily addr2 := by
  rw [samePrefix_iff] at same
  cases addr1 <;> cases addr2
  case other.other => exact congrArg SaFamily.other same
  all_goals first | rfl | exact same.elim

theorem SamePrefix.symm : SamePrefix mbits addr2 addr1 := by
  rw [samePrefix_iff] at same ⊢
  cases addr1 <;> cases addr2
  case inet.inet => exact Eq.symm same
  case inet6.inet6 => exact ⟨same.1.symm, same.2.symm⟩
  case other.other => exact Eq.symm same
  all_goals exact same

end

theorem SamePrefix.trans {addr1 addr2 addr3 : TorAddr} (first : SamePrefix mbits addr1 addr2)
    (second : SamePrefix mbits addr2 addr3) : SamePrefix mbits addr1 addr3 := by
  rw [samePrefix_iff] at first second ⊢
  cases addr1 <;> cases addr2 <;> cases addr3
  case inet.inet.inet => exact Eq.trans first second
  case inet6.inet6.inet6 => exact ⟨first.1.trans second.1, first.2.trans second.2⟩
  case other.other.other => exact Eq.trans first second
  all_goals first | exact first | exact first.elim | exact second.elim

/-- A shorter mask sees fewer differences. -/
theorem SamePrefix.mono {n m : UInt8} (less : n ≤ m) (same : SamePrefix m addr1 addr2) :
    SamePrefix n addr1 addr2 := by
  have shorter : n.toNat ≤ m.toNat := UInt8.le_iff_toNat_le.mp less
  rw [samePrefix_iff] at same ⊢
  cases addr1 <;> cases addr2
  case inet.inet => exact shiftRight_eq_of_le (by omega) (by omega) same
  case inet6.inet6 => exact same.mono (by omega)
  all_goals exact same

/-- Without a mask only the families count. -/
theorem samePrefix_zero (family : torAddrFamily addr1 = torAddrFamily addr2)
    (notUnix : torAddrFamily addr1 ≠ .unix) : SamePrefix 0 addr1 addr2 := by
  rw [samePrefix_iff]
  cases addr1 <;> cases addr2
  case inet.inet a1 a2 => exact (compareMaskedIpv4_eq_zero a1 a2 0).mp rfl
  case inet6.inet6 a1 a2 =>
    exact (compareMaskedIpv6_eq_zero a1.val a2.val 0 (a1.property.trans a2.property.symm)).mp rfl
  case other.other => exact SaFamily.other.inj family
  case unix.unix => exact notUnix rfl
  all_goals first | exact trivial | cases family

end

end RendezMix.Source
