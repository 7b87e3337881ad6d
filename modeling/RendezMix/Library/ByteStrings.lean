import Mathlib.Tactic.Ring

/-!
# Byte strings

Big-endian numbers of a fixed width, arrays of a fixed size, and taking such
arrays off the front of a string.
-/
namespace RendezMix.Library.ByteStrings

/-- The `width` low bytes of a number, most significant first. -/
def bigEndian : Nat → Nat → List UInt8
  | 0, _ => []
  | width + 1, n => UInt8.ofNat (n / 256 ^ width) :: bigEndian width n

/-- The number a big-endian byte string stands for. -/
def ofBigEndian : List UInt8 → Nat
  | [] => 0
  | byte :: rest => byte.toNat * 256 ^ rest.length + ofBigEndian rest

section

variable (width n : Nat) (front memory bytes rest : List UInt8)

@[simp] theorem bigEndian_length : (bigEndian width n).length = width := by
  induction width with
  | zero => rfl
  | succ width ih => simp [bigEndian, ih]

theorem ofBigEndian_bigEndian : ofBigEndian (bigEndian width n) = n % 256 ^ width := by
  induction width with
  | zero => simp [bigEndian, ofBigEndian, Nat.mod_one]
  | succ width ih =>
    have digit : (UInt8.ofNat (n / 256 ^ width)).toNat = n / 256 ^ width % 256 := by simp
    rw [bigEndian, ofBigEndian, bigEndian_length, ih, digit, Nat.pow_succ, Nat.mod_mul]
    ring

theorem ofBigEndian_bigEndian_of_lt (bound : n < 256 ^ width) :
    ofBigEndian (bigEndian width n) = n := by
  rw [ofBigEndian_bigEndian, Nat.mod_eq_of_lt bound]

theorem ofBigEndian_lt : ofBigEndian bytes < 256 ^ bytes.length := by
  induction bytes with
  | nil => exact Nat.one_pos
  | cons byte bytes ih =>
    rw [ofBigEndian, List.length_cons, Nat.pow_succ, Nat.mul_comm (256 ^ bytes.length)]
    have digit : byte.toNat + 1 ≤ 256 := byte.toNat_lt
    have most := Nat.mul_le_mul_right (256 ^ bytes.length) digit
    rw [Nat.add_mul, Nat.one_mul] at most
    omega

theorem ofBigEndian_append (a b : List UInt8) :
    ofBigEndian (a ++ b) = ofBigEndian a * 256 ^ b.length + ofBigEndian b := by
  induction a with
  | nil => simp [ofBigEndian]
  | cons byte a ih =>
    rw [List.cons_append, ofBigEndian, ofBigEndian, ih, List.length_append, Nat.pow_add]
    ring

/-! ## Groups of two and of three -/

/-- What takes a list two by two. -/
@[elab_as_elim] theorem pairs_induction {α : Type} {motive : List α → Prop} (none : motive [])
    (one : ∀ a, motive [a]) (more : ∀ a b rest, motive rest → motive (a :: b :: rest)) :
    ∀ src, motive src
  | [] => none
  | [a] => one a
  | a :: b :: rest => more a b rest (pairs_induction none one more rest)

/-- What takes a list three by three. -/
@[elab_as_elim] theorem triples_induction {α : Type} {motive : List α → Prop} (none : motive [])
    (one : ∀ a, motive [a]) (two : ∀ a b, motive [a, b])
    (more : ∀ a b c rest, motive rest → motive (a :: b :: c :: rest)) : ∀ src, motive src
  | [] => none
  | [a] => one a
  | [a, b] => two a b
  | a :: b :: c :: rest => more a b c rest (triples_induction none one two more rest)

/-! ## Numbers of two and four bytes -/

def be16 (x : UInt16) : List UInt8 := bigEndian 2 x.toNat

def be32 (x : UInt32) : List UInt8 := bigEndian 4 x.toNat

def getUint16 (bytes : List UInt8) : UInt16 := UInt16.ofNat (ofBigEndian bytes)

def getUint32 (bytes : List UInt8) : UInt32 := UInt32.ofNat (ofBigEndian bytes)

@[simp] theorem be16_length (x : UInt16) : (be16 x).length = 2 := bigEndian_length 2 _

@[simp] theorem be32_length (x : UInt32) : (be32 x).length = 4 := bigEndian_length 4 _

@[simp] theorem getUint16_be16 (x : UInt16) : getUint16 (be16 x) = x := by
  unfold getUint16 be16
  rw [ofBigEndian_bigEndian_of_lt 2 _ x.toNat_lt]
  exact UInt16.ofNat_toNat

@[simp] theorem getUint32_be32 (x : UInt32) : getUint32 (be32 x) = x := by
  unfold getUint32 be32
  rw [ofBigEndian_bigEndian_of_lt 4 _ x.toNat_lt]
  exact UInt32.ofNat_toNat

/-! ## Arrays -/

/-- Arrays of `n` bytes. -/
abbrev Bytes (n : Nat) := { bytes : List UInt8 // bytes.length = n }

/-- A string cut off or filled up with zeros. -/
def fit (n : Nat) (bytes : List UInt8) : Bytes n :=
  ⟨bytes.take n ++ List.replicate (n - bytes.length) 0, by simp; omega⟩

theorem fit_val (room : bytes.length ≤ n) :
    (fit n bytes).val = bytes ++ List.replicate (n - bytes.length) 0 := by
  change bytes.take n ++ _ = _
  rw [List.take_of_length_le room]

@[simp] theorem fit_bytes {n : Nat} (bytes : Bytes n) : fit n bytes.val = bytes := by
  apply Subtype.ext
  rw [fit_val n _ bytes.property.le, bytes.property, Nat.sub_self, List.replicate_zero,
    List.append_nil]

theorem fit_take (room : bytes.length ≤ n) : (fit n bytes).val.take bytes.length = bytes := by
  rw [fit_val n bytes room, List.take_left]

theorem fit_append (room : front.length ≤ n) :
    (fit n (front ++ rest)).val = front ++ (fit (n - front.length) rest).val := by
  have left : n - (front ++ rest).length = n - front.length - rest.length := by
    rw [List.length_append]
    omega
  change (front ++ rest).take n ++ _ = front ++ (rest.take _ ++ _)
  rw [List.take_append, List.take_of_length_le room, left, List.append_assoc]

/-- What follows a body in a buffer begins with a zero. -/
theorem fit_head (room : 0 < n) (zero : rest.headD 0 = 0) : (fit n rest).val.head? = some 0 := by
  obtain ⟨m, rfl⟩ := Nat.exists_eq_succ_of_ne_zero (by omega : n ≠ 0)
  cases rest with
  | nil => rfl
  | cons byte rest =>
    change some byte = some 0
    rw [List.headD_cons] at zero
    rw [zero]

/-- Take `n` bytes off a string that has as many. -/
def takeBytes (n : Nat) (input : List UInt8) : Option (Bytes n × List UInt8) :=
  if room : n ≤ input.length then
    some (⟨input.take n, List.length_take_of_le room⟩, input.drop n)
  else none

theorem takeBytes_append {n : Nat} (bytes : Bytes n) (rest : List UInt8) :
    takeBytes n (bytes.val ++ rest) = some (bytes, rest) := by
  have room : n ≤ (bytes.val ++ rest).length := by
    rw [List.length_append, bytes.property]
    omega
  have front : (bytes.val ++ rest).take n = bytes.val := List.take_left' bytes.property
  have back : (bytes.val ++ rest).drop n = rest := List.drop_left' bytes.property
  rw [takeBytes, dif_pos room]
  exact congrArg some (Prod.ext (Subtype.ext front) back)

theorem takeBytes_of_length (length : front.length = n) :
    takeBytes n (front ++ rest) = some (⟨front, length⟩, rest) :=
  takeBytes_append ⟨front, length⟩ rest

/-! ## Looking into memory -/

/-- The bytes of a string at an offset. -/
def bytesAt (memory : List UInt8) (offset length : Nat) : List UInt8 :=
  (memory.drop offset).take length

theorem bytesAt_of_append (middle rest : List UInt8) (offset length : Nat)
    (start : front.length = offset) (size : middle.length = length) :
    bytesAt (front ++ (middle ++ rest)) offset length = middle := by
  rw [bytesAt, List.drop_left' start, List.take_left' size]

theorem bytesAt_zero (length : Nat) : bytesAt memory 0 length = memory.take length := by
  rw [bytesAt, List.drop_zero]

theorem bytesAt_length (offset length : Nat) (room : offset + length ≤ memory.length) :
    (bytesAt memory offset length).length = length := by
  rw [bytesAt, List.length_take, List.length_drop]
  omega

theorem bytesAt_fit (length : Nat) (room : bytes.length ≤ n) (within : length ≤ bytes.length) :
    bytesAt (fit n bytes).val 0 length = bytesAt bytes 0 length := by
  rw [fit_val n bytes room, bytesAt_zero, bytesAt_zero, List.take_append_of_le_length within]

theorem bytesAt_bytesAt (inner outer : Nat) (within : inner ≤ outer) :
    bytesAt (bytesAt memory 0 outer) 0 inner = bytesAt memory 0 inner := by
  rw [bytesAt_zero, bytesAt_zero, bytesAt_zero, List.take_take, Nat.min_eq_left within]

/-- Strings that begin with the same bytes look the same there. -/
theorem bytesAt_congr {memory memory' : List UInt8} {n : Nat} (same : memory'.take n = memory.take n)
    (offset length : Nat) (room : offset + length ≤ n) :
    bytesAt memory' offset length = bytesAt memory offset length := by
  have inside : ∀ bytes : List UInt8,
      bytesAt bytes offset length = ((bytes.take n).drop offset).take length := by
    intro bytes
    rw [bytesAt, List.drop_take, List.take_take, Nat.min_eq_left (by omega)]
  rw [inside, inside, same]

/-- Looking inside the zeros after a string. -/
theorem bytesAt_zeros (zeros offset length : Nat) (start : front.length ≤ offset)
    (size : offset + length ≤ front.length + zeros) :
    bytesAt (front ++ (List.replicate zeros 0 ++ rest)) offset length =
      List.replicate length 0 := by
  have before : offset - front.length - zeros = 0 := by omega
  have left : length ≤ zeros - (offset - front.length) := by omega
  rw [bytesAt, List.drop_append, List.drop_eq_nil_of_le start, List.nil_append,
    List.drop_append, List.drop_replicate, List.length_replicate, before, List.drop_zero,
    List.take_append_of_le_length (by rw [List.length_replicate]; exact left),
    List.take_replicate, Nat.min_eq_left left]

end

end RendezMix.Library.ByteStrings

/-!
# Reading memory

Computations that say which indices they read. A pointer carries the index of the byte it points
to, so that what is read through it counts from one origin however far it was moved.
-/
namespace RendezMix.Library.MemoryReads
open ByteStrings

/-- What a computation returns, and the indices that it reads. -/
structure Recording (α : Type) where
  result : α
  indices : List Int

namespace Recording

variable {α β : Type}

instance : Monad Recording where
  pure x := ⟨x, []⟩
  bind first next := ⟨(next first.result).result, first.indices ++ (next first.result).indices⟩

section

variable (x : α) (f : α → β) (reading first : Recording α) (next : α → Recording β)
  (low high : Int)

@[simp] theorem pure_result : (pure x : Recording α).result = x := rfl

@[simp] theorem bind_result : (first >>= next).result = (next first.result).result := rfl

@[simp] theorem map_result : (f <$> reading).result = f reading.result := rfl

/-- Every index that is read lies from `low` up to `high`. -/
def Within (reading : Recording α) (low high : Int) : Prop :=
  ∀ i ∈ reading.indices, low ≤ i ∧ i < high

instance (reading : Recording α) (low high : Int) : Decidable (reading.Within low high) :=
  inferInstanceAs (Decidable (∀ i ∈ reading.indices, low ≤ i ∧ i < high))

@[simp] theorem within_pure : (pure x : Recording α).Within low high := by
  intro i member
  cases member

@[simp] theorem within_bind :
    (first >>= next).Within low high ↔
      first.Within low high ∧ (next first.result).Within low high :=
  List.forall_mem_append

@[simp] theorem within_map : (f <$> reading).Within low high ↔ reading.Within low high := by
  change (reading >>= fun x => pure (f x)).Within low high ↔ _
  rw [within_bind]
  exact and_iff_left (within_pure _ low high)

end

end Recording

/-- The memory from the byte `index` on. -/
structure Pointer where
  memory : List UInt8
  index : Int

namespace Pointer

def advance (pointer : Pointer) (n : Nat) : Pointer :=
  ⟨pointer.memory.drop n, pointer.index + n⟩

section

variable (pointer : Pointer) (offset length : Nat)

@[simp] theorem advance_memory (n : Nat) :
    (pointer.advance n).memory = pointer.memory.drop n := rfl

@[simp] theorem advance_index (n : Nat) : (pointer.advance n).index = pointer.index + n := rfl

/-- Read `length` bytes at an offset. -/
def read (pointer : Pointer) (offset length : Nat) : Recording (List UInt8) where
  result := bytesAt pointer.memory offset length
  indices := (List.range length).map fun (k : Nat) => pointer.index + offset + k

@[simp] theorem read_result :
    (pointer.read offset length).result = bytesAt pointer.memory offset length := rfl

theorem read_within_iff (low high : Int) :
    (pointer.read offset length).Within low high ↔
      (0 < length → low ≤ pointer.index + offset ∧ pointer.index + offset + length ≤ high) := by
  unfold Recording.Within read
  simp only [List.mem_map, List.mem_range, forall_exists_index, and_imp,
    forall_apply_eq_imp_iff₂]
  constructor
  · intro inside some
    have first := inside 0 some
    have last := inside (length - 1) (by omega)
    omega
  · intro inside k below
    have ends := inside (by omega)
    omega

end

end Pointer

end RendezMix.Library.MemoryReads
