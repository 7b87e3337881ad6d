import Mathlib
import RendezMix.Source.VoteDocument

/-!
# Protocol versions

Lists of protocol versions of `core/or/protover.c`: reading one, and writing it. A
pointer into a string is the rest of the string from there on, and the pointer to an
end is the number of characters up to it.
-/
namespace RendezMix.Source
open Library.Decimals

def maxProtocolVersion : Nat := 63

def maxProtocolNameLength : Nat := 100

/-- `TOR_ISALNUM` -/
def isAlnum (c : UInt8) : Bool :=
  isDigit c || (65 ≤ c.toNat && c.toNat ≤ 90) || (97 ≤ c.toNat && c.toNat ≤ 122)

structure ProtoEntry where
  name : CString
  bitmask : BitVec 64
  deriving DecidableEq, Repr

/-- `tor_parse_ulong(s, 10, min, max, &ok, &next)`: the value and `next` if it is ok. -/
def torParseUlongNext (s : CString) (min max : Nat) : Option (Nat × CString) :=
  match strtoul10 s with
  | .overflow => none
  | .nothing => none
  | .value r endptr => if max < min ∨ r < min ∨ max < r then none else some (r, endptr)

def memchr (s : CString) (c : UInt8) (n : Nat) : Option Nat := (s.take n).idxOf? c

/-- `TOR_ISDIGIT(*s)` -/
def startsWithDigit (s : CString) : Bool := s.head?.any isDigit

def parseVersionRange (s : CString) (endOfRange : Nat) : Option (Nat × Nat) :=
  if startsWithDigit s = false then none
  else
    match torParseUlongNext s 0 maxProtocolVersion with
    | none => none
    | some (low, next) =>
      if endOfRange < s.length - next.length then none
      else if s.length - next.length = endOfRange then some (low, low)
      else if next.head? ≠ some 45 then none
      else if startsWithDigit next.tail = false then none
      else
        match torParseUlongNext next.tail 0 maxProtocolVersion with
        | none => none
        | some (high, next') =>
          if s.length - next'.length ≠ endOfRange then none
          else if high < low then none
          else some (low, high)

def isValidKeyword (s : CString) : Bool := s.all fun c => isAlnum c || c == 45

def bitmaskForRange (low high : Nat) : BitVec 64 :=
  ((BitVec.allOnes 64 <<< (63 - high)) >>> (63 - high + low)) <<< low

variable (mask : BitVec 64) (s : CString) (zeros : Nat)

section

variable (x : BitVec 64)

theorem readDecimal_length (v : Nat) (rest : CString) (read : readDecimal s = some (v, rest)) :
    rest.length < s.length := by
  unfold readDecimal at read
  dsimp only at read
  split at read
  · cases read
  · next some =>
    cases read
    have few := (List.takeWhile_sublist (p := isDigit) (l := s)).length_le
    have := List.length_pos_iff.mpr some
    rw [List.length_drop]
    omega

theorem torParseUlongNext_length (min max v : Nat) (next : CString)
    (read : torParseUlongNext s min max = some (v, next)) : next.length < s.length := by
  have spaces := (List.dropWhile_sublist (l := s) isSpace).length_le
  unfold torParseUlongNext at read
  split at read
  · cases read
  · cases read
  · next r endptr converted =>
    split at read
    · cases read
    · cases read
      unfold strtoul10 at converted
      dsimp only at converted
      split at converted
      · cases converted
      · next value rest digits =>
        have shorter := readDecimal_length _ _ _ digits
        have unsigned : (if (s.dropWhile isSpace).head? = some 45
            ∨ (s.dropWhile isSpace).head? = some 43
            then (s.dropWhile isSpace).drop 1 else s.dropWhile isSpace).length ≤ s.length := by
          split
          · rw [List.length_drop]
            omega
          · exact spaces
        split at converted
        · cases converted
        · cases converted
          omega

/-- A range has at least one character. -/
theorem parseVersionRange_zero : parseVersionRange s 0 = none := by
  unfold parseVersionRange
  split
  · rfl
  split
  · rfl
  · next low next read =>
    have shorter := torParseUlongNext_length _ _ _ _ _ read
    rw [if_pos (by omega)]

/-- The loop of `parse_single_entry` over the ranges. -/
def parseRanges (s : CString) (endOfEntry : Nat) (bitmask : BitVec 64) : Option (BitVec 64) :=
  if endOfEntry = 0 then some bitmask
  else
    let comma := (memchr s 44 endOfEntry).getD endOfEntry
    match read : parseVersionRange s comma with
    | none => none
    | some (low, high) =>
      have progress : comma ≠ 0 := by
        intro zero
        rw [zero, parseVersionRange_zero] at read
        cases read
      let bitmask := bitmask ||| bitmaskForRange low high
      -- a comma that ends the entry is read again, as the start of a range
      if comma < endOfEntry - 1 then
        parseRanges (s.drop (comma + 1)) (endOfEntry - (comma + 1)) bitmask
      else parseRanges (s.drop comma) (endOfEntry - comma) bitmask
termination_by endOfEntry

def parseSingleEntry (s : CString) (endOfEntry : Nat) : Option ProtoEntry :=
  match memchr s 61 endOfEntry with
  | none => none
  | some equals =>
    if equals = 0 then none
    else if maxProtocolNameLength < equals then none
    else if isValidKeyword (s.take equals) = false then none
    else
      match parseRanges (s.drop (equals + 1)) (endOfEntry - (equals + 1)) 0 with
      | none => none
      | some bitmask => some { name := s.take equals, bitmask := bitmask }

/-- An entry has at least one character. -/
theorem parseSingleEntry_zero : parseSingleEntry s 0 = none := by
  rfl

theorem skipSpaces_length (n : Nat) (some : s ≠ []) (progress : n ≠ 0) :
    ((s.drop n).dropWhile (· == 32)).length < s.length := by
  have spaces := (List.dropWhile_sublist (l := s.drop n) (· == 32)).length_le
  have := List.length_pos_iff.mpr some
  rw [List.length_drop] at spaces
  omega

def parseProtocolList (s : CString) : Option (List ProtoEntry) :=
  if s = [] then some []
  else
    let endOfEntry := (s.idxOf? 32).getD s.length
    match read : parseSingleEntry s endOfEntry with
    | none => none
    | some entry =>
      have progress : endOfEntry ≠ 0 := by
        intro zero
        rw [zero, parseSingleEntry_zero] at read
        cases read
      match parseProtocolList ((s.drop endOfEntry).dropWhile (· == 32)) with
      | none => none
      | some entries => some (entry :: entries)
termination_by s.length
decreasing_by exact skipSpaces_length s endOfEntry ‹s ≠ []› progress

/-- `trailing_zeros`, with nothing where it is undefined. -/
def trailingZeros (x : BitVec 64) : Option Nat := (List.range 64).find? fun i => x.getLsbD i

theorem trailingZeros_eq_some (zeros : Nat) :
    trailingZeros x = some zeros
      ↔ x.getLsbD zeros = true ∧ ∀ i, i < zeros → x.getLsbD i = false := by
  rw [trailingZeros, List.find?_range_eq_some]
  constructor
  · rintro ⟨bit, -, before⟩
    exact ⟨bit, fun i less => by simpa using before i less⟩
  · rintro ⟨bit, before⟩
    have small := BitVec.lt_of_getLsbD bit
    exact ⟨bit, List.mem_range.mpr small, fun i less => by simpa using before i less⟩

theorem trailingZeros_eq_none : trailingZeros x = none ↔ x = 0 := by
  rw [trailingZeros, List.find?_eq_none]
  constructor
  · intro clear
    apply BitVec.eq_of_getLsbD_eq
    intro i less
    simpa using clear i (List.mem_range.mpr less)
  · rintro rfl i -
    simp

end

section

variable (found : trailingZeros mask = some zeros)

include found

/-- What is left of a mask has its lowest bit set, once the zeros are shifted out. -/
theorem shiftRight_zeros_bit : (mask >>> zeros).getLsbD 0 = true := by
  rw [BitVec.getLsbD_ushiftRight, Nat.add_zero]
  exact ((trailingZeros_eq_some mask zeros).mp found).left

theorem shiftRight_zeros_ne : mask >>> zeros ≠ 0 := by
  intro zero
  have bit := shiftRight_zeros_bit mask zeros found
  rw [zero] at bit
  simp at bit

end

theorem shiftRight_lt (ones : Nat) (nonzero : mask ≠ 0) (found : trailingZeros mask = some zeros)
    (run : (if mask >>> zeros = 0 then some 64 else trailingZeros (~~~(mask >>> zeros)))
      = some ones) : ((mask >>> zeros) >>> ones).toNat < mask.toNat := by
  rw [if_neg (shiftRight_zeros_ne mask zeros found)] at run
  have positive : ones ≠ 0 := by
    rintro rfl
    have clear := ((trailingZeros_eq_some _ _).mp run).left
    rw [BitVec.getLsbD_not, shiftRight_zeros_bit mask zeros found] at clear
    simp at clear
  have some := BitVec.toNat_ne.mp nonzero
  rw [BitVec.toNat_ushiftRight, BitVec.toNat_ushiftRight, Nat.shiftRight_eq_div_pow,
    Nat.shiftRight_eq_div_pow]
  calc mask.toNat / 2 ^ zeros / 2 ^ ones
      ≤ mask.toNat / 2 ^ ones := Nat.div_le_div_right (Nat.div_le_self _ _)
    _ < mask.toNat := Nat.div_lt_self (Nat.pos_of_ne_zero some) (Nat.one_lt_two_pow positive)

/-- The loop of `proto_entry_encode_into`, with nothing where `trailing_zeros` is
undefined. -/
def encodeRanges (mask : BitVec 64) (shift : Nat) (first : Bool) : Option (List CString) :=
  if empty : mask = 0 then some []
  else
    let comma : CString := if first then [] else [44]
    match found : trailingZeros mask with
    | none => none
    | some zeros =>
      let mask₁ := mask >>> zeros
      let shift₁ := shift + zeros
      match run : if mask₁ = 0 then some 64 else trailingZeros (~~~mask₁) with
      | none => none
      | some ones =>
        have := shiftRight_lt mask zeros ones empty found run
        let chunk := if ones = 1 then comma ++ decimal shift₁
          else comma ++ decimal shift₁ ++ [45] ++ decimal (shift₁ + ones - 1)
        if ones = 64 then some [chunk]
        else
          match encodeRanges (mask₁ >>> ones) (shift₁ + ones) false with
          | none => none
          | some chunks => some (chunk :: chunks)
termination_by mask.toNat

def protoEntryEncodeInto (entry : ProtoEntry) : Option (List CString) :=
  match encodeRanges entry.bitmask 0 true with
  | none => none
  | some chunks => some ((entry.name ++ [61]) :: chunks)

/-- The loop of `encode_protocol_list`. -/
def encodeEntries (separator : CString) : List ProtoEntry → Option (List CString)
  | [] => some []
  | ent :: sl =>
    match protoEntryEncodeInto ent with
    | none => none
    | some chunks =>
      match encodeEntries [32] sl with
      | none => none
      | some rest => some (separator :: chunks ++ rest)

def encodeProtocolList (sl : List ProtoEntry) : Option CString :=
  match encodeEntries [] sl with
  | none => none
  | some chunks => some chunks.flatten

end RendezMix.Source

/-!
# Voting on protocol versions, and asking for them

The queries of `core/or/protover.c` on lists of protocol versions, and the list that a
vote comes to. A failed assertion or an undefined count of trailing zeros is `none`.
-/
namespace RendezMix.Source

def bit (x : Nat) : BitVec 64 := 1#64 <<< x

inductive ProtocolType
  | link
  | linkauth
  | relay
  | dircache
  | hsdir
  | hsintro
  | hsrend
  | desc
  | microdesc
  | cons
  | padding
  | flowctrl
  deriving DecidableEq, Repr

def protocolTypeToStr : ProtocolType → CString
  | .link => textBytes "Link"
  | .linkauth => textBytes "LinkAuth"
  | .relay => textBytes "Relay"
  | .dircache => textBytes "DirCache"
  | .hsdir => textBytes "HSDir"
  | .hsintro => textBytes "HSIntro"
  | .hsrend => textBytes "HSRend"
  | .desc => textBytes "Desc"
  | .microdesc => textBytes "Microdesc"
  | .padding => textBytes "Padding"
  | .cons => textBytes "Cons"
  | .flowctrl => textBytes "FlowCtrl"

def findEntryByName (protos : List ProtoEntry) (name : CString) : Option ProtoEntry :=
  protos.find? fun ent => ent.name = name

def protocolListContains (protos : List ProtoEntry) (pr : ProtocolType) (ver : Nat) : Bool :=
  if maxProtocolVersion < ver then false
  else
    match findEntryByName protos (protocolTypeToStr pr) with
    | some ent => ent.bitmask &&& bit ver ≠ 0
    | none => false

def protocolListSupportsProtocol (list : CString) (tp : ProtocolType) (version : Nat) : Bool :=
  match parseProtocolList list with
  | none => false
  | some protocols => protocolListContains protocols tp version

def protocolListSupportsProtocolOrLater (list : CString) (tp : ProtocolType) (version : Nat) :
    Bool :=
  match parseProtocolList list with
  | none => false
  | some protocols =>
    protocols.any fun proto => decide (SameCase proto.name (protocolTypeToStr tp))
      && proto.bitmask &&& bitmaskForRange version 63 ≠ 0

/-! ## What is supported here -/

/-- `protover_get_supported`; `secrets` is `HAVE_WORKING_TOR_TLS_GET_TLSSECRETS`. -/
def protoverGetSupported (secrets : Bool) : ProtocolType → CString
  | .cons => textBytes "1-2"
  | .desc => textBytes "1-2"
  | .dircache => textBytes "2"
  | .flowctrl => textBytes "1-2"
  | .hsdir => textBytes "2"
  | .hsintro => textBytes "4-5"
  | .hsrend => textBytes "1-2"
  | .link => textBytes "1-5"
  | .linkauth => if secrets then textBytes "1,3" else textBytes "3"
  | .microdesc => textBytes "1-2"
  | .padding => textBytes "2"
  | .relay => textBytes "1-4"

def protoverGetSupportedProtocols (secrets : Bool) : CString :=
  textBytes "Cons=" ++ protoverGetSupported secrets .cons
    ++ textBytes " Desc=" ++ protoverGetSupported secrets .desc
    ++ textBytes " DirCache=" ++ protoverGetSupported secrets .dircache
    ++ textBytes " FlowCtrl=" ++ protoverGetSupported secrets .flowctrl
    ++ textBytes " HSDir=" ++ protoverGetSupported secrets .hsdir
    ++ textBytes " HSIntro=" ++ protoverGetSupported secrets .hsintro
    ++ textBytes " HSRend=" ++ protoverGetSupported secrets .hsrend
    ++ textBytes " Link=" ++ protoverGetSupported secrets .link
    ++ textBytes " LinkAuth=" ++ protoverGetSupported secrets .linkauth
    ++ textBytes " Microdesc=" ++ protoverGetSupported secrets .microdesc
    ++ textBytes " Padding=" ++ protoverGetSupported secrets .padding
    ++ textBytes " Relay=" ++ protoverGetSupported secrets .relay

def getSupportedProtocolList (secrets : Bool) : List ProtoEntry :=
  (parseProtocolList (protoverGetSupportedProtocols secrets)).getD []

/-- What `protover_all_supported` says of one entry: the versions of it that are missing. -/
def missingEntry (supported : List ProtoEntry) (ent : ProtoEntry) : Option ProtoEntry :=
  match findEntryByName supported ent.name with
  | none => if ent.bitmask ≠ 0 then some ent else none
  | some mine =>
    if ent.bitmask &&& ~~~mine.bitmask ≠ 0 then
      some { name := ent.name, bitmask := ent.bitmask &&& ~~~mine.bitmask }
    else none

/-- `protover_all_supported`: the answer, and what `*missing_out` is set to, if it is. -/
def protoverAllSupported (secrets : Bool) (s : Option CString) : Option (Bool × Option CString) :=
  match s.bind parseProtocolList with
  | none => some (true, none)
  | some entries =>
    let missing := entries.filterMap (missingEntry (getSupportedProtocolList secrets))
    if missing = [] then some (true, none)
    else
      match encodeProtocolList missing with
      | none => none
      | some missingOut => some (false, some missingOut)

/-! ## Voting -/

/-- The loop that adds the names in a vote to the list. -/
def addProtoNames (protoNames : List CString) (unexpanded : List ProtoEntry) : List CString :=
  unexpanded.foldl (fun protoNames ent =>
    if ent.name ∈ protoNames then protoNames else protoNames ++ [ent.name]) protoNames

/-- `counts[i]` for one name. -/
def countVersion (parsed : List (List ProtoEntry)) (name : CString) (i : Nat) : UInt8 :=
  parsed.foldl (fun counts vote =>
    match findEntryByName vote name with
    | none => counts
    | some ent => if ent.bitmask &&& bit i ≠ 0 then counts + 1 else counts) 0

/-- `result_bitmask` for one name. -/
def resultBitmask (parsed : List (List ProtoEntry)) (threshold : Int) (name : CString) :
    BitVec 64 :=
  (List.range 64).foldl (fun mask i =>
    if threshold ≤ (countVersion parsed name i).toNat then mask ||| bit i else mask) 0

/-- The entries that the consensus lists. -/
def consensusEntries (parsed : List (List ProtoEntry)) (threshold : Int) : List ProtoEntry :=
  (smartlistSortStrings (parsed.foldl addProtoNames [])).filterMap fun name =>
    if resultBitmask parsed threshold name ≠ 0 then
      some { name := name, bitmask := resultBitmask parsed threshold name }
    else none

def protoverComputeVote (listOfProtoStrings : List CString) (threshold : Int) : Option CString :=
  if 256 ≤ listOfProtoStrings.length then none
  else if listOfProtoStrings.length = 0 then some []
  else encodeProtocolList (consensusEntries (listOfProtoStrings.filterMap parseProtocolList)
    threshold)

end RendezMix.Source
