import RendezMix.Library.NumberRuns
import RendezMix.Source.Protover

/-!
# The ranges of a version mask

`proto_entry_encode_into` writes the maximal runs of the mask's bits, in ascending
order. It counts the ones at the bottom of the mask as the trailing zeros of its
complement, which has none if every bit of the mask is set.
-/
namespace RendezMix.Guarantees.ProtocolRanges
open Library.Decimals Library.NumberRuns Source

/-- The versions of an entry. -/
def versions (mask : BitVec 64) (n : Nat) : Prop := mask.getLsbD n = true

/-- A range as it is written. -/
def rangeText (range : Nat × Nat) : CString :=
  if range.1 = range.2 then decimal range.1 else decimal range.1 ++ [45] ++ decimal range.2

/-- The strings that are written for ranges. -/
def rangeChunks (first : Bool) : List (Nat × Nat) → List CString
  | [] => []
  | range :: ranges => ((if first then [] else [44]) ++ rangeText range) :: rangeChunks false ranges

section

variable (mask : BitVec 64) (shift : Nat) (first : Bool)

theorem shiftRight_ne_allOnes (n : Nat) (some : mask ≠ BitVec.allOnes 64) :
    mask >>> n ≠ BitVec.allOnes 64 := by
  intro full
  have bit : ∀ i, i < 64 → mask.getLsbD (n + i) = true := by
    intro i less
    rw [← BitVec.getLsbD_ushiftRight, full, BitVec.getLsbD_allOnes]
    exact decide_eq_true less
  have top := BitVec.lt_of_getLsbD (bit 63 (by omega))
  apply some
  apply BitVec.eq_of_getLsbD_eq
  intro i less
  have set := bit i less
  rw [show n = 0 by omega, Nat.zero_add] at set
  rw [set, BitVec.getLsbD_allOnes, decide_eq_true less]

theorem trailingZeros_not (ones : Nat) (found : trailingZeros (~~~mask) = some ones) :
    ones < 64 ∧ mask.getLsbD ones = false ∧ ∀ i, i < ones → mask.getLsbD i = true := by
  obtain ⟨stop, set⟩ := (trailingZeros_eq_some _ _).mp found
  have small := BitVec.lt_of_getLsbD stop
  rw [BitVec.getLsbD_not, Bool.and_eq_true, Bool.not_eq_true'] at stop
  refine ⟨small, stop.right, ?_⟩
  intro i less
  have bit := set i less
  rw [BitVec.getLsbD_not, decide_eq_true (by omega), Bool.true_and, Bool.not_eq_false'] at bit
  exact bit

theorem trailingZeros_not_none : trailingZeros (~~~mask) = none ↔ mask = BitVec.allOnes 64 := by
  rw [trailingZeros_eq_none, BitVec.not_eq_comm]
  exact Iff.rfl

theorem rangeText_ones (low ones : Nat) (positive : 0 < ones) :
    rangeText (low, low + ones - 1)
      = if ones = 1 then decimal low else decimal low ++ [45] ++ decimal (low + ones - 1) := by
  unfold rangeText
  by_cases one : ones = 1
  · rw [if_pos one, if_pos (by omega)]
  · rw [if_neg one, if_neg (by omega)]

theorem encodeRanges_eq (zeros ones : Nat) (nonzero : mask ≠ 0)
    (found : trailingZeros mask = some zeros)
    (run : trailingZeros (~~~(mask >>> zeros)) = some ones) (positive : 0 < ones)
    (small : ones < 64) :
    encodeRanges mask shift first
      = (encodeRanges ((mask >>> zeros) >>> ones) (shift + zeros + ones) false).map
        (((if first then [] else [44])
          ++ rangeText (shift + zeros, shift + zeros + ones - 1)) :: ·) := by
  rw [encodeRanges, dif_neg nonzero, rangeText_ones _ _ positive]
  generalize (if first then [] else [44] : CString) = comma
  dsimp only
  split
  next undefined =>
    rw [found] at undefined
    cases undefined
  next zeros' found' =>
    rw [found] at found'
    cases found'
    split
    next undefined =>
      rw [if_neg (shiftRight_zeros_ne mask zeros found), run] at undefined
      cases undefined
    next ones' run' =>
      rw [if_neg (shiftRight_zeros_ne mask zeros found), run] at run'
      cases run'
      rw [if_neg (by omega)]
      have chunk : (if ones = 1 then comma ++ decimal (shift + zeros)
          else comma ++ decimal (shift + zeros) ++ [45] ++ decimal (shift + zeros + ones - 1))
          = comma ++ (if ones = 1 then decimal (shift + zeros)
            else decimal (shift + zeros) ++ [45] ++ decimal (shift + zeros + ones - 1)) := by
        split <;> simp only [List.append_assoc]
      rw [chunk]
      cases encodeRanges ((mask >>> zeros) >>> ones) (shift + zeros + ones) false <;> rfl

/-- One round of the loop: the zeros at the bottom, then the ones above them. -/
theorem encodeRanges_round (nonzero : mask ≠ 0) (notFull : mask ≠ BitVec.allOnes 64) :
    ∃ zeros ones, 0 < ones ∧ (∀ i, i < zeros → mask.getLsbD i = false)
      ∧ (∀ i, i < ones → mask.getLsbD (zeros + i) = true)
      ∧ mask.getLsbD (zeros + ones) = false
      ∧ ((mask >>> zeros) >>> ones).toNat < mask.toNat
      ∧ (mask >>> zeros) >>> ones ≠ BitVec.allOnes 64
      ∧ encodeRanges mask shift first
        = (encodeRanges ((mask >>> zeros) >>> ones) (shift + zeros + ones) false).map
          (((if first then [] else [44])
            ++ rangeText (shift + zeros, shift + zeros + ones - 1)) :: ·) := by
  obtain ⟨zeros, found⟩ := Option.ne_none_iff_exists'.mp
    fun undefined => nonzero ((trailingZeros_eq_none mask).mp undefined)
  have rest := shiftRight_zeros_ne mask zeros found
  have notFull₁ := shiftRight_ne_allOnes mask zeros notFull
  obtain ⟨ones, run⟩ := Option.ne_none_iff_exists'.mp
    fun undefined => notFull₁ ((trailingZeros_not_none _).mp undefined)
  obtain ⟨small, stop, set⟩ := trailingZeros_not _ _ run
  have lowest := shiftRight_zeros_bit mask zeros found
  have positive : 0 < ones := by
    apply Nat.pos_of_ne_zero
    rintro rfl
    rw [stop] at lowest
    cases lowest
  refine ⟨zeros, ones, positive, ((trailingZeros_eq_some _ _).mp found).right, ?_, ?_,
    shiftRight_lt mask zeros ones nonzero found (by rw [if_neg rest]; exact run),
    shiftRight_ne_allOnes _ _ notFull₁, ?_⟩
  · intro i less
    rw [← BitVec.getLsbD_ushiftRight]
    exact set i less
  · rw [← BitVec.getLsbD_ushiftRight]
    exact stop
  · exact encodeRanges_eq mask shift first zeros ones nonzero found run positive small

/-- The loop never reaches an undefined count from a mask that is not full, and writes
the runs of the bits that are left. -/
theorem encodeRanges_scan (p : Nat → Prop) (mask : BitVec 64) (shift : Nat) (first : Bool)
    (bits : ∀ i, mask.getLsbD i = true ↔ p (shift + i)) (notFull : mask ≠ BitVec.allOnes 64) :
    ∃ runs, Scan p shift runs
      ∧ encodeRanges mask shift first = some (rangeChunks first runs) := by
  induction size : mask.toNat using Nat.strong_induction_on generalizing mask shift first with
  | _ size ih =>
    by_cases nonzero : mask = 0
    · refine ⟨[], Scan.nil shift ?_, ?_⟩
      · intro n far holds
        have bit := (bits (n - shift)).mpr (by rw [Nat.add_sub_cancel' far]; exact holds)
        rw [nonzero] at bit
        simp at bit
      · rw [encodeRanges, dif_pos nonzero]
        rfl
    · obtain ⟨zeros, ones, positive, clear, set, stop, shorter, notFull', round⟩ :=
        encodeRanges_round mask shift first nonzero notFull
      have bits' : ∀ i, ((mask >>> zeros) >>> ones).getLsbD i = true
          ↔ p (shift + zeros + ones + i) := by
        intro i
        rw [BitVec.getLsbD_ushiftRight, BitVec.getLsbD_ushiftRight, bits]
        simp only [Nat.add_assoc]
      obtain ⟨runs, scan, rest⟩ := ih _ (size ▸ shorter) _ _ false bits' notFull' rfl
      refine ⟨(shift + zeros, shift + zeros + ones - 1) :: runs, ?_, ?_⟩
      · apply Scan.cons
        · omega
        · omega
        · intro n far before holds
          have bit := (bits (n - shift)).mpr (by rw [Nat.add_sub_cancel' far]; exact holds)
          rw [clear _ (by omega)] at bit
          cases bit
        · intro n low high
          have bit := (bits (n - shift)).mp (by
            have := set (n - shift - zeros) (by omega)
            rw [show zeros + (n - shift - zeros) = n - shift by omega] at this
            exact this)
          rw [show shift + (n - shift) = n by omega] at bit
          exact bit
        · intro holds
          have bit := (bits (zeros + ones)).mpr (by
            rw [show shift + (zeros + ones) = shift + zeros + ones - 1 + 1 by omega]
            exact holds)
          rw [stop] at bit
          cases bit
        · rw [show shift + zeros + ones - 1 + 1 = shift + zeros + ones by omega]
          exact scan
      · rw [round, rest]
        rfl

theorem encodeRanges_allOnes : encodeRanges (BitVec.allOnes 64) shift first = none := by
  have zeros : trailingZeros (BitVec.allOnes 64) = some 0 := by
    rw [trailingZeros_eq_some]
    exact ⟨by decide, fun i less => absurd less (Nat.not_lt_zero i)⟩
  rw [encodeRanges, dif_neg (by decide)]
  generalize (if first then [] else [44] : CString) = comma
  dsimp only
  split
  · rfl
  next zeros' found =>
    rw [zeros] at found
    cases found
    split
    · rfl
    next ones run =>
      rw [if_neg (by decide), show BitVec.allOnes 64 >>> 0 = BitVec.allOnes 64 by decide,
        (trailingZeros_not_none _).mpr rfl] at run
      cases run

end

/-- The text of an entry. -/
def entryText (name : CString) (runs : List (Nat × Nat)) : CString :=
  name ++ [61] ++ (rangeChunks true runs).flatten

theorem protoEntryEncodeInto_runs (entry : ProtoEntry)
    (notFull : entry.bitmask ≠ BitVec.allOnes 64) :
    ∃ runs, MaximalRuns (versions entry.bitmask) runs
      ∧ protoEntryEncodeInto entry
        = some ((entry.name ++ [61]) :: rangeChunks true runs) := by
  obtain ⟨runs, scan, text⟩ := encodeRanges_scan (versions entry.bitmask) entry.bitmask 0 true
    (fun i => by rw [Nat.zero_add]; exact Iff.rfl) notFull
  refine ⟨runs, scan.maximalRuns, ?_⟩
  rw [protoEntryEncodeInto, text]

end RendezMix.Guarantees.ProtocolRanges

/-!
# Protocol lists read back

The parser reads the text of an entry as the set of its runs, and the text of a list
as its entries. An encoded list is therefore read back as the list that was encoded,
which every list is that has no entry with all the versions.
-/
namespace RendezMix.Guarantees.ProtocolLists
open Library.Decimals Library.NumberRuns Source ProtocolRanges

theorem idxOf?_append_cons (front rest : CString) (c : UInt8) (absent : c ∉ front) :
    (front ++ c :: rest).idxOf? c = some front.length := by
  induction front with
  | nil => rw [List.nil_append, List.idxOf?_cons, if_pos (beq_self_eq_true c)]; rfl
  | cons head front ih =>
    rw [List.mem_cons, not_or] at absent
    rw [List.cons_append, List.idxOf?_cons, if_neg (by simpa using Ne.symm absent.left),
      ih absent.right]
    rfl

theorem memchr_append (front rest : CString) (c : UInt8) (n : Nat) (absent : c ∉ front)
    (within : front.length < n) : memchr (front ++ c :: rest) c n = some front.length := by
  obtain ⟨k, rfl⟩ := Nat.exists_eq_add_of_lt within
  rw [memchr, Nat.add_assoc, List.take_length_add_append, List.take_succ_cons,
    idxOf?_append_cons front _ c absent]

section

variable (n : Nat) (range : Nat × Nat) (name : CString) (ranges : List (Nat × Nat))
  (s rest : CString) (mask : BitVec 64) (entries : List ProtoEntry)

theorem memchr_none (c : UInt8) (n : Nat) (absent : c ∉ s.take n) : memchr s c n = none := by
  rw [memchr, List.idxOf?_eq_none_iff]
  exact absent

/-- What follows a number does not continue it. -/
def Ends (rest : CString) : Prop := ∀ c, rest.head? = some c → isDigit c = false

theorem startsWithDigit_decimal : startsWithDigit (decimal n ++ rest) = true := by
  obtain ⟨c, digits, text⟩ := List.exists_cons_of_ne_nil (decimal_ne_nil n)
  have digit := decimal_isDigit n c (by rw [text]; exact List.mem_cons_self)
  rw [text]
  exact digit

theorem strtoul10_decimal (small : n < 2 ^ 64) (ends : Ends rest) :
    strtoul10 (decimal n ++ rest) = .value n rest := by
  obtain ⟨c, digits, text⟩ := List.exists_cons_of_ne_nil (decimal_ne_nil n)
  have digit := decimal_isDigit n c (by rw [text]; exact List.mem_cons_self)
  have range : 48 ≤ c.toNat ∧ c.toNat ≤ 57 := by
    simpa [isDigit, UInt8.le_iff_toNat_le] using digit
  have space : isSpace c = false := by
    simp only [isSpace, Bool.or_eq_false_iff, Bool.and_eq_false_iff, decide_eq_false_iff_not,
      beq_eq_false_iff_ne]
    omega
  have front : (decimal n ++ rest).dropWhile isSpace = decimal n ++ rest := by
    rw [text, List.cons_append, List.dropWhile_cons_of_neg (by rw [space]; exact Bool.false_ne_true)]
  have head : (decimal n ++ rest).head? = some c := by
    rw [text]
    rfl
  have minus : ¬ (some c = some (45 : UInt8)) := by
    rw [Option.some.injEq]
    rintro rfl
    exact absurd range (by decide)
  have plus : ¬ (some c = some (43 : UInt8)) := by
    rw [Option.some.injEq]
    rintro rfl
    exact absurd range (by decide)
  unfold strtoul10
  simp only [front, head, minus, plus, or_self, if_false, readDecimal_decimal n rest ends]
  rw [if_neg (by omega)]

theorem torParseUlongNext_decimal (small : n ≤ maxProtocolVersion) (ends : Ends rest) :
    torParseUlongNext (decimal n ++ rest) 0 maxProtocolVersion = some (n, rest) := by
  have small' : n ≤ 63 := small
  unfold torParseUlongNext
  rw [strtoul10_decimal n rest (by omega) ends]
  dsimp only
  rw [if_neg (by unfold maxProtocolVersion; omega)]

theorem parseVersionRange_rangeText (ordered : range.1 ≤ range.2)
    (small : range.2 ≤ maxProtocolVersion) (ends : Ends rest) :
    parseVersionRange (rangeText range ++ rest) (rangeText range).length = some range := by
  obtain ⟨low, high⟩ := range
  dsimp only at ordered small
  unfold rangeText parseVersionRange
  by_cases single : low = high
  · subst single
    rw [if_pos rfl, startsWithDigit_decimal, if_neg Bool.true_eq_false_eq_False,
      torParseUlongNext_decimal low rest small ends]
    dsimp only
    rw [List.length_append, Nat.add_sub_cancel, if_neg (Nat.lt_irrefl _), if_pos rfl]
  · rw [if_neg single, List.append_assoc, List.append_assoc, startsWithDigit_decimal]
    have ends' : Ends ([45] ++ (decimal high ++ rest)) := by
      rintro c ⟨⟩
      rfl
    rw [if_neg Bool.true_eq_false_eq_False,
      torParseUlongNext_decimal low _ (Nat.le_trans ordered small) ends']
    have number := List.length_pos_iff.mpr (decimal_ne_nil high)
    simp only [List.length_append, List.length_cons, List.length_nil]
    have hyphen : ([45] ++ (decimal high ++ rest)).head? = some 45 := rfl
    have tail : ([45] ++ (decimal high ++ rest)).tail = decimal high ++ rest := rfl
    rw [if_neg (by omega), if_neg (by omega), if_neg (not_not_intro hyphen), tail,
      startsWithDigit_decimal, if_neg Bool.true_eq_false_eq_False,
      torParseUlongNext_decimal high rest small ends]
    dsimp only
    rw [if_neg (by omega), if_neg (by omega)]

theorem bitmaskForRange_versions (low high n : Nat)
    (small : high ≤ maxProtocolVersion) :
    versions (bitmaskForRange low high) n ↔ low ≤ n ∧ n ≤ high := by
  have small' : high ≤ 63 := small
  rw [versions, bitmaskForRange]
  simp only [BitVec.getLsbD_shiftLeft, BitVec.getLsbD_ushiftRight, BitVec.getLsbD_allOnes,
    Bool.and_eq_true, Bool.not_eq_true', decide_eq_true_eq, decide_eq_false_iff_not]
  omega

/-- The mask of a list of ranges. -/
def rangesMask (ranges : List (Nat × Nat)) (mask : BitVec 64) : BitVec 64 :=
  ranges.foldl (fun mask range => mask ||| bitmaskForRange range.1 range.2) mask

/-- The ranges that can be written and read. -/
def Readable (range : Nat × Nat) : Prop := range.1 ≤ range.2 ∧ range.2 ≤ maxProtocolVersion

instance (range : Nat × Nat) : Decidable (Readable range) :=
  inferInstanceAs (Decidable (range.1 ≤ range.2 ∧ range.2 ≤ maxProtocolVersion))

theorem rangesMask_versions (n : Nat) (readable : ∀ range ∈ ranges, Readable range) :
    versions (rangesMask ranges mask) n
      ↔ versions mask n ∨ ∃ range ∈ ranges, range.1 ≤ n ∧ n ≤ range.2 := by
  induction ranges generalizing mask with
  | nil =>
    simp [rangesMask]
  | cons range ranges ih =>
    have small := (readable range List.mem_cons_self).right
    have step : rangesMask (range :: ranges) mask
        = rangesMask ranges (mask ||| bitmaskForRange range.1 range.2) := rfl
    have join : versions (mask ||| bitmaskForRange range.1 range.2) n
        ↔ versions mask n ∨ versions (bitmaskForRange range.1 range.2) n := by
      rw [versions, BitVec.getLsbD_or, Bool.or_eq_true]
      exact Iff.rfl
    rw [step, ih _ fun range member => readable range (List.mem_cons_of_mem _ member), join,
      bitmaskForRange_versions _ _ n small, or_assoc]
    simp only [List.exists_mem_cons_iff]

section

variable (runs : List (Nat × Nat)) (found : MaximalRuns (versions mask) runs)

include found

theorem runs_readable : ∀ run ∈ runs, Readable run := by
  intro run member
  have maximal := found.maximal run member
  have last := BitVec.lt_of_getLsbD (maximal.inside run.2 maximal.ordered (Nat.le_refl _))
  have small : run.2 ≤ 63 := by omega
  exact ⟨maximal.ordered, small⟩

theorem rangesMask_runs : rangesMask runs 0 = mask := by
  apply BitVec.eq_of_getLsbD_eq
  intro n less
  rw [Bool.eq_iff_iff]
  have union := rangesMask_versions runs 0 n (runs_readable mask runs found)
  rw [← found.iff n] at union
  have clear : ¬ versions 0 n := by
    rw [versions]
    simp
  exact union.trans ⟨fun either => either.resolve_left clear, Or.inr⟩

end

theorem decimal_bytes : ∀ c ∈ decimal n, 48 ≤ c.toNat ∧ c.toNat ≤ 57 := by
  intro c member
  simpa [isDigit, UInt8.le_iff_toNat_le] using decimal_isDigit n c member

theorem rangeText_bytes : ∀ c ∈ rangeText range, c = 45 ∨ (48 ≤ c.toNat ∧ c.toNat ≤ 57) := by
  intro c member
  unfold rangeText at member
  split at member
  · exact Or.inr (decimal_bytes _ c member)
  · rw [List.mem_append, List.mem_append, List.mem_singleton] at member
    rcases member with (member | hyphen) | member
    · exact Or.inr (decimal_bytes _ c member)
    · exact Or.inl hyphen
    · exact Or.inr (decimal_bytes _ c member)

theorem comma_not_mem_rangeText : 44 ∉ rangeText range := by
  intro member
  rcases rangeText_bytes range 44 member with hyphen | digit
  · exact absurd hyphen (by decide)
  · exact absurd digit (by decide)

theorem rangeText_ne_nil : rangeText range ≠ [] := by
  unfold rangeText
  split
  · exact decimal_ne_nil _
  · simp

/-- Ranges as they are written, the first without a comma. -/
def rangesText (ranges : List (Nat × Nat)) : CString := (rangeChunks true ranges).flatten

theorem rangesText_cons (next : Nat × Nat) (ranges : List (Nat × Nat)) :
    rangesText (range :: next :: ranges) = rangeText range ++ 44 :: rangesText (next :: ranges) := by
  simp [rangesText, rangeChunks]

theorem rangesText_singleton : rangesText [range] = rangeText range := by
  simp [rangesText, rangeChunks]

theorem rangesText_length_pos : 0 < (rangesText (range :: ranges)).length := by
  have first := List.length_pos_iff.mpr (rangeText_ne_nil range)
  cases ranges with
  | nil =>
    rw [rangesText_singleton]
    exact first
  | cons next ranges =>
    rw [rangesText_cons, List.length_append]
    omega

/-- One round of the loop over the ranges. -/
theorem parseRanges_round (endOfEntry comma : Nat) (mask : BitVec 64) (range : Nat × Nat)
    (more : endOfEntry ≠ 0) (found : (memchr s 44 endOfEntry).getD endOfEntry = comma)
    (read : parseVersionRange s comma = some range) :
    parseRanges s endOfEntry mask
      = if comma < endOfEntry - 1 then
          parseRanges (s.drop (comma + 1)) (endOfEntry - (comma + 1))
            (mask ||| bitmaskForRange range.1 range.2)
        else
          parseRanges (s.drop comma) (endOfEntry - comma)
            (mask ||| bitmaskForRange range.1 range.2) := by
  rw [parseRanges, if_neg more]
  subst found
  dsimp only
  split
  next rejected =>
    rw [read] at rejected
    cases rejected
  next low high read' =>
    rw [read] at read'
    cases read'
    rfl

/-- The parser reads ranges as the union of their masks, up to the end of the entry. -/
theorem parseRanges_rangesText (readable : ∀ range ∈ ranges, Readable range) (ends : Ends rest) :
    parseRanges (rangesText ranges ++ rest) (rangesText ranges).length mask
      = some (rangesMask ranges mask) := by
  induction ranges generalizing mask with
  | nil =>
    rw [parseRanges]
    exact if_pos rfl
  | cons range ranges ih =>
    obtain ⟨ordered, small⟩ := readable range List.mem_cons_self
    have some := rangesText_length_pos range ranges
    cases ranges with
    | nil =>
      rw [rangesText_singleton] at some ⊢
      have whole : (memchr (rangeText range ++ rest) 44 (rangeText range).length).getD
          (rangeText range).length = (rangeText range).length := by
        rw [memchr_none _ _ _ (by rw [List.take_left]; exact comma_not_mem_rangeText range)]
        rfl
      rw [parseRanges_round _ _ _ mask range (by omega) whole
          (parseVersionRange_rangeText range rest ordered small ends), if_neg (by omega),
        Nat.sub_self, parseRanges, if_pos rfl]
      rfl
    | cons next ranges =>
      have more := rangesText_length_pos next ranges
      have length : (rangesText (range :: next :: ranges)).length
          = (rangeText range).length + 1 + (rangesText (next :: ranges)).length := by
        rw [rangesText_cons, List.length_append, List.length_cons]
        omega
      have text : rangesText (range :: next :: ranges) ++ rest
          = rangeText range ++ 44 :: (rangesText (next :: ranges) ++ rest) := by
        rw [rangesText_cons, List.append_assoc, List.cons_append]
      have comma : (memchr (rangesText (range :: next :: ranges) ++ rest) 44
          (rangesText (range :: next :: ranges)).length).getD
          (rangesText (range :: next :: ranges)).length = (rangeText range).length := by
        rw [text, memchr_append _ _ _ _ (comma_not_mem_rangeText range) (by omega)]
        rfl
      have follows : Ends (44 :: (rangesText (next :: ranges) ++ rest)) := by
        rintro c ⟨⟩
        rfl
      have read : parseVersionRange (rangesText (range :: next :: ranges) ++ rest)
          (rangeText range).length = Option.some range := by
        rw [text]
        exact parseVersionRange_rangeText range _ ordered small follows
      rw [parseRanges_round _ _ _ mask range (by omega) comma read, if_pos (by omega)]
      have drop : (rangesText (range :: next :: ranges) ++ rest).drop ((rangeText range).length + 1)
          = rangesText (next :: ranges) ++ rest := by
        rw [text, List.drop_length_add_append]
        rfl
      rw [drop, show (rangesText (range :: next :: ranges)).length - ((rangeText range).length + 1)
          = (rangesText (next :: ranges)).length by omega]
      exact ih _ fun range member => readable range (List.mem_cons_of_mem _ member)

/-- The names that the parser accepts. -/
structure ValidName (name : CString) : Prop where
  some : name ≠ []
  short : name.length ≤ maxProtocolNameLength
  keyword : isValidKeyword name = true

instance (name : CString) : Decidable (ValidName name) :=
  decidable_of_iff (name ≠ [] ∧ name.length ≤ maxProtocolNameLength ∧ isValidKeyword name = true)
    ⟨fun valid => ⟨valid.1, valid.2.1, valid.2.2⟩,
      fun valid => ⟨valid.some, valid.short, valid.keyword⟩⟩

theorem ValidName.not_mem {name : CString} (valid : ValidName name) (c : UInt8)
    (other : (isAlnum c || c == 45) = false) : c ∉ name := by
  intro member
  have allowed := List.all_eq_true.mp valid.keyword c member
  rw [other] at allowed
  cases allowed

theorem parseSingleEntry_name (endOfEntry : Nat) (entry : ProtoEntry)
    (read : parseSingleEntry s endOfEntry = some entry) : ValidName entry.name := by
  unfold parseSingleEntry at read
  split at read
  · cases read
  next equals found =>
    split at read
    · cases read
    next positive =>
      split at read
      · cases read
      next short =>
        split at read
        · cases read
        next keyword =>
          split at read
          · cases read
          · cases read
            have within : equals < s.length := by
              obtain ⟨less, -⟩ := List.idxOf?_eq_some_iff.mp found
              exact Nat.lt_of_lt_of_le less (List.length_take_le' endOfEntry s)
            have length : (s.take equals).length = equals := by
              rw [List.length_take, Nat.min_eq_left (Nat.le_of_lt within)]
            apply ValidName.mk
            · intro empty
              rw [← length] at positive
              exact positive (List.length_eq_zero_iff.mpr empty)
            · dsimp only
              omega
            · simpa using keyword

theorem parseProtocolList_names (read : parseProtocolList s = some entries) :
    ∀ entry ∈ entries, ValidName entry.name := by
  induction size : s.length using Nat.strong_induction_on generalizing s entries with
  | _ size ih =>
    rw [parseProtocolList] at read
    split at read
    · cases read
      simp
    next more =>
      dsimp only at read
      split at read
      · cases read
      next entry first =>
        have progress : (s.idxOf? 32).getD s.length ≠ 0 := by
          intro zero
          rw [zero, parseSingleEntry_zero] at first
          cases first
        split at read
        · cases read
        next rest others =>
          cases read
          have shorter := skipSpaces_length s _ more progress
          rw [List.forall_mem_cons]
          exact ⟨parseSingleEntry_name _ _ _ first,
            ih _ (by rw [← size]; exact shorter) _ rest others rfl⟩

theorem parseSingleEntry_entryText (valid : ValidName name)
    (readable : ∀ range ∈ ranges, Readable range) (ends : Ends rest) :
    parseSingleEntry (entryText name ranges ++ rest) (entryText name ranges).length
      = some { name := name, bitmask := rangesMask ranges 0 } := by
  have text : entryText name ranges ++ rest = name ++ 61 :: (rangesText ranges ++ rest) := by
    simp [entryText, rangesText]
  have length : (entryText name ranges).length = name.length + 1 + (rangesText ranges).length := by
    simp [entryText, rangesText]
    omega
  have named := List.length_pos_iff.mpr valid.some
  have short := valid.short
  have equals : memchr (name ++ 61 :: (rangesText ranges ++ rest)) 61 (entryText name ranges).length
      = some name.length := by
    apply memchr_append _ _ _ _ (valid.not_mem 61 (by decide))
    omega
  unfold parseSingleEntry
  rw [text, equals]
  dsimp only
  rw [if_neg (by omega), if_neg (by omega), List.take_left, valid.keyword,
    if_neg Bool.true_eq_false_eq_False, List.drop_length_add_append, length,
    Nat.add_sub_cancel_left]
  have loop := parseRanges_rangesText ranges rest 0 readable ends
  rw [List.drop_succ_cons, List.drop_zero, loop]

theorem entryText_ne_nil : entryText name ranges ≠ [] := by
  simp [entryText]

theorem space_not_mem_rangeText : 32 ∉ rangeText range := by
  intro member
  rcases rangeText_bytes range 32 member with hyphen | digit
  · exact absurd hyphen (by decide)
  · exact absurd digit (by decide)

section

variable (text : CString)

theorem space_not_mem_rangeChunks (first : Bool) : 32 ∉ (rangeChunks first ranges).flatten := by
  induction ranges generalizing first with
  | nil => exact List.not_mem_nil
  | cons range ranges ih =>
    rw [rangeChunks, List.flatten_cons, List.mem_append, List.mem_append, not_or, not_or]
    refine ⟨⟨?_, space_not_mem_rangeText range⟩, ih false⟩
    cases first <;> decide

theorem space_not_mem_entryText (valid : ValidName name) : 32 ∉ entryText name ranges := by
  rw [entryText, List.mem_append, List.mem_append, not_or, not_or]
  exact ⟨⟨valid.not_mem 32 (by decide), by decide⟩, space_not_mem_rangeChunks ranges true⟩

theorem entryText_head (valid : ValidName name) :
    (entryText name ranges ++ rest).head? ≠ some 32 := by
  intro space
  obtain ⟨c, text, first⟩ := List.exists_cons_of_ne_nil (entryText_ne_nil name ranges)
  have absent := space_not_mem_entryText name ranges valid
  rw [first, List.cons_append, List.head?_cons, Option.some.injEq] at space
  rw [first, space] at absent
  exact absent List.mem_cons_self

/-- `rest` is the end of the string, or a space and the further entries. -/
def Separates (rest further : CString) : Prop :=
  (rest = [] ∧ further = []) ∨ (rest = 32 :: further ∧ further.head? ≠ some 32)

theorem Separates.ends {rest further : CString} (separates : Separates rest further) :
    Ends rest := by
  rcases separates with ⟨rfl, -⟩ | ⟨rfl, -⟩
  · rintro c ⟨⟩
  · rintro c ⟨⟩
    rfl

theorem Separates.strchr {rest further : CString} (separates : Separates rest further)
    (front : CString) (absent : 32 ∉ front) :
    ((front ++ rest).idxOf? 32).getD (front ++ rest).length = front.length := by
  rcases separates with ⟨rfl, -⟩ | ⟨rfl, -⟩
  · rw [List.append_nil, List.idxOf?_eq_none_iff.mpr absent]
    rfl
  · rw [idxOf?_append_cons front further 32 absent]
    rfl

theorem Separates.skip {rest further : CString} (separates : Separates rest further) :
    rest.dropWhile (· == 32) = further := by
  rcases separates with ⟨rfl, rfl⟩ | ⟨rfl, other⟩
  · rfl
  · rw [List.dropWhile_cons_of_pos (by decide)]
    cases further with
    | nil => rfl
    | cons c further =>
      rw [List.dropWhile_cons_of_neg]
      intro space
      exact other (congrArg some (beq_iff_eq.mp space))

theorem parseProtocolList_entryText (further : CString) (entries : List ProtoEntry)
    (valid : ValidName name) (readable : ∀ range ∈ ranges, Readable range)
    (separates : Separates rest further) (others : parseProtocolList further = some entries) :
    parseProtocolList (entryText name ranges ++ rest)
      = some ({ name := name, bitmask := rangesMask ranges 0 } :: entries) := by
  have first := parseSingleEntry_entryText name ranges rest valid readable separates.ends
  have some := List.append_ne_nil_of_left_ne_nil (entryText_ne_nil name ranges) rest
  have endOfEntry := separates.strchr _ (space_not_mem_entryText name ranges valid)
  rw [parseProtocolList, if_neg some]
  dsimp only
  split
  next rejected =>
    rw [endOfEntry, first] at rejected
    cases rejected
  next entry read =>
    rw [endOfEntry, first] at read
    cases read
    rw [endOfEntry, List.drop_left, separates.skip, others]

/-- Entries whose masks are not full are written, and read back. -/
theorem encodeEntries_reads (valid : ∀ entry ∈ entries, ValidName entry.name)
    (notFull : ∀ entry ∈ entries, entry.bitmask ≠ BitVec.allOnes 64) :
    ∃ text : CString, text.head? ≠ some 32 ∧ parseProtocolList text = some entries
      ∧ ∀ separator, ∃ chunks, encodeEntries separator entries = some chunks
        ∧ ((chunks.flatten = [] ∧ text = []) ∨ chunks.flatten = separator ++ text) := by
  induction entries with
  | nil =>
    refine ⟨[], by decide, ?_, fun separator => ⟨[], rfl, Or.inl ⟨rfl, rfl⟩⟩⟩
    rw [parseProtocolList, if_pos rfl]
  | cons entry entries ih =>
    rw [List.forall_mem_cons] at valid notFull
    obtain ⟨further, head, others, rest⟩ := ih valid.right notFull.right
    obtain ⟨chunks, encoded, joined⟩ := rest [32]
    obtain ⟨runs, found, written⟩ := protoEntryEncodeInto_runs entry notFull.left
    have separates : Separates chunks.flatten further :=
      joined.imp id fun text => ⟨text, head⟩
    have read := parseProtocolList_entryText entry.name runs chunks.flatten further entries
      valid.left (runs_readable _ runs found) separates others
    rw [rangesMask_runs _ runs found] at read
    refine ⟨entryText entry.name runs ++ chunks.flatten, ?_, read, ?_⟩
    · exact entryText_head entry.name runs chunks.flatten valid.left
    · intro separator
      refine ⟨separator :: ((entry.name ++ [61]) :: rangeChunks true runs) ++ chunks, ?_, ?_⟩
      · rw [encodeEntries, written, encoded]
      · right
        simp [entryText]

theorem encodeEntries_notFull (separator : CString) (chunks : List CString)
    (encoded : encodeEntries separator entries = some chunks) :
    ∀ entry ∈ entries, entry.bitmask ≠ BitVec.allOnes 64 := by
  induction entries generalizing separator chunks with
  | nil => simp
  | cons entry entries ih =>
    unfold encodeEntries at encoded
    split at encoded
    · cases encoded
    next first written =>
      split at encoded
      · cases encoded
      next rest others =>
        rw [List.forall_mem_cons]
        refine ⟨?_, ih _ _ others⟩
        intro full
        rw [protoEntryEncodeInto, full, encodeRanges_allOnes] at written
        cases written

theorem encodeProtocolList_notFull (encoded : encodeProtocolList entries = some text) :
    ∀ entry ∈ entries, entry.bitmask ≠ BitVec.allOnes 64 := by
  unfold encodeProtocolList at encoded
  split at encoded
  · cases encoded
  next chunks encoded' => exact encodeEntries_notFull entries [] chunks encoded'

theorem encodeProtocolList_total (valid : ∀ entry ∈ entries, ValidName entry.name)
    (notFull : ∀ entry ∈ entries, entry.bitmask ≠ BitVec.allOnes 64) :
    ∃ text, encodeProtocolList entries = some text ∧ parseProtocolList text = some entries := by
  obtain ⟨text, -, read, written⟩ := encodeEntries_reads entries valid notFull
  obtain ⟨chunks, encoded, joined⟩ := written []
  refine ⟨text, ?_, read⟩
  rw [encodeProtocolList, encoded]
  rcases joined with ⟨nothing, rfl⟩ | joined
  · exact congrArg some nothing
  · exact congrArg some joined

theorem encodeProtocolList_reads (valid : ∀ entry ∈ entries, ValidName entry.name)
    (encoded : encodeProtocolList entries = some text) :
    parseProtocolList text = some entries := by
  obtain ⟨text', encoded', read⟩ :=
    encodeProtocolList_total entries valid (encodeProtocolList_notFull entries text encoded)
  rw [encoded] at encoded'
  cases encoded'
  exact read

end

end

/-- An accepted list is encoded as a list that is read back the same, and an entry as its
maximal runs in ascending order, exactly if no mask is full. -/
theorem protocolList_reencoded (s : CString) (entries : List ProtoEntry) (entry : ProtoEntry)
    (accepted : parseProtocolList s = some entries) :
    ((∃ text, encodeProtocolList entries = some text ∧ parseProtocolList text = some entries)
        ↔ ∀ e ∈ entries, e.bitmask ≠ BitVec.allOnes 64)
      ∧ ((∃ runs, MaximalRuns (versions entry.bitmask) runs
          ∧ protoEntryEncodeInto entry = some ((entry.name ++ [61]) :: rangeChunks true runs))
        ↔ entry.bitmask ≠ BitVec.allOnes 64) := by
  constructor
  · constructor
    · rintro ⟨text, encoded, -⟩
      exact encodeProtocolList_notFull entries text encoded
    · exact encodeProtocolList_total entries (parseProtocolList_names s entries accepted)
  · constructor
    · rintro ⟨runs, -, written⟩ full
      rw [protoEntryEncodeInto, full, encodeRanges_allOnes] at written
      cases written
    · exact protoEntryEncodeInto_runs entry

theorem parseProtocolList_short :
    parseProtocolList [70, 61, 49, 45, 51] = some [{ name := [70], bitmask := 14 }] := by
  exact parseProtocolList_entryText [70] [(1, 3)] [] [] []
    ⟨by decide, by decide, by decide⟩ (by decide) (Or.inl ⟨rfl, rfl⟩)
    (by rw [parseProtocolList, if_pos rfl])

theorem protocolList_reencoded_short :
    ((∃ text, encodeProtocolList [{ name := [70], bitmask := 14 }] = some text
        ∧ parseProtocolList text = some [{ name := [70], bitmask := 14 }])
        ↔ ∀ e ∈ [{ name := [70], bitmask := (14 : BitVec 64) : ProtoEntry }],
          e.bitmask ≠ BitVec.allOnes 64)
      ∧ ((∃ runs, MaximalRuns (versions 14) runs
          ∧ protoEntryEncodeInto { name := [70], bitmask := 14 }
            = some ([70, 61] :: rangeChunks true runs))
        ↔ (14 : BitVec 64) ≠ BitVec.allOnes 64) :=
  protocolList_reencoded [70, 61, 49, 45, 51] [{ name := [70], bitmask := 14 }]
    { name := [70], bitmask := 14 } parseProtocolList_short

/-- `Foo=0-63` is accepted, and its encoding counts the trailing zeros of zero. -/
theorem protocolList_full_not_encoded :
    parseProtocolList [70, 111, 111, 61, 48, 45, 54, 51]
        = some [{ name := [70, 111, 111], bitmask := BitVec.allOnes 64 }]
      ∧ encodeProtocolList [{ name := [70, 111, 111], bitmask := BitVec.allOnes 64 }] = none := by
  constructor
  · exact parseProtocolList_entryText [70, 111, 111] [(0, 63)] [] [] []
      ⟨by decide, by decide, by decide⟩ (by decide) (Or.inl ⟨rfl, rfl⟩)
      (by rw [parseProtocolList, if_pos rfl])
  · rw [encodeProtocolList, encodeEntries, protoEntryEncodeInto, encodeRanges_allOnes]

end RendezMix.Guarantees.ProtocolLists
