import RendezMix.Source.Kvline

/-!
# Key-value lines survive re-encoding

`unescape_string` reads back what `esc_for_log` wrote, character by character, and
`kvline_parse` reads back the lines that `kvline_encode` could encode: each element of the
encoded text is one turn of the parser's loop.
-/
namespace RendezMix.Guarantees.KeyValueLines
open Source

/-! ## Escaped strings -/

variable (flags : KvFlags) (d : Nat) (value : CString) (line : ConfigLine)
  (lines : List ConfigLine) (rest : CString)

theorem octalDigit (small : d < 8) :
    isOdigit (UInt8.ofNat (48 + d)) = true ∧ (UInt8.ofNat (48 + d)).toNat - 48 = d := by
  have value : (UInt8.ofNat (48 + d)).toNat = 48 + d := by
    simp only [UInt8.toNat_ofNat']
    omega
  simp only [isOdigit, value, Bool.and_eq_true, decide_eq_true_eq]
  omega

theorem takeOctal_two (e n : Nat) (rest : CString) (small : d < 8 ∧ e < 8) :
    takeOctal 2 (UInt8.ofNat (48 + d) :: UInt8.ofNat (48 + e) :: rest) n =
      ((n * 8 + d) * 8 + e, rest) := by
  have first := octalDigit d small.1
  have second := octalDigit e small.2
  rw [takeOctal, if_pos first.1, takeOctal, if_pos second.1, takeOctal, first.2, second.2]

theorem octalDigit_ne (small : d < 8) (c : UInt8) (other : c.toNat < 48 ∨ 55 < c.toNat) :
    UInt8.ofNat (48 + d) ≠ c := by
  intro same
  have value := congrArg UInt8.toNat same
  simp only [UInt8.toNat_ofNat'] at value
  omega

section

variable (s : CString) (c : UInt8) (cp : CString)

theorem unescape_plain (plain : c ≠ 10 ∧ c ≠ 34 ∧ c ≠ 92) :
    unescapeScan (c :: cp) = unescapeScan cp ∧
      unescapeLoop (c :: cp) = emit c (unescapeLoop cp) := by
  constructor
  · rw [unescapeScan.eq_def]
    dsimp only
    rw [if_neg plain.1, if_neg plain.2.1, if_neg plain.2.2]
  · rw [unescapeLoop.eq_def]
    dsimp only
    rw [if_neg plain.2.1, if_neg plain.2.2]

/-- Three octal digits after a backslash. -/
theorem unescape_octal (e f : Nat) (cp : CString) (small : d < 4 ∧ e < 8 ∧ f < 8) :
    unescapeScan (92 :: UInt8.ofNat (48 + d) :: UInt8.ofNat (48 + e) :: UInt8.ofNat (48 + f) :: cp)
      = unescapeScan cp ∧
      unescapeLoop
          (92 :: UInt8.ofNat (48 + d) :: UInt8.ofNat (48 + e) :: UInt8.ofNat (48 + f) :: cp)
        = emit (UInt8.ofNat ((d * 8 + e) * 8 + f)) (unescapeLoop cp) := by
  have digit := octalDigit d (by omega)
  have ne := octalDigit_ne d (by omega)
  have noHex : ¬ (UInt8.ofNat (48 + d) = 120 ∨ UInt8.ofNat (48 + d) = 88) := by
    rintro (x | x)
    · exact ne 120 (by decide) x
    · exact ne 88 (by decide) x
  constructor
  · rw [unescapeScan.eq_def]
    dsimp only
    rw [if_neg (by decide), if_neg (by decide), if_pos rfl, if_neg noHex, if_pos digit.1,
      takeOctal_two e f 0 cp small.2]
  · rw [unescapeLoop.eq_def]
    dsimp only
    rw [if_neg (by decide), if_pos rfl, if_neg (ne 110 (by decide)), if_neg (ne 114 (by decide)),
      if_neg (ne 116 (by decide)), if_neg noHex, if_pos digit.1, digit.2,
      takeOctal_two e f d cp small.2, if_neg (by dsimp only; omega)]

theorem unescape_escChar :
    unescapeScan (escChar c ++ cp) = unescapeScan cp ∧
      unescapeLoop (escChar c ++ cp) = emit c (unescapeLoop cp) := by
  have bound := c.toNat_lt
  unfold escChar
  split
  · next special =>
    rcases special with rfl | rfl | rfl
    all_goals
      constructor
      · rw [List.cons_append, List.singleton_append, unescapeScan.eq_def]
        rfl
      · rw [List.cons_append, List.singleton_append, unescapeLoop.eq_def]
        rfl
  · next plain =>
    simp only [not_or] at plain
    split
    · next same =>
      rw [same, List.cons_append, List.singleton_append, unescapeScan.eq_def, unescapeLoop.eq_def]
      exact ⟨rfl, rfl⟩
    split
    · next same =>
      rw [same, List.cons_append, List.singleton_append, unescapeScan.eq_def, unescapeLoop.eq_def]
      exact ⟨rfl, rfl⟩
    split
    · next same =>
      rw [same, List.cons_append, List.singleton_append, unescapeScan.eq_def, unescapeLoop.eq_def]
      exact ⟨rfl, rfl⟩
    split
    · next noNewline _ _ _ =>
      exact unescape_plain c cp ⟨noNewline, plain.2.1, plain.1⟩
    · have value : (c.toNat / 64 * 8 + c.toNat / 8 % 8) * 8 + c.toNat % 8 = c.toNat := by omega
      have digits := unescape_octal (c.toNat / 64) (c.toNat / 8 % 8) (c.toNat % 8) cp (by omega)
      rw [value, UInt8.ofNat_toNat] at digits
      exact digits

theorem unescapeString_escForLog (rest : CString) :
    unescapeString (escForLog s ++ rest) = some (s, rest) := by
  have scan : unescapeScan (s.flatMap escChar ++ ([34] ++ rest)) = true := by
    induction s with
    | nil =>
      rw [List.flatMap_nil, List.nil_append, List.singleton_append, unescapeScan.eq_def]
      rfl
    | cons c s ih => rw [List.flatMap_cons, List.append_assoc, (unescape_escChar c _).1, ih]
  have loop : unescapeLoop (s.flatMap escChar ++ ([34] ++ rest)) = some (s, rest) := by
    clear scan
    induction s with
    | nil =>
      rw [List.flatMap_nil, List.nil_append, List.singleton_append, unescapeLoop.eq_def]
      rfl
    | cons c s ih =>
      rw [List.flatMap_cons, List.append_assoc, (unescape_escChar c _).2, ih]
      rfl
  rw [escForLog, List.cons_append, unescapeString, List.append_assoc, if_pos ⟨rfl, scan⟩, loop]

/-! ## What is not quoted -/

/-- A character that needs no quotes. -/
def Plain (c : UInt8) : Prop := isKvSpace c = false ∧ c ≠ 34

theorem plain_of_needsEscape {s : CString} {asKeylessVal : Bool}
    (bare : needsEscape s asKeylessVal = false) :
    (∀ c ∈ s, Plain c) ∧ (asKeylessVal = true → s ≠ [] ∧ 61 ∉ s) := by
  unfold needsEscape at bare
  split at bare
  · cases bare
  next notEmpty =>
    split at bare
    · cases bare
    next noEquals =>
      constructor
      · intro c member
        have ok := List.any_eq_false.mp bare c member
        simp only [Bool.or_eq_true, not_or, Bool.not_eq_true] at ok
        have noQuote : c ≠ 34 := by simpa using ok.2
        refine ⟨?_, noQuote⟩
        have noSpace := ok.1.1.1.2
        unfold isKvSpace kvSpaces
        by_contra space
        simp only [Bool.not_eq_false, List.contains_eq_mem, decide_eq_true_eq, List.mem_cons,
          List.not_mem_nil, or_false] at space
        rcases space with rfl | rfl | rfl | rfl | rfl <;> exact absurd noSpace (by decide)
      · exact fun keyless => ⟨fun empty => notEmpty ⟨keyless, empty⟩,
          fun equals => noEquals ⟨keyless, equals⟩⟩

/-- What follows an element of the encoded text: nothing, or a space. -/
def AfterElement (rest : CString) : Prop := rest = [] ∨ ∃ more, rest = 32 :: more

theorem takeWhile_stops {p : UInt8 → Bool} {s rest : CString} (all : ∀ c ∈ s, p c = true)
    (stops : ∀ c, rest.head? = some c → p c = false) : (s ++ rest).takeWhile p = s := by
  rw [List.takeWhile_append_of_pos all]
  cases rest with
  | nil => simp
  | cons c rest => rw [List.takeWhile_cons, stops c rfl, if_neg Bool.false_ne_true, List.append_nil]

theorem AfterElement.head {rest : CString} (after : AfterElement rest) {c : UInt8}
    (first : rest.head? = some c) : c = 32 := by
  rcases after with rfl | ⟨more, rfl⟩
  · simp at first
  · exact (Option.some.inj first).symm

theorem findValue_bare (bare : ∀ c ∈ value, Plain c) (after : AfterElement rest) :
    findValue flags (value ++ rest) = some (value, rest) := by
  have noQuote : (value ++ rest).head? ≠ some 34 := by
    intro first
    cases value with
    | nil =>
      have space := after.head first
      exact absurd space (by decide)
    | cons c value => exact (bare c List.mem_cons_self).2 (Option.some.inj first)
  have taken : ((value ++ rest).takeWhile fun c => !isKvSpace c) = value := by
    apply takeWhile_stops
    · intro c member
      rw [(bare c member).1]
      rfl
    · intro c first
      rw [after.head first]
      decide
  rw [findValue, if_neg noQuote, taken]
  dsimp only
  rw [List.drop_left]

theorem findValue_quoted (quoted : flags.quoted = true) (noNul : 0 ∉ value) :
    findValue flags (escForLog value ++ rest) = some (value, rest) := by
  have first : (escForLog value ++ rest).head? = some 34 := rfl
  rw [findValue, if_pos first]
  simp only [quoted, Bool.true_or, Bool.not_true, Bool.false_eq_true, if_false, if_true,
    unescapeString_escForLog, Option.bind_some]
  rw [if_neg noNul]

theorem findKey_key (key rest : CString) (some_ : key ≠ []) (bare : ∀ c ∈ key, Plain c)
    (noEquals : 61 ∉ key) :
    findKey flags (key ++ 61 :: rest) = some (some key, rest, false) ∧
      (AfterElement rest → flags.omitVals = true →
        findKey flags (key ++ rest) = some (some key, rest, true)) := by
  have noQuote : ∀ more, (key ++ more).head? ≠ some 34 := by
    intro more first
    cases key with
    | nil => exact some_ rfl
    | cons c key => exact (bare c List.mem_cons_self).2 (Option.some.inj first)
  have inKey : ∀ c ∈ key, (!isKvSpace c && c != 61) = true := by
    intro c member
    rw [(bare c member).1, Bool.not_false, Bool.true_and, bne_iff_ne]
    exact fun same => noEquals (same ▸ member)
  constructor
  · have taken : ((key ++ 61 :: rest).takeWhile fun c => !isKvSpace c && c != 61) = key := by
      apply takeWhile_stops inKey
      intro c first
      rw [← Option.some.inj first]
      decide
    rw [findKey, if_pos (noQuote _)]
    simp only [taken, List.drop_left, List.head?_cons, if_true, List.drop_one, List.tail_cons]
  · intro after omitVals
    have taken : ((key ++ rest).takeWhile fun c => !isKvSpace c && c != 61) = key := by
      apply takeWhile_stops inKey
      intro c first
      rw [after.head first]
      decide
    have noSign : rest.head? ≠ some 61 := by
      intro first
      exact absurd (after.head first) (by decide)
    rw [findKey, if_pos (noQuote _)]
    simp only [taken, List.drop_left, if_neg noSign, omitVals, if_true]

theorem findKey_value (some_ : value ≠ []) (bare : ∀ c ∈ value, Plain c) (noEquals : 61 ∉ value)
    (after : AfterElement rest) (omitKeys : flags.omitKeys = true)
    (omitVals : flags.omitVals = false) :
    findKey flags (value ++ rest) = some (none, value ++ rest, false) := by
  have noQuote : (value ++ rest).head? ≠ some 34 := by
    intro first
    cases value with
    | nil => exact some_ rfl
    | cons c value => exact (bare c List.mem_cons_self).2 (Option.some.inj first)
  have taken : ((value ++ rest).takeWhile fun c => !isKvSpace c && c != 61) = value := by
    apply takeWhile_stops
    · intro c member
      rw [(bare c member).1, Bool.not_false, Bool.true_and, bne_iff_ne]
      exact fun same => noEquals (same ▸ member)
    · intro c first
      rw [after.head first]
      decide
  have noSign : rest.head? ≠ some 61 := by
    intro first
    exact absurd (after.head first) (by decide)
  rw [findKey, if_pos noQuote]
  simp only [taken, List.drop_left, if_neg noSign, omitVals, omitKeys, Bool.false_eq_true,
    if_false, Bool.not_true]

end

/-! ## One element -/

theorem parseKvLine_found {flags : KvFlags} {cp cp' rest val : CString} {key : Option CString}
    (found : findKey flags cp = some (key, cp', false))
    (value : findValue flags cp' = some (val, rest)) (some_ : key ≠ some []) :
    parseKvLine flags cp = some (⟨key.getD [], val⟩, rest) := by
  rw [parseKvLine, found, Option.bind_some]
  simp only [Bool.false_eq_true, if_false, value, Option.bind_some, if_neg some_]

theorem findValue_encoded (keyless : Bool)
    (may : needsEscape value keyless = true → flags.quoted = true) (noNul : 0 ∉ value)
    (after : AfterElement rest) :
    findValue flags ((if needsEscape value keyless = true then escForLog value else value) ++ rest)
      = some (value, rest) := by
  split
  · next esc => exact findValue_quoted flags value rest (may esc) noNul
  · next bare =>
    rw [Bool.not_eq_true] at bare
    exact findValue_bare flags value rest (plain_of_needsEscape bare).1 after

/-- An element without a key. -/
theorem parseKvLine_keyless (hasKeys : flags.omitKeys = true) (keepsVals : flags.omitVals = false)
    (may : needsEscape value true = true → flags.quoted = true) (noNul : 0 ∉ value)
    (after : AfterElement rest) :
    parseKvLine flags ((if needsEscape value true = true then escForLog value else value) ++ rest)
      = some (⟨[], value⟩, rest) := by
  have found : findKey flags
      ((if needsEscape value true = true then escForLog value else value) ++ rest)
      = some (none, (if needsEscape value true = true then escForLog value else value) ++ rest,
        false) := by
    split
    · rw [findKey, if_neg (by simp [escForLog])]
    · next bare =>
      rw [Bool.not_eq_true] at bare
      have plain := plain_of_needsEscape bare
      have shape := plain.2 rfl
      exact findKey_value flags value rest shape.1 plain.1 shape.2 after hasKeys keepsVals
  exact parseKvLine_found found (findValue_encoded flags value rest true may noNul after) (by simp)

/-- The parser reads back an element of the encoded text. -/
theorem parseKvLine_encodeLine (parses : kvlineParsePermits flags = true)
    (can : canEncodeLine flags line = true) (noNul : 0 ∉ line.value) (after : AfterElement rest) :
    parseKvLine flags (encodeLine flags line ++ rest) = some (line, rest) := by
  obtain ⟨key, value⟩ := line
  simp only [kvlineParsePermits, Bool.and_eq_true, Bool.not_eq_true'] at parses
  obtain ⟨omits, notRaw⟩ := parses
  unfold canEncodeLine at can
  unfold encodeLine
  simp only [lineHasNoKey, lineHasNoVal, notRaw, Bool.or_false, Bool.not_false,
    Bool.true_and] at can ⊢
  by_cases keyless : key = []
  · subst keyless
    simp only [BEq.rfl, Bool.true_and, if_true, Bool.not_eq_true', List.nil_append,
      Bool.not_true, Bool.false_and, Bool.false_eq_true, if_false] at can ⊢
    split at can
    · cases can
    next hasKeys =>
    simp only [Bool.not_eq_false] at hasKeys
    have keepsVals : flags.omitVals = false := by simpa [hasKeys] using omits
    split at can
    · cases can
    next may =>
    simp only [keepsVals, Bool.false_and, Bool.false_eq_true, if_false]
    exact parseKvLine_keyless flags value rest hasKeys keepsVals
      (fun esc => by simpa [esc] using may) noNul after
  · have hasKey : (key == []) = false := by simpa using keyless
    simp only [hasKey, Bool.false_and, Bool.false_eq_true, if_false, Bool.not_false,
      Bool.true_and] at can ⊢
    split at can
    · cases can
    next may =>
    split at can
    · cases can
    next bareKey =>
    rw [Bool.not_eq_true] at bareKey
    have plainKey := plain_of_needsEscape bareKey
    have shape := plainKey.2 rfl
    have found := fun more => findKey_key flags key more keyless plainKey.1 shape.2
    by_cases without : flags.omitVals = true ∧ value = []
    · -- a key whose empty value is left out
      obtain ⟨omitVals, rfl⟩ := without
      rw [if_pos (by simp [omitVals]), parseKvLine, (found rest).2 after omitVals,
        Option.bind_some]
      simp only [if_true, Option.bind_some, Option.some.injEq, if_neg keyless]
      rfl
    · have value_ := findValue_encoded flags value rest false
        (fun esc => by simpa [esc] using may) noNul after
      have element := parseKvLine_found (found _).1 value_ (by simpa using keyless)
      rw [Option.getD_some] at element
      rw [if_neg (by simpa using without), ← element]
      split <;> simp only [List.append_assoc, List.cons_append, List.nil_append]

/-! ## The whole text -/

/-- The elements after the first one, each with the space before it. -/
def laterElements (flags : KvFlags) (lines : List ConfigLine) : CString :=
  lines.flatMap fun line => 32 :: encodeLine flags line

theorem intercalate_eq :
    List.intercalate [32] ((line :: lines).map (encodeLine flags))
      = encodeLine flags line ++ laterElements flags lines := by
  induction lines generalizing line with
  | nil => simp [laterElements, List.intercalate]
  | cons next lines ih =>
    rw [List.map_cons, List.map_cons, List.intercalate_cons_cons, ← List.map_cons, ih,
      laterElements, laterElements, List.flatMap_cons]
    simp

theorem laterElements_after : AfterElement (laterElements flags lines) := by
  cases lines with
  | nil => exact Or.inl rfl
  | cons line lines => exact Or.inr ⟨_, rfl⟩

theorem laterElements_length : lines.length ≤ (laterElements flags lines).length := by
  induction lines with
  | nil => exact Nat.le_refl _
  | cons line lines ih =>
    rw [laterElements, List.flatMap_cons, List.length_append, List.length_cons, List.length_cons]
    rw [laterElements] at ih
    omega

theorem encodeLine_starts (parses : kvlineParsePermits flags = true)
    (can : canEncodeLine flags line = true) :
    ∃ c more, encodeLine flags line = c :: more ∧ isKvSpace c = false := by
  obtain ⟨key, value⟩ := line
  simp only [kvlineParsePermits, Bool.and_eq_true, Bool.not_eq_true'] at parses
  obtain ⟨omits, notRaw⟩ := parses
  unfold canEncodeLine at can
  unfold encodeLine
  simp only [lineHasNoKey, lineHasNoVal, notRaw, Bool.not_false, Bool.true_and] at can ⊢
  cases key with
  | nil =>
    simp only [BEq.rfl, Bool.true_and, if_true, Bool.not_eq_true', List.nil_append] at can ⊢
    split at can
    · cases can
    next hasKeys =>
    have keepsVals : flags.omitVals = false := by simpa [hasKeys] using omits
    simp only [keepsVals, Bool.false_and, Bool.false_eq_true, if_false]
    split
    · exact ⟨34, _, rfl, by decide⟩
    · next bare =>
      rw [Bool.not_eq_true] at bare
      have plain := plain_of_needsEscape bare
      cases value with
      | nil => exact absurd rfl (plain.2 rfl).1
      | cons c value => exact ⟨c, value, rfl, (plain.1 c List.mem_cons_self).1⟩
  | cons c key =>
    have hasKey : (c :: key == []) = false := rfl
    simp only [hasKey, Bool.false_and, Bool.false_eq_true, if_false, Bool.not_false,
      Bool.true_and] at can ⊢
    split at can
    · cases can
    split at can
    · cases can
    next bareKey =>
    rw [Bool.not_eq_true] at bareKey
    have plain := (plain_of_needsEscape bareKey).1 c List.mem_cons_self
    split
    · exact ⟨c, key, rfl, plain.1⟩
    · split <;> exact ⟨c, _, rfl, plain.1⟩

/-- A turn of the parser's loop. -/
theorem kvlineParseLoop_turn (turns : Nat) (line : ConfigLine) {cp rest : CString}
    {cplast : Option CString} (some_ : cp ≠ [])
    (element : cp.dropWhile isKvSpace = encodeLine flags line ++ rest)
    (progress : cplast ≠ some (encodeLine flags line ++ rest)) (starts : encodeLine flags line ≠ [])
    (parsed : parseKvLine flags (encodeLine flags line ++ rest) = some (line, rest)) :
    kvlineParseLoop flags (turns + 1) cp cplast =
      (kvlineParseLoop flags turns rest (some (encodeLine flags line ++ rest))).map (line :: ·) := by
  rw [kvlineParseLoop, if_neg some_]
  simp only [element]
  rw [if_neg progress, if_neg (by simp [starts]), parsed, Option.bind_some]

/-- Every line that can be encoded, and whose value is a string. -/
def Encodable (flags : KvFlags) (lines : List ConfigLine) : Prop :=
  ∀ line ∈ lines, canEncodeLine flags line = true ∧ 0 ∉ line.value

theorem kvlineParseLoop_laterElements (parses : kvlineParsePermits flags = true)
    (lines : List ConfigLine) (encodable : Encodable flags lines) (turns : Nat)
    (enough : lines.length < turns) (cplast : Option CString)
    (older : ∀ old, cplast = some old → (laterElements flags lines).length < old.length) :
    kvlineParseLoop flags turns (laterElements flags lines) cplast = some lines := by
  induction lines generalizing turns cplast with
  | nil =>
    obtain ⟨turns, rfl⟩ := Nat.exists_eq_succ_of_ne_zero (Nat.pos_iff_ne_zero.mp enough)
    rfl
  | cons line lines ih =>
    obtain ⟨turns, rfl⟩ := Nat.exists_eq_succ_of_ne_zero (Nat.ne_of_gt (Nat.zero_lt_of_lt enough))
    have fine := encodable line List.mem_cons_self
    obtain ⟨c, more, starts, noSpace⟩ := encodeLine_starts flags line parses fine.1
    have split : laterElements flags (line :: lines)
        = 32 :: (encodeLine flags line ++ laterElements flags lines) := rfl
    have element : (32 :: (encodeLine flags line ++ laterElements flags lines)).dropWhile isKvSpace
        = encodeLine flags line ++ laterElements flags lines := by
      rw [starts, List.dropWhile_cons_of_pos (by decide), List.cons_append,
        List.dropWhile_cons_of_neg (by simp [noSpace])]
    rw [split] at older ⊢
    rw [kvlineParseLoop_turn flags turns line (by simp) element ?_ (by simp [starts])
        (parseKvLine_encodeLine flags line _ parses fine.1 fine.2 (laterElements_after flags lines)),
      ih (fun other member => encodable other (List.mem_cons_of_mem _ member)) turns
        (by simpa using enough) _ ?_, Option.map_some]
    · intro old same
      rw [← Option.some.inj same, starts]
      simp
    · intro same
      have shorter := older _ same
      simp at shorter

/-- What can be encoded is parsed again, with the same flags, to the same lines in the same order;
and a quoted string is read back whole. -/
theorem kvlineParse_kvlineEncode :
    (∀ flags lines text, kvlineParsePermits flags = true → (∀ line ∈ lines, 0 ∉ line.value) →
      kvlineEncode lines flags = some (some text) → kvlineParse text flags = some (some lines)) ∧
    ∀ s : CString, unescapeString (escForLog s) = some (s, []) := by
  constructor
  · intro flags lines text parses noNul encoded
    unfold kvlineEncode at encoded
    split at encoded
    next encodes =>
      simp only [Option.some.injEq, Option.ite_none_right_eq_some] at encoded
      obtain ⟨can, rfl⟩ := encoded
      have encodable : Encodable flags lines :=
        fun line member => ⟨List.all_eq_true.mp can line member, noNul line member⟩
      have noQstring : flags.quotedQstring = false := by
        simp only [kvlineEncodePermits, Bool.and_eq_true, Bool.not_eq_true'] at encodes
        exact encodes.1.1
      have loop : kvlineParseLoop flags
          ((List.intercalate [32] (lines.map (encodeLine flags))).length + 1)
          (List.intercalate [32] (lines.map (encodeLine flags))) none = some lines := by
        cases lines with
        | nil => rfl
        | cons line lines =>
          have fine := encodable line List.mem_cons_self
          obtain ⟨c, more, starts, noSpace⟩ := encodeLine_starts flags line parses fine.1
          rw [intercalate_eq, kvlineParseLoop_turn flags _ line (by simp [starts]) ?_ (by simp)
              (by simp [starts]) (parseKvLine_encodeLine flags line _ parses fine.1 fine.2
                (laterElements_after flags lines)),
            kvlineParseLoop_laterElements flags parses lines
              (fun other member => encodable other (List.mem_cons_of_mem _ member)) _ ?_ _ ?_,
            Option.map_some]
          · have long := laterElements_length flags lines
            rw [starts, List.length_append, List.length_cons]
            omega
          · intro old same
            rw [← Option.some.inj same, starts]
            simp
          · rw [starts, List.cons_append, List.dropWhile_cons_of_neg (by simp [noSpace])]
      rw [kvlineParse, if_pos parses, loop, Option.bind_some, can]
      simp [noQstring]
    next => cases encoded
  · intro s
    have whole := unescapeString_escForLog s []
    rwa [List.append_nil] at whole

/-- A line with a key and one without. -/
theorem kvlineParse_kvlineEncode_two :
    kvlineParse [65, 61, 66, 32, 34, 92, 34, 34] ⟨true, true, false, false, false⟩ =
      some (some [⟨[65], [66]⟩, ⟨[], [34]⟩]) :=
  kvlineParse_kvlineEncode.1 ⟨true, true, false, false, false⟩ [⟨[65], [66]⟩, ⟨[], [34]⟩] _
    (by decide) (by decide) (by decide)

end RendezMix.Guarantees.KeyValueLines
