import RendezMix.Source.Binascii
import RendezMix.Source.Strings

/-!
# Escaped strings

`esc_for_log` of `lib/log/escape.c`, `unescape_string` of `lib/encoding/cstring.c` and
`decode_qstring` of `lib/encoding/qstring.c`. A pointer into a string is the rest of the string
from there on, and the null pointer is `none`.
-/
namespace RendezMix.Source

/-- `TOR_ISPRINT` -/
def isPrint (c : UInt8) : Bool := 32 ≤ c.toNat && c.toNat ≤ 126

/-- `TOR_ISXDIGIT` -/
def isXdigit (c : UInt8) : Bool := (hexDecodeDigit c).isSome

/-- `TOR_ISODIGIT` -/
def isOdigit (c : UInt8) : Bool := 48 ≤ c.toNat && c.toNat ≤ 55

/-! ## Escaping -/

/-- The format `"\\%03o"`. -/
def octalEscape (c : UInt8) : CString :=
  let n := c.toNat
  [92, UInt8.ofNat (48 + n / 64), UInt8.ofNat (48 + n / 8 % 8), UInt8.ofNat (48 + n % 8)]

/-- What `esc_for_log` writes for a character. -/
def escChar (c : UInt8) : CString :=
  if c = 92 ∨ c = 34 ∨ c = 39 then [92, c]
  else if c = 10 then [92, 110]
  else if c = 9 then [92, 116]
  else if c = 13 then [92, 114]
  else if isPrint c ∧ c.toNat < 127 then [c]
  else octalEscape c

def escForLog (s : CString) : CString := 34 :: (s.flatMap escChar ++ [34])

/-! ## C strings -/

/-- Up to `limit` octal digits after the value `n`. -/
def takeOctal : Nat → CString → Nat → Nat × CString
  | 0, cp, n => (n, cp)
  | _ + 1, [], n => (n, [])
  | limit + 1, c :: cp, n =>
    if isOdigit c then takeOctal limit cp (n * 8 + (c.toNat - 48)) else (n, c :: cp)

theorem takeOctal_length (limit : Nat) (cp : CString) (n : Nat) :
    (takeOctal limit cp n).2.length ≤ cp.length := by
  induction limit generalizing cp n with
  | zero => exact Nat.le_refl _
  | succ limit ih =>
    cases cp with
    | nil => exact Nat.le_refl _
    | cons c cp =>
      rw [takeOctal]
      split
      · exact Nat.le_succ_of_le (ih cp _)
      · exact Nat.le_refl _

/-- The first loop of `unescape_string`: whether the string ends and is well formed. -/
def unescapeScan : CString → Bool
  | [] => false
  | c :: cp =>
    if c = 10 then false
    else if c = 34 then true
    else if c = 92 then
      match cp with
      | [] => false
      | c1 :: cp =>
        if c1 = 120 ∨ c1 = 88 then
          match cp with
          | c2 :: c3 :: cp => if isXdigit c2 ∧ isXdigit c3 then unescapeScan cp else false
          | _ => false
        else if isOdigit c1 then unescapeScan (takeOctal 2 cp 0).2
        else if c1 = 110 ∨ c1 = 114 ∨ c1 = 116 ∨ c1 = 34 ∨ c1 = 92 ∨ c1 = 39 then unescapeScan cp
        else false
    else unescapeScan cp
termination_by s => s.length
decreasing_by
  all_goals
    first
    | exact Nat.lt_succ_of_le (Nat.le_succ_of_le (takeOctal_length 2 cp 0))
    | (simp only [List.length_cons]; omega)

/-- Write a character and go on. -/
def emit (c : UInt8) (rest : Option (CString × CString)) : Option (CString × CString) :=
  rest.map fun (out, cp) => (c :: out, cp)

/-- The second loop of `unescape_string`: the decoded string and what follows it. -/
def unescapeLoop : CString → Option (CString × CString)
  | [] => none
  | c :: cp =>
    if c = 34 then some ([], cp)
    else if c = 92 then
      match cp with
      | [] => none
      | c1 :: cp =>
        if c1 = 110 then emit 10 (unescapeLoop cp)
        else if c1 = 114 then emit 13 (unescapeLoop cp)
        else if c1 = 116 then emit 9 (unescapeLoop cp)
        else if c1 = 120 ∨ c1 = 88 then
          match cp with
          | c2 :: c3 :: cp =>
            match hexDecodeDigit c2, hexDecodeDigit c3 with
            | some x1, some x2 => emit (UInt8.ofNat (x1 * 16 + x2)) (unescapeLoop cp)
            | _, _ => none
          | _ => none
        else if isOdigit c1 then
          let octal := takeOctal 2 cp (c1.toNat - 48)
          if octal.1 > 255 then none else emit (UInt8.ofNat octal.1) (unescapeLoop octal.2)
        else if c1 = 39 ∨ c1 = 34 ∨ c1 = 92 ∨ c1 = 63 then emit c1 (unescapeLoop cp)
        else none
    else emit c (unescapeLoop cp)
termination_by s => s.length
decreasing_by
  all_goals
    first
    | exact Nat.lt_succ_of_le (Nat.le_succ_of_le (takeOctal_length 2 cp _))
    | (simp only [List.length_cons]; omega)

/-- `unescape_string`: the result and what follows the string. -/
def unescapeString (s : CString) : Option (CString × CString) :=
  match s with
  | [] => none
  | c :: cp => if c = 34 ∧ unescapeScan cp = true then unescapeLoop cp else none

/-! ## Quoted strings -/

/-- The loops of `get_qstring_length` and `decode_qstring`. -/
def qstringLoop : CString → Option (CString × CString)
  | [] => none
  | [92] => none
  | 92 :: c :: cp => emit c (qstringLoop cp)
  | c :: cp => if c = 34 then some ([], cp) else emit c (qstringLoop cp)

/-- `decode_qstring` on a whole string. -/
def decodeQstring (start : CString) : Option (CString × CString) :=
  match start with
  | [] => none
  | c :: cp => if c = 34 then qstringLoop cp else none

end RendezMix.Source

/-!
# Key-value lines

`kvline_encode` and `kvline_parse` of `lib/encoding/kvline.c`. A key or value that is not set is
the empty string. A failed assertion is the outer `none`. A list of lines is what its pointer
leads to, and the null pointer is the empty list; the null pointer that the label `err` returns
is the inner `none`.
-/
namespace RendezMix.Source

/-- The bits of the flags that are looked at. -/
structure KvFlags where
  quoted : Bool
  omitKeys : Bool
  omitVals : Bool
  quotedQstring : Bool
  raw : Bool
  deriving DecidableEq

/-- `config_line_t`, but for the fields that these functions do not use. -/
structure ConfigLine where
  key : CString
  value : CString
  deriving DecidableEq

def needsEscape (s : CString) (asKeylessVal : Bool) : Bool :=
  if asKeylessVal = true ∧ s = [] then true
  else if asKeylessVal = true ∧ 61 ∈ s then true
  else s.any fun c => c.toNat ≥ 127 || isSpace c || !isPrint c || c == 39 || c == 34

def lineHasNoKey (line : ConfigLine) : Bool := line.key == []

def lineHasNoVal (line : ConfigLine) : Bool := line.value == []

/-- A turn of `kvline_can_encode_lines`. -/
def canEncodeLine (flags : KvFlags) (line : ConfigLine) : Bool :=
  let keyless := lineHasNoKey line
  if keyless && !flags.omitKeys then false
  else if needsEscape line.value keyless && !(flags.quoted || flags.raw) then false
  else if !keyless && needsEscape line.key true then false
  else true

def kvlineCanEncodeLines (lines : List ConfigLine) (flags : KvFlags) : Bool :=
  lines.all (canEncodeLine flags)

/-- An element of `kvline_encode`. -/
def encodeLine (flags : KvFlags) (line : ConfigLine) : CString :=
  let keyless := lineHasNoKey line
  let esc := needsEscape line.value keyless
  let k := if keyless then [] else line.key
  let eq := if keyless then [] else [61]
  if flags.omitVals && lineHasNoVal line then k
  else if !flags.raw && esc then k ++ eq ++ escForLog line.value
  else k ++ eq ++ line.value

/-- The assertions of `kvline_encode`. -/
def kvlineEncodePermits (flags : KvFlags) : Bool :=
  !flags.quotedQstring && !(flags.omitKeys && flags.omitVals) && !(flags.quoted && flags.raw)

def kvlineEncode (lines : List ConfigLine) (flags : KvFlags) : Option (Option CString) :=
  if kvlineEncodePermits flags then
    some
      (if kvlineCanEncodeLines lines flags then
        some (List.intercalate [32] (lines.map (encodeLine flags)))
      else none)
  else none

/-- The characters `" \t\r\v\n"`. -/
def kvSpaces : CString := [32, 9, 13, 11, 10]

def isKvSpace (c : UInt8) : Bool := kvSpaces.contains c

/-- Where the key ends: the key if there is one, the rest, and whether the line is complete. -/
def findKey (flags : KvFlags) (cp : CString) : Option (Option CString × CString × Bool) :=
  if cp.head? ≠ some 34 then
    let key := cp.takeWhile fun c => !isKvSpace c && c != 61
    let after := cp.drop key.length
    if after.head? = some 61 then some (some key, after.drop 1, false)
    else if flags.omitVals then some (some key, after, true)
    else if !flags.omitKeys then none
    else some (none, cp, false)
  else some (none, cp, false)

/-- The value after the key, and the rest. -/
def findValue (flags : KvFlags) (cp : CString) : Option (CString × CString) :=
  if cp.head? = some 34 then
    if !(flags.quoted || flags.quotedQstring) then none
    else
      (if flags.quoted then unescapeString cp else decodeQstring cp).bind fun (val, cp) =>
        -- the string contains a NUL if it is longer than `strlen` says
        if 0 ∈ val then none else some (val, cp)
  else
    let val := cp.takeWhile fun c => !isKvSpace c
    some (val, cp.drop val.length)

/-- A turn of `kvline_parse` after the spaces: a line, and the rest. -/
def parseKvLine (flags : KvFlags) (cp : CString) : Option (ConfigLine × CString) :=
  (findKey flags cp).bind fun (key, cp, complete) =>
    (if complete then some ([], cp) else findValue flags cp).bind fun (val, cp) =>
      -- we don't allow empty keys
      if key = some [] then none else some (⟨key.getD [], val⟩, cp)

/-- The loop of `kvline_parse`, of which each turn reads a character at least. -/
def kvlineParseLoop (flags : KvFlags) :
    Nat → CString → Option CString → Option (List ConfigLine)
  | 0, _, _ => none
  | turns + 1, cp, cplast =>
    if cp = [] then some []
    else
      let cp := cp.dropWhile isKvSpace
      if cplast = some cp then none
      else if cp = [] then some []
      else
        (parseKvLine flags cp).bind fun (line, rest) =>
          (kvlineParseLoop flags turns rest (some cp)).map (line :: ·)

/-- The assertions of `kvline_parse`. -/
def kvlineParsePermits (flags : KvFlags) : Bool :=
  !(flags.omitKeys && flags.omitVals) && !flags.raw

def kvlineParse (line : CString) (flags : KvFlags) : Option (Option (List ConfigLine)) :=
  if kvlineParsePermits flags then
    some
      ((kvlineParseLoop flags (line.length + 1) line none).bind fun result =>
        if !flags.quotedQstring && !kvlineCanEncodeLines result flags then none else some result)
  else none

end RendezMix.Source
