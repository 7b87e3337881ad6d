import RendezMix.Library.Decimals

/-!
# C strings

Strings, and the comparisons of `lib/string/util_string.c`. Where only the equality of two
strings counts the comparison is a proposition.
-/
namespace RendezMix.Source
open Std (TransCmp)

/-- A C string: its bytes before the NUL. -/
abbrev CString := List UInt8

def strcmp : CString → CString → Ordering := compare

instance : TransCmp strcmp := inferInstanceAs (TransCmp (compare : CString → CString → Ordering))

def torStrlower (s : CString) : CString :=
  s.map fun c => if 65 ≤ c.toNat ∧ c.toNat ≤ 90 then c + 32 else c

/-- `!strcasecmp` -/
def SameCase (s1 s2 : CString) : Prop := torStrlower s1 = torStrlower s2

instance (s1 s2 : CString) : Decidable (SameCase s1 s2) :=
  inferInstanceAs (Decidable (torStrlower s1 = torStrlower s2))

/-- `!strcmpend` -/
def strEndsWith (s1 s2 : CString) : Bool := s2.isSuffixOf s1

/-- `!strcasecmpend` -/
def strCaseEndsWith (s1 s2 : CString) : Bool := (torStrlower s2).isSuffixOf (torStrlower s1)

end RendezMix.Source

/-!
# Reading numbers

`strtoul` and `strtol` in base ten, with `tor_parse_ulong` and `tor_parse_long` of
`lib/string/parse_int.c` over them.
-/
namespace RendezMix.Source
open Library.Decimals

/-- `isspace` in the C locale. -/
def isSpace (c : UInt8) : Bool := (9 ≤ c.toNat && c.toNat ≤ 13) || c.toNat == 32

/-- What `strtoul` returns: the value and the first character that is not converted, or the
overflow. -/
inductive StrtoulResult where
  | overflow
  | nothing
  | value (r : Nat) (endptr : List UInt8)
  deriving DecidableEq

/-- `strtoul(s, &endptr, 10)`. -/
def strtoul10 (s : List UInt8) : StrtoulResult :=
  let text := s.dropWhile isSpace
  let negative := text.head? = some 45
  let unsigned := if negative ∨ text.head? = some 43 then text.drop 1 else text
  match readDecimal unsigned with
  | none => .nothing
  | some (v, rest) =>
    if 2 ^ 64 ≤ v then .overflow
    else .value (if negative then (2 ^ 64 - v) % 2 ^ 64 else v) rest

/-- `tor_parse_ulong(s, 10, min, max, &ok, NULL)`: the value if it is ok. -/
def torParseUlong (s : List UInt8) (min max : Nat) : Option Nat :=
  match strtoul10 s with
  | .overflow => none
  | .nothing => none
  | .value r endptr =>
    if endptr ≠ [] ∨ max < min ∨ r < min ∨ max < r then none else some r

/-- What `strtol` returns. -/
inductive StrtolResult where
  | overflow
  | nothing
  | value (r : Int) (endptr : List UInt8)
  deriving DecidableEq

/-- `strtol(s, &endptr, 10)`. -/
def strtol10 (s : List UInt8) : StrtolResult :=
  let text := s.dropWhile isSpace
  let negative := text.head? = some 45
  let unsigned := if negative ∨ text.head? = some 43 then text.drop 1 else text
  match readDecimal unsigned with
  | none => .nothing
  | some (v, rest) =>
    let r : Int := if negative then -v else v
    if r < -2 ^ 63 ∨ 2 ^ 63 - 1 < r then .overflow else .value r rest

/-- `tor_parse_long(s, 10, min, max, &ok, NULL)`: the value if it is ok. -/
def torParseLong (s : List UInt8) (min max : Int) : Option Int :=
  match strtol10 s with
  | .overflow => none
  | .nothing => none
  | .value r endptr =>
    if endptr ≠ [] ∨ max < min ∨ r < min ∨ max < r then none else some r

end RendezMix.Source

/-!
# Scanning

`tor_sscanf` of `lib/string/scanf.c` on the patterns its callers here use: literal
characters, `%u` with and without a width, and `%c`. A pattern is the list of its
components, so the branches for malformed patterns have no counterpart.
-/
namespace RendezMix.Source.Scanf
open Library.Decimals

def maxScanfWidth : Nat := 9999

/-- `ULONG_MAX` and `UINT_MAX`. -/
def ulongMax : Nat := 2 ^ 64 - 1
def uintMax : Nat := 2 ^ 32 - 1

/-- A component of a pattern. -/
inductive Directive where
  | literal (c : UInt8)
  | unsigned (width : Option Nat)
  | char
  deriving DecidableEq

/-- A value stored through one of the argument pointers. -/
inductive Scanned where
  | unsigned (u : Nat)
  | char (c : UInt8)
  deriving DecidableEq

/-- The digit loop of `scan_unsigned`, which fails when a digit would overflow. -/
def scanDigits (width : Nat) : CString → Nat → Nat → Option (Nat × Nat × CString)
  | [], result, scannedSoFar => some (result, scannedSoFar, [])
  | c :: buf, result, scannedSoFar =>
    if isDigit c ∧ scannedSoFar < width then
      if (ulongMax - digitValue c) / 10 < result then none
      else scanDigits width buf (result * 10 + digitValue c) (scannedSoFar + 1)
    else some (result, scannedSoFar, c :: buf)

/-- `scan_unsigned(bufp, out, width, 10)`: the value and what follows it. -/
def scanUnsigned (buf : CString) (width : Option Nat) : Option (Nat × CString) :=
  match scanDigits (width.getD maxScanfWidth) buf 0 0 with
  | none => none
  | some (result, scannedSoFar, rest) =>
    if scannedSoFar = 0 then none else some (result, rest)

/-- `tor_sscanf`: the values stored, whose number is the result `n_matched`. -/
def torSscanf (buf : CString) : List Directive → List Scanned
  | [] => []
  | .literal c :: pattern =>
    match buf with
    | [] => []
    | b :: rest => if b = c then torSscanf rest pattern else []
  | .unsigned width :: pattern =>
    match buf with
    | [] => []
    | _ :: _ =>
      match scanUnsigned buf width with
      | none => []
      | some (u, rest) => if uintMax < u then [] else .unsigned u :: torSscanf rest pattern
  | .char :: pattern =>
    match buf with
    | [] => []
    | b :: rest => .char b :: torSscanf rest pattern

/-! ## Reading back -/

/-- Reading on from a value. -/
def digitsFrom (start : Nat) (digits : CString) : Nat :=
  digits.foldl (fun value c => value * 10 + digitValue c) start

theorem digitsFrom_ge (digits : CString) (start : Nat) : start ≤ digitsFrom start digits := by
  induction digits generalizing start with
  | nil => exact Nat.le_refl start
  | cons c digits ih =>
    have step := ih (start * 10 + digitValue c)
    unfold digitsFrom at step ⊢
    rw [List.foldl_cons]
    omega

theorem digitsFrom_decimal (n : Nat) : digitsFrom 0 (decimal n) = n := by
  rw [digitsFrom, foldl_eq_decimalValue, decimalValue_decimal]

/-- Digits that fit the width are all read, if nothing after them is read too. -/
theorem scanDigits_digits (width : Nat) (digits rest : CString) (start scannedSoFar : Nat)
    (allDigits : ∀ c ∈ digits, isDigit c = true) (fits : scannedSoFar + digits.length ≤ width)
    (small : digitsFrom start digits ≤ ulongMax)
    (ends : scannedSoFar + digits.length = width ∨
      ∀ c, rest.head? = some c → isDigit c = false) :
    scanDigits width (digits ++ rest) start scannedSoFar =
      some (digitsFrom start digits, scannedSoFar + digits.length, rest) := by
  induction digits generalizing start scannedSoFar with
  | nil =>
    cases rest with
    | nil => rfl
    | cons c rest =>
      have stops : ¬(isDigit c = true ∧ scannedSoFar < width) := by
        rintro ⟨digit, more⟩
        cases ends with
        | inl full =>
          simp only [List.length_nil] at full
          omega
        | inr other =>
          rw [other c rfl] at digit
          exact Bool.false_ne_true digit
      rw [List.nil_append, scanDigits, if_neg stops]
      rfl
  | cons c digits ih =>
    simp only [List.length_cons] at fits ends ⊢
    have grows := digitsFrom_ge digits (start * 10 + digitValue c)
    have step : digitsFrom start (c :: digits) = digitsFrom (start * 10 + digitValue c) digits := rfl
    rw [step] at small ⊢
    have room : ¬(ulongMax - digitValue c) / 10 < start := by omega
    rw [List.cons_append, scanDigits,
      if_pos ⟨allDigits c List.mem_cons_self, by omega⟩, if_neg room,
      ih (start * 10 + digitValue c) (scannedSoFar + 1)
        (fun d mem => allDigits d (List.mem_cons_of_mem c mem)) (by omega) small
        (by rcases ends with full | other
            · exact Or.inl (by omega)
            · exact Or.inr other)]
    simp only [Nat.add_assoc, Nat.add_comm 1]

/-- `%u` reads back digits that end where it stops. -/
theorem torSscanf_unsigned (width : Option Nat) (digits rest : CString) (pattern : List Directive)
    (some_digit : digits ≠ []) (allDigits : ∀ c ∈ digits, isDigit c = true)
    (fits : digits.length ≤ width.getD maxScanfWidth) (small : digitsFrom 0 digits ≤ uintMax)
    (ends : digits.length = width.getD maxScanfWidth ∨
      ∀ c, rest.head? = some c → isDigit c = false) :
    torSscanf (digits ++ rest) (.unsigned width :: pattern) =
      .unsigned (digitsFrom 0 digits) :: torSscanf rest pattern := by
  have read := scanDigits_digits (width.getD maxScanfWidth) digits rest 0 0 allDigits
    (by omega) (Nat.le_trans small (by decide)) (by simpa using ends)
  have length : 0 + digits.length ≠ 0 := by
    have positive := List.length_pos_iff.mpr some_digit
    omega
  have value : scanUnsigned (digits ++ rest) width = some (digitsFrom 0 digits, rest) := by
    unfold scanUnsigned
    rw [read]
    dsimp only
    rw [if_neg length]
  obtain ⟨c, tail, shape⟩ : ∃ c tail, digits ++ rest = c :: tail := by
    cases digits with
    | nil => exact absurd rfl some_digit
    | cons c tail => exact ⟨c, tail ++ rest, rfl⟩
  rw [shape] at value ⊢
  rw [torSscanf, value]
  dsimp only
  rw [if_neg (by omega)]

end RendezMix.Source.Scanf
