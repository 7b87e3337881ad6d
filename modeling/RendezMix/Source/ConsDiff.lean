import RendezMix.Library.Decimals

/-!
# Consensus diffs

`feature/dircommon/consdiff.c`: the generation of an ed diff from two
consensuses, which walks both by router identity and splits what lies between by
longest common subsequence, and the application of such a diff.

A line (`cdline_t`) is its bytes and a consensus (`smartlist_t`) the list of its
lines. `NULL` is `none`, and so is a return through `error_cleanup`.
-/
namespace RendezMix.Source.ConsDiff

open Library.Decimals

abbrev Line := List UInt8

/-- The bytes of a string of ASCII characters. -/
def ascii (text : List Char) : Line := text.map fun c => UInt8.ofNat c.toNat

def int32Max : Nat := 2147483647

def smartlistGet (list : List Line) (i : Nat) : Line := list.getD i []

def lineStartsWithStr (line str : Line) : Bool := str.isPrefixOf line

/-! ## Changes between two slices -/

structure Slice where
  list : List Line
  offset : Nat
  len : Nat
  deriving DecidableEq

def smartlistSlice (list : List Line) (start end_ : Nat) : Slice :=
  { list, offset := start, len := end_ - start }

/-- The line at a distance from the start of a slice. -/
def Slice.line (slice : Slice) (i : Nat) : Line := smartlistGet slice.list (slice.offset + i)

/-- One round of the outer loop of `lcs_lengths`: the new row from the last one,
`result` being the entry written last. -/
def lcsRow (line1 : Line) : List Line → List Nat → Nat → List Nat
  | line2 :: lines2, diagonal :: above :: prev, result =>
      let entry := if line1 = line2 then diagonal + 1 else max result above
      entry :: lcsRow line1 lines2 (above :: prev) entry
  | _, _, _ => []

/-- The lines a slice is navigated by, backwards for `direction` -1. -/
def navigated (slice : Slice) (direction : Int) : List Line :=
  let lines := (List.range slice.len).map slice.line
  if direction = -1 then lines.reverse else lines

def lcsLengths (slice1 slice2 : Slice) (direction : Int) : List Nat :=
  (navigated slice1 direction).foldl
    (fun prev line1 => 0 :: lcsRow line1 (navigated slice2 direction) prev 0)
    (List.replicate (slice2.len + 1) 0)

/-- The first loop of `trim_slices`, at most `len` rounds of it. -/
def trimFront : Nat → Slice → Slice → Slice × Slice
  | 0, slice1, slice2 => (slice1, slice2)
  | rounds + 1, slice1, slice2 =>
      if 0 < slice1.len ∧ 0 < slice2.len ∧ slice1.line 0 = slice2.line 0 then
        trimFront rounds { slice1 with offset := slice1.offset + 1, len := slice1.len - 1 }
          { slice2 with offset := slice2.offset + 1, len := slice2.len - 1 }
      else (slice1, slice2)

/-- The second loop of `trim_slices`, at most `len` rounds of it. -/
def trimBack : Nat → Slice → Slice → Slice × Slice
  | 0, slice1, slice2 => (slice1, slice2)
  | rounds + 1, slice1, slice2 =>
      if 0 < slice1.len ∧ 0 < slice2.len
          ∧ slice1.line (slice1.len - 1) = slice2.line (slice2.len - 1) then
        trimBack rounds { slice1 with len := slice1.len - 1 } { slice2 with len := slice2.len - 1 }
      else (slice1, slice2)

def trimSlices (slice1 slice2 : Slice) : Slice × Slice :=
  let (slice1, slice2) := trimFront slice1.len slice1 slice2
  trimBack slice1.len slice1 slice2

/-- The position in the list of the first line of a slice equal to `string`. -/
def smartlistSliceStringPos (slice : Slice) (string : Line) : Option Nat :=
  (List.range' slice.offset slice.len).find? fun i => smartlistGet slice.list i == string

/-- A bit array, by the bits that are set. -/
abbrev Bitarray := Nat → Bool

def Bitarray.set (bits : Bitarray) (i : Nat) : Bitarray := Function.update bits i true

/-- All lines of the two slices that are not in the other one are marked; the
first slice has at most one line. -/
def setChanged (changed1 changed2 : Bitarray) (slice1 slice2 : Slice) : Bitarray × Bitarray :=
  let toskip :=
    if slice1.len = 1 then smartlistSliceStringPos slice2 (smartlistGet slice1.list slice1.offset)
    else none
  (if slice1.len = 1 ∧ toskip = none then changed1.set slice1.offset else changed1,
    (List.range' slice2.offset slice2.len).foldl
      (fun changed2 i => if some i ≠ toskip then changed2.set i else changed2) changed2)

/-- One round of the search for the column with the largest sum: `best` is the
column and the sum found so far. -/
def betterColumn (lensTop lensBot : List Nat) (len2 : Nat) (best : Nat × Int) (i : Nat) :
    Nat × Int :=
  let sum : Int := lensTop.getD i 0 + lensBot.getD (len2 - i) 0
  if sum > best.2 then (i, sum) else best

def optimalColumnToSplit (top bot slice2 : Slice) : Nat :=
  let lensTop := lcsLengths top slice2 1
  let lensBot := lcsLengths bot slice2 (-1)
  ((List.range (slice2.len + 1)).foldl (betterColumn lensTop lensBot slice2.len) (0, -1)).1

section

variable (rounds : Nat) (slice1 slice2 : Slice)

theorem trimBack_len : (trimBack rounds slice1 slice2).1.len ≤ slice1.len := by
  induction rounds generalizing slice1 slice2 with
  | zero => exact Nat.le_refl _
  | succ rounds ih =>
    rw [trimBack]
    split
    · exact (ih _ _).trans (Nat.sub_le _ _)
    · exact Nat.le_refl _

theorem trimFront_len : (trimFront rounds slice1 slice2).1.len ≤ slice1.len := by
  induction rounds generalizing slice1 slice2 with
  | zero => exact Nat.le_refl _
  | succ rounds ih =>
    rw [trimFront]
    split
    · exact (ih _ _).trans (Nat.sub_le _ _)
    · exact Nat.le_refl _

theorem trimSlices_len : (trimSlices slice1 slice2).1.len ≤ slice1.len :=
  (trimBack_len _ _ _).trans (trimFront_len _ _ _)

/-- The marks after the lines gone from `slice1` and new in `slice2` were added. -/
def calcChanges (slice1 slice2 : Slice) (changed : Bitarray × Bitarray) : Bitarray × Bitarray :=
  let trimmed := trimSlices slice1 slice2
  if trimmed.1.len ≤ 1 then setChanged changed.1 changed.2 trimmed.1 trimmed.2
  else if trimmed.2.len ≤ 1 then
    (setChanged changed.2 changed.1 trimmed.2 trimmed.1).swap
  else
    let mid := trimmed.1.len / 2
    let top := smartlistSlice trimmed.1.list trimmed.1.offset (trimmed.1.offset + mid)
    let bot := smartlistSlice trimmed.1.list (trimmed.1.offset + mid)
      (trimmed.1.offset + trimmed.1.len)
    let mid2 := optimalColumnToSplit top bot trimmed.2
    let left := smartlistSlice trimmed.2.list trimmed.2.offset (trimmed.2.offset + mid2)
    let right := smartlistSlice trimmed.2.list (trimmed.2.offset + mid2)
      (trimmed.2.offset + trimmed.2.len)
    calcChanges bot right (calcChanges top left changed)
termination_by slice1.len
decreasing_by
  all_goals
    have shorter := trimSlices_len slice1 slice2
    have same : trimmed.1.len = (trimSlices slice1 slice2).1.len := rfl
    simp only [smartlistSlice]
    omega

/-! ## Router entries -/

def notValidBase64 : Nat := 255

/-- `base64_compare_table`: the value of a base64 character. -/
def base64CompareTable (byte : UInt8) : Nat :=
  if 65 ≤ byte ∧ byte ≤ 90 then byte.toNat - 65
  else if 97 ≤ byte ∧ byte ≤ 122 then byte.toNat - 97 + 26
  else if 48 ≤ byte ∧ byte ≤ 57 then byte.toNat - 48 + 52
  else if byte = 43 then 62
  else if byte = 47 then 63
  else notValidBase64

/-- The identity hash of a router line, which follows the router's name. -/
def getIdHash (line : Line) : Option Line :=
  if line.length < 2 then none
  else
    match (line.drop 2).dropWhile (· != 32) with
    | [] => none
    | _ :: afterSpace =>
        let hash := afterSpace.takeWhile fun byte => base64CompareTable byte != notValidBase64
        if hash = [] then none else some hash

def isValidRouterEntry (line : Line) : Bool :=
  if line.length < 2 ∨ line.take 2 ≠ ascii ['r', ' '] then false
  else (getIdHash line).isSome

/-- The first router line after position `cur`, the length of `cons` if there is
none. -/
def nextRouter (cons : List Line) (cur : Int) : Int :=
  let next := (cur + 1).toNat
  if next ≥ cons.length then cons.length
  else next + ((cons.drop next).findIdx isValidRouterEntry : Nat)

/-- The comparison of the characters of two hashes. -/
def base64cmpBytes : Line → Line → Int
  | [], [] => 0
  | [], _ :: _ => -1
  | _ :: _, [] => 1
  | a :: as, b :: bs =>
      let av := base64CompareTable a
      let bv := base64CompareTable b
      if av = notValidBase64 then if bv = notValidBase64 then 0 else -1
      else if bv = notValidBase64 then 1
      else if av < bv then -1
      else if av > bv then 1
      else base64cmpBytes as bs

/-- `NULL` is lower than every hash. -/
def base64cmp : Option Line → Option Line → Int
  | none, none => 0
  | none, some _ => -1
  | some _, none => 1
  | some hash1, some hash2 => base64cmpBytes hash1 hash2

structure RouterIdIterator where
  lastHash : Option Line
  hash : Option Line
  deriving DecidableEq

def routerIdIteratorInit : RouterIdIterator := { lastHash := none, hash := none }

/-- Advance a position to the next router line, whose hash must be above the
last one's. -/
def findNextRouterLine (cons : List Line) (idx : Int) (iter : RouterIdIterator) :
    Option (Int × RouterIdIterator) :=
  let idx := nextRouter cons idx
  if idx < cons.length then
    match getIdHash (smartlistGet cons idx.toNat) with
    | none => none
    | some hash =>
        if base64cmp (some hash) iter.hash ≤ 0 then none
        else some (idx, { lastHash := iter.hash, hash := some hash })
  else some (idx, iter)

theorem nextRouter_gt (cons : List Line) (cur : Int) (inside : cur < cons.length) :
    cur < nextRouter cons cur ∧ nextRouter cons cur ≤ cons.length := by
  have found : (cons.drop (cur + 1).toNat).findIdx isValidRouterEntry
      ≤ (cons.drop (cur + 1).toNat).length := List.findIdx_le_length
  rw [List.length_drop] at found
  simp only [nextRouter]
  split <;> omega

theorem findNextRouterLine_gt {cons : List Line} {idx idx' : Int} {iter iter' : RouterIdIterator}
    (inside : idx < cons.length)
    (found : findNextRouterLine cons idx iter = some (idx', iter')) :
    idx < idx' ∧ idx' ≤ cons.length := by
  have advanced := nextRouter_gt cons idx inside
  simp only [findNextRouterLine] at found
  split at found
  · split at found
    · contradiction
    · split at found
      · contradiction
      · cases found
        exact advanced
  · cases found
    exact advanced

end

/-! ## Generation -/

/-- The two positions of the walk, with the hashes they were found by. -/
structure Navigation where
  i1 : Int
  i2 : Int
  iter1 : RouterIdIterator
  iter2 : RouterIdIterator
  deriving DecidableEq

/-- The lines the walk has not passed yet. -/
def Navigation.left (nav : Navigation) (len1 len2 : Nat) : Nat :=
  (len1 - nav.i1).toNat + (len2 - nav.i2).toNat

/-- The walk goes from `nav` to `nav'` forwards and stays inside the consensuses. -/
structure Onward (len1 len2 : Nat) (nav nav' : Navigation) : Prop where
  first : nav.i1 ≤ len1 → nav.i1 ≤ nav'.i1 ∧ nav'.i1 ≤ len1
  second : nav.i2 ≤ len2 → nav.i2 ≤ nav'.i2 ∧ nav'.i2 ≤ len2
  left : nav'.left len1 len2 ≤ nav.left len1 len2

variable {nav : Navigation} (len1 : Nat) {nav' : Navigation} (len2 : Nat)

section

variable {cons2 cons1 : List Line} (changed : Bitarray) (n : Nat)

theorem Onward.refl (nav : Navigation) : Onward len1 len2 nav nav :=
  ⟨fun inside => ⟨le_refl _, inside⟩, fun inside => ⟨le_refl _, inside⟩, le_refl _⟩

theorem Onward.trans {len1 len2 : Nat} {nav mid nav' : Navigation}
    (front : Onward len1 len2 nav mid) (back : Onward len1 len2 mid nav') :
    Onward len1 len2 nav nav' := by
  constructor
  · intro inside
    have f := front.first inside
    have b := back.first f.2
    exact ⟨f.1.trans b.1, b.2⟩
  · intro inside
    have f := front.second inside
    have b := back.second f.2
    exact ⟨f.1.trans b.1, b.2⟩
  · exact back.left.trans front.left

/-- Putting a position at the end of its consensus goes onward. -/
theorem Onward.toEnd1 (nav : Navigation) : Onward len1 len2 nav { nav with i1 := len1 } := by
  constructor
  · intro inside
    exact ⟨inside, le_refl _⟩
  · intro inside
    exact ⟨le_refl _, inside⟩
  · simp only [Navigation.left]
    omega

theorem Onward.toEnd2 (nav : Navigation) : Onward len1 len2 nav { nav with i2 := len2 } := by
  constructor
  · intro inside
    exact ⟨le_refl _, inside⟩
  · intro inside
    exact ⟨inside, le_refl _⟩
  · simp only [Navigation.left]
    omega

/-- Advance the base position, if it is not at the end yet. -/
def advance1 (cons1 : List Line) (nav : Navigation) : Option Navigation :=
  if nav.i1 < cons1.length then
    (findNextRouterLine cons1 nav.i1 nav.iter1).map fun found =>
      { nav with i1 := found.1, iter1 := found.2 }
  else some nav

/-- Advance the target position, if it is not at the end yet. -/
def advance2 (cons2 : List Line) (nav : Navigation) : Option Navigation :=
  if nav.i2 < cons2.length then
    (findNextRouterLine cons2 nav.i2 nav.iter2).map fun found =>
      { nav with i2 := found.1, iter2 := found.2 }
  else some nav

theorem advance1_onward (ok : advance1 cons1 nav = some nav') :
    Onward cons1.length len2 nav nav' ∧ (nav.i1 < cons1.length →
      nav'.left cons1.length len2 < nav.left cons1.length len2) := by
  unfold advance1 at ok
  split at ok
  · obtain ⟨found, walked, rfl⟩ := Option.map_eq_some_iff.mp ok
    have moved := findNextRouterLine_gt ‹_› walked
    constructor
    · constructor <;> simp only [Navigation.left] <;> omega
    · simp only [Navigation.left]
      omega
  · cases ok
    exact ⟨Onward.refl _ _ _, fun inside => absurd inside ‹_›⟩

theorem advance2_onward (ok : advance2 cons2 nav = some nav') :
    Onward len1 cons2.length nav nav' ∧ (nav.i2 < cons2.length →
      nav'.left len1 cons2.length < nav.left len1 cons2.length) := by
  unfold advance2 at ok
  split at ok
  · obtain ⟨found, walked, rfl⟩ := Option.map_eq_some_iff.mp ok
    have moved := findNextRouterLine_gt ‹_› walked
    constructor
    · constructor <;> simp only [Navigation.left] <;> omega
    · simp only [Navigation.left]
      omega
  · cases ok
    exact ⟨Onward.refl _ _ _, fun inside => absurd inside ‹_›⟩

theorem advance1_i2 (ok : advance1 cons1 nav = some nav') : nav'.i2 = nav.i2 := by
  unfold advance1 at ok
  split at ok
  · obtain ⟨found, walked, rfl⟩ := Option.map_eq_some_iff.mp ok
    rfl
  · cases ok
    rfl

/-- Advance the lower position until the two hashes match or a consensus ends. -/
def matchRouters (cons1 cons2 : List Line) (nav : Navigation) : Option Navigation :=
  let cmp := base64cmp nav.iter1.hash nav.iter2.hash
  if cmp = 0 then some nav
  else if _inside1 : nav.i1 < cons1.length ∧ cmp < 0 then
    match _ok : advance1 cons1 nav with
    | none => none
    | some nav' =>
        if nav'.i1 = cons1.length then some { nav' with i2 := cons2.length }
        else matchRouters cons1 cons2 nav'
  else if _inside2 : nav.i2 < cons2.length ∧ cmp > 0 then
    match _ok : advance2 cons2 nav with
    | none => none
    | some nav' =>
        if nav'.i2 = cons2.length then some { nav' with i1 := cons1.length }
        else matchRouters cons1 cons2 nav'
  else some { nav with i1 := cons1.length, i2 := cons2.length }
termination_by nav.left cons1.length cons2.length
decreasing_by
  · exact (advance1_onward cons2.length _ok).2 _inside1.1
  · exact (advance2_onward cons1.length _ok).2 _inside2.1

theorem matchRouters_onward {cons1 cons2 : List Line} (nav nav' : Navigation)
    (ok : matchRouters cons1 cons2 nav = some nav') :
    Onward cons1.length cons2.length nav nav' := by
  rw [matchRouters] at ok
  split at ok
  · cases ok
    exact Onward.refl _ _ _
  · split at ok
    · next inside =>
      split at ok
      · contradiction
      · next mid walked =>
        have moved := advance1_onward cons2.length walked
        have shorter := moved.2 inside.1
        split at ok
        · cases ok
          exact moved.1.trans (Onward.toEnd2 _ _ _)
        · exact moved.1.trans (matchRouters_onward mid nav' ok)
    · split at ok
      · next inside =>
        split at ok
        · contradiction
        · next mid walked =>
          have moved := advance2_onward cons1.length walked
          have shorter := moved.2 inside.1
          split at ok
          · cases ok
            exact moved.1.trans (Onward.toEnd1 _ _ _)
          · exact moved.1.trans (matchRouters_onward mid nav' ok)
      · cases ok
        exact (Onward.toEnd1 _ _ _).trans (Onward.toEnd2 _ _ _)
termination_by nav.left cons1.length cons2.length
decreasing_by all_goals exact shorter

/-- The positions of the next pair of matching routers, or the two ends. -/
def nextMatch (cons1 cons2 : List Line) (nav : Navigation) : Option Navigation :=
  match advance1 cons1 nav with
  | none => none
  | some nav =>
      match advance2 cons2 nav with
      | none => none
      | some nav =>
          if nav.i1 < cons1.length ∨ nav.i2 < cons2.length then matchRouters cons1 cons2 nav
          else some nav

theorem nextMatch_onward (ok : nextMatch cons1 cons2 nav = some nav') :
    Onward cons1.length cons2.length nav nav'
      ∧ (nav.i1 < cons1.length ∨ nav.i2 < cons2.length →
        nav'.left cons1.length cons2.length < nav.left cons1.length cons2.length) := by
  unfold nextMatch at ok
  split at ok
  · contradiction
  · next nav1 walked1 =>
    have first := advance1_onward cons2.length walked1
    have kept : nav1.i2 = nav.i2 := advance1_i2 walked1
    split at ok
    · contradiction
    · next nav2 walked2 =>
      have second := advance2_onward cons1.length walked2
      have rest : Onward cons1.length cons2.length nav2 nav' := by
        split at ok
        · exact matchRouters_onward nav2 nav' ok
        · cases ok
          exact Onward.refl _ _ _
      constructor
      · exact (first.1.trans second.1).trans rest
      · intro inside
        have left1 := first.1.left
        have left2 := second.1.left
        have left3 := rest.left
        cases inside with
        | inl inside =>
          have further := first.2 inside
          omega
        | inr inside =>
          have further := second.2 (kept ▸ inside)
          omega

def maxLineCount : Int := 10000

/-- The loop over the chunks between matching routers: the marks of all of them,
`start1` and `start2` being where the chunk at hand begins. -/
def changesBetween (cons1 cons2 : List Line) (nav : Navigation) (start1 start2 : Int)
    (changed : Bitarray × Bitarray) : Option (Bitarray × Bitarray) :=
  if _inside : nav.i1 < cons1.length ∨ nav.i2 < cons2.length then
    match _ok : nextMatch cons1 cons2 nav with
    | none => none
    | some nav' =>
        if nav'.i1 - start1 > maxLineCount ∨ nav'.i2 - start2 > maxLineCount then none
        else
          changesBetween cons1 cons2 nav' nav'.i1 nav'.i2
            (calcChanges (smartlistSlice cons1 start1.toNat nav'.i1.toNat)
              (smartlistSlice cons2 start2.toNat nav'.i2.toNat) changed)
  else some changed
termination_by nav.left cons1.length cons2.length
decreasing_by exact (nextMatch_onward _ok).2 _inside

def startOfSignaturesSection : Line :=
  ascii ['d', 'i', 'r', 'e', 'c', 't', 'o', 'r', 'y', '-',
    's', 'i', 'g', 'n', 'a', 't', 'u', 'r', 'e', ' ']

/-- The first line of the signatures, the length of `cons` if there is none. -/
def dirsigIdx (cons : List Line) : Nat :=
  cons.findIdx fun line => lineStartsWithStr line startOfSignaturesSection

/-- Remove the signatures; the command that deletes them is returned if there
are any. -/
def preprocessConsensus (cons : List Line) : Option Line × List Line :=
  let idx := dirsigIdx cons
  if idx < cons.length then (some (decimal (idx + 1) ++ ascii [',', '$', 'd']), cons.take idx)
  else (none, cons)

/-- The loops that grab contiguous changed lines, from the `n` lines left at the
front (`i` is `n - 1`) to those left after them. -/
def grabChanged (changed : Bitarray) : Nat → Nat
  | 0 => 0
  | n + 1 => if changed n then grabChanged changed n else n + 1

/-- The line with the command for one chunk. -/
def edCommand (start1x deleted added : Nat) : Line :=
  if added = 0 then
    if deleted = 1 then decimal (start1x + 1) ++ ascii ['d']
    else decimal (start1x + 1) ++ ascii [','] ++ decimal (start1x + deleted) ++ ascii ['d']
  else if deleted = 0 then decimal start1x ++ ascii ['a']
  else if deleted = 1 then decimal (start1x + 1) ++ ascii ['c']
  else decimal (start1x + 1) ++ ascii [','] ++ decimal (start1x + deleted) ++ ascii ['c']

/-- The command for one chunk and the lines it adds, none of which may be a
single dot. -/
def edChunk (cons2 : List Line) (start1x deleted start2x added : Nat) : Option (List Line) :=
  let lines := (List.range' start2x added).map (smartlistGet cons2)
  if added = 0 then some [edCommand start1x deleted added]
  else if ascii ['.'] ∈ lines then none
  else some (edCommand start1x deleted added :: lines ++ [ascii ['.']])

theorem grabChanged_le : grabChanged changed n ≤ n := by
  induction n with
  | zero => exact Nat.le_refl _
  | succ n ih =>
    rw [grabChanged]
    split <;> omega

theorem grabChanged_lt (some_ : 0 < n ∧ changed (n - 1)) : grabChanged changed n < n := by
  obtain ⟨m, rfl⟩ := Nat.exists_eq_succ_of_ne_zero (by omega : n ≠ 0)
  have less := grabChanged_le changed m
  have mark : changed m = true := some_.2
  rw [grabChanged, if_pos mark]
  omega

end

/-- The navigation in reverse order: the commands for the changes among the
first `n1` and `n2` lines (`i1` is `n1 - 1`, `i2` is `n2 - 1`). -/
def edCommands (cons2 : List Line) (changed1 changed2 : Bitarray) (n1 n2 : Nat) :
    Option (List Line) :=
  if n1 = 0 ∧ n2 = 0 then some []
  else if ¬ (0 < n1 ∧ changed1 (n1 - 1)) ∧ ¬ (0 < n2 ∧ changed2 (n2 - 1)) then
    edCommands cons2 changed1 changed2 (n1 - 1) (n2 - 1)
  else
    let left1 := grabChanged changed1 n1
    let left2 := grabChanged changed2 n2
    match edChunk cons2 left1 (n1 - left1) left2 (n2 - left2) with
    | none => none
    | some chunk =>
        (edCommands cons2 changed1 changed2 left1 left2).map fun commands => chunk ++ commands
termination_by n1 + n2
decreasing_by
  · omega
  · next grabs =>
    have le1 := grabChanged_le changed1 n1
    have le2 := grabChanged_le changed2 n2
    by_cases mark1 : 0 < n1 ∧ changed1 (n1 - 1)
    · have lt1 := grabChanged_lt changed1 n1 mark1
      omega
    · have mark2 : 0 < n2 ∧ changed2 (n2 - 1) := not_not.mp fun unmarked => grabs ⟨mark1, unmarked⟩
      have lt2 := grabChanged_lt changed2 n2 mark2
      omega

def genEdDiff (cons1Orig cons2 : List Line) : Option (List Line) :=
  let (removeTrailer, cons1) := preprocessConsensus cons1Orig
  let nav : Navigation :=
    { i1 := -1, i2 := -1, iter1 := routerIdIteratorInit, iter2 := routerIdIteratorInit }
  match changesBetween cons1 cons2 nav 0 0 (fun _ => false, fun _ => false) with
  | none => none
  | some (changed1, changed2) =>
      (edCommands cons2 changed1 changed2 cons1.length cons2.length).map fun commands =>
        removeTrailer.toList ++ commands

end RendezMix.Source.ConsDiff

/-!
# Applying an ed diff

`feature/dircommon/consdiff.c`: the parser of ed commands, `apply_ed_diff`, and
the check of `consdiff_gen_diff` that a generated diff leads to its target.
-/
namespace RendezMix.Source.EdApply

open Library.Decimals ConsDiff

/-- A base-10 number between 0 and `INT32_MAX`, and what follows it. -/
def getLinenum (s : Line) : Option (Nat × Line) :=
  match readDecimal s with
  | none => none
  | some (num, next) => if num ≤ int32Max then some (num, next) else none

/-- The range in front of an ed command. -/
structure EdRange where
  start : Nat
  end_ : Nat
  hadRange : Bool
  endWasEof : Bool
  deriving DecidableEq

/-- The range at the front of the line `ptr` points to, and where `ptr` points to
then. `len1` is the length of the base consensus. -/
def readRange (len1 : Nat) (ptr : Line) : Option (EdRange × Line) :=
  match getLinenum ptr with
  | none => none
  | some (start, ptr) =>
      match ptr with
      | 44 :: 36 :: ptr =>
          if len1 ≤ start then none
          else some ({ start, end_ := len1, hadRange := true, endWasEof := true }, ptr)
      | 44 :: ptr =>
          match getLinenum ptr with
          | none => none
          | some (end_, ptr) =>
              if end_ ≤ start then none
              else some ({ start, end_, hadRange := true, endWasEof := false }, ptr)
      | ptr => some ({ start, end_ := start, hadRange := false, endWasEof := false }, ptr)

/-- The characters of the commands: `a`, `c` and `d`. -/
inductive Action where
  | add
  | change
  | delete
  deriving DecidableEq

def readAction : UInt8 → Option Action
  | 97 => some .add
  | 99 => some .change
  | 100 => some .delete
  | _ => none

/-- One command line, at which the base consensus is used up down to `j`: the
range and the action, if all the checks pass. -/
def readCommand (len1 : Nat) (j : Int) (diffLine : Line) : Option (EdRange × Action) :=
  if diffLine.length > 127 then none
  else
    -- the copy in `diff_line` ends at the first zero byte
    match readRange len1 (diffLine.takeWhile (· != 0)) with
    | none => none
    | some (range, ptr) =>
        if range.end_ > j then none
        else
          match ptr with
          | [byte] =>
              match readAction byte with
              | none => none
              | some action =>
                  if range.endWasEof ∧ action ≠ .delete then none
                  else if range.hadRange ∧ action = .add then none
                  else some (range, action)
          | _ => none

/-- `for (; j && j > end; --j)`: the unchanged lines are added to `cons2`. -/
def addUnchanged (cons1 : List Line) (end_ : Nat) : Nat → List Line → Nat × List Line
  | 0, cons2 => (0, cons2)
  | j + 1, cons2 =>
      if j + 1 > end_ then addUnchanged cons1 end_ j (cons2 ++ [smartlistGet cons1 j])
      else (j + 1, cons2)

/-- `while (--j >= start)` -/
def ignoreRemoved (start : Nat) : Nat → Int
  | 0 => -1
  | j + 1 => if j ≥ start then ignoreRemoved start j else j

/-- The lines up to the next single dot, and those after it. -/
def readInserted : List Line → Option (List Line × List Line)
  | [] => none
  | line :: rest =>
      if line = ascii ['.'] then some ([], rest)
      else (readInserted rest).map fun (lines, rest) => (line :: lines, rest)

theorem readInserted_length {diff lines rest : List Line}
    (ok : readInserted diff = some (lines, rest)) : rest.length < diff.length := by
  induction diff generalizing lines with
  | nil => cases ok
  | cons line diff ih =>
    rw [readInserted] at ok
    split at ok
    · cases ok
      exact Nat.lt_succ_self _
    · obtain ⟨⟨lines', rest'⟩, inner, same⟩ := Option.map_eq_some_iff.mp ok
      cases same
      exact (ih inner).trans (Nat.lt_succ_self _)

/-- The commands of a diff from one of its lines on. The lines of the new
consensus are collected in `cons2` from the last one to the first. -/
def applyCommands (cons1 : List Line) : List Line → Int → List Line → Option (List Line)
  | [], j, cons2 => some (addUnchanged cons1 0 j.toNat cons2).2.reverse
  | diffLine :: diff, j, cons2 =>
      match readCommand cons1.length j diffLine with
      | none => none
      | some (range, action) =>
          let (j, cons2) := addUnchanged cons1 range.end_ j.toNat cons2
          let j : Int := if action = .add then j else ignoreRemoved range.start j
          if action = .delete then applyCommands cons1 diff j cons2
          else
            match _ok : readInserted diff with
            | none => none
            | some (lines, rest) =>
                if lines = [] then none
                else applyCommands cons1 rest j (cons2 ++ lines.reverse)
termination_by diff => diff.length
decreasing_by
  · exact Nat.lt_succ_self _
  · exact (readInserted_length _ok).trans (Nat.lt_succ_self _)

def applyEdDiff (cons1 diff : List Line) (diffStartingLine : Nat) : Option (List Line) :=
  applyCommands cons1 (diff.drop diffStartingLine) cons1.length []

end RendezMix.Source.EdApply
