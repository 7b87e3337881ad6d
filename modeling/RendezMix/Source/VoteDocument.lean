import RendezMix.Source.Address
import RendezMix.Source.Binascii
import RendezMix.Source.Dircollate
import RendezMix.Source.Strings

/-!
# Votes

A vote as `networkstatus_parse_vote_from_string` leaves it, with the fields that a consensus
is computed from, and the checks that the parser makes of its times, delays, flags and
parameters (`feature/dirparse/ns_parse.c`).
-/
namespace RendezMix.Source
open Library.ByteStrings
open Std (TransCmp)

/-- A time that `parse_iso_time` can read: its year is between 1970 and the largest `int`. -/
abbrev Time := { t : Int // 0 ≤ t ∧ t < 2 ^ 62 }

/-- What a vote says about a router, besides its identities. A field that comes with a flag
`has_...` is missing where the flag is not set. -/
structure RouterClaim where
  publishedOn : Time
  nickname : CString
  descriptorDigest : Bytes 20
  /-- The parser takes an IPv4 address only. -/
  ipv4Addr : UInt32
  ipv4Orport : UInt16
  ipv4Dirport : UInt16
  /-- The address of an `a` line, which is of the family `AF_UNSPEC` without such a line. -/
  ipv6Addr : Option (Bytes 16)
  ipv6Orport : UInt16
  flags : UInt64
  version : Option CString
  protocols : Option CString
  measuredBwKb : Option UInt32
  bandwidthKb : Option UInt32
  guardfractionPercentage : Option UInt32
  exitsummary : Option CString
  microdesc : List CString
  deriving DecidableEq

/-- `networkstatus_t` of a vote. -/
structure NetworkVote where
  voterIdentity : Bytes 20
  validAfter : Int
  freshUntil : Int
  validUntil : Int
  voteSeconds : Int
  distSeconds : Int
  knownFlags : List CString
  netParams : Option (List CString)
  hasMeasuredBws : Bool
  routers : Vote RouterClaim

def minVoteSeconds : Int := 2
def minDistSeconds : Int := 2

/-- `MIN_VOTE_INTERVAL` and `MIN_VOTE_INTERVAL_TESTING`. -/
def minVoteInterval (testingTorNetwork : Bool) : Int := if testingTorNetwork then 10 else 300

def maxKnownFlagsInVote : Nat := 64

/-- The checks of the times and of the `voting-delay` line. -/
def voteTimesAccepted (testingTorNetwork : Bool) (ns : NetworkVote) : Bool :=
  if ns.validAfter + minVoteInterval testingTorNetwork > ns.freshUntil then false
  else if ns.validAfter + minVoteInterval testingTorNetwork * 2 > ns.validUntil then false
  else if ns.voteSeconds < minVoteSeconds then false
  else if ns.distSeconds < minDistSeconds then false
  else true

/-- Whether each string comes before the next one. -/
def inOrder : List CString → Bool
  | fst :: snd :: rest => if strcmp fst snd ≠ .lt then false else inOrder (snd :: rest)
  | _ => true

def equalsSign : UInt8 := 61

/-- The keyword of a parameter, before the first `=`. -/
def paramKeyword (param : CString) : CString := param.takeWhile (· ≠ equalsSign)

/-- `strchr(param, '=') + 1`, or nothing without such a character. -/
def paramText (param : CString) : Option CString :=
  if equalsSign ∈ param then some (param.drop ((paramKeyword param).length + 1)) else none

def int32Bound : Int := 2 ^ 31

/-- `tor_parse_long(eq+1, 10, INT32_MIN, INT32_MAX, &ok, NULL)` -/
def paramValue (param : CString) : Option Int :=
  (paramText param).bind fun text => torParseLong text (-int32Bound) (int32Bound - 1)

/-- Whether two neighbours have one keyword. -/
def anyDups : List CString → Bool
  | fst :: snd :: rest =>
    if paramKeyword fst = paramKeyword snd then true else anyDups (snd :: rest)
  | _ => false

/-- The checks of the `params` line. -/
def paramsAccepted (params : List CString) : Bool :=
  params.all (fun param => (paramValue param).isSome) && inOrder params && !anyDups params

/-- The checks of the `known-flags` line of a vote. -/
def knownFlagsAccepted (knownFlags : List CString) : Bool :=
  inOrder knownFlags && knownFlags.length ≤ maxKnownFlagsInVote

/-- What `routerstatus_parse_guardfraction` lets through. -/
def guardfractionAccepted (rs : VoteRouterstatus RouterClaim) : Bool :=
  rs.claim.guardfractionPercentage.all (· ≤ 100)

/-- The checks of `networkstatus_parse_vote_from_string`. -/
def voteAccepted (testingTorNetwork : Bool) (ns : NetworkVote) : Bool :=
  voteTimesAccepted testingTorNetwork ns && knownFlagsAccepted ns.knownFlags
    && paramsAccepted (ns.netParams.getD []) && ns.routers.routerstatusList.all guardfractionAccepted

end RendezMix.Source

/-!
# Order statistics

`lib/container/order.c`: the element at a place of an array in sorted order, and the lower
median. The failed assertion about the place is `none`. Elements that compare as equal are
the same, so that every sort gives one result.
-/
namespace RendezMix.Source
open Library.OrderStatistics Library.Sorting
open Std (TransOrd LawfulEqOrd)

variable {α : Type*} [Ord α] [TransOrd α]

/-- `find_nth_int` and its siblings. -/
def findNth (array : List α) (nth : Nat) : Option α := ((insertionSorter compare).sort array)[nth]?

/-- `median_int` and its siblings. -/
def median (array : List α) : Option α := findNth array ((array.length - 1) / 2)

section

variable {array : List α}

theorem findNth_isSome (array : List α) (nth : Nat) :
    (findNth array nth).isSome ↔ nth < array.length := by
  rw [findNth, isSome_getElem?, ((insertionSorter compare).perm array).length_eq]

theorem median_isSome (nonempty : array ≠ []) : (median array).isSome := by
  have positive : 0 < array.length := List.length_pos_iff.mpr nonempty
  rw [median, findNth_isSome]
  omega

theorem median_mem {x : α} (found : median array = some x) : x ∈ array :=
  ((insertionSorter compare).perm array).mem_iff.mp (List.mem_of_getElem? found)

theorem sort_ordered (array : List Int) :
    ((insertionSorter compare).sort array).Pairwise (· ≤ ·) := by
  apply ((insertionSorter compare).ordered array).imp
  intro a b le
  rwa [Std.isLE_compare] at le

/-- The lower median is up to a bound exactly when half of the elements are. -/
theorem median_le_iff {array : List Int} {x : Int} (found : median array = some x) (t : Int) :
    x ≤ t ↔ array.length ≤ 2 * array.countP (· ≤ t) := by
  have positive : 0 < array.length := List.length_pos_of_mem (median_mem found)
  rw [getElem_le_iff (sort_ordered array) found, ((insertionSorter compare).perm array).countP_eq]
  omega

end

section

variable {ρ : Type*} {rows : List ρ} (f g : ρ → Int) {x : Int}
  (first : median (rows.map f) = some x) {y : Int} (second : median (rows.map g) = some y)
  (gap : Int)

include first second

/-- Two columns of a table have medians that are apart exactly when the second column never
reaches a bound in half of the rows unless the first one has reached an earlier bound in half
of them. -/
theorem medians_apart_iff :
    x + gap ≤ y ↔ ∀ t : Int, rows.length ≤ 2 * rows.countP (fun row => g row ≤ t) →
      rows.length ≤ 2 * rows.countP (fun row => f row + gap ≤ t) := by
  have upTo : ∀ (h : ρ → Int) (t : Int), (rows.map h).countP (· ≤ t)
      = rows.countP fun row => h row ≤ t := by
    intro h t
    rw [List.countP_map]
    rfl
  have shifted : ∀ t : Int, x + gap ≤ t
      ↔ rows.length ≤ 2 * rows.countP (fun row => f row + gap ≤ t) := by
    intro t
    have le := median_le_iff first (t - gap)
    rw [upTo, List.length_map] at le
    have moved : ∀ z : Int, z ≤ t - gap ↔ z + gap ≤ t := fun z => ⟨by omega, by omega⟩
    rw [← moved, le]
    simp only [moved]
  have reached : ∀ t : Int, y ≤ t ↔ rows.length ≤ 2 * rows.countP (fun row => g row ≤ t) := by
    intro t
    have le := median_le_iff second t
    rwa [upTo, List.length_map] at le
  constructor
  · intro apart t half
    rw [← reached] at half
    rw [← shifted]
    exact le_trans apart half
  · intro earlier
    rw [shifted]
    apply earlier
    rw [← reached]

/-- What holds in every row holds of the medians. -/
theorem medians_apart (apart : ∀ row ∈ rows, f row + gap ≤ g row) : x + gap ≤ y := by
  rw [medians_apart_iff f g first second gap]
  intro t half
  have fewer : rows.countP (fun row => g row ≤ t) ≤ rows.countP fun row => f row + gap ≤ t := by
    apply List.countP_mono_left
    intro row member le
    rw [decide_eq_true_eq] at le ⊢
    exact le_trans (apart row member) le
  omega

end

end RendezMix.Source

/-!
# The parameters of a consensus

`dirvote_compute_params` of `feature/dirauth/dirvote.c`: the median of each parameter that
enough votes set. A failed assertion is `none`.
-/
namespace RendezMix.Source
open Library.Decimals Library.Sorting

def minVotesForParam : Nat := 3

/-- `%ld` -/
def longText (n : Int) : CString := if n < 0 then 45 :: decimal n.natAbs else decimal n.natAbs

def smartlistSortStrings (sl : List CString) : List CString := (insertionSorter strcmp).sort sl

theorem smartlistSortStrings_perm {l l' : List CString} (perm : l'.Perm l) :
    smartlistSortStrings l' = smartlistSortStrings l :=
  (insertionSorter strcmp).eq_of_perm (insertionSorter strcmp) perm fun _ _ _ _ equal =>
    Std.compare_eq_iff_eq.mp equal

/-- The end of a series of values of one parameter: its median, where enough votes set it. -/
def paramSeries (totalAuthorities : Nat) (param : CString) (curParamLen : Nat) (vals : List Int) :
    Option (List CString) :=
  if vals.length > totalAuthorities / 2 ∨ vals.length ≥ minVotesForParam then
    (median vals).map fun median => [param.take curParamLen ++ longText median]
  else some []

/-- `strncmp(next_param, param, n)` finds a difference. -/
def strncmpDiffers (nextParam param : CString) (n : Nat) : Bool := nextParam.take n ≠ param.take n

/-- The loop over the sorted parameters, with the values of the current one so far and the
length of its keyword with the `=`. -/
def paramLoop (nVotes totalAuthorities : Nat) (vals : List Int) (curParamLen : Nat) :
    List CString → Option (List CString)
  | [] => some []
  | param :: rest =>
    if vals.length < nVotes then
      match paramValue param, rest with
      | none, _ => none
      | some value, [] => paramSeries totalAuthorities param curParamLen (vals ++ [value])
      | some value, nextParam :: later =>
        if strncmpDiffers nextParam param curParamLen then
          match paramSeries totalAuthorities param curParamLen (vals ++ [value]),
              paramText nextParam with
          | some series, some _ =>
            (paramLoop nVotes totalAuthorities [] ((paramKeyword nextParam).length + 1)
              (nextParam :: later)).map (series ++ ·)
          | _, _ => none
        else paramLoop nVotes totalAuthorities (vals ++ [value]) curParamLen (nextParam :: later)
    else none

def dirvoteComputeParams (votes : List NetworkVote) (totalAuthorities : Nat) :
    Option (List CString) :=
  let paramList := smartlistSortStrings (votes.flatMap fun v => v.netParams.getD [])
  match paramList with
  | [] => some []
  | curParam :: _ =>
    match paramText curParam with
    | none => none
    | some _ =>
      paramLoop votes.length totalAuthorities [] ((paramKeyword curParam).length + 1) paramList

/-- Whether a string of the list is for the keyword. -/
def isForKeyword (keyword kVPair : CString) : Bool :=
  keyword.isPrefixOf kVPair && kVPair[keyword.length]? = some equalsSign

/-- The loop of `dirvote_get_intermediate_param_value`: how many strings were found for the
keyword, and the value of the last one. A value that cannot be read ends it. -/
def findParamValues (keyword : CString) : List CString → Nat → Int → Option (Nat × Int)
  | [], nFound, value => some (nFound, value)
  | kVPair :: rest, nFound, value =>
    if isForKeyword keyword kVPair then
      match torParseLong (kVPair.drop (keyword.length + 1)) (-int32Bound) (int32Bound - 1) with
      | none => none
      | some value => findParamValues keyword rest (nFound + 1) value
    else findParamValues keyword rest nFound value

def dirvoteGetIntermediateParamValue (paramList : List CString) (keyword : CString)
    (defaultVal : Int) : Int :=
  match findParamValues keyword paramList 0 defaultVal with
  | none => defaultVal
  | some (nFound, value) => if nFound = 1 then value else defaultVal

end RendezMix.Source
