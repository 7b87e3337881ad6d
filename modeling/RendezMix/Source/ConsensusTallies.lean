import RendezMix.Library.LongRuns
import RendezMix.Source.Versions

/-!
# Tallies of votes

How `feature/dirauth/dirvote.c` counts what more than a share of the votes list: consensus methods
and recommended versions. Each call of `qsort` may put elements that compare equal in another order,
so that the calls are given one after the other, each with what it does.
-/
namespace RendezMix.Source.ConsensusTallies
open Library.Sorting Library.LongRuns Versions
open Std (TransCmp)

/-! ## Frequent members -/

/-- The loop of `get_frequent_members`, with `cur` and `count`. -/
def frequentLoop (min : Nat) : Option CString → Nat → List CString → List CString
  | cur, count, [] => if count > min then cur.toList else []
  | cur, count, cp :: rest =>
    if cur = some cp then frequentLoop min cur (count + 1) rest
    else (if count > min then cur.toList else []) ++ frequentLoop min (some cp) 1 rest

def getFrequentMembers (in_ : List CString) (min : Nat) : List CString :=
  frequentLoop min none 0 in_

theorem frequentLoop_eq (min : Nat) (cur : CString) (count : Nat) (l : List CString) :
    frequentLoop min (some cur) count l = longRunsFrom min cur count l := by
  induction l generalizing cur count with
  | nil => rfl
  | cons cp rest ih =>
    rw [frequentLoop, longRunsFrom]
    by_cases same : cp = cur
    · rw [if_pos (by rw [same]), if_pos same, ih]
    · rw [if_neg (fun equal => same (Option.some_inj.mp equal).symm), if_neg same, ih]
      rfl

theorem getFrequentMembers_eq (in_ : List CString) (min : Nat) :
    getFrequentMembers in_ min = longRuns min in_ := by
  cases in_ with
  | nil =>
    rw [getFrequentMembers, frequentLoop, if_neg (Nat.not_lt_zero min)]
    rfl
  | cons cp rest =>
    rw [getFrequentMembers, frequentLoop, if_neg (fun none_ => by cases none_),
      if_neg (Nat.not_lt_zero min), frequentLoop_eq]
    rfl

/-! ## Consensus methods -/

def intMax : Int := 2147483647

/-- `(int)tor_parse_long(s, 10, 1, INT_MAX, NULL, NULL)` -/
def methodNumber (s : CString) : Int := (torParseLong s 1 intMax).getD 0

def cmpIntStrings (a b : CString) : Ordering :=
  let ai := methodNumber a
  let bi := methodNumber b
  if ai < bi then .lt
  else if ai = bi then
    -- Parsing failed.
    if ai = 0 then strcmp a b else .eq
  else .gt

/-- `compute_consensus_method` of the `supported_methods` of the votes -/
def computeConsensusMethod (qsort : Nat → List CString → List CString)
    (votes : List (List CString)) : Int :=
  let min := votes.length * 2 / 3
  let allMethods :=
    gather (fun k methods => smartlistUniq cmpIntStrings (qsort k methods)) 0 votes
  match (getFrequentMembers (qsort votes.length allMethods) min).getLast? with
  | some best => methodNumber best
  | none => 1

/-! ## Recommended versions -/

/-- `smartlist_split_string(cv, versions, ",", SPLIT_SKIP_SPACE|SPLIT_IGNORE_BLANK, 0)` -/
def splitRecommended (versions : CString) : List CString :=
  (splitVersions versions).filter (· ≠ [])

def computeConsensusVersionsList (qsort : List CString → List CString) (lst : List CString)
    (nVersioning : Nat) : CString :=
  let min := nVersioning / 2
  List.intercalate [44] (getFrequentMembers (sortVersionList qsort lst false) min)

/-- How `networkstatus_compute_consensus` comes to a list of recommended versions, from those of
the votes that have one. -/
def consensusVersions (qsort : Nat → List CString → List CString)
    (versions : List (Option CString)) : CString :=
  let versioning := versions.reduceOption
  let combined :=
    gather (fun k cv => sortVersionList (qsort k) cv true) 0 (versioning.map splitRecommended)
  computeConsensusVersionsList (qsort versioning.length) combined versioning.length

/-- What a vote lists. -/
structure ListedByVote where
  supportedMethods : List CString
  clientVersions : Option CString
  serverVersions : Option CString

/-! ## The order of the methods -/

/-- What is compared: the number, and the string where it is not one. -/
def methodKey (s : CString) : Int × CString :=
  (methodNumber s, if methodNumber s = 0 then s else [])

theorem cmpIntStrings_key (a b : CString) :
    cmpIntStrings a b =
      (compare (methodKey a).1 (methodKey b).1).then (strcmp (methodKey a).2 (methodKey b).2) := by
  have self : strcmp ([] : CString) [] = .eq := rfl
  unfold cmpIntStrings methodKey
  dsimp only
  obtain less | equal | more := lt_trichotomy (methodNumber a) (methodNumber b)
  · rw [if_pos less, compare_lt_iff_lt.mpr less]
    rfl
  · rw [if_neg (by omega), if_pos equal, Std.compare_eq_iff_eq.mpr equal, ← equal]
    split
    · rfl
    · rw [self]
      rfl
  · rw [if_neg (by omega), if_neg (by omega), compare_gt_iff_gt.mpr more]
    rfl

instance : TransCmp cmpIntStrings := by
  have same : cmpIntStrings = compareLex (compareOn fun s => (methodKey s).1)
      fun a b => strcmp (methodKey a).2 (methodKey b).2 := by
    funext a b
    exact cmpIntStrings_key a b
  have base : TransCmp strcmp := inferInstance
  have strings : TransCmp fun a b => strcmp (methodKey a).2 (methodKey b).2 := {
    eq_swap := base.eq_swap
    isLE_trans := base.isLE_trans }
  rw [same]
  infer_instance

end RendezMix.Source.ConsensusTallies
