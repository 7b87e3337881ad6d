import Mathlib.Data.List.Induction
import RendezMix.Library.Sorting

/-!
# Lists with a comparison

`smartlist_get_most_frequent_` of `lib/container/smartlist.c`: one pass over a
list that is sorted by the comparison, which counts the current run of equal
members and keeps the longest run so far.
-/
namespace RendezMix.Source
open Library.Sorting
open Std (TransCmp OrientedCmp ReflCmp)

variable {α : Type*}

/-- The variables of the loop of `smartlist_get_most_frequent_`. -/
structure FrequencyScan (α : Type*) where
  mostFrequent : Option α
  mostFrequentCount : Nat
  cur : Option α
  count : Nat

/-- Compare the run that ends with the longest one; a tie goes to the later run. -/
def FrequencyScan.settle (s : FrequencyScan α) : FrequencyScan α :=
  if s.cur.isSome ∧ s.count ≥ s.mostFrequentCount then
    { s with mostFrequent := s.cur, mostFrequentCount := s.count }
  else s

def FrequencyScan.item (cmp : α → α → Ordering) (s : FrequencyScan α) (item : α) :
    FrequencyScan α :=
  match s.cur with
  | some cur =>
    if cmp cur item = .eq then { s with count := s.count + 1 }
    else { s.settle with cur := some item, count := 1 }
  | none => { s with cur := some item, count := 1 }

/-- `smartlist_get_most_frequent_`: the member and its count. -/
def smartlistGetMostFrequent (cmp : α → α → Ordering) (sl : List α) : Option α × Nat :=
  let s := (sl.foldl (FrequencyScan.item cmp) ⟨none, 0, none, 0⟩).settle
  (s.mostFrequent, s.mostFrequentCount)

/-- How many members are equal to this one. -/
def tally (cmp : α → α → Ordering) (sl : List α) (a : α) : Nat :=
  sl.countP fun b => cmp a b = .eq

/-- Among the members with a property, `a` is in the longest run, of `n` members, and in the last
one of this length; it is the first member of its run. -/
structure TopOf (cmp : α → α → Ordering) (sl : List α) (among : α → Prop) (a : α) (n : Nat) :
    Prop where
  first : sl.find? (fun b => cmp a b = .eq) = some a
  count : n = tally cmp sl a
  most : ∀ b ∈ sl, among b → tally cmp sl b ≤ n
  later : ∀ b ∈ sl, among b → tally cmp sl b = n → (cmp b a).isLE = true

/-- What the loop holds after a sorted list whose last run is the run of `c`. -/
structure Scanned (cmp : α → α → Ordering) (sl : List α) (s : FrequencyScan α) (c : α) :
    Prop where
  cur : s.cur = some c
  first : sl.find? (fun b => cmp c b = .eq) = some c
  count : s.count = tally cmp sl c
  last : ∀ b ∈ sl, (cmp b c).isLE = true
  noBest : s.mostFrequent = none → s.mostFrequentCount = 0 ∧ ∀ b ∈ sl, cmp b c ≠ .lt
  best : ∀ a, s.mostFrequent = some a →
    cmp a c = .lt ∧ TopOf cmp sl (fun b => cmp b c = .lt) a s.mostFrequentCount

variable {cmp : α → α → Ordering} {sl : List α} {s : FrequencyScan α} {c x : α}

theorem tally_concat (sl : List α) (x a : α) :
    tally cmp (sl ++ [x]) a = tally cmp sl a + if cmp a x = .eq then 1 else 0 := by
  rw [tally, List.countP_append, tally, List.countP_singleton]
  simp only [decide_eq_true_eq]

theorem Scanned.mem (scanned : Scanned cmp sl s c) : c ∈ sl :=
  List.mem_of_find?_eq_some scanned.first

variable [TransCmp cmp]

theorem tally_congr {a b : α} (equal : cmp a b = .eq) : tally cmp sl a = tally cmp sl b := by
  simp only [tally, TransCmp.congr_left equal]

theorem tally_pos_of_mem {a : α} (member : a ∈ sl) : 0 < tally cmp sl a := by
  rw [tally, List.countP_pos_iff]
  exact ⟨a, member, by simp [ReflCmp.compare_self]⟩

section

variable (scanned : Scanned cmp sl s c)

include scanned

/-- The run that ends is compared with the longest run of smaller members. -/
theorem Scanned.settle :
    ∃ a, s.settle.mostFrequent = some a
      ∧ TopOf cmp sl (fun _ => True) a s.settle.mostFrequentCount := by
  have split (b : α) (member : b ∈ sl) : cmp b c = .lt ∨ cmp b c = .eq := by
    have le := scanned.last b member
    rwa [Ordering.isLE_iff_eq_lt_or_eq_eq] at le
  have same (b : α) (equal : cmp b c = .eq) : tally cmp sl b = s.count := by
    rw [scanned.count, tally_congr equal]
  rw [FrequencyScan.settle]
  by_cases enough : s.count ≥ s.mostFrequentCount
  · rw [if_pos ⟨by rw [scanned.cur]; rfl, enough⟩]
    refine ⟨c, scanned.cur, scanned.first, scanned.count, ?_, ?_⟩
    · intro b member _
      rcases split b member with less | equal
      · cases best : s.mostFrequent with
        | none => exact absurd less ((scanned.noBest best).2 b member)
        | some a => exact le_trans ((scanned.best a best).2.most b member less) enough
      · exact le_of_eq (same b equal)
    · intro b member _ _
      exact scanned.last b member
  · rw [if_neg (fun both => enough both.2)]
    cases best : s.mostFrequent with
    | none =>
      have zero := (scanned.noBest best).1
      omega
    | some a =>
      have top := (scanned.best a best).2
      refine ⟨a, rfl, top.first, top.count, ?_, ?_⟩
      · intro b member _
        rcases split b member with less | equal
        · exact top.most b member less
        · rw [same b equal]
          omega
      · intro b member _ count
        rcases split b member with less | equal
        · exact top.later b member less count
        · rw [same b equal] at count
          omega

/-- A member that continues the last run. -/
theorem Scanned.item_eq (equal : cmp c x = .eq) : Scanned cmp (sl ++ [x]) (s.item cmp x) c := by
  have less (b : α) (lt : cmp b c = .lt) : tally cmp (sl ++ [x]) b = tally cmp sl b := by
    rw [tally_concat, TransCmp.lt_of_lt_of_eq lt equal]
    simp
  have before (b : α) (member : b ∈ sl ++ [x]) (lt : cmp b c = .lt) : b ∈ sl := by
    rcases List.mem_append.mp member with inside | last
    · exact inside
    · rw [List.mem_singleton.mp last, OrientedCmp.eq_symm equal] at lt
      cases lt
  simp only [FrequencyScan.item, scanned.cur, if_pos equal]
  constructor
  · rfl
  · rw [List.find?_append, scanned.first]
    rfl
  · rw [tally_concat, if_pos equal, ← scanned.count]
  · intro b member
    rcases List.mem_append.mp member with inside | last
    · exact scanned.last b inside
    · rw [List.mem_singleton.mp last, OrientedCmp.eq_symm equal]
      rfl
  · intro none
    have held := scanned.noBest none
    exact ⟨held.1, fun b member lt => held.2 b (before b member lt) lt⟩
  · intro a some
    obtain ⟨lt, top⟩ := scanned.best a some
    refine ⟨lt, ?_, ?_, ?_, ?_⟩
    · rw [List.find?_append, top.first]
      rfl
    · rw [less a lt]
      exact top.count
    · intro b member among
      rw [less b among]
      exact top.most b (before b member among) among
    · intro b member among count
      rw [less b among] at count
      exact top.later b (before b member among) among count

/-- A member that starts a run. -/
theorem Scanned.item_lt (more : cmp c x = .lt) : Scanned cmp (sl ++ [x]) (s.item cmp x) x := by
  obtain ⟨a, best, top⟩ := scanned.settle
  have self : cmp x x = .eq := ReflCmp.compare_self
  have less (b : α) (member : b ∈ sl) : cmp b x = .lt :=
    TransCmp.lt_of_isLE_of_lt (scanned.last b member) more
  have apart (b : α) (member : b ∈ sl) : cmp x b ≠ .eq := by
    intro equal
    have lt := less b member
    rw [OrientedCmp.eq_symm equal] at lt
    cases lt
  have before (b : α) (member : b ∈ sl ++ [x]) (lt : cmp b x = .lt) : b ∈ sl := by
    rcases List.mem_append.mp member with inside | last
    · exact inside
    · rw [List.mem_singleton.mp last, self] at lt
      cases lt
  have same (b : α) (lt : cmp b x = .lt) : tally cmp (sl ++ [x]) b = tally cmp sl b := by
    rw [tally_concat, lt]
    simp
  have inside : a ∈ sl := List.mem_of_find?_eq_some top.first
  have other : cmp c x ≠ .eq := by
    rw [more]
    decide
  simp only [FrequencyScan.item, scanned.cur, if_neg other]
  constructor
  · rfl
  · have none : sl.find? (fun b => cmp x b = .eq) = none := by
      rw [List.find?_eq_none]
      simpa using apart
    rw [List.find?_append, none]
    simp [ReflCmp.compare_self]
  · have none : tally cmp sl x = 0 := by
      rw [tally, List.countP_eq_zero]
      simpa using apart
    rw [tally_concat, none, if_pos ReflCmp.compare_self]
  · intro b member
    rcases List.mem_append.mp member with earlier | last
    · rw [less b earlier]
      rfl
    · rw [List.mem_singleton.mp last, self]
      rfl
  · intro none
    rw [best] at none
    cases none
  · intro a' some
    rw [best, Option.some.injEq] at some
    subst some
    refine ⟨less a inside, ?_, ?_, ?_, ?_⟩
    · rw [List.find?_append, top.first]
      rfl
    · rw [same a (less a inside)]
      exact top.count
    · intro b member among
      rw [same b among]
      exact top.most b (before b member among) trivial
    · intro b member among count
      rw [same b among] at count
      exact top.later b (before b member among) trivial count

end

theorem foldl_item_scanned (sl : List α) (x : α)
    (ordered : (sl ++ [x]).Pairwise fun a b => (cmp a b).isLE = true) :
    ∃ c, Scanned cmp (sl ++ [x])
      ((sl ++ [x]).foldl (FrequencyScan.item cmp) ⟨none, 0, none, 0⟩) c := by
  induction sl using List.reverseRecOn generalizing x with
  | nil =>
    refine ⟨x, rfl, ?_, ?_, ?_, ?_, ?_⟩
    · simp [ReflCmp.compare_self]
    · simp [tally, FrequencyScan.item, ReflCmp.compare_self]
    · simp [ReflCmp.compare_self]
    · simp [FrequencyScan.item, ReflCmp.compare_self]
    · simp [FrequencyScan.item]
  | append_singleton sl y ih =>
    rw [List.pairwise_append] at ordered
    obtain ⟨c, scanned⟩ := ih y ordered.1
    rw [List.foldl_concat]
    have le := ordered.2.2 c scanned.mem x (List.mem_singleton_self x)
    rcases Ordering.isLE_iff_eq_lt_or_eq_eq.mp le with more | equal
    · exact ⟨x, scanned.item_lt more⟩
    · exact ⟨c, scanned.item_eq equal⟩

/-- In a sorted list that is not empty the result is the first member of the longest run. -/
theorem smartlistGetMostFrequent_spec (sl : List α) (nonempty : sl ≠ [])
    (ordered : sl.Pairwise fun a b => (cmp a b).isLE = true) :
    ∃ a n, smartlistGetMostFrequent cmp sl = (some a, n) ∧ TopOf cmp sl (fun _ => True) a n := by
  obtain ⟨front, x, rfl⟩ := (List.eq_nil_or_concat' sl).resolve_left nonempty
  obtain ⟨c, scanned⟩ := foldl_item_scanned front x ordered
  obtain ⟨a, best, top⟩ := scanned.settle
  exact ⟨a, _, Prod.ext best rfl, top⟩

end RendezMix.Source

/-!
# Searching a sorted list

`smartlist_bsearch_idx` of `lib/container/smartlist.c`. The comparison of the key with a member
is an ordering: `gt` where the key is greater. A failed assertion is `none`.
-/
namespace RendezMix.Source

variable {α : Type*}

/-- The loop of `smartlist_bsearch_idx`, with what follows it. -/
def bsearchLoop (compare : α → Ordering) (sl : List α) : Nat → Nat → Nat → Option (Nat × Bool)
  | 0, _, _ => none
  | fuel + 1, lo, hi =>
    if lo ≤ hi then
      let diff := hi - lo
      let mid := lo + diff / 2
      match sl[mid]?.map compare with
      | some .eq => some (mid, true)
      | some .gt => bsearchLoop compare sl fuel (mid + 1) hi
      | some .lt =>
        if mid > 0 then bsearchLoop compare sl fuel lo (mid - 1)
        else if mid = lo then some (0, false)
        else none
      | none => none
    else if lo ≠ hi + 1 then none
    else if lo < sl.length then
      if sl[lo]?.map compare = some .lt then some (lo, false) else none
    else if sl[sl.length - 1]?.map compare = some .gt then some (lo, false)
    else none

/-- `smartlist_bsearch_idx`: the index, and whether a member matches. -/
def smartlistBsearchIdx (compare : α → Ordering) (sl : List α) : Option (Nat × Bool) :=
  if sl.length = 0 then some (0, false)
  else bsearchLoop compare sl (sl.length + 1) 0 (sl.length - 1)

/-! ## What the search finds -/

/-- The list is sorted as the comparison with the key sees it. -/
def SortedFor (compare : α → Ordering) (sl : List α) : Prop :=
  sl.Pairwise fun a b => (compare b = .gt → compare a = .gt) ∧ (compare a = .lt → compare b = .lt)

/-- The place of a key: smaller members are before it and greater ones from it on, but for
members that match where one is found. -/
structure PlaceOf (compare : α → Ordering) (sl : List α) (idx : Nat) (found : Bool) : Prop where
  le : idx ≤ sl.length
  before : ∀ i a, i < idx → sl[i]? = some a → compare a = .gt ∨ found = true ∧ compare a = .eq
  after : ∀ i a, idx ≤ i → sl[i]? = some a → compare a = .lt ∨ found = true ∧ compare a = .eq
  matched : found = true → ∃ a, sl[idx]? = some a ∧ compare a = .eq

variable {compare : α → Ordering} {sl : List α}

section

variable (sorted : SortedFor compare sl)

include sorted

theorem SortedFor.before {i j : Nat} {a b : α} (lt : i < j) (at_i : sl[i]? = some a)
    (at_j : sl[j]? = some b) :
    (compare b = .gt → compare a = .gt) ∧ (compare a = .lt → compare b = .lt) := by
  obtain ⟨_, rfl⟩ := List.getElem?_eq_some_iff.mp at_i
  obtain ⟨_, rfl⟩ := List.getElem?_eq_some_iff.mp at_j
  exact List.pairwise_iff_getElem.mp sorted i j _ _ lt

/-- The loop keeps what its comment says: smaller members before `lo`, greater ones after `hi`. -/
theorem bsearchLoop_spec (fuel lo hi : Nat) (inside : hi < sl.length) (near : lo ≤ hi + 1)
    (enough : hi + 1 < fuel + lo) (below : ∀ i a, i < lo → sl[i]? = some a → compare a = .gt)
    (above : ∀ i a, hi < i → sl[i]? = some a → compare a = .lt) :
    ∃ idx found, bsearchLoop compare sl fuel lo hi = some (idx, found)
      ∧ PlaceOf compare sl idx found := by
  induction fuel generalizing lo hi with
  | zero => omega
  | succ fuel ih =>
    rw [bsearchLoop]
    by_cases more : lo ≤ hi
    · have mid : lo + (hi - lo) / 2 < sl.length := by omega
      have at_mid := List.getElem?_eq_getElem mid
      rw [if_pos more]
      simp only
      rw [at_mid, Option.map_some]
      cases cmp : compare sl[lo + (hi - lo) / 2] with
      | eq =>
        refine ⟨_, _, rfl, Nat.le_of_lt mid, ?_, ?_, fun _ => ⟨_, at_mid, cmp⟩⟩
        · intro i a lt at_i
          have order := sorted.before lt at_i at_mid
          cases other : compare a with
          | gt => exact Or.inl rfl
          | eq => exact Or.inr ⟨rfl, rfl⟩
          | lt => rw [order.2 other] at cmp; cases cmp
        · intro i a le at_i
          rcases Nat.lt_or_eq_of_le le with lt | rfl
          · have order := sorted.before lt at_mid at_i
            cases other : compare a with
            | lt => exact Or.inl rfl
            | eq => exact Or.inr ⟨rfl, rfl⟩
            | gt => rw [order.1 other] at cmp; cases cmp
          · rw [at_mid, Option.some.injEq] at at_i
            rw [← at_i]
            exact Or.inr ⟨rfl, cmp⟩
      | gt =>
        apply ih _ hi inside (by omega) (by omega) _ above
        intro i a lt at_i
        rcases Nat.lt_or_eq_of_le (Nat.le_of_lt_succ lt) with earlier | rfl
        · exact (sorted.before earlier at_i at_mid).1 cmp
        · rw [at_mid, Option.some.injEq] at at_i
          rwa [← at_i]
      | lt =>
        have later : ∀ i a, lo + (hi - lo) / 2 ≤ i → sl[i]? = some a → compare a = .lt := by
          intro i a le at_i
          rcases Nat.lt_or_eq_of_le le with lt | rfl
          · exact (sorted.before lt at_mid at_i).2 cmp
          · rw [at_mid, Option.some.injEq] at at_i
            rwa [← at_i]
        simp only
        by_cases positive : lo + (hi - lo) / 2 > 0
        · rw [if_pos positive]
          apply ih lo _ (by omega) (by omega) (by omega) below
          exact fun i a lt => later i a (by omega)
        · rw [if_neg positive, if_pos (by omega)]
          refine ⟨_, _, rfl, Nat.zero_le _, fun i a lt => absurd lt (Nat.not_lt_zero i), ?_, ?_⟩
          · exact fun i a _ at_i => Or.inl (later i a (by omega) at_i)
          · exact fun found => absurd found Bool.false_ne_true
    · have between : lo = hi + 1 := by omega
      have place : PlaceOf compare sl lo false :=
        ⟨by omega, fun i a lt at_i => Or.inl (below i a lt at_i),
          fun i a le at_i => Or.inl (above i a (by omega) at_i),
          fun found => absurd found Bool.false_ne_true⟩
      rw [if_neg more, if_neg (not_not.mpr between)]
      by_cases last : lo < sl.length
      · have at_lo := List.getElem?_eq_getElem last
        have greater := above lo _ (by omega) at_lo
        rw [if_pos last, at_lo, Option.map_some, greater, if_pos rfl]
        exact ⟨lo, false, rfl, place⟩
      · have at_last := List.getElem?_eq_getElem (l := sl) (i := sl.length - 1) (by omega)
        have smaller := below (sl.length - 1) _ (by omega) at_last
        rw [if_neg last, at_last, Option.map_some, smaller, if_pos rfl]
        exact ⟨lo, false, rfl, place⟩

/-- The search ends, no assertion fails, and the index is the place of the key. -/
theorem smartlistBsearchIdx_spec :
    ∃ idx found, smartlistBsearchIdx compare sl = some (idx, found)
      ∧ PlaceOf compare sl idx found := by
  rw [smartlistBsearchIdx]
  by_cases empty : sl.length = 0
  · rw [if_pos empty]
    rw [List.length_eq_zero_iff] at empty
    refine ⟨_, _, rfl, Nat.zero_le _, ?_, ?_, fun found => absurd found Bool.false_ne_true⟩
    · exact fun i a lt => absurd lt (Nat.not_lt_zero i)
    · intro i a _ at_i
      rw [empty] at at_i
      cases at_i
  · rw [if_neg empty]
    apply bsearchLoop_spec sorted _ _ _ (by omega) (by omega) (by omega)
    · exact fun i a lt => absurd lt (Nat.not_lt_zero i)
    · intro i a lt at_i
      obtain ⟨bound, _⟩ := List.getElem?_eq_some_iff.mp at_i
      omega

end

end RendezMix.Source

/-!
# Removing duplicates

`smartlist_uniq` of `lib/container/smartlist.c`.
-/
namespace RendezMix.Source
open Std (TransCmp)

variable {α : Type*}

/-- `smartlist_uniq`: a member that is equal to the one before it goes. -/
def smartlistUniq (compare : α → α → Ordering) : List α → List α
  | fst :: snd :: rest =>
    if compare fst snd = .eq then smartlistUniq compare (fst :: rest)
    else fst :: smartlistUniq compare (snd :: rest)
  | sl => sl

theorem smartlistUniq_subset (compare : α → α → Ordering) (sl : List α) :
    ∀ a ∈ smartlistUniq compare sl, a ∈ sl := by
  fun_induction smartlistUniq compare sl with
  | case1 fst snd rest equal ih =>
    intro a member
    rcases List.mem_cons.mp (ih a member) with rfl | later
    · exact List.mem_cons_self
    · exact List.mem_cons_of_mem _ (List.mem_cons_of_mem _ later)
  | case2 fst snd rest differ ih =>
    intro a member
    rcases List.mem_cons.mp member with rfl | later
    · exact List.mem_cons_self
    · exact List.mem_cons_of_mem _ (ih a later)
  | case3 sl short => exact fun a member => member

/-- Two comparisons that agree on the members leave the same ones. -/
theorem smartlistUniq_congr {cmp cmp' : α → α → Ordering} (sl : List α)
    (agree : ∀ a ∈ sl, ∀ b ∈ sl, cmp a b = cmp' a b) :
    smartlistUniq cmp sl = smartlistUniq cmp' sl := by
  fun_induction smartlistUniq cmp sl with
  | case1 fst snd rest equal ih =>
    have inside : ∀ a ∈ fst :: rest, a ∈ fst :: snd :: rest := by
      intro a member
      rcases List.mem_cons.mp member with rfl | later
      · exact List.mem_cons_self
      · exact List.mem_cons_of_mem _ (List.mem_cons_of_mem _ later)
    have equal' : cmp' fst snd = .eq := by
      rw [← agree fst List.mem_cons_self snd (List.mem_cons_of_mem _ List.mem_cons_self)]
      exact equal
    rw [smartlistUniq, if_pos equal']
    exact ih fun a first b second => agree a (inside a first) b (inside b second)
  | case2 fst snd rest differ ih =>
    have differ' : cmp' fst snd ≠ .eq := by
      rw [← agree fst List.mem_cons_self snd (List.mem_cons_of_mem _ List.mem_cons_self)]
      exact differ
    rw [smartlistUniq, if_neg differ', ih fun a first b second =>
      agree a (List.mem_cons_of_mem _ first) b (List.mem_cons_of_mem _ second)]
  | case3 sl short =>
    cases sl with
    | nil => rw [smartlistUniq.eq_2 cmp' [] short]
    | cons a sl =>
      cases sl with
      | nil => rw [smartlistUniq.eq_2 cmp' [a] short]
      | cons b sl => exact absurd rfl (short a b sl)

variable {cmp : α → α → Ordering} [TransCmp cmp]

/-- Each member is equal to one that stays. -/
theorem smartlistUniq_covers (sl : List α) :
    ∀ a ∈ sl, ∃ b ∈ smartlistUniq cmp sl, cmp a b = .eq := by
  fun_induction smartlistUniq cmp sl with
  | case1 fst snd rest equal ih =>
    intro a member
    rcases List.mem_cons.mp member with rfl | later
    · exact ih a List.mem_cons_self
    rcases List.mem_cons.mp later with rfl | last
    · obtain ⟨b, stays, same⟩ := ih fst List.mem_cons_self
      exact ⟨b, stays, TransCmp.eq_trans (Std.OrientedCmp.eq_symm equal) same⟩
    · exact ih a (List.mem_cons_of_mem _ last)
  | case2 fst snd rest differ ih =>
    intro a member
    rcases List.mem_cons.mp member with rfl | later
    · exact ⟨a, List.mem_cons_self, Std.ReflCmp.compare_self⟩
    · obtain ⟨b, stays, same⟩ := ih a later
      exact ⟨b, List.mem_cons_of_mem _ stays, same⟩
  | case3 sl short => exact fun a member => ⟨a, member, Std.ReflCmp.compare_self⟩

/-- What stays of a sorted list increases. -/
theorem smartlistUniq_increasing (sl : List α)
    (sorted : sl.Pairwise fun a b => (cmp a b).isLE = true) :
    (smartlistUniq cmp sl).Pairwise fun a b => cmp a b = .lt := by
  fun_induction smartlistUniq cmp sl with
  | case1 fst snd rest equal ih =>
    apply ih
    rw [List.pairwise_cons] at sorted ⊢
    exact ⟨fun b member => sorted.1 b (List.mem_cons_of_mem _ member),
      (List.pairwise_cons.mp sorted.2).2⟩
  | case2 fst snd rest differ ih =>
    rw [List.pairwise_cons] at sorted
    rw [List.pairwise_cons]
    refine ⟨?_, ih sorted.2⟩
    intro b member
    have inside := smartlistUniq_subset cmp _ b member
    have first := sorted.1 snd List.mem_cons_self
    have less : cmp fst snd = .lt :=
      (Ordering.isLE_iff_eq_lt_or_eq_eq.mp first).resolve_right differ
    rcases List.mem_cons.mp inside with rfl | later
    · exact less
    · exact TransCmp.lt_of_lt_of_isLE less ((List.pairwise_cons.mp sorted.2).1 b later)
  | case3 sl short =>
    cases sl with
    | nil => exact List.Pairwise.nil
    | cons a sl =>
      cases sl with
      | nil => exact List.pairwise_singleton _ _
      | cons b sl => exact absurd rfl (short a b sl)

end RendezMix.Source

/-!
# Priority queues

`lib/container/smartlist.c`: a binary heap in a smartlist, each item of which
stores its own position. `list` is the smartlist, and `idx` are the index fields
of all items, in the list or not. Failed assertions are `none`. The test for
positions too large to have children in any smartlist is left out.
-/
namespace RendezMix.Source.SmartlistPqueue

variable {α : Type} [Inhabited α]

structure Pqueue (α : Type) where
  list : List α
  idx : α → Int

def leftChild (i : Nat) : Nat := 2 * i + 1

def parentIdx (i : Nat) : Nat := (i - 1) / 2

def Pqueue.get (sl : Pqueue α) (i : Nat) : α := sl.list.getD i default

/-- `best_idx` of `smartlist_heapify`. -/
def bestIdx (compare : α → α → Int) (sl : Pqueue α) (idx : Nat) : Nat :=
  let leftIdx := leftChild idx
  let bestIdx := if compare (sl.get idx) (sl.get leftIdx) < 0 then idx else leftIdx
  if leftIdx + 1 < sl.list.length ∧ compare (sl.get (leftIdx + 1)) (sl.get bestIdx) < 0 then
    leftIdx + 1
  else bestIdx

theorem bestIdx_eq (compare : α → α → Int) (sl : Pqueue α) (idx : Nat) :
    bestIdx compare sl idx = idx ∨ leftChild idx ≤ bestIdx compare sl idx := by
  by_cases first : compare (sl.get idx) (sl.get (leftChild idx)) < 0
  · simp only [bestIdx, if_pos first]
    split
    · exact .inr (Nat.le_succ _)
    · exact .inl rfl
  · simp only [bestIdx, if_neg first]
    split
    · exact .inr (Nat.le_succ _)
    · exact .inr (Nat.le_refl _)

variable [DecidableEq α]

def Pqueue.updateIdx (sl : Pqueue α) (i : Nat) : Pqueue α :=
  { sl with idx := Function.update sl.idx (sl.get i) i }

/-- Exchange two items and update their positions. -/
def Pqueue.exchange (sl : Pqueue α) (i j : Nat) : Pqueue α :=
  let exchanged := { sl with list := (sl.list.set i (sl.get j)).set j (sl.get i) }
  (exchanged.updateIdx i).updateIdx j

@[simp] theorem exchange_length (sl : Pqueue α) (i j : Nat) :
    (sl.exchange i j).list.length = sl.list.length := by
  simp [Pqueue.exchange, Pqueue.updateIdx]

def smartlistHeapify (compare : α → α → Int) (sl : Pqueue α) (idx : Nat) : Pqueue α :=
  if leftChild idx ≥ sl.list.length then sl
  else if bestIdx compare sl idx = idx then sl
  else
    smartlistHeapify compare (sl.exchange idx (bestIdx compare sl idx)) (bestIdx compare sl idx)
termination_by sl.list.length - idx
decreasing_by
  have down := bestIdx_eq compare sl idx
  rw [exchange_length]
  simp only [leftChild] at *
  omega

/-- The loop of `smartlist_pqueue_add`. -/
def raise (compare : α → α → Int) (sl : Pqueue α) (idx : Nat) : Pqueue α :=
  if idx = 0 then sl
  else if compare (sl.get idx) (sl.get (parentIdx idx)) < 0 then
    raise compare (sl.exchange (parentIdx idx) idx) (parentIdx idx)
  else sl
termination_by idx
decreasing_by
  unfold parentIdx
  omega

def smartlistPqueueAdd (compare : α → α → Int) (sl : Pqueue α) (item : α) : Pqueue α :=
  let sl := { sl with list := sl.list ++ [item] }
  raise compare (sl.updateIdx (sl.list.length - 1)) (sl.list.length - 1)

def smartlistPqueuePop (compare : α → α → Int) (sl : Pqueue α) : Option (α × Pqueue α) :=
  if sl.list = [] then none
  else
    let top := sl.get 0
    let numUsed := sl.list.length - 1
    let sl := { sl with idx := Function.update sl.idx top (-1) }
    if numUsed = 0 then some (top, { sl with list := [] })
    else
      let sl := { sl with list := (sl.list.set 0 (sl.get numUsed)).take numUsed }
      some (top, smartlistHeapify compare (sl.updateIdx 0) 0)

def smartlistPqueueRemove (compare : α → α → Int) (sl : Pqueue α) (item : α) :
    Option (Pqueue α) :=
  let idx := (sl.idx item).toNat
  if sl.idx item < 0 ∨ sl.list[idx]? ≠ some item then none
  else
    let numUsed := sl.list.length - 1
    let sl := { sl with idx := Function.update sl.idx item (-1) }
    if idx = numUsed then some { sl with list := sl.list.take numUsed }
    else
      let sl := { sl with list := (sl.list.set idx (sl.get numUsed)).take numUsed }
      some (smartlistHeapify compare (sl.updateIdx idx) idx)

end RendezMix.Source.SmartlistPqueue
