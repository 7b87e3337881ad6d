import RendezMix.Library.Sorting

/-!
# Long runs

The elements of a list that stand in it more than a number of times in a row. In a sorted list
the elements that a comparison does not tell apart stand together: if they are all the same, their
run shows how many there are, and if they are not, they can stand so that no run of them is long.
-/
namespace RendezMix.Library.LongRuns
open Sorting
open Std (TransCmp OrientedCmp ReflCmp)

variable {α : Type*} [DecidableEq α] (min : Nat)

/-- The elements with long runs, from a run of `count` elements on. -/
def longRunsFrom (cur : α) : Nat → List α → List α
  | count, [] => if min < count then [cur] else []
  | count, a :: l =>
    if a = cur then longRunsFrom cur (count + 1) l
    else (if min < count then [cur] else []) ++ longRunsFrom a 1 l

def longRuns : List α → List α
  | [] => []
  | a :: l => longRunsFrom min a 1 l

theorem longRunsFrom_sublist (cur : α) (count : Nat) (l : List α) :
    (longRunsFrom min cur count l).Sublist (cur :: l) := by
  induction l generalizing cur count with
  | nil =>
    rw [longRunsFrom]
    split
    · exact List.Sublist.refl _
    · exact List.nil_sublist _
  | cons a l ih =>
    rw [longRunsFrom]
    by_cases same : a = cur
    · rw [if_pos same]
      exact (ih cur (count + 1)).trans ((List.sublist_cons_self a l).cons_cons cur)
    · rw [if_neg same]
      split
      · exact (ih a 1).cons_cons cur
      · exact (ih a 1).cons cur

/-- The elements with long runs are in the order of the list. -/
theorem longRuns_sublist (l : List α) : (longRuns min l).Sublist l := by
  cases l with
  | nil => exact List.Sublist.refl []
  | cons a l => exact longRunsFrom_sublist min a 1 l

theorem longRun_count (cur : α) (count : Nat) (x : α) :
    (if min < count then [cur] else []).count x * (min + 1) ≤ if x = cur then count else 0 := by
  by_cases long : min < count
  · rw [if_pos long]
    by_cases here : x = cur
    · rw [if_pos here, here, List.count_singleton_self]
      omega
    · rw [if_neg here, List.count_singleton, if_neg (by simpa using Ne.symm here)]
      omega
  · rw [if_neg long, List.count_nil]
    omega

theorem longRunsFrom_count (cur : α) (count : Nat) (l : List α) (x : α) :
    (longRunsFrom min cur count l).count x * (min + 1) ≤
      l.count x + if x = cur then count else 0 := by
  induction l generalizing cur count with
  | nil =>
    rw [longRunsFrom, List.count_nil, Nat.zero_add]
    exact longRun_count min cur count x
  | cons a l ih =>
    rw [longRunsFrom]
    by_cases same : a = cur
    · have later := ih cur (count + 1)
      rw [if_pos same, List.count_cons, same]
      by_cases here : x = cur
      · rw [if_pos here] at later ⊢
        rw [if_pos (show (cur == x) = true by simpa using here.symm)]
        omega
      · rw [if_neg here] at later ⊢
        omega
    · have later := ih a 1
      rw [if_neg same, List.count_append, List.count_cons, Nat.add_mul]
      have first := longRun_count min cur count x
      by_cases here : x = a
      · rw [if_pos here] at later
        rw [if_pos (show (a == x) = true by simpa using here.symm)]
        omega
      · rw [if_neg here] at later
        omega

/-- A long run takes that many of the elements. -/
theorem longRuns_count (l : List α) (x : α) : (longRuns min l).count x * (min + 1) ≤ l.count x := by
  cases l with
  | nil => simp [longRuns]
  | cons a l =>
    have from_ := longRunsFrom_count min a 1 l x
    rw [longRuns, List.count_cons]
    by_cases here : x = a
    · rw [if_pos here] at from_
      rw [if_pos (show (a == x) = true by simpa using here.symm)]
      exact from_
    · rw [if_neg here] at from_
      omega

theorem lt_count_of_mem_longRuns {l : List α} {x : α} (member : x ∈ longRuns min l) :
    min < l.count x := by
  have bound := longRuns_count min l x
  have once := List.count_pos_iff.mpr member
  have step := Nat.mul_le_mul_right (min + 1) once
  omega

theorem longRunsFrom_append (cur : α) (count : Nat) (l l' : List α)
    (apart : ∀ b ∈ l'.head?, l.getLastD cur ≠ b) :
    longRunsFrom min cur count (l ++ l') =
      longRunsFrom min cur count l ++ longRuns min l' := by
  induction l generalizing cur count with
  | nil =>
    cases l' with
    | nil => rw [longRuns, List.append_nil, List.append_nil]
    | cons b l' =>
      have differ : b ≠ cur := Ne.symm (apart b rfl)
      rw [List.nil_append, longRuns]
      change (if b = cur then _ else _) = _
      rw [if_neg differ, longRunsFrom]
  | cons a l ih =>
    rw [List.cons_append, longRunsFrom, longRunsFrom]
    by_cases same : a = cur
    · rw [if_pos same, if_pos same]
      apply ih
      rw [← same, ← List.getLastD_cons]
      exact apart
    · rw [if_neg same, if_neg same, List.append_assoc]
      congr 1
      apply ih
      rw [← List.getLastD_cons]
      exact apart

/-- Where a list ends with another element than the next one starts with, no run crosses. -/
theorem longRuns_append (l l' : List α) (apart : ∀ a ∈ l.getLast?, ∀ b ∈ l'.head?, a ≠ b) :
    longRuns min (l ++ l') = longRuns min l ++ longRuns min l' := by
  cases l with
  | nil => rfl
  | cons a l =>
    rw [List.cons_append, longRuns, longRuns]
    apply longRunsFrom_append
    intro b first
    exact apart _ (by rw [List.getLast?_cons, List.getLastD_eq_getLast?]; rfl) b first

theorem longRunsFrom_replicate (cur : α) (count k : Nat) :
    longRunsFrom min cur count (List.replicate k cur) =
      if min < count + k then [cur] else [] := by
  induction k generalizing count with
  | zero => rfl
  | succ k ih =>
    rw [List.replicate_succ, longRunsFrom, if_pos rfl, ih,
      show count + 1 + k = count + (k + 1) by omega]

theorem longRuns_replicate (k : Nat) (x : α) :
    longRuns min (List.replicate k x) = if min < k then [x] else [] := by
  cases k with
  | zero => rfl
  | succ k =>
    rw [List.replicate_succ, longRuns, longRunsFrom_replicate, Nat.add_comm]

/-! ## Sorted lists -/

variable {min} {cmp : α → α → Ordering} [TransCmp cmp]

/-- The elements that compare equal to one. -/
def equals (cmp : α → α → Ordering) (c : α) (l : List α) : List α :=
  l.filter fun a => cmp a c = .eq

omit [DecidableEq α] in
/-- In a sorted list they stand between those that are less and those that are greater. -/
theorem sorted_split (c : α) {l : List α} (sorted : l.Pairwise fun a b => (cmp a b).isLE = true) :
    l = l.filter (fun a => cmp a c = .lt) ++ (equals cmp c l
      ++ l.filter fun a => cmp a c = .gt) := by
  unfold equals
  induction l with
  | nil => rfl
  | cons a l ih =>
    rw [List.pairwise_cons] at sorted
    have rest := ih sorted.2
    cases order : cmp a c with
    | lt =>
      rw [List.filter_cons_of_pos (by simpa using order), List.filter_cons_of_neg (by simp [order]),
        List.filter_cons_of_neg (by simp [order]), List.cons_append, ← rest]
    | eq =>
      have none_ : l.filter (fun a => cmp a c = .lt) = [] := by
        rw [List.filter_eq_nil_iff]
        intro b member less
        have le := sorted.1 b member
        rw [decide_eq_true_eq] at less
        rw [TransCmp.congr_left order, OrientedCmp.gt_of_lt less] at le
        cases le
      rw [List.filter_cons_of_neg (by simp [order]), List.filter_cons_of_pos (by simpa using order),
        List.filter_cons_of_neg (by simp [order]), none_, List.nil_append, List.cons_append]
      rw [none_, List.nil_append] at rest
      rw [← rest]
    | gt =>
      have greater : ∀ b ∈ l, cmp b c = .gt := by
        intro b member
        exact TransCmp.gt_of_isGE_of_gt (OrientedCmp.isGE_of_isLE (sorted.1 b member)) order
      have none_ : l.filter (fun a => cmp a c = .lt) = [] := by
        rw [List.filter_eq_nil_iff]
        intro b member
        simp [greater b member]
      have noEqual : l.filter (fun a => cmp a c = .eq) = [] := by
        rw [List.filter_eq_nil_iff]
        intro b member
        simp [greater b member]
      have all : l.filter (fun a => cmp a c = .gt) = l := by
        rw [List.filter_eq_self]
        intro b member
        simp [greater b member]
      rw [List.filter_cons_of_neg (by simp [order]), List.filter_cons_of_neg (by simp [order]),
        List.filter_cons_of_pos (by simpa using order), none_, noEqual, all]
      rfl

omit [TransCmp cmp] in
/-- No run crosses the ends of a block of equal elements. -/
theorem longRuns_block (c : α) {lo block hi : List α} (less : ∀ a ∈ lo, cmp a c = .lt)
    (equal : ∀ a ∈ block, cmp a c = .eq) (greater : ∀ a ∈ hi, cmp a c = .gt) :
    longRuns min (lo ++ (block ++ hi)) =
      longRuns min lo ++ (longRuns min block ++ longRuns min hi) := by
  rw [longRuns_append, longRuns_append]
  · intro a last b first same
    have left := equal a (List.mem_of_getLast? last)
    rw [same, greater b (List.mem_of_mem_head? first)] at left
    cases left
  · intro a last b first same
    have left := less a (List.mem_of_getLast? last)
    have member := List.mem_of_mem_head? first
    rw [List.mem_append] at member
    rw [same] at left
    cases member with
    | inl inside => cases (equal b inside).symm.trans left
    | inr inside => cases (greater b inside).symm.trans left

omit [TransCmp cmp] in
theorem mem_longRuns_block {c x : α} {lo block hi : List α} (less : ∀ a ∈ lo, cmp a c = .lt)
    (equal : ∀ a ∈ block, cmp a c = .eq) (greater : ∀ a ∈ hi, cmp a c = .gt)
    (same : cmp x c = .eq) : x ∈ longRuns min (lo ++ (block ++ hi)) ↔ x ∈ longRuns min block := by
  rw [longRuns_block c less equal greater, List.mem_append, List.mem_append]
  constructor
  · rintro (inside | inside | inside)
    · have order := less x ((longRuns_sublist min lo).subset inside)
      rw [same] at order
      cases order
    · exact inside
    · have order := greater x ((longRuns_sublist min hi).subset inside)
      rw [same] at order
      cases order
  · exact fun inside => Or.inr (Or.inl inside)

omit [DecidableEq α] [TransCmp cmp] in
theorem equals_all {c : α} {l : List α} : ∀ a ∈ equals cmp c l, cmp a c = .eq := by
  intro a member
  simpa using (List.mem_filter.mp member).2

/-- Where the elements equal to one are all the same, their run is as long as there are. -/
theorem mem_longRuns_of_uniform {x : α} {l : List α}
    (sorted : l.Pairwise fun a b => (cmp a b).isLE = true)
    (uniform : ∀ a ∈ l, cmp a x = .eq → a = x) :
    x ∈ longRuns min l ↔ min < (equals cmp x l).length := by
  have self : cmp x x = .eq := ReflCmp.compare_self
  have block : equals cmp x l = List.replicate (equals cmp x l).length x := by
    rw [List.eq_replicate_iff]
    refine ⟨rfl, ?_⟩
    intro a member
    exact uniform a (List.mem_of_mem_filter member) (equals_all a member)
  have less : ∀ a ∈ l.filter (fun a => cmp a x = .lt), cmp a x = .lt := by
    intro a member
    simpa using (List.mem_filter.mp member).2
  have greater : ∀ a ∈ l.filter (fun a => cmp a x = .gt), cmp a x = .gt := by
    intro a member
    simpa using (List.mem_filter.mp member).2
  have inside : x ∈ longRuns min (l.filter (fun a => cmp a x = .lt) ++
      (equals cmp x l ++ l.filter fun a => cmp a x = .gt)) ↔ x ∈ longRuns min (equals cmp x l) :=
    mem_longRuns_block less equals_all greater self
  rw [← sorted_split x sorted] at inside
  rw [inside, block, longRuns_replicate, List.length_replicate]
  split
  · next long => exact ⟨fun _ => long, fun _ => List.mem_singleton_self x⟩
  · next short =>
    exact ⟨fun none_ => (List.not_mem_nil none_).elim, fun long => absurd long short⟩

/-- Two or more different elements that are equal, but not too many, can stand without a long
run. -/
theorem exists_block {l : List α} {s t : α} (first : s ∈ l) (second : t ∈ l) (differ : s ≠ t)
    (few : l.length ≤ 2 * min + 1) : ∃ l', l'.Perm l ∧ longRuns min l' = [] := by
  have short (l' : List α) (bound : ∀ x, l'.count x ≤ min) : longRuns min l' = [] := by
    rw [List.eq_nil_iff_forall_not_mem]
    intro x member
    exact absurd (lt_count_of_mem_longRuns min member) (not_lt.mpr (bound x))
  by_cases all : ∀ x, l.count x ≤ min
  · exact ⟨l, List.Perm.refl l, short l all⟩
  · obtain ⟨x, many⟩ := not_forall.mp all
    rw [not_le] at many
    -- Its copies go to both ends of the others.
    have copies : (l.filter (· = x)).length = l.count x := by
      rw [← List.countP_eq_length_filter, List.count]
      rfl
    have counts := (List.filter_append_perm (· = x) l).length_eq
    rw [List.length_append, copies] at counts
    have absent : x ∉ l.filter fun a => !decide (a = x) := by
      intro member
      simpa using (List.mem_filter.mp member).2
    have others : 0 < (l.filter fun a => !decide (a = x)).length := by
      by_cases here : s = x
      · apply List.length_pos_of_mem (a := t)
        rw [List.mem_filter]
        exact ⟨second, by simpa [← here] using differ.symm⟩
      · apply List.length_pos_of_mem (a := s)
        rw [List.mem_filter]
        exact ⟨first, by simpa using here⟩
    refine ⟨List.replicate ((l.count x + 1) / 2) x ++
      ((l.filter fun a => !decide (a = x)) ++ List.replicate (l.count x / 2) x), ?_, ?_⟩
    · rw [List.perm_iff_count]
      intro a
      rw [List.count_append, List.count_append]
      by_cases here : a = x
      · rw [here, List.count_replicate_self, List.count_replicate_self,
          List.count_eq_zero_of_not_mem absent]
        omega
      · rw [List.count_filter (by simpa using here), List.count_replicate, List.count_replicate,
          if_neg (by simpa using Ne.symm here), if_neg (by simpa using Ne.symm here)]
        omega
    · have middle : longRuns min (l.filter fun a => !decide (a = x)) = [] := by
        apply short
        intro a
        have bound := List.count_le_length (a := a) (l := l.filter fun a => !decide (a = x))
        omega
      have apart : ∀ a ∈ l.filter (fun a => !decide (a = x)), a ≠ x := by
        intro a member same
        exact absent (same ▸ member)
      rw [longRuns_append, longRuns_append, longRuns_replicate, longRuns_replicate, middle,
        if_neg (by omega), if_neg (by omega)]
      · rfl
      · intro a last b first_ same
        have copy := List.eq_of_mem_replicate (List.mem_of_mem_head? first_)
        exact apart a (List.mem_of_getLast? last) (same.trans copy)
      · intro a last b first_ same
        have copy := List.eq_of_mem_replicate (List.mem_of_getLast? last)
        rw [List.head?_append_of_ne_nil _ (List.ne_nil_of_length_pos others)] at first_
        exact apart b (List.mem_of_mem_head? first_) (same.symm.trans copy)

/-- Elements that compare equal, of which two are not the same, can stand in a sorted list so that
none of them has a long run. -/
theorem exists_broken (sorter : Sorter cmp) {l : List α} {s t : α} (first : s ∈ l) (second : t ∈ l)
    (differ : s ≠ t) (equal : cmp s t = .eq) (few : (equals cmp t l).length ≤ 2 * min + 1) :
    ∃ l', l'.Perm l ∧ (l'.Pairwise fun a b => (cmp a b).isLE = true)
      ∧ ∀ x, cmp x t = .eq → x ∉ longRuns min l' := by
  have self : cmp t t = .eq := ReflCmp.compare_self
  have sInside : s ∈ equals cmp t l := List.mem_filter.mpr ⟨first, by simpa using equal⟩
  have tInside : t ∈ equals cmp t l := List.mem_filter.mpr ⟨second, by simpa using self⟩
  obtain ⟨block, perm, none_⟩ := exists_block sInside tInside differ few
  have sorted := sorter.ordered l
  have blockEqual : ∀ a ∈ block, cmp a t = .eq :=
    fun a member => equals_all a (perm.mem_iff.mp member)
  have less : ∀ a ∈ (sorter.sort l).filter (fun a => cmp a t = .lt), cmp a t = .lt := by
    intro a member
    simpa using (List.mem_filter.mp member).2
  have greater : ∀ a ∈ (sorter.sort l).filter (fun a => cmp a t = .gt), cmp a t = .gt := by
    intro a member
    simpa using (List.mem_filter.mp member).2
  refine ⟨(sorter.sort l).filter (fun a => cmp a t = .lt) ++
    (block ++ (sorter.sort l).filter fun a => cmp a t = .gt), ?_, ?_, ?_⟩
  · have same : (equals cmp t l).Perm (equals cmp t (sorter.sort l)) :=
      ((sorter.perm l).filter _).symm
    have whole := ((perm.trans same).append_right
      ((sorter.sort l).filter fun a => cmp a t = .gt)).append_left
      ((sorter.sort l).filter fun a => cmp a t = .lt)
    rw [← sorted_split t sorted] at whole
    exact whole.trans (sorter.perm l)
  · rw [List.pairwise_append, List.pairwise_append]
    refine ⟨sorted.filter _, ⟨?_, sorted.filter _, ?_⟩, ?_⟩
    · apply List.pairwise_of_forall_mem_list
      intro a here b there
      rw [TransCmp.congr_left (blockEqual a here), OrientedCmp.eq_symm (blockEqual b there)]
      rfl
    · intro a here b there
      rw [TransCmp.congr_left (blockEqual a here), OrientedCmp.lt_of_gt (greater b there)]
      rfl
    · intro a here b there
      rw [List.mem_append] at there
      cases there with
      | inl inside =>
        rw [TransCmp.congr_right (blockEqual b inside), less a here]
        rfl
      | inr inside =>
        have step := TransCmp.lt_trans (less a here) (OrientedCmp.lt_of_gt (greater b inside))
        rw [step]
        rfl
  · intro x same
    rw [mem_longRuns_block less blockEqual greater same, none_]
    exact List.not_mem_nil

/-! ## Ballots -/

/-- What is picked of each ballot, one after the other. -/
def gather (pick : Nat → List α → List α) : Nat → List (List α) → List α
  | _, [] => []
  | k, ballot :: ballots => pick k ballot ++ gather pick (k + 1) ballots

/-- One of each kind of equal elements of a ballot, in order. -/
structure Picks (cmp : α → α → Ordering) (ballot picked : List α) : Prop where
  inside : ∀ a ∈ picked, a ∈ ballot
  covers : ∀ a ∈ ballot, ∃ b ∈ picked, cmp a b = .eq
  increasing : picked.Pairwise fun a b => cmp a b = .lt

/-- The ballots that list an element, and those that list one that is equal to it. -/
def listing (ballots : List (List α)) (x : α) : Nat := ballots.countP fun ballot => x ∈ ballot

def listingEqual (cmp : α → α → Ordering) (ballots : List (List α)) (x : α) : Nat :=
  ballots.countP fun ballot => ballot.any fun a => cmp a x = .eq

omit [DecidableEq α] [TransCmp cmp] in
theorem mem_gather {pick : Nat → List α → List α} {k : Nat} {ballots : List (List α)} {x : α} :
    x ∈ gather pick k ballots ↔
      ∃ i ballot, ballots[i]? = some ballot ∧ x ∈ pick (k + i) ballot := by
  induction ballots generalizing k with
  | nil => simp [gather]
  | cons ballot ballots ih =>
    rw [gather, List.mem_append, ih]
    constructor
    · rintro (here | ⟨i, other, found, member⟩)
      · exact ⟨0, ballot, rfl, here⟩
      · refine ⟨i + 1, other, found, ?_⟩
        rw [← Nat.add_assoc, Nat.add_right_comm]
        exact member
    · rintro ⟨i, other, found, member⟩
      cases i with
      | zero =>
        cases found
        exact Or.inl member
      | succ i =>
        refine Or.inr ⟨i, other, found, ?_⟩
        rw [Nat.add_right_comm, Nat.add_assoc]
        exact member

omit [DecidableEq α] in
/-- A ballot gives one element of a kind that it lists. -/
theorem Picks.equals_length {ballot picked : List α} (picks : Picks cmp ballot picked) (c : α) :
    (equals cmp c picked).length = if ballot.any (fun a => cmp a c = .eq) then 1 else 0 := by
  by_cases listed : ballot.any (fun a => cmp a c = .eq) = true
  · rw [if_pos listed]
    obtain ⟨a, member, equal⟩ := List.any_eq_true.mp listed
    rw [decide_eq_true_eq] at equal
    obtain ⟨b, kept, same⟩ := picks.covers a member
    have inside : b ∈ equals cmp c picked := by
      apply List.mem_filter.mpr
      refine ⟨kept, ?_⟩
      rw [decide_eq_true_eq, ← TransCmp.congr_left same]
      exact equal
    have apart : (equals cmp c picked).Pairwise fun a b => cmp a b = .lt :=
      picks.increasing.filter _
    have all : ∀ a ∈ equals cmp c picked, cmp a c = .eq := equals_all
    cases result : equals cmp c picked with
    | nil => rw [result] at inside; cases inside
    | cons x rest =>
      cases rest with
      | nil => rfl
      | cons y rest =>
        rw [result] at apart all
        have less := (List.pairwise_cons.mp apart).1 y List.mem_cons_self
        rw [TransCmp.congr_left (all x List.mem_cons_self),
          OrientedCmp.eq_symm (all y (List.mem_cons_of_mem _ List.mem_cons_self))] at less
        cases less
  · rw [if_neg listed, List.length_eq_zero_iff, equals, List.filter_eq_nil_iff]
    intro a member equal
    exact listed (List.any_eq_true.mpr ⟨a, picks.inside a member, equal⟩)

omit [DecidableEq α] in
theorem Picks.eq_of_equal {ballot picked : List α} (picks : Picks cmp ballot picked) {a b : α}
    (first : a ∈ picked) (second : b ∈ picked) (equal : cmp a b = .eq) : a = b := by
  have self : cmp b b = .eq := ReflCmp.compare_self
  have aInside : a ∈ equals cmp b picked := List.mem_filter.mpr ⟨first, by simpa using equal⟩
  have bInside : b ∈ equals cmp b picked := List.mem_filter.mpr ⟨second, by simpa using self⟩
  have length := picks.equals_length b
  have listed : ballot.any (fun a => cmp a b = .eq) = true :=
    List.any_eq_true.mpr ⟨b, picks.inside b second, by simpa using self⟩
  rw [if_pos listed] at length
  obtain ⟨c, single⟩ := List.length_eq_one_iff.mp length
  rw [single, List.mem_singleton] at aInside bInside
  rw [aInside, bInside]

omit [DecidableEq α] in
theorem gather_equals {pick : Nat → List α → List α} {k : Nat} {ballots : List (List α)}
    (picks : ∀ k, ∀ ballot ∈ ballots, Picks cmp ballot (pick k ballot)) (c : α) :
    (equals cmp c (gather pick k ballots)).length = listingEqual cmp ballots c := by
  unfold listingEqual
  induction ballots generalizing k with
  | nil => rfl
  | cons ballot ballots ih =>
    have here := (picks k ballot List.mem_cons_self).equals_length c
    have later := ih (k := k + 1) fun k other member =>
      picks k other (List.mem_cons_of_mem _ member)
    unfold equals at here later ⊢
    rw [gather, List.filter_append, List.length_append, here, later, List.countP_cons, Nat.add_comm]

theorem Picks.count_le {ballot picked : List α} (picks : Picks cmp ballot picked) (x : α) :
    picked.count x ≤ if x ∈ ballot then 1 else 0 := by
  by_cases listed : x ∈ ballot
  · rw [if_pos listed]
    have distinct : picked.Nodup := by
      apply picks.increasing.imp
      intro a b less same
      have self : cmp b b = .eq := ReflCmp.compare_self
      rw [same, self] at less
      cases less
    exact List.nodup_iff_count_le_one.mp distinct x
  · rw [if_neg listed, List.count_eq_zero_of_not_mem fun member => listed (picks.inside x member)]

/-- No more of an element is gathered than ballots list it. -/
theorem gather_count_le {pick : Nat → List α → List α} {k : Nat} {ballots : List (List α)}
    (picks : ∀ k, ∀ ballot ∈ ballots, Picks cmp ballot (pick k ballot)) (x : α) :
    (gather pick k ballots).count x ≤ listing ballots x := by
  unfold listing
  induction ballots generalizing k with
  | nil => exact Nat.le_refl 0
  | cons ballot ballots ih =>
    have here := (picks k ballot List.mem_cons_self).count_le x
    have later := ih (k := k + 1) fun k other member =>
      picks k other (List.mem_cons_of_mem _ member)
    rw [gather, List.count_append, List.countP_cons]
    by_cases listed : x ∈ ballot
    · rw [if_pos listed] at here
      rw [if_pos (by simpa using listed)]
      omega
    · rw [if_neg listed] at here
      omega

/-- Where no ballot lists another element that is equal, those list it that list one that is. -/
theorem listingEqual_of_uniform {ballots : List (List α)} {x : α}
    (uniform : ∀ ballot ∈ ballots, ∀ a ∈ ballot, cmp a x = .eq → a = x) :
    listingEqual cmp ballots x = listing ballots x := by
  have self : cmp x x = .eq := ReflCmp.compare_self
  apply List.countP_congr
  intro ballot member
  rw [List.any_eq_true, decide_eq_true_eq]
  constructor
  · intro ⟨a, inside, equal⟩
    rw [decide_eq_true_eq] at equal
    rw [← uniform ballot member a inside equal]
    exact inside
  · intro inside
    exact ⟨x, inside, by rw [decide_eq_true_eq]; exact self⟩

end RendezMix.Library.LongRuns
