import Mathlib.Data.List.Perm.Basic
import Mathlib.Data.List.Nodup

/-!
# Lists searched by a key

A hash table seen as a list, whose items are found, replaced and removed by
their key. What the operations do is stated up to the order of the items, which
a hash table does not promise either: the item found stands at the head, before
`remove key k l`, the items that are left when it is taken out.
-/
namespace RendezMix.Library.KeyedLists

variable {α κ : Type*} [DecidableEq κ] (key : α → κ)

def find (k : κ) (l : List α) : Option α := l.find? fun x => key x = k

/-- Put `x` in the place of the first item with its key. -/
def replace (x : α) : List α → List α
  | [] => []
  | y :: rest => if key y = key x then x :: rest else y :: replace x rest

def remove (k : κ) (l : List α) : List α := l.eraseP fun x => key x = k

/-- No two items have the same key. -/
def Distinct (l : List α) : Prop := (l.map key).Nodup

variable {key} {k : κ} {l : List α} {x : α}

theorem find_key (found : find key k l = some x) : key x = k := by
  have holds := List.find?_some found
  simpa using holds

theorem find_mem (found : find key k l = some x) : x ∈ l := List.mem_of_find?_eq_some found

theorem find_eq_none : find key k l = none ↔ ∀ x ∈ l, key x ≠ k := by
  simp [find]

theorem perm_remove (found : find key k l = some x) : l.Perm (x :: remove key k l) := by
  induction l with
  | nil => simp [find] at found
  | cons y rest ih =>
    by_cases here : key y = k
    · simp only [find, List.find?_cons, here, decide_true, Option.some.injEq] at found
      subst found
      simp [remove, here]
    · simp only [find, List.find?_cons, here, decide_false] at found
      have tail := ih found
      simp only [remove, List.eraseP_cons, here, decide_false]
      exact (tail.cons y).trans (List.Perm.swap x y _)

theorem replace_perm {x' : α} (found : find key (key x') l = some x) :
    (replace key x' l).Perm (x' :: remove key (key x') l) := by
  induction l with
  | nil => simp [find] at found
  | cons y rest ih =>
    by_cases here : key y = key x'
    · simp [replace, remove, here]
    · simp only [find, List.find?_cons, here, decide_false] at found
      have tail := ih found
      simp only [replace, if_neg here, remove, List.eraseP_cons, decide_eq_false here]
      exact (tail.cons y).trans (List.Perm.swap x' y _)

theorem replace_self (found : find key (key x) l = some x) : replace key x l = l := by
  induction l with
  | nil => rfl
  | cons y rest ih =>
    by_cases here : key y = key x
    · simp only [find, List.find?_cons, here, decide_true, Option.some.injEq] at found
      rw [replace, if_pos here, found]
    · simp only [find, List.find?_cons, here, decide_false] at found
      rw [replace, if_neg here, ih found]

omit [DecidableEq κ] in
theorem Distinct.perm {l' : List α} (distinct : Distinct key l) (perm : l.Perm l') :
    Distinct key l' :=
  (perm.map key).nodup_iff.mp distinct

theorem Distinct.find_of_mem (distinct : Distinct key l) (mem : x ∈ l) :
    find key (key x) l = some x := by
  induction l with
  | nil => simp at mem
  | cons y rest ih =>
    obtain ⟨fresh, tail⟩ := List.nodup_cons.mp distinct
    rcases List.mem_cons.mp mem with rfl | inRest
    · simp [find]
    · have other : key y ≠ key x := by
        intro same
        exact fresh (same ▸ List.mem_map_of_mem inRest)
      simp only [find, List.find?_cons, other, decide_false]
      exact ih tail inRest

theorem find_cons (k : κ) (x : α) (l : List α) :
    find key k (x :: l) = if k = key x then some x else find key k l := by
  by_cases same : k = key x
  · rw [if_pos same, find, List.find?_cons_of_pos (by simpa using same.symm)]
  · rw [if_neg same, find, List.find?_cons_of_neg (by simpa using fun equal => same equal.symm), find]

theorem Distinct.find_perm {l' : List α} (distinct : Distinct key l) (perm : l.Perm l') (k : κ) :
    find key k l = find key k l' := by
  cases found : find key k l with
  | none =>
    rw [find_eq_none] at found
    exact (find_eq_none.mpr fun x member => found x (perm.mem_iff.mpr member)).symm
  | some x =>
    have member := perm.mem_iff.mp (find_mem found)
    have again := (distinct.perm perm).find_of_mem member
    rw [find_key found] at again
    exact again.symm

theorem Distinct.absent_remove (distinct : Distinct key l) (k : κ) :
    ∀ y ∈ remove key k l, key y ≠ k := by
  intro y member same
  cases found : find key k l with
  | none => exact find_eq_none.mp found y (List.mem_of_mem_eraseP member) same
  | some x =>
    obtain ⟨fresh, _⟩ := List.nodup_cons.mp (distinct.perm (perm_remove found))
    have inside : key y ∈ (remove key k l).map key := List.mem_map_of_mem member
    rw [same, ← find_key found] at inside
    rw [find_key found] at inside fresh
    exact fresh inside

/-- An item is put in the place of the one with its key, if there is one. -/
theorem Distinct.cons_remove (distinct : Distinct key l) (x : α) :
    Distinct key (x :: remove key (key x) l) := by
  apply List.nodup_cons.mpr
  refine ⟨?_, distinct.sublist (List.eraseP_sublist.map _)⟩
  intro member
  obtain ⟨y, inside, same⟩ := List.mem_map.mp member
  exact distinct.absent_remove (key x) y inside same

theorem Distinct.find_remove (distinct : Distinct key l) (k k' : κ) :
    find key k' (remove key k l) = if k' = k then none else find key k' l := by
  by_cases same : k' = k
  · rw [if_pos same, find_eq_none, same]
    exact distinct.absent_remove k
  · rw [if_neg same]
    cases found : find key k l with
    | none =>
      rw [remove, List.eraseP_of_forall_not]
      intro y member here
      exact find_eq_none.mp found y member (of_decide_eq_true here)
    | some x =>
      rw [distinct.find_perm (perm_remove found), find_cons, find_key found, if_neg same]

/-! ## Lists with distinct keys, by place -/

variable {i : Nat} {x' : α}

theorem Distinct.find_eraseIdx (distinct : Distinct key l) (at_i : l[i]? = some x) (k : κ) :
    find key k (l.eraseIdx i) = if k = key x then none else find key k l := by
  obtain ⟨inside, rfl⟩ := List.getElem?_eq_some_iff.mp at_i
  have perm := (List.getElem_cons_eraseIdx_perm inside).symm
  rw [distinct.find_perm perm, find_cons]
  by_cases same : k = key l[i]
  · rw [if_pos same, find_eq_none]
    intro other member equal
    have fresh := (List.nodup_cons.mp (distinct.perm perm)).1
    exact fresh (by rw [← same, ← equal]; exact List.mem_map_of_mem member)
  · rw [if_neg same, if_neg same]

theorem Distinct.find_set (distinct : Distinct key l) (at_i : l[i]? = some x) (same : key x' = key x)
    (k : κ) : find key k (l.set i x') = if k = key x then some x' else find key k l := by
  have others := distinct.find_eraseIdx at_i k
  obtain ⟨inside, rfl⟩ := List.getElem?_eq_some_iff.mp at_i
  have perm := List.set_perm_cons_eraseIdx inside x'
  have before := distinct.perm (List.getElem_cons_eraseIdx_perm inside).symm
  have after : Distinct key (x' :: l.eraseIdx i) := by
    unfold Distinct at before ⊢
    rwa [List.map_cons, same]
  rw [(after.perm perm.symm).find_perm perm, find_cons, same, others]
  by_cases here : k = key l[i]
  · rw [if_pos here, if_pos here]
  · rw [if_neg here, if_neg here, if_neg here]

theorem Distinct.find_insertIdx (distinct : Distinct key l) (bound : i ≤ l.length)
    (absent : find key (key x) l = none) (k : κ) :
    find key k (l.insertIdx i x) = if k = key x then some x else find key k l := by
  have perm := List.perm_insertIdx x l bound
  have after : Distinct key (x :: l) := by
    apply List.nodup_cons.mpr
    refine ⟨?_, distinct⟩
    intro member
    obtain ⟨other, inside, same⟩ := List.mem_map.mp member
    exact find_eq_none.mp absent other inside same
  rw [(after.perm perm.symm).find_perm perm, find_cons]

end RendezMix.Library.KeyedLists

/-!
# Maps as lists of pairs

A hash map whose order is not known is a list of pairs in which no key occurs twice.
A table keeps under each key an array with one cell for each column; it is filled cell
by cell, and its content is known from its cells alone.
-/
namespace RendezMix.Library.KeyedMap

variable {κ ν : Type*} [DecidableEq κ]

def get (m : List (κ × ν)) (k : κ) : Option ν := (m.find? fun e => e.1 = k).map Prod.snd

def set (m : List (κ × ν)) (k : κ) (v : ν) : List (κ × ν) := m.filter (fun e => e.1 ≠ k) ++ [(k, v)]

def erase (m : List (κ × ν)) (k : κ) : List (κ × ν) := m.filter fun e => e.1 ≠ k

def keys (m : List (κ × ν)) : List κ := m.map Prod.fst

variable (m : List (κ × ν)) (k k' : κ) (v : ν)

theorem mem_set (e : κ × ν) :
    e ∈ set m k v ↔ (e ∈ m ∧ e.1 ≠ k) ∨ e = (k, v) := by
  simp [set]

theorem get_set :
    get (set m k v) k' = if k' = k then some v else get m k' := by
  unfold get set
  rw [List.find?_append, List.find?_filter]
  split
  next same =>
    subst same
    have none : (m.find? fun e => decide (decide (e.1 ≠ k') = true ∧ decide (e.1 = k') = true)) = none := by
      simp
    rw [none]
    simp
  next differ =>
    have skip : (m.find? fun e => decide (decide (e.1 ≠ k) = true ∧ decide (e.1 = k') = true))
        = m.find? fun e => e.1 = k' := by
      apply congrArg fun p => m.find? p
      funext e
      by_cases here : e.1 = k'
      · simp [here, differ]
      · simp [here]
    rw [skip]
    simp [Ne.symm differ]

theorem nodup_set {m : List (κ × ν)} (distinct : (keys m).Nodup) (k : κ) (v : ν) :
    (keys (set m k v)).Nodup := by
  unfold keys set at *
  rw [List.map_append, List.nodup_append]
  refine ⟨(List.Sublist.map Prod.fst List.filter_sublist).nodup distinct, by simp, ?_⟩
  intro a first b second
  obtain ⟨e, member, rfl⟩ := List.mem_map.mp first
  rw [List.map_cons, List.map_nil, List.mem_singleton] at second
  rw [second]
  simpa using (List.mem_filter.mp member).2

theorem get_erase :
    get (erase m k) k' = if k' = k then none else get m k' := by
  unfold get erase
  rw [List.find?_filter]
  split
  next same =>
    subst same
    simp
  next differ =>
    congr 1
    apply congrArg fun p => m.find? p
    funext e
    by_cases here : e.1 = k'
    · simp [here, differ]
    · simp [here]

theorem nodup_erase {m : List (κ × ν)} (distinct : (keys m).Nodup) (k : κ) :
    (keys (erase m k)).Nodup :=
  (List.filter_sublist.map Prod.fst).nodup distinct

theorem mem_of_get {m : List (κ × ν)} {k : κ} {v : ν} (found : get m k = some v) : (k, v) ∈ m := by
  unfold get at found
  rw [Option.map_eq_some_iff] at found
  obtain ⟨e, found, rfl⟩ := found
  have key := List.find?_some found
  rw [decide_eq_true_eq] at key
  rw [← key]
  exact List.mem_of_find?_eq_some found

theorem get_eq_some {m : List (κ × ν)} (distinct : (keys m).Nodup) (k : κ) (v : ν) :
    get m k = some v ↔ (k, v) ∈ m := by
  constructor
  · exact mem_of_get
  · intro member
    have some : (m.find? fun e => e.1 = k).isSome := by
      rw [List.find?_isSome]
      exact ⟨(k, v), member, by simp⟩
    obtain ⟨e, found⟩ := Option.isSome_iff_exists.mp some
    have key := List.find?_some found
    rw [decide_eq_true_eq] at key
    have same : e = (k, v) :=
      List.inj_on_of_nodup_map distinct (List.mem_of_find?_eq_some found) member key
    rw [get, found, same]
    rfl

/-- The pairs of a map whose values are a function of the keys that it has. -/
theorem mem_of_get_eq {m : List (κ × ν)} (distinct : (keys m).Nodup) {has : κ → Prop}
    [DecidablePred has] {f : κ → ν} (given : ∀ k, get m k = if has k then some (f k) else none)
    (k : κ) (v : ν) : (k, v) ∈ m ↔ has k ∧ v = f k := by
  rw [← get_eq_some distinct, given]
  split
  next present => simp [present, eq_comm]
  next absent => simp [absent]

/-! ## Tables with one cell for each column -/

/-- Put a value into an empty cell of an array of `n` cells. -/
def put (n : Nat) (m : List (κ × List (Option ν))) (k : κ) (i : Nat) (v : ν) :
    Option (List (κ × List (Option ν))) :=
  let array := (get m k).getD (List.replicate n none)
  match array[i]? with
  | some none => some (set m k (array.set i (some v)))
  | _ => none

def cell (m : List (κ × List (Option ν))) (k : κ) (i : Nat) : Option ν :=
  ((get m k).bind fun array => array[i]?).join

/-- The arrays of a table have `n` cells, which are not all empty. -/
structure Filled (n : Nat) (m : List (κ × List (Option ν))) : Prop where
  distinct : (keys m).Nodup
  length : ∀ k array, (k, array) ∈ m → array.length = n
  occupied : ∀ k array, (k, array) ∈ m → ∃ i : Nat, ∃ v, array[i]? = some (some v)

omit [DecidableEq κ] in
theorem filled_nil (n : Nat) : Filled n ([] : List (κ × List (Option ν))) where
  distinct := List.nodup_nil
  length _ _ member := by cases member
  occupied _ _ member := by cases member

/-- The array that a value is put into. -/
theorem array_cells {n : Nat} {m : List (κ × List (Option ν))} (filled : Filled n m) (k : κ)
    (i : Nat) :
    ((get m k).getD (List.replicate n none)).length = n
      ∧ (((get m k).getD (List.replicate n none))[i]?).join = cell m k i := by
  unfold cell
  cases found : get m k with
  | none =>
    rw [Option.getD_none]
    refine ⟨List.length_replicate, ?_⟩
    rw [List.getElem?_replicate]
    split <;> rfl
  | some array => exact ⟨filled.length k array (mem_of_get found), rfl⟩

theorem put_spec {n : Nat} {m : List (κ × List (Option ν))} (filled : Filled n m) (k : κ) {i : Nat}
    (v : ν) (inside : i < n) (empty : cell m k i = none) :
    ∃ m', put n m k i v = some m' ∧ Filled n m'
      ∧ ∀ k' i', cell m' k' i' = if k' = k ∧ i' = i then some v else cell m k' i' := by
  have cells := array_cells filled k
  unfold put
  generalize (get m k).getD (List.replicate n none) = array at cells
  have length : array.length = n := (cells 0).1
  have free : array[i]? = some none := by
    have here := (cells i).2
    rw [empty] at here
    rw [List.getElem?_eq_getElem (by omega)] at here ⊢
    exact congrArg some here
  have after : ∀ i', ((array.set i (some v))[i']?).join
      = if i' = i then some v else (array[i']?).join := by
    intro i'
    rw [List.getElem?_set]
    by_cases same : i = i'
    · rw [if_pos same, if_pos (by omega), if_pos same.symm]
      rfl
    · rw [if_neg same, if_neg (Ne.symm same)]
  refine ⟨set m k (array.set i (some v)), by simp only [free], ⟨nodup_set filled.distinct k _, ?_, ?_⟩,
    ?_⟩
  · intro k' array' member
    rw [mem_set] at member
    cases member with
    | inl old => exact filled.length k' array' old.1
    | inr new =>
      cases new
      rw [List.length_set, length]
  · intro k' array' member
    rw [mem_set] at member
    cases member with
    | inl old => exact filled.occupied k' array' old.1
    | inr new =>
      cases new
      exact ⟨i, v, by rw [List.getElem?_set_self (by omega)]⟩
  · intro k' i'
    rw [cell, get_set]
    by_cases same : k' = k
    · rw [if_pos same, Option.bind_some, after, (cells i').2, same]
      simp
    · rw [if_neg same, if_neg fun both => same both.1]
      rfl

/-- What a table holds when every cell is given by its key and what its column stands for. -/
theorem get_of_cells {α : Type*} {columns : List α} {m : List (κ × List (Option ν))}
    (filled : Filled columns.length m) (f : κ → α → Option ν)
    (cells : ∀ k i, cell m k i = columns[i]?.bind (f k)) (k : κ) :
    get m k = if ∃ a ∈ columns, (f k a).isSome then some (columns.map (f k)) else none := by
  have here := cells k
  unfold cell at here
  cases found : get m k with
  | none =>
    rw [if_neg]
    rintro ⟨a, member, listed⟩
    obtain ⟨i, at_i⟩ := List.mem_iff_getElem?.mp member
    have empty := here i
    rw [found, at_i, Option.bind_some] at empty
    rw [← empty] at listed
    cases listed
  | some array =>
    have length := filled.length k array (mem_of_get found)
    have whole : array = columns.map (f k) := by
      apply List.ext_getElem?
      intro i
      have at_i := here i
      rw [found, Option.bind_some] at at_i
      rw [List.getElem?_map]
      by_cases inside : i < columns.length
      · rw [List.getElem?_eq_getElem (by omega), List.getElem?_eq_getElem inside] at at_i ⊢
        exact congrArg some at_i
      · rw [List.getElem?_eq_none (by omega), List.getElem?_eq_none (by omega)]
        rfl
    obtain ⟨i, v, occupied⟩ := filled.occupied k array (mem_of_get found)
    rw [if_pos, whole]
    have at_i := here i
    rw [found, Option.bind_some, occupied] at at_i
    obtain ⟨a, member, listed⟩ := Option.bind_eq_some_iff.mp at_i.symm
    exact ⟨a, List.mem_of_getElem? member, by rw [listed]; rfl⟩

end RendezMix.Library.KeyedMap
