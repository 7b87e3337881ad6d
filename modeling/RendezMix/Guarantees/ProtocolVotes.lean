import RendezMix.Guarantees.ProtocolLists

/-!
# The vote on protocol versions

`protover_compute_vote` looks at the first entry for a protocol in each vote. What it
lists is what enough votes list there, sorted by the names, whatever the order of the
votes; versions in a further entry of a vote for the same protocol are not counted.
-/
namespace RendezMix.Guarantees.ProtocolVotes
open Source Library.Sorting ProtocolRanges ProtocolLists

/-! ## Masks and counters -/

variable (parsed : List (List ProtoEntry)) {v : Nat} (votes : List CString) (mask : BitVec 64)
  {vote : List ProtoEntry} (threshold : Int) (name : CString) (i : Nat)

theorem bit_versions (n : Nat) : versions (bit i) n ↔ n < 64 ∧ n = i := by
  rw [versions, bit, BitVec.getLsbD_shiftLeft, BitVec.getLsbD_one]
  simp only [Bool.and_eq_true, Bool.not_eq_true', decide_eq_true_eq, decide_eq_false_iff_not]
  omega

theorem eq_zero_of_versions (none : ∀ n, ¬ versions mask n) : mask = 0 := by
  apply BitVec.eq_of_getLsbD_eq
  intro n _
  rw [Bool.eq_false_iff.mpr (none n)]
  simp

theorem not_versions_zero (n : Nat) : ¬ versions 0 n := by
  rw [versions]
  simp

theorem ne_zero_iff_versions : mask ≠ 0 ↔ ∃ n, versions mask n := by
  constructor
  · intro some
    by_contra none
    exact some (eq_zero_of_versions mask (not_exists.mp none))
  · rintro ⟨n, set⟩ rfl
    exact not_versions_zero n set

theorem versions_and (a b : BitVec 64) (n : Nat) :
    versions (a &&& b) n ↔ versions a n ∧ versions b n := by
  rw [versions, BitVec.getLsbD_and, Bool.and_eq_true]
  exact Iff.rfl

theorem versions_lt {mask : BitVec 64} {n : Nat} (set : versions mask n) : n < 64 :=
  BitVec.lt_of_getLsbD set

theorem and_bit_ne_zero : mask &&& bit i ≠ 0 ↔ versions mask i := by
  rw [ne_zero_iff_versions]
  simp only [versions_and, bit_versions]
  constructor
  · rintro ⟨n, set, -, rfl⟩
    exact set
  · intro set
    exact ⟨i, set, versions_lt set, rfl⟩

/-- The parsed vote lists the version in its first entry for the protocol. -/
def firstLists (name : CString) (v : Nat) (vote : List ProtoEntry) : Bool :=
  match findEntryByName vote name with
  | none => false
  | some ent => ent.bitmask.getLsbD v

/-- The parsed vote lists the version of the protocol. -/
def anyLists (name : CString) (v : Nat) (vote : List ProtoEntry) : Bool :=
  vote.any fun ent => decide (ent.name = name) && ent.bitmask.getLsbD v

theorem countVersion_eq :
    countVersion parsed name i
      = parsed.foldl (fun counts vote => if firstLists name i vote then counts + 1 else counts) 0 := by
  unfold countVersion
  congr 1
  funext counts vote
  unfold firstLists
  cases findEntryByName vote name with
  | none => rfl
  | some ent =>
    dsimp only
    have listed := and_bit_ne_zero ent.bitmask i
    by_cases set : versions ent.bitmask i
    · rw [if_pos (listed.mpr set), if_pos (show ent.bitmask.getLsbD i = true from set)]
    · rw [if_neg (mt listed.mp set), if_neg (show ¬ ent.bitmask.getLsbD i = true from set)]

theorem foldl_count_toNat {α : Type} (p : α → Bool) (l : List α) (counts : UInt8)
    (room : counts.toNat + l.length < 256) :
    (l.foldl (fun counts a => if p a then counts + 1 else counts) counts).toNat
      = counts.toNat + l.countP p := by
  induction l generalizing counts with
  | nil => rfl
  | cons a l ih =>
    rw [List.length_cons] at room
    rw [List.foldl_cons, List.countP_cons]
    split
    next =>
      have next : (counts + 1).toNat = counts.toNat + 1 := by
        rw [UInt8.toNat_add]
        exact Nat.mod_eq_of_lt (by rw [UInt8.toNat_one]; omega)
      rw [ih _ (by omega), next]
      omega
    next =>
      rw [ih _ (by omega)]
      rfl

theorem countVersion_toNat (few : parsed.length < 256) :
    (countVersion parsed name i).toNat = parsed.countP (firstLists name i) := by
  rw [countVersion_eq, foldl_count_toNat _ _ 0 (by simpa using few), UInt8.toNat_zero,
    Nat.zero_add]

theorem resultBitmask_versions (v : Nat) (few : parsed.length < 256) :
    versions (resultBitmask parsed threshold name) v
      ↔ v < 64 ∧ threshold ≤ parsed.countP (firstLists name v) := by
  have loop : ∀ (l : List Nat) (mask : BitVec 64),
      versions (l.foldl (fun mask i =>
        if threshold ≤ (countVersion parsed name i).toNat then mask ||| bit i else mask) mask) v
        ↔ versions mask v
          ∨ (v ∈ l ∧ v < 64 ∧ threshold ≤ parsed.countP (firstLists name v)) := by
    intro l
    induction l with
    | nil => simp
    | cons i l ih =>
      intro mask
      rw [List.foldl_cons, ih, List.mem_cons, countVersion_toNat parsed name i few]
      split
      next enough =>
        have join : versions (mask ||| bit i) v ↔ versions mask v ∨ (v < 64 ∧ v = i) := by
          rw [versions, BitVec.getLsbD_or, Bool.or_eq_true, ← bit_versions]
          exact Iff.rfl
        rw [join]
        constructor
        · rintro ((set | ⟨small, rfl⟩) | ⟨member, rest⟩)
          · exact Or.inl set
          · exact Or.inr ⟨Or.inl rfl, small, enough⟩
          · exact Or.inr ⟨Or.inr member, rest⟩
        · rintro (set | ⟨rfl | member, small, rest⟩)
          · exact Or.inl (Or.inl set)
          · exact Or.inl (Or.inr ⟨small, rfl⟩)
          · exact Or.inr ⟨member, small, rest⟩
      next few =>
        apply or_congr_right
        constructor
        · rintro ⟨member, rest⟩
          exact ⟨Or.inr member, rest⟩
        · rintro ⟨rfl | member, small, rest⟩
          · exact absurd rest few
          · exact ⟨member, small, rest⟩
  rw [resultBitmask, loop, or_iff_right (not_versions_zero v), List.mem_range, and_self_left]

/-! ## The names -/

theorem addProtoNames_spec (unexpanded : List ProtoEntry) (protoNames : List CString)
    (distinct : protoNames.Nodup) :
    (addProtoNames protoNames unexpanded).Nodup
      ∧ ∀ name, name ∈ addProtoNames protoNames unexpanded
        ↔ name ∈ protoNames ∨ ∃ ent ∈ unexpanded, ent.name = name := by
  induction unexpanded generalizing protoNames with
  | nil => exact ⟨distinct, fun name => by simp [addProtoNames]⟩
  | cons ent unexpanded ih =>
    have step : addProtoNames protoNames (ent :: unexpanded)
        = addProtoNames (if ent.name ∈ protoNames then protoNames else protoNames ++ [ent.name])
          unexpanded := rfl
    rw [step]
    split
    next known =>
      obtain ⟨nodup, members⟩ := ih protoNames distinct
      refine ⟨nodup, ?_⟩
      intro name
      rw [members, List.exists_mem_cons_iff]
      constructor
      · rintro (member | listed)
        · exact Or.inl member
        · exact Or.inr (Or.inr listed)
      · rintro (member | rfl | listed)
        · exact Or.inl member
        · exact Or.inl known
        · exact Or.inr listed
    next fresh =>
      have distinct' : (protoNames ++ [ent.name]).Nodup := by
        rw [List.nodup_append]
        refine ⟨distinct, List.nodup_singleton _, ?_⟩
        rintro a member b single rfl
        rw [List.mem_singleton] at single
        exact fresh (single ▸ member)
      obtain ⟨nodup, members⟩ := ih _ distinct'
      refine ⟨nodup, ?_⟩
      intro name
      rw [members, List.exists_mem_cons_iff, List.mem_append, List.mem_singleton, or_assoc,
        eq_comm]

theorem protoNames_spec (protoNames : List CString) (distinct : protoNames.Nodup) :
    (parsed.foldl addProtoNames protoNames).Nodup
      ∧ ∀ name, name ∈ parsed.foldl addProtoNames protoNames
        ↔ name ∈ protoNames ∨ ∃ vote ∈ parsed, ∃ ent ∈ vote, ent.name = name := by
  induction parsed generalizing protoNames with
  | nil => exact ⟨distinct, fun name => by simp⟩
  | cons vote parsed ih =>
    obtain ⟨distinct', members'⟩ := addProtoNames_spec vote protoNames distinct
    obtain ⟨nodup, members⟩ := ih _ distinct'
    refine ⟨nodup, ?_⟩
    intro name
    rw [List.foldl_cons, members, members', List.exists_mem_cons_iff, or_assoc]

theorem sortedNames_spec :
    (smartlistSortStrings (parsed.foldl addProtoNames [])).Pairwise (fun a b => strcmp a b = .lt)
      ∧ ∀ name, name ∈ smartlistSortStrings (parsed.foldl addProtoNames [])
        ↔ ∃ vote ∈ parsed, ∃ ent ∈ vote, ent.name = name := by
  obtain ⟨nodup, members⟩ := protoNames_spec parsed [] List.nodup_nil
  have perm := (insertionSorter strcmp).perm (parsed.foldl addProtoNames [])
  have ordered := (insertionSorter strcmp).ordered (parsed.foldl addProtoNames [])
  constructor
  · have both := ordered.and (perm.nodup_iff.mpr nodup)
    apply both.imp
    rintro a b ⟨le, apart⟩
    apply (Ordering.isLE_iff_eq_lt_or_eq_eq.mp le).resolve_right
    intro equal
    exact apart (Std.compare_eq_iff_eq.mp equal)
  · intro name
    rw [smartlistSortStrings, perm.mem_iff, members, or_iff_right List.not_mem_nil]

/-! ## The entries of the consensus -/

theorem mem_consensusEntries (ent : ProtoEntry) :
    ent ∈ consensusEntries parsed threshold
      ↔ (∃ vote ∈ parsed, ∃ listed ∈ vote, listed.name = ent.name)
        ∧ ent.bitmask = resultBitmask parsed threshold ent.name ∧ ent.bitmask ≠ 0 := by
  rw [consensusEntries, List.mem_filterMap]
  constructor
  · rintro ⟨name, member, found⟩
    split at found
    next some =>
      cases found
      refine ⟨((sortedNames_spec parsed).2 name).mp member, ?_, some⟩
      dsimp only
    next => cases found
  · rintro ⟨listed, mask, some⟩
    refine ⟨ent.name, ((sortedNames_spec parsed).2 ent.name).mpr listed, ?_⟩
    rw [← mask, if_pos some]

theorem consensusEntries_sorted :
    ((consensusEntries parsed threshold).map ProtoEntry.name).Pairwise
      fun a b => strcmp a b = .lt := by
  rw [consensusEntries, List.map_filterMap]
  have kept : (smartlistSortStrings (parsed.foldl addProtoNames [])).filterMap (fun name =>
      (if resultBitmask parsed threshold name ≠ 0 then
        some { name := name, bitmask := resultBitmask parsed threshold name : ProtoEntry }
      else none).map ProtoEntry.name)
      = (smartlistSortStrings (parsed.foldl addProtoNames [])).filter
        fun name => resultBitmask parsed threshold name ≠ 0 := by
    rw [← List.filterMap_eq_filter]
    congr 1
    funext name
    unfold Option.guard
    by_cases some : resultBitmask parsed threshold name ≠ 0
    · rw [if_pos some, if_pos (decide_eq_true some)]
      rfl
    · rw [if_neg some, if_neg (by simpa using some)]
      rfl
  rw [kept]
  exact (sortedNames_spec parsed).1.filter _

theorem findEntryByName_some {name : CString} {ent : ProtoEntry}
    (found : findEntryByName vote name = some ent) : ent ∈ vote ∧ ent.name = name := by
  exact ⟨List.mem_of_find?_eq_some found, by simpa using List.find?_some found⟩

theorem firstLists_name {name : CString} (listed : firstLists name v vote = true) :
    ∃ ent ∈ vote, ent.name = name := by
  unfold firstLists at listed
  split at listed
  · cases listed
  next ent found => exact ⟨ent, findEntryByName_some found⟩

theorem firstLists_anyLists {name : CString} (listed : firstLists name v vote = true) :
    anyLists name v vote = true := by
  unfold firstLists at listed
  split at listed
  · cases listed
  next ent found =>
    obtain ⟨member, same⟩ := findEntryByName_some found
    rw [anyLists, List.any_eq_true]
    refine ⟨ent, member, ?_⟩
    rw [Bool.and_eq_true]
    exact ⟨decide_eq_true same, listed⟩

theorem consensusEntries_pairs (positive : 1 ≤ threshold) (few : parsed.length < 256)
    (name : CString) (v : Nat) :
    (∃ ent ∈ consensusEntries parsed threshold, ent.name = name ∧ versions ent.bitmask v)
      ↔ threshold ≤ parsed.countP (firstLists name v) := by
  constructor
  · rintro ⟨ent, member, rfl, set⟩
    rw [((mem_consensusEntries parsed threshold ent).mp member).2.1,
      resultBitmask_versions parsed threshold _ v few] at set
    exact set.2
  · intro enough
    have some : 0 < parsed.countP (firstLists name v) := by omega
    obtain ⟨vote, member, listed⟩ := List.countP_pos_iff.mp some
    have small : v < 64 := by
      unfold firstLists at listed
      split at listed
      · cases listed
      · exact BitVec.lt_of_getLsbD listed
    have set := (resultBitmask_versions parsed threshold name v few).mpr ⟨small, enough⟩
    refine ⟨{ name := name, bitmask := resultBitmask parsed threshold name }, ?_, rfl, set⟩
    rw [mem_consensusEntries]
    refine ⟨⟨vote, member, firstLists_name listed⟩, ?_, (ne_zero_iff_versions _).mpr ⟨v, set⟩⟩
    dsimp only

/-! ## The order of the votes -/

theorem countVersion_perm {parsed parsed' : List (List ProtoEntry)} (perm : parsed'.Perm parsed)
    (name : CString) (i : Nat) : countVersion parsed' name i = countVersion parsed name i := by
  rw [countVersion_eq, countVersion_eq]
  apply perm.foldl_eq'
  intro a _ b _ counts
  split <;> split <;> rfl

section

variable {text : CString}

theorem consensusEntries_perm {parsed parsed' : List (List ProtoEntry)}
    (perm : parsed'.Perm parsed) (threshold : Int) :
    consensusEntries parsed' threshold = consensusEntries parsed threshold := by
  have masks : resultBitmask parsed' threshold = resultBitmask parsed threshold := by
    funext name
    unfold resultBitmask
    simp only [countVersion_perm perm]
  obtain ⟨nodup, members⟩ := protoNames_spec parsed [] List.nodup_nil
  obtain ⟨nodup', members'⟩ := protoNames_spec parsed' [] List.nodup_nil
  have names : (parsed'.foldl addProtoNames []).Perm (parsed.foldl addProtoNames []) := by
    rw [List.perm_ext_iff_of_nodup nodup' nodup]
    intro name
    rw [members, members']
    apply or_congr_right
    constructor
    · rintro ⟨vote, member, listed⟩
      exact ⟨vote, perm.mem_iff.mp member, listed⟩
    · rintro ⟨vote, member, listed⟩
      exact ⟨vote, perm.mem_iff.mpr member, listed⟩
  rw [consensusEntries, consensusEntries, smartlistSortStrings_perm names, masks]

theorem protoverComputeVote_perm {votes votes' : List CString} (perm : votes'.Perm votes)
    (threshold : Int) :
    protoverComputeVote votes' threshold = protoverComputeVote votes threshold := by
  rw [protoverComputeVote, protoverComputeVote, perm.length_eq,
    consensusEntries_perm (perm.filterMap parseProtocolList) threshold]

/-! ## The vote -/

/-- The number of votes that parse and list the version of the protocol. -/
def timesListed (votes : List CString) (name : CString) (v : Nat) : Nat :=
  (votes.filterMap parseProtocolList).countP (anyLists name v)

/-- The number of those that list it in their first entry for the protocol. -/
def timesListedFirst (votes : List CString) (name : CString) (v : Nat) : Nat :=
  (votes.filterMap parseProtocolList).countP (firstLists name v)

theorem protoverComputeVote_eq (few : votes.length < 256) :
    protoverComputeVote votes threshold
      = encodeProtocolList (consensusEntries (votes.filterMap parseProtocolList) threshold) := by
  rw [protoverComputeVote, if_neg (by omega)]
  split
  next empty =>
    rw [List.length_eq_zero_iff.mp empty]
    rfl
  next => rfl

theorem consensusEntries_valid :
    ∀ ent ∈ consensusEntries (votes.filterMap parseProtocolList) threshold,
      ValidName ent.name := by
  intro ent member
  obtain ⟨⟨vote, parsed, listed, inside, same⟩, -⟩ := (mem_consensusEntries _ _ ent).mp member
  obtain ⟨s, -, read⟩ := List.mem_filterMap.mp parsed
  rw [← same]
  exact parseProtocolList_names s vote read listed inside

/-- What the consensus on protocol versions is to be: each protocol once, in the order of the
names, with the versions that enough votes list. -/
structure CountedRight (votes : List CString) (threshold : Int) (text : CString) : Prop where
  sorted : ∃ entries, parseProtocolList text = some entries
    ∧ (entries.map ProtoEntry.name).Pairwise (fun a b => strcmp a b = .lt)
    ∧ ∀ name v, (∃ ent ∈ entries, ent.name = name ∧ versions ent.bitmask v)
      ↔ threshold ≤ timesListed votes name v
  anyOrder : ∀ votes' : List CString, votes'.Perm votes →
    protoverComputeVote votes' threshold = some text

/-- The votes can be counted: there are fewer than 256 of them, and at least one has to list a
version; what enough votes list enough of them list in their first entry for the protocol,
and no protocol has all 64 versions listed by enough votes. -/
structure Countable (votes : List CString) (threshold : Int) : Prop where
  positive : 1 ≤ threshold
  few : votes.length < 256
  first : ∀ name v, threshold ≤ timesListed votes name v →
    threshold ≤ timesListedFirst votes name v
  notAll : ∀ name, ∃ v, v < 64 ∧ timesListed votes name v < threshold

theorem timesListedFirst_le (v : Nat) : timesListedFirst votes name v ≤ timesListed votes name v :=
  List.countP_mono_left fun _ _ => firstLists_anyLists

theorem allOnes_versions (v : Nat) : versions (BitVec.allOnes 64) v ↔ v < 64 := by
  rw [versions, BitVec.getLsbD_allOnes, decide_eq_true_eq]

theorem Countable.counted {votes : List CString} {threshold : Int}
    (countable : Countable votes threshold) : ∃ text, CountedRight votes threshold text := by
  have few : (votes.filterMap parseProtocolList).length < 256 :=
    Nat.lt_of_le_of_lt (List.length_filterMap_le _ _) countable.few
  have pairs := consensusEntries_pairs (votes.filterMap parseProtocolList) threshold
    countable.positive few
  have agree : ∀ name v, threshold ≤ timesListedFirst votes name v
      ↔ threshold ≤ timesListed votes name v := by
    intro name v
    have fewer := timesListedFirst_le votes name v
    exact ⟨fun enough => by omega, countable.first name v⟩
  have notFull : ∀ ent ∈ consensusEntries (votes.filterMap parseProtocolList) threshold,
      ent.bitmask ≠ BitVec.allOnes 64 := by
    intro ent member full
    obtain ⟨v, small, short⟩ := countable.notAll ent.name
    have enough := (pairs ent.name v).mp
      ⟨ent, member, rfl, by rw [full]; exact (allOnes_versions v).mpr small⟩
    have := (agree ent.name v).mp enough
    omega
  obtain ⟨text, encoded, read⟩ :=
    encodeProtocolList_total _ (consensusEntries_valid votes threshold) notFull
  refine ⟨text, ⟨_, read, consensusEntries_sorted _ _, ?_⟩, ?_⟩
  · intro name v
    rw [pairs, ← agree]
    exact Iff.rfl
  · intro votes' perm
    rw [protoverComputeVote_perm perm, protoverComputeVote_eq votes threshold countable.few,
      encoded]

theorem CountedRight.first {votes : List CString} {threshold : Int}
    (right : CountedRight votes threshold text) (positive : 1 ≤ threshold)
    (few : votes.length < 256) (name : CString) (v : Nat)
    (enough : threshold ≤ timesListed votes name v) :
    threshold ≤ timesListedFirst votes name v := by
  obtain ⟨entries, read, -, pairs⟩ := right.sorted
  have encoded := right.anyOrder votes (List.Perm.refl votes)
  rw [protoverComputeVote_eq votes threshold few] at encoded
  have same := encodeProtocolList_reads _ text (consensusEntries_valid votes threshold) encoded
  rw [read] at same
  cases same
  exact (consensusEntries_pairs _ threshold positive
    (Nat.lt_of_le_of_lt (List.length_filterMap_le _ _) few) name v).mp ((pairs name v).mpr enough)

theorem CountedRight.countable {votes : List CString} {threshold : Int}
    (right : CountedRight votes threshold text) : Countable votes threshold := by
  have encoded := right.anyOrder votes (List.Perm.refl votes)
  obtain ⟨entries, read, -, pairs⟩ := right.sorted
  have few : votes.length < 256 := by
    by_contra many
    rw [protoverComputeVote, if_pos (by omega)] at encoded
    cases encoded
  have positive : 1 ≤ threshold := by
    by_contra none
    obtain ⟨ent, -, -, set⟩ := (pairs [] 64).mpr (by omega)
    exact absurd (versions_lt set) (by omega)
  refine ⟨positive, few, right.first positive few, ?_⟩
  intro name
  by_contra all
  have enough : ∀ v, v < 64 → threshold ≤ timesListed votes name v := by
    intro v small
    by_contra short
    exact all ⟨v, small, by omega⟩
  have parsedFew : (votes.filterMap parseProtocolList).length < 256 :=
    Nat.lt_of_le_of_lt (List.length_filterMap_le _ _) few
  rw [protoverComputeVote_eq votes threshold few] at encoded
  obtain ⟨ent, member, rfl, -⟩ := (consensusEntries_pairs _ threshold positive parsedFew name 0).mpr
    (right.first positive few name 0 (enough 0 (by omega)))
  apply encodeProtocolList_notFull _ text encoded ent member
  rw [((mem_consensusEntries _ threshold ent).mp member).2.1]
  apply BitVec.eq_of_getLsbD_eq
  intro v small
  rw [BitVec.getLsbD_allOnes, decide_eq_true small]
  exact (resultBitmask_versions _ threshold ent.name v parsedFew).mpr
    ⟨small, right.first positive few ent.name v (enough v small)⟩

/-- The vote on protocol versions is right, in every order, exactly if the votes can be
counted. -/
theorem protoverComputeVote_right_iff (votes : List CString) (threshold : Int) :
    (∃ text, CountedRight votes threshold text) ↔ Countable votes threshold := by
  constructor
  · rintro ⟨text, right⟩
    exact right.countable
  · exact Countable.counted

theorem parseProtocolList_repeated :
    parseProtocolList [65, 61, 49, 32, 65, 61, 50]
      = some [{ name := [65], bitmask := 2 }, { name := [65], bitmask := 4 }] := by
  have second := parseProtocolList_entryText [65] [(2, 2)] [] [] []
    ⟨by decide, by decide, by decide⟩ (by decide) (Or.inl ⟨rfl, rfl⟩)
    (by rw [parseProtocolList, if_pos rfl])
  exact parseProtocolList_entryText [65] [(1, 1)] [32, 65, 61, 50] [65, 61, 50]
    [{ name := [65], bitmask := 4 }] ⟨by decide, by decide, by decide⟩ (by decide)
    (Or.inr ⟨rfl, by decide⟩) second

/-- The one vote `A=1 A=2` lists version 2, which the consensus of it does not. -/
theorem protoverComputeVote_repeated :
    ¬ ∃ text, CountedRight [[65, 61, 49, 32, 65, 61, 50]] 1 text := by
  rintro ⟨text, right⟩
  have parsed : [[65, 61, 49, 32, 65, 61, 50]].filterMap parseProtocolList
      = [[{ name := [65], bitmask := 2 }, { name := [65], bitmask := 4 }]] := by
    rw [List.filterMap_cons, parseProtocolList_repeated]
    rfl
  have first := right.first (by decide) (by decide) [65] 2 (by
    rw [timesListed, parsed]
    decide)
  rw [timesListedFirst, parsed] at first
  exact absurd first (by decide)

end

end RendezMix.Guarantees.ProtocolVotes
