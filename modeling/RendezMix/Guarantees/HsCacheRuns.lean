import Mathlib
import RendezMix.Source.HsCache

/-!
# The bytes of the descriptor caches

The count of bytes is the sum of the sizes of the entries. Each call keeps it, except where a
descriptor takes the place of one that has expired but is still there, whose size stays in the
count, and where a descriptor is decrypted in its place, whose size grows without the count.
-/
namespace RendezMix.Guarantees.HsCacheAccounts
open Library.KeyedLists Library.Runs Source.HsCache

/-! ## Loops that free entries -/

section Loops

variable {ε : Type*} (gone : ε → Bool) (size : ε → Nat)

/-- The bytes of a list of entries. -/
def bytesOf (l : List ε) : Nat := (l.map size).sum

theorem bytesOf_cons (entry : ε) (l : List ε) : bytesOf size (entry :: l) = size entry + bytesOf size l := by
  simp only [bytesOf, List.map_cons, List.sum_cons]

theorem bytesOf_perm {l l' : List ε} (perm : l.Perm l') : bytesOf size l = bytesOf size l' :=
  (perm.map size).sum_nat

theorem bytesOf_filter (l : List ε) : bytesOf size l
    = bytesOf size (l.filter gone) + bytesOf size (l.filter fun entry => !gone entry) := by
  induction l with
  | nil => rfl
  | cons entry l ih =>
    rw [bytesOf_cons, ih]
    cases freed : gone entry with
    | true =>
      rw [List.filter_cons_of_pos freed, List.filter_cons_of_neg (by simp [freed]), bytesOf_cons]
      omega
    | false =>
      rw [List.filter_cons_of_neg (by simp [freed]), List.filter_cons_of_pos (by simp [freed]),
        bytesOf_cons]
      omega

theorem cleanLoop_spec (l : List ε) {a : Allocation} (others : Nat)
    (total : a.total = others + bytesOf size l) (whole : a.haveUnderflowed = false) :
    cleanLoop gone size l a = (l.filter fun entry => !gone entry,
      ⟨others + bytesOf size (l.filter fun entry => !gone entry), false⟩,
      bytesOf size (l.filter gone)) := by
  induction l generalizing a others with
  | nil =>
    obtain ⟨count, underflowed⟩ := a
    simp only at total whole
    rw [cleanLoop, total, whole]
    rfl
  | cons entry l ih =>
    rw [bytesOf_cons] at total
    rw [cleanLoop]
    cases freed : gone entry with
    | true =>
      have enough : a.total ≥ size entry := by omega
      have less : (hsCacheDecrementAllocation (size entry) a).total = others + bytesOf size l := by
        rw [hsCacheDecrementAllocation, if_pos enough]
        simp only
        omega
      have same : (hsCacheDecrementAllocation (size entry) a).haveUnderflowed = false := by
        rw [hsCacheDecrementAllocation, if_pos enough]
        exact whole
      rw [if_pos rfl, ih others less same, List.filter_cons_of_pos freed,
        List.filter_cons_of_neg (by simp [freed]), bytesOf_cons]
    | false =>
      have more : a.total = others + size entry + bytesOf size l := by omega
      rw [if_neg Bool.false_ne_true, ih (others + size entry) more whole,
        List.filter_cons_of_pos (p := fun entry => !gone entry) (by simp [freed]),
        List.filter_cons_of_neg (by simp [freed]), bytesOf_cons, Nat.add_assoc]

end Loops

/-! ## What is kept -/

variable {κ : Type*} [DecidableEq κ] (z : Sizeofs)

/-- The bytes of both caches. -/
def bytesHeld (s : HsCaches κ) : Nat :=
  bytesOf (cacheGetDirEntrySize z) s.v3Dir + bytesOf (cacheGetClientEntrySize z) s.v3Client

/-- The count is exact, and has not underflowed. -/
def Accounted (s : HsCaches κ) : Prop :=
  s.allocation.total = bytesHeld z s ∧ s.allocation.haveUnderflowed = false

structure Booked (s : HsCaches κ) : Prop where
  accounted : Accounted z s
  dirKeys : Distinct DirDescriptor.key s.v3Dir
  clientKeys : Distinct ClientDescriptor.key s.v3Client

omit [DecidableEq κ] in
theorem newHsCaches_booked : Booked z (newHsCaches : HsCaches κ) :=
  ⟨⟨rfl, rfl⟩, List.nodup_nil, List.nodup_nil⟩

section Removing

variable {z} {s : HsCaches κ}

omit [DecidableEq κ] in
theorem decrement_spec {a : Allocation} {n others : Nat} (total : a.total = others + n)
    (whole : a.haveUnderflowed = false) : hsCacheDecrementAllocation n a = ⟨others, false⟩ := by
  have enough : a.total ≥ n := by omega
  rw [hsCacheDecrementAllocation, if_pos enough, total, Nat.add_sub_cancel, ← whole]

/-! ## The directory cache -/

/-- While a key stays in the directory cache its revision counter only grows. -/
def Advances (s s' : HsCaches κ) : Prop :=
  ∀ k e e', find DirDescriptor.key k s.v3Dir = some e → find DirDescriptor.key k s'.v3Dir = some e' →
    e' = e ∨ e.plaintextData.revisionCounter < e'.plaintextData.revisionCounter

theorem advances_of_sublist (booked : Booked z s) {s' : HsCaches κ}
    (sub : s'.v3Dir.Sublist s.v3Dir) : Advances s s' := by
  intro k e e' before after
  have inside := sub.subset (find_mem after)
  have again := booked.dirKeys.find_of_mem inside
  rw [find_key after, before] at again
  exact Or.inl (Option.some.inj again).symm

theorem cacheStoreV3AsDir_booked (booked : Booked z s) (desc : DirDescriptor κ) :
    Booked z (cacheStoreV3AsDir z desc s) ∧ Advances s (cacheStoreV3AsDir z desc s) := by
  obtain ⟨⟨total, whole⟩, dirKeys, clientKeys⟩ := booked
  have booked : Booked z s := ⟨⟨total, whole⟩, dirKeys, clientKeys⟩
  unfold cacheStoreV3AsDir
  simp only
  cases found : find DirDescriptor.key desc.key s.v3Dir with
  | none =>
    refine ⟨⟨⟨?_, whole⟩, ?_, clientKeys⟩, ?_⟩
    · simp only [hsCacheIncrementAllocation, total, bytesHeld, bytesOf_cons]
      omega
    · apply List.nodup_cons.mpr
      refine ⟨?_, dirKeys⟩
      intro member
      obtain ⟨e, inside, same⟩ := List.mem_map.mp member
      exact find_eq_none.mp found e inside same
    · intro k e e' before after
      simp only [find_cons] at after
      by_cases here : k = desc.key
      · rw [here, found] at before
        cases before
      · rw [if_neg here, before] at after
        exact Or.inl (Option.some.inj after).symm
  | some entry =>
    simp only
    by_cases older : entry.plaintextData.revisionCounter ≥ desc.plaintextData.revisionCounter
    · rw [if_pos older]
      exact ⟨booked, advances_of_sublist booked (List.Sublist.refl _)⟩
    · rw [if_neg older]
      have key := find_key found
      have split : bytesHeld z s = bytesOf (cacheGetDirEntrySize z)
          (remove DirDescriptor.key entry.key s.v3Dir)
          + bytesOf (cacheGetClientEntrySize z) s.v3Client + cacheGetDirEntrySize z entry := by
        rw [bytesHeld, bytesOf_perm _ (perm_remove (key ▸ found)), bytesOf_cons]
        omega
      rw [decrement_spec (total.trans split) whole]
      refine ⟨⟨⟨?_, rfl⟩, ?_, clientKeys⟩, ?_⟩
      · simp only [hsCacheIncrementAllocation, bytesHeld, bytesOf_cons]
        omega
      · simp only [key]
        exact dirKeys.cons_remove desc
      · intro k e e' before after
        simp only [find_cons, dirKeys.find_remove, key] at after
        by_cases here : k = desc.key
        · rw [if_pos here] at after
          rw [here, found] at before
          obtain rfl := Option.some.inj after
          obtain rfl := Option.some.inj before
          exact Or.inr (UInt64.not_le.mp older)
        · rw [if_neg here, if_neg here, before] at after
          exact Or.inl (Option.some.inj after).symm

omit [DecidableEq κ] in
theorem cacheCleanV3AsDir_spec (booked : Booked z s) (now : Int) {globalCutoff : Int}
    (cutoff : 0 ≤ globalCutoff) :
    ∃ s', cacheCleanV3AsDir z now globalCutoff s
        = some (s', bytesOf (cacheGetDirEntrySize z) (s.v3Dir.filter (dirExpired now globalCutoff)))
      ∧ Booked z s' ∧ s'.v3Client = s.v3Client
      ∧ s'.v3Dir = s.v3Dir.filter fun entry => !dirExpired now globalCutoff entry := by
  obtain ⟨⟨total, whole⟩, dirKeys, clientKeys⟩ := booked
  rw [bytesHeld, Nat.add_comm] at total
  rw [cacheCleanV3AsDir, if_neg (Int.not_lt.mpr cutoff), cleanLoop_spec _ _ _ _ total whole]
  refine ⟨_, rfl, ⟨⟨?_, rfl⟩, ?_, clientKeys⟩, rfl, rfl⟩
  · simp only [bytesHeld]
    omega
  · exact dirKeys.sublist (List.filter_sublist.map _)

/-! ## The client cache -/

theorem lookupV3DescAsClient_some {validAfter : Option Int} {key : κ} {entry : ClientDescriptor κ} :
    lookupV3DescAsClient validAfter key s = some entry
      ↔ find ClientDescriptor.key key s.v3Client = some entry
        ∧ cachedClientDescriptorHasExpired validAfter entry = false := by
  rw [lookupV3DescAsClient]
  cases found : find ClientDescriptor.key key s.v3Client with
  | none => simp
  | some other =>
    simp only [Option.some.injEq]
    cases expired : cachedClientDescriptorHasExpired validAfter other with
    | true =>
      simp only [if_true, reduceCtorEq, false_iff]
      rintro ⟨rfl, live⟩
      rw [expired] at live
      cases live
    | false =>
      simp only [Bool.false_eq_true, if_false, Option.some.injEq]
      constructor
      · rintro rfl
        exact ⟨rfl, expired⟩
      · exact And.left

theorem removeV3DescAsClient_booked (booked : Booked z s) {entry : ClientDescriptor κ}
    (found : find ClientDescriptor.key entry.key s.v3Client = some entry) :
    Booked z (removeV3DescAsClient z entry s) := by
  obtain ⟨⟨total, whole⟩, dirKeys, clientKeys⟩ := booked
  have split : bytesHeld z s = bytesOf (cacheGetDirEntrySize z) s.v3Dir
      + bytesOf (cacheGetClientEntrySize z) (remove ClientDescriptor.key entry.key s.v3Client)
      + cacheGetClientEntrySize z entry := by
    rw [bytesHeld, bytesOf_perm _ (perm_remove found), bytesOf_cons]
    omega
  rw [removeV3DescAsClient, decrement_spec (total.trans split) whole]
  exact ⟨⟨rfl, rfl⟩, dirKeys, clientKeys.sublist (List.eraseP_sublist.map _)⟩

theorem storeV3DescAsClient_booked (booked : Booked z s) {desc : ClientDescriptor κ}
    (absent : find ClientDescriptor.key desc.key s.v3Client = none) :
    Booked z (storeV3DescAsClient z desc s) := by
  obtain ⟨⟨total, whole⟩, dirKeys, clientKeys⟩ := booked
  refine ⟨⟨?_, whole⟩, dirKeys, clientKeys.cons_remove desc⟩
  have same : remove ClientDescriptor.key desc.key s.v3Client = s.v3Client := by
    rw [remove, List.eraseP_of_forall_not]
    intro e member here
    exact find_eq_none.mp absent e member (of_decide_eq_true here)
  simp only [storeV3DescAsClient, hsCacheIncrementAllocation, total, bytesHeld, same, bytesOf_cons]
  omega

theorem storeV3DescAsClient_unaccounted (booked : Booked z s) {desc entry : ClientDescriptor κ}
    (found : find ClientDescriptor.key desc.key s.v3Client = some entry) :
    ¬ Accounted z (storeV3DescAsClient z desc s) := by
  rintro ⟨total, _⟩
  have before := booked.accounted.1
  have positive : 0 < cacheGetClientEntrySize z entry := by
    have some := z.clientDescriptor_pos
    rw [cacheGetClientEntrySize]
    omega
  rw [bytesHeld, bytesOf_perm _ (perm_remove found), bytesOf_cons] at before
  simp only [storeV3DescAsClient, hsCacheIncrementAllocation, bytesHeld, bytesOf_cons, before] at total
  omega

omit [DecidableEq κ] in
theorem cleanClient_booked (booked : Booked z s) (gone : ClientDescriptor κ → Bool) :
    Booked z (cleanClient z gone s).1 ∧ (cleanClient z gone s).1.v3Dir = s.v3Dir
      ∧ (cleanClient z gone s).1.v3Client = s.v3Client.filter fun entry => !gone entry := by
  obtain ⟨⟨total, whole⟩, dirKeys, clientKeys⟩ := booked
  rw [bytesHeld] at total
  rw [cleanClient, cleanLoop_spec _ _ _ _ total whole]
  exact ⟨⟨⟨rfl, rfl⟩, dirKeys, clientKeys.sublist (List.filter_sublist.map _)⟩, rfl, rfl⟩

/-- An entry that has expired is still there for the key. -/
def Lingers (validAfter : Option Int) (key : κ) (s : HsCaches κ) : Prop :=
  ∃ entry, find ClientDescriptor.key key s.v3Client = some entry
    ∧ cachedClientDescriptorHasExpired validAfter entry = true

/-- No decrypted entry that has not expired gives way to a decrypted one with a lower counter. -/
def KeepsNewest (validAfter : Option Int) (s s' : HsCaches κ) : Prop :=
  ∀ key e e' old new, lookupV3DescAsClient validAfter key s = some e → e.desc = some old →
    find ClientDescriptor.key key s'.v3Client = some e' → e'.desc = some new →
      old.plaintextData.revisionCounter ≤ new.plaintextData.revisionCounter

theorem keepsNewest_of_find {validAfter : Option Int} {s' : HsCaches κ}
    (same : ∀ key e e', find ClientDescriptor.key key s.v3Client = some e →
      find ClientDescriptor.key key s'.v3Client = some e' → e.desc ≠ none → e' = e) :
    KeepsNewest validAfter s s' := by
  intro key e e' old new before decrypted after decrypted'
  have present := (lookupV3DescAsClient_some.mp before).1
  have equal := same key e e' present after (by rw [decrypted]; exact Option.some_ne_none _)
  rw [equal, decrypted] at decrypted'
  rw [Option.some.inj decrypted']
  exact UInt64.le_refl _

theorem find_storeV3DescAsClient (booked : Booked z s) (desc : ClientDescriptor κ) (key : κ) :
    find ClientDescriptor.key key (storeV3DescAsClient z desc s).v3Client
      = if key = desc.key then some desc else find ClientDescriptor.key key s.v3Client := by
  simp only [storeV3DescAsClient, find_cons, booked.clientKeys.find_remove]
  by_cases here : key = desc.key
  · rw [if_pos here, if_pos here]
  · rw [if_neg here, if_neg here, if_neg here]

/-- A descriptor takes the place of an entry that has not expired. -/
theorem replaceAsClient_booked (booked : Booked z s) {validAfter : Option Int}
    {clientDesc entry : ClientDescriptor κ}
    (found : lookupV3DescAsClient validAfter clientDesc.key s = some entry)
    (newer : ∀ old new, entry.desc = some old → clientDesc.desc = some new →
      old.plaintextData.revisionCounter ≤ new.plaintextData.revisionCounter) :
    Booked z (storeV3DescAsClient z clientDesc (removeV3DescAsClient z entry s))
      ∧ KeepsNewest validAfter s (storeV3DescAsClient z clientDesc (removeV3DescAsClient z entry s)) := by
  obtain ⟨present, _⟩ := lookupV3DescAsClient_some.mp found
  have key : entry.key = clientDesc.key := find_key present
  have removed := removeV3DescAsClient_booked booked (key ▸ present)
  have gone : find ClientDescriptor.key clientDesc.key (removeV3DescAsClient z entry s).v3Client
      = none := by
    simp only [removeV3DescAsClient, booked.clientKeys.find_remove, key, if_true]
  refine ⟨storeV3DescAsClient_booked removed gone, ?_⟩
  intro k e e' old new before decrypted after decrypted'
  rw [find_storeV3DescAsClient removed] at after
  obtain ⟨there, _⟩ := lookupV3DescAsClient_some.mp before
  by_cases here : k = clientDesc.key
  · rw [if_pos here] at after
    rw [here, present] at there
    obtain rfl := Option.some.inj after
    obtain rfl := Option.some.inj there
    exact newer old new decrypted decrypted'
  · simp only [if_neg here, removeV3DescAsClient, booked.clientKeys.find_remove, key] at after
    rw [there] at after
    obtain rfl := Option.some.inj after
    rw [decrypted] at decrypted'
    rw [Option.some.inj decrypted']
    exact UInt64.le_refl _

/-- `cache_store_as_client` keeps the count where no entry for the key lingers, and there only. -/
theorem cacheStoreAsClient_spec (booked : Booked z s) (validAfter : Option Int)
    (clientDesc : ClientDescriptor κ) :
    (¬ Lingers validAfter clientDesc.key s → Booked z (cacheStoreAsClient z validAfter clientDesc s)
        ∧ KeepsNewest validAfter s (cacheStoreAsClient z validAfter clientDesc s))
      ∧ (Lingers validAfter clientDesc.key s →
        ¬ Accounted z (cacheStoreAsClient z validAfter clientDesc s)) := by
  unfold cacheStoreAsClient
  cases found : lookupV3DescAsClient validAfter clientDesc.key s with
  | none =>
    constructor
    · intro fresh
      have absent : find ClientDescriptor.key clientDesc.key s.v3Client = none := by
        cases present : find ClientDescriptor.key clientDesc.key s.v3Client with
        | none => rfl
        | some entry =>
          cases expired : cachedClientDescriptorHasExpired validAfter entry with
          | true => exact absurd ⟨entry, present, expired⟩ fresh
          | false =>
            rw [lookupV3DescAsClient_some.mpr ⟨present, expired⟩] at found
            cases found
      refine ⟨storeV3DescAsClient_booked booked absent, ?_⟩
      apply keepsNewest_of_find
      intro key e e' before after _
      rw [find_storeV3DescAsClient booked] at after
      by_cases here : key = clientDesc.key
      · rw [here, absent] at before
        cases before
      · rw [if_neg here, before] at after
        exact (Option.some.inj after).symm
    · rintro ⟨entry, present, _⟩
      exact storeV3DescAsClient_unaccounted booked present
  | some entry =>
    obtain ⟨present, live⟩ := lookupV3DescAsClient_some.mp found
    constructor
    · intro _
      have replaced := replaceAsClient_booked booked found
      cases old : entry.desc with
      | none =>
        simp only [old]
        exact replaced (fun other _ same => by rw [old] at same; cases same)
      | some old' =>
        cases new : clientDesc.desc with
        | none =>
          simp only [old]
          exact replaced (fun _ other _ same => by rw [new] at same; cases same)
        | some new' =>
          simp only [old]
          by_cases lower : old'.plaintextData.revisionCounter > new'.plaintextData.revisionCounter
          · rw [if_pos lower]
            refine ⟨booked, keepsNewest_of_find fun key e e' before after _ => ?_⟩
            exact Option.some.inj (after.symm.trans before)
          · rw [if_neg lower]
            apply replaced
            intro a b first second
            rw [old] at first
            rw [new] at second
            obtain rfl := Option.some.inj first
            obtain rfl := Option.some.inj second
            exact UInt64.not_lt.mp lower
    · rintro ⟨other, there, expired⟩
      rw [present] at there
      rw [Option.some.inj there, expired] at live
      cases live

/-! ## Late decryption -/

/-- An entry that has not expired waits for its key, and can now be decrypted. -/
def Unlocks (validAfter : Option Int) (key : κ) (decoding : HsDecoding κ) (s : HsCaches κ) : Prop :=
  ∃ entry, lookupV3DescAsClient validAfter key s = some entry ∧ entry.desc = none
    ∧ decoding.desc ≠ none

theorem hsCacheClientNewAuthParse_spec (booked : Booked z s) (validAfter : Option Int) (key : κ)
    (decoding : HsDecoding κ) :
    (¬ Unlocks validAfter key decoding s →
        hsCacheClientNewAuthParse validAfter key decoding s = s)
      ∧ (Unlocks validAfter key decoding s →
        ¬ Accounted z (hsCacheClientNewAuthParse validAfter key decoding s)) := by
  unfold hsCacheClientNewAuthParse
  cases found : lookupV3DescAsClient validAfter key s with
  | none =>
    refine ⟨fun _ => rfl, ?_⟩
    rintro ⟨entry, present, _⟩
    rw [found] at present
    cases present
  | some entry =>
    obtain ⟨present, _⟩ := lookupV3DescAsClient_some.mp found
    obtain rfl : entry.key = key := find_key present
    by_cases decrypted : entry.desc ≠ none
    · simp only [if_pos decrypted]
      refine ⟨fun _ => trivial, ?_⟩
      rintro ⟨other, there, waits, _⟩
      rw [found] at there
      obtain rfl := Option.some.inj there
      exact absurd waits decrypted
    · simp only [if_neg decrypted]
      rw [not_not] at decrypted
      constructor
      · intro locked
        have nothing : decoding.desc = none := by
          by_contra given
          exact locked ⟨entry, found, decrypted, given⟩
        have entry' : { entry with desc := decoding.desc } = entry := by
          rw [nothing, ← decrypted]
        rw [entry', replace_self present]
      · rintro ⟨other, there, _, given⟩ ⟨total, _⟩
        obtain ⟨new, decoded⟩ := Option.ne_none_iff_exists'.mp given
        have before := booked.accounted.1
        have positive : 0 < hsDescObjSize z new := by
          have some := z.plaintextData_pos
          rw [hsDescObjSize, hsDescPlaintextObjSize]
          omega
        have perm : (replace ClientDescriptor.key { entry with desc := decoding.desc } s.v3Client).Perm
            ({ entry with desc := decoding.desc }
              :: remove ClientDescriptor.key entry.key s.v3Client) := replace_perm present
        have larger : cacheGetClientEntrySize z { entry with desc := decoding.desc }
            = cacheGetClientEntrySize z entry + hsDescObjSize z new := by
          simp [cacheGetClientEntrySize, decoded, decrypted]
        have after := bytesOf_perm (cacheGetClientEntrySize z) perm
        rw [bytesOf_cons, larger] at after
        rw [bytesHeld, bytesOf_perm _ (perm_remove present), bytesOf_cons] at before
        simp only [bytesHeld, after, before] at total
        omega

end Removing

end RendezMix.Guarantees.HsCacheAccounts

/-!
# Runs of the descriptor caches

When the handler of memory pressure does what it is for, and runs: what is promised of each step
holds in a run if and only if each step meets a condition that can be told before it.
-/
namespace RendezMix.Guarantees.HsCacheAccounts
open Library.KeyedLists Library.Runs Source.HsCache

variable {κ : Type*} [DecidableEq κ] {z : Sizeofs} {s : HsCaches κ}

/-! ## Memory pressure -/

section Pressure

variable {ε : Type*}

theorem filter_or (p q : ε → Bool) (l : List ε) :
    (l.filter fun e => !(p e || q e)) = (l.filter fun e => !p e).filter fun e => !q e := by
  rw [List.filter_filter]
  apply List.filter_congr
  intro e _
  cases p e <;> cases q e <;> rfl

theorem bytesOf_filter_or (p q : ε → Bool) (size : ε → Nat) (l : List ε) :
    bytesOf size (l.filter fun e => p e || q e)
      = bytesOf size (l.filter p) + bytesOf size ((l.filter fun e => !p e).filter q) := by
  rw [bytesOf_filter p size (l.filter fun e => p e || q e), List.filter_filter, List.filter_filter,
    List.filter_filter]
  congr 2
  · apply List.filter_congr
    intro e _
    cases p e <;> cases q e <;> rfl
  · apply List.filter_congr
    intro e _
    cases p e <;> cases q e <;> rfl

/-- What the passes of the loop from an age on free: the last pass is for the age that is left when
periods are taken away, and a cutoff of 0 stands for the lifetime of each entry. -/
def freedFrom (env : OomEnv) (k : Int) (entry : DirDescriptor κ) : Bool :=
  decide (env.now = k ∧ entry.createdTs ≤ env.now - entry.plaintextData.lifetimeSec.toNat)
    || decide (env.now ≠ k % env.rendPostPeriod
      ∧ entry.createdTs ≤ env.now - k % env.rendPostPeriod)

omit [DecidableEq κ] in
theorem freedFrom_last (env : OomEnv) {k : Int} (pos : 0 ≤ k) (last : k < env.rendPostPeriod)
    (entry : DirDescriptor κ) : freedFrom env k entry = dirExpired env.now (env.now - k) entry := by
  rw [freedFrom, Int.emod_eq_of_lt pos last, dirExpired]
  by_cases zero : env.now = k
  · simp [zero]
  · rw [if_neg (by omega)]
    simp [zero]

omit [DecidableEq κ] in
theorem freedFrom_step (env : OomEnv) {k : Int} (period : env.rendPostPeriod ≤ k) (now : k ≤ env.now)
    (entry : DirDescriptor κ) : freedFrom env k entry
      = (dirExpired env.now (env.now - k) entry || freedFrom env (k - env.rendPostPeriod) entry) := by
  have positive := env.rendPostPeriod_pos
  have less := Int.emod_lt_of_pos k positive
  have same : (k - env.rendPostPeriod) % env.rendPostPeriod = k % env.rendPostPeriod :=
    Int.sub_emod_right k env.rendPostPeriod
  rw [Bool.eq_iff_iff]
  simp only [freedFrom, dirExpired, same, Bool.or_eq_true, decide_eq_true_eq]
  by_cases zero : env.now = k
  · rw [if_pos (by omega)]
    constructor
    · rintro (first | second)
      · exact Or.inl first.2
      · exact Or.inr (Or.inr second)
    · rintro (first | first | second)
      · exact Or.inl ⟨zero, first⟩
      · omega
      · exact Or.inr second
  · rw [if_neg (by omega)]
    constructor
    · rintro (first | second)
      · exact absurd first.1 zero
      · exact Or.inr (Or.inr second)
    · rintro (first | first | second)
      · exact Or.inr ⟨by omega, by omega⟩
      · omega
      · exact Or.inr second

omit [DecidableEq κ] in
/-- The loop stops with enough bytes, if there are as many, and frees all it can otherwise. -/
theorem oomLoop_spec (env : OomEnv) (n : Nat) {k : Int} (fuel : k.toNat < n) (pos : 0 ≤ k)
    (now : k ≤ env.now) (bytes : Nat) (booked : Booked z s) :
    ∃ s' bytes', oomLoop z env k bytes s = some (s', bytes') ∧ Booked z s'
      ∧ s'.v3Client = s.v3Client ∧ s'.v3Dir.Sublist s.v3Dir
      ∧ (env.minRemoveBytes
          ≤ bytes + bytesOf (cacheGetDirEntrySize z) (s.v3Dir.filter (freedFrom env k)) →
        env.minRemoveBytes ≤ bytes')
      ∧ (bytes + bytesOf (cacheGetDirEntrySize z) (s.v3Dir.filter (freedFrom env k))
          < env.minRemoveBytes →
        bytes' < env.minRemoveBytes
          ∧ s'.v3Dir = s.v3Dir.filter fun entry => !freedFrom env k entry) := by
  induction n generalizing k bytes s with
  | zero => exact absurd fuel (Nat.not_lt_zero _)
  | succ n ih =>
    have positive := env.rendPostPeriod_pos
    obtain ⟨s₁, cleaned, booked₁, client, dir⟩ :=
      cacheCleanV3AsDir_spec booked env.now (show 0 ≤ env.now - k by omega)
    have sub : s₁.v3Dir.Sublist s.v3Dir := by
      rw [dir]
      exact List.filter_sublist
    rw [oomLoop, if_neg (Int.not_lt.mpr pos), cleaned]
    simp only
    by_cases last : k < env.rendPostPeriod
    · have all : ∀ l : List (DirDescriptor κ), l.filter (freedFrom env k)
          = l.filter (dirExpired env.now (env.now - k)) := fun l =>
        List.filter_congr fun entry _ => freedFrom_last env pos last entry
      have rest : (s.v3Dir.filter fun entry => !freedFrom env k entry) = s₁.v3Dir := by
        rw [dir]
        exact List.filter_congr fun entry _ => by rw [freedFrom_last env pos last]
      have ended : oomLoop z env (k - env.rendPostPeriod)
          (bytes + bytesOf (cacheGetDirEntrySize z)
            (s.v3Dir.filter (dirExpired env.now (env.now - k)))) s₁
          = some (s₁, bytes + bytesOf (cacheGetDirEntrySize z)
            (s.v3Dir.filter (dirExpired env.now (env.now - k)))) := by
        rw [oomLoop, if_pos (by omega)]
      rw [ended, ite_self, all, rest]
      exact ⟨s₁, _, rfl, booked₁, client, sub, id, fun few => ⟨few, rfl⟩⟩
    · have step : (s.v3Dir.filter (freedFrom env k)) = s.v3Dir.filter fun entry =>
          dirExpired env.now (env.now - k) entry || freedFrom env (k - env.rendPostPeriod) entry :=
        List.filter_congr fun entry _ => freedFrom_step env (Int.not_lt.mp last) now entry
      have rest : (s.v3Dir.filter fun entry => !freedFrom env k entry)
          = s₁.v3Dir.filter fun entry => !freedFrom env (k - env.rendPostPeriod) entry := by
        rw [dir, ← filter_or]
        exact List.filter_congr fun entry _ => by
          rw [freedFrom_step env (Int.not_lt.mp last) now]
      rw [step, bytesOf_filter_or, ← dir, rest, ← Nat.add_assoc]
      split
      next few =>
        obtain ⟨s', bytes', run, booked', client', sub', enough, short⟩ :=
          ih (k := k - env.rendPostPeriod) (by omega) (by omega) (by omega)
            (bytes + bytesOf (cacheGetDirEntrySize z)
              (s.v3Dir.filter (dirExpired env.now (env.now - k)))) booked₁
        exact ⟨s', bytes', run, booked', client'.trans client, sub'.trans sub, enough, short⟩
      next many =>
        refine ⟨s₁, _, rfl, booked₁, client, sub, fun _ => Nat.not_lt.mp many, fun few => ?_⟩
        omega

/-- The handler can do what it is for: its first cutoff is not before 0, and what it may free has
enough bytes, or is everything. -/
def OomWorks (z : Sizeofs) (env : OomEnv) (s : HsCaches κ) : Prop :=
  hsCacheMaxEntryLifetime ≤ env.now
    ∧ (env.minRemoveBytes ≤ bytesOf (cacheGetDirEntrySize z)
        (s.v3Dir.filter (freedFrom env hsCacheMaxEntryLifetime))
      ∨ ∀ entry ∈ s.v3Dir, freedFrom env hsCacheMaxEntryLifetime entry = true)

/-- The handler has removed enough, or everything. -/
def OomDelivers (env : OomEnv) (s' : HsCaches κ) : HsCacheReply → Prop
  | .removed bytes => env.minRemoveBytes ≤ bytes ∨ s'.v3Dir = []
  | _ => False

omit [DecidableEq κ] in
theorem hsCacheHandleOom_spec (env : OomEnv) (booked : Booked z s) :
    (OomDelivers env (removing s (hsCacheHandleOom z env s)).1
        (removing s (hsCacheHandleOom z env s)).2 ↔ OomWorks z env s)
      ∧ Booked z (removing s (hsCacheHandleOom z env s)).1
      ∧ (removing s (hsCacheHandleOom z env s)).1.v3Client = s.v3Client
      ∧ (removing s (hsCacheHandleOom z env s)).1.v3Dir.Sublist s.v3Dir := by
  rw [hsCacheHandleOom]
  by_cases now : hsCacheMaxEntryLifetime ≤ env.now
  · obtain ⟨s', bytes', run, booked', client, sub, enough, short⟩ :=
      oomLoop_spec env (hsCacheMaxEntryLifetime.toNat + 1) (Nat.lt_succ_self _) (by decide) now 0
        booked
    rw [Nat.zero_add] at enough short
    rw [run]
    refine ⟨?_, booked', client, sub⟩
    simp only [removing, OomDelivers, OomWorks]
    by_cases much : env.minRemoveBytes ≤ bytesOf (cacheGetDirEntrySize z)
        (s.v3Dir.filter (freedFrom env hsCacheMaxEntryLifetime))
    · exact ⟨fun _ => ⟨now, Or.inl much⟩, fun _ => Or.inl (enough much)⟩
    · obtain ⟨few, left⟩ := short (Nat.not_le.mp much)
      rw [left, List.filter_eq_nil_iff]
      simp only [Bool.not_eq_true', Bool.not_eq_false]
      constructor
      · rintro (many | all)
        · omega
        · exact ⟨now, Or.inr all⟩
      · rintro ⟨_, many | all⟩
        · exact absurd many much
        · exact Or.inr all
  · have aborted : oomLoop z env hsCacheMaxEntryLifetime 0 s = none := by
      rw [oomLoop, if_neg (by decide), cacheCleanV3AsDir, if_pos (by omega)]
    rw [aborted]
    refine ⟨⟨fun delivers => delivers.elim, fun works => absurd works.1 now⟩, booked, rfl, ?_⟩
    exact List.Sublist.refl _

end Pressure

/-! ## Runs -/

/-- The condition of a call, told from the state before it: no descriptor is stored where an entry
that has expired is still there for its key, no entry is decrypted late, and the handler of memory
pressure can do what it is for. -/
def AvoidsDrift (z : Sizeofs) (x : Transition (HsCaches κ) (HsCacheEvent κ × HsCacheReply)) : Prop :=
  match x.input.1 with
  | .storeClient validAfter encodedDesc key expirationTs decoding =>
    cacheClientDescNew encodedDesc key expirationTs decoding ≠ none → ¬ Lingers validAfter key x.pre
  | .newAuth validAfter key decoding => ¬ Unlocks validAfter key decoding x.pre
  | .oom env => OomWorks z env x.pre
  | _ => True

/-- The consensus by which an event tells the entries that have expired. -/
def JudgedBy (validAfter : Option Int) : HsCacheEvent κ → Prop
  | .storeClient other _ _ _ _ => other = validAfter
  | _ => True

/-- What is promised of each call: the count of bytes is exact and has not underflowed, revision
counters advance in the directory cache, the newest decrypted entry is kept in the client cache,
and the handler of memory pressure delivers. -/
structure Promised (z : Sizeofs) (x : Transition (HsCaches κ) (HsCacheEvent κ × HsCacheReply)) :
    Prop where
  accounted : Accounted z x.post
  advances : Advances x.pre x.post
  newest : ∀ validAfter, JudgedBy validAfter x.input.1 → KeepsNewest validAfter x.pre x.post
  delivers : ∀ env, x.input.1 = .oom env → OomDelivers env x.post x.input.2

theorem keepsNewest_of_sublist (booked : Booked z s) (validAfter : Option Int) {s' : HsCaches κ}
    (sub : s'.v3Client.Sublist s.v3Client) : KeepsNewest validAfter s s' := by
  apply keepsNewest_of_find
  intro key e e' before after _
  have again := booked.clientKeys.find_of_mem (sub.subset (find_mem after))
  rw [find_key after, before] at again
  exact (Option.some.inj again).symm

/-- A call that leaves no entry in a cache that was not there keeps what is promised. -/
theorem promised_of_sublists (booked : Booked z s) {s' : HsCaches κ} (booked' : Booked z s')
    (dir : s'.v3Dir.Sublist s.v3Dir) (client : s'.v3Client.Sublist s.v3Client)
    {event : HsCacheEvent κ} {reply : HsCacheReply}
    (delivers : ∀ env, event = .oom env → OomDelivers env s' reply) :
    Promised z ⟨s, (event, reply), s'⟩ :=
  ⟨booked'.accounted, advances_of_sublist booked dir,
    fun validAfter _ => keepsNewest_of_sublist booked validAfter client, delivers⟩

omit [DecidableEq κ] in
theorem cacheClientDescNew_key {encodedDesc : List UInt8} {key : κ} {expirationTs : Int}
    {decoding : HsDecoding κ} {clientDesc : ClientDescriptor κ}
    (made : cacheClientDescNew encodedDesc key expirationTs decoding = some clientDesc) :
    clientDesc.key = key := by
  rw [cacheClientDescNew] at made
  split at made
  next => cases made
  next => rw [← Option.some.inj made]
  next =>
    split at made
    next => cases made
    next => rw [← Option.some.inj made]
  next =>
    split at made
    next => cases made
    next => rw [← Option.some.inj made]

theorem cacheStoreAsClient_v3Dir (validAfter : Option Int) (clientDesc : ClientDescriptor κ)
    (s : HsCaches κ) : (cacheStoreAsClient z validAfter clientDesc s).v3Dir = s.v3Dir := by
  rw [cacheStoreAsClient]
  split
  next => rfl
  next =>
    split
    next =>
      split
      next => rfl
      next => rfl
    next => rfl

theorem hsCacheStoreAsClient_spec (booked : Booked z s) (validAfter : Option Int)
    (encodedDesc : List UInt8) (key : κ) (expirationTs : Int) (decoding : HsDecoding κ) :
    let s' := hsCacheStoreAsClient z validAfter encodedDesc key expirationTs decoding s
    let x : Transition (HsCaches κ) (HsCacheEvent κ × HsCacheReply) :=
      ⟨s, (.storeClient validAfter encodedDesc key expirationTs decoding, .done), s'⟩
    (AvoidsDrift z x → Booked z s' ∧ Promised z x) ∧ (¬ AvoidsDrift z x → ¬ Accounted z s') := by
  intro s' x
  cases made : cacheClientDescNew encodedDesc key expirationTs decoding with
  | none =>
    have same : s' = s := by simp only [s', hsCacheStoreAsClient, made]
    constructor
    · intro _
      simp only [x, same]
      refine ⟨booked, promised_of_sublists booked booked ?_ ?_ fun env other => ?_⟩
      · exact List.Sublist.refl _
      · exact List.Sublist.refl _
      · cases other
    · exact fun bad => absurd (fun given => absurd made given) bad
  | some clientDesc =>
    have stored : s' = cacheStoreAsClient z validAfter clientDesc s := by
      simp only [s', hsCacheStoreAsClient, made]
    obtain ⟨good, bad⟩ := cacheStoreAsClient_spec booked validAfter clientDesc
    rw [cacheClientDescNew_key made, ← stored] at good bad
    have given : cacheClientDescNew encodedDesc key expirationTs decoding ≠ none := by
      rw [made]
      exact Option.some_ne_none _
    constructor
    · intro avoids
      obtain ⟨booked', newest⟩ := good (avoids given)
      have dir : s'.v3Dir = s.v3Dir := stored ▸ cacheStoreAsClient_v3Dir validAfter clientDesc s
      refine ⟨booked', booked'.accounted, advances_of_sublist booked (dir ▸ List.Sublist.refl _),
        ?_, fun env other => by cases other⟩
      rintro other rfl
      exact newest
    · intro drifts
      apply bad
      by_contra fresh
      exact drifts fun _ => fresh

/-- One call on an exact count: what is promised holds where the condition does, and only there. -/
theorem hsCacheStep_spec (booked : Booked z s) (event : HsCacheEvent κ) :
    let x : Transition (HsCaches κ) (HsCacheEvent κ × HsCacheReply) :=
      ⟨s, (event, (hsCacheStep z s event).2), (hsCacheStep z s event).1⟩
    (AvoidsDrift z x → Booked z x.post ∧ Promised z x) ∧ (¬ AvoidsDrift z x → ¬ Promised z x) := by
  intro x
  have smaller : ∀ s' : HsCaches κ, x.post = s' → Booked z s' → s'.v3Dir.Sublist s.v3Dir →
      s'.v3Client.Sublist s.v3Client → (∀ env, event ≠ .oom env) →
      Booked z x.post ∧ Promised z x := by
    rintro s' rfl booked' dir client other
    exact ⟨booked', promised_of_sublists booked booked' dir client
      fun env same => absurd same (other env)⟩
  have whole := List.Sublist.refl s.v3Dir
  have whole' := List.Sublist.refl s.v3Client
  cases event with
  | storeDir desc =>
    refine ⟨fun _ => ?_, fun bad => absurd trivial bad⟩
    cases desc with
    | none => exact smaller s rfl booked whole whole' (fun _ => by simp)
    | some desc =>
      obtain ⟨booked', advances⟩ := cacheStoreV3AsDir_booked booked desc
      have client : (cacheStoreV3AsDir z desc s).v3Client = s.v3Client := by
        rw [cacheStoreV3AsDir]
        split
        next => rfl
        next =>
          split
          next => rfl
          next => rfl
      refine ⟨booked', booked'.accounted, advances, fun validAfter _ => ?_, fun env other => ?_⟩
      · exact keepsNewest_of_sublist booked validAfter (client ▸ List.Sublist.refl _)
      · cases other
  | lookupDir key | lookupClient validAfter key =>
    refine ⟨fun _ => ?_, fun bad => absurd trivial bad⟩
    exact smaller s rfl booked whole whole' (fun _ => by simp)
  | cleanDir now =>
    refine ⟨fun _ => ?_, fun bad => absurd trivial bad⟩
    obtain ⟨s', cleaned, booked', client, dir⟩ := cacheCleanV3AsDir_spec booked now (Int.le_refl 0)
    have post : x.post = s' := by simp only [x, hsCacheStep, cleaned, removing]
    apply smaller s' post booked' (dir ▸ List.filter_sublist) (client ▸ whole')
    exact fun _ => by simp
  | oom env =>
    obtain ⟨works, booked', client, dir⟩ := hsCacheHandleOom_spec env booked
    constructor
    · intro good
      refine ⟨booked', promised_of_sublists booked booked' dir (client ▸ whole') ?_⟩
      intro other same
      cases same
      exact works.mpr good
    · exact fun bad promised => bad (works.mp (promised.delivers env rfl))
  | storeClient validAfter encodedDesc key expirationTs decoding =>
    obtain ⟨good, bad⟩ :=
      hsCacheStoreAsClient_spec booked validAfter encodedDesc key expirationTs decoding
    exact ⟨good, fun drifts promised => bad drifts promised.accounted⟩
  | removeClient validAfter key =>
    refine ⟨fun _ => ?_, fun bad => absurd trivial bad⟩
    cases found : lookupV3DescAsClient validAfter key s with
    | none =>
      have post : x.post = s := by simp only [x, hsCacheStep, hsCacheRemoveAsClient, found]
      exact smaller s post booked whole whole' (fun _ => by simp)
    | some entry =>
      have post : x.post = removeV3DescAsClient z entry s := by
        simp only [x, hsCacheStep, hsCacheRemoveAsClient, found]
      have present := (lookupV3DescAsClient_some.mp found).1
      have booked' := removeV3DescAsClient_booked booked ((find_key present).symm ▸ present)
      apply smaller _ post booked' whole List.eraseP_sublist
      exact fun _ => by simp
  | cleanClient validAfter =>
    refine ⟨fun _ => ?_, fun bad => absurd trivial bad⟩
    obtain ⟨booked', dir, client⟩ :=
      cleanClient_booked booked (cachedClientDescriptorHasExpired validAfter)
    apply smaller _ rfl booked' (dir ▸ whole) (client ▸ List.filter_sublist)
    exact fun _ => by simp
  | purgeClient =>
    refine ⟨fun _ => ?_, fun bad => absurd trivial bad⟩
    obtain ⟨booked', dir, client⟩ := cleanClient_booked booked (fun _ => true)
    apply smaller _ rfl booked' (dir ▸ whole) (client ▸ List.filter_sublist)
    exact fun _ => by simp
  | newAuth validAfter key decoding =>
    obtain ⟨good, bad⟩ := hsCacheClientNewAuthParse_spec booked validAfter key decoding
    constructor
    · intro locked
      exact smaller s (good locked) booked whole whole' (fun _ => by simp)
    · intro drifts promised
      exact bad (not_not.mp drifts) promised.accounted

/-- In every run what is promised holds at each call if and only if each call meets the
condition. -/
theorem hsCacheRun_promised_iff (z : Sizeofs)
    (ts : List (Transition (HsCaches κ) (HsCacheEvent κ × HsCacheReply))) (s : HsCaches κ)
    (run : Run (HsCacheStep z) newHsCaches ts s) :
    (∀ x ∈ ts, Promised z x) ↔ ∀ x ∈ ts, AvoidsDrift z x := by
  have steps : ∀ (s : HsCaches κ) call s', Booked z s → HsCacheStep z s call s' →
      (Promised z ⟨s, call, s'⟩ ↔ AvoidsDrift z ⟨s, call, s'⟩)
        ∧ (AvoidsDrift z ⟨s, call, s'⟩ → Booked z s') := by
    rintro s ⟨event, reply⟩ s' booked taken
    obtain ⟨good, bad⟩ := hsCacheStep_spec booked event
    rw [HsCacheStep] at taken
    rw [taken] at good bad
    refine ⟨⟨fun promised => ?_, fun avoids => (good avoids).2⟩, fun avoids => (good avoids).1⟩
    by_contra drifts
    exact bad drifts promised
  apply run.sound_iff_good (newHsCaches_booked z)
  · exact fun s call s' booked step => (steps s call s' booked step).1
  · exact fun s call s' booked step => (steps s call s' booked step).2

/-! ## A descriptor that is decrypted late -/

def onionSizeofs : Sizeofs := ⟨88, 64, 48, 120, 96, 8, 200, 32, by decide, by decide⟩

/-- The descriptor of a service, which has two introduction points. -/
def onionDescriptor : HsDescriptor Nat := ⟨⟨9, 1, 10800, 5⟩, none, some 2⟩

/-- It is fetched before its key is known. -/
def lockedStore : HsCacheEvent Nat :=
  .storeClient (some 100) [1, 2, 3] 7 200 ⟨.needClientAuth, none, by simp⟩

def lockedCaches : HsCaches Nat := ⟨[], [⟨7, 200, none, [1, 2, 3]⟩], ⟨123, false⟩⟩

def unlockedCaches : HsCaches Nat :=
  ⟨[], [⟨7, 200, some onionDescriptor, [1, 2, 3]⟩], ⟨123, false⟩⟩

def unlockSteps : List (Transition (HsCaches Nat) (HsCacheEvent Nat × HsCacheReply)) :=
  [⟨newHsCaches, (lockedStore, .done), lockedCaches⟩,
    ⟨lockedCaches, (.newAuth (some 100) 7 ⟨.ok, some onionDescriptor, by simp⟩, .done),
      unlockedCaches⟩,
    ⟨unlockedCaches, (.purgeClient, .removed 768), ⟨[], [], ⟨0, true⟩⟩⟩]

theorem unlockRun : Run (HsCacheStep onionSizeofs) newHsCaches unlockSteps ⟨[], [], ⟨0, true⟩⟩ := by
  have stored : HsCacheStep onionSizeofs newHsCaches (lockedStore, .done) lockedCaches := by decide
  have unlocked : HsCacheStep onionSizeofs lockedCaches
      (.newAuth (some 100) 7 ⟨.ok, some onionDescriptor, by simp⟩, .done) unlockedCaches := by decide
  have purged : HsCacheStep onionSizeofs unlockedCaches (.purgeClient, .removed 768)
      ⟨[], [], ⟨0, true⟩⟩ := by decide
  exact ((Run.single stored).snoc unlocked).snoc purged

theorem hsCacheRun_promised_iff_unlock :
    (∀ x ∈ unlockSteps, Promised onionSizeofs x) ↔ ∀ x ∈ unlockSteps, AvoidsDrift onionSizeofs x :=
  hsCacheRun_promised_iff onionSizeofs _ _ unlockRun

/-- Its size is subtracted without having been added. -/
theorem hsCacheRun_promised_drift :
    ¬ ∀ (z : Sizeofs) (ts : List (Transition (HsCaches Nat) (HsCacheEvent Nat × HsCacheReply))) s,
      Run (HsCacheStep z) newHsCaches ts s → ∀ x ∈ ts, Promised z x := by
  intro always
  have promised := always onionSizeofs _ _ unlockRun _
    (List.mem_cons_of_mem _ (List.mem_cons_of_mem _ List.mem_cons_self))
  have underflowed := promised.accounted.2
  revert underflowed
  decide

end RendezMix.Guarantees.HsCacheAccounts
