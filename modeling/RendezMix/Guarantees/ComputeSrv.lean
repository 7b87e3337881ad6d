import RendezMix.Source.SharedRandom

/-!
# The shared random value of a protocol run

The value hashes the reveals in the order of their hashes. Where two
authorities revealed the same, the order of their fingerprints in front of it
is that of the map, or of the sorting function.
-/
namespace RendezMix.Guarantees.ComputeSrv
open Library.ByteStrings Library.Sorting Source

variable {known : Bytes 20 → Bool} {commits commits' : List SrCommit}

/-- The commits whose reveals are hashed. -/
def revealed (known : Bytes 20 → Bool) (commits : List SrCommit) : List SrCommit :=
  (recognizedCommits known commits).filter commitHasRevealValue

/-- The text that is hashed for commits in this order. -/
def elementOf (commit : SrCommit) : List UInt8 := commit.rsaIdentityHex ++ commit.encodedReveal

section

variable (l : List SrCommit) (qsort : Sorter compareReveal)

theorem filterMap_elements :
    l.filterMap getSrvElementFromCommit = (l.filter commitHasRevealValue).map elementOf := by
  induction l with
  | nil => rfl
  | cons commit l ih =>
    rw [List.filterMap_cons, List.filter_cons, getSrvElementFromCommit, ih]
    split
    · next dropped =>
      split at dropped
      · cases dropped
      · next bare => rw [if_neg bare]
    · next element kept =>
      split at kept
      · next reveals =>
        cases kept
        rw [if_pos reveals]
        rfl
      · cases kept

theorem compareReveal_eq (c d : SrCommit) :
    compareReveal c d = .eq ↔ c.hashedReveal = d.hashedReveal := by
  rw [compareReveal, compareOn, Std.compare_eq_iff_eq, Subtype.val_inj]

/-- What is hashed is the revealed commits, sorted. -/
def ordering (qsort : Sorter compareReveal) (known : Bytes 20 → Bool) (commits : List SrCommit) :
    List SrCommit :=
  (qsort.sort (recognizedCommits known commits)).filter commitHasRevealValue

theorem srComputeSrv_eq (digest256 : List UInt8 → Bytes 32)
    (valid : ∀ c ∈ commits, c.valid = true) (previousSrv : Option SrSrv) :
    srComputeSrv qsort digest256 known commits previousSrv
      = some (generateSrv digest256 (digest256 ((ordering qsort known commits).map elementOf).flatten)
        (UInt64.ofNat (ordering qsort known commits).length) previousSrv) := by
  simp only [srComputeSrv, if_pos (List.all_eq_true.mpr valid), filterMap_elements,
    List.length_map, ordering]

theorem ordering_perm : (ordering qsort known commits).Perm (revealed known commits) :=
  (qsort.perm _).filter _

theorem revealed_perm (perm : commits'.Perm commits) :
    (revealed known commits').Perm (revealed known commits) :=
  (perm.filter _).filter _

/-- No two revealed commits have the same hash. -/
def Apart (known : Bytes 20 → Bool) (commits : List SrCommit) : Prop :=
  ∀ c ∈ revealed known commits, ∀ d ∈ revealed known commits,
    c.hashedReveal = d.hashedReveal → c = d

theorem Apart.ordering (apart : Apart known commits) (perm : commits'.Perm commits)
    (qsort qsort' : Sorter compareReveal) :
    ordering qsort' known commits' = ordering qsort known commits := by
  have same : (ComputeSrv.ordering qsort' known commits').Perm
      (ComputeSrv.ordering qsort known commits) :=
    ((ordering_perm qsort').trans (revealed_perm perm)).trans (ordering_perm qsort).symm
  apply List.Perm.eq_of_pairwise _ ((qsort'.ordered _).filter _) ((qsort.ordered _).filter _) same
  intro c d first second le ge
  have inside := (revealed_perm perm).mem_iff.mp ((ordering_perm qsort').mem_iff.mp first)
  have other := (ordering_perm qsort).mem_iff.mp second
  exact apart c inside d other
    ((compareReveal_eq c d).mp (Std.OrientedCmp.isLE_antisymm le ge))

/-! ## An order that shows -/

theorem rsaIdentityHex_length (commit : SrCommit) : commit.rsaIdentityHex.length = 40 := by
  rw [SrCommit.rsaIdentityHex, base16Encode_length, commit.rsaIdentity.property]

theorem rsaIdentityHex_inj {c d : SrCommit} (same : c.rsaIdentityHex = d.rsaIdentityHex) :
    c.rsaIdentity = d.rsaIdentity :=
  Subtype.ext (base16Encode_injective same)

theorem elements_inj {l l' : List SrCommit}
    (apart : ∀ c ∈ l, ∀ d ∈ l', c.rsaIdentity = d.rsaIdentity → c = d)
    (same : (l.map elementOf).flatten = (l'.map elementOf).flatten) : l = l' := by
  have nonempty (c : SrCommit) (rest : List UInt8) : elementOf c ++ rest ≠ [] := by
    intro empty
    have length := congrArg List.length empty
    rw [List.length_append, elementOf, List.length_append, rsaIdentityHex_length] at length
    simp at length
  induction l generalizing l' with
  | nil =>
    cases l' with
    | nil => rfl
    | cons d l' => exact absurd same.symm (nonempty d _)
  | cons c l ih =>
    cases l' with
    | nil => exact absurd same (nonempty c _)
    | cons d l' =>
      simp only [List.map_cons, List.flatten_cons, elementOf, List.append_assoc] at same
      have fingerprints := List.append_inj_left same
        ((rsaIdentityHex_length c).trans (rsaIdentityHex_length d).symm)
      have equal := apart c List.mem_cons_self d List.mem_cons_self (rsaIdentityHex_inj fingerprints)
      rw [equal, List.append_cancel_left_eq, List.append_cancel_left_eq] at same
      rw [equal, ih (fun c first d second => apart c (List.mem_cons_of_mem _ first) d
        (List.mem_cons_of_mem _ second)) same]

/-- A hash that repeats the hashed reveals, and tells one text from all others. -/
def echo (text : List UInt8) (bytes : List UInt8) : Bytes 32 :=
  if bytes.take 13 = srSrvToken then fit 32 (bytes.drop 25)
  else if bytes = text then fit 32 [1] else fit 32 [0]

theorem echo_generateSrv (text : List UInt8) (hashed : Bytes 32) (n : UInt64)
    (previousSrv : Option SrSrv) :
    (generateSrv (echo text) hashed n previousSrv).value = hashed := by
  have token : srSrvToken.length = 13 := rfl
  have front : (srSrvToken ++ (bigEndian 8 n.toNat ++ bigEndian 4 srProtoVersion)).length = 25 := by
    rw [List.length_append, List.length_append, bigEndian_length, bigEndian_length, token]
  rw [generateSrv, echo]
  simp only
  rw [if_pos (List.take_left' token), ← List.append_assoc (bigEndian 8 _), ← List.append_assoc,
    List.drop_left' front]
  apply Subtype.ext
  rw [fit_append 32 _ _ (le_of_eq hashed.property)]
  have none : (fit (32 - hashed.val.length)
      (previousSrv.elim (List.replicate 32 0) fun srv => srv.value.val)).val = [] := by
    apply List.eq_nil_of_length_eq_zero
    rw [(fit _ _).property, hashed.property]
  rw [none, List.append_nil]

theorem elements_take_ne_token : (l.map elementOf).flatten.take 13 ≠ srSrvToken := by
  intro same
  cases l with
  | nil => cases same
  | cons c l =>
    have head := congrArg List.head? same
    obtain ⟨byte, rest, bytes⟩ : ∃ byte rest, c.rsaIdentity.val = byte :: rest := by
      apply List.exists_cons_of_length_pos
      rw [c.rsaIdentity.property]
      decide
    have digit : ∀ d < 16, hexDigits.getD d 0 ≠ 115 := by decide
    have letter : srSrvToken.head? = some 115 := rfl
    rw [letter] at head
    simp only [List.map_cons, List.flatten_cons, elementOf, SrCommit.rsaIdentityHex, base16Encode,
      bytes, List.flatMap_cons, List.cons_append, List.take_succ_cons, List.head?_cons,
      Option.some.injEq] at head
    have small := byte.toNat_lt
    exact digit _ (by omega) head

end

theorem ordering_filter (commits : List SrCommit) (hash : Bytes 32) :
    (ordering (insertionSorter compareReveal) known commits).filter (fun c => c.hashedReveal = hash)
      = (revealed known commits).filter fun c => c.hashedReveal = hash := by
  rw [ordering, revealed, List.filter_filter, List.filter_filter]
  apply insertionSorter_filter
  intro a _ b _ left right
  rw [Bool.and_eq_true, decide_eq_true_eq] at left right
  rw [compareReveal_eq, left.1, right.1]

theorem mem_of_mem_revealed {c : SrCommit} (member : c ∈ revealed known commits) : c ∈ commits :=
  List.mem_of_mem_filter (List.mem_of_mem_filter member)

theorem ordering_head {c : SrCommit} (rest : List SrCommit)
    (first : known c.rsaIdentity = true ∧ commitHasRevealValue c = true) :
    ((ordering (insertionSorter compareReveal) known (c :: rest)).filter fun x =>
      x.hashedReveal = c.hashedReveal).head? = some c := by
  rw [ordering_filter, revealed, recognizedCommits]
  simp only [List.filter_cons, first.1, first.2, if_true, decide_true]
  rfl

/-! ## The condition -/

/-- The value is a function of the set of commits and the previous value. -/
def Canonical (known : Bytes 20 → Bool) (commits : List SrCommit) : Prop :=
  ∀ (digest256 : List UInt8 → Bytes 32) (previousSrv : Option SrSrv)
    (qsort qsort' : Sorter compareReveal) (commits' : List SrCommit), commits'.Perm commits →
      srComputeSrv qsort' digest256 known commits' previousSrv
        = srComputeSrv qsort digest256 known commits previousSrv

theorem Apart.canonical (apart : Apart known commits) (valid : ∀ c ∈ commits, c.valid = true) :
    Canonical known commits := by
  intro digest256 previousSrv qsort qsort' commits' perm
  rw [srComputeSrv_eq qsort digest256 valid,
    srComputeSrv_eq qsort' digest256 (fun c member => valid c (perm.mem_iff.mp member)),
    apart.ordering perm qsort qsort']

theorem Canonical.ordering (canonical : Canonical known commits)
    (valid : ∀ c ∈ commits, c.valid = true) (distinct : (commits.map (·.rsaIdentity)).Nodup)
    (perm : commits'.Perm commits) (qsort : Sorter compareReveal) :
    ordering qsort known commits' = ordering qsort known commits := by
  have valid' : ∀ c ∈ commits', c.valid = true := fun c member => valid c (perm.mem_iff.mp member)
  have same := canonical
    (echo ((ComputeSrv.ordering qsort known commits').map elementOf).flatten) none qsort qsort _ perm
  rw [srComputeSrv_eq qsort _ valid, srComputeSrv_eq qsort _ valid', Option.some.injEq] at same
  have value := congrArg SrSrv.value same
  rw [echo_generateSrv, echo_generateSrv, echo, echo, if_neg (elements_take_ne_token _),
    if_neg (elements_take_ne_token _), if_pos rfl] at value
  split at value
  · next text =>
    refine (elements_inj ?_ text).symm
    intro c first d second identity
    have inside := mem_of_mem_revealed ((ordering_perm qsort).mem_iff.mp first)
    have other := mem_of_mem_revealed ((ordering_perm qsort).mem_iff.mp second)
    exact List.inj_on_of_nodup_map distinct inside (perm.mem_iff.mp other) identity
  · cases value

/-- The value is a function of the set of valid commits exactly when no two of the reveals that are
hashed have the same hash. -/
theorem srv_canonical_iff (valid : ∀ c ∈ commits, c.valid = true)
    (distinct : (commits.map (·.rsaIdentity)).Nodup) :
    Canonical known commits ↔ Apart known commits := by
  constructor
  · intro canonical c first d second same
    by_contra different
    have inside := mem_of_mem_revealed first
    have other := mem_of_mem_revealed second
    simp only [revealed, recognizedCommits, List.mem_filter] at first second
    have perm : commits.Perm (c :: d :: (commits.erase c).erase d) :=
      (List.perm_cons_erase inside).trans
        ((List.perm_cons_erase ((List.mem_erase_of_ne (Ne.symm different)).mpr other)).cons c)
    have perm' : commits.Perm (d :: c :: (commits.erase c).erase d) :=
      perm.trans (List.Perm.swap _ _ _)
    have texts := (canonical.ordering valid distinct perm.symm (insertionSorter _)).trans
      (canonical.ordering valid distinct perm'.symm (insertionSorter _)).symm
    have left := ordering_head (d :: (commits.erase c).erase d) ⟨first.1.2, first.2⟩
    have right := ordering_head (c :: (commits.erase c).erase d) ⟨second.1.2, second.2⟩
    rw [texts, same, right, Option.some.injEq] at left
    exact different left.symm
  · intro apart
    exact apart.canonical valid

/-! ## A copied commitment -/

/-- The commit of an authority, whose first byte is given, and a reveal of 56 letters. -/
def copiedCommit (byte : UInt8) : SrCommit where
  alg := srDigestAlg
  valid := true
  rsaIdentity := fit 20 [byte]
  revealTs := 0
  hashedReveal := ⟨List.replicate 32 65, by decide⟩
  encodedCommit := List.replicate 56 66
  randomNumber := fit 32 []
  commitTs := 0
  encodedReveal := List.replicate 56 65

def cutOff (bytes : List UInt8) : Bytes 32 := fit 32 bytes

/-- The reveals of two authorities that did not copy each other. -/
theorem srv_canonical_iff_apart : Canonical (fun _ => true)
    [copiedCommit 1, { copiedCommit 2 with hashedReveal := fit 32 [1] }] := by
  apply (srv_canonical_iff (by decide) (by decide)).mpr
  unfold Apart
  decide +kernel

/-- An authority copied the commitment and the reveal of another one. -/
theorem srv_not_canonical :
    ¬∀ (known : Bytes 20 → Bool) (commits : List SrCommit),
      (∀ c ∈ commits, c.valid = true ∧ verifyCommitAndReveal cutOff c = true) →
      (commits.map (·.rsaIdentity)).Nodup →
      ∀ (previousSrv : Option SrSrv) (qsort qsort' : Sorter compareReveal)
        (commits' : List SrCommit), commits'.Perm commits →
        srComputeSrv qsort' cutOff known commits' previousSrv
          = srComputeSrv qsort cutOff known commits previousSrv := by
  intro claim
  have same := claim (fun _ => true) [copiedCommit 1, copiedCommit 2] (by decide +kernel) (by decide) none
    (insertionSorter _) (insertionSorter _) [copiedCommit 2, copiedCommit 1] (List.Perm.swap _ _ _)
  exact absurd same (by decide +kernel)

end RendezMix.Guarantees.ComputeSrv
