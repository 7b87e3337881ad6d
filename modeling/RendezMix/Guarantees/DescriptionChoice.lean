import RendezMix.Source.RouterStatus

/-!
# The description that wins

`compare_vote_rs` is an order of the entries for a router in which two entries are equal
when they agree on everything that it looks at. The loop of
`compute_routerstatus_consensus` over the sorted entries finds the description listed most
often, of several the one published last, and of these the first in the order.
-/
namespace RendezMix.Guarantees
open Source Library.ByteStrings Library.Sorting
open Std (TransCmp OrientedCmp ReflCmp)

/-! ## The comparison of entries -/

theorem cmpField_eq (bits : Nat) (aval bval : Int) (low : -(2 ^ bits : Int) ≤ 2 * (bval - aval))
    (high : 2 * (bval - aval) < 2 ^ bits) : cmpField bits aval bval = compare bval aval := by
  have whole : Int.bmod (bval - aval) (2 ^ bits) = bval - aval := by
    apply Int.bmod_eq_of_le_mul_two
    · push_cast
      omega
    · push_cast
      omega
  unfold cmpField
  rw [whole]
  rcases lt_trichotomy bval aval with less | equal | more
  · rw [if_pos (by omega), compare_lt_iff_lt.mpr less]
  · rw [if_neg (by omega), if_neg (by omega), Std.compare_eq_iff_eq.mpr equal]
  · rw [if_neg (by omega), if_pos (by omega), compare_gt_iff_gt.mpr more]

theorem cmpField_time (a b : Time) : cmpField 64 a.val b.val = compare b.val a.val := by
  obtain ⟨a, lowA, highA⟩ := a
  obtain ⟨b, lowB, highB⟩ := b
  apply cmpField_eq
  · simp only
    omega
  · simp only
    omega

theorem cmpField_port (a b : UInt16) : cmpField 32 a.toNat b.toNat = compare b.toNat a.toNat := by
  have lowA := a.toNat_lt
  have lowB := b.toNat_lt
  rw [cmpField_eq 32 a.toNat b.toNat (by omega) (by omega)]
  rcases lt_trichotomy b.toNat a.toNat with less | equal | more
  · rw [compare_lt_iff_lt.mpr less, compare_lt_iff_lt.mpr (by omega)]
  · rw [equal, Std.compare_eq_iff_eq.mpr rfl, Std.compare_eq_iff_eq.mpr rfl]
  · rw [compare_gt_iff_gt.mpr more, compare_gt_iff_gt.mpr (by omega)]

theorem orderingOf_tristate (a b : Nat) : orderingOf (tristate a b) = compare a b := by
  unfold tristate
  rcases lt_trichotomy a b with less | equal | more
  · rw [if_pos less, compare_lt_iff_lt.mpr less]
    rfl
  · rw [if_neg (by omega), if_pos equal, Std.compare_eq_iff_eq.mpr equal]
    rfl
  · rw [if_neg (by omega), if_neg (by omega), compare_gt_iff_gt.mpr more]
    rfl

theorem compare_ipv4 (a b : UInt32) :
    orderingOf (torAddrCompare (.inet a) (.inet b) .exact) = compare a.toNat b.toNat := by
  have whole : torAddrCompare (.inet a) (.inet b) .exact = tristate a.toNat b.toNat := rfl
  rw [whole, orderingOf_tristate]

/-- The comparison as one comparison after the other. -/
def lexVoteRs : VoteRs → VoteRs → Ordering :=
  compareLex (compareOn fun rs => rs.identityDigest.val) <|
  compareLex (compareOn fun rs => rs.claim.descriptorDigest.val) <|
  compareLex (fun a b => compareOn (fun rs : VoteRs => rs.claim.publishedOn.val) b a) <|
  compareLex (fun a b => compareOn (fun rs : VoteRs => rs.claim.nickname) b a) <|
  compareLex (compareOn fun rs => rs.claim.ipv4Addr.toNat) <|
  compareLex (fun a b => compareOn (fun rs : VoteRs => rs.claim.ipv4Orport.toNat) b a)
    (fun a b => compareOn (fun rs : VoteRs => rs.claim.ipv4Dirport.toNat) b a)

theorem compareVoteRs_eq_lex : compareVoteRs = lexVoteRs := by
  funext a b
  unfold compareVoteRs
  rw [cmpField_time, compare_ipv4, cmpField_port, cmpField_port]
  rfl

instance : TransCmp compareVoteRs := by
  rw [compareVoteRs_eq_lex]
  have published : TransCmp fun a b => compareOn (fun rs : VoteRs => rs.claim.publishedOn.val) b a :=
    TransCmp.opposite
  have nickname : TransCmp fun a b => compareOn (fun rs : VoteRs => rs.claim.nickname) b a :=
    TransCmp.opposite
  have orport : TransCmp fun a b => compareOn (fun rs : VoteRs => rs.claim.ipv4Orport.toNat) b a :=
    TransCmp.opposite
  have dirport : TransCmp fun a b => compareOn (fun rs : VoteRs => rs.claim.ipv4Dirport.toNat) b a :=
    TransCmp.opposite
  exact inferInstanceAs (TransCmp (compareLex _ _))

/-- Entries with one description: they agree on everything that the comparison looks at. -/
def SameDescription (a b : VoteRs) : Prop :=
  a.identityDigest = b.identityDigest ∧ a.claim.descriptorDigest = b.claim.descriptorDigest
    ∧ a.claim.publishedOn = b.claim.publishedOn ∧ a.claim.nickname = b.claim.nickname
    ∧ a.claim.ipv4Addr = b.claim.ipv4Addr ∧ a.claim.ipv4Orport = b.claim.ipv4Orport
    ∧ a.claim.ipv4Dirport = b.claim.ipv4Dirport

theorem compareVoteRs_eq (a b : VoteRs) : compareVoteRs a b = .eq ↔ SameDescription a b := by
  rw [compareVoteRs_eq_lex]
  unfold lexVoteRs SameDescription
  simp only [compareLex, compareOn, Ordering.then_eq_eq, Std.compare_eq_iff_eq, Subtype.val_inj,
    UInt32.toNat_inj, UInt16.toNat_inj]
  constructor
  · rintro ⟨h1, h2, h3, h4, h5, h6, h7⟩
    exact ⟨h1, h2, h3.symm, h4.symm, h5, h6.symm, h7.symm⟩
  · rintro ⟨h1, h2, h3, h4, h5, h6, h7⟩
    exact ⟨h1, h2, h3.symm, h4.symm, h5, h6.symm, h7.symm⟩

theorem compareVoteRs_digest {a b : VoteRs} (le : (compareVoteRs a b).isLE = true)
    (identity : a.identityDigest = b.identityDigest) :
    (compareDigests a.claim.descriptorDigest b.claim.descriptorDigest).isLE = true := by
  rw [compareVoteRs_eq_lex, lexVoteRs, compareLex, Ordering.isLE_then_iff_and] at le
  have equal : compareOn (fun rs : VoteRs => rs.identityDigest.val) a b = .eq := by
    rw [compareOn, Std.compare_eq_iff_eq, identity]
  rw [equal] at le
  have rest := le.2.resolve_left (by decide)
  rw [compareLex, Ordering.isLE_then_iff_and] at rest
  exact rest.1

/-! ## The comparison of OR ports -/

theorem orderingOf_sub (a b : Nat) : orderingOf ((a : Int) - b) = compare a b := by
  unfold orderingOf
  rcases lt_trichotomy a b with less | equal | more
  · rw [compare_lt_iff_lt.mpr less, compare_lt_iff_lt.mpr (by omega)]
  · rw [Std.compare_eq_iff_eq.mpr equal, Std.compare_eq_iff_eq.mpr (by omega)]
  · rw [compare_gt_iff_gt.mpr more, compare_gt_iff_gt.mpr (by omega)]

theorem compare_toNat (x y : UInt8) : compare x y = compare x.toNat y.toNat := by
  simp [compare, compareOfLessAndEq, UInt8.lt_iff_toNat_lt, ← UInt8.toNat_inj]

theorem orderingOf_torMemcmp (a b : List UInt8) (length : a.length = b.length) :
    orderingOf (torMemcmp a b) = compare a b := by
  induction a generalizing b with
  | nil =>
    cases b with
    | nil => rfl
    | cons => cases length
  | cons x a ih =>
    cases b with
    | nil => cases length
    | cons y b =>
      have cons : compare (x :: a) (y :: b) = (compare x y).then (compare a b) :=
        List.compareLex_cons_cons
      rw [torMemcmp, cons]
      split
      next same =>
        rw [ih b (by simpa using length), Std.compare_eq_iff_eq.mpr same]
        rfl
      next differ =>
        rw [orderingOf_sub, ← compare_toNat]
        cases order : compare x y with
        | eq => exact absurd (Std.compare_eq_iff_eq.mp order) differ
        | lt => rfl
        | gt => rfl

theorem compare_ipv6 (a b : Bytes 16) :
    orderingOf (torAddrCompare (.inet6 a) (.inet6 b) .exact) = compare a.val b.val := by
  have whole : torAddrCompare (.inet6 a) (.inet6 b) .exact = compareMaskedIpv6 a.val b.val 128 := rfl
  have first : a.val.take 16 = a.val := List.take_of_length_le (le_of_eq a.2)
  have second : b.val.take 16 = b.val := List.take_of_length_le (le_of_eq b.2)
  rw [whole, ← orderingOf_torMemcmp a.val b.val (a.2.trans b.2.symm)]
  unfold compareMaskedIpv6
  simp only [gt_iff_lt, lt_irrefl, if_false, Nat.reduceDiv, Nat.reduceMod, first, second, ne_eq,
    not_true_eq_false, OfNat.ofNat_ne_zero, not_false_eq_true, true_and]
  split
  next => rfl
  next same => rw [not_not.mp same]

theorem compareOrports_eq_lex : compareOrports =
    compareLex (compareOn fun orport => orport.1.val)
      (fun a b => compareOn (fun orport : Ipv6Orport => orport.2.toNat) b a) := by
  funext a b
  unfold compareOrports
  rw [compare_ipv6, orderingOf_sub]
  rfl

instance : TransCmp compareOrports := by
  rw [compareOrports_eq_lex]
  have port : TransCmp fun a b => compareOn (fun orport : Ipv6Orport => orport.2.toNat) b a :=
    TransCmp.opposite
  exact inferInstanceAs (TransCmp (compareLex _ _))

theorem compareOrports_eq (a b : Ipv6Orport) : compareOrports a b = .eq ↔ a = b := by
  rw [compareOrports_eq_lex, compareLex, Ordering.then_eq_eq, compareOn, compareOn,
    Std.compare_eq_iff_eq, Std.compare_eq_iff_eq, Subtype.val_inj, UInt16.toNat_inj, Prod.ext_iff]
  exact and_congr_right fun _ => eq_comm

/-! ## The loop -/

def published (rs : VoteRs) : Int := rs.claim.publishedOn.val

/-- The entry `m` is at least as good as `b`: listed more often, or as often and published
later, or then not after it in the order. -/
def AtLeast (sl : List VoteRs) (m b : VoteRs) : Prop :=
  tally compareVoteRs sl b < tally compareVoteRs sl m
    ∨ (tally compareVoteRs sl b = tally compareVoteRs sl m
      ∧ (published b < published m
        ∨ (published b = published m ∧ (compareVoteRs m b).isLE = true)))

/-- Among the entries with a property this one is the best. -/
structure BestOf (sl : List VoteRs) (among : VoteRs → Prop) (m : VoteRs) (n : Nat) (time : Int) :
    Prop where
  member : m ∈ sl
  count : n = tally compareVoteRs sl m
  time : time = published m
  best : ∀ b ∈ sl, among b → AtLeast sl m b

/-- What the loop holds after a sorted list whose last run is the run of `c`. -/
structure MostScanned (sl : List VoteRs) (s : MostScan) (c : VoteRs) : Prop where
  cur : s.cur = some c
  member : c ∈ sl
  count : s.curN = tally compareVoteRs sl c
  last : ∀ b ∈ sl, (compareVoteRs b c).isLE = true
  noBest : s.most = none → s.mostN = 0 ∧ ∀ b ∈ sl, compareVoteRs b c ≠ .lt
  best : ∀ m, s.most = some m → compareVoteRs m c = .lt
    ∧ BestOf sl (fun b => compareVoteRs b c = .lt) m s.mostN s.mostPublished

variable {sl : List VoteRs} {s : MostScan} {c x : VoteRs}

theorem published_congr {a b : VoteRs} (equal : compareVoteRs a b = .eq) :
    published a = published b := by
  rw [published, published, ((compareVoteRs_eq a b).mp equal).2.2.1]

theorem atLeast_self {b : VoteRs} (equal : compareVoteRs b c = .eq) : AtLeast sl c b := by
  refine Or.inr ⟨tally_congr equal, Or.inr ⟨published_congr equal, ?_⟩⟩
  rw [OrientedCmp.eq_symm equal]
  rfl

/-- The run that ends is compared with the best one before it. -/
theorem MostScanned.settle (scanned : MostScanned sl s c) :
    ∃ m, s.settle.most = some m
      ∧ BestOf sl (fun _ => True) m s.settle.mostN s.settle.mostPublished := by
  have split (b : VoteRs) (member : b ∈ sl) : compareVoteRs b c = .lt ∨ compareVoteRs b c = .eq := by
    have le := scanned.last b member
    rwa [Ordering.isLE_iff_eq_lt_or_eq_eq] at le
  have positive : 0 < s.curN := by
    rw [scanned.count]
    exact tally_pos_of_mem scanned.member
  unfold MostScan.settle
  rw [scanned.cur]
  simp only
  cases most : s.most with
  | none =>
    obtain ⟨zero, first⟩ := scanned.noBest most
    rw [if_pos (by omega)]
    refine ⟨c, rfl, scanned.member, scanned.count, rfl, ?_⟩
    intro b member _
    exact atLeast_self ((split b member).resolve_left (first b member))
  | some m =>
    obtain ⟨less, best⟩ := scanned.best m most
    split
    next wins =>
      refine ⟨c, rfl, scanned.member, scanned.count, rfl, ?_⟩
      intro b member _
      cases split b member with
      | inr equal => exact atLeast_self equal
      | inl lt =>
        rw [scanned.count, best.count, best.time] at wins
        have strictly : tally compareVoteRs sl b < tally compareVoteRs sl c
            ∨ (tally compareVoteRs sl b = tally compareVoteRs sl c ∧ published b < published c) := by
          unfold published at wins ⊢
          rcases best.best b member lt with fewer | ⟨count, earlier | ⟨time, _⟩⟩
          · omega
          · unfold published at earlier
            omega
          · unfold published at time
            omega
        exact strictly.imp_right fun tie => ⟨tie.1, Or.inl tie.2⟩
    next loses =>
      refine ⟨m, most, best.member, best.count, best.time, ?_⟩
      intro b member _
      cases split b member with
      | inl lt => exact best.best b member lt
      | inr equal =>
        rw [scanned.count, best.count, best.time] at loses
        have count : tally compareVoteRs sl b = tally compareVoteRs sl c := tally_congr equal
        have time := published_congr equal
        have order : (compareVoteRs m b).isLE = true := by
          rw [TransCmp.lt_of_lt_of_eq less (OrientedCmp.eq_symm equal)]
          rfl
        have notBetter : ¬ (tally compareVoteRs sl b > tally compareVoteRs sl m
            ∨ (tally compareVoteRs sl b = tally compareVoteRs sl m ∧ published b > published m)) := by
          rw [count, time]
          exact loses
        by_cases fewer : tally compareVoteRs sl b < tally compareVoteRs sl m
        · exact Or.inl fewer
        · by_cases earlier : published b < published m
          · exact Or.inr ⟨by omega, Or.inl earlier⟩
          · exact Or.inr ⟨by omega, Or.inr ⟨by omega, order⟩⟩

theorem AtLeast.congr {sl sl' : List VoteRs} {m b : VoteRs} (atLeast : AtLeast sl m b)
    (first : tally compareVoteRs sl' m = tally compareVoteRs sl m)
    (second : tally compareVoteRs sl' b = tally compareVoteRs sl b) : AtLeast sl' m b := by
  unfold AtLeast at atLeast ⊢
  rwa [first, second]

section

variable (scanned : MostScanned sl s c)

include scanned

theorem MostScanned.item_eq (equal : compareVoteRs c x = .eq) :
    MostScanned (sl ++ [x]) (s.item x) c := by
  have less (b : VoteRs) (lt : compareVoteRs b c = .lt) :
      tally compareVoteRs (sl ++ [x]) b = tally compareVoteRs sl b := by
    rw [tally_concat, TransCmp.lt_of_lt_of_eq lt equal]
    simp
  have before (b : VoteRs) (member : b ∈ sl ++ [x]) (lt : compareVoteRs b c = .lt) : b ∈ sl := by
    rcases List.mem_append.mp member with inside | last
    · exact inside
    · rw [List.mem_singleton.mp last, OrientedCmp.eq_symm equal] at lt
      cases lt
  simp only [MostScan.item, scanned.cur, if_pos equal]
  constructor
  · rfl
  · exact List.mem_append_left _ scanned.member
  · rw [tally_concat, if_pos equal, ← scanned.count]
  · intro b member
    rcases List.mem_append.mp member with inside | last
    · exact scanned.last b inside
    · rw [List.mem_singleton.mp last, OrientedCmp.eq_symm equal]
      rfl
  · intro none
    have held := scanned.noBest none
    exact ⟨held.1, fun b member lt => held.2 b (before b member lt) lt⟩
  · intro m some
    obtain ⟨lt, best⟩ := scanned.best m some
    refine ⟨lt, List.mem_append_left _ best.member, ?_, best.time, ?_⟩
    · rw [less m lt]
      exact best.count
    · intro b member among
      exact (best.best b (before b member among) among).congr (less m lt) (less b among)

theorem MostScanned.item_lt (more : compareVoteRs c x = .lt) :
    MostScanned (sl ++ [x]) (s.item x) x := by
  obtain ⟨m, most, best⟩ := scanned.settle
  have self : compareVoteRs x x = .eq := ReflCmp.compare_self
  have less (b : VoteRs) (member : b ∈ sl) : compareVoteRs b x = .lt :=
    TransCmp.lt_of_isLE_of_lt (scanned.last b member) more
  have before (b : VoteRs) (member : b ∈ sl ++ [x]) (lt : compareVoteRs b x = .lt) : b ∈ sl := by
    rcases List.mem_append.mp member with inside | last
    · exact inside
    · rw [List.mem_singleton.mp last, self] at lt
      cases lt
  have same (b : VoteRs) (lt : compareVoteRs b x = .lt) :
      tally compareVoteRs (sl ++ [x]) b = tally compareVoteRs sl b := by
    rw [tally_concat, lt]
    simp
  have other : compareVoteRs c x ≠ .eq := by
    rw [more]
    decide
  simp only [MostScan.item, scanned.cur, if_neg other]
  constructor
  · rfl
  · simp
  · have none : tally compareVoteRs sl x = 0 := by
      rw [tally, List.countP_eq_zero]
      intro b member equal
      rw [decide_eq_true_eq] at equal
      have lt := less b member
      rw [OrientedCmp.eq_symm equal] at lt
      cases lt
    rw [tally_concat, none, if_pos self]
  · intro b member
    rcases List.mem_append.mp member with earlier | last
    · rw [less b earlier]
      rfl
    · rw [List.mem_singleton.mp last, self]
      rfl
  · intro none
    rw [most] at none
    cases none
  · intro m' some
    rw [most, Option.some.injEq] at some
    subst some
    have lt := less m best.member
    refine ⟨lt, List.mem_append_left _ best.member, ?_, best.time, ?_⟩
    · rw [same m lt]
      exact best.count
    · intro b member among
      exact (best.best b (before b member among) trivial).congr (same m lt) (same b among)

end

theorem foldl_item_mostScanned (sl : List VoteRs) (x : VoteRs)
    (ordered : (sl ++ [x]).Pairwise fun a b => (compareVoteRs a b).isLE = true) :
    ∃ c, MostScanned (sl ++ [x]) ((sl ++ [x]).foldl MostScan.item ⟨none, 0, 0, none, 0⟩) c := by
  induction sl using List.reverseRecOn generalizing x with
  | nil =>
    have self : compareVoteRs x x = .eq := ReflCmp.compare_self
    refine ⟨x, rfl, List.mem_singleton_self x, ?_, ?_, ?_, ?_⟩
    · simp [tally, MostScan.item, self]
    · simp [self]
    · simp [MostScan.item, self]
    · simp [MostScan.item]
  | append_singleton sl y ih =>
    rw [List.pairwise_append] at ordered
    obtain ⟨c, scanned⟩ := ih y ordered.1
    rw [List.foldl_concat]
    have le := ordered.2.2 c scanned.member x (List.mem_singleton_self x)
    rcases Ordering.isLE_iff_eq_lt_or_eq_eq.mp le with more | equal
    · exact ⟨x, scanned.item_lt more⟩
    · exact ⟨c, scanned.item_eq equal⟩

theorem tally_perm {sl sl' : List VoteRs} (perm : sl.Perm sl') (a : VoteRs) :
    tally compareVoteRs sl a = tally compareVoteRs sl' a := perm.countP_eq _

theorem mostScan_best (sortVoteRs : Sorter compareVoteRs) {votes : List VoteRs}
    (nonempty : votes ≠ []) :
    ∃ most, ((sortVoteRs.sort votes).foldl MostScan.item ⟨none, 0, 0, none, 0⟩).settle.most
        = some most
      ∧ most ∈ votes ∧ ∀ b ∈ votes, AtLeast votes most b := by
  have perm := sortVoteRs.perm votes
  have some : sortVoteRs.sort votes ≠ [] := fun empty => by
    rw [empty] at perm
    exact nonempty perm.symm.eq_nil
  have ordered := sortVoteRs.ordered votes
  obtain ⟨front, x, split⟩ := (List.eq_nil_or_concat' _).resolve_left some
  rw [split] at ordered perm ⊢
  obtain ⟨c, scanned⟩ := foldl_item_mostScanned front x ordered
  obtain ⟨most, found, best⟩ := scanned.settle
  refine ⟨most, found, perm.mem_iff.mp best.member, ?_⟩
  intro b member
  exact (best.best b (perm.mem_iff.mpr member) trivial).congr
    (tally_perm perm.symm most) (tally_perm perm.symm b)

end RendezMix.Guarantees
