import RendezMix.Source.Versions

/-!
# The order of versions

`tor_version_compare` compares versions field by field, by differences that wrap around. Of parsed
versions only the SVN revisions can be so far apart that one does; on versions whose revisions are
closer the comparison is a total order, `sort_version_list` sorts by it, and
`tor_version_is_obsolete` says how a version stands to those of a list.
-/
namespace RendezMix.Guarantees.VersionOrder
open Library.ByteStrings Library.Decimals Library.Sorting Source Versions
open Std (TransCmp OrientedCmp ReflCmp)

/-! ## What parsing returns -/

/-- A number as `NUMBER` reads it. -/
def IsNumber (n : Int) : Prop := 0 ≤ n ∧ n ≤ Versions.int32Max

/-- The fields of a version that was parsed. -/
structure Parsed (v : TorVersion) : Prop where
  major : IsNumber v.major
  minor : IsNumber v.minor
  micro : IsNumber v.micro
  patchlevel : IsNumber v.patchlevel
  svnRevision : -2 ^ 31 ≤ v.svnRevision ∧ v.svnRevision < 2 ^ 31
  gitTag : ∃ digest : List UInt8, digest.length ≤ 20 ∧ v.gitTagLen = digest.length
    ∧ v.gitTag = fit 20 digest

theorem isNumber_zero : IsNumber 0 := ⟨Int.le_refl 0, by decide⟩

theorem number_isNumber {cp eos : CString} {n : Int} (read : number cp = some (n, eos)) :
    IsNumber n := by
  unfold number at read
  split at read
  · cases read
  · split at read
    · split at read
      · cases read
      · next v rest _ =>
        split at read
        · next small =>
          cases read
          exact ⟨Int.natCast_nonneg v, Int.ofNat_le.mpr small⟩
        · cases read
    · cases read

theorem intOfStrtol_range (s : CString) : -2 ^ 31 ≤ intOfStrtol s ∧ intOfStrtol s < 2 ^ 31 := by
  unfold intOfStrtol
  dsimp only
  split
  · decide
  · next v rest _ =>
    generalize max (-2 ^ 63) (min (2 ^ 63 - 1) _) = r
    have low := @Int.le_bmod r (2 ^ 32) (by decide)
    have high := @Int.bmod_lt r (2 ^ 32) (by decide)
    omega

theorem parsed_cleared : Parsed TorVersion.cleared where
  major := isNumber_zero
  minor := isNumber_zero
  micro := isNumber_zero
  patchlevel := isNumber_zero
  svnRevision := by decide
  gitTag := ⟨[], Nat.zero_le _, rfl, rfl⟩

theorem base16Decode_length {src bytes : List UInt8} (read : base16Decode src = some bytes) :
    2 * bytes.length = src.length := by
  induction src using pairs_induction generalizing bytes with
  | none =>
    cases read
    rfl
  | one => cases read
  | more high low rest ih =>
    rw [base16Decode] at read
    obtain ⟨v1, _, read⟩ := Option.bind_eq_some_iff.mp read
    obtain ⟨v2, _, read⟩ := Option.bind_eq_some_iff.mp read
    obtain ⟨bytes', front, read⟩ := Option.bind_eq_some_iff.mp read
    cases read
    have length := ih front
    simp only [List.length_cons]
    omega

section

variable {out v : TorVersion} {cp : CString}

section

variable (before : Parsed out)

include before

theorem revision_parsed (read : revision out cp = some v) : Parsed v := by
  unfold revision at read
  split at read
  · cases read
    exact { before with svnRevision := intOfStrtol_range _ }
  · split at read
    · split at read
      · dsimp only at read
        split at read
        · cases read
        · next fits =>
          split at read
          · cases read
          · next digest decoded =>
            cases read
            have length := base16Decode_length decoded
            unfold hexDigestLen at fits
            exact { before with gitTag := ⟨digest, by omega, rfl, rfl⟩ }
      · cases read
    · cases read
      exact before

theorem statusTag_parsed (read : statusTag out cp = some v) : Parsed v := by
  apply revision_parsed _ read
  exact { before with }

theorem patchlevel_parsed (read : patchlevel out cp = some v) : Parsed v := by
  unfold patchlevel at read
  split at read
  · cases read
  · next n rest counted =>
    apply statusTag_parsed _ read
    exact { before with patchlevel := number_isNumber counted }

theorem afterMicro_parsed (read : afterMicro out cp = some v) : Parsed v := by
  unfold afterMicro at read
  split at read
  · cases read
    exact before
  split at read
  · exact patchlevel_parsed before read
  split at read
  · exact statusTag_parsed before read
  split at read
  · apply patchlevel_parsed _ read
    exact { before with }
  split at read
  · apply patchlevel_parsed _ read
    exact { before with }
  · cases read

theorem afterMinor_parsed (read : afterMinor out cp = some v) : Parsed v := by
  unfold afterMinor at read
  split at read
  · cases read
    exact before
  split at read
  · exact statusTag_parsed before read
  split at read
  · cases read
  split at read
  · cases read
  · next n rest counted =>
    apply afterMicro_parsed _ read
    exact { before with micro := number_isNumber counted }

end

theorem torVersionParse_parsed {s : CString} (read : torVersionParse s = some v) : Parsed v := by
  unfold torVersionParse at read
  dsimp only at read
  split at read
  · cases read
  next major rest first =>
  split at read
  · cases read
  split at read
  · cases read
  next minor rest' second =>
  apply afterMinor_parsed _ read
  exact { parsed_cleared with
    major := number_isNumber first
    minor := number_isNumber second }

/-! ## The order -/

/-- Versions are ordered field by field; git tags by their lengths first. -/
def versionOrder : TorVersion → TorVersion → Ordering :=
  compareLex (compareOn TorVersion.major) <|
  compareLex (compareOn TorVersion.minor) <|
  compareLex (compareOn TorVersion.micro) <|
  compareLex (compareOn fun v => v.status.toInt) <|
  compareLex (compareOn TorVersion.patchlevel) <|
  compareLex (compareOn TorVersion.statusTag) <|
  compareLex (compareOn TorVersion.svnRevision) <|
  compareLex (compareOn TorVersion.gitTagLen) <|
  compareOn fun v => v.gitTag.val.take v.gitTagLen.toNat

instance : TransCmp versionOrder := inferInstanceAs (TransCmp (compareLex _ _))

/-- The difference of two fields is an `int`. -/
def FitsInt (aval bval : Int) : Prop := -2 ^ 31 ≤ aval - bval ∧ aval - bval < 2 ^ 31

/-- The SVN revisions of two versions are less than 2³¹ apart. -/
def CloseRevisions (a b : TorVersion) : Prop :=
  FitsInt a.svnRevision b.svnRevision ∧ FitsInt b.svnRevision a.svnRevision

theorem cmpVersionField_eq {aval bval : Int} (fits : FitsInt aval bval) :
    cmpVersionField aval bval = compare aval bval := by
  have whole : Int.bmod (aval - bval) (2 ^ 32) = aval - bval :=
    Int.bmod_eq_of_le (by have := fits.1; omega) (by have := fits.2; omega)
  unfold cmpVersionField
  rw [whole]
  rcases lt_trichotomy aval bval with less | equal | more
  · rw [if_pos (by omega), compare_lt_iff_lt.mpr less]
  · rw [if_neg (by omega), if_neg (by omega), Std.compare_eq_iff_eq.mpr equal]
  · rw [if_neg (by omega), if_pos (by omega), compare_gt_iff_gt.mpr more]

theorem IsNumber.fitsInt {a b : Int} (first : IsNumber a) (second : IsNumber b) : FitsInt a b := by
  unfold IsNumber Versions.int32Max at first second
  unfold FitsInt
  omega

theorem status_isNumber (status : ReleaseStatus) : IsNumber status.toInt := by
  unfold IsNumber
  cases status <;> decide

theorem Parsed.gitTagLen_isNumber (parsed : Parsed v) : IsNumber v.gitTagLen := by
  obtain ⟨digest, short, length, -⟩ := parsed.gitTag
  unfold IsNumber Versions.int32Max
  omega

end

theorem memcmpFirst_eq (a b : TorVersion) (length : a.gitTagLen = b.gitTagLen) :
    (if a.gitTagLen ≠ 0 then memcmpFirst a.gitTagLen a.gitTag b.gitTag else .eq) =
      compareOn (fun v : TorVersion => v.gitTag.val.take v.gitTagLen.toNat) a b := by
  unfold memcmpFirst compareOn
  dsimp only
  rw [← length]
  split
  · rfl
  · next zero =>
    rw [not_not.mp zero]
    exact Std.ReflCmp.compare_self.symm

theorem torVersionCompare_eq {a b : TorVersion} (first : Parsed a) (second : Parsed b)
    (close : CloseRevisions a b) : torVersionCompare a b = versionOrder a b := by
  have tags : (compare a.gitTagLen b.gitTagLen).then
      (if a.gitTagLen ≠ 0 then memcmpFirst a.gitTagLen a.gitTag b.gitTag else .eq) =
      (compare a.gitTagLen b.gitTagLen).then
        (compareOn (fun v : TorVersion => v.gitTag.val.take v.gitTagLen.toNat) a b) := by
    cases same : compare a.gitTagLen b.gitTagLen with
    | lt => rfl
    | gt => rfl
    | eq => exact memcmpFirst_eq a b (Std.compare_eq_iff_eq.mp same)
  unfold torVersionCompare strcmp
  rw [cmpVersionField_eq (first.major.fitsInt second.major),
    cmpVersionField_eq (first.minor.fitsInt second.minor),
    cmpVersionField_eq (first.micro.fitsInt second.micro),
    cmpVersionField_eq ((status_isNumber a.status).fitsInt (status_isNumber b.status)),
    cmpVersionField_eq (first.patchlevel.fitsInt second.patchlevel),
    cmpVersionField_eq close.1,
    cmpVersionField_eq (first.gitTagLen_isNumber.fitsInt second.gitTagLen_isNumber), tags]
  rfl

theorem toInt_injective {s t : ReleaseStatus} (same : s.toInt = t.toInt) : s = t := by
  revert same
  cases s <;> cases t <;> decide

theorem versionOrder_eq_iff {a b : TorVersion} (first : Parsed a) (second : Parsed b) :
    versionOrder a b = .eq ↔ a = b := by
  constructor
  · intro equal
    unfold versionOrder at equal
    simp only [compareLex, compareOn, Ordering.then_eq_eq, Std.compare_eq_iff_eq] at equal
    obtain ⟨major, minor, micro, status, patchlevel, tag, revision, length, bytes⟩ := equal
    obtain ⟨digest, short, size, fitted⟩ := first.gitTag
    obtain ⟨digest', short', size', fitted'⟩ := second.gitTag
    have same : digest = digest' := by
      rw [fitted, fitted', size, size', Int.toNat_natCast, Int.toNat_natCast, fit_take 20 _ short,
        fit_take 20 _ short'] at bytes
      exact bytes
    have gitTag : a.gitTag = b.gitTag := by rw [fitted, fitted', same]
    have status' := toInt_injective status
    cases a
    cases b
    simp only at major minor micro status' patchlevel tag revision length gitTag
    subst major minor micro status' patchlevel tag revision length gitTag
    rfl
  · rintro rfl
    exact ReflCmp.compare_self

/-! ## Version strings -/

/-- What `compare_tor_version_str_ptr_` orders strings by: versions come first. -/
def versionStringOrder (s t : CString) : Ordering :=
  match torVersionParse s, torVersionParse t with
  | some a, some b => versionOrder a b
  | some _, none => .lt
  | none, some _ => .gt
  | none, none => strcmp s t

instance : TransCmp versionStringOrder where
  eq_swap {s t} := by
    have strings : strcmp s t = (strcmp t s).swap := OrientedCmp.eq_swap
    unfold versionStringOrder
    cases torVersionParse s with
    | none =>
      cases torVersionParse t with
      | none => exact strings
      | some b => rfl
    | some a =>
      cases torVersionParse t with
      | none => rfl
      | some b =>
        have versions : versionOrder a b = (versionOrder b a).swap := OrientedCmp.eq_swap
        exact versions
  isLE_trans {s t u} le le' := by
    unfold versionStringOrder at le le' ⊢
    cases first : torVersionParse s with
    | none =>
      cases second : torVersionParse t with
      | none =>
        cases third : torVersionParse u with
        | none =>
          rw [first, second] at le
          rw [second, third] at le'
          change (strcmp s t).isLE = true at le
          exact TransCmp.isLE_trans le le'
        | some c =>
          rw [second, third] at le'
          exact absurd le' Bool.false_ne_true
      | some b =>
        rw [first, second] at le
        exact absurd le Bool.false_ne_true
    | some a =>
      cases third : torVersionParse u with
      | none => rfl
      | some c =>
        cases second : torVersionParse t with
        | none =>
          rw [second, third] at le'
          exact absurd le' Bool.false_ne_true
        | some b =>
          rw [first, second] at le
          rw [second, third] at le'
          change (versionOrder a b).isLE = true at le
          exact TransCmp.isLE_trans le le'

/-- The revisions of two strings are close, if both are versions. -/
def CloseStrings (s t : CString) : Prop :=
  ∀ a b, torVersionParse s = some a → torVersionParse t = some b → CloseRevisions a b

theorem compareTorVersionStrPtr_eq {s t : CString} (close : CloseStrings s t) :
    compareTorVersionStrPtr s t = versionStringOrder s t := by
  unfold compareTorVersionStrPtr versionStringOrder
  cases first : torVersionParse s with
  | none => cases torVersionParse t <;> rfl
  | some a =>
    cases second : torVersionParse t with
    | none => rfl
    | some b =>
      exact torVersionCompare_eq (torVersionParse_parsed first) (torVersionParse_parsed second)
        (close a b first second)

/-- What `sort_version_list` is to return: the versions in their order, and where duplicates are
removed one of each that compare equal. -/
structure SortedVersions (versions : List CString) (removeDuplicates : Bool)
    (result : List CString) : Prop where
  sorted : result.Pairwise fun s t => (compareTorVersionStrPtr s t).isLE = true
  inside : ∀ s ∈ result, s ∈ versions
  covers : ∀ s ∈ versions, ∃ t ∈ result, compareTorVersionStrPtr s t = .eq
  perm : removeDuplicates = false → result.Perm versions
  unique : removeDuplicates = true →
    result.Pairwise fun s t => compareTorVersionStrPtr s t = .lt

theorem sortVersionList_sorted (qsort : List CString → List CString)
    (sorts : SortsBy compareTorVersionStrPtr qsort) (versions : List CString)
    (close : ∀ s ∈ versions, ∀ t ∈ versions, CloseStrings s t) (removeDuplicates : Bool) :
    SortedVersions versions removeDuplicates (sortVersionList qsort versions removeDuplicates) := by
  have agree : ∀ s ∈ versions, ∀ t ∈ versions,
      compareTorVersionStrPtr s t = versionStringOrder s t :=
    fun s first t second => compareTorVersionStrPtr_eq (close s first t second)
  obtain ⟨perm, sorted⟩ := sorts versions (OrderedOn.of_agree agree)
  have inside : ∀ s ∈ qsort versions, s ∈ versions := fun s member => perm.mem_iff.mp member
  have sorted' : (qsort versions).Pairwise fun s t => (versionStringOrder s t).isLE = true := by
    apply sorted.imp_of_mem
    intro s t first second le
    rwa [← agree s (inside s first) t (inside t second)]
  cases removeDuplicates with
  | false =>
    exact {
      sorted := sorted
      inside := inside
      covers := fun s member => ⟨s, perm.mem_iff.mpr member, by
        rw [agree s member s member]
        exact ReflCmp.compare_self⟩
      perm := fun _ => perm
      unique := fun remove => absurd remove Bool.false_ne_true }
  | true =>
    have same : sortVersionList qsort versions true =
        smartlistUniq versionStringOrder (qsort versions) :=
      smartlistUniq_congr _ fun s first t second => agree s (inside s first) t (inside t second)
    have stays : ∀ s ∈ smartlistUniq versionStringOrder (qsort versions), s ∈ versions :=
      fun s member => inside s (smartlistUniq_subset _ _ s member)
    have increasing := smartlistUniq_increasing (qsort versions) sorted'
    have increasing' : (smartlistUniq versionStringOrder (qsort versions)).Pairwise
        fun s t => compareTorVersionStrPtr s t = .lt := by
      apply increasing.imp_of_mem
      intro s t first second less
      rwa [agree s (stays s first) t (stays t second)]
    rw [same]
    exact {
      sorted := increasing'.imp fun less => by rw [less]; rfl
      inside := stays
      covers := fun s member => by
        obtain ⟨t, kept, equal⟩ : ∃ t ∈ smartlistUniq versionStringOrder (qsort versions),
            versionStringOrder s t = .eq :=
          smartlistUniq_covers (qsort versions) s (perm.mem_iff.mpr member)
        refine ⟨t, kept, ?_⟩
        rw [agree s member t (stays t kept)]
        exact equal
      perm := fun keep => absurd keep.symm Bool.false_ne_true
      unique := fun _ => increasing' }

/-! ## Recommended versions -/

/-- The versions of a list; what is not a version is left out. -/
def listedVersions (versionlist : CString) : List TorVersion :=
  (splitVersions versionlist).filterMap parseEntry

section
variable (mine : TorVersion) (listed : List TorVersion)

def IsListed : Prop := ∃ v ∈ listed, torVersionCompare mine v = .eq

/-- Every listed version is newer. -/
def OlderThanAll : Prop := listed ≠ [] ∧ ∀ v ∈ listed, torVersionCompare mine v = .lt

/-- Every listed version is older. -/
def NewerThanAll : Prop := listed ≠ [] ∧ ∀ v ∈ listed, torVersionCompare mine v = .gt

/-- Newer than the listed versions of its series, of which there are some, but not than all. -/
def NewestInSeries : Prop :=
  (∃ v ∈ listed, torVersionSameSeries mine v = true)
    ∧ (∀ v ∈ listed, torVersionSameSeries mine v = true → torVersionCompare mine v = .gt)
    ∧ (∃ v ∈ listed, torVersionCompare mine v = .lt) ∧ ¬ IsListed mine listed

/-- What each status says of a version and the versions of a list. -/
def Judged : VersionStatus → Prop
  | .recommended => IsListed mine listed
  | .old => OlderThanAll mine listed
  | .new => NewerThanAll mine listed
  | .newInSeries => NewestInSeries mine listed
  | .unrecommended => ¬ IsListed mine listed ∧ ¬ OlderThanAll mine listed
      ∧ ¬ NewerThanAll mine listed ∧ ¬ NewestInSeries mine listed
  | .empty => False

end

variable {mine : TorVersion} {listed : List TorVersion}

theorem OlderThanAll.not_listed (older : OlderThanAll mine listed) : ¬ IsListed mine listed := by
  rintro ⟨v, member, equal⟩
  rw [older.2 v member] at equal
  cases equal

theorem NewerThanAll.not_listed (newer : NewerThanAll mine listed) : ¬ IsListed mine listed := by
  rintro ⟨v, member, equal⟩
  rw [newer.2 v member] at equal
  cases equal

theorem OlderThanAll.not_newer (older : OlderThanAll mine listed) : ¬ NewerThanAll mine listed := by
  intro newer
  obtain ⟨v, member⟩ := List.exists_mem_of_ne_nil _ older.1
  have less := older.2 v member
  rw [newer.2 v member] at less
  cases less

section

variable (newest : NewestInSeries mine listed)

include newest

theorem NewestInSeries.not_older : ¬ OlderThanAll mine listed := by
  intro older
  obtain ⟨v, member, same⟩ := newest.1
  have greater := newest.2.1 v member same
  rw [older.2 v member] at greater
  cases greater

theorem NewestInSeries.not_newer : ¬ NewerThanAll mine listed := by
  intro newer
  obtain ⟨v, member, less⟩ := newest.2.2.1
  rw [newer.2 v member] at less
  cases less

end

theorem Judged.unique {st st' : VersionStatus} (first : Judged mine listed st)
    (second : Judged mine listed st') : st = st' := by
  have older : OlderThanAll mine listed → ¬ IsListed mine listed := OlderThanAll.not_listed
  have newer : NewerThanAll mine listed → ¬ IsListed mine listed := NewerThanAll.not_listed
  have apart : OlderThanAll mine listed → ¬ NewerThanAll mine listed := OlderThanAll.not_newer
  have notOlder : NewestInSeries mine listed → ¬ OlderThanAll mine listed :=
    NewestInSeries.not_older
  have notNewer : NewestInSeries mine listed → ¬ NewerThanAll mine listed :=
    NewestInSeries.not_newer
  have newest : NewestInSeries mine listed → ¬ IsListed mine listed := fun n => n.2.2.2
  cases st <;> cases st' <;> simp only [Judged] at first second <;> tauto

/-- What a part of the loop adds to what has been found. -/
structure Finds (mine : TorVersion) (listed : List TorVersion) (before after : Found) : Prop where
  newer : after.newer = true ↔
    before.newer = true ∨ ∃ v ∈ listed, torVersionCompare mine v = .lt
  older : after.older = true ↔
    before.older = true ∨ ∃ v ∈ listed, torVersionCompare mine v = .gt
  newerInSeries : after.newerInSeries = true ↔ before.newerInSeries = true
    ∨ ∃ v ∈ listed, torVersionSameSeries mine v = true ∧ torVersionCompare mine v = .lt
  anyInSeries : after.anyInSeries = true ↔
    before.anyInSeries = true ∨ ∃ v ∈ listed, torVersionSameSeries mine v = true

theorem scanVersions_finds (mine : TorVersion) (entries : List CString) (found : Found) :
    (IsListed mine (entries.filterMap parseEntry) ∧ scanVersions mine entries found = none)
    ∨ (¬ IsListed mine (entries.filterMap parseEntry)
      ∧ ∃ found', scanVersions mine entries found = some found'
        ∧ Finds mine (entries.filterMap parseEntry) found found') := by
  induction entries generalizing found with
  | nil =>
    right
    refine ⟨?_, found, rfl, ?_, ?_, ?_, ?_⟩ <;> simp [IsListed]
  | cons cp entries ih =>
    rw [scanVersions]
    cases read : parseEntry cp with
    | none =>
      rw [List.filterMap_cons_none read]
      exact ih found
    | some other =>
      rw [List.filterMap_cons_some read]
      dsimp only
      cases order : torVersionCompare mine other with
      | eq =>
        left
        exact ⟨⟨other, List.mem_cons_self, order⟩, rfl⟩
      | lt =>
        rcases ih { found with
          anyInSeries := found.anyInSeries || torVersionSameSeries mine other
          newer := true
          newerInSeries := found.newerInSeries || torVersionSameSeries mine other } with
          ⟨⟨v, member, equal⟩, ended⟩ | ⟨absent, found', ended, finds⟩
        · left
          exact ⟨⟨v, List.mem_cons_of_mem _ member, equal⟩, ended⟩
        · right
          refine ⟨?_, found', ended, ?_, ?_, ?_, ?_⟩
          · simpa [IsListed, order] using absent
          · rw [finds.newer]
            simp [order]
          · rw [finds.older]
            simp [order]
          · rw [finds.newerInSeries]
            simp [order, or_assoc]
          · rw [finds.anyInSeries]
            simp [or_assoc]
      | gt =>
        rcases ih { found with
          anyInSeries := found.anyInSeries || torVersionSameSeries mine other
          older := true } with
          ⟨⟨v, member, equal⟩, ended⟩ | ⟨absent, found', ended, finds⟩
        · left
          exact ⟨⟨v, List.mem_cons_of_mem _ member, equal⟩, ended⟩
        · right
          refine ⟨?_, found', ended, ?_, ?_, ?_, ?_⟩
          · simpa [IsListed, order] using absent
          · rw [finds.newer]
            simp [order]
          · rw [finds.older]
            simp [order]
          · rw [finds.newerInSeries]
            simp [order]
          · rw [finds.anyInSeries]
            simp [or_assoc]

theorem torVersionIsObsolete_judged {myversion versionlist : CString}
    (parsed : torVersionParse myversion = some mine) (some_ : versionlist ≠ []) :
    ∃ st, torVersionIsObsolete myversion versionlist = some st
      ∧ Judged mine (listedVersions versionlist) st := by
  unfold torVersionIsObsolete
  rw [parsed]
  dsimp only
  rw [if_neg some_]
  rcases scanVersions_finds mine (splitVersions versionlist) ⟨false, false, false, false⟩ with
    ⟨is, ended⟩ | ⟨absent, found, ended, finds⟩
  · rw [ended]
    exact ⟨.recommended, rfl, is⟩
  · rw [ended]
    dsimp only
    change ¬ IsListed mine (listedVersions versionlist) at absent
    change Finds mine (listedVersions versionlist) _ found at finds
    generalize listedVersions versionlist = listed at absent finds ⊢
    have newer : found.newer = true ↔ ∃ v ∈ listed, torVersionCompare mine v = .lt := by
      simpa using finds.newer
    have older : found.older = true ↔ ∃ v ∈ listed, torVersionCompare mine v = .gt := by
      simpa using finds.older
    have newerIn : found.newerInSeries = true ↔ ∃ v ∈ listed,
        torVersionSameSeries mine v = true ∧ torVersionCompare mine v = .lt := by
      simpa using finds.newerInSeries
    have anyIn : found.anyInSeries = true ↔
        ∃ v ∈ listed, torVersionSameSeries mine v = true := by
      simpa using finds.anyInSeries
    have other (v : TorVersion) (member : v ∈ listed) : torVersionCompare mine v ≠ .eq :=
      fun equal => absent ⟨v, member, equal⟩
    by_cases inSeries : found.anyInSeries ∧ ¬ found.newerInSeries ∧ found.newer
    · refine ⟨.newInSeries, if_pos inSeries, anyIn.mp inSeries.1, ?_, newer.mp inSeries.2.2,
        absent⟩
      intro v member same
      cases order : torVersionCompare mine v with
      | lt => exact absurd (newerIn.mpr ⟨v, member, same, order⟩) inSeries.2.1
      | eq => exact absurd order (other v member)
      | gt => rfl
    rw [if_neg inSeries]
    by_cases old : found.newer ∧ ¬ found.older
    · obtain ⟨w, present, _⟩ := newer.mp old.1
      refine ⟨.old, if_pos old, List.ne_nil_of_mem present, ?_⟩
      intro v member
      cases order : torVersionCompare mine v with
      | lt => rfl
      | eq => exact absurd order (other v member)
      | gt => exact absurd (older.mpr ⟨v, member, order⟩) old.2
    rw [if_neg old]
    by_cases new : found.older ∧ ¬ found.newer
    · obtain ⟨w, present, _⟩ := older.mp new.1
      refine ⟨.new, if_pos new, List.ne_nil_of_mem present, ?_⟩
      intro v member
      cases order : torVersionCompare mine v with
      | lt => exact absurd (newer.mpr ⟨v, member, order⟩) new.2
      | eq => exact absurd order (other v member)
      | gt => rfl
    rw [if_neg new]
    refine ⟨.unrecommended, rfl, absent, ?_, ?_, ?_⟩
    · rintro ⟨present, all⟩
      obtain ⟨v, member⟩ := List.exists_mem_of_ne_nil _ present
      apply old
      refine ⟨newer.mpr ⟨v, member, all v member⟩, ?_⟩
      intro found
      obtain ⟨w, inside, greater⟩ := older.mp found
      rw [all w inside] at greater
      cases greater
    · rintro ⟨present, all⟩
      obtain ⟨v, member⟩ := List.exists_mem_of_ne_nil _ present
      apply new
      refine ⟨older.mpr ⟨v, member, all v member⟩, ?_⟩
      intro found
      obtain ⟨w, inside, less⟩ := newer.mp found
      rw [all w inside] at less
      cases less
    · rintro ⟨present, all, later, _⟩
      apply inSeries
      refine ⟨anyIn.mpr present, ?_, newer.mpr later⟩
      intro found
      obtain ⟨w, inside, same, less⟩ := newerIn.mp found
      rw [all w inside same] at less
      cases less

/-! ## The laws -/

theorem closeRevisions_of_nonneg {a b : TorVersion} (first : Parsed a) (second : Parsed b)
    (positive : 0 ≤ a.svnRevision) (positive' : 0 ≤ b.svnRevision) : CloseRevisions a b := by
  have high := first.svnRevision.2
  have high' := second.svnRevision.2
  unfold CloseRevisions FitsInt
  omega

/-- No difference that `tor_version_compare` computes leaves the range of an `int`. -/
structure DifferencesFit (a b : TorVersion) : Prop where
  major : FitsInt a.major b.major
  minor : FitsInt a.minor b.minor
  micro : FitsInt a.micro b.micro
  status : FitsInt a.status.toInt b.status.toInt
  patchlevel : FitsInt a.patchlevel b.patchlevel
  svnRevision : FitsInt a.svnRevision b.svnRevision
  gitTagLen : FitsInt a.gitTagLen b.gitTagLen

theorem Parsed.differencesFit {a b : TorVersion} (first : Parsed a) (second : Parsed b)
    (close : CloseRevisions a b) : DifferencesFit a b where
  major := first.major.fitsInt second.major
  minor := first.minor.fitsInt second.minor
  micro := first.micro.fitsInt second.micro
  status := (status_isNumber a.status).fitsInt (status_isNumber b.status)
  patchlevel := first.patchlevel.fitsInt second.patchlevel
  svnRevision := close.1
  gitTagLen := first.gitTagLen_isNumber.fitsInt second.gitTagLen_isNumber

/-- Versions whose SVN revisions are close are totally ordered, and only a version itself compares
equal to it; lists of such versions are sorted; and every status is given exactly where it fits. -/
theorem torVersions_lawful :
    (∀ (s t u : CString) (a b c : TorVersion), torVersionParse s = some a →
      torVersionParse t = some b → torVersionParse u = some c → CloseRevisions a b →
      CloseRevisions b c → CloseRevisions a c →
      torVersionCompare a b = (torVersionCompare b a).swap
        ∧ ((torVersionCompare a b).isLE = true → (torVersionCompare b c).isLE = true →
          (torVersionCompare a c).isLE = true)
        ∧ (torVersionCompare a b = .eq ↔ a = b) ∧ DifferencesFit a b)
    ∧ (∀ qsort, SortsBy compareTorVersionStrPtr qsort → ∀ versions : List CString,
      (∀ s ∈ versions, ∀ t ∈ versions, CloseStrings s t) → ∀ removeDuplicates,
      SortedVersions versions removeDuplicates (sortVersionList qsort versions removeDuplicates))
    ∧ ∀ (myversion versionlist : CString) (mine : TorVersion),
      torVersionParse myversion = some mine → versionlist ≠ [] → ∀ st,
      (torVersionIsObsolete myversion versionlist = some st
        ↔ Judged mine (listedVersions versionlist) st) := by
  refine ⟨?_, sortVersionList_sorted, ?_⟩
  · intro s t u a b c first second third close close' close''
    have pa := torVersionParse_parsed first
    have pb := torVersionParse_parsed second
    have pc := torVersionParse_parsed third
    rw [torVersionCompare_eq pa pb close, torVersionCompare_eq pb pa close.symm,
      torVersionCompare_eq pb pc close', torVersionCompare_eq pa pc close'']
    exact ⟨OrientedCmp.eq_swap, TransCmp.isLE_trans, versionOrder_eq_iff pa pb,
      pa.differencesFit pb close⟩
  · intro myversion versionlist mine parsed some_ st
    obtain ⟨st', returned, judged⟩ := torVersionIsObsolete_judged parsed some_
    rw [returned, Option.some.injEq]
    constructor
    · rintro rfl
      exact judged
    · exact judged.unique

theorem torVersions_lawful_two :
    SortedVersions [textBytes "0.1.2.3-rc", textBytes "0.1.2"] true
      (sortVersionList (List.insertionSort fun a b => (compareTorVersionStrPtr a b).isLE = true)
        [textBytes "0.1.2.3-rc", textBytes "0.1.2"] true) := by
  apply torVersions_lawful.2.1 _ insertionSort_sortsBy
  have revision : ∀ s ∈ [textBytes "0.1.2.3-rc", textBytes "0.1.2"],
      (torVersionParse s).map TorVersion.svnRevision = some 0 := by decide +kernel
  intro s first t second a b parsed parsed'
  have zero := revision s first
  have zero' := revision t second
  rw [parsed, Option.map_some, Option.some.injEq] at zero
  rw [parsed', Option.map_some, Option.some.injEq] at zero'
  exact closeRevisions_of_nonneg (torVersionParse_parsed parsed) (torVersionParse_parsed parsed')
    zero.ge zero'.ge

/-- Each of two versions comes before the other where the difference of their SVN revisions wraps
around; and a version that is newer than all that are listed is `VS_NEW` also where some of them
are of its series. -/
theorem torVersionCompare_wraps :
    ¬ (∀ (s t : CString) (a b : TorVersion), torVersionParse s = some a →
      torVersionParse t = some b → torVersionCompare a b = (torVersionCompare b a).swap)
    ∧ ¬ ∀ (myversion versionlist : CString) (mine : TorVersion),
      torVersionParse myversion = some mine → versionlist ≠ [] →
      ¬ IsListed mine (listedVersions versionlist) →
      ¬ OlderThanAll mine (listedVersions versionlist) →
      (∃ v ∈ listedVersions versionlist, torVersionSameSeries mine v = true) →
      (∀ v ∈ listedVersions versionlist, torVersionSameSeries mine v = true →
        torVersionCompare mine v ≠ .lt) →
      torVersionIsObsolete myversion versionlist = some .newInSeries := by
  constructor
  · intro all
    have both : (torVersionParse (textBytes "0.1.2.3 (r-2147483648)")).bind (fun a =>
        (torVersionParse (textBytes "0.1.2.3")).map fun b =>
          (torVersionCompare a b, torVersionCompare b a)) = some (.lt, .lt) := by
      decide +kernel
    obtain ⟨a, parsed, rest⟩ := Option.bind_eq_some_iff.mp both
    obtain ⟨b, parsed', orders⟩ := Option.map_eq_some_iff.mp rest
    rw [Prod.mk.injEq] at orders
    have swapped := all _ _ a b parsed parsed'
    rw [orders.1, orders.2] at swapped
    cases swapped
  · intro all
    have one : (torVersionParse (textBytes "0.2.9.9-dev")).bind (fun mine =>
        (listedVersions (textBytes "0.2.9.9")).head?.map fun v =>
          ((listedVersions (textBytes "0.2.9.9")).length, torVersionSameSeries mine v,
            torVersionCompare mine v)) = some (1, true, .gt) := by
      decide +kernel
    obtain ⟨mine, parsed, rest⟩ := Option.bind_eq_some_iff.mp one
    obtain ⟨v, head, facts⟩ := Option.map_eq_some_iff.mp rest
    simp only [Prod.mk.injEq] at facts
    obtain ⟨length, same, order⟩ := facts
    have only : listedVersions (textBytes "0.2.9.9") = [v] := by
      obtain ⟨w, single⟩ := List.length_eq_one_iff.mp length
      rw [single, List.head?_cons, Option.some.injEq] at head
      rw [single, head]
    have verdict := all (textBytes "0.2.9.9-dev") (textBytes "0.2.9.9") mine parsed
      (by decide +kernel)
    rw [only] at verdict
    have documented := verdict (by simp [IsListed, order]) (by simp [OlderThanAll, order])
      ⟨v, List.mem_singleton_self v, same⟩ (by simp [order])
    have returned : torVersionIsObsolete (textBytes "0.2.9.9-dev") (textBytes "0.2.9.9") =
        some .new := by decide +kernel
    rw [returned] at documented
    cases documented

end RendezMix.Guarantees.VersionOrder
