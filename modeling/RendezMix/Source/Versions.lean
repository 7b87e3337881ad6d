import RendezMix.Source.Binascii
import RendezMix.Source.Smartlist
import RendezMix.Source.Strings

/-!
# Versions

Parsing and comparing Tor versions, and judging one by a list of recommended ones, as
`core/or/versions.c` does. Comparison functions are orderings: of the results of
`tor_version_compare`, `strcmp` and `memcmp` only the sign is used. A failed assertion is `none`.
-/
namespace RendezMix.Source.Versions
open Library.ByteStrings Library.Decimals

def int32Max : Nat := 2147483647

/-! ## Scanning text -/

/-- Where `find_whitespace` stops, but for the NUL. -/
def endsWord (c : UInt8) : Bool := c == 35 || c == 32 || c == 13 || c == 10 || c == 9

/-- `eat_whitespace`, which also skips comments; the flag is set inside of one. -/
def eatWhitespace : Bool → CString → CString
  | _, [] => []
  | true, c :: s => eatWhitespace (c != 10) s
  | false, c :: s =>
    if c = 32 ∨ c = 9 ∨ c = 10 ∨ c = 13 then eatWhitespace false s
    else if c = 35 then eatWhitespace true s
    else c :: s

/-- `(int) strtol(cp, &eos, 10)`, which stops at the limits of a `long`. -/
def intOfStrtol (s : CString) : Int :=
  let text := s.dropWhile isSpace
  let negative := text.head? = some 45
  let unsigned := if negative ∨ text.head? = some 43 then text.drop 1 else text
  match readDecimal unsigned with
  | none => 0
  | some (v, _) =>
    let r : Int := if negative then -v else v
    Int.bmod (max (-2 ^ 63) (min (2 ^ 63 - 1) r)) (2 ^ 32)

/-- `SPLIT_SKIP_SPACE`. -/
def skipSpace (s : CString) : CString :=
  ((s.dropWhile isSpace).reverse.dropWhile isSpace).reverse

/-- `smartlist_split_string(sl, str, ",", SPLIT_SKIP_SPACE, 0)`. -/
def splitVersions (str : CString) : List CString := (str.splitOn 44).map skipSpace

/-! ## Parsing -/

/-- `VER_PRE`, `VER_RC` and `VER_RELEASE`. -/
inductive ReleaseStatus where
  | pre
  | rc
  | release
  deriving DecidableEq

def ReleaseStatus.toInt : ReleaseStatus → Int
  | .pre => 0
  | .rc => 1
  | .release => 2

structure TorVersion where
  major : Int
  minor : Int
  micro : Int
  status : ReleaseStatus
  patchlevel : Int
  statusTag : CString
  svnRevision : Int
  gitTagLen : Int
  gitTag : Bytes 20
  deriving DecidableEq

/-- What `tor_version_parse` starts from. -/
def TorVersion.cleared : TorVersion := ⟨0, 0, 0, .release, 0, [], 0, 0, fit 20 []⟩

def maxStatusTagLen : Nat := 32

def hexDigestLen : Nat := 40

def number (cp : CString) : Option (Int × CString) :=
  match cp with
  | [] => none
  | c :: _ =>
    if isDigit c then
      match readDecimal cp with
      | none => none
      | some (v, eos) => if v ≤ int32Max then some (v, eos) else none
    else none

def dot (cp : CString) : Option CString :=
  match cp with
  | 46 :: cp => some cp
  | _ => none

/-- The revision that follows the status tag. -/
def revision (out : TorVersion) (cp : CString) : Option TorVersion :=
  if (textBytes "(r").isPrefixOf cp then some { out with svnRevision := intOfStrtol (cp.drop 2) }
  else if (textBytes "(git-").isPrefixOf cp then
    if cp.contains 41 then
      let hex := (cp.drop 5).takeWhile (· ≠ 41)
      if hexDigestLen < hex.length ∨ hex.length = 0 ∨ hex.length % 2 = 1 then none
      else
        match base16Decode hex with
        | none => none
        | some digest => some { out with gitTag := fit 20 digest, gitTagLen := digest.length }
    else none
  else some out

/-- `tor_version_parse` from `status_tag` on. -/
def statusTag (out : TorVersion) (cp : CString) : Option TorVersion :=
  let cp := if cp.head? = some 45 ∨ cp.head? = some 46 then cp.drop 1 else cp
  let tag := cp.takeWhile fun c => !endsWord c
  revision { out with statusTag := tag.take (maxStatusTagLen - 1) }
    (eatWhitespace false (cp.drop tag.length))

/-- `tor_version_parse` from the patch level on. -/
def patchlevel (out : TorVersion) (cp : CString) : Option TorVersion :=
  match number cp with
  | none => none
  | some (n, cp) => statusTag { out with patchlevel := n } cp

/-- `tor_version_parse` after the third number. -/
def afterMicro (out : TorVersion) (cp : CString) : Option TorVersion :=
  if cp = [] then some out
  else if cp.head? = some 46 then patchlevel out (cp.drop 1)
  else if cp.head? = some 45 then statusTag out cp
  else if (textBytes "pre").isPrefixOf cp then patchlevel { out with status := .pre } (cp.drop 3)
  else if (textBytes "rc").isPrefixOf cp then patchlevel { out with status := .rc } (cp.drop 2)
  else none

/-- `tor_version_parse` after the second number. -/
def afterMinor (out : TorVersion) (cp : CString) : Option TorVersion :=
  if cp = [] then some out
  else if cp.head? = some 45 then statusTag out cp
  else
    match dot cp with
    | none => none
    | some cp =>
      match number cp with
      | none => none
      | some (n, cp) => afterMicro { out with micro := n } cp

def torVersionParse (s : CString) : Option TorVersion :=
  let cp := if (torStrlower (textBytes "Tor ")).isPrefixOf (torStrlower s) then s.drop 4 else s
  match number cp with
  | none => none
  | some (major, cp) =>
    match dot cp with
    | none => none
    | some cp =>
      match number cp with
      | none => none
      | some (minor, cp) => afterMinor { TorVersion.cleared with major := major, minor := minor } cp

/-! ## Comparing -/

/-- `CMP`: the difference of two fields, as an `int`. -/
def cmpVersionField (aval bval : Int) : Ordering :=
  let result := Int.bmod (aval - bval) (2 ^ 32)
  if result < 0 then .lt else if result > 0 then .gt else .eq

/-- `fast_memcmp` of the first `n` bytes. -/
def memcmpFirst (n : Int) (a b : Bytes 20) : Ordering :=
  compare (a.val.take n.toNat) (b.val.take n.toNat)

def torVersionCompare (a b : TorVersion) : Ordering :=
  (cmpVersionField a.major b.major).then <|
  (cmpVersionField a.minor b.minor).then <|
  (cmpVersionField a.micro b.micro).then <|
  (cmpVersionField a.status.toInt b.status.toInt).then <|
  (cmpVersionField a.patchlevel b.patchlevel).then <|
  (strcmp a.statusTag b.statusTag).then <|
  (cmpVersionField a.svnRevision b.svnRevision).then <|
  (cmpVersionField a.gitTagLen b.gitTagLen).then <|
  if a.gitTagLen ≠ 0 then memcmpFirst a.gitTagLen a.gitTag b.gitTag else .eq

def torVersionSameSeries (a b : TorVersion) : Bool :=
  a.major = b.major && a.minor = b.minor && a.micro = b.micro

def compareTorVersionStrPtr (a b : CString) : Ordering :=
  match torVersionParse a, torVersionParse b with
  | some va, some vb => torVersionCompare va vb
  | some _, none => .lt
  | none, some _ => .gt
  | none, none => strcmp a b

/-- `sort_version_list`, with the `qsort` that it calls. -/
def sortVersionList (qsort : List CString → List CString) (versions : List CString)
    (removeDuplicates : Bool) : List CString :=
  let versions := qsort versions
  if removeDuplicates then smartlistUniq compareTorVersionStrPtr versions else versions

/-! ## Judging -/

/-- `version_status_t`, without `VS_UNKNOWN`. -/
inductive VersionStatus where
  | recommended
  | old
  | new
  | newInSeries
  | unrecommended
  | empty
  deriving DecidableEq

/-- What `tor_version_is_obsolete` has found. -/
structure Found where
  newer : Bool
  older : Bool
  newerInSeries : Bool
  anyInSeries : Bool

/-- An entry of the list, which may begin with "Tor ". -/
def parseEntry (cp : CString) : Option TorVersion :=
  torVersionParse (if (textBytes "Tor ").isPrefixOf cp then cp.drop 4 else cp)

/-- The loop of `tor_version_is_obsolete`, which ends where the version is listed. -/
def scanVersions (mine : TorVersion) : List CString → Found → Option Found
  | [], found => some found
  | cp :: versions, found =>
    match parseEntry cp with
    | none => scanVersions mine versions found
    | some other =>
      let same := torVersionSameSeries mine other
      let found := { found with anyInSeries := found.anyInSeries || same }
      match torVersionCompare mine other with
      | .eq => none
      | .lt => scanVersions mine versions
          { found with newer := true, newerInSeries := found.newerInSeries || same }
      | .gt => scanVersions mine versions { found with older := true }

def torVersionIsObsolete (myversion versionlist : CString) : Option VersionStatus :=
  match torVersionParse myversion with
  | none => none
  | some mine =>
    if versionlist = [] then some .empty
    else
      match scanVersions mine (splitVersions versionlist) ⟨false, false, false, false⟩ with
      | none => some .recommended
      | some found =>
        if found.anyInSeries ∧ ¬ found.newerInSeries ∧ found.newer then some .newInSeries
        else if found.newer ∧ ¬ found.older then some .old
        else if found.older ∧ ¬ found.newer then some .new
        else some .unrecommended

example : torVersionIsObsolete (textBytes "0.0.2") (textBytes "Tor 0.0.2pre1,Tor 0.0.3") =
    some .newInSeries := by decide +kernel

end RendezMix.Source.Versions
