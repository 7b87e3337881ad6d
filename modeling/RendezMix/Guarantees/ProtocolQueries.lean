import RendezMix.Guarantees.ProtocolVotes

/-!
# Queries on protocol versions

The query for a version or a later one reads every entry whose name is the protocol's up
to case, and the query for a version reads the first entry of exactly this name. What
`protover_all_supported` reports as missing is what is listed and not supported here.
-/
namespace RendezMix.Guarantees.ProtocolQueries
open Source ProtocolRanges ProtocolLists ProtocolVotes

/-! ## A version, or a later one -/

variable (secrets : Bool) (list : CString) (tp : ProtocolType) (s : CString) {name : CString}
  (version : Nat) (entries : List ProtoEntry)

theorem supportsProtocol_iff :
    protocolListSupportsProtocol list tp version = true
      ↔ ∃ protocols, parseProtocolList list = some protocols
        ∧ ∃ ent, findEntryByName protocols (protocolTypeToStr tp) = some ent
          ∧ versions ent.bitmask version := by
  unfold protocolListSupportsProtocol
  cases parseProtocolList list with
  | none => simp
  | some protocols =>
    simp only [Option.some.injEq, exists_eq_left']
    unfold protocolListContains
    split
    next large =>
      constructor
      · intro absurd
        cases absurd
      · rintro ⟨ent, -, set⟩
        have small := versions_lt set
        have large' : 63 < version := large
        omega
    next =>
      cases findEntryByName protocols (protocolTypeToStr tp) with
      | none => simp
      | some ent =>
        rw [decide_eq_true_iff, and_bit_ne_zero]
        simp

theorem supportsProtocolOrLater_iff :
    protocolListSupportsProtocolOrLater list tp version = true
      ↔ ∃ protocols, parseProtocolList list = some protocols
        ∧ ∃ ent ∈ protocols, SameCase ent.name (protocolTypeToStr tp)
          ∧ ∃ later, version ≤ later ∧ versions ent.bitmask later := by
  have range : ∀ n, versions (bitmaskForRange version 63) n ↔ version ≤ n ∧ n ≤ 63 :=
    fun n => bitmaskForRange_versions version 63 n (le_refl 63)
  unfold protocolListSupportsProtocolOrLater
  cases parseProtocolList list with
  | none => simp
  | some protocols =>
    simp only [Option.some.injEq, exists_eq_left', List.any_eq_true, Bool.and_eq_true,
      decide_eq_true_eq, ne_zero_iff_versions, versions_and, range]
    constructor
    · rintro ⟨ent, member, same, later, set, after, -⟩
      exact ⟨ent, member, same, later, after, set⟩
    · rintro ⟨ent, member, same, later, after, set⟩
      have small := versions_lt set
      exact ⟨ent, member, same, later, set, after, by omega⟩

/-- Where an entry with the name of the protocol in any case has a version from `version` on,
the first entry of exactly this name has one. -/
def FirstEntryServes (list : CString) (tp : ProtocolType) (version : Nat) : Prop :=
  ∀ protocols, parseProtocolList list = some protocols →
    ∀ ent ∈ protocols, SameCase ent.name (protocolTypeToStr tp) →
      (∃ later, version ≤ later ∧ versions ent.bitmask later) →
      ∃ first, findEntryByName protocols (protocolTypeToStr tp) = some first
        ∧ ∃ later, version ≤ later ∧ versions first.bitmask later

theorem orLater_agrees_iff :
    (protocolListSupportsProtocolOrLater list tp version = true
        ↔ ∃ later, version ≤ later ∧ later ≤ maxProtocolVersion
          ∧ protocolListSupportsProtocol list tp later = true)
      ↔ FirstEntryServes list tp version := by
  have some : (∃ later, version ≤ later ∧ later ≤ maxProtocolVersion
      ∧ protocolListSupportsProtocol list tp later = true)
      ↔ ∃ protocols, parseProtocolList list = some protocols
        ∧ ∃ first, findEntryByName protocols (protocolTypeToStr tp) = some first
          ∧ ∃ later, version ≤ later ∧ versions first.bitmask later := by
    simp only [supportsProtocol_iff]
    constructor
    · rintro ⟨later, after, -, protocols, read, ent, found, set⟩
      exact ⟨protocols, read, ent, found, later, after, set⟩
    · rintro ⟨protocols, read, ent, found, later, after, set⟩
      have small : later ≤ maxProtocolVersion := Nat.le_of_lt_succ (versions_lt set)
      exact ⟨later, after, small, protocols, read, ent, found, set⟩
  rw [some, supportsProtocolOrLater_iff]
  constructor
  · rintro ⟨serves, -⟩ protocols read ent member same later
    obtain ⟨protocols', read', first⟩ := serves ⟨protocols, read, ent, member, same, later⟩
    rw [read] at read'
    cases read'
    exact first
  · intro serves
    constructor
    · rintro ⟨protocols, read, ent, member, same, later⟩
      exact ⟨protocols, read, serves protocols read ent member same later⟩
    · rintro ⟨protocols, read, first, found, later⟩
      obtain ⟨member, same⟩ := findEntryByName_some found
      exact ⟨protocols, read, first, member, by rw [same]; exact rfl, later⟩

/-! ## What is supported here -/

/-- Entries as they are written, with a space between two of them. -/
def listText : List (CString × List (Nat × Nat)) → CString
  | [] => []
  | [entry] => entryText entry.1 entry.2
  | entry :: entries => entryText entry.1 entry.2 ++ 32 :: listText entries

theorem parseProtocolList_listText (entries : List (CString × List (Nat × Nat)))
    (valid : ∀ entry ∈ entries, ValidName entry.1)
    (readable : ∀ entry ∈ entries, ∀ range ∈ entry.2, Readable range) :
    parseProtocolList (listText entries)
      = some (entries.map fun entry =>
        { name := entry.1, bitmask := rangesMask entry.2 0 }) := by
  induction entries with
  | nil => rw [listText, parseProtocolList, if_pos rfl]; rfl
  | cons entry entries ih =>
    rw [List.forall_mem_cons] at valid readable
    have rest := ih valid.2 readable.2
    cases entries with
    | nil =>
      have single := parseProtocolList_entryText entry.1 entry.2 [] [] [] valid.1 readable.1
        (Or.inl ⟨rfl, rfl⟩) rest
      rw [List.append_nil] at single
      exact single
    | cons next entries =>
      apply parseProtocolList_entryText entry.1 entry.2 _ _ _ valid.1 readable.1 _ rest
      right
      refine ⟨rfl, ?_⟩
      have head := entryText_head next.1 next.2
      rw [List.forall_mem_cons] at valid
      cases entries with
      | nil =>
        rw [listText, ← List.append_nil (entryText next.1 next.2)]
        exact head [] valid.2.1
      | cons => exact head _ valid.2.1

/-- The versions that are supported here; `secrets` as in `protover_get_supported`. -/
def supportedRanges (secrets : Bool) : List (CString × List (Nat × Nat)) :=
  [(textBytes "Cons", [(1, 2)]), (textBytes "Desc", [(1, 2)]), (textBytes "DirCache", [(2, 2)]),
    (textBytes "FlowCtrl", [(1, 2)]), (textBytes "HSDir", [(2, 2)]),
    (textBytes "HSIntro", [(4, 5)]), (textBytes "HSRend", [(1, 2)]), (textBytes "Link", [(1, 5)]),
    (textBytes "LinkAuth", if secrets then [(1, 1), (3, 3)] else [(3, 3)]),
    (textBytes "Microdesc", [(1, 2)]), (textBytes "Padding", [(2, 2)]),
    (textBytes "Relay", [(1, 4)])]

theorem getSupportedProtocolList_eq :
    getSupportedProtocolList secrets
      = (supportedRanges secrets).map fun entry =>
        { name := entry.1, bitmask := rangesMask entry.2 0 } := by
  have text : protoverGetSupportedProtocols secrets = listText (supportedRanges secrets) := by
    cases secrets <;> decide +kernel
  rw [getSupportedProtocolList, text, parseProtocolList_listText]
  · rfl
  · cases secrets <;> decide +kernel
  · cases secrets <;> decide +kernel

theorem getSupportedProtocolList_names :
    ((getSupportedProtocolList secrets).map ProtoEntry.name).Nodup := by
  rw [getSupportedProtocolList_eq]
  cases secrets <;> decide +kernel

/-- The version of the protocol is supported here. -/
def Supported (secrets : Bool) (name : CString) (v : Nat) : Prop :=
  ∃ mine ∈ getSupportedProtocolList secrets, mine.name = name ∧ versions mine.bitmask v

/-- The string lists the version of the protocol. -/
def Listed (s name : CString) (v : Nat) : Prop :=
  ∃ entries, parseProtocolList s = some entries
    ∧ ∃ ent ∈ entries, ent.name = name ∧ versions ent.bitmask v

theorem findEntryByName_none {protos : List ProtoEntry}
    (missed : findEntryByName protos name = none) : ∀ ent ∈ protos, ent.name ≠ name := by
  intro ent member same
  unfold findEntryByName at missed
  rw [List.find?_eq_none] at missed
  exact missed ent member (decide_eq_true same)

theorem supported_of_found {mine : ProtoEntry}
    (found : findEntryByName (getSupportedProtocolList secrets) name = some mine) (v : Nat) :
    Supported secrets name v ↔ versions mine.bitmask v := by
  obtain ⟨member, same⟩ := findEntryByName_some found
  constructor
  · rintro ⟨other, otherMember, otherName, set⟩
    have one := List.inj_on_of_nodup_map (getSupportedProtocolList_names secrets) otherMember member
      (otherName.trans same.symm)
    rw [← one]
    exact set
  · intro set
    exact ⟨mine, member, same, set⟩

theorem not_supported_of_missed
    (missed : findEntryByName (getSupportedProtocolList secrets) name = none) (v : Nat) :
    ¬ Supported secrets name v := by
  rintro ⟨mine, member, same, -⟩
  exact findEntryByName_none missed mine member same

theorem versions_andNot (a b : BitVec 64) (n : Nat) :
    versions (a &&& ~~~b) n ↔ versions a n ∧ ¬ versions b n := by
  rw [versions_and]
  constructor
  · rintro ⟨set, clear⟩
    rw [versions, BitVec.getLsbD_not, Bool.and_eq_true, Bool.not_eq_true'] at clear
    refine ⟨set, ?_⟩
    rw [versions, clear.2]
    exact Bool.false_ne_true
  · rintro ⟨set, clear⟩
    refine ⟨set, ?_⟩
    rw [versions, BitVec.getLsbD_not, Bool.and_eq_true, Bool.not_eq_true', decide_eq_true_eq]
    exact ⟨versions_lt set, Bool.eq_false_iff.mpr clear⟩

/-- What is missing of an entry: the versions of it that are not supported, if there are any. -/
theorem missingEntry_spec (ent : ProtoEntry) :
    (∀ m, missingEntry (getSupportedProtocolList secrets) ent = some m →
        m.name = ent.name ∧ m.bitmask ≠ 0
          ∧ ∀ v, versions m.bitmask v
            ↔ versions ent.bitmask v ∧ ¬ Supported secrets ent.name v)
      ∧ (missingEntry (getSupportedProtocolList secrets) ent = none →
        ∀ v, versions ent.bitmask v → Supported secrets ent.name v) := by
  unfold missingEntry
  cases found : findEntryByName (getSupportedProtocolList secrets) ent.name with
  | none =>
    have never := not_supported_of_missed secrets found
    dsimp only
    constructor
    · intro m taken
      split at taken
      next some =>
        cases taken
        exact ⟨rfl, some, fun v => (and_iff_left (never v)).symm⟩
      next => cases taken
    · intro dropped v set
      split at dropped
      next => cases dropped
      next empty =>
        rw [not_not.mp empty] at set
        exact absurd set (not_versions_zero v)
  | some mine =>
    have always := supported_of_found secrets found
    dsimp only
    constructor
    · intro m taken
      split at taken
      next some =>
        cases taken
        refine ⟨rfl, some, ?_⟩
        intro v
        rw [versions_andNot, always]
      next => cases taken
    · intro dropped v set
      split at dropped
      next => cases dropped
      next empty =>
        rw [always]
        by_contra clear
        have missing := (versions_andNot ent.bitmask mine.bitmask v).mpr ⟨set, clear⟩
        rw [not_not.mp empty] at missing
        exact not_versions_zero v missing

/-- The entries of a list that are missing here. -/
def missingEntries (secrets : Bool) (entries : List ProtoEntry) : List ProtoEntry :=
  entries.filterMap (missingEntry (getSupportedProtocolList secrets))

theorem missingEntries_pairs (name : CString) (v : Nat) :
    (∃ m ∈ missingEntries secrets entries, m.name = name ∧ versions m.bitmask v)
      ↔ (∃ ent ∈ entries, ent.name = name ∧ versions ent.bitmask v)
        ∧ ¬ Supported secrets name v := by
  constructor
  · rintro ⟨m, member, rfl, set⟩
    obtain ⟨ent, inside, taken⟩ := List.mem_filterMap.mp member
    obtain ⟨same, -, bits⟩ := (missingEntry_spec secrets ent).1 m taken
    obtain ⟨listed, missing⟩ := (bits v).mp set
    rw [same]
    exact ⟨⟨ent, inside, rfl, listed⟩, missing⟩
  · rintro ⟨⟨ent, inside, rfl, set⟩, missing⟩
    cases taken : missingEntry (getSupportedProtocolList secrets) ent with
    | none => exact absurd ((missingEntry_spec secrets ent).2 taken v set) missing
    | some m =>
      obtain ⟨same, -, bits⟩ := (missingEntry_spec secrets ent).1 m taken
      exact ⟨m, List.mem_filterMap.mpr ⟨ent, inside, taken⟩, same, (bits v).mpr ⟨set, missing⟩⟩

theorem missingEntries_eq_nil :
    missingEntries secrets entries = []
      ↔ ∀ name v, (∃ ent ∈ entries, ent.name = name ∧ versions ent.bitmask v) →
        Supported secrets name v := by
  constructor
  · intro empty name v listed
    by_contra missing
    obtain ⟨m, member, -⟩ := (missingEntries_pairs secrets entries name v).mpr ⟨listed, missing⟩
    rw [empty] at member
    cases member
  · intro all
    rw [List.eq_nil_iff_forall_not_mem]
    intro m member
    obtain ⟨ent, inside, taken⟩ := List.mem_filterMap.mp member
    obtain ⟨-, some, bits⟩ := (missingEntry_spec secrets ent).1 m taken
    obtain ⟨v, set⟩ := (ne_zero_iff_versions _).mp some
    obtain ⟨listed, missing⟩ := (bits v).mp set
    exact missing (all ent.name v ⟨ent, inside, rfl, listed⟩)

theorem missingEntries_valid (read : parseProtocolList s = some entries) :
    ∀ m ∈ missingEntries secrets entries, ValidName m.name := by
  intro m member
  obtain ⟨ent, inside, taken⟩ := List.mem_filterMap.mp member
  rw [((missingEntry_spec secrets ent).1 m taken).1]
  exact parseProtocolList_names s entries read ent inside

/-- The answer and the missing list are right. -/
def AllSupportedRight (secrets : Bool) (s : CString) : Prop :=
  ∃ allSupported missingOut,
    protoverAllSupported secrets (some s) = some (allSupported, missingOut)
      ∧ (allSupported = true ↔ ∀ name v, Listed s name v → Supported secrets name v)
      ∧ (allSupported = true → missingOut = none)
      ∧ (allSupported = false → ∃ text, missingOut = some text
        ∧ ∀ name v, Listed text name v ↔ Listed s name v ∧ ¬ Supported secrets name v)

/-- No entry lists all 64 versions of a protocol of which no version is supported here. -/
def NoFullUnsupported (secrets : Bool) (s : CString) : Prop :=
  ∀ entries, parseProtocolList s = some entries → ∀ ent ∈ entries,
    ent.bitmask = BitVec.allOnes 64 → ∃ v, Supported secrets ent.name v

theorem missingEntries_notFull (read : parseProtocolList s = some entries) :
    (∀ m ∈ missingEntries secrets entries, m.bitmask ≠ BitVec.allOnes 64)
      ↔ NoFullUnsupported secrets s := by
  constructor
  · intro notFull entries' read' ent member full
    rw [read] at read'
    cases read'
    by_contra never
    rw [not_exists] at never
    cases taken : missingEntry (getSupportedProtocolList secrets) ent with
    | none =>
      have set : versions ent.bitmask 0 := by
        rw [full]
        exact (allOnes_versions 0).mpr (by decide)
      exact never 0 ((missingEntry_spec secrets ent).2 taken 0 set)
    | some m =>
      obtain ⟨-, -, bits⟩ := (missingEntry_spec secrets ent).1 m taken
      apply notFull m (List.mem_filterMap.mpr ⟨ent, member, taken⟩)
      apply BitVec.eq_of_getLsbD_eq
      intro v small
      rw [BitVec.getLsbD_allOnes, decide_eq_true small]
      refine (bits v).mpr ⟨?_, never v⟩
      rw [full]
      exact (allOnes_versions v).mpr small
  · intro some m member full
    obtain ⟨ent, inside, taken⟩ := List.mem_filterMap.mp member
    obtain ⟨-, -, bits⟩ := (missingEntry_spec secrets ent).1 m taken
    have every : ∀ v, v < 64 → versions ent.bitmask v ∧ ¬ Supported secrets ent.name v := by
      intro v small
      rw [← bits, full]
      exact (allOnes_versions v).mpr small
    have entFull : ent.bitmask = BitVec.allOnes 64 := by
      apply BitVec.eq_of_getLsbD_eq
      intro v small
      rw [BitVec.getLsbD_allOnes, decide_eq_true small]
      exact (every v small).1
    obtain ⟨v, mine, mineMember, mineName, set⟩ := some entries read ent inside entFull
    exact (every v (versions_lt set)).2 ⟨mine, mineMember, mineName, set⟩

theorem protoverAllSupported_right_iff :
    AllSupportedRight secrets s ↔ NoFullUnsupported secrets s := by
  cases read : parseProtocolList s with
  | none =>
    have nothing : ∀ name v, ¬ Listed s name v := by
      rintro name v ⟨entries, read', -⟩
      rw [read] at read'
      cases read'
    have answer : protoverAllSupported secrets (some s) = some (true, none) := by
      rw [protoverAllSupported, Option.bind_some, read]
    apply iff_of_true
    · refine ⟨true, none, answer, ?_, fun _ => rfl, fun absurd => by cases absurd⟩
      exact iff_of_true rfl fun name v listed => absurd listed (nothing name v)
    · intro entries read'
      rw [read] at read'
      cases read'
  | some entries =>
    have listed : ∀ name v, Listed s name v
        ↔ ∃ ent ∈ entries, ent.name = name ∧ versions ent.bitmask v := by
      intro name v
      unfold Listed
      rw [read]
      simp only [Option.some.injEq, exists_eq_left']
    have answer : protoverAllSupported secrets (some s)
        = if missingEntries secrets entries = [] then some (true, none)
          else (encodeProtocolList (missingEntries secrets entries)).map (false, some ·) := by
      rw [protoverAllSupported, Option.bind_some, read, missingEntries]
      dsimp only
      cases encodeProtocolList (entries.filterMap _) <;> rfl
    rw [← missingEntries_notFull secrets s entries read]
    constructor
    · rintro ⟨allSupported, missingOut, answered, -⟩
      rw [answer] at answered
      split at answered
      next empty =>
        rw [empty]
        simp
      next =>
        obtain ⟨text, encoded, -⟩ := Option.map_eq_some_iff.mp answered
        exact encodeProtocolList_notFull _ text encoded
    · intro notFull
      by_cases empty : missingEntries secrets entries = []
      · refine ⟨true, none, by rw [answer, if_pos empty], ?_, fun _ => rfl,
          fun absurd => by cases absurd⟩
        simp only [listed]
        exact iff_of_true trivial ((missingEntries_eq_nil secrets entries).mp empty)
      · obtain ⟨text, encoded, readBack⟩ := encodeProtocolList_total _
          (missingEntries_valid secrets s entries read) notFull
        refine ⟨false, some text, ?_, ?_, ?_, ?_⟩
        · rw [answer, if_neg empty, encoded]
          rfl
        · simp only [listed]
          exact iff_of_false Bool.false_ne_true
            fun all => empty ((missingEntries_eq_nil secrets entries).mpr all)
        · intro absurd
          cases absurd
        · intro _
          refine ⟨text, rfl, ?_⟩
          intro name v
          rw [listed, ← missingEntries_pairs]
          unfold Listed
          rw [readBack]
          simp only [Option.some.injEq, exists_eq_left']

/-- The two queries agree and the missing list is right, each exactly under its condition. -/
theorem protocolQueries_agree_iff (secrets : Bool) (list : CString) (tp : ProtocolType)
    (version : Nat) (_known : version ≤ maxProtocolVersion) (s : CString) :
    ((protocolListSupportsProtocolOrLater list tp version = true
        ↔ ∃ later, version ≤ later ∧ later ≤ maxProtocolVersion
          ∧ protocolListSupportsProtocol list tp later = true)
        ∧ AllSupportedRight secrets s)
      ↔ FirstEntryServes list tp version ∧ NoFullUnsupported secrets s :=
  and_congr (orLater_agrees_iff list tp version) (protoverAllSupported_right_iff secrets s)

theorem parseProtocolList_lowercase :
    parseProtocolList [108, 105, 110, 107, 61, 51]
      = some [{ name := [108, 105, 110, 107], bitmask := 8 }] :=
  parseProtocolList_entryText [108, 105, 110, 107] [(3, 3)] [] [] [] (by decide) (by decide)
    (Or.inl ⟨rfl, rfl⟩) (by rw [parseProtocolList, if_pos rfl])

/-- `link=3` supports version 3 of `Link` or a later one, and none of them. -/
theorem orLater_disagrees :
    protocolListSupportsProtocolOrLater [108, 105, 110, 107, 61, 51] .link 3 = true
      ∧ ∀ later, 3 ≤ later → later ≤ maxProtocolVersion →
        protocolListSupportsProtocol [108, 105, 110, 107, 61, 51] .link later = false := by
  constructor
  · rw [protocolListSupportsProtocolOrLater, parseProtocolList_lowercase]
    decide +kernel
  · intro later _ small
    rw [protocolListSupportsProtocol, parseProtocolList_lowercase]
    dsimp only
    rw [protocolListContains, if_neg (by omega)]
    rfl

theorem protocolQueries_agree_iff_lowercase :
    ((protocolListSupportsProtocolOrLater [108, 105, 110, 107, 61, 51] .link 3 = true
        ↔ ∃ later, 3 ≤ later ∧ later ≤ maxProtocolVersion
          ∧ protocolListSupportsProtocol [108, 105, 110, 107, 61, 51] .link later = true)
        ∧ AllSupportedRight true [108, 105, 110, 107, 61, 51])
      ↔ FirstEntryServes [108, 105, 110, 107, 61, 51] .link 3
        ∧ NoFullUnsupported true [108, 105, 110, 107, 61, 51] :=
  protocolQueries_agree_iff true [108, 105, 110, 107, 61, 51] .link 3 (by decide)
    [108, 105, 110, 107, 61, 51]

end RendezMix.Guarantees.ProtocolQueries
