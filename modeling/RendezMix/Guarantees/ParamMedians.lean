import RendezMix.Guarantees.ParamVotes

/-!
# What authorities agree on for a parameter

`dirvote_compute_params` goes through the sorted parameters of all votes. Those with one
keyword are neighbours there, so each keyword has one series, whose values are the ones that
were voted for exactly this keyword. The result is in the order that the parser asks for, and
`dirvote_get_intermediate_param_value` finds the medians in it.
-/
namespace RendezMix.Guarantees.ParamMedians
open Source Library.Decimals Library.Sorting
open Std (TransCmp OrientedCmp ReflCmp)

/-! ## A parameter as text -/

/-- `keyword=value` -/
def paramEntry (keyword : CString) (value : Int) : CString :=
  keyword ++ equalsSign :: longText value

variable {votes : List NetworkVote} {entries : List CString} {first keyword : CString}
  {params : List CString} {second : CString} {value : Int} {totalAuthorities : Nat}

theorem paramKeyword_paramEntry (noSign : equalsSign ∉ keyword) (value : Int) :
    paramKeyword (paramEntry keyword value) = keyword := by
  apply paramKeyword_of_starts noSign
  exact ⟨longText value, by rw [paramEntry, List.append_assoc]; rfl⟩

theorem torParseLong_longText (low : -int32Bound ≤ value) (high : value ≤ int32Bound - 1) :
    torParseLong (longText value) (-int32Bound) (int32Bound - 1) = some value := by
  have read := readDecimal_decimal value.natAbs [] (by simp)
  rw [List.append_nil] at read
  obtain ⟨d, ds, digits⟩ := List.exists_cons_of_ne_nil (decimal_ne_nil value.natAbs)
  have digit := decimal_isDigit value.natAbs d (by rw [digits]; exact List.mem_cons_self)
  have plain : isSpace d = false ∧ d ≠ 45 ∧ d ≠ 43 := by
    rw [isDigit, Bool.and_eq_true, decide_eq_true_eq, decide_eq_true_eq, UInt8.le_iff_toNat_le,
      UInt8.le_iff_toNat_le] at digit
    have bounds : 48 ≤ d.toNat ∧ d.toNat ≤ 57 := digit
    refine ⟨?_, ?_, ?_⟩
    · rw [isSpace, Bool.or_eq_false_iff, Bool.and_eq_false_iff, decide_eq_false_iff_not,
        decide_eq_false_iff_not, beq_eq_false_iff_ne]
      omega
    · intro same
      rw [same] at bounds
      exact absurd bounds.1 (by decide)
    · intro same
      rw [same] at bounds
      exact absurd bounds.1 (by decide)
  unfold int32Bound at low high ⊢
  unfold torParseLong longText strtol10
  by_cases negative : value < 0
  · rw [if_pos negative]
    have start : (45 :: decimal value.natAbs).dropWhile isSpace = 45 :: decimal value.natAbs := rfl
    dsimp only
    rw [start, List.head?_cons, if_pos (Or.inl rfl), List.drop_one, List.tail_cons, read]
    dsimp only
    rw [if_pos (rfl : some (45 : UInt8) = some 45), if_neg (by omega)]
    dsimp only
    rw [if_neg (fun bad => bad.elim (fun left => left rfl) (fun outside => by omega))]
    congr 1
    omega
  · rw [if_neg negative]
    have start : (decimal value.natAbs).dropWhile isSpace = decimal value.natAbs := by
      rw [digits, List.dropWhile_cons_of_neg (by rw [plain.1]; decide)]
    have noSign : ¬ ((decimal value.natAbs).head? = some 45) := by
      rw [digits, List.head?_cons, Option.some_inj]
      exact plain.2.1
    have noPlus : ¬ ((decimal value.natAbs).head? = some 43) := by
      rw [digits, List.head?_cons, Option.some_inj]
      exact plain.2.2
    dsimp only
    rw [start, if_neg (not_or.mpr ⟨noSign, noPlus⟩), read]
    dsimp only
    rw [if_neg noSign, if_neg (by omega)]
    dsimp only
    rw [if_neg (fun bad => bad.elim (fun left => left rfl) (fun outside => by omega))]
    congr 1
    omega

theorem paramValue_range {param : CString} (read : paramValue param = some value) :
    -int32Bound ≤ value ∧ value ≤ int32Bound - 1 := by
  obtain ⟨text, -, read⟩ := Option.bind_eq_some_iff.mp read
  unfold torParseLong at read
  split at read
  · cases read
  · cases read
  · split at read
    · cases read
    · next inside =>
      cases read
      omega

theorem paramValue_paramEntry (noSign : equalsSign ∉ keyword) (low : -int32Bound ≤ value)
    (high : value ≤ int32Bound - 1) : paramValue (paramEntry keyword value) = some value := by
  have sign : equalsSign ∈ paramEntry keyword value :=
    List.mem_append_right _ List.mem_cons_self
  have text : (paramEntry keyword value).drop (keyword.length + 1) = longText value := by
    rw [paramEntry, ← List.drop_drop, List.drop_left]
    rfl
  rw [paramValue, paramText, if_pos sign, paramKeyword_paramEntry noSign, text, Option.bind_some,
    torParseLong_longText low high]

/-! ## Series -/

/-- The values that a list has for a keyword. -/
def valuesOf (keyword : CString) (params : List CString) : List Int :=
  (params.filter (hasKeyword keyword)).filterMap paramValue

/-- The keywords of a list, of neighbours with one keyword once. -/
def keywordsOf : List CString → List CString
  | [] => []
  | [param] => [paramKeyword param]
  | param :: nextParam :: rest =>
    if paramKeyword nextParam = paramKeyword param then keywordsOf (nextParam :: rest)
    else paramKeyword param :: keywordsOf (nextParam :: rest)

/-- Enough votes set a parameter. -/
def Enough (totalAuthorities votes : Nat) : Prop := 2 * votes > totalAuthorities ∨ votes ≥ 3

instance (totalAuthorities votes : Nat) : Decidable (Enough totalAuthorities votes) :=
  inferInstanceAs (Decidable (_ ∨ _))

/-- What a series of values adds to the result. -/
def medianEntry (totalAuthorities : Nat) (keyword : CString) (vals : List Int) : List CString :=
  if Enough totalAuthorities vals.length then
    ((median vals).map fun value => paramEntry keyword value).toList
  else []

theorem paramSeries_eq (totalAuthorities : Nat) (param : CString) (vals : List Int)
    (sign : equalsSign ∈ param) (nonempty : vals ≠ []) :
    paramSeries totalAuthorities param ((paramKeyword param).length + 1) vals =
      some (medianEntry totalAuthorities (paramKeyword param) vals) := by
  have start := paramKeyword_starts sign
  rw [List.prefix_iff_eq_take, List.length_append, List.length_singleton] at start
  have same : (vals.length > totalAuthorities / 2 ∨ vals.length ≥ minVotesForParam) ↔
      Enough totalAuthorities vals.length := by
    unfold Enough minVotesForParam
    omega
  unfold paramSeries medianEntry
  by_cases enough : Enough totalAuthorities vals.length
  · obtain ⟨value, found⟩ := Option.isSome_iff_exists.mp (median_isSome nonempty)
    rw [if_pos (same.mpr enough), if_pos enough, found, ← start]
    simp [paramEntry]
  · rw [if_neg (fun votes => enough (same.mp votes)), if_neg enough]

/-- Parameters with one keyword are neighbours. -/
def Contiguous (params : List CString) : Prop :=
  ∀ before_ param nextParam rest, params = before_ ++ param :: nextParam :: rest →
    paramKeyword nextParam ≠ paramKeyword param →
    ∀ other ∈ nextParam :: rest, paramKeyword other ≠ paramKeyword param

theorem Contiguous.tail {param : CString} (contiguous : Contiguous (param :: params)) :
    Contiguous params := by
  intro before_ here nextParam rest split
  exact contiguous (param :: before_) here nextParam rest (by rw [split]; rfl)

theorem valuesOf_cons (keyword param : CString) (params : List CString)
    (read : paramValue param = some value) : valuesOf keyword (param :: params) =
      (if paramKeyword param = keyword then [value] else []) ++ valuesOf keyword params := by
  unfold valuesOf
  rw [List.filter_cons]
  by_cases has : paramKeyword param = keyword
  · rw [if_pos (by rwa [hasKeyword, decide_eq_true_eq]), if_pos has,
      List.filterMap_cons_some read]
    rfl
  · rw [if_neg (by rwa [hasKeyword, decide_eq_true_eq]), if_neg has]
    rfl

theorem valuesOf_none (absent : ∀ other ∈ params, paramKeyword other ≠ keyword) :
    valuesOf keyword params = [] := by
  have none_ : params.filter (hasKeyword keyword) = [] := by
    rw [List.filter_eq_nil_iff]
    intro other member
    rw [hasKeyword, decide_eq_true_eq]
    exact absent other member
  rw [valuesOf, none_]
  rfl

theorem mem_keywordsOf (keyword : CString) (params : List CString) :
    keyword ∈ keywordsOf params ↔ ∃ param ∈ params, paramKeyword param = keyword := by
  induction params with
  | nil => simp [keywordsOf]
  | cons param params ih =>
    cases params with
    | nil => simp [keywordsOf, eq_comm]
    | cons nextParam rest =>
      rw [keywordsOf, List.exists_mem_cons_iff]
      by_cases same : paramKeyword nextParam = paramKeyword param
      · rw [if_pos same, ih, List.exists_mem_cons_iff, same]
        tauto
      · rw [if_neg same, List.mem_cons, ih, eq_comm]

theorem strncmpDiffers_iff {param nextParam : CString} (sign : equalsSign ∈ param)
    (nextSign : equalsSign ∈ nextParam) :
    strncmpDiffers nextParam param ((paramKeyword param).length + 1) = true ↔
      paramKeyword nextParam ≠ paramKeyword param := by
  constructor
  · intro differs same
    have start := paramKeyword_starts sign
    have nextStart := paramKeyword_starts nextSign
    rw [List.prefix_iff_eq_take, List.length_append, List.length_singleton] at start nextStart
    rw [same] at nextStart
    rw [strncmpDiffers, decide_eq_true_eq, ← start, ← nextStart] at differs
    exact differs rfl
  · intro differ
    by_contra same
    exact differ (paramKeyword_of_sameStart sign (Bool.eq_false_iff.mpr same))

/-- The loop gives the median entries of its series; the first of them has begun with `vals`. -/
theorem paramLoop_eq (nVotes totalAuthorities : Nat) (vals : List Int) (param : CString)
    (rest : List CString) (valid : ∀ other ∈ param :: rest, (paramValue other).isSome)
    (contiguous : Contiguous (param :: rest)) (out : List CString)
    (ran : paramLoop nVotes totalAuthorities vals ((paramKeyword param).length + 1)
      (param :: rest) = some out) :
    out = (keywordsOf (param :: rest)).flatMap fun keyword => medianEntry totalAuthorities keyword
      ((if keyword = paramKeyword param then vals else [])
        ++ valuesOf keyword (param :: rest)) := by
  induction rest generalizing param vals out with
  | nil =>
    obtain ⟨value, read⟩ := Option.isSome_iff_exists.mp (valid param List.mem_cons_self)
    have sign := paramValue_equalsSign (valid param List.mem_cons_self)
    unfold paramLoop at ran
    rw [read] at ran
    split at ran
    · dsimp only at ran
      rw [paramSeries_eq totalAuthorities param (vals ++ [value]) sign (by simp)] at ran
      cases ran
      rw [keywordsOf, List.flatMap_singleton, if_pos rfl, valuesOf_cons _ param [] read, if_pos rfl]
      rfl
    · cases ran
  | cons nextParam later ih =>
    obtain ⟨value, read⟩ := Option.isSome_iff_exists.mp (valid param List.mem_cons_self)
    have sign := paramValue_equalsSign (valid param List.mem_cons_self)
    have validLater : ∀ other ∈ nextParam :: later, (paramValue other).isSome :=
      fun other member => valid other (List.mem_cons_of_mem param member)
    unfold paramLoop at ran
    rw [read] at ran
    split at ran
    · dsimp only at ran
      have nextSign := paramValue_equalsSign (validLater nextParam List.mem_cons_self)
      split at ran
      · next differs =>
        have other := (strncmpDiffers_iff sign nextSign).mp differs
        obtain ⟨text, found⟩ :=
          Option.isSome_iff_exists.mp ((paramText_isSome nextParam).mpr nextSign)
        rw [paramSeries_eq totalAuthorities param (vals ++ [value]) sign (by simp), found] at ran
        obtain ⟨outLater, ranLater, rfl⟩ := Option.map_eq_some_iff.mp ran
        have absent := contiguous [] param nextParam later rfl other
        rw [ih [] nextParam validLater contiguous.tail outLater ranLater, keywordsOf, if_neg other,
          List.flatMap_cons, if_pos rfl, valuesOf_cons _ param _ read, if_pos rfl,
          valuesOf_none absent]
        congr 1
        apply List.flatMap_congr
        intro keyword member
        obtain ⟨has, inside, same⟩ := (mem_keywordsOf keyword _).mp member
        have apart : paramKeyword param ≠ keyword := by
          rw [← same]
          exact (absent has inside).symm
        rw [valuesOf_cons _ param _ read, if_neg apart, if_neg apart.symm, ite_self]
        rfl
      · next same =>
        have equal : paramKeyword nextParam = paramKeyword param := by
          by_contra differ
          exact same ((strncmpDiffers_iff sign nextSign).mpr differ)
        rw [← equal] at ran
        rw [ih (vals ++ [value]) nextParam validLater contiguous.tail out ran, keywordsOf,
          if_pos equal]
        apply List.flatMap_congr
        intro keyword _
        rw [valuesOf_cons _ param _ read, equal]
        by_cases here : keyword = paramKeyword param
        · rw [if_pos here, if_pos here, if_pos here.symm, List.append_assoc]
        · rw [if_neg here, if_neg here, if_neg (Ne.symm here)]
          rfl
    · cases ran

/-! ## The order of the keywords -/

/-- One keyword comes before another, each with the `=` that ends it. -/
def KeywordLt (first second : CString) : Prop :=
  strcmp (first ++ [equalsSign]) (second ++ [equalsSign]) = .lt

theorem strcmp_keywords (firstPlain : equalsSign ∉ first) (secondPlain : equalsSign ∉ second)
    (differ : first ≠ second) (x y : CString) :
    strcmp (first ++ equalsSign :: x) (second ++ equalsSign :: y) =
      strcmp (first ++ [equalsSign]) (second ++ [equalsSign]) := by
  induction first generalizing second with
  | nil =>
    cases second with
    | nil => exact absurd rfl differ
    | cons d second =>
      have other : compare equalsSign d ≠ .eq := by
        intro same
        exact secondPlain (by rw [Std.compare_eq_iff_eq.mp same]; exact List.mem_cons_self)
      rw [List.nil_append, List.nil_append, List.cons_append, List.cons_append, strcmp_cons,
        strcmp_cons]
      cases order : compare equalsSign d with
      | eq => exact absurd order other
      | lt => rfl
      | gt => rfl
  | cons c first ih =>
    rw [List.mem_cons, not_or] at firstPlain
    cases second with
    | nil =>
      have other : compare c equalsSign ≠ .eq := by
        intro same
        exact firstPlain.1 (Std.compare_eq_iff_eq.mp same).symm
      rw [List.nil_append, List.nil_append, List.cons_append, List.cons_append, strcmp_cons,
        strcmp_cons]
      cases order : compare c equalsSign with
      | eq => exact absurd order other
      | lt => rfl
      | gt => rfl
    | cons d second =>
      rw [List.mem_cons, not_or] at secondPlain
      rw [List.cons_append, List.cons_append, List.cons_append, List.cons_append, strcmp_cons,
        strcmp_cons]
      cases order : compare c d with
      | eq =>
        have same := Std.compare_eq_iff_eq.mp order
        rw [Ordering.eq_then, Ordering.eq_then]
        exact ih firstPlain.2 secondPlain.2 (fun equal => differ (by rw [same, equal]))
      | lt => rfl
      | gt => rfl

theorem keywordLt_of_isLE (firstSign : equalsSign ∈ first) (secondSign : equalsSign ∈ second)
    (le : (strcmp first second).isLE = true) (differ : paramKeyword first ≠ paramKeyword second) :
    KeywordLt (paramKeyword first) (paramKeyword second) := by
  obtain ⟨x, firstText⟩ := paramKeyword_starts firstSign
  obtain ⟨y, secondText⟩ := paramKeyword_starts secondSign
  rw [List.append_assoc, List.singleton_append] at firstText secondText
  have order := strcmp_keywords (paramKeyword_noSign first) (paramKeyword_noSign second) differ x y
  rw [firstText, secondText] at order
  unfold KeywordLt
  rw [← order]
  cases result : strcmp first second with
  | lt => rfl
  | eq =>
    have same : first = second := Std.compare_eq_iff_eq.mp result
    exact absurd (congrArg paramKeyword same) differ
  | gt =>
    rw [result] at le
    cases le

section

variable (signs : ∀ param ∈ params, equalsSign ∈ param)
  (sorted : params.Pairwise fun a b => (strcmp a b).isLE = true)

include signs sorted

theorem contiguous_of_sorted : Contiguous params := by
  intro before_ param nextParam rest split differ other member same
  rw [split, List.pairwise_append] at sorted
  obtain ⟨-, sorted, -⟩ := sorted
  rw [List.pairwise_cons, List.pairwise_cons] at sorted
  obtain ⟨first, second, -⟩ := sorted
  have sign : equalsSign ∈ param := signs param (by rw [split]; simp)
  have otherSign : equalsSign ∈ other := signs other (by
    rw [split]
    exact List.mem_append_right _ (List.mem_cons_of_mem _ member))
  obtain rfl | later := List.mem_cons.mp member
  · exact differ same
  · have otherStart := paramKeyword_starts otherSign
    rw [same] at otherStart
    exact differ (paramKeyword_of_starts (paramKeyword_noSign param)
      (prefix_between _ param nextParam other (paramKeyword_starts sign) otherStart
        (first nextParam List.mem_cons_self) (second other later)))

theorem keywordsOf_pairwise : (keywordsOf params).Pairwise KeywordLt := by
  have contiguous := contiguous_of_sorted signs sorted
  induction params with
  | nil => exact List.Pairwise.nil
  | cons param params ih =>
    cases params with
    | nil => exact List.pairwise_singleton _ _
    | cons nextParam rest =>
      have later := ih (fun other member => signs other (List.mem_cons_of_mem _ member))
        (List.pairwise_cons.mp sorted).2 contiguous.tail
      rw [keywordsOf]
      by_cases same : paramKeyword nextParam = paramKeyword param
      · rw [if_pos same]
        exact later
      · rw [if_neg same, List.pairwise_cons]
        refine ⟨?_, later⟩
        intro keyword member
        obtain ⟨other, inside, rfl⟩ := (mem_keywordsOf keyword _).mp member
        apply keywordLt_of_isLE (signs param List.mem_cons_self)
          (signs other (List.mem_cons_of_mem _ inside))
        · exact (List.pairwise_cons.mp sorted).1 other inside
        · exact (contiguous [] param nextParam rest rfl same other inside).symm

end

/-! ## The result is what the parser takes -/

theorem inOrder_of_pairwise {sl : List CString}
    (ordered : sl.Pairwise fun fst snd => strcmp fst snd = .lt) : inOrder sl = true := by
  induction sl with
  | nil => rfl
  | cons fst sl ih =>
    cases sl with
    | nil => rfl
    | cons snd rest =>
      rw [List.pairwise_cons] at ordered
      rw [inOrder, if_neg (not_not.mpr (ordered.1 snd List.mem_cons_self))]
      exact ih ordered.2

theorem anyDups_of_nodup (distinct : (params.map paramKeyword).Nodup) : anyDups params = false := by
  induction params with
  | nil => rfl
  | cons fst params ih =>
    cases params with
    | nil => rfl
    | cons snd rest =>
      rw [List.map_cons, List.nodup_cons] at distinct
      have differ : paramKeyword fst ≠ paramKeyword snd := by
        intro same
        exact distinct.1 (by rw [same]; exact List.mem_cons_self)
      rw [anyDups, if_neg differ]
      exact ih distinct.2

theorem mem_medianEntry {vals : List Int} {entry : CString} :
    entry ∈ medianEntry totalAuthorities keyword vals ↔
      Enough totalAuthorities vals.length
        ∧ ∃ value, median vals = some value ∧ entry = paramEntry keyword value := by
  unfold medianEntry
  by_cases enough : Enough totalAuthorities vals.length
  · rw [if_pos enough]
    simp [enough, eq_comm]
  · rw [if_neg enough]
    simp [enough]

/-- A list of entries that the loop writes. -/
def Written (entries : List CString) : Prop :=
  ∀ entry ∈ entries, ∃ keyword value, equalsSign ∉ keyword ∧ -int32Bound ≤ value
    ∧ value ≤ int32Bound - 1 ∧ entry = paramEntry keyword value

theorem longText_noSign (value : Int) : equalsSign ∉ longText value := by
  have digits : equalsSign ∉ decimal value.natAbs := by
    intro member
    exact absurd (decimal_isDigit value.natAbs equalsSign member) (by decide)
  unfold longText
  split
  · rw [List.mem_cons, not_or]
    exact ⟨by decide, digits⟩
  · exact digits

theorem isForKeyword_paramEntry {keyword own : CString} (plain : equalsSign ∉ own) (value : Int) :
    isForKeyword keyword (paramEntry own value) = true ↔ keyword = own := by
  rw [isForKeyword, Bool.and_eq_true, decide_eq_true_eq, List.isPrefixOf_iff_prefix, paramEntry]
  constructor
  · intro ⟨start, sign⟩
    have same : keyword.length = own.length := by
      obtain less | same | more := Nat.lt_trichotomy keyword.length own.length
      · rw [List.getElem?_append_left less] at sign
        exact absurd (List.mem_of_getElem? sign) plain
      · exact same
      · rw [List.getElem?_append_right more.le,
          show keyword.length - own.length = keyword.length - own.length - 1 + 1 by omega,
          List.getElem?_cons_succ] at sign
        exact absurd (List.mem_of_getElem? sign) (longText_noSign value)
    rw [List.prefix_iff_eq_take, same, List.take_left] at start
    exact start
  · rintro rfl
    refine ⟨List.prefix_append _ _, ?_⟩
    rw [List.getElem?_append_right (Nat.le_refl _), Nat.sub_self]
    rfl

section

variable (written : Written entries)

include written

theorem findParamValues_eq (keyword : CString) (nFound : Nat) (value : Int) :
    findParamValues keyword entries nFound value =
      some (nFound + (valuesOf keyword entries).length,
        (valuesOf keyword entries).getLastD value) := by
  induction entries generalizing nFound value with
  | nil => rfl
  | cons entry entries ih =>
    have later : Written entries := fun other member =>
      written other (List.mem_cons_of_mem _ member)
    obtain ⟨own, value', plain, low, high, rfl⟩ := written _ List.mem_cons_self
    have text : (paramEntry own value').drop (own.length + 1) = longText value' := by
      rw [paramEntry, ← List.drop_drop, List.drop_left]
      rfl
    rw [findParamValues, valuesOf_cons keyword _ entries (paramValue_paramEntry plain low high),
      paramKeyword_paramEntry plain]
    by_cases here : keyword = own
    · rw [if_pos ((isForKeyword_paramEntry plain value').mpr here), if_pos here.symm, here, text,
        torParseLong_longText low high]
      dsimp only
      rw [← here, ih later, List.singleton_append, List.length_cons, List.getLastD_cons]
      congr 2
      omega
    · rw [if_neg (fun found => here ((isForKeyword_paramEntry plain value').mp found)),
        if_neg (Ne.symm here), ih later]
      rfl

theorem dirvoteGetIntermediateParamValue_found (distinct : (entries.map paramKeyword).Nodup)
    {entry : CString} (member : entry ∈ entries) (read : paramValue entry = some value)
    (defaultVal : Int) :
    dirvoteGetIntermediateParamValue entries (paramKeyword entry) defaultVal = value := by
  have only : entries.filter (hasKeyword (paramKeyword entry)) = [entry] := by
    have once : (entries.filter (hasKeyword (paramKeyword entry))).length ≤ 1 := by
      rw [← List.countP_eq_length_filter]
      have count := List.nodup_iff_count_le_one.mp distinct (paramKeyword entry)
      rw [List.count, List.countP_map] at count
      apply le_trans (List.countP_mono_left _) count
      intro other _ has
      rw [hasKeyword, decide_eq_true_eq] at has
      simpa using has
    have inside : entry ∈ entries.filter (hasKeyword (paramKeyword entry)) := by
      rw [List.mem_filter]
      exact ⟨member, by rw [hasKeyword, decide_eq_true_eq]⟩
    obtain ⟨other, single⟩ := List.length_eq_one_iff.mp
      (le_antisymm once (List.length_pos_of_mem inside))
    rw [single, List.mem_singleton] at inside
    rw [single, inside]
  have values : valuesOf (paramKeyword entry) entries = [value] := by
    rw [valuesOf, only, List.filterMap_cons_some read]
    rfl
  rw [dirvoteGetIntermediateParamValue, findParamValues_eq written, values]
  rfl

theorem dirvoteGetIntermediateParamValue_absent (absent : keyword ∉ entries.map paramKeyword)
    (defaultVal : Int) :
    dirvoteGetIntermediateParamValue entries keyword defaultVal = defaultVal := by
  have values : valuesOf keyword entries = [] := by
    apply valuesOf_none
    intro other member same
    exact absent (by rw [← same]; exact List.mem_map_of_mem member)
  rw [dirvoteGetIntermediateParamValue, findParamValues_eq written, values]
  rfl

end

/-! ## The medians -/

/-- The values that the votes have for a keyword, one for each vote that lists it. -/
def votedValues (votes : List NetworkVote) (keyword : CString) : List Int :=
  votes.filterMap fun v => ((v.netParams.getD []).find? (hasKeyword keyword)).bind paramValue

theorem paramsAccepted_spec (accepted : paramsAccepted params = true) :
    (∀ param ∈ params, (paramValue param).isSome) ∧ inOrder params = true
      ∧ anyDups params = false := by
  rw [paramsAccepted, Bool.and_eq_true, Bool.and_eq_true, List.all_eq_true] at accepted
  exact ⟨accepted.1.1, accepted.1.2, by simpa using accepted.2⟩

theorem filter_eq_find {α : Type*} {p : α → Bool} {l : List α} (once : l.countP p ≤ 1) :
    l.filter p = (l.find? p).toList := by
  induction l with
  | nil => rfl
  | cons a l ih =>
    rw [List.countP_cons] at once
    cases holds : p a with
    | true =>
      rw [holds, if_pos rfl] at once
      have none_ : l.filter p = [] := by
        rw [← List.length_eq_zero_iff, ← List.countP_eq_length_filter]
        omega
      rw [List.filter_cons_of_pos holds, List.find?_cons_of_pos holds, none_]
      rfl
    | false =>
      rw [holds, if_neg (by decide)] at once
      rw [List.filter_cons_of_neg (by rw [holds]; decide), ih once,
        List.find?_cons_of_neg (by rw [holds]; decide)]

theorem valuesOf_append (keyword : CString) (a b : List CString) :
    valuesOf keyword (a ++ b) = valuesOf keyword a ++ valuesOf keyword b := by
  rw [valuesOf, List.filter_append, List.filterMap_append]
  rfl

theorem valuesOf_flatMap (votes : List NetworkVote) (keyword : CString)
    (accepted : ∀ v ∈ votes, paramsAccepted (v.netParams.getD []) = true) :
    valuesOf keyword (votes.flatMap fun v => v.netParams.getD []) = votedValues votes keyword := by
  induction votes with
  | nil => rfl
  | cons v votes ih =>
    obtain ⟨valid, ordered, distinct⟩ := paramsAccepted_spec (accepted v List.mem_cons_self)
    have once := params_one_keyword _ valid ordered distinct keyword
    have later := ih fun other member => accepted other (List.mem_cons_of_mem _ member)
    rw [List.flatMap_cons, valuesOf_append, later, valuesOf, filter_eq_find once]
    unfold votedValues
    cases found : (v.netParams.getD []).find? (hasKeyword keyword) with
    | none =>
      rw [List.filterMap_cons_none (by rw [found]; rfl)]
      rfl
    | some param =>
      obtain ⟨value, read⟩ :=
        Option.isSome_iff_exists.mp (valid param (List.mem_of_find?_eq_some found))
      rw [List.filterMap_cons_some (by rw [found, Option.bind_some]; exact read),
        Option.toList_some, List.filterMap_cons_some read]
      rfl

theorem median_perm {l l' : List Int} (perm : l.Perm l') : median l = median l' := by
  have same := (insertionSorter (compare : Int → Int → Ordering)).eq_of_perm
    (insertionSorter compare) perm fun _ _ _ _ equal => Std.compare_eq_iff_eq.mp equal
  rw [median, median, findNth, findNth, same, perm.length_eq]

/-- All parameters of the votes in order. -/
def sortedParams (votes : List NetworkVote) : List CString :=
  smartlistSortStrings (votes.flatMap fun v => v.netParams.getD [])

theorem valuesOf_sortedParams (votes : List NetworkVote) (keyword : CString)
    (accepted : ∀ v ∈ votes, paramsAccepted (v.netParams.getD []) = true) :
    (valuesOf keyword (sortedParams votes)).Perm (votedValues votes keyword) := by
  rw [← valuesOf_flatMap votes keyword accepted]
  have perm := (insertionSorter strcmp).perm (votes.flatMap fun v => v.netParams.getD [])
  exact (perm.filter _).filterMap _

/-- The entries of the keywords that enough votes list. -/
def agreedEntries (votes : List NetworkVote) (totalAuthorities : Nat) : List CString :=
  (keywordsOf (sortedParams votes)).flatMap fun keyword =>
    medianEntry totalAuthorities keyword (valuesOf keyword (sortedParams votes))

theorem sortedParams_valid (accepted : ∀ v ∈ votes, paramsAccepted (v.netParams.getD []) = true) :
    ∀ param ∈ sortedParams votes, (paramValue param).isSome := by
  intro param member
  obtain ⟨v, inside, mem⟩ :=
    List.mem_flatMap.mp (((insertionSorter strcmp).perm _).mem_iff.mp member)
  exact (paramsAccepted_spec (accepted v inside)).1 param mem

theorem sortedParams_ordered (votes : List NetworkVote) :
    (sortedParams votes).Pairwise fun a b => (strcmp a b).isLE = true :=
  (insertionSorter strcmp).ordered _

theorem dirvoteComputeParams_eq (votes : List NetworkVote) (totalAuthorities : Nat)
    (accepted : ∀ v ∈ votes, paramsAccepted (v.netParams.getD []) = true) :
    dirvoteComputeParams votes totalAuthorities = some (agreedEntries votes totalAuthorities) := by
  obtain ⟨out, ran⟩ := Option.isSome_iff_exists.mp
    (dirvoteComputeParams_isSome votes totalAuthorities accepted)
  have valid := sortedParams_valid accepted
  have contiguous := contiguous_of_sorted
    (fun param member => paramValue_equalsSign (valid param member)) (sortedParams_ordered votes)
  rw [ran, agreedEntries]
  have listed : smartlistSortStrings (votes.flatMap fun v => v.netParams.getD []) =
      sortedParams votes := rfl
  simp only [dirvoteComputeParams, listed] at ran
  cases sorted : sortedParams votes with
  | nil =>
    rw [sorted] at ran
    cases ran
    rfl
  | cons curParam rest =>
    rw [sorted] at ran valid contiguous
    dsimp only at ran
    split at ran
    · cases ran
    · have values := paramLoop_eq votes.length totalAuthorities [] curParam rest valid contiguous
        out ran
      rw [values]
      congr 1
      apply List.flatMap_congr
      intro keyword _
      rw [ite_self, List.nil_append]

/-! ## The entries of the result -/

theorem strcmp_paramEntry (less : KeywordLt first second) (firstPlain : equalsSign ∉ first)
    (secondPlain : equalsSign ∉ second) (x y : Int) :
    strcmp (paramEntry first x) (paramEntry second y) = .lt := by
  have differ : first ≠ second := by
    rintro rfl
    have same : strcmp (first ++ [equalsSign]) (first ++ [equalsSign]) = .eq :=
      ReflCmp.compare_self
    rw [KeywordLt, same] at less
    cases less
  rw [paramEntry, paramEntry, strcmp_keywords firstPlain secondPlain differ]
  exact less

theorem mem_agreedEntries (accepted : ∀ v ∈ votes, paramsAccepted (v.netParams.getD []) = true)
    (entry : CString) :
    entry ∈ agreedEntries votes totalAuthorities ↔ ∃ keyword value, equalsSign ∉ keyword
      ∧ Enough totalAuthorities (votedValues votes keyword).length
      ∧ median (votedValues votes keyword) = some value ∧ entry = paramEntry keyword value := by
  rw [agreedEntries, List.mem_flatMap]
  constructor
  · intro ⟨keyword, listed, member⟩
    obtain ⟨param, _, rfl⟩ := (mem_keywordsOf keyword _).mp listed
    have perm := valuesOf_sortedParams votes (paramKeyword param) accepted
    obtain ⟨enough, value, middle, written⟩ := mem_medianEntry.mp member
    rw [perm.length_eq] at enough
    rw [median_perm perm] at middle
    exact ⟨_, value, paramKeyword_noSign param, enough, middle, written⟩
  · intro ⟨keyword, value, _, enough, middle, written⟩
    have perm := valuesOf_sortedParams votes keyword accepted
    refine ⟨keyword, ?_, mem_medianEntry.mpr ⟨?_, value, ?_, written⟩⟩
    · apply (mem_keywordsOf keyword _).mpr
      have inside := perm.mem_iff.mpr (median_mem middle)
      obtain ⟨param, member, _⟩ := List.mem_filterMap.mp inside
      rw [List.mem_filter, hasKeyword, decide_eq_true_eq] at member
      exact ⟨param, member.1, member.2⟩
    · rw [perm.length_eq]
      exact enough
    · rw [median_perm perm]
      exact middle

theorem median_range (middle : median (votedValues votes keyword) = some value) :
    -int32Bound ≤ value ∧ value ≤ int32Bound - 1 := by
  obtain ⟨v, -, found⟩ := List.mem_filterMap.mp (median_mem middle)
  obtain ⟨param, -, read⟩ := Option.bind_eq_some_iff.mp found
  exact paramValue_range read

section

variable (accepted : ∀ v ∈ votes, paramsAccepted (v.netParams.getD []) = true)

include accepted

theorem agreedEntries_written : Written (agreedEntries votes totalAuthorities) := by
  intro entry member
  obtain ⟨keyword, value, plain, -, middle, rfl⟩ := (mem_agreedEntries accepted entry).mp member
  obtain ⟨low, high⟩ := median_range middle
  exact ⟨keyword, value, plain, low, high, rfl⟩

theorem agreedEntries_pairwise :
    (agreedEntries votes totalAuthorities).Pairwise fun fst snd =>
      KeywordLt (paramKeyword fst) (paramKeyword snd) := by
  have keywords := keywordsOf_pairwise
    (fun param member => paramValue_equalsSign (sortedParams_valid accepted param member))
    (sortedParams_ordered votes)
  have plain : ∀ keyword ∈ keywordsOf (sortedParams votes), equalsSign ∉ keyword := by
    intro keyword member
    obtain ⟨param, -, rfl⟩ := (mem_keywordsOf keyword _).mp member
    exact paramKeyword_noSign param
  rw [agreedEntries, List.pairwise_flatMap]
  constructor
  · intro keyword _
    unfold medianEntry
    split
    · cases median (valuesOf keyword (sortedParams votes)) with
      | none => exact List.Pairwise.nil
      | some => exact List.pairwise_singleton _ _
    · exact List.Pairwise.nil
  · apply keywords.imp_of_mem
    intro first second firstIn secondIn less fst fstIn snd sndIn
    obtain ⟨-, x, -, rfl⟩ := mem_medianEntry.mp fstIn
    obtain ⟨-, y, -, rfl⟩ := mem_medianEntry.mp sndIn
    rw [paramKeyword_paramEntry (plain first firstIn),
      paramKeyword_paramEntry (plain second secondIn)]
    exact less

theorem agreedEntries_nodup : ((agreedEntries votes totalAuthorities).map paramKeyword).Nodup := by
  rw [List.Nodup, List.pairwise_map]
  apply (agreedEntries_pairwise accepted).imp
  intro fst snd less same
  have equal : strcmp (paramKeyword snd ++ [equalsSign]) (paramKeyword snd ++ [equalsSign]) = .eq :=
    ReflCmp.compare_self
  rw [KeywordLt, same, equal] at less
  cases less

theorem agreedEntries_accepted : paramsAccepted (agreedEntries votes totalAuthorities) = true := by
  have written : Written (agreedEntries votes totalAuthorities) := agreedEntries_written accepted
  have valid : ∀ entry ∈ agreedEntries votes totalAuthorities, (paramValue entry).isSome := by
    intro entry member
    obtain ⟨keyword, value, plain, low, high, rfl⟩ := written entry member
    rw [paramValue_paramEntry plain low high]
    rfl
  have ordered : inOrder (agreedEntries votes totalAuthorities) = true := by
    apply inOrder_of_pairwise
    apply (agreedEntries_pairwise accepted).imp_of_mem
    intro fst snd fstIn sndIn less
    obtain ⟨first, x, firstPlain, -, -, rfl⟩ := written fst fstIn
    obtain ⟨second, y, secondPlain, -, -, rfl⟩ := written snd sndIn
    rw [paramKeyword_paramEntry firstPlain, paramKeyword_paramEntry secondPlain] at less
    exact strcmp_paramEntry less firstPlain secondPlain x y
  rw [paramsAccepted, anyDups_of_nodup (agreedEntries_nodup accepted), ordered,
    List.all_eq_true.mpr valid]
  rfl

theorem mem_agreedEntries_keyword (keyword : CString) :
    keyword ∈ (agreedEntries votes totalAuthorities).map paramKeyword ↔
      Enough totalAuthorities (votedValues votes keyword).length := by
  rw [List.mem_map]
  constructor
  · intro ⟨entry, member, own⟩
    obtain ⟨listed, value, plain, enough, -, rfl⟩ := (mem_agreedEntries accepted entry).mp member
    rw [paramKeyword_paramEntry plain] at own
    rw [← own]
    exact enough
  · intro enough
    have nonempty : votedValues votes keyword ≠ [] := by
      intro none_
      rw [none_, List.length_nil] at enough
      unfold Enough at enough
      omega
    obtain ⟨value, middle⟩ := Option.isSome_iff_exists.mp (median_isSome nonempty)
    obtain ⟨v, -, found⟩ := List.mem_filterMap.mp (median_mem middle)
    obtain ⟨param, here, -⟩ := Option.bind_eq_some_iff.mp found
    have own := List.find?_some here
    rw [hasKeyword, decide_eq_true_eq] at own
    have plain : equalsSign ∉ keyword := by
      rw [← own]
      exact paramKeyword_noSign param
    exact ⟨paramEntry keyword value,
      (mem_agreedEntries accepted _).mpr ⟨keyword, value, plain, enough, middle, rfl⟩,
      paramKeyword_paramEntry plain value⟩

theorem agreedEntries_value {entry : CString}
    (member : entry ∈ agreedEntries votes totalAuthorities) :
    paramValue entry = median (votedValues votes (paramKeyword entry)) := by
  obtain ⟨keyword, value, plain, -, middle, rfl⟩ := (mem_agreedEntries accepted entry).mp member
  obtain ⟨low, high⟩ := median_range middle
  rw [paramKeyword_paramEntry plain, middle, paramValue_paramEntry plain low high]

end

theorem agreedEntries_perm {votes votes' : List NetworkVote} (perm : votes'.Perm votes)
    (totalAuthorities : Nat) :
    agreedEntries votes' totalAuthorities = agreedEntries votes totalAuthorities := by
  rw [agreedEntries, agreedEntries, sortedParams, sortedParams,
    smartlistSortStrings_perm (perm.flatMap_right _)]

/-- The result has one entry for each keyword that enough votes list, with the median of the
values voted for it. The parser takes it, and each median is found in it. -/
theorem dirvoteComputeParams_medians (votes : List NetworkVote) (totalAuthorities : Nat)
    (accepted : ∀ v ∈ votes, paramsAccepted (v.netParams.getD []) = true) :
    ∃ output, (∀ votes', votes'.Perm votes →
        dirvoteComputeParams votes' totalAuthorities = some output)
      ∧ paramsAccepted output = true
      ∧ (output.map paramKeyword).Nodup
      ∧ (∀ keyword, keyword ∈ output.map paramKeyword ↔
        Enough totalAuthorities (votedValues votes keyword).length)
      ∧ (∀ entry ∈ output, paramValue entry = median (votedValues votes (paramKeyword entry)))
      ∧ ∀ keyword defaultVal,
        (Enough totalAuthorities (votedValues votes keyword).length →
          median (votedValues votes keyword) =
            some (dirvoteGetIntermediateParamValue output keyword defaultVal))
        ∧ (¬ Enough totalAuthorities (votedValues votes keyword).length →
          dirvoteGetIntermediateParamValue output keyword defaultVal = defaultVal) := by
  have written : Written (agreedEntries votes totalAuthorities) := agreedEntries_written accepted
  refine ⟨agreedEntries votes totalAuthorities, ?_, agreedEntries_accepted accepted,
    agreedEntries_nodup accepted, mem_agreedEntries_keyword accepted,
    fun entry member => agreedEntries_value accepted member, ?_⟩
  · intro votes' perm
    rw [dirvoteComputeParams_eq votes' totalAuthorities fun v member =>
      accepted v (perm.mem_iff.mp member), agreedEntries_perm perm]
  · intro keyword defaultVal
    rw [← mem_agreedEntries_keyword accepted keyword]
    constructor
    · intro listed
      obtain ⟨entry, member, rfl⟩ := List.mem_map.mp listed
      have value := agreedEntries_value accepted member
      obtain ⟨own, middle, plain, low, high, rfl⟩ := written entry member
      have read := paramValue_paramEntry plain low high
      rw [← value, read, dirvoteGetIntermediateParamValue_found written
        (agreedEntries_nodup accepted) member read]
    · intro absent
      exact dirvoteGetIntermediateParamValue_absent written absent defaultVal

/-- A vote with some parameters. -/
def paramsVote (params : List String) : NetworkVote where
  voterIdentity := ⟨List.replicate 20 0, rfl⟩
  validAfter := 0
  freshUntil := 300
  validUntil := 600
  voteSeconds := 60
  distSeconds := 60
  knownFlags := []
  netParams := some (params.map textBytes)
  hasMeasuredBws := false
  routers := ⟨[], List.Pairwise.nil⟩

def threeVotes : List NetworkVote :=
  [paramsVote ["a-b=1", "a=-5"], paramsVote ["a=7", "ab=2"], paramsVote ["a=-30"]]

/-- Of three votes with `a` it takes the value in the middle, and no other keyword has enough. -/
theorem dirvoteComputeParams_medians_three :
    (∀ v ∈ threeVotes, paramsAccepted (v.netParams.getD []) = true)
      ∧ median (votedValues threeVotes (textBytes "a")) = some (-5)
      ∧ ∃ output, dirvoteComputeParams threeVotes 5 = some output
        ∧ textBytes "a" ∈ output.map paramKeyword := by
  have accepted : ∀ v ∈ threeVotes, paramsAccepted (v.netParams.getD []) = true := by
    decide
  obtain ⟨output, computed, -, -, listed, -⟩ := dirvoteComputeParams_medians threeVotes 5 accepted
  refine ⟨accepted, by decide, output, computed _ (List.Perm.refl _), ?_⟩
  rw [listed]
  decide

end RendezMix.Guarantees.ParamMedians
