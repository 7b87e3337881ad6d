import RendezMix.Source.BandwidthWeights

/-!
# Bandwidth weights

Whenever `networkstatus_compute_bw_weights_v10` returns 1, every weight is between 0 and the
scale, and the weights of each class of relays add up to the scale. It returns 1 unless middle
relays have more than a third of the bandwidth. Then the positions are balanced except where
the bandwidth of a scarce class has to stay with it. A scale that is no positive `int32_t`
fails an assertion.
-/
namespace RendezMix.Guarantees.WeightBalance
open Source.BandwidthWeights

/-! ## What the weights should be -/

/-- Two numbers are apart by no more than a margin. -/
def Near (a b margin : Int) : Prop := a - b ≤ margin ∧ b - a ≤ margin

/-- The weights are fractions of the scale. -/
structure InRange (w : BwWeights) (scale : Int) : Prop where
  wgg : 0 ≤ w.wgg ∧ w.wgg ≤ scale
  wgd : 0 ≤ w.wgd ∧ w.wgd ≤ scale
  wmg : 0 ≤ w.wmg ∧ w.wmg ≤ scale
  wme : 0 ≤ w.wme ∧ w.wme ≤ scale
  wmd : 0 ≤ w.wmd ∧ w.wmd ≤ scale
  wee : 0 ≤ w.wee ∧ w.wee ≤ scale
  wed : 0 ≤ w.wed ∧ w.wed ≤ scale

/-- The bandwidth of each class is divided among the positions. -/
structure SumsUp (w : BwWeights) (scale : Int) : Prop where
  guards : Near (w.wgg + w.wmg) scale 10
  exits : Near (w.wee + w.wme) scale 10
  both : Near (w.wgd + w.wmd + w.wed) scale 10

/-- The bandwidth at the guard position, as a multiple of the scale. -/
def guardPosition (w : BwWeights) (totals : BwTotals) : Int := w.wgg * totals.g + w.wgd * totals.d

def middlePosition (w : BwWeights) (scale : Int) (totals : BwTotals) : Int :=
  totals.m * scale + w.wmd * totals.d + w.wme * totals.e + w.wmg * totals.g

def exitPosition (w : BwWeights) (totals : BwTotals) : Int := w.wee * totals.e + w.wed * totals.d

/-- `(margin*T)/3` -/
def balanceMargin (totals : BwTotals) : Int := (10 * totals.t).tdiv 3

/-- Guards get as much bandwidth as exits and as middle relays. -/
structure Balanced (w : BwWeights) (scale : Int) (totals : BwTotals) : Prop where
  exits : Near (guardPosition w totals) (exitPosition w totals) (balanceMargin totals)
  middles : Near (guardPosition w totals) (middlePosition w scale totals) (balanceMargin totals)

/-- The totals that the weights are computed from. -/
structure Network (totals : BwTotals) : Prop where
  g : 0 < totals.g
  m : 0 < totals.m
  e : 0 < totals.e
  d : 0 < totals.d
  sum : totals.t = totals.g + totals.m + totals.e + totals.d

/-- Neither guards nor exits are scarce. -/
def Case1 (totals : BwTotals) : Prop := 3 * totals.e ≥ totals.t ∧ 3 * totals.g ≥ totals.t

/-- Guards and exits are both scarce. -/
def Case2 (totals : BwTotals) : Prop := 3 * totals.e < totals.t ∧ 3 * totals.g < totals.t

def Case2a (totals : BwTotals) : Prop :=
  Case2 totals ∧ min totals.e totals.g + totals.d < max totals.e totals.g

def Case2b (totals : BwTotals) : Prop :=
  Case2 totals ∧ max totals.e totals.g ≤ min totals.e totals.g + totals.d

/-- One of them is scarce. -/
def Case3 (totals : BwTotals) : Prop := ¬ Case1 totals ∧ ¬ Case2 totals

def Case3a (totals : BwTotals) : Prop :=
  Case3 totals ∧ 3 * (min totals.e totals.g + totals.d) < totals.t

def Case3b (totals : BwTotals) : Prop :=
  Case3 totals ∧ totals.t ≤ 3 * (min totals.e totals.g + totals.d)

/-! ## The check -/

section

variable (w : BwWeights)

theorem checkEq_iff (a b margin : Int) : checkEq a b margin = true ↔ Near a b margin := by
  unfold checkEq Near
  split
  · rw [decide_eq_true_eq]
    omega
  · rw [decide_eq_true_eq]
    omega

theorem rangeCheck_iff (scale : Int) :
    rangeCheck [w.wgg, w.wgd, w.wmg, w.wme, w.wmd, w.wed, w.wee] scale = true ↔
      InRange w scale := by
  simp only [rangeCheck, List.all_cons, List.all_nil, Bool.and_true, Bool.and_eq_true,
    decide_eq_true_eq]
  constructor
  · intro ⟨wgg, wgd, wmg, wme, wmd, wed, wee⟩
    exact ⟨wgg, wgd, wmg, wme, wmd, wee, wed⟩
  · intro range
    exact ⟨range.wgg, range.wgd, range.wmg, range.wme, range.wmd, range.wed, range.wee⟩

theorem sumsUp_iff (scale : Int) : SumsUp w scale ↔
    Near (w.wed + w.wmd + w.wgd) scale 10 ∧ Near (w.wmg + w.wgg) scale 10
      ∧ Near (w.wme + w.wee) scale 10 := by
  unfold Near
  constructor
  · intro ⟨guards, exits, both⟩
    unfold Near at guards exits both
    omega
  · intro ⟨both, guards, exits⟩
    apply SumsUp.mk <;> (unfold Near; omega)

theorem checked_iff (passed : Bool) {error result : BwWeightsError} (other : error ≠ result)
    (rest : BwWeightsError) :
    (if !passed then error else rest) = result ↔ passed = true ∧ rest = result := by
  cases passed with
  | false => simp [other]
  | true => simp

theorem balanced_iff (scale : Int) (totals : BwTotals) :
    Balanced w scale totals ↔
      Near (guardPosition w totals) (exitPosition w totals) (balanceMargin totals)
        ∧ Near (guardPosition w totals) (middlePosition w scale totals) (balanceMargin totals) := by
  constructor
  · intro balanced
    exact ⟨balanced.exits, balanced.middles⟩
  · intro ⟨exits, middles⟩
    exact ⟨exits, middles⟩

theorem networkstatusCheckWeights_iff (scale : Int) (totals : BwTotals) :
    networkstatusCheckWeights w scale totals 10 = .noError ↔
      InRange w scale ∧ SumsUp w scale ∧ Balanced w scale totals := by
  rw [balanced_iff, sumsUp_iff, ← rangeCheck_iff, ← checkEq_iff, ← checkEq_iff, ← checkEq_iff,
    ← checkEq_iff, ← checkEq_iff]
  unfold networkstatusCheckWeights
  rw [checked_iff _ (by decide), checked_iff _ (by decide), checked_iff _ (by decide),
    checked_iff _ (by decide), checked_iff _ (by decide), checked_iff _ (by decide)]
  constructor
  · intro ⟨both, guards, exits, range, balanceEg, balanceMid, _⟩
    exact ⟨range, ⟨both, guards, exits⟩, balanceEg, balanceMid⟩
  · intro ⟨range, ⟨both, guards, exits⟩, balanceEg, balanceMid⟩
    exact ⟨both, guards, exits, range, balanceEg, balanceMid, rfl⟩

theorem networkstatusCheckWeights_mid {w : BwWeights} {scale : Int} {totals : BwTotals}
    (error : networkstatusCheckWeights w scale totals 10 = .balanceMidError) :
    InRange w scale ∧ SumsUp w scale := by
  rw [sumsUp_iff, ← rangeCheck_iff, ← checkEq_iff, ← checkEq_iff, ← checkEq_iff]
  unfold networkstatusCheckWeights at error
  rw [checked_iff _ (by decide), checked_iff _ (by decide), checked_iff _ (by decide),
    checked_iff _ (by decide)] at error
  obtain ⟨both, guards, exits, range, -⟩ := error
  exact ⟨range, both, guards, exits⟩

/-! ## Shares of the scale -/

/-- The weight `scale * part / whole`, rounded down. -/
structure Share (q scale part whole : Int) : Prop where
  nonneg : 0 ≤ q
  le_scale : q ≤ scale
  le : q * whole ≤ scale * part
  lt : scale * part < q * whole + whole

theorem share_tdiv {scale part whole : Int} (scaleNonneg : 0 ≤ scale) (partNonneg : 0 ≤ part)
    (within : part ≤ whole) (positive : 0 < whole) :
    Share ((scale * part).tdiv whole) scale part whole := by
  have product := Int.mul_nonneg scaleNonneg partNonneg
  rw [Int.tdiv_eq_ediv_of_nonneg product]
  constructor
  · exact Int.ediv_nonneg product positive.le
  · have most := Int.mul_le_mul_of_nonneg_left within scaleNonneg
    exact Int.ediv_le_of_le_mul positive most
  · exact Int.ediv_mul_le _ positive.ne'
  · have next := Int.lt_ediv_add_one_mul_self (scale * part) positive
    rwa [Int.add_mul, Int.one_mul] at next

theorem exists_share (scale part whole : Int) (scaleNonneg : 0 ≤ scale)
    (partNonneg : 0 ≤ part) (within : part ≤ whole) (positive : 0 < whole) :
    ∃ q, (scale * part).tdiv whole = q ∧ Share q scale part whole :=
  ⟨_, rfl, share_tdiv scaleNonneg partNonneg within positive⟩

theorem capped_share {scale share whole : Int} (positive : 1 ≤ scale) (wholePos : 0 < whole)
    (shareNonneg : 0 ≤ share) :
    0 ≤ (if whole < share then 0 else (scale * (whole - share)).tdiv (2 * whole))
      ∧ (if whole < share then 0 else (scale * (whole - share)).tdiv (2 * whole)) ≤ scale := by
  split
  · omega
  · obtain ⟨q, eq, within⟩ := exists_share scale (whole - share) (2 * whole) (by omega) (by omega)
      (by omega) (by omega)
    rw [eq]
    exact ⟨within.nonneg, within.le_scale⟩

theorem half_tdiv {n : Int} (nonneg : 0 ≤ n) :
    0 ≤ n.tdiv 2 ∧ 2 * n.tdiv 2 ≤ n ∧ n ≤ 2 * n.tdiv 2 + 1 := by
  rw [Int.tdiv_eq_ediv_of_nonneg nonneg]
  omega

theorem balanceMargin_le {totals : BwTotals} (positive : 0 ≤ totals.t) :
    3 * totals.t ≤ balanceMargin totals := by
  unfold balanceMargin
  rw [Int.tdiv_eq_ediv_of_nonneg (by omega)]
  omega

end

/-! ## The cases -/

section Cases

variable {totals : BwTotals} {scale : Int}

theorem weightsCase1_checked (network : Network totals) (positive : 1 ≤ scale)
    (case1 : Case1 totals) :
    networkstatusCheckWeights (weightsCase1 totals scale) scale totals 10 = .noError := by
  obtain ⟨g, m, e, d, sum⟩ := network
  obtain ⟨exits, guards⟩ := case1
  obtain ⟨wee', weeEq, ⟨weeNonneg, weeLe, weeLow, weeHigh⟩⟩ :=
    exists_share scale (totals.e + totals.g + totals.m) (3 * totals.e)
      (by omega) (by omega) (by omega) (by omega)
  obtain ⟨wmg', wmgEq, ⟨wmgNonneg, wmgLe, wmgLow, wmgHigh⟩⟩ :=
    exists_share scale (2 * totals.g - totals.e - totals.m) (3 * totals.g)
      (by omega) (by omega) (by omega) (by omega)
  have third : 0 ≤ scale.tdiv 3 ∧ 3 * scale.tdiv 3 ≤ scale ∧ scale ≤ 3 * scale.tdiv 3 + 2 := by
    rw [Int.tdiv_eq_ediv_of_nonneg (by omega)]
    omega
  have margin := @balanceMargin_le totals (by omega)
  unfold weightsCase1
  rw [weeEq, wmgEq]
  generalize scale.tdiv 3 = third' at *
  rw [networkstatusCheckWeights_iff]
  refine ⟨?_, ?_, ?_⟩
  · constructor <;> dsimp only <;> omega
  · constructor <;> (unfold Near; dsimp only; omega)
  · rw [balanced_iff]
    unfold Near guardPosition exitPosition middlePosition
    refine ⟨⟨?_, ?_⟩, ?_, ?_⟩ <;> linarith

theorem weightsCase2a_inOrder (positive : 1 ≤ scale) :
    InRange (weightsCase2a totals scale) scale ∧ SumsUp (weightsCase2a totals scale) scale := by
  unfold weightsCase2a
  by_cases scarce : totals.e < totals.g
  · rw [if_pos scarce, if_pos scarce]
    constructor
    · constructor <;> dsimp only <;> omega
    · constructor <;> (unfold Near; dsimp only; omega)
  · rw [if_neg scarce, if_neg scarce]
    constructor
    · constructor <;> dsimp only <;> omega
    · constructor <;> (unfold Near; dsimp only; omega)

theorem weightsCase2b2_checked (network : Network totals) (positive : 1 ≤ scale)
    (case2 : Case2 totals) (middles : 3 * totals.m ≤ totals.t) :
    networkstatusCheckWeights (weightsCase2b2 totals scale) scale totals 10 = .noError := by
  obtain ⟨g, m, e, d, sum⟩ := network
  obtain ⟨exits, guards⟩ := case2
  obtain ⟨wed', wedEq, ⟨wedNonneg, wedLe, wedLow, wedHigh⟩⟩ :=
    exists_share scale (totals.d - 2 * totals.e + totals.g + totals.m) (3 * totals.d)
      (by omega) (by omega) (by omega) (by omega)
  obtain ⟨wmd', wmdEq, ⟨wmdNonneg, wmdLe, wmdLow, wmdHigh⟩⟩ :=
    exists_share scale (totals.d - 2 * totals.m + totals.g + totals.e) (3 * totals.d)
      (by omega) (by omega) (by omega) (by omega)
  have margin := @balanceMargin_le totals (by omega)
  unfold weightsCase2b2
  rw [wedEq, wmdEq]
  -- What is left of the scale for the guard position, from the sum of the two shares.
  have left : wed' + wmd' ≤ scale := by
    have scaled : scale * (3 * totals.g) ≤ scale * totals.t :=
      Int.mul_le_mul_of_nonneg_left guards.le (by omega)
    have both : (wed' + wmd') * (3 * totals.d) ≤ scale * (3 * totals.d) := by
      rw [sum] at scaled
      linarith
    exact Int.le_of_mul_le_mul_right both (by omega)
  dsimp only
  rw [if_neg (by omega), networkstatusCheckWeights_iff]
  refine ⟨?_, ?_, ?_⟩
  · constructor <;> dsimp only <;> omega
  · constructor <;> (unfold Near; dsimp only; omega)
  · rw [balanced_iff]
    unfold Near guardPosition exitPosition middlePosition
    rw [sum] at *
    refine ⟨⟨?_, ?_⟩, ?_, ?_⟩ <;> linarith

theorem weightsCase3a_inOrder (network : Network totals) (positive : 1 ≤ scale) :
    InRange (weightsCase3a totals scale) scale ∧ SumsUp (weightsCase3a totals scale) scale := by
  obtain ⟨g, m, e, d, sum⟩ := network
  unfold weightsCase3a
  split
  · next scarce =>
    have wme := capped_share positive e m.le
    constructor
    · constructor <;> dsimp only <;> omega
    · constructor <;> (unfold Near; dsimp only; omega)
  · next scarce =>
    have wmg := capped_share positive g m.le
    constructor
    · constructor <;> dsimp only <;> omega
    · constructor <;> (unfold Near; dsimp only; omega)

theorem weightsCase3b_checked (network : Network totals) (positive : 1 ≤ scale)
    (case3b : Case3b totals) :
    networkstatusCheckWeights (weightsCase3b totals scale) scale totals 10 = .noError := by
  obtain ⟨g, m, e, d, sum⟩ := network
  obtain ⟨⟨notBoth, notNone⟩, enough⟩ := case3b
  unfold Case1 at notBoth
  unfold Case2 at notNone
  have margin := @balanceMargin_le totals (by omega)
  unfold weightsCase3b
  split
  · next scarce =>
    obtain ⟨wgd', wgdEq, ⟨wgdNonneg, wgdLe, wgdLow, wgdHigh⟩⟩ :=
      exists_share scale (totals.d - 2 * totals.g + totals.e + totals.m) (3 * totals.d)
      (by omega) (by omega) (by omega) (by omega)
    obtain ⟨wee', weeEq, ⟨weeNonneg, weeLe, weeLow, weeHigh⟩⟩ :=
      exists_share scale (totals.e + totals.m) (2 * totals.e)
        (by omega) (by omega) (by omega) (by omega)
    rw [wgdEq, weeEq]
    dsimp only
    have half := @half_tdiv (scale - wgd') (by omega)
    generalize (scale - wgd').tdiv 2 = half' at *
    obtain ⟨halfNonneg, halfLow, halfHigh⟩ := half
    have halfLow' := Int.mul_le_mul_of_nonneg_right halfLow d.le
    have halfHigh' := Int.mul_le_mul_of_nonneg_right halfHigh d.le
    rw [networkstatusCheckWeights_iff]
    refine ⟨?_, ?_, ?_⟩
    · constructor <;> dsimp only <;> omega
    · constructor <;> (unfold Near; dsimp only; omega)
    · rw [balanced_iff]
      unfold Near guardPosition exitPosition middlePosition
      rw [sum] at *
      refine ⟨⟨?_, ?_⟩, ?_, ?_⟩ <;> linarith
  · next scarce =>
    obtain ⟨wed', wedEq, ⟨wedNonneg, wedLe, wedLow, wedHigh⟩⟩ :=
      exists_share scale (totals.d - 2 * totals.e + totals.g + totals.m) (3 * totals.d)
      (by omega) (by omega) (by omega) (by omega)
    obtain ⟨wgg', wggEq, ⟨wggNonneg, wggLe, wggLow, wggHigh⟩⟩ :=
      exists_share scale (totals.g + totals.m) (2 * totals.g)
        (by omega) (by omega) (by omega) (by omega)
    rw [wedEq, wggEq]
    dsimp only
    have half := @half_tdiv (scale - wed') (by omega)
    generalize (scale - wed').tdiv 2 = half' at *
    obtain ⟨halfNonneg, halfLow, halfHigh⟩ := half
    have halfLow' := Int.mul_le_mul_of_nonneg_right halfLow d.le
    have halfHigh' := Int.mul_le_mul_of_nonneg_right halfHigh d.le
    rw [networkstatusCheckWeights_iff]
    refine ⟨?_, ?_, ?_⟩
    · constructor <;> dsimp only <;> omega
    · constructor <;> (unfold Near; dsimp only; omega)
    · rw [balanced_iff]
      unfold Near guardPosition exitPosition middlePosition
      rw [sum] at *
      refine ⟨⟨?_, ?_⟩, ?_, ?_⟩ <;> linarith

end Cases

/-! ## The function -/

section Choice

variable {totals : BwTotals} {scale : Int} (network : Network totals) (positive : 1 ≤ scale)
include network positive

theorem chooseWeights_case1 (case1 : Case1 totals) :
    chooseWeights totals scale = some (weightsCase1 totals scale) := by
  have checked := weightsCase1_checked network positive case1
  unfold chooseWeights
  rw [if_pos (by exact case1), if_neg (not_not.mpr checked)]

omit network positive in
theorem chooseWeights_case2a (case2a : Case2a totals) :
    chooseWeights totals scale = some (weightsCase2a totals scale) := by
  obtain ⟨⟨exits, guards⟩, spare⟩ := case2a
  unfold chooseWeights
  rw [if_neg (by omega), if_pos ⟨exits, guards⟩, if_pos spare]

omit network positive in
theorem chooseWeights_case2b (case2b : Case2b totals) {w : BwWeights}
    (chosen : chooseWeights totals scale = some w) : InRange w scale ∧ SumsUp w scale := by
  obtain ⟨⟨exits, guards⟩, spare⟩ := case2b
  unfold chooseWeights at chosen
  dsimp only at chosen
  rw [if_neg (by omega), if_pos ⟨exits, guards⟩, if_neg (by omega)] at chosen
  generalize (if networkstatusCheckWeights (weightsCase2b1 totals scale) scale totals 10
    ≠ .noError then weightsCase2b2 totals scale else weightsCase2b1 totals scale) = last at chosen
  split at chosen
  · cases chosen
  · next passed =>
    cases chosen
    rw [not_and_or, not_not, not_not] at passed
    obtain none_ | mid := passed
    · obtain ⟨range, sums, -⟩ := (networkstatusCheckWeights_iff _ _ _).mp none_
      exact ⟨range, sums⟩
    · exact networkstatusCheckWeights_mid mid

theorem chooseWeights_case2b_balanced (case2b : Case2b totals)
    (middles : 3 * totals.m ≤ totals.t) :
    ∃ w, chooseWeights totals scale = some w ∧ Balanced w scale totals := by
  have second := weightsCase2b2_checked network positive case2b.1 middles
  obtain ⟨⟨exits, guards⟩, spare⟩ := case2b
  unfold chooseWeights
  dsimp only
  rw [if_neg (by omega), if_pos ⟨exits, guards⟩, if_neg (by omega)]
  by_cases first : networkstatusCheckWeights (weightsCase2b1 totals scale) scale totals 10 =
      .noError
  · obtain ⟨-, -, balanced⟩ := (networkstatusCheckWeights_iff _ _ _).mp first
    rw [if_neg (not_not.mpr first), if_neg (fun errors => errors.1 first)]
    exact ⟨_, rfl, balanced⟩
  · obtain ⟨-, -, balanced⟩ := (networkstatusCheckWeights_iff _ _ _).mp second
    rw [if_pos first, if_neg (fun errors => errors.1 second)]
    exact ⟨_, rfl, balanced⟩

omit network positive in
theorem chooseWeights_case3a (case3a : Case3a totals) :
    chooseWeights totals scale = some (weightsCase3a totals scale) := by
  obtain ⟨⟨notNone, notBoth⟩, scarce⟩ := case3a
  unfold chooseWeights
  rw [if_neg (by exact notNone), if_neg (by exact notBoth), if_pos scarce]

theorem chooseWeights_case3b (case3b : Case3b totals) :
    chooseWeights totals scale = some (weightsCase3b totals scale) := by
  have checked := weightsCase3b_checked network positive case3b
  obtain ⟨⟨notNone, notBoth⟩, enough⟩ := case3b
  unfold chooseWeights
  rw [if_neg (by exact notNone), if_neg (by exact notBoth), if_neg (by omega),
    if_neg (not_not.mpr checked)]

omit network positive in
theorem cases_exhaustive : Case1 totals ∨ Case2a totals ∨ Case2b totals ∨ Case3a totals
    ∨ Case3b totals := by
  unfold Case2a Case2b Case3a Case3b Case3 Case1 Case2
  omega

theorem chooseWeights_inOrder {w : BwWeights} (chosen : chooseWeights totals scale = some w) :
    InRange w scale ∧ SumsUp w scale := by
  obtain case1 | case2a | case2b | case3a | case3b := @cases_exhaustive totals
  · rw [chooseWeights_case1 network positive case1] at chosen
    cases chosen
    obtain ⟨range, sums, -⟩ := (networkstatusCheckWeights_iff _ _ _).mp
      (weightsCase1_checked network positive case1)
    exact ⟨range, sums⟩
  · rw [chooseWeights_case2a case2a] at chosen
    cases chosen
    exact weightsCase2a_inOrder positive
  · exact chooseWeights_case2b case2b chosen
  · rw [chooseWeights_case3a case3a] at chosen
    cases chosen
    exact weightsCase3a_inOrder network positive
  · rw [chooseWeights_case3b network positive case3b] at chosen
    cases chosen
    obtain ⟨range, sums, -⟩ := (networkstatusCheckWeights_iff _ _ _).mp
      (weightsCase3b_checked network positive case3b)
    exact ⟨range, sums⟩

theorem chooseWeights_balanced
    (covered : 3 * totals.m ≤ totals.t ∨ Case1 totals ∨ Case2a totals ∨ Case3 totals) :
    ∃ w, chooseWeights totals scale = some w
      ∧ (Case1 totals ∨ Case2b totals ∨ Case3b totals → Balanced w scale totals) := by
  obtain case1 | case2a | case2b | case3a | case3b := @cases_exhaustive totals
  · obtain ⟨-, -, balanced⟩ := (networkstatusCheckWeights_iff _ _ _).mp
      (weightsCase1_checked network positive case1)
    exact ⟨_, chooseWeights_case1 network positive case1, fun _ => balanced⟩
  · refine ⟨_, chooseWeights_case2a case2a, fun balancedCase => ?_⟩
    unfold Case2a Case2b Case3b Case3 Case1 Case2 at *
    omega
  · have middles : 3 * totals.m ≤ totals.t := by
      unfold Case2a Case2b Case3 Case1 Case2 at *
      omega
    obtain ⟨w, chosen, balanced⟩ := chooseWeights_case2b_balanced network positive case2b middles
    exact ⟨w, chosen, fun _ => balanced⟩
  · refine ⟨_, chooseWeights_case3a case3a, fun balancedCase => ?_⟩
    unfold Case3a Case2b Case3b Case3 Case1 Case2 at *
    omega
  · obtain ⟨-, -, balanced⟩ := (networkstatusCheckWeights_iff _ _ _).mp
      (weightsCase3b_checked network positive case3b)
    exact ⟨_, chooseWeights_case3b network positive case3b, fun _ => balanced⟩

theorem networkstatusComputeBwWeightsV10_eq (w : BwWeights) :
    networkstatusComputeBwWeightsV10 totals scale = some (some w) ↔
      chooseWeights totals scale = some w ∧ scale ≤ intMaxBandwidth := by
  obtain ⟨g, m, e, d, -⟩ := network
  unfold networkstatusComputeBwWeightsV10
  rw [if_neg (by omega)]
  cases chooseWeights totals scale with
  | none => simp
  | some chosen =>
    dsimp only
    by_cases fits : scale ≤ intMaxBandwidth
    · rw [if_pos ⟨by omega, fits⟩]
      simp [fits]
    · rw [if_neg (fun both => fits both.2)]
      simp [fits]

/-- Whenever weights are returned they are in order. They are returned, for a scale that is an
`int32_t`, unless middle relays have more than a third of the bandwidth in case 2b, and balance
the positions in the cases 1, 2b and 3b. -/
theorem networkstatusComputeBwWeightsV10_valid :
    (∀ w, networkstatusComputeBwWeightsV10 totals scale = some (some w) →
      InRange w scale ∧ SumsUp w scale)
    ∧ (scale ≤ intMaxBandwidth →
      3 * totals.m ≤ totals.t ∨ Case1 totals ∨ Case2a totals ∨ Case3 totals →
      ∃ w, networkstatusComputeBwWeightsV10 totals scale = some (some w)
        ∧ (Case1 totals ∨ Case2b totals ∨ Case3b totals → Balanced w scale totals)) := by
  constructor
  · intro w computed
    rw [networkstatusComputeBwWeightsV10_eq network positive] at computed
    exact chooseWeights_inOrder network positive computed.1
  · intro fits covered
    obtain ⟨w, chosen, balanced⟩ := chooseWeights_balanced network positive covered
    exact ⟨w, (networkstatusComputeBwWeightsV10_eq network positive w).mpr ⟨chosen, fits⟩, balanced⟩

end Choice

theorem networkstatusComputeBwWeightsV10_valid_small :
    ∃ w, networkstatusComputeBwWeightsV10 ⟨400, 200, 300, 100, 1000⟩ 10000 = some (some w)
      ∧ InRange w 10000 ∧ SumsUp w 10000 ∧ Balanced w 10000 ⟨400, 200, 300, 100, 1000⟩ := by
  have network : Network ⟨400, 200, 300, 100, 1000⟩ := by constructor <;> decide
  have case3b : Case3b ⟨400, 200, 300, 100, 1000⟩ := by
    unfold Case3b Case3 Case1 Case2
    decide
  obtain ⟨valid, returned⟩ :=
    networkstatusComputeBwWeightsV10_valid network (by decide : (1 : Int) ≤ 10000)
  obtain ⟨w, computed, balanced⟩ := returned (by decide) (Or.inl (by decide))
  obtain ⟨range, sums⟩ := valid w computed
  exact ⟨w, computed, range, sums, balanced (Or.inr (Or.inr case3b))⟩

/-- A scale above `INT32_MAX` fails an assertion, although neither guards nor exits are scarce. -/
theorem networkstatusComputeBwWeightsV10_largeScale :
    Network ⟨2, 1, 2, 1, 6⟩ ∧ (1 : Int) ≤ 2 ^ 31 ∧ Case1 ⟨2, 1, 2, 1, 6⟩ ∧ 3 * 1 ≤ 6
      ∧ networkstatusComputeBwWeightsV10 ⟨2, 1, 2, 1, 6⟩ (2 ^ 31) = none := by
  have network : Network ⟨2, 1, 2, 1, 6⟩ := by constructor <;> decide
  exact ⟨network, by decide, by unfold Case1; decide, by decide, by decide⟩

end RendezMix.Guarantees.WeightBalance
