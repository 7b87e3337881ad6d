import RendezMix.Guarantees.ConsensusAsserts
import RendezMix.Source.BandwidthWeights

/-!
# Bandwidth totals

Each router that is counted adds its bandwidth to the classes once, and to the grand total
what it adds to the first of its classes. The grand total is therefore the sum of the classes
only while no guard has a part that does not count as a guard's.
-/
namespace RendezMix.Guarantees.BandwidthTotals
open Source BandwidthWeights

/-! ## Rounding -/

theorem torLround_int (n : Int) : torLround n = n := by
  unfold torLround
  have up (k : Int) : ⌊(k : Rat) + 1 / 2⌋ = k := by
    rw [Int.floor_eq_iff]
    constructor <;> linarith
  split
  · exact up n
  · have negated := up (-n)
    push_cast at negated
    rw [negated, neg_neg]

theorem torLround_mono {x y : Rat} (le : x ≤ y) : torLround x ≤ torLround y := by
  unfold torLround
  split
  · next first =>
    rw [if_pos (le_trans first le)]
    exact Int.floor_le_floor (by linarith)
  · next first =>
    split
    · next second =>
      have low : 0 ≤ ⌊-x + 1 / 2⌋ := Int.floor_nonneg.mpr (by linarith)
      have high : 0 ≤ ⌊y + 1 / 2⌋ := Int.floor_nonneg.mpr (by linarith)
      omega
    · have other := Int.floor_le_floor (show -y + 1 / 2 ≤ -x + 1 / 2 by linarith)
      omega

variable (double : DoubleRounding) (env : BandwidthEnv) (bandwidthKb : UInt32) (r : PlacedRouter)

section

variable {x : Rat} {percentage : UInt32}

theorem round_nonneg (nonneg : 0 ≤ x) : 0 ≤ double.round x := by
  have zero := double.exact_int 0 (by decide)
  have order := double.mono 0 x nonneg
  push_cast at zero
  rwa [zero] at order

theorem round_le_one (le : x ≤ 1) : double.round x ≤ 1 := by
  have one := double.exact_int 1 (by decide)
  have order := double.mono x 1 le
  push_cast at one
  rwa [one] at order

theorem guardShare_between {origBandwidth : Int} (nonneg : 0 ≤ origBandwidth)
    (small : origBandwidth ≤ intMaxBandwidth) (most : percentage ≤ 100) :
    0 ≤ guardShare double origBandwidth percentage
      ∧ guardShare double origBandwidth percentage ≤ origBandwidth := by
  unfold intMaxBandwidth at small
  have hundred : (percentage.toNat : Rat) ≤ 100 := by
    have := UInt32.le_iff_toNat_le.mp most
    exact_mod_cast this
  have fraction : (percentage.toNat : Rat) / 100 ≤ 1 := by linarith
  have low := round_nonneg double (x := (percentage.toNat : Rat) / 100) (by positivity)
  have high := round_le_one double fraction
  have whole : (0 : Rat) ≤ origBandwidth := by exact_mod_cast nonneg
  have all := double.exact_int origBandwidth (by omega)
  unfold guardShare
  generalize double.round (percentage.toNat / 100) = share at low high ⊢
  constructor
  · have product := round_nonneg double (mul_nonneg low whole)
    have rounded := torLround_mono product
    have zero := torLround_int 0
    push_cast at zero
    rwa [zero] at rounded
  · have product : share * origBandwidth ≤ origBandwidth := by nlinarith
    have order := double.mono _ _ product
    rw [all] at order
    have rounded := torLround_mono order
    rwa [torLround_int] at rounded

theorem guardShare_nonpos (double : DoubleRounding) {origBandwidth : Int} {percentage : UInt32}
    (negative : origBandwidth ≤ 0) : guardShare double origBandwidth percentage ≤ 0 := by
  have low := round_nonneg double (x := (percentage.toNat : Rat) / 100) (by positivity)
  have whole : (origBandwidth : Rat) ≤ 0 := by exact_mod_cast negative
  unfold guardShare
  generalize double.round (percentage.toNat / 100) = share at low ⊢
  have order := double.mono (share * origBandwidth) 0 (mul_nonpos_of_nonneg_of_nonpos low whole)
  have zero := double.exact_int 0 (by decide)
  push_cast at zero
  rw [zero] at order
  have rounded := torLround_mono order
  have none_ := torLround_int 0
  push_cast at none_
  rwa [none_] at rounded

/-! ## The cast of a bandwidth -/

theorem asInt_eq : (bandwidthKb.toNat ≤ 2 ^ 31 - 1 ∧ asInt bandwidthKb = bandwidthKb.toNat)
      ∨ (2 ^ 31 - 1 < bandwidthKb.toNat
        ∧ asInt bandwidthKb = (bandwidthKb.toNat : Int) - 2 ^ 32 ∧ asInt bandwidthKb < 0) := by
  have below := bandwidthKb.toNat_lt
  unfold asInt
  by_cases small : bandwidthKb.toNat ≤ 2 ^ 31 - 1
  · left
    exact ⟨small, Int.bmod_eq_of_le (by omega) (by omega)⟩
  · right
    have wrapped : Int.bmod bandwidthKb.toNat (2 ^ 32) = (bandwidthKb.toNat : Int) - 2 ^ 32 := by
      rw [← Int.sub_bmod_right]
      exact Int.bmod_eq_of_le (by omega) (by omega)
    omega

/-! ## One router -/

/-- What the consensus says about the bandwidth of a router, which is nothing where no vote has
one. -/
def consensusBandwidth (env : BandwidthEnv) (r : PlacedRouter) : Option UInt32 :=
  (r.rsOut env).bind RsBandwidth.bandwidthKb

def consensusGuardfraction (env : BandwidthEnv) (r : PlacedRouter) : Option UInt32 :=
  (r.rsOut env).bind RsBandwidth.guardfractionPercentage

/-- The bandwidth after its cast to an `int`. -/
def castBandwidth (env : BandwidthEnv) (r : PlacedRouter) : Int :=
  match consensusBandwidth env r with
  | none => 0
  | some bandwidthKb => asInt bandwidthKb

/-- The part of a guard's bandwidth that does not count as the bandwidth of a guard. -/
def nonGuardPart (double : DoubleRounding) (env : BandwidthEnv) (r : PlacedRouter) : Int :=
  match consensusBandwidth env r, consensusGuardfraction env r with
  | some bandwidthKb, some percentage =>
    asInt bandwidthKb - guardShare double (asInt bandwidthKb) percentage
  | _, _ => 0

/-- The votes say percentages, which the parser checks. -/
def Percentages (r : PlacedRouter) : Prop := ∀ value ∈ r.measuredGuardfraction, value ≤ 100

/-- The bandwidth in all four classes. -/
def classes (totals : BwTotals) : Int := totals.g + totals.m + totals.e + totals.d

/-- What a router is added with: the grand total gets the first amount only. -/
structure Counted (double : DoubleRounding) (env : BandwidthEnv) (totals totals' : BwTotals)
    (r : PlacedRouter) : Prop where
  total : totals'.t = totals.t + castBandwidth env r - nonGuardPart double env r
  classes : classes totals' = classes totals + castBandwidth env r
  grows : 0 ≤ castBandwidth env r → 0 ≤ nonGuardPart double env r
    ∧ totals.g ≤ totals'.g ∧ totals.m ≤ totals'.m ∧ totals.e ≤ totals'.e ∧ totals.d ≤ totals'.d

theorem chooseGuardfraction_some {isGuard : Bool} {measured : List UInt32}
    (chosen : chooseGuardfraction isGuard measured = some (some percentage)) :
    isGuard = true ∧ percentage ≤ 100 := by
  unfold chooseGuardfraction at chosen
  split at chosen
  · next enough =>
    split at chosen
    · cases chosen
    · split at chosen
      · next most =>
        cases chosen
        exact ⟨enough.1, most⟩
      · cases chosen
  · cases chosen

theorem rsOut_spec (percent : Percentages r) :
    ∃ rs, r.rsOut env = some rs
      ∧ ∀ percentage, rs.guardfractionPercentage = some percentage →
        r.isGuard = true ∧ percentage ≤ 100 := by
  obtain ⟨guardfraction, chosen⟩ := Option.isSome_iff_exists.mp
    (chooseGuardfraction_isSome r.isGuard r.measuredGuardfraction percent)
  obtain ⟨⟨bandwidthKb, bwIsUnmeasured⟩, picked⟩ := Option.isSome_iff_exists.mp
    (chooseBandwidth_isSome env.maxUnmeasuredBwKb
      env.nAuthoritiesMeasuringBandwidth r.measuredBwsKb r.bandwidthsKb)
  refine ⟨⟨bandwidthKb, guardfraction⟩, ?_, ?_⟩
  · rw [PlacedRouter.rsOut, chosen, picked]
  · intro percentage has
    change guardfraction = some percentage at has
    rw [has] at chosen
    exact chooseGuardfraction_some chosen

theorem splitBandwidth_none (isGuard : Bool) :
    splitBandwidth double bandwidthKb isGuard none = some (asInt bandwidthKb, 0) := rfl

theorem asInt_le : asInt bandwidthKb ≤ intMaxBandwidth := by
  unfold intMaxBandwidth
  obtain ⟨small, same⟩ | ⟨-, -, negative⟩ := asInt_eq bandwidthKb <;> omega

end

theorem splitBandwidth_some (percentage : UInt32) (most : percentage ≤ 100) :
    splitBandwidth double bandwidthKb true (some percentage) =
      some (guardShare double (asInt bandwidthKb) percentage,
        asInt bandwidthKb - guardShare double (asInt bandwidthKb) percentage) := by
  have fits : guardShare double (asInt bandwidthKb) percentage ≤ intMaxBandwidth := by
    have bound := asInt_le bandwidthKb
    by_cases negative : asInt bandwidthKb ≤ 0
    · have share := @guardShare_nonpos double _ percentage negative
      unfold intMaxBandwidth
      omega
    · have share := guardShare_between double (by omega : 0 ≤ asInt bandwidthKb) bound most
      omega
  unfold splitBandwidth
  dsimp only
  rw [if_pos rfl, guardGetGuardfractionBandwidth, if_pos ⟨most, fits⟩]
  rfl

/-- Adding two amounts to the classes of a router. -/
theorem addToClasses_spec (isExit isGuard : Bool) (first second : Int) (totals : BwTotals)
    (unsplit : isGuard = false → second = 0) :
    (addToClasses isExit isGuard first second totals).t = totals.t + first
      ∧ classes (addToClasses isExit isGuard first second totals) = classes totals + (first + second)
      ∧ (0 ≤ first → 0 ≤ second →
        totals.g ≤ (addToClasses isExit isGuard first second totals).g
        ∧ totals.m ≤ (addToClasses isExit isGuard first second totals).m
        ∧ totals.e ≤ (addToClasses isExit isGuard first second totals).e
        ∧ totals.d ≤ (addToClasses isExit isGuard first second totals).d) := by
  unfold addToClasses classes
  cases isGuard with
  | true => cases isExit <;> (dsimp only [Bool.and_true, Bool.and_false]; simp; omega)
  | false =>
    have none_ := unsplit rfl
    cases isExit <;> (dsimp only [Bool.and_true, Bool.and_false]; simp; omega)

theorem placeRouter_counted (totals : BwTotals) (r : PlacedRouter) (percent : Percentages r) :
    ∃ totals', placeRouter double env totals r = some totals'
      ∧ Counted double env totals totals' r := by
  obtain ⟨⟨bandwidthKb, guardfraction⟩, out, guards⟩ := rsOut_spec env r percent
  have bandwidth : consensusBandwidth env r = bandwidthKb := by
    rw [consensusBandwidth, out]
    rfl
  have fraction : consensusGuardfraction env r = guardfraction := by
    rw [consensusGuardfraction, out]
    rfl
  rw [placeRouter, out, Option.bind_some, updateTotalBandwidthWeights]
  cases bandwidthKb with
  | none =>
    refine ⟨totals, rfl, ?_⟩
    constructor <;> simp [castBandwidth, nonGuardPart, bandwidth]
  | some bandwidthKb =>
    cases guardfraction with
    | none =>
      obtain ⟨total, sum, grows⟩ := addToClasses_spec (r.isExit && !r.isBadExit) r.isGuard
        (asInt bandwidthKb) 0 totals (fun _ => rfl)
      dsimp only
      rw [splitBandwidth_none, Option.map_some]
      dsimp only
      refine ⟨_, rfl, ?_⟩
      constructor
      · simpa [castBandwidth, nonGuardPart, bandwidth, fraction] using total
      · simpa [castBandwidth, bandwidth] using sum
      · intro nonneg
        simp only [castBandwidth, bandwidth] at nonneg
        have up := grows nonneg (Int.le_refl 0)
        refine ⟨?_, up⟩
        simp [nonGuardPart, bandwidth, fraction]
    | some percentage =>
      obtain ⟨guard_, most⟩ := guards percentage rfl
      obtain ⟨total, sum, grows⟩ := addToClasses_spec (r.isExit && !r.isBadExit) r.isGuard
        (guardShare double (asInt bandwidthKb) percentage)
        (asInt bandwidthKb - guardShare double (asInt bandwidthKb) percentage) totals
        (fun noGuard => by rw [guard_] at noGuard; cases noGuard)
      dsimp only
      rw [guard_, splitBandwidth_some double bandwidthKb percentage most, Option.map_some]
      rw [guard_] at total sum grows
      refine ⟨_, rfl, ?_⟩
      constructor
      · simp only [castBandwidth, nonGuardPart, bandwidth, fraction]
        omega
      · simp only [castBandwidth, bandwidth]
        omega
      · intro nonneg
        simp only [castBandwidth, bandwidth] at nonneg
        simp only [nonGuardPart, bandwidth, fraction]
        have share := guardShare_between double nonneg (asInt_le bandwidthKb) most
        exact ⟨by omega, grows share.1 (by omega)⟩

/-! ## All routers -/

/-- A fold over the routers adds what each of them adds. -/
theorem foldlM_placeRouter (placed : List PlacedRouter) (totals : BwTotals)
    (percent : ∀ r ∈ placed, Percentages r) :
    ∃ totals', placed.foldlM (placeRouter double env) totals = some totals'
      ∧ totals'.t = totals.t + (placed.map (castBandwidth env)).sum
        - (placed.map (nonGuardPart double env)).sum
      ∧ classes totals' = classes totals + (placed.map (castBandwidth env)).sum
      ∧ ((∀ r ∈ placed, 0 ≤ castBandwidth env r) →
        totals.g ≤ totals'.g ∧ totals.m ≤ totals'.m ∧ totals.e ≤ totals'.e
          ∧ totals.d ≤ totals'.d) := by
  induction placed generalizing totals with
  | nil =>
    refine ⟨totals, rfl, ?_⟩
    simp
  | cons r placed ih =>
    obtain ⟨next, placedOne, counted⟩ := placeRouter_counted double env totals r
      (percent r List.mem_cons_self)
    obtain ⟨totals', ran, total, sum, grows⟩ := ih next
      (fun other member => percent other (List.mem_cons_of_mem _ member))
    have first := counted.total
    have second := counted.classes
    refine ⟨totals', ?_, ?_, ?_, ?_⟩
    · rw [List.foldlM_cons, placedOne]
      exact ran
    · rw [List.map_cons, List.map_cons, List.sum_cons, List.sum_cons]
      omega
    · rw [List.map_cons, List.sum_cons]
      omega
    · intro nonneg
      obtain ⟨-, here⟩ := counted.grows (nonneg r List.mem_cons_self)
      have later := grows fun other member => nonneg other (List.mem_cons_of_mem _ member)
      omega

/-- The bandwidth of a router in the consensus, as a number. -/
def bandwidthOf (env : BandwidthEnv) (r : PlacedRouter) : Int :=
  match consensusBandwidth env r with
  | none => 0
  | some bandwidthKb => bandwidthKb.toNat

/-- The totals are one for each class and the bandwidth of every router once, and the grand
total is what the classes have. -/
structure Accounted (env : BandwidthEnv) (placed : List PlacedRouter) (totals : BwTotals) :
    Prop where
  total : totals.t = totals.g + totals.m + totals.e + totals.d
  once : totals.g + totals.m + totals.e + totals.d = 4 + (placed.map (bandwidthOf env)).sum
  positive : 0 < totals.g ∧ 0 < totals.m ∧ 0 < totals.e ∧ 0 < totals.d

/-- The bandwidth of the router fits in an `int`, and counts as a guard's wholly if it has a
guardfraction. -/
def Unsplit (double : DoubleRounding) (env : BandwidthEnv) (r : PlacedRouter) : Prop :=
  ∀ bandwidthKb, consensusBandwidth env r = some bandwidthKb →
    bandwidthKb.toNat ≤ 2 ^ 31 - 1
      ∧ ∀ percentage, consensusGuardfraction env r = some percentage →
        guardShare double bandwidthKb.toNat percentage = bandwidthKb.toNat

theorem castBandwidth_le : castBandwidth env r ≤ bandwidthOf env r := by
  unfold castBandwidth bandwidthOf
  cases consensusBandwidth env r with
  | none => exact Int.le_refl 0
  | some bandwidthKb =>
    dsimp only
    obtain ⟨-, same⟩ | ⟨-, wrapped, -⟩ := asInt_eq bandwidthKb <;> omega

theorem bandwidthOf_nonneg : 0 ≤ bandwidthOf env r := by
  unfold bandwidthOf
  cases consensusBandwidth env r with
  | none => exact Int.le_refl 0
  | some bandwidthKb => exact Int.natCast_nonneg _

theorem unsplit_iff :
    Unsplit double env r ↔
      castBandwidth env r = bandwidthOf env r ∧ nonGuardPart double env r = 0 := by
  unfold Unsplit castBandwidth bandwidthOf nonGuardPart
  cases consensusBandwidth env r with
  | none => simp
  | some bandwidthKb =>
    dsimp only
    constructor
    · intro unsplit
      obtain ⟨small, share⟩ := unsplit bandwidthKb rfl
      obtain ⟨-, same⟩ | ⟨large, -, -⟩ := asInt_eq bandwidthKb
      · refine ⟨same, ?_⟩
        cases fraction : consensusGuardfraction env r with
        | none => rfl
        | some percentage =>
          dsimp only
          rw [same, share percentage fraction]
          omega
      · omega
    · intro ⟨same, whole⟩ other found
      cases found
      obtain ⟨small, -⟩ | ⟨-, wrapped, -⟩ := asInt_eq bandwidthKb
      · refine ⟨small, ?_⟩
        intro percentage fraction
        rw [fraction] at whole
        dsimp only at whole
        rw [same] at whole
        omega
      · omega

theorem sum_eq_iff {α : Type*} {f g : α → Int} {l : List α} (le : ∀ a ∈ l, f a ≤ g a) :
    (l.map f).sum = (l.map g).sum ↔ ∀ a ∈ l, f a = g a := by
  constructor
  · intro equal
    induction l with
    | nil => simp
    | cons a l ih =>
      have here := le a List.mem_cons_self
      have later : ∀ b ∈ l, f b ≤ g b := fun b member => le b (List.mem_cons_of_mem _ member)
      have rest := List.sum_le_sum later
      rw [List.map_cons, List.map_cons, List.sum_cons, List.sum_cons] at equal
      intro b member
      obtain rfl | member := List.mem_cons.mp member
      · omega
      · exact ih later (by omega) b member
  · intro equal
    rw [List.map_congr_left equal]

/-- The totals account for every router exactly when no router's bandwidth is split or too large
for an `int`. -/
theorem consensusTotals_accounted (double : DoubleRounding) (env : BandwidthEnv)
    (placed : List PlacedRouter) (percent : ∀ r ∈ placed, Percentages r) :
    ∃ totals, consensusTotals double env placed = some totals
      ∧ (Accounted env placed totals ↔ ∀ r ∈ placed, Unsplit double env r) := by
  obtain ⟨totals, ran, total, sum, grows⟩ :=
    foldlM_placeRouter double env placed BwTotals.start percent
  refine ⟨totals, ran, ?_⟩
  have cast := @sum_eq_iff _ (castBandwidth env) (bandwidthOf env) placed
    fun r _ => castBandwidth_le env r
  have start : BwTotals.start.t = 4 ∧ classes BwTotals.start = 4 := ⟨rfl, rfl⟩
  have ones : BwTotals.start.g = 1 ∧ BwTotals.start.m = 1 ∧ BwTotals.start.e = 1
    ∧ BwTotals.start.d = 1 := ⟨rfl, rfl, rfl, rfl⟩
  unfold classes at sum start
  constructor
  · intro accounted
    have same := cast.mp (by have := accounted.once; omega)
    have nonneg : ∀ r ∈ placed, 0 ≤ nonGuardPart double env r := by
      intro r member
      obtain ⟨_, -, counted⟩ := placeRouter_counted double env BwTotals.start r (percent r member)
      have bandwidth := bandwidthOf_nonneg env r
      rw [← same r member] at bandwidth
      exact (counted.grows bandwidth).1
    have whole := (@sum_eq_iff _ (fun _ => 0) (nonGuardPart double env) placed nonneg).mp (by
      have zeros : (placed.map fun _ => (0 : Int)).sum = 0 := by simp
      have := accounted.total
      omega)
    intro r member
    exact (unsplit_iff double env r).mpr ⟨same r member, (whole r member).symm⟩
  · intro unsplit
    have same := cast.mpr fun r member => ((unsplit_iff double env r).mp (unsplit r member)).1
    have none_ : (placed.map (nonGuardPart double env)).sum = 0 := by
      apply List.sum_eq_zero
      intro part member
      obtain ⟨r, inside, rfl⟩ := List.mem_map.mp member
      exact ((unsplit_iff double env r).mp (unsplit r inside)).2
    have up := grows fun r member => by
      rw [((unsplit_iff double env r).mp (unsplit r member)).1]
      exact bandwidthOf_nonneg env r
    constructor <;> omega

/-- A guard of which half the bandwidth counts as a guard's. -/
def halfGuard : PlacedRouter := ⟨false, true, false, [50, 50, 50], [], [1000]⟩

/-- A `double` that does not round. -/
def noRounding : DoubleRounding := ⟨id, fun _ _ le => le, fun _ _ => rfl⟩

def noCap : BandwidthEnv := ⟨0, 0⟩

theorem consensusTotals_accounted_whole :
    ∃ totals, consensusTotals noRounding noCap [⟨true, false, false, [], [], [1000]⟩] = some totals
      ∧ (Accounted noCap [⟨true, false, false, [], [], [1000]⟩] totals ↔
        ∀ r ∈ [(⟨true, false, false, [], [], [1000]⟩ : PlacedRouter)],
          Unsplit noRounding noCap r) :=
  consensusTotals_accounted noRounding noCap [⟨true, false, false, [], [], [1000]⟩] (by
    simp [Percentages])

theorem halfGuard_share : guardShare noRounding 1000 50 = 500 := by
  have percentage : ((50 : UInt32).toNat : Rat) = 50 := rfl
  unfold guardShare torLround noRounding
  rw [percentage]
  dsimp only [id]
  norm_num [Int.floor_eq_iff]

/-- The other half is missing from the grand total. -/
theorem consensusTotals_halfGuard :
    consensusTotals noRounding noCap [halfGuard] = some ⟨501, 501, 1, 1, 504⟩
      ∧ ¬ Accounted noCap [halfGuard] ⟨501, 501, 1, 1, 504⟩ := by
  have out : halfGuard.rsOut noCap = some ⟨some 1000, some 50⟩ := rfl
  have cast : asInt 1000 = 1000 := by
    obtain ⟨-, same⟩ | ⟨large, -, -⟩ := asInt_eq 1000
    · exact same
    · exact absurd large (by decide)
  constructor
  · rw [consensusTotals, List.foldlM_cons, placeRouter, out, Option.bind_some,
      updateTotalBandwidthWeights]
    dsimp only
    rw [show halfGuard.isGuard = true from rfl, splitBandwidth_some noRounding 1000 50 (by decide),
      cast, halfGuard_share]
    rfl
  · intro accounted
    have total := accounted.total
    dsimp only at total
    omega

end RendezMix.Guarantees.BandwidthTotals
