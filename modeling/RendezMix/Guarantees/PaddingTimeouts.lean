import RendezMix.Library.Runs
import RendezMix.Source.ChannelPadding

/-!
# When channels are padded

The range of one keepalive parameter begins at the value of another, and its default is a constant:
a consensus may put the one above the other, and an assertion fails. As long as none does, timeouts
stay in the range of the consensus and of what was negotiated.
-/
namespace RendezMix.Guarantees.PaddingTimeouts
open Library.Runs Source Source.ChannelPadding

/-- The lower ends that a consensus gives do not exceed the defaults of the upper ends. -/
def DefaultsInside (ns : Option (List CString)) : Prop :=
  ∀ netParams, ns = some netParams →
    (netParamValue netParams (textBytes "nf_ito_low")).getD 1500 ≤ 9500
      ∧ (netParamValue netParams (textBytes "nf_ito_low_reduced")).getD 9000 ≤ 14000

/-- Padding is disabled, or the timeout is at least that of the consensus, and at most the longer
one of the consensus and the peer. -/
def TimeoutRight (s : NetflowParams × PaddingChannel) (timeout : Int) : Prop :=
  (timeout = 0 ∧ s.1.itoLow = 0 ∧ s.1.itoHigh = 0)
    ∨ (s.1.itoLow ≤ timeout ∧ timeout ≤ max s.1.itoHigh s.2.paddingTimeoutHighMs.toNat)

/-! ## Consensus parameters -/

section

variable {ns : Option (List CString)} {name : String} {defaultVal minVal maxVal v : Int}

/-- The value if the range is one around the default. -/
def clippedParam (ns : Option (List CString)) (name : String) (defaultVal minVal maxVal : Int) :
    Int :=
  ns.elim defaultVal fun netParams =>
    networkstatusGetParam (netParamValue netParams (textBytes name)) defaultVal minVal maxVal

theorem clippedParam_range (above : defaultVal ≤ maxVal) (below : minVal ≤ defaultVal) :
    minVal ≤ clippedParam ns name defaultVal minVal maxVal
      ∧ clippedParam ns name defaultVal minVal maxVal ≤ maxVal := by
  cases ns with
  | none => exact ⟨below, above⟩
  | some netParams => exact networkstatusGetParam_range _ _ (below.trans above)

theorem consensusParam_eq (size : minVal < maxVal) (below : minVal ≤ defaultVal)
    (above : defaultVal ≤ maxVal) :
    consensusParam ns name defaultVal minVal maxVal
      = some (clippedParam ns name defaultVal minVal maxVal) := by
  cases ns with
  | none => rfl
  | some netParams =>
    have range := networkstatusGetParam_range (netParamValue netParams (textBytes name)) defaultVal
      (below.trans above)
    rw [consensusParam, getNetParamFromList, if_pos ⟨size, below, above⟩]
    exact if_pos range

theorem consensusParam_none {netParams : List CString} (outside : ¬minVal ≤ defaultVal) :
    consensusParam (some netParams) name defaultVal minVal maxVal = none :=
  if_neg fun inside => outside inside.2.1

end

/-- The two keepalive ranges that are set first. -/
structure Ranged (p : NetflowParams) : Prop where
  low : 0 ≤ p.itoLow
  ordered : p.itoLow ≤ p.itoHigh
  high : p.itoHigh ≤ 60000
  reduced : p.itoLowReduced ≤ p.itoHighReduced

variable {ns : Option (List CString)}

theorem clippedParam_le {name : String} {bound defaultVal : Int} (positive : 0 ≤ bound)
    (small : defaultVal ≤ bound) (inside : ∀ netParams, ns = some netParams →
      (netParamValue netParams (textBytes name)).getD defaultVal ≤ bound) :
    clippedParam ns name defaultVal 0 60000 ≤ bound := by
  cases ns with
  | none => exact small
  | some netParams =>
    have given := inside netParams rfl
    simp only [clippedParam, Option.elim_some, networkstatusGetParam]
    omega

theorem newConsensusParams_ranged (inside : DefaultsInside ns) :
    ∃ p, channelpaddingNewConsensusParams ns = some p ∧ Ranged p := by
  have low := clippedParam_le (by decide) (by decide) fun l here => (inside l here).1
  have lowReduced := clippedParam_le (by decide) (by decide) fun l here => (inside l here).2
  have first : 0 ≤ clippedParam ns "nf_ito_low" 1500 0 60000 ∧ _ :=
    clippedParam_range (by decide) (by decide)
  simp (disch := omega) only [channelpaddingNewConsensusParams, Option.bind_eq_bind,
    consensusParam_eq, Option.bind_some]
  refine ⟨_, rfl, first.1, ?_, ?_, ?_⟩
  · exact (clippedParam_range (by decide) low).1
  · exact (clippedParam_range (by decide) low).2
  · exact (clippedParam_range (by decide) lowReduced).1

theorem default_of_loaded {netParams : List CString} {name upper : String}
    {defaultVal bound low high : Int} (positive : 0 ≤ defaultVal) (small : defaultVal ≤ 60000)
    (limit : bound < 60000) (lower : consensusParam (some netParams) name defaultVal 0 60000 = some low)
    (loaded : consensusParam (some netParams) upper bound low 60000 = some high) :
    (netParamValue netParams (textBytes name)).getD defaultVal ≤ bound := by
  rw [consensusParam_eq (by decide) positive small, Option.some.injEq] at lower
  have below : low ≤ bound := by
    by_contra outside
    rw [consensusParam_none outside] at loaded
    cases loaded
  simp only [clippedParam, Option.elim_some, networkstatusGetParam] at lower
  omega

theorem defaultsInside_of_newConsensusParams {p : NetflowParams}
    (loaded : channelpaddingNewConsensusParams ns = some p) : DefaultsInside ns := by
  rintro netParams rfl
  simp only [channelpaddingNewConsensusParams, Option.bind_eq_bind, Option.bind_eq_some_iff]
    at loaded
  obtain ⟨low, lower, high, upper, lowReduced, lowerReduced, highReduced, upperReduced, -⟩ := loaded
  exact ⟨default_of_loaded (by decide) (by decide) (by decide) lower upper,
    default_of_loaded (by decide) (by decide) (by decide) lowerReduced upperReduced⟩

/-! ## Timeouts -/

/-- What holds between the variables and a channel in every run. -/
structure Padded (s : NetflowParams × PaddingChannel) : Prop where
  ranged : Ranged s.1
  negotiated : s.2.paddingTimeoutLowMs ≤ s.2.paddingTimeoutHighMs

variable {s s' : NetflowParams × PaddingChannel}

theorem Padded.step {event : PaddingEvent} (padded : Padded s)
    (step : paddingStep event s = some s') : Padded s' := by
  cases event with
  | newConsensus ns =>
    obtain ⟨params, loaded, rfl⟩ := Option.map_eq_some_iff.mp step
    obtain ⟨p, same, ranged⟩ :=
      newConsensusParams_ranged (defaultsInside_of_newConsensusParams loaded)
    rw [loaded, Option.some.injEq] at same
    exact ⟨same ▸ ranged, padded.negotiated⟩
  | negotiate fromRelay padVars =>
    obtain rfl := Option.some.inj step
    refine ⟨padded.ranged, ?_⟩
    unfold channelpaddingUpdatePaddingForChannel
    split
    · exact padded.negotiated
    · split
      · exact padded.negotiated
      · change UInt16.ofInt _ ≤ if UInt16.ofInt _ ≤ padVars.itoHighMs then padVars.itoHighMs else _
        split
        · next above => exact above
        · exact UInt16.le_refl _

theorem cryptoRandInt_spec (limit : Nat) (positive : 0 < limit) (small : limit ≤ 2 ^ 31)
    (draw : UInt32) : ∃ x : Int, cryptoRandInt limit draw = some x ∧ 0 ≤ x ∧ x < limit := by
  have below := Nat.mod_lt draw.toNat positive
  exact ⟨_, if_pos ⟨small, by omega, positive⟩, by omega, by omega⟩

/-- The random part of the timeout. -/
theorem drawn_between (lower upper : Int) (positive : 0 ≤ lower) (ordered : lower ≤ upper)
    (small : upper < 2 ^ 31) (draw1 draw2 : UInt32) :
    ∃ timeout, (if lower ≥ upper then some lower else do
        let x1 ← cryptoRandInt (upper - lower).toNat draw1
        let x2 ← cryptoRandInt (upper - lower).toNat draw2
        return lower + max x1 x2) = some timeout ∧ lower ≤ timeout ∧ timeout ≤ upper := by
  split
  · exact ⟨lower, rfl, le_refl _, ordered⟩
  · next random =>
    obtain ⟨x1, drawn1, positive1, below1⟩ :=
      cryptoRandInt_spec (upper - lower).toNat (by omega) (by omega) draw1
    obtain ⟨x2, drawn2, positive2, below2⟩ :=
      cryptoRandInt_spec (upper - lower).toNat (by omega) (by omega) draw2
    rw [drawn1, drawn2]
    exact ⟨lower + max x1 x2, rfl, by omega, by omega⟩

theorem Padded.timeout (padded : Padded s) (draw1 draw2 : UInt32) :
    ∃ timeout, channelpaddingGetNetflowInactiveTimeoutMs s.1 s.2 draw1 draw2 = some timeout
      ∧ TimeoutRight s timeout := by
  obtain ⟨⟨low, ordered, high, -⟩, negotiated⟩ := padded
  rw [UInt16.le_iff_toNat_le] at negotiated
  have word := s.2.paddingTimeoutHighMs.toNat_lt
  unfold channelpaddingGetNetflowInactiveTimeoutMs TimeoutRight
  split
  · next off => exact ⟨0, rfl, Or.inl ⟨rfl, off.1, off.2 ▸ off.1⟩⟩
  · by_cases agreed : s.2.paddingTimeoutLowMs ≠ 0 ∧ s.2.paddingTimeoutHighMs ≠ 0
    · simp only [if_pos agreed]
      obtain ⟨timeout, drawn, above, below⟩ := drawn_between
        (max s.1.itoLow s.2.paddingTimeoutLowMs.toNat)
        (max s.1.itoHigh s.2.paddingTimeoutHighMs.toNat) (by omega) (by omega) (by omega) draw1 draw2
      exact ⟨timeout, drawn, Or.inr ⟨by omega, below⟩⟩
    · simp only [if_neg agreed]
      obtain ⟨timeout, drawn, above, below⟩ :=
        drawn_between _ _ low ordered (by omega) draw1 draw2
      exact ⟨timeout, drawn, Or.inr ⟨above, by omega⟩⟩

/-- When loading a consensus fails no assertion, and what follows for every run that fails none. -/
theorem channelpadding_safe (ns : Option (List CString)) (enabled : Bool)
    (events : List (Transition (NetflowParams × PaddingChannel) PaddingEvent))
    (s : NetflowParams × PaddingChannel) :
    ((∃ p, channelpaddingNewConsensusParams ns = some p ∧ p.itoLow ≤ p.itoHigh
        ∧ p.itoLowReduced ≤ p.itoHighReduced) ↔ DefaultsInside ns)
      ∧ (Run (fun s event s' => paddingStep event s = some s') (initialPadding enabled) events s →
        ∀ draw1 draw2, ∃ timeout,
          channelpaddingGetNetflowInactiveTimeoutMs s.1 s.2 draw1 draw2 = some timeout
            ∧ TimeoutRight s timeout) := by
  constructor
  · constructor
    · intro ⟨p, loaded, _⟩
      exact defaultsInside_of_newConsensusParams loaded
    · intro inside
      obtain ⟨p, loaded, ranged⟩ := newConsensusParams_ranged inside
      exact ⟨p, loaded, ranged.ordered, ranged.reduced⟩
  · intro run
    have initial : Padded (initialPadding enabled) :=
      ⟨⟨le_refl _, le_refl _, Int.natCast_nonneg 60000, le_refl _⟩, UInt16.le_refl 0⟩
    exact (run.invariant initial fun _ _ _ padded step => padded.step step).timeout

theorem channelpadding_safe_negotiated : ∃ timeout,
    channelpaddingGetNetflowInactiveTimeoutMs ⟨0, 0, 0, 0, 0, 0, 0, 0, 0⟩ ⟨true, 3000, 3500⟩ 7 9
        = some timeout
      ∧ TimeoutRight (⟨0, 0, 0, 0, 0, 0, 0, 0, 0⟩, ⟨true, 3000, 3500⟩) timeout :=
  (channelpadding_safe none true _ _).2
    (Run.single (e := .negotiate false ⟨0, commandStart, 3000, 3500⟩) rfl) 7 9

/-- A lower end above the default of the upper one. -/
theorem channelpadding_crashes :
    channelpaddingNewConsensusParams (some [textBytes "nf_ito_low=10000"]) = none := by
  decide

end RendezMix.Guarantees.PaddingTimeouts
