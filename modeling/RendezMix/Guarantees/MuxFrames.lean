import RendezMix.Source.MuxSystem

/-!
# What calls on a mux leave alone

The DESTROY cells of a mux, their counter and the kind of cell chosen last are
written by the functions about DESTROY cells only.
-/
namespace RendezMix.Guarantees.MuxFrames

open Source CircuitmuxEwma Circuitmux MuxSystem

/-- What only the functions about DESTROY cells write. -/
def destroys (mux : CircuitMux) : List DestroyCell × Int × Bool :=
  (mux.destroyCellQueue, mux.destroyCtr, mux.lastCellWasDestroy)

variable (pow : Rat → Rat → Rat) {env : Environment} {s s' : MuxState} {circ : CircRef}

section

variable {n : UInt32} {e : MapEntry} {direction : CellDirection} {out out' : List CircRef}

theorem circuitmuxMakeCircuitInactive_frame
    (result : circuitmuxMakeCircuitInactive env s circ = some s') : destroys s'.mux = destroys s.mux := by
  simp only [circuitmuxMakeCircuitInactive, Option.bind_eq_bind, Option.bind_eq_some_iff] at result
  obtain ⟨pol, -, found, -, hashent, -, cdata, -, changed, -, last⟩ := result
  cases last
  rfl

theorem circuitmuxMakeCircuitActive_frame
    (result : circuitmuxMakeCircuitActive pow env s circ = some s') :
    destroys s'.mux = destroys s.mux := by
  simp only [circuitmuxMakeCircuitActive, Option.bind_eq_bind, Option.bind_eq_some_iff] at result
  obtain ⟨pol, -, found, -, hashent, -, cdata, -, changed, -, last⟩ := result
  cases last
  rfl

theorem changeActivity_frame {old new : UInt32}
    (result : changeActivity pow env s circ old new = some s') : destroys s'.mux = destroys s.mux := by
  unfold changeActivity at result
  split at result
  · have changed := circuitmuxMakeCircuitInactive_frame result
    exact changed
  · split at result
    · have changed := circuitmuxMakeCircuitActive_frame pow result
      exact changed
    · cases result
      rfl

theorem circuitmuxSetNumCells_frame (result : circuitmuxSetNumCells pow env s circ n = some s') :
    destroys s'.mux = destroys s.mux := by
  simp only [circuitmuxSetNumCells, Option.bind_eq_bind, Option.bind_eq_some_iff] at result
  obtain ⟨found, -, hashent, -, pol, -, changed⟩ := result
  have same := changeActivity_frame pow changed
  exact same

theorem circuitmuxNotifyXmitCells_frame
    (result : circuitmuxNotifyXmitCells pow env s circ n = some s') :
    destroys s'.mux = destroys s.mux := by
  unfold circuitmuxNotifyXmitCells at result
  split at result
  · cases result
    rfl
  · simp only [Option.bind_eq_bind, Option.bind_eq_some_iff] at result
    obtain ⟨found, -, hashent, -, mid, xmit, after⟩ := result
    have noted : destroys mid.mux = destroys s.mux := by
      simp only [noteXmit, Option.bind_eq_bind, Option.bind_eq_some_iff] at xmit
      obtain ⟨-, -, pol, -, cdata, -, sent, -, last⟩ := xmit
      cases last
      rfl
    split at after
    · have made := circuitmuxMakeCircuitInactive_frame after
      exact made.trans noted
    · cases after
      exact noted

theorem reattach_frame {cellCount : UInt32}
    (result : reattach pow env s circ direction cellCount e = some s') :
    destroys s'.mux = destroys s.mux := by
  simp only [reattach, Option.bind_eq_bind, Option.bind_eq_some_iff] at result
  obtain ⟨-, -, mid, changed, last⟩ := result
  cases last
  have same := changeActivity_frame pow changed
  exact same

theorem circuitmuxAttachCircuit_frame
    (result : circuitmuxAttachCircuit pow env s circ direction = some s') :
    destroys s'.mux = destroys s.mux := by
  simp only [circuitmuxAttachCircuit, Option.bind_eq_bind, Option.bind_eq_some_iff] at result
  obtain ⟨side, -, channelId, -, -, -, attached⟩ := result
  split at attached
  · exact reattach_frame pow attached
  · simp only [Option.bind_eq_some_iff] at attached
    obtain ⟨mid, inserted, after⟩ := attached
    have first : destroys mid.mux = destroys s.mux := by
      simp only [insertCircuit, Option.bind_eq_bind, Option.bind_eq_some_iff] at inserted
      obtain ⟨pol, -, last⟩ := inserted
      cases last
      rfl
    split at after
    · obtain ⟨active, changed, last⟩ := Option.bind_eq_some_iff.mp after
      cases last
      have made := circuitmuxMakeCircuitActive_frame pow changed
      exact made.trans first
    · cases after
      exact first

theorem circuitmuxDetachCircuit_frame
    (result : circuitmuxDetachCircuit env s circ = some s') : destroys s'.mux = destroys s.mux := by
  simp only [circuitmuxDetachCircuit, Option.bind_eq_bind, Option.bind_eq_some_iff] at result
  obtain ⟨searched, -, found⟩ := result
  split at found
  · cases found
    rfl
  · split at found
    · simp only [Option.bind_eq_some_iff] at found
      obtain ⟨mid, changed, -, -, -, -, last⟩ := found
      cases last
      have made := circuitmuxMakeCircuitInactive_frame changed
      exact made
    · simp only [Option.bind_eq_some_iff] at found
      obtain ⟨mid, same, -, -, -, -, last⟩ := found
      cases same
      cases last
      rfl

theorem detachOne_frame (result : detachOne env s e out = some (s', out')) :
    destroys s'.mux = destroys s.mux := by
  simp only [detachOne] at result
  split at result
  · simp only [Option.bind_eq_bind, Option.bind_eq_some_iff] at result
    obtain ⟨-, -, last⟩ := result
    cases last
    rfl
  · split at result
    · simp only [Option.bind_eq_bind, Option.bind_eq_some_iff] at result
      obtain ⟨mid, changed, -, -, last⟩ := result
      cases last
      exact circuitmuxMakeCircuitInactive_frame changed
    · simp only [Option.bind_eq_bind, Option.bind_eq_some_iff] at result
      obtain ⟨mid, same, -, -, last⟩ := result
      cases same
      cases last
      rfl

theorem detachEach_frame {entries : List MapEntry}
    (result : detachEach env entries s out = some (s', out')) :
    destroys s'.mux = destroys s.mux := by
  induction entries generalizing s out with
  | nil =>
    cases result
    rfl
  | cons e rest ih =>
    simp only [detachEach, Option.bind_eq_bind, Option.bind_eq_some_iff] at result
    obtain ⟨⟨mid, out₁⟩, first, tail⟩ := result
    have step := detachOne_frame first
    have left := ih tail
    exact left.trans step

theorem circuitmuxSetPolicy_frame {ewma : Bool}
    (result : circuitmuxSetPolicy pow env s ewma = some s') : destroys s'.mux = destroys s.mux := by
  unfold circuitmuxSetPolicy at result
  split at result
  · cases result
    rfl
  · simp only [Option.bind_eq_bind, Option.bind_eq_some_iff] at result
    obtain ⟨switched, -, last⟩ := result
    cases last
    rfl

theorem stateAfter_frame {w : MuxWorld} {ev : MuxEvent}
    (result : stateAfter pow w ev = some s') : destroys s'.mux = destroys w.mux := by
  cases ev with
  | attach circ direction => exact circuitmuxAttachCircuit_frame pow result
  | detach circ => exact circuitmuxDetachCircuit_frame result
  | setNumCells circ nCells => exact circuitmuxSetNumCells_frame pow result
  | notifyXmitCells circ nCells => exact circuitmuxNotifyXmitCells_frame pow result
  | detachAllCircuits =>
    obtain ⟨⟨t, out⟩, detached, rfl⟩ := Option.map_eq_some_iff.mp result
    simp only [circuitmuxDetachAllCircuits, Option.bind_eq_bind, Option.bind_eq_some_iff]
      at detached
    obtain ⟨⟨mid, out₁⟩, each, last⟩ := detached
    cases last
    have same := detachEach_frame each
    exact same
  | setPolicy ewma => exact circuitmuxSetPolicy_frame pow result
  | rehash entries | clock now | setOptions ewmaTickLen ewmaScaleFactor | environment env =>
    cases result
    rfl

end

end RendezMix.Guarantees.MuxFrames
