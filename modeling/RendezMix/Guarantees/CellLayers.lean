import RendezMix.Library.OnionLayers
import RendezMix.Source.RelayCrypto

/-!
# Relay cells under their layers

The ends of a circuit stay in step: each relay takes the cells for it, in order
and unchanged, however the relays take turns, and the origin finds the hop and
the contents of each cell that comes in. No hop may take the cell of another
for its own, as four bytes of digest can agree by accident.
-/
namespace RendezMix.Guarantees.CellLayers
open Source.RelayCrypto Library.OnionLayers

variable {κ : Type*} (lib : CryptoLib κ)

theorem setIntegrity_restore {payload : RelayPayload} {value : Fin 4 → UInt8}
    (was : integrity payload = value) (between : Fin 4 → UInt8) :
    setIntegrity (setIntegrity payload between) value = payload := by
  subst was
  funext i
  unfold setIntegrity
  split
  · simp only [integrity]
    congr
    omega
  · rfl

theorem integrity_setIntegrity (payload : RelayPayload) (value : Fin 4 → UInt8) :
    integrity (setIntegrity payload value) = value := by
  funext i
  have inside : 5 ≤ 5 + i.val ∧ 5 + i.val < 9 := by omega
  simp [integrity, setIntegrity, inside]

/-- A second pass with the same stretch of keystream undoes the first. -/
theorem relayCryptOnePayload_twice (crypto : LayerCrypto κ) (fed : List UInt8)
    (payload : RelayPayload) :
    (relayCryptOnePayload lib crypto
      (relayCryptOnePayload lib { crypto with fed := fed } payload).1).1 = payload := by
  funext i
  simp [relayCryptOnePayload]

/-- A digest that does not match leaves cell and digest as they were. -/
theorem relayDigestMatches_mismatch {crypto : LayerCrypto κ} {payload : RelayPayload}
    (mismatch : (relayDigestMatches lib crypto payload).1 = false) :
    relayDigestMatches lib crypto payload = (false, payload, crypto) := by
  unfold relayDigestMatches at *
  dsimp only at *
  split at mismatch
  · cases mismatch
  next differs => rw [if_neg differs, setIntegrity_restore rfl]

theorem relayDecryptLayer_encrypted (crypto : LayerCrypto κ) (payload : RelayPayload)
    (blank : recognizedIsZero payload ∧ integrity payload = 0) :
    relayDecryptLayer lib crypto (relayEncryptCellInbound lib crypto payload).1 =
      (true, payload, (relayEncryptCellInbound lib crypto payload).2) := by
  obtain ⟨zero, unset⟩ := blank
  have plain : (relayCryptOnePayload lib crypto (relayEncryptCellInbound lib crypto payload).1).1 =
      (relaySetDigest lib crypto payload).1 := relayCryptOnePayload_twice lib crypto _ _
  have restored : setIntegrity (relaySetDigest lib crypto payload).1 0 = payload :=
    setIntegrity_restore unset _
  have marked : recognizedIsZero (relaySetDigest lib crypto payload).1 = true := zero
  simp only [relayDecryptLayer, plain, marked, if_true, relayDigestMatches, restored]
  rw [if_pos]
  · rfl
  · exact fun i => (congrFun (integrity_setIntegrity payload _) i).symm

/-- One direction of a circuit. Inbound, its relays do between them what
`relay_encrypt_cell_outbound` does at the origin. -/
def layering : Layering (LayerCrypto κ) RelayPayload where
  blank payload := recognizedIsZero payload ∧ integrity payload = 0
  stamp := relayEncryptCellInbound lib
  cover := relayCryptOnePayload lib
  peel := relayDecryptLayer lib
  wrap := relayEncryptCellOutbound lib
  peel_stamp := relayDecryptLayer_encrypted lib
  peel_cover := by
    intro crypto payload unrecognized
    have plain := relayCryptOnePayload_twice lib crypto crypto.fed payload
    simp only [relayDecryptLayer, plain] at unrecognized ⊢
    split at unrecognized
    next zero =>
      rw [if_pos zero, relayDigestMatches_mismatch lib unrecognized]
      rfl
    next nonzero =>
      rw [if_neg nonzero]
      rfl
  wrap_own _ _ _ := rfl
  wrap_beyond _ _ _ _ := rfl

variable {lib} {cpath : List (LayerCrypto κ)} {sends : List (Nat × RelayPayload)}

/-- Whatever the origin sends, and however many of the cells that have reached
it each relay has handled: it has recognized the first of those for it. -/
theorem outbound_deliveries (apart : ApartAll (layering lib) cpath sends) {counts : List Nat}
    {k : Nat} {own : List RelayPayload}
    (handled : (deliveries (layering lib) cpath counts
      (wrapAll (layering lib) cpath sends))[k]? = some own) :
    own <+: addressed k sends ∧
      ((∀ n ∈ counts, sends.length ≤ n) → own = addressed k sends) :=
  deliveries_wrapAll apart handled

theorem relayDecryptCell_wrapped {hop : Nat} {payload : RelayPayload}
    (apart : Apart (layering lib) cpath hop payload) :
    relayDecryptCell lib cpath (relayEncryptCellOutbound lib cpath hop payload).1 =
      some ((hop, payload), (relayEncryptCellOutbound lib cpath hop payload).2) := by
  induction cpath generalizing hop with
  | nil => cases apart
  | cons thishop next ih =>
    cases hop with
    | zero =>
      have peeled : relayDecryptLayer lib thishop
          (relayEncryptCellOutbound lib (thishop :: next) 0 payload).1 = _ :=
        (layering lib).peel_stamp thishop payload apart
      rw [relayDecryptCell, peeled]
      rfl
    | succ hop =>
      have peeled : relayDecryptLayer lib thishop
          (relayEncryptCellOutbound lib (thishop :: next) (hop + 1) payload).1 = _ :=
        (layering lib).peel_cover thishop _ apart.2
      rw [relayDecryptCell, peeled]
      exact congrArg (Option.map _) (ih apart.1)

variable (lib) in
/-- The origin reads the cells of its first link one after the other. -/
def originRun (cpath : List (LayerCrypto κ)) :
    List RelayPayload → Option (List (Nat × RelayPayload))
  | [] => some []
  | cell :: later =>
    (relayDecryptCell lib cpath cell).bind fun (read, cpath) =>
      (originRun cpath later).map (read :: ·)

/-- In whatever order cells of the hops reach the origin, it reads the contents
of each and the hop it is from, and never closes the circuit. -/
theorem originRun_inbound (apart : ApartAll (layering lib) cpath sends) :
    originRun lib cpath (wrapAll (layering lib) cpath sends) = some sends := by
  induction sends generalizing cpath with
  | nil => rfl
  | cons send later ih =>
    have read : relayDecryptCell lib cpath ((layering lib).wrap cpath send.1 send.2).1 = _ :=
      relayDecryptCell_wrapped apart.1
    simp only [wrapAll, originRun, read, Option.bind_some]
    exact congrArg (Option.map (send :: ·)) (ih apart.2)

/-- A keystream and a digest that tell two hops apart. -/
def plainLib : CryptoLib UInt8 := ⟨fun key _ => key, fun key _ _ => key⟩

def twoHops : List (LayerCrypto UInt8) := [⟨1, 0, []⟩, ⟨2, 0, []⟩]

theorem apart_twoHops : ApartAll (layering plainLib) twoHops [(1, 0)] :=
  ⟨⟨⟨rfl, rfl⟩, rfl⟩, trivial⟩

theorem outbound_deliveries_two_hops : ∃ own, (deliveries (layering plainLib) twoHops [1, 1]
    (wrapAll (layering plainLib) twoHops [(1, 0)]))[1]? = some own ∧ own = [0] :=
  ⟨_, rfl, (@outbound_deliveries _ _ _ _ apart_twoHops [1, 1] 1 _ rfl).2 (by decide)⟩

theorem originRun_inbound_two_hops :
    originRun plainLib twoHops (wrapAll (layering plainLib) twoHops [(1, 0)]) = some [(1, 0)] :=
  originRun_inbound apart_twoHops

end RendezMix.Guarantees.CellLayers
