import Mathlib

/-!
# Relay cell crypto

`relay_crypto.c` with the getters of `crypt_path.c`. The two directions of a
`relay_crypto_t` share nothing, and each function works on one of them. The
keystream of the counter-mode cipher and the first four bytes of the digest are
parameters. A path is given by its hops up to the first that is not open.
-/
namespace RendezMix.Source.RelayCrypto

abbrev RelayPayload := Fin 509 → UInt8

/-- `f_crypto` with `f_digest`, or `b_crypto` with `b_digest`: the key data, how
much of the keystream is used up and the bytes the digest has been fed. -/
structure LayerCrypto (κ : Type*) where
  key : κ
  used : Nat
  fed : List UInt8

structure CryptoLib (κ : Type*) where
  keystream : κ → Nat → UInt8
  getDigest : κ → List UInt8 → Fin 4 → UInt8

/-- The header field `recognized` is zero. -/
def recognizedIsZero (payload : RelayPayload) : Bool := payload 1 == 0 && payload 2 == 0

def integrity (payload : RelayPayload) (i : Fin 4) : UInt8 := payload ⟨5 + i, by omega⟩

/-- `relay_header_unpack`, a new integrity field and `relay_header_pack`. -/
def setIntegrity (payload : RelayPayload) (value : Fin 4 → UInt8) : RelayPayload := fun i =>
  if h : 5 ≤ i.val ∧ i.val < 9 then value ⟨i.val - 5, by omega⟩ else payload i

variable {κ : Type*} (lib : CryptoLib κ)

def relaySetDigest (crypto : LayerCrypto κ) (payload : RelayPayload) :
    RelayPayload × LayerCrypto κ :=
  let fed := crypto.fed ++ List.ofFn payload
  (setIntegrity payload (lib.getDigest crypto.key fed), { crypto with fed := fed })

/-- A cell that matches keeps its integrity field zeroed. -/
def relayDigestMatches (crypto : LayerCrypto κ) (payload : RelayPayload) :
    Bool × RelayPayload × LayerCrypto κ :=
  let received := integrity payload
  let zeroed := setIntegrity payload 0
  let fed := crypto.fed ++ List.ofFn zeroed
  if ∀ i, lib.getDigest crypto.key fed i = received i then (true, zeroed, { crypto with fed := fed })
  else (false, setIntegrity zeroed received, crypto)

def relayCryptOnePayload (crypto : LayerCrypto κ) (payload : RelayPayload) :
    RelayPayload × LayerCrypto κ :=
  (fun i => payload i ^^^ lib.keystream crypto.key (crypto.used + i),
    { crypto with used := crypto.used + 509 })

/-- One turn of `relay_decrypt_cell`: outbound in the middle of a circuit, or
inbound for one hop of the path at its origin. -/
def relayDecryptLayer (crypto : LayerCrypto κ) (payload : RelayPayload) :
    Bool × RelayPayload × LayerCrypto κ :=
  let (payload, crypto) := relayCryptOnePayload lib crypto payload
  if recognizedIsZero payload then relayDigestMatches lib crypto payload
  else (false, payload, crypto)

/-- `relay_decrypt_cell` at the origin: the hop that recognizes the cell, or
none where the circuit is to be closed. -/
def relayDecryptCell : List (LayerCrypto κ) → RelayPayload →
    Option ((Nat × RelayPayload) × List (LayerCrypto κ))
  | [], _ => none
  | thishop :: next, payload =>
    match relayDecryptLayer lib thishop payload with
    | (true, payload, thishop) => some ((0, payload), thishop :: next)
    | (false, payload, thishop) => (relayDecryptCell next payload).map
        fun ((hop, payload), next) => ((hop + 1, payload), thishop :: next)

/-- `relay_encrypt_cell_inbound`; outbound, a cell's own hop has the same done. -/
def relayEncryptCellInbound (crypto : LayerCrypto κ) (payload : RelayPayload) :
    RelayPayload × LayerCrypto κ :=
  let (payload, crypto) := relaySetDigest lib crypto payload
  relayCryptOnePayload lib crypto payload

/-- `relay_encrypt_cell_outbound`: the digest of `layerHint` first, then the
layers from that hop back to the nearest. -/
def relayEncryptCellOutbound : List (LayerCrypto κ) → Nat → RelayPayload →
    RelayPayload × List (LayerCrypto κ)
  | [], _, payload => (payload, [])
  | thishop :: next, 0, payload =>
    let (payload, thishop) := relaySetDigest lib thishop payload
    let (payload, thishop) := relayCryptOnePayload lib thishop payload
    (payload, thishop :: next)
  | thishop :: next, layerHint + 1, payload =>
    let (payload, next) := relayEncryptCellOutbound next layerHint payload
    let (payload, thishop) := relayCryptOnePayload lib thishop payload
    (payload, thishop :: next)

end RendezMix.Source.RelayCrypto
