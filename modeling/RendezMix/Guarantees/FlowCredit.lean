import RendezMix.Source.FlowControl

/-!
# Flow control messages of an honest peer

A client counts the bytes it sent on a stream against the XOFFs and XONs it
received. Each message of an honest peer is paid for by bytes that the client
counted: those of an XOFF have left the buffer behind it, those of an XON were
drained for its rate. The count covers what the peer may still send as long as
halving it leaves enough for what is under way.
-/
namespace RendezMix.Guarantees.FlowCredit
open Library.ByteStrings Library.Runs Library.Words Source

/-! ## The parameters -/

/-- The ranges of the consensus parameters. -/
structure Ranges (p : FlowParams) : Prop where
  client : 498 ≤ p.xoffClient.toNat ∧ p.xoffClient.toNat ≤ 4980000
  exit : 498 ≤ p.xoffExit.toNat ∧ p.xoffExit.toNat ≤ 4980000
  rate : 498 ≤ p.xonRateBytes.toNat ∧ p.xonRateBytes.toNat ≤ 2490000
  pct : 1 ≤ p.xonChangePct.toNat ∧ p.xonChangePct.toNat ≤ 99

theorem ofInt_between {x low high : Int} (above : low ≤ x) (below : x ≤ high) (nonneg : 0 ≤ low)
    (small : high < 2 ^ 32) :
    low ≤ (UInt32.ofInt x).toNat ∧ ((UInt32.ofInt x).toNat : Int) ≤ high := by
  have same : ((UInt32.ofInt x).toNat : Int) = x := by
    rw [UInt32.ofInt, UInt32.toNat_ofNat']
    omega
  rw [same]
  exact ⟨above, below⟩

theorem cells_between (value : Option Int) {high : Int} (le : 1 ≤ high) (small : high ≤ 10000) :
    let word := UInt32.ofInt (networkstatusGetParam value 500 1 high * relayPayloadSize)
    498 ≤ word.toNat ∧ (word.toNat : Int) ≤ 498 * high := by
  have range := networkstatusGetParam_range value 500 le
  have above : (498 : Int) ≤ networkstatusGetParam value 500 1 high * relayPayloadSize := by
    simp only [relayPayloadSize]
    omega
  have below : networkstatusGetParam value 500 1 high * relayPayloadSize ≤ 498 * high := by
    simp only [relayPayloadSize]
    omega
  have word := ofInt_between above below (by decide) (by omega)
  exact ⟨by omega, word.2⟩

theorem flowControlNewConsensusParams_ranges (ns : NetParams) :
    Ranges (flowControlNewConsensusParams ns) := by
  have client := cells_between (ns "cc_xoff_client") (show (1 : Int) ≤ 10000 by decide) (by decide)
  have exit := cells_between (ns "cc_xoff_exit") (show (1 : Int) ≤ 10000 by decide) (by decide)
  have rate := cells_between (ns "cc_xon_rate") (show (1 : Int) ≤ 5000 by decide) (by decide)
  have range := networkstatusGetParam_range (ns "cc_xon_change_pct") 25
    (show (1 : Int) ≤ 99 by decide)
  have pct := ofInt_between range.1 range.2 (by decide) (by decide)
  constructor
  · exact ⟨client.1, by exact_mod_cast client.2⟩
  · exact ⟨exit.1, by exact_mod_cast exit.2⟩
  · exact ⟨rate.1, by exact_mod_cast rate.2⟩
  · exact ⟨by exact_mod_cast pct.1, by exact_mod_cast pct.2⟩

/-! ## What the peer may still send -/

/-- The bytes drained so far may count towards a rate to announce. -/
def Counts (s : EdgeStream) : Prop :=
  s.drainStartUsec ≠ 0 ∨ s.ewmaRateLastSent ≠ 0 ∨ (s.xoffSent = true ∧ s.ewmaDrainRate ≠ 0)

instance (s : EdgeStream) : Decidable (Counts s) := instDecidableOr

def rateCredit (s : EdgeStream) : Nat := if Counts s then s.drainedBytes.toNat else 0

/-- The bytes kept for the XONs of what the peer holds, where each XON takes `m`: those it
has not drained, those drained for the next rate, and those of an XON that is due. -/
def xonDue (m : Nat) (s : EdgeStream) : Nat :=
  if s.xoffSent = true ∧ s.ewmaDrainRate = 0 then max m (s.outbufLen + rateCredit s)
  else s.outbufLen + rateCredit s
    + if s.xoffSent = true ∨ s.ewmaDrainRate ≠ s.ewmaRateLastSent then m else 0

/-- The bytes kept for the next XOFF: those of the buffer, unless it had its XOFF. -/
def xoffDue (s : EdgeStream) : Nat := if s.xoffSent then 0 else s.outbufLen

variable {p : FlowParams} {clock : Monotime} {m : Nat} {s s' : EdgeStream}

theorem rateCredit_le (s : EdgeStream) : rateCredit s ≤ s.drainedBytes.toNat := by
  rw [rateCredit]
  split <;> omega

theorem rateCredit_of_counts (counts : Counts s) : rateCredit s = s.drainedBytes.toNat :=
  if_pos counts

theorem rateCredit_reset (reset : s.drainedBytes = 0) : rateCredit s = 0 := by
  have le := rateCredit_le s
  rw [reset] at le
  exact Nat.le_zero.mp le

theorem rateCredit_mono {n : Nat} (counts : Counts s' → Counts s)
    (drained : s'.drainedBytes.toNat ≤ s.drainedBytes.toNat + n) :
    rateCredit s' ≤ rateCredit s + n := by
  by_cases held : Counts s'
  · rw [rateCredit_of_counts held, rateCredit_of_counts (counts held)]
    exact drained
  · rw [rateCredit, if_neg held]
    omega

section

variable (sent : s'.xoffSent = s.xoffSent) (ewma : s'.ewmaDrainRate = s.ewmaDrainRate)
  (last : s'.ewmaRateLastSent = s.ewmaRateLastSent)

include sent ewma last

theorem xonDue_mono (less : s'.outbufLen + rateCredit s' ≤ s.outbufLen + rateCredit s) :
    xonDue m s' ≤ xonDue m s := by
  simp only [xonDue, sent, ewma, last]
  split <;> omega

theorem xonDue_reset (outbuf : s'.outbufLen = s.outbufLen) (reset : s'.drainedBytes = 0) :
    xonDue m s' ≤ xonDue m s := by
  apply xonDue_mono sent ewma last
  rw [rateCredit_reset reset, outbuf]
  exact Nat.le_add_right _ _

end

theorem le_xonDue (m : Nat) (s : EdgeStream) : s.outbufLen + rateCredit s ≤ xonDue m s := by
  rw [xonDue]
  split <;> omega

theorem xonDue_le (m : Nat) (s : EdgeStream) : xonDue m s ≤ s.outbufLen + rateCredit s + m := by
  simp only [xonDue]
  split
  · omega
  · split <;> omega

theorem xonDue_buffer (m len : Nat) (s : EdgeStream) :
    xonDue m { s with outbufLen := s.outbufLen + len } ≤ xonDue m s + len := by
  have same : rateCredit { s with outbufLen := s.outbufLen + len } = rateCredit s := rfl
  simp only [xonDue, same]
  split <;> omega

theorem xoffDue_buffer (len : Nat) (s : EdgeStream) :
    xoffDue { s with outbufLen := s.outbufLen + len } ≤ xoffDue s + len := by
  simp only [xoffDue]
  split <;> omega

theorem xonDue_rated (outbuf : s'.outbufLen = s.outbufLen) (reset : s'.drainedBytes = 0)
    (paid : m ≤ rateCredit s) : xonDue m s' ≤ xonDue m s := by
  have above := le_xonDue m s
  have below := xonDue_le m s'
  rw [rateCredit_reset reset, outbuf] at below
  omega

/-! ## The stages of an XON decision -/

theorem drained_add_le (bytes : UInt32) (n : UInt64) :
    (bytes.toUInt64 + n).toUInt32.toNat ≤ bytes.toNat + n.toNat := by
  rw [UInt64.toNat_toUInt32, UInt64.toNat_add, UInt32.toNat_toUInt64]
  omega

/-- What the stream is is the same. -/
structure SameKind (s s' : EdgeStream) : Prop where
  ap : s'.isAp = s.isAp
  ident : s'.hsIdent = s.hsIdent
  ccontrol : s'.circuitCcontrol = s.circuitCcontrol
  layer : s'.cpathLayer = s.cpathLayer

theorem SameKind.refl (s : EdgeStream) : SameKind s s := ⟨rfl, rfl, rfl, rfl⟩

theorem SameKind.trans {s₁ s₂ s₃ : EdgeStream} (first : SameKind s₁ s₂)
    (second : SameKind s₂ s₃) : SameKind s₁ s₃ :=
  ⟨second.ap.trans first.ap, second.ident.trans first.ident,
    second.ccontrol.trans first.ccontrol, second.layer.trans first.layer⟩

theorem SameKind.usesFlowControl (same : SameKind s s') :
    s'.usesFlowControl = s.usesFlowControl := by
  rw [EdgeStream.usesFlowControl, same.ccontrol, same.layer]
  rfl

theorem SameKind.localEdge (same : SameKind s s') : s'.localEdge = s.localEdge := by
  rw [EdgeStream.localEdge, same.ap, same.ident]
  rfl

/-- The outbuf and the XOFF that was sent are the same as well. -/
structure SameBuffer (s s' : EdgeStream) : Prop extends SameKind s s' where
  outbuf : s'.outbufLen = s.outbufLen
  sent : s'.xoffSent = s.xoffSent

theorem SameBuffer.refl (s : EdgeStream) : SameBuffer s s := ⟨SameKind.refl s, rfl, rfl⟩

/-- At most `n` more bytes are counted as drained, and no new count is started. -/
structure Drains (n : Nat) (s s' : EdgeStream) : Prop where
  same : SameBuffer s s'
  ewma : s'.ewmaDrainRate = s.ewmaDrainRate
  last : s'.ewmaRateLastSent = s.ewmaRateLastSent
  start : s.drainStartUsec = 0 → s'.drainStartUsec = 0
  drained : s'.drainedBytes.toNat ≤ s.drainedBytes.toNat + n

theorem Drains.rateCredit {n : Nat} (drains : Drains n s s') :
    rateCredit s' ≤ rateCredit s + n := by
  apply rateCredit_mono
  · rintro (started | last | due)
    · by_cases start : s.drainStartUsec = 0
      · exact absurd (drains.start start) started
      · exact Or.inl start
    · rw [drains.last] at last
      exact Or.inr (Or.inl last)
    · rw [drains.same.sent, drains.ewma] at due
      exact Or.inr (Or.inr due)
  · exact drains.drained

theorem Drains.add {t : EdgeStream} (n : UInt64) (drains : Drains 0 s t) :
    Drains n.toNat s { t with drainedBytes := (t.drainedBytes.toUInt64 + n).toUInt32 } := by
  have added := drained_add_le t.drainedBytes n
  have drained := drains.drained
  have same := drains.same
  constructor
  · exact ⟨⟨same.ap, same.ident, same.ccontrol, same.layer⟩, same.outbuf, same.sent⟩
  · exact drains.ewma
  · exact drains.last
  · exact drains.start
  · simp only
    omega

theorem halveDrained_drains (clock : Monotime) (n : UInt64) (s : EdgeStream) :
    Drains 0 s (halveDrained clock n s) := by
  rw [halveDrained]
  split
  · constructor
    · exact ⟨⟨rfl, rfl, rfl, rfl⟩, rfl, rfl⟩
    · rfl
    · rfl
    · intro start
      simp only [start, ne_eq, not_true_eq_false, if_false]
    · simp only [UInt32.toNat_div]
      exact Nat.div_le_self _ _
  · exact ⟨SameBuffer.refl s, rfl, rfl, id, le_refl _⟩

theorem boundDrained_drains (clock : Monotime) (n : UInt64) (s : EdgeStream) :
    Drains n.toNat s (boundDrained clock n s) :=
  (halveDrained_drains clock n s).add n

theorem boundDrained_due (clock : Monotime) {n : UInt64} (s : EdgeStream)
    (held : n.toNat ≤ s.outbufLen) :
    xonDue m (boundDrained clock n { s with outbufLen := s.outbufLen - n.toNat })
      ≤ xonDue m s := by
  have drains := boundDrained_drains clock n { s with outbufLen := s.outbufLen - n.toNat }
  have credit := drains.rateCredit
  have same : rateCredit { s with outbufLen := s.outbufLen - n.toNat } = rateCredit s := rfl
  apply xonDue_mono
  · exact drains.same.sent
  · exact drains.ewma
  · exact drains.last
  · rw [drains.same.outbuf]
    simp only
    omega

theorem startDrain_same (clock : Monotime) (s : EdgeStream) :
    SameBuffer s (startDrain clock s) := by
  simp only [startDrain]
  split
  · exact ⟨⟨rfl, rfl, rfl, rfl⟩, rfl, rfl⟩
  · split
    · exact ⟨⟨rfl, rfl, rfl, rfl⟩, rfl, rfl⟩
    · exact SameBuffer.refl s

theorem startDrain_due (clock : Monotime) (m : Nat) (s : EdgeStream) :
    xonDue m (startDrain clock s) ≤ xonDue m s := by
  simp only [startDrain]
  split
  · exact xonDue_reset rfl rfl rfl rfl rfl
  · split
    · exact xonDue_reset rfl rfl rfl rfl rfl
    · exact le_refl _

theorem updateDrainRate_same (p : FlowParams) (clock : Monotime) (s : EdgeStream) :
    SameBuffer s (updateDrainRate p clock s) := by
  simp only [updateDrainRate]
  split
  · split
    · exact ⟨⟨rfl, rfl, rfl, rfl⟩, rfl, rfl⟩
    · exact ⟨⟨rfl, rfl, rfl, rfl⟩, rfl, rfl⟩
  · exact SameBuffer.refl s

theorem updateDrainRate_due (clock : Monotime) (s : EdgeStream)
    (cheap : m ≤ p.xonRateBytes.toNat) : xonDue m (updateDrainRate p clock s) ≤ xonDue m s := by
  simp only [updateDrainRate]
  split
  · next enough =>
    have paid : m ≤ rateCredit s := by
      rw [rateCredit_of_counts (Or.inl enough.1)]
      exact le_trans cheap (le_of_lt (UInt32.lt_iff_toNat_lt.mp enough.2))
    split
    · exact xonDue_rated rfl rfl paid
    · exact le_refl _
  · exact le_refl _

theorem percent_of {pct word : UInt64} (le : pct.toNat ≤ 199) (small : word.toNat < 2 ^ 32) :
    (pct * word / 100).toNat = pct.toNat * word.toNat / 100 := by
  have product : pct.toNat * word.toNat < 2 ^ 64 := by
    have := Nat.mul_le_mul le (Nat.le_of_lt_succ small)
    omega
  rw [UInt64.toNat_div, UInt64.toNat_mul, Nat.mod_eq_of_lt product]
  rfl

theorem streamDrainRateChanged_ne (ranges : Ranges p)
    (changed : streamDrainRateChanged p clock s = true) :
    s.ewmaRateLastSent ≠ 0 ∧ s.ewmaDrainRate ≠ s.ewmaRateLastSent := by
  rw [streamDrainRateChanged] at changed
  split at changed
  · cases changed
  split at changed
  · cases changed
  next sent =>
  refine ⟨sent, fun same => ?_⟩
  have range := ranges.pct
  have hundred : (100 : UInt64).toNat = 100 := rfl
  have word : s.ewmaRateLastSent.toUInt64.toNat < 2 ^ 32 := by
    rw [UInt32.toNat_toUInt64]
    exact s.ewmaRateLastSent.toNat_lt
  have pct : p.xonChangePct.toUInt64.toNat = p.xonChangePct.toNat := UInt32.toNat_toUInt64 _
  have more : (100 + p.xonChangePct.toUInt64).toNat = 100 + p.xonChangePct.toNat := by
    rw [uint64_toNat_add (by omega)]
    omega
  have less : (100 - p.xonChangePct.toUInt64).toNat = 100 - p.xonChangePct.toNat := by
    rw [uint64_toNat_sub (by omega)]
    omega
  simp only [same] at changed
  split at changed
  · next above =>
    rw [gt_iff_lt, UInt64.lt_iff_toNat_lt, percent_of (by omega) word, more] at above
    have := Nat.mul_le_mul_right s.ewmaRateLastSent.toUInt64.toNat
      (show 100 ≤ 100 + p.xonChangePct.toNat by omega)
    omega
  · split at changed
    · next below =>
      rw [UInt64.lt_iff_toNat_lt, percent_of (by omega) word, less] at below
      have := Nat.mul_le_mul_right s.ewmaRateLastSent.toUInt64.toNat
        (show 100 - p.xonChangePct.toNat ≤ 100 by omega)
      omega
    · cases changed

/-- What the end of an XON decision does to a buffer that is empty. -/
def stopDrain (s : EdgeStream) : EdgeStream :=
  if s.outbufLen = 0 then { s with drainStartUsec := 0 } else s

theorem stopDrain_same (s : EdgeStream) : SameBuffer s (stopDrain s) := by
  rw [stopDrain]
  split
  · exact ⟨⟨rfl, rfl, rfl, rfl⟩, rfl, rfl⟩
  · exact SameBuffer.refl s

theorem stopDrain_drains (s : EdgeStream) : Drains 0 s (stopDrain s) := by
  have same := stopDrain_same s
  rw [stopDrain] at same ⊢
  split
  · next empty =>
    rw [if_pos empty] at same
    exact ⟨same, rfl, rfl, fun _ => rfl, le_refl _⟩
  · exact ⟨SameBuffer.refl s, rfl, rfl, id, le_refl _⟩

theorem stopDrain_due (m : Nat) (s : EdgeStream) : xonDue m (stopDrain s) ≤ xonDue m s := by
  have drains := stopDrain_drains s
  have credit := drains.rateCredit
  apply xonDue_mono drains.same.sent drains.ewma drains.last
  rw [drains.same.outbuf]
  omega

/-- An XON takes what was kept for it. -/
theorem circuitSendStreamXon_due (m : Nat)
    (due : (s.xoffSent = true ∧ s.outbufLen = 0)
      ∨ (s.xoffSent = false ∧ s.ewmaRateLastSent ≠ 0 ∧ s.ewmaDrainRate ≠ s.ewmaRateLastSent)) :
    m + xonDue m (stopDrain (circuitSendStreamXon s).1) ≤ xonDue m s := by
  have drains := stopDrain_drains (circuitSendStreamXon s).1
  have credit := rateCredit_le (stopDrain (circuitSendStreamXon s).1)
  have fewer : (stopDrain (circuitSendStreamXon s).1).drainedBytes.toNat ≤ s.drainedBytes.toNat :=
    drains.drained
  have sent : (stopDrain (circuitSendStreamXon s).1).xoffSent = false := drains.same.sent
  have rate : (stopDrain (circuitSendStreamXon s).1).ewmaDrainRate = s.ewmaDrainRate := drains.ewma
  have last : (stopDrain (circuitSendStreamXon s).1).ewmaRateLastSent = s.ewmaDrainRate :=
    drains.last
  have outbuf : (stopDrain (circuitSendStreamXon s).1).outbufLen = s.outbufLen :=
    drains.same.outbuf
  have left : xonDue m (stopDrain (circuitSendStreamXon s).1)
      = s.outbufLen + rateCredit (stopDrain (circuitSendStreamXon s).1) := by
    simp [xonDue, sent, rate, last, outbuf]
  rw [left]
  rcases due with ⟨blocked, empty⟩ | ⟨unblocked, rated, changed⟩
  · by_cases none : s.ewmaDrainRate = 0
    · have start : (stopDrain (circuitSendStreamXon s).1).drainStartUsec = 0 := by
        simp [stopDrain, circuitSendStreamXon, empty]
      have uncounted : ¬Counts (stopDrain (circuitSendStreamXon s).1) := by
        simp [Counts, start, sent, last, none]
      rw [rateCredit, if_neg uncounted, xonDue, if_pos ⟨blocked, none⟩]
      omega
    · have counts : rateCredit s = s.drainedBytes.toNat :=
        rateCredit_of_counts (Or.inr (Or.inr ⟨blocked, none⟩))
      simp only [xonDue, none, blocked, and_false, true_or, if_true, if_false]
      omega
  · have counts : rateCredit s = s.drainedBytes.toNat := rateCredit_of_counts (Or.inr (Or.inl rated))
    rw [xonDue, if_neg (by simp [unblocked]), if_pos (Or.inr changed)]
    omega

theorem clearDrain_same (p : FlowParams) (s : EdgeStream) : SameBuffer s (clearDrain p s) := by
  simp only [clearDrain]
  split
  · split
    · exact ⟨⟨rfl, rfl, rfl, rfl⟩, rfl, rfl⟩
    · exact ⟨⟨rfl, rfl, rfl, rfl⟩, rfl, rfl⟩
  · exact SameBuffer.refl s

theorem clearDrain_due (s : EdgeStream) (cheap : m ≤ p.xonRateBytes.toNat) :
    xonDue m (clearDrain p s) ≤ xonDue m (stopDrain s) := by
  simp only [clearDrain, stopDrain]
  split
  · split
    · next enough =>
      have paid : m ≤ rateCredit { s with drainStartUsec := 0 } := by
        have counts : Counts { s with drainStartUsec := 0 } := Or.inr (Or.inl enough.2)
        rw [rateCredit_of_counts counts]
        exact le_trans cheap (UInt32.le_iff_toNat_le.mp enough.1)
      exact xonDue_rated rfl rfl paid
    · exact le_refl _
  · exact le_refl _

/-! ## Messages under way -/

def isXoff : FlowCell → Bool
  | .xoff _ => true
  | .xon _ => false

def xoffs (cells : List FlowCell) : Nat := cells.countP isXoff
def xons (cells : List FlowCell) : Nat := cells.countP fun cell => !isXoff cell

/-- The cells turn an XOFF that was received at one end into one that was sent at the other:
an XOFF comes only where none holds, and an XON ends it. -/
def Turns : Bool → List FlowCell → Bool → Prop
  | received, [], sent => received = sent
  | received, .xoff _ :: rest, sent => received = false ∧ Turns true rest sent
  | _, .xon _ :: rest, sent => Turns false rest sent

theorem Turns.append {received mid sent : Bool} {first second : List FlowCell}
    (before : Turns received first mid) (after : Turns mid second sent) :
    Turns received (first ++ second) sent := by
  induction first generalizing received with
  | nil =>
    rw [show received = mid from before]
    exact after
  | cons cell rest ih =>
    cases cell with
    | xoff payload => exact ⟨before.1, ih before.2⟩
    | xon payload => exact ih before

/-- The payload of an XON can be read. -/
def Formed : FlowCell → Prop
  | .xoff _ => True
  | .xon payload => (xonCellParse payload).isSome

theorem xonCellParse_encode (rate : UInt32) : xonCellParse (xonCellEncode rate) = some rate := by
  have first : takeBytes 1 (xonCellEncode rate) = some (⟨[0], rfl⟩, be32 rate) := rfl
  have second := takeBytes_append (⟨be32 rate, rfl⟩ : Bytes 4) []
  rw [List.append_nil] at second
  simp only [xonCellParse, first, Option.bind_eq_bind, Option.bind_some, ne_eq, not_true_eq_false,
    if_false, second]
  rw [getUint32_be32]
  rfl

/-- What the peer sends is paid for by what was kept for it: `m` for an XON, `l` for an XOFF. -/
structure Pays (m l : Nat) (s s' : EdgeStream) (cells : List FlowCell) : Prop where
  xon : m * xons cells + xonDue m s' ≤ xonDue m s
  xoff : l * xoffs cells + xoffDue s' ≤ xoffDue s
  turns : Turns s.xoffSent cells s'.xoffSent
  formed : ∀ cell ∈ cells, Formed cell
  kind : SameKind s s'

variable {l : Nat} {cells more : List FlowCell}

theorem xoffs_append (cells more : List FlowCell) :
    xoffs (cells ++ more) = xoffs cells + xoffs more := by
  rw [xoffs, List.countP_append]
  rfl

theorem xons_append (cells more : List FlowCell) :
    xons (cells ++ more) = xons cells + xons more := by
  rw [xons, List.countP_append]
  rfl

theorem Pays.keep (same : SameBuffer s s') (due : xonDue m s' ≤ xonDue m s) : Pays m l s s' [] := by
  have buffer : xoffDue s' = xoffDue s := by
    rw [xoffDue, same.sent, same.outbuf]
    rfl
  constructor
  · simpa [xons] using due
  · simp [xoffs, buffer]
  · exact same.sent.symm
  · simp
  · exact same.toSameKind

theorem Pays.trans {s'' : EdgeStream} (first : Pays m l s s' cells)
    (second : Pays m l s' s'' more) : Pays m l s s'' (cells ++ more) := by
  have xon₁ := first.xon
  have xon₂ := second.xon
  have xoff₁ := first.xoff
  have xoff₂ := second.xoff
  constructor
  · rw [xons_append, Nat.mul_add]
    omega
  · rw [xoffs_append, Nat.mul_add]
    omega
  · exact first.turns.append second.turns
  · intro cell member
    rcases List.mem_append.mp member with early | late
    · exact first.formed cell early
    · exact second.formed cell late
  · exact first.kind.trans second.kind

/-! ## What the peer does -/

section

variable (ranges : Ranges p) (cheap : m ≤ p.xonRateBytes.toNat)

include ranges cheap

theorem sendXon_pays (clock : Monotime) (s : EdgeStream) :
    Pays m l s (clearDrain p (sendXon p clock s).1) (sendXon p clock s).2 := by
  have quiet : Pays m l s (clearDrain p s) [] :=
    Pays.keep (clearDrain_same p s) (le_trans (clearDrain_due s cheap) (stopDrain_due m s))
  have speaks (due : (s.xoffSent = true ∧ s.outbufLen = 0)
      ∨ (s.xoffSent = false ∧ s.ewmaRateLastSent ≠ 0 ∧ s.ewmaDrainRate ≠ s.ewmaRateLastSent)) :
      Pays m l s (clearDrain p (circuitSendStreamXon s).1) (circuitSendStreamXon s).2 := by
    have same := clearDrain_same p (circuitSendStreamXon s).1
    have sent : (clearDrain p (circuitSendStreamXon s).1).xoffSent = false := same.sent
    have outbuf : (clearDrain p (circuitSendStreamXon s).1).outbufLen = s.outbufLen := same.outbuf
    have paid := circuitSendStreamXon_due m due
    have cleared := clearDrain_due (circuitSendStreamXon s).1 cheap
    constructor
    · have one : xons (circuitSendStreamXon s).2 = 1 := rfl
      rw [one]
      omega
    · have none : xoffs (circuitSendStreamXon s).2 = 0 := rfl
      rw [none, xoffDue, xoffDue, sent, outbuf]
      rcases due with ⟨blocked, empty⟩ | ⟨unblocked, _⟩
      · simp [empty]
      · simp [unblocked]
    · rw [sent]
      exact rfl
    · intro cell member
      rw [List.mem_singleton.mp member]
      simp [Formed, xonCellParse_encode]
    · have kind : SameKind s (circuitSendStreamXon s).1 := ⟨rfl, rfl, rfl, rfl⟩
      exact kind.trans same.toSameKind
  rw [sendXon]
  split
  · next unblocked =>
    split
    · next changed => exact speaks (Or.inr ⟨unblocked, streamDrainRateChanged_ne ranges changed⟩)
    · exact quiet
  · next blocked =>
    split
    · next empty => exact speaks (Or.inl ⟨by simpa using blocked, empty⟩)
    · exact quiet

theorem flowControlDecideXon_pays (clock : Monotime) {n : UInt64} (s : EdgeStream)
    (held : n.toNat ≤ s.outbufLen) :
    let decided := flowControlDecideXon p clock n { s with outbufLen := s.outbufLen - n.toNat }
    Pays m l s decided.1 decided.2 := by
  intro decided
  let written := { s with outbufLen := s.outbufLen - n.toNat }
  have drains := boundDrained_drains clock n written
  have first : Pays m l s (boundDrained clock n written) [] := by
    have le : xoffDue (boundDrained clock n written) ≤ xoffDue s := by
      rw [xoffDue, drains.same.sent, drains.same.outbuf]
      simp only [xoffDue, written]
      split <;> omega
    constructor
    · simpa [xons] using boundDrained_due clock s held
    · simpa [xoffs] using le
    · exact drains.same.sent.symm
    · simp
    · have kind : SameKind s written := ⟨rfl, rfl, rfl, rfl⟩
      exact kind.trans drains.same.toSameKind
  have second : Pays m l _ _ [] := Pays.keep (startDrain_same clock (boundDrained clock n written))
    (startDrain_due clock m _)
  have third : Pays m l _ _ [] :=
    Pays.keep (updateDrainRate_same p clock (startDrain clock (boundDrained clock n written)))
      (updateDrainRate_due clock _ cheap)
  exact ((first.trans second).trans third).trans (sendXon_pays ranges cheap clock _)

end

/-- The limit at which an end of the stream sends an XOFF. -/
def xoffLimit (p : FlowParams) (isLocal : Bool) : UInt32 :=
  if isLocal then p.xoffClient else p.xoffExit

/-- An XOFF takes nothing that was kept for XONs: what is buffered is enough for the next. -/
theorem xonDue_blocked {t : EdgeStream} (sent : t.xoffSent = true) (ewma : t.ewmaDrainRate = 0)
    (outbuf : t.outbufLen = s.outbufLen) (start : t.drainStartUsec = s.drainStartUsec)
    (last : t.ewmaRateLastSent = s.ewmaRateLastSent) (drained : t.drainedBytes = s.drainedBytes)
    (full : m ≤ s.outbufLen) : xonDue m t ≤ xonDue m s := by
  have fewer : rateCredit t ≤ rateCredit s + 0 := by
    apply rateCredit_mono
    · rintro (started | rated | due)
      · exact Or.inl (start ▸ started)
      · exact Or.inr (Or.inl (last ▸ rated))
      · exact absurd ewma due.2
    · rw [drained]
      exact le_refl _
  have above := le_xonDue m s
  rw [xonDue, if_pos ⟨sent, ewma⟩, outbuf]
  omega

theorem sendXoff_pays (cheap : m ≤ (xoffLimit p s.localEdge).toNat) :
    Pays m (xoffLimit p s.localEdge).toNat s (sendXoff p s).1 (sendXoff p s).2 := by
  have limit : (if s.localEdge = true then p.xoffClient else p.xoffExit)
      = xoffLimit p s.localEdge := rfl
  simp only [sendXoff, limit]
  split
  · next full =>
    have due : xonDue m { s with xoffSent := true, ewmaDrainRate := 0 } ≤ xonDue m s :=
      xonDue_blocked rfl rfl rfl rfl rfl rfl (le_of_lt (lt_of_le_of_lt cheap full.1))
    constructor
    · have none : xons (circuitSendStreamXoff s).2 = 0 := rfl
      rw [none]
      exact le_trans (Nat.le_of_eq (Nat.zero_add _)) due
    · simp only [circuitSendStreamXoff, xoffs, isXoff, xoffDue, full.2, if_true,
        List.countP_singleton, Bool.false_eq_true, if_false]
      omega
    · exact ⟨full.2, rfl⟩
    · intro cell member
      rw [List.mem_singleton.mp member]
      exact trivial
    · exact ⟨rfl, rfl, rfl, rfl⟩
  · exact Pays.keep (SameBuffer.refl s) (le_refl _)

theorem flowControlDecideXoff_pays (ranges : Ranges p) (cheap : m ≤ p.xonRateBytes.toNat)
    (less : m ≤ (xoffLimit p s.localEdge).toNat) (clock : Monotime)
    (uses : s.usesFlowControl = true) :
    Pays m (xoffLimit p s.localEdge).toNat s (flowControlDecideXoff p clock s).2.1
      (flowControlDecideXoff p clock s).2.2 := by
  have first := sendXoff_pays less
  simp only [flowControlDecideXoff, uses, Bool.true_eq_false, if_false]
  split
  · exact first.trans (flowControlDecideXon_pays ranges cheap clock (n := 0) _ (Nat.zero_le _))
  · exact first

/-! ## What the client counts -/

/-- The bytes of the data cells on their way. -/
def transit (n : FlowNet) : Nat := (n.data.map UInt64.toNat).sum

/-- The limits by which the client counts an XOFF and an XON. -/
def clientXoffLimit (p : FlowParams) (n : FlowNet) : UInt32 := xoffLimit p n.client.hsIdent
def clientXonLimit (p : FlowParams) (n : FlowNet) : UInt32 :=
  min (clientXoffLimit p n) p.xonRateBytes

/-- So many bytes cover so many messages received, those under way, and what the peer may still
send for the data that is under way or that it holds. -/
structure Covers (p : FlowParams) (n : FlowNet) (total numXoff numXon : Nat) : Prop where
  xoff : (clientXoffLimit p n).toNat * (numXoff + xoffs n.cells) + transit n + xoffDue n.peer
    ≤ total
  xon : (clientXonLimit p n).toNat * (numXon + xons n.cells) + transit n
    + xonDue (clientXonLimit p n).toNat n.peer ≤ total

/-- The step halves the client's counts. -/
def Halves (n : FlowNet) : FlowEvent → Bool
  | .package len => n.client.totalBytesXmit.toUInt64 ≥ totalXmitScaleAt - len
  | .receive =>
    match n.cells with
    | [] => false
    | .xoff _ :: _ => n.client.numXoffRecv = xoffCountScaleAt
    | .xon _ :: _ => n.client.numXonRecv = xonCountScaleAt
  | _ => false

theorem halves_package (n : FlowNet) (len : UInt64) : Halves n (.package len) =
    decide (n.client.totalBytesXmit.toUInt64 ≥ totalXmitScaleAt - len) :=
  rfl

theorem halves_xoff {n : FlowNet} {payload : List UInt8} {rest : List FlowCell}
    (cells : n.cells = .xoff payload :: rest) :
    Halves n .receive = decide (n.client.numXoffRecv = xoffCountScaleAt) := by
  unfold Halves
  rw [cells]

theorem halves_xon {n : FlowNet} {payload : List UInt8} {rest : List FlowCell}
    (cells : n.cells = .xon payload :: rest) :
    Halves n .receive = decide (n.client.numXonRecv = xonCountScaleAt) := by
  unfold Halves
  rw [cells]

/-- A step that halves the counts halves them where half the bytes cover half the messages,
with all that is under way. -/
def HalvesCovered (p : FlowParams) (x : Transition FlowNet FlowEvent) : Prop :=
  Halves x.pre x.input = true → Covers p x.pre (x.pre.client.totalBytesXmit.toNat / 2)
    (x.pre.client.numXoffRecv.toNat / 2) (x.pre.client.numXonRecv.toNat / 2)

/-- What holds of a client with an honest peer. -/
structure Honest (p : FlowParams) (n : FlowNet) : Prop where
  covers : Covers p n n.client.totalBytesXmit.toNat n.client.numXoffRecv.toNat
    n.client.numXonRecv.toNat
  total : n.client.totalBytesXmit.toNat ≤ 10485760
  xoffCount : n.client.numXoffRecv.toNat ≤ 200
  xonCount : n.client.numXonRecv.toNat ≤ 200
  turns : Turns n.client.xoffReceived n.cells n.peer.xoffSent
  formed : ∀ cell ∈ n.cells, Formed cell
  client : n.client.usesFlowControl = true
  peer : n.peer.usesFlowControl = true
  paired : n.client.hsIdent = n.peer.localEdge

variable {n n' : FlowNet}

section

variable {near : Bool}

theorem Honest.fresh (p : FlowParams) (fresh : n.Fresh) : Honest p n := by
  obtain ⟨client, peer, data, cells, clientFlow, peerFlow, _, paired⟩ := fresh
  obtain ⟨_, _, _, _, _, _, total, numXoff, numXon, _, received⟩ := client
  obtain ⟨outbuf, start, _, _, ewma, last, _, _, _, sent, _⟩ := peer
  have credit : rateCredit n.peer = 0 := by simp [rateCredit, Counts, start, last, sent]
  constructor
  · constructor
    · simp [numXoff, cells, xoffs, transit, data, xoffDue, outbuf]
    · simp [numXon, cells, xons, transit, data, xonDue, credit, sent, outbuf, ewma, last]
  · simp [total]
  · simp [numXoff]
  · simp [numXon]
  · rw [received, cells, sent]
    exact rfl
  · simp [cells]
  · exact clientFlow
  · exact peerFlow
  · exact paired

theorem clientXonLimit_le (p : FlowParams) (n : FlowNet) :
    (clientXonLimit p n).toNat ≤ (clientXoffLimit p n).toNat
      ∧ (clientXonLimit p n).toNat ≤ p.xonRateBytes.toNat := by
  simp only [clientXonLimit]
  change (if clientXoffLimit p n ≤ p.xonRateBytes then clientXoffLimit p n
    else p.xonRateBytes).toNat ≤ _ ∧ (if clientXoffLimit p n ≤ p.xonRateBytes
    then clientXoffLimit p n else p.xonRateBytes).toNat ≤ _
  split
  · next le => exact ⟨le_refl _, UInt32.le_iff_toNat_le.mp le⟩
  · next le =>
    rw [UInt32.le_iff_toNat_le] at le
    omega

theorem clientXoffLimit_le (ranges : Ranges p) (n : FlowNet) :
    (clientXoffLimit p n).toNat ≤ 4980000 := by
  rw [clientXoffLimit, xoffLimit]
  split
  · exact ranges.client.2
  · exact ranges.exit.2

/-! ## The steps keep it -/

theorem Honest.peerMoves {peer : EdgeStream} {data : List UInt64} {cells : List FlowCell}
    (len : Nat) (honest : Honest p n)
    (pays : Pays (clientXonLimit p n).toNat (clientXoffLimit p n).toNat n.peer peer cells)
    (moved : (data.map UInt64.toNat).sum + len = transit n) :
    Honest p { n with
      peer := { peer with outbufLen := peer.outbufLen + len }
      data := data
      cells := n.cells ++ cells } := by
  have covers := honest.covers
  have xoff := covers.xoff
  have xon := covers.xon
  have paysOff := pays.xoff
  have paysOn := pays.xon
  constructor
  · constructor
    · have due := xoffDue_buffer len peer
      change (clientXoffLimit p n).toNat
          * (n.client.numXoffRecv.toNat + xoffs (n.cells ++ cells))
        + (data.map UInt64.toNat).sum + xoffDue { peer with outbufLen := peer.outbufLen + len }
        ≤ n.client.totalBytesXmit.toNat
      rw [xoffs_append, ← Nat.add_assoc, Nat.mul_add]
      omega
    · have due := xonDue_buffer (clientXonLimit p n).toNat len peer
      change (clientXonLimit p n).toNat * (n.client.numXonRecv.toNat + xons (n.cells ++ cells))
        + (data.map UInt64.toNat).sum
        + xonDue (clientXonLimit p n).toNat { peer with outbufLen := peer.outbufLen + len }
        ≤ n.client.totalBytesXmit.toNat
      rw [xons_append, ← Nat.add_assoc, Nat.mul_add]
      omega
  · exact honest.total
  · exact honest.xoffCount
  · exact honest.xonCount
  · exact honest.turns.append pays.turns
  · intro cell member
    rcases List.mem_append.mp member with early | late
    · exact honest.formed cell early
    · exact pays.formed cell late
  · exact honest.client
  · exact pays.kind.usesFlowControl.trans honest.peer
  · exact honest.paired.trans pays.kind.localEdge.symm

theorem Honest.deliver (ranges : Ranges p) {clock : Monotime} (honest : Honest p n)
    (step : FlowStep p n (.deliver clock) n') : Honest p n' := by
  simp only [FlowStep, flowStep] at step
  cases data : n.data with
  | nil =>
    rw [data] at step
    cases step
  | cons len rest =>
    rw [data] at step
    cases step
    have limits := clientXonLimit_le p n
    have same : clientXoffLimit p n = xoffLimit p n.peer.localEdge := by
      rw [clientXoffLimit, honest.paired]
    have pays := flowControlDecideXoff_pays ranges limits.2 (same ▸ limits.1) clock honest.peer
    rw [← same] at pays
    exact honest.peerMoves len.toNat pays (by simp [transit, data, Nat.add_comm])

theorem Honest.flush (ranges : Ranges p) {clock : Monotime} {nWritten : UInt64}
    (honest : Honest p n) (step : FlowStep p n (.flush clock nWritten) n') : Honest p n' := by
  simp only [FlowStep, flowStep] at step
  split at step
  · next held =>
    cases step
    have pays := flowControlDecideXon_pays ranges (clientXonLimit_le p n).2
      (l := (clientXoffLimit p n).toNat) clock n.peer held
    exact honest.peerMoves 0 pays rfl
  · cases step

/-- The counts after a halving that is done if `near`. -/
structure Scaled (near : Bool) (s s' : EdgeStream) : Prop where
  total : s'.totalBytesXmit.toNat =
    if near then s.totalBytesXmit.toNat / 2 else s.totalBytesXmit.toNat
  numXoff : s'.numXoffRecv.toNat = if near then s.numXoffRecv.toNat / 2 else s.numXoffRecv.toNat
  numXon : s'.numXonRecv.toNat = if near then s.numXonRecv.toNat / 2 else s.numXonRecv.toNat
  received : s'.xoffReceived = s.xoffReceived
  kind : SameKind s s'

theorem scaleDownIf_scaled (near : Bool) (s : EdgeStream) : Scaled near s (scaleDownIf near s) := by
  cases near
  · exact ⟨rfl, rfl, rfl, rfl, SameKind.refl s⟩
  · constructor
    · exact UInt32.toNat_div _ _
    · exact UInt8.toNat_div _ _
    · exact UInt8.toNat_div _ _
    · rfl
    · exact ⟨rfl, rfl, rfl, rfl⟩

theorem Scaled.covers {client : EdgeStream} (scaled : Scaled near n.client client)
    (honest : Honest p n) (kept : near = true → Covers p n (n.client.totalBytesXmit.toNat / 2)
      (n.client.numXoffRecv.toNat / 2) (n.client.numXonRecv.toNat / 2)) :
    Covers p n client.totalBytesXmit.toNat client.numXoffRecv.toNat client.numXonRecv.toNat := by
  rw [scaled.total, scaled.numXoff, scaled.numXon]
  cases near
  · exact honest.covers
  · exact kept rfl

theorem Scaled.xoffCount {client : EdgeStream} (scaled : Scaled near n.client client)
    (honest : Honest p n) : client.numXoffRecv.toNat ≤ 200 := by
  have count := honest.xoffCount
  rw [scaled.numXoff]
  split <;> omega

theorem Scaled.xonCount {client : EdgeStream} (scaled : Scaled near n.client client)
    (honest : Honest p n) : client.numXonRecv.toNat ≤ 200 := by
  have count := honest.xonCount
  rw [scaled.numXon]
  split <;> omega

theorem Scaled.total_le {client : EdgeStream} (scaled : Scaled near n.client client)
    (honest : Honest p n) : client.totalBytesXmit.toNat ≤ 10485760 := by
  have most := honest.total
  rw [scaled.total]
  split <;> omega

end

section Counting

variable {client : EdgeStream} {total numXoff numXon : Nat} {rest : List FlowCell}

theorem clientLimits_same (p : FlowParams) (kind : SameKind n.client client) (data : List UInt64)
    (cells : List FlowCell) :
    clientXoffLimit p { n with client := client, data := data, cells := cells }
        = clientXoffLimit p n
      ∧ clientXonLimit p { n with client := client, data := data, cells := cells }
        = clientXonLimit p n := by
  simp only [clientXonLimit, clientXoffLimit, kind.ident, and_self]

section

variable (covers : Covers p n total numXoff numXon) (kind : SameKind n.client client)

include covers kind

theorem Covers.sent {len : UInt64} :
    Covers p { n with client := client, data := n.data ++ [len] } (total + len.toNat)
      numXoff numXon := by
  have limits := clientLimits_same p kind (n.data ++ [len]) n.cells
  have xoff := covers.xoff
  have xon := covers.xon
  have sent : transit { n with client := client, data := n.data ++ [len] }
      = transit n + len.toNat := by
    simp [transit]
  constructor
  · rw [limits.1, sent]
    simp only
    omega
  · rw [limits.2, sent]
    simp only
    omega

omit kind in
theorem Covers.xoff_le {cell : FlowCell} (cells : n.cells = cell :: rest) :
    (clientXoffLimit p n).toNat * (numXoff + xoffs [cell]) ≤ total := by
  have xoff := covers.xoff
  rw [cells, ← List.singleton_append, xoffs_append, ← Nat.add_assoc, Nat.mul_add] at xoff
  omega

omit kind in
theorem Covers.xon_le {cell : FlowCell} (cells : n.cells = cell :: rest) :
    (clientXonLimit p n).toNat * (numXon + xons [cell]) ≤ total := by
  have xon := covers.xon
  rw [cells, ← List.singleton_append, xons_append, ← Nat.add_assoc, Nat.mul_add] at xon
  omega

theorem Covers.got {cell : FlowCell} (cells : n.cells = cell :: rest) :
    Covers p { n with client := client, cells := rest } total (numXoff + xoffs [cell])
      (numXon + xons [cell]) := by
  have limits := clientLimits_same p kind n.data rest
  have xoff := covers.xoff
  have xon := covers.xon
  rw [cells, ← List.singleton_append, xoffs_append, ← Nat.add_assoc] at xoff
  rw [cells, ← List.singleton_append, xons_append, ← Nat.add_assoc] at xon
  constructor
  · rw [limits.1]
    exact xoff
  · rw [limits.2]
    exact xon

end

end Counting

section

variable {count : UInt8} {len : UInt64}

/-- The client counts the bytes of a cell that it packages. -/
theorem Honest.packaged {near : Bool} {client : EdgeStream} (honest : Honest p n)
    (scaled : Scaled near n.client client)
    (kept : near = true → Covers p n (n.client.totalBytesXmit.toNat / 2)
      (n.client.numXoffRecv.toNat / 2) (n.client.numXonRecv.toNat / 2))
    (below : near = false → n.client.totalBytesXmit.toNat + len.toNat < 10485760)
    (sized : len.toNat ≤ 498) :
    Honest p { n with
      client := { client with
        totalBytesXmit := (client.totalBytesXmit.toUInt64 + len).toUInt32 }
      data := n.data ++ [len] } := by
  have covers := scaled.covers honest kept
  have most := honest.total
  have half : client.totalBytesXmit.toNat + len.toNat ≤ 10485760 := by
    rw [scaled.total]
    cases near
    · have := below rfl
      simp only [Bool.false_eq_true, if_false]
      omega
    · simp only [if_true]
      omega
  have sum : (client.totalBytesXmit.toUInt64 + len).toUInt32.toNat
      = client.totalBytesXmit.toNat + len.toNat := by
    rw [UInt64.toNat_toUInt32, UInt64.toNat_add, UInt32.toNat_toUInt64]
    omega
  have kind : SameKind n.client { client with
      totalBytesXmit := (client.totalBytesXmit.toUInt64 + len).toUInt32 } :=
    ⟨scaled.kind.ap, scaled.kind.ident, scaled.kind.ccontrol, scaled.kind.layer⟩
  constructor
  · simp only [sum]
    exact covers.sent kind
  · simp only [sum]
    exact half
  · exact scaled.xoffCount honest
  · exact scaled.xonCount honest
  · simp only [scaled.received]
    exact honest.turns
  · exact honest.formed
  · exact kind.usesFlowControl.trans honest.client
  · exact honest.peer
  · exact kind.ident.trans honest.paired

theorem flowStep_package (step : FlowStep p n (.package len) n') :
    len.toNat ≤ 498
      ∧ n' = { n with client := flowControlNoteSentData len n.client, data := n.data ++ [len] } := by
  simp only [FlowStep, flowStep] at step
  split at step
  · next sized => exact ⟨sized.2, (Option.some.inj step).symm⟩
  · cases step

theorem halves_package_below (sized : len.toNat ≤ 498) (calm : Halves n (.package len) = false) :
    n.client.totalBytesXmit.toNat + len.toNat < 10485760 := by
  have scale : totalXmitScaleAt.toNat = 10485760 := rfl
  have room : (totalXmitScaleAt - len).toNat = 10485760 - len.toNat := by
    rw [uint64_toNat_sub (by omega), scale]
  rw [halves_package, decide_eq_false_iff_not, ge_iff_le, UInt64.le_iff_toNat_le, UInt32.toNat_toUInt64,
    room] at calm
  omega

theorem flowControlNoteSentData_halves (len : UInt64) (n : FlowNet) :
    flowControlNoteSentData len n.client =
      let client := scaleDownIf (Halves n (.package len)) n.client
      { client with totalBytesXmit := (client.totalBytesXmit.toUInt64 + len).toUInt32 } :=
  rfl

theorem Honest.package (honest : Honest p n) (step : FlowStep p n (.package len) n')
    (kept : HalvesCovered p ⟨n, .package len, n'⟩) : Honest p n' := by
  obtain ⟨sized, taken⟩ := flowStep_package step
  have scaled := scaleDownIf_scaled (Halves n (.package len)) n.client
  have counted := honest.packaged scaled kept (halves_package_below sized) sized
  rw [taken, flowControlNoteSentData_halves]
  exact counted

theorem count_allowed {limit total : UInt32} (small : limit.toNat ≤ 4980000)
    (few : count.toNat ≤ 200) (covered : limit.toNat * count.toNat ≤ total.toNat) :
    ¬total < limit * count.toUInt32 := by
  have product : limit.toNat * count.toNat ≤ 4980000 * 200 := Nat.mul_le_mul small few
  rw [UInt32.lt_iff_toNat_lt, UInt32.toNat_mul, UInt8.toNat_toUInt32, Nat.mod_eq_of_lt (by omega)]
  omega

theorem add_one_toNat (few : count.toNat ≤ 200) : (count + 1).toNat = count.toNat + 1 := by
  rw [UInt8.toNat_add]
  exact Nat.mod_eq_of_lt (by simp only [UInt8.reduceToNat]; omega)

theorem room_of_halved {count scaled : UInt8} (few : count.toNat ≤ 200)
    (halved : scaled.toNat = if decide (count = 200) then count.toNat / 2 else count.toNat) :
    scaled.toNat ≤ 199 := by
  by_cases most : count = 200
  · rw [halved, if_pos (decide_eq_true most)]
    omega
  · have other : count.toNat ≠ 200 := fun same => most (UInt8.toNat_inj.mp same)
    rw [halved, if_neg (by simpa using most)]
    omega

end

/-- The counted message leaves the queue. -/
theorem Honest.got {client after : EdgeStream} {near : Bool} {cell : FlowCell}
    {rest : List FlowCell} (honest : Honest p n) (cells : n.cells = cell :: rest)
    (scaled : Scaled near n.client client)
    (covers : Covers p n client.totalBytesXmit.toNat client.numXoffRecv.toNat
      client.numXonRecv.toNat)
    (kind : SameKind client after) (total : after.totalBytesXmit = client.totalBytesXmit)
    (offs : after.numXoffRecv.toNat = client.numXoffRecv.toNat + xoffs [cell] ∧
      after.numXoffRecv.toNat ≤ 200)
    (ons : after.numXonRecv.toNat = client.numXonRecv.toNat + xons [cell] ∧
      after.numXonRecv.toNat ≤ 200)
    (turns : Turns after.xoffReceived rest n.peer.xoffSent) :
    Honest p { n with client := after, cells := rest } := by
  have same := scaled.kind.trans kind
  constructor
  · simp only [total, offs.1, ons.1]
    exact covers.got same cells
  · simp only [total]
    exact scaled.total_le honest
  · exact offs.2
  · exact ons.2
  · exact turns
  · intro cell member
    exact honest.formed cell (cells ▸ List.mem_cons_of_mem _ member)
  · exact same.usesFlowControl.trans honest.client
  · exact honest.peer
  · exact same.ident.trans honest.paired

/-- A message of an honest peer is accepted. -/
theorem Honest.receive (ranges : Ranges p) (honest : Honest p n)
    (kept : HalvesCovered p ⟨n, .receive, n'⟩) {cell : FlowCell} (cells : n.cells = cell :: rest) :
    (processFlowCell p n.client cell).1 = true
      ∧ Honest p { n with client := (processFlowCell p n.client cell).2, cells := rest } := by
  have here : ¬(n.client.cpathLayer.isSome = true ∧ n.client.cpathLayer ≠ n.client.cpathLayer) :=
    fun other => other.2 rfl
  have flow := honest.client
  have turns := honest.turns
  simp only [HalvesCovered] at kept
  cases cell with
  | xoff payload =>
    rw [cells] at turns
    rw [halves_xoff cells] at kept
    have scaled := scaleDownIf_scaled (decide (n.client.numXoffRecv = xoffCountScaleAt)) n.client
    have room := room_of_halved honest.xoffCount scaled.numXoff
    have covers := scaled.covers honest kept
    have one := add_one_toNat (Nat.le_succ_of_le room)
    have few := one.trans_le (Nat.succ_le_succ room)
    simp only [processFlowCell, circuitProcessStreamXoff, if_neg here, flow, turns.1,
      Bool.true_eq_false, Bool.false_eq_true, if_false]
    constructor
    · rw [Bool.not_eq_true', Bool.and_eq_false_iff]
      refine Or.inr (decide_eq_false (count_allowed (clientXoffLimit_le ranges n) few ?_))
      rw [one]
      exact covers.xoff_le cells
    · exact honest.got cells scaled covers ⟨rfl, rfl, rfl, rfl⟩ rfl ⟨one, few⟩
        ⟨rfl, scaled.xonCount honest⟩ turns.2
  | xon payload =>
    obtain ⟨rate, parsed⟩ := Option.isSome_iff_exists.mp
      (honest.formed (.xon payload) (by simp [cells]))
    rw [cells] at turns
    rw [halves_xon cells] at kept
    have scaled := scaleDownIf_scaled (decide (n.client.numXonRecv = xonCountScaleAt)) n.client
    have room := room_of_halved honest.xonCount scaled.numXon
    have covers := scaled.covers honest kept
    have one := add_one_toNat (Nat.le_succ_of_le room)
    have few := one.trans_le (Nat.succ_le_succ room)
    have small := (clientXonLimit_le p n).1.trans (clientXoffLimit_le ranges n)
    simp only [processFlowCell, circuitProcessStreamXon, if_neg here, flow, parsed,
      Bool.true_eq_false, if_false]
    constructor
    · rw [Bool.not_eq_true', Bool.and_eq_false_iff]
      refine Or.inr (decide_eq_false (count_allowed small few ?_))
      rw [one]
      exact covers.xon_le cells
    · exact honest.got cells scaled covers ⟨rfl, rfl, rfl, rfl⟩ rfl
        ⟨rfl, scaled.xoffCount honest⟩ ⟨one, few⟩ turns

theorem Honest.step (ranges : Ranges p) {e : FlowEvent} (honest : Honest p n)
    (step : FlowStep p n e n') (kept : HalvesCovered p ⟨n, e, n'⟩) : Honest p n' := by
  cases e with
  | package len => exact honest.package step kept
  | deliver clock => exact honest.deliver ranges step
  | flush clock nWritten => exact honest.flush ranges step
  | receive =>
    simp only [FlowStep, flowStep] at step
    cases cells : n.cells with
    | nil =>
      rw [cells] at step
      cases step
    | cons cell rest =>
      rw [cells, Option.some.injEq] at step
      subst step
      exact (honest.receive ranges kept cells).2

/-- In a run where the counts are only halved while half the bytes cover half the messages and
what is under way, the client accepts every XOFF and XON of an honest peer. -/
theorem flow_messages_accepted (ns : NetParams) {n₀ n : FlowNet}
    {ts : List (Transition FlowNet FlowEvent)} (fresh : n₀.Fresh)
    (run : Run (FlowStep (flowControlNewConsensusParams ns)) n₀ ts n)
    (kept : ∀ x ∈ ts, HalvesCovered (flowControlNewConsensusParams ns) x) :
    ∀ x ∈ ts, x.input = .receive → ∀ cell rest, x.pre.cells = cell :: rest →
      (processFlowCell (flowControlNewConsensusParams ns) x.pre.client cell).1 = true := by
  intro x member received cell rest cells
  have ranges := flowControlNewConsensusParams_ranges ns
  obtain ⟨earlier, later, split, reached⟩ := run.prefix_of_mem x member
  have honest : Honest (flowControlNewConsensusParams ns) x.pre := by
    have before (y : Transition FlowNet FlowEvent) (inside : y ∈ earlier) :
        HalvesCovered (flowControlNewConsensusParams ns) y :=
      kept y (by simp [split, inside])
    apply reached.invariant_of_steps before
    · exact Honest.fresh _ fresh
    · intro y e z held step covered
      exact held.step ranges step covered
  obtain ⟨pre, input, post⟩ := x
  cases received
  exact (honest.receive ranges (kept _ member) cells).1

/-! ## A halving that is not covered -/

/-- One end of a stream that is not used yet: a client's, or an exit's. -/
def newEdgeStream (isAp : Bool) : EdgeStream where
  isAp := isAp
  hsIdent := false
  circuitCcontrol := !isAp
  cpathLayer := if isAp then some ⟨3, true⟩ else none
  outbufLen := 0
  reading := true
  bucketRate := 0
  drainStartUsec := 0
  drainedBytes := 0
  prevDrainedBytes := 0
  ewmaDrainRate := 0
  ewmaRateLastSent := 0
  totalBytesXmit := 0
  numXoffRecv := 0
  numXonRecv := 0
  xoffSent := false
  xoffReceived := false

def newFlowNet : FlowNet := ⟨newEdgeStream true, newEdgeStream false, [], []⟩

/-- A consensus by which an exit sends an XOFF when it holds more than one cell. -/
def oneCellXoff : NetParams := fun name => if name = "cc_xoff_exit" then some 1 else none

def steadyClock : Monotime := ⟨1000000, true⟩

/-- Fill the exit's buffer past its limit, and receive the XOFF for it. -/
def fillExit : List FlowEvent :=
  [.package 498, .package 1, .package 1, .deliver steadyClock, .deliver steadyClock,
    .deliver steadyClock]

/-- The same, after which the exit's buffer is drained and the XON for it received. -/
def fillAndDrainExit : List FlowEvent :=
  fillExit ++ [.receive, .flush steadyClock 500, .receive]

/-- Take events, each of which must pass a test. -/
def runFlow (p : FlowParams) (test : FlowNet → FlowEvent → Bool) (n : FlowNet)
    (events : List FlowEvent) : Option FlowNet :=
  execAll (flowStep p) test n events

theorem run_of_runFlow {test : FlowNet → FlowEvent → Bool} {events : List FlowEvent}
    (result : runFlow p test n events = some n') :
    ∃ ts, Run (FlowStep p) n ts n' ∧ ∀ x ∈ ts, test x.pre x.input = true :=
  run_of_execAll (fun _ _ _ _ taken => taken) result

/-- The buffer of the exit is filled and drained once. -/
theorem flow_messages_accepted_once :
    ∃ ts n, Run (FlowStep (flowControlNewConsensusParams oneCellXoff)) newFlowNet ts n
      ∧ n.client.numXoffRecv = 1 ∧ n.client.numXonRecv = 1
      ∧ ∀ x ∈ ts, x.input = .receive → ∀ cell rest, x.pre.cells = cell :: rest →
        (processFlowCell (flowControlNewConsensusParams oneCellXoff) x.pre.client cell).1 = true := by
  have result : (runFlow (flowControlNewConsensusParams oneCellXoff) (fun n e => !Halves n e)
      newFlowNet fillAndDrainExit).map (fun n => (n.client.numXoffRecv, n.client.numXonRecv))
        = some (1, 1) := by decide +kernel
  obtain ⟨n, reached, counts⟩ := Option.map_eq_some_iff.mp result
  obtain ⟨ts, run, calm⟩ := run_of_runFlow reached
  rw [Prod.mk.injEq] at counts
  refine ⟨ts, n, run, counts.1, counts.2, ?_⟩
  apply flow_messages_accepted oneCellXoff (by decide) run
  intro x member halves
  have none := calm x member
  rw [halves] at none
  cases none

/-- The client refuses a message of an honest peer. -/
def Refuses (p : FlowParams) (n : FlowNet) : Bool :=
  match n.cells with
  | [] => false
  | cell :: _ => !(processFlowCell p n.client cell).1

set_option maxRecDepth 20000 in
/-- The buffer is filled and drained 200 times; at the next XOFF the bytes are halved before
this XOFF is counted, and do not cover it. -/
theorem flow_message_refused :
    ¬∀ (ns : NetParams) (n₀ n : FlowNet) (ts : List (Transition FlowNet FlowEvent)), n₀.Fresh →
      Run (FlowStep (flowControlNewConsensusParams ns)) n₀ ts n →
      ∀ x ∈ ts, x.input = .receive → ∀ cell rest, x.pre.cells = cell :: rest →
        (processFlowCell (flowControlNewConsensusParams ns) x.pre.client cell).1 = true := by
  intro claim
  have result : (runFlow (flowControlNewConsensusParams oneCellXoff) (fun _ _ => true) newFlowNet
      ((List.replicate 200 fillAndDrainExit).flatten ++ fillExit)).map
        (Refuses (flowControlNewConsensusParams oneCellXoff)) = some true := by decide +kernel
  obtain ⟨n, reached, refuses⟩ := Option.map_eq_some_iff.mp result
  obtain ⟨ts, run, _⟩ := run_of_runFlow reached
  cases cells : n.cells with
  | nil =>
    rw [Refuses, cells] at refuses
    cases refuses
  | cons cell rest =>
    have last : FlowStep (flowControlNewConsensusParams oneCellXoff) n .receive { n with
        client := (processFlowCell (flowControlNewConsensusParams oneCellXoff) n.client cell).2
        cells := rest } := by
      rw [FlowStep, flowStep, cells]
    have accepted := claim oneCellXoff newFlowNet _ _ (by decide) (run.snoc last) _
      (List.mem_append_right _ (List.mem_singleton_self _)) rfl cell rest cells
    rw [Refuses, cells] at refuses
    rw [Bool.not_eq_true'] at refuses
    exact absurd accepted (by rw [refuses]; decide)

end RendezMix.Guarantees.FlowCredit
