import RendezMix.Library.Runs
import RendezMix.Source.Sendme

/-!
# An end of a hop over time, and two ends that talk

`LoneEnd` is one end that receives whatever cells there may be, with a count of
the DATA cells it packaged and of the circuit-level SENDMEs it accepted.
`Exchange` is a client and a relay with the cells in flight between them, which
arrive in order.
-/
namespace RendezMix.Source
open Library.Runs

variable {H : Type} (rd : RunningDigest H)

/-- How many DATA cells there are. -/
def dataCells (cells : List HopCell) : Nat := cells.countP fun cell => cell.command = .data

/-! ## One end, with any cells arriving -/

structure LoneEnd (H : Type) where
  hop : HopEnd H
  packaged : Nat
  accepted : Nat

/-- `sendme_process_circuit_level` is called. -/
def HopEvent.isCircuitSendme : HopEvent → Bool
  | .receive cell _ => cell.command = .sendme ∧ cell.streamId = 0
  | _ => false

def loneStep (w : LoneEnd H) (ev : HopEvent) : Except SendmeError (LoneEnd H) :=
  (hopStep rd w.hop ev).map fun result =>
    { hop := result.1
      packaged := w.packaged + dataCells result.2
      accepted := w.accepted + if ev.isCircuitSendme then 1 else 0 }

/-- A call that returned. -/
def LoneStep (w : LoneEnd H) (ev : HopEvent) (w' : LoneEnd H) : Prop :=
  loneStep rd w ev = .ok w'

def runLone (w : LoneEnd H) (events : List HopEvent) : Option (LoneEnd H) :=
  execAll (fun w ev => (loneStep rd w ev).toOption) (fun _ _ => true) w events

theorem toOption_eq_some {ε α : Type} {r : Except ε α} {a : α} (result : r.toOption = some a) :
    r = .ok a := by
  cases r with
  | error err => cases result
  | ok b => exact congrArg Except.ok (Option.some.inj result)

theorem run_of_runLone {w w' : LoneEnd H} {events : List HopEvent}
    (result : runLone rd w events = some w') : ∃ ts, Run (LoneStep rd) w ts w' := by
  have sound : ∀ (s : LoneEnd H) (ev : HopEvent) (t : LoneEnd H), true = true →
      (loneStep rd s ev).toOption = some t → LoneStep rd s ev t :=
    fun _ _ _ _ step => toOption_eq_some step
  obtain ⟨ts, run, -⟩ := run_of_execAll sound result
  exact ⟨ts, run⟩

/-! ## Two ends -/

/-- The client and the relay at the other end of the hop. -/
inductive Side
  | client
  | relay
  deriving DecidableEq

def Side.other : Side → Side
  | .client => .relay
  | .relay => .client

@[simp] theorem Side.other_other (side : Side) : side.other.other = side := by
  cases side <;> rfl

theorem Side.other_ne (side : Side) : side.other ≠ side := by
  cases side <;> simp [Side.other]

/-- Both ends, the cells each has sent that have not arrived, and two records of
the run: the running digest after each DATA cell packaged, and the payload of
each circuit-level SENDME sent. -/
structure Exchange (H : Type) where
  ends : Side → HopEnd H
  flight : Side → List HopCell
  packaged : Side → List (Library.ByteStrings.Bytes 20)
  sendmes : Side → List (List UInt8)

inductive ExchangeEvent
  | package (side : Side) (streamId : UInt16) (xoffReceived : Bool) (inbuf : List InbufCell)
    (maxCells : Option Int)
  /-- The next cell arrives at this side. -/
  | deliver (side : Side) (reading : Reading)
  | flushed (side : Side) (streamId : UInt16) (outbufTooFull : Bool)
  | send (side : Side) (streamId : UInt16) (payload : List UInt8)

/-- The running digest after each DATA cell of a sequence. -/
def dataDigests : H → List HopCell → List (Library.ByteStrings.Bytes 20)
  | _, [] => []
  | state, cell :: cells =>
    let state := rd.add state cell
    if cell.command = .data then rd.get state :: dataDigests state cells
    else dataDigests state cells

/-- The payloads of the circuit-level SENDMEs. -/
def circuitSendmes (cells : List HopCell) : List (List UInt8) :=
  (cells.filter fun cell => cell.command = .sendme ∧ cell.streamId = 0).map HopCell.payload

/-- One end has changed and sent some cells. -/
def Exchange.sent (w : Exchange H) (side : Side) (result : HopEnd H × List HopCell) :
    Exchange H :=
  { ends := Function.update w.ends side result.1
    flight := Function.update w.flight side (w.flight side ++ result.2)
    packaged := Function.update w.packaged side
      (w.packaged side ++ dataDigests rd (w.ends side).sendDigest result.2)
    sendmes := Function.update w.sendmes side (w.sendmes side ++ circuitSendmes result.2) }

/-- The first cell in flight towards a side is taken off. -/
def Exchange.arrive (w : Exchange H) (side : Side) (cells : List HopCell) : Exchange H :=
  { w with flight := Function.update w.flight side.other cells }

def exchangeStep (w : Exchange H) : ExchangeEvent → Except SendmeError (Exchange H)
  | .package side streamId xoffReceived inbuf maxCells =>
    (hopStep rd (w.ends side) (.package streamId xoffReceived inbuf maxCells)).map (w.sent rd side)
  | .deliver side reading =>
    match w.flight side.other with
    | [] => .ok w
    | cell :: cells =>
      (hopStep rd (w.ends side) (.receive cell reading)).map ((w.arrive side cells).sent rd side)
  | .flushed side streamId outbufTooFull =>
    (hopStep rd (w.ends side) (.flushed streamId outbufTooFull)).map (w.sent rd side)
  | .send side streamId payload =>
    (hopStep rd (w.ends side) (.send streamId payload)).map (w.sent rd side)

/-- A step in which no call reported an error. -/
def ExchangeStep (w : Exchange H) (ev : ExchangeEvent) (w' : Exchange H) : Prop :=
  exchangeStep rd w ev = .ok w'

/-- A hop between two ends that has just been set up: both have seen the same
cells, and agree on the streams that are open. No stream has the identifier 0. -/
structure FreshExchange (w : Exchange H) (circwindow : Side → Option Int)
    (ccontrol : Side → Option CongestionControl) (openStreams : UInt16 → Bool) : Prop where
  ends : ∀ side, ∃ digest send receive, w.ends side
    = newHopEnd (circwindow side) (ccontrol side) digest send receive openStreams
  noStream : openStreams 0 = false
  synchronized : ∀ side, (w.ends side.other).receiveDigest = (w.ends side).sendDigest
  flight : ∀ side, w.flight side = []
  packaged : ∀ side, w.packaged side = []
  sendmes : ∀ side, w.sendmes side = []

/-- Two new ends whose running digests have the same state. -/
def newExchange (circwindow : Side → Option Int) (ccontrol : Side → Option CongestionControl)
    (state : H) (openStreams : UInt16 → Bool) : Exchange H where
  ends side := newHopEnd (circwindow side) (ccontrol side) (Library.ByteStrings.fit 20 []) state
    state openStreams
  flight _ := []
  packaged _ := []
  sendmes _ := []

theorem newExchange_fresh (circwindow : Side → Option Int)
    (ccontrol : Side → Option CongestionControl) (state : H) {openStreams : UInt16 → Bool}
    (noStream : openStreams 0 = false) :
    FreshExchange (newExchange circwindow ccontrol state openStreams) circwindow ccontrol
      openStreams where
  ends _ := ⟨_, state, state, rfl⟩
  noStream := noStream
  synchronized _ := rfl
  flight _ := rfl
  packaged _ := rfl
  sendmes _ := rfl

/-- Take the events one after the other, each of which must pass a test. -/
def runExchange (test : ExchangeEvent → Bool) (w : Exchange H) (events : List ExchangeEvent) :
    Option (Exchange H) :=
  execAll (fun w ev => (exchangeStep rd w ev).toOption) (fun _ ev => test ev) w events

theorem run_of_runExchange {test : ExchangeEvent → Bool} {w w' : Exchange H}
    {events : List ExchangeEvent} (result : runExchange rd test w events = some w') :
    ∃ ts, Run (ExchangeStep rd) w ts w' ∧ ∀ x ∈ ts, test x.input = true := by
  have sound : ∀ (s : Exchange H) (ev : ExchangeEvent) (t : Exchange H), test ev = true →
      (exchangeStep rd s ev).toOption = some t → ExchangeStep rd s ev t :=
    fun _ _ _ _ step => toOption_eq_some step
  exact run_of_execAll sound result

/-- A running digest that counts the cells. -/
def countingDigest : RunningDigest Nat where
  add n _ := n + 1
  get n := Library.ByteStrings.fit 20 (Library.ByteStrings.bigEndian 8 n)

/-- What an end reads of the clock and of the consensus, an RTT after its first cells. -/
def steadyReading : Reading :=
  { consensus := ⟨none, none⟩, optimisticData := false, outbufTooFull := false
    env :=
      { nowUsec := 60000, chanQ := 0, blockedOnChan := false, activeStreams := true
        clockBroken := false, cwndMax := 2147483647, nEwmaCwndPct := 50, nEwmaMax := 10
        nEwmaSs := 2, bweSendmeMin := 5, rttResetPct := 100 } }

end RendezMix.Source
