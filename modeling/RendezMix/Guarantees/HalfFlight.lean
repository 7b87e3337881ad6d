import RendezMix.Guarantees.HalfStreams
import RendezMix.Source.StreamNet

/-!
# Cells in flight when a stream is closed

What an honest peer has in flight is covered by the windows of the stream: DATA by the deliver
window, SENDMEs by what the package window is below its start, CONNECTED by the state; and
nothing follows an END. So the half edge that is recorded accepts each of these cells.
-/
namespace RendezMix.Guarantees.HalfStreams
open Library.Runs Source

/-- The cells of one command. -/
abbrev countOf (command : HalfCommand) (cells : List HalfCommand) : Nat := cells.count command

/-- What holds between two honest ends. -/
structure NetOk (net : StreamNet) : Prop where
  connRoom : 0 ≤ net.conn.packageWindow
  peerRoom : 0 ≤ net.peer.packageWindow
  connHigh : net.conn.deliverWindow ≤ streamwindowStart
  peerHigh : net.peer.deliverWindow ≤ streamwindowStart
  toConn : net.usesFlowControl = false → net.peer.packageWindow + countOf .data net.toConn
    + streamwindowIncrement * countOf .sendme net.toPeer ≤ net.conn.deliverWindow
  toPeer : net.usesFlowControl = false → net.conn.packageWindow + countOf .data net.toPeer
    + streamwindowIncrement * countOf .sendme net.toConn ≤ net.peer.deliverWindow
  timed : net.usesFlowControl = true → countOf .sendme net.toConn = 0
  fixed : net.usesFlowControl = false → countOf .xoff net.toConn = 0 ∧ countOf .xon net.toConn = 0
  connected : countOf .connected net.toConn ≤ (decide (net.state = .apConnectWait)).toNat
  unconnected : net.peerConnected = false → countOf .connected net.toConn = 0
    ∧ (net.state = .apConnectWait ∨ net.state = .apResolveWait)
  resolving : net.state = .apResolveWait → net.peerConnected = false
    ∧ countOf .data net.toConn = 0 ∧ countOf .sendme net.toConn = 0
  talking : net.peerEnded = false → ∀ command ∈ net.toConn, isEnd command = false
  last : ∀ command ∈ net.toConn.dropLast, isEnd command = false

variable {net : StreamNet} {half : HalfEdge} (usesFlowControl : Bool) {net' : StreamNet}
  {command : HalfCommand} {flight : List HalfCommand}

theorem newStreamNet_ok (state : EdgeState) (begun : state ≠ .apOpen) :
    NetOk (newStreamNet usesFlowControl state) := by
  constructor <;> simp [newStreamNet, streamwindowStart]
  · cases state <;> simp
    exact begun rfl
  · rintro rfl
    simp

/-- SENDMEs are sent for what the deliver window is below its start. -/
theorem streamConsiderLoop_spec (fuel : Nat) (conn : EdgeConnection) :
    ∃ n : Nat, (streamConsiderLoop fuel conn).2 = List.replicate n .sendme
      ∧ (streamConsiderLoop fuel conn).1.packageWindow = conn.packageWindow
      ∧ (streamConsiderLoop fuel conn).1.deliverWindow
        = conn.deliverWindow + streamwindowIncrement * n
      ∧ (conn.deliverWindow ≤ streamwindowStart →
        (streamConsiderLoop fuel conn).1.deliverWindow ≤ streamwindowStart) := by
  induction fuel generalizing conn with
  | zero => exact ⟨0, rfl, rfl, by simp [streamConsiderLoop], fun high => high⟩
  | succ fuel ih =>
    rw [streamConsiderLoop]
    split
    next low =>
      obtain ⟨n, sent, room, window, high⟩ :=
        ih { conn with deliverWindow := conn.deliverWindow + streamwindowIncrement }
      refine ⟨n + 1, ?_, room, ?_, fun _ => high ?_⟩
      · simp only [sent]
        rfl
      · rw [window]
        simp only [streamwindowIncrement]
        omega
      · simp only
        omega
    next => exact ⟨0, rfl, rfl, by simp, fun high => high⟩

section

variable {conn' conn : EdgeConnection} {rest : List HalfCommand}

theorem streamConsiderSending_spec (conn : EdgeConnection) :
    ∃ n : Nat, (streamConsiderSending usesFlowControl conn).2 = List.replicate n .sendme
      ∧ (usesFlowControl = true → n = 0)
      ∧ (streamConsiderSending usesFlowControl conn).1.packageWindow = conn.packageWindow
      ∧ (streamConsiderSending usesFlowControl conn).1.deliverWindow
        = conn.deliverWindow + streamwindowIncrement * n
      ∧ (conn.deliverWindow ≤ streamwindowStart →
        (streamConsiderSending usesFlowControl conn).1.deliverWindow ≤ streamwindowStart) := by
  rw [streamConsiderSending]
  cases usesFlowControl with
  | true => exact ⟨0, rfl, fun _ => rfl, rfl, by simp, fun high => high⟩
  | false =>
    obtain ⟨n, sent, room, window, high⟩ :=
      streamConsiderLoop_spec (streamwindowStart - conn.deliverWindow).toNat conn
    exact ⟨n, sent, fun timed => absurd timed Bool.false_ne_true, room, window, high⟩

/-! ## One step -/

theorem mem_dropLast_cons {α : Type*} {a b : α} {l : List α} (member : a ∈ l.dropLast) :
    a ∈ (b :: l).dropLast := by
  cases l with
  | nil => cases member
  | cons c l => exact List.mem_cons_of_mem _ member

theorem streamDataReceived_spec {usesFlowControl : Bool}
    (received : streamDataReceived usesFlowControl conn = some conn') :
    conn'.packageWindow = conn.packageWindow
      ∧ conn'.deliverWindow = conn.deliverWindow - (!usesFlowControl).toNat := by
  rw [streamDataReceived] at received
  cases usesFlowControl with
  | true =>
    obtain rfl := Option.some.inj received
    exact ⟨rfl, by simp⟩
  | false =>
    simp only [Bool.false_eq_true, if_false] at received
    split at received
    · cases received
    · obtain rfl := Option.some.inj received
      exact ⟨rfl, by simp⟩

theorem streamSendmeReceived_spec {usesFlowControl : Bool}
    (received : streamSendmeReceived usesFlowControl conn = some conn') :
    usesFlowControl = false
      ∧ conn'.packageWindow = conn.packageWindow + streamwindowIncrement
      ∧ conn'.deliverWindow = conn.deliverWindow := by
  rw [streamSendmeReceived] at received
  cases usesFlowControl with
  | true => cases received
  | false =>
    simp only [Bool.false_eq_true, if_false] at received
    split at received
    · cases received
    · obtain rfl := Option.some.inj received
      exact ⟨rfl, rfl, rfl⟩

section

variable (ok : NetOk net)

include ok

theorem NetOk.popConn (head : net.toConn = command :: rest) :
    NetOk { net with toConn := rest } := by
  have fewer : ∀ kind, countOf kind rest ≤ countOf kind net.toConn := fun kind => by
    rw [head]
    exact List.count_le_count_cons
  have zero : ∀ kind, countOf kind net.toConn = 0 → countOf kind rest = 0 := fun kind none =>
    Nat.eq_zero_of_le_zero (none ▸ fewer kind)
  have inside : ∀ {other}, other ∈ rest → other ∈ net.toConn := fun member =>
    head ▸ List.mem_cons_of_mem _ member
  refine { ok with
    toConn := ?_, toPeer := ?_, timed := ?_, fixed := ?_, connected := ?_, unconnected := ?_,
    resolving := ?_, talking := ?_, last := ?_ }
  · intro windows
    have credit := ok.toConn windows
    have less := fewer .data
    dsimp only
    omega
  · intro windows
    have credit := ok.toPeer windows
    have less := fewer .sendme
    simp only [streamwindowIncrement] at credit ⊢
    omega
  · exact fun timed => zero _ (ok.timed timed)
  · exact fun windows => (ok.fixed windows).imp (zero _) (zero _)
  · exact le_trans (fewer _) ok.connected
  · exact fun silent => (ok.unconnected silent).imp_left (zero _)
  · exact fun resolve => (ok.resolving resolve).imp_right (.imp (zero _) (zero _))
  · exact fun going other member => ok.talking going other (inside member)
  · intro other member
    apply ok.last other
    rw [head]
    exact mem_dropLast_cons member

theorem NetOk.popPeer (head : net.toPeer = command :: rest) :
    NetOk { net with toPeer := rest } := by
  have fewer : ∀ kind, countOf kind rest ≤ countOf kind net.toPeer := fun kind => by
    rw [head]
    exact List.count_le_count_cons
  refine { ok with toConn := ?_, toPeer := ?_ }
  · intro windows
    have credit := ok.toConn windows
    have less := fewer .sendme
    simp only [streamwindowIncrement] at credit ⊢
    omega
  · intro windows
    have credit := ok.toPeer windows
    have less := fewer .data
    dsimp only
    omega

theorem connReceives_ok (head : net.toConn = command :: rest)
    (step : connReceives { net with toConn := rest } command = some net') : NetOk net' := by
  have popped := ok.popConn head
  have counted : ∀ kind, countOf kind net.toConn
      = rest.count kind + if command == kind then 1 else 0 := fun kind => by
    rw [head, countOf, List.count_cons]
  cases command with
  | connected =>
    simp only [connReceives, Option.ite_none_right_eq_some, Option.some.injEq] at step
    obtain ⟨waiting, rfl⟩ := step
    have one : rest.count .connected = 0 := by
      have connected := ok.connected
      rw [counted, waiting] at connected
      simp only [beq_self_eq_true, if_true, decide_true, Bool.toNat_true] at connected
      omega
    refine { popped with connected := ?_, unconnected := ?_, resolving := ?_ }
    · simp only [countOf, one]
      exact Nat.zero_le _
    · intro quiet
      have none := (ok.unconnected quiet).1
      rw [counted] at none
      simp at none
    · exact fun resolve => absurd resolve (by simp)
  | data =>
    simp only [connReceives] at step
    split at step
    next opened =>
      obtain ⟨conn, received, rfl⟩ := Option.map_eq_some_iff.mp step
      obtain ⟨room, window⟩ := streamDataReceived_spec received
      refine { popped with connRoom := ?_, connHigh := ?_, toConn := ?_, toPeer := ?_ }
      · exact room ▸ ok.connRoom
      · have high := ok.connHigh
        dsimp only
        omega
      · intro windows
        have credit := ok.toConn windows
        rw [counted] at credit
        simp only [countOf, beq_self_eq_true, if_true] at credit windows ⊢
        simp only [windows, Bool.not_false, Bool.toNat_true] at window
        omega
      · simpa only [room] using popped.toPeer
    next => cases step
  | sendme =>
    simp only [connReceives] at step
    split at step
    next opened =>
      obtain ⟨conn, received, rfl⟩ := Option.map_eq_some_iff.mp step
      obtain ⟨_, room, window⟩ := streamSendmeReceived_spec received
      simp only [streamwindowIncrement] at room window
      refine { popped with connRoom := ?_, connHigh := ?_, toConn := ?_, toPeer := ?_ }
      · have enough := ok.connRoom
        dsimp only
        omega
      · exact window ▸ ok.connHigh
      · simpa only [window] using popped.toConn
      · intro windows
        have credit := ok.toPeer windows
        rw [counted] at credit
        simp only [countOf, beq_self_eq_true, if_true, streamwindowIncrement] at credit ⊢
        omega
    next => cases step
  | xoff | xon =>
    simp only [connReceives] at step
    split at step
    next => exact Option.some.inj step ▸ popped
    next => cases step
  | end_ | resolved => cases step

theorem peerReceives_ok (head : net.toPeer = command :: rest)
    (step : peerReceives { net with toPeer := rest } command = some net') : NetOk net' := by
  have popped := ok.popPeer head
  have toConn := ok.toConn
  have toPeer := ok.toPeer
  rw [head] at toConn toPeer
  have roomy := ok.peerRoom
  have high := ok.peerHigh
  unfold peerReceives at step
  by_cases ended : net.peerEnded = true
  · rw [if_pos ended] at step
    exact Option.some.inj step ▸ popped
  · rw [if_neg ended] at step
    cases command with
    | data =>
      obtain ⟨peer, received, rfl⟩ := Option.map_eq_some_iff.mp step
      obtain ⟨room, window⟩ := streamDataReceived_spec received
      simp only at room window
      refine { popped with peerRoom := ?_, peerHigh := ?_, toConn := ?_, toPeer := ?_ }
      · exact room ▸ roomy
      · dsimp only
        omega
      · simpa only [room] using popped.toConn
      · intro windows
        have credit := toPeer windows
        simp only [countOf, List.count_cons_self] at credit windows ⊢
        simp only [windows, Bool.not_false, Bool.toNat_true] at window
        push_cast at credit window
        omega
    | sendme =>
      obtain ⟨peer, received, rfl⟩ := Option.map_eq_some_iff.mp step
      obtain ⟨windows, room, window⟩ := streamSendmeReceived_spec received
      simp only [streamwindowIncrement] at room window
      refine { popped with peerRoom := ?_, peerHigh := ?_, toConn := ?_, toPeer := ?_ }
      · dsimp only
        omega
      · exact window ▸ high
      · intro windows
        have credit := toConn windows
        simp only [countOf, List.count_cons_self, streamwindowIncrement] at credit ⊢
        omega
      · simpa only [window] using popped.toPeer
    | connected | xoff | xon | end_ | resolved => exact Option.some.inj step ▸ popped

theorem NetOk.sends (going : net.peerEnded = false) (commands : List HalfCommand)
    (others : ∀ command ∈ commands, isEnd command = false) :
    ∀ command ∈ net.toConn ++ commands, isEnd command = false := by
  intro command member
  rcases List.mem_append.mp member with old | new
  · exact ok.talking going command old
  · exact others command new

end

theorem streamDataPackaged_spec (conn : EdgeConnection)
    (may : mayPackage usesFlowControl conn = true) :
    (usesFlowControl = false → (streamDataPackaged usesFlowControl conn).packageWindow
        = conn.packageWindow - 1)
      ∧ (0 ≤ conn.packageWindow → 0 ≤ (streamDataPackaged usesFlowControl conn).packageWindow)
      ∧ (streamDataPackaged usesFlowControl conn).deliverWindow = conn.deliverWindow := by
  rw [streamDataPackaged]
  cases usesFlowControl with
  | true => exact ⟨fun windows => absurd windows Bool.noConfusion, fun room => room, rfl⟩
  | false =>
    have positive : conn.packageWindow > 0 := by simpa [mayPackage] using may
    refine ⟨fun _ => rfl, fun _ => ?_, rfl⟩
    simp only [Bool.false_eq_true, if_false]
    omega

/-- What the nearer end sends out of its windows. -/
theorem NetOk.connSends (ok : NetOk net) (commands : List HalfCommand)
    (room : 0 ≤ conn.packageWindow) (high : conn.deliverWindow ≤ streamwindowStart)
    (owed : net.usesFlowControl = false → net.conn.deliverWindow
      + streamwindowIncrement * commands.count .sendme ≤ conn.deliverWindow)
    (spent : net.usesFlowControl = false →
      conn.packageWindow + commands.count .data ≤ net.conn.packageWindow) :
    NetOk { net with conn := conn, toPeer := net.toPeer ++ commands } := by
  refine { ok with connRoom := room, connHigh := high, toConn := ?_, toPeer := ?_ }
  · intro windows
    have credit := ok.toConn windows
    have more := owed windows
    simp only [countOf, List.count_append, streamwindowIncrement] at credit more ⊢
    omega
  · intro windows
    have credit := ok.toPeer windows
    have less := spent windows
    simp only [countOf, List.count_append] at credit ⊢
    omega

/-- What a connected peer sends out of its windows before its END. -/
theorem NetOk.peerSends (ok : NetOk net) (talks : net.peerConnected = true)
    (going : net.peerEnded = false) (commands : List HalfCommand) {peer : EdgeConnection}
    (others : ∀ command ∈ commands, isEnd command = false ∧ command ≠ .connected)
    (room : 0 ≤ peer.packageWindow) (high : peer.deliverWindow ≤ streamwindowStart)
    (spent : net.usesFlowControl = false →
      peer.packageWindow + commands.count .data ≤ net.peer.packageWindow)
    (owed : net.usesFlowControl = false → net.peer.deliverWindow
      + streamwindowIncrement * commands.count .sendme ≤ peer.deliverWindow)
    (timed : net.usesFlowControl = true → commands.count .sendme = 0)
    (fixed : net.usesFlowControl = false → commands.count .xoff = 0 ∧ commands.count .xon = 0) :
    NetOk { net with peer := peer, toConn := net.toConn ++ commands } := by
  have ends := ok.sends going commands fun command member => (others command member).1
  have none : commands.count .connected = 0 :=
    List.count_eq_zero.mpr fun member => (others _ member).2 rfl
  refine { ok with
    peerRoom := room, peerHigh := high, toConn := ?_, toPeer := ?_, timed := ?_, fixed := ?_,
    connected := ?_, unconnected := ?_, resolving := ?_, talking := fun _ => ends,
    last := fun command member => ends command ((List.dropLast_subset _) member) }
  · intro windows
    have credit := ok.toConn windows
    have less := spent windows
    simp only [countOf, List.count_append] at credit ⊢
    omega
  · intro windows
    have credit := ok.toPeer windows
    have more := owed windows
    simp only [countOf, List.count_append, streamwindowIncrement] at credit more ⊢
    omega
  · intro timed'
    simpa [countOf, List.count_append, timed timed'] using ok.timed timed'
  · intro windows
    simpa [countOf, List.count_append, fixed windows] using ok.fixed windows
  · simpa [countOf, List.count_append, none] using ok.connected
  · exact fun silent => absurd (silent.symm.trans talks) Bool.false_ne_true
  · exact fun resolve => absurd ((ok.resolving resolve).1.symm.trans talks) Bool.false_ne_true

end

theorem guarded_iff {α : Type*} {p : Prop} [Decidable p] {a b : α} :
    (if p then some a else none) = some b ↔ p ∧ a = b := by
  rw [Option.ite_none_right_eq_some, Option.some.injEq]

theorem streamNetStep_ok {ev : StreamEvent} (ok : NetOk net) (step : StreamNetStep net ev net') :
    NetOk net' := by
  have replicated : ∀ n command, command ≠ HalfCommand.sendme →
      (List.replicate n HalfCommand.sendme).count command = 0 := fun n command other =>
    List.count_eq_zero.mpr fun member => other (List.eq_of_mem_replicate member)
  unfold StreamNetStep at step
  cases ev with
  | connPackages =>
    obtain ⟨may, rfl⟩ := guarded_iff.mp step
    obtain ⟨spent, room, window⟩ := streamDataPackaged_spec _ _ may.2.2
    apply ok.connSends [.data] (room ok.connRoom) (window ▸ ok.connHigh)
    · simp [window]
    · intro windows
      simp [spent windows]
  | connReceives =>
    simp only [streamNetStep] at step
    split at step
    next => cases step
    next command rest head => exact connReceives_ok ok head step
  | connConsidersSending =>
    obtain ⟨open_, rfl⟩ := guarded_iff.mp step
    obtain ⟨n, sent, _, room, window, high⟩ :=
      streamConsiderSending_spec net.usesFlowControl net.conn
    apply ok.connSends _ (room ▸ ok.connRoom) (high ok.connHigh)
    · simp [sent, window]
    · simp [sent, room, replicated]
  | connConnects =>
    obtain ⟨waiting, rfl⟩ := guarded_iff.mp step
    have sent := ok.connSends [.connected] ok.connRoom ok.connHigh (by simp) (by simp)
    refine { sent with connected := ?_, unconnected := ?_, resolving := ?_ }
    · simpa [waiting] using ok.connected
    · intro silent
      have state := (ok.unconnected silent).2
      rw [waiting] at state
      simp at state
    · exact fun resolve => absurd resolve (by simp)
  | peerConnects =>
    obtain ⟨⟨known, silent, going⟩, rfl⟩ := guarded_iff.mp step
    obtain ⟨none, state⟩ := ok.unconnected silent
    have waiting := state.resolve_right known
    have ends := ok.sends going [.connected] (by simp [isEnd])
    refine { ok with
      toConn := ?_, toPeer := ?_, timed := ?_, fixed := ?_, connected := ?_, unconnected := ?_,
      resolving := ?_, talking := fun _ => ends,
      last := fun command member => ends command ((List.dropLast_subset _) member) }
    · intro windows
      simpa [countOf, List.count_append] using ok.toConn windows
    · intro windows
      simpa [countOf, List.count_append] using ok.toPeer windows
    · intro timed'
      simpa [countOf, List.count_append] using ok.timed timed'
    · intro windows
      simpa [countOf, List.count_append] using ok.fixed windows
    · simp only [countOf, List.count_append, List.count_singleton_self, waiting]
      simp [none]
    · exact fun silent' => absurd silent' (by simp)
    · exact fun resolve => absurd resolve known
  | peerPackages =>
    obtain ⟨⟨talks, going, may⟩, rfl⟩ := guarded_iff.mp step
    obtain ⟨spent, room, window⟩ := streamDataPackaged_spec _ _ may
    apply ok.peerSends talks going [.data] (by simp [isEnd]) (room ok.peerRoom)
      (window ▸ ok.peerHigh)
    · intro windows
      simp [spent windows]
    · simp [window]
    · simp
    · simp
  | peerReceives =>
    simp only [streamNetStep] at step
    split at step
    next => cases step
    next command rest head => exact peerReceives_ok ok head step
  | peerConsidersSending =>
    obtain ⟨may, rfl⟩ := guarded_iff.mp step
    obtain ⟨n, sent, none, room, window, high⟩ :=
      streamConsiderSending_spec net.usesFlowControl net.peer
    apply ok.peerSends may.1 may.2 _ _ (room ▸ ok.peerRoom) (high ok.peerHigh)
    · simp [sent, room, replicated]
    · simp [sent, window]
    · exact fun timed => by simp [sent, none timed]
    · simp [sent, replicated]
    · intro command member
      rw [sent] at member
      rw [List.eq_of_mem_replicate member]
      exact ⟨rfl, HalfCommand.noConfusion⟩
  | peerFlow command =>
    obtain ⟨⟨talks, going, timed, flow⟩, rfl⟩ := guarded_iff.mp step
    have never : ∀ {P : Prop}, net.usesFlowControl = false → P := fun windows =>
      absurd (windows.symm.trans timed) Bool.false_ne_true
    apply ok.peerSends talks going [command] _ ok.peerRoom ok.peerHigh never never _ never
    · rcases flow with rfl | rfl <;> simp [isEnd]
    · rcases flow with rfl | rfl <;> simp
  | peerEnds command =>
    obtain ⟨⟨going, kind⟩, rfl⟩ := guarded_iff.mp step
    have others : ∀ other, isEnd other = false →
        countOf other (net.toConn ++ [command]) = countOf other net.toConn := by
      intro other open_
      rw [countOf, List.count_append, Nat.add_eq_left]
      apply List.count_eq_zero.mpr
      intro member
      rw [List.mem_singleton.mp member] at open_
      rcases kind with rfl | ⟨rfl, _⟩ <;> cases open_
    have data := others .data rfl
    have sendme := others .sendme rfl
    have conn := others .connected rfl
    have xoff := others .xoff rfl
    have xon := others .xon rfl
    refine { ok with
      toConn := ?_, toPeer := ?_, timed := ?_, fixed := ?_, connected := ?_, unconnected := ?_,
      resolving := ?_, talking := ?_, last := ?_ }
    · simpa only [data] using ok.toConn
    · simpa only [sendme] using ok.toPeer
    · simpa only [sendme] using ok.timed
    · simpa only [xoff, xon] using ok.fixed
    · simpa only [conn] using ok.connected
    · simpa only [conn] using ok.unconnected
    · simpa only [data, sendme] using ok.resolving
    · exact fun going' => absurd going' (by simp)
    · intro other member
      simp only [List.dropLast_concat] at member
      exact ok.talking going other member

theorem streamNetRun_ok {usesFlowControl : Bool} {state : EdgeState} (begun : state ≠ .apOpen)
    {ts : List (Transition StreamNet StreamEvent)}
    (run : Run StreamNetStep (newStreamNet usesFlowControl state) ts net) : NetOk net := by
  induction run with
  | nil => exact newStreamNet_ok usesFlowControl state begun
  | snoc _ step ih => exact streamNetStep_ok ih step

/-! ## What is in flight is covered -/

/-- The half edge has room for these cells. -/
structure Covers (half : HalfEdge) (flight : List HalfCommand) : Prop where
  data : half.usedCcontrol = false → (flight.countP isDataLike : Int) ≤ half.dataPending
  sendme : if half.usedCcontrol then countOf .sendme flight = 0
    else (countOf .sendme flight : Int) ≤ half.sendmesPending
  connected : countOf .connected flight ≤ half.connectedPending.toNat
  last : ∀ command ∈ flight.dropLast, isEnd command = false

theorem Covers.tail (covers : Covers half (command :: flight)) : Covers half flight := by
  have fewer : ∀ kind, countOf kind flight ≤ countOf kind (command :: flight) := fun kind =>
    List.count_le_count_cons
  refine ⟨fun windows => ?_, ?_, le_trans (fewer _) covers.connected,
    fun other member => covers.last other (mem_dropLast_cons member)⟩
  · have less := (List.sublist_cons_self command flight).countP_le (p := isDataLike)
    have data := covers.data windows
    omega
  · have less := fewer .sendme
    have sendme := covers.sendme
    split at sendme
    next timed =>
      rw [if_pos timed]
      omega
    next timed =>
      rw [if_neg timed]
      omega

theorem countP_isDataLike (flight : List HalfCommand) :
    flight.countP isDataLike
      = countOf .data flight + countOf .xoff flight + countOf .xon flight := by
  induction flight with
  | nil => rfl
  | cons command flight ih =>
    rw [List.countP_cons, ih]
    cases command <;> simp [countOf, isDataLike] <;> omega

theorem NetOk.covers (ok : NetOk net) (clock : HalfClock) (streamId : UInt16) (hsIdent : Bool)
    (maxRtt : UInt64) :
    Covers (newHalfEdge clock (net.closing streamId hsIdent maxRtt)) net.toConn := by
  rw [newHalfEdge]
  cases timed : net.usesFlowControl with
  | true =>
    have flow : (net.closing streamId hsIdent maxRtt).usesFlowControl = true := timed
    rw [if_pos flow]
    exact ⟨fun windows => absurd windows Bool.noConfusion, ok.timed timed, ok.connected, ok.last⟩
  | false =>
    have flow : ¬ (net.closing streamId hsIdent maxRtt).usesFlowControl = true := by
      rw [StreamNet.closing, timed]
      exact Bool.false_ne_true
    have items := ok.toConn timed
    have batches := ok.toPeer timed
    have room := ok.peerRoom
    have high := ok.peerHigh
    obtain ⟨xoff, xon⟩ := ok.fixed timed
    rw [if_neg flow]
    refine ⟨fun _ => ?_, ?_, ok.connected, ok.last⟩
    · have pending : ((net.toConn.countP isDataLike : Nat) : Int)
          ≤ if net.state ≠ .apResolveWait then net.conn.deliverWindow else 0 := by
        rw [countP_isDataLike, xoff, xon]
        split
        next =>
          simp only [streamwindowIncrement] at items
          omega
        next resolve =>
          rw [(ok.resolving (not_not.mp resolve)).2.1]
          exact le_refl _
      exact pending
    · have pending : (countOf .sendme net.toConn : Int)
          ≤ (streamwindowStart - net.conn.packageWindow).tdiv streamwindowIncrement := by
        simp only [streamwindowIncrement, streamwindowStart] at batches high ⊢
        rw [Int.tdiv_eq_ediv_of_nonneg (by omega)]
        omega
      exact pending

/-! ## What is covered is accepted -/

/-- The cells that arrive, with when. -/
def arrivals (evs : List HalfEvent) : List (UInt64 × HalfCell) :=
  evs.filterMap fun
    | .arrive nowUsec cell => some (nowUsec, cell)
    | .close _ _ => none

/-- What became of the cells that arrive. -/
def verdicts (outcomes : Outcomes) : List ((UInt64 × HalfCell) × Bool) :=
  outcomes.filterMap fun
    | (.arrive nowUsec cell, valid) => some ((nowUsec, cell), valid)
    | (.close _ _, _) => none

/-- The cells of a peer arrive in their order, as the code can know them. -/
def FromPeer (flight : List HalfCommand) (evs : List HalfEvent) : Prop :=
  ∀ pair ∈ (arrivals evs).zip flight, pair.1.2.command = pair.2 ∧ pair.1.2.fromLastHop = true
    ∧ pair.1.2.streamId ≠ 0

/-- A cell is accepted, or is data that comes after the time that congestion control allows. -/
def AcceptedOrLate (half : HalfEdge) (verdict : (UInt64 × HalfCell) × Bool) : Prop :=
  verdict.2 = true ∨ half.usedCcontrol = true ∧ isDataLike verdict.1.2.command = true
    ∧ half.endAckExpectedUsec < verdict.1.1

/-- What a cell leaves of a half edge covers the cells that follow. -/
def Leaves (half : HalfEdge) (flight : List HalfCommand) : Option HalfEdge → Prop
  | some half' => Covers half' flight ∧ half'.usedCcontrol = half.usedCcontrol
    ∧ half'.endAckExpectedUsec = half.endAckExpectedUsec
  | none => flight = []

section

variable {cell : HalfCell} (covers : Covers half (command :: flight))

include covers

theorem isValidData_covered (kind : isDataLike command = true) (nowUsec : UInt64)
    (same : cell.command = command) :
    AcceptedOrLate half ((nowUsec, cell), (isValidData nowUsec half).2)
      ∧ Leaves half flight (some (isValidData nowUsec half).1) := by
  have data := covers.data
  rw [List.countP_cons_of_pos kind] at data
  rw [isValidData]
  by_cases timed : half.usedCcontrol = true
  · rw [if_pos timed]
    refine ⟨?_, covers.tail, rfl, rfl⟩
    by_cases late : nowUsec > half.endAckExpectedUsec
    · exact Or.inr ⟨timed, by rw [same]; exact kind, late⟩
    · exact Or.inl (by rw [decide_eq_false late]; rfl)
  · have room := data (Bool.not_eq_true _ ▸ timed)
    rw [if_neg timed, if_pos (by omega)]
    refine ⟨Or.inl rfl, { covers.tail with data := fun _ => ?_ }, rfl, rfl⟩
    simp only
    omega

/-- One covered cell is taken, and the half edge covers the others. -/
theorem cellStep_covered (nowUsec : UInt64) (same : cell.command = command)
    (fromPeer : cell.fromLastHop = true) (stream : cell.streamId ≠ 0) :
    AcceptedOrLate half ((nowUsec, cell), (cellStep nowUsec cell half).2)
      ∧ Leaves half flight (cellStep nowUsec cell half).1 := by
  rw [cellStep, same]
  cases command with
  | data =>
    simp only
    rw [if_neg stream]
    exact isValidData_covered covers rfl nowUsec same
  | xoff | xon =>
    simp only
    rw [if_pos fromPeer]
    exact isValidData_covered covers rfl nowUsec same
  | sendme =>
    have sendme := covers.sendme
    simp only [countOf, List.count_cons_self] at sendme
    simp only
    rw [if_neg stream, isValidSendme]
    by_cases timed : half.usedCcontrol = true
    · rw [if_pos timed] at sendme
      exact absurd sendme (Nat.succ_ne_zero _)
    · rw [if_neg timed] at sendme
      rw [if_neg timed, if_pos (by omega)]
      refine ⟨Or.inl rfl, { covers.tail with sendme := ?_ }, rfl, rfl⟩
      simp only [countOf]
      rw [if_neg timed]
      omega
  | connected =>
    have connected := covers.connected
    simp only [countOf, List.count_cons_self] at connected
    have pending : half.connectedPending = true := by
      cases waiting : half.connectedPending with
      | true => rfl
      | false =>
        rw [waiting] at connected
        exact absurd connected (Nat.not_succ_le_zero _)
    have none : flight.count .connected = 0 := by
      rw [pending] at connected
      exact Nat.le_zero.mp (Nat.le_of_succ_le_succ connected)
    simp only
    rw [isValidConnected, if_pos pending]
    exact ⟨Or.inl rfl, { covers.tail with connected := Nat.le_of_eq none }, rfl, rfl⟩
  | end_ | resolved =>
    simp only
    rw [if_pos fromPeer]
    refine ⟨Or.inl rfl, ?_⟩
    cases flight with
    | nil => rfl
    | cons next flight => cases covers.last _ List.mem_cons_self

end

theorem acceptedOrLate_congr {half half' : HalfEdge} {verdict : (UInt64 × HalfCell) × Bool}
    (timed : half'.usedCcontrol = half.usedCcontrol)
    (until_ : half'.endAckExpectedUsec = half.endAckExpectedUsec)
    (accepted : AcceptedOrLate half' verdict) : AcceptedOrLate half verdict := by
  unfold AcceptedOrLate at accepted ⊢
  rwa [timed, until_] at accepted

theorem streamRun_accepts (evs : List HalfEvent) (covers : Covers half flight)
    (fromPeer : FromPeer flight evs) :
    ∀ pair ∈ (verdicts (streamRun (some half) evs).2).zip flight, AcceptedOrLate half pair.1 := by
  induction evs generalizing half flight with
  | nil => exact fun _ member => by cases member
  | cons ev evs ih =>
    cases ev with
    | close clock conn => exact ih covers fromPeer
    | arrive nowUsec cell =>
      cases flight with
      | nil =>
        rw [List.zip_nil_right]
        exact fun _ member => by cases member
      | cons command flight =>
        obtain ⟨same, peer, stream⟩ := fromPeer _ List.mem_cons_self
        obtain ⟨accepted, leaves⟩ := cellStep_covered covers nowUsec same peer stream
        have later : FromPeer flight evs := fun pair member =>
          fromPeer pair (List.mem_cons_of_mem _ member)
        intro pair member
        rcases List.mem_cons.mp member with rfl | rest
        · exact accepted
        · have same : (streamStep (some half) (.arrive nowUsec cell)).1
              = (cellStep nowUsec cell half).1 := rfl
          have rest : pair ∈ (verdicts (streamRun (cellStep nowUsec cell half).1 evs).2).zip flight := by
            rwa [same] at rest
          cases left : (cellStep nowUsec cell half).1 with
          | none =>
            rw [left] at leaves
            have landed : flight = [] := leaves
            rw [landed, List.zip_nil_right] at rest
            cases rest
          | some half' =>
            rw [left] at leaves rest
            obtain ⟨covers', timed, until_⟩ := leaves
            exact acceptedOrLate_congr timed until_ (ih covers' later pair rest)

/-! ## Runs -/

/-- A stream accepts no more than was recorded, and with congestion control data in time alone. -/
structure WithinRecord (half : HalfEdge) (outcomes : Outcomes) : Prop where
  data : half.usedCcontrol = false →
    (firstLife outcomes).countP (acceptedOf isDataLike) ≤ half.dataPending.toNat
  inTime : half.usedCcontrol = true → ∀ nowUsec cell, (HalfEvent.arrive nowUsec cell, true)
    ∈ firstLife outcomes → isDataLike cell.command = true → nowUsec ≤ half.endAckExpectedUsec
  sendme : (firstLife outcomes).countP (acceptedOf fun command => command = .sendme)
    ≤ half.sendmesPending.toNat
  connected : (firstLife outcomes).countP (acceptedOf fun command => command = .connected)
    ≤ half.connectedPending.toNat

/-- After an accepted END nothing is accepted until the stream is closed again. -/
def QuietAfterEnd (outcomes : Outcomes) : Prop :=
  ∀ before last after, outcomes = before ++ last :: after → acceptedOf isEnd last = true →
    (∀ o ∈ after, ∀ clock conn, o.1 ≠ .close clock conn) → ∀ o ∈ after, o.2 = false

/-- The stream that is closed has come from an exchange between honest ends, with these cells on
their way to it. -/
def HonestFlight (conn : ClosingEdge) (flight : List HalfCommand) : Prop :=
  ∃ usesFlowControl state ts net, state ≠ .apOpen
    ∧ Run StreamNetStep (newStreamNet usesFlowControl state) ts net
    ∧ conn = net.closing conn.streamId conn.hsIdent conn.maxRtt ∧ flight = net.toConn

theorem streamRun_within (half : HalfEdge) (evs : List HalfEvent) :
    WithinRecord half (streamRun (some half) evs).2 := by
  constructor
  · intro windows
    apply streamRun_accepted_le allowance_data
    exact fun timed => absurd (windows.symm.trans timed) Bool.false_ne_true
  · intro timed nowUsec cell member kind
    exact streamRun_inTime evs timed member kind
  · apply streamRun_accepted_le allowance_sendme
    intro _ command kind
    rw [of_decide_eq_true kind]
    rfl
  · apply streamRun_accepted_le allowance_connected
    intro _ command kind
    rw [of_decide_eq_true kind]
    rfl

/-- In every run the half edges stay sorted and are found exactly where they are, and a stream
that has been ended accepts nothing; a stream that is closed accepts no more than is recorded of
it, and each cell that an honest peer had in flight, data under congestion control if it comes in
time. -/
theorem halfRun_accepts (evs : List HalfEvent) :
    ∃ halfStreams valids, halfRun none evs = some (halfStreams, valids) ∧ valids.length = evs.length
      ∧ Ascending (edges halfStreams)
      ∧ (∀ streamId, ∃ found, connectionHalfEdgeFindStreamId halfStreams streamId = some found
        ∧ (found.isSome ↔ ∃ half ∈ edges halfStreams, half.streamId = streamId)
        ∧ ∀ idx half, found = some (idx, half) →
          (edges halfStreams)[idx]? = some half ∧ half.streamId = streamId)
      ∧ (∀ streamId, QuietAfterEnd (outcomesOf streamId evs valids))
      ∧ ∀ clock conn, (∀ half ∈ edges halfStreams, half.streamId ≠ conn.streamId) → ∀ later,
        ∃ after valids', halfRun halfStreams (.close clock conn :: later) = some (after, false :: valids')
          ∧ WithinRecord (newHalfEdge clock conn) (outcomesOf conn.streamId later valids')
          ∧ ∀ flight, HonestFlight conn flight → FromPeer flight (eventsOf conn.streamId later) →
            ∀ pair ∈ (verdicts (outcomesOf conn.streamId later valids')).zip flight,
              AcceptedOrLate (newHalfEdge clock conn) pair.1 := by
  have empty : Ascending (edges none) := List.Pairwise.nil
  obtain ⟨hs, valids, run, ascending, length, streams⟩ := halfRun_streams evs empty
  refine ⟨hs, valids, run, length, ascending, ?_, ?_, ?_⟩
  · intro streamId
    obtain ⟨found, search, present, place⟩ := connectionHalfEdgeFindStreamId_spec ascending streamId
    refine ⟨found, search, ?_, ?_⟩
    · rw [← Option.isSome_map (f := Prod.snd), present, halfOf, Library.KeyedLists.find,
        List.find?_isSome]
      simp
    · intro idx half equal
      refine ⟨place idx half equal, ?_⟩
      rw [equal] at present
      exact Library.KeyedLists.find_key present.symm
  · intro streamId before last after split ended unclosed
    have results := congrArg Prod.snd (streams streamId)
    exact streamRun_afterEnd _ (results.trans split) ended unclosed
  · intro clock conn absent later
    obtain ⟨mid, step, ordered, changed⟩ := halfStep_changes ascending (.close clock conn)
    obtain ⟨after, valids', run', _, _, streams'⟩ := halfRun_streams later ordered
    have none : halfOf hs conn.streamId = none := Library.KeyedLists.find_eq_none.mpr absent
    have recorded : halfOf mid conn.streamId = some (newHalfEdge clock conn) := by
      have new := changed conn.streamId
      simp only [streamOf, if_true, streamStep, none, Option.getD_none] at new
      exact new
    have own := streams' conn.streamId
    rw [recorded] at own
    have results : outcomesOf conn.streamId later valids'
        = (streamRun (some (newHalfEdge clock conn)) (eventsOf conn.streamId later)).2 :=
      (congrArg Prod.snd own).symm
    refine ⟨after, valids', ?_, ?_, ?_⟩
    · rw [halfRun, step]
      simp only [Option.bind_eq_bind, Option.bind_some, run']
      rfl
    · rw [results]
      exact streamRun_within _ _
    · rintro flight ⟨usesFlowControl, state, ts, net, begun, exchange, closed, rfl⟩ fromPeer
      rw [results]
      apply streamRun_accepts _ _ fromPeer
      rw [closed]
      exact (streamNetRun_ok begun exchange).covers clock _ _ _

/-- The stream and the cells with which the results below are exercised. -/
def flightClock : HalfClock := ⟨1000, 500⟩

def flightNet : StreamNet :=
  { newStreamNet false .apConnectWait with
    peer := ⟨499, 500⟩, peerConnected := true, toConn := [.connected, .data] }

def flightConn : ClosingEdge := flightNet.closing 5 false 0

def flightCells : List HalfEvent :=
  [.arrive 2000 ⟨.connected, 5, true⟩, .arrive 2001 ⟨.data, 5, true⟩]

theorem flightConn_honest : HonestFlight flightConn [.connected, .data] := by
  have connects : StreamNetStep (newStreamNet false .apConnectWait) .peerConnects
      { newStreamNet false .apConnectWait with peerConnected := true, toConn := [.connected] } := rfl
  have packages : StreamNetStep
      { newStreamNet false .apConnectWait with peerConnected := true, toConn := [.connected] }
      .peerPackages flightNet := rfl
  exact ⟨false, .apConnectWait, _, flightNet, by decide, (Run.single connects).snoc packages, rfl, rfl⟩

theorem flightCells_fromPeer : FromPeer [.connected, .data] (eventsOf 5 flightCells) := by
  intro pair member
  simp [eventsOf, flightCells, arrivals, streamOf] at member
  rcases member with rfl | rfl <;> decide

/-- With the windows of a new stream a CONNECTED and a DATA cell in flight are accepted. -/
theorem halfRun_accepts_flight :
    ∃ after valids', halfRun none (.close flightClock flightConn :: flightCells)
        = some (after, false :: valids')
      ∧ ∀ pair ∈ (verdicts (outcomesOf 5 flightCells valids')).zip [HalfCommand.connected, .data],
        AcceptedOrLate (newHalfEdge flightClock flightConn) pair.1 := by
  obtain ⟨hs, valids, run, _, _, _, _, closes⟩ := halfRun_accepts []
  obtain ⟨rfl, rfl⟩ := Prod.mk.inj (Option.some.inj run)
  obtain ⟨after, valids', run', _, accepts⟩ :=
    closes flightClock flightConn (fun half member => by cases member) flightCells
  exact ⟨after, valids', run', accepts _ flightConn_honest flightCells_fromPeer⟩

/-- Under congestion control no data is recorded as pending, and data is accepted all the same. -/
theorem halfRun_accepts_unrecorded :
    ¬ ∀ clock conn later hs valids,
      halfRun none (.close clock conn :: later) = some (hs, false :: valids) →
        (firstLife (outcomesOf conn.streamId later valids)).countP (acceptedOf isDataLike)
          ≤ (newHalfEdge clock conn).dataPending.toNat := by
  intro atMost
  have bound := atMost flightClock { flightConn with usesFlowControl := true }
    [.arrive 1200 ⟨.data, 5, true⟩] _ [true] rfl
  revert bound
  decide

end RendezMix.Guarantees.HalfStreams
