import RendezMix.Source.OomHandler
import RendezMix.Guarantees.HeldCells

/-!
# Which queues the memory handler knows

`circuits_handle_oom` counts the cells of a circuit, compares circuits by the
age of their oldest item and frees cells in three different functions. The
functions that count and compare know the channel queues only, the one that
frees knows the delay queues as well.
-/
namespace RendezMix.Guarantees
open Source Library.Runs

/-! ## Ages -/

def oldest (ages : List Nat) : Nat := ages.foldr max 0

theorem oldest_nil : oldest [] = 0 := rfl

theorem oldest_append (first second : List Nat) :
    oldest (first ++ second) = max (oldest first) (oldest second) := by
  induction first with
  | nil => simp [oldest]
  | cons age rest ih =>
    simp only [oldest, List.cons_append, List.foldr_cons] at ih ⊢
    rw [ih, max_assoc]

/-- Oldest first. -/
def OldestFirst (ages : List Nat) : Prop := ages.Pairwise (fun a b => b ≤ a)

section

variable (circ : Circuit) (conns : Conns) (now : UInt32)

theorem oldest_cons_of_oldestFirst (age : Nat) (rest : List Nat)
    (sorted : OldestFirst (age :: rest)) : oldest (age :: rest) = age := by
  have younger : ∀ ages : List Nat, (∀ b ∈ ages, b ≤ age) → oldest ages ≤ age := by
    intro ages
    induction ages with
    | nil => exact fun _ => Nat.zero_le age
    | cons b ages ih =>
      intro bound
      exact max_le (bound b List.mem_cons_self) (ih (fun x member => bound x (.tail _ member)))
  exact max_eq_left (younger rest (List.pairwise_cons.mp sorted).1)

def cellAge (now : UInt32) (cell : PackedCell) : Nat := (now - cell.insertedTimestamp).toNat

def chunkAge (now : UInt32) (chunk : Chunk) : Nat := (now - chunk.insertedTime).toNat

/-- The queues of a circuit; an origin circuit has one. -/
def queuesOf (circ : Circuit) : List CellQueue :=
  if circ.magic = .orCircuit then
    [circ.n.chanCells, circ.p.chanCells, circ.n.delayQueue, circ.p.delayQueue]
  else [circ.n.chanCells]

def connBufs (conn : Connection) : List Buf := conn.outbuf.toList ++ conn.inbuf.toList

/-- The connection of a stream, and the one linked to it. -/
def streamConns (conns : Conns) (stream : Edge) : List Connection :=
  conns stream.conn :: ((conns stream.conn).linkedConn.map conns).toList

def streamBufs (conns : Conns) (streams : List Edge) : List Buf :=
  (streams.flatMap (streamConns conns)).flatMap connBufs

/-- The age of the oldest cell or data that a circuit holds, in any of its queues
and in any buffer of its streams. -/
def oldestHeldAge (now : UInt32) (conns : Conns) (circ : Circuit) : Nat :=
  max (oldest ((queuesOf circ).flatten.map (cellAge now)))
    (oldest ((streamBufs conns circ.streams).flatten.map (chunkAge now)))

/-- Queues and buffers are first in, first out. -/
structure OldestAtHead (now : UInt32) (conns : Conns) (circ : Circuit) : Prop where
  cells : ∀ queue ∈ queuesOf circ, OldestFirst (queue.map (cellAge now))
  chunks : ∀ buf ∈ streamBufs conns circ.streams, OldestFirst (buf.map (chunkAge now))

instance (ages : List Nat) : Decidable (OldestFirst ages) :=
  inferInstanceAs (Decidable (ages.Pairwise _))

instance (now : UInt32) (conns : Conns) (circ : Circuit) : Decidable (OldestAtHead now conns circ) :=
  decidable_of_iff
    ((∀ queue ∈ queuesOf circ, OldestFirst (queue.map (cellAge now))) ∧
      ∀ buf ∈ streamBufs conns circ.streams, OldestFirst (buf.map (chunkAge now)))
    ⟨fun sorted => ⟨sorted.1, sorted.2⟩, fun sorted => ⟨sorted.cells, sorted.chunks⟩⟩

theorem olderAge_toNat (age age2 : UInt32) :
    (olderAge age age2).toNat = max age.toNat age2.toNat := by
  unfold olderAge
  split
  · next older => exact (max_eq_right (UInt32.le_iff_toNat_le.mp (UInt32.le_of_lt older))).symm
  · next younger => exact (max_eq_left (UInt32.le_iff_toNat_le.mp (UInt32.not_lt.mp younger))).symm

theorem bufGetOldestChunkTimestamp_toNat (buf : Buf) (now : UInt32)
    (sorted : OldestFirst (buf.map (chunkAge now))) :
    (bufGetOldestChunkTimestamp buf now).toNat = oldest (buf.map (chunkAge now)) := by
  cases buf with
  | nil => rfl
  | cons chunk rest =>
    rw [List.map_cons] at sorted ⊢
    rw [oldest_cons_of_oldestFirst _ _ sorted]
    rfl

theorem connGetBufferAge_toNat (conn : Connection) (now : UInt32)
    (sorted : ∀ buf ∈ connBufs conn, OldestFirst (buf.map (chunkAge now))) :
    (connGetBufferAge conn now).toNat = oldest ((connBufs conn).flatten.map (chunkAge now)) := by
  have age : ∀ buf ∈ connBufs conn, (bufGetOldestChunkTimestamp buf now).toNat =
      oldest (buf.map (chunkAge now)) := fun buf member =>
    bufGetOldestChunkTimestamp_toNat buf now (sorted buf member)
  unfold connGetBufferAge
  cases out : conn.outbuf <;> cases inb : conn.inbuf <;>
    simp only [connBufs, out, inb, Option.toList_none, Option.toList_some, List.nil_append,
      List.append_nil, List.cons_append, List.mem_cons, List.not_mem_nil, or_false,
      forall_eq_or_imp, forall_eq] at age ⊢ <;>
    simp [olderAge_toNat, oldest_append, age, oldest_nil]

theorem streamBufs_cons (stream : Edge) (streams : List Edge) :
    streamBufs conns (stream :: streams) =
      (streamConns conns stream).flatMap connBufs ++ streamBufs conns streams := by
  simp [streamBufs]

/-- The handler's data age is the age of the oldest chunk. -/
theorem circuitMaxQueuedDataAge_toNat
    (sorted : ∀ buf ∈ streamBufs conns circ.streams, OldestFirst (buf.map (chunkAge now))) :
    (circuitMaxQueuedDataAge circ conns now).toNat =
      oldest ((streamBufs conns circ.streams).flatten.map (chunkAge now)) := by
  rw [circuitMaxQueuedDataAge, ← Nat.zero_max (oldest _)]
  change (List.foldl _ (0 : UInt32) _).toNat = max (0 : UInt32).toNat _
  generalize (0 : UInt32) = start
  generalize circ.streams = streams at sorted ⊢
  induction streams generalizing start with
  | nil => simp [streamBufs, oldest]
  | cons stream rest ih =>
    rw [streamBufs_cons] at sorted ⊢
    have own := connGetBufferAge_toNat (conns stream.conn) now (fun buf member =>
      sorted buf (List.mem_append_left _ (by simp [streamConns, member])))
    rw [List.foldl_cons, ih _ (fun buf member => sorted buf (List.mem_append_right _ member)),
      List.flatten_append, List.map_append, oldest_append]
    cases link : (conns stream.conn).linkedConn with
    | none =>
      simp only [streamConns, link, Option.map_none, Option.toList_none, List.flatMap_cons,
        List.flatMap_nil, List.append_nil, olderAge_toNat, own, max_assoc]
    | some linked =>
      have other := connGetBufferAge_toNat (conns linked) now (fun buf member =>
        sorted buf (List.mem_append_left _ (by simp [streamConns, link, member])))
      simp only [streamConns, link, Option.map_some, Option.toList_some, List.flatMap_cons,
        List.flatMap_nil, List.append_nil, List.flatten_append, List.map_append, oldest_append,
        olderAge_toNat, own, other, max_assoc]

def headAge (now : UInt32) (queue : CellQueue) : UInt32 :=
  match queue with
  | cell :: _ => now - cell.insertedTimestamp
  | [] => 0

theorem headAge_toNat (queue : CellQueue) (now : UInt32)
    (sorted : OldestFirst (queue.map (cellAge now))) :
    (headAge now queue).toNat = oldest (queue.map (cellAge now)) := by
  cases queue with
  | nil => rfl
  | cons cell rest =>
    rw [List.map_cons] at sorted ⊢
    rw [oldest_cons_of_oldestFirst _ _ sorted]
    rfl

theorem circuitMaxQueuedCellAge_eq :
    circuitMaxQueuedCellAge circ now =
      if circ.magic = .orCircuit then
        olderAge (headAge now circ.n.chanCells) (headAge now circ.p.chanCells)
      else headAge now circ.n.chanCells := by
  by_cases isOr : circ.magic = .orCircuit
  · rw [if_pos isOr]
    unfold circuitMaxQueuedCellAge
    rw [if_pos isOr]
    cases circ.p.chanCells with
    | nil => exact (if_neg UInt32.not_lt_zero).symm
    | cons cell rest => rfl
  · rw [if_neg isOr]
    exact if_neg isOr

theorem circuitMaxQueuedCellAge_toNat
    (sorted : ∀ queue ∈ queuesOf circ, OldestFirst (queue.map (cellAge now))) :
    (circuitMaxQueuedCellAge circ now).toNat =
      max (oldest (circ.n.chanCells.map (cellAge now)))
        (if circ.magic = .orCircuit then oldest (circ.p.chanCells.map (cellAge now)) else 0) := by
  have outbound := headAge_toNat circ.n.chanCells now
    (sorted _ (by unfold queuesOf; split <;> simp))
  rw [circuitMaxQueuedCellAge_eq]
  split
  · next isOr =>
    have inbound := headAge_toNat circ.p.chanCells now (sorted _ (by simp [queuesOf, isOr]))
    rw [olderAge_toNat, outbound, inbound]
  · rw [outbound, Nat.max_zero]

/-! ## Cells that a kill frees -/

/-- The cells of `c` that were cleared between two states. -/
def freedCells (c : CircPtr) (pre post : Relay) : Nat :=
  let freedFor := fun d =>
    (clearedOf d (history c post.log)).length - (clearedOf d (history c pre.log)).length
  freedFor .outbound + freedFor .inbound

/-- The number of cells a kill frees. -/
def cellsFreed (circ : Circuit) : Nat :=
  if circ.magic = .orCircuit then (circ.held .outbound).length + (circ.held .inbound).length
  else if circ.closeHeld = true ∧ circ.markedForClose = false then 0
  else circ.n.chanCells.length

/-- No or_circuit holds cells in a delay queue, and no origin circuit that stays
unmarked holds cells. -/
def Accountable (circ : Circuit) : Prop :=
  (circ.magic = .orCircuit → circ.n.delayQueue = [] ∧ circ.p.delayQueue = []) ∧
    (circ.magic = .originCircuit → circ.closeHeld = true → circ.markedForClose = false →
      circ.n.chanCells = [])

instance (circ : Circuit) : Decidable (Accountable circ) := inferInstanceAs (Decidable (_ ∧ _))

theorem nCellsInCircQueues_eq_cellsFreed_iff :
    nCellsInCircQueues circ = cellsFreed circ ↔ Accountable circ := by
  unfold nCellsInCircQueues cellsFreed Accountable
  cases kind : circ.magic with
  | orCircuit =>
    simp only [if_true, Circuit.held, Circuit.hop, List.length_append, reduceCtorEq,
      false_imp_iff, and_true, true_imp_iff]
    constructor
    · intro same
      exact ⟨List.eq_nil_of_length_eq_zero (by omega), List.eq_nil_of_length_eq_zero (by omega)⟩
    · rintro ⟨outbound, inbound⟩
      simp only [outbound, inbound, List.length_nil, Nat.add_zero]
  | originCircuit =>
    simp only [reduceCtorEq, if_false, Nat.add_zero, false_imp_iff, true_and, true_imp_iff]
    split
    · next stays =>
      rw [List.length_eq_zero_iff]
      exact ⟨fun empty _ _ => empty, fun empty => empty stays.1 stays.2⟩
    · next goes =>
      exact ⟨fun _ held isOpen => absurd ⟨held, isOpen⟩ goes, fun _ => rfl⟩

theorem freedCells_of_cleared (c : CircPtr) (pre post : Relay) (outbound inbound : List PackedCell)
    (out : clearedOf .outbound (history c post.log) =
      clearedOf .outbound (history c pre.log) ++ outbound)
    (inb : clearedOf .inbound (history c post.log) =
      clearedOf .inbound (history c pre.log) ++ inbound) :
    freedCells c pre post = outbound.length + inbound.length := by
  simp only [freedCells, out, inb, List.length_append]
  omega

/-- What the clear events of a kill add up to. -/
theorem killCircuit_freedCells (cfg : Config) (c : CircPtr) (r : Relay) (circ : Circuit)
    (live : r.circuits c = some circ) : freedCells c r (killCircuit cfg c r) = cellsFreed circ := by
  have life := lifeOf_of_circuits live
  by_cases isOr : circ.magic = .orCircuit
  · obtain ⟨final, change, _, _, _, cleared⟩ := killCircuit_rewrites cfg c r _ life isOr
    have history := ((lifeOf_eq_some _ c final).mp change.own).2
    rw [cellsFreed, if_pos isOr]
    exact freedCells_of_cleared c _ _ _ _ (history ▸ cleared .outbound) (history ▸ cleared .inbound)
  · have marks := circuitMarkForClose_rewrites cfg c r _ life
    have marked := live_of_lifeOf marks.own
    have kind : ((⟨history c r.log, circ⟩ : Life).markForClose cfg c).circ.magic ≠ .orCircuit := by
      unfold Life.markForClose
      split <;> exact isOr
    have isOrigin : circ.magic = .originCircuit := by
      cases magic : circ.magic with
      | orCircuit => exact absurd magic isOr
      | originCircuit => rfl
    rw [cellsFreed, if_neg isOr]
    unfold killCircuit markedCircuitFreeCells
    rw [Relay.withCircuit_some _ c _ _ marked]
    by_cases stays : circ.closeHeld = true ∧ circ.markedForClose = false
    · have same : (⟨history c r.log, circ⟩ : Life).markForClose cfg c = ⟨history c r.log, circ⟩ :=
        if_pos (Or.inr ⟨isOrigin, stays.1⟩)
      have after := ((lifeOf_eq_some _ c _).mp marks.own).2
      rw [same] at after ⊢
      rw [if_pos stays.2, if_pos stays]
      exact freedCells_of_cleared c _ _ [] [] (by rw [← after, List.append_nil])
        (by rw [← after, List.append_nil])
    · have goes : ((⟨history c r.log, circ⟩ : Life).markForClose cfg c).circ.markedForClose =
          true := by
        unfold Life.markForClose
        split
        · next already =>
          refine already.elim id (fun held => ?_)
          exact Bool.not_eq_false _ ▸ fun isOpen => stays ⟨held.2, isOpen⟩
        · rfl
      rw [if_neg (by rw [goes]; decide), if_neg stays]
      simp only [if_neg kind]
      have clears := (clearChanCells_rewrites c .outbound _ _ marks.own).own
      have after := ((lifeOf_eq_some _ c _).mp clears).2
      have before := fun d => clearedOf_markForClose cfg c d ⟨history c r.log, circ⟩
      refine (freedCells_of_cleared c _ _ circ.n.chanCells [] ?_ ?_).trans (Nat.add_zero _)
      · rw [← after, Life.setHop, Life.record, clearedOf_append, before,
          Life.markForClose_hop]
        simp [clearedBy, Circuit.hop]
      · rw [← after, Life.setHop, Life.record, clearedOf_append, before]
        simp [clearedBy]

end

end RendezMix.Guarantees
