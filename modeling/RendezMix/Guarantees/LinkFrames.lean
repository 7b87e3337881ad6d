import RendezMix.Library.Framing
import RendezMix.Source.Cells

/-!
# Cells arrive as they were sent

The inbuf of a link is a framer: the beginning of a cell says how long it is, and what follows the
cell makes no difference. Both ends tell the kinds of cells apart by the version of the link protocol
alone, so that a cell of variable length is read as one only where the version has such cells.
-/
namespace RendezMix.Guarantees
open Source Library.ByteStrings Library.Framing

/-! ## Headers -/

/-- The width of the circuit ids is that of the version. -/
def WidthMatches (conn : OrLink) : Prop :=
  conn.wideCircIds = decide (conn.linkProto ≥ minLinkProtoForWideCircIds)

def CircIdFits (circId : UInt32) (wideCircIds : Bool) : Prop :=
  wideCircIds = false → circId.toNat < 2 ^ 16

/-- A circuit id as it is written. -/
def circIdBytes (circId : UInt32) (wideCircIds : Bool) : List UInt8 :=
  if wideCircIds then bigEndian 4 circId.toNat else bigEndian 2 circId.toNat

theorem circIdBytes_length (circId : UInt32) (wideCircIds : Bool) :
    (circIdBytes circId wideCircIds).length = getCircIdSize wideCircIds := by
  cases wideCircIds <;> exact bigEndian_length _ _

theorem readCircId_written {circId : UInt32} {wideCircIds : Bool}
    (fits : CircIdFits circId wideCircIds) (rest : List UInt8) :
    readCircId (circIdBytes circId wideCircIds ++ rest) wideCircIds = circId := by
  unfold readCircId circIdBytes
  cases wideCircIds with
  | true =>
    rw [if_pos rfl, if_pos rfl, bytesAt_zero, List.take_left' (bigEndian_length _ _)]
    exact getUint32_be32 circId
  | false =>
    have small := fits rfl
    rw [if_neg Bool.false_ne_true, if_neg Bool.false_ne_true, bytesAt_zero,
      List.take_left' (bigEndian_length _ _), getUint16,
      ofBigEndian_bigEndian_of_lt 2 _ (by omega)]
    apply UInt32.toNat_inj.mp
    rw [UInt16.toNat_toUInt32, UInt16.toNat_ofNat']
    omega

theorem readCircId_congr {buf buf' : List UInt8} {n : Nat} (same : buf'.take n = buf.take n)
    (wideCircIds : Bool) (room : getCircIdSize wideCircIds ≤ n) :
    readCircId buf' wideCircIds = readCircId buf wideCircIds := by
  cases wideCircIds with
  | true => exact congrArg getUint32 (bytesAt_congr same 0 4 room)
  | false => exact congrArg (fun bytes => (getUint16 bytes).toUInt32) (bytesAt_congr same 0 2 room)

theorem getD_congr {buf buf' : List UInt8} {n : Nat} (same : buf'.take n = buf.take n) (i : Nat)
    (room : i < n) : buf'.getD i 0 = buf.getD i 0 := by
  have at_i := congrArg (fun bytes => bytes[i]?) same
  simp only [List.getElem?_take_of_lt room] at at_i
  rw [List.getD_eq_getElem?_getD, List.getD_eq_getElem?_getD, at_i]

/-- The command of a cell at the beginning of a buffer. -/
def commandOf (conn : OrLink) (buf : List UInt8) : UInt8 :=
  buf.getD (getCircIdSize conn.wideCircIds) 0

/-- The length of a cell of variable length at the beginning of a buffer. -/
def lengthOf (conn : OrLink) (buf : List UInt8) : UInt16 :=
  getUint16 (bytesAt buf (getCircIdSize conn.wideCircIds + 1) 2)

theorem getVarCellHeaderSize_eq (wideCircIds : Bool) :
    getVarCellHeaderSize wideCircIds = getCircIdSize wideCircIds + 3 := by
  cases wideCircIds <;> rfl

theorem header_lt_network (wideCircIds : Bool) :
    getVarCellHeaderSize wideCircIds < getCellNetworkSize wideCircIds := by
  cases wideCircIds <;> decide

section Fetch

variable {conn : OrLink} (width : WidthMatches conn)

include width

/-- What a whole header says of the cell. -/
theorem fetchVarCellFromBuf_eq {buf : List UInt8}
    (header : getVarCellHeaderSize conn.wideCircIds ≤ buf.length) :
    fetchVarCellFromBuf buf conn.linkProto =
      if cellCommandIsVarLength (commandOf conn buf) conn.linkProto = false then .notVar
      else if buf.length < getVarCellHeaderSize conn.wideCircIds + (lengthOf conn buf).toNat then
        .notYet
      else
        .cell ⟨commandOf conn buf, readCircId buf conn.wideCircIds,
          varPayload buf (getVarCellHeaderSize conn.wideCircIds) (lengthOf conn buf),
          varPayload_fits _ _ _⟩
          (buf.drop (getVarCellHeaderSize conn.wideCircIds + (lengthOf conn buf).toNat)) := by
  have size := getVarCellHeaderSize_eq conn.wideCircIds
  have same : (bytesAt buf 0 (getVarCellHeaderSize conn.wideCircIds)).take
      (getVarCellHeaderSize conn.wideCircIds) =
        buf.take (getVarCellHeaderSize conn.wideCircIds) := by
    rw [bytesAt_zero, List.take_take, Nat.min_self]
  have command := getD_congr same (getCircIdSize conn.wideCircIds) (by omega)
  have length := bytesAt_congr same (getCircIdSize conn.wideCircIds + 1) 2 (by omega)
  have circId := readCircId_congr same conn.wideCircIds (by omega)
  unfold fetchVarCellFromBuf
  rw [← width, if_neg (Nat.not_lt.mpr header)]
  simp only [command, length, circId]
  rfl

theorem fetchVarCellFromBuf_short {buf : List UInt8}
    (short : buf.length < getVarCellHeaderSize conn.wideCircIds) :
    fetchVarCellFromBuf buf conn.linkProto = .notVar := by
  unfold fetchVarCellFromBuf
  rw [← width, if_pos short]

theorem fetchVarCellFromBuf_fixed {buf : List UInt8}
    (fixed : cellCommandIsVarLength (commandOf conn buf) conn.linkProto = false) :
    fetchVarCellFromBuf buf conn.linkProto = .notVar := by
  by_cases header : getVarCellHeaderSize conn.wideCircIds ≤ buf.length
  · rw [fetchVarCellFromBuf_eq width header, if_pos fixed]
  · exact fetchVarCellFromBuf_short width (Nat.not_le.mp header)

/-! ## The inbuf as a framer -/

/-- A cell that is taken off the inbuf is taken off it whatever follows. -/
theorem processTurn_append {inbuf rest : List UInt8} {cell : OrCell} (more : List UInt8)
    (taken : processTurn conn inbuf = some (cell, rest)) :
    processTurn conn (inbuf ++ more) = some (cell, rest ++ more) := by
  have network := header_lt_network conn.wideCircIds
  have size := getVarCellHeaderSize_eq conn.wideCircIds
  have header : getVarCellHeaderSize conn.wideCircIds ≤ inbuf.length := by
    by_contra short
    unfold processTurn at taken
    rw [fetchVarCellFromBuf_short width (Nat.not_le.mp short)] at taken
    rw [if_pos (by omega)] at taken
    cases taken
  have same : (inbuf ++ more).take inbuf.length = inbuf.take inbuf.length := by
    rw [List.take_left, List.take_length]
  have longer : inbuf.length ≤ (inbuf ++ more).length := by
    rw [List.length_append]
    omega
  have command : commandOf conn (inbuf ++ more) = commandOf conn inbuf :=
    getD_congr same _ (by omega)
  have length : lengthOf conn (inbuf ++ more) = lengthOf conn inbuf :=
    congrArg getUint16 (bytesAt_congr same _ 2 (by omega))
  have circId := readCircId_congr same conn.wideCircIds (by omega)
  unfold processTurn at taken ⊢
  rw [fetchVarCellFromBuf_eq width header] at taken
  rw [fetchVarCellFromBuf_eq width (header.trans longer), command, length]
  by_cases fixed : cellCommandIsVarLength (commandOf conn inbuf) conn.linkProto = false
  · rw [if_pos fixed] at taken ⊢
    dsimp only at taken ⊢
    split at taken
    · cases taken
    · next whole =>
      cases taken
      rw [if_neg (by omega), List.take_append_of_le_length (by omega),
        List.drop_append_of_le_length (by omega)]
  · rw [if_neg fixed] at taken ⊢
    by_cases part : inbuf.length <
        getVarCellHeaderSize conn.wideCircIds + (lengthOf conn inbuf).toNat
    · rw [if_pos part] at taken
      cases taken
    · rw [if_neg part] at taken
      cases taken
      rw [if_neg (by omega), List.drop_append_of_le_length (by omega)]
      have payload : varPayload (inbuf ++ more) (getVarCellHeaderSize conn.wideCircIds)
          (lengthOf conn inbuf) =
            varPayload inbuf (getVarCellHeaderSize conn.wideCircIds) (lengthOf conn inbuf) :=
        bytesAt_congr same _ _ (by omega)
      simp only [circId, payload]

/-- The cells in the inbuf of a link. -/
def linkFramer (conn : OrLink) (width : WidthMatches conn) : Framer OrCell UInt8 where
  next := processTurn conn
  shorter := processTurn_shorter
  stable more taken := processTurn_append width more taken

theorem connectionOrProcessCellsFromInbuf_eq_drain (inbuf : List UInt8) :
    connectionOrProcessCellsFromInbuf conn inbuf = (linkFramer conn width).drain inbuf := by
  induction length : inbuf.length using Nat.strong_induction_on generalizing inbuf with
  | _ n ih =>
    rw [connectionOrProcessCellsFromInbuf]
    split
    · next waits => exact ((linkFramer conn width).drain_of_none waits).symm
    · next cell rest taken =>
      rw [(linkFramer conn width).drain_of_some taken,
        ih rest.length (length ▸ processTurn_shorter taken) rest rfl]

theorem foldl_connectionOrReceive_eq_receive (arrivals : List (List UInt8)) :
    arrivals.foldl (connectionOrReceive conn) ([], []) = (linkFramer conn width).receive arrivals := by
  have step : connectionOrReceive conn = (linkFramer conn width).arrive := by
    funext state arrival
    unfold connectionOrReceive Framer.arrive
    rw [connectionOrProcessCellsFromInbuf_eq_drain width]
  rw [step]
  rfl

/-! ## Cells as they are written -/

/-- A cell that the version of a link has, with a circuit id of its width. -/
def Sendable (conn : OrLink) : OrCell → Prop
  | .fixed cell =>
    cell.command < 128 ∧ cell.command ≠ cellVersions ∧ CircIdFits cell.circId conn.wideCircIds
  | .var cell =>
    cellCommandIsVarLength cell.command conn.linkProto = true ∧
      CircIdFits cell.circId conn.wideCircIds

omit width in
theorem fixed_command {command : UInt8} (low : command < 128) (other : command ≠ cellVersions)
    (linkproto : Nat) : cellCommandIsVarLength command linkproto = false := by
  have high : ¬ 128 ≤ command := UInt8.not_le.mpr low
  unfold cellCommandIsVarLength
  split
  · rfl
  · exact beq_eq_false_iff_ne.mpr other
  · rw [beq_eq_false_iff_ne.mpr other, Bool.false_or]
    exact decide_eq_false high

omit width in
theorem writeCell_eq (cell : Cell) :
    connectionOrWriteCellToBuf cell conn =
      circIdBytes cell.circId conn.wideCircIds ++ ([cell.command] ++ cell.payload.val) := by
  have size := cell.payload.property
  unfold connectionOrWriteCellToBuf cellPack circIdBytes getCellNetworkSize
  cases conn.wideCircIds with
  | true =>
    rw [if_pos rfl, if_pos rfl, if_pos rfl, List.append_assoc]
    apply List.take_of_length_le
    simp [size, cellPayloadSize, cellMaxNetworkSize]
  | false =>
    rw [if_neg Bool.false_ne_true, if_neg Bool.false_ne_true, if_neg Bool.false_ne_true,
      List.append_assoc, List.append_assoc, ← List.append_assoc [cell.command],
      ← List.append_assoc (bigEndian 2 _)]
    apply List.take_left'
    simp [size, cellPayloadSize, cellMaxNetworkSize]

omit width in
theorem writeCell_length (cell : Cell) :
    (connectionOrWriteCellToBuf cell conn).length = getCellNetworkSize conn.wideCircIds := by
  have size := cell.payload.property
  rw [writeCell_eq, List.length_append, circIdBytes_length, List.length_append, size]
  unfold getCircIdSize getCellNetworkSize
  cases conn.wideCircIds <;> simp [cellPayloadSize, cellMaxNetworkSize]

omit width in
theorem commandOf_written (circId : UInt32) (command : UInt8) (rest : List UInt8) :
    commandOf conn (circIdBytes circId conn.wideCircIds ++ ([command] ++ rest)) = command := by
  unfold commandOf
  rw [List.getD_eq_getElem?_getD, List.getElem?_append_right (circIdBytes_length _ _).le,
    circIdBytes_length, Nat.sub_self]
  rfl

omit width in
theorem cellUnpack_written (cell : Cell) (fits : CircIdFits cell.circId conn.wideCircIds) :
    cellUnpack (connectionOrWriteCellToBuf cell conn) conn.wideCircIds = cell := by
  have start : (circIdBytes cell.circId conn.wideCircIds ++ [cell.command]).length =
      getCircIdSize conn.wideCircIds + 1 := by
    rw [List.length_append, circIdBytes_length]
    rfl
  have payload : bytesAt (circIdBytes cell.circId conn.wideCircIds ++
      ([cell.command] ++ cell.payload.val)) (getCircIdSize conn.wideCircIds + 1) cellPayloadSize =
        cell.payload.val := by
    have found := bytesAt_of_append (circIdBytes cell.circId conn.wideCircIds ++ [cell.command])
      cell.payload.val [] _ _ start cell.payload.property
    rwa [List.append_nil, List.append_assoc] at found
  have command := @commandOf_written conn cell.circId cell.command cell.payload.val
  unfold commandOf at command
  rw [writeCell_eq]
  unfold cellUnpack
  rw [readCircId_written fits, payload, command, fit_bytes]

omit width in
theorem shorter_of_part {part written : List UInt8} (begun : part <+: written)
    (other : part ≠ written) : part.length < written.length := by
  apply lt_of_le_of_ne begun.length_le
  intro same
  exact other (begun.eq_of_length same)

omit width in
theorem take_part {part written : List UInt8} (begun : part <+: written) :
    part.take part.length = written.take part.length := by
  obtain ⟨rest, rfl⟩ := begun
  rw [List.take_length, List.take_left]

theorem reads_fixed {cell : Cell} (sendable : Sendable conn (.fixed cell)) :
    (linkFramer conn width).Reads (.fixed cell) (connectionOrWriteCellToBuf cell conn) := by
  obtain ⟨low, other, fits⟩ := sendable
  have fixed := fixed_command low other conn.linkProto
  have size := @writeCell_length conn cell
  have command : commandOf conn (connectionOrWriteCellToBuf cell conn) = cell.command := by
    rw [writeCell_eq]
    exact commandOf_written _ _ _
  constructor
  · change processTurn conn _ = _
    unfold processTurn
    rw [fetchVarCellFromBuf_fixed width (by rw [command]; exact fixed)]
    rw [if_neg (by omega), List.take_of_length_le size.le, List.drop_eq_nil_of_le size.le,
      cellUnpack_written cell fits]
  · intro part begun unfinished
    have short := shorter_of_part begun unfinished
    have notVar : fetchVarCellFromBuf part conn.linkProto = .notVar := by
      by_cases header : getVarCellHeaderSize conn.wideCircIds ≤ part.length
      · apply fetchVarCellFromBuf_fixed width
        have same : commandOf conn part = commandOf conn (connectionOrWriteCellToBuf cell conn) := by
          apply getD_congr (take_part begun)
          have more := getVarCellHeaderSize_eq conn.wideCircIds
          omega
        rw [same, command]
        exact fixed
      · exact fetchVarCellFromBuf_short width (Nat.not_le.mp header)
    change processTurn conn part = none
    unfold processTurn
    rw [notVar]
    rw [if_pos (by omega)]

omit width in
theorem payloadLen_toNat (cell : VarCell) :
    (UInt16.ofNat cell.payload.length).toNat = cell.payload.length := by
  have fits := cell.fits
  rw [UInt16.toNat_ofNat']
  omega

omit width in
theorem writeVarCell_eq (cell : VarCell) :
    connectionOrWriteVarCellToBuf cell conn =
      circIdBytes cell.circId conn.wideCircIds ++
        ([cell.command] ++ (be16 (UInt16.ofNat cell.payload.length) ++ cell.payload)) := by
  unfold connectionOrWriteVarCellToBuf varCellPackHeader circIdBytes
  rw [List.append_assoc, List.append_assoc]

omit width in
theorem writeVarCell_length (cell : VarCell) :
    (connectionOrWriteVarCellToBuf cell conn).length =
      getVarCellHeaderSize conn.wideCircIds + cell.payload.length := by
  rw [writeVarCell_eq, List.length_append, circIdBytes_length, List.length_append,
    List.length_append, be16_length, getVarCellHeaderSize_eq, List.length_singleton]
  omega

omit width in
theorem lengthOf_written (cell : VarCell) :
    (lengthOf conn (connectionOrWriteVarCellToBuf cell conn)).toNat = cell.payload.length := by
  have start : (circIdBytes cell.circId conn.wideCircIds ++ [cell.command]).length =
      getCircIdSize conn.wideCircIds + 1 := by
    rw [List.length_append, circIdBytes_length]
    rfl
  unfold lengthOf
  rw [writeVarCell_eq, ← List.append_assoc, bytesAt_of_append _ _ _ _ _ start (be16_length _),
    getUint16_be16]
  exact payloadLen_toNat cell

omit width in
theorem varPayload_written (cell : VarCell) (length : UInt16)
    (same : length.toNat = cell.payload.length) :
    varPayload (connectionOrWriteVarCellToBuf cell conn) (getVarCellHeaderSize conn.wideCircIds)
      length = cell.payload := by
  have start : (circIdBytes cell.circId conn.wideCircIds ++ ([cell.command] ++
      be16 (UInt16.ofNat cell.payload.length))).length =
        getVarCellHeaderSize conn.wideCircIds := by
    rw [List.length_append, circIdBytes_length, List.length_append, be16_length,
      getVarCellHeaderSize_eq]
    rfl
  have found := bytesAt_of_append (circIdBytes cell.circId conn.wideCircIds ++ ([cell.command] ++
      be16 (UInt16.ofNat cell.payload.length))) cell.payload [] _ _ start same.symm
  rw [writeVarCell_eq]
  rwa [List.append_nil, List.append_assoc, List.append_assoc] at found

theorem reads_var {cell : VarCell} (sendable : Sendable conn (.var cell)) :
    (linkFramer conn width).Reads (.var cell) (connectionOrWriteVarCellToBuf cell conn) := by
  obtain ⟨var, fits⟩ := sendable
  have size := @writeVarCell_length conn cell
  have length := @lengthOf_written conn cell
  have command : commandOf conn (connectionOrWriteVarCellToBuf cell conn) = cell.command := by
    rw [writeVarCell_eq]
    exact commandOf_written _ _ _
  have circId : readCircId (connectionOrWriteVarCellToBuf cell conn) conn.wideCircIds =
      cell.circId := by
    rw [writeVarCell_eq]
    exact readCircId_written fits _
  have payload := @varPayload_written conn cell _ length
  constructor
  · change processTurn conn _ = _
    unfold processTurn
    rw [fetchVarCellFromBuf_eq width (by omega), command, if_neg (by rw [var]; decide),
      if_neg (by omega), List.drop_eq_nil_of_le (by omega)]
    simp only [circId, payload]
  · intro part begun unfinished
    have short := shorter_of_part begun unfinished
    have more := getVarCellHeaderSize_eq conn.wideCircIds
    change processTurn conn part = none
    unfold processTurn
    by_cases header : getVarCellHeaderSize conn.wideCircIds ≤ part.length
    · have same := take_part begun
      have command' : commandOf conn part = cell.command :=
        (getD_congr same _ (by omega)).trans command
      have length' : (lengthOf conn part).toNat = cell.payload.length := by
        rw [← length]
        exact congrArg (fun bytes => (getUint16 bytes).toNat) (bytesAt_congr same _ 2 (by omega))
      rw [fetchVarCellFromBuf_eq width header, command', if_neg (by rw [var]; decide),
        if_pos (by omega)]
    · have network := header_lt_network conn.wideCircIds
      rw [fetchVarCellFromBuf_short width (Nat.not_le.mp header)]
      rw [if_pos (by omega)]

theorem reads_sendable {cell : OrCell} (sendable : Sendable conn cell) :
    (linkFramer conn width).Reads cell (writeOrCell conn cell) := by
  cases cell with
  | fixed cell => exact reads_fixed width sendable
  | var cell => exact reads_var width sendable

end Fetch

/-! ## Streams of cells -/

/-- The state of a receiver that has got the beginning of a stream: the cells that are complete have
been handed up, and of the next one there is a part in the inbuf. -/
structure Received (conn : OrLink) (cells : List OrCell) (stream : List UInt8)
    (state : List OrCell × List UInt8) : Prop where
  inOrder : state.1 <+: cells
  bytes : stream = state.1.flatMap (writeOrCell conn) ++ state.2
  part : (state.1 = cells ∧ state.2 = []) ∨
    ∃ cell, cells[state.1.length]? = some cell ∧ state.2 <+: writeOrCell conn cell ∧
      state.2 ≠ writeOrCell conn cell

/-- Whatever the arrivals that a stream of cells is cut into, the cells are handed up as they were
sent, each when it is complete. -/
theorem linkFraming_received (conn : OrLink) (width : WidthMatches conn) (cells : List OrCell)
    (sendable : ∀ cell ∈ cells, Sendable conn cell) (arrivals : List (List UInt8))
    (begun : arrivals.flatten <+: cells.flatMap (writeOrCell conn)) :
    Received conn cells arrivals.flatten (arrivals.foldl (connectionOrReceive conn) ([], [])) ∧
      (arrivals.flatten = cells.flatMap (writeOrCell conn) →
        arrivals.foldl (connectionOrReceive conn) ([], []) = (cells, [])) := by
  have reads : ∀ cell ∈ cells, (linkFramer conn width).Reads cell (writeOrCell conn cell) :=
    fun cell member => reads_sendable width (sendable cell member)
  rw [foldl_connectionOrReceive_eq_receive width]
  constructor
  · obtain ⟨n, holds, bytes⟩ := Framer.receive_prefix reads begun
    have taken := holds.taken
    refine ⟨?_, ?_, ?_⟩
    · rw [taken]
      exact List.take_prefix n cells
    · rw [taken]
      exact bytes
    · rcases holds.part with ⟨all, empty⟩ | ⟨cell, next, part⟩
      · refine Or.inl ⟨?_, empty⟩
        rw [taken, all, List.take_length]
      · refine Or.inr ⟨cell, ?_, part⟩
        have inside : n < cells.length := (List.getElem?_eq_some_iff.mp next).1
        rw [taken, List.length_take_of_le inside.le]
        exact next
  · exact Framer.receive_all reads

/-- A VERSIONS cell and a PADDING cell on a link of version 4. -/
def sampleCells : List OrCell :=
  [.var ⟨cellVersions, 0, [0, 3, 0, 4], by decide⟩, .fixed ⟨0, 0, fit cellPayloadSize []⟩]

/-- Their bytes, cut in the second cell. -/
def sampleArrivals : List (List UInt8) :=
  [(sampleCells.flatMap (writeOrCell ⟨4, true⟩)).take 20,
    (sampleCells.flatMap (writeOrCell ⟨4, true⟩)).drop 20]

theorem linkFraming_received_sample :
    Received ⟨4, true⟩ sampleCells sampleArrivals.flatten
        (sampleArrivals.foldl (connectionOrReceive ⟨4, true⟩) ([], [])) ∧
      (sampleArrivals.flatten = sampleCells.flatMap (writeOrCell ⟨4, true⟩) →
        sampleArrivals.foldl (connectionOrReceive ⟨4, true⟩) ([], []) = (sampleCells, [])) := by
  apply linkFraming_received ⟨4, true⟩ rfl
  · intro cell member
    rcases List.mem_cons.mp member with rfl | member
    · exact ⟨rfl, fun narrow => by cases narrow⟩
    · rw [List.mem_singleton.mp member]
      exact ⟨by decide, by decide, fun narrow => by cases narrow⟩
  · decide +kernel

/-- A cell with the command 128 on a link of version 2, which has no such cells. -/
def unversionedCell : OrCell := .var ⟨128, 0, [], by decide⟩

/-- It has arrived and is not handed up. -/
theorem linkFraming_unversioned :
    WidthMatches ⟨2, false⟩ ∧
      [writeOrCell ⟨2, false⟩ unversionedCell].foldl (connectionOrReceive ⟨2, false⟩) ([], []) ≠
        ([unversionedCell], []) := by
  constructor
  · rfl
  · decide +kernel

end RendezMix.Guarantees
