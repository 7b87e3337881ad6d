import RendezMix.Library.ByteStrings
import RendezMix.Source.Timeval

/-!
# Cells

`cell_t`, `packed_cell_t` and the packing of the first into the second. A
packed cell carries its heap address, so that two copies of one cell are told
apart. A `cell_queue_t` is the list of its cells, head first; the counter `n`
is the length of the list.
-/
namespace RendezMix.Source
open Library.ByteStrings

/-- Heap addresses. An address is never handed out twice. -/
abbrev Ptr := Nat

def cellPayloadSize : Nat := 509

def cellMaxNetworkSize : Nat := 514

def getCellNetworkSize (wideCircIds : Bool) : Nat :=
  if wideCircIds then cellMaxNetworkSize else cellMaxNetworkSize - 2

abbrev CellPayload := { bytes : List UInt8 // bytes.length = cellPayloadSize }

structure Cell where
  circId : UInt32
  command : UInt8
  payload : CellPayload
  deriving DecidableEq

structure PackedCell where
  addr : Ptr
  body : List UInt8
  insertedTimestamp : UInt32
  readyTv : Timeval
  deriving DecidableEq, Repr

abbrev CellQueue := List PackedCell

inductive CellDirection
  | inbound
  | outbound
  deriving DecidableEq, Repr

/-- `cell_pack`: a narrow circuit id leaves the last two of the 514 bytes zero. -/
def cellPack (src : Cell) (wideCircIds : Bool) : List UInt8 :=
  if wideCircIds then
    bigEndian 4 src.circId.toNat ++ [src.command] ++ src.payload.val
  else
    bigEndian 2 src.circId.toNat ++ [src.command] ++ src.payload.val ++ [0, 0]

/-- `packed_cell_copy`, followed by the stamp that
`cell_queue_append_packed_copy` sets; the ready time is still zero. -/
def packedCellCopy (addr : Ptr) (src : Cell) (wideCircIds : Bool) (stamp : UInt32) :
    PackedCell where
  addr := addr
  body := cellPack src wideCircIds
  insertedTimestamp := stamp
  readyTv := ⟨0, 0⟩

end RendezMix.Source

/-!
# Cells on a link

`core/proto/proto_cell.c` and the parts of `core/or/connection_or.c` that write cells to the
outbuf of a connection and take them off the inbuf of its peer. A buffer is the string of its bytes.
What the handlers do with a cell that is handed up is left out.
-/
namespace RendezMix.Source
open Library.ByteStrings

def cellVersions : UInt8 := 7

def varCellMaxHeaderSize : Nat := 7

def minLinkProtoForWideCircIds : Nat := 4

def getCircIdSize (wideCircIds : Bool) : Nat := if wideCircIds then 4 else 2

def getVarCellHeaderSize (wideCircIds : Bool) : Nat :=
  if wideCircIds then varCellMaxHeaderSize else varCellMaxHeaderSize - 2

/-- `var_cell_t`; its `payload_len` is the length of the payload. -/
structure VarCell where
  command : UInt8
  circId : UInt32
  payload : List UInt8
  fits : payload.length < 2 ^ 16
  deriving DecidableEq

inductive OrCell
  | fixed (cell : Cell)
  | var (cell : VarCell)
  deriving DecidableEq

/-- The fields of an `or_connection_t` that the framing depends on. -/
structure OrLink where
  linkProto : Nat
  wideCircIds : Bool

/-! ## Writing -/

def varCellPackHeader (cell : VarCell) (wideCircIds : Bool) : List UInt8 :=
  (if wideCircIds then bigEndian 4 cell.circId.toNat else bigEndian 2 cell.circId.toNat) ++
    [cell.command] ++ be16 (UInt16.ofNat cell.payload.length)

def connectionOrWriteCellToBuf (cell : Cell) (conn : OrLink) : List UInt8 :=
  (cellPack cell conn.wideCircIds).take (getCellNetworkSize conn.wideCircIds)

def connectionOrWriteVarCellToBuf (cell : VarCell) (conn : OrLink) : List UInt8 :=
  varCellPackHeader cell conn.wideCircIds ++ cell.payload

/-- What is written for a cell of either kind. -/
def writeOrCell (conn : OrLink) : OrCell → List UInt8
  | .fixed cell => connectionOrWriteCellToBuf cell conn
  | .var cell => connectionOrWriteVarCellToBuf cell conn

/-! ## Reading -/

def cellCommandIsVarLength (command : UInt8) (linkproto : Nat) : Bool :=
  match linkproto with
  | 1 => false
  | 2 => command == cellVersions
  | _ => command == cellVersions || 128 ≤ command

/-- What `fetch_var_cell_from_buf` returns: 0; 1 without a cell; and 1 with a cell, where what is left
of the buffer is here too. -/
inductive Fetched
  | notVar
  | notYet
  | cell (result : VarCell) (buf : List UInt8)

/-- The circuit id at the beginning of a cell. -/
def readCircId (hdr : List UInt8) (wideCircIds : Bool) : UInt32 :=
  if wideCircIds then getUint32 (bytesAt hdr 0 4) else (getUint16 (bytesAt hdr 0 2)).toUInt32

/-- The payload of a new cell with room for `length` bytes. -/
def varPayload (buf : List UInt8) (headerLen : Nat) (length : UInt16) : List UInt8 :=
  bytesAt buf headerLen length.toNat

theorem varPayload_fits (buf : List UInt8) (headerLen : Nat) (length : UInt16) :
    (varPayload buf headerLen length).length < 2 ^ 16 := by
  have small := length.toNat_lt
  rw [varPayload, bytesAt, List.length_take]
  omega

def fetchVarCellFromBuf (buf : List UInt8) (linkproto : Nat) : Fetched :=
  let wideCircIds : Bool := linkproto ≥ minLinkProtoForWideCircIds
  let circIdLen := getCircIdSize wideCircIds
  let headerLen := getVarCellHeaderSize wideCircIds
  if buf.length < headerLen then .notVar
  else
    let hdr := bytesAt buf 0 headerLen
    let command := hdr.getD circIdLen 0
    if cellCommandIsVarLength command linkproto = false then .notVar
    else
      let length := getUint16 (bytesAt hdr (circIdLen + 1) 2)
      if buf.length < headerLen + length.toNat then .notYet
      else
        .cell ⟨command, readCircId hdr wideCircIds, varPayload buf headerLen length,
          varPayload_fits buf headerLen length⟩ (buf.drop (headerLen + length.toNat))

def cellUnpack (src : List UInt8) (wideCircIds : Bool) : Cell where
  circId := readCircId src wideCircIds
  command := src.getD (getCircIdSize wideCircIds) 0
  payload := fit cellPayloadSize (bytesAt src (getCircIdSize wideCircIds + 1) cellPayloadSize)

/-- One turn of the loop of `connection_or_process_cells_from_inbuf`: the cell that is handed up, and
the inbuf; or the loop ends, since there is no whole cell yet. -/
def processTurn (conn : OrLink) (inbuf : List UInt8) : Option (OrCell × List UInt8) :=
  match fetchVarCellFromBuf inbuf conn.linkProto with
  | .notYet => none
  | .cell result inbuf => some (.var result, inbuf)
  | .notVar =>
    let cellNetworkSize := getCellNetworkSize conn.wideCircIds
    if inbuf.length < cellNetworkSize then none
    else
      some (.fixed (cellUnpack (inbuf.take cellNetworkSize) conn.wideCircIds),
        inbuf.drop cellNetworkSize)

theorem fetchVarCellFromBuf_shorter {buf rest : List UInt8} {linkproto : Nat} {result : VarCell}
    (fetched : fetchVarCellFromBuf buf linkproto = .cell result rest) :
    rest.length < buf.length := by
  unfold fetchVarCellFromBuf at fetched
  dsimp only at fetched
  split at fetched
  · cases fetched
  · next header =>
    split at fetched
    · cases fetched
    · split at fetched
      · cases fetched
      · cases fetched
        have positive : 5 ≤ getVarCellHeaderSize (decide (linkproto ≥ minLinkProtoForWideCircIds)) := by
          unfold getVarCellHeaderSize
          split <;> decide
        rw [List.length_drop]
        omega

theorem processTurn_shorter {conn : OrLink} {inbuf rest : List UInt8} {cell : OrCell}
    (taken : processTurn conn inbuf = some (cell, rest)) : rest.length < inbuf.length := by
  unfold processTurn at taken
  split at taken
  · cases taken
  · next fetched =>
    cases taken
    exact fetchVarCellFromBuf_shorter fetched
  · dsimp only at taken
    split at taken
    · cases taken
    · next whole =>
      cases taken
      have positive : 0 < getCellNetworkSize conn.wideCircIds := by
        unfold getCellNetworkSize
        split <;> decide
      rw [List.length_drop]
      omega

/-- `connection_or_process_cells_from_inbuf`: the cells that are handed up, and the inbuf. -/
def connectionOrProcessCellsFromInbuf (conn : OrLink) (inbuf : List UInt8) :
    List OrCell × List UInt8 :=
  match _taken : processTurn conn inbuf with
  | none => ([], inbuf)
  | some (cell, rest) =>
    let others := connectionOrProcessCellsFromInbuf conn rest
    (cell :: others.1, others.2)
termination_by inbuf.length
decreasing_by exact processTurn_shorter _taken

/-- Bytes arrive, and the cells in the inbuf are processed. -/
def connectionOrReceive (conn : OrLink) (state : List OrCell × List UInt8)
    (arrival : List UInt8) : List OrCell × List UInt8 :=
  let processed := connectionOrProcessCellsFromInbuf conn (state.2 ++ arrival)
  (state.1 ++ processed.1, processed.2)

end RendezMix.Source
