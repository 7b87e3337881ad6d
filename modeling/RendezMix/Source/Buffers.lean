import Mathlib

/-!
# Buffers

`lib/buf/buffers.c` on a machine with 64 bits: a buffer is a list of chunks, linked from
`head` by `next`, with a pointer to the last one. A chunk has its address and its memory;
the bytes that it stores are a part of the memory. A failed assertion, a copy past the end
of a chunk and a loop that never ends are `none`.
-/
namespace RendezMix.Source.Buffers

/-- `BUF_MAX_LEN`, which is `INT_MAX - 1`. -/
def bufMaxLen : Nat := 2 ^ 31 - 2

def sizeTCeiling : Nat := 2 ^ 63 - 1 - 16

/-- `CHUNK_OVERHEAD`: the header and the sentinel. -/
def chunkOverhead : Nat := 36 + 4

def chunkAllocSize (memlen : Nat) : Nat := chunkOverhead + memlen

def chunkSizeWithAlloc (alloc : Nat) : Nat := alloc - chunkOverhead

def minChunkAlloc : Nat := 256
def maxChunkAlloc : Nat := 65536

/-! ## Chunks -/

/-- `chunk_t`; `data` is the offset of the first byte stored in `mem`. -/
structure Chunk where
  addr : Nat
  mem : List UInt8
  data : Nat
  datalen : Nat
  deriving DecidableEq

def Chunk.memlen (chunk : Chunk) : Nat := chunk.mem.length

/-- The bytes stored in a chunk. -/
def Chunk.bytes (chunk : Chunk) : List UInt8 := (chunk.mem.drop chunk.data).take chunk.datalen

/-- `total_bytes_allocated_in_chunks`, and an address that no chunk has had. -/
structure ChunkHeap where
  totalBytesAllocatedInChunks : Nat
  nextAddr : Nat

def chunkRemainingCapacity (chunk : Chunk) : Nat := chunk.memlen - (chunk.data + chunk.datalen)

/-- Copy bytes to `CHUNK_WRITE_PTR` and count them. -/
def chunkWrite (chunk : Chunk) (string : List UInt8) : Option Chunk :=
  let ptr := chunk.data + chunk.datalen
  if ptr + string.length ≤ chunk.memlen then
    some
      { chunk with
        mem := chunk.mem.take ptr ++ string ++ chunk.mem.drop (ptr + string.length)
        datalen := chunk.datalen + string.length }
  else none

/-- Leave out the first bytes of a chunk. -/
def chunkAdvance (chunk : Chunk) (n : Nat) : Chunk :=
  { chunk with data := chunk.data + n, datalen := chunk.datalen - n }

def chunkRepack (chunk : Chunk) : Chunk :=
  { chunk with
    mem := if chunk.datalen ≠ 0 ∧ chunk.data ≠ 0 then chunk.bytes ++ chunk.mem.drop chunk.datalen
      else chunk.mem
    data := 0 }

def bufChunkFreeUnchecked (heap : ChunkHeap) (chunk : Chunk) : Option ChunkHeap :=
  if heap.totalBytesAllocatedInChunks ≥ chunkAllocSize chunk.memlen then
    some { heap with
      totalBytesAllocatedInChunks :=
        heap.totalBytesAllocatedInChunks - chunkAllocSize chunk.memlen }
  else none

/-- `chunk_new_with_alloc_size`; what new memory holds is not read. -/
def chunkNewWithAllocSize (heap : ChunkHeap) (alloc : Nat) : Chunk × ChunkHeap :=
  (⟨heap.nextAddr, List.replicate (chunkSizeWithAlloc alloc) 0, 0, 0⟩,
    ⟨heap.totalBytesAllocatedInChunks + alloc, heap.nextAddr + 1⟩)

/-- `chunk_grow`; whether `realloc` keeps the chunk in its place is not known. -/
def chunkGrow (heap : ChunkHeap) (inPlace : Bool) (chunk : Chunk) (sz : Nat) :
    Option (Chunk × ChunkHeap) :=
  if sz > chunk.memlen then
    some
      ({ chunk with
          addr := if inPlace then chunk.addr else heap.nextAddr
          mem := chunk.mem ++ List.replicate (sz - chunk.memlen) 0 },
        ⟨heap.totalBytesAllocatedInChunks + (chunkAllocSize sz - chunkAllocSize chunk.memlen),
          heap.nextAddr + 1⟩)
  else none

def chunkCopy (heap : ChunkHeap) (chunk : Chunk) : Chunk × ChunkHeap :=
  ({ chunk with addr := heap.nextAddr },
    ⟨heap.totalBytesAllocatedInChunks + chunkAllocSize chunk.memlen, heap.nextAddr + 1⟩)

/-- The loop of `buf_preferred_chunk_size`, after `k` turns. -/
def preferredFrom (target k : Nat) : Nat :=
  if chunkSizeWithAlloc (minChunkAlloc <<< k) < target then preferredFrom target (k + 1)
  else minChunkAlloc <<< k
termination_by target + chunkOverhead - minChunkAlloc <<< k
decreasing_by
  simp only [chunkSizeWithAlloc, minChunkAlloc, Nat.shiftLeft_eq, Nat.pow_succ] at *
  have positive := Nat.two_pow_pos k
  omega

def bufPreferredChunkSize (target : Nat) : Option Nat :=
  if target ≤ sizeTCeiling - chunkOverhead then
    some (if chunkAllocSize target ≥ maxChunkAlloc then chunkAllocSize target
      else preferredFrom target 0)
  else none

/-! ## Lists of chunks -/

/-- `buf_t`, with the chunks from `head` on and the address of the last one. -/
structure Buf where
  chunks : List Chunk
  tail : Option Nat
  datalen : Nat
  defaultChunkSize : Nat

/-- The chunk that a pointer leads to. -/
def chunkAt (chunks : List Chunk) (addr : Nat) : Option Chunk :=
  chunks.find? fun chunk => chunk.addr = addr

/-- Replace the chunk at its address. -/
def storeChunk (chunks : List Chunk) (chunk : Chunk) : List Chunk :=
  chunks.map fun other => if other.addr = chunk.addr then chunk else other

/-- Assign to the field `next` of the chunk at an address. -/
def linkAfter (addr : Nat) (next : List Chunk) : List Chunk → List Chunk
  | [] => []
  | chunk :: rest => if chunk.addr = addr then chunk :: next else chunk :: linkAfter addr next rest

def bufNew : Buf := ⟨[], none, 0, 4096⟩

def bufNewWithCapacity (size : Nat) : Option Buf :=
  (bufPreferredChunkSize size).map fun sz => { bufNew with defaultChunkSize := sz }

/-- The loop of `buf_copy`: the chunks that are copied, and the heap. -/
def copyChunks (heap : ChunkHeap) : List Chunk → List Chunk × ChunkHeap
  | [] => ([], heap)
  | chunk :: rest =>
    let newch := chunkCopy heap chunk
    let others := copyChunks newch.2 rest
    (newch.1 :: others.1, others.2)

def bufCopy (heap : ChunkHeap) (buf : Buf) : Buf × ChunkHeap :=
  let copied := copyChunks heap buf.chunks
  (⟨copied.1, copied.1.getLast?.map Chunk.addr, buf.datalen, buf.defaultChunkSize⟩, copied.2)

def bufAddChunkWithCapacity (heap : ChunkHeap) (buf : Buf) (capacity : Nat) (capped : Bool) :
    Option (Buf × ChunkHeap) :=
  let alloc :=
    if chunkAllocSize capacity < buf.defaultChunkSize then some buf.defaultChunkSize
    else if capped ∧ chunkAllocSize capacity > maxChunkAlloc then some maxChunkAlloc
    else bufPreferredChunkSize capacity
  alloc.bind fun alloc =>
    let new := chunkNewWithAllocSize heap alloc
    match buf.tail with
    | some tail =>
      if buf.chunks = [] then none
      else some ({ buf with
        chunks := linkAfter tail [new.1] buf.chunks
        tail := some new.1.addr }, new.2)
    | none =>
      if buf.chunks = [] then some ({ buf with chunks := [new.1], tail := some new.1.addr }, new.2)
      else none

def bufSlack (buf : Buf) : Nat :=
  match buf.tail.bind (chunkAt buf.chunks) with
  | none => 0
  | some tail => chunkRemainingCapacity tail

/-- The loop of `buf_add`. -/
def bufAddLoop (heap : ChunkHeap) (buf : Buf) (string : List UInt8) : Option (Buf × ChunkHeap) :=
  if string = [] then some (buf, heap)
  else
    let room := if bufSlack buf = 0 then bufAddChunkWithCapacity heap buf string.length true
      else some (buf, heap)
    match room with
    | none => none
    | some (buf, heap) =>
      match buf.tail.bind (chunkAt buf.chunks) with
      | none => none
      | some tail =>
        let copy := min (chunkRemainingCapacity tail) string.length
        -- a turn that copies nothing is followed by the same turn again
        if copy = 0 then none
        else
          match chunkWrite tail (string.take copy) with
          | none => none
          | some tail =>
            bufAddLoop heap
              { buf with chunks := storeChunk buf.chunks tail, datalen := buf.datalen + copy }
              (string.drop copy)
termination_by string.length
decreasing_by
  rw [List.length_drop]
  omega

/-- `buf_add`: the result and the buffer. -/
def bufAdd (heap : ChunkHeap) (buf : Buf) (string : List UInt8) : Option (Int × Buf × ChunkHeap) :=
  if string = [] then some (buf.datalen, buf, heap)
  else if buf.datalen > bufMaxLen then some (-1, buf, heap)
  -- the difference is a `size_t`
  else if buf.datalen > (2 ^ 64 + bufMaxLen - string.length) % 2 ^ 64 then some (-1, buf, heap)
  else
    (bufAddLoop heap buf string).bind fun (buf, heap) =>
      if buf.datalen ≤ bufMaxLen then some (buf.datalen, buf, heap) else none

/-- The loop of `buf_peek`. -/
def peekLoop : List Chunk → Nat → Option (List UInt8)
  | [], stringLen => if stringLen = 0 then some [] else none
  | chunk :: rest, stringLen =>
    if stringLen = 0 then some []
    else
      let copy := if chunk.datalen < stringLen then chunk.datalen else stringLen
      (peekLoop rest (stringLen - copy)).map fun string =>
        (chunk.mem.drop chunk.data).take copy ++ string

def bufPeek (buf : Buf) (stringLen : Nat) : Option (List UInt8) :=
  if stringLen ≤ buf.datalen then peekLoop buf.chunks stringLen else none

/-- The loop of `buf_drain`. -/
def drainLoop (heap : ChunkHeap) (buf : Buf) : List Chunk → Nat → Option (Buf × ChunkHeap)
  | [], n => if n = 0 then some ({ buf with chunks := [] }, heap) else none
  | victim :: rest, n =>
    if n = 0 then some ({ buf with chunks := victim :: rest }, heap)
    else if victim.datalen > n then
      some ({ buf with chunks := chunkAdvance victim n :: rest, datalen := buf.datalen - n }, heap)
    else
      match bufChunkFreeUnchecked heap victim with
      | none => none
      | some heap =>
        drainLoop heap
          { buf with
            datalen := buf.datalen - victim.datalen
            tail := if buf.tail = some victim.addr then none else buf.tail }
          rest (n - victim.datalen)

def bufDrain (heap : ChunkHeap) (buf : Buf) (n : Nat) : Option (Buf × ChunkHeap) :=
  if buf.datalen ≥ n then drainLoop heap buf buf.chunks n else none

/-- `buf_get_bytes`: the result, the bytes and the buffer. -/
def bufGetBytes (heap : ChunkHeap) (buf : Buf) (stringLen : Nat) :
    Option (Int × List UInt8 × Buf × ChunkHeap) :=
  (bufPeek buf stringLen).bind fun string =>
    (bufDrain heap buf stringLen).bind fun (buf, heap) =>
      if buf.datalen ≤ bufMaxLen then some (buf.datalen, string, buf, heap) else none

/-- The loop of `buf_pullup`, where `dest` is the head and the list has the chunks after it. -/
def pullupLoop (heap : ChunkHeap) (buf : Buf) (bytes : Nat) (dest : Chunk) :
    List Chunk → Option (Buf × ChunkHeap)
  | [] =>
    if dest.datalen < bytes then none else some ({ buf with chunks := [dest] }, heap)
  | src :: rest =>
    if dest.datalen < bytes then
      let n := bytes - dest.datalen
      if n ≥ src.datalen then
        match chunkWrite dest src.bytes, bufChunkFreeUnchecked heap src with
        | some dest, some heap =>
          pullupLoop heap
            { buf with tail := if buf.tail = some src.addr then some dest.addr else buf.tail }
            bytes dest rest
        | _, _ => none
      else
        match chunkWrite dest ((src.mem.drop src.data).take n) with
        | none => none
        | some dest =>
          if dest.datalen = bytes then
            some ({ buf with chunks := dest :: chunkAdvance src n :: rest }, heap)
          else none
    else some ({ buf with chunks := dest :: src :: rest }, heap)

/-- Make room for `capacity` bytes in the head; the tail may be the chunk that moves. -/
def pullupRoom (heap : ChunkHeap) (inPlace : Bool) (tail : Option Nat) (head : Chunk)
    (capacity : Nat) : Option (Chunk × Option Nat × ChunkHeap) :=
  if head.memlen ≥ capacity then
    let needed := capacity - head.datalen
    let head := if chunkRemainingCapacity head < needed then chunkRepack head else head
    if chunkRemainingCapacity head ≥ needed then some (head, tail, heap) else none
  else
    (bufPreferredChunkSize capacity).bind fun sz =>
      (chunkGrow heap inPlace (chunkRepack head) (chunkSizeWithAlloc sz)).bind
        fun (newhead, heap) =>
          if newhead.memlen ≥ capacity then
            some (newhead, if tail = some head.addr then some newhead.addr else tail, heap)
          else none

/-- `buf_pullup`: the bytes at `head_out`, of which there are `len_out`, and the buffer. -/
def bufPullup (heap : ChunkHeap) (inPlace : Bool) (buf : Buf) (bytes : Nat) :
    Option (List UInt8 × Buf × ChunkHeap) :=
  match buf.chunks with
  | [] => some ([], buf, heap)
  | head :: rest =>
    let bytes := if buf.datalen < bytes then buf.datalen else bytes
    if head.datalen ≥ bytes then some (head.bytes, buf, heap)
    else
      (pullupRoom heap inPlace buf.tail head bytes).bind fun (dest, tail, heap) =>
        (pullupLoop heap { buf with tail := tail } bytes dest rest).map fun (buf, heap) =>
          ((buf.chunks.head?.map Chunk.bytes).getD [], buf, heap)

/-- The loop of `buf_find_offset_of_char`. -/
def findOffsetLoop (ch : UInt8) (offset : Nat) : List Chunk → Option Nat
  | [] => none
  | chunk :: rest =>
    match chunk.bytes.findIdx? (· = ch) with
    | some cp => some (offset + cp)
    | none => findOffsetLoop ch (offset + chunk.datalen) rest

/-- `buf_find_offset_of_char`; the position -1 is `none`. -/
def bufFindOffsetOfChar (buf : Buf) (ch : UInt8) : Option (Option Nat) :=
  if buf.datalen ≤ bufMaxLen then some (findOffsetLoop ch 0 buf.chunks) else none

def newline : UInt8 := 10

/-- What `buf_get_line` returns and writes out. -/
structure LineRead where
  value : Int
  dataOut : List UInt8
  dataLen : Nat

def bufGetLine (heap : ChunkHeap) (buf : Buf) (dataLen : Nat) :
    Option (LineRead × Buf × ChunkHeap) :=
  if buf.chunks = [] then some (⟨0, [], dataLen⟩, buf, heap)
  else
    match bufFindOffsetOfChar buf newline with
    | none => none
    | some none => some (⟨0, [], dataLen⟩, buf, heap)
    | some (some sz) =>
      if sz + 2 > dataLen then some (⟨-1, [], sz + 2⟩, buf, heap)
      else
        (bufGetBytes heap buf (sz + 1)).map fun (_, string, buf, heap) =>
          (⟨1, string ++ [0], sz + 1⟩, buf, heap)

/-! ## What is checked -/

/-- `buf_assert_ok`: every assertion that it makes holds. -/
def bufAssertOk (buf : Buf) : Bool :=
  match buf.chunks.getLast? with
  | none => buf.tail.isNone && buf.datalen == 0
  | some last =>
    buf.chunks.all (fun chunk => chunk.datalen ≤ chunk.memlen && chunk.datalen ≤ bufMaxLen
      && chunk.data ≤ chunk.memlen && chunk.data + chunk.datalen ≤ chunk.memlen)
    && buf.tail == some last.addr
    && buf.datalen == (buf.chunks.map Chunk.datalen).sum

end RendezMix.Source.Buffers

/-!
# Several buffers

Moving bytes from one buffer to another, and the calls on any number of buffers that share
the count of allocated bytes. A buffer is known by its number; a number that no buffer has
is `none`.
-/
namespace RendezMix.Source.Buffers

/-- All buffers, and the chunks that are allocated and that no buffer leads to any more. -/
structure BufPool where
  bufs : List Buf
  heap : ChunkHeap
  lost : List Chunk

def bufPoolStart : BufPool := ⟨[], ⟨0, 0⟩, []⟩

/-- The loop of `buf_move_to_buf`, which copies through an array of 4096 bytes. -/
def moveLoop (heap : ChunkHeap) (bufs : List Buf) (bufOut bufIn len : Nat) :
    Option (List Buf × ChunkHeap) :=
  if len = 0 then some (bufs, heap)
  else
    let n := if len > 4096 then 4096 else len
    match bufs[bufIn]?.bind fun buf => bufGetBytes heap buf n with
    | none => none
    | some (_, b, buf, heap) =>
      let bufs := bufs.set bufIn buf
      match bufs[bufOut]?.bind fun buf => bufAdd heap buf b with
      | none => none
      | some (_, buf, heap) => moveLoop heap (bufs.set bufOut buf) bufOut bufIn (len - n)
termination_by len
decreasing_by
  split <;> omega

/-- What a call returns, and what it writes out: bytes, and a length. -/
structure BufReturn where
  value : Int
  out : List UInt8
  len : Nat
  deriving DecidableEq

def bufMoveToBuf (pool : BufPool) (bufOut bufIn flushlen : Nat) : Option (BufPool × BufReturn) :=
  match pool.bufs[bufOut]?, pool.bufs[bufIn]? with
  | some out, some inp =>
    if out.datalen > bufMaxLen ∨ flushlen > bufMaxLen then some (pool, ⟨-1, [], flushlen⟩)
    else if out.datalen > bufMaxLen - flushlen then some (pool, ⟨-1, [], flushlen⟩)
    else
      let len := if flushlen > inp.datalen then inp.datalen else flushlen
      if len ≤ bufMaxLen then
        (moveLoop pool.heap pool.bufs bufOut bufIn len).map fun (bufs, heap) =>
          ({ pool with bufs := bufs, heap := heap }, ⟨len, [], flushlen - len⟩)
      else none
  | _, _ => none

/-- `buf_move_all`; a buffer that is moved to itself has its chunks linked in a ring, to which
no pointer is left. -/
def bufMoveAll (pool : BufPool) (bufOut bufIn : Nat) : Option (BufPool × BufReturn) :=
  match pool.bufs[bufOut]?, pool.bufs[bufIn]? with
  | some out, some inp =>
    if inp.datalen = 0 then some (pool, ⟨0, [], 0⟩)
    else if out.datalen > bufMaxLen ∨ inp.datalen > bufMaxLen then some (pool, ⟨0, [], 0⟩)
    else if out.datalen > bufMaxLen - inp.datalen then some (pool, ⟨0, [], 0⟩)
    else
      let emptied : Buf := { inp with chunks := [], tail := none, datalen := 0 }
      if bufOut = bufIn then
        some
          ({ pool with bufs := pool.bufs.set bufIn emptied, lost := pool.lost ++ inp.chunks },
            ⟨inp.datalen, [], 0⟩)
      else
        let linked : Option (List Chunk) :=
          if out.chunks = [] then some inp.chunks
          else out.tail.map fun tail => linkAfter tail inp.chunks out.chunks
        linked.map fun chunks =>
          ({ pool with
              bufs := (pool.bufs.set bufOut
                { out with
                  chunks := chunks
                  tail := inp.tail
                  datalen := out.datalen + inp.datalen }).set bufIn emptied },
            ⟨inp.datalen, [], 0⟩)
  | _, _ => none

/-- A call on some buffers. -/
inductive BufOp
  | new
  | newWithCapacity (size : Nat)
  | copy (buf : Nat)
  | add (buf : Nat) (string : List UInt8)
  | peek (buf stringLen : Nat)
  /-- Whether `realloc` keeps the first chunk in its place is not known. -/
  | pullup (buf bytes : Nat) (inPlace : Bool)
  | getBytes (buf stringLen : Nat)
  | drain (buf n : Nat)
  | moveToBuf (bufOut bufIn flushlen : Nat)
  | moveAll (bufOut bufIn : Nat)
  | getLine (buf dataLen : Nat)

/-- The call on one buffer, which is stored again. -/
def onBuf (pool : BufPool) (number : Nat)
    (call : ChunkHeap → Buf → Option (BufReturn × Buf × ChunkHeap)) : Option (BufPool × BufReturn) :=
  (pool.bufs[number]?.bind (call pool.heap)).map fun (result, buf, heap) =>
    ({ pool with bufs := pool.bufs.set number buf, heap := heap }, result)

def bufStep (pool : BufPool) : BufOp → Option (BufPool × BufReturn)
  | .new => some ({ pool with bufs := pool.bufs ++ [bufNew] }, ⟨0, [], 0⟩)
  | .newWithCapacity size =>
    (bufNewWithCapacity size).map fun buf =>
      ({ pool with bufs := pool.bufs ++ [buf] }, ⟨0, [], 0⟩)
  | .copy number =>
    pool.bufs[number]?.map fun buf =>
      let copied := bufCopy pool.heap buf
      ({ pool with bufs := pool.bufs ++ [copied.1], heap := copied.2 }, ⟨0, [], 0⟩)
  | .add number string =>
    onBuf pool number fun heap buf =>
      (bufAdd heap buf string).map fun (value, buf, heap) => (⟨value, [], 0⟩, buf, heap)
  | .peek number stringLen =>
    onBuf pool number fun heap buf =>
      (bufPeek buf stringLen).map fun string => (⟨0, string, 0⟩, buf, heap)
  | .pullup number bytes inPlace =>
    onBuf pool number fun heap buf =>
      (bufPullup heap inPlace buf bytes).map fun (out, buf, heap) =>
        (⟨0, out, out.length⟩, buf, heap)
  | .getBytes number stringLen =>
    onBuf pool number fun heap buf =>
      (bufGetBytes heap buf stringLen).map fun (value, string, buf, heap) =>
        (⟨value, string, 0⟩, buf, heap)
  | .drain number n =>
    onBuf pool number fun heap buf =>
      (bufDrain heap buf n).map fun (buf, heap) => (⟨0, [], 0⟩, buf, heap)
  | .moveToBuf bufOut bufIn flushlen => bufMoveToBuf pool bufOut bufIn flushlen
  | .moveAll bufOut bufIn => bufMoveAll pool bufOut bufIn
  | .getLine number dataLen =>
    onBuf pool number fun heap buf =>
      (bufGetLine heap buf dataLen).map fun (line, buf, heap) =>
        (⟨line.value, line.dataOut, line.dataLen⟩, buf, heap)

/-- The calls one after the other, with what they return. -/
def bufRun (pool : BufPool) (ops : List BufOp) : Option (BufPool × List BufReturn) :=
  ops.foldlM (fun (s : BufPool × List BufReturn) op =>
    (bufStep s.1 op).map fun (pool, result) => (pool, s.2 ++ [result])) (pool, [])

end RendezMix.Source.Buffers
