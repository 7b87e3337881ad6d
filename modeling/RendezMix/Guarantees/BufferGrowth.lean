import RendezMix.Guarantees.BufferContents
import RendezMix.Library.Pointwise

/-!
# Adding, copying and pulling up bytes

Bytes are added to the last chunk while it has room, and then to new chunks; a copy has
chunks of its own; bytes that are pulled up go to the first chunk, which may have to grow.
-/
namespace RendezMix.Guarantees.Buffers
open Library Source.Buffers

variable {heap heap' : ChunkHeap} {buf buf' : Buf}

/-! ## Adding -/

/-- A buffer whose last chunk is ready to be written to, and may be empty. -/
structure Ready (heap : ChunkHeap) (buf : Buf) (front : List Chunk) (last : Chunk) : Prop where
  chunks : buf.chunks = front ++ [last]
  fits : ∀ chunk ∈ front ++ [last], ChunkFits chunk
  full : ∀ chunk ∈ front, 0 < chunk.datalen
  tail : buf.tail = some last.addr
  datalen : buf.datalen = (content buf).length
  distinct : ((front ++ [last]).map Chunk.addr).Nodup
  used : ∀ chunk ∈ front ++ [last], chunk.addr < heap.nextAddr
  counted : allocated (front ++ [last]) ≤ heap.totalBytesAllocatedInChunks

variable {front rest : List Chunk} {last : Chunk}

section

variable {string : List UInt8} {chunk chunk' : Chunk}

theorem Owned.ready (owned : Owned heap buf) (split : buf.chunks = front ++ [last]) :
    Ready heap buf front last := by
  have fits := owned.fits
  have full := owned.full
  have distinct := owned.distinct
  have used := owned.used
  have counted := owned.counted
  have tail := owned.tail
  rw [split] at fits full distinct used counted tail
  refine ⟨split, fits, ?_, ?_, owned.datalen, distinct, used, counted⟩
  · exact fun chunk member => full chunk (List.mem_append_left _ member)
  · rw [tail, List.getLast?_concat]
    rfl

section

variable (ready : Ready heap buf front last)

include ready

theorem Ready.tailChunk : buf.tail.bind (chunkAt buf.chunks) = some last := by
  rw [ready.tail, Option.bind_some, ready.chunks, chunkAt_last ready.distinct]

/-- Bytes that the last chunk has room for. -/
theorem Ready.write (some_ : string ≠ []) (room : string.length ≤ chunkRemainingCapacity last) :
    ∃ last', chunkWrite last string = some last'
      ∧ Moves heap buf heap
        { buf with
          chunks := storeChunk buf.chunks last'
          datalen := buf.datalen + string.length }
      ∧ (storeChunk buf.chunks last').flatMap Chunk.bytes = content buf ++ string := by
  have positive : 0 < string.length := List.length_pos_iff.mpr some_
  have lastFits : ChunkFits last := ready.fits last (by simp)
  have lastUsed : last.addr < heap.nextAddr := ready.used last (by simp)
  have enough : last.data + last.datalen + string.length ≤ last.memlen := by
    unfold chunkRemainingCapacity at room
    omega
  obtain ⟨last', written, place, data, datalen, bytes⟩ := chunkWrite_spec enough
  have stored : storeChunk buf.chunks last' = front ++ [last'] := by
    rw [ready.chunks, storeChunk_last ready.distinct place.addr]
  have content_ : content buf = front.flatMap Chunk.bytes ++ last.bytes := by
    rw [content, ready.chunks, List.flatMap_append, List.flatMap_singleton]
  have after : (front ++ [last']).flatMap Chunk.bytes = content buf ++ string := by
    rw [List.flatMap_append, List.flatMap_singleton, bytes, content_, List.append_assoc]
  have memory : allocated (front ++ [last']) = allocated (front ++ [last]) := by
    rw [allocated_append, allocated_append, allocated_cons, allocated_cons, place.memlen]
  refine ⟨last', written, ?_, by rw [stored, after]⟩
  rw [stored]
  refine ⟨⟨?_, Nat.le_refl _, ?_⟩, ⟨?_, ?_, ?_, ?_⟩, ?_, ?_, ?_⟩
  · intro chunk member
    left
    rw [ready.chunks]
    rcases List.mem_append.mp member with inside | new
    · exact List.mem_map_of_mem (List.mem_append_left _ inside)
    · rw [List.mem_singleton.mp new, place.addr]
      exact List.mem_map_of_mem (by simp)
  · simp only
    rw [memory, ready.chunks]
  · intro chunk member
    rcases List.mem_append.mp member with inside | new
    · exact ready.fits chunk (List.mem_append_left _ inside)
    · rw [List.mem_singleton.mp new]
      unfold ChunkFits
      rw [place.memlen, data, datalen]
      omega
  · intro chunk member
    rcases List.mem_append.mp member with inside | new
    · exact ready.full chunk inside
    · rw [List.mem_singleton.mp new, datalen]
      omega
  · simp only
    rw [ready.tail, List.getLast?_concat, Option.map_some, place.addr]
  · rw [content]
    simp only
    rw [after, List.length_append, ready.datalen]
  · simp only
    have distinct := ready.distinct
    rw [List.map_append, List.map_singleton] at distinct ⊢
    rwa [place.addr]
  · intro chunk member
    rcases List.mem_append.mp member with inside | new
    · exact ready.used chunk (List.mem_append_left _ inside)
    · rw [List.mem_singleton.mp new, place.addr]
      exact lastUsed
  · simp only
    rw [memory]
    exact ready.counted

end

theorem chunkNew_memlen (heap : ChunkHeap) (alloc : Nat) :
    (chunkNewWithAllocSize heap alloc).1.memlen = chunkSizeWithAlloc alloc := List.length_replicate

/-- A new chunk at the end of a buffer, in which there is room. -/
theorem bufAddChunkWithCapacity_spec (owned : Owned heap buf) {capacity : Nat}
    (positive : 0 < capacity) :
    ∃ buf' heap' last, bufAddChunkWithCapacity heap buf capacity true = some (buf', heap')
      ∧ Ready heap' buf' buf.chunks last ∧ Takes heap buf heap' buf'
      ∧ content buf' = content buf ∧ 0 < chunkRemainingCapacity last := by
  have size : ∃ alloc, (if chunkAllocSize capacity < buf.defaultChunkSize then
      some buf.defaultChunkSize
      else if true = true ∧ chunkAllocSize capacity > maxChunkAlloc then some maxChunkAlloc
      else bufPreferredChunkSize capacity) = some alloc ∧ chunkOverhead < alloc := by
    unfold chunkAllocSize
    split
    next less => exact ⟨_, rfl, by omega⟩
    next =>
      split
      next => exact ⟨_, rfl, by decide⟩
      next fits =>
        rw [not_and] at fits
        have small := fits rfl
        unfold maxChunkAlloc at small
        have below : capacity ≤ sizeTCeiling - chunkOverhead := by
          simp only [sizeTCeiling, chunkOverhead] at small ⊢
          omega
        obtain ⟨sz, found, enough, _⟩ := bufPreferredChunkSize_spec below
        unfold chunkSizeWithAlloc at enough
        exact ⟨sz, found, by omega⟩
  obtain ⟨alloc, chosen, excess⟩ := size
  have memlen := chunkNew_memlen heap alloc
  have room : chunkAllocSize (chunkNewWithAllocSize heap alloc).1.memlen = alloc := by
    rw [memlen, chunkAllocSize, chunkSizeWithAlloc]
    omega
  have empty : (chunkNewWithAllocSize heap alloc).1.bytes = [] := rfl
  have capacity_ : 0 < chunkRemainingCapacity (chunkNewWithAllocSize heap alloc).1 := by
    rw [chunkRemainingCapacity, memlen, chunkSizeWithAlloc]
    simp only [chunkNewWithAllocSize]
    omega
  have addr : (chunkNewWithAllocSize heap alloc).1.addr = heap.nextAddr := rfl
  have next : (chunkNewWithAllocSize heap alloc).2.nextAddr = heap.nextAddr + 1 := rfl
  have total : (chunkNewWithAllocSize heap alloc).2.totalBytesAllocatedInChunks
      = heap.totalBytesAllocatedInChunks + alloc := rfl
  have added : bufAddChunkWithCapacity heap buf capacity true
      = some ({ buf with
          chunks := buf.chunks ++ [(chunkNewWithAllocSize heap alloc).1]
          tail := some (chunkNewWithAllocSize heap alloc).1.addr },
        (chunkNewWithAllocSize heap alloc).2) := by
    unfold bufAddChunkWithCapacity
    rw [chosen, Option.bind_some]
    rcases List.eq_nil_or_concat' buf.chunks with none | ⟨front, last, split⟩
    · have tail := owned.tail
      rw [none] at tail
      rw [tail, none]
      rfl
    · have ready := owned.ready split
      have distinct := owned.distinct
      rw [split] at distinct
      rw [ready.tail, split]
      simp only
      rw [if_neg (by simp), linkAfter_last _ distinct, List.append_assoc]
      rfl
  generalize (chunkNewWithAllocSize heap alloc).1 = last at *
  generalize (chunkNewWithAllocSize heap alloc).2 = heap' at *
  have counted := owned.counted
  have same : content { buf with chunks := buf.chunks ++ [last], tail := some last.addr }
      = content buf := by
    rw [content, content]
    simp only
    rw [List.flatMap_append, List.flatMap_singleton, empty, List.append_nil]
  refine ⟨_, heap', last, added, ⟨rfl, ?_, owned.full, rfl, ?_, ?_, ?_, ?_⟩, ⟨?_, ?_, ?_⟩, same,
    capacity_⟩
  · intro chunk member
    rcases List.mem_append.mp member with inside | new
    · exact owned.fits chunk inside
    · rw [List.mem_singleton.mp new]
      unfold chunkRemainingCapacity at capacity_
      unfold ChunkFits
      omega
  · rw [same]
    exact owned.datalen
  · rw [List.map_append, List.map_singleton, List.nodup_append]
    refine ⟨owned.distinct, List.nodup_singleton _, ?_⟩
    intro a inside b new same
    obtain ⟨chunk, member, of⟩ := List.mem_map.mp inside
    have used := owned.used chunk member
    rw [List.mem_singleton] at new
    omega
  · intro chunk member
    rcases List.mem_append.mp member with inside | new
    · have used := owned.used chunk inside
      omega
    · rw [List.mem_singleton.mp new]
      omega
  · rw [allocated_append, allocated_cons, allocated_nil]
    omega
  · intro chunk member
    rcases List.mem_append.mp member with inside | new
    · exact .inl (List.mem_map_of_mem inside)
    · rw [List.mem_singleton.mp new, addr]
      exact .inr (Nat.le_refl _)
  · omega
  · simp only [allocated_append, allocated_cons, allocated_nil]
    omega

/-- One turn of the loop: the tail is a chunk with room, an old or a new one. -/
theorem bufAddLoop_turn (owned : Owned heap buf) (some_ : string ≠ []) :
    ∃ copy buf' heap', 0 < copy ∧ copy ≤ string.length
      ∧ bufAddLoop heap buf string = bufAddLoop heap' buf' (string.drop copy)
      ∧ Moves heap buf heap' buf' ∧ content buf' = content buf ++ string.take copy := by
  have positive : 0 < string.length := List.length_pos_iff.mpr some_
  -- the buffer before bytes are copied
  have room : ∃ buf1 heap1 front last,
      (if bufSlack buf = 0 then bufAddChunkWithCapacity heap buf string.length true
        else some (buf, heap)) = some (buf1, heap1)
      ∧ Ready heap1 buf1 front last ∧ Takes heap buf heap1 buf1 ∧ content buf1 = content buf
      ∧ 0 < chunkRemainingCapacity last := by
    by_cases full : bufSlack buf = 0
    · rw [if_pos full]
      obtain ⟨buf1, heap1, last, added, ready, takes, same, capacity⟩ :=
        bufAddChunkWithCapacity_spec owned positive
      exact ⟨buf1, heap1, _, last, added, ready, takes, same, capacity⟩
    · rw [if_neg full]
      rcases List.eq_nil_or_concat' buf.chunks with none | ⟨front, last, split⟩
      · have tail := owned.tail
        rw [none] at tail
        exact absurd (by rw [bufSlack, tail]; rfl) full
      · have ready := owned.ready split
        rw [bufSlack, ready.tailChunk] at full
        exact ⟨buf, heap, front, last, rfl, ready, (Moves.refl owned).toTakes, rfl,
          Nat.pos_of_ne_zero full⟩
  obtain ⟨buf1, heap1, front, last, made, ready, takes, same, capacity⟩ := room
  have copied : (string.take (min (chunkRemainingCapacity last) string.length)).length
      = min (chunkRemainingCapacity last) string.length := by
    rw [List.length_take]
    omega
  have more : string.take (min (chunkRemainingCapacity last) string.length) ≠ [] := by
    rw [← List.length_pos_iff, copied]
    omega
  obtain ⟨last', written, moves, after⟩ := ready.write more (by rw [copied]; omega)
  rw [copied] at moves
  refine ⟨min (chunkRemainingCapacity last) string.length, _, heap1, by omega, by omega, ?_,
    ⟨takes.trans moves.toTakes, moves.owned⟩, by rw [content, after, same]⟩
  rw [bufAddLoop, if_neg some_]
  simp only [made, ready.tailChunk]
  rw [if_neg (by omega), written]

theorem bufAddLoop_spec (heap : ChunkHeap) (buf : Buf) (string : List UInt8)
    (owned : Owned heap buf) :
    ∃ buf' heap', bufAddLoop heap buf string = some (buf', heap') ∧ Moves heap buf heap' buf'
      ∧ content buf' = content buf ++ string := by
  induction length : string.length using Nat.strongRecOn generalizing heap buf string with
  | _ n ih =>
    by_cases empty : string = []
    · rw [empty, bufAddLoop, if_pos rfl]
      exact ⟨buf, heap, rfl, Moves.refl owned, (List.append_nil _).symm⟩
    · obtain ⟨copy, buf1, heap1, positive, most, turn, moves, after⟩ := bufAddLoop_turn owned empty
      obtain ⟨buf', heap', run, others, final⟩ := ih (string.length - copy) (by omega) heap1 buf1
        (string.drop copy) moves.owned List.length_drop
      refine ⟨buf', heap', by rw [turn, run], moves.trans others, ?_⟩
      rw [final, after, List.append_assoc, List.take_append_drop]

theorem bufAdd_spec (owned : Owned heap buf) (string : List UInt8)
    (room : (content buf).length + string.length ≤ bufMaxLen) :
    ∃ buf' heap', bufAdd heap buf string
        = some ((((content buf).length + string.length : Nat) : Int), buf', heap')
      ∧ Moves heap buf heap' buf' ∧ content buf' = content buf ++ string := by
  have datalen := owned.datalen
  rw [bufAdd]
  by_cases empty : string = []
  · rw [if_pos empty, empty]
    refine ⟨buf, heap, ?_, Moves.refl owned, (List.append_nil _).symm⟩
    rw [datalen, List.length_nil, Nat.add_zero]
  · rw [if_neg empty]
    have wrap : (2 ^ 64 + bufMaxLen - string.length) % 2 ^ 64 = bufMaxLen - string.length := by
      have small : bufMaxLen < 2 ^ 64 := by decide
      omega
    obtain ⟨buf', heap', run, moves, after⟩ := bufAddLoop_spec heap buf string owned
    have length : buf'.datalen = (content buf).length + string.length := by
      rw [moves.owned.datalen, after, List.length_append]
    refine ⟨buf', heap', ?_, moves, after⟩
    rw [if_neg (by omega), wrap, if_neg (by omega), run, Option.bind_some]
    simp only [length]
    exact if_pos room

/-! ## Copying -/

/-- A chunk and its copy, which has an address of its own. -/
structure CopyOf (chunk chunk' : Chunk) : Prop where
  mem : chunk'.mem = chunk.mem
  data : chunk'.data = chunk.data
  datalen : chunk'.datalen = chunk.datalen

section

variable (copy : CopyOf chunk chunk')

include copy

theorem CopyOf.bytes : chunk'.bytes = chunk.bytes := by
  rw [Chunk.bytes, Chunk.bytes, copy.mem, copy.data, copy.datalen]

theorem CopyOf.memlen : chunk'.memlen = chunk.memlen := by
  rw [Chunk.memlen, Chunk.memlen, copy.mem]

end

end

section

variable (inPlace : Bool)

theorem copyChunks_spec (chunks : List Chunk) (heap : ChunkHeap) :
    List.Forall₂ CopyOf chunks (copyChunks heap chunks).1
      ∧ (copyChunks heap chunks).1.map Chunk.addr = List.range' heap.nextAddr chunks.length
      ∧ (copyChunks heap chunks).2.nextAddr = heap.nextAddr + chunks.length
      ∧ (copyChunks heap chunks).2.totalBytesAllocatedInChunks
        = heap.totalBytesAllocatedInChunks + allocated chunks := by
  induction chunks generalizing heap with
  | nil => exact ⟨List.Forall₂.nil, rfl, rfl, rfl⟩
  | cons chunk chunks ih =>
    obtain ⟨copies, addrs, next, total⟩ := ih (chunkCopy heap chunk).2
    refine ⟨?_, ?_, ?_, ?_⟩
    · rw [copyChunks]
      exact List.Forall₂.cons ⟨rfl, rfl, rfl⟩ copies
    · rw [copyChunks, List.map_cons, addrs, List.length_cons, List.range'_succ]
      rfl
    · rw [copyChunks, next, List.length_cons, chunkCopy]
      simp only
      omega
    · rw [copyChunks, total, allocated_cons, chunkCopy]
      simp only
      omega

/-- The copy of a buffer has the same bytes in chunks of its own. -/
theorem bufCopy_spec (owned : Owned heap buf) :
    Owned (bufCopy heap buf).2 (bufCopy heap buf).1
      ∧ content (bufCopy heap buf).1 = content buf
      ∧ (∀ chunk ∈ (bufCopy heap buf).1.chunks, heap.nextAddr ≤ chunk.addr)
      ∧ heap.nextAddr ≤ (bufCopy heap buf).2.nextAddr
      ∧ (bufCopy heap buf).2.totalBytesAllocatedInChunks
        = heap.totalBytesAllocatedInChunks + allocated (bufCopy heap buf).1.chunks := by
  obtain ⟨copies, addrs, next, total⟩ := copyChunks_spec buf.chunks heap
  have same : content (bufCopy heap buf).1 = content buf := by
    have lists : (copyChunks heap buf.chunks).1.map Chunk.bytes = buf.chunks.map Chunk.bytes :=
      Pointwise.map_key (fun _ _ copy => CopyOf.bytes copy) copies
    exact congrArg List.flatten lists
  have memory : allocated (copyChunks heap buf.chunks).1 = allocated buf.chunks := by
    have sizes : (copyChunks heap buf.chunks).1.map (fun chunk => chunkAllocSize chunk.memlen)
        = buf.chunks.map fun chunk => chunkAllocSize chunk.memlen :=
      Pointwise.map_key (fun _ _ copy => congrArg chunkAllocSize (CopyOf.memlen copy)) copies
    exact congrArg List.sum sizes
  have addr : ∀ chunk ∈ (copyChunks heap buf.chunks).1,
      heap.nextAddr ≤ chunk.addr ∧ chunk.addr < heap.nextAddr + buf.chunks.length := by
    intro chunk member
    have inside : chunk.addr ∈ List.range' heap.nextAddr buf.chunks.length := by
      rw [← addrs]
      exact List.mem_map_of_mem member
    rw [List.mem_range'_1] at inside
    exact inside
  refine ⟨⟨⟨?_, ?_, rfl, ?_⟩, ?_, ?_, ?_⟩, same, fun chunk member => (addr chunk member).1, ?_, ?_⟩
  · intro chunk' member
    obtain ⟨chunk, inside, copy⟩ := Pointwise.before copies member
    have fits := owned.fits chunk inside
    unfold ChunkFits at fits ⊢
    rwa [copy.data, copy.datalen, copy.memlen]
  · intro chunk' member
    obtain ⟨chunk, inside, copy⟩ := Pointwise.before copies member
    rw [copy.datalen]
    exact owned.full chunk inside
  · rw [same]
    exact owned.datalen
  · have distinct : (List.range' heap.nextAddr buf.chunks.length).Nodup := List.nodup_range'
    rwa [← addrs] at distinct
  · intro chunk member
    rw [bufCopy]
    simp only
    rw [next]
    exact (addr chunk member).2
  · rw [bufCopy]
    simp only
    omega
  · rw [bufCopy]
    simp only
    omega
  · rw [bufCopy]
    simp only
    omega

/-! ## Pulling up -/

/-- Room for `capacity` bytes from the first one stored on. -/
theorem pullupRoom_spec {head : Chunk} (capacity : Nat)
    (owned : Owned heap { buf with chunks := head :: rest }) (less : head.datalen < capacity)
    (small : capacity ≤ bufMaxLen) :
    ∃ dest tail heap', pullupRoom heap inPlace buf.tail head capacity = some (dest, tail, heap')
      ∧ Moves heap { buf with chunks := head :: rest } heap'
        { buf with chunks := dest :: rest, tail := tail }
      ∧ dest.bytes = head.bytes ∧ dest.datalen = head.datalen
      ∧ dest.data + capacity ≤ dest.memlen := by
  have fits : ChunkFits head := owned.fits head List.mem_cons_self
  have full : 0 < head.datalen := owned.full head List.mem_cons_self
  obtain ⟨packed, front, count, bytes⟩ := chunkRepack_spec fits
  have packedFits : ChunkFits (chunkRepack head) := by
    unfold ChunkFits at fits ⊢
    rw [packed.memlen, front, count]
    omega
  unfold pullupRoom
  by_cases large : head.memlen ≥ capacity
  · rw [if_pos large]
    by_cases tight : chunkRemainingCapacity head < capacity - head.datalen
    · simp only [if_pos tight]
      have enough : chunkRemainingCapacity (chunkRepack head) ≥ capacity - head.datalen := by
        rw [chunkRemainingCapacity, packed.memlen, front, count]
        omega
      rw [if_pos enough]
      refine ⟨_, _, _, rfl, ?_, bytes, count, by rw [front, packed.memlen]; omega⟩
      apply owned.replace_front packedFits (by omega) (.inl packed.addr) (Nat.le_refl _)
      · rw [packed.memlen]
      · rw [packed.addr]
        split
        next same => exact same
        next => rfl
      · rw [count]
    · simp only [if_neg tight]
      rw [if_pos (by omega)]
      refine ⟨_, _, _, rfl, Moves.refl owned, rfl, rfl, ?_⟩
      unfold chunkRemainingCapacity at tight
      omega
  · rw [if_neg large]
    have below : capacity ≤ sizeTCeiling - chunkOverhead := by
      simp only [bufMaxLen, sizeTCeiling, chunkOverhead] at small ⊢
      omega
    obtain ⟨sz, found, enough, _⟩ := bufPreferredChunkSize_spec below
    have more : chunkSizeWithAlloc sz > (chunkRepack head).memlen := by
      rw [packed.memlen]
      omega
    obtain ⟨dest, heap', grown, memlen, data, datalen, stored, addr, next, total⟩ :=
      chunkGrow_spec heap inPlace packedFits more
    rw [found, Option.bind_some, grown, Option.bind_some]
    simp only
    rw [if_pos (by omega)]
    refine ⟨dest, _, heap', rfl, ?_, by rw [stored, bytes], by rw [datalen, count], by omega⟩
    apply owned.replace_front
    · unfold ChunkFits at fits ⊢
      omega
    · omega
    · rw [← packed.addr]
      exact addr.imp_right fun new => ⟨new, by omega⟩
    · omega
    · rw [← packed.memlen]
      exact total
    · rfl
    · rw [datalen, count]

/-- The second chunk is copied into the first one and given back. -/
theorem Owned.merge_front {dest src dest' : Chunk}
    (owned : Owned heap { buf with chunks := dest :: src :: rest }) (place : SamePlace dest dest')
    (datalen : dest'.datalen = dest.datalen + src.datalen)
    (bytes : dest'.bytes = dest.bytes ++ src.bytes) (fits : ChunkFits dest') :
    ∃ heap', bufChunkFreeUnchecked heap src = some heap'
      ∧ Moves heap { buf with chunks := dest :: src :: rest } heap'
        { buf with
          chunks := dest' :: rest
          tail := if buf.tail = some src.addr then some dest'.addr else buf.tail } := by
  have counted := owned.counted
  have distinct := owned.distinct
  have total := owned.datalen
  rw [allocated_cons, allocated_cons] at counted
  rw [List.map_cons, List.map_cons, List.nodup_cons, List.nodup_cons, List.mem_cons, not_or] at distinct
  have others : ∀ chunk ∈ rest, chunk ∈ dest :: src :: rest := fun chunk member =>
    List.mem_cons_of_mem _ (List.mem_cons_of_mem _ member)
  refine ⟨_, if_pos (by omega), ⟨?_, Nat.le_refl _, ?_⟩, ⟨?_, ?_, ?_, ?_⟩, ?_, ?_, ?_⟩
  · rw [List.forall_mem_cons]
    refine ⟨.inl ?_, fun chunk member => .inl (List.mem_map_of_mem (others chunk member))⟩
    rw [place.addr]
    exact List.mem_cons_self
  · simp only [allocated_cons, place.memlen]
    omega
  · rw [List.forall_mem_cons]
    exact ⟨fits, fun chunk member => owned.fits chunk (others chunk member)⟩
  · rw [List.forall_mem_cons]
    have full := owned.full dest List.mem_cons_self
    exact ⟨by omega, fun chunk member => owned.full chunk (others chunk member)⟩
  · have tail := owned.tail_rest.1
    simp only
    cases rest with
    | nil =>
      rw [List.getLast?_singleton, Option.map_some] at tail
      rw [if_pos tail]
      rfl
    | cons third rest =>
      rw [List.getLast?_cons_cons] at tail ⊢
      rw [tail]
      apply if_neg
      intro same
      obtain ⟨last, found, addr⟩ := Option.map_eq_some_iff.mp same
      apply distinct.2.1
      rw [← addr]
      exact List.mem_map_of_mem (List.mem_of_getLast? found)
  · rw [content_cons rfl] at total ⊢
    rw [bytes]
    simp only [List.flatMap_cons, List.append_assoc] at total ⊢
    exact total
  · simp only
    rw [List.map_cons, List.nodup_cons, place.addr]
    exact ⟨distinct.1.2, distinct.2.2⟩
  · rw [List.forall_mem_cons, place.addr]
    exact ⟨owned.used dest List.mem_cons_self, fun chunk member => owned.used chunk (others chunk member)⟩
  · simp only [allocated_cons, place.memlen]
    omega

/-- A part of the second chunk is copied into the first one. -/
theorem Owned.share_front {dest src dest' : Chunk} {n : Nat}
    (owned : Owned heap { buf with chunks := dest :: src :: rest }) (place : SamePlace dest dest')
    (less : n < src.datalen) (datalen : dest'.datalen = dest.datalen + n)
    (bytes : dest'.bytes = dest.bytes ++ src.bytes.take n) (fits : ChunkFits dest') :
    Moves heap { buf with chunks := dest :: src :: rest } heap
        { buf with chunks := dest' :: chunkAdvance src n :: rest }
      ∧ content { buf with chunks := dest' :: chunkAdvance src n :: rest }
        = content { buf with chunks := dest :: src :: rest } := by
  have srcMember : src ∈ dest :: src :: rest := List.mem_cons_of_mem _ List.mem_cons_self
  have srcFits : ChunkFits src := owned.fits src srcMember
  have counted := owned.counted
  have others : ∀ chunk ∈ rest, chunk ∈ dest :: src :: rest := fun chunk member =>
    List.mem_cons_of_mem _ (List.mem_cons_of_mem _ member)
  have same : content { buf with chunks := dest' :: chunkAdvance src n :: rest }
      = content { buf with chunks := dest :: src :: rest } := by
    rw [content, content]
    simp only [List.flatMap_cons]
    rw [bytes, chunkAdvance_bytes, List.append_assoc, ← List.append_assoc (src.bytes.take n),
      List.take_append_drop]
  have memory : allocated (dest' :: chunkAdvance src n :: rest) = allocated (dest :: src :: rest) := by
    simp only [allocated_cons, place.memlen]
    rfl
  have addrs : (dest' :: chunkAdvance src n :: rest).map Chunk.addr
      = (dest :: src :: rest).map Chunk.addr := by
    simp only [List.map_cons, place.addr]
    rfl
  refine ⟨⟨⟨?_, Nat.le_refl _, ?_⟩, ⟨?_, ?_, ?_, ?_⟩, ?_, ?_, ?_⟩, same⟩
  · intro chunk member
    left
    have inside := List.mem_map_of_mem (f := Chunk.addr) member
    simp only at inside ⊢
    rwa [addrs] at inside
  · simp only [memory]
  · rw [List.forall_mem_cons, List.forall_mem_cons]
    exact ⟨fits, chunkAdvance_fits srcFits (by omega),
      fun chunk member => owned.fits chunk (others chunk member)⟩
  · rw [List.forall_mem_cons, List.forall_mem_cons]
    have full := owned.full dest List.mem_cons_self
    refine ⟨by omega, ?_, fun chunk member => owned.full chunk (others chunk member)⟩
    simp only [chunkAdvance]
    omega
  · have tail := owned.tail
    simp only at tail ⊢
    rw [tail, ← List.getLast?_map, ← List.getLast?_map, addrs]
  · rw [same]
    exact owned.datalen
  · simp only
    rw [addrs]
    exact owned.distinct
  · rw [List.forall_mem_cons, List.forall_mem_cons, place.addr]
    exact ⟨owned.used dest List.mem_cons_self, owned.used src srcMember,
      fun chunk member => owned.used chunk (others chunk member)⟩
  · simp only [memory]
    exact counted

theorem pullupLoop_spec (rest : List Chunk) (heap : ChunkHeap) (buf : Buf) (bytes : Nat)
    (dest : Chunk) (owned : Owned heap { buf with chunks := dest :: rest })
    (most : dest.datalen ≤ bytes) (room : dest.data + bytes ≤ dest.memlen)
    (enough : bytes ≤ (content { buf with chunks := dest :: rest }).length) :
    ∃ buf' heap', pullupLoop heap buf bytes dest rest = some (buf', heap')
      ∧ Moves heap { buf with chunks := dest :: rest } heap' buf'
      ∧ content buf' = content { buf with chunks := dest :: rest }
      ∧ ∃ head others, buf'.chunks = head :: others ∧ bytes ≤ head.datalen := by
  induction rest generalizing heap buf dest with
  | nil =>
    have stored := bytes_length (owned.fits dest List.mem_cons_self)
    rw [content_cons rfl, List.flatMap_nil, List.append_nil, stored] at enough
    rw [pullupLoop, if_neg (by omega)]
    exact ⟨_, heap, rfl, Moves.refl owned, rfl, dest, [], rfl, enough⟩
  | cons src rest ih =>
    rw [pullupLoop]
    by_cases missing : dest.datalen < bytes
    · rw [if_pos missing]
      have srcFits : ChunkFits src := owned.fits src (by simp)
      have srcLength := bytes_length srcFits
      by_cases whole : bytes - dest.datalen ≥ src.datalen
      · have writable : dest.data + dest.datalen + src.bytes.length ≤ dest.memlen := by omega
        obtain ⟨dest', written, place, data, datalen, stored⟩ := chunkWrite_spec writable
        rw [srcLength] at datalen
        have fits : ChunkFits dest' := by
          unfold ChunkFits
          rw [place.memlen]
          omega
        obtain ⟨heap1, freed, moves⟩ := owned.merge_front place datalen stored fits
        have same : content { buf with
              chunks := dest' :: rest
              tail := if buf.tail = some src.addr then some dest'.addr else buf.tail }
            = content { buf with chunks := dest :: src :: rest } := by
          rw [content, content]
          simp only [List.flatMap_cons]
          rw [stored, List.append_assoc]
        obtain ⟨buf', heap', run, after, kept, pulled⟩ := ih heap1
          { buf with tail := if buf.tail = some src.addr then some dest'.addr else buf.tail }
          dest' moves.owned (by omega) (by rw [data, place.memlen]; exact room)
          (by rw [same]; exact enough)
        simp only [if_pos whole, written, freed]
        exact ⟨buf', heap', run, moves.trans after, kept.trans same, pulled⟩
      · have part : ((src.mem.drop src.data).take (bytes - dest.datalen)).length
            = bytes - dest.datalen := by
          rw [take_bytes src (by omega), List.length_take]
          omega
        have writable : dest.data + dest.datalen
            + ((src.mem.drop src.data).take (bytes - dest.datalen)).length ≤ dest.memlen := by
          omega
        obtain ⟨dest', written, place, data, datalen, stored⟩ := chunkWrite_spec writable
        rw [part] at datalen
        rw [take_bytes src (by omega)] at stored
        have fits : ChunkFits dest' := by
          unfold ChunkFits
          rw [place.memlen]
          omega
        obtain ⟨moves, same⟩ := owned.share_front place (by omega) datalen stored fits
        simp only [if_neg whole, written]
        rw [if_pos (by omega)]
        exact ⟨_, heap, rfl, moves, same, dest', _, rfl, by omega⟩
    · rw [if_neg missing]
      exact ⟨_, heap, rfl, Moves.refl owned, rfl, dest, _, rfl, by omega⟩

/-- The bytes at the head after a call start the buffer, and they are as many as were asked for
or all. -/
theorem bufPullup_spec (owned : Owned heap buf) (small : (content buf).length ≤ bufMaxLen)
    (bytes : Nat) :
    ∃ out buf' heap', bufPullup heap inPlace buf bytes = some (out, buf', heap')
      ∧ Moves heap buf heap' buf' ∧ content buf' = content buf
      ∧ out <+: content buf ∧ min bytes (content buf).length ≤ out.length := by
  have datalen := owned.datalen
  unfold bufPullup
  split
  next none =>
    have empty : content buf = [] := by rw [content, none]; rfl
    refine ⟨[], buf, heap, rfl, Moves.refl owned, rfl, List.nil_prefix, ?_⟩
    rw [empty]
    exact Nat.min_le_right _ _
  next head rest split =>
    have asked : (if buf.datalen < bytes then buf.datalen else bytes)
        = min bytes (content buf).length := by
      rw [datalen]
      split <;> omega
    have whole : buf = { buf with chunks := head :: rest } := by rw [← split]
    have ownedHere : Owned heap { buf with chunks := head :: rest } := whole ▸ owned
    have startsAt : ∀ {buf' : Buf} {head' : Chunk} {others : List Chunk},
        buf'.chunks = head' :: others → content buf' = content buf → head'.bytes <+: content buf := by
      intro buf' head' others front same
      rw [← same, content_cons front]
      exact List.prefix_append _ _
    have headLength := bytes_length (ownedHere.fits head List.mem_cons_self)
    simp only [asked]
    by_cases ready : head.datalen ≥ min bytes (content buf).length
    · rw [if_pos ready]
      exact ⟨head.bytes, buf, heap, rfl, Moves.refl owned, rfl, startsAt split rfl, by omega⟩
    · rw [if_neg ready]
      obtain ⟨dest, tail, heap1, found, moves, bytes_, count, room⟩ :=
        pullupRoom_spec inPlace (min bytes (content buf).length) ownedHere (by omega) (by omega)
      have same : content { buf with chunks := dest :: rest, tail := tail } = content buf := by
        rw [content_cons rfl, bytes_, content_cons split]
      obtain ⟨buf', heap', run, after, kept, head', others, front, pulled⟩ :=
        pullupLoop_spec rest heap1 { buf with tail := tail } _ dest moves.owned (by omega) room
          (by rw [same]; exact Nat.min_le_right _ _)
      have moved := moves.trans after
      rw [← whole] at moved
      have length := bytes_length (after.owned.fits head' (by rw [front]; exact List.mem_cons_self))
      rw [found, Option.bind_some]
      simp only [run, Option.map_some]
      refine ⟨_, buf', heap', rfl, moved, kept.trans same, ?_, ?_⟩
      · rw [front]
        exact startsAt front (kept.trans same)
      · rw [front]
        simp only [List.head?_cons, Option.map_some, Option.getD_some]
        omega

end

end RendezMix.Guarantees.Buffers
