import RendezMix.Source.Buffers

/-!
# The memory of chunks

What the functions on one chunk do to the bytes that it stores, and what a pointer to the
last chunk of a list leads to.
-/
namespace RendezMix.Guarantees.Buffers
open Source.Buffers

/-! ## One chunk -/

/-- The bytes stored are inside the memory. -/
def ChunkFits (chunk : Chunk) : Prop := chunk.data + chunk.datalen ≤ chunk.memlen

section

variable {chunk : Chunk}

theorem bytes_length (fits : ChunkFits chunk) : chunk.bytes.length = chunk.datalen := by
  unfold ChunkFits Chunk.memlen at fits
  rw [Chunk.bytes, List.length_take, List.length_drop]
  omega

theorem take_bytes (chunk : Chunk) {n : Nat} (enough : n ≤ chunk.datalen) :
    (chunk.mem.drop chunk.data).take n = chunk.bytes.take n := by
  rw [Chunk.bytes, List.take_take, Nat.min_eq_left enough]

/-- What stays the same in a chunk that is changed in its place. -/
structure SamePlace (chunk chunk' : Chunk) : Prop where
  addr : chunk'.addr = chunk.addr
  memlen : chunk'.memlen = chunk.memlen

theorem chunkWrite_spec {string : List UInt8}
    (room : chunk.data + chunk.datalen + string.length ≤ chunk.memlen) :
    ∃ chunk', chunkWrite chunk string = some chunk' ∧ SamePlace chunk chunk'
      ∧ chunk'.data = chunk.data ∧ chunk'.datalen = chunk.datalen + string.length
      ∧ chunk'.bytes = chunk.bytes ++ string := by
  unfold Chunk.memlen at room
  refine ⟨_, if_pos room, ⟨rfl, ?_⟩, rfl, rfl, ?_⟩
  · simp only [Chunk.memlen, List.length_append, List.length_take, List.length_drop]
    omega
  · have front : (chunk.mem.take (chunk.data + chunk.datalen)).length
        = chunk.data + chunk.datalen := by
      rw [List.length_take]
      omega
    have kept : (chunk.mem.take (chunk.data + chunk.datalen)).drop chunk.data = chunk.bytes := by
      rw [List.drop_take, Chunk.bytes]
      congr 1
      omega
    have stored : chunk.bytes.length = chunk.datalen := by
      apply bytes_length
      unfold ChunkFits Chunk.memlen
      omega
    rw [Chunk.bytes]
    simp only
    rw [List.append_assoc, List.drop_append_of_le_length (by omega), kept, ← List.append_assoc,
      List.take_append_of_le_length (by rw [List.length_append]; omega), List.take_of_length_le]
    rw [List.length_append]
    omega

theorem chunkRepack_spec (fits : ChunkFits chunk) :
    SamePlace chunk (chunkRepack chunk) ∧ (chunkRepack chunk).data = 0
      ∧ (chunkRepack chunk).datalen = chunk.datalen
      ∧ (chunkRepack chunk).bytes = chunk.bytes := by
  have stored := bytes_length fits
  unfold ChunkFits Chunk.memlen at fits
  unfold chunkRepack
  split
  next moved =>
    refine ⟨⟨rfl, ?_⟩, rfl, rfl, ?_⟩
    · simp only [Chunk.memlen, List.length_append, List.length_drop, stored]
      omega
    · rw [Chunk.bytes]
      simp only [List.drop_zero]
      rw [List.take_append_of_le_length (Nat.le_of_eq stored.symm), List.take_of_length_le
        (Nat.le_of_eq stored)]
  next stays =>
    refine ⟨⟨rfl, rfl⟩, rfl, rfl, ?_⟩
    rw [not_and_or, not_not, not_not] at stays
    cases stays with
    | inl empty => simp [Chunk.bytes, empty]
    | inr front => simp [Chunk.bytes, front]

theorem chunkAdvance_bytes (chunk : Chunk) (n : Nat) :
    (chunkAdvance chunk n).bytes = chunk.bytes.drop n := by
  simp only [chunkAdvance, Chunk.bytes, List.drop_take, List.drop_drop]

theorem chunkAdvance_fits (fits : ChunkFits chunk) {n : Nat} (enough : n ≤ chunk.datalen) :
    ChunkFits (chunkAdvance chunk n) := by
  unfold ChunkFits Chunk.memlen chunkAdvance at *
  simp only
  omega

theorem chunkGrow_spec (heap : ChunkHeap) (inPlace : Bool) {sz : Nat} (fits : ChunkFits chunk)
    (more : sz > chunk.memlen) :
    ∃ chunk' heap', chunkGrow heap inPlace chunk sz = some (chunk', heap')
      ∧ chunk'.memlen = sz ∧ chunk'.data = chunk.data ∧ chunk'.datalen = chunk.datalen
      ∧ chunk'.bytes = chunk.bytes
      ∧ (chunk'.addr = chunk.addr ∨ chunk'.addr = heap.nextAddr)
      ∧ heap'.nextAddr = heap.nextAddr + 1
      ∧ heap'.totalBytesAllocatedInChunks + chunkAllocSize chunk.memlen
        = heap.totalBytesAllocatedInChunks + chunkAllocSize chunk'.memlen := by
  have length : (chunk.mem ++ List.replicate (sz - chunk.memlen) 0).length = sz := by
    rw [List.length_append, List.length_replicate]
    unfold Chunk.memlen at more ⊢
    omega
  refine ⟨_, _, if_pos more, length, rfl, rfl, ?_, ?_, rfl, ?_⟩
  · unfold ChunkFits Chunk.memlen at fits
    rw [Chunk.bytes, Chunk.bytes]
    simp only
    rw [List.drop_append_of_le_length (by omega), List.take_append_of_le_length]
    rw [List.length_drop]
    omega
  · cases inPlace with
    | true => exact .inl rfl
    | false => exact .inr rfl
  · have grown : Chunk.memlen { chunk with
        addr := if inPlace then chunk.addr else heap.nextAddr
        mem := chunk.mem ++ List.replicate (sz - chunk.memlen) 0 } = sz := length
    rw [grown]
    unfold chunkAllocSize
    simp only
    omega

/-! ## The size of new chunks -/

theorem preferredFrom_spec (target k : Nat) :
    target ≤ chunkSizeWithAlloc (preferredFrom target k)
      ∧ chunkOverhead ≤ preferredFrom target k := by
  fun_induction preferredFrom target k with
  | case1 k short ih => exact ih
  | case2 k enough =>
    refine ⟨by omega, ?_⟩
    have positive := Nat.two_pow_pos k
    simp only [chunkOverhead, minChunkAlloc, Nat.shiftLeft_eq]
    omega

theorem bufPreferredChunkSize_spec {target : Nat} (small : target ≤ sizeTCeiling - chunkOverhead) :
    ∃ sz, bufPreferredChunkSize target = some sz ∧ target ≤ chunkSizeWithAlloc sz
      ∧ chunkOverhead ≤ sz := by
  refine ⟨_, if_pos small, ?_⟩
  split
  next =>
    unfold chunkSizeWithAlloc chunkAllocSize
    omega
  next => exact preferredFrom_spec target 0

end

/-! ## The last chunk of a list -/

section Last

variable {front : List Chunk} {last last' : Chunk}

section

variable (distinct : ((front ++ [last]).map Chunk.addr).Nodup)

include distinct

theorem chunkAt_last : chunkAt (front ++ [last]) last.addr = some last := by
  induction front with
  | nil => simp [chunkAt]
  | cons chunk front ih =>
    rw [List.cons_append, List.map_cons, List.nodup_cons] at distinct
    have other : chunk.addr ≠ last.addr := by
      intro same
      apply distinct.1
      rw [same]
      exact List.mem_map_of_mem (by simp)
    have rest := ih distinct.2
    rw [chunkAt] at rest
    rw [chunkAt, List.cons_append, List.find?_cons_of_neg (by simpa using other), rest]

theorem storeChunk_last (same : last'.addr = last.addr) :
    storeChunk (front ++ [last]) last' = front ++ [last'] := by
  induction front with
  | nil => simp [storeChunk, same]
  | cons chunk front ih =>
    rw [List.cons_append, List.map_cons, List.nodup_cons] at distinct
    have other : chunk.addr ≠ last'.addr := by
      intro equal
      apply distinct.1
      rw [equal, same]
      exact List.mem_map_of_mem (by simp)
    have rest := ih distinct.2
    rw [storeChunk] at rest
    rw [storeChunk, List.cons_append, List.map_cons, if_neg other, rest, List.cons_append]

end

theorem linkAfter_last (next : List Chunk)
    (distinct : ((front ++ [last]).map Chunk.addr).Nodup) :
    linkAfter last.addr next (front ++ [last]) = front ++ last :: next := by
  induction front with
  | nil => simp [linkAfter]
  | cons chunk front ih =>
    rw [List.cons_append, List.map_cons, List.nodup_cons] at distinct
    have other : chunk.addr ≠ last.addr := by
      intro same
      apply distinct.1
      rw [same]
      exact List.mem_map_of_mem (by simp)
    rw [List.cons_append, linkAfter, if_neg other, ih distinct.2, List.cons_append]

end Last

end RendezMix.Guarantees.Buffers

/-!
# The bytes of a buffer

Every function on one buffer does to its bytes what it would do to them in one string. It
keeps the buffer in order and counts the memory of the chunks that it takes and gives back.
-/
namespace RendezMix.Guarantees.Buffers
open Source.Buffers

/-- The bytes of a buffer. -/
def content (buf : Buf) : List UInt8 := buf.chunks.flatMap Chunk.bytes

/-- The memory of some chunks. -/
def allocated (chunks : List Chunk) : Nat :=
  (chunks.map fun chunk => chunkAllocSize chunk.memlen).sum

@[simp] theorem allocated_nil : allocated [] = 0 := rfl

@[simp] theorem allocated_cons (chunk : Chunk) (rest : List Chunk) :
    allocated (chunk :: rest) = chunkAllocSize chunk.memlen + allocated rest := by
  simp [allocated]

@[simp] theorem allocated_append (first second : List Chunk) :
    allocated (first ++ second) = allocated first + allocated second := by
  simp [allocated]

/-- A buffer in order. -/
structure BufOk (buf : Buf) : Prop where
  fits : ∀ chunk ∈ buf.chunks, ChunkFits chunk
  full : ∀ chunk ∈ buf.chunks, 0 < chunk.datalen
  tail : buf.tail = buf.chunks.getLast?.map Chunk.addr
  datalen : buf.datalen = (content buf).length

/-- A buffer in order, of whose chunks the heap knows. -/
structure Owned (heap : ChunkHeap) (buf : Buf) : Prop extends BufOk buf where
  distinct : (buf.chunks.map Chunk.addr).Nodup
  used : ∀ chunk ∈ buf.chunks, chunk.addr < heap.nextAddr
  counted : allocated buf.chunks ≤ heap.totalBytesAllocatedInChunks

/-- What a function may do to the chunks of a buffer: drop some, change some, and take new
ones from the heap. -/
structure Takes (heap : ChunkHeap) (buf : Buf) (heap' : ChunkHeap) (buf' : Buf) : Prop where
  within : ∀ chunk ∈ buf'.chunks, chunk.addr ∈ buf.chunks.map Chunk.addr
    ∨ heap.nextAddr ≤ chunk.addr
  next : heap.nextAddr ≤ heap'.nextAddr
  total : heap'.totalBytesAllocatedInChunks + allocated buf.chunks
    = heap.totalBytesAllocatedInChunks + allocated buf'.chunks

/-- What a function does that leaves the buffer in order. -/
structure Moves (heap : ChunkHeap) (buf : Buf) (heap' : ChunkHeap) (buf' : Buf) : Prop
    extends Takes heap buf heap' buf' where
  owned : Owned heap' buf'

section

variable {heap heap' heap'' : ChunkHeap} {buf buf' buf'' : Buf}

theorem Takes.trans (first : Takes heap buf heap' buf') (second : Takes heap' buf' heap'' buf'') :
    Takes heap buf heap'' buf'' := by
  have next := first.next
  constructor
  · intro chunk member
    cases second.within chunk member with
    | inl inside =>
      obtain ⟨before, earlier, same⟩ := List.mem_map.mp inside
      rw [← same]
      exact first.within before earlier
    | inr new => exact .inr (Nat.le_trans next new)
  · exact Nat.le_trans next second.next
  · have one := first.total
    have two := second.total
    omega

theorem Moves.refl (owned : Owned heap buf) : Moves heap buf heap buf :=
  ⟨⟨fun _ member => .inl (List.mem_map_of_mem member), Nat.le_refl _, rfl⟩, owned⟩

theorem Moves.trans (first : Moves heap buf heap' buf') (second : Moves heap' buf' heap'' buf'') :
    Moves heap buf heap'' buf'' :=
  ⟨first.toTakes.trans second.toTakes, second.owned⟩

/-! ## Looking at the bytes -/

section

variable {rest : List Chunk} {n : Nat}

section

variable {victim : Chunk} (chunks : List Chunk)

theorem content_cons {chunk : Chunk} (split : buf.chunks = chunk :: rest) :
    content buf = chunk.bytes ++ rest.flatMap Chunk.bytes := by
  rw [content, split, List.flatMap_cons]

theorem peekLoop_spec (fits : ∀ chunk ∈ chunks, ChunkFits chunk) (n : Nat)
    (enough : n ≤ (chunks.flatMap Chunk.bytes).length) :
    peekLoop chunks n = some ((chunks.flatMap Chunk.bytes).take n) := by
  induction chunks generalizing n with
  | nil =>
    have zero : n = 0 := by simpa using enough
    rw [zero]
    rfl
  | cons chunk chunks ih =>
    have stored := bytes_length (fits chunk List.mem_cons_self)
    rw [List.flatMap_cons, List.length_append, stored] at enough
    have others := ih (fun other member => fits other (List.mem_cons_of_mem _ member))
    rw [peekLoop]
    by_cases zero : n = 0
    · rw [if_pos zero, zero]
      rfl
    · rw [if_neg zero]
      simp only
      split
      next less =>
        rw [others _ (by omega), Option.map_some, take_bytes chunk (Nat.le_refl _),
          List.flatMap_cons, List.take_append, stored, ← stored, List.take_length]
        congr 2
        rw [List.take_of_length_le (by omega)]
      next more =>
        rw [others _ (by omega), Option.map_some, take_bytes chunk (by omega), List.flatMap_cons,
          List.take_append_of_le_length (by omega), Nat.sub_self, List.take_zero, List.append_nil]

theorem bufPeek_spec (ok : BufOk buf) (enough : n ≤ (content buf).length) :
    bufPeek buf n = some ((content buf).take n) := by
  rw [bufPeek, if_pos (by rw [ok.datalen]; exact enough), peekLoop_spec _ ok.fits n enough]
  rfl

theorem findOffsetLoop_spec (ch : UInt8) (chunks : List Chunk)
    (fits : ∀ chunk ∈ chunks, ChunkFits chunk) (offset : Nat) :
    findOffsetLoop ch offset chunks
      = ((chunks.flatMap Chunk.bytes).findIdx? (· = ch)).map (offset + ·) := by
  induction chunks generalizing offset with
  | nil => rfl
  | cons chunk chunks ih =>
    rw [findOffsetLoop, List.flatMap_cons, List.findIdx?_append]
    cases found : chunk.bytes.findIdx? (· = ch) with
    | some cp => rfl
    | none =>
      simp only
      rw [ih (fun other member => fits other (List.mem_cons_of_mem _ member)), Option.none_or,
        Option.map_map, bytes_length (fits chunk List.mem_cons_self)]
      congr 1
      funext cp
      simp only [Function.comp_apply]
      omega

/-! ## Taking bytes from the front -/

theorem Owned.tail_rest {chunk second : Chunk}
    (owned : Owned heap { buf with chunks := chunk :: second :: rest }) :
    buf.tail = (second :: rest).getLast?.map Chunk.addr ∧ buf.tail ≠ some chunk.addr := by
  have tail := owned.tail
  have distinct := owned.distinct
  simp only at tail
  rw [List.getLast?_cons_cons] at tail
  rw [List.map_cons, List.nodup_cons] at distinct
  refine ⟨tail, ?_⟩
  intro same
  rw [same] at tail
  obtain ⟨last, found, addr⟩ := Option.map_eq_some_iff.mp tail.symm
  apply distinct.1
  rw [← addr]
  exact List.mem_map_of_mem (List.mem_of_getLast? found)

theorem Owned.free_front (owned : Owned heap { buf with chunks := victim :: rest }) :
    ∃ heap', bufChunkFreeUnchecked heap victim = some heap'
      ∧ Moves heap { buf with chunks := victim :: rest } heap'
        { buf with
          chunks := rest
          datalen := buf.datalen - victim.datalen
          tail := if buf.tail = some victim.addr then none else buf.tail } := by
  have counted := owned.counted
  have distinct := owned.distinct
  rw [allocated_cons] at counted
  rw [List.map_cons, List.nodup_cons] at distinct
  refine ⟨_, if_pos (by omega), ⟨?_, Nat.le_refl _, ?_⟩, ⟨?_, ?_, ?_, ?_⟩, distinct.2, ?_, ?_⟩
  · exact fun chunk member => .inl (List.mem_map_of_mem (List.mem_cons_of_mem _ member))
  · simp only [allocated_cons]
    omega
  · exact fun chunk member => owned.fits chunk (List.mem_cons_of_mem _ member)
  · exact fun chunk member => owned.full chunk (List.mem_cons_of_mem _ member)
  · have tail := owned.tail
    simp only at tail ⊢
    cases rest with
    | nil =>
      rw [List.getLast?_singleton, Option.map_some] at tail
      rw [if_pos tail]
      rfl
    | cons second rest => rw [if_neg owned.tail_rest.2, owned.tail_rest.1]
  · have datalen := owned.datalen
    have stored := bytes_length (owned.fits victim List.mem_cons_self)
    rw [content_cons rfl, List.length_append, stored] at datalen
    simp only [content] at datalen ⊢
    omega
  · exact fun chunk member => owned.used chunk (List.mem_cons_of_mem _ member)
  · simp only
    omega

/-- A chunk in the place of the first one, at its address or at a new one. -/
theorem Owned.replace_front {chunk chunk' : Chunk} {datalen' : Nat} {tail' : Option Nat}
    (owned : Owned heap { buf with chunks := chunk :: rest }) (fits : ChunkFits chunk')
    (full : 0 < chunk'.datalen)
    (addr : chunk'.addr = chunk.addr ∨ chunk'.addr = heap.nextAddr ∧ heap.nextAddr < heap'.nextAddr)
    (next : heap.nextAddr ≤ heap'.nextAddr)
    (total : heap'.totalBytesAllocatedInChunks + chunkAllocSize chunk.memlen
      = heap.totalBytesAllocatedInChunks + chunkAllocSize chunk'.memlen)
    (tail : tail' = if buf.tail = some chunk.addr then some chunk'.addr else buf.tail)
    (datalen : datalen' + chunk.datalen = buf.datalen + chunk'.datalen) :
    Moves heap { buf with chunks := chunk :: rest } heap'
      { buf with chunks := chunk' :: rest, tail := tail', datalen := datalen' } := by
  have counted := owned.counted
  have distinct := owned.distinct
  rw [allocated_cons] at counted
  rw [List.map_cons, List.nodup_cons] at distinct
  have here := owned.used chunk List.mem_cons_self
  have others : ∀ other ∈ rest, other.addr < heap.nextAddr := fun other member =>
    owned.used other (List.mem_cons_of_mem _ member)
  refine ⟨⟨?_, next, ?_⟩, ⟨?_, ?_, ?_, ?_⟩, ?_, ?_, ?_⟩
  · rw [List.forall_mem_cons]
    constructor
    · cases addr with
      | inl same =>
        rw [same]
        exact .inl List.mem_cons_self
      | inr new => exact .inr (Nat.le_of_eq new.1.symm)
    · exact fun other member => .inl (List.mem_map_of_mem (List.mem_cons_of_mem _ member))
  · simp only [allocated_cons]
    omega
  · rw [List.forall_mem_cons]
    exact ⟨fits, fun other member => owned.fits other (List.mem_cons_of_mem _ member)⟩
  · rw [List.forall_mem_cons]
    exact ⟨full, fun other member => owned.full other (List.mem_cons_of_mem _ member)⟩
  · have old := owned.tail
    simp only at old ⊢
    cases rest with
    | nil =>
      rw [List.getLast?_singleton, Option.map_some] at old
      rw [tail, if_pos old]
      rfl
    | cons second rest =>
      rw [List.getLast?_cons_cons, tail, if_neg owned.tail_rest.2, owned.tail_rest.1]
  · have old := owned.datalen
    have stored := bytes_length (owned.fits chunk List.mem_cons_self)
    have stored' := bytes_length fits
    rw [content_cons rfl, List.length_append, stored] at old
    rw [content_cons rfl, List.length_append, stored']
    simp only at old ⊢
    omega
  · simp only
    rw [List.map_cons, List.nodup_cons]
    refine ⟨?_, distinct.2⟩
    cases addr with
    | inl same =>
      rw [same]
      exact distinct.1
    | inr new =>
      intro inside
      obtain ⟨other, member, same⟩ := List.mem_map.mp inside
      have used := others other member
      omega
  · rw [List.forall_mem_cons]
    constructor
    · cases addr with
      | inl same => omega
      | inr new => omega
    · exact fun other member => Nat.lt_of_lt_of_le (others other member) next
  · simp only [allocated_cons]
    omega

theorem Owned.advance_front (owned : Owned heap { buf with chunks := victim :: rest })
    (less : n < victim.datalen) :
    Moves heap { buf with chunks := victim :: rest } heap
      { buf with chunks := chunkAdvance victim n :: rest, datalen := buf.datalen - n } := by
  have fits := owned.fits victim List.mem_cons_self
  have datalen := owned.datalen
  rw [content_cons rfl, List.length_append, bytes_length fits] at datalen
  simp only at datalen
  apply owned.replace_front
  · exact chunkAdvance_fits fits (by omega)
  · simp only [chunkAdvance]
    omega
  · exact .inl rfl
  · exact Nat.le_refl _
  · rfl
  · split
    next same => exact same
    next => rfl
  · simp only [chunkAdvance]
    omega

theorem drainLoop_spec (heap : ChunkHeap) (buf : Buf) (n : Nat)
    (owned : Owned heap { buf with chunks := chunks })
    (enough : n ≤ (chunks.flatMap Chunk.bytes).length) :
    ∃ buf' heap', drainLoop heap buf chunks n = some (buf', heap')
      ∧ Moves heap { buf with chunks := chunks } heap' buf'
      ∧ content buf' = (chunks.flatMap Chunk.bytes).drop n
      ∧ buf'.defaultChunkSize = buf.defaultChunkSize := by
  induction chunks generalizing heap buf n with
  | nil =>
    have zero : n = 0 := by simpa using enough
    rw [zero]
    exact ⟨_, _, rfl, Moves.refl owned, rfl, rfl⟩
  | cons victim rest ih =>
    rw [drainLoop]
    by_cases zero : n = 0
    · rw [if_pos zero, zero]
      exact ⟨_, _, rfl, Moves.refl owned, rfl, rfl⟩
    · have stored := bytes_length (owned.fits victim List.mem_cons_self)
      rw [List.flatMap_cons, List.length_append, stored] at enough
      rw [if_neg zero]
      by_cases more : victim.datalen > n
      · rw [if_pos more]
        refine ⟨_, _, rfl, owned.advance_front more, ?_, rfl⟩
        rw [content_cons rfl, chunkAdvance_bytes, List.flatMap_cons,
          List.drop_append_of_le_length (by omega)]
      · rw [if_neg more]
        obtain ⟨heap1, freed, moved⟩ := owned.free_front
        obtain ⟨buf', heap', run, moves, after, size⟩ := ih heap1
          { buf with
            datalen := buf.datalen - victim.datalen
            tail := if buf.tail = some victim.addr then none else buf.tail }
          (n - victim.datalen) moved.owned (by omega)
        rw [freed]
        refine ⟨buf', heap', run, moved.trans moves, ?_, size⟩
        have gone : victim.bytes.drop n = [] := List.drop_of_length_le (by omega)
        rw [after, List.flatMap_cons, List.drop_append, gone, stored, List.nil_append]

theorem bufDrain_spec (owned : Owned heap buf) (enough : n ≤ (content buf).length) :
    ∃ buf' heap', bufDrain heap buf n = some (buf', heap') ∧ Moves heap buf heap' buf'
      ∧ content buf' = (content buf).drop n := by
  rw [bufDrain, if_pos (by rw [owned.datalen]; exact enough)]
  obtain ⟨buf', heap', run, moves, after, _⟩ := drainLoop_spec buf.chunks heap buf n owned enough
  exact ⟨buf', heap', run, moves, after⟩

theorem bufGetBytes_spec (owned : Owned heap buf) (small : (content buf).length ≤ bufMaxLen)
    (enough : n ≤ (content buf).length) :
    ∃ buf' heap', bufGetBytes heap buf n
        = some ((((content buf).length - n : Nat) : Int), (content buf).take n, buf', heap')
      ∧ Moves heap buf heap' buf' ∧ content buf' = (content buf).drop n := by
  obtain ⟨buf', heap', run, moves, after⟩ := bufDrain_spec owned enough
  have length : buf'.datalen = (content buf).length - n := by
    rw [moves.owned.datalen, after, List.length_drop]
  refine ⟨buf', heap', ?_, moves, after⟩
  rw [bufGetBytes, bufPeek_spec owned.toBufOk enough, Option.bind_some, run, Option.bind_some]
  simp only [length]
  exact if_pos (by omega)

end

end

end

end RendezMix.Guarantees.Buffers
