import RendezMix.Source.Buffers

/-!
# Searching in buffers

The search for a string in `lib/buf/buffers.c`, with the bytes that it looks at, and
`buf_read_from_fd` of `lib/net/buffers_net.c`, which can leave an empty chunk at the end of
a buffer. A byte outside the memory of a chunk and a failed assertion are `none`.
-/
namespace RendezMix.Source.Buffers

/-! ## Reading from a socket -/

def minReadLen : Nat := 8

/-- What `recv` does: an error, nothing yet, the end of the stream, or some bytes. -/
inductive RecvResult where
  | error
  | wouldBlock
  | eof
  | got (bytes : List UInt8)

/-- `read_to_chunk`: the result, whether the end was reached, and the buffer. -/
def readToChunk (buf : Buf) (chunk : Chunk) (atMost : Nat) (recv : RecvResult) :
    Option (Int × Bool × Buf) :=
  let atMost := if atMost > chunkRemainingCapacity chunk then chunkRemainingCapacity chunk
    else atMost
  match recv with
  | .error => some (-1, false, buf)
  | .wouldBlock => some (0, false, buf)
  | .eof => some (0, true, buf)
  | .got bytes =>
    if bytes ≠ [] ∧ bytes.length ≤ atMost then
      (chunkWrite chunk bytes).bind fun chunk =>
        if bytes.length ≤ bufMaxLen then
          some (bytes.length, false,
            { buf with
              chunks := storeChunk buf.chunks chunk
              datalen := buf.datalen + bytes.length })
        else none
    else none

/-- What the memory of a new chunk held before. -/
def Chunk.fill (chunk : Chunk) (memory : List UInt8) : Chunk :=
  { chunk with mem := (memory ++ chunk.mem).take chunk.memlen }

/-- The chunk that a turn of `buf_read_from_fd` reads to, with the most it reads. -/
def readRoom (heap : ChunkHeap) (buf : Buf) (atMost readlen : Nat) (memory : List UInt8) :
    Option (Chunk × Nat × Buf × ChunkHeap) :=
  let tail := buf.tail.bind (chunkAt buf.chunks)
  match tail with
  | some chunk =>
    if chunkRemainingCapacity chunk < minReadLen then added
    else
      let cap := chunkRemainingCapacity chunk
      some (chunk, if cap < readlen then cap else readlen, buf, heap)
  | none => added
where
  added : Option (Chunk × Nat × Buf × ChunkHeap) :=
    (bufAddChunkWithCapacity heap buf atMost true).bind fun (buf, heap) =>
      (buf.tail.bind (chunkAt buf.chunks)).map fun chunk =>
        let chunk := chunk.fill memory
        (chunk, if readlen > chunk.memlen then chunk.memlen else readlen,
          { buf with chunks := storeChunk buf.chunks chunk }, heap)

/-- The loop of `buf_read_from_fd`; each turn has what the memory of a new chunk holds and what
`recv` does. -/
def readLoop (heap : ChunkHeap) (buf : Buf) (atMost totalRead : Nat) :
    List (List UInt8 × RecvResult) → Option (Int × Bool × Buf × ChunkHeap)
  | [] => if atMost > totalRead then none else some (totalRead, false, buf, heap)
  | (memory, recv) :: turns =>
    if atMost > totalRead then
      match readRoom heap buf atMost (atMost - totalRead) memory with
      | none => none
      | some (chunk, readlen, buf, heap) =>
        match readToChunk buf chunk readlen recv with
        | none => none
        | some (r, reachedEof, buf) =>
          if r < 0 then some (r, reachedEof, buf, heap)
          else if totalRead + r.toNat > bufMaxLen then none
          else if r < readlen then some (totalRead + r, reachedEof, buf, heap)
          else readLoop heap buf atMost (totalRead + r.toNat) turns
    else some (totalRead, false, buf, heap)

/-- `buf_read_from_fd`: the result, whether the end was reached, and the buffer. -/
def bufReadFromFd (heap : ChunkHeap) (buf : Buf) (atMost : Nat)
    (turns : List (List UInt8 × RecvResult)) : Option (Int × Bool × Buf × ChunkHeap) :=
  if buf.datalen > bufMaxLen then some (-1, false, buf, heap)
  -- the difference is a `size_t`
  else if buf.datalen > (2 ^ 64 + bufMaxLen - atMost) % 2 ^ 64 then some (-1, false, buf, heap)
  else readLoop heap buf atMost 0 turns

/-! ## Positions -/

/-- `buf_pos_t`, with the chunks from the one pointed to on. -/
structure BufPos where
  chunks : List Chunk
  pos : Nat
  chunkPos : Nat

/-- A byte that is looked at: its chunk, and its offset from `chunk->data`. -/
abbrev Look := Chunk × Nat

def bufPosInit (buf : Buf) : BufPos := ⟨buf.chunks, 0, 0⟩

/-- `memchr(chunk->data+pos, ch, chunk->datalen - pos)`, as an offset from `chunk->data`. -/
def memchr (chunk : Chunk) (pos : Nat) (ch : UInt8) : Option Nat × List Look :=
  let bytes := (chunk.mem.drop (chunk.data + pos)).take (chunk.datalen - pos)
  match bytes.findIdx? (· = ch) with
  | some i => (some (pos + i), (List.range (i + 1)).map fun j => (chunk, pos + j))
  | none => (none, (List.range bytes.length).map fun j => (chunk, pos + j))

/-- The loop of `buf_find_pos_of_char`. -/
def findPosLoop (ch : UInt8) (pos chunkPos : Nat) :
    List Chunk → Option (Option BufPos × List Look)
  | [] => some (none, [])
  | chunk :: rest =>
    match memchr chunk pos ch with
    | (some cp, looks) =>
      if cp ≤ bufMaxLen then some (some ⟨chunk :: rest, cp, chunkPos⟩, looks) else none
    | (none, looks) =>
      (findPosLoop ch 0 (chunkPos + chunk.datalen) rest).map fun (found, more) =>
        (found, looks ++ more)

/-- What `buf_find_pos_of_char` asserts of its position. -/
def BufPos.asserted (out : BufPos) : Bool :=
  match out.chunks with
  | [] => true
  | chunk :: _ => if chunk.datalen ≠ 0 then out.pos < chunk.datalen else out.pos == 0

/-- `buf_find_pos_of_char`: where the position is advanced to, if the character is found. -/
def bufFindPosOfChar (ch : UInt8) (out : BufPos) : Option (Option BufPos × List Look) :=
  if out.asserted then findPosLoop ch out.pos out.chunkPos out.chunks else none

/-- `buf_pos_inc`; the result -1 is the inner `none`. -/
def bufPosInc (pos : BufPos) : Option (Option BufPos) :=
  if pos.pos < bufMaxLen then
    match pos.chunks with
    | [] => none
    | chunk :: rest =>
      if pos.pos + 1 = chunk.datalen then
        if rest = [] then some none
        else some (some ⟨rest, 0, pos.chunkPos + chunk.datalen⟩)
      else some (some { pos with pos := pos.pos + 1 })
  else none

def bufMatchesAtPos (p : BufPos) : List UInt8 → Option (Bool × List Look)
  | [] => some (true, [])
  | s :: rest =>
    match p.chunks with
    | [] => none
    | chunk :: _ =>
      match chunk.mem[chunk.data + p.pos]? with
      | none => none
      | some ch =>
        if ch ≠ s then some (false, [(chunk, p.pos)])
        else if rest = [] then some (true, [(chunk, p.pos)])
        else
          match bufPosInc p with
          | none => none
          | some none => some (false, [(chunk, p.pos)])
          | some (some next) =>
            (bufMatchesAtPos next rest).map fun (isMatch, looks) =>
              (isMatch, (chunk, p.pos) :: looks)

/-! ## The search -/

/-- The bytes that are left from a position on. -/
def BufPos.left (p : BufPos) : Nat := (p.chunks.map Chunk.datalen).sum - p.pos

/-- A position on a byte that is stored. -/
def BufPos.OnByte (p : BufPos) : Prop :=
  ∃ chunk rest, p.chunks = chunk :: rest ∧ p.pos < chunk.datalen

section

variable {p' p : BufPos} {ch : UInt8} {looks : List Look}

theorem memchr_found {chunk : Chunk} {pos cp : Nat}
    (found : memchr chunk pos ch = (some cp, looks)) : pos ≤ cp ∧ cp < chunk.datalen := by
  unfold memchr at found
  dsimp only at found
  split at found
  · next i at_i =>
    obtain ⟨inside, -⟩ := List.findIdx?_eq_some_iff_getElem.mp at_i
    rw [List.length_take] at inside
    simp only [Prod.mk.injEq, Option.some.injEq] at found
    omega
  · simp at found

theorem findPosLoop_left {chunks : List Chunk} {pos chunkPos : Nat}
    (found : findPosLoop ch pos chunkPos chunks = some (some p, looks))
    (start : ∀ chunk ∈ chunks.head?, pos ≤ chunk.datalen) :
    p.OnByte ∧ p.left ≤ (chunks.map Chunk.datalen).sum - pos := by
  induction chunks generalizing pos chunkPos looks with
  | nil => simp [findPosLoop] at found
  | cons chunk rest ih =>
    have within := start chunk rfl
    rw [findPosLoop] at found
    cases search : memchr chunk pos ch with
    | mk result seen =>
      rw [search] at found
      cases result with
      | some cp =>
        have range := memchr_found search
        dsimp only at found
        split at found
        · simp only [Option.some.injEq, Prod.mk.injEq] at found
          rw [← found.1]
          refine ⟨⟨chunk, rest, rfl, range.2⟩, ?_⟩
          simp only [BufPos.left, List.map_cons, List.sum_cons]
          omega
        · simp at found
      | none =>
        obtain ⟨⟨later, more⟩, after, split⟩ := Option.map_eq_some_iff.mp found
        simp only [Prod.mk.injEq] at split
        rw [split.1] at after
        have step := ih after (fun other _ => Nat.zero_le other.datalen)
        refine ⟨step.1, ?_⟩
        simp only [List.map_cons, List.sum_cons]
        omega

theorem BufPos.asserted_le (asserted : p.asserted = true) :
    ∀ chunk ∈ p.chunks.head?, p.pos ≤ chunk.datalen := by
  intro chunk head
  unfold BufPos.asserted at asserted
  cases split_ : p.chunks with
  | nil => simp [split_] at head
  | cons first rest =>
    rw [split_] at head asserted
    simp only [List.head?_cons, Option.mem_def, Option.some.injEq] at head
    dsimp only at asserted
    subst head
    split at asserted
    · exact Nat.le_of_lt (of_decide_eq_true asserted)
    · rw [beq_iff_eq.mp asserted]
      exact Nat.zero_le _

theorem bufFindPosOfChar_left (found : bufFindPosOfChar ch p = some (some p', looks)) :
    p'.OnByte ∧ p'.left ≤ p.left := by
  unfold bufFindPosOfChar at found
  split at found
  · next asserted => exact findPosLoop_left found (BufPos.asserted_le asserted)
  · simp at found

theorem bufPosInc_left (onByte : p.OnByte) (moved : bufPosInc p = some (some p')) :
    p'.left < p.left := by
  obtain ⟨chunk, rest, split_, inside⟩ := onByte
  unfold bufPosInc at moved
  rw [split_] at moved
  dsimp only at moved
  split at moved
  · split at moved
    · split at moved
      · simp at moved
      · simp only [Option.some.injEq] at moved
        rw [← moved]
        simp only [BufPos.left, split_, List.map_cons, List.sum_cons]
        omega
    · simp only [Option.some.injEq] at moved
      rw [← moved]
      simp only [BufPos.left, split_, List.map_cons, List.sum_cons]
      omega
  · simp at moved

end

/-- The loop of `buf_find_string_offset`. -/
def findStringLoop (s : UInt8) (rest : List UInt8) (pos : BufPos) :
    Option (Option Nat × List Look) :=
  match _found : bufFindPosOfChar s pos with
  | none => none
  | some (none, looks) => some (none, looks)
  | some (some start, looks) =>
    match bufMatchesAtPos start (s :: rest) with
    | none => none
    | some (true, more) =>
      if start.chunkPos + start.pos ≤ bufMaxLen then
        some (some (start.chunkPos + start.pos), looks ++ more)
      else none
    | some (false, more) =>
      match _moved : bufPosInc start with
      | none => none
      | some none => some (none, looks ++ more)
      | some (some next) =>
        (findStringLoop s rest next).map fun (offset, later) => (offset, looks ++ more ++ later)
termination_by pos.left
decreasing_by
  have before := bufFindPosOfChar_left _found
  exact Nat.lt_of_lt_of_le (bufPosInc_left before.1 _moved) before.2

/-- `buf_find_string_offset` on a string that is not empty, the position -1 as `none`, with the
bytes that are looked at. -/
def bufFindStringOffset (buf : Buf) (s : UInt8) (rest : List UInt8) :
    Option (Option Nat × List Look) :=
  findStringLoop s rest (bufPosInit buf)

/-- The bytes that the loop of `buf_find_offset_of_char` looks at. -/
def findOffsetLooks (ch : UInt8) : List Chunk → List Look
  | [] => []
  | chunk :: rest =>
    match memchr chunk 0 ch with
    | (some _, looks) => looks
    | (none, looks) => looks ++ findOffsetLooks ch rest

end RendezMix.Source.Buffers
