import RendezMix.Guarantees.BufferGrowth
import RendezMix.Library.Runs

/-!
# Buffers are queues of bytes

Each buffer stands for one string. A run of calls on the strings, of which the total length
stays below `INT_MAX`, is a run of the calls on the buffers with the same results; after each
call the buffers are in order and every allocated chunk is counted.
-/
namespace RendezMix.Guarantees.Buffers
open Library Runs Source.Buffers

/-! ## The calls on strings -/

/-- The string of each buffer. -/
abbrev Queues := List (List UInt8)

def intMax : Nat := 2 ^ 31 - 1

def totalLength (qs : Queues) : Nat := (qs.map List.length).sum

/-- `buf_move_to_buf` refuses lengths that it could not add up. -/
def moveRefused (out : List UInt8) (flushlen : Nat) : Bool :=
  out.length > bufMaxLen ∨ flushlen > bufMaxLen ∨ out.length > bufMaxLen - flushlen

/-- `buf_move_all` refuses a string that the other one has no room for. -/
def moveAllRefused (out inp : List UInt8) : Bool :=
  out.length > bufMaxLen ∨ inp.length > bufMaxLen ∨ out.length > bufMaxLen - inp.length

/-- Take the first bytes of one string and add them to a string, which may be the same one. -/
def moveBytes (qs : Queues) (out inp n : Nat) (q : List UInt8) : Queues :=
  (qs.set inp (q.drop n)).modify out fun q' => q' ++ q.take n

/-- A call on the strings; what the code asserts of its arguments has to hold. -/
def queueStep (qs : Queues) : BufOp → Option Queues
  | .new => some (qs ++ [[]])
  | .newWithCapacity size => if size ≤ sizeTCeiling - chunkOverhead then some (qs ++ [[]]) else none
  | .copy number => qs[number]?.map fun q => qs ++ [q]
  | .add number string => qs[number]?.map fun q => qs.set number (q ++ string)
  | .peek number stringLen => qs[number]?.bind fun q => if stringLen ≤ q.length then some qs else none
  | .pullup number _ _ => qs[number]?.map fun _ => qs
  | .getBytes number stringLen =>
    qs[number]?.bind fun q =>
      if stringLen ≤ q.length then some (qs.set number (q.drop stringLen)) else none
  | .drain number n =>
    qs[number]?.bind fun q => if n ≤ q.length then some (qs.set number (q.drop n)) else none
  | .moveToBuf out inp flushlen =>
    qs[out]?.bind fun qOut => qs[inp]?.map fun qIn =>
      if moveRefused qOut flushlen then qs else moveBytes qs out inp (min flushlen qIn.length) qIn
  | .moveAll out inp =>
    qs[out]?.bind fun qOut => qs[inp]?.map fun qIn =>
      if qIn = [] ∨ moveAllRefused qOut qIn then qs else (qs.set out (qOut ++ qIn)).set inp []
  | .getLine number dataLen =>
    qs[number]?.map fun q =>
      match q.findIdx? (· = newline) with
      | some sz => if sz + 2 > dataLen then qs else qs.set number (q.drop (sz + 1))
      | none => qs

/-- What a call returns; how many bytes are pulled up depends on the chunks. -/
def queueReturns (qs : Queues) (op : BufOp) (result : BufReturn) : Prop :=
  match op with
  | .new | .newWithCapacity _ | .copy _ | .drain _ _ => result = ⟨0, [], 0⟩
  | .add number string => ∀ q, qs[number]? = some q →
    result = ⟨((q.length + string.length : Nat) : Int), [], 0⟩
  | .peek number stringLen => ∀ q, qs[number]? = some q → result = ⟨0, q.take stringLen, 0⟩
  | .pullup number bytes _ => ∀ q, qs[number]? = some q →
    ∃ out, result = ⟨0, out, out.length⟩ ∧ out <+: q ∧ min bytes q.length ≤ out.length
  | .getBytes number stringLen => ∀ q, qs[number]? = some q →
    result = ⟨((q.length - stringLen : Nat) : Int), q.take stringLen, 0⟩
  | .moveToBuf out inp flushlen => ∀ qOut qIn, qs[out]? = some qOut → qs[inp]? = some qIn →
    result = if moveRefused qOut flushlen then ⟨-1, [], flushlen⟩
      else ⟨((min flushlen qIn.length : Nat) : Int), [], flushlen - min flushlen qIn.length⟩
  | .moveAll out inp => ∀ qOut qIn, qs[out]? = some qOut → qs[inp]? = some qIn →
    result = if qIn = [] ∨ moveAllRefused qOut qIn then ⟨0, [], 0⟩ else ⟨(qIn.length : Int), [], 0⟩
  | .getLine number dataLen => ∀ q, qs[number]? = some q →
    result = match q.findIdx? (· = newline) with
      | some sz => if sz + 2 > dataLen then ⟨-1, [], sz + 2⟩
        else ⟨1, q.take (sz + 1) ++ [0], sz + 1⟩
      | none => ⟨0, [], dataLen⟩

/-- A call after which the strings are not too long. -/
def QueueCall (qs : Queues) (op : BufOp) (qs' : Queues) : Prop :=
  queueStep qs op = some qs' ∧ totalLength qs' < intMax

/-! ## The memory of all buffers -/

/-- Every chunk that is allocated and not freed. -/
def live (pool : BufPool) : List Chunk := pool.bufs.flatMap Buf.chunks ++ pool.lost

/-- The heap knows some chunks, and counts them. -/
structure Counted (heap : ChunkHeap) (chunks : List Chunk) : Prop where
  distinct : (chunks.map Chunk.addr).Nodup
  used : ∀ chunk ∈ chunks, chunk.addr < heap.nextAddr
  total : heap.totalBytesAllocatedInChunks = allocated chunks

/-- All buffers are in order. -/
structure PoolOk (pool : BufPool) : Prop where
  bufs : ∀ buf ∈ pool.bufs, BufOk buf
  counted : Counted pool.heap (live pool)

section

variable {heap : ChunkHeap} {others chunks chunks' : List Chunk}

theorem allocated_perm (perm : chunks.Perm chunks') :
    allocated chunks = allocated chunks' := (perm.map _).sum_nat

theorem Counted.perm (perm : chunks.Perm chunks') (counted : Counted heap chunks) :
    Counted heap chunks' := by
  constructor
  · exact (perm.map Chunk.addr).nodup_iff.mp counted.distinct
  · exact fun chunk member => counted.used chunk (perm.mem_iff.mpr member)
  · rw [counted.total, allocated_perm perm]

theorem Counted.owned {buf : Buf} (ok : BufOk buf) (counted : Counted heap (buf.chunks ++ others)) :
    Owned heap buf := by
  have distinct := counted.distinct
  have total := counted.total
  rw [List.map_append] at distinct
  rw [allocated_append] at total
  refine ⟨ok, distinct.of_append_left, ?_, by omega⟩
  exact fun chunk member => counted.used chunk (List.mem_append_left _ member)

theorem Counted.moves {heap heap' : ChunkHeap} {buf buf' : Buf}
    (counted : Counted heap (buf.chunks ++ others)) (moves : Moves heap buf heap' buf') :
    Counted heap' (buf'.chunks ++ others) := by
  have distinct := counted.distinct
  have total := counted.total
  have after := moves.total
  have next := moves.next
  rw [List.map_append, List.nodup_append] at distinct
  rw [allocated_append] at total
  have othersUsed : ∀ chunk ∈ others, chunk.addr < heap.nextAddr := fun chunk member =>
    counted.used chunk (List.mem_append_right _ member)
  constructor
  · rw [List.map_append, List.nodup_append]
    refine ⟨moves.owned.distinct, distinct.2.1, ?_⟩
    intro a inside b other same
    obtain ⟨chunk, member, rfl⟩ := List.mem_map.mp inside
    cases moves.within chunk member with
    | inl old => exact distinct.2.2 _ old b other same
    | inr new =>
      obtain ⟨chunk', member', rfl⟩ := List.mem_map.mp other
      have used := othersUsed chunk' member'
      omega
  · intro chunk member
    rcases List.mem_append.mp member with inside | other
    · exact moves.owned.used chunk inside
    · exact Nat.lt_of_lt_of_le (othersUsed chunk other) next
  · rw [allocated_append]
    omega

end

section Pool

variable {pool : BufPool} {number : Nat} {buf : Buf}

/-- The chunks besides those of one buffer. -/
def besides (pool : BufPool) (number : Nat) : List Chunk :=
  (pool.bufs.eraseIdx number).flatMap Buf.chunks ++ pool.lost

section

variable {i : Nat} {α : Type*} {a : α} {l : List α} (at_i : l[i]? = some a) {β : Type*}

include at_i

theorem flatMap_perm_eraseIdx (f : α → List β) :
    (l.flatMap f).Perm (f a ++ (l.eraseIdx i).flatMap f) := by
  obtain ⟨inside, same⟩ := List.getElem?_eq_some_iff.mp at_i
  have perm := (List.getElem_cons_eraseIdx_perm inside).symm.flatMap_right f
  rwa [same, List.flatMap_cons] at perm

theorem flatMap_set_perm (b : α) (f : α → List β) :
    ((l.set i b).flatMap f ++ f a).Perm (l.flatMap f ++ f b) := by
  obtain ⟨inside, _⟩ := List.getElem?_eq_some_iff.mp at_i
  have before := flatMap_perm_eraseIdx at_i f
  have after := flatMap_perm_eraseIdx (List.getElem?_set_self (a := b) inside) f
  rw [List.eraseIdx_set_eq] at after
  have first := after.append_right (f a)
  have second := before.append_right (f b)
  rw [List.append_assoc] at first second
  refine first.trans (List.Perm.trans ?_ second.symm)
  refine (List.Perm.append_left _ List.perm_append_comm).trans ?_
  refine List.perm_append_comm.trans ?_
  rw [List.append_assoc]

end

theorem live_perm (pool : BufPool) (at_number : pool.bufs[number]? = some buf) :
    (live pool).Perm (buf.chunks ++ besides pool number) := by
  rw [live, besides, ← List.append_assoc]
  exact (flatMap_perm_eraseIdx at_number Buf.chunks).append_right _

theorem PoolOk.owned (ok : PoolOk pool) (at_number : pool.bufs[number]? = some buf) :
    Owned pool.heap buf :=
  (ok.counted.perm (live_perm pool at_number)).owned (ok.bufs buf (List.mem_of_getElem? at_number))

theorem PoolOk.set (ok : PoolOk pool) (at_number : pool.bufs[number]? = some buf)
    {heap' : ChunkHeap} {buf' : Buf} (moves : Moves pool.heap buf heap' buf') :
    PoolOk { pool with bufs := pool.bufs.set number buf', heap := heap' } := by
  obtain ⟨inside, _⟩ := List.getElem?_eq_some_iff.mp at_number
  have stored : (pool.bufs.set number buf')[number]? = some buf' := List.getElem?_set_self inside
  constructor
  · intro other member
    rcases List.mem_or_eq_of_mem_set member with old | rfl
    · exact ok.bufs other old
    · exact moves.owned.toBufOk
  · have after := (ok.counted.perm (live_perm pool at_number)).moves moves
    apply after.perm
    have perm := live_perm { pool with bufs := pool.bufs.set number buf', heap := heap' } stored
    rw [besides] at perm
    simp only [List.eraseIdx_set_eq] at perm
    exact perm.symm

end Pool

/-! ## The calls -/

/-- The strings of the buffers. -/
def contents (pool : BufPool) : Queues := pool.bufs.map content

section Calls

variable {pool : BufPool} {number : Nat} {buf : Buf}

theorem contents_get (pool : BufPool) (at_number : pool.bufs[number]? = some buf) :
    (contents pool)[number]? = some (content buf) := by
  rw [contents, List.getElem?_map, at_number, Option.map_some]

section

variable {qs : Queues} {q : List UInt8}

theorem buf_of_contents (at_number : (contents pool)[number]? = some q) :
    ∃ buf, pool.bufs[number]? = some buf ∧ content buf = q := by
  rw [contents, List.getElem?_map] at at_number
  exact Option.map_eq_some_iff.mp at_number

theorem totalLength_cons (q : List UInt8) (qs : Queues) :
    totalLength (q :: qs) = q.length + totalLength qs := by
  rw [totalLength, List.map_cons, List.sum_cons, totalLength]

theorem length_le_totalLength (member : q ∈ qs) : q.length ≤ totalLength qs := by
  induction qs with
  | nil => cases member
  | cons other qs ih =>
    rw [totalLength_cons]
    rcases List.mem_cons.mp member with rfl | later
    · omega
    · have le := ih later
      omega

theorem content_small (at_number : pool.bufs[number]? = some buf)
    (small : totalLength (contents pool) < intMax) : (content buf).length ≤ bufMaxLen := by
  have le := length_le_totalLength (List.mem_of_getElem? (contents_get pool at_number))
  simp only [intMax, bufMaxLen] at small ⊢
  omega

/-- What a call does: the buffers stay in order and stand for these strings. -/
def Does (call : Option (BufPool × BufReturn)) (qs' : Queues) (result : BufReturn) : Prop :=
  ∃ pool', call = some (pool', result) ∧ PoolOk pool' ∧ contents pool' = qs'

section

variable (ok : PoolOk pool) (at_number : pool.bufs[number]? = some buf) {buf' : Buf}
  {heap' : ChunkHeap} (moves : Moves pool.heap buf heap' buf') {result : BufReturn}
  {call : ChunkHeap → Buf → Option (BufReturn × Buf × ChunkHeap)}

include ok at_number moves

theorem onBuf_does {q' : List UInt8} (after : content buf' = q')
    (run : call pool.heap buf = some (result, buf', heap')) :
    Does (onBuf pool number call) ((contents pool).set number q') result := by
  refine ⟨_, ?_, ok.set at_number moves, ?_⟩
  · rw [onBuf, at_number, Option.bind_some, run, Option.map_some]
  · rw [contents, contents]
    simp only
    rw [List.map_set, after]

theorem onBuf_keeps (after : content buf' = content buf)
    (run : call pool.heap buf = some (result, buf', heap')) :
    Does (onBuf pool number call) (contents pool) result := by
  have done := onBuf_does ok at_number moves after run
  obtain ⟨inside, same⟩ := List.getElem?_eq_some_iff.mp (contents_get pool at_number)
  rwa [← same, List.set_getElem_self] at done

end

theorem new_does (ok : PoolOk pool) (buf : Buf) (empty : buf.chunks = []) (tail : buf.tail = none)
    (datalen : buf.datalen = 0) :
    PoolOk { pool with bufs := pool.bufs ++ [buf] }
      ∧ contents { pool with bufs := pool.bufs ++ [buf] } = contents pool ++ [[]] := by
  have none : content buf = [] := by rw [content, empty]; rfl
  refine ⟨⟨?_, ?_⟩, ?_⟩
  · intro other member
    rcases List.mem_append.mp member with old | new
    · exact ok.bufs other old
    · rw [List.mem_singleton.mp new]
      refine ⟨?_, ?_, ?_, by rw [datalen, none]; rfl⟩
      · rw [empty]
        exact fun _ member => absurd member List.not_mem_nil
      · rw [empty]
        exact fun _ member => absurd member List.not_mem_nil
      · rw [tail, empty]
        rfl
  · have counted := ok.counted
    rw [live] at counted ⊢
    simp only at counted ⊢
    rwa [List.flatMap_append, List.flatMap_singleton, empty, List.append_nil]
  · rw [contents, contents]
    simp only
    rw [List.map_append, List.map_singleton, none]

theorem copy_does (ok : PoolOk pool) (at_number : pool.bufs[number]? = some buf) :
    Does (bufStep pool (.copy number)) (contents pool ++ [content buf]) ⟨0, [], 0⟩ := by
  obtain ⟨owned, same, addrs, next, total⟩ := bufCopy_spec (ok.owned at_number)
  have run : bufStep pool (.copy number)
      = some ({ pool with
          bufs := pool.bufs ++ [(bufCopy pool.heap buf).1]
          heap := (bufCopy pool.heap buf).2 }, ⟨0, [], 0⟩) := by
    rw [bufStep, at_number]
    rfl
  refine ⟨_, run, ⟨?_, ?_⟩, ?_⟩
  · intro other member
    rcases List.mem_append.mp member with old | new
    · exact ok.bufs other old
    · rw [List.mem_singleton.mp new]
      exact owned.toBufOk
  · have counted := ok.counted
    have rest : Counted (bufCopy pool.heap buf).2
        (live pool ++ (bufCopy pool.heap buf).1.chunks) := by
      constructor
      · rw [List.map_append, List.nodup_append]
        refine ⟨counted.distinct, owned.distinct, ?_⟩
        intro a old b new equal
        obtain ⟨chunk, member, rfl⟩ := List.mem_map.mp old
        obtain ⟨chunk', member', rfl⟩ := List.mem_map.mp new
        have used := counted.used chunk member
        have fresh := addrs chunk' member'
        omega
      · intro chunk member
        rcases List.mem_append.mp member with old | new
        · exact Nat.lt_of_lt_of_le (counted.used chunk old) next
        · exact owned.used chunk new
      · rw [total, allocated_append, counted.total]
    apply rest.perm
    rw [live, live]
    simp only
    rw [List.flatMap_append, List.flatMap_singleton, List.append_assoc, List.append_assoc]
    exact List.Perm.append_left _ List.perm_append_comm
  · rw [contents, contents]
    simp only
    rw [List.map_append, List.map_singleton, same]

theorem getLine_does (ok : PoolOk pool) (at_number : pool.bufs[number]? = some buf)
    (small : (content buf).length ≤ bufMaxLen) (dataLen : Nat) :
    Does (bufStep pool (.getLine number dataLen))
      (match (content buf).findIdx? (· = newline) with
        | some sz => if sz + 2 > dataLen then contents pool
          else (contents pool).set number ((content buf).drop (sz + 1))
        | none => contents pool)
      (match (content buf).findIdx? (· = newline) with
        | some sz => if sz + 2 > dataLen then ⟨-1, [], sz + 2⟩
          else ⟨1, (content buf).take (sz + 1) ++ [0], sz + 1⟩
        | none => ⟨0, [], dataLen⟩) := by
  have owned := ok.owned at_number
  have stays := Moves.refl owned
  rw [bufStep]
  by_cases none : buf.chunks = []
  · have empty : content buf = [] := by rw [content, none]; rfl
    rw [empty]
    apply onBuf_keeps ok at_number stays rfl
    rw [bufGetLine, if_pos none]
    rfl
  · have offset : bufFindOffsetOfChar buf newline
        = some ((content buf).findIdx? (· = newline)) := by
      rw [bufFindOffsetOfChar, if_pos (by rw [owned.datalen]; exact small),
        findOffsetLoop_spec newline buf.chunks owned.fits 0, content]
      simp
    cases found : (content buf).findIdx? (· = newline) with
    | none =>
      rw [found] at offset
      apply onBuf_keeps ok at_number stays rfl
      rw [bufGetLine, if_neg none, offset]
      rfl
    | some sz =>
      rw [found] at offset
      obtain ⟨inside, _⟩ := List.findIdx?_eq_some_iff_getElem.mp found
      simp only
      by_cases long : sz + 2 > dataLen
      · rw [if_pos long, if_pos long]
        apply onBuf_keeps ok at_number stays rfl
        rw [bufGetLine, if_neg none, offset]
        simp only
        rw [if_pos long]
        rfl
      · obtain ⟨buf', heap', run, moves, after⟩ := bufGetBytes_spec owned small inside
        rw [if_neg long, if_neg long]
        apply onBuf_does ok at_number moves after
        rw [bufGetLine, if_neg none, offset]
        simp only
        rw [if_neg long, ← Nat.succ_eq_add_one, run]
        rfl

/-! ## Moving bytes between buffers -/

theorem moveBytes_moveBytes (out : Nat) {inp n len : Nat} (at_inp : qs[inp]? = some q)
    (first : n ≤ len) (enough : len ≤ q.length) :
    ∃ q', (moveBytes qs out inp n q)[inp]? = some q' ∧ len - n ≤ q'.length
      ∧ moveBytes (moveBytes qs out inp n q) out inp (len - n) q' = moveBytes qs out inp len q := by
  obtain ⟨inside, _⟩ := List.getElem?_eq_some_iff.mp at_inp
  have rest : q.drop len = (q.drop n).drop (len - n) := by
    rw [List.drop_drop]
    congr 1
    omega
  have parts : q.take len = q.take n ++ (q.drop n).take (len - n) := by
    rw [← List.take_add]
    congr 1
    omega
  have dropped : (q.drop n).length = q.length - n := List.length_drop
  by_cases same : out = inp
  · subst same
    have moved : ∀ m, moveBytes qs out out m q = qs.set out (q.drop m ++ q.take m) := by
      intro m
      rw [moveBytes, List.modify_eq_set_getElem?, List.getElem?_set_self inside]
      simp [List.set_set]
    refine ⟨q.drop n ++ q.take n, ?_, ?_, ?_⟩
    · rw [moved, List.getElem?_set_self inside]
    · rw [List.length_append]
      omega
    · have inside' : out < (qs.set out (q.drop n ++ q.take n)).length := by rwa [List.length_set]
      rw [moved, moved, moveBytes, List.modify_eq_set_getElem?, List.getElem?_set_self inside',
        List.set_set]
      simp only [List.set_set]
      rw [rest, parts, List.drop_append_of_le_length (by omega),
        List.take_append_of_le_length (by omega), ← List.append_assoc]
      rfl
  · refine ⟨q.drop n, ?_, by omega, ?_⟩
    · simp [moveBytes, same, inside]
    · rw [moveBytes, moveBytes, moveBytes, rest, parts]
      apply List.ext_getElem?
      intro i
      simp only [List.getElem?_modify, List.getElem?_set, List.length_modify, List.length_set]
      split_ifs <;> simp_all [Function.comp_def]

theorem totalLength_set {i : Nat} (at_i : qs[i]? = some q) (q' : List UInt8) :
    totalLength (qs.set i q') + q.length = totalLength qs + q'.length := by
  induction qs generalizing i with
  | nil => cases at_i
  | cons other qs ih =>
    cases i with
    | zero =>
      rw [List.getElem?_cons_zero, Option.some.injEq] at at_i
      rw [List.set_cons_zero, totalLength_cons, totalLength_cons, at_i]
      omega
    | succ i =>
      rw [List.getElem?_cons_succ] at at_i
      have rest := ih at_i
      rw [List.set_cons_succ, totalLength_cons, totalLength_cons]
      omega

theorem totalLength_moveBytes {out inp n : Nat} (at_inp : qs[inp]? = some q)
    (at_out : out < qs.length) (enough : n ≤ q.length) :
    totalLength (moveBytes qs out inp n q) = totalLength qs := by
  have inside : out < (qs.set inp (q.drop n)).length := by rwa [List.length_set]
  have got := List.getElem?_eq_getElem inside
  have first := totalLength_set at_inp (q.drop n)
  generalize (qs.set inp (q.drop n))[out] = dest at got
  have second := totalLength_set got (dest ++ q.take n)
  rw [moveBytes, List.modify_eq_set_getElem?, got]
  rw [List.length_append, List.length_take] at second
  rw [List.length_drop] at first
  simp only [Option.map_eq_map, Option.map_some, Option.getD_some]
  omega

/-- One turn of the loop: some bytes are taken and added. -/
theorem moveTurn_does (ok : PoolOk pool) {out inp n : Nat} (at_out : out < pool.bufs.length)
    (at_inp : (contents pool)[inp]? = some q) (enough : n ≤ q.length)
    (small : totalLength (contents pool) < intMax) :
    ∃ bufIn heap1 value bufOut heap' value',
      (pool.bufs[inp]?.bind fun buf => bufGetBytes pool.heap buf n)
          = some (value, q.take n, bufIn, heap1)
        ∧ ((pool.bufs.set inp bufIn)[out]?.bind fun buf => bufAdd heap1 buf (q.take n))
          = some (value', bufOut, heap')
        ∧ PoolOk { pool with bufs := (pool.bufs.set inp bufIn).set out bufOut, heap := heap' }
        ∧ contents { pool with bufs := (pool.bufs.set inp bufIn).set out bufOut, heap := heap' }
          = moveBytes (contents pool) out inp n q := by
  obtain ⟨buf, at_buf, rfl⟩ := buf_of_contents at_inp
  obtain ⟨bufIn, heap1, taken, moves, after⟩ :=
    bufGetBytes_spec (ok.owned at_buf) (content_small at_buf small) enough
  have ok1 := ok.set at_buf moves
  have contents1 : contents { pool with bufs := pool.bufs.set inp bufIn, heap := heap1 }
      = (contents pool).set inp ((content buf).drop n) := by
    rw [contents, contents]
    simp only
    rw [List.map_set, after]
  have inside : out < (pool.bufs.set inp bufIn).length := by rwa [List.length_set]
  have at_dest : (pool.bufs.set inp bufIn)[out]? = some (pool.bufs.set inp bufIn)[out] :=
    List.getElem?_eq_getElem inside
  generalize (pool.bufs.set inp bufIn)[out] = dest at at_dest
  have total := totalLength_set at_inp ((content buf).drop n)
  have le := length_le_totalLength (List.mem_of_getElem? (contents_get
    { pool with bufs := pool.bufs.set inp bufIn, heap := heap1 } at_dest))
  have room : (content dest).length + ((content buf).take n).length ≤ bufMaxLen := by
    rw [contents1] at le
    rw [List.length_drop] at total
    rw [List.length_take]
    simp only [intMax, bufMaxLen] at small ⊢
    omega
  obtain ⟨bufOut, heap', added, moves', after'⟩ :=
    bufAdd_spec (ok1.owned at_dest) ((content buf).take n) room
  refine ⟨bufIn, heap1, _, bufOut, heap', _, by rw [at_buf, Option.bind_some, taken],
    by rw [at_dest, Option.bind_some, added], ok1.set at_dest moves', ?_⟩
  rw [contents] at contents1 ⊢
  simp only at contents1 ⊢
  have got : ((contents pool).set inp ((content buf).drop n))[out]? = some (content dest) := by
    rw [← contents1, List.getElem?_map, at_dest, Option.map_some]
  rw [List.map_set, contents1, after', moveBytes, List.modify_eq_set_getElem?, got]
  rfl

theorem moveLoop_does (len : Nat) (pool : BufPool) {out inp : Nat} (ok : PoolOk pool)
    (at_out : out < pool.bufs.length) (at_inp : (contents pool)[inp]? = some q)
    (enough : len ≤ q.length) (small : totalLength (contents pool) < intMax) :
    ∃ bufs heap, moveLoop pool.heap pool.bufs out inp len = some (bufs, heap)
      ∧ PoolOk { pool with bufs := bufs, heap := heap }
      ∧ contents { pool with bufs := bufs, heap := heap }
        = moveBytes (contents pool) out inp len q := by
  induction len using Nat.strongRecOn generalizing pool q with
  | ind len ih =>
    rw [moveLoop]
    by_cases zero : len = 0
    · rw [if_pos zero]
      refine ⟨_, _, rfl, ok, ?_⟩
      obtain ⟨inside, same⟩ := List.getElem?_eq_some_iff.mp at_inp
      rw [zero, moveBytes, List.drop_zero, List.take_zero, ← same, List.set_getElem_self]
      simp only [List.append_nil]
      exact (List.modify_id _ _).symm
    · rw [if_neg zero]
      have part : 0 < (if len > 4096 then 4096 else len) ∧ (if len > 4096 then 4096 else len) ≤ len := by
        split <;> omega
      generalize (if len > 4096 then 4096 else len) = n at part
      obtain ⟨bufIn, heap1, value, bufOut, heap', value', taken, added, ok', contents'⟩ :=
        moveTurn_does ok at_out at_inp (Nat.le_trans part.2 enough) small
      obtain ⟨q', at_inp', enough', whole⟩ := moveBytes_moveBytes out at_inp part.2 enough
      rw [← contents'] at at_inp' whole
      have same : totalLength (contents
          { pool with bufs := (pool.bufs.set inp bufIn).set out bufOut, heap := heap' })
          = totalLength (contents pool) := by
        rw [contents']
        exact totalLength_moveBytes at_inp (by rwa [contents, List.length_map])
          (Nat.le_trans part.2 enough)
      obtain ⟨bufs, heap, run, okEnd, contentsEnd⟩ := ih (len - n) (by omega)
        { pool with bufs := (pool.bufs.set inp bufIn).set out bufOut, heap := heap' } ok'
        (by simpa using at_out) at_inp' enough' (by rwa [same])
      simp only [taken, added]
      exact ⟨bufs, heap, run, okEnd, contentsEnd.trans whole⟩

end

theorem moveToBuf_does (ok : PoolOk pool) {out inp flushlen : Nat} {qOut qIn : List UInt8}
    (at_out : (contents pool)[out]? = some qOut) (at_inp : (contents pool)[inp]? = some qIn)
    (small : totalLength (contents pool) < intMax) :
    Does (bufStep pool (.moveToBuf out inp flushlen))
      (if moveRefused qOut flushlen then contents pool
        else moveBytes (contents pool) out inp (min flushlen qIn.length) qIn)
      (if moveRefused qOut flushlen then ⟨-1, [], flushlen⟩
        else ⟨((min flushlen qIn.length : Nat) : Int), [], flushlen - min flushlen qIn.length⟩) := by
  obtain ⟨bufOut, at_bufOut, rfl⟩ := buf_of_contents at_out
  obtain ⟨bufIn, at_bufIn, rfl⟩ := buf_of_contents at_inp
  have lengthOut := (ok.owned at_bufOut).datalen
  have lengthIn := (ok.owned at_bufIn).datalen
  have short := content_small at_bufIn small
  rw [bufStep, bufMoveToBuf, at_bufOut, at_bufIn]
  simp only [lengthOut, lengthIn]
  by_cases refused : moveRefused (content bufOut) flushlen = true
  · rw [if_pos refused, if_pos refused]
    simp only [moveRefused, decide_eq_true_eq, ← or_assoc] at refused
    refine ⟨pool, ?_, ok, rfl⟩
    by_cases first : (content bufOut).length > bufMaxLen ∨ flushlen > bufMaxLen
    · rw [if_pos first]
    · rw [if_neg first, if_pos (refused.resolve_left first)]
  · rw [if_neg refused, if_neg refused]
    simp only [moveRefused, decide_eq_true_eq, ← or_assoc, not_or] at refused
    have count : (if flushlen > (content bufIn).length then (content bufIn).length else flushlen)
        = min flushlen (content bufIn).length := by
      split <;> omega
    rw [if_neg (by omega), if_neg refused.2, count, if_pos (by omega)]
    obtain ⟨bufs, heap, run, ok', contents'⟩ := moveLoop_does (min flushlen (content bufIn).length)
      pool ok (List.getElem?_eq_some_iff.mp at_bufOut).1 at_inp (Nat.min_le_right _ _) small
    exact ⟨_, by rw [run]; rfl, ok', contents'⟩

/-- All chunks of one buffer come after those of another one. -/
theorem join_ok {heap : ChunkHeap} {out inp : Buf} {others : List Chunk} (okOut : BufOk out)
    (okIn : BufOk inp) (counted : Counted heap (out.chunks ++ others)) (more : inp.chunks ≠ []) :
    (if out.chunks = [] then some inp.chunks
        else out.tail.map fun tail => linkAfter tail inp.chunks out.chunks)
        = some (out.chunks ++ inp.chunks)
      ∧ BufOk { out with
        chunks := out.chunks ++ inp.chunks
        tail := inp.tail
        datalen := out.datalen + inp.datalen } := by
  constructor
  · rcases List.eq_nil_or_concat' out.chunks with none | ⟨front, last, split⟩
    · rw [if_pos none, none, List.nil_append]
    · have distinct := (counted.owned okOut).distinct
      have tail := okOut.tail
      rw [split] at distinct tail
      rw [if_neg (by rw [split]; simp), tail, List.getLast?_concat, Option.map_some,
        Option.map_some, split, linkAfter_last _ distinct, List.append_assoc]
      rfl
  · constructor
    · intro chunk member
      exact (List.mem_append.mp member).elim (okOut.fits chunk) (okIn.fits chunk)
    · intro chunk member
      exact (List.mem_append.mp member).elim (okOut.full chunk) (okIn.full chunk)
    · simp only
      rw [okIn.tail, List.getLast?_append_of_ne_nil _ more]
    · rw [content]
      simp only
      rw [List.flatMap_append, List.length_append, okOut.datalen, okIn.datalen, content, content]

theorem moveAll_does (ok : PoolOk pool) {out inp : Nat} {qOut qIn : List UInt8}
    (at_out : (contents pool)[out]? = some qOut) (at_inp : (contents pool)[inp]? = some qIn) :
    Does (bufStep pool (.moveAll out inp))
      (if qIn = [] ∨ moveAllRefused qOut qIn then contents pool
        else ((contents pool).set out (qOut ++ qIn)).set inp [])
      (if qIn = [] ∨ moveAllRefused qOut qIn then ⟨0, [], 0⟩ else ⟨(qIn.length : Int), [], 0⟩) := by
  obtain ⟨bufOut, at_bufOut, rfl⟩ := buf_of_contents at_out
  obtain ⟨bufIn, at_bufIn, rfl⟩ := buf_of_contents at_inp
  have lengthOut := (ok.owned at_bufOut).datalen
  have lengthIn := (ok.owned at_bufIn).datalen
  have emptyOk : BufOk { bufIn with chunks := [], tail := none, datalen := 0 } :=
    ⟨fun _ member => absurd member List.not_mem_nil, fun _ member => absurd member List.not_mem_nil,
      rfl, rfl⟩
  rw [bufStep, bufMoveAll, at_bufOut, at_bufIn]
  simp only [lengthOut, lengthIn, List.length_eq_zero_iff]
  by_cases empty : content bufIn = []
  · have either : content bufIn = [] ∨ moveAllRefused (content bufOut) (content bufIn) = true :=
      .inl empty
    rw [if_pos empty, if_pos either, if_pos either]
    exact ⟨pool, rfl, ok, rfl⟩
  rw [if_neg empty]
  by_cases refused : moveAllRefused (content bufOut) (content bufIn) = true
  · have either : content bufIn = [] ∨ moveAllRefused (content bufOut) (content bufIn) = true :=
      .inr refused
    rw [if_pos either, if_pos either]
    simp only [moveAllRefused, decide_eq_true_eq, ← or_assoc] at refused
    refine ⟨pool, ?_, ok, rfl⟩
    by_cases first : (content bufOut).length > bufMaxLen ∨ (content bufIn).length > bufMaxLen
    · rw [if_pos first]
    · rw [if_neg first, if_pos (refused.resolve_left first)]
  · have neither : ¬ (content bufIn = [] ∨ moveAllRefused (content bufOut) (content bufIn) = true) :=
      not_or.mpr ⟨empty, refused⟩
    rw [if_neg neither, if_neg neither]
    simp only [moveAllRefused, decide_eq_true_eq, ← or_assoc, not_or] at refused
    rw [if_neg (by omega), if_neg refused.2]
    by_cases same : out = inp
    · subst same
      rw [at_bufIn, Option.some.injEq] at at_bufOut
      rw [if_pos rfl]
      refine ⟨_, rfl, ⟨?_, ?_⟩, ?_⟩
      · intro other member
        rcases List.mem_or_eq_of_mem_set member with old | rfl
        · exact ok.bufs other old
        · exact emptyOk
      · apply ok.counted.perm
        have perm := flatMap_set_perm at_bufIn
          { bufIn with chunks := [], tail := none, datalen := 0 } Buf.chunks
        rw [List.append_nil] at perm
        rw [live, live]
        simp only
        rw [← List.append_assoc]
        refine (perm.symm.append_right _).trans ?_
        rw [List.append_assoc, List.append_assoc]
        exact List.Perm.append_left _ List.perm_append_comm
      · rw [List.set_set, contents, contents]
        simp only
        rw [List.map_set]
        rfl
    · have more : bufIn.chunks ≠ [] := by
        intro none
        exact empty (by rw [content, none]; rfl)
      obtain ⟨linked, joined⟩ := join_ok (ok.bufs bufOut (List.mem_of_getElem? at_bufOut))
        (ok.bufs bufIn (List.mem_of_getElem? at_bufIn)) (ok.counted.perm (live_perm pool at_bufOut))
        more
      rw [lengthOut, lengthIn] at joined
      rw [if_neg same, linked, Option.map_some]
      refine ⟨_, rfl, ⟨?_, ?_⟩, ?_⟩
      · intro other member
        rcases List.mem_or_eq_of_mem_set member with inside | rfl
        · rcases List.mem_or_eq_of_mem_set inside with old | rfl
          · exact ok.bufs other old
          · exact joined
        · exact emptyOk
      · apply ok.counted.perm
        have first := flatMap_set_perm at_bufOut
          { bufOut with
            chunks := bufOut.chunks ++ bufIn.chunks
            tail := bufIn.tail
            datalen := (content bufOut).length + (content bufIn).length } Buf.chunks
        have at_inp' : (pool.bufs.set out
            { bufOut with
              chunks := bufOut.chunks ++ bufIn.chunks
              tail := bufIn.tail
              datalen := (content bufOut).length + (content bufIn).length })[inp]? = some bufIn := by
          rw [List.getElem?_set_ne same, at_bufIn]
        have second := flatMap_set_perm at_inp'
          { bufIn with chunks := [], tail := none, datalen := 0 } Buf.chunks
        rw [List.append_nil] at second
        have both := (second.append_right bufOut.chunks).trans first
        rw [List.append_assoc] at both
        have cancel := (List.perm_append_right_iff _).mp
          (both.trans (List.Perm.append_left _ List.perm_append_comm))
        rw [live, live]
        exact cancel.symm.append_right _
      · rw [contents, contents]
        simp only
        rw [List.map_set, List.map_set, content]
        simp only
        rw [List.flatMap_append]
        rfl

end Calls

/-! ## Runs -/

/-- A call on the strings is a call on the buffers, which returns the same. -/
theorem bufStep_does {pool : BufPool} (ok : PoolOk pool) {op : BufOp} {qs' : Queues}
    (small : totalLength (contents pool) < intMax) (call : QueueCall (contents pool) op qs') :
    ∃ result, Does (bufStep pool op) qs' result ∧ queueReturns (contents pool) op result := by
  obtain ⟨step, total⟩ := call
  cases op with
  | new =>
    obtain rfl := Option.some.inj step
    obtain ⟨ok', after⟩ := new_does ok bufNew rfl rfl rfl
    exact ⟨_, ⟨_, rfl, ok', after⟩, rfl⟩
  | newWithCapacity size =>
    rw [queueStep] at step
    split at step
    next below =>
      obtain rfl := Option.some.inj step
      obtain ⟨sz, found, _⟩ := bufPreferredChunkSize_spec below
      obtain ⟨ok', after⟩ := new_does ok { bufNew with defaultChunkSize := sz } rfl rfl rfl
      exact ⟨_, ⟨_, by rw [bufStep, bufNewWithCapacity, found]; rfl, ok', after⟩, rfl⟩
    next => cases step
  | copy number =>
    obtain ⟨q, at_number, rfl⟩ := Option.map_eq_some_iff.mp step
    obtain ⟨buf, at_buf, rfl⟩ := buf_of_contents at_number
    exact ⟨_, copy_does ok at_buf, rfl⟩
  | add number string =>
    obtain ⟨q, at_number, rfl⟩ := Option.map_eq_some_iff.mp step
    obtain ⟨buf, at_buf, rfl⟩ := buf_of_contents at_number
    have change := totalLength_set at_number (content buf ++ string)
    have le := length_le_totalLength (List.mem_of_getElem? at_number)
    rw [List.length_append] at change
    have room : (content buf).length + string.length ≤ bufMaxLen := by
      simp only [intMax, bufMaxLen] at total ⊢
      omega
    obtain ⟨buf', heap', run, moves, after⟩ := bufAdd_spec (ok.owned at_buf) string room
    rw [bufStep]
    refine ⟨⟨(((content buf).length + string.length : Nat) : Int), [], 0⟩,
      onBuf_does ok at_buf moves after ?_, ?_⟩
    · rw [run]
      rfl
    · intro q' at_number'
      rw [at_number, Option.some.injEq] at at_number'
      rw [← at_number']
  | peek number stringLen =>
    obtain ⟨q, at_number, rest⟩ := Option.bind_eq_some_iff.mp step
    obtain ⟨buf, at_buf, rfl⟩ := buf_of_contents at_number
    split at rest
    next enough =>
      obtain rfl := Option.some.inj rest
      have owned := ok.owned at_buf
      rw [bufStep]
      refine ⟨⟨0, (content buf).take stringLen, 0⟩,
        onBuf_keeps ok at_buf (Moves.refl owned) rfl ?_, ?_⟩
      · rw [bufPeek_spec owned.toBufOk enough]
        rfl
      · intro q' at_number'
        rw [at_number, Option.some.injEq] at at_number'
        rw [← at_number']
    next => cases rest
  | pullup number bytes inPlace =>
    obtain ⟨q, at_number, rfl⟩ := Option.map_eq_some_iff.mp step
    obtain ⟨buf, at_buf, rfl⟩ := buf_of_contents at_number
    obtain ⟨out, buf', heap', run, moves, after, start, enough⟩ :=
      bufPullup_spec inPlace (ok.owned at_buf) (content_small at_buf small) bytes
    rw [bufStep]
    refine ⟨⟨0, out, out.length⟩,
      onBuf_keeps ok at_buf moves after ?_, ?_⟩
    · rw [run]
      rfl
    · intro q' at_number'
      rw [at_number, Option.some.injEq] at at_number'
      rw [← at_number']
      exact ⟨out, rfl, start, enough⟩
  | getBytes number stringLen =>
    obtain ⟨q, at_number, rest⟩ := Option.bind_eq_some_iff.mp step
    obtain ⟨buf, at_buf, rfl⟩ := buf_of_contents at_number
    split at rest
    next enough =>
      obtain rfl := Option.some.inj rest
      obtain ⟨buf', heap', run, moves, after⟩ :=
        bufGetBytes_spec (ok.owned at_buf) (content_small at_buf small) enough
      rw [bufStep]
      refine ⟨⟨(((content buf).length - stringLen : Nat) : Int), (content buf).take stringLen, 0⟩,
        onBuf_does ok at_buf moves after ?_, ?_⟩
      · rw [run]
        rfl
      · intro q' at_number'
        rw [at_number, Option.some.injEq] at at_number'
        rw [← at_number']
    next => cases rest
  | drain number n =>
    obtain ⟨q, at_number, rest⟩ := Option.bind_eq_some_iff.mp step
    obtain ⟨buf, at_buf, rfl⟩ := buf_of_contents at_number
    split at rest
    next enough =>
      obtain rfl := Option.some.inj rest
      obtain ⟨buf', heap', run, moves, after⟩ := bufDrain_spec (ok.owned at_buf) enough
      rw [bufStep]
      refine ⟨⟨0, [], 0⟩, onBuf_does ok at_buf moves after ?_, rfl⟩
      rw [run]
      rfl
    next => cases rest
  | moveToBuf out inp flushlen =>
    obtain ⟨qOut, at_out, rest⟩ := Option.bind_eq_some_iff.mp step
    obtain ⟨qIn, at_inp, rfl⟩ := Option.map_eq_some_iff.mp rest
    refine ⟨_, moveToBuf_does ok at_out at_inp small, ?_⟩
    intro qOut' qIn' at_out' at_inp'
    rw [at_out, Option.some.injEq] at at_out'
    rw [at_inp, Option.some.injEq] at at_inp'
    rw [← at_out', ← at_inp']
  | moveAll out inp =>
    obtain ⟨qOut, at_out, rest⟩ := Option.bind_eq_some_iff.mp step
    obtain ⟨qIn, at_inp, rfl⟩ := Option.map_eq_some_iff.mp rest
    refine ⟨_, moveAll_does ok at_out at_inp, ?_⟩
    intro qOut' qIn' at_out' at_inp'
    rw [at_out, Option.some.injEq] at at_out'
    rw [at_inp, Option.some.injEq] at at_inp'
    rw [← at_out', ← at_inp']
  | getLine number dataLen =>
    obtain ⟨q, at_number, rfl⟩ := Option.map_eq_some_iff.mp step
    obtain ⟨buf, at_buf, rfl⟩ := buf_of_contents at_number
    refine ⟨_, getLine_does ok at_buf (content_small at_buf small) dataLen, ?_⟩
    intro q' at_number'
    rw [at_number, Option.some.injEq] at at_number'
    rw [← at_number']

/-- What the code checks of a buffer, and what its comments promise. -/
structure InOrder (pool : BufPool) : Prop where
  asserted : ∀ buf ∈ pool.bufs, bufAssertOk buf = true
  datalen : ∀ buf ∈ pool.bufs, buf.datalen = (buf.chunks.map Chunk.datalen).sum
  nonempty : ∀ buf ∈ pool.bufs, ∀ chunk ∈ buf.chunks.dropLast, chunk.datalen ≠ 0
  total : pool.heap.totalBytesAllocatedInChunks
    = ((live pool).map fun chunk => chunkAllocSize chunk.memlen).sum

theorem content_length {buf : Buf} (ok : BufOk buf) :
    (content buf).length = (buf.chunks.map Chunk.datalen).sum := by
  have fits := ok.fits
  rw [content]
  generalize buf.chunks = chunks at fits
  induction chunks with
  | nil => rfl
  | cons chunk chunks ih =>
    rw [List.flatMap_cons, List.length_append, bytes_length (fits chunk List.mem_cons_self),
      ih fun other member => fits other (List.mem_cons_of_mem _ member), List.map_cons, List.sum_cons]

theorem datalen_le_sum {chunks : List Chunk} {chunk : Chunk} (member : chunk ∈ chunks) :
    chunk.datalen ≤ (chunks.map Chunk.datalen).sum := by
  induction chunks with
  | nil => cases member
  | cons other chunks ih =>
    rw [List.map_cons, List.sum_cons]
    rcases List.mem_cons.mp member with rfl | later
    · omega
    · have le := ih later
      omega

theorem bufAssertOk_of_ok {buf : Buf} (ok : BufOk buf) (small : (content buf).length ≤ bufMaxLen) :
    bufAssertOk buf = true := by
  have tail := ok.tail
  have datalen := ok.datalen
  have length := content_length ok
  rw [bufAssertOk]
  cases last : buf.chunks.getLast? with
  | none =>
    rw [List.getLast?_eq_none_iff] at last
    rw [last] at tail length
    rw [tail, datalen, length]
    rfl
  | some last' =>
    rw [last, Option.map_some] at tail
    simp only [Bool.and_eq_true, List.all_eq_true, decide_eq_true_eq, beq_iff_eq]
    refine ⟨⟨?_, tail⟩, datalen.trans length⟩
    intro chunk member
    have fits := ok.fits chunk member
    have most := datalen_le_sum member
    unfold ChunkFits at fits
    omega

theorem PoolOk.inOrder {pool : BufPool} (ok : PoolOk pool)
    (small : totalLength (contents pool) < intMax) : InOrder pool := by
  constructor
  · intro buf member
    obtain ⟨number, at_number⟩ := List.getElem?_of_mem member
    exact bufAssertOk_of_ok (ok.bufs buf member) (content_small at_number small)
  · intro buf member
    rw [(ok.bufs buf member).datalen, content_length (ok.bufs buf member)]
  · intro buf member chunk inside
    exact Nat.ne_of_gt ((ok.bufs buf member).full chunk (List.dropLast_subset _ inside))
  · exact ok.counted.total

theorem bufRun_does {ts : List (Transition Queues BufOp)} {qs : Queues} (run : Run QueueCall [] ts qs) :
    ∃ pool results, bufRun bufPoolStart (ts.map Transition.input) = some (pool, results)
      ∧ PoolOk pool ∧ contents pool = qs ∧ totalLength qs < intMax
      ∧ List.Forall₂ (fun t result => queueReturns t.pre t.input result) ts results := by
  induction run with
  | nil =>
    refine ⟨bufPoolStart, [], rfl, ⟨fun _ member => absurd member List.not_mem_nil, ?_⟩, rfl, ?_,
      List.Forall₂.nil⟩
    · exact ⟨List.nodup_nil, fun _ member => absurd member List.not_mem_nil, rfl⟩
    · decide
  | snoc _ call ih =>
    obtain ⟨pool, results, done, ok, rfl, small, returned⟩ := ih
    obtain ⟨result, ⟨pool', step, ok', after⟩, returns⟩ := bufStep_does ok small call
    refine ⟨pool', results ++ [result], ?_, ok', after, call.2, ?_⟩
    · rw [bufRun] at done ⊢
      rw [List.map_append, List.foldlM_append, done]
      simp [step]
    · exact List.rel_append returned (List.Forall₂.cons returns List.Forall₂.nil)

/-- Buffers are queues of bytes: a run of calls on strings is a run on buffers, which stay in
order and return the same. -/
theorem bufRun_refines {ts : List (Transition Queues BufOp)} {qs : Queues}
    (run : Run QueueCall [] ts qs) :
    ∃ pool results, bufRun bufPoolStart (ts.map Transition.input) = some (pool, results)
      ∧ pool.bufs.map content = qs ∧ InOrder pool
      ∧ List.Forall₂ (fun t result => queueReturns t.pre t.input result) ts results := by
  obtain ⟨pool, results, done, ok, rfl, small, returned⟩ := bufRun_does run
  exact ⟨pool, results, done, rfl, ok.inOrder small, returned⟩

/-- A line is added, taken and moved. -/
theorem bufRun_refines_line :
    ∃ pool results,
      bufRun bufPoolStart [.new, .new, .add 0 [72, 10, 73], .getLine 0 8, .moveAll 1 0]
          = some (pool, results)
        ∧ pool.bufs.map content = [[], [73]] ∧ InOrder pool
        ∧ List.Forall₂ (fun (t : Transition Queues BufOp) result =>
            queueReturns t.pre t.input result)
          [⟨[], .new, [[]]⟩, ⟨[[]], .new, [[], []]⟩, ⟨[[], []], .add 0 [72, 10, 73], [[72, 10, 73], []]⟩,
            ⟨[[72, 10, 73], []], .getLine 0 8, [[73], []]⟩, ⟨[[73], []], .moveAll 1 0, [[], [73]]⟩]
          results :=
  bufRun_refines (Run.cons ⟨rfl, by decide⟩ (Run.cons ⟨rfl, by decide⟩ (Run.cons ⟨rfl, by decide⟩
    (Run.cons ⟨rfl, by decide⟩ (Run.single ⟨rfl, by decide⟩)))))

end RendezMix.Guarantees.Buffers
