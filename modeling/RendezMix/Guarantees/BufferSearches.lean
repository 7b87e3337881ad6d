import RendezMix.Guarantees.BufferContents
import RendezMix.Library.Occurrences
import RendezMix.Source.BufferSearch

/-!
# Searching a buffer for a string

`buf_find_string_offset` compares from one chunk into the next without looking whether the
next one is empty. It finds the first occurrence, and looks at stored bytes only, exactly
when no comparison at or before the first occurrence gets as far as an empty chunk.
-/
namespace RendezMix.Guarantees.Buffers
open Library.Occurrences Source.Buffers

/-- There is an empty chunk after the first `n` bytes of some chunks. -/
def emptyChunkAt : List Chunk → Nat → Prop
  | [], _ => False
  | chunk :: rest, n =>
    (chunk.datalen = 0 ∧ n = 0) ∨ (chunk.datalen ≤ n ∧ emptyChunkAt rest (n - chunk.datalen))

/-- The bytes from a position on. -/
def textAt (p : BufPos) : List UInt8 := (p.chunks.flatMap Chunk.bytes).drop p.pos

/-- There is an empty chunk `n` bytes after a position. -/
def gapAt (p : BufPos) (n : Nat) : Prop := emptyChunkAt p.chunks (p.pos + n)

def storedLength (chunks : List Chunk) : Nat := (chunks.map Chunk.datalen).sum

/-- A byte of the contents. -/
def Stored (all : List Chunk) (look : Look) : Prop := look.1 ∈ all ∧ look.2 < look.1.datalen

/-- A position in some chunks. -/
structure Placed (all : List Chunk) (p : BufPos) : Prop where
  within : ∀ chunk ∈ p.chunks, chunk ∈ all
  fits : ∀ chunk ∈ p.chunks, ChunkFits chunk
  small : p.chunkPos + storedLength p.chunks ≤ bufMaxLen

/-- A position is `n` bytes after another one. -/
structure Advanced (p : BufPos) (n : Nat) (p' : BufPos) : Prop where
  suffix : p'.chunks <:+ p.chunks
  total : p'.chunkPos + storedLength p'.chunks = p.chunkPos + storedLength p.chunks
  place : p'.chunkPos + p'.pos = p.chunkPos + p.pos + n
  text : textAt p' = (textAt p).drop n
  gaps : ∀ m, 0 < m → (gapAt p' m ↔ gapAt p (n + m))

variable {all : List Chunk} {p p' : BufPos}

section

variable {pos : Nat} {chunk : Chunk}

theorem storedLength_cons (chunk : Chunk) (rest : List Chunk) :
    storedLength (chunk :: rest) = chunk.datalen + storedLength rest := by
  simp [storedLength]

theorem Placed.advanced (placed : Placed all p) {n : Nat} (advanced : Advanced p n p') :
    Placed all p' := by
  have suffix := advanced.suffix
  have total := advanced.total
  have small := placed.small
  constructor
  · exact fun chunk member => placed.within chunk (suffix.mem member)
  · exact fun chunk member => placed.fits chunk (suffix.mem member)
  · omega

theorem Advanced.trans {p'' : BufPos} {n m : Nat} (first : Advanced p n p')
    (second : Advanced p' m p'') : Advanced p (n + m) p'' := by
  have place := first.place
  have place' := second.place
  constructor
  · exact second.suffix.trans first.suffix
  · rw [second.total, first.total]
  · omega
  · rw [second.text, first.text, List.drop_drop]
  · intro k positive
    rw [second.gaps k positive, first.gaps (m + k) (by omega), Nat.add_assoc]

theorem advanced_next (rest : List Chunk) (chunkPos : Nat) (fits : ChunkFits chunk)
    (within : pos ≤ chunk.datalen) :
    Advanced ⟨chunk :: rest, pos, chunkPos⟩ (chunk.datalen - pos)
      ⟨rest, 0, chunkPos + chunk.datalen⟩ := by
  have length := bytes_length fits
  constructor
  · exact List.suffix_cons chunk rest
  · simp only [storedLength_cons]
    omega
  · dsimp only
    omega
  · simp only [textAt, List.flatMap_cons, List.drop_drop, List.drop_zero]
    rw [show pos + (chunk.datalen - pos) = chunk.bytes.length by omega, List.drop_left]
  · intro m positive
    simp only [gapAt, emptyChunkAt]
    rw [show pos + (chunk.datalen - pos + m) - chunk.datalen = 0 + m by omega]
    constructor
    · exact fun empty => Or.inr ⟨by omega, empty⟩
    · intro empty
      rcases empty with ⟨_, zero⟩ | ⟨_, later⟩
      · omega
      · exact later

theorem byte_eq (placed : Placed all p) {rest : List Chunk} (split : p.chunks = chunk :: rest)
    (inside : p.pos < chunk.datalen) : chunk.mem[chunk.data + p.pos]? = (textAt p).head? := by
  have fits := placed.fits chunk (by rw [split]; exact List.mem_cons_self)
  have length := bytes_length fits
  rw [textAt, split, List.flatMap_cons, List.drop_append_of_le_length (by omega), List.head?_append,
    List.head?_drop]
  have within : p.pos < chunk.bytes.length := by omega
  rw [List.getElem?_eq_getElem within, Option.some_or]
  simp only [Chunk.bytes, List.getElem_take, List.getElem_drop]
  rw [List.getElem?_eq_getElem]

/-! ## Finding a character -/

theorem memchr_spec (fits : ChunkFits chunk) (ch : UInt8) (within : pos ≤ chunk.datalen) :
    ∃ looks, memchr chunk pos ch = (((chunk.bytes.drop pos).findIdx? (· = ch)).map (pos + ·), looks)
      ∧ ∀ look ∈ looks, look.1 = chunk ∧ look.2 < chunk.datalen := by
  have bytes : (chunk.mem.drop (chunk.data + pos)).take (chunk.datalen - pos)
      = chunk.bytes.drop pos := by
    rw [Chunk.bytes, List.drop_take, List.drop_drop]
  have length := bytes_length fits
  unfold memchr
  simp only [bytes]
  cases found : (chunk.bytes.drop pos).findIdx? (· = ch) with
  | some i =>
    obtain ⟨inside, -⟩ := List.findIdx?_eq_some_iff_getElem.mp found
    rw [List.length_drop] at inside
    refine ⟨_, rfl, ?_⟩
    intro look member
    obtain ⟨j, less, rfl⟩ := List.mem_map.mp member
    rw [List.mem_range] at less
    exact ⟨rfl, by dsimp only; omega⟩
  | none =>
    refine ⟨_, rfl, ?_⟩
    intro look member
    obtain ⟨j, less, rfl⟩ := List.mem_map.mp member
    rw [List.mem_range, List.length_drop] at less
    exact ⟨rfl, by dsimp only; omega⟩

/-- What `buf_find_pos_of_char` does. -/
theorem findPosLoop_spec (ch : UInt8) (p : BufPos) (placed : Placed all p)
    (within : ∀ chunk ∈ p.chunks.head?, p.pos ≤ chunk.datalen) :
    ∃ looks, (∀ look ∈ looks, Stored all look) ∧
      (((textAt p).findIdx? (· = ch) = none ∧
          findPosLoop ch p.pos p.chunkPos p.chunks = some (none, looks)) ∨
        ∃ i p', (textAt p).findIdx? (· = ch) = some i ∧ p'.OnByte ∧ Advanced p i p' ∧
          findPosLoop ch p.pos p.chunkPos p.chunks = some (some p', looks)) := by
  obtain ⟨chunks, pos, chunkPos⟩ := p
  induction chunks generalizing pos chunkPos with
  | nil =>
    refine ⟨[], by simp, Or.inl ⟨?_, rfl⟩⟩
    simp [textAt]
  | cons chunk rest ih =>
    have fits := placed.fits chunk List.mem_cons_self
    have inside : pos ≤ chunk.datalen := within chunk rfl
    have length := bytes_length fits
    have small := placed.small
    simp only [storedLength_cons] at small
    obtain ⟨looks, search, seen⟩ := memchr_spec fits ch inside
    have stored : ∀ look ∈ looks, Stored all look := by
      intro look member
      have place := seen look member
      exact ⟨by rw [place.1]; exact placed.within chunk List.mem_cons_self,
        by rw [place.1]; exact place.2⟩
    have text : textAt ⟨chunk :: rest, pos, chunkPos⟩
        = chunk.bytes.drop pos ++ rest.flatMap Chunk.bytes := by
      simp only [textAt, List.flatMap_cons]
      rw [List.drop_append_of_le_length (by omega)]
    simp only [findPosLoop, search]
    rw [text, List.findIdx?_append]
    cases found : (chunk.bytes.drop pos).findIdx? (· = ch) with
    | some i =>
      obtain ⟨before, -⟩ := List.findIdx?_eq_some_iff_getElem.mp found
      rw [List.length_drop] at before
      refine ⟨looks, stored, Or.inr ⟨i, ⟨chunk :: rest, pos + i, chunkPos⟩, rfl,
        ⟨chunk, rest, rfl, ?_⟩, ⟨List.suffix_refl _, rfl, ?_, ?_, ?_⟩, ?_⟩⟩
      · dsimp only
        omega
      · dsimp only
        omega
      · simp only [textAt, List.drop_drop]
      · intro m _
        simp only [gapAt, Nat.add_assoc]
      · simp only [Option.map_some]
        rw [if_pos (by omega)]
    | none =>
      have placed' : Placed all ⟨rest, 0, chunkPos + chunk.datalen⟩ := by
        constructor
        · exact fun other member => placed.within other (List.mem_cons_of_mem _ member)
        · exact fun other member => placed.fits other (List.mem_cons_of_mem _ member)
        · dsimp only
          omega
      obtain ⟨more, stored', cases_⟩ := ih 0 (chunkPos + chunk.datalen) placed'
        (fun other _ => Nat.zero_le _)
      refine ⟨looks ++ more, ?_, ?_⟩
      · intro look member
        rcases List.mem_append.mp member with early | late
        · exact stored look early
        · exact stored' look late
      · simp only [textAt, List.drop_zero] at cases_
        rcases cases_ with ⟨nowhere, run⟩ | ⟨i, p', at_i, onByte, advanced, run⟩
        · exact Or.inl ⟨by rw [nowhere]; rfl, by rw [run]; rfl⟩
        · refine Or.inr ⟨i + (chunk.bytes.drop pos).length, p', by rw [at_i]; rfl, onByte, ?_,
            by rw [run]; rfl⟩
          have both := (advanced_next rest chunkPos fits inside).trans advanced
          rwa [List.length_drop, length, Nat.add_comm i]

/-! ## Going on by a byte -/

/-- `buf_pos_inc` goes on by a byte, to a byte that is stored or, at a gap, to an empty chunk. -/
theorem bufPosInc_spec (placed : Placed all p) (onByte : p.OnByte) :
    (bufPosInc p = some none ∧ (textAt p).drop 1 = [] ∧ ∀ m, 0 < m → ¬ gapAt p m) ∨
      ∃ p', bufPosInc p = some (some p') ∧ Advanced p 1 p' ∧
        ((¬ gapAt p 1 ∧ p'.OnByte) ∨
          gapAt p 1 ∧ p'.pos = 0 ∧ ∃ chunk rest, p'.chunks = chunk :: rest ∧ chunk.datalen = 0) := by
  obtain ⟨chunks, pos, chunkPos⟩ := p
  obtain ⟨chunk, rest, split_, inside⟩ := onByte
  simp only at split_ inside
  subst split_
  have fits := placed.fits chunk List.mem_cons_self
  have length := bytes_length fits
  have small := placed.small
  simp only [storedLength_cons] at small
  unfold bufPosInc
  dsimp only
  rw [if_pos (by omega)]
  by_cases final : pos + 1 = chunk.datalen
  · rw [if_pos final]
    cases rest with
    | nil =>
      rw [if_pos rfl]
      refine Or.inl ⟨rfl, ?_, ?_⟩
      · simp only [textAt, List.flatMap_cons, List.flatMap_nil, List.append_nil, List.drop_drop]
        exact List.drop_eq_nil_of_le (by omega)
      · intro m positive empty
        simp only [gapAt, emptyChunkAt, and_false, or_false] at empty
        omega
    | cons next rest =>
      rw [if_neg (by simp)]
      have advanced := advanced_next (next :: rest) chunkPos fits (Nat.le_of_lt inside)
      rw [show chunk.datalen - pos = 1 by omega] at advanced
      refine Or.inr ⟨_, rfl, advanced, ?_⟩
      by_cases empty : next.datalen = 0
      · refine Or.inr ⟨?_, rfl, next, rest, rfl, empty⟩
        simp only [gapAt, emptyChunkAt]
        exact Or.inr ⟨by omega, Or.inl ⟨empty, by omega⟩⟩
      · refine Or.inl ⟨?_, next, rest, rfl, Nat.pos_of_ne_zero empty⟩
        simp only [gapAt, emptyChunkAt]
        omega
  · rw [if_neg final]
    refine Or.inr ⟨_, rfl, ⟨List.suffix_refl _, rfl, by dsimp only; omega, ?_, ?_⟩, Or.inl ⟨?_, ?_⟩⟩
    · simp only [textAt, List.drop_drop]
    · intro m _
      simp only [gapAt, Nat.add_assoc]
    · simp only [gapAt, emptyChunkAt]
      omega
    · exact ⟨chunk, rest, rfl, by dsimp only; omega⟩

/-! ## Comparing at a position -/

theorem bufMatchesAtPos_empty (all : List Chunk) {rest : List Chunk}
    (split : p.chunks = chunk :: rest) (empty : chunk.datalen = 0) {s : List UInt8}
    (some_ : s ≠ []) {isMatch : Bool} {looks : List Look}
    (run : bufMatchesAtPos p s = some (isMatch, looks)) : ∃ look ∈ looks, ¬ Stored all look := by
  have bad : ¬ Stored all (chunk, p.pos) := by
    intro stored
    have less := stored.2
    dsimp only at less
    omega
  cases s with
  | nil => exact absurd rfl some_
  | cons c s =>
    rw [bufMatchesAtPos, split] at run
    dsimp only at run
    split at run
    · simp at run
    · split at run
      · cases run
        exact ⟨_, List.mem_singleton_self _, bad⟩
      · split at run
        · cases run
          exact ⟨_, List.mem_singleton_self _, bad⟩
        · split at run
          · simp at run
          · cases run
            exact ⟨_, List.mem_singleton_self _, bad⟩
          · obtain ⟨⟨_, more⟩, -, made⟩ := Option.map_eq_some_iff.mp run
            cases made
            exact ⟨_, List.mem_cons_self, bad⟩

end

/-- A comparison that does not stumble is right and looks at stored bytes; one that does looks
at another byte. -/
theorem bufMatchesAtPos_spec (s : List UInt8) (some_ : s ≠ []) (p : BufPos) (placed : Placed all p)
    (onByte : p.OnByte) :
    (¬ StumblesAt (gapAt p) s (textAt p) →
      ∃ looks, bufMatchesAtPos p s = some (decide (s <+: textAt p), looks) ∧
        ∀ look ∈ looks, Stored all look) ∧
    (StumblesAt (gapAt p) s (textAt p) →
      ∀ isMatch looks, bufMatchesAtPos p s = some (isMatch, looks) →
        ∃ look ∈ looks, ¬ Stored all look) := by
  induction s generalizing p with
  | nil => exact absurd rfl some_
  | cons c s ih =>
    obtain ⟨chunk, rest, split_, inside⟩ := onByte
    have stored : Stored all (chunk, p.pos) :=
      ⟨placed.within chunk (by rw [split_]; exact List.mem_cons_self), inside⟩
    have one : ∀ look ∈ [(chunk, p.pos)], Stored all look := by
      intro look member
      rwa [List.mem_singleton.mp member]
    have byte := byte_eq placed split_ inside
    rw [bufMatchesAtPos, split_]
    dsimp only
    cases text : textAt p with
    | nil =>
      exfalso
      have length := bytes_length (placed.fits chunk (by rw [split_]; exact List.mem_cons_self))
      have long := congrArg List.length text
      simp only [textAt, split_, List.flatMap_cons, List.length_drop, List.length_append,
        List.length_nil] at long
      omega
    | cons d tail =>
      rw [text, List.head?_cons] at byte
      rw [byte]
      dsimp only
      by_cases same : d = c
      · subst same
        rw [if_neg (by simp)]
        cases s with
        | nil =>
          rw [if_pos rfl]
          constructor
          · exact fun _ => ⟨[(chunk, p.pos)], by simp, one⟩
          · exact fun stumbles => absurd stumbles (not_stumblesAt_singleton d)
        | cons e s =>
          rw [if_neg (by simp), stumblesAt_cons (by simp)]
          rcases bufPosInc_spec placed ⟨chunk, rest, split_, inside⟩ with
            ⟨stop, ends, noGap⟩ | ⟨p', moved, advanced, place⟩
          · rw [stop]
            rw [text, List.drop_one, List.tail_cons] at ends
            subst ends
            constructor
            · exact fun _ => ⟨[(chunk, p.pos)], by simp, one⟩
            · intro stumbles
              rcases stumbles with atGap | ⟨k, positive, _, _, atGap⟩
              · exact absurd atGap (noGap 1 (by omega))
              · exact absurd atGap (noGap (1 + k) (by omega))
          · rw [moved]
            dsimp only
            have placed' := placed.advanced advanced
            have text' := advanced.text
            rw [text, List.drop_one, List.tail_cons] at text'
            rw [← text', ← stumblesAt_congr advanced.gaps]
            rcases place with ⟨noGap, onByte'⟩ | ⟨atGap, _, next, others, split', empty⟩
            · have both := ih (by simp) p' placed' onByte'
              constructor
              · intro smooth
                obtain ⟨looks, run, seen⟩ := both.1 fun stumbles => smooth (Or.inr stumbles)
                refine ⟨(chunk, p.pos) :: looks, ?_, ?_⟩
                · rw [run, Option.map_some]
                  simp [List.cons_prefix_cons]
                · intro look member
                  rcases List.mem_cons.mp member with rfl | later
                  · exact stored
                  · exact seen look later
              · intro stumbles isMatch looks run
                obtain ⟨⟨_, more⟩, after, made⟩ := Option.map_eq_some_iff.mp run
                cases made
                obtain ⟨look, member, bad⟩ :=
                  both.2 (stumbles.resolve_left noGap) _ more after
                exact ⟨look, List.mem_cons_of_mem _ member, bad⟩
            · constructor
              · exact fun smooth => absurd (Or.inl atGap) smooth
              · intro _ isMatch looks run
                obtain ⟨⟨_, more⟩, after, made⟩ := Option.map_eq_some_iff.mp run
                cases made
                obtain ⟨look, member, bad⟩ :=
                  bufMatchesAtPos_empty all split' empty (by simp) after
                exact ⟨look, List.mem_cons_of_mem _ member, bad⟩
      · rw [if_pos same]
        have differs : ¬ (c :: s) <+: d :: tail ∧ ¬ StumblesAt (gapAt p) (c :: s) (d :: tail) :=
          head_differs (by simpa using same)
        constructor
        · intro _
          exact ⟨[(chunk, p.pos)], by rw [decide_eq_false differs.1], one⟩
        · exact fun stumbles => absurd stumbles differs.2

/-! ## The search -/

theorem asserted_of (found : p.OnByte ∨ p.pos = 0) : p.asserted = true := by
  unfold BufPos.asserted
  cases split_ : p.chunks with
  | nil => rfl
  | cons chunk rest =>
    dsimp only
    rcases found with ⟨first, others, split', inside⟩ | zero
    · rw [split_] at split'
      cases split'
      rw [if_pos (by omega)]
      exact decide_eq_true inside
    · split
      · exact decide_eq_true (by omega)
      · exact beq_iff_eq.mpr zero

theorem findStringLoop_nowhere {s : UInt8} (rest : List UInt8) {looks : List Look}
    (nowhere : bufFindPosOfChar s p = some (none, looks)) :
    findStringLoop s rest p = some (none, looks) := by
  rw [findStringLoop]
  split
  · next run => rw [run] at nowhere; cases nowhere
  · next run => rw [run] at nowhere; cases nowhere; rfl
  · next run => rw [run] at nowhere; cases nowhere

/-- A turn of the search in which the first character is found. -/
theorem findStringLoop_found {s : UInt8} (rest : List UInt8) {looks : List Look}
    (found : bufFindPosOfChar s p = some (some p', looks)) :
    findStringLoop s rest p =
      match bufMatchesAtPos p' (s :: rest) with
      | none => none
      | some (true, more) =>
        if p'.chunkPos + p'.pos ≤ bufMaxLen then some (some (p'.chunkPos + p'.pos), looks ++ more)
        else none
      | some (false, more) =>
        match bufPosInc p' with
        | none => none
        | some none => some (none, looks ++ more)
        | some (some next) =>
          (findStringLoop s rest next).map fun (offset, later) =>
            (offset, looks ++ more ++ later) := by
  rw [findStringLoop]
  split
  · next run => rw [run] at found; cases found
  · next run => rw [run] at found; cases found
  · next run =>
    rw [run] at found
    cases found
    cases bufMatchesAtPos p' (s :: rest) with
    | none => rfl
    | some outcome =>
      obtain ⟨isMatch, more⟩ := outcome
      cases isMatch with
      | true => rfl
      | false =>
        dsimp only
        split <;> simp_all

theorem drop_findIdx? {ch : UInt8} {text : List UInt8} {i : Nat}
    (found : text.findIdx? (· = ch) = some i) : ∀ q < i, (text.drop q).head? ≠ some ch := by
  obtain ⟨_, _, before⟩ := List.findIdx?_eq_some_iff_getElem.mp found
  intro q less
  have differs := before q less
  rw [List.head?_drop, List.getElem?_eq_getElem (by omega)]
  simpa using differs

/-- The search from a position that does not stumble finds the first occurrence and looks at stored
bytes; the search that stumbles looks at another byte, if it ends at all. -/
structure Searches (all : List Chunk) (s : UInt8) (rest : List UInt8) (p : BufPos) : Prop where
  finds : ¬ Stumbles (gapAt p) (s :: rest) (textAt p) →
    ∃ r looks, findStringLoop s rest p = some (r.map (p.chunkPos + p.pos + ·), looks) ∧
      FirstOccurrence (s :: rest) (textAt p) r ∧ ∀ look ∈ looks, Stored all look
  strays : Stumbles (gapAt p) (s :: rest) (textAt p) →
    ∀ r looks, findStringLoop s rest p = some (r, looks) → ∃ look ∈ looks, ¬ Stored all look

/-- The string does not begin at a start, and no comparison from there stumbles. -/
def Missed (s : UInt8) (rest : List UInt8) (p : BufPos) (q : Nat) : Prop :=
  ¬ (s :: rest) <+: (textAt p).drop q ∧
    ¬ StumblesAt (fun k => gapAt p (q + k)) (s :: rest) ((textAt p).drop q)

section

variable {n : Nat} (advanced : Advanced p n p')

include advanced

theorem stumbles_advanced {s : UInt8} {rest : List UInt8} (missed : ∀ q < n, Missed s rest p q) :
    Stumbles (gapAt p) (s :: rest) (textAt p) ↔ Stumbles (gapAt p') (s :: rest) (textAt p') := by
  rw [stumbles_skip missed, ← advanced.text]
  exact stumbles_congr fun k positive => (advanced.gaps k positive).symm

theorem firstOccurrence_advanced {s : UInt8} {rest : List UInt8} {r : Option Nat}
    (missed : ∀ q < n, Missed s rest p q) (first : FirstOccurrence (s :: rest) (textAt p') r) :
    FirstOccurrence (s :: rest) (textAt p) (r.map (n + ·)) := by
  rw [advanced.text] at first
  exact FirstOccurrence.skip (fun q less => (missed q less).1) first

end

theorem searches_never {s : UInt8} {rest : List UInt8} {looks : List Look}
    (never : ∀ q, Missed s rest p q) (result : findStringLoop s rest p = some (none, looks))
    (seen : ∀ look ∈ looks, Stored all look) : Searches all s rest p := by
  constructor
  · exact fun _ => ⟨none, looks, result, fun q => (never q).1, seen⟩
  · intro ⟨q, _, stumbles⟩
    exact absurd stumbles (never q).2

section Turn

variable {s : UInt8} {rest : List UInt8} {looks more : List Look} {i : Nat}

section

variable (run : bufFindPosOfChar s p = some (some p', looks))

include run

theorem searches_trips (stumbles : Stumbles (gapAt p) (s :: rest) (textAt p))
    (compare : ∀ isMatch more, bufMatchesAtPos p' (s :: rest) = some (isMatch, more) →
      ∃ look ∈ more, ¬ Stored all look) : Searches all s rest p := by
  refine ⟨fun smooth => absurd stumbles smooth, ?_⟩
  intro _ r all_ result
  rw [findStringLoop_found rest run] at result
  cases outcome : bufMatchesAtPos p' (s :: rest) with
  | none => simp [outcome] at result
  | some outcome_ =>
    obtain ⟨isMatch, more⟩ := outcome_
    obtain ⟨look, member, bad⟩ := compare isMatch more outcome
    rw [outcome] at result
    refine ⟨look, ?_, bad⟩
    cases isMatch with
    | true =>
      dsimp only at result
      split at result
      · cases result
        exact List.mem_append_right _ member
      · cases result
    | false =>
      dsimp only at result
      split at result
      · cases result
      · cases result
        exact List.mem_append_right _ member
      · obtain ⟨⟨_, later⟩, -, made⟩ := Option.map_eq_some_iff.mp result
        cases made
        exact List.mem_append_left _ (List.mem_append_right _ member)

/-- A turn after which the search goes on from the next byte. -/
theorem searches_onward {next : BufPos}
    (outcome : bufMatchesAtPos p' (s :: rest) = some (false, more))
    (moved : bufPosInc p' = some (some next)) (advanced : Advanced p (i + 1) next)
    (missed : ∀ q < i + 1, Missed s rest p q) (seen : ∀ look ∈ looks ++ more, Stored all look)
    (later : Searches all s rest next) : Searches all s rest p := by
  have turn := findStringLoop_found rest run
  have place := advanced.place
  rw [outcome] at turn
  rw [moved] at turn
  dsimp only at turn
  have onward := stumbles_advanced advanced missed
  constructor
  · intro smooth
    obtain ⟨r, looks', result, first, seen'⟩ := later.finds fun stumbles =>
      smooth (onward.mpr stumbles)
    refine ⟨r.map (i + 1 + ·), looks ++ more ++ looks', ?_,
      firstOccurrence_advanced advanced missed first, ?_⟩
    · have offsets : (next.chunkPos + next.pos + ·) = (p.chunkPos + p.pos + ·) ∘ (i + 1 + ·) := by
        funext k
        simp only [Function.comp_apply]
        omega
      rw [turn, result, Option.map_some, Option.map_map, offsets]
    · intro look member
      rcases List.mem_append.mp member with early | late
      · exact seen look early
      · exact seen' look late
  · intro stumbles r all_ result
    rw [turn] at result
    obtain ⟨⟨_, looks'⟩, ran, made⟩ := Option.map_eq_some_iff.mp result
    cases made
    obtain ⟨look, member, bad⟩ := later.strays (onward.mp stumbles) _ looks' ran
    exact ⟨look, List.mem_append_right _ member, bad⟩

end

end Turn

theorem findStringLoop_spec (s : UInt8) (rest : List UInt8) (p : BufPos) (placed : Placed all p)
    (start : p.OnByte ∨ p.pos = 0) : Searches all s rest p := by
  induction left : p.left using Nat.strongRecOn generalizing p with
  | ind left_ ih =>
  have asserted := asserted_of start
  obtain ⟨looks, seen, search⟩ := findPosLoop_spec s p placed (BufPos.asserted_le asserted)
  have find : bufFindPosOfChar s p = findPosLoop s p.pos p.chunkPos p.chunks := if_pos asserted
  rw [← find] at search
  rcases search with ⟨nowhere, run⟩ | ⟨i, p', found, onByte, advanced, run⟩
  · -- the first character does not occur
    refine searches_never ?_ (findStringLoop_nowhere rest run) seen
    intro q
    apply head_differs
    intro first
    have member := List.mem_of_mem_drop (List.mem_of_head? first)
    have absent := List.findIdx?_eq_none_iff.mp nowhere s member
    simp at absent
  · -- it occurs, and nothing begins before it
    have missed : ∀ q < i, Missed s rest p q :=
      fun q less => head_differs (drop_findIdx? found q less)
    have placed' := placed.advanced advanced
    have compare := bufMatchesAtPos_spec (s :: rest) (by simp) p' placed' onByte
    have here := stumbles_advanced advanced missed
    by_cases trips : StumblesAt (gapAt p') (s :: rest) (textAt p')
    · have stumbles : Stumbles (gapAt p') (s :: rest) (textAt p') :=
        ⟨0, fun q less => absurd less (Nat.not_lt_zero q), by simpa using trips⟩
      exact searches_trips run (here.mpr stumbles) (compare.2 trips)
    obtain ⟨more, outcome, seen'⟩ := compare.1 trips
    have both : ∀ look ∈ looks ++ more, Stored all look := by
      intro look member
      rcases List.mem_append.mp member with early | late
      · exact seen look early
      · exact seen' look late
    have turn := findStringLoop_found rest run
    rw [outcome] at turn
    by_cases occurs : (s :: rest) <+: textAt p'
    · -- the first occurrence
      have small : p'.chunkPos + p'.pos ≤ bufMaxLen := by
        obtain ⟨chunk, others, split_, inside⟩ := onByte
        have bound := placed'.small
        rw [split_, storedLength_cons] at bound
        omega
      rw [decide_eq_true occurs] at turn
      dsimp only at turn
      rw [if_pos small] at turn
      constructor
      · intro _
        refine ⟨some i, looks ++ more, by rw [turn, advanced.place]; rfl,
          ⟨?_, fun q less => (missed q less).1⟩, both⟩
        rwa [← advanced.text]
      · intro stumbles
        exact absurd ((stumbles_at_occurrence occurs).mp (here.mp stumbles)) trips
    rw [decide_eq_false occurs] at turn outcome
    have missed' : ∀ q < i + 1, Missed s rest p q := by
      intro q less
      by_cases before : q < i
      · exact missed q before
      · rw [show q = i by omega, Missed, ← advanced.text, ← stumblesAt_congr advanced.gaps]
        exact ⟨occurs, trips⟩
    rcases bufPosInc_spec placed' onByte with ⟨stop, ends, -⟩ | ⟨next, moved, advanced', after⟩
    · -- that was the last byte
      rw [stop] at turn
      refine searches_never ?_ turn both
      intro q
      by_cases before : q < i + 1
      · exact missed' q before
      · rw [advanced.text, List.drop_drop] at ends
        rw [Missed, show q = i + 1 + (q - (i + 1)) by omega, ← List.drop_drop, ends]
        exact head_differs (by simp)
    · -- the search goes on after the first byte
      have start' : next.OnByte ∨ next.pos = 0 := by
        rcases after with ⟨_, onByte'⟩ | ⟨_, zero, _⟩
        · exact Or.inl onByte'
        · exact Or.inr zero
      have less : next.left < left_ := by
        rw [← left]
        exact Nat.lt_of_lt_of_le (bufPosInc_left onByte moved) (bufFindPosOfChar_left run).2
      exact searches_onward run outcome moved (advanced.trans advanced') missed' both
        (ih next.left less next (placed'.advanced advanced') start' rfl)

/-! ## Buffers -/

/-- What `buf_find_string_offset` promises: the first occurrence, found by looking at the
contents only. -/
def FindsFirst (buf : Buf) (s : UInt8) (rest : List UInt8) : Prop :=
  ∃ r looks, bufFindStringOffset buf s rest = some (r, looks) ∧
    FirstOccurrence (s :: rest) (content buf) r ∧ ∀ look ∈ looks, Stored buf.chunks look

theorem bufAssertOk_placed {buf : Buf} (ok : bufAssertOk buf = true) (small : buf.datalen ≤ bufMaxLen) :
    Placed buf.chunks (bufPosInit buf) := by
  unfold bufAssertOk at ok
  cases final : buf.chunks.getLast? with
  | none =>
    have none_ := List.getLast?_eq_none_iff.mp final
    constructor
    · exact fun chunk member => member
    · intro chunk member
      simp [bufPosInit, none_] at member
    · simp [bufPosInit, none_, storedLength]
  | some last =>
    simp only [final, Bool.and_eq_true, List.all_eq_true, decide_eq_true_eq, beq_iff_eq] at ok
    constructor
    · exact fun chunk member => member
    · exact fun chunk member => (ok.1.1 chunk member).2
    · simp only [bufPosInit, storedLength, Nat.zero_add]
      omega

theorem gapAt_init (buf : Buf) (n : Nat) : gapAt (bufPosInit buf) n ↔ emptyChunkAt buf.chunks n := by
  rw [gapAt, bufPosInit, Nat.zero_add]

theorem findOffsetLooks_stored (ch : UInt8) (chunks : List Chunk)
    (fits : ∀ chunk ∈ chunks, ChunkFits chunk) :
    ∀ look ∈ findOffsetLooks ch chunks, Stored chunks look := by
  induction chunks with
  | nil => simp [findOffsetLooks]
  | cons chunk rest ih =>
    obtain ⟨looks, search, seen⟩ := memchr_spec (fits chunk List.mem_cons_self) ch (Nat.zero_le _)
    have first : ∀ look ∈ looks, Stored (chunk :: rest) look := by
      intro look member
      have place := seen look member
      exact ⟨by rw [place.1]; exact List.mem_cons_self, by rw [place.1]; exact place.2⟩
    intro look member
    rw [findOffsetLooks, search] at member
    cases found : (chunk.bytes.drop 0).findIdx? (· = ch) with
    | some i =>
      rw [found] at member
      exact first look member
    | none =>
      rw [found] at member
      rcases List.mem_append.mp member with early | late
      · exact first look early
      · have later := ih (fun other inside => fits other (List.mem_cons_of_mem _ inside)) look late
        exact ⟨List.mem_cons_of_mem _ later.1, later.2⟩

theorem firstOccurrence_findIdx? (ch : UInt8) (text : List UInt8) :
    FirstOccurrence [ch] text (text.findIdx? (· = ch)) := by
  cases found : text.findIdx? (· = ch) with
  | none =>
    intro q occurs
    have member := List.mem_of_mem_drop (occurs.subset (List.mem_singleton_self ch))
    have absent := List.findIdx?_eq_none_iff.mp found ch member
    simp at absent
  | some i =>
    refine ⟨?_, fun q less => not_prefix_of_head (drop_findIdx? found q less)⟩
    obtain ⟨inside, at_i, -⟩ := List.findIdx?_eq_some_iff_getElem.mp found
    rw [List.drop_eq_getElem_cons inside, of_decide_eq_true at_i]
    simp

/-- For a buffer that passes `buf_assert_ok`, the search for a string finds the first occurrence
and looks at the contents only if and only if no start at or before the first occurrence has the
string's first characters up to an empty chunk; the search for a character always does. -/
theorem bufFindStringOffset_first_iff (buf : Buf) (ok : bufAssertOk buf = true)
    (small : buf.datalen ≤ bufMaxLen) :
    (∀ s rest, FindsFirst buf s rest ↔
      ¬ Stumbles (emptyChunkAt buf.chunks) (s :: rest) (content buf)) ∧
    ∀ ch, ∃ r, bufFindOffsetOfChar buf ch = some r ∧ FirstOccurrence [ch] (content buf) r ∧
      ∀ look ∈ findOffsetLooks ch buf.chunks, Stored buf.chunks look := by
  have placed := bufAssertOk_placed ok small
  constructor
  · intro s rest
    have search := findStringLoop_spec s rest (bufPosInit buf) placed (Or.inr rfl)
    have same : Stumbles (gapAt (bufPosInit buf)) (s :: rest) (textAt (bufPosInit buf)) ↔
        Stumbles (emptyChunkAt buf.chunks) (s :: rest) (content buf) :=
      stumbles_congr fun k _ => gapAt_init buf k
    constructor
    · intro ⟨r, looks, result, _, seen⟩ stumbles
      obtain ⟨look, member, bad⟩ := search.strays (same.mpr stumbles) r looks result
      exact bad (seen look member)
    · intro smooth
      obtain ⟨r, looks, result, first, seen⟩ := search.finds fun stumbles =>
        smooth (same.mp stumbles)
      have offset : r.map ((bufPosInit buf).chunkPos + (bufPosInit buf).pos + ·) = r := by
        simp [bufPosInit]
      rw [offset] at result
      exact ⟨r, looks, result, first, seen⟩
  · intro ch
    refine ⟨_, ?_, firstOccurrence_findIdx? ch (content buf),
      findOffsetLooks_stored ch buf.chunks placed.fits⟩
    have found := findOffsetLoop_spec ch buf.chunks placed.fits 0
    rw [bufFindOffsetOfChar, if_pos small, found]
    simp [content]

/-- A string over two chunks. -/
def twoChunks : Buf := ⟨[⟨0, [65, 13, 10], 0, 3⟩, ⟨1, [13, 10], 0, 2⟩], some 1, 5, 4096⟩

theorem bufFindStringOffset_first_iff_twoChunks : FindsFirst twoChunks 13 [10, 13, 10] := by
  have exact_ := bufFindStringOffset_first_iff twoChunks (by decide) (by decide)
  apply (exact_.1 13 [10, 13, 10]).mpr
  intro ⟨p, _, k, _, _, _, empty⟩
  simp only [twoChunks, emptyChunkAt, and_false, or_false] at empty
  omega

/-- The tail of this buffer, added by a read that then got nothing, is empty, and its memory
happens to begin with the end of a blank line. -/
def leftover : Option Buf :=
  (bufNewWithCapacity 1).bind fun buf =>
    (bufAdd ⟨0, 0⟩ buf (List.replicate 215 65 ++ [13])).bind fun (_, buf, heap) =>
      (bufReadFromFd heap buf 8 [([10, 13, 10], .wouldBlock)]).map fun (_, _, buf, _) => buf

/-- The string `"\r\n\r\n"` is found at offset 215, where it does not occur. -/
theorem bufFindStringOffset_leftover :
    ∃ buf, leftover = some buf ∧ bufAssertOk buf = true ∧ ¬ FindsFirst buf 13 [10, 13, 10] ∧
      (bufFindStringOffset buf 13 [10, 13, 10]).map Prod.fst = some (some 215) ∧
      ¬ [13, 10, 13, 10] <+: (content buf).drop 215 := by
  have run : (leftover.map fun buf =>
      ((bufFindStringOffset buf 13 [10, 13, 10]).map Prod.fst, bufAssertOk buf,
        (content buf).drop 215)) = some (some (some 215), true, [13]) := by
    decide +kernel
  obtain ⟨buf, made, values⟩ := Option.map_eq_some_iff.mp run
  simp only [Prod.mk.injEq] at values
  obtain ⟨found, ok, text⟩ := values
  have absent : ¬ [13, 10, 13, 10] <+: (content buf).drop 215 := by
    rw [text]
    decide
  refine ⟨buf, made, ok, ?_, found, absent⟩
  intro ⟨r, looks, result, first, _⟩
  rw [result, Option.map_some, Option.some.injEq] at found
  subst found
  exact absent first.1

end RendezMix.Guarantees.Buffers
