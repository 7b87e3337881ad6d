import Mathlib.Logic.Function.Basic

/-!
# One-shot timers with argument blocks

Owners each have a slot for one timer. Arming a slot allocates an argument
block that names the owner and a timer that carries the block and a payload.
When a timer fires, its block is released; the timer stays with its owner until
it is freed. A timer that is freed while it is still pending never releases its
block: such blocks are recorded as lost.
-/
namespace RendezMix.Library.TimerArena

variable {κ β : Type*}

/-- `last` and `lost` are history: the payload a slot was last armed with, and
the blocks of timers that were freed while pending. -/
structure Arena (κ β : Type*) where
  slot : κ → Option Nat
  timers : Nat → Option (Nat × Option β)
  blocks : Nat → Option κ
  brk : Nat
  last : κ → Option β
  lost : List Nat

def arm [DecidableEq κ] (a : Arena κ β) (k : κ) (b : β) : Arena κ β where
  slot := Function.update a.slot k (some (a.brk + 1))
  timers := Function.update a.timers (a.brk + 1) (some (a.brk, some b))
  blocks := Function.update a.blocks a.brk (some k)
  brk := a.brk + 2
  last := Function.update a.last k (some b)
  lost := a.lost

def fire (a : Arena κ β) (t arg : Nat) : Arena κ β :=
  { a with
    timers := Function.update a.timers t (some (arg, none))
    blocks := Function.update a.blocks arg none }

def disarm [DecidableEq κ] (a : Arena κ β) (k : κ) (t arg : Nat) (pending : Option β) : Arena κ β :=
  { a with
    slot := Function.update a.slot k none
    timers := Function.update a.timers t none
    lost := if pending.isSome then a.lost ++ [arg] else a.lost }

/-- Each timer belongs to one slot; a pending timer's block names that slot; a
block that is still allocated waits for its timer, or is lost. -/
structure Owned (a : Arena κ β) : Prop where
  slot_live : ∀ k t, a.slot k = some t → ∃ arg pending, a.timers t = some (arg, pending)
  timer_owned : ∀ t arg pending, a.timers t = some (arg, pending) → ∃ k, a.slot k = some t
  slot_unique : ∀ k k' t, a.slot k = some t → a.slot k' = some t → k = k'
  pending_block : ∀ k t arg b, a.slot k = some t → a.timers t = some (arg, some b) →
    a.blocks arg = some k ∧ a.last k = some b
  block_live : ∀ i k, a.blocks i = some k → i ∈ a.lost ∨ ∃ t b, a.timers t = some (i, some b)
  fresh_timer : ∀ t arg pending, a.timers t = some (arg, pending) → t < a.brk
  fresh_block : ∀ i k, a.blocks i = some k → i < a.brk

theorem update_eq_some {ι γ : Type*} [DecidableEq ι] {f : ι → Option γ} {i j : ι} {v : Option γ}
    {x : γ} : Function.update f i v j = some x ↔ j = i ∧ v = some x ∨ j ≠ i ∧ f j = some x := by
  by_cases same : j = i
  · subst same
    simp
  · simp [same]

section

variable {a : Arena κ β} (owned : Owned a) (k : κ) (t arg : Nat)

include owned

/-- Arming keeps ownership when the slot is free. -/
theorem Owned.arm [DecidableEq κ] (b : β) (free : a.slot k = none) : Owned (arm a k b) := by
  have oldTimer : ∀ t arg pending, a.timers t = some (arg, pending) → t ≠ a.brk + 1 := by
    intro t arg pending live
    have bound := owned.fresh_timer t arg pending live
    omega
  have oldSlot : ∀ k' t, a.slot k' = some t → t ≠ a.brk + 1 := by
    intro k' t has
    obtain ⟨arg, pending, live⟩ := owned.slot_live k' t has
    exact oldTimer t arg pending live
  refine ⟨?_, ?_, ?_, ?_, ?_, ?_, ?_⟩
  · intro k' t has
    obtain ⟨-, new⟩ | ⟨-, has⟩ := update_eq_some.mp has
    · exact ⟨_, _, update_eq_some.mpr (Or.inl ⟨(Option.some.inj new).symm, rfl⟩)⟩
    · obtain ⟨arg, pending, live⟩ := owned.slot_live k' t has
      exact ⟨arg, pending, update_eq_some.mpr (Or.inr ⟨oldSlot k' t has, live⟩)⟩
  · intro t arg pending live
    obtain ⟨rfl, -⟩ | ⟨-, live⟩ := update_eq_some.mp live
    · exact ⟨k, update_eq_some.mpr (Or.inl ⟨rfl, rfl⟩)⟩
    · obtain ⟨k', has⟩ := owned.timer_owned t arg pending live
      refine ⟨k', update_eq_some.mpr (Or.inr ⟨?_, has⟩)⟩
      rintro rfl
      rw [free] at has
      cases has
  · intro k₁ k₂ t has₁ has₂
    obtain ⟨rfl, new₁⟩ | ⟨-, has₁⟩ := update_eq_some.mp has₁
    · obtain ⟨rfl, -⟩ | ⟨-, has₂⟩ := update_eq_some.mp has₂
      · rfl
      · exact absurd (Option.some.inj new₁).symm (oldSlot k₂ t has₂)
    · obtain ⟨-, new₂⟩ | ⟨-, has₂⟩ := update_eq_some.mp has₂
      · exact absurd (Option.some.inj new₂).symm (oldSlot k₁ t has₁)
      · exact owned.slot_unique k₁ k₂ t has₁ has₂
  · intro k' t arg b' has live
    obtain ⟨rfl, new⟩ | ⟨other, has⟩ := update_eq_some.mp has
    · obtain ⟨-, new⟩ | ⟨stale, -⟩ := update_eq_some.mp live
      · cases new
        exact ⟨update_eq_some.mpr (Or.inl ⟨rfl, rfl⟩), update_eq_some.mpr (Or.inl ⟨rfl, rfl⟩)⟩
      · exact absurd (Option.some.inj new).symm stale
    · obtain ⟨new, -⟩ | ⟨-, live⟩ := update_eq_some.mp live
      · exact absurd new (oldSlot k' t has)
      · obtain ⟨block, payload⟩ := owned.pending_block k' t arg b' has live
        have below := owned.fresh_block arg k' block
        exact ⟨update_eq_some.mpr (Or.inr ⟨by omega, block⟩),
          update_eq_some.mpr (Or.inr ⟨other, payload⟩)⟩
  · intro i k' block
    obtain ⟨rfl, -⟩ | ⟨-, block⟩ := update_eq_some.mp block
    · exact Or.inr ⟨_, b, update_eq_some.mpr (Or.inl ⟨rfl, rfl⟩)⟩
    · obtain lost | ⟨t, b', live⟩ := owned.block_live i k' block
      · exact Or.inl lost
      · exact Or.inr ⟨t, b', update_eq_some.mpr (Or.inr ⟨oldTimer t i _ live, live⟩)⟩
  · intro t arg pending live
    change t < a.brk + 2
    obtain ⟨rfl, -⟩ | ⟨-, live⟩ := update_eq_some.mp live
    · omega
    · have bound := owned.fresh_timer t arg pending live
      omega
  · intro i k' block
    change i < a.brk + 2
    obtain ⟨rfl, -⟩ | ⟨-, block⟩ := update_eq_some.mp block
    · omega
    · have bound := owned.fresh_block i k' block
      omega

/-- Firing releases the block of exactly the timer that fires. -/
theorem Owned.fire (b : β) (pending : a.timers t = some (arg, some b)) : Owned (fire a t arg) := by
  obtain ⟨k, has⟩ := owned.timer_owned t arg (some b) pending
  obtain ⟨block, _⟩ := owned.pending_block k t arg b has pending
  -- two pending timers never share a block: it names one slot, which has one timer
  have otherBlock : ∀ t' arg' b', t' ≠ t → a.timers t' = some (arg', some b') → arg' ≠ arg := by
    intro t' arg' b' ne live same
    obtain ⟨k', has'⟩ := owned.timer_owned t' arg' (some b') live
    have block' := (owned.pending_block k' t' arg' b' has' live).1
    rw [same, block, Option.some.injEq] at block'
    rw [← block', has, Option.some.injEq] at has'
    exact ne has'.symm
  refine ⟨?_, ?_, owned.slot_unique, ?_, ?_, ?_, ?_⟩
  · intro k' t' has'
    by_cases same : t' = t
    · exact ⟨arg, none, update_eq_some.mpr (Or.inl ⟨same, rfl⟩)⟩
    · obtain ⟨arg', pending', live⟩ := owned.slot_live k' t' has'
      exact ⟨arg', pending', update_eq_some.mpr (Or.inr ⟨same, live⟩)⟩
  · intro t' arg' pending' live
    obtain ⟨rfl, -⟩ | ⟨-, live⟩ := update_eq_some.mp live
    · exact ⟨k, has⟩
    · exact owned.timer_owned t' arg' pending' live
  · intro k' t' arg' b' has' live
    obtain ⟨-, fired⟩ | ⟨other, live⟩ := update_eq_some.mp live
    · cases fired
    · obtain ⟨block', payload⟩ := owned.pending_block k' t' arg' b' has' live
      exact ⟨update_eq_some.mpr (Or.inr ⟨otherBlock t' arg' b' other live, block'⟩), payload⟩
  · intro i k' block'
    obtain ⟨-, released⟩ | ⟨other, block'⟩ := update_eq_some.mp block'
    · cases released
    · obtain lost | ⟨t', b', live⟩ := owned.block_live i k' block'
      · exact Or.inl lost
      · refine Or.inr ⟨t', b', update_eq_some.mpr (Or.inr ⟨?_, live⟩)⟩
        rintro rfl
        rw [pending, Option.some.injEq, Prod.mk.injEq] at live
        exact other live.1.symm
  · intro t' arg' pending' live
    obtain ⟨rfl, -⟩ | ⟨-, live⟩ := update_eq_some.mp live
    · exact owned.fresh_timer t' arg (some b) pending
    · exact owned.fresh_timer t' arg' pending' live
  · intro i k' block'
    obtain ⟨-, released⟩ | ⟨-, block'⟩ := update_eq_some.mp block'
    · cases released
    · exact owned.fresh_block i k' block'

/-- Freeing the timer of a slot, together with the slot's pointer to it. -/
theorem Owned.disarm [DecidableEq κ] (pending : Option β) (has : a.slot k = some t)
    (live : a.timers t = some (arg, pending)) : Owned (disarm a k t arg pending) := by
  refine ⟨?_, ?_, ?_, ?_, ?_, ?_, owned.fresh_block⟩
  · intro k' t' has'
    obtain ⟨-, freed⟩ | ⟨other, has'⟩ := update_eq_some.mp has'
    · cases freed
    · obtain ⟨arg', pending', live'⟩ := owned.slot_live k' t' has'
      refine ⟨arg', pending', update_eq_some.mpr (Or.inr ⟨?_, live'⟩)⟩
      intro same
      exact other (owned.slot_unique k' k t (same ▸ has') has)
  · intro t' arg' pending' live'
    obtain ⟨-, freed⟩ | ⟨other, live'⟩ := update_eq_some.mp live'
    · cases freed
    · obtain ⟨k', has'⟩ := owned.timer_owned t' arg' pending' live'
      refine ⟨k', update_eq_some.mpr (Or.inr ⟨?_, has'⟩)⟩
      rintro rfl
      rw [has, Option.some.injEq] at has'
      exact other has'.symm
  · intro k₁ k₂ t' has₁ has₂
    obtain ⟨-, freed⟩ | ⟨-, has₁⟩ := update_eq_some.mp has₁
    · cases freed
    · obtain ⟨-, freed⟩ | ⟨-, has₂⟩ := update_eq_some.mp has₂
      · cases freed
      · exact owned.slot_unique k₁ k₂ t' has₁ has₂
  · intro k' t' arg' b' has' live'
    obtain ⟨-, freed⟩ | ⟨-, has'⟩ := update_eq_some.mp has'
    · cases freed
    · obtain ⟨-, freed⟩ | ⟨-, live'⟩ := update_eq_some.mp live'
      · cases freed
      · exact owned.pending_block k' t' arg' b' has' live'
  · intro i k' block
    have grows : ∀ j ∈ a.lost, j ∈ (TimerArena.disarm a k t arg pending).lost := by
      intro j member
      simp only [TimerArena.disarm]
      split
      · exact List.mem_append_left _ member
      · exact member
    obtain lost | ⟨t', b', live'⟩ := owned.block_live i k' block
    · exact Or.inl (grows i lost)
    · by_cases same : t' = t
      · -- the timer that is freed was pending: its block is lost
        subst same
        rw [live, Option.some.injEq, Prod.mk.injEq] at live'
        obtain ⟨rfl, rfl⟩ := live'
        exact Or.inl (by simp [TimerArena.disarm])
      · exact Or.inr ⟨t', b', update_eq_some.mpr (Or.inr ⟨same, live'⟩)⟩
  · intro t' arg' pending' live'
    obtain ⟨-, freed⟩ | ⟨-, live'⟩ := update_eq_some.mp live'
    · cases freed
    · exact owned.fresh_timer t' arg' pending' live'

/-- Addresses may be spent on something else. -/
theorem Owned.grow (brk : Nat) (more : a.brk ≤ brk) : Owned { a with brk := brk } :=
  { owned with
    fresh_timer := fun t arg pending live => Nat.lt_of_lt_of_le (owned.fresh_timer t arg pending live) more
    fresh_block := fun i k block => Nat.lt_of_lt_of_le (owned.fresh_block i k block) more }

end

end RendezMix.Library.TimerArena
