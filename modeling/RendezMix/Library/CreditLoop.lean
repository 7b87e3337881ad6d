import Mathlib.Tactic.Ring

/-!
# Credit loops

A sender spends credit on items, which travel to a receiver, who holds them
until they make up a batch and returns the batch, for which the sender gets its
credit back. The sum of what is in the four places never changes.
-/
namespace RendezMix.Library.CreditLoop

structure Loop where
  /-- What the sender may still spend. -/
  credit : Int
  /-- Items on their way to the receiver. -/
  inFlight : Int
  /-- Items the receiver has got and not yet returned. -/
  held : Int
  /-- Batches on their way back. -/
  returning : Int

/-- Some items or batches move on to the next place. -/
inductive Move (batch : Int) : Loop → Loop → Prop
  | send (n : Int) {credit inFlight held returning : Int} :
      Move batch ⟨credit, inFlight, held, returning⟩ ⟨credit - n, inFlight + n, held, returning⟩
  | deliver (n : Int) {credit inFlight held returning : Int} :
      Move batch ⟨credit, inFlight, held, returning⟩ ⟨credit, inFlight - n, held + n, returning⟩
  | refund (n : Int) {credit inFlight held returning : Int} :
      Move batch ⟨credit, inFlight, held, returning⟩
        ⟨credit, inFlight, held - batch * n, returning + n⟩
  | redeem (n : Int) {credit inFlight held returning : Int} :
      Move batch ⟨credit, inFlight, held, returning⟩
        ⟨credit + batch * n, inFlight, held, returning - n⟩

/-- Any number of moves. -/
def Moves (batch : Int) : Loop → Loop → Prop := Relation.ReflTransGen (Move batch)

/-- All credit of the loop. -/
def Loop.total (batch : Int) (loop : Loop) : Int :=
  loop.credit + loop.inFlight + loop.held + batch * loop.returning

variable {batch : Int} {l₁ l₂ l₃ : Loop}

section

variable (batches items : Int)

theorem Move.total (move : Move batch l₁ l₂) : l₂.total batch = l₁.total batch := by
  cases move <;> simp only [Loop.total] <;> ring

theorem Moves.total (moves : Moves batch l₁ l₂) : l₂.total batch = l₁.total batch := by
  induction moves with
  | refl => rfl
  | tail _ last ih => rw [Move.total last, ih]

/-- The sender redeems some batches and sends some items. -/
theorem moves_of_sender (credit : l₂.credit + items = l₁.credit + batch * batches)
    (inFlight : l₂.inFlight = l₁.inFlight + items) (held : l₂.held = l₁.held)
    (returning : l₂.returning = l₁.returning - batches) : Moves batch l₁ l₂ := by
  obtain ⟨credit₁, inFlight₁, held₁, returning₁⟩ := l₁
  obtain ⟨credit₂, inFlight₂, held₂, returning₂⟩ := l₂
  simp only at credit inFlight held returning
  have spent : credit₂ = credit₁ + batch * batches - items := by omega
  subst spent inFlight held returning
  exact (Relation.ReflTransGen.single (Move.redeem batches)).tail (Move.send items)

/-- The receiver gets some items and returns some batches. -/
theorem moves_of_receiver (credit : l₂.credit = l₁.credit)
    (inFlight : l₂.inFlight = l₁.inFlight - items)
    (held : l₂.held + batch * batches = l₁.held + items)
    (returning : l₂.returning = l₁.returning + batches) : Moves batch l₁ l₂ := by
  obtain ⟨credit₁, inFlight₁, held₁, returning₁⟩ := l₁
  obtain ⟨credit₂, inFlight₂, held₂, returning₂⟩ := l₂
  simp only at credit inFlight held returning
  have kept : held₂ = held₁ + items - batch * batches := by omega
  subst credit inFlight kept returning
  exact (Relation.ReflTransGen.single (Move.deliver items)).tail (Move.refund batches)

end

end RendezMix.Library.CreditLoop
