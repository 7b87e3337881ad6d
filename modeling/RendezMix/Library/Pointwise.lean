import Mathlib.Data.List.Forall2

/-!
# Lists changed item by item

A list of records in which each record moves by a relation and keeps its place.
Moves compose, and what the relation keeps of a record it keeps of the list.
-/
namespace RendezMix.Library.Pointwise

variable {α β κ : Type*} {move : α → α → Prop} {l l' l'' : List α}

theorem trans (compose : ∀ a b c, move a b → move b c → move a c)
    (first : List.Forall₂ move l l') (second : List.Forall₂ move l' l'') :
    List.Forall₂ move l l'' := by
  induction first generalizing l'' with
  | nil =>
    cases second
    exact List.Forall₂.nil
  | cons moved _ ih =>
    cases second with
    | cons next rest => exact List.Forall₂.cons (compose _ _ _ moved next) (ih rest)

theorem of_map {f : α → α} (moves : ∀ a ∈ l, move a (f a)) : List.Forall₂ move l (l.map f) :=
  List.forall₂_map_right_iff.mpr (List.forall₂_same.mpr moves)

variable {R : α → β → Prop} {f : α → Option β} {m : List β}

section

variable (moved : List.Forall₂ R l m)

include moved

theorem before {b : β} (member : b ∈ m) : ∃ a ∈ l, R a b := by
  induction moved with
  | nil => cases member
  | cons here _ ih =>
    rcases List.mem_cons.mp member with rfl | later
    · exact ⟨_, List.mem_cons_self, here⟩
    · obtain ⟨a, inside, related⟩ := ih later
      exact ⟨a, List.mem_cons_of_mem _ inside, related⟩

theorem after {a : α} (member : a ∈ l) : ∃ b ∈ m, R a b := by
  induction moved with
  | nil => cases member
  | cons here _ ih =>
    rcases List.mem_cons.mp member with rfl | later
    · exact ⟨_, List.mem_cons_self, here⟩
    · obtain ⟨b, inside, related⟩ := ih later
      exact ⟨b, List.mem_cons_of_mem _ inside, related⟩

end

/-- A key that no record changes stays the same throughout. -/
theorem map_key {key : α → κ} (keeps : ∀ a b, move a b → key b = key a)
    (moved : List.Forall₂ move l l') : l'.map key = l.map key := by
  induction moved with
  | nil => rfl
  | cons here _ ih => rw [List.map_cons, List.map_cons, keeps _ _ here, ih]

theorem zipIdx (moved : List.Forall₂ R l m) (n : Nat) :
    List.Forall₂ (fun a b => R a.1 b.1 ∧ a.2 = b.2) (l.zipIdx n) (m.zipIdx n) := by
  induction moved generalizing n with
  | nil => exact List.Forall₂.nil
  | cons here _ ih => exact List.Forall₂.cons ⟨here, rfl⟩ (ih (n + 1))

/-! ## Functions that may fail -/

theorem forall₂_of_mapM (mapped : l.mapM f = some m) :
    List.Forall₂ (fun a b => f a = some b) l m := by
  induction l generalizing m with
  | nil =>
    cases mapped
    exact List.Forall₂.nil
  | cons a l ih =>
    rw [List.mapM_cons] at mapped
    obtain ⟨b, first, more⟩ := Option.bind_eq_some_iff.mp mapped
    obtain ⟨rest, others, result⟩ := Option.bind_eq_some_iff.mp more
    cases result
    exact List.Forall₂.cons first (ih others)

/-- The results as the values of a function. -/
theorem map_of_mapM (d : β) (mapped : l.mapM f = some m) :
    ∃ g : α → β, m = l.map g ∧ ∀ a ∈ l, f a = some (g a) := by
  refine ⟨fun a => (f a).getD d, ?_⟩
  have results := forall₂_of_mapM mapped
  clear mapped
  induction results with
  | nil => exact ⟨rfl, fun a member => absurd member List.not_mem_nil⟩
  | cons here _ ih =>
    constructor
    · rw [List.map_cons, ← ih.1, here, Option.getD_some]
    · intro a member
      rcases List.mem_cons.mp member with rfl | later
      · simp only [here, Option.getD_some]
      · exact ih.2 a later

theorem mapM_congr {f g : α → Option β} (same : ∀ a ∈ l, f a = g a) : l.mapM f = l.mapM g := by
  induction l with
  | nil => rfl
  | cons a l ih =>
    rw [List.mapM_cons, List.mapM_cons, same a List.mem_cons_self,
      ih fun b member => same b (List.mem_cons_of_mem _ member)]

theorem mapM_eq_none (failed : l.mapM f = none) : ∃ a ∈ l, f a = none := by
  induction l with
  | nil => cases failed
  | cons a l ih =>
    cases first : f a with
    | none => exact ⟨a, List.mem_cons_self, first⟩
    | some b =>
      rw [List.mapM_cons, first] at failed
      cases rest : l.mapM f with
      | none =>
        obtain ⟨c, member, fails⟩ := ih rest
        exact ⟨c, List.mem_cons_of_mem _ member, fails⟩
      | some m =>
        rw [rest] at failed
        cases failed

theorem countP_of_forall₂ {p : α → Bool} {q : β → Bool} (moved : List.Forall₂ R l m)
    (agree : ∀ a b, R a b → p a = q b) : l.countP p = m.countP q := by
  induction moved with
  | nil => rfl
  | cons here _ ih => rw [List.countP_cons, List.countP_cons, ih, agree _ _ here]

end RendezMix.Library.Pointwise
