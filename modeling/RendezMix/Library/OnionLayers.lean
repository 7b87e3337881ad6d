import Mathlib.Data.List.Basic

/-!
# Layered cells along a chain of hops

Two ends share one state for each hop of a chain. A cell is stamped with the
state of its own hop and covered with those of the hops before it; each hop
peels one layer and learns whether the cell is its own. On first-in, first-out
links, how far each hop has got says all about the chain.
-/
namespace RendezMix.Library.OnionLayers

variable {σ α : Type*}

/-- The operations of one layer, and the wrapping of a cell for hop `k` under
all of them. Peeling undoes stamping, and undoes covering unless it mistakes
the covered cell for a stamped one. -/
structure Layering (σ α : Type*) where
  blank : α → Prop
  stamp : σ → α → α × σ
  cover : σ → α → α × σ
  peel : σ → α → Bool × α × σ
  wrap : List σ → Nat → α → α × List σ
  peel_stamp : ∀ s x, blank x → peel s (stamp s x).1 = (true, x, (stamp s x).2)
  peel_cover : ∀ s c, (peel s (cover s c).1).1 = false →
    peel s (cover s c).1 = (false, c, (cover s c).2)
  wrap_own : ∀ s ls x, wrap (s :: ls) 0 x = ((stamp s x).1, (stamp s x).2 :: ls)
  wrap_beyond : ∀ s ls k x, wrap (s :: ls) (k + 1) x =
    ((cover s (wrap ls k x).1).1, (cover s (wrap ls k x).1).2 :: (wrap ls k x).2)

variable (L : Layering σ α)

/-- Hop `k` exists, its contents are blank, and no hop before it mistakes the cell. -/
def Apart : List σ → Nat → α → Prop
  | [], _, _ => False
  | _ :: _, 0, x => L.blank x
  | s :: ls, k + 1, x => Apart ls k x ∧ (L.peel s (L.cover s (L.wrap ls k x).1).1).1 = false

def wrapAll (ls : List σ) : List (Nat × α) → List α
  | [] => []
  | (k, x) :: xs => (L.wrap ls k x).1 :: wrapAll (L.wrap ls k x).2 xs

def ApartAll (ls : List σ) : List (Nat × α) → Prop
  | [] => True
  | (k, x) :: xs => Apart L ls k x ∧ ApartAll (L.wrap ls k x).2 xs

/-- A hop's run over cells: the contents it takes, and the cells it passes on. -/
def hopRun (s : σ) : List α → List α × List α
  | [] => ([], [])
  | c :: cs =>
    match L.peel s c with
    | (true, x, s) => (x :: (hopRun s cs).1, (hopRun s cs).2)
    | (false, x, s) => ((hopRun s cs).1, x :: (hopRun s cs).2)

/-- The contents each hop has taken when it has handled as many of the cells
that reach it as `counts` says. -/
def deliveries : List σ → List Nat → List α → List (List α)
  | s :: ls, n :: counts, cells =>
    let (own, onward) := hopRun L s (cells.take n)
    own :: deliveries ls counts onward
  | _, _, _ => []

/-- The contents for one hop. -/
def addressed (k : Nat) (xs : List (Nat × α)) : List α :=
  xs.filterMap fun x => if x.1 = k then some x.2 else none

variable {L}

/-- The first hop takes its own contents in order; what it passes on, the
states of the hops after it have wrapped. -/
theorem hopRun_wrapAll {s : σ} {ls : List σ} {xs : List (Nat × α)}
    (apart : ApartAll L (s :: ls) xs) (n : Nat) :
    ∃ ys, hopRun L s ((wrapAll L (s :: ls) xs).take n) =
        (addressed 0 (xs.take n), wrapAll L ls ys) ∧
      ApartAll L ls ys ∧ (∀ k, addressed k ys = addressed (k + 1) (xs.take n)) ∧
      ys.length ≤ xs.length := by
  induction xs generalizing s ls n with
  | nil => exact ⟨[], by simp [wrapAll, hopRun, addressed], trivial, by simp [addressed], Nat.le_refl _⟩
  | cons x xs ih =>
    cases n with
    | zero => exact ⟨[], rfl, trivial, fun _ => rfl, Nat.zero_le _⟩
    | succ n =>
      obtain ⟨here, later⟩ := apart
      rcases x with ⟨_ | k, x⟩
      · rw [L.wrap_own] at later
        obtain ⟨ys, run, clean, onward, short⟩ := ih later n
        refine ⟨ys, ?_, clean, fun k => ?_, Nat.le_succ_of_le short⟩
        · simp [wrapAll, L.wrap_own, hopRun, L.peel_stamp s x here, run, addressed]
        · rw [onward]
          rfl
      · rw [L.wrap_beyond] at later
        obtain ⟨ys, run, clean, onward, short⟩ := ih later n
        refine ⟨(k, x) :: ys, ?_, ⟨here.1, clean⟩, fun i => ?_, Nat.succ_le_succ short⟩
        · simp [wrapAll, L.wrap_beyond, hopRun, L.peel_cover _ _ here.2, run, addressed]
        · have rest := onward i
          unfold addressed at rest ⊢
          simp [List.filterMap_cons, rest]

/-- Each hop has taken the first of the contents for it, in order, and all of
them when every hop has handled as many cells as were sent. -/
theorem deliveries_wrapAll {ls : List σ} {xs : List (Nat × α)} (apart : ApartAll L ls xs)
    {counts : List Nat} {k : Nat} {own : List α}
    (handled : (deliveries L ls counts (wrapAll L ls xs))[k]? = some own) :
    own <+: addressed k xs ∧ ((∀ n ∈ counts, xs.length ≤ n) → own = addressed k xs) := by
  induction ls generalizing xs counts k with
  | nil => simp [deliveries] at handled
  | cons s ls ih =>
    cases counts with
    | nil => simp [deliveries] at handled
    | cons n counts =>
      obtain ⟨ys, run, clean, onward, short⟩ := hopRun_wrapAll apart n
      have front (k : Nat) : addressed k (xs.take n) <+: addressed k xs :=
        (List.take_prefix n xs).filterMap _
      have whole (all : ∀ m ∈ n :: counts, xs.length ≤ m) : xs.take n = xs :=
        List.take_of_length_le (all n (by simp))
      simp only [deliveries, run] at handled
      cases k with
      | zero =>
        obtain rfl : addressed 0 (xs.take n) = own := by simpa using handled
        exact ⟨front 0, fun all => by rw [whole all]⟩
      | succ k =>
        obtain ⟨first, every⟩ := ih clean (by simpa using handled)
        rw [onward] at first every
        refine ⟨first.trans (front _), fun all => ?_⟩
        rw [whole all] at every
        exact every fun m member => Nat.le_trans short (all m (by simp [member]))

end RendezMix.Library.OnionLayers
