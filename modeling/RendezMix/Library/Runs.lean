import Mathlib.Data.List.Basic

/-!
# Runs of a transition system

A run is recorded as the list of its transitions, so that a property may speak
about each state visited and about each step taken. The rules below turn facts
about one step into facts about every run: an invariant, an invariant that
needs a condition on the steps, and the equivalence of two conditions on steps
that agree as long as an invariant holds.
-/
namespace RendezMix.Library.Runs

variable {σ ι : Type*}

/-- One step of a run, with the states before and after it. -/
structure Transition (σ ι : Type*) where
  pre : σ
  input : ι
  post : σ

/-- `Run step s ts t`: the transitions `ts` lead from `s` to `t`. -/
inductive Run (step : σ → ι → σ → Prop) : σ → List (Transition σ ι) → σ → Prop
  | nil (s : σ) : Run step s [] s
  | snoc {s t u : σ} {ts : List (Transition σ ι)} {e : ι} :
      Run step s ts t → step t e u → Run step s (ts ++ [⟨t, e, u⟩]) u

variable {step : σ → ι → σ → Prop}

variable {inv : σ → Prop} {s t : σ} {ts : List (Transition σ ι)}

theorem Run.single {e : ι} (taken : step s e t) : Run step s [⟨s, e, t⟩] t :=
  Run.snoc (Run.nil s) taken

theorem Run.cons {s t u : σ} {e : ι} (taken : step s e t) (rest : Run step t ts u) :
    Run step s (⟨s, e, t⟩ :: ts) u := by
  induction rest with
  | nil => exact Run.single taken
  | snoc _ last ih =>
    rw [← List.cons_append]
    exact Run.snoc ih last

section

variable (run : Run step s ts t) (x : Transition σ ι)

include run

/-- Every recorded transition is a step. -/
theorem Run.step_of_mem (member : x ∈ ts) : step x.pre x.input x.post := by
  induction run with
  | nil => simp at member
  | snoc _ last ih =>
    rcases List.mem_append.mp member with earlier | final
    · exact ih earlier
    · rw [List.mem_singleton.mp final]
      exact last

/-- Each transition is taken at the end of a shorter run. -/
theorem Run.prefix_of_mem (member : x ∈ ts) :
    ∃ earlier later, ts = earlier ++ x :: later ∧ Run step s earlier x.pre := by
  induction run with
  | nil => simp at member
  | @snoc before _ us _ earlier _ ih =>
    rcases List.mem_append.mp member with inPrefix | final
    · obtain ⟨first, later, split, reached⟩ := ih inPrefix
      exact ⟨first, later ++ [_], by rw [split, List.append_assoc, List.cons_append], reached⟩
    · rw [List.mem_singleton.mp final]
      exact ⟨us, [], rfl, earlier⟩

/-- What holds initially and is kept by each step holds at the end of a run. -/
theorem Run.invariant (init : inv s) (keep : ∀ x e y, inv x → step x e y → inv y) : inv t := by
  induction run with
  | nil => exact init
  | snoc _ last ih => exact keep _ _ _ ih last

/-- The invariant rule when a step keeps the invariant only under a condition
that each transition of the run meets. -/
theorem Run.invariant_of_steps {good : Transition σ ι → Prop} (steps : ∀ x ∈ ts, good x)
    (init : inv s) (keep : ∀ x e y, inv x → step x e y → good ⟨x, e, y⟩ → inv y) : inv t := by
  induction run with
  | nil => exact init
  | snoc _ last ih =>
    have earlier := ih (fun x member => steps x (List.mem_append_left _ member))
    exact keep _ _ _ earlier last (steps _ (by simp))

/-- An invariant holds before and after every transition of a run. -/
theorem Run.invariant_at (init : inv s) (keep : ∀ x e y, inv x → step x e y → inv y)
    (x : Transition σ ι) (member : x ∈ ts) : inv x.pre ∧ inv x.post := by
  induction run with
  | nil => simp at member
  | snoc before last ih =>
    rcases List.mem_append.mp member with earlier | final
    · exact ih earlier
    · rw [List.mem_singleton.mp final]
      have held := before.invariant init keep
      exact ⟨held, keep _ _ _ held last⟩

/-- Two conditions on transitions agree on every run when they agree on each
step taken from a state of an invariant, and the second keeps the invariant. -/
theorem Run.sound_iff_good {sound good : Transition σ ι → Prop} (init : inv s)
    (agree : ∀ x e y, inv x → step x e y → (sound ⟨x, e, y⟩ ↔ good ⟨x, e, y⟩))
    (keep : ∀ x e y, inv x → step x e y → good ⟨x, e, y⟩ → inv y) :
    (∀ x ∈ ts, sound x) ↔ ∀ x ∈ ts, good x := by
  induction run with
  | nil => simp
  | snoc before last ih =>
    simp only [List.forall_mem_append, List.forall_mem_singleton, ih]
    refine and_congr_right fun steps => ?_
    exact agree _ _ _ (before.invariant_of_steps steps init keep) last

end

/-! ## Runs given by their inputs -/

section Deterministic

variable (exec : ι → σ → σ) (enabled : σ → ι → Prop)

/-- The transitions that a list of inputs makes. -/
def trace : σ → List ι → List (Transition σ ι)
  | _, [] => []
  | s, e :: es => ⟨s, e, exec e s⟩ :: trace (exec e s) es

/-- The state after a list of inputs. -/
def final : σ → List ι → σ
  | s, [] => s
  | s, e :: es => final (exec e s) es

/-- Each input is enabled where it is taken. -/
def Admissible : σ → List ι → Prop
  | _, [] => True
  | s, e :: es => enabled s e ∧ Admissible (exec e s) es

instance Admissible.decidable [∀ s e, Decidable (enabled s e)] :
    ∀ s es, Decidable (Admissible exec enabled s es)
  | _, [] => inferInstanceAs (Decidable True)
  | s, e :: es => @instDecidableAnd _ _ _ (Admissible.decidable (exec e s) es)

theorem run_of_admissible (s : σ) (es : List ι) (admissible : Admissible exec enabled s es) :
    Run (fun s e t => enabled s e ∧ t = exec e s) s (trace exec s es) (final exec s es) := by
  induction es generalizing s with
  | nil => exact Run.nil s
  | cons e es ih => exact Run.cons ⟨admissible.1, rfl⟩ (ih _ admissible.2)

end Deterministic

/-! ## Runs of a step function that may fail -/

section Partial

variable (exec : σ → ι → Option σ) (test : σ → ι → Bool)

/-- Take the inputs one after the other, each of which must pass a test. -/
def execAll : σ → List ι → Option σ
  | s, [] => some s
  | s, e :: es => if test s e then (exec s e).bind fun t => execAll t es else none

variable {exec test}

theorem run_of_execAll (sound : ∀ s e t, test s e = true → exec s e = some t → step s e t)
    {s t : σ} {es : List ι} (result : execAll exec test s es = some t) :
    ∃ ts, Run step s ts t ∧ ∀ x ∈ ts, test x.pre x.input = true := by
  induction es generalizing s with
  | nil =>
    cases result
    exact ⟨[], Run.nil _, by simp⟩
  | cons e es ih =>
    simp only [execAll] at result
    split at result
    · next tested =>
      obtain ⟨mid, taken, after⟩ := Option.bind_eq_some_iff.mp result
      obtain ⟨ts, run, others⟩ := ih after
      exact ⟨_, Run.cons (sound _ _ _ tested taken) run, List.forall_mem_cons.mpr ⟨tested, others⟩⟩
    · cases result

end Partial

end RendezMix.Library.Runs
