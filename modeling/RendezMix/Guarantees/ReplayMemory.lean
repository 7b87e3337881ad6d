import Mathlib
import RendezMix.Library.Runs
import RendezMix.Source.ReplayCaches

/-!
# What the replay cache remembers

A test is remembered until a scrub finds it more than the horizon old. The clock may be set back
after that, and a replay that the horizon would still cover is then not seen.
-/
namespace RendezMix.Guarantees.ReplayMemory
open Library.ByteStrings Library.Runs Source.ReplayCaches

variable (digest256 : List UInt8 → Bytes 32)

/-- A call that is not refused for its parameters. -/
def Accepted (call : CacheCall) : Prop := 0 < call.present ∧ call.data ≠ []

/-- The scrub of a call comes with a later time than the horizon allows for `t`. -/
def Forgets (x : Transition ReplayCache CacheCall) (t : Int) : Prop :=
  ¬ (x.input.present - x.pre.scrubbed < x.pre.scrubInterval ∧ x.pre.scrubbed > 0)
    ∧ x.pre.horizon ≠ 0 ∧ t < x.input.present - x.pre.horizon

/-- The digest was tested at `t`, and no scrub has forgotten that since. -/
def Remembered (ts : List (Transition ReplayCache CacheCall)) (digest : Bytes 32) (t : Int) :
    Prop :=
  ∃ before y after, ts = before ++ y :: after ∧ Accepted y.input
    ∧ digest256 y.input.data = digest ∧ y.input.present = t
    ∧ ∀ z ∈ after, Accepted z.input → ¬ Forgets z t

/-- One call. -/
def CacheStep (r : ReplayCache) (call : CacheCall) (r' : ReplayCache) : Prop :=
  r' = (replaycacheAddAndTestInternal digest256 call r).2

/-- The cache has the last test of each digest that is remembered. -/
structure Remembers (horizon : Int) (ts : List (Transition ReplayCache CacheCall))
    (r : ReplayCache) : Prop where
  horizon : r.horizon = horizon
  seen : ∀ digest t, r.digestsSeen digest = some t → Remembered digest256 ts digest t
  last : ∀ digest t, Remembered digest256 ts digest t → ∃ t' ≥ t, r.digestsSeen digest = some t'

variable {digest256} {horizon interval : Int} {r : ReplayCache} {call : CacheCall}
  {ts : List (Transition ReplayCache CacheCall)} {digest : Bytes 32} {t : Int}

theorem Remembered.snoc_iff {x : Transition ReplayCache CacheCall} :
    Remembered digest256 (ts ++ [x]) digest t ↔
      (Accepted x.input ∧ digest256 x.input.data = digest ∧ x.input.present = t)
        ∨ (Remembered digest256 ts digest t ∧ (Accepted x.input → ¬ Forgets x t)) := by
  constructor
  · rintro ⟨before, y, after, split, accepted, same, time, kept⟩
    obtain rfl | ⟨front, z, rfl⟩ := List.eq_nil_or_concat' after
    · obtain ⟨-, here⟩ := List.append_inj' split rfl
      cases here
      exact Or.inl ⟨accepted, same, time⟩
    · rw [← List.cons_append, ← List.append_assoc] at split
      obtain ⟨rfl, here⟩ := List.append_inj' split rfl
      cases here
      refine Or.inr ⟨⟨before, y, front, rfl, accepted, same, time, fun z member => ?_⟩, ?_⟩
      · exact kept z (List.mem_append_left _ member)
      · exact kept x (by simp)
  · rintro (⟨accepted, same, time⟩ | ⟨⟨before, y, after, rfl, accepted, same, time, kept⟩, stays⟩)
    · exact ⟨ts, x, [], rfl, accepted, same, time, nofun⟩
    · refine ⟨before, y, after ++ [x], by simp, accepted, same, time, fun z member => ?_⟩
      obtain earlier | here := List.mem_append.mp member
      · exact kept z earlier
      · rw [List.mem_singleton.mp here]
        exact stays

/-- What is left of a cache after a scrub. -/
theorem scrub_seen (present : Int) (r : ReplayCache) :
    (replaycacheScrubIfNeededInternal present r).digestsSeen digest = some t ↔
      r.digestsSeen digest = some t
        ∧ ¬ (¬ (present - r.scrubbed < r.scrubInterval ∧ r.scrubbed > 0)
          ∧ r.horizon ≠ 0 ∧ t < present - r.horizon) := by
  unfold replaycacheScrubIfNeededInternal
  split
  · next early => simp [early]
  · next due =>
    split
    · next never => simp [never]
    · next aging => simp [due, aging]

theorem scrub_horizon (present : Int) (r : ReplayCache) :
    (replaycacheScrubIfNeededInternal present r).horizon = r.horizon := by
  unfold replaycacheScrubIfNeededInternal
  split
  · rfl
  · split <;> rfl

theorem record_self (r : ReplayCache) (present : Int) :
    (r.record digest present).digestsSeen digest = some present :=
  Function.update_self _ _ _

variable (digest256) in
/-- What a call that is not refused records. -/
theorem addAndTest_snd (accepted : Accepted call) (r : ReplayCache) :
    ∃ recorded : ReplayCache, (replaycacheAddAndTestInternal digest256 call r).2 =
        replaycacheScrubIfNeededInternal call.present recorded
      ∧ recorded.scrubInterval = r.scrubInterval ∧ recorded.scrubbed = r.scrubbed
      ∧ recorded.horizon = r.horizon
      ∧ (∀ other ≠ digest256 call.data, recorded.digestsSeen other = r.digestsSeen other)
      ∧ recorded.digestsSeen (digest256 call.data) =
        some (max call.present ((r.digestsSeen (digest256 call.data)).getD call.present)) := by
  have positive : ¬ (call.present ≤ 0 ∨ call.data = []) := by
    simpa [Accepted] using accepted
  unfold replaycacheAddAndTestInternal
  rw [if_neg positive]
  dsimp only
  split
  · next accessTime found =>
    refine ⟨_, rfl, ?_⟩
    split
    · next older =>
      refine ⟨rfl, rfl, rfl, fun other differ => ?_, ?_⟩
      · exact Function.update_of_ne differ _ _
      · rw [record_self, found, Option.getD_some, max_eq_left older.le]
    · next newer =>
      refine ⟨rfl, rfl, rfl, fun _ _ => rfl, ?_⟩
      rw [found, Option.getD_some, max_eq_right (not_lt.mp newer)]
  · next absent =>
    refine ⟨_, rfl, rfl, rfl, rfl, fun other differ => ?_, ?_⟩
    · exact Function.update_of_ne differ _ _
    · rw [record_self, absent, Option.getD_none, max_self]

theorem Remembers.step (nonneg : 0 ≤ horizon) (remembers : Remembers digest256 horizon ts r)
    {r' : ReplayCache} (taken : CacheStep digest256 r call r') :
    Remembers digest256 horizon (ts ++ [⟨r, call, r'⟩]) r' := by
  by_cases accepted : Accepted call
  · obtain ⟨recorded, after, interval, scrubbed, same, others, here⟩ :=
      addAndTest_snd digest256 accepted r
    have left (digest : Bytes 32) (t : Int) : r'.digestsSeen digest = some t ↔
        recorded.digestsSeen digest = some t ∧ ¬ Forgets ⟨r, call, r'⟩ t := by
      rw [taken, after, scrub_seen, interval, scrubbed, same]
      rfl
    constructor
    · rw [taken, after, scrub_horizon, same, remembers.horizon]
    · intro digest t found
      obtain ⟨found, kept⟩ := (left digest t).mp found
      rw [Remembered.snoc_iff]
      by_cases tested : digest = digest256 call.data
      · rw [tested, here, Option.some_inj] at found
        cases old : r.digestsSeen (digest256 call.data) with
        | none =>
          rw [old, Option.getD_none, max_self] at found
          exact Or.inl ⟨accepted, tested.symm, found⟩
        | some earlier =>
          rw [old, Option.getD_some] at found
          obtain ⟨eq, -⟩ | ⟨eq, -⟩ := max_cases call.present earlier
          · exact Or.inl ⟨accepted, tested.symm, eq.symm.trans found⟩
          · rw [eq] at found
            exact Or.inr ⟨remembers.seen digest t (tested ▸ found ▸ old), fun _ => kept⟩
      · rw [others digest tested] at found
        exact Or.inr ⟨remembers.seen digest t found, fun _ => kept⟩
    · intro digest t remembered
      obtain ⟨-, tested, time⟩ | ⟨earlier, stays⟩ := Remembered.snoc_iff.mp remembered
      · refine ⟨_, ?_, (left digest _).mpr ⟨tested ▸ here, fun forgotten => ?_⟩⟩
        · exact time ▸ le_max_left _ _
        · have late := forgotten.2.2
          have atLeast := le_max_left call.present
            ((r.digestsSeen (digest256 call.data)).getD call.present)
          have bound := remembers.horizon
          dsimp only at late
          omega
      · obtain ⟨t₀, atLeast, old⟩ := remembers.last digest t earlier
        have kept {t' : Int} (later : t ≤ t') : ¬ Forgets ⟨r, call, r'⟩ t' :=
          fun forgotten => stays accepted ⟨forgotten.1, forgotten.2.1, later.trans_lt forgotten.2.2⟩
        by_cases tested : digest = digest256 call.data
        · rw [← tested, old, Option.getD_some] at here
          have later := atLeast.trans (le_max_right call.present t₀)
          exact ⟨_, later, (left digest _).mpr ⟨here, kept later⟩⟩
        · rw [← others digest tested] at old
          exact ⟨t₀, atLeast, (left digest t₀).mpr ⟨old, kept atLeast⟩⟩
  · have still : r' = r := by
      rw [taken, replaycacheAddAndTestInternal, if_pos]
      simpa [Accepted, or_iff_not_imp_left] using accepted
    rw [still]
    have same (digest : Bytes 32) (t : Int) : Remembered digest256 (ts ++ [⟨r, call, r⟩]) digest t ↔
        Remembered digest256 ts digest t := by
      rw [Remembered.snoc_iff]
      simp [accepted]
    constructor
    · exact remembers.horizon
    · intro digest t found
      exact (same digest t).mpr (remembers.seen digest t found)
    · intro digest t remembered
      exact remembers.last digest t ((same digest t).mp remembered)

theorem remembers_of_run (new : replaycacheNew horizon interval = some r) {s : ReplayCache}
    (run : Run (CacheStep digest256) r ts s) :
    0 ≤ horizon ∧ Remembers digest256 horizon ts s := by
  unfold replaycacheNew at new
  split at new
  · cases new
  · next nonneg =>
    cases new
    refine ⟨not_lt.mp nonneg, ?_⟩
    induction run with
    | nil =>
      constructor
      · rfl
      · exact nofun
      · rintro digest t ⟨before, y, after, split, -⟩
        simp at split
    | snoc _ taken ih => exact ih.step (not_lt.mp nonneg) taken

/-- In every run, a call reports a hit exactly if the digest was tested at a time that the horizon
covers and that no scrub has forgotten; `elapsed` is the time since the last such test, or 0 if it
is yet to come. What a call removes is not covered then or later. -/
theorem replaycacheAddAndTest_remembers (new : replaycacheNew horizon interval = some r)
    {s : ReplayCache} (run : Run (CacheStep digest256) r ts s) (accepted : Accepted call) :
    ((replaycacheAddAndTestInternal digest256 call s).1.rv = true ↔
        ∃ t, Remembered digest256 ts (digest256 call.data) t
          ∧ (call.present - horizon ≤ t ∨ horizon = 0))
      ∧ ((replaycacheAddAndTestInternal digest256 call s).1.rv = true →
        ∃ t, Remembered digest256 ts (digest256 call.data) t
          ∧ (∀ t', Remembered digest256 ts (digest256 call.data) t' → t' ≤ t)
          ∧ (replaycacheAddAndTestInternal digest256 call s).1.elapsed =
            some (max 0 (call.present - t)))
      ∧ ∀ digest t, s.digestsSeen digest = some t →
        (replaycacheAddAndTestInternal digest256 call s).2.digestsSeen digest = none →
        horizon ≠ 0 ∧ ∀ later ≥ call.present, t < later - horizon := by
  obtain ⟨nonneg, remembers⟩ := remembers_of_run new run
  have last (t t' : Int) (found : s.digestsSeen (digest256 call.data) = some t)
      (remembered : Remembered digest256 ts (digest256 call.data) t') : t' ≤ t := by
    obtain ⟨t₀, atLeast, found₀⟩ := remembers.last _ _ remembered
    rw [found, Option.some_inj] at found₀
    exact found₀ ▸ atLeast
  have positive : ¬ (call.present ≤ 0 ∨ call.data = []) := by
    simpa [Accepted] using accepted
  have answer : (replaycacheAddAndTestInternal digest256 call s).1 =
      (s.digestsSeen (digest256 call.data)).elim ⟨false, none⟩ fun accessTime =>
        if accessTime ≥ call.present - s.horizon ∨ s.horizon = 0 then
          ⟨true, some (if call.present ≥ accessTime then call.present - accessTime else 0)⟩
        else ⟨false, none⟩ := by
    unfold replaycacheAddAndTestInternal
    rw [if_neg positive]
    dsimp only
    cases s.digestsSeen (digest256 call.data) <;> rfl
  rw [answer, remembers.horizon]
  refine ⟨?_, ?_, ?_⟩
  · cases found : s.digestsSeen (digest256 call.data) with
    | none =>
      simp only [Option.elim, Bool.false_eq_true, false_iff, not_exists]
      rintro t ⟨remembered, -⟩
      obtain ⟨t₀, -, found₀⟩ := remembers.last _ _ remembered
      rw [found] at found₀
      cases found₀
    | some t =>
      dsimp only [Option.elim]
      constructor
      · split
        · next covered => exact fun _ => ⟨t, remembers.seen _ _ found, covered⟩
        · exact nofun
      · rintro ⟨t', remembered, covered⟩
        have atMost := last t t' found remembered
        rw [if_pos (covered.imp_left fun covered => covered.trans atMost)]
  · cases found : s.digestsSeen (digest256 call.data) with
    | none => exact nofun
    | some t =>
      dsimp only [Option.elim]
      split
      · refine fun _ => ⟨t, remembers.seen _ _ found, fun t' => last t t' found, ?_⟩
        rw [Option.some_inj]
        split <;> omega
      · exact nofun
  · intro digest t found removed
    obtain ⟨recorded, after, -, -, same, others, here⟩ :=
      addAndTest_snd digest256 accepted s
    obtain ⟨t₀, atLeast, kept⟩ : ∃ t₀ ≥ t, recorded.digestsSeen digest = some t₀ := by
      by_cases tested : digest = digest256 call.data
      · rw [← tested, found, Option.getD_some] at here
        exact ⟨_, le_max_right _ _, here⟩
      · exact ⟨t, le_refl t, (others digest tested).trans found⟩
    have gone : ¬ (replaycacheScrubIfNeededInternal call.present recorded).digestsSeen digest =
        some t₀ := by
      rw [← after, removed]
      exact nofun
    rw [scrub_seen, not_and, not_not] at gone
    obtain ⟨-, aging, old⟩ := gone kept
    rw [same, remembers.horizon] at aging old
    refine ⟨aging, fun later after => ?_⟩
    omega

/-- A digest that is its data. -/
def plainDigest (data : List UInt8) : Bytes 32 := fit 32 data

/-- A new cache with a horizon of ten seconds. -/
def tenSeconds : ReplayCache := ⟨0, 0, 10, fun _ => none⟩

/-- What the test of `[1]` at 100 leaves. -/
def testedOnce : ReplayCache := (replaycacheAddAndTestInternal plainDigest ⟨100, [1]⟩ tenSeconds).2

theorem replaycacheAddAndTest_remembers_replay :
    ∃ t, Remembered plainDigest [⟨tenSeconds, ⟨100, [1]⟩, testedOnce⟩] (plainDigest [1]) t
      ∧ (105 - 10 ≤ t ∨ (10 : Int) = 0) := by
  have new : replaycacheNew 10 0 = some tenSeconds := rfl
  have run : Run (CacheStep plainDigest) tenSeconds _ testedOnce := Run.single rfl
  have accepted : Accepted ⟨105, [1]⟩ := ⟨by decide, by decide⟩
  exact (replaycacheAddAndTest_remembers new run accepted).1.mp (by decide)

/-- The clock is set back after a scrub: a replay five seconds after the test, by the clock, is not
seen. -/
theorem replaycacheAddAndTest_misses :
    ¬ ∀ (digest256 : List UInt8 → Bytes 32) (horizon interval : Int) (r s : ReplayCache)
      (ts : List (Transition ReplayCache CacheCall)) (call : CacheCall),
      replaycacheNew horizon interval = some r → Run (CacheStep digest256) r ts s →
      Accepted call →
      ((replaycacheAddAndTestInternal digest256 call s).1.rv = true ↔
        ∃ y ∈ ts, Accepted y.input ∧ digest256 y.input.data = digest256 call.data
          ∧ (call.present - horizon ≤ y.input.present ∨ horizon = 0)) := by
  intro all
  have first : CacheStep plainDigest tenSeconds ⟨100, [1]⟩ testedOnce := rfl
  have second : CacheStep plainDigest testedOnce ⟨200, [2]⟩ _ := rfl
  have missed := (all plainDigest 10 0 _ _ _ ⟨105, [1]⟩ rfl (Run.snoc (Run.single first) second)
    ⟨by decide, by decide⟩).mpr
    ⟨_, List.mem_cons_self, ⟨by decide, by decide⟩, rfl, Or.inl (by decide)⟩
  revert missed
  decide

end RendezMix.Guarantees.ReplayMemory
