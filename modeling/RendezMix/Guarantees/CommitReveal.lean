import RendezMix.Library.Runs
import RendezMix.Source.SharedRandom

/-!
# Commits and reveals over a protocol run

What the calls of a run do to the stored commits: a vote adds the commit of its
voter in the commit phase and a verified reveal in the reveal phase, and the
first round of a commit phase leaves only the authority's own commit.
-/
namespace RendezMix.Guarantees.CommitReveal
open Library.ByteStrings Library.Runs Source

variable {env : SrEnv} {known : Bytes 20 → Bool} {voterKey : Bytes 20} {s s' t : SrState}
  {c c' commit : SrCommit}

/-! ## What one call can do -/

/-- The authority's own commit of a run, if it was made. -/
def ourCommits (env : SrEnv) (validAfter : Int) (randomNumber : Option (Bytes 32)) :
    List SrCommit :=
  match randomNumber with
  | none => []
  | some random => [srGenerateOurCommit env.digest256 validAfter env.identity random]

variable {validAfter : Int} {saved : SrCommit} {e : SrEvent} {randomNumber : Option (Bytes 32)}

theorem mem_ourCommits (member : c ∈ ourCommits env validAfter randomNumber) :
    ∃ random, randomNumber = some random
      ∧ c = srGenerateOurCommit env.digest256 validAfter env.identity random := by
  cases randomNumber with
  | none => cases member
  | some random => exact ⟨random, rfl, List.mem_singleton.mp member⟩

theorem addOurCommit_commits (empty : s.commits = []) :
    (addOurCommit env validAfter randomNumber s).commits
      = ourCommits env validAfter randomNumber := by
  cases randomNumber with
  | none => exact empty
  | some random =>
    rw [addOurCommit, srStateAddCommit, empty]
    rfl

theorem addOurCommit_phase : (addOurCommit env validAfter randomNumber s).phase = s.phase := by
  cases randomNumber <;> rfl

theorem countRound_commits (s : SrState) : (countRound s).commits = s.commits := by
  rw [countRound]
  split
  · split <;> rfl
  · rfl

theorem countRound_phase (s : SrState) : (countRound s).phase = s.phase := by
  rw [countRound]
  split
  · split <;> rfl
  · rfl

theorem newProtocolRun_commits
    (started : newProtocolRun env known validAfter randomNumber s = some s') :
    s'.commits = ourCommits env validAfter randomNumber := by
  obtain ⟨computed, _, rfl⟩ := Option.map_eq_some_iff.mp started
  exact addOurCommit_commits rfl

/-- What a round does to the phase and the commits. -/
theorem srStateUpdate_cases {votingInterval validAfter : Int}
    (updated : srStateUpdate env known votingInterval validAfter randomNumber s = some s') :
    (s'.commits = s.commits ∧ (s'.phase = .commit → s.phase = .commit))
      ∨ (s'.phase = .commit ∧ (s.phase = .reveal ∨ s.commits = [])
        ∧ s'.commits = ourCommits env validAfter randomNumber) := by
  rw [srStateUpdate] at updated
  split at updated
  · cases updated
    exact Or.inl ⟨rfl, id⟩
  obtain ⟨prepared, preparation, rfl⟩ := Option.map_eq_some_iff.mp updated
  rw [countRound_commits, countRound_phase]
  simp only [prepareRound] at preparation ⊢
  split at preparation
  · next transition =>
    obtain ⟨started, start, rfl⟩ := Option.map_eq_some_iff.mp preparation
    split at start
    · next commit =>
      right
      have commits := newProtocolRun_commits start
      refine ⟨commit, Or.inl ?_, commits⟩
      rw [commit] at transition
      cases phase : s.phase with
      | commit => exact absurd phase transition
      | reveal => rfl
    · next reveal =>
      cases start
      exact Or.inl ⟨rfl, fun commit => absurd commit reveal⟩
  · split at preparation
    · next empty =>
      cases preparation
      right
      rw [addOurCommit_phase]
      exact ⟨empty.1, Or.inr empty.2, addOurCommit_commits empty.2⟩
    · cases preparation
      exact Or.inl ⟨rfl, id⟩

/-- What one commit of a vote does to the state. -/
theorem srHandleReceivedCommit_cases
    (handled : srHandleReceivedCommit env known voterKey s commit = some s') :
    s' = s
      ∨ (s.phase = .commit ∧ srStateGetCommit s commit.rsaIdentity = none
        ∧ commitHasRevealValue commit = false
        ∧ s' = srStateAddCommit { commit with valid := true } s)
      ∨ (s.phase = .reveal ∧ ∃ saved, srStateGetCommit s commit.rsaIdentity = some saved
        ∧ commit.encodedCommit = saved.encodedCommit ∧ commitHasRevealValue saved = false
        ∧ verifyCommitAndReveal env.digest256 commit = true
        ∧ s' = srStateCopyRevealInfo commit s) := by
  rw [srHandleReceivedCommit] at handled
  split at handled
  swap
  · cases handled
    exact Or.inl rfl
  next keep =>
  right
  rw [saveCommitToState, if_pos rfl] at handled
  simp only [shouldKeepCommit] at keep
  split at keep
  · cases keep
  split at keep
  · cases keep
  cases phase : s.phase with
  | commit =>
    rw [phase] at keep handled
    simp only at keep handled
    cases handled
    left
    split at keep
    · cases keep
    · next absent =>
      rw [Bool.not_eq_true, Option.isSome_eq_false_iff, Option.isNone_iff_eq_none] at absent
      rw [Bool.not_eq_true'] at keep
      exact ⟨rfl, absent, keep, rfl⟩
  | reveal =>
    rw [phase] at keep handled
    simp only [saveCommitDuringRevealPhase] at keep handled
    right
    refine ⟨rfl, ?_⟩
    cases stored : srStateGetCommit s commit.rsaIdentity with
    | none =>
      rw [stored] at keep
      cases keep
    | some saved =>
      rw [stored] at keep handled
      simp only at keep handled
      split at keep
      · cases keep
      split at keep
      · cases keep
      split at keep
      · cases keep
      next same unrevealed _ =>
      split at handled
      · cases handled
        rw [Bool.not_eq_true, Bool.not_eq_false'] at same
        rw [Bool.not_eq_true] at unrevealed
        exact ⟨saved, rfl, of_decide_eq_true same, unrevealed, keep, rfl⟩
      · cases handled

/-! ## The stored commits -/

/-- The commitment is the same. -/
structure SameCommitment (c c' : SrCommit) : Prop where
  identity : c'.rsaIdentity = c.rsaIdentity
  alg : c'.alg = c.alg
  encoded : c'.encodedCommit = c.encodedCommit
  hash : c'.hashedReveal = c.hashedReveal
  time : c'.commitTs = c.commitTs

/-- Every commit is still stored with its commitment, and with its reveal if it has one. -/
def Keeps (s s' : SrState) : Prop :=
  ∀ c ∈ s.commits, ∃ c' ∈ s'.commits, SameCommitment c c'
    ∧ (commitHasRevealValue c = true → c' = c)

/-- What is true of the stored commits, of which those of other authorities came with votes. -/
structure Stored (env : SrEnv) (s : SrState) : Prop where
  distinct : (s.commits.map (·.rsaIdentity)).Nodup
  valid : ∀ c ∈ s.commits, c.valid = true
  parsed : ∀ c ∈ s.commits, c.rsaIdentity ≠ env.identity →
    c.alg = srDigestAlg ∧ decodeStamped c.encodedCommit = some (c.commitTs, c.hashedReveal)
  early : s.phase = .commit → ∀ c ∈ s.commits, c.rsaIdentity ≠ env.identity →
    commitHasRevealValue c = false
  verified : ∀ c ∈ s.commits, c.rsaIdentity ≠ env.identity → commitHasRevealValue c = true →
    verifyCommitAndReveal env.digest256 c = true

theorem Keeps.refl (s : SrState) : Keeps s s :=
  fun c member => ⟨c, member, ⟨rfl, rfl, rfl, rfl, rfl⟩, fun _ => rfl⟩

theorem Keeps.trans (first : Keeps s s') (second : Keeps s' t) : Keeps s t := by
  intro c member
  obtain ⟨c', member', same, kept⟩ := first c member
  obtain ⟨c'', member'', same', kept'⟩ := second c' member'
  refine ⟨c'', member'', ?_, ?_⟩
  · exact ⟨same'.identity.trans same.identity, same'.alg.trans same.alg,
      same'.encoded.trans same.encoded, same'.hash.trans same.hash, same'.time.trans same.time⟩
  · intro reveals
    have equal := kept reveals
    rw [equal] at kept'
    exact kept' reveals

theorem Stored.empty (empty : s.commits = []) : Stored env s := by
  constructor
  · rw [empty]
    exact List.nodup_nil
  all_goals simp [empty]

theorem srParseCommit_decoded {args : List (List UInt8)} (parsed : srParseCommit args = some c) :
    c.alg = srDigestAlg ∧ decodeStamped c.encodedCommit = some (c.commitTs, c.hashedReveal) := by
  unfold srParseCommit at parsed
  split at parsed
  swap
  · cases parsed
  split at parsed
  · cases parsed
  split at parsed
  · cases parsed
  split at parsed
  · cases parsed
  split at parsed
  · cases parsed
  · next decoded =>
    cases parsed
    obtain ⟨_, stamped, rfl⟩ := Option.map_eq_some_iff.mp decoded
    exact ⟨rfl, stamped⟩
  · next decoded =>
    obtain ⟨_, stamped, rfl⟩ := Option.map_eq_some_iff.mp decoded
    obtain ⟨_, _, rfl⟩ := Option.map_eq_some_iff.mp parsed
    exact ⟨rfl, stamped⟩

section

variable (absent : srStateGetCommit s commit.rsaIdentity = none)

include absent

theorem srStateGetCommit_none (member : c ∈ s.commits) : c.rsaIdentity ≠ commit.rsaIdentity := by
  have other := List.find?_eq_none.mp absent c member
  simpa using other

theorem srStateAddCommit_commits :
    (srStateAddCommit { commit with valid := true } s).commits
      = { commit with valid := true } :: s.commits := by
  rw [srStateAddCommit]
  simp only [List.cons.injEq, true_and]
  rw [List.filter_eq_self]
  intro c member
  simpa using srStateGetCommit_none absent member

end

/-- Adding the commit of a voter that has none, in the commit phase. -/
theorem Stored.add (stored : Stored env s) (phase : s.phase = .commit)
    (absent : srStateGetCommit s commit.rsaIdentity = none)
    (unrevealed : commitHasRevealValue commit = false)
    (decoded : commit.alg = srDigestAlg
      ∧ decodeStamped commit.encodedCommit = some (commit.commitTs, commit.hashedReveal)) :
    Stored env (srStateAddCommit { commit with valid := true } s) := by
  have commits := srStateAddCommit_commits absent
  constructor
  · rw [commits, List.map_cons, List.nodup_cons]
    refine ⟨?_, stored.distinct⟩
    intro inside
    obtain ⟨c, member, same⟩ := List.mem_map.mp inside
    exact srStateGetCommit_none absent member same
  · rw [commits]
    exact List.forall_mem_cons.mpr ⟨rfl, stored.valid⟩
  · rw [commits]
    exact List.forall_mem_cons.mpr ⟨fun _ => decoded, stored.parsed⟩
  · rw [commits]
    exact fun _ => List.forall_mem_cons.mpr ⟨fun _ => unrevealed, stored.early phase⟩
  · rw [commits]
    refine List.forall_mem_cons.mpr ⟨?_, stored.verified⟩
    intro _ reveals
    have none : commitHasRevealValue { commit with valid := true } = false := unrevealed
    rw [none] at reveals
    cases reveals

theorem keeps_add (absent : srStateGetCommit s commit.rsaIdentity = none) :
    Keeps s (srStateAddCommit { commit with valid := true } s) := by
  intro c member
  rw [srStateAddCommit_commits absent]
  exact ⟨c, List.mem_cons_of_mem _ member, ⟨rfl, rfl, rfl, rfl, rfl⟩, fun _ => rfl⟩

/-- The stored commit with the reveal of another one. -/
def withReveal (commit saved : SrCommit) : SrCommit :=
  if saved.rsaIdentity = commit.rsaIdentity then
    { saved with
      revealTs := commit.revealTs
      randomNumber := commit.randomNumber
      encodedReveal := commit.encodedReveal }
  else saved

theorem withReveal_same (commit saved : SrCommit) : SameCommitment saved (withReveal commit saved) := by
  rw [withReveal]
  split <;> exact ⟨rfl, rfl, rfl, rfl, rfl⟩

theorem withReveal_valid (commit saved : SrCommit) :
    (withReveal commit saved).valid = saved.valid := by
  rw [withReveal]
  split <;> rfl

theorem withReveal_other (other : saved.rsaIdentity ≠ commit.rsaIdentity) :
    withReveal commit saved = saved :=
  if_neg other

section

variable (stored : Stored env s)

include stored

theorem srStateGetCommit_some (found : srStateGetCommit s commit.rsaIdentity = some saved)
    (member : c ∈ s.commits) (same : c.rsaIdentity = commit.rsaIdentity) : c = saved := by
  have inside := List.mem_of_find?_eq_some found
  have identity := List.find?_some found
  rw [decide_eq_true_eq] at identity
  exact List.inj_on_of_nodup_map stored.distinct member inside (same.trans identity.symm)

/-- Storing a reveal that was verified. -/
theorem Stored.reveal (phase : s.phase = .reveal)
    (found : srStateGetCommit s commit.rsaIdentity = some saved)
    (same : commit.encodedCommit = saved.encodedCommit)
    (verified : verifyCommitAndReveal env.digest256 commit = true)
    (decoded : commit.alg = srDigestAlg
      ∧ decodeStamped commit.encodedCommit = some (commit.commitTs, commit.hashedReveal)) :
    Stored env (srStateCopyRevealInfo commit s) := by
  have commits : (srStateCopyRevealInfo commit s).commits = s.commits.map (withReveal commit) := rfl
  constructor
  · have identities : (s.commits.map (withReveal commit)).map (·.rsaIdentity)
        = s.commits.map (·.rsaIdentity) := by
      rw [List.map_map]
      apply List.map_congr_left
      intro c _
      exact (withReveal_same commit c).identity
    rw [commits, identities]
    exact stored.distinct
  · rw [commits, List.forall_mem_map]
    intro c member
    rw [withReveal_valid]
    exact stored.valid c member
  · rw [commits, List.forall_mem_map]
    intro c member other
    have kept := withReveal_same commit c
    rw [kept.identity] at other
    rw [kept.alg, kept.encoded, kept.hash, kept.time]
    exact stored.parsed c member other
  · intro early
    have late : (srStateCopyRevealInfo commit s).phase = .reveal := phase
    rw [late] at early
    cases early
  · rw [commits, List.forall_mem_map]
    intro c member other reveals
    by_cases voter : c.rsaIdentity = commit.rsaIdentity
    · have equal := srStateGetCommit_some stored found member voter
      -- The commitment that was verified is the stored one: both decode the same string.
      have kept := stored.parsed c member (by
        rw [(withReveal_same commit c).identity] at other
        exact other)
      rw [equal, ← same, decoded.2, Option.some.injEq, Prod.mk.injEq] at kept
      rw [withReveal, if_pos voter]
      rw [verifyCommitAndReveal, decide_eq_true_eq] at verified ⊢
      rw [equal, ← kept.2.1, ← kept.2.2, kept.1]
      exact ⟨verified.1, rfl, verified.2.2⟩
    · rw [withReveal_other voter] at other reveals ⊢
      exact stored.verified c member other reveals

theorem keeps_reveal (found : srStateGetCommit s commit.rsaIdentity = some saved)
    (unrevealed : commitHasRevealValue saved = false) :
    Keeps s (srStateCopyRevealInfo commit s) := by
  intro c member
  refine ⟨withReveal commit c, List.mem_map_of_mem member, withReveal_same commit c, ?_⟩
  intro reveals
  by_cases voter : c.rsaIdentity = commit.rsaIdentity
  · rw [srStateGetCommit_some stored found member voter, unrevealed] at reveals
    cases reveals
  · exact withReveal_other voter

end

/-! ## A vote -/

/-- No commit is there that was not there before. -/
def NoneNew (s s' : SrState) : Prop :=
  ∀ c' ∈ s'.commits, ∃ c ∈ s.commits, c.rsaIdentity = c'.rsaIdentity

/-- What the commits of a vote do. -/
structure Handled (env : SrEnv) (s s' : SrState) : Prop where
  stored : Stored env s'
  phase : s'.phase = s.phase
  keeps : Keeps s s'
  noneNew : s.phase = .reveal → NoneNew s s'

theorem Handled.refl (stored : Stored env s) : Handled env s s :=
  ⟨stored, rfl, Keeps.refl s, fun _ c member => ⟨c, member, rfl⟩⟩

theorem Handled.trans (first : Handled env s s') (second : Handled env s' t) : Handled env s t := by
  refine ⟨second.stored, second.phase.trans first.phase, first.keeps.trans second.keeps, ?_⟩
  intro reveal c'' member''
  obtain ⟨c', member', same'⟩ := second.noneNew (first.phase.trans reveal) c'' member''
  obtain ⟨c, member, same⟩ := first.noneNew reveal c' member'
  exact ⟨c, member, same.trans same'⟩

theorem srHandleReceivedCommit_handled (stored : Stored env s)
    (parsed : ∃ args, srParseCommit args = some commit)
    (handled : srHandleReceivedCommit env known voterKey s commit = some s') :
    Handled env s s' := by
  obtain ⟨args, parsed⟩ := parsed
  have decoded := srParseCommit_decoded parsed
  obtain rfl | ⟨phase, absent, unrevealed, rfl⟩ | ⟨phase, saved, found, same, unrevealed,
    verified, rfl⟩ := srHandleReceivedCommit_cases handled
  · exact Handled.refl stored
  · refine ⟨stored.add phase absent unrevealed decoded, rfl, keeps_add absent, ?_⟩
    intro reveal
    rw [phase] at reveal
    cases reveal
  · refine ⟨stored.reveal phase found same verified decoded, rfl,
      keeps_reveal stored found unrevealed, ?_⟩
    intro _ c' member'
    obtain ⟨c, member, rfl⟩ := List.mem_map.mp member'
    exact ⟨c, member, (withReveal_same commit c).identity.symm⟩

theorem srHandleReceivedCommits_handled {commits : List SrCommit} (stored : Stored env s)
    (parsed : ∀ c ∈ commits, ∃ args, srParseCommit args = some c)
    (handled : srHandleReceivedCommits env known voterKey commits s = some s') :
    Handled env s s' := by
  induction commits generalizing s with
  | nil =>
    cases handled
    exact Handled.refl stored
  | cons commit commits ih =>
    rw [srHandleReceivedCommits, List.foldlM_cons] at handled
    obtain ⟨mid, first, rest⟩ := Option.bind_eq_some_iff.mp handled
    rw [List.forall_mem_cons] at parsed
    have one := srHandleReceivedCommit_handled stored parsed.1 first
    exact one.trans (ih one.stored parsed.2 rest)

/-! ## Runs -/

/-- The call starts a new protocol run. -/
def StartsRun (x : Transition SrState SrEvent) : Prop :=
  x.pre.phase = .reveal ∧ x.post.phase = .commit

/-- What a call does to the stored commits. -/
structure CallSound (env : SrEnv) (x : Transition SrState SrEvent) : Prop where
  /-- A new run starts with the authority's own fresh commit and no other. -/
  fresh : StartsRun x → ∀ c ∈ x.post.commits, ∃ known votingInterval validAfter random,
    x.input = .update known votingInterval validAfter (some random)
      ∧ c = srGenerateOurCommit env.digest256 validAfter env.identity random
  /-- No commit is first accepted in the reveal phase. -/
  noneNew : x.pre.phase = .reveal → ¬StartsRun x → NoneNew x.pre x.post
  /-- No reveal of another authority is stored in the commit phase. -/
  unrevealed : x.pre.phase = .commit → ∀ c ∈ x.post.commits, c.rsaIdentity ≠ env.identity →
    commitHasRevealValue c = false
  /-- The commitments and the reveals that are stored stay. -/
  keeps : ¬StartsRun x → Keeps x.pre x.post

theorem Stored.congr (stored : Stored env s) (commits : s'.commits = s.commits)
    (phase : s'.phase = .commit → s.phase = .commit) : Stored env s' := by
  constructor
  · rw [commits]
    exact stored.distinct
  · rw [commits]
    exact stored.valid
  · rw [commits]
    exact stored.parsed
  · rw [commits]
    exact fun early => stored.early (phase early)
  · rw [commits]
    exact stored.verified

theorem Stored.ours (commits : s'.commits = ourCommits env validAfter randomNumber) :
    Stored env s' := by
  have own (c : SrCommit) (member : c ∈ s'.commits) :
      c.valid = true ∧ c.rsaIdentity = env.identity := by
    rw [commits] at member
    obtain ⟨random, _, rfl⟩ := mem_ourCommits member
    exact ⟨rfl, rfl⟩
  constructor
  · rw [commits]
    cases randomNumber with
    | none => exact List.nodup_nil
    | some random => exact List.nodup_singleton _
  · exact fun c member => (own c member).1
  · exact fun c member other => absurd (own c member).2 other
  · exact fun _ c member other => absurd (own c member).2 other
  · exact fun c member other => absurd (own c member).2 other

section

variable (stored : Stored env s)

include stored

theorem received_sound {commits : List SrCommit}
    (parsed : ∀ c ∈ commits, ∃ args, srParseCommit args = some c)
    (handled : srHandleReceivedCommits env known voterKey commits s = some s') :
    Stored env s' ∧ CallSound env ⟨s, .received known voterKey commits, s'⟩ := by
  have all := srHandleReceivedCommits_handled stored parsed handled
  refine ⟨all.stored, ?_, ?_, ?_, ?_⟩
  · rintro ⟨reveal, commit⟩
    rw [all.phase] at commit
    rw [reveal] at commit
    cases commit
  · exact fun reveal _ => all.noneNew reveal
  · exact fun commit => all.stored.early (all.phase.trans commit)
  · exact fun _ => all.keeps

theorem update_sound {votingInterval validAfter : Int}
    (updated : srStateUpdate env known votingInterval validAfter randomNumber s = some s') :
    Stored env s' ∧ CallSound env ⟨s, .update known votingInterval validAfter randomNumber, s'⟩ := by
  obtain ⟨commits, phase⟩ | ⟨phase, before, commits⟩ := srStateUpdate_cases updated
  · have held := stored.congr commits phase
    refine ⟨held, ?_, ?_, ?_, ?_⟩
    · rintro ⟨reveal, commit⟩
      have earlier : s.phase = .reveal := reveal
      rw [phase commit] at earlier
      cases earlier
    · intro _ _ c member
      rw [commits] at member
      exact ⟨c, member, rfl⟩
    · intro early c member other
      rw [commits] at member
      exact stored.early early c member other
    · intro _ c member
      rw [← commits] at member
      exact ⟨c, member, ⟨rfl, rfl, rfl, rfl, rfl⟩, fun _ => rfl⟩
  · refine ⟨Stored.ours commits, ?_, ?_, ?_, ?_⟩
    · intro _ c member
      rw [commits] at member
      obtain ⟨random, rfl, made⟩ := mem_ourCommits member
      exact ⟨known, votingInterval, validAfter, random, rfl, made⟩
    · exact fun reveal start => absurd ⟨reveal, phase⟩ start
    · exact fun _ => (Stored.ours commits).early phase
    · intro start c member
      rcases before with reveal | empty
      · exact absurd ⟨reveal, phase⟩ start
      · rw [empty] at member
        cases member

theorem srStep_sound (step : SrStep env s e s') : Stored env s' ∧ CallSound env ⟨s, e, s'⟩ := by
  obtain ⟨parsed, called⟩ := step
  cases e with
  | received known voterKey commits => exact received_sound stored parsed called
  | update known votingInterval validAfter randomNumber => exact update_sound stored called

end

theorem run_keeps {us : List (Transition SrState SrEvent)} (stored : Stored env s)
    (run : Run (SrStep env) s us t) (within : ∀ x ∈ us, ¬StartsRun x) : Keeps s t := by
  have both : Stored env t ∧ Keeps s t := by
    apply run.invariant_of_steps within
    · exact ⟨stored, Keeps.refl s⟩
    · intro x e y held step inside
      have sound := srStep_sound held.1 step
      exact ⟨sound.1, held.2.trans (sound.2.keeps inside)⟩
  exact both.2

/-- From a state without commits on, every call stores and changes commits as the phase allows:
there is one commit for each authority, its commitment stays until the next run starts, and the
reveals of others come in the reveal phase, match the commitment, and stay. -/
theorem commit_reveal_integrity (env : SrEnv) {s₀ : SrState} {ts : List (Transition SrState SrEvent)}
    (empty : s₀.commits = []) (run : Run (SrStep env) s₀ ts s) :
    (s.commits.map (·.rsaIdentity)).Nodup
      ∧ (∀ c ∈ s.commits, c.rsaIdentity ≠ env.identity → commitHasRevealValue c = true →
        verifyCommitAndReveal env.digest256 c = true)
      ∧ (∀ x ∈ ts, CallSound env x)
      ∧ ∀ us t, Run (SrStep env) s us t → (∀ x ∈ us, ¬StartsRun x) → Keeps s t := by
  have start : Stored env s₀ := Stored.empty empty
  have keep (x : SrState) (e : SrEvent) (y : SrState) (held : Stored env x)
      (step : SrStep env x e y) : Stored env y :=
    (srStep_sound held step).1
  have stored := run.invariant start keep
  refine ⟨stored.distinct, stored.verified, ?_, ?_⟩
  · intro x member
    have before := (run.invariant_at start keep x member).1
    exact (srStep_sound before (run.step_of_mem x member)).2
  · intro us t later within
    exact run_keeps stored later within

/-! ## A run -/

/-- A hash that cuts off, for runs on given inputs. -/
def cutOffEnv : SrEnv where
  digest256 := fit 32
  qsort := Library.Sorting.insertionSorter compareReveal
  identity := fit 20 [1]

/-- The commit of another authority as it made it. -/
def voterCommit : SrCommit := srGenerateOurCommit (fit 32) 11 (fit 20 [2]) (fit 32 [3])

/-- What its votes say about it, without and with the reveal. -/
def commitArgs : List (List UInt8) :=
  [textBytes "1", textBytes "sha3-256", voterCommit.rsaIdentityHex, voterCommit.encodedCommit]
def revealArgs : List (List UInt8) := commitArgs ++ [voterCommit.encodedReveal]

def parsedCommit (args : List (List UInt8)) : SrCommit :=
  (srParseCommit args).getD (commitNew (fit 20 []))

theorem parsedCommit_parsed :
    srParseCommit commitArgs = some (parsedCommit commitArgs)
      ∧ srParseCommit revealArgs = some (parsedCommit revealArgs) := by
  decide +kernel

/-- Two rounds, in the commit phase and in the reveal phase, with a vote in each. -/
def twoRounds : List SrEvent :=
  [.update (fun _ => true) 1 11 (some (fit 32 [4])),
    .received (fun _ => true) (fit 20 [2]) [parsedCommit commitArgs],
    .update (fun _ => true) 1 12 none,
    .received (fun _ => true) (fit 20 [2]) [parsedCommit revealArgs]]

/-- The commits of an event are among those of the votes above. -/
def fromVotes : SrEvent → Bool
  | .received _ _ commits =>
    commits.all fun c => c = parsedCommit commitArgs ∨ c = parsedCommit revealArgs
  | .update .. => true

theorem fromVotes_parsed (votes : fromVotes e = true) : e.Parsed := by
  cases e with
  | update => trivial
  | received known voterKey commits =>
    intro c member
    have among := List.all_eq_true.mp votes c member
    rw [decide_eq_true_eq] at among
    rcases among with equal | equal
    · rw [equal]
      exact ⟨commitArgs, parsedCommit_parsed.1⟩
    · rw [equal]
      exact ⟨revealArgs, parsedCommit_parsed.2⟩

/-- After two rounds the other authority's reveal is stored, and matches its commitment. -/
theorem commit_reveal_integrity_two_rounds : ∃ ts s,
    Run (SrStep cutOffEnv) (stateNew 1 11) ts s
      ∧ s.commits.map commitHasRevealValue = [true, true]
      ∧ s.commits.map (·.rsaIdentity) = [fit 20 [2], fit 20 [1]]
      ∧ (s.commits.map (·.rsaIdentity)).Nodup
      ∧ ∀ x ∈ ts, CallSound cutOffEnv x := by
  have result : (execAll (srCall cutOffEnv) (fun _ e => fromVotes e) (stateNew 1 11)
      twoRounds).map (fun s => (s.commits.map commitHasRevealValue, s.commits.map (·.rsaIdentity)))
        = some ([true, true], [fit 20 [2], fit 20 [1]]) := by decide +kernel
  obtain ⟨s, reached, stored⟩ := Option.map_eq_some_iff.mp result
  rw [Prod.mk.injEq] at stored
  have sound (x : SrState) (e : SrEvent) (y : SrState) (votes : fromVotes e = true)
      (called : srCall cutOffEnv x e = some y) : SrStep cutOffEnv x e y :=
    ⟨fromVotes_parsed votes, called⟩
  obtain ⟨ts, run, _⟩ := run_of_execAll sound reached
  have held := commit_reveal_integrity cutOffEnv rfl run
  exact ⟨ts, s, run, stored.1, stored.2, held.1, held.2.2.1⟩

end RendezMix.Guarantees.CommitReveal
