import RendezMix.Source.AddressRewrite

/-!
# What a rewritten address is

An application of an entry is what the flags permit: an entry for the address replaces it, and an
entry for a superdomain replaces the address or, with a wildcard in its target, the suffix that
matches. `addressmap_rewrite` leaves the address that the applications it counted lead to, except
where the search for a superdomain has cut the address for an entry that is then not used.
-/
namespace RendezMix.Guarantees.AddressRewriting
open Library ByteStrings Source Addressmap AddressRewrite KeyedMap

variable (text : AddressText) (addressmap : List (CString × AddressmapEntry)) (flags : UInt32)

/-! ## Applications of entries -/

/-- No entry for the address itself says what it is to be replaced with. -/
def NoTarget (address : CString) : Prop :=
  ∀ ent, get addressmap address = some ent → ent.newAddress = none

/-- The longest superdomain of an address with a wildcard entry. -/
structure FirstSuperdomain (address start : CString) (ent : AddressmapEntry) : Prop where
  entry : ∃ suffix, address = start ++ dot :: suffix
    ∧ get addressmap (torStrlower suffix) = some ent
  wildcard : ent.srcWildcard = true
  first : ∀ start' suffix' ent', address = start' ++ dot :: suffix' →
    start'.length < start.length → get addressmap (torStrlower suffix') = some ent' →
    ent'.srcWildcard = false

/-- An application of an entry that the flags permit. -/
inductive Application : CString → AddressmapEntry → CString → Prop
  | exact {address newAddress : CString} {ent : AddressmapEntry}
      (found : get addressmap address = some ent)
      (target : ent.newAddress = some newAddress)
      (incomplete : ¬ RuleComplete ent address newAddress)
      (permitted : mappingUsable text flags ent.source newAddress = true) :
      Application address ent newAddress
  | superdomain {address start newAddress : CString} {ent : AddressmapEntry}
      (noTarget : NoTarget addressmap address)
      (found : FirstSuperdomain addressmap address start ent)
      (target : ent.newAddress = some newAddress)
      (permitted : mappingUsable text flags ent.source newAddress = true)
      (whole : ent.dstWildcard = false) : Application address ent newAddress
  | suffix {address start newAddress : CString} {ent : AddressmapEntry}
      (noTarget : NoTarget addressmap address)
      (found : FirstSuperdomain addressmap address start ent)
      (target : ent.newAddress = some newAddress)
      (permitted : mappingUsable text flags ent.source newAddress = true)
      (wildcard : ent.dstWildcard = true) : Application address ent (start ++ dot :: newAddress)

/-- Successive applications of entries. -/
inductive Chain : CString → List AddressmapEntry → CString → Prop
  | nil (address : CString) : Chain address [] address
  | cons {address between result : CString} {ent : AddressmapEntry} {ents : List AddressmapEntry}
      (first : Application text addressmap flags address ent between)
      (rest : Chain between ents result) : Chain address (ent :: ents) result

/-- The entry for the longest superdomain has a wildcard in its target and is not used. -/
def Refused (address : CString) : Prop :=
  NoTarget addressmap address ∧ ∃ start ent, FirstSuperdomain addressmap address start ent
    ∧ ent.dstWildcard = true ∧ ∀ newAddress, ent.newAddress = some newAddress →
      mappingUsable text flags ent.source newAddress = false

theorem FirstSuperdomain.unique {address start start' : CString} {ent ent' : AddressmapEntry}
    (found : FirstSuperdomain addressmap address start ent)
    (found' : FirstSuperdomain addressmap address start' ent') : start = start' ∧ ent = ent' := by
  obtain ⟨suffix, split, entry⟩ := found.entry
  obtain ⟨suffix', split', entry'⟩ := found'.entry
  obtain shorter | same | longer := Nat.lt_trichotomy start.length start'.length
  · have plain := found'.first start suffix ent split shorter entry
    rw [found.wildcard] at plain
    cases plain
  · obtain ⟨starts, suffixes⟩ := List.append_inj (split.symm.trans split') same
    rw [List.cons.injEq] at suffixes
    rw [suffixes.2, entry'] at entry
    exact ⟨starts, (Option.some_inj.mp entry).symm⟩
  · have plain := found.first start' suffix' ent' split' longer entry'
    rw [found'.wildcard] at plain
    cases plain

variable {text addressmap flags}

section

variable {newAddress result' : CString} {ent' ent : AddressmapEntry} {address result : CString}

theorem NoTarget.ne_some (noTarget : NoTarget addressmap address)
    (found : get addressmap address = some ent) : ent.newAddress ≠ some newAddress := by
  rw [noTarget ent found]
  exact Option.some_ne_none _ ∘ Eq.symm

theorem Application.unique (first : Application text addressmap flags address ent result)
    (second : Application text addressmap flags address ent' result') :
    ent = ent' ∧ result = result' := by
  cases first with
  | exact found target =>
    cases second with
    | exact found' target' =>
      rw [found, Option.some_inj] at found'
      subst found'
      rw [target, Option.some_inj] at target'
      exact ⟨rfl, target'⟩
    | superdomain noTarget | suffix noTarget => exact absurd target (noTarget.ne_some found)
  | superdomain noTarget found target _ whole =>
    cases second with
    | exact found' target' => exact absurd target' (noTarget.ne_some found')
    | superdomain _ found' target' =>
      obtain ⟨-, rfl⟩ := found.unique addressmap found'
      rw [target, Option.some_inj] at target'
      exact ⟨rfl, target'⟩
    | suffix _ found' _ _ wildcard =>
      obtain ⟨-, rfl⟩ := found.unique addressmap found'
      rw [whole] at wildcard
      cases wildcard
  | suffix noTarget found target _ wildcard =>
    cases second with
    | exact found' target' => exact absurd target' (noTarget.ne_some found')
    | superdomain _ found' _ _ whole =>
      obtain ⟨-, rfl⟩ := found.unique addressmap found'
      rw [whole] at wildcard
      cases wildcard
    | suffix _ found' target' =>
      obtain ⟨rfl, rfl⟩ := found.unique addressmap found'
      rw [target, Option.some_inj] at target'
      exact ⟨rfl, by rw [target']⟩

theorem Application.of_target (applied : Application text addressmap flags address ent' result)
    (found : get addressmap address = some ent)
    (target : ent.newAddress = some newAddress) :
    ¬ RuleComplete ent address newAddress
      ∧ mappingUsable text flags ent.source newAddress = true := by
  cases applied with
  | exact found' target' incomplete permitted =>
    rw [found, Option.some_inj] at found'
    subst found'
    rw [target, Option.some_inj] at target'
    subst target'
    exact ⟨incomplete, permitted⟩
  | superdomain noTarget | suffix noTarget => exact absurd target (noTarget.ne_some found)

theorem Application.of_noTarget (applied : Application text addressmap flags address ent result)
    (noTarget : NoTarget addressmap address) :
    ∃ start newAddress, FirstSuperdomain addressmap address start ent
      ∧ ent.newAddress = some newAddress
      ∧ mappingUsable text flags ent.source newAddress = true := by
  cases applied with
  | exact found target => exact absurd target (noTarget.ne_some found)
  | superdomain _ found target permitted | suffix _ found target permitted =>
    exact ⟨_, _, found, target, permitted⟩

theorem Refused.not_application (refused : Refused text addressmap flags address) :
    ¬ Application text addressmap flags address ent result := by
  obtain ⟨noTarget, start, other, here, _, unusable⟩ := refused
  intro applied
  obtain ⟨start', newAddress, found, target, usable⟩ := applied.of_noTarget noTarget
  obtain ⟨-, rfl⟩ := here.unique addressmap found
  rw [unusable newAddress target] at usable
  cases usable

theorem Chain.unique {ents ents' : List AddressmapEntry}
    (first : Chain text addressmap flags address ents result)
    (second : Chain text addressmap flags address ents' result')
    (same : ents.length = ents'.length) : result = result' := by
  induction first generalizing ents' with
  | nil =>
    cases second with
    | nil => rfl
    | cons => cases same
  | cons first rest ih =>
    cases second with
    | nil => cases same
    | cons first' rest' =>
      obtain ⟨-, rfl⟩ := first.unique first'
      exact ih rest' (Nat.succ.inj same)

theorem Chain.snoc {address between result : CString} {ents : List AddressmapEntry}
    (first : Chain text addressmap flags address ents between)
    (last : Application text addressmap flags between ent result) :
    Chain text addressmap flags address (ents ++ [ent]) result := by
  induction first with
  | nil => exact .cons last (.nil _)
  | cons first _ ih => exact .cons first (ih last)

end

/-! ## The search for a superdomain -/

variable (addressmap)

/-- What a search for a superdomain gives. -/
def Searched (address : CString) : Option AddressmapEntry × CString → Prop
  | (none, after) => after = address ∧ ∀ start ent, ¬ FirstSuperdomain addressmap address start ent
  | (some ent, after) => ∃ start, FirstSuperdomain addressmap address start ent
      ∧ after = if ent.dstWildcard then start else address

theorem matchSuperdomainsFrom_spec (before_ cp : CString)
    (earlier : ∀ start suffix ent, before_ ++ cp = start ++ dot :: suffix →
      start.length < before_.length → get addressmap (torStrlower suffix) = some ent →
      ent.srcWildcard = false) :
    Searched addressmap (before_ ++ cp) (matchSuperdomainsFrom addressmap before_ cp) := by
  induction cp generalizing before_ with
  | nil =>
    refine ⟨(List.append_nil before_).symm, ?_⟩
    intro start ent found
    obtain ⟨suffix, split, entry⟩ := found.entry
    have shorter : start.length < before_.length := by
      have lengths := congrArg List.length split
      rw [List.append_nil, List.length_append, List.length_cons] at lengths
      omega
    have plain := earlier start suffix ent split shorter entry
    rw [found.wildcard] at plain
    cases plain
  | cons c cp ih =>
    have onward (here : ∀ ent, c = dot → get addressmap (torStrlower cp) = some ent →
        ent.srcWildcard = false) : Searched addressmap (before_ ++ c :: cp)
          (matchSuperdomainsFrom addressmap (before_ ++ [c]) cp) := by
      have later := ih (before_ ++ [c]) (by
        intro start suffix ent split shorter entry
        rw [List.append_assoc, List.singleton_append] at split
        rw [List.length_append, List.length_singleton] at shorter
        by_cases before : start.length < before_.length
        · exact earlier start suffix ent split before entry
        · obtain ⟨-, rest⟩ := List.append_inj split (by omega)
          rw [List.cons.injEq] at rest
          rw [← rest.2] at entry
          exact here ent rest.1 entry)
      rw [List.append_assoc, List.singleton_append] at later
      exact later
    rw [matchSuperdomainsFrom]
    by_cases isDot : c = dot
    · rw [if_pos isDot]
      cases found : get addressmap (torStrlower cp) with
      | none => exact onward fun ent _ entry => by cases found.symm.trans entry
      | some val =>
        by_cases wildcard : val.srcWildcard = true
        · have here : FirstSuperdomain addressmap (before_ ++ c :: cp) before_ val :=
            ⟨⟨cp, by rw [isDot], found⟩, wildcard, earlier⟩
          dsimp only
          rw [if_pos wildcard]
          by_cases cut : val.dstWildcard = true
          · rw [if_pos cut]
            exact ⟨before_, here, by rw [if_pos cut]⟩
          · rw [if_neg cut]
            exact ⟨before_, here, by rw [if_neg cut]⟩
        · dsimp only
          rw [if_neg wildcard]
          exact onward fun ent _ entry => by
            cases found.symm.trans entry
            exact Bool.eq_false_iff.mpr wildcard
    · rw [if_neg isDot]
      exact onward fun ent same _ => absurd same isDot

theorem addressmapMatchSuperdomains_spec (address : CString) :
    Searched addressmap address (addressmapMatchSuperdomains addressmap address) :=
  matchSuperdomainsFrom_spec addressmap [] address (fun _ _ _ _ none_ _ => by cases none_)

variable {addressmap}

/-! ## One iteration -/

theorem strlcpy_fits {src : CString} {siz : Nat} (fits : src.length < siz) :
    strlcpy src siz = src := by
  rw [strlcpy, List.take_of_length_le (by omega)]

theorem strlcat_fits {dst src : CString} {siz : Nat} (fits : (dst ++ src).length < siz) :
    strlcat dst src siz = dst ++ src := by
  rw [List.length_append] at fits
  rw [strlcat, List.take_of_length_le (by omega)]

variable (text addressmap flags) in
/-- What an iteration does to an address. -/
inductive Iterated (address : CString) : Iteration → Prop
  | rewritten {ent : AddressmapEntry} {result : CString}
      (applied : Application text addressmap flags address ent result) :
      Iterated address (.rewritten ent result)
  | done (kept : ¬ Refused text addressmap flags address)
      (finished : ∀ ent result, ¬ Application text addressmap flags address ent result) :
      Iterated address (.done address)
  | cut {start : CString} (refused : Refused text addressmap flags address)
      (shorter : start.length < address.length) : Iterated address (.done start)

theorem rewriteSuperdomain_iterated {address : CString} {maxlen : Nat}
    (noTarget : NoTarget addressmap address)
    (fits : ∀ ent result, Application text addressmap flags address ent result →
      result.length < maxlen) :
    Iterated text addressmap flags address
      (rewriteSuperdomain text addressmap flags maxlen address) := by
  have search := addressmapMatchSuperdomains_spec addressmap address
  unfold rewriteSuperdomain
  cases result : addressmapMatchSuperdomains addressmap address with
  | mk found after =>
    rw [result] at search
    cases found with
    | none =>
      obtain ⟨rfl, missing⟩ := search
      apply Iterated.done
      · intro ⟨_, start, ent, here, _⟩
        exact missing start ent here
      · intro ent result applied
        obtain ⟨start, _, here, _⟩ := applied.of_noTarget noTarget
        exact missing start ent here
    | some ent =>
      obtain ⟨start, found, after_eq⟩ := search
      obtain ⟨suffix, split, -⟩ := found.entry
      have shorter : start.length < address.length := by
        rw [split, List.length_append, List.length_cons]
        omega
      have left (unusable : ∀ newAddress, ent.newAddress = some newAddress →
          mappingUsable text flags ent.source newAddress = false) :
          Iterated text addressmap flags address (.done after) := by
        rw [after_eq]
        by_cases cut : ent.dstWildcard = true
        · rw [if_pos cut]
          exact .cut ⟨noTarget, start, ent, found, cut, unusable⟩ shorter
        · rw [if_neg cut]
          apply Iterated.done
          · intro ⟨_, start', ent', found', wildcard, _⟩
            obtain ⟨-, rfl⟩ := found.unique addressmap found'
            exact cut wildcard
          · intro ent' result applied
            obtain ⟨start', newAddress, found', target, usable⟩ := applied.of_noTarget noTarget
            obtain ⟨-, rfl⟩ := found.unique addressmap found'
            rw [unusable newAddress target] at usable
            cases usable
      dsimp only
      cases target : ent.newAddress with
      | none => exact left fun newAddress some_ => by cases target.symm.trans some_
      | some newAddress =>
        dsimp only
        unfold rewriteWith
        by_cases permitted : mappingUsable text flags ent.source newAddress = true
        · rw [if_pos permitted]
          by_cases cut : ent.dstWildcard = true
          · have applied : Application text addressmap flags address ent
                (start ++ dot :: newAddress) := .suffix noTarget found target permitted cut
            have room := fits ent _ applied
            have between : (start ++ [dot]).length < maxlen := by
              rw [List.length_append, List.length_cons] at room
              rw [List.length_append, List.length_singleton]
              omega
            rw [List.append_cons] at room applied
            rw [if_pos ⟨cut, rfl⟩, after_eq, if_pos cut, strlcat_fits between, strlcat_fits room]
            exact .rewritten applied
          · have applied : Application text addressmap flags address ent newAddress :=
              .superdomain noTarget found target permitted (Bool.eq_false_iff.mpr cut)
            rw [if_neg (fun both => cut both.1), strlcpy_fits (fits ent _ applied)]
            exact .rewritten applied
        · rw [if_neg permitted]
          exact left fun other some_ => by
            cases target.symm.trans some_
            exact Bool.eq_false_iff.mpr permitted

theorem rewriteOnce_iterated {address : CString} {maxlen : Nat}
    (fits : ∀ ent result, Application text addressmap flags address ent result →
      result.length < maxlen) :
    Iterated text addressmap flags address
      (rewriteOnce text addressmap flags maxlen address) := by
  unfold rewriteOnce
  cases found : get addressmap address with
  | none =>
    apply rewriteSuperdomain_iterated _ fits
    intro ent some_
    cases found.symm.trans some_
  | some ent =>
    dsimp only
    cases target : ent.newAddress with
    | none =>
      apply rewriteSuperdomain_iterated _ fits
      intro other some_
      cases found.symm.trans some_
      exact target
    | some newAddress =>
      have kept : ¬ Refused text addressmap flags address :=
        fun refused => refused.1.ne_some found target
      dsimp only
      by_cases complete : RuleComplete ent address newAddress
      · rw [if_pos complete]
        exact .done kept fun _ _ applied => (applied.of_target found target).1 complete
      · rw [if_neg complete]
        unfold rewriteWith
        by_cases permitted : mappingUsable text flags ent.source newAddress = true
        · have applied : Application text addressmap flags address ent newAddress :=
            .exact found target complete permitted
          rw [if_pos permitted, if_neg (fun both => by cases both.2),
            strlcpy_fits (fits ent _ applied)]
          exact .rewritten applied
        · rw [if_neg permitted]
          exact .done kept fun _ _ applied => permitted (applied.of_target found target).2

/-! ## The loop -/

/-- The first of the expiry times of some entries, of those that are finite. -/
def earliestExpiry (ents : List AddressmapEntry) : Int :=
  ((ents.map AddressmapEntry.expires).filter (1 < ·)).foldl min timeMax

theorem earliestExpiry_append (ents : List AddressmapEntry) (ent : AddressmapEntry) :
    earliestExpiry (ents ++ [ent]) =
      if ent.expires > 1 ∧ ent.expires < earliestExpiry ents then ent.expires
      else earliestExpiry ents := by
  unfold earliestExpiry
  rw [List.map_append, List.filter_append, List.foldl_append]
  by_cases finite : 1 < ent.expires
  · have kept : [ent].map AddressmapEntry.expires = [ent.expires] := rfl
    rw [kept, List.filter_cons_of_pos (by simpa using finite), List.filter_nil, List.foldl_cons,
      List.foldl_nil]
    split <;> omega
  · have kept : [ent].map AddressmapEntry.expires = [ent.expires] := rfl
    rw [kept, List.filter_cons_of_neg (by simpa using finite), List.filter_nil, List.foldl_nil,
      if_neg (fun both => finite both.1)]

variable (text addressmap flags) in
/-- What is said of a rewritten address: it is what as many applications as were counted lead to,
not more than there may be, with the expiry time of their entries, and it is the address itself
where no rewrite is reported. -/
structure Counted (address : CString) (result : Rewriting × Bool) : Prop where
  chain : ∃ ents, Chain text addressmap flags address ents result.1.address
    ∧ ents.length = result.1.rewrites ∧ result.1.expires = earliestExpiry ents
  few : result.1.rewrites ≤ 16
  changed : result.2 = false → result.1.address = address

variable (text addressmap flags) in
/-- The buffer has room for all addresses that the map leads to. -/
def Fits (address : CString) (maxlen : Nat) : Prop :=
  ∀ ents result, Chain text addressmap flags address ents result → ents.length ≤ 16 →
    result.length < maxlen

section

variable {maxlen : Nat}

/-- An iteration at an address that fewer than 16 applications lead to. -/
theorem Fits.iterated {address between : CString} {ents : List AddressmapEntry}
    (fits : Fits text addressmap flags address maxlen)
    (chain : Chain text addressmap flags address ents between) (few : ents.length < 16) :
    Iterated text addressmap flags between
      (rewriteOnce text addressmap flags maxlen between) := by
  apply rewriteOnce_iterated
  intro ent result applied
  apply fits (ents ++ [ent]) result (chain.snoc applied)
  rw [List.length_append, List.length_singleton]
  omega

/-- The loop goes on from where some applications have led to, as far as nothing is refused. -/
theorem rewriteLoop_counted {address : CString} (fits : Fits text addressmap flags address maxlen)
    (unrefused : ∀ ents result, Chain text addressmap flags address ents result →
      ents.length < 16 → ¬ Refused text addressmap flags result) (left : Nat) (r : Rewriting)
    (ents : List AddressmapEntry) (chain : Chain text addressmap flags address ents r.address)
    (count : ents.length = r.rewrites) (expires : r.expires = earliestExpiry ents)
    (total : r.rewrites + left = 16) :
    ∃ ents', Chain text addressmap flags address ents'
        (rewriteLoop text addressmap flags maxlen address left r).address
      ∧ ents'.length = (rewriteLoop text addressmap flags maxlen address left r).rewrites
      ∧ (rewriteLoop text addressmap flags maxlen address left r).expires = earliestExpiry ents'
      ∧ (rewriteLoop text addressmap flags maxlen address left r).rewrites ≤ 16 := by
  induction left generalizing r ents with
  | zero => exact ⟨ents, chain, count, expires, by rw [rewriteLoop]; omega⟩
  | succ left ih =>
    have step := fits.iterated chain (by omega)
    rw [rewriteLoop]
    cases once : rewriteOnce text addressmap flags maxlen r.address with
    | done after =>
      rw [once] at step
      cases step with
      | done => exact ⟨ents, chain, count, expires, by dsimp only; omega⟩
      | cut refused => exact absurd refused (unrefused ents _ chain (by omega))
    | rewritten ent after =>
      rw [once] at step
      cases step with
      | rewritten applied =>
        apply ih (r.next address ent after) (ents ++ [ent]) (chain.snoc applied)
        · rw [List.length_append, List.length_singleton, count]
          rfl
        · rw [earliestExpiry_append, ← expires]
          rfl
        · change r.rewrites + 1 + left = 16
          omega

/-- The loop follows a chain. -/
theorem rewriteLoop_follows {address between result : CString}
    {before_ ents : List AddressmapEntry} (fits : Fits text addressmap flags address maxlen)
    (earlier : Chain text addressmap flags address before_ between)
    (chain : Chain text addressmap flags between ents result)
    (few : before_.length + ents.length ≤ 16) (left : Nat) (r : Rewriting)
    (here : r.address = between) :
    ∃ r', r'.address = result ∧ r'.rewrites = r.rewrites + ents.length
      ∧ rewriteLoop text addressmap flags maxlen address (ents.length + left) r =
        rewriteLoop text addressmap flags maxlen address left r' := by
  induction chain generalizing before_ r with
  | nil => exact ⟨r, here, rfl, by rw [List.length_nil, Nat.zero_add]⟩
  | @cons between next result ent ents first rest ih =>
    rw [List.length_cons] at few
    have step := fits.iterated earlier (by omega)
    have snoc : (before_ ++ [ent]).length = before_.length + 1 := List.length_append
    obtain ⟨r', result_eq, rewrites_eq, loop_eq⟩ := ih (earlier.snoc first) (by omega)
      (r.next address ent next) rfl
    refine ⟨r', result_eq, ?_, ?_⟩
    · rw [rewrites_eq, List.length_cons]
      change r.rewrites + 1 + ents.length = _
      omega
    · rw [← loop_eq, List.length_cons,
        show ents.length + 1 + left = ents.length + left + 1 by omega, rewriteLoop, here]
      cases once : rewriteOnce text addressmap flags maxlen between with
      | done after =>
        rw [once] at step
        cases step with
        | done _ finished => exact absurd first (finished _ _)
        | cut refused => exact absurd first refused.not_application
      | rewritten ent' after =>
        rw [once] at step
        cases step with
        | rewritten applied =>
          obtain ⟨rfl, rfl⟩ := first.unique applied
          rfl

/-- The address that is left is what the counted applications lead to just when none of the
addresses on the way has a wildcard target that is not used. -/
theorem addressmapRewrite_counted_iff (text : AddressText)
    (addressmap : List (CString × AddressmapEntry)) (flags : UInt32) (address : CString)
    (maxlen : Nat) (fits : Fits text addressmap flags address maxlen) :
    Counted text addressmap flags address (addressmapRewrite text addressmap flags address maxlen) ↔
      ∀ ents result, Chain text addressmap flags address ents result → ents.length < 16 →
        ¬ Refused text addressmap flags result := by
  constructor
  · intro counted ents result chain few refused
    obtain ⟨⟨ents', chain', count, -⟩, -, -⟩ := counted
    obtain ⟨r, rfl, rewrites_eq, loop_eq⟩ := rewriteLoop_follows fits (.nil address) chain
      (by rw [List.length_nil]; omega) (16 - ents.length) ⟨address, 0, timeMax, none⟩ rfl
    obtain ⟨left, left_eq⟩ : ∃ left, 16 - ents.length = left + 1 := ⟨15 - ents.length, by omega⟩
    have step := fits.iterated chain (by omega)
    rw [left_eq, show ents.length + (left + 1) = 16 by omega] at loop_eq
    unfold addressmapRewrite at chain' count
    dsimp only at chain' count
    rw [loop_eq, rewriteLoop] at chain' count
    cases once : rewriteOnce text addressmap flags maxlen r.address with
    | done after =>
      rw [once] at step chain' count
      cases step with
      | done kept => exact kept refused
      | cut _ shorter =>
        dsimp only at chain' count
        rw [rewrites_eq, Nat.zero_add] at count
        rw [chain'.unique chain count] at shorter
        exact Nat.lt_irrefl _ shorter
    | rewritten ent after =>
      rw [once] at step
      cases step with
      | rewritten applied => exact refused.not_application applied
  · intro unrefused
    obtain ⟨ents, chain, count, expires, few⟩ := rewriteLoop_counted fits unrefused 16
      ⟨address, 0, timeMax, none⟩ [] (.nil address) rfl rfl rfl
    refine ⟨⟨ents, chain, count, expires⟩, few, ?_⟩
    intro unchanged
    have none_ := of_decide_eq_false unchanged
    have empty : ents = [] := by
      rw [← List.length_eq_zero_iff, count]
      exact Nat.le_zero.mp (not_lt.mp none_)
    rw [empty] at chain
    exact chain.unique (.nil address) rfl

/-! ### Examples of rules -/

/-- Addresses are written as they are and none is read. -/
def noAddresses : AddressText := ⟨fun _ => none, fun _ _ => []⟩

/-- `MapAddress *.c.d *.e.f` -/
def wildcardRule : List (CString × AddressmapEntry) :=
  [(textBytes "c.d", ⟨some (textBytes "e.f"), 0, .torrc, true, true, 0⟩)]

def wildcardEntry : AddressmapEntry := ⟨some (textBytes "e.f"), 0, .torrc, true, true, 0⟩

theorem wildcardRule_found :
    FirstSuperdomain wildcardRule (textBytes "a.c.d") (textBytes "a") wildcardEntry := by
  have search := addressmapMatchSuperdomains_spec wildcardRule (textBytes "a.c.d")
  have found : addressmapMatchSuperdomains wildcardRule (textBytes "a.c.d") =
      (some wildcardEntry, textBytes "a") := by
    decide
  rw [found] at search
  obtain ⟨start, first, rfl⟩ := search
  exact first

theorem wildcardRule_noTarget : NoTarget wildcardRule (textBytes "a.c.d") := by
  intro ent found
  have missing : get wildcardRule (textBytes "a.c.d") = none := by
    decide
  cases missing.symm.trans found

/-- With `AMR_FLAG_USE_MAPADDRESS` the rule is used once. -/
theorem addressmapRewrite_counted_once :
    (addressmapRewrite noAddresses wildcardRule amrFlagUseMapaddress (textBytes "a.c.d") 256).1 =
        ⟨textBytes "a.e.f", 1, timeMax, none⟩
      ∧ ∀ ents result, Chain noAddresses wildcardRule amrFlagUseMapaddress (textBytes "a.c.d") ents
          result → ents.length < 16 →
        ¬ Refused noAddresses wildcardRule amrFlagUseMapaddress result := by
  have applied : Application noAddresses wildcardRule amrFlagUseMapaddress (textBytes "a.c.d")
      wildcardEntry (textBytes "a.e.f") :=
    .suffix wildcardRule_noTarget wildcardRule_found rfl (by decide) rfl
  have finished : ∀ start ent,
      ¬ FirstSuperdomain wildcardRule (textBytes "a.e.f") start ent := by
    have search := addressmapMatchSuperdomains_spec wildcardRule (textBytes "a.e.f")
    have found : addressmapMatchSuperdomains wildcardRule (textBytes "a.e.f") =
        (none, textBytes "a.e.f") := by
      decide
    rw [found] at search
    exact search.2
  have noTarget : NoTarget wildcardRule (textBytes "a.e.f") := by
    intro ent found
    have missing : get wildcardRule (textBytes "a.e.f") = none := by
      decide
    cases missing.symm.trans found
  have fits : Fits noAddresses wildcardRule amrFlagUseMapaddress (textBytes "a.c.d") 256 := by
    intro ents result chain _
    cases chain with
    | nil => decide
    | cons first rest =>
      obtain ⟨-, rfl⟩ := applied.unique first
      cases rest with
      | nil => decide
      | cons second _ =>
        obtain ⟨start, _, found, _⟩ := second.of_noTarget noTarget
        exact absurd found (finished start _)
  have ran : (addressmapRewrite noAddresses wildcardRule amrFlagUseMapaddress
      (textBytes "a.c.d") 256).1 = ⟨textBytes "a.e.f", 1, timeMax, none⟩ := by
    decide
  refine ⟨ran, (addressmapRewrite_counted_iff _ _ _ _ 256 fits).mp ⟨?_, ?_, ?_⟩⟩
  · rw [ran]
    exact ⟨[wildcardEntry], .cons applied (.nil _), rfl, by decide⟩
  · rw [ran]
    decide
  · decide

/-- `AMR_FLAG_USE_AUTOMAP|AMR_FLAG_USE_TRACKEXIT` -/
def automapFlags : UInt32 := 24

theorem wildcardRule_refused :
    Refused noAddresses wildcardRule automapFlags (textBytes "a.c.d") := by
  refine ⟨wildcardRule_noTarget, textBytes "a", wildcardEntry, wildcardRule_found, rfl, ?_⟩
  intro newAddress _
  have unset : (automapFlags &&& amrFlagUseMapaddress ≠ 0) = False := by
    decide
  unfold mappingUsable wildcardEntry
  rw [decide_eq_false_iff_not, unset]
  exact id

/-- Without `AMR_FLAG_USE_MAPADDRESS` the rule is not used, but the address has been cut. -/
theorem addressmapRewrite_counted_cut :
    Fits noAddresses wildcardRule automapFlags (textBytes "a.c.d") 256
      ∧ addressmapRewrite noAddresses wildcardRule automapFlags (textBytes "a.c.d") 256 =
        (⟨textBytes "a", 0, timeMax, none⟩, false)
      ∧ ¬ Counted noAddresses wildcardRule automapFlags (textBytes "a.c.d")
        (addressmapRewrite noAddresses wildcardRule automapFlags (textBytes "a.c.d") 256) := by
  have fits : Fits noAddresses wildcardRule automapFlags (textBytes "a.c.d") 256 := by
    intro ents result chain _
    cases chain with
    | nil => decide
    | cons first _ => exact absurd first wildcardRule_refused.not_application
  have ran : addressmapRewrite noAddresses wildcardRule automapFlags (textBytes "a.c.d") 256 =
      (⟨textBytes "a", 0, timeMax, none⟩, false) := by
    decide
  refine ⟨fits, ran, ?_⟩
  intro counted
  have same := counted.changed (by rw [ran])
  rw [ran] at same
  revert same
  decide

end

end RendezMix.Guarantees.AddressRewriting
