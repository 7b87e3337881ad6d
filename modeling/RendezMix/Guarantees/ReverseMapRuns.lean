import RendezMix.Guarantees.ReverseMap

/-!
# Runs of the address map

Which calls keep the reverse map, told from the state before each. Mappings are taken for the
other way round where they are removed: what is looked up in the virtual range is the target of
a mapping, and the address of a virtual mapping is its key.
-/
namespace RendezMix.Guarantees.ReverseMap
open Library ByteStrings Runs Source Addressmap
open VirtualAddresses (HandsOut addressmapGetVirtualAddress_handsOut)

variable {text : AddressText} {nets : VirtualNets} {s s₁ : Addressmaps}

/-! ## Registering a mapping -/

/-- The condition of `addressmap_register`: what it takes the place of can be removed, unless
the call is not performed. -/
def RegisterKeeps (text : AddressText) (nets : VirtualNets) (s : Addressmaps) (address : CString)
    (newAddress : Option CString) (reg : Registration) : Prop :=
  ∀ ent, KeyedMap.get s.addressmap address = some ent →
    mapsTo address newAddress reg = none ∨ reg.expires ≤ 1 →
    Readable text nets false s ent ∧ Unheld text nets s (mapsTo address newAddress reg) address ent

/-- The state with an entry for an address. -/
def withEntry (address : CString) (ent : AddressmapEntry) (s : Addressmaps) : Addressmaps :=
  { s with addressmap := KeyedMap.set s.addressmap address ent }

section

variable {ve : VirtaddressEntry} {type : ResolvedType} {ent : AddressmapEntry}

theorem Kept.not_holds (kept : Kept s) {address : CString}
    (unmapped : (KeyedMap.get s.addressmap address).bind AddressmapEntry.newAddress = none)
    {target : CString} (found : KeyedMap.get s.virtaddressReversemap target = some ve) :
    ¬ Holds ve address := by
  intro holds
  obtain ⟨ent, there, leads⟩ := kept.mirrors target ve address found holds
  rw [there, Option.bind_some, leads] at unmapped
  cases unmapped

theorem Kept.remapped (kept : Kept s) {address newAddress : CString}
    (backward : ∀ target ve', KeyedMap.get s₁.virtaddressReversemap target = some ve' →
      ∃ ve, KeyedMap.get s.virtaddressReversemap target = some ve ∧ Below ve' ve)
    (forward : s₁.addressmap = s.addressmap) (leads : ent.newAddress = some newAddress)
    (held : ∀ target ve', KeyedMap.get s₁.virtaddressReversemap target = some ve' →
      Holds ve' address → some newAddress = some target) : Kept (withEntry address ent s₁) := by
  apply kept.update address (some ent)
  · simp only [withEntry, forward]
    exact KeyedMap.nodup_set kept.keys address ent
  · intro other
    simp only [withEntry, forward, KeyedMap.get_set]
  · exact backward
  · intro target ve' found holds
    rw [Option.bind_some, leads]
    exact held target ve' found holds
  · intro other same _
    rw [← Option.some.inj same, leads]
    exact Option.some_ne_none newAddress

theorem unmirrors_outside {address oldAddress : CString} (leads : ent.newAddress = some oldAddress)
    (outside : ¬ addressIsInVirtualRange text nets oldAddress = true) :
    Unmirrors text nets address ent s s := by
  refine ⟨rfl, fun target same inside => ?_, fun _ _ => rfl⟩
  rw [leads] at same
  rw [Option.some.inj same] at outside
  exact absurd inside outside

theorem not_mirrors_of_remapped {address newAddress : CString} {ent ent' : AddressmapEntry}
    (unmirrors : Unmirrors text nets address ent s s₁) (leads : ent'.newAddress = some newAddress)
    (held : ¬ Unheld text nets s (some newAddress) address ent) :
    ¬ Mirrors (withEntry address ent' s₁) := by
  simp only [Unheld, not_forall] at held
  obtain ⟨target, ve, _, outside, found, holds, differs⟩ := held
  intro mirrors
  have still : KeyedMap.get (withEntry address ent' s₁).virtaddressReversemap target = some ve := by
    rw [← found]
    apply unmirrors.others
    rintro ⟨_, inside⟩
    rw [outside] at inside
    cases inside
  obtain ⟨ent'', there, leads'⟩ := mirrors target ve address still holds
  rw [withEntry, KeyedMap.get_set, if_pos rfl] at there
  rw [← Option.some.inj there, leads] at leads'
  exact differs leads'

/-- What a call does that keeps the maps, and what one does that does not. -/
structure Decided (good : Prop) (result : Except Halt Addressmaps) (bad : Addressmaps → Prop) :
    Prop where
  keeps : good → (∃ s', result = .ok s' ∧ Kept s') ∨ result = .error .drawing
  breaks : ¬ good → (∃ halt, result = .error halt) ∨ ∃ s', result = .ok s' ∧ bad s'

theorem addressmapRegister_decided (kept : Kept s) (address : CString) (newAddress : Option CString)
    {reg : Registration} (possible : reg.wildcardNewAddr = true → reg.wildcardAddr = true) :
    Decided (RegisterKeeps text nets s address newAddress reg)
      (addressmapRegister text nets address newAddress reg s) fun s' => ¬ Mirrors s' := by
  have allowed : ¬ (reg.wildcardNewAddr = true ∧ reg.wildcardAddr = false) := by
    rintro ⟨new, old⟩
    rw [possible new] at old
    cases old
  unfold RegisterKeeps addressmapRegister
  rw [if_neg allowed]
  cases entry : KeyedMap.get s.addressmap address with
  | none =>
    have vacuous : ∀ p : AddressmapEntry → Prop, ∀ ent, none = some ent → p ent :=
      fun p ent same => (by cases same)
    cases target : mapsTo address newAddress reg with
    | none => exact ⟨fun _ => Or.inl ⟨s, rfl, kept⟩, fun bad => absurd (vacuous _) bad⟩
    | some newAddress =>
      refine ⟨fun _ => Or.inl ⟨_, rfl, ?_⟩, fun bad => absurd (vacuous _) bad⟩
      apply kept.remapped (fun target ve found => ⟨ve, found, Below.refl ve⟩) rfl rfl
      intro target ve found holds
      exact absurd holds (kept.not_holds (by rw [entry]; rfl) found)
  | some ent =>
    cases target : mapsTo address newAddress reg with
    | none =>
      simp only [Option.some.injEq, forall_eq', true_or, forall_const]
      constructor
      · rintro ⟨readable, unheld⟩
        obtain ⟨s₁, removed, unmirrors⟩ := addressmapVirtaddressRemove_ok kept address readable
        have same : addressmapEntRemove text nets (.ok address) ent s = .ok s₁ := removed
        rw [same]
        exact Or.inl ⟨_, rfl, remove_kept (x := (address, ent)) kept entry unmirrors unheld⟩
      · intro bad
        by_cases readable : Readable text nets false s ent
        · obtain ⟨s₁, removed, unmirrors⟩ := addressmapVirtaddressRemove_ok kept address readable
          have same : addressmapEntRemove text nets (.ok address) ent s = .ok s₁ := removed
          have held : ¬ Unheld text nets s none address ent := fun unheld => bad ⟨readable, unheld⟩
          rw [same]
          refine Or.inr ⟨_, rfl, ?_⟩
          apply not_mirrors_of_held (x := (address, ent)) unmirrors held
          · exact fun _ _ => rfl
          · rw [KeyedMap.get_erase, if_pos rfl]
        · obtain ⟨halt, failed⟩ := addressmapVirtaddressRemove_error kept address readable
          have same : addressmapEntRemove text nets (.ok address) ent s = .error halt := failed
          rw [same]
          exact Or.inl ⟨halt, rfl⟩
    | some newAddress =>
      simp only [Option.some.injEq, forall_eq', reduceCtorEq, false_or, Option.bind_some]
      cases old : ent.newAddress with
      | none =>
        have trivially : Readable text nets false s ent ∧
            Unheld text nets s (some newAddress) address ent := by
          constructor
          · intro target ve leads
            rw [old] at leads
            cases leads
          · intro target ve leads
            rw [old] at leads
            cases leads
        refine ⟨fun _ => Or.inl ⟨_, rfl, ?_⟩, fun bad => absurd (fun _ => trivially) bad⟩
        apply kept.remapped (fun target ve found => ⟨ve, found, Below.refl ve⟩) rfl rfl
        intro target ve found holds
        exact absurd holds (kept.not_holds (by rw [entry, Option.bind_some, old]) found)
      | some oldAddress =>
        simp only
        by_cases temporary : reg.expires > 1
        · rw [if_pos temporary]
          refine ⟨fun _ => Or.inl ⟨s, rfl, kept⟩, fun bad => absurd (fun early => ?_) bad⟩
          omega
        · have early : reg.expires ≤ 1 := by omega
          have notTwo : reg.expires ≠ 2 := by omega
          rw [if_neg temporary]
          simp only [early, forall_const, notTwo, ne_eq, not_false_eq_true, and_true]
          by_cases inside : addressIsInVirtualRange text nets oldAddress = true
          · rw [if_pos inside]
            by_cases readable : Readable text nets false s ent
            · obtain ⟨s₁, removed, unmirrors⟩ := addressmapVirtaddressRemove_ok kept address readable
              have same : addressmapVirtaddressRemove text nets (.ok address) ent s = .ok s₁ := removed
              rw [same]
              constructor
              · rintro ⟨_, unheld⟩
                refine Or.inl ⟨_, rfl, ?_⟩
                exact kept.remapped unmirrors.backward unmirrors.forward rfl
                  (unmirrors.held kept entry unheld)
              · intro bad
                refine Or.inr ⟨_, rfl, not_mirrors_of_remapped unmirrors rfl fun unheld => ?_⟩
                exact bad ⟨readable, unheld⟩
            · obtain ⟨halt, failed⟩ := addressmapVirtaddressRemove_error kept address readable
              have same : addressmapVirtaddressRemove text nets (.ok address) ent s = .error halt :=
                failed
              rw [same]
              exact ⟨fun both => absurd both.1 readable, fun _ => Or.inl ⟨halt, rfl⟩⟩
          · have unmirrors : Unmirrors text nets address ent s s := unmirrors_outside old inside
            have readable : Readable text nets false s ent := by
              intro target ve leads within
              rw [old] at leads
              rw [Option.some.inj leads] at inside
              exact absurd within inside
            rw [if_neg inside]
            constructor
            · rintro ⟨_, unheld⟩
              refine Or.inl ⟨_, rfl, ?_⟩
              exact kept.remapped unmirrors.backward unmirrors.forward rfl
                (unmirrors.held kept entry unheld)
            · intro bad
              refine Or.inr ⟨_, rfl, not_mirrors_of_remapped unmirrors rfl fun unheld => ?_⟩
              exact bad ⟨readable, unheld⟩

/-! ## Registering a virtual address -/

/-- The condition of `addressmap_register_virtual_address`, where it has to draw an address: if none
is left there is no entry to free, and an address is not drawn for itself. -/
def VirtualKeeps (text : AddressText) (nets : VirtualNets) (s : Addressmaps) (type : ResolvedType)
    (newAddress : CString) (draws : List (Bytes 16)) : Prop :=
  ((KeyedMap.get s.virtaddressReversemap newAddress).bind fun ve => ve.field type) = none →
    match addressmapGetVirtualAddress text nets s.addressmap type draws with
    | .ok none => KeyedMap.get s.virtaddressReversemap newAddress = none
    | .ok (some virtualAddress) => ¬ SameCase virtualAddress newAddress
    | .error _ => True

theorem holds_of_field {address : CString} (field : ve.field type = some address) :
    Holds ve address := by
  cases type with
  | ipv4 => exact Or.inl field
  | ipv6 => exact Or.inr (Or.inl field)
  | hostname | other => exact Or.inr (Or.inr field)

theorem holds_setField {address other : CString}
    (holds : Holds (ve.setField type (some address)) other) : other = address ∨ Holds ve other := by
  cases type <;> rcases holds with here | here | here
  case ipv4.inl => exact Or.inl (Option.some.inj here).symm
  case ipv6.inr.inl => exact Or.inl (Option.some.inj here).symm
  case hostname.inr.inr => exact Or.inl (Option.some.inj here).symm
  case other.inr.inr => exact Or.inl (Option.some.inj here).symm
  all_goals first
    | exact Or.inr (Or.inl here)
    | exact Or.inr (Or.inr (Or.inl here))
    | exact Or.inr (Or.inr (Or.inr here))

theorem separate_setField {address : CString} (separate : Separate ve)
    (fresh : ¬ Holds ve address) : Separate (ve.setField type (some address)) := by
  have ipv4 : ve.ipv4Address ≠ some address := fun same => fresh (Or.inl same)
  have ipv6 : ve.ipv6Address ≠ some address := fun same => fresh (Or.inr (Or.inl same))
  have hostname : ve.hostnameAddress ≠ some address := fun same => fresh (Or.inr (Or.inr same))
  intro other
  obtain ⟨first, second, third⟩ := separate other
  cases type <;> refine ⟨?_, ?_, ?_⟩ <;> rintro ⟨left, right⟩
  case ipv4.refine_3 => exact third ⟨left, right⟩
  case ipv6.refine_2 => exact second ⟨left, right⟩
  case hostname.refine_1 | other.refine_1 => exact first ⟨left, right⟩
  case ipv4.refine_1 => exact ipv6 (right.trans left.symm)
  case ipv4.refine_2 => exact hostname (right.trans left.symm)
  case ipv6.refine_1 => exact ipv4 (left.trans right.symm)
  case ipv6.refine_3 => exact hostname (right.trans left.symm)
  case hostname.refine_2 | other.refine_2 => exact ipv4 (left.trans right.symm)
  case hostname.refine_3 | other.refine_3 => exact ipv6 (left.trans right.symm)

/-- An address that was not mapped is mapped, and the reverse map leads back to it. -/
theorem Kept.mirror (kept : Kept s) {newAddress virtualAddress : CString}
    (free : KeyedMap.get s.addressmap virtualAddress = none)
    (leads : ent.newAddress = some newAddress) :
    Kept (withEntry virtualAddress ent { s with
      virtaddressReversemap := KeyedMap.set s.virtaddressReversemap newAddress
        (((KeyedMap.get s.virtaddressReversemap newAddress).getD ⟨none, none, none, false⟩).setField
          type (some virtualAddress)) }) := by
  have fresh : ∀ {target ve}, KeyedMap.get s.virtaddressReversemap target = some ve →
      ¬ Holds ve virtualAddress := fun found => kept.not_holds (by rw [free]; rfl) found
  have empty : ∀ other, ¬ Holds ⟨none, none, none, false⟩ other := by
    rintro other (same | same | same) <;> cases same
  generalize start : (KeyedMap.get s.virtaddressReversemap newAddress).getD ⟨none, none, none, false⟩
    = ve
  have old : ∀ other, Holds ve other →
      KeyedMap.get s.virtaddressReversemap newAddress = some ve := by
    intro other holds
    cases found : KeyedMap.get s.virtaddressReversemap newAddress with
    | none =>
      rw [found, Option.getD_none] at start
      exact absurd holds (start ▸ empty other)
    | some there =>
      rw [found, Option.getD_some] at start
      rw [start]
  have live : ve.freed = false ∧ Separate ve := by
    cases found : KeyedMap.get s.virtaddressReversemap newAddress with
    | none =>
      rw [found, Option.getD_none] at start
      rw [← start]
      refine ⟨rfl, fun other => ⟨?_, ?_, ?_⟩⟩ <;> rintro ⟨same, _⟩ <;> cases same
    | some there =>
      rw [found, Option.getD_some] at start
      rw [← start]
      exact ⟨kept.present newAddress there found, kept.separate newAddress there found⟩
  refine ⟨KeyedMap.nodup_set kept.keys virtualAddress ent, ?_, ?_, ?_, ?_⟩
  · intro target ve' other found holds
    simp only [withEntry, KeyedMap.get_set] at found ⊢
    by_cases here : target = newAddress
    · rw [if_pos here] at found
      rw [← Option.some.inj found] at holds
      rcases holds_setField holds with rfl | holds
      · exact ⟨ent, if_pos rfl, by rw [leads, here]⟩
      · obtain ⟨ent', there, back⟩ := kept.mirrors newAddress ve other (old other holds) holds
        refine ⟨ent', ?_, by rw [back, here]⟩
        rw [if_neg, there]
        rintro rfl
        rw [free] at there
        cases there
    · rw [if_neg here] at found
      obtain ⟨ent', there, back⟩ := kept.mirrors target ve' other found holds
      refine ⟨ent', ?_, back⟩
      rw [if_neg, there]
      rintro rfl
      rw [free] at there
      cases there
  · intro target ve' found
    simp only [withEntry, KeyedMap.get_set] at found
    by_cases here : target = newAddress
    · rw [if_pos here] at found
      rw [← Option.some.inj found, ← live.1]
      cases type <;> rfl
    · rw [if_neg here] at found
      exact kept.present target ve' found
  · intro target ve' found
    simp only [withEntry, KeyedMap.get_set] at found
    by_cases here : target = newAddress
    · rw [if_pos here] at found
      rw [← Option.some.inj found]
      exact separate_setField live.2 fun holds => fresh (old _ holds) holds
    · rw [if_neg here] at found
      exact kept.separate target ve' found
  · intro other ent' found
    simp only [withEntry, KeyedMap.get_set] at found
    by_cases here : other = virtualAddress
    · rw [if_pos here] at found
      rw [← Option.some.inj found, leads]
      exact fun _ => Option.some_ne_none newAddress
    · rw [if_neg here] at found
      exact kept.targets other ent' found

end

/-- No entry of the reverse map has been freed. -/
def Present (s : Addressmaps) : Prop :=
  ∀ address ve, KeyedMap.get s.virtaddressReversemap address = some ve → ve.freed = false

section Fresh

variable (text nets) {m : List (CString × AddressmapEntry)} {address newAddress : CString}

section

variable (r : List (CString × VirtaddressEntry)) (free : KeyedMap.get m address = none)

include free

theorem addressmapRegister_fresh (other : ¬ SameCase address newAddress) :
    addressmapRegister text nets address (some newAddress) virtualRegistration ⟨m, r⟩
      = .ok (withEntry address (virtualRegistration.entry newAddress) ⟨m, r⟩) := by
  have target : mapsTo address (some newAddress) virtualRegistration = some newAddress := by
    simp [mapsTo, virtualRegistration, other]
  rw [addressmapRegister, if_neg (by simp [virtualRegistration]), target, free]
  rfl

theorem addressmapRegister_same (same : SameCase address newAddress) :
    addressmapRegister text nets address (some newAddress) virtualRegistration ⟨m, r⟩
      = .ok ⟨m, r⟩ := by
  have target : mapsTo address (some newAddress) virtualRegistration = none := by
    simp [mapsTo, virtualRegistration, same]
  rw [addressmapRegister, if_neg (by simp [virtualRegistration]), target, free]

end

end Fresh

theorem addressmapRegisterVirtualAddress_decided (kept : Kept s) (type : ResolvedType)
    (newAddress : CString) (draws : List (Bytes 16)) :
    Decided (VirtualKeeps text nets s type newAddress draws)
      ((addressmapRegisterVirtualAddress text nets type newAddress draws s).map Prod.fst)
      fun s' => ¬ (Mirrors s' ∧ Present s') := by
  have live : ((KeyedMap.get s.virtaddressReversemap newAddress).getD
      ⟨none, none, none, false⟩).freed = false := by
    cases found : KeyedMap.get s.virtaddressReversemap newAddress with
    | none => rfl
    | some ve => exact kept.present newAddress ve found
  rw [addressmapRegisterVirtualAddress, VirtualKeeps]
  simp only [live, Bool.false_eq_true, if_false]
  cases field : ((KeyedMap.get s.virtaddressReversemap newAddress).bind fun ve => ve.field type) with
  | some virtualAddress =>
    obtain ⟨ve, found, here⟩ := Option.bind_eq_some_iff.mp field
    obtain ⟨ent, there, leads⟩ := kept.mirrors newAddress ve virtualAddress found (holds_of_field here)
    have still : stillMapped newAddress (some virtualAddress) s = some virtualAddress := by
      simp only [stillMapped, there, Option.bind_some, leads]
      exact if_pos rfl
    simp only [found, Option.getD_some, here, still, reduceCtorEq, if_false]
    refine ⟨fun _ => Or.inl ⟨s, rfl, kept⟩, fun bad => absurd (fun same => ?_) bad⟩
    cases same
  | none =>
    have nothing : ((KeyedMap.get s.virtaddressReversemap newAddress).getD
        ⟨none, none, none, false⟩).field type = none := by
      cases found : KeyedMap.get s.virtaddressReversemap newAddress with
      | none => cases type <;> rfl
      | some ve =>
        rw [found, Option.bind_some] at field
        exact field
    have handsOut : HandsOut s.addressmap
        (addressmapGetVirtualAddress text nets s.addressmap type draws) :=
      addressmapGetVirtualAddress_handsOut type draws
    simp only [nothing, stillMapped, forall_const]
    cases drawn : addressmapGetVirtualAddress text nets s.addressmap type draws with
    | error halt =>
      rw [drawn] at handsOut
      obtain rfl : halt = .drawing := handsOut
      exact ⟨fun _ => Or.inr rfl, fun bad => absurd trivial bad⟩
    | ok given =>
      rw [drawn] at handsOut
      cases given with
      | none =>
        cases found : KeyedMap.get s.virtaddressReversemap newAddress with
        | none => exact ⟨fun _ => Or.inl ⟨s, rfl, kept⟩, fun bad => absurd rfl bad⟩
        | some ve =>
          refine ⟨fun absent => (by cases absent), fun _ => Or.inr ⟨_, rfl, ?_⟩⟩
          rintro ⟨_, present⟩
          have gone := present newAddress _ (by rw [KeyedMap.get_set, if_pos rfl])
          cases gone
      | some virtualAddress =>
        have free : KeyedMap.get s.addressmap virtualAddress = none := handsOut
        by_cases same : SameCase virtualAddress newAddress
        · refine ⟨fun other => absurd same other, fun _ => Or.inr ?_⟩
          simp only
          rw [addressmapRegister_same text nets _ free same]
          refine ⟨_, rfl, ?_⟩
          rintro ⟨mirrors, _⟩
          have holds : ∀ ve : VirtaddressEntry,
              Holds (ve.setField type (some virtualAddress)) virtualAddress := by
            intro ve
            have field : (ve.setField type (some virtualAddress)).field type = some virtualAddress := by
              cases type <;> rfl
            exact holds_of_field field
          obtain ⟨ent, there, _⟩ := mirrors newAddress _ virtualAddress
            (by rw [KeyedMap.get_set, if_pos rfl]) (holds _)
          rw [free] at there
          cases there
        · refine ⟨fun _ => Or.inl ?_, fun bad => absurd same bad⟩
          simp only
          rw [addressmapRegister_fresh text nets _ free same]
          exact ⟨_, rfl, kept.mirror free rfl⟩

/-! ## Loops -/

section Walks

variable {keyFreed : Bool} {gone : CString → AddressmapEntry → Except Halt Bool}
  {order : List (CString × AddressmapEntry)}

theorem taken_of_answers {x : CString × AddressmapEntry} {remove : Bool}
    (answer : gone x.1 x.2 = .ok remove) : gone x.1 x.2 = .ok (taken gone x) := by
  rw [taken, answer]

section

variable (kept : Kept s) (perm : order.Perm s.addressmap)

include kept perm

theorem Kept.walked :
    (∀ x ∈ order, KeyedMap.get s.addressmap x.1 = some x.2) ∧ (KeyedMap.keys order).Nodup := by
  constructor
  · intro x member
    exact (KeyedMap.get_eq_some kept.keys x.1 x.2).mpr (perm.mem_iff.mp member)
  · exact (perm.map Prod.fst).nodup_iff.mpr kept.keys

theorem removeWhere_decided (answers : ∀ x ∈ order, ∃ remove, gone x.1 x.2 = .ok remove) :
    Decided (Removable text nets keyFreed s (order.filter (taken gone)))
      (removeWhere text nets keyFreed gone order s) fun s' => ¬ Mirrors s' := by
  obtain ⟨inside, distinct⟩ := kept.walked perm
  have same : ∀ x ∈ order, gone x.1 x.2 = .ok (taken gone x) := by
    intro x member
    obtain ⟨remove, answer⟩ := answers x member
    exact taken_of_answers answer
  constructor
  · intro removable
    obtain ⟨s', run, kept', _⟩ := removeWhere_kept kept same inside distinct removable
    exact Or.inl ⟨s', run, kept'⟩
  · exact removeWhere_not_kept kept same inside distinct

end

end Walks

theorem trackexitGone_answers (kept : Kept s) {order : List (CString × AddressmapEntry)}
    (perm : order.Perm s.addressmap) (suffix : CString) :
    ∀ x ∈ order, ∃ remove, trackexitGone suffix x.1 x.2 = .ok remove := by
  intro x member
  rw [trackexitGone]
  split
  next trackexit =>
    have found := (kept.walked perm).1 x member
    obtain ⟨newAddress, leads⟩ :=
      Option.ne_none_iff_exists'.mp (kept.targets x.1 x.2 found (Or.inr trackexit))
    rw [leads]
    exact ⟨_, rfl⟩
  next => exact ⟨_, rfl⟩

/-! ## Automaps -/

variable (text nets)

/-- The automaps that are still allowed are kept: the hostname that a virtual address is mapped to
still matches, and the virtual address is still in the virtual network. -/
def KeepsAutomaps (options : AutomapOptions) (s s' : Addressmaps) : Prop :=
  ∀ virtualAddress ent hostname, KeyedMap.get s.addressmap virtualAddress = some ent →
    ent.source = .automap → ent.newAddress = some hostname →
    options.automapHostsOnResolve = true → addressmapAddressShouldAutomap hostname options = true →
    addressIsInVirtualRange text nets virtualAddress = true →
    KeyedMap.get s'.addressmap virtualAddress = some ent

/-- The automaps that are still allowed are also allowed the other way round. -/
def EitherWay (options : AutomapOptions) (s : Addressmaps) : Prop :=
  ∀ virtualAddress ent hostname, KeyedMap.get s.addressmap virtualAddress = some ent →
    ent.source = .automap → ent.newAddress = some hostname →
    options.automapHostsOnResolve = true → addressmapAddressShouldAutomap hostname options = true →
    addressIsInVirtualRange text nets virtualAddress = true →
    addressmapAddressShouldAutomap virtualAddress options = true
      ∧ addressIsInVirtualRange text nets hostname = true

variable {text nets}

/-- When an automap is removed while automapping is on. -/
theorem automapGone_eq {options : AutomapOptions} {virtualAddress hostname : CString}
    {ent : AddressmapEntry} (automap : ent.source = .automap) (leads : ent.newAddress = some hostname)
    (onResolve : options.automapHostsOnResolve = true)
    (matching : addressmapAddressShouldAutomap hostname options = true) :
    automapGone text nets options virtualAddress ent
      = .ok (!(addressmapAddressShouldAutomap virtualAddress options
        && addressIsInVirtualRange text nets hostname)) := by
  have suffixes : options.automapHostsSuffixes.isNone = false := by
    cases given : options.automapHostsSuffixes with
    | none =>
      rw [addressmapAddressShouldAutomap, given] at matching
      cases matching
    | some suffixList => rfl
  rw [automapGone, automap, leads, onResolve, suffixes]
  cases addressmapAddressShouldAutomap virtualAddress options with
  | false => rfl
  | true => rfl

theorem automapGone_answers (kept : Kept s) {order : List (CString × AddressmapEntry)}
    (perm : order.Perm s.addressmap) (options : AutomapOptions) :
    ∀ x ∈ order, ∃ remove, automapGone text nets options x.1 x.2 = .ok remove := by
  intro x member
  rw [automapGone]
  split
  next => exact ⟨_, rfl⟩
  next automap =>
    rw [not_not] at automap
    split
    next => exact ⟨_, rfl⟩
    next =>
      have found := (kept.walked perm).1 x member
      obtain ⟨newAddress, leads⟩ :=
        Option.ne_none_iff_exists'.mp (kept.targets x.1 x.2 found (Or.inl automap))
      rw [leads]
      exact ⟨_, rfl⟩

theorem addressmapClearInvalidAutomaps_kept (kept : Kept s) {order : List (CString × AddressmapEntry)}
    (perm : order.Perm s.addressmap) (options : AutomapOptions)
    (removable : Removable text nets false s
      (order.filter (taken (automapGone text nets options)))) :
    ∃ s', addressmapClearInvalidAutomaps text nets options order s = .ok s' ∧ Kept s'
      ∧ (KeepsAutomaps text nets options s s' ↔ EitherWay text nets options s) := by
  obtain ⟨inside, distinct⟩ := kept.walked perm
  have same : ∀ x ∈ order, automapGone text nets options x.1 x.2
      = .ok (taken (automapGone text nets options) x) := by
    intro x member
    obtain ⟨remove, answer⟩ := automapGone_answers kept perm options x member
    exact taken_of_answers answer
  obtain ⟨s', run, kept', map⟩ := removeWhere_kept kept same inside distinct removable
  refine ⟨s', run, kept', ?_⟩
  apply forall_congr'
  intro virtualAddress
  apply forall_congr'
  intro ent
  apply forall_congr'
  intro hostname
  apply imp_congr_right
  intro found
  apply imp_congr_right
  intro automap
  apply imp_congr_right
  intro leads
  apply imp_congr_right
  intro onResolve
  apply imp_congr_right
  intro matching
  apply imp_congr_right
  intro _
  have member : (virtualAddress, ent) ∈ order :=
    perm.mem_iff.mpr ((KeyedMap.get_eq_some kept.keys virtualAddress ent).mp found)
  have removed : virtualAddress ∈ KeyedMap.keys (order.filter (taken (automapGone text nets options)))
      ↔ taken (automapGone text nets options) (virtualAddress, ent) = true := by
    constructor
    · intro listed
      obtain ⟨⟨other, ent'⟩, inFilter, rfl⟩ := List.mem_map.mp listed
      obtain ⟨inOrder, gone⟩ := List.mem_filter.mp inFilter
      have there := inside _ inOrder
      simp only [found, Option.some.injEq] at there
      rw [← there] at gone
      exact gone
    · exact fun gone => List.mem_map.mpr ⟨_, List.mem_filter.mpr ⟨member, gone⟩, rfl⟩
  rw [map virtualAddress]
  simp only [removed, taken, automapGone_eq automap leads onResolve matching, Bool.not_eq_true',
    Bool.and_eq_false_iff, found]
  cases addressmapAddressShouldAutomap virtualAddress options with
  | false => simp
  | true => cases addressIsInVirtualRange text nets hostname <;> simp

theorem clientDnsIncrFailures_kept (kept : Kept s) (address : CString) (now : Int) :
    Kept (clientDnsIncrFailures address now s) := by
  rw [clientDnsIncrFailures]
  apply kept.update address
  · exact KeyedMap.nodup_set kept.keys address _
  · exact fun other => KeyedMap.get_set _ _ _ _
  · exact fun target ve found => ⟨ve, found, Below.refl ve⟩
  · intro target ve found holds
    obtain ⟨ent, there, leads⟩ := kept.mirrors target ve address found holds
    rw [there, Option.bind_some, Option.getD_some]
    exact leads
  · intro ent same sourced
    rw [← Option.some.inj same] at sourced ⊢
    cases found : KeyedMap.get s.addressmap address with
    | none =>
      rw [found] at sourced
      rcases sourced with automap | trackexit
      · cases automap
      · cases trackexit
    | some old =>
      rw [found] at sourced
      exact kept.targets address old found sourced

/-! ## Runs -/

/-- The condition of a call, told from the state before it. -/
def KeepsMaps (text : AddressText) (x : Transition Addressmaps AddressmapCall) : Prop :=
  match x.input.event with
  | .register address newAddress reg => RegisterKeeps text x.input.nets x.pre address newAddress reg
  | .registerVirtual type newAddress draws => VirtualKeeps text x.input.nets x.pre type newAddress draws
  | .clearTrackexithost none _ | .resolveFailed _ _ => True
  | .clearTrackexithost (some exitname) order =>
    Removable text x.input.nets false x.pre (order.filter (taken (trackexitGone (exitSuffix exitname))))
  | .clearInvalidAutomaps options order =>
    Removable text x.input.nets false x.pre
        (order.filter (taken (automapGone text x.input.nets options)))
      ∧ EitherWay text x.input.nets options x.pre
  | .clearConfigured order =>
    Removable text x.input.nets true x.pre (order.filter (taken (expiresGone 0 0)))
  | .clearTransient order =>
    Removable text x.input.nets true x.pre (order.filter (taken (expiresGone 2 timeMax)))
  | .clean now order =>
    Removable text x.input.nets true x.pre (order.filter (taken (expiresGone 2 now)))

/-- What is promised of a call: the reverse map leads to virtual addresses that lead back, none of
its entries has been freed, nothing that is missing or freed is read, and the automaps that are still
allowed are kept. -/
structure Promised (text : AddressText) (x : Transition Addressmaps AddressmapCall) : Prop where
  mirrors : Mirrors x.post
  present : Present x.post
  safe : x.input.halted = none
  automaps : ∀ options order, x.input.event = .clearInvalidAutomaps options order →
    KeepsAutomaps text x.input.nets options x.pre x.post

/-- One call on maps that are kept: what is promised holds where the condition does, and only
there. -/
theorem addressmapStep_promised (kept : Kept s) (call : AddressmapCall) {s' : Addressmaps}
    (step : AddressmapStep text s call s') :
    (KeepsMaps text ⟨s, call, s'⟩ → Kept s' ∧ Promised text ⟨s, call, s'⟩)
      ∧ (¬ KeepsMaps text ⟨s, call, s'⟩ → ¬ Promised text ⟨s, call, s'⟩) := by
  obtain ⟨nets, event, halted⟩ := call
  obtain ⟨possible, outcome⟩ := step
  -- A call that is decided, apart from what it does to automaps.
  have decided : ∀ {good : Prop}, (∀ options order, event ≠ .clearInvalidAutomaps options order) →
      Decided good (addressmapStep text nets s event) (fun s' => ¬ (Mirrors s' ∧ Present s')) →
      (good → Kept s' ∧ Promised text ⟨s, ⟨nets, event, halted⟩, s'⟩)
        ∧ (¬ good → ¬ Promised text ⟨s, ⟨nets, event, halted⟩, s'⟩) := by
    intro good other decided
    constructor
    · intro holds
      rcases decided.keeps holds with ⟨after, done, kept'⟩ | drawing
      · rw [done] at outcome
        obtain ⟨none, rfl⟩ := outcome
        exact ⟨kept', kept'.mirrors, kept'.present, none,
          fun options order same => absurd same (other options order)⟩
      · rw [drawing] at outcome
        exact absurd rfl outcome.1
    · rintro fails ⟨mirrors, present, safe, _⟩
      rcases decided.breaks fails with ⟨halt, failed⟩ | ⟨after, done, bad⟩
      · rw [failed] at outcome
        rw [outcome.2.1] at safe
        cases safe
      · rw [done] at outcome
        obtain ⟨_, rfl⟩ := outcome
        exact bad ⟨mirrors, present⟩
  have weaker : ∀ {good : Prop} {result : Except Halt Addressmaps},
      Decided good result (fun s' => ¬ Mirrors s') →
      Decided good result (fun s' => ¬ (Mirrors s' ∧ Present s')) := by
    intro good result first
    refine ⟨first.keeps, fun fails => ?_⟩
    rcases first.breaks fails with halts | ⟨after, done, bad⟩
    · exact Or.inl halts
    · exact Or.inr ⟨after, done, fun both => bad both.1⟩
  have expires : ∀ (least most : Int) (order : List (CString × AddressmapEntry)),
      ∀ x ∈ order, ∃ remove, expiresGone least most x.1 x.2 = .ok remove :=
    fun _ _ _ _ _ => ⟨_, rfl⟩
  cases event with
  | register address newAddress reg =>
    apply decided nofun
    exact weaker (addressmapRegister_decided kept address newAddress possible)
  | registerVirtual type newAddress draws =>
    apply decided nofun
    exact addressmapRegisterVirtualAddress_decided kept type newAddress draws
  | clearTrackexithost exitname order =>
    cases exitname with
    | none => exact decided nofun ⟨fun _ => Or.inl ⟨s, rfl, kept⟩, fun bad => absurd trivial bad⟩
    | some exitname =>
      apply decided nofun
      exact weaker (removeWhere_decided kept possible (trackexitGone_answers kept possible _))
  | clearConfigured order | clearTransient order | clean now order =>
    apply decided nofun
    exact weaker (removeWhere_decided kept possible (expires _ _ order))
  | resolveFailed address now =>
    apply decided nofun
    exact ⟨fun _ => Or.inl ⟨_, rfl, clientDnsIncrFailures_kept kept address now⟩,
      fun bad => absurd trivial bad⟩
  | clearInvalidAutomaps options order =>
    constructor
    · rintro ⟨removable, eitherWay⟩
      obtain ⟨after, done, kept', keeps⟩ :=
        addressmapClearInvalidAutomaps_kept kept possible options removable
      simp only [addressmapStep, done] at outcome
      obtain ⟨none, rfl⟩ := outcome
      refine ⟨kept', kept'.mirrors, kept'.present, none, fun options' order' same => ?_⟩
      cases same
      exact keeps.mpr eitherWay
    · rintro bad ⟨mirrors, _, safe, automaps⟩
      by_cases removable : Removable text nets false s
          (order.filter (taken (automapGone text nets options)))
      · obtain ⟨after, done, _, keeps⟩ :=
          addressmapClearInvalidAutomaps_kept kept possible options removable
        simp only [addressmapStep, done] at outcome
        obtain ⟨_, rfl⟩ := outcome
        exact bad ⟨removable, keeps.mp (automaps options order rfl)⟩
      · have loop : Decided (Removable text nets false s
              (order.filter (taken (automapGone text nets options))))
            (removeWhere text nets false (automapGone text nets options) order s) fun s' =>
              ¬ Mirrors s' :=
          removeWhere_decided kept possible (automapGone_answers kept possible options)
        rcases loop.breaks removable with ⟨halt, failed⟩ | ⟨after, done, broken⟩
        · simp only [addressmapStep, addressmapClearInvalidAutomaps, failed] at outcome
          rw [outcome.2.1] at safe
          cases safe
        · simp only [addressmapStep, addressmapClearInvalidAutomaps, done] at outcome
          obtain ⟨_, rfl⟩ := outcome
          exact broken mirrors

/-- In every run what is promised holds at each call if and only if each call meets the
condition. -/
theorem addressmapRun_promised_iff (text : AddressText)
    (ts : List (Transition Addressmaps AddressmapCall)) (s : Addressmaps)
    (run : Run (AddressmapStep text) addressmapInit ts s) :
    (∀ x ∈ ts, Promised text x) ↔ ∀ x ∈ ts, KeepsMaps text x := by
  apply run.sound_iff_good addressmapInit_kept
  · intro s call s' kept step
    obtain ⟨good, bad⟩ := addressmapStep_promised kept call step
    constructor
    · intro promised
      by_contra other
      exact bad other promised
    · exact fun keeps => (good keeps).2
  · exact fun s call s' kept step keeps => ((addressmapStep_promised kept call step).1 keeps).1

/-! ## An automap that is cleared -/

/-- No text is an address. -/
def onionText : AddressText := ⟨fun _ => none, fun _ _ => []⟩

def onionNets : VirtualNets :=
  ⟨⟨.inet 0x7fc00000, 10⟩, ⟨.inet6 (fit 16 [0xfe]), 10⟩, by decide, by decide⟩

def onionName : CString := textBytes "expyuzz4wqqyqhjn.onion"

/-- The virtual address that is drawn. -/
def onionVirtual : CString := textBytes "aaaaaaaaaaaaaaaa.virtual"

def automapped : Addressmaps :=
  ⟨[(onionVirtual, ⟨some onionName, 1, .automap, false, false, 0⟩)],
    [(onionName, ⟨none, none, some onionVirtual, false⟩)]⟩

def automapOptions : AutomapOptions := ⟨true, some [textBytes ".exit", textBytes ".onion"]⟩

/-- A hostname is mapped, and the automaps are checked while its suffix is still configured. -/
def automapSteps : List (Transition Addressmaps AddressmapCall) :=
  [⟨addressmapInit, ⟨onionNets, .registerVirtual .hostname onionName [fit 16 []], none⟩, automapped⟩,
    ⟨automapped, ⟨onionNets, .clearInvalidAutomaps automapOptions automapped.addressmap, none⟩,
      ⟨[], automapped.virtaddressReversemap⟩⟩]

theorem automapRun : Run (AddressmapStep onionText) addressmapInit automapSteps
    ⟨[], automapped.virtaddressReversemap⟩ := by
  have drawn : addressmapStep onionText onionNets addressmapInit
      (.registerVirtual .hostname onionName [fit 16 []]) = .ok automapped := by
    decide +kernel
  have cleared : addressmapStep onionText onionNets automapped
      (.clearInvalidAutomaps automapOptions automapped.addressmap)
      = .ok ⟨[], automapped.virtaddressReversemap⟩ := by
    decide +kernel
  have first : AddressmapStep onionText addressmapInit
      ⟨onionNets, .registerVirtual .hostname onionName [fit 16 []], none⟩ automapped := by
    refine ⟨trivial, ?_⟩
    simp only [drawn]
    exact ⟨trivial, trivial⟩
  have second : AddressmapStep onionText automapped
      ⟨onionNets, .clearInvalidAutomaps automapOptions automapped.addressmap, none⟩
      ⟨[], automapped.virtaddressReversemap⟩ := by
    refine ⟨List.Perm.refl _, ?_⟩
    simp only [cleared]
    exact ⟨trivial, trivial⟩
  exact (Run.single first).snoc second

theorem addressmapRun_promised_iff_automap :
    (∀ x ∈ automapSteps, Promised onionText x) ↔ ∀ x ∈ automapSteps, KeepsMaps onionText x :=
  addressmapRun_promised_iff onionText _ _ automapRun

/-- The virtual address is cleared, and the reverse map still leads to it. -/
theorem addressmapRun_promised_cleared :
    ¬ ∀ (text : AddressText) (ts : List (Transition Addressmaps AddressmapCall)) (s : Addressmaps),
      Run (AddressmapStep text) addressmapInit ts s → ∀ x ∈ ts, Promised text x := by
  intro always
  have promised := always onionText _ _ automapRun _ (List.mem_cons_of_mem _ List.mem_cons_self)
  obtain ⟨ent, there, _⟩ := promised.mirrors onionName ⟨none, none, some onionVirtual, false⟩
    onionVirtual (by decide +kernel) (Or.inr (Or.inr rfl))
  cases there

end RendezMix.Guarantees.ReverseMap
