import RendezMix.Guarantees.VirtualAddresses

/-!
# The reverse map of virtual addresses

If the reverse map leads from an address to a virtual one, the map leads back. An entry may be
taken out of the map if its removal can read what it compares and finds its address, or if the
reverse map does not hold it; both can be told before.
-/
namespace RendezMix.Guarantees.ReverseMap
open Library ByteStrings Runs Source Addressmap
open VirtualAddresses (HandsOut addressmapGetVirtualAddress_handsOut)

/-! ## Entries of the reverse map -/

/-- A field of the entry is the virtual address. -/
def Holds (ve : VirtaddressEntry) (address : CString) : Prop :=
  ve.ipv4Address = some address ∨ ve.ipv6Address = some address ∨ ve.hostnameAddress = some address

/-- Every field that is compared is there. -/
def Complete (ve : VirtaddressEntry) : Prop :=
  ve.ipv4Address ≠ none ∧ ve.ipv6Address ≠ none ∧ ve.hostnameAddress ≠ none

/-- No two fields are the same address. -/
def Separate (ve : VirtaddressEntry) : Prop :=
  ∀ address, ¬ (ve.ipv4Address = some address ∧ ve.ipv6Address = some address)
    ∧ ¬ (ve.ipv4Address = some address ∧ ve.hostnameAddress = some address)
    ∧ ¬ (ve.ipv6Address = some address ∧ ve.hostnameAddress = some address)

/-- The entry has nothing that the other does not have in the same field. -/
structure Below (ve' ve : VirtaddressEntry) : Prop where
  ipv4 : ∀ address, ve'.ipv4Address = some address → ve.ipv4Address = some address
  ipv6 : ∀ address, ve'.ipv6Address = some address → ve.ipv6Address = some address
  hostname : ∀ address, ve'.hostnameAddress = some address → ve.hostnameAddress = some address
  freed : ve'.freed = ve.freed

theorem Below.refl (ve : VirtaddressEntry) : Below ve ve :=
  ⟨fun _ => id, fun _ => id, fun _ => id, rfl⟩

theorem Below.holds {ve' ve : VirtaddressEntry} (below : Below ve' ve) {address : CString}
    (held : Holds ve' address) : Holds ve address := by
  rcases held with ipv4 | ipv6 | hostname
  · exact Or.inl (below.ipv4 address ipv4)
  · exact Or.inr (Or.inl (below.ipv6 address ipv6))
  · exact Or.inr (Or.inr (below.hostname address hostname))

theorem Below.separate {ve' ve : VirtaddressEntry} (below : Below ve' ve) (separate : Separate ve) :
    Separate ve' := by
  intro address
  obtain ⟨first, second, third⟩ := separate address
  refine ⟨?_, ?_, ?_⟩
  · exact fun both => first ⟨below.ipv4 address both.1, below.ipv6 address both.2⟩
  · exact fun both => second ⟨below.ipv4 address both.1, below.hostname address both.2⟩
  · exact fun both => third ⟨below.ipv6 address both.1, below.hostname address both.2⟩

/-- A field without the address. -/
def without (address : CString) (field : Option CString) : Option CString :=
  if field = some address then none else field

/-- An entry without the address. -/
def unmirror (address : CString) (ve : VirtaddressEntry) : VirtaddressEntry :=
  ⟨without address ve.ipv4Address, without address ve.ipv6Address,
    without address ve.hostnameAddress, ve.freed⟩

theorem without_eq_some {address other : CString} {field : Option CString} :
    without address field = some other ↔ field = some other ∧ other ≠ address := by
  rw [without]
  split
  next here =>
    rw [here]
    simp only [reduceCtorEq, Option.some.injEq, false_iff, not_and, not_not]
    exact Eq.symm
  next elsewhere =>
    constructor
    · intro same
      refine ⟨same, ?_⟩
      rintro rfl
      exact elsewhere same
    · exact And.left

section

variable (address : CString) {ve : VirtaddressEntry}

theorem unmirror_below (ve : VirtaddressEntry) : Below (unmirror address ve) ve :=
  ⟨fun _ same => (without_eq_some.mp same).1, fun _ same => (without_eq_some.mp same).1,
    fun _ same => (without_eq_some.mp same).1, rfl⟩

theorem not_holds_unmirror (ve : VirtaddressEntry) : ¬ Holds (unmirror address ve) address := by
  rintro (ipv4 | ipv6 | hostname)
  · exact (without_eq_some.mp ipv4).2 rfl
  · exact (without_eq_some.mp ipv6).2 rfl
  · exact (without_eq_some.mp hostname).2 rfl

theorem unmirror_of_not_holds {address : CString} (absent : ¬ Holds ve address) :
    unmirror address ve = ve := by
  have ipv4 : ve.ipv4Address ≠ some address := fun same => absent (Or.inl same)
  have ipv6 : ve.ipv6Address ≠ some address := fun same => absent (Or.inr (Or.inl same))
  have hostname : ve.hostnameAddress ≠ some address := fun same => absent (Or.inr (Or.inr same))
  rw [unmirror, without, without, without, if_neg ipv4, if_neg ipv6, if_neg hostname]

theorem not_complete_unmirror {address : CString} (held : Holds ve address) :
    ¬ Complete (unmirror address ve) := by
  rintro ⟨ipv4, ipv6, hostname⟩
  rcases held with here | here | here
  · exact ipv4 (if_pos here)
  · exact ipv6 (if_pos here)
  · exact hostname (if_pos here)

theorem unmirror_ne_empty (separate : Separate ve) (complete : Complete ve) :
    ¬ (without address ve.ipv4Address = none ∧ without address ve.ipv6Address = none
      ∧ without address ve.hostnameAddress = none) := by
  rintro ⟨ipv4, ipv6, _⟩
  have gone : ∀ {field : Option CString}, field ≠ none → without address field = none →
      field = some address := by
    intro field given cleared
    by_contra elsewhere
    rw [without, if_neg elsewhere] at cleared
    exact given cleared
  exact (separate address).1 ⟨gone complete.1 ipv4, gone complete.2.1 ipv6⟩

theorem clearField_ok {field : Option CString} (given : field ≠ none) :
    clearField (.ok address) field = .ok (without address field) := by
  obtain ⟨other, rfl⟩ := Option.ne_none_iff_exists'.mp given
  rw [clearField, without]
  simp only [bind, Except.bind, Option.some.injEq, eq_comm]

/-- A key that has been freed, or a field that is missing, cannot be compared. -/
theorem clearFields_error {key : Except Halt CString}
    {next : Option CString → Option CString → Option CString → Except Halt Addressmaps}
    (bad : key = .error .freedKey ∨ (∃ address, key = .ok address) ∧ ¬ Complete ve) :
    ∃ halt, (do
        let ipv4Address ← clearField key ve.ipv4Address
        let ipv6Address ← clearField key ve.ipv6Address
        let hostnameAddress ← clearField key ve.hostnameAddress
        next ipv4Address ipv6Address hostnameAddress) = .error halt := by
  rcases bad with rfl | ⟨⟨address, rfl⟩, incomplete⟩
  · exact ⟨.freedKey, rfl⟩
  · refine ⟨.missingField, ?_⟩
    cases ipv4 : ve.ipv4Address with
    | none => rfl
    | some first =>
      rw [clearField_ok address (Option.some_ne_none first)]
      cases ipv6 : ve.ipv6Address with
      | none => rfl
      | some second =>
        rw [clearField_ok address (Option.some_ne_none second)]
        cases hostname : ve.hostnameAddress with
        | none => rfl
        | some third =>
          refine absurd ⟨?_, ?_, ?_⟩ incomplete
          · rw [ipv4]
            exact Option.some_ne_none first
          · rw [ipv6]
            exact Option.some_ne_none second
          · rw [hostname]
            exact Option.some_ne_none third

end

/-! ## What is kept -/

/-- If the reverse map leads from an address to a virtual one, the map leads back. -/
def Mirrors (s : Addressmaps) : Prop :=
  ∀ address ve virtualAddress, KeyedMap.get s.virtaddressReversemap address = some ve →
    Holds ve virtualAddress →
    ∃ ent, KeyedMap.get s.addressmap virtualAddress = some ent ∧ ent.newAddress = some address

structure Kept (s : Addressmaps) : Prop where
  keys : (KeyedMap.keys s.addressmap).Nodup
  mirrors : Mirrors s
  present : ∀ address ve, KeyedMap.get s.virtaddressReversemap address = some ve → ve.freed = false
  separate : ∀ address ve, KeyedMap.get s.virtaddressReversemap address = some ve → Separate ve
  targets : ∀ address ent, KeyedMap.get s.addressmap address = some ent →
    ent.source = .automap ∨ ent.source = .trackexit → ent.newAddress ≠ none

theorem addressmapInit_kept : Kept addressmapInit where
  keys := List.nodup_nil
  mirrors address ve virtualAddress found := by cases found
  present address ve found := by cases found
  separate address ve found := by cases found
  targets address ent found := by cases found

section Updates

variable {s s' : Addressmaps}

/-- One address is given another entry, or none, and the reverse map only loses addresses. -/
theorem Kept.update (kept : Kept s) (address : CString) (value : Option AddressmapEntry)
    (keys : (KeyedMap.keys s'.addressmap).Nodup)
    (forward : ∀ other, KeyedMap.get s'.addressmap other
      = if other = address then value else KeyedMap.get s.addressmap other)
    (backward : ∀ target ve', KeyedMap.get s'.virtaddressReversemap target = some ve' →
      ∃ ve, KeyedMap.get s.virtaddressReversemap target = some ve ∧ Below ve' ve)
    (held : ∀ target ve', KeyedMap.get s'.virtaddressReversemap target = some ve' →
      Holds ve' address → value.bind AddressmapEntry.newAddress = some target)
    (given : ∀ ent, value = some ent → ent.source = .automap ∨ ent.source = .trackexit →
      ent.newAddress ≠ none) : Kept s' := by
  refine ⟨keys, ?_, ?_, ?_, ?_⟩
  · intro target ve' virtualAddress found holds
    by_cases here : virtualAddress = address
    · have target' := held target ve' found (here ▸ holds)
      obtain ⟨ent, same, leads⟩ := Option.bind_eq_some_iff.mp target'
      exact ⟨ent, by rw [forward, if_pos here, same], leads⟩
    · obtain ⟨ve, before, below⟩ := backward target ve' found
      obtain ⟨ent, there, leads⟩ := kept.mirrors target ve virtualAddress before (below.holds holds)
      exact ⟨ent, by rw [forward, if_neg here, there], leads⟩
  · intro target ve' found
    obtain ⟨ve, before, below⟩ := backward target ve' found
    rw [below.freed]
    exact kept.present target ve before
  · intro target ve' found
    obtain ⟨ve, before, below⟩ := backward target ve' found
    exact below.separate (kept.separate target ve before)
  · intro other ent found
    rw [forward] at found
    by_cases here : other = address
    · rw [if_pos here] at found
      exact given ent found
    · rw [if_neg here] at found
      exact kept.targets other ent found

end Updates

/-! ## Taking an entry out -/

section Removing

variable (text : AddressText) (nets : VirtualNets) (keyFreed : Bool) (s : Addressmaps)

/-- What the removal of an entry compares is there. -/
def Readable (ent : AddressmapEntry) : Prop :=
  ∀ target ve, ent.newAddress = some target → addressIsInVirtualRange text nets target = true →
    KeyedMap.get s.virtaddressReversemap target = some ve → keyFreed = false ∧ Complete ve

/-- The reverse map does not lead to the address by a way that the removal does not see, unless the
address is mapped to the same target again. -/
def Unheld (again : Option CString) (address : CString) (ent : AddressmapEntry) : Prop :=
  ∀ target ve, ent.newAddress = some target → addressIsInVirtualRange text nets target = false →
    KeyedMap.get s.virtaddressReversemap target = some ve → Holds ve address → again = some target

variable {text nets keyFreed s}

/-- What the removal of an entry does to the reverse map. -/
structure Unmirrors (text : AddressText) (nets : VirtualNets) (address : CString)
    (ent : AddressmapEntry) (s s' : Addressmaps) : Prop where
  forward : s'.addressmap = s.addressmap
  seen : ∀ target, ent.newAddress = some target → addressIsInVirtualRange text nets target = true →
    KeyedMap.get s'.virtaddressReversemap target
      = (KeyedMap.get s.virtaddressReversemap target).map (unmirror address)
  others : ∀ target, ¬ (ent.newAddress = some target
      ∧ addressIsInVirtualRange text nets target = true) →
    KeyedMap.get s'.virtaddressReversemap target = KeyedMap.get s.virtaddressReversemap target

section

variable {ent : AddressmapEntry}

theorem addressmapVirtaddressRemove_ok (kept : Kept s) (address : CString)
    (readable : Readable text nets keyFreed s ent) :
    ∃ s', addressmapVirtaddressRemove text nets (keyRead keyFreed address) ent s = .ok s'
      ∧ Unmirrors text nets address ent s s' := by
  have still : (∀ target, ent.newAddress = some target →
      addressIsInVirtualRange text nets target = true →
      KeyedMap.get s.virtaddressReversemap target = none) →
      Unmirrors text nets address ent s s := by
    intro absent
    refine ⟨rfl, fun target leads inside => ?_, fun _ _ => rfl⟩
    rw [absent target leads inside]
    rfl
  rw [addressmapVirtaddressRemove]
  cases leads : ent.newAddress with
  | none => exact ⟨s, rfl, still fun target same => by rw [leads] at same; cases same⟩
  | some newAddress =>
    simp only
    by_cases inside : addressIsInVirtualRange text nets newAddress = true
    · rw [if_pos inside]
      cases found : KeyedMap.get s.virtaddressReversemap newAddress with
      | none =>
        refine ⟨s, rfl, still fun target same _ => ?_⟩
        rw [leads] at same
        rw [← Option.some.inj same, found]
      | some ve =>
        obtain ⟨live, complete⟩ := readable newAddress ve leads inside found
        have present := kept.present newAddress ve found
        have more := unmirror_ne_empty address (kept.separate newAddress ve found) complete
        have key : keyRead keyFreed address = .ok address := by
          rw [keyRead, live]
          rfl
        simp only [present, Bool.false_eq_true, if_false, key, clearField_ok address complete.1,
          clearField_ok address complete.2.1, clearField_ok address complete.2.2, bind, Except.bind,
          if_neg more]
        refine ⟨_, rfl, rfl, fun target same _ => ?_, fun target other => ?_⟩
        · rw [leads] at same
          rw [KeyedMap.get_set, if_pos (Option.some.inj same).symm, ← Option.some.inj same, found,
            Option.map_some, unmirror, present]
        · rw [KeyedMap.get_set, if_neg]
          rintro rfl
          exact other ⟨leads, inside⟩
    · rw [if_neg inside]
      refine ⟨s, rfl, rfl, fun target same within => ?_, fun _ _ => rfl⟩
      rw [leads] at same
      rw [Option.some.inj same] at inside
      exact absurd within inside

theorem addressmapVirtaddressRemove_error (kept : Kept s) (address : CString)
    (unreadable : ¬ Readable text nets keyFreed s ent) :
    ∃ halt, addressmapVirtaddressRemove text nets (keyRead keyFreed address) ent s = .error halt := by
  simp only [Readable, not_forall] at unreadable
  obtain ⟨target, ve, leads, inside, found, bad⟩ := unreadable
  have present := kept.present target ve found
  rw [addressmapVirtaddressRemove]
  simp only [leads, inside, if_true, found, present, Bool.false_eq_true, if_false]
  apply clearFields_error
  cases keyFreed with
  | true => exact Or.inl rfl
  | false => exact Or.inr ⟨⟨address, rfl⟩, fun complete => bad ⟨rfl, complete⟩⟩

theorem Unmirrors.backward {address : CString} {s' : Addressmaps}
    (unmirrors : Unmirrors text nets address ent s s') (target : CString) (ve' : VirtaddressEntry)
    (found : KeyedMap.get s'.virtaddressReversemap target = some ve') :
    ∃ ve, KeyedMap.get s.virtaddressReversemap target = some ve ∧ Below ve' ve := by
  by_cases seen : ent.newAddress = some target ∧ addressIsInVirtualRange text nets target = true
  · rw [unmirrors.seen target seen.1 seen.2] at found
    obtain ⟨ve, before, rfl⟩ := Option.map_eq_some_iff.mp found
    exact ⟨ve, before, unmirror_below address ve⟩
  · rw [unmirrors.others target seen] at found
    exact ⟨ve', found, Below.refl ve'⟩

/-- What still leads to the address after its entry is removed does so to the target of the entry
by a way that the removal does not see. -/
theorem Unmirrors.held {address : CString} {s' : Addressmaps}
    (unmirrors : Unmirrors text nets address ent s s') (kept : Kept s)
    (entry : KeyedMap.get s.addressmap address = some ent) {again : Option CString}
    (unheld : Unheld text nets s again address ent) (target : CString) (ve' : VirtaddressEntry)
    (found : KeyedMap.get s'.virtaddressReversemap target = some ve') (holds : Holds ve' address) :
    again = some target := by
  obtain ⟨ve, before, below⟩ := unmirrors.backward target ve' found
  obtain ⟨ent', there, leads⟩ := kept.mirrors target ve address before (below.holds holds)
  rw [entry] at there
  obtain rfl := Option.some.inj there
  cases inside : addressIsInVirtualRange text nets target with
  | true =>
    rw [unmirrors.seen target leads inside, before, Option.map_some] at found
    rw [← Option.some.inj found] at holds
    exact absurd holds (not_holds_unmirror address ve)
  | false => exact unheld target ve leads inside before (below.holds holds)

end

end Removing

/-! ## Loops that take entries out -/

section Loops

variable (text : AddressText) (nets : VirtualNets) (keyFreed : Bool) (s : Addressmaps)

/-- The removal of the first entry takes nothing away that the removal of the second compares. -/
def Apart (x y : CString × AddressmapEntry) : Prop :=
  ∀ target ve, y.2.newAddress = some target → addressIsInVirtualRange text nets target = true →
    KeyedMap.get s.virtaddressReversemap target = some ve → ¬ Holds ve x.1

/-- Entries that can be removed one after the other. -/
structure Removable (entries : List (CString × AddressmapEntry)) : Prop where
  readable : ∀ x ∈ entries, Readable text nets keyFreed s x.2
  unheld : ∀ x ∈ entries, Unheld text nets s none x.1 x.2
  apart : entries.Pairwise (Apart text nets s)

/-- The entries that a loop removes. -/
def taken (gone : CString → AddressmapEntry → Except Halt Bool) (x : CString × AddressmapEntry) :
    Bool :=
  match gone x.1 x.2 with
  | .ok remove => remove
  | .error _ => false

variable {text nets keyFreed s} {x : CString × AddressmapEntry}
  {rest : List (CString × AddressmapEntry)}

theorem removable_cons : Removable text nets keyFreed s (x :: rest)
    ↔ Readable text nets keyFreed s x.2 ∧ Unheld text nets s none x.1 x.2
      ∧ (∀ y ∈ rest, Apart text nets s x y) ∧ Removable text nets keyFreed s rest := by
  constructor
  · rintro ⟨readable, unheld, apart⟩
    obtain ⟨here, later⟩ := List.pairwise_cons.mp apart
    exact ⟨readable x List.mem_cons_self, unheld x List.mem_cons_self, here,
      fun y member => readable y (List.mem_cons_of_mem x member),
      fun y member => unheld y (List.mem_cons_of_mem x member), later⟩
  · rintro ⟨first, second, here, readable, unheld, apart⟩
    exact ⟨List.forall_mem_cons.mpr ⟨first, readable⟩, List.forall_mem_cons.mpr ⟨second, unheld⟩,
      List.pairwise_cons.mpr ⟨here, apart⟩⟩

theorem Removable.congr {s s' : Addressmaps}
    (same : ∀ y ∈ rest, ∀ target, y.2.newAddress = some target →
      KeyedMap.get s'.virtaddressReversemap target = KeyedMap.get s.virtaddressReversemap target)
    (removable : Removable text nets keyFreed s rest) : Removable text nets keyFreed s' rest := by
  refine ⟨?_, ?_, removable.apart.imp_of_mem ?_⟩
  · intro y member target ve leads inside found
    rw [same y member target leads] at found
    exact removable.readable y member target ve leads inside found
  · intro y member target ve leads outside found
    rw [same y member target leads] at found
    exact removable.unheld y member target ve leads outside found
  · intro y z _ member apart target ve leads inside found
    rw [same z member target leads] at found
    exact apart target ve leads inside found

/-- An entry whose removal needs what the removal of another has taken away. -/
def Clashes (text : AddressText) (nets : VirtualNets) (s : Addressmaps)
    (x y : CString × AddressmapEntry) : Prop :=
  ∃ target ve, x.2.newAddress = some target ∧ y.2.newAddress = some target
    ∧ addressIsInVirtualRange text nets target = true
    ∧ KeyedMap.get s.virtaddressReversemap target = some ve ∧ Holds ve x.1

section

variable (kept : Kept s) (entry : KeyedMap.get s.addressmap x.1 = some x.2)

include kept entry

/-- After a removal the rest can be removed if and only if it could with the removal before it. -/
theorem removable_after {s' : Addressmaps} (unmirrors : Unmirrors text nets x.1 x.2 s s') :
    Removable text nets keyFreed s' rest
      ↔ (∀ y ∈ rest, Apart text nets s x y) ∧ Removable text nets keyFreed s rest := by
  by_cases clash : ∃ y ∈ rest, Clashes text nets s x y
  · obtain ⟨y, member, target, ve, leads, leads', inside, found, holds⟩ := clash
    constructor
    · intro removable
      have after : KeyedMap.get s'.virtaddressReversemap target = some (unmirror x.1 ve) := by
        rw [unmirrors.seen target leads inside, found, Option.map_some]
      exact absurd (removable.readable y member target _ leads' inside after).2
        (not_complete_unmirror holds)
    · rintro ⟨apart, _⟩
      exact absurd holds (apart y member target ve leads' inside found)
  · have same : ∀ y ∈ rest, ∀ target, y.2.newAddress = some target →
        KeyedMap.get s'.virtaddressReversemap target = KeyedMap.get s.virtaddressReversemap target := by
      intro y member target leads
      by_cases seen : x.2.newAddress = some target ∧ addressIsInVirtualRange text nets target = true
      · rw [unmirrors.seen target seen.1 seen.2]
        cases found : KeyedMap.get s.virtaddressReversemap target with
        | none => rfl
        | some ve =>
          rw [Option.map_some, unmirror_of_not_holds]
          exact fun holds => clash ⟨y, member, target, ve, seen.1, leads, seen.2, found, holds⟩
      · exact unmirrors.others target seen
    have apart : ∀ y ∈ rest, Apart text nets s x y := by
      intro y member target ve leads inside found holds
      obtain ⟨ent, there, leads'⟩ := kept.mirrors target ve x.1 found holds
      rw [entry] at there
      obtain rfl := Option.some.inj there
      exact clash ⟨y, member, target, ve, leads', leads, inside, found, holds⟩
    constructor
    · exact fun removable => ⟨apart, removable.congr fun y member target leads =>
        (same y member target leads).symm⟩
    · exact fun both => both.2.congr same

theorem remove_kept {s' : Addressmaps} (unmirrors : Unmirrors text nets x.1 x.2 s s')
    (unheld : Unheld text nets s none x.1 x.2) :
    Kept { s' with addressmap := KeyedMap.erase s'.addressmap x.1 } := by
  apply kept.update x.1 none
  · rw [unmirrors.forward]
    exact KeyedMap.nodup_erase kept.keys x.1
  · intro other
    simp only [unmirrors.forward, KeyedMap.get_erase]
  · exact unmirrors.backward
  · intro target ve' found holds
    have again := unmirrors.held kept entry unheld target ve' found holds
    cases again
  · intro ent same
    cases same

end

theorem of_bind_eq_ok {α β : Type} {first : Except Halt α} {next : α → Except Halt β} {result : β}
    (done : first >>= next = .ok result) : ∃ value, first = .ok value ∧ next value = .ok result := by
  cases first with
  | error halt => cases done
  | ok value => exact ⟨value, rfl, done⟩

theorem addressmapVirtaddressRemove_frame {key : Except Halt CString} {ent : AddressmapEntry}
    {s s' : Addressmaps} (result : addressmapVirtaddressRemove text nets key ent s = .ok s') :
    s'.addressmap = s.addressmap
      ∧ ∀ target, addressIsInVirtualRange text nets target = false →
        KeyedMap.get s'.virtaddressReversemap target = KeyedMap.get s.virtaddressReversemap target := by
  rw [addressmapVirtaddressRemove] at result
  split at result
  next =>
    cases result
    exact ⟨rfl, fun _ _ => rfl⟩
  next newAddress _ =>
    split at result
    next inside =>
      have apart : ∀ target, addressIsInVirtualRange text nets target = false → target ≠ newAddress := by
        rintro target outside rfl
        rw [inside] at outside
        cases outside
      split at result
      next =>
        cases result
        exact ⟨rfl, fun _ _ => rfl⟩
      next ve _ =>
        split at result
        next => cases result
        next =>
          obtain ⟨ipv4Address, _, result⟩ := of_bind_eq_ok result
          obtain ⟨ipv6Address, _, result⟩ := of_bind_eq_ok result
          obtain ⟨hostnameAddress, _, result⟩ := of_bind_eq_ok result
          split at result
          next =>
            cases result
            refine ⟨rfl, fun target outside => ?_⟩
            rw [KeyedMap.get_erase, if_neg (apart target outside)]
          next =>
            cases result
            refine ⟨rfl, fun target outside => ?_⟩
            rw [KeyedMap.get_set, if_neg (apart target outside)]
    next =>
      cases result
      exact ⟨rfl, fun _ _ => rfl⟩

section

variable {gone : CString → AddressmapEntry → Except Halt Bool}
  {order : List (CString × AddressmapEntry)}

/-- What no loop changes. -/
theorem removeWhere_frame {s s' : Addressmaps}
    (result : removeWhere text nets keyFreed gone order s = .ok s') :
    (∀ target, addressIsInVirtualRange text nets target = false →
        KeyedMap.get s'.virtaddressReversemap target = KeyedMap.get s.virtaddressReversemap target)
      ∧ ∀ address, KeyedMap.get s.addressmap address = none →
        KeyedMap.get s'.addressmap address = none := by
  induction order generalizing s with
  | nil =>
    cases result
    exact ⟨fun _ _ => rfl, fun _ => id⟩
  | cons x rest ih =>
    obtain ⟨address, ent⟩ := x
    rw [removeWhere] at result
    split at result
    next => cases result
    next => exact ih result
    next =>
      split at result
      next => cases result
      next s₁ removed =>
        obtain ⟨forward, backward⟩ := addressmapVirtaddressRemove_frame removed
        obtain ⟨later, absent⟩ := ih result
        refine ⟨fun target outside => (later target outside).trans (backward target outside), ?_⟩
        intro other missing
        apply absent
        simp only [forward, KeyedMap.get_erase, missing, ite_self]

/-- A loop succeeds, and keeps what is kept, if its entries can be removed one after the other. -/
theorem removeWhere_kept {s : Addressmaps} (kept : Kept s)
    (answers : ∀ x ∈ order, gone x.1 x.2 = .ok (taken gone x))
    (inside : ∀ x ∈ order, KeyedMap.get s.addressmap x.1 = some x.2)
    (distinct : (KeyedMap.keys order).Nodup)
    (removable : Removable text nets keyFreed s (order.filter (taken gone))) :
    ∃ s', removeWhere text nets keyFreed gone order s = .ok s' ∧ Kept s'
      ∧ ∀ address, KeyedMap.get s'.addressmap address
        = if address ∈ KeyedMap.keys (order.filter (taken gone)) then none
          else KeyedMap.get s.addressmap address := by
  induction order generalizing s with
  | nil => exact ⟨s, rfl, kept, fun _ => rfl⟩
  | cons x rest ih =>
    obtain ⟨here, others⟩ := List.forall_mem_cons.mp answers
    obtain ⟨entry, inside'⟩ := List.forall_mem_cons.mp inside
    obtain ⟨fresh, distinct'⟩ := List.nodup_cons.mp distinct
    rw [removeWhere, here]
    cases remove : taken gone x with
    | false =>
      rw [List.filter_cons_of_neg (by simp [remove])] at removable ⊢
      exact ih kept others inside' distinct' removable
    | true =>
      rw [List.filter_cons_of_pos remove] at removable ⊢
      obtain ⟨readable, unheld, apart, rest'⟩ := removable_cons.mp removable
      obtain ⟨s₁, removed, unmirrors⟩ := addressmapVirtaddressRemove_ok kept x.1 readable
      have kept' := remove_kept kept entry unmirrors unheld
      have after : Removable text nets keyFreed
          { s₁ with addressmap := KeyedMap.erase s₁.addressmap x.1 } (rest.filter (taken gone)) := by
        have later := (removable_after kept entry unmirrors).mpr ⟨apart, rest'⟩
        exact later.congr (s := s₁) fun _ _ _ _ => rfl
      have inside₁ : ∀ y ∈ rest,
          KeyedMap.get (KeyedMap.erase s₁.addressmap x.1) y.1 = some y.2 := by
        intro y member
        rw [KeyedMap.get_erase, unmirrors.forward, if_neg, inside' y member]
        intro same
        exact fresh (same ▸ List.mem_map_of_mem member)
      obtain ⟨s', run, final, map⟩ := ih kept' others inside₁ distinct' after
      refine ⟨s', ?_, final, ?_⟩
      · simp only [addressmapEntRemove, removed]
        exact run
      · intro address
        rw [map address]
        simp only [KeyedMap.get_erase, unmirrors.forward, KeyedMap.keys, List.map_cons, List.mem_cons]
        by_cases first : address = x.1
        · rw [if_pos first, if_pos (Or.inl first), ite_self]
        · rw [if_neg first]
          simp only [first, false_or]

/-- An entry is taken out by a removal that does not see what leads to it. -/
theorem not_mirrors_of_held {s s₁ s' : Addressmaps} (unmirrors : Unmirrors text nets x.1 x.2 s s₁)
    (held : ¬ Unheld text nets s none x.1 x.2)
    (backward : ∀ target, addressIsInVirtualRange text nets target = false →
      KeyedMap.get s'.virtaddressReversemap target = KeyedMap.get s₁.virtaddressReversemap target)
    (absent : KeyedMap.get s'.addressmap x.1 = none) : ¬ Mirrors s' := by
  simp only [Unheld, not_forall] at held
  obtain ⟨target, ve, leads, outside, found, holds, _⟩ := held
  intro mirrors
  have still : KeyedMap.get s'.virtaddressReversemap target = some ve := by
    rw [backward target outside, unmirrors.others target, found]
    rintro ⟨_, inside⟩
    rw [outside] at inside
    cases inside
  obtain ⟨ent, there, _⟩ := mirrors target ve x.1 still holds
  rw [absent] at there
  cases there

/-- Otherwise it halts, or leaves an address in the reverse map that is no longer mapped. -/
theorem removeWhere_not_kept {s : Addressmaps} (kept : Kept s)
    (answers : ∀ x ∈ order, gone x.1 x.2 = .ok (taken gone x))
    (inside : ∀ x ∈ order, KeyedMap.get s.addressmap x.1 = some x.2)
    (distinct : (KeyedMap.keys order).Nodup)
    (bad : ¬ Removable text nets keyFreed s (order.filter (taken gone))) :
    (∃ halt, removeWhere text nets keyFreed gone order s = .error halt)
      ∨ ∃ s', removeWhere text nets keyFreed gone order s = .ok s' ∧ ¬ Mirrors s' := by
  induction order generalizing s with
  | nil => exact absurd ⟨nofun, nofun, List.Pairwise.nil⟩ bad
  | cons x rest ih =>
    obtain ⟨here, others⟩ := List.forall_mem_cons.mp answers
    obtain ⟨entry, inside'⟩ := List.forall_mem_cons.mp inside
    obtain ⟨fresh, distinct'⟩ := List.nodup_cons.mp distinct
    rw [removeWhere, here]
    cases remove : taken gone x with
    | false =>
      rw [List.filter_cons_of_neg (by simp [remove])] at bad
      exact ih kept others inside' distinct' bad
    | true =>
      rw [List.filter_cons_of_pos remove, removable_cons] at bad
      by_cases readable : Readable text nets keyFreed s x.2
      · obtain ⟨s₁, removed, unmirrors⟩ := addressmapVirtaddressRemove_ok kept x.1 readable
        simp only [addressmapEntRemove, removed]
        by_cases unheld : Unheld text nets s none x.1 x.2
        · have inside₁ : ∀ y ∈ rest,
              KeyedMap.get (KeyedMap.erase s₁.addressmap x.1) y.1 = some y.2 := by
            intro y member
            rw [KeyedMap.get_erase, unmirrors.forward, if_neg, inside' y member]
            intro same
            exact fresh (same ▸ List.mem_map_of_mem member)
          apply ih (remove_kept kept entry unmirrors unheld) others inside₁ distinct'
          intro removable
          have before : Removable text nets keyFreed s₁ (rest.filter (taken gone)) :=
            removable.congr (s := { s₁ with addressmap := KeyedMap.erase s₁.addressmap x.1 })
              fun _ _ _ _ => rfl
          exact bad ⟨readable, unheld, (removable_after kept entry unmirrors).mp before⟩
        · cases result : removeWhere text nets keyFreed gone rest
              { s₁ with addressmap := KeyedMap.erase s₁.addressmap x.1 } with
          | ok s' =>
            obtain ⟨backward, absent⟩ := removeWhere_frame result
            refine Or.inr ⟨s', rfl, not_mirrors_of_held unmirrors unheld backward (absent x.1 ?_)⟩
            rw [KeyedMap.get_erase, if_pos rfl]
          | error halt => exact Or.inl ⟨halt, rfl⟩
      · obtain ⟨halt, failed⟩ := addressmapVirtaddressRemove_error kept x.1 readable
        simp only [addressmapEntRemove, failed]
        exact Or.inl ⟨halt, rfl⟩

end

end Loops

end RendezMix.Guarantees.ReverseMap
