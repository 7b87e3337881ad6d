import RendezMix.Source.DosConnections

/-!
# The counts of client connections

The count of an entry is the number of the open connections that were counted against it and are
still tracked. A connection is counted against the entry for its address and its transport, and
when it is closed the entry for its address without a transport is looked up; when an entry is
freed, every connection from its address is no longer tracked. So the counts are kept exactly as
long as no tracked connection with a transport is closed, and no entry with connections is freed
while another with connections from the same address stays.
-/
namespace RendezMix.Guarantees.ConnectionCounts
open Library.KeyedLists Library.Runs Source.DosConnections

variable {α : Type*} [DecidableEq α]

/-- The open connections that were counted against an entry and are still tracked. -/
def stillCounted (conns : List (OrConnection α)) (address : Nat) : Nat :=
  conns.countP fun conn =>
    conn.trackedForDosMitigation && decide (conn.countedAgainst = some address)

def Exact (s : DosState α) : Prop :=
  ∀ ent ∈ s.clientHistory, ent.concurrentCount = stillCounted s.conns ent.address

/-- The counts are exact, and what is tracked belongs to an entry that is there. -/
structure Tidy (s : DosState α) : Prop where
  keys : Distinct clientKey s.clientHistory
  addresses : Distinct ClientEntry.address s.clientHistory
  issued : ∀ ent ∈ s.clientHistory, ent.address < s.allocated
  once : (s.conns.map OrConnection.id).Nodup
  owned : ∀ conn ∈ s.conns, conn.trackedForDosMitigation = true → ∃ ent ∈ s.clientHistory,
    conn.countedAgainst = some ent.address
      ∧ clientKey ent = (conn.addr, conn.transportName, .connect)
  exact_ : Exact s

omit [DecidableEq α] in
theorem newDosState_tidy (dosCcEnabled dosConnEnabled : Bool) :
    Tidy (newDosState dosCcEnabled dosConnEnabled : DosState α) := by
  constructor <;> simp [newDosState, Distinct, Exact]

omit [DecidableEq α] in
theorem stillCounted_pos {conns : List (OrConnection α)} {conn : OrConnection α} {address : Nat}
    (member : conn ∈ conns) (tracked : conn.trackedForDosMitigation = true)
    (against : conn.countedAgainst = some address) : 0 < stillCounted conns address := by
  apply List.countP_pos_iff.mpr
  exact ⟨conn, member, by simp [tracked, against]⟩

section Entries

variable {s : DosState α} {ent ent' : ClientEntry α}

omit [DecidableEq α] in
theorem Tidy.eq_of_address (tidy : Tidy s) (member : ent ∈ s.clientHistory)
    (member' : ent' ∈ s.clientHistory) (same : ent.address = ent'.address) : ent = ent' :=
  List.inj_on_of_nodup_map tidy.addresses member member' same

omit [DecidableEq α] in
omit [DecidableEq α] in
theorem Tidy.owner (tidy : Tidy s) (member : ent ∈ s.clientHistory) {conn : OrConnection α}
    (inside : conn ∈ s.conns) (tracked : conn.trackedForDosMitigation = true)
    (against : conn.countedAgainst = some ent.address) :
    clientKey ent = (conn.addr, conn.transportName, .connect) := by
  obtain ⟨other, there, against', key⟩ := tidy.owned conn inside tracked
  have same := Option.some.inj (against.symm.trans against')
  rw [tidy.eq_of_address member there same]
  exact key

theorem Tidy.lookup_eq (tidy : Tidy s) (member : ent ∈ s.clientHistory) {addr : α}
    {transportName : Option String} {action : ClientAction}
    (key : clientKey ent = (addr, transportName, action)) :
    geoipLookupClient addr transportName action s = some ent := by
  rw [geoipLookupClient, ← key]
  exact tidy.keys.find_of_mem member

/-! ## Writes to entries -/

omit [DecidableEq α] in
section

variable {f : ClientEntry α → ClientEntry α}

theorem mem_updateEntry {address : Nat} :
    ent ∈ (updateEntry address f s).clientHistory
      ↔ ∃ old ∈ s.clientHistory, ent = if old.address = address then f old else old := by
  simp only [updateEntry, List.mem_map]
  constructor
  · rintro ⟨old, member, rfl⟩
    exact ⟨old, member, rfl⟩
  · rintro ⟨old, member, rfl⟩
    exact ⟨old, member, rfl⟩

omit [DecidableEq α] in
theorem map_updateEntry {β : Type*} (g : ClientEntry α → β) (address : Nat)
    (same : ∀ ent, g (f ent) = g ent) :
    (updateEntry address f s).clientHistory.map g = s.clientHistory.map g := by
  rw [updateEntry, List.map_map]
  apply List.map_congr_left
  intro ent _
  simp only [Function.comp_apply]
  split
  · exact same ent
  · rfl

omit [DecidableEq α] in
/-- A write that leaves the address and the key alone, and gives each entry its count. -/
theorem Tidy.updated {address : Nat} (tidy : Tidy s)
    (at_address : ∀ ent, (f ent).address = ent.address)
    (key : ∀ ent, clientKey (f ent) = clientKey ent) (conns : List (OrConnection α))
    (once : (conns.map OrConnection.id).Nodup)
    (owned : ∀ conn ∈ conns, conn.trackedForDosMitigation = true → ∃ ent ∈ s.clientHistory,
      conn.countedAgainst = some ent.address
        ∧ clientKey ent = (conn.addr, conn.transportName, .connect))
    (counts : ∀ ent ∈ s.clientHistory, (if ent.address = address then f ent else ent).concurrentCount
      = stillCounted conns ent.address) :
    Tidy { updateEntry address f s with conns := conns } := by
  have kept : ∀ ent, (if ent.address = address then f ent else ent).address = ent.address := by
    intro ent
    split
    · exact at_address ent
    · rfl
  constructor
  · rw [Distinct, map_updateEntry clientKey address key]
    exact tidy.keys
  · rw [Distinct, map_updateEntry ClientEntry.address address at_address]
    exact tidy.addresses
  · intro ent member
    obtain ⟨old, there, rfl⟩ := mem_updateEntry.mp member
    rw [kept]
    exact tidy.issued old there
  · exact once
  · intro conn inside tracked
    obtain ⟨old, there, against, whose⟩ := owned conn inside tracked
    refine ⟨_, mem_updateEntry.mpr ⟨old, there, rfl⟩, ?_, ?_⟩
    · rw [kept]
      exact against
    · split
      · rw [key]
        exact whose
      · exact whose
  · intro ent member
    obtain ⟨old, there, rfl⟩ := mem_updateEntry.mp member
    rw [kept]
    exact counts old there

end

theorem clientmapEntryNew_tidy (tidy : Tidy s) {action : ClientAction} {addr : α}
    {transportName : Option String} (absent : geoipLookupClient addr transportName action s = none) :
    Tidy (clientmapEntryNew action addr transportName s).2 := by
  have fresh : ∀ ent ∈ s.clientHistory, ent.address ≠ s.allocated := fun ent member =>
    Nat.ne_of_lt (tidy.issued ent member)
  constructor
  · apply List.nodup_cons.mpr
    refine ⟨?_, tidy.keys⟩
    intro member
    obtain ⟨ent, there, same⟩ := List.mem_map.mp member
    exact find_eq_none.mp absent ent there same
  · apply List.nodup_cons.mpr
    refine ⟨?_, tidy.addresses⟩
    intro member
    obtain ⟨ent, there, same⟩ := List.mem_map.mp member
    exact fresh ent there same
  · intro ent member
    rcases List.mem_cons.mp member with rfl | old
    · exact Nat.lt_succ_self _
    · exact Nat.lt_succ_of_lt (tidy.issued ent old)
  · exact tidy.once
  · intro conn inside tracked
    obtain ⟨ent, there, against⟩ := tidy.owned conn inside tracked
    exact ⟨ent, List.mem_cons_of_mem _ there, against⟩
  · intro ent member
    rcases List.mem_cons.mp member with rfl | old
    · apply Eq.symm
      apply List.countP_eq_zero.mpr
      intro conn inside counted
      simp only [Bool.and_eq_true, decide_eq_true_eq] at counted
      obtain ⟨other, there, against, _⟩ := tidy.owned conn inside counted.1
      exact fresh other there (Option.some.inj (against.symm.trans counted.2))
    · exact tidy.exact_ ent old

theorem geoipNoteClientSeen_tidy (env : DosEnv) (action : ClientAction) (addr : α)
    (transportName : Option String) (tidy : Tidy s) :
    Tidy (geoipNoteClientSeen env action addr transportName s)
      ∧ (geoipNoteClientSeen env action addr transportName s).conns = s.conns := by
  have refreshed : ∀ {t : DosState α} (address : Nat) (lastSeen : Int), Tidy t →
      Tidy (updateEntry address (fun ent => { ent with lastSeenInMinutes := lastSeen }) t) := by
    intro t address lastSeen tidy
    refine tidy.updated (f := fun ent => { ent with lastSeenInMinutes := lastSeen }) (fun _ => rfl)
      (fun _ => rfl) t.conns tidy.once tidy.owned ?_
    intro ent member
    split
    · exact tidy.exact_ ent member
    · exact tidy.exact_ ent member
  unfold geoipNoteClientSeen
  simp only
  split
  · exact ⟨tidy, rfl⟩
  · cases present : geoipLookupClient addr transportName action s with
    | some ent => exact ⟨refreshed _ _ tidy, rfl⟩
    | none => exact ⟨refreshed _ _ (clientmapEntryNew_tidy tidy present), rfl⟩

end Entries

/-! ## Connections -/

section Connections

variable {s : DosState α} {conn : OrConnection α}

omit [DecidableEq α] in
theorem Tidy.untouched (tidy : Tidy s) (untracked : conn.trackedForDosMitigation = false)
    (fresh : ∀ other ∈ s.conns, other.id ≠ conn.id) : Tidy { s with conns := conn :: s.conns } := by
  obtain ⟨keys, addresses, issued, once, owned, exact_⟩ := tidy
  refine ⟨keys, addresses, issued, ?_, ?_, ?_⟩
  · apply List.nodup_cons.mpr
    refine ⟨?_, once⟩
    intro member
    obtain ⟨other, inside, same⟩ := List.mem_map.mp member
    exact fresh other inside same
  · intro other inside tracked
    rcases List.mem_cons.mp inside with rfl | old
    · rw [untracked] at tracked
      cases tracked
    · exact owned other old tracked
  · intro ent member
    rw [exact_ ent member, stillCounted, stillCounted, List.countP_cons_of_neg (by simp [untracked])]

theorem dosNewClientConn_tidy (env : DosEnv) (tidy : Tidy s)
    (untracked : conn.trackedForDosMitigation = false)
    (fresh : ∀ other ∈ s.conns, other.id ≠ conn.id) :
    Tidy (dosNewClientConn env conn conn.transportName s) := by
  have untouched := tidy.untouched untracked fresh
  unfold dosNewClientConn
  simp only
  split
  · exact untouched
  · split
    · exact untouched
    · split
      next => exact untouched
      next ent found =>
        have member := find_mem found
        have key := find_key found
        let new : OrConnection α :=
          { conn with trackedForDosMitigation := true, countedAgainst := some ent.address }
        refine tidy.updated (f := connUpdateOnConnect) (fun _ => rfl) (fun _ => rfl)
          (new :: s.conns) ?_ ?_ ?_
        · apply List.nodup_cons.mpr
          refine ⟨?_, tidy.once⟩
          intro inside
          obtain ⟨other, there, same⟩ := List.mem_map.mp inside
          exact fresh other there same
        · intro other inside tracked
          rcases List.mem_cons.mp inside with rfl | old
          · exact ⟨ent, member, rfl, key⟩
          · exact tidy.owned other old tracked
        · intro other there
          have before := tidy.exact_ other there
          rw [stillCounted] at before ⊢
          rw [List.countP_cons]
          by_cases same : other.address = ent.address
          · rw [if_pos same, if_pos (by simp [new, same])]
            simp only [connUpdateOnConnect, before]
          · rw [if_neg same, if_neg (by simp [new, Ne.symm same])]
            exact before

theorem stillCounted_erase {conns : List (OrConnection α)} (member : conn ∈ conns)
    (address : Nat) : stillCounted conns address = stillCounted (conns.erase conn) address
      + if conn.trackedForDosMitigation = true ∧ conn.countedAgainst = some address then 1 else 0 := by
  have perm := List.perm_cons_erase member
  rw [stillCounted, perm.countP_eq, List.countP_cons]
  congr 1
  by_cases counted : conn.trackedForDosMitigation = true ∧ conn.countedAgainst = some address
  · rw [if_pos counted, if_pos (by simpa using counted)]
  · rw [if_neg counted, if_neg (by simpa using counted)]

/-- A connection that is closed is taken from the count of its entry if it was not tracked, or had
no transport. -/
theorem dosCloseClientConn_tidy (tidy : Tidy s) (member : conn ∈ s.conns)
    (plain : conn.trackedForDosMitigation = true → conn.transportName = none) :
    Tidy (dosCloseClientConn conn { s with conns := s.conns.erase conn }).1
      ∧ (dosCloseClientConn conn { s with conns := s.conns.erase conn }).2 = false := by
  have once : ((s.conns.erase conn).map OrConnection.id).Nodup :=
    tidy.once.sublist (List.erase_sublist.map _)
  have owned : ∀ other ∈ s.conns.erase conn, other.trackedForDosMitigation = true →
      ∃ ent ∈ s.clientHistory, other.countedAgainst = some ent.address
        ∧ clientKey ent = (other.addr, other.transportName, .connect) := fun other inside =>
    tidy.owned other (List.mem_of_mem_erase inside)
  unfold dosCloseClientConn
  by_cases tracked : conn.trackedForDosMitigation = true
  · obtain ⟨ent, there, against, key⟩ := tidy.owned conn member tracked
    rw [plain tracked] at key
    have found : geoipLookupClient conn.addr none .connect { s with conns := s.conns.erase conn }
        = some ent := tidy.lookup_eq there key
    have positive := stillCounted_pos member tracked against
    rw [← tidy.exact_ ent there] at positive
    simp only [tracked, Bool.not_true, Bool.false_eq_true, if_false, found]
    constructor
    · refine tidy.updated (f := fun ent => (connUpdateOnClose ent).1) ?_ ?_ (s.conns.erase conn) once
        owned ?_
      · intro other
        simp only [connUpdateOnClose]
        split <;> rfl
      · intro other
        simp only [connUpdateOnClose]
        split <;> rfl
      · intro other inside
        have before := tidy.exact_ other inside
        rw [stillCounted_erase member] at before
        by_cases same : other.address = ent.address
        · obtain rfl := tidy.eq_of_address inside there same
          rw [if_pos ⟨tracked, against⟩] at before
          rw [if_pos rfl, connUpdateOnClose, if_neg (Nat.ne_of_gt positive)]
          simp only
          omega
        · have elsewhere : ¬ (conn.trackedForDosMitigation = true
              ∧ conn.countedAgainst = some other.address) := by
            rintro ⟨_, against'⟩
            exact same (Option.some.inj (against'.symm.trans against))
          rw [if_neg elsewhere] at before
          rw [if_neg same]
          exact before
    · rw [connUpdateOnClose, if_neg (Nat.ne_of_gt positive)]
  · simp only [tracked, Bool.not_false, if_true]
    refine ⟨⟨tidy.keys, tidy.addresses, tidy.issued, once, owned, ?_⟩, trivial⟩
    intro ent there
    have before := tidy.exact_ ent there
    rw [stillCounted_erase member, if_neg (fun both => tracked both.1)] at before
    exact before

theorem dosCloseClientConn_inexact (tidy : Tidy s) (member : conn ∈ s.conns)
    (tracked : conn.trackedForDosMitigation = true) {transportName : String}
    (transport : conn.transportName = some transportName) :
    ¬ Exact (dosCloseClientConn conn { s with conns := s.conns.erase conn }).1 := by
  obtain ⟨ent, there, against, key⟩ := tidy.owned conn member tracked
  have before := tidy.exact_ ent there
  rw [stillCounted_erase member, if_pos ⟨tracked, against⟩] at before
  intro after
  unfold dosCloseClientConn at after
  simp only [tracked, Bool.not_true, Bool.false_eq_true, if_false] at after
  split at after
  next =>
    have count := after ent there
    simp only at count
    omega
  next other found =>
    have stays : ent ∈ (updateEntry other.address (fun ent => (connUpdateOnClose ent).1)
        { s with conns := s.conns.erase conn }).clientHistory := by
      refine mem_updateEntry.mpr ⟨ent, there, ?_⟩
      rw [if_neg]
      intro same
      obtain rfl := tidy.eq_of_address there (find_mem found) same
      have key' := key.symm.trans (find_key found)
      rw [transport] at key'
      simp at key'
    have count := after ent stays
    simp only [updateEntry] at count
    omega

end Connections

end RendezMix.Guarantees.ConnectionCounts

/-!
# Runs of the connection counts

Freeing entries in closed form, and when the counts are kept: a run keeps them exactly if each of
its steps does, and which steps do can be told before the step.
-/
namespace RendezMix.Guarantees.ConnectionCounts
open Library.KeyedLists Library.Runs Source.DosConnections

variable {α : Type*} [DecidableEq α]

/-! ## Freeing entries -/

/-- An entry with connections from this address is freed. -/
def Released (gone : ClientEntry α → Bool) (history : List (ClientEntry α)) (addr : α) : Prop :=
  ∃ ent ∈ history, gone ent = true ∧ ent.concurrentCount ≠ 0 ∧ ent.addr = addr

instance (gone : ClientEntry α → Bool) (history : List (ClientEntry α)) (addr : α) :
    Decidable (Released gone history addr) := by
  unfold Released
  infer_instance

/-- The connections from the addresses of the entries that are freed are no longer tracked. -/
def release (gone : ClientEntry α → Bool) (history : List (ClientEntry α))
    (conn : OrConnection α) : OrConnection α :=
  if Released gone history conn.addr then { conn with trackedForDosMitigation := false } else conn

omit [DecidableEq α] in
theorem released_cons (gone : ClientEntry α → Bool) (ent : ClientEntry α)
    (rest : List (ClientEntry α)) (addr : α) :
    Released gone (ent :: rest) addr
      ↔ gone ent = true ∧ ent.concurrentCount ≠ 0 ∧ ent.addr = addr ∨ Released gone rest addr := by
  simp only [Released, List.mem_cons, exists_eq_or_imp]

theorem dosGeoipEntryAboutToFree_release (gone : ClientEntry α → Bool) {ent : ClientEntry α}
    (rest : List (ClientEntry α)) (conns : List (OrConnection α)) (freed : gone ent = true) :
    (dosGeoipEntryAboutToFree ent conns).map (release gone rest)
      = conns.map (release gone (ent :: rest)) := by
  rw [dosGeoipEntryAboutToFree]
  by_cases empty : ent.concurrentCount = 0
  · rw [if_pos empty]
    apply List.map_congr_left
    intro conn _
    simp only [release, released_cons, empty, ne_eq, not_true, false_and, and_false, false_or]
  · rw [if_neg empty, List.map_map]
    apply List.map_congr_left
    intro conn _
    simp only [Function.comp_apply, release, released_cons, freed, ne_eq, empty, not_false_eq_true,
      true_and]
    by_cases here : conn.addr = ent.addr
    · rw [if_pos here, if_pos (Or.inl here.symm)]
      split <;> rfl
    · rw [if_neg here]
      by_cases later : Released gone rest conn.addr
      · rw [if_pos later, if_pos (Or.inr later)]
      · rw [if_neg later, if_neg (fun either => either.elim (fun same => here same.symm) later)]

theorem freeEntries_eq (gone : ClientEntry α → Bool) (history : List (ClientEntry α))
    (conns : List (OrConnection α)) :
    freeEntries gone history conns
      = (history.filter fun ent => !gone ent, conns.map (release gone history)) := by
  induction history generalizing conns with
  | nil =>
    rw [freeEntries]
    congr 1
    apply Eq.symm
    apply List.map_id''
    intro conn
    rw [release, if_neg (by rintro ⟨ent, member, _⟩; cases member)]
  | cons ent rest ih =>
    rw [freeEntries]
    by_cases freed : gone ent = true
    · rw [if_pos freed, ih, List.filter_cons_of_neg (by simp [freed]),
        dosGeoipEntryAboutToFree_release gone rest conns freed]
    · rw [if_neg freed, ih, List.filter_cons_of_pos (by simp [freed])]
      simp only
      congr 1
      apply List.map_congr_left
      intro conn _
      simp only [release, released_cons, freed, Bool.false_eq_true, false_and, false_or]

/-- No entry with connections is freed while another with connections from its address stays. -/
def Separate (gone : ClientEntry α → Bool) (s : DosState α) : Prop :=
  ∀ ent ∈ s.clientHistory, gone ent = true → ent.concurrentCount ≠ 0 →
    ∀ other ∈ s.clientHistory, gone other = false → other.addr = ent.addr →
      other.concurrentCount = 0

section Freeing

variable {s : DosState α} {gone : ClientEntry α → Bool}

theorem removeEntries_eq (gone : ClientEntry α → Bool) (s : DosState α) :
    removeEntries gone s = { s with
      clientHistory := s.clientHistory.filter fun ent => !gone ent
      conns := s.conns.map (release gone s.clientHistory) } := by
  rw [removeEntries, freeEntries_eq]

theorem release_tracked {conn : OrConnection α} {history : List (ClientEntry α)} :
    (release gone history conn).trackedForDosMitigation = true
      ↔ conn.trackedForDosMitigation = true ∧ ¬ Released gone history conn.addr := by
  rw [release]
  split
  next released => simp [released]
  next kept => simp [kept]

theorem release_frame (gone : ClientEntry α → Bool) (conn : OrConnection α)
    (history : List (ClientEntry α)) :
    (release gone history conn).id = conn.id ∧ (release gone history conn).addr = conn.addr
      ∧ (release gone history conn).transportName = conn.transportName
      ∧ (release gone history conn).countedAgainst = conn.countedAgainst := by
  rw [release]
  split <;> exact ⟨rfl, rfl, rfl, rfl⟩

theorem stillCounted_release (conns : List (OrConnection α)) (history : List (ClientEntry α))
    (address : Nat) :
    stillCounted (conns.map (release gone history)) address
      = conns.countP fun conn => conn.trackedForDosMitigation
        && decide (¬ Released gone history conn.addr)
        && decide (conn.countedAgainst = some address) := by
  rw [stillCounted, List.countP_map]
  apply List.countP_congr
  intro conn _
  have against := (release_frame gone conn history).2.2.2
  simp only [Function.comp_apply, Bool.and_eq_true, decide_eq_true_eq, release_tracked, against]

/-- Where the entries that go are separate from those that stay, the counts are kept. -/
theorem removeEntries_tidy (tidy : Tidy s) (separate : Separate gone s) :
    Tidy (removeEntries gone s) := by
  rw [removeEntries_eq]
  constructor
  · exact tidy.keys.sublist (List.filter_sublist.map _)
  · exact tidy.addresses.sublist (List.filter_sublist.map _)
  · intro ent member
    exact tidy.issued ent (List.mem_filter.mp member).1
  · have same : (s.conns.map (release gone s.clientHistory)).map OrConnection.id
        = s.conns.map OrConnection.id := by
      rw [List.map_map]
      apply List.map_congr_left
      intro conn _
      exact (release_frame gone conn s.clientHistory).1
    rw [same]
    exact tidy.once
  · intro conn inside tracked
    obtain ⟨old, there, rfl⟩ := List.mem_map.mp inside
    obtain ⟨was, kept⟩ := release_tracked.mp tracked
    obtain ⟨_, addr, transport, against⟩ := release_frame gone old s.clientHistory
    obtain ⟨ent, member, counted, key⟩ := tidy.owned old there was
    refine ⟨ent, List.mem_filter.mpr ⟨member, ?_⟩, against.trans counted, ?_⟩
    · cases freed : gone ent with
      | false => rfl
      | true =>
        have positive := stillCounted_pos there was counted
        rw [← tidy.exact_ ent member] at positive
        have here : ent.addr = old.addr := congrArg Prod.fst key
        exact absurd ⟨ent, member, freed, Nat.ne_of_gt positive, here⟩ kept
    · rw [addr, transport]
      exact key
  · intro ent member
    obtain ⟨there, stays⟩ := List.mem_filter.mp member
    rw [Bool.not_eq_true'] at stays
    rw [stillCounted_release]
    have count := tidy.exact_ ent there
    rw [stillCounted] at count
    by_cases released : Released gone s.clientHistory ent.addr
    · obtain ⟨other, there', freed, busy, same⟩ := released
      have zero := separate other there' freed busy ent there stays same.symm
      rw [zero] at count ⊢
      apply Eq.symm
      apply List.countP_eq_zero.mpr
      intro conn inside counted
      apply List.countP_eq_zero.mp count.symm conn inside
      simp only [Bool.and_eq_true] at counted ⊢
      exact ⟨counted.1.1, counted.2⟩
    · rw [count]
      apply List.countP_congr
      intro conn inside
      simp only [Bool.and_eq_true, decide_eq_true_eq]
      constructor
      · rintro ⟨tracked, against⟩
        have here : ent.addr = conn.addr :=
          congrArg Prod.fst (tidy.owner there inside tracked against)
        exact ⟨⟨tracked, here ▸ released⟩, against⟩
      · rintro ⟨⟨tracked, _⟩, against⟩
        exact ⟨tracked, against⟩

theorem removeEntries_inexact (tidy : Tidy s) (mixed : ¬ Separate gone s) :
    ¬ Exact (removeEntries gone s) := by
  intro after
  apply mixed
  intro ent member freed busy other there stays same
  rw [removeEntries_eq] at after
  have count := after other (List.mem_filter.mpr ⟨there, by rw [stays]; rfl⟩)
  simp only at count
  rw [stillCounted_release] at count
  rw [count]
  apply List.countP_eq_zero.mpr
  intro conn inside counted
  simp only [Bool.and_eq_true, decide_eq_true_eq] at counted
  obtain ⟨⟨tracked, kept⟩, against⟩ := counted
  have here : other.addr = conn.addr := congrArg Prod.fst (tidy.owner there inside tracked against)
  exact kept ⟨ent, member, freed, busy, same.symm.trans here⟩

end Freeing

/-! ## Runs -/

/-- What an event frees. -/
def goneBy : DosEvent α → Option (ClientEntry α → Bool)
  | .removeOld cutoff | .oomClean cutoff => some fun ent => ent.lastSeenInMinutes < cutoff.tdiv 60
  | .clear => some fun ent => ent.action = .connect
  | _ => none

/-- The condition under which an event keeps the counts, told from the state before it: a tracked
connection that is closed has no transport, and what is freed is separate from what stays. -/
def KeepsCounts (x : Transition (DosState α) (DosEvent α × Bool)) : Prop :=
  (∀ conn, x.input.1 = .closes conn → conn.trackedForDosMitigation = true →
      conn.transportName = none)
    ∧ ∀ gone, goneBy x.input.1 = some gone → Separate gone x.pre

/-- What is promised of each step: the counts are exact, none would have gone below zero, and an
address without open connections is not treated as having too many. -/
structure Counts (x : Transition (DosState α) (DosEvent α × Bool)) : Prop where
  exact_ : Exact x.post
  above : x.input.2 = false
  free : ∀ maxConcurrentCount addr, (∀ conn ∈ x.post.conns, conn.addr ≠ addr) →
    dosConnAddrHasTooMany maxConcurrentCount addr x.post = false

theorem Tidy.free {s : DosState α} (tidy : Tidy s) (maxConcurrentCount : Nat) (addr : α)
    (absent : ∀ conn ∈ s.conns, conn.addr ≠ addr) :
    dosConnAddrHasTooMany maxConcurrentCount addr s = false := by
  rw [dosConnAddrHasTooMany]
  cases found : geoipLookupClient addr none .connect s with
  | none => exact Bool.and_false _
  | some ent =>
    have member := find_mem found
    have here : ent.addr = addr := congrArg Prod.fst (find_key found)
    have zero : stillCounted s.conns ent.address = 0 := by
      apply List.countP_eq_zero.mpr
      intro conn inside counted
      simp only [Bool.and_eq_true, decide_eq_true_eq] at counted
      have whose : ent.addr = conn.addr :=
        congrArg Prod.fst (tidy.owner member inside counted.1 counted.2)
      exact absent conn inside (whose.symm.trans here)
    simp [tidy.exact_ ent member, zero]

/-- One event on exact counts: they stay exact where the condition holds, and only there. -/
theorem dosStep_counts {s : DosState α} (tidy : Tidy s) (ev : DosEvent α)
    (possible : PossibleNow s ev) :
    let x : Transition (DosState α) (DosEvent α × Bool) :=
      ⟨s, (ev, (dosStep s ev).2), (dosStep s ev).1⟩
    (KeepsCounts x → Tidy (dosStep s ev).1 ∧ (dosStep s ev).2 = false)
      ∧ (¬ KeepsCounts x → ¬ Exact (dosStep s ev).1) := by
  have kept : ∀ {x : Transition (DosState α) (DosEvent α × Bool)}, (∀ conn, x.input.1 ≠ .closes conn) →
      goneBy x.input.1 = none → KeepsCounts x := by
    intro x other nothing
    refine ⟨fun conn same => absurd same (other conn), fun gone some => ?_⟩
    rw [nothing] at some
    cases some
  cases ev with
  | opens env id addr transportName =>
    obtain ⟨noted, same⟩ := geoipNoteClientSeen_tidy env .connect addr transportName tidy
    refine ⟨fun _ => ⟨?_, rfl⟩, fun bad => absurd (kept (fun _ => by simp) rfl) bad⟩
    exact dosNewClientConn_tidy env noted rfl (by rw [same]; exact possible)
  | closes conn =>
    constructor
    · intro good
      exact dosCloseClientConn_tidy tidy possible (good.1 conn rfl)
    · intro bad
      by_cases tracked : conn.trackedForDosMitigation = true
      · cases transport : conn.transportName with
        | none =>
          refine absurd ⟨fun other same _ => ?_, fun gone some => by cases some⟩ bad
          cases same
          exact transport
        | some transportName => exact dosCloseClientConn_inexact tidy possible tracked transport
      · refine absurd ⟨fun other same tracked' => ?_, fun gone some => by cases some⟩ bad
        cases same
        exact absurd tracked' tracked
  | seen env action addr transportName =>
    obtain ⟨noted, _⟩ := geoipNoteClientSeen_tidy env action addr transportName tidy
    exact ⟨fun _ => ⟨noted, rfl⟩, fun bad => absurd (kept (fun _ => by simp) rfl) bad⟩
  | removeOld cutoff | oomClean cutoff | clear =>
    constructor
    · intro good
      exact ⟨removeEntries_tidy tidy (good.2 _ rfl), rfl⟩
    · intro bad
      apply removeEntries_inexact tidy
      intro separate
      refine bad ⟨fun conn same => (by cases same), fun gone same => ?_⟩
      cases same
      exact separate
  | configure dosCcEnabled dosConnEnabled =>
    obtain ⟨keys, addresses, issued, once, owned, exact_⟩ := tidy
    exact ⟨fun _ => ⟨⟨keys, addresses, issued, once, owned, exact_⟩, rfl⟩,
      fun bad => absurd (kept (fun _ => by simp) rfl) bad⟩

/-- In every run the counts are kept at each step if and only if each step meets the condition. -/
theorem dosRun_counts_iff (dosCcEnabled dosConnEnabled : Bool)
    (ts : List (Transition (DosState α) (DosEvent α × Bool))) (s : DosState α)
    (run : Run DosStep (newDosState dosCcEnabled dosConnEnabled) ts s) :
    (∀ x ∈ ts, Counts x) ↔ ∀ x ∈ ts, KeepsCounts x := by
  have steps : ∀ (s : DosState α) call s', Tidy s → DosStep s call s' →
      (Counts ⟨s, call, s'⟩ ↔ KeepsCounts ⟨s, call, s'⟩)
        ∧ (KeepsCounts ⟨s, call, s'⟩ → Tidy s') := by
    rintro s ⟨ev, below⟩ s' tidy ⟨possible, taken⟩
    obtain ⟨good, bad⟩ := dosStep_counts tidy ev possible
    rw [taken] at good bad
    refine ⟨⟨fun counts => ?_, fun keeps => ?_⟩, fun keeps => (good keeps).1⟩
    · by_contra other
      exact bad other counts.exact_
    · obtain ⟨tidy', above⟩ := good keeps
      exact ⟨tidy'.exact_, above, tidy'.free⟩
  apply run.sound_iff_good (newDosState_tidy dosCcEnabled dosConnEnabled)
  · exact fun s call s' tidy step => (steps s call s' tidy step).1
  · exact fun s call s' tidy step => (steps s call s' tidy step).2

/-! ## A client behind a transport -/

def bridgeEnv : DosEnv := ⟨600, false, false, false, false, false⟩

/-- One client connects through a transport. -/
def bridgeOpen : DosState Nat :=
  ⟨[⟨0, .connect, 7, some "obfs4", 10, 1⟩], [⟨1, 7, some "obfs4", true, some 0⟩], true, true, 1⟩

/-- It has closed its connection. -/
def bridgeClosed : DosState Nat := { bridgeOpen with conns := [] }

def bridgeSteps : List (Transition (DosState Nat) (DosEvent Nat × Bool)) :=
  [⟨newDosState true true, (.opens bridgeEnv 1 7 (some "obfs4"), false), bridgeOpen⟩,
    ⟨bridgeOpen, (.closes ⟨1, 7, some "obfs4", true, some 0⟩, false), bridgeClosed⟩]

theorem bridgeRun : Run DosStep (newDosState true true) bridgeSteps bridgeClosed := by
  have opens : DosStep (newDosState true true) (.opens bridgeEnv 1 7 (some "obfs4"), false)
      bridgeOpen := ⟨fun _ inside => (by cases inside), by decide⟩
  have closes : DosStep bridgeOpen (.closes ⟨1, 7, some "obfs4", true, some 0⟩, false)
      bridgeClosed := ⟨List.mem_singleton.mpr rfl, by decide⟩
  exact (Run.single opens).snoc closes

theorem dosRun_counts_iff_bridge :
    (∀ x ∈ bridgeSteps, Counts x) ↔ ∀ x ∈ bridgeSteps, KeepsCounts x :=
  dosRun_counts_iff true true _ _ bridgeRun

/-- The entry for the transport still counts the connection. -/
theorem dosRun_counts_drift :
    ¬ ∀ (ts : List (Transition (DosState Nat) (DosEvent Nat × Bool))) s,
      Run DosStep (newDosState true true) ts s → ∀ x ∈ ts, Counts x := by
  intro always
  have counts := always _ _ bridgeRun _ (List.mem_cons_of_mem _ List.mem_cons_self)
  have entry := counts.exact_ _ List.mem_cons_self
  revert entry
  decide

end RendezMix.Guarantees.ConnectionCounts
