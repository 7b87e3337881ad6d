import RendezMix.Library.KeyedLists
import RendezMix.Library.Runs

/-!
# Counting client connections

The concurrent connections that `core/or/dos.c` counts for each client address, in the entries of
the client history of `feature/stats/geoip_stats.c`. The rate of connections, which the same
functions keep beside the count, is left out. The history is a hash table; nothing depends on the
order of its entries. `α` is the type of addresses, which are compared with `CMP_EXACT`.
-/
namespace RendezMix.Source.DosConnections
open Library.KeyedLists Library.Runs

/-- `geoip_client_action_t` -/
inductive ClientAction
  | connect
  | networkstatus
  deriving DecidableEq

/-- `clientmap_entry_t`; the address is the number of the allocation. -/
structure ClientEntry (α : Type*) where
  address : Nat
  action : ClientAction
  addr : α
  transportName : Option String
  lastSeenInMinutes : Int
  /-- `dos_stats.conn_stats.concurrent_count` -/
  concurrentCount : Nat
  deriving DecidableEq

/-- `or_connection_t`, in the array of connections. -/
structure OrConnection (α : Type*) where
  id : Nat
  addr : α
  transportName : Option String
  trackedForDosMitigation : Bool
  /-- The entry that it was counted against, which the code does not record. -/
  countedAgainst : Option Nat
  deriving DecidableEq

structure DosState (α : Type*) where
  clientHistory : List (ClientEntry α)
  conns : List (OrConnection α)
  dosCcEnabled : Bool
  dosConnEnabled : Bool
  allocated : Nat
  deriving DecidableEq

/-- What a call reads of the clock, the options and the node list. -/
structure DosEnv where
  now : Int
  entryStatistics : Bool
  dirReqStatistics : Bool
  bridgeAuthoritativeDir : Bool
  /-- `should_record_bridge_info` -/
  recordBridgeInfo : Bool
  /-- `nodelist_probably_contains_address`, for the address of the connection. -/
  knownRelay : Bool

variable {α : Type*} [DecidableEq α]

/-- What `clientmap_entries_eq` compares. -/
def clientKey (ent : ClientEntry α) : α × Option String × ClientAction :=
  (ent.addr, ent.transportName, ent.action)

def dosIsEnabled (s : DosState α) : Bool := s.dosCcEnabled || s.dosConnEnabled

def geoipLookupClient (addr : α) (transportName : Option String) (action : ClientAction)
    (s : DosState α) : Option (ClientEntry α) :=
  find clientKey (addr, transportName, action) s.clientHistory

/-- A write to an entry. -/
def updateEntry (address : Nat) (f : ClientEntry α → ClientEntry α) (s : DosState α) : DosState α :=
  { s with clientHistory := s.clientHistory.map fun e => if e.address = address then f e else e }

/-! ## The client history -/

/-- `clientmap_entry_new`, and the entry is inserted. -/
def clientmapEntryNew (action : ClientAction) (addr : α) (transportName : Option String)
    (s : DosState α) : ClientEntry α × DosState α :=
  let entry : ClientEntry α := ⟨s.allocated, action, addr, transportName, 0, 0⟩
  (entry, { s with clientHistory := entry :: s.clientHistory, allocated := s.allocated + 1 })

def maxLastSeenInMinutes : Int := 0x3fffffff

/-- `geoip_note_client_seen` has nothing to remember. -/
def ignoresSeen (env : DosEnv) (action : ClientAction) (s : DosState α) : Bool :=
  match action with
  | .connect => !dosIsEnabled s && (!env.entryStatistics && !env.recordBridgeInfo)
  | .networkstatus => !env.dirReqStatistics || env.bridgeAuthoritativeDir

/-- `geoip_note_client_seen`, without the counts of countries. -/
def geoipNoteClientSeen (env : DosEnv) (action : ClientAction) (addr : α)
    (transportName : Option String) (s : DosState α) : DosState α :=
  if ignoresSeen env action s then s
  else
    let (ent, s) :=
      match geoipLookupClient addr transportName action s with
      | some ent => (ent, s)
      | none => clientmapEntryNew action addr transportName s
    let lastSeen :=
      if env.now.tdiv 60 ≤ maxLastSeenInMinutes ∧ env.now ≥ 0 then env.now.tdiv 60 else 0
    updateEntry ent.address (fun ent => { ent with lastSeenInMinutes := lastSeen }) s

def dosGeoipEntryAboutToFree (ent : ClientEntry α) (conns : List (OrConnection α)) :
    List (OrConnection α) :=
  if ent.concurrentCount = 0 then conns
  else conns.map fun conn =>
    if conn.addr = ent.addr then { conn with trackedForDosMitigation := false } else conn

/-- The loops over the history that free the entries for which `gone` holds. -/
def freeEntries (gone : ClientEntry α → Bool) :
    List (ClientEntry α) → List (OrConnection α) → List (ClientEntry α) × List (OrConnection α)
  | [], conns => ([], conns)
  | ent :: rest, conns =>
    if gone ent then freeEntries gone rest (dosGeoipEntryAboutToFree ent conns)
    else
      let (kept, conns) := freeEntries gone rest conns
      (ent :: kept, conns)

def removeEntries (gone : ClientEntry α → Bool) (s : DosState α) : DosState α :=
  let (kept, conns) := freeEntries gone s.clientHistory s.conns
  { s with clientHistory := kept, conns := conns }

def geoipRemoveOldClients (cutoff : Int) (s : DosState α) : DosState α :=
  removeEntries (fun ent => ent.lastSeenInMinutes < cutoff.tdiv 60) s

def oomCleanClientEntries (cutoff : Int) (s : DosState α) : DosState α :=
  removeEntries (fun ent => ent.lastSeenInMinutes < cutoff.tdiv 60) s

def clientHistoryClear (s : DosState α) : DosState α :=
  removeEntries (fun ent => ent.action = .connect) s

/-! ## Connections -/

def connUpdateOnConnect (ent : ClientEntry α) : ClientEntry α :=
  { ent with concurrentCount := ent.concurrentCount + 1 }

/-- `conn_update_on_close`, with whether the count would go below zero. -/
def connUpdateOnClose (ent : ClientEntry α) : ClientEntry α × Bool :=
  if ent.concurrentCount = 0 then (ent, true)
  else ({ ent with concurrentCount := ent.concurrentCount - 1 }, false)

/-- `dos_new_client_conn`, and the connection is in the array. -/
def dosNewClientConn (env : DosEnv) (conn : OrConnection α) (transportName : Option String)
    (s : DosState α) : DosState α :=
  let untouched := { s with conns := conn :: s.conns }
  if !dosIsEnabled s then untouched
  else if env.knownRelay then untouched
  else
    match geoipLookupClient conn.addr transportName .connect s with
    | none => untouched
    | some ent =>
      let s := updateEntry ent.address connUpdateOnConnect s
      let conn := { conn with trackedForDosMitigation := true, countedAgainst := some ent.address }
      { s with conns := conn :: s.conns }

/-- `dos_close_client_conn`, for a connection that has left the array, with whether the count would
go below zero. -/
def dosCloseClientConn (conn : OrConnection α) (s : DosState α) : DosState α × Bool :=
  if !conn.trackedForDosMitigation then (s, false)
  else
    match geoipLookupClient conn.addr none .connect s with
    | none => (s, false)
    | some ent =>
      (updateEntry ent.address (fun ent => (connUpdateOnClose ent).1) s, (connUpdateOnClose ent).2)

/-- The test of `dos_conn_addr_get_defense_type` for too many connections at once. -/
def dosConnAddrHasTooMany (maxConcurrentCount : Nat) (addr : α) (s : DosState α) : Bool :=
  s.dosConnEnabled &&
    match geoipLookupClient addr none .connect s with
    | none => false
    | some ent => ent.concurrentCount > maxConcurrentCount

/-! ## Runs -/

inductive DosEvent (α : Type*)
  /-- `channel_do_open_actions`, for a client. -/
  | opens (env : DosEnv) (id : Nat) (addr : α) (transportName : Option String)
  /-- The connection leaves the array and is freed. -/
  | closes (conn : OrConnection α)
  /-- Another client is seen, as for a request of a directory. -/
  | seen (env : DosEnv) (action : ClientAction) (addr : α) (transportName : Option String)
  | removeOld (cutoff : Int)
  | oomClean (cutoff : Int)
  | clear
  /-- The options or the consensus enable or disable the mitigations. -/
  | configure (dosCcEnabled dosConnEnabled : Bool)

/-- One event, with whether `conn_update_on_close` had nothing to decrement. -/
def dosStep (s : DosState α) : DosEvent α → DosState α × Bool
  | .opens env id addr transportName =>
    let s := geoipNoteClientSeen env .connect addr transportName s
    (dosNewClientConn env ⟨id, addr, transportName, false, none⟩ transportName s, false)
  | .closes conn => dosCloseClientConn conn { s with conns := s.conns.erase conn }
  | .seen env action addr transportName => (geoipNoteClientSeen env action addr transportName s, false)
  | .removeOld cutoff => (geoipRemoveOldClients cutoff s, false)
  | .oomClean cutoff => (oomCleanClientEntries cutoff s, false)
  | .clear => (clientHistoryClear s, false)
  | .configure dosCcEnabled dosConnEnabled =>
    ({ s with dosCcEnabled := dosCcEnabled, dosConnEnabled := dosConnEnabled }, false)

/-- A connection is opened once, and closed when it is open. -/
def PossibleNow (s : DosState α) : DosEvent α → Prop
  | .opens _ id _ _ => ∀ conn ∈ s.conns, conn.id ≠ id
  | .closes conn => conn ∈ s.conns
  | _ => True

/-- An event, with whether the count would have gone below zero, as a step. -/
def DosStep (s : DosState α) (ev : DosEvent α × Bool) (s' : DosState α) : Prop :=
  PossibleNow s ev.1 ∧ dosStep s ev.1 = (s', ev.2)

def newDosState (dosCcEnabled dosConnEnabled : Bool) : DosState α :=
  ⟨[], [], dosCcEnabled, dosConnEnabled, 0⟩

end RendezMix.Source.DosConnections
