import Mathlib.Data.List.Nodup
import RendezMix.Source.CircuitBuilding
import RendezMix.Guarantees.PolicyCarriage

/-!
# Agreement on the delay policy

With `EnforceDelayPolicy`, a client opens the second hop of a circuit only if
that hop has the policy the client asked for. What holds in every reachable
state is said with a ledger: which hop of which circuit a circuit id serves,
which policy the client planned for that hop, and which hops took a policy. The
ledger only grows, and every cell in flight agrees with it.
-/
namespace RendezMix.Guarantees
open Source Library.ByteStrings OrCircuit

/-! ## The ledger -/

structure Ledger where
  serves : CircLink → Option (Nat × Nat)
  planned : Nat → Nat → Option RawPolicy
  setAt : Nat → Nat → Prop

structure Ledger.Le (old new : Ledger) : Prop where
  serves : ∀ link hop, old.serves link = some hop → new.serves link = some hop
  planned : ∀ c k policy, old.planned c k = some policy → new.planned c k = some policy
  setAt : ∀ c k, old.setAt c k → new.setAt c k

/-- The policy sent to a hop, once there is one; a hop for which none was read gets zeros
for one. -/
def CryptPath.planned (hop : CryptPath) : Option RawPolicy :=
  if hop.state = .closed then none else some (hop.readPolicy.getD (fit delayPolicySize []))

def OriginCircuit.planned (circ : OriginCircuit) (k : Nat) : Option RawPolicy :=
  (circ.cpath[k]?).bind CryptPath.planned

def Network.planned (net : Network) (c k : Nat) : Option RawPolicy :=
  (net.origins[c]?).bind (fun circ => OriginCircuit.planned circ k)

/-- A relay that serves the hop took the policy. -/
def SetAt (net : Network) (serves : CircLink → Option (Nat × Nat)) (c k : Nat) : Prop :=
  ∃ o ∈ net.relays, serves o.pLink = some (c, k) ∧ o.delayPolicyIsSet = true

def ledger (net : Network) (serves : CircLink → Option (Nat × Nat)) : Ledger :=
  ⟨serves, Network.planned net, SetAt net serves⟩

/-- A cell in flight agrees with the ledger. -/
def CellOk (book : Ledger) (link : CircLink) : CellBody → Prop
  | .create command payload =>
    ∃ c k policy given, book.serves link = some (c, k) ∧ book.planned c k = some policy ∧
      (given = true → k ≠ 0) ∧ command = cellCreate2 ∧
      ∀ memory found, createCellParse command payload memory = .ok found →
        FindsPolicy given policy found
  | .created command payload =>
    ∃ c k, book.serves link = some (c, k) ∧
      ∀ found, createdCellParse command payload = .ok found → found.delayPolicyIsSet = true →
        book.setAt c k
  | .relayOut layers command payload =>
    ∃ c k policy, book.serves link = some (c, k) ∧
      book.planned c (k + layers + 1) = some policy ∧
      ∀ before parsed, extendCellParse before command
          (payload.bytes.val.take payload.length.toNat) = .ok parsed →
        HoldsPolicy policy parsed.createCell
  | .relayIn command payload =>
    ∃ c k, book.serves link = some (c, k) ∧
      ∀ found, extendedCellParse command payload = .ok found →
        found.createdCell.delayPolicyIsSet = true → ∃ j, book.setAt c (j + 1)

theorem CellOk.mono {old new : Ledger} (le : old.Le new) (link : CircLink) (body : CellBody)
    (ok : CellOk old link body) : CellOk new link body := by
  cases body with
  | create command payload =>
    obtain ⟨c, k, policy, given, serves, planned, rest⟩ := ok
    exact ⟨c, k, policy, given, le.serves _ _ serves, le.planned _ _ _ planned, rest⟩
  | created command payload =>
    obtain ⟨c, k, serves, marker⟩ := ok
    exact ⟨c, k, le.serves _ _ serves, fun found parsed set =>
      le.setAt _ _ (marker found parsed set)⟩
  | relayOut layers command payload =>
    obtain ⟨c, k, policy, serves, planned, rest⟩ := ok
    exact ⟨c, k, policy, le.serves _ _ serves, le.planned _ _ _ planned, rest⟩
  | relayIn command payload =>
    obtain ⟨c, k, serves, marker⟩ := ok
    refine ⟨c, k, le.serves _ _ serves, fun found parsed set => ?_⟩
    obtain ⟨j, there⟩ := marker found parsed set
    exact ⟨j, le.setAt _ _ there⟩

/-- A circuit at a relay agrees with the ledger. -/
structure RelayOk (book : Ledger) (o : OrCircuit) (c k : Nat) (policy : RawPolicy) : Prop where
  serves : book.serves o.pLink = some (c, k)
  planned : book.planned c k = some policy
  received : o.createCell.delayPolicy = policy ∨ o.createCell.delayPolicy = fit delayPolicySize []
  kept : o.delayPolicy = policy ∨ o.delayPolicy = fit delayPolicySize []
  isSet : o.delayPolicyIsSet = true → o.delayPolicy = policy ∧ k ≠ 0
  type : o.markedForClose = false → o.createCell.cellType = cellCreate2
  next : ∀ link, o.nLink = some link → book.serves link = some (c, k + 1)
  waiting : ∀ peer createCell, o.nChanCreateCell = some (peer, createCell) →
    o.nLink = none ∧ ∃ policy, book.planned c (k + 1) = some policy ∧
      HoldsPolicy policy createCell

theorem RelayOk.mono {old new : Ledger} (le : old.Le new) {o : OrCircuit} {c k : Nat}
    {policy : RawPolicy} (ok : RelayOk old o c k policy) : RelayOk new o c k policy := by
  refine ⟨le.serves _ _ ok.serves, le.planned _ _ _ ok.planned, ok.received, ok.kept, ok.isSet,
    ok.type, fun link here => le.serves _ _ (ok.next link here), fun peer createCell here => ?_⟩
  obtain ⟨unlinked, next, planned, holds⟩ := ok.waiting peer createCell here
  exact ⟨unlinked, next, le.planned _ _ _ planned, holds⟩

/-- The path of a client circuit: hops are opened one after the other. -/
structure PathOk (circ : OriginCircuit) : Prop where
  inOrder : ∀ (i j : Nat) (hop later : CryptPath), i < j → circ.cpath[i]? = some hop → circ.cpath[j]? = some later →
    later.state ≠ .closed → hop.state = .open
  finished : circ.state = .open → ∀ hop : CryptPath, hop ∈ circ.cpath → hop.state = .open
  waiting : circ.state = .chanWait → ∀ hop : CryptPath, hop ∈ circ.cpath → hop.state = .closed
  unsent : (∀ hop : CryptPath, circ.cpath[0]? = some hop → hop.state = .closed) → circ.nLink = none
  read : ∀ (k : Nat) (hop : CryptPath), circ.cpath[k]? = some hop → (k ≠ 1 → hop.readPolicy = none) ∧
    (k = 1 → hop.state ≠ .closed → hop.readPolicy.isSome = true)

/-- The whole network agrees with the ledger. -/
structure NetOk (net : Network) (serves : CircLink → Option (Nat × Nat)) : Prop where
  paths : ∀ circ ∈ net.origins, PathOk circ
  origin : ∀ c circ link, net.origins[c]? = some circ → circ.nLink = some link →
    serves link = some (c, 0)
  relays : ∀ o ∈ net.relays, ∃ c k policy, RelayOk (ledger net serves) o c k policy
  unique : (net.relays.map pLink).Nodup
  used : ∀ link hop, serves link = some hop → net.inUse link = true
  cells : ∀ cell ∈ net.inFlight, CellOk (ledger net serves) cell.link cell.body
  opened : ∀ (c : Nat) (circ : OriginCircuit) (hop : CryptPath), net.origins[c]? = some circ → circ.cpath[1]? = some hop →
    hop.state = .open → SetAt net serves c 1

theorem inUse_iff (net : Network) (link : CircLink) :
    net.inUse link = true ↔
      (∃ circ ∈ net.origins, circ.nLink = some link) ∨ ∃ o ∈ net.relays, o.nLink = some link := by
  simp [Network.inUse]

theorem netOk_initial : NetOk Network.initial (fun _ => none) := by
  constructor <;> simp [Network.initial]

variable {net : Network} {serves : CircLink → Option (Nat × Nat)}

theorem NetOk.free (ok : NetOk net serves) (link : CircLink) (free : net.inUse link = false) :
    serves link = none := by
  cases here : serves link with
  | none => rfl
  | some hop =>
    rw [ok.used link hop here] at free
    cases free

theorem update_grows (serves : CircLink → Option (Nat × Nat)) (link : CircLink)
    (free : serves link = none) (hop : Nat × Nat) (other : CircLink) (served : Nat × Nat)
    (here : serves other = some served) :
    Function.update serves link (some hop) other = some served := by
  have different : other ≠ link := by
    rintro rfl
    rw [free] at here
    cases here
  rw [Function.update_of_ne different]
  exact here

section

variable (cpath : List CryptPath)

/-- A circuit that may have got a circuit id, free until now, keeps the one it had; the ledger
grows by what it serves. -/
theorem NetOk.extended (ok : NetOk net serves) {old next : Option CircLink} (hop : Nat × Nat)
    (served : ∀ link, old = some link → serves link = some hop)
    (move : next = old ∨ ∃ link, old = none ∧ next = some link ∧ net.inUse link = false) :
    (∀ link, old = some link → next = some link) ∧
      ∃ serves' : CircLink → Option (Nat × Nat),
        (∀ link hop, serves link = some hop → serves' link = some hop) ∧
        (∀ link, next = some link → serves' link = some hop) ∧
        ∀ link hop, serves' link = some hop → serves link = some hop ∨ next = some link := by
  rcases move with rfl | ⟨link, rfl, rfl, free⟩
  · exact ⟨fun _ => id, serves, fun _ _ => id, served, fun _ _ => Or.inl⟩
  · refine ⟨(fun _ none => nomatch none), Function.update serves link (some hop),
      update_grows serves link (ok.free link free) _, fun link' linked => ?_,
      fun link' hop' served => ?_⟩
    · cases linked
      exact Function.update_self _ _ _
    · by_cases same : link' = link
      · exact Or.inr (same ▸ rfl)
      · rw [Function.update_of_ne same] at served
        exact Or.inl served

theorem NetOk.relay_of_serves (ok : NetOk net serves) {o : OrCircuit} (member : o ∈ net.relays)
    {c k : Nat} (served : serves o.pLink = some (c, k)) :
    ∃ policy, RelayOk (ledger net serves) o c k policy := by
  obtain ⟨d, j, policy, relayOk⟩ := ok.relays o member
  have same := relayOk.serves
  change serves o.pLink = _ at same
  rw [served] at same
  cases same
  exact ⟨policy, relayOk⟩

theorem NetOk.leads (ok : NetOk net serves) {link : CircLink} {c k : Nat}
    (served : serves link = some (c, k)) :
    (k = 0 ∧ ∃ circ, net.origins[c]? = some circ ∧ circ.nLink = some link) ∨
      ∃ j, k = j + 1 ∧ ∃ prev ∈ net.relays, serves prev.pLink = some (c, j) ∧
        prev.nLink = some link := by
  rcases (inUse_iff net _).mp (ok.used _ _ served) with ⟨circ, inOrigins, linked⟩ |
    ⟨prev, inRelays, linked⟩
  · obtain ⟨d, there⟩ := List.mem_iff_getElem?.mp inOrigins
    have same := ok.origin d circ _ there linked
    rw [served] at same
    cases same
    exact Or.inl ⟨rfl, circ, there, linked⟩
  · obtain ⟨d, j, policy, relayOk⟩ := ok.relays prev inRelays
    have same := relayOk.next _ linked
    change serves link = _ at same
    rw [served] at same
    cases same
    exact Or.inr ⟨j, rfl, prev, inRelays, relayOk.serves, linked⟩

/-! ## A client circuit moves -/

/-- A cell that the client sends on a circuit. -/
def OriginSent (circ : OriginCircuit) (cell : LinkCell) : Prop :=
  circ.nLink = some cell.link ∧
    match cell.body with
    | .create command payload =>
      ∃ policy, OriginCircuit.planned circ 0 = some policy ∧ command = cellCreate2 ∧
        ∀ memory found, createCellParse command payload memory = .ok found →
          FindsPolicy false policy found
    | .relayOut layers command payload =>
      ∃ policy, OriginCircuit.planned circ (layers + 1) = some policy ∧
        ∀ before parsed, extendCellParse before command
            (payload.bytes.val.take payload.length.toNat) = .ok parsed →
          HoldsPolicy policy parsed.createCell
    | _ => False

/-- What a step may do to a client circuit; `answer` says when it may open the second hop. -/
structure OriginMove (inUse : CircLink → Bool) (answer : Prop) (circ next : OriginCircuit)
    (sent : List LinkCell) : Prop where
  path : PathOk next
  link : next.nLink = circ.nLink ∨
    ∃ link, circ.nLink = none ∧ next.nLink = some link ∧ inUse link = false
  planned : ∀ k policy, OriginCircuit.planned circ k = some policy →
    OriginCircuit.planned next k = some policy
  sent : ∀ cell ∈ sent, OriginSent next cell
  opened : ∀ hop : CryptPath, next.cpath[1]? = some hop → hop.state = .open →
    (∃ hop : CryptPath, circ.cpath[1]? = some hop ∧ hop.state = .open) ∨ answer

theorem originCell_ok (book : Ledger) (c : Nat) (circ : OriginCircuit) (cell : LinkCell)
    (serves : ∀ link, circ.nLink = some link → book.serves link = some (c, 0))
    (planned : ∀ k, book.planned c k = OriginCircuit.planned circ k)
    (sent : OriginSent circ cell) : CellOk book cell.link cell.body := by
  obtain ⟨link, body⟩ := cell
  obtain ⟨here, sent⟩ := sent
  cases body with
  | create command payload =>
    obtain ⟨policy, first, isCreate2, finds⟩ := sent
    exact ⟨c, 0, policy, false, serves link here, (planned 0).trans first, by simp, isCreate2,
      finds⟩
  | created command payload => exact sent.elim
  | relayOut layers command payload =>
    obtain ⟨policy, hop, holds⟩ := sent
    refine ⟨c, 0, policy, serves link here, ?_, holds⟩
    rw [planned, Nat.zero_add]
    exact hop
  | relayIn command payload => exact sent.elim

theorem planned_set (net : Network) (c : Nat) (circ next : OriginCircuit)
    (here : net.origins[c]? = some circ) (cells : List LinkCell) (d k : Nat) :
    Network.planned { net with origins := net.origins.set c next, inFlight := cells } d k =
      if d = c then OriginCircuit.planned next k else Network.planned net d k := by
  have inside : c < net.origins.length := (List.getElem?_eq_some_iff.mp here).1
  unfold Network.planned
  by_cases same : d = c
  · subst same
    rw [if_pos rfl, List.getElem?_set_self inside, Option.bind_some]
  · rw [if_neg same, List.getElem?_set_ne (Ne.symm same)]

/-- If a client circuit moves, the network stays in agreement. -/
theorem NetOk.originMove (ok : NetOk net serves) (c : Nat) (circ next : OriginCircuit) (sent : List LinkCell)
    (answer : Prop) (here : net.origins[c]? = some circ)
    (move : OriginMove net.inUse answer circ next sent) (answered : answer → SetAt net serves c 1) :
    ∃ serves', NetOk { net with
      origins := net.origins.set c next, inFlight := net.inFlight ++ sent } serves' := by
  have inside : c < net.origins.length := (List.getElem?_eq_some_iff.mp here).1
  obtain ⟨keptLink, serves', grows, linked, onlyNew⟩ :=
    ok.extended (c, 0) (fun link => ok.origin c circ link here) move.link
  refine ⟨serves', ?_⟩
  have le : (ledger net serves).Le (ledger { net with
      origins := net.origins.set c next, inFlight := net.inFlight ++ sent } serves') := by
    refine ⟨grows, fun d k policy planned => ?_, fun d k set => ?_⟩
    · change Network.planned _ d k = _
      rw [planned_set net c circ next here]
      split
      · next same =>
        subst same
        apply move.planned
        change Network.planned net d k = some policy at planned
        rwa [Network.planned, here, Option.bind_some] at planned
      · exact planned
    · obtain ⟨o, inRelays, served, isSet⟩ := set
      exact ⟨o, inRelays, grows _ _ served, isSet⟩
  have stays : ∀ d circ', (net.origins.set c next)[d]? = some circ' →
      (d = c ∧ circ' = next) ∨ (d ≠ c ∧ net.origins[d]? = some circ') := by
    intro d circ' there
    by_cases same : d = c
    · subst same
      rw [List.getElem?_set_self inside] at there
      exact Or.inl ⟨rfl, (Option.some.inj there).symm⟩
    · rw [List.getElem?_set_ne (Ne.symm same)] at there
      exact Or.inr ⟨same, there⟩
  constructor
  · intro circ' inSet
    rcases List.mem_or_eq_of_mem_set inSet with old | rfl
    · exact ok.paths circ' old
    · exact move.path
  · intro d circ' link there linkedTo
    rcases stays d circ' there with ⟨rfl, rfl⟩ | ⟨_, old⟩
    · exact linked link linkedTo
    · exact grows _ _ (ok.origin d circ' link old linkedTo)
  · intro o inRelays
    obtain ⟨d, k, policy, relayOk⟩ := ok.relays o inRelays
    exact ⟨d, k, policy, relayOk.mono le⟩
  · exact ok.unique
  · intro link hop served
    rw [inUse_iff]
    rcases onlyNew link hop served with old | new
    · rcases (inUse_iff net link).mp (ok.used link hop old) with ⟨circ', inOrigins, linkedTo⟩ | relay
      · left
        obtain ⟨d, there⟩ := List.mem_iff_getElem?.mp inOrigins
        by_cases same : d = c
        · subst same
          rw [here] at there
          cases there
          exact ⟨next, List.mem_set inside _, keptLink link linkedTo⟩
        · refine ⟨circ', List.mem_of_getElem? (i := d) ?_, linkedTo⟩
          rw [List.getElem?_set_ne (Ne.symm same)]
          exact there
      · exact Or.inr relay
    · exact Or.inl ⟨next, List.mem_set inside _, new⟩
  · intro cell inFlight
    rcases List.mem_append.mp inFlight with old | new
    · exact (ok.cells cell old).mono le
    · apply originCell_ok _ c next cell linked _ (move.sent cell new)
      intro k
      change Network.planned _ c k = _
      rw [planned_set net c circ next here, if_pos rfl]
  · intro d circ' hop there second isOpen
    have keep : SetAt net serves d 1 → SetAt _ serves' d 1 := le.setAt d 1
    rcases stays d circ' there with ⟨rfl, rfl⟩ | ⟨_, old⟩
    · apply keep
      rcases move.opened hop second isOpen with ⟨hop', before, wasOpen⟩ | answer
      · exact ok.opened d circ hop' here before wasOpen
      · exact answered answer
    · exact keep (ok.opened d circ' hop old second isOpen)

/-! ## A circuit at a relay moves -/

/-- What a step may do to a circuit at a relay that serves hop `k` of circuit `c`. -/
structure RelayMove (inUse : CircLink → Bool) (book : Ledger) (c k : Nat) (policy : RawPolicy)
    (o next : OrCircuit) (sent : List LinkCell) : Prop where
  pLink : next.pLink = o.pLink
  isSet : next.delayPolicyIsSet = o.delayPolicyIsSet
  link : next.nLink = o.nLink ∨
    ∃ link, o.nLink = none ∧ next.nLink = some link ∧ inUse link = false
  keeps : ∀ later, book.Le later →
    (∀ link, next.nLink = some link → later.serves link = some (c, k + 1)) →
    RelayOk later next c k policy ∧ ∀ cell ∈ sent, CellOk later cell.link cell.body

/-- If a circuit at a relay moves, the network stays in agreement. -/
theorem NetOk.relayMove (ok : NetOk net serves) (r : Nat) (o next : OrCircuit) (sent : List LinkCell)
    (here : net.relays[r]? = some o)
    (move : ∀ c k policy, RelayOk (ledger net serves) o c k policy →
      RelayMove net.inUse (ledger net serves) c k policy o next sent) :
    ∃ serves', NetOk { net with
      relays := net.relays.set r next, inFlight := net.inFlight ++ sent } serves' := by
  have inside : r < net.relays.length := (List.getElem?_eq_some_iff.mp here).1
  obtain ⟨c, k, policy, relayOk⟩ := ok.relays o (List.mem_of_getElem? here)
  have move := move c k policy relayOk
  obtain ⟨keptLink, serves', grows, linked, onlyNew⟩ :=
    ok.extended (c, k + 1) relayOk.next move.link
  have stays : ∀ o' ∈ net.relays, o' ∈ net.relays.set r next ∨ o' = o := by
    intro o' inRelays
    obtain ⟨i, there⟩ := List.mem_iff_getElem?.mp inRelays
    by_cases same : i = r
    · subst same
      rw [here] at there
      exact Or.inr (Option.some.inj there).symm
    · left
      apply List.mem_of_getElem? (i := i)
      rw [List.getElem?_set_ne (Ne.symm same)]
      exact there
  refine ⟨serves', ?_⟩
  have le : (ledger net serves).Le (ledger { net with
      relays := net.relays.set r next, inFlight := net.inFlight ++ sent } serves') := by
    refine ⟨grows, fun d k policy planned => planned, fun d k set => ?_⟩
    obtain ⟨o', inRelays, served, isSet⟩ := set
    rcases stays o' inRelays with still | rfl
    · exact ⟨o', still, grows _ _ served, isSet⟩
    · refine ⟨next, List.mem_set inside _, ?_, move.isSet.trans isSet⟩
      rw [move.pLink]
      exact grows _ _ served
  obtain ⟨nextOk, sentOk⟩ := move.keeps _ le linked
  constructor
  · exact ok.paths
  · intro d circ link there linkedTo
    exact grows _ _ (ok.origin d circ link there linkedTo)
  · intro o' inSet
    rcases List.mem_or_eq_of_mem_set inSet with old | rfl
    · obtain ⟨d, j, policy', other⟩ := ok.relays o' old
      exact ⟨d, j, policy', other.mono le⟩
    · exact ⟨c, k, policy, nextOk⟩
  · rw [List.map_set, move.pLink]
    have same : (net.relays.map pLink)[r]? = some o.pLink := by
      rw [List.getElem?_map, here, Option.map_some]
    obtain ⟨within, value⟩ := List.getElem?_eq_some_iff.mp same
    rw [← value, List.set_getElem_self]
    exact ok.unique
  · intro link hop served
    rw [inUse_iff]
    rcases onlyNew link hop served with old | new
    · rcases (inUse_iff net link).mp (ok.used link hop old) with origin | ⟨o', inRelays, linkedTo⟩
      · exact Or.inl origin
      · right
        rcases stays o' inRelays with still | rfl
        · exact ⟨o', still, linkedTo⟩
        · exact ⟨next, List.mem_set inside _, keptLink link linkedTo⟩
    · exact Or.inr ⟨next, List.mem_set inside _, new⟩
  · intro cell inFlight
    rcases List.mem_append.mp inFlight with old | new
    · exact (ok.cells cell old).mono le
    · exact sentOk cell new
  · intro d circ hop there second isOpen
    exact le.setAt d 1 (ok.opened d circ hop there second isOpen)

/-! ## Circuits that are new -/

/-- A client starts a circuit. -/
theorem NetOk.establish (ok : NetOk net serves) (path : List ExtendInfo) :
    NetOk (net.step (.establish path)) serves := by
  have closed : ∀ (k : Nat) (hop : CryptPath), (path.map CryptPath.new)[k]? = some hop →
      hop.state = .closed ∧ hop.readPolicy = none := by
    intro k hop there
    rw [List.getElem?_map] at there
    obtain ⟨info, _, rfl⟩ := Option.map_eq_some_iff.mp there
    exact ⟨rfl, rfl⟩
  have stays : ∀ (c : Nat) (circ : OriginCircuit),
      (net.step (.establish path)).origins[c]? = some circ →
      net.origins[c]? = some circ ∨ circ = ⟨none, path.map CryptPath.new, .chanWait, false⟩ := by
    intro c circ there
    change (net.origins ++ [_])[c]? = _ at there
    rw [List.getElem?_append] at there
    split at there
    · exact Or.inl there
    · have last := List.mem_of_getElem? there
      exact Or.inr (List.mem_singleton.mp last)
  have le : (ledger net serves).Le (ledger (net.step (.establish path)) serves) := by
    refine ⟨fun _ _ => id, fun c k policy planned => ?_, fun _ _ => id⟩
    obtain ⟨circ, there, inner⟩ := Option.bind_eq_some_iff.mp planned
    refine Option.bind_eq_some_iff.mpr ⟨circ, ?_, inner⟩
    change (net.origins ++ [_])[c]? = _
    rw [List.getElem?_append_left (List.getElem?_eq_some_iff.mp there).1]
    exact there
  constructor
  · intro circ member
    rcases List.mem_append.mp member with old | new
    · exact ok.paths circ old
    · rw [List.mem_singleton.mp new]
      constructor
      · intro i j hop later _ _ there notClosed
        exact absurd (closed j later there).1 notClosed
      · intro isOpen
        cases isOpen
      · intro _ hop member
        obtain ⟨k, there⟩ := List.mem_iff_getElem?.mp member
        exact (closed k hop there).1
      · intro _
        rfl
      · intro k hop there
        refine ⟨fun _ => (closed k hop there).2, fun _ notClosed => ?_⟩
        exact absurd (closed k hop there).1 notClosed
  · intro c circ link there linked
    rcases stays c circ there with old | rfl
    · exact ok.origin c circ link old linked
    · cases linked
  · intro o member
    obtain ⟨c, k, policy, relayOk⟩ := ok.relays o member
    exact ⟨c, k, policy, relayOk.mono le⟩
  · exact ok.unique
  · intro link hop served
    rw [inUse_iff]
    rcases (inUse_iff net link).mp (ok.used link hop served) with ⟨circ, member, linked⟩ | relay
    · exact Or.inl ⟨circ, List.mem_append_left _ member, linked⟩
    · exact Or.inr relay
  · intro cell member
    exact (ok.cells cell member).mono le
  · intro c circ hop there second isOpen
    rcases stays c circ there with old | rfl
    · exact ok.opened c circ hop old second isOpen
    · rw [(closed 1 hop second).1] at isOpen
      cases isOpen

theorem createCellParse_type (command : UInt8) (payload : CellPayload) (memory : List UInt8)
    (found : CreateCell) (parsed : createCellParse command payload memory = .ok found)
    (isCreate2 : command = cellCreate2) : found.cellType = cellCreate2 := by
  unfold createCellParse parseCreate2Payload at parsed
  rw [isCreate2, if_neg (by decide), if_neg (by decide), if_pos rfl] at parsed
  obtain ⟨read, readEq, checked⟩ := (bind_eq_ok _ _ _).mp parsed
  simp only at checked
  split at checked
  · cases checked
    simp only at readEq
    split at readEq
    · cases readEq
    · split at readEq
      · cases readEq
      · cases readEq
        rfl
  · cases checked

/-- A relay gets a create cell on a circuit id that it does not have yet. -/
theorem NetOk.create (ok : NetOk net serves) (choice : Choice) (link : CircLink) (command : UInt8)
    (payload : CellPayload) (cellOk : CellOk (ledger net serves) link (.create command payload))
    (new : net.relays.any (fun circ => circ.pLink = link) = false) :
    NetOk { net with
      relays := net.relays ++ [commandProcessCreateCell choice link command payload] } serves := by
  have fresh : ∀ o ∈ net.relays, o.pLink ≠ link := by simpa using new
  have le : (ledger net serves).Le (ledger { net with
      relays := net.relays ++ [commandProcessCreateCell choice link command payload] } serves) :=
    ⟨fun _ _ => id, fun _ _ _ => id, fun c k ⟨o, member, rest⟩ =>
      ⟨o, List.mem_append_left _ member, rest⟩⟩
  have pLink : (commandProcessCreateCell choice link command payload).pLink = link := by
    unfold commandProcessCreateCell
    split <;> rfl
  constructor
  · exact ok.paths
  · exact ok.origin
  · intro o member
    rcases List.mem_append.mp member with old | last
    · obtain ⟨c, k, policy, relayOk⟩ := ok.relays o old
      exact ⟨c, k, policy, relayOk.mono le⟩
    · rw [List.mem_singleton.mp last]
      obtain ⟨c, k, policy, given, served, planned, first, isCreate2, finds⟩ := cellOk
      refine ⟨c, k, policy, ?_⟩
      unfold commandProcessCreateCell
      cases parsed : createCellParse command payload choice.memory with
      | error failure =>
        refine ⟨served, planned, Or.inr rfl, Or.inr rfl, ?_, ?_, ?_, ?_⟩ <;> simp
      | ok found =>
        have finds := finds choice.memory found parsed
        have either : found.delayPolicy = policy ∨ found.delayPolicy = fit delayPolicySize [] := by
          rw [finds.policy]
          cases given with
          | true => exact Or.inl rfl
          | false => exact Or.inr rfl
        refine ⟨served, planned, either, ?_, ?_, ?_, ?_, ?_⟩
        · simp only
          split
          · exact either
          · exact Or.inr rfl
        · intro isSet
          simp only at isSet
          simp only [isSet, if_true]
          rw [Bool.and_eq_true, finds.isSet] at isSet
          rw [finds.policy, isSet.2]
          exact ⟨rfl, first isSet.2⟩
        · intro _
          exact createCellParse_type command payload choice.memory found parsed isCreate2
        · simp
        · simp
  · rw [List.map_append, List.map_singleton, pLink]
    refine List.nodup_append.mpr ⟨ok.unique, by simp, ?_⟩
    intro other member last isLast same
    obtain ⟨o, inRelays, rfl⟩ := List.mem_map.mp member
    exact fresh o inRelays (same.trans (List.mem_singleton.mp isLast))
  · intro other hop served
    rw [inUse_iff]
    rcases (inUse_iff net other).mp (ok.used other hop served) with origin | ⟨o, member, linked⟩
    · exact Or.inl origin
    · exact Or.inr ⟨o, List.mem_append_left _ member, linked⟩
  · intro cell member
    exact (ok.cells cell member).mono le
  · intro c circ hop there second isOpen
    exact le.setAt c 1 (ok.opened c circ hop there second isOpen)

/-! ## The client's handlers -/

theorem cpathGetNextNonOpenHop_some (i : Nat) (found : cpathGetNextNonOpenHop cpath = some i) :
    ∃ hop, cpath[i]? = some hop ∧ hop.state ≠ .open ∧
      ∀ (j : Nat) (earlier : CryptPath), j < i → cpath[j]? = some earlier →
        earlier.state = .open := by
  obtain ⟨inside, notOpen, front⟩ := List.findIdx?_eq_some_iff_getElem.mp found
  refine ⟨cpath[i], List.getElem?_eq_getElem inside, by simpa using notOpen, ?_⟩
  intro j earlier below there
  obtain ⟨within, rfl⟩ := List.getElem?_eq_some_iff.mp there
  simpa using front j below

theorem cpathGetNextNonOpenHop_none (none : cpathGetNextNonOpenHop cpath = none) :
    ∀ hop ∈ cpath, hop.state = .open := by
  intro hop member
  simpa using List.findIdx?_eq_none_iff.mp none hop member

end

/-- The next hop that is not open becomes one that awaits its keys, or is opened. -/
structure Advance (circ next : OriginCircuit) (i : Nat) (hop hop' : CryptPath) : Prop where
  here : circ.cpath[i]? = some hop
  notOpen : hop.state ≠ .open
  front : ∀ (j : Nat) (earlier : CryptPath), j < i → circ.cpath[j]? = some earlier →
    earlier.state = .open
  cpath : next.cpath = circ.cpath.set i hop'
  notClosed : hop'.state ≠ .closed
  building : next.state = .building
  read : (i ≠ 1 → hop'.readPolicy = none) ∧ (i = 1 → hop'.readPolicy.isSome = true)
  kept : hop.state = .closed ∨ hop'.readPolicy = hop.readPolicy

section

variable {circ next : OriginCircuit} {i : Nat} {hop hop' : CryptPath}
  (advance : Advance circ next i hop hop')

include advance

theorem Advance.set (j : Nat) :
    next.cpath[j]? = if j = i then some hop' else circ.cpath[j]? := by
  have inside := (List.getElem?_eq_some_iff.mp advance.here).1
  rw [advance.cpath]
  split
  · next same =>
    rw [same, List.getElem?_set_self inside]
  · next other => rw [List.getElem?_set_ne (Ne.symm other)]

theorem Advance.back (ok : PathOk circ) (j : Nat) (later : CryptPath) (above : i < j)
    (there : circ.cpath[j]? = some later) : later.state = .closed := by
  by_contra notClosed
  exact advance.notOpen (ok.inOrder i j hop later above advance.here there notClosed)

theorem Advance.pathOk
    (ok : PathOk circ) : PathOk next := by
  have set := advance.set
  constructor
  · intro j k one two below first second notClosed
    rw [set] at first second
    by_cases last : k = i
    · rw [if_neg (by omega)] at first
      exact advance.front j one (by omega) first
    · rw [if_neg last] at second
      have early : k < i := by
        by_contra late
        exact notClosed (advance.back ok k two (by omega) second)
      rw [if_neg (by omega)] at first
      exact advance.front j one (by omega) first
  · intro isOpen
    rw [advance.building] at isOpen
    cases isOpen
  · intro waits
    rw [advance.building] at waits
    cases waits
  · intro allClosed
    by_cases first : i = 0
    · exact absurd (allClosed hop' (by rw [set, if_pos first.symm])) advance.notClosed
    · have inside := (List.getElem?_eq_some_iff.mp advance.here).1
      have zero : circ.cpath[0]? = some circ.cpath[0] := List.getElem?_eq_getElem (by omega)
      have isOpen := advance.front 0 _ (by omega) zero
      rw [allClosed _ (by rw [set, if_neg (by omega)]; exact zero)] at isOpen
      cases isOpen
  · intro k there' there
    rw [set] at there
    split at there
    · next same =>
      cases there
      subst same
      exact ⟨advance.read.1, fun second _ => advance.read.2 second⟩
    · exact ok.read k there' there

theorem Advance.planned_self :
    OriginCircuit.planned next i =
      some (hop'.readPolicy.getD (fit delayPolicySize [])) := by
  rw [OriginCircuit.planned, advance.set, if_pos rfl, Option.bind_some, CryptPath.planned,
    if_neg advance.notClosed]

theorem Advance.planned
    (k : Nat) (policy : RawPolicy) (planned : OriginCircuit.planned circ k = some policy) :
    OriginCircuit.planned next k = some policy := by
  by_cases same : k = i
  · subst same
    rw [advance.planned_self]
    rw [OriginCircuit.planned, advance.here, Option.bind_some, CryptPath.planned] at planned
    rcases advance.kept with closed | kept
    · rw [if_pos closed] at planned
      cases planned
    · split at planned
      · cases planned
      · rw [kept]
        exact planned
  · rw [OriginCircuit.planned, advance.set, if_neg same]
    exact planned

theorem Advance.opened
    (second : CryptPath) (there : next.cpath[1]? = some second) (isOpen : second.state = .open) :
    (∃ hop : CryptPath, circ.cpath[1]? = some hop ∧ hop.state = .open) ∨
      (i = 1 ∧ hop'.state = .open) := by
  rw [advance.set] at there
  split at there
  · next same =>
    cases there
    exact Or.inr ⟨same.symm, isOpen⟩
  · exact Or.inl ⟨second, there, isOpen⟩

end

theorem PathOk.marked {circ : OriginCircuit} (ok : PathOk circ) :
    PathOk { circ with markedForClose := true } :=
  ⟨ok.inOrder, ok.finished, ok.waiting, ok.unsent, ok.read⟩

theorem OriginMove.stay (inUse : CircLink → Bool) (answer : Prop) (circ next : OriginCircuit)
    (path : PathOk next) (link : next.nLink = circ.nLink)
    (planned : ∀ k policy, OriginCircuit.planned circ k = some policy →
      OriginCircuit.planned next k = some policy)
    (opened : ∀ hop : CryptPath, next.cpath[1]? = some hop → hop.state = .open →
      ∃ hop : CryptPath, circ.cpath[1]? = some hop ∧ hop.state = .open) :
    OriginMove inUse answer circ next [] := by
  refine ⟨path, Or.inl link, planned, by simp, fun hop there isOpen => ?_⟩
  exact Or.inl (opened hop there isOpen)

theorem OriginMove.close (inUse : CircLink → Bool) (answer : Prop) (circ : OriginCircuit)
    (ok : PathOk circ) : OriginMove inUse answer circ { circ with markedForClose := true } [] :=
  OriginMove.stay _ _ _ _ ok.marked rfl (fun _ _ => id) (fun hop there isOpen =>
    ⟨hop, there, isOpen⟩)

theorem onionSkinCreate_length (options : ClientOptions) (handshakeType : UInt16)
    (ei : ExtendInfo) (keyMaterial skin : List UInt8)
    (created : onionSkinCreate options handshakeType ei keyMaterial = .ok skin) :
    skin.length ≤ 131 := by
  unfold onionSkinCreate ccExtRequestLen at created
  split at created
  · cases created
    rw [(fit ntorOnionskinLen keyMaterial).property]
    decide
  · split at created
    · cases created
    · cases created
      rw [(fit _ keyMaterial).property]
      split <;> decide

theorem clientCreateCell_handshakeLen (handshakeType : UInt16) (skin : List UInt8)
    (short : skin.length ≤ 131) :
    (clientCreateCell handshakeType skin).handshakeLen.toNat = skin.length := by
  change (UInt16.ofNat skin.length).toNat = _
  rw [UInt16.toNat_ofNat']
  omega

theorem circuitDeliverCreateCell_ok (inUse : CircLink → Bool) (opener : Party)
    (peer : Bytes digestLen) (circId : UInt32) (createCell : CreateCell) (relayed : Bool)
    (link : CircLink) (cell : LinkCell)
    (delivered : circuitDeliverCreateCell inUse opener peer circId createCell relayed =
      .ok (link, cell)) :
    inUse link = false ∧ cell.link = link ∧ ∃ command payload,
      cell.body = .create command payload ∧
        createCellFormatImpl createCell relayed = .ok (command, payload) := by
  unfold circuitDeliverCreateCell at delivered
  simp only at delivered
  split at delivered
  · cases delivered
  · next free =>
    obtain ⟨⟨command, payload⟩, formatted, same⟩ := (bind_eq_ok _ _ _).mp delivered
    cases same
    simp only [not_or, Bool.not_eq_true] at free
    exact ⟨free.2, rfl, command, payload, rfl, formatted⟩

/-- No hop awaits its keys. -/
def NoneAwaiting (circ : OriginCircuit) : Prop :=
  ∀ (k : Nat) (hop : CryptPath), circ.cpath[k]? = some hop → hop.state ≠ .awaitingKeys

theorem circuitSendFirstOnionSkin_move (inUse : CircLink → Bool) (choice : Choice)
    (circ next : OriginCircuit) (sent : List LinkCell) (ok : PathOk circ) (hop : CryptPath)
    (here : circ.cpath[0]? = some hop) (closed : hop.state = .closed)
    (done : circuitSendFirstOnionSkin inUse choice circ hop = .ok (next, sent)) :
    OriginMove inUse False circ next sent := by
  obtain ⟨skin, created, done⟩ := (bind_eq_ok _ _ _).mp done
  obtain ⟨⟨link, cell⟩, delivered, done⟩ := (bind_eq_ok _ _ _).mp done
  cases done
  obtain ⟨free, isLink, command, payload, isCreate, formatted⟩ :=
    circuitDeliverCreateCell_ok _ _ _ _ _ _ _ _ delivered
  have short := onionSkinCreate_length _ _ _ _ _ created
  have unlinked : circ.nLink = none := by
    apply ok.unsent
    intro other there
    rw [here] at there
    cases there
    exact closed
  have advance : Advance circ
      { circ with
        nLink := some link
        state := .building
        cpath := circ.cpath.set 0 { hop with state := .awaitingKeys } } 0 hop
      { hop with state := .awaitingKeys } := by
    refine ⟨here, by rw [closed]; decide, ?_, rfl, by simp, rfl, ?_, Or.inl closed⟩
    · intro j earlier below
      omega
    · exact ⟨(ok.read 0 hop here).1, by omega⟩
  have length := clientCreateCell_handshakeLen
    (circuitPickCreateHandshake choice.options hop.extendInfo) skin short
  obtain ⟨isCreate2, finds⟩ := createCellFormatImpl_finds _ false command payload rfl
    (by rw [length]; exact short.trans (by decide))
    (fun _ => by rw [length]; simp only [cellPayloadSize]; omega) formatted
  refine ⟨advance.pathOk ok, Or.inr ⟨link, unlinked, rfl, free⟩, advance.planned, ?_, ?_⟩
  · intro other member
    rw [List.mem_singleton.mp member]
    refine ⟨congrArg some isLink.symm, ?_⟩
    rw [isCreate]
    refine ⟨_, advance.planned_self, isCreate2, fun memory found parsed => ?_⟩
    have read := finds memory found parsed
    exact ⟨read.isSet, read.policy⟩
  · intro second there isOpen
    rcases advance.opened second there isOpen with before | ⟨isSecond, _⟩
    · exact Or.inl before
    · cases isSecond

/-- The cell for the hop with index `i` carries the policy that was read for it. -/
theorem circuitSendIntermediateOnionSkin_move (inUse : CircLink → Bool) (choice : Choice)
    (enforced : choice.options.onion.enforceDelayPolicy = true) (circ next : OriginCircuit)
    (sent : List LinkCell) (ok : PathOk circ) (building : circ.state = .building) (link : CircLink)
    (linked : circ.nLink = some link) (i : Nat) (positive : 0 < i) (hop : CryptPath)
    (here : circ.cpath[i]? = some hop) (closed : hop.state = .closed)
    (front : ∀ (j : Nat) (earlier : CryptPath), j < i → circ.cpath[j]? = some earlier →
      earlier.state = .open) (secondHop : Bool) (isSecond : secondHop = true ↔ i = 1)
    (done : circuitSendIntermediateOnionSkin choice circ link i hop secondHop =
      .ok (next, sent)) : OriginMove inUse False circ next sent := by
  unfold circuitSendIntermediateOnionSkin at done
  simp only at done
  split at done
  · cases done
  · obtain ⟨skin, _, done⟩ := (bind_eq_ok _ _ _).mp done
    obtain ⟨⟨command, payload⟩, formatted, done⟩ := (bind_eq_ok _ _ _).mp done
    cases done
    have advance : Advance circ
        { circ with
          cpath := circ.cpath.set i
            { hop with
              state := .awaitingKeys
              readPolicy :=
                if secondHop then some (getDelayPolicy choice.options.delay) else none } }
        i hop
        { hop with
          state := .awaitingKeys
          readPolicy :=
            if secondHop then some (getDelayPolicy choice.options.delay) else none } := by
      refine ⟨here, by rw [closed]; decide, front, rfl, by simp, building, ?_, Or.inl closed⟩
      constructor
      · intro other
        rw [if_neg (mt isSecond.mp other)]
      · intro second
        rw [if_pos (isSecond.mpr second)]
        rfl
    obtain ⟨_, holds⟩ := extendCellParse_holds _ _ _ command payload choice.padding rfl
      enforced formatted
    refine ⟨advance.pathOk ok, Or.inl rfl, advance.planned, ?_, ?_⟩
    · intro other member
      rw [List.mem_singleton.mp member]
      refine ⟨linked, _, ?_, holds⟩
      rw [Nat.sub_add_cancel positive]
      exact advance.planned_self
    · intro second there isOpen
      rcases advance.opened second there isOpen with before | ⟨_, opened⟩
      · exact Or.inl before
      · cases opened

theorem sendNext_move (inUse : CircLink → Bool) (choice : Choice)
    (enforced : choice.options.onion.enforceDelayPolicy = true) (circ : OriginCircuit)
    (ok : PathOk circ) (idle : NoneAwaiting circ) :
    OriginMove inUse False circ (circ.sendNext inUse choice).1
      (circ.sendNext inUse choice).2 := by
  unfold OriginCircuit.sendNext
  split
  · exact OriginMove.close inUse False circ ok
  · next result done =>
    obtain ⟨next, sent⟩ := result
    unfold circuitSendNextOnionSkin at done
    split at done
    · cases done
    · next first rest path =>
      split at done
      · next closed =>
        exact circuitSendFirstOnionSkin_move inUse choice circ next sent ok first
          (by rw [path]; rfl) closed done
      · split at done
        · cases done
        · next _ ready =>
          simp only [ne_eq, not_or, not_not] at ready
          obtain ⟨firstOpen, building⟩ := ready
          split at done
          · next none =>
            cases done
            refine OriginMove.stay _ _ _ _ ?_ rfl (fun _ _ => id) (fun hop there isOpen =>
              ⟨hop, there, isOpen⟩)
            exact ⟨ok.inOrder, fun _ => cpathGetNextNonOpenHop_none _ none, by simp, ok.unsent,
              ok.read⟩
          · next i found =>
            split at done
            · next hop link there linked =>
              obtain ⟨hop', there', notOpen, front⟩ := cpathGetNextNonOpenHop_some _ _ found
              rw [there] at there'
              cases there'
              have closed : hop.state = .closed := by
                cases state : hop.state with
                | closed => rfl
                | awaitingKeys => exact absurd state (idle i hop there)
                | «open» => exact absurd state notOpen
              have positive : 0 < i := by
                by_contra zero
                have isZero : i = 0 := by omega
                rw [isZero, path] at there
                cases there
                exact notOpen firstOpen
              apply circuitSendIntermediateOnionSkin_move inUse choice enforced circ next sent ok
                building link linked i positive hop there closed front _ _ done
              rw [decide_eq_true_iff]
              constructor
              · intro secondClosed
                by_contra notSecond
                cases rest with
                | nil =>
                  rw [List.headD_nil, firstOpen] at secondClosed
                  cases secondClosed
                | cons second others =>
                  have isOpen := front 1 second (by omega) (by rw [path]; rfl)
                  rw [List.headD_cons, isOpen] at secondClosed
                  cases secondClosed
              · intro isSecond
                rw [isSecond, path] at there
                cases rest with
                | nil => cases there
                | cons second others =>
                  cases there
                  exact closed
            · cases done

theorem circuitFinishHandshake_advance (choice : Choice) (circ next : OriginCircuit)
    (reply : CreatedCell) (ok : PathOk circ)
    (finished : circuitFinishHandshake choice circ reply = .ok next) :
    ∃ i hop, Advance circ next i hop { hop with state := .open } ∧ hop.state = .awaitingKeys ∧
      next.nLink = circ.nLink ∧ (i = 1 → choice.options.onion.enforceDelayPolicy = true →
        reply.delayPolicyIsSet = true) := by
  unfold circuitFinishHandshake at finished
  split at finished
  · cases finished
  · next i found =>
    obtain ⟨hop, there, notOpen, front⟩ := cpathGetNextNonOpenHop_some _ _ found
    simp only [there] at finished
    obtain ⟨_, awaits, finished⟩ := (bind_eq_ok _ _ _).mp finished
    have awaiting : hop.state = .awaitingKeys := by
      unfold torAssert at awaits
      split at awaits
      · assumption
      · cases awaits
    split at finished
    · cases finished
    · split at finished
      · cases finished
      · next passes =>
        cases finished
        refine ⟨i, hop, ?_, awaiting, rfl, fun second enforced => ?_⟩
        · have member := List.mem_of_getElem? there
          have building : circ.state = .building := by
            cases state : circ.state with
            | building => rfl
            | «open» => exact absurd (ok.finished state hop member) notOpen
            | chanWait =>
              rw [ok.waiting state hop member] at awaiting
              cases awaiting
          refine ⟨there, notOpen, front, rfl, by simp, building, ?_, Or.inr rfl⟩
          exact ⟨(ok.read i hop there).1, fun second => (ok.read i hop there).2 second
            (by rw [awaiting]; decide)⟩
        · by_contra notSet
          exact passes ⟨second, enforced, by simpa using notSet⟩

/-- The answer that opens the second hop. -/
def OpensSecond (circ : OriginCircuit) (reply : Result CreatedCell) : Prop :=
  (∃ hop : CryptPath, circ.cpath[1]? = some hop ∧ hop.state = .awaitingKeys) ∧
    ∃ found, reply = .ok found ∧ found.delayPolicyIsSet = true

theorem answered_move (inUse : CircLink → Bool) (choice : Choice)
    (enforced : choice.options.onion.enforceDelayPolicy = true) (circ : OriginCircuit)
    (ok : PathOk circ) (reply : Result CreatedCell) :
    OriginMove inUse (OpensSecond circ reply) circ (circ.answered inUse choice reply).1
      (circ.answered inUse choice reply).2 := by
  unfold OriginCircuit.answered
  split
  · exact OriginMove.close inUse _ circ ok
  · next opened done =>
    obtain ⟨found, parsed, finished⟩ := (bind_eq_ok _ _ _).mp done
    obtain ⟨i, hop, advance, awaiting, link, marker⟩ :=
      circuitFinishHandshake_advance choice circ opened found ok finished
    have pathOk := advance.pathOk ok
    have idle : NoneAwaiting opened := by
      intro k other there
      rw [advance.set] at there
      split at there
      · cases there
        simp
      · next different =>
        by_cases below : k < i
        · rw [advance.front k other below there]
          decide
        · rw [advance.back ok k other (by omega) there]
          decide
    have move := sendNext_move inUse choice enforced opened pathOk idle
    refine ⟨move.path, ?_, ?_, move.sent, ?_⟩
    · rw [← link]
      exact move.link
    · intro k policy planned
      exact move.planned k policy (advance.planned k policy planned)
    · intro second there isOpen
      rcases move.opened second there isOpen with ⟨earlier, before, wasOpen⟩ | never
      · rcases advance.opened earlier before wasOpen with already | ⟨isSecond, _⟩
        · exact Or.inl already
        · right
          subst isSecond
          exact ⟨⟨hop, advance.here, awaiting⟩, found, parsed, marker rfl enforced⟩
      · exact never.elim

theorem relayIn_move (inUse : CircLink → Bool) (choice : Choice)
    (enforced : choice.options.onion.enforceDelayPolicy = true) (circ : OriginCircuit)
    (ok : PathOk circ) (command : UInt8) (payload : RelayPayload) :
    OriginMove inUse (OpensSecond circ
        ((extendedCellParse command payload).map ExtendedCell.createdCell)) circ
      (circ.relayIn inUse choice command payload).1
      (circ.relayIn inUse choice command payload).2 := by
  unfold OriginCircuit.relayIn
  split
  · exact answered_move inUse choice enforced circ ok _
  · exact OriginMove.stay _ _ _ _ ok rfl (fun _ _ => id) (fun hop there isOpen =>
      ⟨hop, there, isOpen⟩)

theorem PathOk.append {circ next : OriginCircuit} (ok : PathOk circ) (info : ExtendInfo)
    (cpath : next.cpath = circ.cpath ++ [CryptPath.new info]) (link : next.nLink = circ.nLink)
    (building : next.state ≠ .open) (waits : next.state = .chanWait → circ.state = .chanWait) :
    PathOk next := by
  have last : ∀ (k : Nat) (hop : CryptPath), next.cpath[k]? = some hop →
      circ.cpath[k]? = some hop ∨ hop = CryptPath.new info := by
    intro k hop there
    rw [cpath, List.getElem?_append] at there
    split at there
    · exact Or.inl there
    · exact Or.inr (List.mem_singleton.mp (List.mem_of_getElem? there))
  constructor
  · intro i j hop later below first second notClosed
    rcases last j later second with old | rfl
    · have inside := (List.getElem?_eq_some_iff.mp old).1
      rw [cpath, List.getElem?_append_left (by omega)] at first
      exact ok.inOrder i j hop later below first old notClosed
    · exact absurd rfl notClosed
  · intro isOpen
    exact absurd isOpen building
  · intro waiting hop member
    rw [cpath] at member
    rcases List.mem_append.mp member with old | new
    · exact ok.waiting (waits waiting) hop old
    · rw [List.mem_singleton.mp new]
      rfl
  · intro allClosed
    rw [link]
    apply ok.unsent
    intro hop there
    apply allClosed
    have inside := (List.getElem?_eq_some_iff.mp there).1
    rw [cpath, List.getElem?_append_left inside]
    exact there
  · intro k hop there
    rcases last k hop there with old | rfl
    · exact ok.read k hop old
    · exact ⟨fun _ => rfl, fun _ notClosed => absurd rfl notClosed⟩

theorem planned_append (circ next : OriginCircuit) (info : ExtendInfo)
    (cpath : next.cpath = circ.cpath ++ [CryptPath.new info]) (k : Nat) (policy : RawPolicy)
    (planned : OriginCircuit.planned circ k = some policy) :
    OriginCircuit.planned next k = some policy := by
  obtain ⟨hop, there, inner⟩ := Option.bind_eq_some_iff.mp planned
  have inside := (List.getElem?_eq_some_iff.mp there).1
  refine Option.bind_eq_some_iff.mpr ⟨hop, ?_, inner⟩
  rw [cpath, List.getElem?_append_left inside]
  exact there

theorem opened_append (circ next : OriginCircuit) (info : ExtendInfo)
    (cpath : next.cpath = circ.cpath ++ [CryptPath.new info]) (hop : CryptPath)
    (there : next.cpath[1]? = some hop) (isOpen : hop.state = .open) :
    ∃ hop : CryptPath, circ.cpath[1]? = some hop ∧ hop.state = .open := by
  rw [cpath, List.getElem?_append] at there
  split at there
  · exact ⟨hop, there, isOpen⟩
  · rw [List.mem_singleton.mp (List.mem_of_getElem? there)] at isOpen
    cases isOpen

/-- The controller, or a circuit that is reused, adds a hop. -/
theorem appendHop_move (inUse : CircLink → Bool) (choice : Choice)
    (enforced : choice.options.onion.enforceDelayPolicy = true) (circ : OriginCircuit)
    (ok : PathOk circ) (info : ExtendInfo) (next : OriginCircuit × List LinkCell)
    (result : next =
      if circ.state = .open then
        OriginCircuit.sendNext inUse choice
          { circ with cpath := circ.cpath ++ [CryptPath.new info], state := .building }
      else ({ circ with cpath := circ.cpath ++ [CryptPath.new info] }, [])) :
    OriginMove inUse False circ next.1 next.2 := by
  by_cases isOpen : circ.state = .open
  · rw [if_pos isOpen] at result
    have longer : PathOk
        { circ with cpath := circ.cpath ++ [CryptPath.new info], state := .building } :=
      ok.append info rfl rfl (by simp) (by simp)
    have idle : NoneAwaiting
        { circ with cpath := circ.cpath ++ [CryptPath.new info], state := .building } := by
      intro k hop there
      rcases List.mem_append.mp (List.mem_of_getElem? there) with old | last
      · rw [ok.finished isOpen hop old]
        decide
      · rw [List.mem_singleton.mp last]
        simp [CryptPath.new]
    have move := sendNext_move inUse choice enforced _ longer idle
    rw [result]
    refine ⟨move.path, move.link, fun k policy planned => ?_, move.sent,
      fun hop there isOpen => ?_⟩
    · exact move.planned k policy (planned_append circ _ info rfl k policy planned)
    · rcases move.opened hop there isOpen with ⟨second, before, wasOpen⟩ | never
      · exact Or.inl (opened_append circ _ info rfl second before wasOpen)
      · exact never.elim
  · rw [if_neg isOpen] at result
    rw [result]
    exact OriginMove.stay _ _ _ _ (ok.append info rfl rfl isOpen id) rfl
      (planned_append circ _ info rfl) (opened_append circ _ info rfl)

/-! ## The relays' handlers -/

section Relays
variable {inUse : CircLink → Bool} {book : Ledger} {c k : Nat} {policy : RawPolicy}

section

variable (choice : Choice) {o : OrCircuit} (ok : RelayOk book o c k policy)

include ok

theorem RelayOk.marked : RelayOk book { o with markedForClose := true } c k policy :=
  ⟨ok.serves, ok.planned, ok.received, ok.kept, ok.isSet, by simp, ok.next, ok.waiting⟩

theorem RelayMove.close :
    RelayMove inUse book c k policy o { o with markedForClose := true } [] := by
  refine ⟨rfl, rfl, Or.inl rfl, fun later le _ => ⟨(ok.mono le).marked, by simp⟩⟩

theorem RelayMove.stay (sent : List LinkCell)
    (sentOk : ∀ cell ∈ sent, CellOk book cell.link cell.body) :
    RelayMove inUse book c k policy o o sent := by
  refine ⟨rfl, rfl, Or.inl rfl, fun later le _ => ⟨ok.mono le, fun cell member => ?_⟩⟩
  exact (sentOk cell member).mono le

/-- The create cell for the next hop carries the policy planned for it. -/
theorem deliverCreateCell_move (unlinked : o.nLink = none)
    (peer : Bytes digestLen) (createCell : CreateCell) (next : RawPolicy)
    (planned : book.planned c (k + 1) = some next) (holds : HoldsPolicy next createCell) :
    RelayMove inUse book c k policy o (o.deliverCreateCell inUse choice peer createCell).1
      (o.deliverCreateCell inUse choice peer createCell).2 := by
  unfold deliverCreateCell
  split
  · exact RelayMove.close ok
  · next link cell delivered =>
    obtain ⟨free, isLink, command, payload, isCreate, formatted⟩ :=
      circuitDeliverCreateCell_ok _ _ _ _ _ _ _ _ delivered
    obtain ⟨isCreate2, finds⟩ := createCellFormatImpl_finds createCell true command payload
      holds.type holds.fits (fun notSet => by rw [holds.isSet] at notSet; cases notSet) formatted
    refine ⟨rfl, rfl, Or.inr ⟨link, unlinked, rfl, free⟩, fun later le serves => ⟨?_, ?_⟩⟩
    · have grown := ok.mono le
      refine ⟨grown.serves, grown.planned, grown.received, grown.kept, grown.isSet, grown.type,
        serves, ?_⟩
      intro peer' createCell' waiting
      cases waiting
    · intro other member
      rw [List.mem_singleton.mp member, isCreate]
      refine ⟨c, k + 1, next, true, ?_, le.planned _ _ _ planned, fun _ => by omega, isCreate2,
        fun memory found parsed => ?_⟩
      · apply serves
        rw [isLink]
      · have read := finds memory found parsed
        rw [holds.isSet, holds.policy] at read
        exact read

theorem extend_move (command : UInt8) (payload : RelayPayload)
    (next : RawPolicy) (planned : book.planned c (k + 1) = some next)
    (holds : ∀ before parsed, extendCellParse before command
        (payload.bytes.val.take payload.length.toNat) = .ok parsed →
      HoldsPolicy next parsed.createCell) :
    RelayMove inUse book c k policy o (o.extend inUse choice command payload).1
      (o.extend inUse choice command payload).2 := by
  unfold extend
  split
  · exact RelayMove.close ok
  · next unlinked =>
    simp only [not_or, Bool.not_eq_true, Option.isSome_eq_false_iff, Option.isNone_iff_eq_none]
      at unlinked
    split
    · exact RelayMove.close ok
    · next ec parsed =>
      split
      · exact RelayMove.close ok
      · refine ⟨rfl, rfl, Or.inl rfl, fun later le _ => ⟨?_, by simp⟩⟩
        have grown := ok.mono le
        refine ⟨grown.serves, grown.planned, grown.received, grown.kept, grown.isSet,
          grown.type, grown.next, ?_⟩
        intro peer createCell waiting
        cases waiting
        exact ⟨unlinked.1, next, le.planned _ _ _ planned, holds _ ec parsed⟩
      · exact deliverCreateCell_move choice ok unlinked.1 _ _ next planned (holds _ ec parsed)

theorem relayOut_move (layers : Nat) (command : UInt8)
    (payload : RelayPayload) (cellOk : CellOk book o.pLink (.relayOut layers command payload)) :
    RelayMove inUse book c k policy o (o.relayOut inUse choice layers command payload).1
      (o.relayOut inUse choice layers command payload).2 := by
  obtain ⟨d, j, next, serves, planned, holds⟩ := cellOk
  rw [ok.serves] at serves
  cases serves
  unfold relayOut
  split
  · exact RelayMove.close ok
  · split
    · split
      · exact extend_move choice ok command payload next planned holds
      · exact RelayMove.stay ok [] (by simp)
    · next layers link linked =>
      apply RelayMove.stay ok
      intro cell member
      rw [List.mem_singleton.mp member]
      refine ⟨c, k + 1, next, ok.next link linked, ?_, holds⟩
      rw [← planned]
      congr 1
      omega
    · exact RelayMove.close ok

section

variable (link : CircLink) (linked : o.nLink = some link) (command : UInt8)

include linked

theorem created_move (payload : CellPayload)
    (cellOk : CellOk book link (.created command payload)) :
    RelayMove inUse book c k policy o (o.created choice command payload).1
      (o.created choice command payload).2 := by
  obtain ⟨d, j, serves, marker⟩ := cellOk
  rw [ok.next link linked] at serves
  cases serves
  unfold created
  split
  · exact RelayMove.close ok
  · next command' payload' done =>
    obtain ⟨created, parsed, formatted⟩ := (bind_eq_ok _ _ _).mp done
    apply RelayMove.stay ok
    intro cell member
    rw [List.mem_singleton.mp member]
    refine ⟨c, k, ok.serves, fun found reparsed isSet => ⟨k, ?_⟩⟩
    exact marker created parsed
      (extendedCellParse_marker created _ _ choice.padding formatted found reparsed isSet)

theorem relayPassed_move (payload : RelayPayload)
    (cellOk : CellOk book link (.relayIn command payload)) :
    RelayMove inUse book c k policy o (o.relayIn command payload).1
      (o.relayIn command payload).2 := by
  obtain ⟨d, j, serves, marker⟩ := cellOk
  rw [ok.next link linked] at serves
  cases serves
  unfold relayIn
  split
  · exact RelayMove.close ok
  · apply RelayMove.stay ok
    intro cell member
    rw [List.mem_singleton.mp member]
    exact ⟨c, k, ok.serves, marker⟩

end

theorem nChanDone_move :
    RelayMove inUse book c k policy o
      (match o.nChanCreateCell with
        | some (peer, createCell) => o.deliverCreateCell inUse choice peer createCell
        | none => (o, [])).1
      (match o.nChanCreateCell with
        | some (peer, createCell) => o.deliverCreateCell inUse choice peer createCell
        | none => (o, [])).2 := by
  cases waiting : o.nChanCreateCell with
  | none => exact RelayMove.stay ok [] (by simp)
  | some pair =>
    obtain ⟨peer, createCell⟩ := pair
    obtain ⟨unlinked, next, planned, holds⟩ := ok.waiting peer createCell waiting
    exact deliverCreateCell_move choice ok unlinked peer createCell next planned holds

theorem cpuworkerReply_move (alive : o.markedForClose = false)
    (reply : List UInt8) (took : o.delayPolicyIsSet = true → book.setAt c k) :
    RelayMove inUse book c k policy o (o.cpuworkerReply reply).1 (o.cpuworkerReply reply).2 := by
  unfold cpuworkerReply
  split
  · exact RelayMove.close ok
  · next command payload formatted =>
    have kind : (cpuworkerCreatedCell o reply).cellType = cellCreated2 := by
      unfold cpuworkerCreatedCell
      rw [ok.type alive]
      rfl
    refine ⟨rfl, rfl, Or.inl rfl, fun later le _ => ⟨?_, ?_⟩⟩
    · have grown := ok.mono le
      exact ⟨grown.serves, grown.planned, grown.received, grown.kept, grown.isSet, grown.type,
        grown.next, grown.waiting⟩
    · intro cell member
      rw [List.mem_singleton.mp member]
      refine ⟨c, k, le.serves _ _ ok.serves, fun found parsed isSet => ?_⟩
      apply le.setAt
      apply took
      exact createdCellParse_marker _ _ _ (Or.inr kind) formatted found parsed isSet

end

end Relays

/-! ## Every step, every run -/

/-- The choices of an event keep `EnforceDelayPolicy` set at the client. -/
def NetEvent.Enforces : NetEvent → Prop
  | .firstHopReady _ choice => choice.options.onion.enforceDelayPolicy = true
  | .appendHop _ _ choice => choice.options.onion.enforceDelayPolicy = true
  | .nChanDone _ choice => choice.options.onion.enforceDelayPolicy = true
  | .deliver _ choice => choice.options.onion.enforceDelayPolicy = true
  | _ => True

/-- Some ledger agrees with the network. -/
def Consistent (net : Network) : Prop := ∃ serves, NetOk net serves

theorem NetOk.withOrigin (ok : NetOk net serves) (c : Nat) (act : OriginCircuit → OriginCircuit × List LinkCell)
    (answer : OriginCircuit → Prop)
    (move : ∀ circ, net.origins[c]? = some circ → PathOk circ →
      OriginMove net.inUse (answer circ) circ (act circ).1 (act circ).2)
    (answered : ∀ circ, net.origins[c]? = some circ → answer circ → SetAt net serves c 1) :
    Consistent (net.withOrigin c act) := by
  unfold Network.withOrigin
  split
  · exact ⟨serves, ok⟩
  · next circ here =>
    split
    · exact ⟨serves, ok⟩
    · exact ok.originMove c circ _ _ (answer circ) here
        (move circ here (ok.paths circ (List.mem_of_getElem? here))) (answered circ here)

theorem NetOk.withRelay (ok : NetOk net serves) (r : Nat) (act : OrCircuit → OrCircuit × List LinkCell)
    (move : ∀ o, net.relays[r]? = some o → o.markedForClose = false → ∀ c k policy,
      RelayOk (ledger net serves) o c k policy →
        RelayMove net.inUse (ledger net serves) c k policy o (act o).1 (act o).2) :
    Consistent (net.withRelay r act) := by
  unfold Network.withRelay
  split
  · exact ⟨serves, ok⟩
  · next o here =>
    split
    · exact ⟨serves, ok⟩
    · next alive =>
      exact ok.relayMove r o _ _ here (move o here (Bool.not_eq_true _ ▸ alive))

theorem originOpening_link (net : Network) (link : CircLink) (circ : OriginCircuit)
    (here : net.origins[net.originOpening link]? = some circ) : circ.nLink = some link := by
  obtain ⟨inside, rfl⟩ := List.getElem?_eq_some_iff.mp here
  exact of_decide_eq_true (List.findIdx_getElem (w := inside))

theorem relayOpening_link (net : Network) (link : CircLink) (o : OrCircuit)
    (here : net.relays[net.relayOpening link]? = some o) : o.nLink = some link := by
  obtain ⟨inside, rfl⟩ := List.getElem?_eq_some_iff.mp here
  exact of_decide_eq_true (List.findIdx_getElem (w := inside))

theorem relayAt_link (net : Network) (link : CircLink) (o : OrCircuit)
    (here : net.relays[net.relayAt link]? = some o) : o.pLink = link := by
  obtain ⟨inside, rfl⟩ := List.getElem?_eq_some_iff.mp here
  exact of_decide_eq_true (List.findIdx_getElem (w := inside))

theorem NetOk.second_took (ok : NetOk net serves) (c k : Nat) (circ : OriginCircuit)
    (here : net.origins[c]? = some circ) (second : CryptPath)
    (there : circ.cpath[1]? = some second) (awaiting : second.state = .awaitingKeys)
    (took : SetAt net serves c k) : k = 1 := by
  obtain ⟨o, member, served, isSet⟩ := took
  obtain ⟨policy, relayOk⟩ := ok.relay_of_serves member served
  have notFirst := (relayOk.isSet isSet).2
  by_contra notSecond
  have planned := relayOk.planned
  change Network.planned net c k = _ at planned
  rw [Network.planned, here, Option.bind_some] at planned
  obtain ⟨later, inPath, inner⟩ := Option.bind_eq_some_iff.mp planned
  have notClosed : later.state ≠ .closed := by
    intro closed
    rw [CryptPath.planned, if_pos closed] at inner
    cases inner
  have isOpen := (ok.paths circ (List.mem_of_getElem? here)).inOrder 1 k second later (by omega)
    there inPath notClosed
  rw [awaiting] at isOpen
  cases isOpen

/-- A cell arrives where the ledger says. -/
theorem NetOk.arrive (ok : NetOk net serves) (choice : Choice)
    (enforced : choice.options.onion.enforceDelayPolicy = true) (link : CircLink)
    (body : CellBody) (cellOk : CellOk (ledger net serves) link body) :
    Consistent (net.arrive choice link body) := by
  cases body with
  | create command payload =>
    simp only [Network.arrive]
    split
    · exact ⟨serves, ok⟩
    · next new => exact ⟨serves, ok.create choice link command payload cellOk
        (Bool.not_eq_true _ ▸ new)⟩
  | created command payload =>
    simp only [Network.arrive]
    split
    · apply ok.withOrigin _ _ (fun circ => OpensSecond circ (createdCellParse command payload))
      · intro circ _ path
        exact answered_move net.inUse choice enforced circ path _
      · rintro circ here ⟨⟨second, there, awaiting⟩, found, parsed, isSet⟩
        obtain ⟨c, k, served, marker⟩ := cellOk
        have linked := ok.origin _ circ link here (originOpening_link net link circ here)
        change serves link = some (c, k) at served
        rw [linked] at served
        cases served
        have took := marker found parsed isSet
        have isSecond := ok.second_took _ _ circ here second there awaiting took
        cases isSecond
    · apply ok.withRelay
      intro o here _ c k policy relayOk
      exact created_move choice relayOk link (relayOpening_link net link o here) command payload
        cellOk
  | relayOut layers command payload =>
    apply ok.withRelay
    intro o here _ c k policy relayOk
    apply relayOut_move choice relayOk layers command payload
    rw [relayAt_link net link o here]
    exact cellOk
  | relayIn command payload =>
    simp only [Network.arrive]
    split
    · apply ok.withOrigin _ _ (fun circ => OpensSecond circ
        ((extendedCellParse command payload).map ExtendedCell.createdCell))
      · intro circ _ path
        exact relayIn_move net.inUse choice enforced circ path command payload
      · rintro circ here ⟨⟨second, there, awaiting⟩, found, mapped, isSet⟩
        obtain ⟨c, k, served, marker⟩ := cellOk
        have linked := ok.origin _ circ link here (originOpening_link net link circ here)
        change serves link = some (c, k) at served
        rw [linked] at served
        cases served
        cases parsed : extendedCellParse command payload with
        | error failure =>
          rw [parsed] at mapped
          cases mapped
        | ok extended =>
          rw [parsed] at mapped
          cases mapped
          obtain ⟨j, took⟩ := marker extended parsed isSet
          have isSecond := ok.second_took _ _ circ here second there awaiting took
          rw [isSecond] at took
          exact took
    · apply ok.withRelay
      intro o here _ c k policy relayOk
      exact relayPassed_move relayOk link (relayOpening_link net link o here) command payload
        cellOk

theorem NetOk.without (ok : NetOk net serves) (m : Nat) :
    NetOk { net with inFlight := net.inFlight.eraseIdx m } serves :=
  ⟨ok.paths, ok.origin, ok.relays, ok.unique, ok.used,
    fun cell member => ok.cells cell (List.mem_of_mem_eraseIdx member), ok.opened⟩

theorem step_consistent (net : Network) (event : NetEvent) (enforces : NetEvent.Enforces event)
    (consistent : Consistent net) : Consistent (net.step event) := by
  obtain ⟨serves, ok⟩ := consistent
  cases event with
  | establish path => exact ⟨serves, ok.establish path⟩
  | firstHopReady c choice =>
    apply ok.withOrigin c _ (fun _ => False)
    · intro circ _ path
      split
      · next waiting =>
        apply sendNext_move net.inUse choice enforces circ path
        intro k hop there
        rw [path.waiting waiting hop (List.mem_of_getElem? there)]
        decide
      · exact OriginMove.stay _ _ _ _ path rfl (fun _ _ => id) (fun hop there isOpen =>
          ⟨hop, there, isOpen⟩)
    · intro _ _ never
      exact never.elim
  | appendHop c info choice =>
    apply ok.withOrigin c _ (fun _ => False)
    · intro circ _ path
      exact appendHop_move net.inUse choice enforces circ path info _ rfl
    · intro _ _ never
      exact never.elim
  | closeOrigin c =>
    apply ok.withOrigin c _ (fun _ => False)
    · intro circ _ path
      exact OriginMove.close _ _ circ path
    · intro _ _ never
      exact never.elim
  | cpuworkerDone r reply =>
    apply ok.withRelay
    intro o here alive c k policy relayOk
    split
    · apply cpuworkerReply_move relayOk alive reply
      intro isSet
      exact ⟨o, List.mem_of_getElem? here, relayOk.serves, isSet⟩
    · exact RelayMove.stay relayOk [] (by simp)
  | nChanDone r choice =>
    apply ok.withRelay
    intro o _ _ c k policy relayOk
    exact nChanDone_move choice relayOk
  | closeRelay r =>
    apply ok.withRelay
    intro o _ _ c k policy relayOk
    exact RelayMove.close relayOk
  | deliver m choice =>
    simp only [Network.step]
    split
    · exact ⟨serves, ok⟩
    · next cell there =>
      exact (ok.without m).arrive choice enforces cell.link cell.body
        (ok.cells cell (List.mem_of_getElem? there))

theorem run_consistent (net : Network) (events : List NetEvent)
    (enforces : ∀ event ∈ events, NetEvent.Enforces event) (consistent : Consistent net) :
    Consistent (net.run events) := by
  induction events generalizing net with
  | nil => exact consistent
  | cons event events ih =>
    apply ih
    · intro later member
      exact enforces later (List.mem_cons_of_mem _ member)
    · exact step_consistent net event (enforces event List.mem_cons_self) consistent

/-! ## The hops of a circuit -/

/-- The circuit `o` of a relay is hop `k` of the client's circuit: circuit ids lead from
the client to it. -/
def ServesHop (net : Network) (circ : OriginCircuit) : Nat → OrCircuit → Prop
  | 0, o => o ∈ net.relays ∧ circ.nLink = some o.pLink
  | k + 1, o => o ∈ net.relays ∧ ∃ prev, ServesHop net circ k prev ∧ prev.nLink = some o.pLink

section Chains
variable {c : Nat} {circ : OriginCircuit}

theorem NetOk.serves_of_servesHop (ok : NetOk net serves) (here : net.origins[c]? = some circ)
    (k : Nat) (o : OrCircuit) (hop : ServesHop net circ k o) : serves o.pLink = some (c, k) := by
  induction k generalizing o with
  | zero => exact ok.origin c circ _ here hop.2
  | succ k ih =>
    obtain ⟨_, prev, before, linked⟩ := hop
    have member : prev ∈ net.relays := by
      cases k with
      | zero => exact before.1
      | succ k => exact before.1
    obtain ⟨policy, relayOk⟩ := ok.relay_of_serves member (ih prev before)
    exact relayOk.next o.pLink linked

theorem NetOk.servesHop_of_serves (ok : NetOk net serves) (here : net.origins[c]? = some circ)
    (k : Nat) (o : OrCircuit) (member : o ∈ net.relays) (served : serves o.pLink = some (c, k)) :
    ServesHop net circ k o := by
  induction k generalizing o with
  | zero =>
    rcases ok.leads served with ⟨_, circ', there, linked⟩ | ⟨j, later, _⟩
    · rw [here] at there
      cases there
      exact ⟨member, linked⟩
    · cases later
  | succ k ih =>
    rcases ok.leads served with ⟨first, _⟩ | ⟨j, same, prev, inRelays, before, linked⟩
    · cases first
    · cases same
      exact ⟨member, prev, ih prev inRelays before, linked⟩

theorem NetOk.servesHop_unique (ok : NetOk net serves) (k : Nat) (o other : OrCircuit)
    (hop : ServesHop net circ k o) (otherHop : ServesHop net circ k other) : o = other := by
  have byLink : ∀ one two : OrCircuit, one ∈ net.relays → two ∈ net.relays →
      one.pLink = two.pLink → one = two := fun one two inOne inTwo =>
    List.inj_on_of_nodup_map ok.unique inOne inTwo
  induction k generalizing o other with
  | zero =>
    apply byLink o other hop.1 otherHop.1
    exact Option.some.inj (hop.2.symm.trans otherHop.2)
  | succ k ih =>
    obtain ⟨member, prev, before, linked⟩ := hop
    obtain ⟨otherMember, otherPrev, otherBefore, otherLinked⟩ := otherHop
    rw [ih prev otherPrev before otherBefore] at linked
    exact byLink o other member otherMember (Option.some.inj (linked.symm.trans otherLinked))

end Chains

/-- The second hop of a circuit has the policy that the client read for it. -/
structure Agreed (net : Network) (circ : OriginCircuit) (second : CryptPath) : Prop where
  served : ∃ o, ServesHop net circ 1 o
  isSet : ∀ o, ServesHop net circ 1 o → o.delayPolicyIsSet = true
  policy : ∀ o, ServesHop net circ 1 o → second.readPolicy = some o.delayPolicy

/-- In every run in which the client keeps `EnforceDelayPolicy` set, the second hop of a
circuit that the client has opened has the policy that `get_delay_policy` gave when
the client sent the EXTEND2 cell for it, and no other hop of the circuit ever gets a
policy that is not all zeros. -/
theorem delayPolicy_agreed (events : List NetEvent)
    (enforces : ∀ event ∈ events, NetEvent.Enforces event) (c : Nat) (circ : OriginCircuit)
    (here : (Network.initial.run events).origins[c]? = some circ) :
    (∀ second : CryptPath, circ.cpath[1]? = some second → second.state = .open →
        Agreed (Network.initial.run events) circ second) ∧
      ∀ k o, k ≠ 1 → ServesHop (Network.initial.run events) circ k o →
        o.createCell.delayPolicy = fit delayPolicySize [] ∧
          o.delayPolicy = fit delayPolicySize [] := by
  obtain ⟨serves, ok⟩ := run_consistent Network.initial events enforces ⟨_, netOk_initial⟩
  generalize Network.initial.run events = net at here ok ⊢
  have path := ok.paths circ (List.mem_of_getElem? here)
  have planned : ∀ k o, ServesHop net circ k o → ∃ policy,
      RelayOk (ledger net serves) o c k policy ∧ ∃ hop : CryptPath, circ.cpath[k]? = some hop ∧
        policy = hop.readPolicy.getD (fit delayPolicySize []) := by
    intro k o hop
    have member : o ∈ net.relays := by
      cases k with
      | zero => exact hop.1
      | succ k => exact hop.1
    have served := ok.serves_of_servesHop here k o hop
    obtain ⟨policy, relayOk⟩ := ok.relay_of_serves member served
    have given := relayOk.planned
    change Network.planned net c k = _ at given
    rw [Network.planned, here, Option.bind_some] at given
    obtain ⟨inPath, there, inner⟩ := Option.bind_eq_some_iff.mp given
    unfold CryptPath.planned at inner
    split at inner
    · cases inner
    · exact ⟨policy, relayOk, inPath, there, (Option.some.inj inner).symm⟩
  constructor
  · intro second there isOpen
    obtain ⟨o, member, served, isSet⟩ := ok.opened c circ second here there isOpen
    have hop := ok.servesHop_of_serves here 1 o member served
    have only : ∀ other, ServesHop net circ 1 other → other = o := fun other otherHop =>
      ok.servesHop_unique 1 other o otherHop hop
    obtain ⟨policy, relayOk, inPath, there', policyEq⟩ := planned 1 o hop
    rw [there] at there'
    cases there'
    have read := (path.read 1 second there).2 rfl (by rw [isOpen]; decide)
    obtain ⟨given, givenEq⟩ := Option.isSome_iff_exists.mp read
    rw [givenEq, Option.getD_some] at policyEq
    refine ⟨⟨o, hop⟩, fun other otherHop => ?_, fun other otherHop => ?_⟩
    · rw [only other otherHop]
      exact isSet
    · rw [only other otherHop, givenEq, (relayOk.isSet isSet).1, policyEq]
  · intro k o notSecond hop
    obtain ⟨policy, relayOk, inPath, there, policyEq⟩ := planned k o hop
    rw [(path.read k inPath there).1 notSecond, Option.getD_none] at policyEq
    have received := relayOk.received
    have kept := relayOk.kept
    rw [policyEq, or_self] at received kept
    exact ⟨received, kept⟩

/-! ## A circuit of two hops -/

def sampleClientOptions : ClientOptions where
  onion := ⟨-1, false, true⟩
  delay := ⟨2, fit 8 [], fit 8 [64, 89], fit 8 [64, 143, 64]⟩
  serverMode := false
  congestionControlEnabled := false

def sampleChoice (circId : UInt32) : Choice where
  options := sampleClientOptions
  disableDelays := false
  circId := circId
  keyMaterial := [7]
  accepts := true
  padding := [9]
  channel := .connected
  before := fit 16 []
  memory := []

def sampleInfo (identity : UInt8) : ExtendInfo :=
  ⟨fit digestLen [identity], fit 32 [], some (167772161, 9001), none, false⟩

/-- Both hops are built; the cells arrive one after the other. -/
def sampleEvents : List NetEvent :=
  [.establish [sampleInfo 1, sampleInfo 2], .firstHopReady 0 (sampleChoice 5),
    .deliver 0 (sampleChoice 5), .cpuworkerDone 0 (List.replicate 64 3),
    .deliver 0 (sampleChoice 5), .deliver 0 (sampleChoice 6), .deliver 0 (sampleChoice 6),
    .cpuworkerDone 1 (List.replicate 64 4), .deliver 0 (sampleChoice 6),
    .deliver 0 (sampleChoice 6)]

theorem delayPolicy_agreed_sample :
    ∃ circ second, (Network.initial.run sampleEvents).origins[0]? = some circ ∧
      circ.cpath[1]? = some second ∧ second.state = .open ∧
      Agreed (Network.initial.run sampleEvents) circ second := by
  have enforces : ∀ event ∈ sampleEvents, NetEvent.Enforces event := by
    simp [sampleEvents, NetEvent.Enforces, sampleChoice, sampleClientOptions]
  have built : ((Network.initial.run sampleEvents).origins[0]?.bind
      (fun circ => circ.cpath[1]?.map CryptPath.state)) = some .open := by
    decide +kernel
  obtain ⟨circ, here, rest⟩ := Option.bind_eq_some_iff.mp built
  obtain ⟨second, there, isOpen⟩ := Option.map_eq_some_iff.mp rest
  exact ⟨circ, second, here, there, isOpen,
    (delayPolicy_agreed sampleEvents enforces 0 circ here).1 second there isOpen⟩

end RendezMix.Guarantees
