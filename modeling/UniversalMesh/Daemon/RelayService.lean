import Mathlib.Data.Finset.Erase
import Mathlib.Data.Finset.Insert
import Mathlib.Data.Prod.Lex
import UniversalMesh.Lib.NestedMap
import UniversalMesh.Relay.Circuit
import UniversalMesh.Relay.Multipath
import UniversalMesh.Wire.Frames.Routing

/-! `umcd/src/relay_service.rs`: the registry of relay circuits. A circuit is known by a local id, to the peer
that owns it by the wire id on that peer's session; it is paired with the circuit its data goes to, and a
multipath circuit has alternate legs besides. Leases are persisted, and a restart brings those back that have
not run out. Where the source can panic or loop the result is in `Except Halt`. Hash maps are ordered maps; the
store never fails. -/
namespace UniversalMesh.Daemon
open MachineWord Wire Relay

structure CircuitOpenRequest where
  (peerCircuits requestedLifetimeMs requestedByteQuota : Nat)
  flags : UInt8
  (bidirectional privateHandling multipath : Bool)
  destinationHint : Bytes
  deriving DecidableEq, Repr

structure CircuitOpenResult where
  (circuitId grantedLifetimeMs grantedByteQuota maximumRelayPayload : Nat)
  multipathGranted : Bool
  deriving DecidableEq, Repr

/-- `RelayCircuitRecord` of `umc-storage/src/records.rs`. -/
structure RelayCircuitRecord where
  (circuitId epoch : Nat)
  (ownerPeer destinationPeer : Bytes)
  (expiresAtMs replayUntilMs grantedByteQuota : Nat)
  (bidirectional privateHandling multipathGranted : Bool)
  (nextUpstreamSequence nextDownstreamSequence state : Nat)
  deriving DecidableEq, Repr

/-- The records by circuit and epoch; the keys are big-endian, so a scan has them in this order. -/
abbrev RelayStore := OrderedMap (Nat ×ₗ Nat) RelayCircuitRecord

namespace RelayStore

variable (store : RelayStore)

/-- `save_relay_circuit`. -/
def save (record : RelayCircuitRecord) : RelayStore :=
  store.insert (toLex (record.circuitId, record.epoch)) record

/-- `delete_relay_circuit` for each listed record that a test picks out. -/
def deleteWhere (picked : RelayCircuitRecord → Bool) : RelayStore :=
  (store.entries.map Prod.snd).foldl
    (fun store record => if picked record then store.erase (toLex (record.circuitId, record.epoch)) else store)
    store

/-- A record replaces one of an earlier epoch. -/
def keepNewest (latest : OrderedMap Nat RelayCircuitRecord) (record : RelayCircuitRecord) :
    OrderedMap Nat RelayCircuitRecord :=
  match latest.get? record.circuitId with
  | some current => if record.epoch > current.epoch then latest.insert record.circuitId record else latest
  | none => latest.insert record.circuitId record

/-- The record of the newest epoch for each circuit. -/
def latest : OrderedMap Nat RelayCircuitRecord :=
  (store.entries.map Prod.snd).foldl keepNewest .empty

end RelayStore

def circuitStateCode : CircuitState → Nat
  | .opening => 0
  | .active => 1
  | .halfClosedUpstream => 2
  | .halfClosedDownstream => 3
  | .closing => 4
  | .draining => 5
  | .closed => 6

/-- What the calls refuse, with what their messages print. -/
inductive RelayError where
  | openRefused (decision : AdmissionDecision) | unknownCircuit (circuitId : Nat)
  | wireCircuitExists (wireCircuitId sessionId : Nat) | alreadyHasDestinationLeg
  | circuitsMustDiffer | multipathNotNegotiated | multipathPathExists | multipathPathLimit
  | multipathPath (error : MultipathError) | multipathReceive (error : MultipathError)
  | multipathAccounting (error : MultipathError) | downstreamStillOpening | noPairedCircuit
  | forwardEncode (error : FrameError) | upstreamHalfClosed | forwardRejected (error : ForwardError)
  | unknownDownstreamCircuit (wireCircuitId sessionId : Nat) | noUpstreamLeg | pendingQueueFull
  deriving DecidableEq, Repr

/-- What the session task needs to tell both peers of an expired circuit. -/
structure RelayExpiryNotification where
  reason : RelayReason
  upstreamSession : Option Nat
  (upstreamWireId upstreamFinalSequence : Nat)
  (downstreamSession downstreamWireId downstreamFinalSequence : Option Nat)
  deriving DecidableEq, Repr

/-- `RelayService`: circuits, who they belong to and lead to, and the legs of multipath circuits. -/
structure RelayService where
  circuits : OrderedMap Nat Circuit
  nextCircuitId : Nat
  circuitOwners : OrderedMap Nat Nat
  destinationHints : OrderedMap Nat Bytes
  circuitsByOwner : OrderedMap Bytes (List Nat)
  wireToInternal : OrderedMap (Nat ×ₗ Nat) Nat
  internalToWire : OrderedMap (Nat ×ₗ Nat) Nat
  pairedCircuits : OrderedMap Nat Nat
  readyCircuits : Finset Nat
  multipath : OrderedMap Nat MultipathScheduler
  multipathDestinations : OrderedMap Nat (OrderedMap Nat Nat)
  multipathReverse : OrderedMap Nat (Nat × Nat)
  multipathFrameMetadata : OrderedMap (Nat ×ₗ Nat) (Bool × Bool × Bool)
  pendingData : OrderedMap Nat (List RelayDataFrame)
  replayFences : OrderedMap Nat Nat
  persistence : Option RelayStore
  epoch : Nat
  limits : AdmissionLimits

namespace RelayService

def new : RelayService :=
  { circuits := .empty, nextCircuitId := 1, circuitOwners := .empty, destinationHints := .empty
    circuitsByOwner := .empty, wireToInternal := .empty, internalToWire := .empty, pairedCircuits := .empty
    readyCircuits := ∅, multipath := .empty, multipathDestinations := .empty, multipathReverse := .empty
    multipathFrameMetadata := .empty, pendingData := .empty, replayFences := .empty, persistence := none
    epoch := 0, limits := .community }

variable (s : RelayService)

/-- The owner of a circuit is a peer that lists it. -/
def Owns (peer : Bytes) (circuitId : Nat) : Prop := s.circuitsByOwner.Listed peer circuitId
  deriving Decidable

section
variable (circuitId : Nat)

def putCircuit (circuit : Circuit) : RelayService :=
  { s with circuits := s.circuits.insert circuitId circuit }

/-- A circuit enters the registry with its owner and the peer its data goes to. -/
def enter (circuit : Circuit) (ownerPeer destination : Bytes) : RelayService :=
  { s with
    circuits := s.circuits.insert circuitId circuit
    destinationHints := s.destinationHints.insert circuitId destination
    circuitsByOwner := s.circuitsByOwner.push ownerPeer circuitId }

def lead (peer : Bytes) : RelayService :=
  { s with destinationHints := s.destinationHints.insert circuitId peer }

def pair (first second : Nat) : RelayService :=
  { s with pairedCircuits := (s.pairedCircuits.insert first second).insert second first }

def markReady (first second : Nat) : RelayService :=
  { s with readyCircuits := insert second (insert first s.readyCircuits) }

/-! ### Persistence -/

/-- The first peer that lists the circuit, or the empty id. -/
def ownerPeer : Bytes :=
  ((s.circuitsByOwner.entries.find? fun entry => entry.2.contains circuitId).map Prod.fst).getD []

/-- The record of a circuit. The bytes it has forwarded are not part of it. -/
def record (circuit : Circuit) (replayUntilMs state : Nat) : RelayCircuitRecord :=
  { circuitId, epoch := s.epoch, ownerPeer := s.ownerPeer circuitId
    destinationPeer := (s.destinationHints.get? circuitId).getD []
    expiresAtMs := circuit.expiresAt, replayUntilMs, grantedByteQuota := circuit.grantedByteQuota
    bidirectional := circuit.bidirectional, privateHandling := circuit.privateHandling
    multipathGranted := (s.multipath.get? circuitId).isSome
    nextUpstreamSequence := circuit.nextRelaySequence
    nextDownstreamSequence := circuit.peerNextRelaySequence, state }

/-- `remove_other_epochs`, then the record of this epoch. -/
def persist (record : RelayCircuitRecord) : RelayService :=
  { s with
    persistence := s.persistence.map fun store =>
      (store.deleteWhere fun other => other.circuitId = record.circuitId ∧ other.epoch ≠ s.epoch).save record }

def persistCircuit : RelayService :=
  match s.circuits.get? circuitId with
  | none => s
  | some circuit =>
    s.persist (s.record circuitId circuit (saturatingAdd circuit.expiresAt 10000)
      (circuitStateCode circuit.state))

@[simp] theorem persistCircuit_circuits :
    (s.persistCircuit circuitId).circuits = s.circuits := by
  unfold persistCircuit
  split <;> rfl

def persistClosedCircuit (circuit : Circuit) (replayUntilMs : Nat) : RelayService :=
  s.persist (s.record circuitId circuit replayUntilMs (circuitStateCode .closed))

end

/-- The id of a record is not given out again before its replay window ends. -/
def fence (record : RelayCircuitRecord) : RelayService :=
  { s with
    nextCircuitId := max s.nextCircuitId (saturatingAdd record.circuitId 1)
    replayFences := s.replayFences.insert record.circuitId record.replayUntilMs }

variable (now : Nat)

/-- A record that stands for a live lease. -/
def restorable (record : RelayCircuitRecord) : Bool :=
  decide (now < record.replayUntilMs) && decide (record.state < circuitStateCode .closing) &&
    decide (now < record.expiresAtMs)

/-- A circuit takes over what its record has; it begins again with nothing forwarded. -/
def rebuild (circuit : Circuit) (record : RelayCircuitRecord) (now : Nat) : Circuit :=
  { circuit with
    expiresAt := record.expiresAtMs
    nextRelaySequence := record.nextUpstreamSequence
    peerNextRelaySequence := record.nextDownstreamSequence
    state := .opening
    idleDeadline := record.expiresAtMs
    lastActivity := now }

/-- The circuit of a record enters, with a scheduler if it had one. -/
def reenter (circuit : Circuit) (record : RelayCircuitRecord) : RelayService :=
  { s with
    multipath := if record.multipathGranted then s.multipath.insert record.circuitId (.new 64)
      else s.multipath }.enter record.circuitId circuit record.ownerPeer record.destinationPeer

/-- One turn of the loop of `restore`. -/
def restoreRecord (s : RelayService) (record : RelayCircuitRecord) : Except Halt RelayService :=
  if now ≥ record.replayUntilMs then
    .ok { s with persistence := s.persistence.map (·.erase (toLex (record.circuitId, record.epoch))) }
  else if record.state ≥ circuitStateCode .closing ∨ now ≥ record.expiresAtMs then .ok (s.fence record)
  else do
    let circuit ← Circuit.new record.circuitId now (record.expiresAtMs - now) record.grantedByteQuota
      record.bidirectional record.privateHandling
    return (s.fence record).reenter (rebuild circuit record now) record

/-- The records that `restore` goes through. -/
def leases : List RelayCircuitRecord :=
  ((s.persistence.map RelayStore.latest).getD .empty).entries.map Prod.snd

/-- `restore`, which meets the records in any order. -/
def restore (now : Nat) (traversal : Traversal RelayCircuitRecord) : Except Halt RelayService :=
  (traversal.order s.leases).foldlM (restoreRecord now) s

/-- The daemon starts again over the store it had, in a new epoch. -/
def restart (epoch now : Nat) (traversal : Traversal RelayCircuitRecord) : Except Halt RelayService :=
  restore { new with persistence := s.persistence, epoch } now traversal

/-! ### Opening a circuit -/

/-- The loop of `open_circuit` over the fenced ids. With a turn more than there are fences, running out of turns
means that the last id came twice, where the addition saturates. -/
def nextUnfenced (fences : OrderedMap Nat Nat) : Nat → Nat → Except Halt Nat
  | 0, _ => .error .loop
  | turns + 1, circuitId =>
    if (fences.get? circuitId).isSome then nextUnfenced fences turns (saturatingAdd circuitId 1)
    else .ok circuitId

/-- The most recent unpaired circuit of the destination whose data goes to the owner. -/
def reciprocal (ownerPeer destination : Bytes) : Option Nat :=
  ((s.circuitsByOwner.get? destination).getD []).reverse.find? fun candidate =>
    (s.pairedCircuits.get? candidate).isNone && s.destinationHints.get? candidate == some ownerPeer

/-- A change of the paths of a circuit's scheduler. -/
def changeScheduler (circuitId : Nat)
    (change : MultipathScheduler → Except MultipathError MultipathScheduler) :
    Except RelayError Unit × RelayService :=
  match s.multipath.get? circuitId with
  | none => (.error .multipathNotNegotiated, s)
  | some scheduler =>
    match change scheduler with
    | .error e => (.error (.multipathPath e), s)
    | .ok scheduler => (.ok (), { s with multipath := s.multipath.insert circuitId scheduler })

theorem changeScheduler_eq (circuitId : Nat)
    (change : MultipathScheduler → Except MultipathError MultipathScheduler) :
    (s.changeScheduler circuitId change).2 =
      { s with multipath := (s.changeScheduler circuitId change).2.multipath } := by
  unfold changeScheduler
  split
  · rfl
  split <;> rfl

/-- `scheduler.add_path(0, 1)` where there is a scheduler. -/
def addPrimaryPath (circuitId : Nat) : RelayService :=
  (s.changeScheduler circuitId fun scheduler => scheduler.addPath 0 1).2

/-- The scheduler of a new circuit, with its primary path. -/
def newScheduler : MultipathScheduler :=
  match (MultipathScheduler.new 64).addPath 0 1 with
  | .error _ => .new 64
  | .ok scheduler => scheduler

/-- An id is used up, and gets a scheduler if several paths were asked for. -/
def allocate (circuitId : Nat) (multipath : Bool) : RelayService :=
  { s with
    nextCircuitId := saturatingAdd circuitId 1
    multipath := if multipath then s.multipath.insert circuitId newScheduler else s.multipath }

/-- A new circuit is joined to its reciprocal leg, if there is one. -/
def pairReciprocal (circuitId : Nat) (ownerPeer destination : Bytes) : RelayService :=
  if destination.isEmpty then s
  else
    match s.reciprocal ownerPeer destination with
    | none => s
    | some partner => ((s.pair circuitId partner).markReady circuitId partner).addPrimaryPath circuitId

/-- An accepted circuit gets an id behind all replay fences, is persisted and paired with its reciprocal. -/
def openCircuit (request : CircuitOpenRequest) (ownerPeer : Bytes) (now : Nat) :
    Except Halt (Except RelayError CircuitOpenResult × RelayService) :=
  match evaluateOpen s.limits request.peerCircuits request.requestedLifetimeMs request.requestedByteQuota
    request.flags with
  | .accepted grantedLifetimeMs grantedByteQuota maximumRelayPayload => do
    let multipathRequested :=
      request.multipath && s.limits.allowMultipath && decide (s.limits.maxMultipathPaths ≥ 2)
    let circuitId ← nextUnfenced s.replayFences (s.replayFences.size + 1) s.nextCircuitId
    let circuit ← Circuit.new circuitId now grantedLifetimeMs grantedByteQuota request.bidirectional
      request.privateHandling
    let s := s.allocate circuitId multipathRequested
    let s := (s.enter circuitId circuit ownerPeer request.destinationHint).persistCircuit circuitId
    return (.ok { circuitId, grantedLifetimeMs, grantedByteQuota, maximumRelayPayload, multipathGranted := false },
      s.pairReciprocal circuitId ownerPeer request.destinationHint)
  | decision => .ok (.error (.openRefused decision), s)

theorem openCircuit_cases {s s' : RelayService} {request : CircuitOpenRequest} {ownerPeer : Bytes} {now : Nat}
    {answer : Except RelayError CircuitOpenResult}
    (opened : s.openCircuit request ownerPeer now = .ok (answer, s')) :
    (∃ e, answer = .error e ∧ s' = s) ∨
      ∃ result c lifetimeMs byteQuota multipath, answer = .ok result ∧
        nextUnfenced s.replayFences (s.replayFences.size + 1) s.nextCircuitId = .ok result.circuitId ∧
        Circuit.new result.circuitId now lifetimeMs byteQuota request.bidirectional request.privateHandling =
          .ok c ∧
        s' = (((s.allocate result.circuitId multipath).enter result.circuitId c ownerPeer
          request.destinationHint).persistCircuit result.circuitId).pairReciprocal result.circuitId ownerPeer
            request.destinationHint := by
  unfold openCircuit at opened
  split at opened
  · obtain ⟨circuitId, free, opened⟩ := bind_ok.mp opened
    obtain ⟨c, made, opened⟩ := bind_ok.mp opened
    cases opened
    exact .inr ⟨_, c, _, _, _, rfl, free, made, rfl⟩
  · cases opened
    exact .inl ⟨_, rfl, rfl⟩

/-! ### Wire ids -/

def recordCircuitOwner (circuitId sessionId : Nat) : RelayService :=
  { s with circuitOwners := s.circuitOwners.insert circuitId sessionId }

/-- A wire id stands for one circuit per session. -/
def bindWireCircuit (sessionId wireCircuitId internalCircuitId : Nat) : Except RelayError RelayService :=
  if (s.wireToInternal.get? (toLex (sessionId, wireCircuitId))).isSome then
    .error (.wireCircuitExists wireCircuitId sessionId)
  else
    .ok { s with
      wireToInternal := s.wireToInternal.insert (toLex (sessionId, wireCircuitId)) internalCircuitId
      internalToWire := s.internalToWire.insert (toLex (sessionId, internalCircuitId)) wireCircuitId }

theorem bindWireCircuit_ok {s s' : RelayService} {sessionId wireCircuitId circuitId : Nat}
    (bound : s.bindWireCircuit sessionId wireCircuitId circuitId = .ok s') :
    s.wireToInternal.get? (toLex (sessionId, wireCircuitId)) = none ∧
      s' = { s with
        wireToInternal := s.wireToInternal.insert (toLex (sessionId, wireCircuitId)) circuitId
        internalToWire := s.internalToWire.insert (toLex (sessionId, circuitId)) wireCircuitId } := by
  unfold bindWireCircuit at bound
  split at bound
  · cases bound
  · next free =>
    cases bound
    exact ⟨by simpa using free, rfl⟩

def resolveWireCircuit (sessionId wireCircuitId : Nat) : Option Nat :=
  s.wireToInternal.get? (toLex (sessionId, wireCircuitId))

def wireCircuitId (sessionId internalCircuitId : Nat) : Nat :=
  (s.internalToWire.get? (toLex (sessionId, internalCircuitId))).getD internalCircuitId

/-- The id a circuit goes by towards its owner: the wire id on the owner's session, or else the local id. -/
def outwardId (circuitId : Nat) : Nat :=
  match s.circuitOwners.get? circuitId with
  | none => circuitId
  | some sessionId => s.wireCircuitId sessionId circuitId

/-! ### Legs -/

/-- A destination leg is active as soon as the circuit it serves is. -/
def openAs (destination source : Circuit) (now : Nat) : Except Halt Circuit :=
  if source.state ≠ .opening then destination.accept now else .ok destination

/-- A leg enters, owned by the destination and paired with the circuit it serves. -/
def pairDestination (sourceCircuitId leg : Nat) (destination : Circuit)
    (destinationSession : Nat) (sourcePeer destinationPeer : Bytes) : RelayService :=
  let s := s.allocate leg false
  let s := (s.enter leg destination destinationPeer sourcePeer).recordCircuitOwner leg destinationSession
  (s.pair sourceCircuitId leg).markReady sourceCircuitId leg

def joinDestination (sourceCircuitId leg : Nat) (destination : Circuit)
    (destinationSession : Nat) (sourcePeer destinationPeer : Bytes) : RelayService :=
  (s.pairDestination sourceCircuitId leg destination destinationSession sourcePeer
    destinationPeer).addPrimaryPath sourceCircuitId

/-- A leg whose wire id is taken goes again. -/
def leaveDestination (sourceCircuitId leg : Nat) (destinationPeer : Bytes) : RelayService :=
  { s with
    pairedCircuits := (s.pairedCircuits.erase sourceCircuitId).erase leg
    readyCircuits := (s.readyCircuits.erase sourceCircuitId).erase leg
    circuitOwners := s.circuitOwners.erase leg
    destinationHints := s.destinationHints.erase leg
    circuits := s.circuits.erase leg
    circuitsByOwner := s.circuitsByOwner.retainAt destinationPeer (· ≠ leg) }

/-- A new circuit to the destination, under the limits of the source circuit; undone if its wire id is taken. -/
def attachDestinationLeg (sourceCircuitId destinationSession destinationWireId : Nat)
    (sourcePeer destinationPeer : Bytes) (now : Nat) : Except Halt (Except RelayError Nat × RelayService) :=
  if (s.pairedCircuits.get? sourceCircuitId).isSome then .ok (.error .alreadyHasDestinationLeg, s)
  else
    match s.circuits.get? sourceCircuitId with
    | none => .ok (.error (.unknownCircuit sourceCircuitId), s)
    | some source => do
      let lifetime := max (source.expiresAt - now) 1000
      let leg := s.nextCircuitId
      let destination ← Circuit.new leg now lifetime source.grantedByteQuota source.bidirectional
        source.privateHandling
      let destination ← openAs destination source now
      let s := s.joinDestination sourceCircuitId leg destination destinationSession sourcePeer destinationPeer
      match s.bindWireCircuit destinationSession destinationWireId leg with
      | .error e => return (.error e, s.leaveDestination sourceCircuitId leg destinationPeer)
      | .ok s => return (.ok leg, (s.persistCircuit sourceCircuitId).persistCircuit leg)

/-- A destination leg is refused, or a circuit enters for it and stays if its wire id was free. -/
theorem attachDestinationLeg_cases {s s' : RelayService} {sourceId session wire now : Nat}
    {sourcePeer destinationPeer : Bytes} {answer : Except RelayError Nat}
    (attached : s.attachDestinationLeg sourceId session wire sourcePeer destinationPeer now = .ok (answer, s')) :
    (∃ e, answer = .error e ∧ s' = s) ∨
      ∃ source leg destination lifetime, s.pairedCircuits.get? sourceId = none ∧
        s.circuits.get? sourceId = some source ∧
        Circuit.new s.nextCircuitId now lifetime source.grantedByteQuota source.bidirectional
          source.privateHandling = .ok leg ∧ openAs leg source now = .ok destination ∧
        let id := s.nextCircuitId
        let joined := s.joinDestination sourceId id destination session sourcePeer destinationPeer
        (∃ e, answer = .error e ∧ s' = joined.leaveDestination sourceId id destinationPeer) ∨
          ∃ s₂, joined.bindWireCircuit session wire id = .ok s₂ ∧ answer = .ok id ∧
            s' = (s₂.persistCircuit sourceId).persistCircuit id := by
  unfold attachDestinationLeg at attached
  split at attached
  · cases attached
    exact .inl ⟨_, rfl, rfl⟩
  next unpaired =>
  split at attached
  · cases attached
    exact .inl ⟨_, rfl, rfl⟩
  next source held =>
  obtain ⟨leg, made, attached⟩ := bind_ok.mp attached
  obtain ⟨destination, opened, attached⟩ := bind_ok.mp attached
  refine .inr ⟨source, leg, destination, _, by simpa using unpaired, held, made, opened, ?_⟩
  dsimp only at attached
  split at attached
  · cases attached
    exact .inl ⟨_, rfl, rfl⟩
  · next s₂ bound =>
    cases attached
    exact .inr ⟨s₂, bound, rfl, rfl⟩

/-- A downstream circuit takes over the bounds of the circuit it serves. -/
def limitTo (downstream source : Circuit) : Circuit :=
  { downstream with
    expiresAt := min downstream.expiresAt source.expiresAt
    idleDeadline := min downstream.idleDeadline source.idleDeadline
    grantedByteQuota := min downstream.grantedByteQuota source.grantedByteQuota
    bidirectional := downstream.bidirectional && source.bidirectional
    privateHandling := downstream.privateHandling && source.privateHandling }

/-- Nobody is listed without circuits. -/
def dropIfEmpty (index : OrderedMap Bytes (List Nat)) (peer : Bytes) : OrderedMap Bytes (List Nat) :=
  if index.get? peer = some [] then index.erase peer else index

section
variable (sourceCircuitId downstreamCircuitId : Nat)

/-- An opened circuit becomes the downstream leg of another: each leads to the other's peer. -/
def pairDownstream (downstream : Circuit)
    (downstreamSession : Nat) (sourcePeer downstreamPeer : Bytes) : RelayService :=
  let s := (s.lead sourceCircuitId downstreamPeer).lead downstreamCircuitId sourcePeer
  let s := (s.recordCircuitOwner downstreamCircuitId downstreamSession).putCircuit downstreamCircuitId downstream
  s.pair sourceCircuitId downstreamCircuitId

def joinDownstream (downstream : Circuit)
    (downstreamSession : Nat) (sourcePeer downstreamPeer : Bytes) : RelayService :=
  (s.pairDownstream sourceCircuitId downstreamCircuitId downstream downstreamSession sourcePeer
    downstreamPeer).addPrimaryPath sourceCircuitId

/-- A downstream circuit whose wire id is taken goes again, and the other leads where it led before. -/
def leaveDownstream
    (priorSourceHint downstreamPeer : Bytes) : RelayService :=
  { s with
    pairedCircuits := (s.pairedCircuits.erase sourceCircuitId).erase downstreamCircuitId
    readyCircuits := (s.readyCircuits.erase sourceCircuitId).erase downstreamCircuitId
    circuitOwners := s.circuitOwners.erase downstreamCircuitId
    destinationHints := (s.destinationHints.insert sourceCircuitId priorSourceHint).erase downstreamCircuitId
    circuits := s.circuits.erase downstreamCircuitId
    circuitsByOwner := dropIfEmpty
      (s.circuitsByOwner.retainAt downstreamPeer (· ≠ downstreamCircuitId)) downstreamPeer }

end

/-- Two circuits become partners; undone if the wire id is taken. -/
def attachDownstreamLeg (sourceCircuitId downstreamCircuitId downstreamSession downstreamWireId : Nat)
    (sourcePeer downstreamPeer : Bytes) : Except RelayError Nat × RelayService :=
  if sourceCircuitId = downstreamCircuitId then (.error .circuitsMustDiffer, s)
  else if (s.pairedCircuits.get? sourceCircuitId).isSome ∨ (s.pairedCircuits.get? downstreamCircuitId).isSome
    then (.error .alreadyHasDestinationLeg, s)
  else
    match s.circuits.get? sourceCircuitId, s.circuits.get? downstreamCircuitId with
    | none, _ => (.error (.unknownCircuit sourceCircuitId), s)
    | _, none => (.error (.unknownCircuit downstreamCircuitId), s)
    | some source, some downstream =>
      let priorSourceHint := (s.destinationHints.get? sourceCircuitId).getD []
      let s := s.joinDownstream sourceCircuitId downstreamCircuitId (limitTo downstream source)
        downstreamSession sourcePeer downstreamPeer
      match s.bindWireCircuit downstreamSession downstreamWireId downstreamCircuitId with
      | .error e =>
        (.error e, s.leaveDownstream sourceCircuitId downstreamCircuitId priorSourceHint downstreamPeer)
      | .ok s =>
        (.ok downstreamCircuitId, (s.persistCircuit sourceCircuitId).persistCircuit downstreamCircuitId)

/-- A downstream leg is refused, or two circuits without partners become each other's, for good if the wire id
was free. -/
theorem attachDownstreamLeg_cases (sourceId downstreamId session wire : Nat)
    (sourcePeer downstreamPeer : Bytes) :
    let outcome := s.attachDownstreamLeg sourceId downstreamId session wire sourcePeer downstreamPeer
    (∃ e, outcome = (.error e, s)) ∨
      ∃ source downstream, sourceId ≠ downstreamId ∧ s.pairedCircuits.get? sourceId = none ∧
        s.pairedCircuits.get? downstreamId = none ∧ s.circuits.get? sourceId = some source ∧
        s.circuits.get? downstreamId = some downstream ∧
        let joined := s.joinDownstream sourceId downstreamId (limitTo downstream source) session sourcePeer
          downstreamPeer
        (∃ e, outcome = (.error e, joined.leaveDownstream sourceId downstreamId
            ((s.destinationHints.get? sourceId).getD []) downstreamPeer)) ∨
          ∃ s₂, joined.bindWireCircuit session wire downstreamId = .ok s₂ ∧
            outcome = (.ok downstreamId, (s₂.persistCircuit sourceId).persistCircuit downstreamId) := by
  unfold attachDownstreamLeg
  dsimp only
  split
  · exact .inl ⟨_, rfl⟩
  next differ =>
  split
  · exact .inl ⟨_, rfl⟩
  next unpaired =>
  split
  · exact .inl ⟨_, rfl⟩
  · exact .inl ⟨_, rfl⟩
  next source downstream served held =>
  obtain ⟨first, second⟩ := not_or.mp unpaired
  refine .inr ⟨source, downstream, differ, by simpa using first, by simpa using second, served, held, ?_⟩
  split
  · exact .inl ⟨_, rfl⟩
  · next s₂ bound => exact .inr ⟨s₂, bound, rfl⟩

/-! ### Alternate legs of multipath circuits -/

/-- The limit counts usable paths, and only for a path that is new. -/
def addMultipathPath (circuitId pathId weight : Nat) : Except RelayError Unit × RelayService :=
  match s.multipath.get? circuitId with
  | none => (.error .multipathNotNegotiated, s)
  | some scheduler =>
    if scheduler.usable.size ≥ s.limits.maxMultipathPaths ∧ scheduler.paths.get? pathId = none then
      (.error .multipathPathLimit, s)
    else s.changeScheduler circuitId fun scheduler => scheduler.addPath pathId weight

def failMultipathPath (circuitId pathId : Nat) : Except RelayError Unit × RelayService :=
  s.changeScheduler circuitId fun scheduler => scheduler.failPath pathId

def activateMultipathPath (circuitId pathId : Nat) : Except RelayError Unit × RelayService :=
  s.changeScheduler circuitId fun scheduler => scheduler.activatePath pathId

/-- `fail_multipath_destination`: the first path that is met whose leg leads to a peer is retired. -/
def failMultipathDestination (circuitId : Nat) (destination : Bytes) (traversal : Traversal (Nat × Nat)) :
    Bool × RelayService :=
  match (traversal.order (s.multipathDestinations.filedAt circuitId).entries).find? fun entry =>
    s.destinationHints.get? entry.2 == some destination with
  | none => (false, s)
  | some (pathId, _) =>
    match s.failMultipathPath circuitId pathId with
    | (.ok _, s) => (true, s)
    | (.error _, s) => (false, s)

/-- `add_multipath_destination`: the new path is failed until its leg is accepted. -/
def addMultipathDestination
    (sourceCircuitId destinationCircuitId pathId weight : Nat) : Except RelayError Unit × RelayService :=
  if (s.multipath.get? sourceCircuitId).isNone then (.error .multipathNotNegotiated, s)
  else
    let s := { s with
      multipathDestinations := s.multipathDestinations.file sourceCircuitId pathId destinationCircuitId
      multipathReverse := s.multipathReverse.insert destinationCircuitId (sourceCircuitId, pathId) }
    match s.addMultipathPath sourceCircuitId pathId weight with
    | (.error e, s) =>
      (.error e, { s with
        multipathDestinations := s.multipathDestinations.unfile sourceCircuitId pathId
        multipathReverse := s.multipathReverse.erase destinationCircuitId })
    | (.ok _, s) => (.ok (), (s.failMultipathPath sourceCircuitId pathId).2)

/-- An opened circuit becomes a leg that leads to the source's peer. -/
def joinAlternate (downstreamCircuitId : Nat) (downstream : Circuit)
    (downstreamSession : Nat) (sourcePeer : Bytes) : RelayService :=
  ((s.lead downstreamCircuitId sourcePeer).recordCircuitOwner downstreamCircuitId downstreamSession).putCircuit
    downstreamCircuitId downstream

/-- A leg that could not be attached leads nowhere; it stays registered. -/
def leaveAlternate (downstreamCircuitId : Nat) : RelayService :=
  { s with
    readyCircuits := s.readyCircuits.erase downstreamCircuitId
    circuitOwners := s.circuitOwners.erase downstreamCircuitId
    destinationHints := s.destinationHints.erase downstreamCircuitId }

/-- A circuit has no wire id on a session any more. -/
def unbindWire (sessionId internalCircuitId : Nat) : RelayService :=
  { s with
    wireToInternal := s.wireToInternal.filter fun entry =>
      !((ofLex entry.1).1 == sessionId && entry.2 == internalCircuitId)
    internalToWire := s.internalToWire.erase (toLex (sessionId, internalCircuitId)) }

/-- `attach_additional_downstream_leg`. The downstream peer is an argument of the source that it does
not use. -/
def attachAdditionalDownstreamLeg
    (sourceCircuitId downstreamCircuitId downstreamSession downstreamWireId : Nat) (sourcePeer : Bytes)
    (pathId weight : Nat) : Except RelayError Nat × RelayService :=
  if sourceCircuitId = downstreamCircuitId then (.error .circuitsMustDiffer, s)
  else if (s.multipath.get? sourceCircuitId).isNone then (.error .multipathNotNegotiated, s)
  else if ((s.multipathDestinations.filedAt sourceCircuitId).get? pathId).isSome then
    (.error .multipathPathExists, s)
  else
    match s.circuits.get? sourceCircuitId, s.circuits.get? downstreamCircuitId with
    | none, _ => (.error (.unknownCircuit sourceCircuitId), s)
    | _, none => (.error (.unknownCircuit downstreamCircuitId), s)
    | some source, some downstream =>
      let s := s.joinAlternate downstreamCircuitId (limitTo downstream source) downstreamSession sourcePeer
      match s.bindWireCircuit downstreamSession downstreamWireId downstreamCircuitId with
      | .error e => (.error e, s.leaveAlternate downstreamCircuitId)
      | .ok s =>
        match s.addMultipathDestination sourceCircuitId downstreamCircuitId pathId weight with
        | (.error e, s) =>
          (.error e, (s.leaveAlternate downstreamCircuitId).unbindWire downstreamSession downstreamCircuitId)
        | (.ok _, s) =>
          (.ok downstreamCircuitId, (s.persistCircuit sourceCircuitId).persistCircuit downstreamCircuitId)

/-- An alternate leg is refused, or a circuit becomes one under a free path; it stays one if its wire id was
free and the scheduler took the path. -/
theorem attachAdditionalDownstreamLeg_cases (sourceId downstreamId session wire : Nat)
    (sourcePeer : Bytes) (pathId weight : Nat) :
    let outcome := s.attachAdditionalDownstreamLeg sourceId downstreamId session wire sourcePeer pathId weight
    (∃ e, outcome = (.error e, s)) ∨
      ∃ source downstream, sourceId ≠ downstreamId ∧ (s.multipath.get? sourceId).isSome ∧
        (s.multipathDestinations.filedAt sourceId).get? pathId = none ∧
        s.circuits.get? sourceId = some source ∧ s.circuits.get? downstreamId = some downstream ∧
        let joined := s.joinAlternate downstreamId (limitTo downstream source) session sourcePeer
        (∃ e, outcome = (.error e, joined.leaveAlternate downstreamId)) ∨
          ∃ s₂ s₃, joined.bindWireCircuit session wire downstreamId = .ok s₂ ∧
            ((∃ e, s₂.addMultipathDestination sourceId downstreamId pathId weight = (.error e, s₃) ∧
                outcome = (.error e, (s₃.leaveAlternate downstreamId).unbindWire session downstreamId)) ∨
              s₂.addMultipathDestination sourceId downstreamId pathId weight = (.ok (), s₃) ∧
                outcome = (.ok downstreamId, (s₃.persistCircuit sourceId).persistCircuit downstreamId)) := by
  unfold attachAdditionalDownstreamLeg
  dsimp only
  split
  · exact .inl ⟨_, rfl⟩
  next differ =>
  split
  · exact .inl ⟨_, rfl⟩
  next scheduled =>
  split
  · exact .inl ⟨_, rfl⟩
  next free =>
  split
  · exact .inl ⟨_, rfl⟩
  · exact .inl ⟨_, rfl⟩
  next source downstream served held =>
  refine .inr ⟨source, downstream, differ, ?_, by simpa using free, served, held, ?_⟩
  · rwa [← Option.not_isNone, Bool.not_eq_true', Bool.eq_false_iff]
  split
  · exact .inl ⟨_, rfl⟩
  next s₂ bound =>
  split
  · next e s₃ result => exact .inr ⟨s₂, s₃, bound, .inl ⟨e, result, rfl⟩⟩
  · next s₃ result => exact .inr ⟨s₂, s₃, bound, .inr ⟨result, rfl⟩⟩

/-! ### Closing and expiry -/

/-- Everything a circuit is bound to, except its partner. -/
def unbind (circuitId : Nat) : RelayService :=
  { s with
    circuitOwners := s.circuitOwners.erase circuitId
    wireToInternal := s.wireToInternal.filter fun entry => entry.2 ≠ circuitId
    internalToWire := s.internalToWire.filter fun entry => (ofLex entry.1).2 ≠ circuitId
    destinationHints := s.destinationHints.erase circuitId
    readyCircuits := s.readyCircuits.erase circuitId
    pendingData := s.pendingData.erase circuitId
    multipath := s.multipath.erase circuitId
    multipathReverse := (((s.multipathDestinations.filedAt circuitId).entries.map Prod.snd).foldl
      OrderedMap.erase s.multipathReverse).erase circuitId
    multipathDestinations := (s.multipathDestinations.erase circuitId).retainFiled (· ≠ circuitId)
    multipathFrameMetadata := s.multipathFrameMetadata.filter fun entry => (ofLex entry.1).1 ≠ circuitId
    circuitsByOwner := s.circuitsByOwner.retainItems (· ≠ circuitId) }

/-- A circuit and its partner are no longer paired. -/
def unpair (circuitId : Nat) : RelayService :=
  match s.pairedCircuits.get? circuitId with
  | none => s
  | some partner => { s with pairedCircuits := (s.pairedCircuits.erase circuitId).erase partner }

def changeCircuit (circuitId : Nat) (change : Circuit → Circuit) : RelayService :=
  match s.circuits.get? circuitId with
  | none => s
  | some circuit => s.putCircuit circuitId (change circuit)

/-- One turn of the second loop of `close_circuit`: a leg is fenced, written down as closed and unbound. -/
def retireLeg (s : RelayService) (leg : Nat) : RelayService :=
  let replayUntil := saturatingAdd now 10000
  let s := { s with replayFences := s.replayFences.insert leg replayUntil }
  match s.circuits.get? leg with
  | none => s.unbind leg
  | some circuit => (s.persistClosedCircuit leg circuit replayUntil).unbind leg

/-- `close_circuit`: the circuit and its partner, which stay registered until a sweep has drained them. -/
def closeCircuit (s : RelayService) (circuitId now : Nat) : Except RelayError Unit × RelayService :=
  if (s.circuits.get? circuitId).isNone then (.error (.unknownCircuit circuitId), s)
  else
    let legs := circuitId :: ((s.pairedCircuits.get? circuitId).filter (· ≠ circuitId)).toList
    let closed := legs.foldl (fun s leg => s.changeCircuit leg (·.closeCircuit now)) s
    (.ok (), (legs.foldl (retireLeg now) closed).unpair circuitId)

/-- A closed circuit leaves a replay fence and a closed record behind. -/
def purgeClosedCircuit (s : RelayService) (circuitId : Nat) : RelayService :=
  let replayUntil := (s.replayFences.get? circuitId).getD (saturatingAdd now 10000)
  let s := { s with replayFences := s.replayFences.insert circuitId replayUntil }
  let s := match s.circuits.get? circuitId with
    | none => s
    | some circuit => s.persistClosedCircuit circuitId circuit replayUntil
  { s.unbind circuitId with circuits := s.circuits.erase circuitId }.unpair circuitId

/-- What the peers of an expiring circuit are told. -/
def expiryNotification (circuitId : Nat) (reason : RelayReason) : RelayExpiryNotification :=
  let finalSequence (id : Nat) := (s.circuits.get? id).map fun circuit => circuit.nextRelaySequence - 1
  let partner := s.pairedCircuits.get? circuitId
  { reason, upstreamSession := s.circuitOwners.get? circuitId, upstreamWireId := s.outwardId circuitId
    upstreamFinalSequence := (finalSequence circuitId).getD 0
    downstreamSession := partner.bind fun partner => s.circuitOwners.get? partner
    downstreamWireId := partner.map s.outwardId
    downstreamFinalSequence := partner.bind finalSequence }

/-- One turn of the main loop of `sweep`: a closing circuit drains, one past its time is closed together
with its partner. -/
def sweepCircuit (result : List RelayExpiryNotification × RelayService) (circuitId : Nat) :
    List RelayExpiryNotification × RelayService :=
  let (notifications, s) := result
  match s.circuits.get? circuitId with
  | none => (notifications, s)
  | some circuit =>
    if circuit.state = .closing ∨ circuit.state = .draining then
      (notifications, s.putCircuit circuitId (circuit.drainCircuit now))
    else
      match circuit.expiryReason now with
      | none => (notifications, s)
      | some reason =>
        let notification := s.expiryNotification circuitId reason
        let s := (s.putCircuit circuitId (circuit.closeCircuit now)).persistCircuit circuitId
        let s := match s.pairedCircuits.get? circuitId with
          | none => s
          | some partner =>
            (s.changeCircuit partner fun circuit =>
              if circuit.state = .closing ∨ circuit.state = .draining then circuit
              else circuit.closeCircuit now).persistCircuit partner
        (notifications ++ [notification], s)

/-- A fence that has run out and guards no registered circuit goes, with its records. -/
def dropFence (circuitId : Nat) : RelayService :=
  { s with
    persistence := s.persistence.map fun store => store.deleteWhere fun record => record.circuitId = circuitId
    replayFences := s.replayFences.erase circuitId }

/-- `sweep`: fences that have run out go, circuits are closed or drained, and closed ones purged. -/
def sweep (now : Nat) (traversal : Traversal Nat) : List RelayExpiryNotification × RelayService :=
  let expiredFences := (s.replayFences.filter fun entry =>
    decide (entry.2 ≤ now) && (s.circuits.get? entry.1).isNone).entries.map Prod.fst
  let s := (traversal.order expiredFences).foldl dropFence s
  let ids := s.circuits.entries.map Prod.fst
  let (notifications, s) := (traversal.order ids).foldl (sweepCircuit now) ([], s)
  let closed := (s.circuits.filter fun entry => entry.2.state = .closed).entries.map Prod.fst
  (notifications, (traversal.order closed).foldl (purgeClosedCircuit now) s)

end RelayService
end UniversalMesh.Daemon
