import UniversalMesh.Daemon.RelayService

/-! `umcd/src/relay_service.rs`, the data path: `RELAY_DATA` is accepted on a circuit, waits for the downstream
leg to open, and is forwarded under a fresh sequence number on the partner's circuit. Frames of a multipath
circuit arrive on any of its legs and are put in order first. Then the calls of the service as steps of a run.
-/
namespace UniversalMesh.Daemon
open MachineWord Wire Relay OrderedMap

namespace RelayService

def maxPendingDataFramesPerCircuit : Nat := 64

/-- Data for a circuit whose downstream leg is not ready yet. -/
def queuePendingData (s : RelayService) (circuitId : Nat) (frame : RelayDataFrame) :
    Except RelayError Unit × RelayService :=
  let queue := (s.pendingData.get? circuitId).getD []
  if queue.length ≥ maxPendingDataFramesPerCircuit then
    (.error .pendingQueueFull, { s with pendingData := s.pendingData.insert circuitId queue })
  else (.ok (), { s with pendingData := s.pendingData.insert circuitId (queue ++ [frame]) })

/-- `activate_downstream`: an accepted leg opens the gate for both directions and gives back what was queued. -/
def activateDownstream (s : RelayService) (downstreamSession : Nat) (status : RelayStatusFrame) :
    Except RelayError (List RelayDataFrame) × RelayService :=
  if status.statusCode ≠ 1 then (.ok [], s)
  else
    match s.resolveWireCircuit downstreamSession status.circuitId with
    | none => (.error (.unknownDownstreamCircuit status.circuitId downstreamSession), s)
    | some downstream =>
      let reverse := s.multipathReverse.get? downstream
      match (s.pairedCircuits.get? downstream).or (reverse.map Prod.fst) with
      | none => (.error .noUpstreamLeg, s)
      | some upstream =>
        let s := s.markReady downstream upstream
        let s := match reverse with
          | none => s
          | some (source, pathId) => (s.activateMultipathPath source pathId).2
        let first := (s.pendingData.get? upstream).getD []
        let pendingData := s.pendingData.erase upstream
        let second := (pendingData.get? downstream).getD []
        (.ok (first ++ second), { s with pendingData := pendingData.erase downstream })

/-! ### Accepting data -/

/-- The circuit that keeps the sequence and the quota: the source of an alternate leg, or the circuit
itself. -/
def logicalSource (s : RelayService) (circuitId : Nat) : Nat :=
  match s.multipathReverse.get? circuitId with
  | none => circuitId
  | some (source, _) => source

/-- The circuit that a frame is charged to and whose sequence it belongs to. -/
def chargedCircuit (s : RelayService) (circuitId : Nat) : Nat :=
  if (s.multipath.get? (s.logicalSource circuitId)).isSome then s.logicalSource circuitId else circuitId

/-- A circuit leaves `Opening` with the first payload it takes. -/
def activate (c : Circuit) (now : Nat) : Except Halt Circuit :=
  if c.state = .opening then c.accept now else .ok c

/-- The upstream direction closes with a final frame. -/
def closeUpstream (c : Circuit) (fin : Bool) : Except ForwardError Circuit :=
  if fin then c.applyFin true else .ok c

/-- The tail of `accept_upstream_single`: the circuit becomes active, may close its upstream direction, and is
touched. -/
def settle (c : Circuit) (fin : Bool) (now : Nat) : Except Halt (Except ForwardError Unit × Circuit) := do
  let c ← activate c now
  match closeUpstream c fin with
  | .error e => return (.error e, c)
  | .ok c =>
    let c ← c.touch now
    return (.ok (), c)

/-- `accept_upstream_single`; the answer is whether the frame was new. -/
def acceptUpstreamSingle (s : RelayService) (circuitId sequence : Nat) (fin : Bool) (data : Bytes)
    (now : Nat) : Except Halt (Except RelayError Bool × RelayService) :=
  match s.circuits.get? circuitId with
  | none => .ok (.error (.unknownCircuit circuitId), s)
  | some circuit =>
    if circuit.state = .halfClosedUpstream then .ok (.error .upstreamHalfClosed, s)
    else
      match circuit.acceptUpstreamData sequence fin data s.limits.maxPayload with
      | (.error .duplicateDiscarded, circuit) => .ok (.ok false, s.putCircuit circuitId circuit)
      | (.error e, circuit) => .ok (.error (.forwardRejected e), s.putCircuit circuitId circuit)
      | (.ok _, circuit) => do
        match ← settle circuit fin now with
        | (.error e, circuit) => return (.error (.forwardRejected e), s.putCircuit circuitId circuit)
        | (.ok _, circuit) => return (.ok true, (s.putCircuit circuitId circuit).persistCircuit circuitId)

/-- What a circuit has become when it has taken a new payload. -/
structure Taken (c : Circuit) (sequence : Nat) (data : Bytes) (c' : Circuit) : Prop where
  new : c.nextRelaySequence ≤ sequence
  room : c.bytesForwarded + data.length ≤ c.grantedByteQuota
  next : c'.nextRelaySequence = (sequence + 1) % 2 ^ 64
  charged : c'.bytesForwarded = c.bytesForwarded + data.length
  quota : c'.grantedByteQuota = c.grantedByteQuota
  last : c'.lastAcceptedData = some data
  expires : c'.expiresAt = c.expiresAt

/-- A circuit that would not take a payload, whatever the time is. -/
def Declines (c : Circuit) (sequence : Nat) (fin : Bool) (data : Bytes) (maxPayload : Nat) : Prop :=
  c.state = .halfClosedUpstream ∨ c.refuses fin data maxPayload ∨
    sequence < c.nextRelaySequence ∧ c.lastAcceptedData ≠ some data ∨
    c.nextRelaySequence ≤ sequence ∧ c.grantedByteQuota < c.bytesForwarded + data.length
  deriving Decidable

variable {s : RelayService} {c : Circuit} {now : Nat}

theorem closeUpstream_ok (fin : Bool) (open_ : c.state ≠ .halfClosedUpstream) :
    ∃ state, closeUpstream c fin = .ok { c with state } := by
  cases fin with
  | false => exact ⟨c.state, rfl⟩
  | true => exact c.applyFin_ok open_

theorem settle_of_lt (open_ : c.state ≠ .halfClosedUpstream) (late : c.expiresAt < now) :
    settle c fin now = .error .panic := by
  rw [settle, activate]
  by_cases opening : c.state = .opening
  · have stops : c.accept now = .error .panic := Circuit.touch_of_lt late
    rw [if_pos opening, stops]
    rfl
  · obtain ⟨state, closed⟩ := closeUpstream_ok fin open_
    have stops : { c with state }.touch now = .error .panic := Circuit.touch_of_lt late
    rw [if_neg opening, ok_bind, closed]
    dsimp only
    rw [stops]
    rfl

theorem settle_of_le (fin : Bool) (open_ : c.state ≠ .halfClosedUpstream) (inTime : now ≤ c.expiresAt) :
    ∃ state lastActivity idleDeadline,
      settle c fin now = .ok (.ok (), { c with state, lastActivity, idleDeadline }) := by
  -- the circuit in front of the last touch, which only has another state and other deadlines
  have before : ∃ state lastActivity idleDeadline,
      activate c now = .ok { c with state, lastActivity, idleDeadline } ∧ state ≠ .halfClosedUpstream := by
    unfold activate
    by_cases opening : c.state = .opening
    · have touched : c.accept now = .ok _ := Circuit.touch_ok.mpr ⟨inTime, rfl⟩
      exact ⟨.active, _, _, by rw [if_pos opening, touched], by decide⟩
    · exact ⟨c.state, c.lastActivity, c.idleDeadline, if_neg opening, open_⟩
  obtain ⟨state, lastActivity, idleDeadline, first, still⟩ := before
  obtain ⟨state', closed⟩ := closeUpstream_ok (c := { c with state, lastActivity, idleDeadline }) fin still
  have touched := Circuit.touch_ok (c := { c with state := state', lastActivity, idleDeadline }).mpr
    ⟨inTime, rfl⟩
  refine ⟨state', now, max now (min (saturatingAdd now defaultIdleTimeoutMs) c.expiresAt), ?_⟩
  rw [settle, first, ok_bind, closed]
  dsimp only
  rw [touched]
  rfl

variable {circuitId : Nat} {s' s : RelayService}

theorem putCircuit_of_get? (found : s.circuits.get? circuitId = some c) : s.putCircuit circuitId c = s := by
  rw [putCircuit, insert_of_get? found]

section
variable (s : RelayService) (circuitId sequence : Nat) (fin : Bool) (data : Bytes) (now : Nat)

/-- The frame is refused and the service left alone, is an exact duplicate, uses up the sequence number without
room in the quota, is taken in time, or would have been taken and panics. -/
inductive Single : Except Halt (Except RelayError Bool × RelayService) → Prop where
  | refused (e : RelayError) : Single (.ok (.error e, s))
  | duplicate {c : Circuit} : s.circuits.get? circuitId = some c → ¬ Declines c sequence fin data s.limits.maxPayload →
      sequence < c.nextRelaySequence → c.lastAcceptedData = some data → Single (.ok (.ok false, s))
  | beyond {c : Circuit} (e : RelayError) : s.circuits.get? circuitId = some c → c.nextRelaySequence ≤ sequence →
      Single (.ok (.error e, s.putCircuit circuitId { c with nextRelaySequence := (sequence + 1) % 2 ^ 64 }))
  | late {c : Circuit} : s.circuits.get? circuitId = some c → ¬ Declines c sequence fin data s.limits.maxPayload →
      c.expiresAt < now → Single (.error .panic)
  | taken {c c' : Circuit} : s.circuits.get? circuitId = some c → ¬ Declines c sequence fin data s.limits.maxPayload →
      Taken c sequence data c' → Single (.ok (.ok true, (s.putCircuit circuitId c').persistCircuit circuitId))

end

theorem acceptUpstreamSingle_cases {sequence : Nat}
    (done : s.acceptUpstreamSingle circuitId sequence fin data now = outcome) :
    Single s circuitId sequence fin data now outcome := by
  unfold acceptUpstreamSingle at done
  subst done
  cases found : s.circuits.get? circuitId with
  | none => exact .refused _
  | some c =>
    dsimp only
    by_cases half : c.state = .halfClosedUpstream
    · rw [if_pos half]
      exact .refused _
    rw [if_neg half]
    rcases c.acceptUpstreamData_cases sequence fin data s.limits.maxPayload with
      ⟨e, other, result⟩ | ⟨passes, old, same, result⟩ | ⟨e, reached, result⟩ |
        ⟨passes, reached, room, result⟩
    · rw [result]
      cases e with
      | duplicateDiscarded => exact absurd rfl other
      | _ =>
        dsimp only
        rw [putCircuit_of_get? found]
        exact .refused _
    · rw [result]
      dsimp only
      rw [putCircuit_of_get? found]
      refine .duplicate found ?_ old same
      rintro (closed | refused | ⟨-, differs⟩ | ⟨reached, -⟩)
      · exact half closed
      · exact passes refused
      · exact differs same
      · omega
    · rw [result]
      exact .beyond _ found reached
    · have takes : ¬ Declines c sequence fin data s.limits.maxPayload := by
        rintro (closed | refused | ⟨old, -⟩ | ⟨-, beyond⟩)
        · exact half closed
        · exact passes refused
        · omega
        · omega
      let grown := { c with
        nextRelaySequence := (sequence + 1) % 2 ^ 64
        bytesForwarded := c.bytesForwarded + data.length
        lastAcceptedData := some data }
      rw [result]
      dsimp only
      by_cases late : c.expiresAt < now
      · have stops : settle grown fin now = .error .panic := settle_of_lt half late
        rw [stops]
        exact .late found takes late
      · obtain ⟨state, lastActivity, idleDeadline, settled⟩ :=
          settle_of_le (c := grown) fin half (Nat.le_of_not_lt late)
        rw [settled]
        exact .taken found takes ⟨reached, room, rfl, rfl, rfl, rfl, rfl⟩

/-- One `RELAY_DATA` frame as it arrives. -/
structure Arrival where
  (circuitId sequence : Nat)
  (fin ackRequested highPriority : Bool)
  data : Bytes
  now : Nat
  deriving DecidableEq, Repr

def Arrival.frame (arrival : Arrival) : RelayDataFrame :=
  { circuitId := arrival.circuitId, relaySequence := arrival.sequence, fin := arrival.fin
    ackRequested := arrival.ackRequested, highPriority := arrival.highPriority, data := arrival.data }

def putScheduler (s : RelayService) (circuitId : Nat) (scheduler : MultipathScheduler) : RelayService :=
  { s with multipath := s.multipath.insert circuitId scheduler }

/-- The flags of a frame are kept while its payload is with the scheduler. -/
def remember (s : RelayService) (source : Nat) (arrival : Arrival) : RelayService :=
  { s with
    multipathFrameMetadata := s.multipathFrameMetadata.insert (toLex (source, arrival.sequence))
      (arrival.fin, arrival.ackRequested, arrival.highPriority) }

def takeMetadata (s : RelayService) (source sequence : Nat) : (Bool × Bool × Bool) × RelayService :=
  let key := toLex (source, sequence)
  ((s.multipathFrameMetadata.get? key).getD (false, false, false),
    { s with multipathFrameMetadata := s.multipathFrameMetadata.erase key })

/-- The loop of `accept_upstream_frames` over the frames that the scheduler released. -/
def acceptReleased (circuitId source now : Nat) :
    RelayService → List (Nat × Bytes) → Except Halt (Except RelayError (List RelayDataFrame) × RelayService)
  | s, [] => .ok (.ok [], s)
  | s, (sequence, data) :: rest => do
    let ((fin, ackRequested, highPriority), s) := s.takeMetadata source sequence
    match ← s.acceptUpstreamSingle source sequence fin data now with
    | (.error e, s) => return (.error e, s)
    | (.ok _, s) =>
      let (later, s) ← acceptReleased circuitId source now s rest
      let frame := { circuitId, relaySequence := sequence, fin, ackRequested, highPriority, data }
      return (later.map (frame :: ·), s)

/-- `accept_upstream_frames`: the frames to forward. Without a scheduler that is the frame itself. -/
def acceptUpstreamFrames (s : RelayService) (arrival : Arrival) :
    Except Halt (Except RelayError (List RelayDataFrame) × RelayService) :=
  let source := s.logicalSource arrival.circuitId
  match s.multipath.get? source with
  | some scheduler =>
    let (received, scheduler) := scheduler.accept arrival.sequence arrival.data
    let s := s.putScheduler source scheduler
    match received with
    | .error e => .ok (.error (.multipathReceive e), s)
    | .ok .duplicate => .ok (.ok [], s)
    | .ok .buffered => .ok (.ok [], s.remember source arrival)
    | .ok (.delivered released) =>
      acceptReleased arrival.circuitId source arrival.now (s.remember source arrival) released
  | none => do
    match ← s.acceptUpstreamSingle arrival.circuitId arrival.sequence arrival.fin arrival.data arrival.now with
    | (.error e, s) => return (.error e, s)
    | (.ok _, s) => return (.ok [arrival.frame], s)

/-- The frame is refused and the call ends, or it goes in front of the later ones. -/
theorem acceptReleased_cons {source now sequence : Nat}
    (accepted : acceptReleased circuitId source now s ((sequence, data) :: rest) = .ok (answer, s')) :
    ∃ result s₁, (s.takeMetadata source sequence).2.acceptUpstreamSingle source sequence
        (s.takeMetadata source sequence).1.1 data now = .ok (result, s₁) ∧
      ((∃ e, result = .error e ∧ answer = .error e ∧ s' = s₁) ∨
        ∃ new later frame, result = .ok new ∧ acceptReleased circuitId source now s₁ rest = .ok (later, s') ∧
          answer = later.map (frame :: ·) ∧ frame.relaySequence = sequence) := by
  obtain ⟨⟨result, s₁⟩, single, accepted⟩ := bind_ok.mp accepted
  refine ⟨result, s₁, single, ?_⟩
  cases result with
  | error e =>
    cases accepted
    exact .inl ⟨e, rfl, rfl, rfl⟩
  | ok new =>
    obtain ⟨⟨later, s₂⟩, released, accepted⟩ := bind_ok.mp accepted
    cases accepted
    exact .inr ⟨new, later, _, rfl, released, rfl, rfl⟩

/-- A frame goes to its circuit, into the scheduler, or through it with the frames that waited for it. -/
theorem acceptUpstreamFrames_cases (accepted : s.acceptUpstreamFrames arrival = .ok (answer, s')) :
    let source := s.logicalSource arrival.circuitId
    (s.multipath.get? source = none ∧
      ∃ result, s.acceptUpstreamSingle arrival.circuitId arrival.sequence arrival.fin arrival.data arrival.now =
        .ok (result, s') ∧ answer = result.map fun _ => [arrival.frame]) ∨
      ∃ m received m', s.multipath.get? source = some m ∧
        m.accept arrival.sequence arrival.data = (received, m') ∧
        let s₁ := s.putScheduler source m'
        ((∀ released, received ≠ .ok (.delivered released)) ∧ (answer = .ok [] ∨ ∃ e, answer = .error e) ∧
            (s' = s₁ ∨ s' = s₁.remember source arrival)) ∨
          ∃ released, received = .ok (.delivered released) ∧
            acceptReleased arrival.circuitId source arrival.now (s₁.remember source arrival) released =
              .ok (answer, s') := by
  unfold acceptUpstreamFrames at accepted
  dsimp only at accepted
  cases scheduled : s.multipath.get? (s.logicalSource arrival.circuitId) with
  | none =>
    rw [scheduled] at accepted
    obtain ⟨⟨result, s₁⟩, single, accepted⟩ := bind_ok.mp accepted
    refine .inl ⟨scheduled, result, ?_⟩
    cases result <;> cases accepted <;> exact ⟨single, rfl⟩
  | some m =>
    rw [scheduled] at accepted
    refine .inr ⟨m, (m.accept arrival.sequence arrival.data).1, (m.accept arrival.sequence arrival.data).2,
      scheduled, rfl, ?_⟩
    dsimp only at accepted
    split at accepted
    · next failed =>
      cases accepted
      exact .inl ⟨by simp [failed], .inr ⟨_, rfl⟩, .inl rfl⟩
    · next duplicate =>
      cases accepted
      exact .inl ⟨by simp [duplicate], .inl rfl, .inl rfl⟩
    · next buffered =>
      cases accepted
      exact .inl ⟨by simp [buffered], .inl rfl, .inr rfl⟩
    · next released delivered => exact .inr ⟨released, delivered, accepted⟩

/-! ### Forwarding -/

/-- `scheduler.select_path()` where there is a scheduler; a refusal selects no path. -/
def selectPath (s : RelayService) (circuitId : Nat) : Option Nat × RelayService :=
  match s.multipath.get? circuitId with
  | none => (none, s)
  | some scheduler =>
    match scheduler.selectPath with
    | .error _ => (none, s)
    | .ok (pathId, scheduler) => (some pathId, s.putScheduler circuitId scheduler)

/-- The circuit a frame leaves on: the leg of the selected path, or the primary one. -/
def destinationCircuit (s : RelayService) (source : Nat) (selectedPath primary : Option Nat) :
    Option (Nat × Circuit) :=
  let chosen := (selectedPath.bind fun pathId => (s.multipathDestinations.filedAt source).get? pathId).or primary
  chosen.bind fun circuitId =>
    ((s.circuits.get? circuitId).filter fun circuit => circuit.state ≠ .closed).map fun circuit =>
      (circuitId, circuit)

/-- `scheduler.record_sent` for a frame that went out on a selected path. -/
def recordSent (s : RelayService) (source : Nat) (selectedPath : Option Nat) (bytes : Nat) :
    Except RelayError RelayService :=
  match s.multipath.get? source, selectedPath with
  | some scheduler, some pathId =>
    match scheduler.recordSent pathId bytes with
    | .error e => .error (.multipathAccounting e)
    | .ok scheduler => .ok (s.putScheduler source scheduler)
  | _, _ => .ok s

/-- The primary circuit for the frames of another: a leg leads back to its circuit, another circuit to its
partner. -/
def primaryCircuit (s : RelayService) (circuitId : Nat) : Option Nat :=
  if (s.multipathReverse.get? circuitId).isSome then some (s.logicalSource circuitId)
  else s.pairedCircuits.get? (s.logicalSource circuitId)

def choosePath (s : RelayService) (circuitId : Nat) : Option Nat × RelayService :=
  if (s.multipathReverse.get? circuitId).isSome then (none, s) else s.selectPath (s.logicalSource circuitId)

/-- `forward_data_frame`: the peer to hand the bytes to, and the bytes. The peer is the destination of the
circuit the frame arrived on, whichever leg it leaves on. -/
def forwardDataFrame (s : RelayService) (upstream : RelayDataFrame) :
    Except RelayError (Bytes × Bytes) × RelayService :=
  if upstream.circuitId ∉ s.readyCircuits then (.error .downstreamStillOpening, s)
  else
    match s.destinationHints.get? upstream.circuitId with
    | none => (.error (.unknownCircuit upstream.circuitId), s)
    | some destination =>
      let source := s.logicalSource upstream.circuitId
      let primary := s.primaryCircuit upstream.circuitId
      let (selectedPath, s) := s.choosePath upstream.circuitId
      match s.destinationCircuit source selectedPath primary with
      | none => (.error .noPairedCircuit, s)
      | some (leaving, circuit) =>
        let (relaySequence, circuit) := circuit.allocateSequence
        let s := s.putCircuit leaving circuit
        match s.recordSent source selectedPath upstream.data.length with
        | .error e => (.error e, s)
        | .ok s =>
          let s := s.persistCircuit leaving
          let frame := { upstream with circuitId := s.outwardId leaving, relaySequence }
          match frame.encode with
          | .error e => (.error (.forwardEncode e), s)
          | .ok bytes => (.ok (destination, bytes), s)

/-- How far `forward_data_frame` gets: nowhere, to the choice of a path, to the sequence number of the circuit
that the frame leaves on, or to the end. -/
theorem forwardDataFrame_cases (s : RelayService) :
    let outcome := s.forwardDataFrame upstream
    let source := s.logicalSource upstream.circuitId
    let (path, s₁) := s.choosePath upstream.circuitId
    (∃ e, outcome = (.error e, s)) ∨ (∃ e, outcome = (.error e, s₁)) ∨
      ∃ leaving c, s₁.destinationCircuit source path (s.primaryCircuit upstream.circuitId) = some (leaving, c) ∧
        let allocated := s₁.putCircuit leaving c.allocateSequence.2
        (∃ e, outcome = (.error e, allocated)) ∨
          ∃ s₂, allocated.recordSent source path upstream.data.length = .ok s₂ ∧
            let s₃ := s₂.persistCircuit leaving
            (∃ e, outcome = (.error e, s₃)) ∨
              ∃ peer bytes frame, s.destinationHints.get? upstream.circuitId = some peer ∧
                frame.circuitId = s₃.outwardId leaving ∧ RelayDataFrame.encode frame = .ok bytes ∧
                outcome = (.ok (peer, bytes), s₃) := by
  unfold forwardDataFrame
  dsimp only
  split
  · exact .inl ⟨_, rfl⟩
  split
  · exact .inl ⟨_, rfl⟩
  · next peer led =>
    split
    · exact .inr (.inl ⟨_, rfl⟩)
    · next leaving c found =>
      refine .inr (.inr ⟨leaving, c, found, ?_⟩)
      split
      · exact .inl ⟨_, rfl⟩
      · next s₂ recorded =>
        refine .inr ⟨s₂, recorded, ?_⟩
        split
        · exact .inl ⟨_, rfl⟩
        · next bytes encoded => exact .inr ⟨peer, bytes, _, led, rfl, encoded, rfl⟩

/-- The circuit that a frame leaves on is a leg of its source or the primary one, and registered. -/
theorem destinationCircuit_ok (found : s.destinationCircuit source selectedPath primary = some (leaving, c)) :
    s.circuits.get? leaving = some c ∧
      ((∃ path, selectedPath = some path ∧ s.multipathDestinations.Filed source path leaving) ∨
        primary = some leaving) := by
  obtain ⟨id, chosen, kept⟩ := Option.bind_eq_some_iff.mp found
  obtain ⟨c', held, same⟩ := Option.map_eq_some_iff.mp kept
  cases same
  refine ⟨(Option.filter_eq_some_iff.mp held).1, ?_⟩
  rcases Option.or_eq_some_iff.mp chosen with selected | ⟨-, primary⟩
  · obtain ⟨path, here, filed⟩ := Option.bind_eq_some_iff.mp selected
    exact .inl ⟨path, here, filed_iff.mpr (get?_eq_some.mp filed)⟩
  · exact .inr primary

end RelayService

/-! ### Runs of the service -/

/-- A call of the service. `disk` puts other records into the store, as failed writes and other epochs can leave
behind; `limits` is the policy update of the control surface. -/
inductive RelayCall where
  | openCircuit (request : CircuitOpenRequest) (ownerPeer : Bytes) (now : Nat)
  | recordCircuitOwner (circuitId sessionId : Nat)
  | bindWireCircuit (sessionId wireCircuitId circuitId : Nat)
  | attachDestinationLeg (source session wire : Nat) (sourcePeer destinationPeer : Bytes) (now : Nat)
  | attachDownstreamLeg (source downstream session wire : Nat) (sourcePeer downstreamPeer : Bytes)
  | attachAdditionalDownstreamLeg (source downstream session wire : Nat) (sourcePeer : Bytes)
      (pathId weight : Nat)
  | addMultipathPath (circuitId pathId weight : Nat) | failMultipathPath (circuitId pathId : Nat)
  | failMultipathDestination (circuitId : Nat) (destination : Bytes) (traversal : Traversal (Nat × Nat))
  | activateMultipathPath (circuitId pathId : Nat)
  | queuePendingData (circuitId : Nat) (frame : RelayDataFrame)
  | activateDownstream (session : Nat) (status : RelayStatusFrame)
  | acceptUpstreamFrames (arrival : RelayService.Arrival)
  | forwardDataFrame (frame : RelayDataFrame) | closeCircuit (circuitId now : Nat)
  | sweep (now : Nat) (traversal : Traversal Nat) | limits (limits : AdmissionLimits) | disk (store : RelayStore)
  | restart (epoch now : Nat) (traversal : Traversal RelayCircuitRecord)

/-- The times that a call gives to the service. -/
def RelayCall.now : RelayCall → Nat
  | .openCircuit _ _ now | .attachDestinationLeg _ _ _ _ _ now | .closeCircuit _ now | .sweep now _
  | .restart _ now _ => now
  | .acceptUpstreamFrames arrival => arrival.now
  | _ => 0

inductive RelayAnswer where
  | done | opened (result : CircuitOpenResult) | leg (circuitId : Nat)
  | frames (frames : List RelayDataFrame) | forwarded (peer bytes : Bytes) | retired (found : Bool)
  | expired (notifications : List RelayExpiryNotification)
  deriving DecidableEq

namespace RelayService

/-- One call on the service, with its answer. -/
def perform (s : RelayService) : RelayCall → Except Halt (Except RelayError RelayAnswer × RelayService)
  | .openCircuit request ownerPeer now =>
    (s.openCircuit request ownerPeer now).map (Prod.map (·.map .opened) id)
  | .recordCircuitOwner circuitId sessionId => .ok (.ok .done, s.recordCircuitOwner circuitId sessionId)
  | .bindWireCircuit sessionId wireCircuitId circuitId =>
    match s.bindWireCircuit sessionId wireCircuitId circuitId with
    | .error e => .ok (.error e, s)
    | .ok s => .ok (.ok .done, s)
  | .attachDestinationLeg source session wire sourcePeer destinationPeer now =>
    (s.attachDestinationLeg source session wire sourcePeer destinationPeer now).map (Prod.map (·.map .leg) id)
  | .attachDownstreamLeg source downstream session wire sourcePeer downstreamPeer =>
    .ok ((s.attachDownstreamLeg source downstream session wire sourcePeer downstreamPeer).map (·.map .leg) id)
  | .attachAdditionalDownstreamLeg source downstream session wire sourcePeer pathId weight =>
    .ok ((s.attachAdditionalDownstreamLeg source downstream session wire sourcePeer pathId weight).map
      (·.map .leg) id)
  | .addMultipathPath circuitId pathId weight =>
    .ok ((s.addMultipathPath circuitId pathId weight).map (·.map fun _ => .done) id)
  | .failMultipathPath circuitId pathId =>
    .ok ((s.failMultipathPath circuitId pathId).map (·.map fun _ => .done) id)
  | .failMultipathDestination circuitId destination traversal =>
    .ok ((s.failMultipathDestination circuitId destination traversal).map (.ok ∘ .retired) id)
  | .activateMultipathPath circuitId pathId =>
    .ok ((s.activateMultipathPath circuitId pathId).map (·.map fun _ => .done) id)
  | .queuePendingData circuitId frame =>
    .ok ((s.queuePendingData circuitId frame).map (·.map fun _ => .done) id)
  | .activateDownstream session status => .ok ((s.activateDownstream session status).map (·.map .frames) id)
  | .acceptUpstreamFrames arrival => (s.acceptUpstreamFrames arrival).map (Prod.map (·.map .frames) id)
  | .forwardDataFrame frame =>
    .ok ((s.forwardDataFrame frame).map (·.map fun sent => .forwarded sent.1 sent.2) id)
  | .closeCircuit circuitId now => .ok ((s.closeCircuit circuitId now).map (·.map fun _ => .done) id)
  | .sweep now traversal => .ok ((s.sweep now traversal).map (.ok ∘ .expired) id)
  | .limits limits => .ok (.ok .done, { s with limits })
  | .disk store => .ok (.ok .done, { s with persistence := some store })
  | .restart epoch now traversal => (s.restart epoch now traversal).map fun s => (.ok .done, s)

/-- A call as a step. One that does not come back changes nothing here, so the runs of the source are among
these. -/
def step (s : RelayService) (call : RelayCall) : RelayService :=
  match s.perform call with
  | .ok (_, s) => s
  | .error _ => s

end RelayService

/-! Expiry on the data path of the relay. Only a sweep looks at the lifetime of a circuit; a payload that comes
after its expiry and before the sweep, or while the circuit is closing, is taken like any other and then panics
in `touch`. -/

namespace RelayService

variable (s : RelayService)

/-- The circuits a frame reaches: the one it names and, with a scheduler, the one whose sequence it belongs to.
-/
def reached (circuitId : Nat) : List Nat :=
  if (s.multipath.get? (s.logicalSource circuitId)).isSome then [circuitId, s.logicalSource circuitId]
  else [circuitId]

/-- The call does not panic, and data is accepted only on circuits that have not expired: a later frame that is
answered with success was dropped, and changes nothing. -/
def ExpirySafe (call : RelayCall) : Prop :=
  s.perform call ≠ .error .panic ∧
    ∀ arrival, call = .acceptUpstreamFrames arrival →
      ∀ frames s', s.acceptUpstreamFrames arrival = .ok (.ok frames, s') → frames = [] ∧ s' = s ∨
        ∀ id ∈ s.reached arrival.circuitId, ∀ c ∈ s.circuits.get? id, arrival.now ≤ c.expiresAt

/-- Data comes before the expiry of the circuits it reaches; or the circuit declines it or, with a scheduler,
that does. -/
def Timely : RelayCall → Prop
  | .acceptUpstreamFrames arrival =>
    ∀ id ∈ s.reached arrival.circuitId, ∀ c ∈ s.circuits.get? id, arrival.now ≤ c.expiresAt ∨
      s.multipath.get? (s.logicalSource arrival.circuitId) = none ∧
        Declines c arrival.sequence arrival.fin arrival.data s.limits.maxPayload ∨
      ∃ m ∈ s.multipath.get? (s.logicalSource arrival.circuitId), m.Declines arrival.sequence
  | _ => True

/-! ### Calls without data -/

section
variable {s : RelayService} {now : Nat}

theorem bind_ne_panic {α β : Type} {first : Except Halt α} {next : α → Except Halt β}
    (starts : first ≠ .error .panic) (goesOn : ∀ value, first = .ok value → next value ≠ .error .panic) :
    (first >>= next) ≠ .error .panic := by
  cases first with
  | error halt => exact fun stops => starts (by cases stops; rfl)
  | ok value => exact goesOn value rfl

theorem map_ne_panic {α β : Type} {result : Except Halt α} (answer : α → β)
    (returns : result ≠ .error .panic) : result.map answer ≠ .error .panic := by
  cases result with
  | error halt => exact fun stops => returns (by cases stops; rfl)
  | ok value => exact nofun

theorem nextUnfenced_ne_panic (fences : OrderedMap Nat Nat) (turns circuitId : Nat) :
    nextUnfenced fences turns circuitId ≠ .error .panic := by
  induction turns generalizing circuitId with
  | zero => exact nofun
  | succ turns ih =>
    rw [nextUnfenced]
    split
    · exact ih _
    · exact nofun

/-- The leg is new, so it can be touched at the time it is made. -/
theorem openAs_ne_panic
    (made : Circuit.new leg now lifetime quota bidirectional privateHandling = .ok destination) :
    openAs destination source now ≠ .error .panic := by
  obtain ⟨inTime, rfl⟩ := Circuit.new_ok.mp made
  unfold openAs
  split
  · rw [Circuit.accept, Circuit.touch_ok.mpr ⟨inTime, rfl⟩]
    exact nofun
  · exact nofun

section
variable (word : now ≤ u64Max)
include word

theorem new_ne_panic :
    Circuit.new circuitId now lifetimeMs byteQuota bidirectional privateHandling ≠ .error .panic := by
  obtain ⟨c, made⟩ := Circuit.new_of_word word
  rw [made]
  exact nofun

theorem openCircuit_ne_panic (request : CircuitOpenRequest) (ownerPeer : Bytes) :
    s.openCircuit request ownerPeer now ≠ .error .panic := by
  unfold openCircuit
  split
  · apply bind_ne_panic (nextUnfenced_ne_panic _ _ _)
    intro circuitId _
    apply bind_ne_panic (new_ne_panic word)
    intro circuit _ stops
    cases stops
  · exact nofun

theorem attachDestinationLeg_ne_panic (source session wire : Nat) (sourcePeer destinationPeer : Bytes) :
    s.attachDestinationLeg source session wire sourcePeer destinationPeer now ≠ .error .panic := by
  unfold attachDestinationLeg
  split
  · exact nofun
  split
  · exact nofun
  · apply bind_ne_panic (new_ne_panic word)
    intro destination made
    apply bind_ne_panic (openAs_ne_panic made)
    intro destination _
    dsimp only
    split <;> exact nofun

theorem restart_ne_panic (epoch : Nat) (traversal : Traversal RelayCircuitRecord) :
    s.restart epoch now traversal ≠ .error .panic := by
  have turn : ∀ (s : RelayService) (record : RelayCircuitRecord),
      restoreRecord now s record ≠ .error .panic := by
    intro s record
    unfold restoreRecord
    split
    · exact nofun
    split
    · exact nofun
    · apply bind_ne_panic (new_ne_panic word)
      intro circuit _ stops
      cases stops
  have loop : ∀ (records : List RelayCircuitRecord) (s : RelayService),
      records.foldlM (restoreRecord now) s ≠ .error .panic := by
    intro records
    induction records with
    | nil => exact nofun
    | cons record rest ih =>
      intro s
      exact bind_ne_panic (turn s record) fun s' _ => ih s'
  exact loop _ _

end

/-! ### Data -/

variable {circuitId sequence : Nat} {fin : Bool} {data : Bytes}

theorem acceptUpstreamSingle_expiresAt
    (accepted : s.acceptUpstreamSingle circuitId sequence fin data now = .ok (result, s'))
    (found : s'.circuits.get? circuitId = some c') :
    ∃ c, s.circuits.get? circuitId = some c ∧ c'.expiresAt = c.expiresAt := by
  cases acceptUpstreamSingle_cases accepted with
  | refused => exact ⟨c', found, rfl⟩
  | duplicate => exact ⟨c', found, rfl⟩
  | beyond _ held =>
    rw [putCircuit, get?_insert_self] at found
    cases found
    exact ⟨_, held, rfl⟩
  | taken held _ taken =>
    rw [persistCircuit_circuits, putCircuit, get?_insert_self] at found
    cases found
    exact ⟨_, held, taken.expires⟩

theorem acceptUpstreamSingle_ne_panic (timely : ∀ c ∈ s.circuits.get? circuitId,
      now ≤ c.expiresAt ∨ Declines c sequence fin data s.limits.maxPayload) :
    s.acceptUpstreamSingle circuitId sequence fin data now ≠ .error .panic := by
  intro panics
  cases acceptUpstreamSingle_cases panics with
  | late held takes late =>
    rcases timely _ held with inTime | declines
    · omega
    · exact takes declines

theorem acceptReleased_ne_panic (inTime : ∀ c ∈ s.circuits.get? source, now ≤ c.expiresAt) :
    acceptReleased circuitId source now s released ≠ .error .panic := by
  induction released generalizing s with
  | nil => intro stops; cases stops
  | cons frame rest ih =>
    obtain ⟨sequence, data⟩ := frame
    apply bind_ne_panic
    · exact acceptUpstreamSingle_ne_panic fun c held => .inl (inTime c held)
    rintro ⟨answer, s'⟩ accepted
    cases answer with
    | error e => intro stops; cases stops
    | ok new =>
      apply bind_ne_panic
      · apply ih
        intro c' found
        obtain ⟨c, held, same⟩ := acceptUpstreamSingle_expiresAt accepted found
        exact same ▸ inTime c held
      · exact fun _ _ stops => by cases stops

section
variable {arrival : Arrival} (timely : s.Timely (.acceptUpstreamFrames arrival))
include timely

theorem acceptUpstreamFrames_ne_panic : s.acceptUpstreamFrames arrival ≠ .error .panic := by
  unfold acceptUpstreamFrames
  cases scheduled : s.multipath.get? (s.logicalSource arrival.circuitId) with
  | none =>
    dsimp only
    rw [scheduled]
    apply bind_ne_panic
    · apply acceptUpstreamSingle_ne_panic
      intro c held
      have reached : arrival.circuitId ∈ s.reached arrival.circuitId := by simp [reached, scheduled]
      simpa [scheduled] using timely arrival.circuitId reached c held
    · rintro ⟨answer, s'⟩ _
      cases answer <;> exact nofun
  | some scheduler =>
    dsimp only
    rw [scheduled]
    dsimp only
    split
    · exact nofun
    · exact nofun
    · exact nofun
    · next released delivered =>
      apply acceptReleased_ne_panic
      intro c held
      have reached : s.logicalSource arrival.circuitId ∈ s.reached arrival.circuitId := by
        simp [reached, scheduled]
      have timely : arrival.now ≤ c.expiresAt ∨ scheduler.Declines arrival.sequence := by
        simpa [scheduled] using timely _ reached c held
      refine timely.resolve_right fun declines => ?_
      rcases (MultipathScheduler.accept_of_declines declines).2 with ⟨e, refused⟩ | dropped
      · rw [refused] at delivered
        cases delivered
      · rw [dropped] at delivered
        cases delivered

/-- A frame that comes later than the expiry is declined, or dropped by the scheduler. -/
theorem acceptUpstreamFrames_inTime (accepted : s.acceptUpstreamFrames arrival = .ok (.ok frames, s')) :
    frames = [] ∧ s' = s ∨
      ∀ id ∈ s.reached arrival.circuitId, ∀ c ∈ s.circuits.get? id, arrival.now ≤ c.expiresAt := by
  unfold acceptUpstreamFrames at accepted
  dsimp only at accepted
  cases scheduled : s.multipath.get? (s.logicalSource arrival.circuitId) with
  | none =>
    right
    intro id reached c held
    have timely : arrival.now ≤ c.expiresAt ∨ Declines c arrival.sequence arrival.fin arrival.data
        s.limits.maxPayload := by simpa [scheduled] using timely id reached c held
    refine timely.resolve_right fun declines => ?_
    have only : id = arrival.circuitId := by simpa [RelayService.reached, scheduled] using reached
    subst only
    rw [scheduled] at accepted
    obtain ⟨⟨answer, s₁⟩, single, accepted⟩ := bind_ok.mp accepted
    cases acceptUpstreamSingle_cases single with
    | refused => cases accepted
    | duplicate found takes =>
      cases held.symm.trans found
      exact absurd declines takes
    | beyond => cases accepted
    | taken found takes =>
      cases held.symm.trans found
      exact absurd declines takes
  | some m =>
    rw [scheduled] at accepted
    by_cases declines : m.Declines arrival.sequence
    · left
      obtain ⟨same, ⟨e, refused⟩ | dropped⟩ := @MultipathScheduler.accept_of_declines arrival.data _ _ declines
      · simp [refused] at accepted
      · simp only [dropped, same, putScheduler, OrderedMap.insert_of_get? scheduled, Except.ok.injEq,
          Prod.mk.injEq] at accepted
        exact ⟨accepted.1.symm, accepted.2.symm⟩
    · right
      intro id reached c held
      simpa [scheduled, declines] using timely id reached c held

end

end

/-- In every run of calls at 64-bit times whose data comes in time or is declined, no call panics and no circuit
accepts data later than it expires. -/
theorem expiry_safe (s : RelayService) (calls : List RelayCall) (words : ∀ call ∈ calls, call.now ≤ u64Max)
    (timely : Run.Meets Timely step s calls) : Run.Meets ExpirySafe step s calls := by
  have each : ∀ (s : RelayService) (call : RelayCall), call.now ≤ u64Max → s.Timely call →
      s.ExpirySafe call := by
    intro s call word timely
    refine ⟨?_, ?_⟩
    · cases call with
      | openCircuit request ownerPeer now => exact map_ne_panic _ (openCircuit_ne_panic word request ownerPeer)
      | attachDestinationLeg source session wire sourcePeer destinationPeer now =>
        exact map_ne_panic _ (attachDestinationLeg_ne_panic word source session wire sourcePeer destinationPeer)
      | acceptUpstreamFrames arrival => exact map_ne_panic _ (acceptUpstreamFrames_ne_panic timely)
      | restart epoch now traversal => exact map_ne_panic _ (restart_ne_panic word epoch traversal)
      | bindWireCircuit =>
        rw [perform]
        split <;> exact nofun
      | _ => exact nofun
    · rintro arrival rfl frames s' accepted
      exact acceptUpstreamFrames_inTime timely accepted
  induction calls generalizing s with
  | nil => trivial
  | cons call rest ih =>
    refine ⟨each s call (words call List.mem_cons_self) timely.1, ?_⟩
    exact ih (s.step call) (fun later member => words later (List.mem_cons_of_mem _ member)) timely.2

def secondLong (multipath : Bool) : CircuitOpenRequest :=
  { peerCircuits := 0, requestedLifetimeMs := 1000, requestedByteQuota := 10, flags := 0
    bidirectional := true, privateHandling := false, multipath, destinationHint := [] }

def payloadAt (sequence now : Nat) : Arrival :=
  { circuitId := 1, sequence, fin := false, ackRequested := false, highPriority := false, data := [7], now }

/-- A circuit of one second takes a payload, is swept when it expires and a second later; what comes then is
declined. -/
theorem expiry_safe_drained :
    Run.Meets ExpirySafe step new
      [.openCircuit (secondLong false) [1] 0, .acceptUpstreamFrames (payloadAt 0 500), .sweep 1000 .asListed,
        .sweep 2000 .asListed, .acceptUpstreamFrames (payloadAt 1 2000)] := by
  refine expiry_safe new _ (by decide) ⟨trivial, ?_, trivial, trivial, ?_, trivial⟩
  · show ∀ id ∈ _, ∀ c ∈ _, _ ≤ _ ∨ _
    decide +kernel
  · show ∀ id ∈ _, ∀ c ∈ _, _ ≤ _ ∨ _
    decide +kernel

/-- One millisecond after its expiry a circuit takes a payload and panics, also when a sweep has begun to close
it; with a scheduler it keeps the payload for later. -/
theorem late_payload_panics : let opened := new.step (.openCircuit (secondLong false) [1] 0)
    let several := new.step (.openCircuit (secondLong true) [1] 0)
    ((opened.circuits.get? 1).map Circuit.expiresAt = some 1000 ∧
      opened.perform (.acceptUpstreamFrames (payloadAt 0 1001)) = .error .panic ∧
      (opened.step (.sweep 1000 .asListed)).perform (.acceptUpstreamFrames (payloadAt 0 1001)) = .error .panic ∧
      (several.circuits.get? 1).map Circuit.expiresAt = some 1000 ∧
      (several.acceptUpstreamFrames (payloadAt 1 1001)).map Prod.fst = .ok (.ok [])) ∧
    ¬ opened.ExpirySafe (.acceptUpstreamFrames (payloadAt 0 1001)) := by
  intro opened several
  have panics : opened.perform (.acceptUpstreamFrames (payloadAt 0 1001)) = .error .panic := by rfl
  refine ⟨⟨by decide +kernel, panics, by rfl, by decide +kernel, by decide +kernel⟩, ?_⟩
  exact fun safe => safe.1 panics

end RelayService
end UniversalMesh.Daemon
