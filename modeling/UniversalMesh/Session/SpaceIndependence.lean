import UniversalMesh.Session.Calls
import UniversalMesh.Session.PacketRoundTrip

/-! Which packets of a space a session accepts, after any interleaving of packets of the three spaces. Every
space has its own replay window, but a packet number is reconstructed before the space is looked at, always from
the largest number of the session data space. -/
namespace UniversalMesh.Session
open MachineWord Wire Crypto OrderedMap PacketNumber

/-- What a space knows of the packets received in it. -/
def PacketSpaceState.reception (state : PacketSpaceState) : Nat × ReplayWindow := (state.largestReceived, state.replay)

/-- The spaces know the same of the packets received. -/
def SameReception (s s' : Session) : Prop := ∀ space,
  (s'.spaces.get? space).map PacketSpaceState.reception = (s.spaces.get? space).map PacketSpaceState.reception

theorem sameReception_of_spaces {s s' : Session} (same : s'.spaces = s.spaces) : SameReception s s' :=
  fun _ => by rw [same]

section
variable (crypto : Primitives) (s : Session)

theorem numbered_reception {space : PacketSpaceState} (found : s.spaces.get? .sessionData = some space) :
    SameReception s (s.numbered space) := by
  intro other
  simp only [numbered, get?_insert]
  split
  · next here => rw [here, found, Option.map_some, Option.map_some, PacketSpaceState.reception, PacketSpaceState.reception]
  · rfl

theorem buildOutboundInner_reception (pathId : Nat) (now : Instant) (payload : Bytes) :
    SameReception s (s.buildOutboundInner crypto pathId now payload).2 := by
  obtain ⟨same | ⟨space, found, same⟩, -⟩ | ⟨space, pkt, sends, result⟩ :=
    s.buildOutboundInner_cases crypto pathId now payload
  · exact sameReception_of_spaces (by rw [same])
  · rw [same]
    exact s.numbered_reception found
  · obtain ⟨_, _, _, _, written⟩ := s.sentOn_writes pathId now space (s.outboundPayload payload) pkt
    rw [result, written]
    exact s.numbered_reception sends.found

theorem retransmit_reception (pn : Nat) (now : Instant) : SameReception s (s.retransmit crypto pn now).2 := by
  obtain same | ⟨payload, -, refused | sent⟩ := s.retransmit_cases crypto pn now
  · exact sameReception_of_spaces (by rw [same])
  · rw [refused]
    exact s.buildOutboundInner_reception crypto s.primaryPathId now payload
  · rw [sent]
    exact s.buildOutboundInner_reception crypto s.primaryPathId now payload

theorem Call.reception {call : Call} (outbound : ∀ now bytes, call ≠ .onInbound now bytes) :
    SameReception s (call.run crypto s) := by
  cases call with
  | control call => exact sameReception_of_spaces (call.keeps crypto s).1.spaces
  | data call => exact sameReception_of_spaces (call.wire s).spaces
  | buildOutbound pathId now payload => exact s.buildOutboundInner_reception crypto pathId now payload
  | retransmit pn now => exact s.retransmit_reception crypto pn now
  | pruneRetransmitPayload pn => exact sameReception_of_spaces rfl
  | onInbound now bytes => exact absurd rfl (outbound now bytes)

/-! Inbound packets: the admission is all that touches the spaces. -/

theorem applyFrame_spaces (now : Instant) (pathId : Nat) (frame : Frame) :
    (s.applyFrame crypto now pathId frame).2.spaces = s.spaces := by
  by_cases concerns : ConcernsData frame
  · exact congrArg LinkSide.spaces (s.applyFrame_link crypto now pathId concerns)
  obtain ⟨-, ⟨_, _, _, _, _, -, written⟩ | ⟨_, _, -, -, written⟩ | same⟩ := s.applyFrame_other crypto now pathId concerns
  · rw [written]
  · rw [written]
  · exact same.spaces

theorem applyPacket_spaces (now : Instant) (packet : OpenedPacket) :
    (s.applyPacket crypto now packet).2.spaces = s.spaces := by
  unfold applyPacket
  split
  · rfl
  · next frames _ =>
    obtain ⟨_, timed⟩ := s.resetIdleTimer_writes frames now
    have kept : ∀ s' frame, True → s'.spaces = s.spaces →
        (applyFrame crypto now packet.pathId s' frame).2.spaces = s.spaces :=
      fun s' frame _ same => (applyFrame_spaces crypto s' now packet.pathId frame).trans same
    exact applyFrames_invariant kept (eachFrame_of_mem fun _ _ _ => trivial) (by rw [timed])

theorem onInbound_spaces (now : Instant) (bytes : Bytes) :
    (s.onInbound crypto now bytes).2.spaces = (s.admitPacket crypto now bytes).2.spaces := by
  unfold onInbound
  split
  · next refused => rw [refused]
  · next packet s' admitted =>
    have applied := applyPacket_spaces crypto s' now packet
    rw [admitted]
    split
    · next failed => exact failed ▸ applied
    · next succeeded =>
      rw [succeeded] at applied
      obtain ⟨_, written⟩ := emitAck_writes _ (spaceOf packet.space) _
      rw [written]
      exact applied

theorem admitPacket_unopened {now : Instant} {bytes : Bytes} {e : PacketBuildError}
    (unopened : s.openInbound crypto bytes = .error e) :
    (∃ e, (s.admitPacket crypto now bytes).1 = .error e) ∧ (s.admitPacket crypto now bytes).2.spaces = s.spaces := by
  unfold admitPacket
  rw [unopened]
  dsimp only
  unfold onUnopened
  repeat' split
  all_goals exact ⟨⟨_, rfl⟩, rfl⟩

theorem admitPacket_opened {bytes : Bytes} {packet : OpenedPacket} {state : PacketSpaceState}
    (opened : s.openInbound crypto bytes = .ok packet) (found : s.spaces.get? (spaceOf packet.space) = some state) :
    match state.admitReconstructed packet.pn with
    | .error _ => (∃ e, (s.admitPacket crypto now bytes).1 = .error e) ∧
        (s.admitPacket crypto now bytes).2.spaces = s.spaces
    | .ok (_, state') => (s.admitPacket crypto now bytes).1 = .ok packet ∧
        (s.admitPacket crypto now bytes).2.spaces = s.spaces.insert (spaceOf packet.space) state' := by
  unfold admitPacket
  rw [opened]
  dsimp only
  rw [found]
  dsimp only
  cases state.admitReconstructed packet.pn with
  | error e => exact ⟨⟨_, rfl⟩, rfl⟩
  | ok admitted =>
    obtain ⟨_, accounted⟩ := accountReceived_writes _ packet.pathId bytes.length now
    exact ⟨rfl, by dsimp only; rw [accounted]; rfl⟩

end

theorem parseProtectedPacket_number {expectedPn : Nat} {bytes : Bytes} {packet : OpenedPacket}
    (opened : parseProtectedPacket crypto keys hpKey expectedPn bytes = .ok packet) :
    packet.pn ≤ maxPacketNumber := by
  unfold parseProtectedPacket at opened
  repeat' split at opened
  all_goals try cases opened
  unfold openProtectedPacket at opened
  dsimp only at opened
  repeat' split at opened
  all_goals try cases opened
  next found _ _ _ => exact reconstruct_le found

/-- A session and the packet numbers it accepted in each space. -/
structure SpaceLedger where
  session : Session
  received : PacketSpace → List Nat

namespace SpaceLedger

def start (session : Session) : SpaceLedger := { session, received := fun _ => [] }

def step (crypto : Primitives) (l : SpaceLedger) (call : Call) : SpaceLedger :=
  { session := call.run crypto l.session
    received :=
      match call with
      | .onInbound now bytes =>
        match (l.session.admitPacket crypto now bytes).1 with
        | .error _ => l.received
        | .ok packet =>
          Function.update l.received (spaceOf packet.space) (packet.pn :: l.received (spaceOf packet.space))
      | _ => l.received }

def after (crypto : Primitives) (s : Session) (calls : List Call) : SpaceLedger := calls.foldl (step crypto) (start s)

/-- The largest number received in a space, 0 if there is none. -/
def largest (l : SpaceLedger) (space : PacketSpace) : Nat := (l.received space).foldr max 0

/-- The number is above all received in the space, or less than a window below the largest with no number of its
residue received. -/
def Takes (l : SpaceLedger) (space : PacketSpace) (pn : Nat) : Prop :=
  (∀ q ∈ l.received space, q < pn) ∨
    ∀ q ∈ l.received space, q < pn + defaultReplayWindow ∧ q % defaultReplayWindow ≠ pn % defaultReplayWindow
  deriving Decidable

/-- The state of a space is that of the packets received in it. -/
structure Tracks (l : SpaceLedger) (space : PacketSpace) (state : PacketSpaceState) : Prop where
  found : l.session.spaces.get? space = some state
  largest : state.largestReceived = l.largest space
  faithful : ReplayLog.Faithful ⟨state.replay, l.received space⟩
  numbers : ∀ q ∈ l.received space, q ≤ maxPacketNumber

def Sound (l : SpaceLedger) : Prop := ∀ space, ∃ state, l.Tracks (spaceOf space) state

variable {crypto : Primitives} {l : SpaceLedger} {space : PacketSpace} {state : PacketSpaceState} {pn : Nat}

theorem start_sound (begun : Session.new crypto config = .ok s) : (start s).Sound := by
  intro space
  refine ⟨.new (spaceOf space), ?_, rfl, ReplayLog.start_faithful, by simp [start]⟩
  rw [start, (new_initial begun).1]
  cases space <;> rfl

theorem largest_le (numbers : ∀ q ∈ l.received space, q ≤ bound) : l.largest space ≤ bound := by
  unfold largest
  generalize l.received space = received at numbers
  induction received with
  | nil => exact Nat.zero_le _
  | cons q rest ih =>
    rw [List.foldr_cons, Nat.max_le]
    exact ⟨numbers q List.mem_cons_self, ih fun other member => numbers other (List.mem_cons_of_mem _ member)⟩

theorem Tracks.expectedPn (tracks : l.Tracks .sessionData state) :
    l.session.expectedPn = l.largest .sessionData + 1 := by
  have bound := largest_le tracks.numbers
  have limit : maxPacketNumber < u64Max := by decide
  rw [Session.expectedPn, tracks.found, Option.map_some, Option.getD_some, tracks.largest,
    saturatingAdd_of_le (by omega)]

/-- The replay window of a space takes a number exactly if the numbers received allow it. -/
theorem Tracks.admits_iff (tracks : l.Tracks space state) (number : pn ≤ maxPacketNumber) :
    ReplayLog.admits ⟨state.replay, l.received space⟩ pn = true ↔ l.Takes space pn := by
  have limit : maxPacketNumber < u64Max := by decide
  have words : ∀ q ∈ l.received space, q ≤ u64Max := fun q member =>
    (tracks.numbers q member).trans limit.le
  have unmarked := tracks.faithful.admits_iff_unmarked words (number.trans limit.le)
  constructor
  · intro admitted
    have within := (ReplayLog.admits_fresh tracks.faithful admitted).2
    exact ((unmarked within).mp admitted).imp id fun clear q member => ⟨within q member, (clear q member).1⟩
  · rintro (above | clear)
    · exact (unmarked fun q member => Nat.lt_add_right _ (above q member)).mpr (.inl above)
    · refine (unmarked fun q member => (clear q member).1).mpr (.inr fun q member => ⟨(clear q member).2, ?_⟩)
      have bound := tracks.numbers q member
      omega

theorem admitReconstructed_eq (state : PacketSpaceState) (received : List Nat) (pn : Nat) :
    state.admitReconstructed pn =
      if ReplayLog.admits ⟨state.replay, received⟩ pn then
        .ok (pn, { state with replay := (state.replay.checkAndMark pn).2, largestReceived := max pn state.largestReceived })
      else .error .duplicateOrStale := by
  unfold PacketSpaceState.admitReconstructed ReplayLog.admits
  split
  · next refused => rw [refused, if_neg Bool.false_ne_true]
  · next taken => rw [taken, if_pos rfl]

section
variable (tracks : l.Tracks space state)
include tracks

theorem Tracks.of_reception (same : SameReception l.session s) :
    ∃ state', Tracks { l with session := s } space state' := by
  have view := same space
  rw [tracks.found, Option.map_some] at view
  obtain ⟨state', found, agrees⟩ := Option.map_eq_some_iff.mp view
  obtain ⟨largest, replay⟩ := Prod.mk.inj agrees
  exact ⟨state', found, largest.trans tracks.largest, replay ▸ tracks.faithful, tracks.numbers⟩

theorem Tracks.receive {received : Nat} (admitted : state.admitReconstructed pn = .ok (received, state'))
    (number : pn ≤ maxPacketNumber) (stored : s.spaces = l.session.spaces.insert space state') :
    Tracks { session := s, received := Function.update l.received space (pn :: l.received space) } space state' := by
  have offered := ReplayLog.offer_faithful _ pn tracks.faithful
  rw [admitReconstructed_eq state (l.received space)] at admitted
  split at admitted
  · next taken =>
    cases admitted
    refine ⟨by rw [stored, get?_insert, if_pos rfl], ?_, ?_, ?_⟩
    · simp only [SpaceLedger.largest, Function.update_self, List.foldr_cons]
      rw [tracks.largest, SpaceLedger.largest]
    · have marked : (state.replay.checkAndMark pn).1 = true := taken
      change ReplayLog.Faithful ⟨(state.replay.checkAndMark pn).2,
        if (state.replay.checkAndMark pn).1 then pn :: l.received space else l.received space⟩ at offered
      rw [if_pos marked] at offered
      simpa only [Function.update_self] using offered
    · simp only [Function.update_self]
      exact List.forall_mem_cons.mpr ⟨number, tracks.numbers⟩
  · cases admitted

theorem Tracks.other {changed : PacketSpace}
    (different : space ≠ changed) (stored : s.spaces = l.session.spaces.insert changed state') :
    Tracks { session := s, received := Function.update l.received changed (pn :: l.received changed) } space state := by
  have same : Function.update l.received changed (pn :: l.received changed) space = l.received space :=
    Function.update_of_ne different _ _
  refine ⟨?_, ?_, ?_, ?_⟩
  · rw [stored, get?_insert, if_neg different]
    exact tracks.found
  · simp only [SpaceLedger.largest, same]
    exact tracks.largest
  · simp only [same]
    exact tracks.faithful
  · simp only [same]
    exact tracks.numbers

end

theorem Sound.inbound (sound : l.Sound) (now : Instant) (bytes : Bytes) :
    (l.step crypto (.onInbound now bytes)).Sound := by
  have spaces := l.session.onInbound_spaces crypto now bytes
  have unchanged : (∃ e, (l.session.admitPacket crypto now bytes).1 = .error e) ∧
      (l.session.admitPacket crypto now bytes).2.spaces = l.session.spaces →
        (l.step crypto (.onInbound now bytes)).Sound := by
    rintro ⟨⟨e, refused⟩, same⟩ space
    obtain ⟨state, tracks⟩ := sound space
    simp only [step, refused]
    exact tracks.of_reception (sameReception_of_spaces (spaces.trans same))
  cases opened : l.session.openInbound crypto bytes with
  | error e => exact unchanged (admitPacket_unopened crypto l.session opened)
  | ok packet =>
    obtain ⟨state, tracks⟩ := sound packet.space
    have outcome := @admitPacket_opened crypto l.session now bytes packet state opened tracks.found
    split at outcome
    · exact unchanged outcome
    · next received state' admitted =>
      obtain ⟨accepted, stored⟩ := outcome
      intro space
      simp only [step, accepted]
      by_cases here : spaceOf space = spaceOf packet.space
      · rw [here]
        exact ⟨state', tracks.receive admitted (parseProtectedPacket_number opened) (spaces.trans stored)⟩
      · obtain ⟨other, tracked⟩ := sound space
        exact ⟨other, tracked.other here (spaces.trans stored)⟩

theorem Sound.step (sound : l.Sound) (call : Call) : (l.step crypto call).Sound := by
  cases call with
  | onInbound now bytes => exact sound.inbound now bytes
  | _ =>
    intro space
    obtain ⟨state, tracks⟩ := sound space
    exact tracks.of_reception (Call.reception crypto l.session (by simp))

theorem after_sound (begun : Session.new crypto config = .ok s) : (after crypto s calls).Sound :=
  @Run.invariant _ _ (step crypto) Sound calls (start s) (fun _ call sound => sound.step call) (start_sound begun)

section
variable {space : ShortPacketSpace} {dcid : Octets 8} {pathId : Nat} {keyPhase : Bool} {payload bytes : Bytes}

theorem Sound.accepts (sound : l.Sound) (opens : PacketKeys.OpensSealed crypto) (now : Instant)
    (built : buildProtectedPacket crypto l.session.remoteKeys l.session.remoteHpKey space dcid.1 pathId pn keyPhase
      payload = .ok bytes)
    (number : reconstruct (pn % 2 ^ 16) 16 (l.largest .sessionData + 1) = .ok pn) :
    if l.Takes (spaceOf space) pn then
      (l.session.admitPacket crypto now bytes).1 = .ok { space, dcid := dcid.1, pathId, pn, payload }
    else ∃ e, (l.session.admitPacket crypto now bytes).1 = .error e := by
  obtain ⟨data, tracksData⟩ := sound .sessionData
  obtain ⟨state, tracks⟩ := sound space
  have opened : l.session.openInbound crypto bytes = .ok ⟨space, dcid.1, pathId, pn, payload⟩ := by
    rw [Session.openInbound, Tracks.expectedPn tracksData]
    exact parseProtectedPacket_of_reconstruct opens dcid.2 number built
  have outcome := @admitPacket_opened crypto l.session now bytes _ state opened tracks.found
  have takes := tracks.admits_iff (reconstruct_le number)
  rw [admitReconstructed_eq state (l.received (spaceOf space))] at outcome
  split
  · next taken =>
    simp only [takes.mpr taken, if_true] at outcome
    exact outcome.1
  · next refused =>
    simp only [mt takes.mp refused] at outcome
    exact outcome.1

end

/-- After any calls, with a cipher that opens what it seals and under no other nonce: a packet protected with
the session's remote keys is admitted exactly if its number is the one nearest to what the session data space
expects, whatever its own space has received, and the replay window of its own space takes it. -/
theorem space_acceptance_iff (opens : PacketKeys.OpensSealed crypto)
    (binds : PacketKeys.BindsNonce crypto) {config : SessionConfig} {s : Session}
    (begun : Session.new crypto config = .ok s) (calls : List Call) (now : Instant) (space : ShortPacketSpace)
    (dcid : Octets 8) (pathId pn : Nat) (keyPhase : Bool) (payload bytes : Bytes) (word : pn ≤ u64Max)
    (built : buildProtectedPacket crypto (after crypto s calls).session.remoteKeys
      (after crypto s calls).session.remoteHpKey space dcid.1 pathId pn keyPhase payload = .ok bytes) :
    ((after crypto s calls).session.admitPacket crypto now bytes).1.toOption.isSome = true ↔
      reconstruct (pn % 2 ^ 16) 16 ((after crypto s calls).largest .sessionData + 1) = .ok pn ∧
        (after crypto s calls).Takes (spaceOf space) pn := by
  have sound : (after crypto s calls).Sound := after_sound begun
  generalize after crypto s calls = l at sound built ⊢
  by_cases number : reconstruct (pn % 2 ^ 16) 16 (l.largest .sessionData + 1) = .ok pn
  · have verdict := sound.accepts opens now built number
    split at verdict
    · next taken =>
      rw [verdict]
      exact ⟨fun _ => ⟨number, taken⟩, fun _ => rfl⟩
    · next refused =>
      obtain ⟨e, failed⟩ := verdict
      rw [failed]
      exact ⟨nofun, fun accepted => absurd accepted.2 refused⟩
  · obtain ⟨data, tracksData⟩ := sound .sessionData
    have expected : l.session.expectedPn = l.largest .sessionData + 1 := Tracks.expectedPn tracksData
    obtain ⟨e, unopened⟩ := parseProtectedPacket_of_misnumbered binds dcid.2 word number built
    rw [← expected] at unopened
    obtain ⟨⟨e, refused⟩, -⟩ := @admitPacket_unopened crypto l.session now bytes e unopened
    rw [refused]
    exact ⟨nofun, fun accepted => absurd accepted.1 number⟩

/-- A server whose cipher is bound to its nonce. -/
def boundServer : Session := started nonceTagged tenByteConfig (by decide +kernel)

/-- A packet for the server with a PING frame. -/
def pingPacket (space : ShortPacketSpace) (pn : Nat) : Except PacketBuildError Bytes :=
  buildProtectedPacket nonceTagged boundServer.remoteKeys boundServer.remoteHpKey space (copyInto 8 [7]).1 0 pn false
    [0x04]

/-- The calls that receive packets of the session data space. -/
def receiving (numbers : List Nat) : List Call :=
  numbers.map fun pn => .onInbound 0 ((pingPacket .sessionData pn).toOption.getD [])

/-- Two packets of the session data space are received. The first relay packet is number 5, and is accepted. -/
theorem space_acceptance_iff_after_data : let l := after nonceTagged boundServer (receiving [100, 300])
    l.received .sessionData = [300, 100] ∧ ∃ bytes, pingPacket .relayData 5 = .ok bytes ∧
      (l.session.admitPacket nonceTagged 0 bytes).1.toOption.isSome = true := by
  intro l
  have keys : boundServer.remoteKeys = l.session.remoteKeys ∧ boundServer.remoteHpKey = l.session.remoteHpKey := by
    decide +kernel
  have builds : (pingPacket .relayData 5).toOption.isSome = true := by decide +kernel
  refine ⟨by decide +kernel, ?_⟩
  cases built : pingPacket .relayData 5 with
  | error e =>
    rw [built] at builds
    cases builds
  | ok bytes =>
    rw [pingPacket, keys.1, keys.2] at built
    refine ⟨bytes, rfl, (space_acceptance_iff (fun key nonce aad msg sealed sealing => ?_) nonceTagged_bindsNonce
      (new_started _) (receiving [100, 300]) 0 .relayData (copyInto 8 [7]) 0 5 false [0x04] bytes (by decide)
      built).mpr (by decide +kernel)⟩
    rw [nonceTagged_opens sealing, if_pos rfl]

/-- Packets 30000 and 60000 of the session data space are received. Then packet 0 of the path control space is
refused: its number is taken for 65536. -/
theorem quiet_space_refused :
    let l := after nonceTagged boundServer (receiving [30000, 60000])
    l.received .sessionData = [60000, 30000] ∧
      l.received .pathControl = [] ∧
      (pingPacket .pathControl 0).map (fun bytes => (l.session.onInbound nonceTagged 0 bytes).1) =
        .ok (.error (.packet (.aead .decryptFailed))) ∧
      l.session.remoteKeys = boundServer.remoteKeys ∧
      l.session.remoteHpKey = boundServer.remoteHpKey := by
  decide +kernel

end SpaceLedger
end UniversalMesh.Session
