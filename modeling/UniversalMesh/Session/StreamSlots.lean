import UniversalMesh.Session.StreamTable
import UniversalMesh.Session.SpaceIndependence
import UniversalMesh.Wire.RoundTrip

/-! The identity of streams: which ids a session ever has in its table and where they come from, and that a
stream whose receiving half is over delivers nothing more. -/
namespace UniversalMesh.Session
open Wire Crypto OrderedMap

section
variable {crypto : Primitives} {s : Session}

/-! The receiving half of a stream that is over. -/

/-- The receiving half of a stream of the table is over: read to its end, or reset by the peer. -/
def Ended (s : Session) (id : Nat) : Prop := ∃ stream, s.streams.get? id = some stream ∧ recvClosed stream = true

theorem Ended.progresses {s' : Session} {id : Nat} (ended : s.Ended id) (progresses : Progresses s s') : s'.Ended id := by
  obtain ⟨stream, found, closed⟩ := ended
  obtain ⟨stream', found', evolves⟩ := progresses.kept id stream found
  exact ⟨stream', found', evolves.closed closed⟩

theorem Ended.silent {id : Nat} (ended : s.Ended id) (table : s.Table) {data : Bytes} {eof : Bool}
    (read : (s.readStream id).1 = .ok (data, eof)) : data = [] := by
  obtain ⟨stream, found, closed⟩ := ended
  simp only [readStream, found] at read
  split at read
  · cases read
  next notReset =>
  split at read
  · cases read
  next notRead =>
  have readOut : stream.recvState = .dataRead := by
    simpa [recvClosed, notReset, notRead] using closed
  cases read
  exact Stream.readAvailable_of_drained (table.orderly id stream found readOut)

theorem ended_of_eof {id : Nat} {data : Bytes} (read : (s.readStream id).1 = .ok (data, true)) :
    (s.readStream id).2.Ended id := by
  simp only [readStream] at read ⊢
  split at read
  · cases read
  next stream found =>
  split at read
  · cases read
  next notReset =>
  split at read
  · cases read
  next notRead =>
  have eof : stream.readAvailable.1.2 = true := congrArg Prod.snd (Except.ok.inj read)
  have kept := accountRead_table (s.setStream id stream.readAvailable.2) id stream.readAvailable.1.1.length
  rw [if_neg notReset, if_neg notRead]
  refine ⟨stream.readAvailable.2, ?_, Stream.readAvailable_eof eof⟩
  rw [if_pos eof, closeReadStream, kept.streams]
  exact get?_insert_self

/-- The frame resets a stream of the table, and is accepted. -/
def IsReset (id : Nat) (s : Session) (frame : Frame) : Prop :=
  ∃ f, frame = .resetStream f ∧ f.streamId = id ∧ (s.streams.get? id).isSome = true ∧ (s.applyResetStream f).1 = .ok ()

theorem ended_of_reset (known : (s.streams.get? f.streamId).isSome = true)
    (accepted : (s.applyResetStream f).1 = .ok ()) : (s.applyResetStream f).2.Ended f.streamId := by
  obtain ⟨stream, found⟩ := Option.isSome_iff_exists.mp known
  unfold applyResetStream at accepted ⊢
  split at accepted
  · cases accepted
  next notClosed =>
  rw [if_neg notClosed]
  rw [found] at accepted ⊢
  dsimp only at accepted ⊢
  split at accepted
  · cases accepted
  next covered =>
  split at accepted
  · cases accepted
  next agrees =>
  rw [if_neg covered, if_neg agrees]
  split at accepted
  · cases accepted
  · exact ⟨_, get?_insert_self, rfl⟩

theorem ended_of_frames {id : Nat} {now : Instant} {pathId : Nat} {response : Bytes} {frames : List Frame}
    (reset : ¬s.EachFrame crypto (fun s frame => ¬IsReset id s frame) now pathId frames) :
    (s.applyFrames crypto now pathId response frames).2.Ended id := by
  induction frames generalizing s response with
  | nil => exact absurd trivial reset
  | cons frame rest ih =>
    have lasts : ∀ {s' : Session} {response : Bytes}, s'.Ended id →
        (s'.applyFrames crypto now pathId response rest).2.Ended id := by
      intro s' response ended
      have kept : ∀ s frame, True → Ended s id → Ended (s.applyFrame crypto now pathId frame).2 id :=
        fun s frame _ ended => ended.progresses (.of_advances (s.applyFrame_advances crypto now pathId frame))
      exact applyFrames_invariant kept (eachFrame_of_mem fun _ _ _ => trivial) ended
    rw [EachFrame, not_and_or, not_not] at reset
    unfold applyFrames
    obtain ⟨f, rfl, rfl, known, accepted⟩ | later := reset
    · have ended := ended_of_reset known accepted
      cases shape : s.applyResetStream f with
      | mk result s' =>
        rw [shape] at ended accepted
        simp only [applyFrame, silently, shape, accepted, Except.map]
        exact lasts ended
    · cases shape : s.applyFrame crypto now pathId frame with
      | mk result s' =>
        rw [shape] at later
        cases result with
        | error e => exact absurd trivial later
        | ok out => exact ih later

theorem ended_of_inbound {id : Nat} {now : Instant} {bytes : Bytes}
    (reset : ¬s.EachInboundFrame crypto (fun s frame => ¬IsReset id s frame) now bytes) :
    (s.onInbound crypto now bytes).2.Ended id := by
  unfold EachInboundFrame at reset
  unfold onInbound applyPacket
  cases admitted : s.admitPacket crypto now bytes with
  | mk result s' =>
    rw [admitted] at reset
    cases result with
    | error e => exact absurd trivial reset
    | ok packet =>
      cases parsed : parsePayload (.protectedSpace packet.space) packet.payload with
      | error e =>
        simp only [parsed] at reset
        exact absurd trivial reset
      | ok frames =>
        simp only [parsed] at reset
        have ended := @ended_of_frames crypto _ id now packet.pathId [] frames reset
        simp only [parsed]
        split
        · next failed => exact failed ▸ ended
        · next applied =>
          rw [applied] at ended
          obtain ⟨_, written⟩ := emitAck_writes _ (spaceOf packet.space) _
          exact ended.progresses (.of_same (written ▸ ⟨rfl, fun _ => rfl, rfl⟩))

/-! Where the ids come from. -/

/-- The kind and the id of the stream that a call opens. -/
def openedId (s : Session) : Call → Option (Bool × Nat)
  | .data (.openStreamKind kind) => (s.openStreamKind kind).1.toOption.map (kind, ·)
  | .data (.openStreamWithProtocol protocolId kind) => (s.openStreamWithProtocol protocolId kind).1.toOption.map (kind, ·)
  | _ => none

theorem openStreamKind_allocates {kind : Bool} {id : Nat} (table : s.Table) (opened : (s.openStreamKind kind).1 = .ok id) :
    id = localId s.role kind (s.nextOutgoing kind) ∧
      s.nextOutgoing kind < (s.openStreamKind kind).2.nextOutgoing kind := by
  obtain ⟨-, refused⟩ | ⟨-, answered, opens⟩ := table.openStreamKind kind
  · rw [refused] at opened
    cases opened
  · refine ⟨Except.ok.inj (opened.symm.trans answered), ?_⟩
    rw [opens.next, if_pos rfl]
    exact Nat.lt_succ_self _

theorem openedId_allocates {call : Call} {kind : Bool} {id : Nat} (table : s.Table)
    (opened : s.openedId call = some (kind, id)) :
    id = localId s.role kind (s.nextOutgoing kind) ∧ s.nextOutgoing kind < (call.run crypto s).nextOutgoing kind := by
  unfold openedId at opened
  split at opened
  · next kind' =>
    obtain ⟨id', answered, same⟩ := Option.map_eq_some_iff.mp opened
    cases same
    exact openStreamKind_allocates table (ok_of_toOption answered)
  · next protocolId kind' =>
    obtain ⟨id', answered, same⟩ := Option.map_eq_some_iff.mp opened
    cases same
    simp only [Call.run, DataCall.run]
    unfold openStreamWithProtocol at answered ⊢
    split at answered
    · cases answered
    next short =>
    rw [if_neg short]
    cases shape : s.openStreamKind kind with
    | mk result s' =>
      have allocates := fun id opened => @openStreamKind_allocates s kind id table opened
      rw [shape] at answered allocates
      cases result with
      | error e => cases answered
      | ok id' =>
        dsimp only at answered allocates ⊢
        split at answered
        · cases answered
          exact allocates _ rfl
        · cases answered
          exact allocates _ rfl
  · cases opened

/-- The call that put a stream of the peer into the table. -/
theorem opened_by_peer (table : s.Table) (empty : s.streams = .empty) {id : Nat}
    (present : ((s.after crypto calls).streams.get? id).isSome = true) (bit : id % 2 ≠ initiatorBit s.role) :
    ∃ before now bytes later, calls = before ++ .onInbound now bytes :: later ∧
      (s.after crypto before).streams.get? id = none ∧
      OpenedBy s.role ((s.after crypto before).inboundFrames crypto now bytes) id := by
  induction calls using List.reverseRecOn with
  | nil =>
    rw [after, List.foldl_nil, empty] at present
    cases present
  | append_singleton before call ih =>
    cases known : (s.after crypto before).streams.get? id with
    | some stream =>
      rw [known] at ih
      obtain ⟨earlier, now, bytes, later, rfl, found⟩ := ih rfl
      exact ⟨earlier, now, bytes, later ++ [call], by simp, found⟩
    | none =>
      obtain ⟨reached, progress⟩ := @after_progresses crypto s table before
      obtain ⟨stream, found⟩ := Option.isSome_iff_exists.mp present
      rw [after_append] at found
      obtain advances | ⟨kind, between, opens, advances⟩ := @Call.table crypto _ reached call
      · obtain ⟨⟨now, bytes, rfl, opened⟩, -⟩ := advances.added id stream found known
        exact ⟨before, now, bytes, [], rfl, known, progress.role ▸ opened⟩
      · -- the session's own stream has the other initiator bit
        exfalso
        cases there : between.streams.get? id with
        | none => exact (advances.added id stream found there).1
        | some other =>
          rcases get?_insert_eq_some.mp (opens.streams ▸ there) with ⟨rfl, -⟩ | ⟨-, held⟩
          · rw [localId_fields.1, progress.role] at bit
            exact bit rfl
          · cases known.symm.trans held

end

structure StreamIdentity (crypto : Primitives) (s : Session) (calls : List Call) : Prop where
  /-- The streams of the table have different ids. -/
  distinct : ((s.after crypto calls).streams.entries.map fun entry => entry.2.streamId).Nodup
  /-- An id that is opened has the session's initiator bit and that of its direction, and is new to the table.
  -/
  allocated : ∀ call kind id, (s.after crypto calls).openedId call = some (kind, id) →
    id % 4 = (initiatorBit s.role ||| if kind then 2 else 0) ∧ (s.after crypto calls).streams.get? id = none
  /-- It is larger than every id that was opened of the kind before. -/
  increasing : ∀ before earlier later call kind first second, calls = before ++ earlier :: later →
    (s.after crypto before).openedId earlier = some (kind, first) →
    (s.after crypto calls).openedId call = some (kind, second) → first < second
  /-- Every other id came with a STREAM frame that has OPEN set, and has the initiator bit of the peer. -/
  fromPeer : ∀ id, ((s.after crypto calls).streams.get? id).isSome = true → id % 2 ≠ initiatorBit s.role →
    ∃ before now bytes later, calls = before ++ .onInbound now bytes :: later ∧
      (s.after crypto before).streams.get? id = none ∧
      OpenedBy s.role ((s.after crypto before).inboundFrames crypto now bytes) id
  /-- A stream that is read to its end delivers nothing after that. -/
  afterEof : ∀ id data, ((s.after crypto calls).readStream id).1 = .ok (data, true) →
    ∀ more late eof, ((s.after crypto (calls ++ .data (.readStream id) :: more)).readStream id).1 = .ok (late, eof) →
      late = []
  /-- Nor does one that a frame has reset. -/
  afterReset : ∀ id now bytes,
    ¬(s.after crypto calls).EachInboundFrame crypto (fun s frame => ¬IsReset id s frame) now bytes →
    ∀ more late eof, ((s.after crypto (calls ++ .onInbound now bytes :: more)).readStream id).1 = .ok (late, eof) →
      late = []

/-- Stream identity, in every state that calls lead to from a new session. -/
theorem stream_identity {crypto : Primitives} {config : SessionConfig} {s : Session}
    (begun : Session.new crypto config = .ok s) (calls : List Call) : StreamIdentity crypto s calls := by
  have start := new_table begun
  have reached : ∀ calls, (s.after crypto calls).Table := fun calls => (after_progresses start calls).1
  have role : (s.after crypto calls).role = s.role := (after_progresses start calls).2.role
  -- a stream that is over behind a call is over behind all that follow
  have quiet : ∀ call id, ((call.run crypto (s.after crypto calls))).Ended id → ∀ more late eof,
      ((s.after crypto (calls ++ call :: more)).readStream id).1 = .ok (late, eof) → late = [] := by
    intro call id ended more late eof read
    have table : (call.run crypto (s.after crypto calls)).Table := (Call.progresses (reached calls) call).1
    rw [after_append] at read
    exact (ended.progresses (after_progresses table more).2).silent (after_progresses table more).1 read
  refine ⟨?_, ?_, ?_, ?_, ?_, ?_⟩
  · have named : ((s.after crypto calls).streams.entries.map fun entry => entry.2.streamId) =
        (s.after crypto calls).streams.entries.map Prod.fst :=
      List.map_congr_left fun entry member => (reached calls).named entry.1 entry.2 (get?_eq_some.mpr member)
    rw [named]
    exact (s.after crypto calls).streams.sorted.map _ fun _ _ => ne_of_lt
  · intro call kind id opened
    obtain ⟨rfl, -⟩ := @openedId_allocates crypto _ call kind id (reached calls) opened
    refine ⟨?_, (reached calls).missing kind⟩
    rw [role, localId]
    cases s.role <;> cases kind <;> simp [initiatorBit]
  · rintro before earlier later call kind first second rfl opened again
    obtain ⟨table, -⟩ := @Call.progresses crypto _ (reached before) earlier
    have later_ids := (@after_progresses crypto _ table later).2.next kind
    have same := role.trans (@after_progresses crypto s start before).2.role.symm
    obtain ⟨rfl, taken⟩ := @openedId_allocates crypto _ earlier kind first (reached before) opened
    obtain ⟨rfl, -⟩ := @openedId_allocates crypto _ call kind second (reached _) again
    rw [same]
    rw [after_append, localId, localId]
    exact Nat.add_lt_add_right (Nat.mul_lt_mul_of_pos_right (taken.trans_le later_ids) (by decide)) _
  · exact fun id present bit => opened_by_peer start (new_fresh begun).streams present bit
  · exact fun id data read => quiet (.data (.readStream id)) id (ended_of_eof read)
  · exact fun id now bytes reset => quiet (.onInbound now bytes) id (ended_of_inbound reset)

/-- The server opens stream 1 and the peer stream 0. -/
theorem stream_identity_both_sides :
    let calls := [.data (.openStreamKind false), .onInbound 0 (plainPacket 0 (openingFrame [1, 2]))]
    (tenByteServer.after transparent calls).streams.entries.map Prod.fst = [0, 1] ∧
      StreamIdentity transparent tenByteServer calls :=
  ⟨by decide +kernel, stream_identity (new_started _) _⟩

/-! How many streams a session can open. The cap is on the table, which holds every stream that the session ever
had, finished or not. -/

variable {s : Session}

/-- Both directions of the stream are over. -/
def Stream.finished (stream : Stream) : Bool := stream.sendClosed && recvClosed stream

/-- The streams that are not finished. -/
def unfinished (s : Session) : Nat := (s.streams.entries.filter fun entry => !entry.2.finished).length

/-- The streams of a kind that MAX_STREAMS allows are not all opened. -/
def HasStreamCredit (s : Session) (kind : Bool) : Prop :=
  s.nextOutgoing kind <
    if kind then s.flow.maxUnidirectionalStreamsLocal else s.flow.maxBidirectionalStreamsLocal

/-- In every state that calls lead to from a new session, another stream can be opened exactly if fewer than the
cap are in the table; and the table holds every stream that was ever in it. -/
theorem stream_cap_counts_every_stream {crypto : Primitives} {config : SessionConfig} {s : Session}
    (begun : Session.new crypto config = .ok s) (calls : List Call) :
    (∀ kind, ((s.after crypto calls).openStreamKind kind).1.toOption.isSome = true ↔
      (s.after crypto calls).streams.size < maxStreamsPerSession) ∧
    ∀ id, ((s.after crypto calls).streams.get? id).isSome = true ↔
      ∃ before later, calls = before ++ later ∧ ((s.after crypto before).streams.get? id).isSome = true := by
  have reached : ∀ calls, (s.after crypto calls).Table := fun calls => (after_progresses (new_table begun) calls).1
  refine ⟨fun kind => ?_, fun id => ⟨fun present => ⟨calls, [], (List.append_nil calls).symm, present⟩, ?_⟩⟩
  · obtain ⟨full, refused⟩ | ⟨room, answered, -⟩ := (reached calls).openStreamKind kind
    · rw [refused]
      exact ⟨nofun, fun room => absurd room (Nat.not_lt.mpr full)⟩
    · rw [answered]
      exact ⟨fun _ => room, fun _ => rfl⟩
  · rintro ⟨before, later, rfl, present⟩
    obtain ⟨stream, found⟩ := Option.isSome_iff_exists.mp present
    obtain ⟨stream', found', -⟩ := (@after_progresses crypto _ (reached before) later).2.kept id stream found
    rw [after_append, found']
    rfl

/-- The server opens streams 1 and 3 and the peer stream 0, which is reset. -/
def threeStreams : List Call :=
  [.data (.openStreamKind false), .data (.openStreamKind true), .onInbound 0 (plainPacket 0 (openingFrame [1, 2])),
    .data (.resetStreamPayload 0 0)]

theorem stream_cap_counts_every_stream_three : let s := tenByteServer.after transparent threeStreams
    s.streams.size = 3 ∧ (s.openStreamKind false).1.toOption.isSome = true ∧ (s.streams.get? 0).isSome = true := by
  obtain ⟨opens, keeps⟩ := stream_cap_counts_every_stream (new_started _) threeStreams
  refine ⟨by decide +kernel, (opens false).mpr (by decide +kernel), (keeps 0).mpr ⟨threeStreams.take 3, _, rfl, ?_⟩⟩
  decide +kernel

/-! ### A session that opens streams and has them finished -/

/-- The registry of closed streams and the MAX_STREAMS credit are the same. -/
structure SameGrants (s s' : Session) : Prop where
  closed : s'.closedStreams = s.closedStreams
  credit : s'.flow.maxBidirectionalStreamsLocal = s.flow.maxBidirectionalStreamsLocal

theorem SameGrants.trans (first : SameGrants s s') (second : SameGrants s' s'') : SameGrants s s'' :=
  ⟨second.closed.trans first.closed, second.credit.trans first.credit⟩

section
variable (crypto : Primitives) (s : Session)

theorem openStreamKind_grants (kind : Bool) : SameGrants s (s.openStreamKind kind).2 := by
  simp only [openStreamKind, setNextOutgoing]
  repeat' split
  all_goals exact ⟨rfl, rfl⟩

theorem applyResetStream_grants (f : ResetStreamFrame) : SameGrants s (s.applyResetStream f).2 := by
  unfold applyResetStream
  split
  · exact ⟨rfl, rfl⟩
  split
  · exact ⟨rfl, rfl⟩
  split
  · exact ⟨rfl, rfl⟩
  split
  · exact ⟨rfl, rfl⟩
  dsimp only
  split
  · exact ⟨rfl, rfl⟩
  · next charged =>
    refine ⟨rfl, ?_⟩
    split at charged
    · cases charged
      rfl
    · exact FlowControl.consume_streams charged

end

/-- A RESET_STREAM frame is written in a short payload, and is all that is read from it. -/
theorem reset_payload (f : ResetStreamFrame) (stream : f.streamId ≤ Varint.maxVarint)
    (code : f.appErrorCode ≤ Varint.maxVarint) (size : f.finalSize ≤ Varint.maxVarint) (space : ShortPacketSpace) :
    ∃ payload : Bytes, payload.length + 48 ≤ maxPacketSize ∧
      parsePayload (.protectedSpace space) payload = .ok [.resetStream f] := by
  obtain ⟨payload, encoded, short⟩ : ∃ payload, f.encode = .ok payload ∧ payload.length ≤ 32 := by
    refine ⟨_, ResetStreamFrame.encode_of_le stream code size, ?_⟩
    have first := Varint.encoding_length_le FrameType.resetStream.value
    have second := Varint.encoding_length_le f.streamId
    have third := Varint.encoding_length_le f.appErrorCode
    have fourth := Varint.encoding_length_le f.finalSize
    rw [List.length_append, List.length_append, List.length_append]
    omega
  have decoded := Frame.decodeFrames_alone (ResetStreamFrame.round_trip encoded) rfl fun _ => rfl
  have limit : 80 ≤ maxPacketSize := by decide
  refine ⟨payload, by omega, ?_⟩
  rw [parsePayload, if_neg (by omega), decoded]
  rfl

theorem onInbound_grants
    (frames : s.inboundFrames crypto now bytes = [.resetStream f]) : SameGrants s (s.onInbound crypto now bytes).2 := by
  refine onInbound_invariant (fun _ _ _ _ _ _ before => ⟨before.closed, before.credit⟩)
    (fun pathId s' frame member before => before.trans ?_) eachInboundFrame_mem ⟨rfl, rfl⟩
  rw [frames, List.mem_singleton] at member
  rw [member]
  exact s'.applyResetStream_grants f

/-- A stream on which nothing was received is over behind a packet that resets it. -/
theorem ended_of_reset_packet
    (admitted : (s.admitPacket crypto now bytes).1 = .ok packet)
    (parsed : parsePayload (.protectedSpace packet.space) packet.payload = .ok [.resetStream f])
    (known : s.streams.get? f.streamId = some stream) (unreceived : stream.maxReceivedOffset = 0)
    (endless : stream.finalSize = none) (empty : f.finalSize = 0)
    (unregistered : s.closedStreams.contains f.streamId = false) : (s.onInbound crypto now bytes).2.Ended f.streamId := by
  apply ended_of_inbound
  obtain ⟨_, _, _, _, written⟩ := s.admitPacket_writes crypto now bytes
  unfold EachInboundFrame
  cases shape : s.admitPacket crypto now bytes with
  | mk result s' =>
    rw [shape] at admitted written
    dsimp only at admitted written
    subst admitted
    -- the frame is met in a session with the same streams and the same registry
    obtain ⟨_, idle⟩ := s'.resetIdleTimer_writes [.resetStream f] now
    have found : (s'.resetIdleTimer [.resetStream f] now).streams.get? f.streamId = some stream := by
      rw [idle, written]
      exact known
    have accepts : (s'.resetIdleTimer [.resetStream f] now).AcceptsReset f := by
      refine ⟨by rw [idle, written]; exact unregistered, fun other here => ?_⟩
      obtain rfl : stream = other := Option.some.inj (found.symm.trans here)
      rw [unreceived, endless, empty]
      exact ⟨Nat.le_refl _, rfl, fun _ => (s'.resetIdleTimer [.resetStream f] now).flow.within⟩
    obtain ⟨_, accepted⟩ := applyResetStream_isOk.mpr accepts
    simp only [parsed]
    exact fun none => none.1 ⟨f, rfl, rfl, by rw [found]; rfl, accepted⟩

theorem Advances.size_eq (advances : Advances (fun _ => False) s s') : s'.streams.size = s.streams.size := by
  refine Nat.le_antisymm (size_le_of_keys fun id present => ?_) advances.size_le
  obtain ⟨stream, found⟩ := Option.isSome_iff_exists.mp present
  by_contra missing
  exact (advances.added id stream found (Option.not_isSome_iff_eq_none.mp missing)).1

/-- The two calls that open a bidirectional stream and reset it. -/
def openAndReset (id : Nat) : List Call := [.data (.openStreamKind false), .data (.resetStreamPayload id 0)]

theorem Table.openAndReset (crypto : Primitives) (table : s.Table)
    (room : s.streams.size < maxStreamsPerSession) :
    ∃ id s', s' = s.after crypto (openAndReset id) ∧ id ≤ 4 * maxStreamsPerSession ∧
      SameGrants s s' ∧ s'.nextOutgoing false = s.nextOutgoing false + 1 ∧ s'.streams.size = s.streams.size + 1 ∧
      s'.streams.get? id = some { Stream.new id [] s.defaultMaxStreamData with sendState := .resetSent } ∧
      ∀ other, other ≠ id → s'.streams.get? other = s.streams.get? other := by
  obtain ⟨full, -⟩ | ⟨-, -, opens⟩ := table.openStreamKind false
  · omega
  have missing := table.missing false
  have counted := table.counted
  have streams := opens.streams
  have small : localId s.role false (s.nextOutgoing false) ≤ 4 * maxStreamsPerSession := by
    have bit : initiatorBit s.role ||| 0 ≤ 1 := by cases s.role <;> decide
    rw [localId]
    simp only [Bool.false_eq_true, if_false]
    omega
  generalize localId s.role false (s.nextOutgoing false) = new at missing streams small
  have granted := s.openStreamKind_grants false
  have next := opens.next false
  have shape : s.after crypto (UniversalMesh.Session.openAndReset new) =
      ((s.openStreamKind false).2.resetStreamPayload new 0).2 := rfl
  generalize (s.openStreamKind false).2 = opened at streams granted next shape
  have found : opened.streams.get? new = some (Stream.new new [] s.defaultMaxStreamData) := by
    rw [streams]
    exact get?_insert_self
  simp only [resetStreamPayload, found] at shape
  have put : Advances (fun _ => False) opened (s.after crypto (UniversalMesh.Session.openAndReset new)) := by
    rw [shape]
    exact .set found ⟨rfl, fun _ => rfl, id, id⟩
  refine ⟨new, _, rfl, small, ?_, ?_, ?_, ?_, fun other different => ?_⟩
  · rw [shape]
    exact ⟨granted.closed, granted.credit⟩
  · rw [put.next, next, if_pos rfl]
  · rw [put.size_eq, streams, size_insert missing]
  · rw [shape]
    exact get?_insert_self
  · rw [shape, setStream]
    dsimp only
    rw [get?_insert_of_ne different, streams, get?_insert_of_ne different]

namespace SpaceLedger
variable {crypto : Primitives} {l : SpaceLedger}

theorem after_session : (after crypto s calls).session = s.after crypto calls := by
  have follows : ∀ l : SpaceLedger, (calls.foldl (step crypto) l).session = l.session.after crypto calls := by
    induction calls with
    | nil => exact fun _ => rfl
    | cons call rest ih => exact fun l => ih (l.step crypto call)
  exact follows (start s)

theorem Sound.resets (sound : l.Sound) (opens : PacketKeys.OpensSealed crypto) (seals : SealsPackets crypto)
    {id pn : Nat} (known : l.session.streams.get? id = some stream)
    (unreceived : stream.maxReceivedOffset = 0) (endless : stream.finalSize = none)
    (word : id ≤ Varint.maxVarint) (unregistered : l.session.closedStreams.contains id = false)
    (number : PacketNumber.reconstruct (pn % 2 ^ 16) 16 (l.largest .sessionData + 1) = .ok pn)
    (takes : l.Takes (spaceOf .sessionData) pn) :
    ∃ bytes, (l.step crypto (.onInbound 0 bytes)).session.Ended id ∧
      (l.step crypto (.onInbound 0 bytes)).received .sessionData = pn :: l.received .sessionData ∧
      SameGrants l.session (l.step crypto (.onInbound 0 bytes)).session ∧
      Advances (fun _ => False) l.session (l.step crypto (.onInbound 0 bytes)).session := by
  obtain ⟨payload, short, parsed⟩ := reset_payload { streamId := id, appErrorCode := 0, finalSize := 0 } word
    (Nat.zero_le _) (Nat.zero_le _) .sessionData
  obtain ⟨bytes, built⟩ := @buildProtectedPacket_isOk crypto l.session.remoteKeys l.session.remoteHpKey .sessionData
    (copyInto 8 []).1 payload 0 pn false seals (by decide) short
  have accepted := sound.accepts opens 0 built number
  rw [if_pos takes] at accepted
  have frames : l.session.inboundFrames crypto 0 bytes =
      [.resetStream { streamId := id, appErrorCode := 0, finalSize := 0 }] := by
    unfold inboundFrames
    split
    · next refused =>
      rw [refused] at accepted
      cases accepted
    · next packet s' admitted =>
      rw [admitted] at accepted
      cases accepted
      rw [parsed]
      rfl
  refine ⟨bytes, ended_of_reset_packet accepted parsed known unreceived endless rfl unregistered, ?_,
    onInbound_grants frames, (l.session.onInbound_advances crypto 0 bytes).mono ?_⟩
  · simp only [SpaceLedger.step, accepted]
    exact Function.update_self ..
  · rw [frames]
    rintro id ⟨f, member, -⟩
    cases List.mem_singleton.mp member

/-- The server has opened `n` streams, which are all finished, and may open up to 2000. -/
structure Filled (n : Nat) (l : SpaceLedger) : Prop where
  reached : ∃ calls, l = after transparent tenByteServer calls
  numbers : ∀ q ∈ l.received .sessionData, q ≤ n
  size : l.session.streams.size = n
  next : l.session.nextOutgoing false = n
  finished : ∀ id stream, l.session.streams.get? id = some stream → stream.finished = true
  registry : l.session.closedStreams.order = []
  credit : l.session.flow.maxBidirectionalStreamsLocal = 2000

/-- A MAX_STREAMS frame for 2000 bidirectional streams. -/
def moreStreams : Call := .onInbound 0 (plainPacket 0 [0x24, 0x00, 0x47, 0xD0])

theorem filled_zero : Filled 0 (after transparent tenByteServer [moreStreams]) := by
  refine ⟨⟨_, rfl⟩, by decide +kernel, by decide +kernel, by decide +kernel, fun id stream found => ?_, by decide +kernel,
    by decide +kernel⟩
  have empty : (after transparent tenByteServer [moreStreams]).session.streams.entries = [] := by decide +kernel
  rw [OrderedMap.get?, empty] at found
  cases found

theorem Filled.table (filled : Filled n l) : l.Sound ∧ l.session.Table := by
  obtain ⟨calls, rfl⟩ := filled.reached
  rw [after_session]
  exact ⟨after_sound (new_started _), (after_progresses (new_table (new_started _)) calls).1⟩

/-- A stream is opened, reset and ended by the peer, and still takes a place. -/
theorem Filled.succ (filled : Filled n l) (room : n < maxStreamsPerSession) : ∃ l', Filled (n + 1) l' := by
  obtain ⟨sound, table⟩ := filled.table
  obtain ⟨calls, reached⟩ := filled.reached
  obtain ⟨id, s', shape, small, grants, next, size, found, others⟩ :=
    table.openAndReset transparent (filled.size ▸ room)
  have sound' : Sound { session := s', received := l.received } := by
    rw [shape]
    have opened := @Sound.step transparent l sound (.data (.openStreamKind false))
    exact @Sound.step transparent _ opened (.data (.resetStreamPayload id 0))
  let ended : SpaceLedger := { session := s', received := l.received }
  have word : id ≤ Varint.maxVarint := small.trans (by decide)
  have unregistered : ended.session.closedStreams.contains id = false := by
    rw [grants.closed, ClosedStreamRegistry.contains, filled.registry]
    rfl
  have largest : ended.largest .sessionData ≤ n := largest_le filled.numbers
  have number : PacketNumber.reconstruct ((n + 1) % 2 ^ 16) 16 (ended.largest .sessionData + 1) = .ok (n + 1) := by
    have limits : maxStreamsPerSession + 1 ≤ PacketNumber.maxPacketNumber - 2 ^ 16 / 2 ∧
        maxStreamsPerSession + 1 < 2 ^ 16 / 2 := by decide
    exact PacketNumber.reconstruct_mod (by decide) (by decide) (by omega) (by omega) (by omega)
  obtain ⟨bytes, finish, received, granted, advances⟩ := sound'.resets transparent_opens transparent_seals
    found rfl rfl word unregistered number (.inl fun q member => Nat.lt_succ_of_le (filled.numbers q member))
  refine ⟨ended.step transparent (.onInbound 0 bytes), ?_, ?_, ?_, ?_, ?_, ?_, ?_⟩
  · refine ⟨calls ++ openAndReset id ++ [.onInbound 0 bytes], ?_⟩
    rw [after, List.foldl_append, List.foldl_append, ← after, ← reached]
    simp only [ended, shape]
    rfl
  · rw [received]
    exact List.forall_mem_cons.mpr ⟨Nat.le_refl _, fun q member => (filled.numbers q member).trans (Nat.le_succ n)⟩
  · rw [advances.size_eq, size, filled.size]
  · rw [advances.next, next, filled.next]
  · intro other stream here
    by_cases same : other = id
    · subst same
      obtain ⟨stream', there, evolves⟩ := advances.kept other _ found
      obtain rfl : stream = stream' := Option.some.inj (here.symm.trans there)
      obtain ⟨stream', there, closed⟩ := finish
      obtain rfl : stream = stream' := Option.some.inj (here.symm.trans there)
      rw [Stream.finished, evolves.sent rfl, closed]
      rfl
    · rcases advances.origin here with new | ⟨old, before, evolves⟩
      · exact new.1.elim
      · have was := filled.finished other old ((others other same).symm.trans before)
        rw [Stream.finished, Bool.and_eq_true] at was
        rw [Stream.finished, evolves.sent was.1, evolves.closed was.2]
        rfl
  · rw [granted.closed, grants.closed, filled.registry]
  · rw [granted.credit, grants.credit, filled.credit]

theorem filled (n : Nat) (room : n ≤ maxStreamsPerSession) : ∃ l, Filled n l := by
  induction n with
  | zero => exact ⟨_, filled_zero⟩
  | succ n ih =>
    obtain ⟨l, here⟩ := ih (Nat.le_of_succ_le room)
    exact here.succ room

end SpaceLedger

/-- All streams are finished by RESET and MAX_STREAMS allows more; yet no stream can be opened, because 1024
were opened before. -/
theorem finished_streams_block_opening : ∃ calls,
    (tenByteServer.after transparent calls).streams.size = maxStreamsPerSession ∧
      (tenByteServer.after transparent calls).unfinished = 0 ∧
      (tenByteServer.after transparent calls).HasStreamCredit false ∧
      ((tenByteServer.after transparent calls).openStreamKind false).1 = .error .streamLimit := by
  obtain ⟨l, filled⟩ := SpaceLedger.filled maxStreamsPerSession (Nat.le_refl _)
  obtain ⟨-, table⟩ := filled.table
  obtain ⟨calls, reached⟩ := filled.reached
  have session : l.session = tenByteServer.after transparent calls := by rw [reached, SpaceLedger.after_session]
  refine ⟨calls, ?_, ?_, ?_, ?_⟩
  all_goals rw [← session]
  · exact filled.size
  · rw [unfinished, List.length_eq_zero_iff, List.filter_eq_nil_iff]
    intro entry member
    rw [filled.finished entry.1 entry.2 (get?_eq_some.mpr member)]
    decide
  · rw [HasStreamCredit, filled.next]
    simp only [Bool.false_eq_true, if_false, filled.credit]
    decide
  · obtain ⟨-, refused⟩ | ⟨room, -⟩ := table.openStreamKind false
    · rw [refused]
    · rw [filled.size] at room
      omega

end UniversalMesh.Session
