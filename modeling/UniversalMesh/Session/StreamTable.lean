import UniversalMesh.Session.Acceptance

/-! The stream table over whole runs. A stream once in the table stays there; a call lets it go on from where it
was, and only an open call or a STREAM frame with OPEN puts a new one in. -/
namespace UniversalMesh.Session
open MachineWord Wire Crypto OrderedMap

namespace Stream

/-- The next byte to deliver does not wait in the buffer. -/
def Drained (s : Stream) : Prop := ∀ data, s.buffered.first? ≠ some (s.nextDeliverOffset, data)

variable {s : Stream}

theorem drain_of_drained (drained : s.Drained) (out : Bytes) : s.drain out = (out, s) := by
  unfold drain
  split
  · rfl
  · next offset data found =>
    have other : offset ≠ s.nextDeliverOffset := fun here => drained data (here ▸ found)
    rw [if_pos other]

theorem drain_outcome (s : Stream) (out : Bytes) :
    (s.drain out).2.Drained ∧ (s.drain out).2.streamId = s.streamId ∧ (s.drain out).2.sendState = s.sendState ∧
      (s.drain out).2.recvState = s.recvState := by
  fun_induction drain s out with
  | case1 s out missing => exact ⟨fun data => missing ▸ (Option.some_ne_none _).symm, rfl, rfl, rfl⟩
  | case2 s out offset data found other =>
    refine ⟨fun data' here => other ?_, rfl, rfl, rfl⟩
    rw [found] at here
    exact congrArg Prod.fst (Option.some.inj here)
  | case3 s out offset data found here ih => exact ih

/-- A stream that was read to its end has nothing left to deliver. -/
def Orderly (s : Stream) : Prop := s.recvState = .dataRead → s.Drained

theorem orderly_of_unread (unread : decide (s.recvState = .dataRead) = false) : s.Orderly := fun ended =>
  absurd ended (of_decide_eq_false unread)

/-- The sending half is over: it was ended with FIN, or reset. -/
def sendClosed (s : Stream) : Bool :=
  s.sendState = .dataSent || s.sendState = .resetSent || s.sendState = .dataAcked || s.sendState = .resetAcked

/-- How a stream may change: it keeps its id, and a half that is over stays over. -/
structure Evolves (s s' : Stream) : Prop where
  named : s'.streamId = s.streamId
  sent : s.sendClosed = true → s'.sendClosed = true
  closed : recvClosed s = true → recvClosed s' = true
  orderly : s.Orderly → s'.Orderly

theorem Evolves.refl (s : Stream) : Evolves s s := ⟨rfl, id, id, id⟩

theorem Evolves.trans (first : Evolves s s') (second : Evolves s' s'') : Evolves s s'' :=
  ⟨second.named.trans first.named, second.sent ∘ first.sent, second.closed ∘ first.closed,
    second.orderly ∘ first.orderly⟩

theorem readAvailable_evolves (s : Stream) : Evolves s s.readAvailable.2 := by
  obtain ⟨drained, same, sending, receiving⟩ := s.drain_outcome []
  have sent : s.sendClosed = true → (s.drain []).2.sendClosed = true := fun ended => by rwa [sendClosed, sending]
  unfold readAvailable
  dsimp only
  split
  · exact ⟨same, sent, fun _ => rfl, fun _ _ => drained⟩
  · exact ⟨same, sent, fun closed => by rwa [recvClosed, receiving], fun _ _ => drained⟩

theorem readAvailable_of_drained (drained : s.Drained) : s.readAvailable.1.1 = [] := by
  unfold readAvailable
  rw [drain_of_drained drained]
  dsimp only
  split <;> rfl

theorem readAvailable_eof (eof : s.readAvailable.1.2 = true) : recvClosed s.readAvailable.2 = true := by
  unfold readAvailable at eof ⊢
  dsimp only at eof ⊢
  split at eof
  · next ends =>
    rw [if_pos ends]
    rfl
  · cases eof

/-- A segment leaves the state of an open receiving half alone. -/
theorem receive_evolves (opened : recvClosed s = false) (offset : Nat) (data : Bytes) (fin : Bool) :
    Evolves s (s.receive offset data fin).2 := by
  have reaction := s.receive_reaction offset data fin
  generalize s.receive offset data fin = result at reaction
  have unread : s.recvState ≠ .dataRead := fun read => by simp [recvClosed, read] at opened
  cases reaction <;> exact ⟨rfl, id, id, fun _ read => absurd read unread⟩

theorem reset_evolves (s : Stream) : Evolves s { s with recvState := .resetRecvd, resetErrorCode := code } :=
  ⟨rfl, id, fun _ => rfl, fun _ => nofun⟩

theorem sendReady_evolves (ready : s.sendReady data = .ok (part, s')) : Evolves s s' := by
  unfold sendReady at ready
  split at ready
  · cases ready
  · cases ready
    refine ⟨rfl, fun ended => ?_, id, id⟩
    have used : s.sendState ≠ .ready := fun unused => by simp [sendClosed, unused] at ended
    rwa [sendClosed, if_neg used]

end Stream

/-- The sequence number of the next stream of a kind. -/
def nextOutgoing (s : Session) (unidirectional : Bool) : Nat :=
  if unidirectional then s.nextOutgoingUnidirectional else s.nextOutgoingStream

/-- The stream table and what new ids are made of are the same. -/
structure SameTable (s s' : Session) : Prop where
  role : s'.role = s.role
  next : ∀ kind, s'.nextOutgoing kind = s.nextOutgoing kind
  streams : s'.streams = s.streams

theorem SameTable.of_streams (same : s'.streamSide = s.streamSide) : SameTable s s' where
  role := congrArg StreamSide.role same
  next kind := by
    cases kind
    · exact congrArg StreamSide.nextOutgoingStream same
    · exact congrArg StreamSide.nextOutgoingUnidirectional same
  streams := congrArg StreamSide.streams same

/-- No stream is lost and each goes on from where it was; the ids that are new in the table satisfy `fresh`. -/
structure Advances (fresh : Nat → Prop) (s s' : Session) : Prop where
  role : s'.role = s.role
  next : ∀ kind, s'.nextOutgoing kind = s.nextOutgoing kind
  kept : ∀ id stream, s.streams.get? id = some stream →
    ∃ stream', s'.streams.get? id = some stream' ∧ stream.Evolves stream'
  added : ∀ id stream, s'.streams.get? id = some stream → s.streams.get? id = none →
    fresh id ∧ stream.streamId = id ∧ stream.Orderly

namespace Advances
variable {fresh : Nat → Prop} {s s' s'' : Session}

theorem of_same (same : SameTable s s') : Advances fresh s s' where
  role := same.role
  next := same.next
  kept id stream found := ⟨stream, same.streams ▸ found, .refl stream⟩
  added id stream found missing := by rw [same.streams, missing] at found; cases found

theorem refl (s : Session) : Advances fresh s s := of_same ⟨rfl, fun _ => rfl, rfl⟩

theorem origin {id : Nat} (advances : Advances fresh s s') (found : s'.streams.get? id = some stream') :
    (fresh id ∧ stream'.streamId = id ∧ stream'.Orderly) ∨
      ∃ stream, s.streams.get? id = some stream ∧ stream.Evolves stream' := by
  cases before : s.streams.get? id with
  | none => exact .inl (advances.added id stream' found before)
  | some stream =>
    obtain ⟨later, there, evolves⟩ := advances.kept id stream before
    obtain rfl : later = stream' := Option.some.inj (there.symm.trans found)
    exact .inr ⟨stream, rfl, evolves⟩

theorem trans (first : Advances fresh s s') (second : Advances fresh s' s'') : Advances fresh s s'' where
  role := second.role.trans first.role
  next kind := (second.next kind).trans (first.next kind)
  kept id stream found := by
    obtain ⟨stream', found', evolves⟩ := first.kept id stream found
    obtain ⟨stream'', found'', evolves'⟩ := second.kept id stream' found'
    exact ⟨stream'', found'', evolves.trans evolves'⟩
  added id stream'' found missing := by
    rcases second.origin found with new | ⟨stream', between, evolves⟩
    · exact new
    · obtain ⟨new, named, orderly⟩ := first.added id stream' between missing
      exact ⟨new, evolves.named.trans named, evolves.orderly orderly⟩

variable {id : Nat} {stream : Stream}

theorem put (found : s.streams.get? id = some stream) (evolves : stream.Evolves stream')
    (role : s'.role = s.role) (next : ∀ kind, s'.nextOutgoing kind = s.nextOutgoing kind)
    (streams : s'.streams = s.streams.insert id stream') : Advances fresh s s' where
  role := role
  next := next
  kept other old found' := by
    rw [streams, get?_insert]
    split
    · next here =>
      obtain rfl : stream = old := Option.some.inj (found.symm.trans (here ▸ found'))
      exact ⟨stream', rfl, evolves⟩
    · exact ⟨old, found', .refl old⟩
  added other old found' missing := by
    rcases get?_insert_eq_some.mp (streams ▸ found') with ⟨rfl, -⟩ | ⟨-, held⟩
    · cases missing.symm.trans found
    · cases missing.symm.trans held

theorem set (found : s.streams.get? id = some stream) (evolves : stream.Evolves stream') :
    Advances fresh s (s.setStream id stream') :=
  put found evolves rfl (fun _ => rfl) rfl

theorem add (missing : s.streams.get? id = none) (new : fresh id) (named : stream.streamId = id)
    (orderly : stream.Orderly) (role : s'.role = s.role)
    (next : ∀ kind, s'.nextOutgoing kind = s.nextOutgoing kind)
    (streams : s'.streams = s.streams.insert id stream) : Advances fresh s s' where
  role := role
  next := next
  kept other old found := by
    have differs : other ≠ id := ne_of_get?_eq_none missing (get?_eq_some.mp found)
    exact ⟨old, by rw [streams, get?_insert_of_ne differs, found], .refl old⟩
  added other old found absent := by
    rcases get?_insert_eq_some.mp (streams ▸ found) with ⟨rfl, rfl⟩ | ⟨-, held⟩
    · exact ⟨new, named, orderly⟩
    · cases absent.symm.trans held

theorem mono (advances : Advances fresh s s') (weaker : ∀ id, fresh id → other id) : Advances other s s' :=
  { advances with
    added := fun id stream found missing => (advances.added id stream found missing).imp_left (weaker id) }

end Advances

section
variable (crypto : Primitives) (s : Session)

/-! The calls of an application that open no stream. -/

theorem accountRead_table (streamId bytes : Nat) : SameTable s (s.accountRead streamId bytes) := by
  simp only [accountRead]
  split <;> exact ⟨rfl, fun _ => rfl, rfl⟩

variable {fresh : Nat → Prop} (streamId : Nat)

theorem readStream_advances : Advances fresh s (s.readStream streamId).2 := by
  simp only [readStream]
  split
  · exact .refl s
  next stream found =>
  split
  · exact .set found ⟨rfl, id, fun _ => rfl, fun _ => Stream.orderly_of_unread rfl⟩
  split
  · exact .refl s
  have accounted := accountRead_table (s.setStream streamId stream.readAvailable.2) streamId
    stream.readAvailable.1.1.length
  have read : Advances fresh s ((s.setStream streamId stream.readAvailable.2).accountRead streamId
      stream.readAvailable.1.1.length) :=
    .put found stream.readAvailable_evolves accounted.role accounted.next accounted.streams
  split
  · exact read.trans (.of_same ⟨rfl, fun _ => rfl, rfl⟩)
  · exact read

theorem streamCredit_advances : Advances fresh s (s.streamCredit streamId).2 := by
  simp only [streamCredit]
  split
  · exact .refl s
  · next stream found =>
    repeat' split
    all_goals first
      | exact .refl s
      | exact .set found ⟨rfl, id, id, id⟩

theorem streamCredits_advances (streamIds : List Nat) : Advances fresh s (s.streamCredits streamIds).2 := by
  induction streamIds generalizing s with
  | nil => exact .refl s
  | cons streamId rest ih => exact (s.streamCredit_advances streamId).trans (ih _)

theorem flowControlFrames_advances : Advances fresh s s.flowControlFrames.2 := by
  obtain ⟨streamIds, shape⟩ := s.flowControlFrames_session
  have granted : SameTable s s.connectionCredit.2 := by
    simp only [connectionCredit]
    repeat' split
    all_goals exact ⟨rfl, fun _ => rfl, rfl⟩
  have offered : ∀ s' : Session, SameTable s' s'.streamCountCredit.2 := by
    intro s'
    simp only [streamCountCredit]
    split <;> exact ⟨rfl, fun _ => rfl, rfl⟩
  rw [shape]
  exact ((Advances.of_same granted).trans (streamCredits_advances _ streamIds)).trans (.of_same (offered _))

theorem sendStreamData_advances (data : Bytes) (fin : Bool) :
    Advances fresh s (s.sendStreamData streamId data fin).2 := by
  simp only [sendStreamData]
  split
  · exact .refl s
  next found =>
  split
  · exact .refl s
  · next ready => exact .set found (Stream.sendReady_evolves ready)

def DataCall.Opens : DataCall → Prop
  | .openStreamKind _ | .openStreamWithProtocol _ _ => True
  | _ => False

theorem DataCall.advances {call : DataCall} (other : ¬call.Opens) : Advances fresh s (call.run s) := by
  cases call with
  | openStreamKind => exact absurd trivial other
  | openStreamWithProtocol => exact absurd trivial other
  | readStream streamId => exact s.readStream_advances streamId
  | flowControlFrames => exact s.flowControlFrames_advances
  | sendStreamData streamId data fin => exact s.sendStreamData_advances streamId data fin
  | closeStreamSendPayload streamId =>
    simp only [run, Session.closeStreamSendPayload]
    split
    · exact .refl s
    next found =>
    split
    · exact .refl s
    · exact .set found ⟨rfl, fun _ => rfl, id, id⟩
  | resetStreamPayload =>
    simp only [run, Session.resetStreamPayload]
    split
    · exact .refl s
    · next found => exact .set found ⟨rfl, fun _ => rfl, id, id⟩

/-! Inbound packets. -/

/-- One of the frames opens the stream, whose id has the peer's initiator bit. -/
def OpenedBy (role : Role) (frames : List Frame) (id : Nat) : Prop :=
  ∃ f, .stream f ∈ frames ∧ f.isOpen = true ∧ f.streamId = id ∧ id % 2 = 1 - initiatorBit role

theorem receiveSegment_stream (f : StreamFrame) (stream : Stream) :
    ∃ stream', stream.Evolves stream' ∧ (s.receiveSegment f stream).2.role = s.role ∧
      (∀ kind, (s.receiveSegment f stream).2.nextOutgoing kind = s.nextOutgoing kind) ∧
      (s.receiveSegment f stream).2.streams = s.streams.insert f.streamId stream' := by
  unfold receiveSegment
  cases closed : recvClosed stream with
  | true => exact ⟨stream, .refl stream, rfl, fun _ => rfl, rfl⟩
  | false =>
    have evolves := Stream.receive_evolves closed f.offset f.data f.fin
    cases received : stream.receive f.offset f.data f.fin with
    | mk result stream' =>
      rw [received] at evolves
      cases result with
      | error e => exact ⟨stream', evolves, rfl, fun _ => rfl, rfl⟩
      | ok newBytes =>
        refine ⟨stream', evolves, ?_⟩
        simp only [Bool.false_eq_true, if_false]
        split <;> exact ⟨rfl, fun _ => rfl, rfl⟩

/-- A stream that is not in the table is only opened by the peer. -/
theorem checkStreamFrame_opens (missing : s.streams.get? f.streamId = none)
    (checked : s.checkStreamFrame f = .ok ()) : OpenedBy s.role [.stream f] f.streamId := by
  unfold checkStreamFrame at checked
  rw [missing] at checked
  dsimp only at checked
  repeat' split at checked
  all_goals try cases checked
  next bit _ _ opens =>
    exact ⟨f, List.mem_singleton_self _, by simpa using opens, rfl, not_not.mp bit⟩

theorem streamFor_evolves (found : s.streams.get? f.streamId = some old)
    (agreed : s.streamFor f = .ok stream) : old.Evolves stream := by
  unfold streamFor at agreed
  rw [found] at agreed
  dsimp only at agreed
  repeat' split at agreed
  all_goals cases agreed
  all_goals exact ⟨rfl, id, id, id⟩

theorem applyStreamFrame_advances (f : StreamFrame) :
    Advances (OpenedBy s.role [.stream f]) s (s.applyStreamFrame f).2 := by
  unfold applyStreamFrame
  split
  · exact .refl s
  next checked =>
  split
  · exact .refl s
  next stream agreed =>
  obtain ⟨stream', evolves, role, next, streams⟩ := s.receiveSegment_stream f stream
  cases found : s.streams.get? f.streamId with
  | some old => exact .put found ((s.streamFor_evolves found agreed).trans evolves) role next streams
  | none =>
    rw [streamFor, found] at agreed
    cases agreed
    exact .add found (s.checkStreamFrame_opens found checked) evolves.named (evolves.orderly (Stream.orderly_of_unread rfl)) role
      next streams

theorem applyResetStream_advances (f : ResetStreamFrame) : Advances fresh s (s.applyResetStream f).2 := by
  unfold applyResetStream
  split
  · exact .refl s
  split
  · exact .refl s
  next stream found =>
  split
  · exact .refl s
  split
  · exact .refl s
  dsimp only
  split
  · exact .of_same ⟨rfl, fun _ => rfl, rfl⟩
  · exact .put found (stream.reset_evolves) rfl (fun _ => rfl) rfl

theorem onStream_advances (evolves : ∀ stream, Stream.Evolves stream (change stream)) :
    Advances fresh s (s.onStream streamId change) := by
  unfold onStream
  split
  · exact .refl s
  · next stream found => exact .set found (evolves stream)

theorem applyFrame_advances (now : Instant) (pathId : Nat) (frame : Frame) :
    Advances (OpenedBy s.role [frame]) s (s.applyFrame crypto now pathId frame).2 := by
  cases frame with
  | stream f => exact s.applyStreamFrame_advances f
  | resetStream f => exact s.applyResetStream_advances f
  | stopSending f => exact s.onStream_advances f.streamId fun _ => ⟨rfl, fun _ => rfl, id, id⟩
  | maxStreamData f => exact s.onStream_advances f.streamId fun _ => ⟨rfl, id, id, id⟩
  | maxStreams f =>
    simp only [applyFrame, raiseStreamLimit]
    split <;> exact .of_same ⟨rfl, fun _ => rfl, rfl⟩
  | maxData f =>
    simp only [applyFrame]
    split <;> exact .of_same ⟨rfl, fun _ => rfl, rfl⟩
  | _ => exact .of_same (.of_streams (s.applyFrame_other crypto now pathId id).1)

/-- The streams that are new after an inbound packet were opened by its frames. -/
theorem onInbound_advances (now : Instant) (bytes : Bytes) :
    Advances (OpenedBy s.role (s.inboundFrames crypto now bytes)) s (s.onInbound crypto now bytes).2 := by
  refine onInbound_invariant (fun _ _ _ _ _ _ before => before.trans (.of_same ⟨rfl, fun _ => rfl, rfl⟩))
    (fun pathId s' frame member before => before.trans ?_) eachInboundFrame_mem (.refl s)
  rw [← before.role]
  refine (s'.applyFrame_advances crypto now pathId frame).mono ?_
  rintro id ⟨f, alone, opens⟩
  exact ⟨f, List.mem_singleton.mp alone ▸ member, opens⟩

end

/-! The ids of the streams that a session opens. -/

/-- The id of the stream of a kind with a sequence number. -/
def localId (role : Role) (kind : Bool) (sequence : Nat) : Nat :=
  sequence * 4 + (initiatorBit role ||| if kind then 2 else 0)

/-- The kind of a stream, from its id. -/
def kindOf (id : Nat) : Bool := decide (2 ≤ id % 4)

theorem localId_fields {role : Role} {sequence : Nat} :
    localId role kind sequence % 2 = initiatorBit role ∧ localId role kind sequence / 4 = sequence ∧
      kindOf (localId role kind sequence) = kind := by
  unfold localId kindOf
  cases role <;> cases kind <;> simp [initiatorBit] <;> omega

structure Opened (kind : Bool) (s s' : Session) : Prop where
  role : s'.role = s.role
  next : ∀ other, s'.nextOutgoing other = s.nextOutgoing other + if other = kind then 1 else 0
  streams : s'.streams = s.streams.insert (localId s.role kind (s.nextOutgoing kind))
    { Stream.new (localId s.role kind (s.nextOutgoing kind)) [] s.defaultMaxStreamData with unidirectional := kind }

/-- Every stream is stored under its id and delivers nothing behind its end, the session's own ids are those it
has allocated, and every one allocated is in the table. -/
structure Table (s : Session) : Prop where
  named : ∀ id stream, s.streams.get? id = some stream → stream.streamId = id
  orderly : ∀ id stream, s.streams.get? id = some stream → stream.Orderly
  own : ∀ id stream, s.streams.get? id = some stream → id % 2 = initiatorBit s.role →
    id / 4 < s.nextOutgoing (kindOf id)
  counted : s.nextOutgoing false + s.nextOutgoing true ≤ s.streams.size

theorem Advances.size_le (advances : Advances fresh s s') : s.streams.size ≤ s'.streams.size := by
  apply size_le_of_keys
  intro id found
  obtain ⟨stream, here⟩ := Option.isSome_iff_exists.mp found
  obtain ⟨stream', there, -⟩ := advances.kept id stream here
  rw [there]
  rfl

namespace Table
variable {s s' : Session} {kind : Bool}

theorem advances (table : s.Table) (step : Advances fresh s s')
    (peer : ∀ id, fresh id → id % 2 ≠ initiatorBit s.role) : s'.Table where
  named id stream' found := by
    rcases step.origin found with new | ⟨stream, before, evolves⟩
    · exact new.2.1
    · exact evolves.named.trans (table.named id stream before)
  orderly id stream' found := by
    rcases step.origin found with new | ⟨stream, before, evolves⟩
    · exact new.2.2
    · exact evolves.orderly (table.orderly id stream before)
  own id stream' found bit := by
    rw [step.role] at bit
    rw [step.next]
    rcases step.origin found with new | ⟨stream, before, -⟩
    · exact absurd bit (peer id new.1)
    · exact table.own id stream before bit
  counted := by
    rw [step.next, step.next]
    exact table.counted.trans step.size_le

theorem missing (table : s.Table) (kind : Bool) :
    s.streams.get? (localId s.role kind (s.nextOutgoing kind)) = none := by
  obtain ⟨bit, sequence, kind'⟩ := localId_fields
  by_contra present
  obtain ⟨stream, found⟩ := Option.ne_none_iff_exists'.mp present
  have allocated := table.own _ stream found bit
  rw [sequence, kind'] at allocated
  omega

theorem opened (table : s.Table) (opens : Opened kind s s') : s'.Table := by
  have streams := opens.streams
  obtain ⟨-, sequence, kind'⟩ := localId_fields
  refine ⟨?_, ?_, ?_, ?_⟩
  · rw [streams]
    exact forall_get?_insert rfl table.named
  · rw [streams]
    exact forall_get?_insert (Stream.orderly_of_unread rfl) table.orderly
  · rw [streams, opens.role]
    simp only [opens.next]
    refine forall_get?_insert (fun _ => ?_) fun id found here bit => Nat.lt_add_right _ (table.own id found here bit)
    rw [sequence, kind', if_pos rfl]
    exact Nat.lt_succ_self _
  · have counted := table.counted
    rw [streams, size_insert (table.missing kind), opens.next, opens.next]
    cases kind <;> simp <;> omega

theorem openStreamKind (table : s.Table) (kind : Bool) :
    (maxStreamsPerSession ≤ s.streams.size ∧ s.openStreamKind kind = (.error .streamLimit, s)) ∨
      s.streams.size < maxStreamsPerSession ∧
        (s.openStreamKind kind).1 = .ok (localId s.role kind (s.nextOutgoing kind)) ∧
        Opened kind s (s.openStreamKind kind).2 := by
  by_cases full : maxStreamsPerSession ≤ s.streams.size
  · exact .inl ⟨full, by rw [Session.openStreamKind, if_pos full]⟩
  right
  have counted := table.counted
  have small : s.nextOutgoing kind < maxStreamsPerSession := by cases kind <;> omega
  have low : (initiatorBit s.role ||| if kind then 2 else 0) ≤ 3 := by
    cases s.role <;> cases kind <;> decide
  have limits : maxStreamsPerSession * 4 + 4 ≤ u64Max := by decide
  have summed : checkedAdd (s.nextOutgoing kind) 1 = some (s.nextOutgoing kind + 1) := checkedAdd_of_le (by omega)
  have scaled : checkedMul (s.nextOutgoing kind) 4 = some (s.nextOutgoing kind * 4) := if_pos (by omega)
  have placed : checkedAdd (s.nextOutgoing kind * 4) (initiatorBit s.role ||| if kind then 2 else 0) =
      some (localId s.role kind (s.nextOutgoing kind)) := checkedAdd_of_le (by omega)
  have role : (s.setNextOutgoing kind (s.nextOutgoing kind + 1)).role = s.role := by
    unfold setNextOutgoing
    split <;> rfl
  have opened : s.openStreamKind kind = (.ok (localId s.role kind (s.nextOutgoing kind)),
      (s.setNextOutgoing kind (s.nextOutgoing kind + 1)).setStream (localId s.role kind (s.nextOutgoing kind))
        { Stream.new (localId s.role kind (s.nextOutgoing kind)) []
            (s.setNextOutgoing kind (s.nextOutgoing kind + 1)).defaultMaxStreamData with unidirectional := kind }) := by
    have sequence : (if kind then s.nextOutgoingUnidirectional else s.nextOutgoingStream) = s.nextOutgoing kind := rfl
    simp only [Session.openStreamKind, if_neg full, sequence, summed, role, scaled, Option.bind_some, placed]
  rw [opened]
  refine ⟨Nat.lt_of_not_le full, rfl, role, fun other => ?_, ?_⟩
  · cases kind <;> cases other <;> rfl
  · cases kind <;> rfl

end Table

/-! Runs. -/

/-- No stream is lost and no id is allocated again. -/
structure Progresses (s s' : Session) : Prop where
  role : s'.role = s.role
  next : ∀ kind, s.nextOutgoing kind ≤ s'.nextOutgoing kind
  kept : ∀ id stream, s.streams.get? id = some stream →
    ∃ stream', s'.streams.get? id = some stream' ∧ stream.Evolves stream'

namespace Progresses
variable {s s' s'' : Session}

theorem refl (s : Session) : Progresses s s :=
  ⟨rfl, fun _ => Nat.le_refl _, fun _ stream found => ⟨stream, found, .refl stream⟩⟩

theorem trans (first : Progresses s s') (second : Progresses s' s'') : Progresses s s'' where
  role := second.role.trans first.role
  next kind := (first.next kind).trans (second.next kind)
  kept id stream found := by
    obtain ⟨stream', found', evolves⟩ := first.kept id stream found
    obtain ⟨stream'', found'', evolves'⟩ := second.kept id stream' found'
    exact ⟨stream'', found'', evolves.trans evolves'⟩

theorem of_advances (advances : Advances fresh s s') : Progresses s s' :=
  ⟨advances.role, fun kind => (advances.next kind).ge, advances.kept⟩

theorem of_same (same : SameTable s s') : Progresses s s' :=
  ⟨same.role, fun kind => (same.next kind).ge, fun _ stream found => ⟨stream, same.streams ▸ found, .refl stream⟩⟩

theorem of_opened (table : s.Table) (opened : Opened kind s s') : Progresses s s' where
  role := opened.role
  next other := by rw [opened.next]; exact Nat.le_add_right _ _
  kept id stream found := by
    have other : id ≠ localId s.role kind (s.nextOutgoing kind) :=
      ne_of_get?_eq_none (table.missing kind) (get?_eq_some.mp found)
    exact ⟨stream, by rw [opened.streams, get?_insert_of_ne other, found], .refl stream⟩

end Progresses

section
variable {crypto : Primitives} {s : Session}

/-- The call receives a packet with a frame that opens the stream. -/
def Call.FromPeer (crypto : Primitives) (s : Session) (call : Call) (id : Nat) : Prop :=
  ∃ now bytes, call = .onInbound now bytes ∧ OpenedBy s.role (s.inboundFrames crypto now bytes) id

/-- What a call does to the table: it opens a stream of the session's, or only the peer's are new. -/
theorem Call.table (table : s.Table) (call : Call) :
    Advances (call.FromPeer crypto s) s (call.run crypto s) ∨
      ∃ kind opened, Opened kind s opened ∧ Advances (fun _ => False) opened (call.run crypto s) := by
  cases call with
  | onInbound now bytes =>
    exact .inl ((s.onInbound_advances crypto now bytes).mono fun id opened => ⟨now, bytes, rfl, opened⟩)
  | data call =>
    cases call with
    | openStreamKind kind =>
      simp only [run, DataCall.run]
      obtain ⟨-, refused⟩ | ⟨-, -, opened⟩ := table.openStreamKind kind
      · rw [refused]
        exact .inl (.refl s)
      · exact .inr ⟨kind, _, opened, .refl _⟩
    | openStreamWithProtocol protocolId kind =>
      simp only [run, DataCall.run, Session.openStreamWithProtocol]
      split
      · exact .inl (.refl s)
      obtain ⟨-, refused⟩ | ⟨-, answered, opened⟩ := table.openStreamKind kind
      · rw [refused]
        exact .inl (.refl s)
      · right
        refine ⟨kind, _, opened, ?_⟩
        cases shape : s.openStreamKind kind with
        | mk result s' =>
          rw [shape] at answered
          dsimp only at answered
          rw [answered]
          dsimp only
          split
          · exact .refl s'
          · next found => exact .set found ⟨rfl, id, id, id⟩
    | _ =>
      simp only [run]
      exact .inl (DataCall.advances s id)
  | _ => exact .inl (.of_same (.of_streams (Call.streams crypto s id)))

theorem Call.progresses (table : s.Table) (call : Call) :
    (call.run crypto s).Table ∧ Progresses s (call.run crypto s) := by
  obtain advances | ⟨kind, between, opened, advances⟩ := @Call.table crypto s table call
  · refine ⟨table.advances advances ?_, .of_advances advances⟩
    rintro id ⟨now, bytes, -, f, -, -, -, bit⟩
    rw [bit]
    cases s.role <;> decide
  · exact ⟨(table.opened opened).advances advances nofun,
      (Progresses.of_opened table opened).trans (.of_advances advances)⟩

def after (crypto : Primitives) (s : Session) (calls : List Call) : Session := calls.foldl (Call.run crypto) s

theorem after_append (first second : List Call) : s.after crypto (first ++ second) =
    (s.after crypto first).after crypto second := List.foldl_append

theorem after_progresses (table : s.Table) (calls : List Call) :
    (s.after crypto calls).Table ∧ Progresses s (s.after crypto calls) := by
  induction calls generalizing s with
  | nil => exact ⟨table, .refl s⟩
  | cons call rest ih =>
    obtain ⟨next, first⟩ := @Call.progresses crypto s table call
    obtain ⟨last, later⟩ := ih next
    exact ⟨last, first.trans later⟩

theorem new_table (begun : Session.new crypto config = .ok s) : s.Table := by
  have fresh := new_fresh begun
  have next : ∀ kind, s.nextOutgoing kind = 0 := by
    obtain ⟨-, -, bidirectional, unidirectional⟩ := new_initial begun
    rintro (_ | _)
    · exact bidirectional
    · exact unidirectional
  have missing : ∀ id stream, s.streams.get? id ≠ some stream := fun id stream => by
    rw [fresh.streams]
    exact (Option.some_ne_none stream).symm
  refine ⟨fun id stream found => absurd found (missing id stream),
    fun id stream found => absurd found (missing id stream),
    fun id stream found => absurd found (missing id stream), ?_⟩
  rw [next, next]
  exact Nat.zero_le _

end

end UniversalMesh.Session
