import UniversalMesh.Session.Acceptance

/-! What the calls of a session do to its paths. A packet moves the byte counters of a path only; what
validation and migration depend on changes in a few calls and in two frames. -/
namespace UniversalMesh.Session
open Wire Crypto

section

/-- What validation depends on: the state of a path and its outstanding challenges. -/
def Path.validation (p : Path) : PathState × List PathChallenge := (p.state, p.challenges)

/-- The validation of every path, the primary path and the last migration accepted are the same. -/
structure SameRoutes (s s' : Session) : Prop where
  paths : ∀ id, (s'.paths.get? id).map Path.validation = (s.paths.get? id).map Path.validation
  primary : s'.primaryPathId = s.primaryPathId
  migration : s'.lastMigrationSequence = s.lastMigrationSequence

theorem SameRoutes.refl (s : Session) : SameRoutes s s := ⟨fun _ => rfl, rfl, rfl⟩

theorem SameRoutes.trans (first : SameRoutes s s') (second : SameRoutes s' s'') : SameRoutes s s'' :=
  ⟨fun id => (second.paths id).trans (first.paths id), second.primary.trans first.primary,
    second.migration.trans first.migration⟩

theorem SamePaths.routes (same : SamePaths s s') : SameRoutes s s' :=
  ⟨fun id => by rw [same.paths], same.primary, same.migration⟩

variable (crypto : Primitives) (s : Session)

theorem putPath_routes {id : Nat} (found : s.paths.get? id = some path)
    (same : path'.validation = path.validation) : SameRoutes s { s with paths := s.paths.insert id path' } := by
  refine ⟨fun other => ?_, rfl, rfl⟩
  rw [OrderedMap.get?_insert]
  split
  · next here => rw [here, found, Option.map_some, Option.map_some, same]
  · rfl

theorem chargePath_routes (pathId size : Nat) : SameRoutes s (s.chargePath pathId size) := by
  unfold chargePath
  split
  · exact .refl s
  · next path found =>
    split
    · exact .refl s
    · exact s.putPath_routes found rfl

theorem accountReceived_routes (pathId size : Nat) (now : Instant) :
    SameRoutes s (s.accountReceived pathId size now) := by
  simp only [accountReceived]
  split
  · exact .refl s
  · next path found => exact s.putPath_routes found rfl

theorem buildOutboundInner_routes (pathId : Nat) (now : Instant) (payload : Bytes) :
    SameRoutes s (s.buildOutboundInner crypto pathId now payload).2 := by
  obtain ⟨same | ⟨space, -, same⟩, -⟩ | ⟨space, pkt, -, result⟩ := s.buildOutboundInner_cases crypto pathId now payload
  · rw [same]
    exact .refl s
  · rw [same]
    exact ⟨fun _ => rfl, rfl, rfl⟩
  · obtain ⟨_, _, _, recorded⟩ := (s.numbered space).recordOutbound_writes now space.nextPacketNumber
      (s.outboundPayload payload) pkt.length
    have charged := chargePath_routes ((s.numbered space).recordOutbound now space.nextPacketNumber
      (s.outboundPayload payload) pkt.length) pathId pkt.length
    rw [recorded] at charged
    unfold numbered at recorded charged
    simp only [result, sentOn, recorded]
    exact ⟨charged.paths, charged.primary, charged.migration⟩

theorem retransmit_routes (pn : Nat) (now : Instant) : SameRoutes s (s.retransmit crypto pn now).2 := by
  obtain same | ⟨payload, -, refused | sent⟩ := s.retransmit_cases crypto pn now
  · rw [same]
    exact .refl s
  · rw [refused]
    exact s.buildOutboundInner_routes crypto s.primaryPathId now payload
  · rw [sent]
    exact (s.buildOutboundInner_routes crypto s.primaryPathId now payload).trans ⟨fun _ => rfl, rfl, rfl⟩

def ControlCall.ConcernsPaths : ControlCall → Prop
  | .addPath .. | .onPathResponse .. | .migrateTo .. | .markPathDegraded .. => True
  | _ => False

theorem ControlCall.samePaths {call : ControlCall} (other : ¬call.ConcernsPaths) :
    SamePaths s (call.run crypto s) := by
  cases call
  case addPath => exact absurd trivial other
  case onPathResponse => exact absurd trivial other
  case migrateTo => exact absurd trivial other
  case markPathDegraded => exact absurd trivial other
  all_goals simp only [run, Session.sendDatagram, Session.popOutboundDatagramPayload,
    Session.maybeEmitStatelessReset, Session.initiateKeyUpdate, Session.onKeyUpdate,
    Session.buildMigratePayload, Session.issueConnectionId, Session.close]
  all_goals repeat' split
  all_goals exact ⟨rfl, rfl, rfl⟩

def Call.KeepsRoutes : Call → Prop
  | .control call => ¬call.ConcernsPaths
  | .onInbound _ _ => False
  | _ => True

theorem Call.routes {call : Call} (keeps : call.KeepsRoutes) : SameRoutes s (call.run crypto s) := by
  cases call with
  | control call => exact (call.samePaths crypto s keeps).routes
  | data call => exact (SamePaths.of_link (call.link s)).routes
  | buildOutbound pathId now payload => exact s.buildOutboundInner_routes crypto pathId now payload
  | retransmit pn now => exact s.retransmit_routes crypto pn now
  | pruneRetransmitPayload pn => exact ⟨fun _ => rfl, rfl, rfl⟩
  | onInbound now bytes => cases keeps

/-! Inbound packets. -/

def ConcernsPaths : Frame → Prop
  | .pathResponse _ | .migrate _ => True
  | _ => False

theorem applyFrame_routes (now : Instant) (pathId : Nat) (other : ¬ConcernsPaths frame) :
    SameRoutes s (s.applyFrame crypto now pathId frame).2 := by
  by_cases concerns : ConcernsData frame
  · exact (SamePaths.of_link (s.applyFrame_link crypto now pathId concerns)).routes
  refine SamePaths.routes ?_
  cases frame with
  | ack f =>
    simp only [applyFrame, silently, applyPeerAck]
    split <;> exact ⟨rfl, rfl, rfl⟩
  | datagram d =>
    simp only [applyFrame, silently, applyDatagram]
    split <;> exact ⟨rfl, rfl, rfl⟩
  | newConnectionId f =>
    simp only [applyFrame, silently, applyNewConnectionId]
    split <;> exact ⟨rfl, rfl, rfl⟩
  | keyUpdate f => exact @ControlCall.samePaths crypto s (.onKeyUpdate f.updateSequence) id
  | pathResponse f => exact absurd trivial other
  | migrate f => exact absurd trivial other
  | _ =>
    first
      | exact ⟨rfl, rfl, rfl⟩
      | exact absurd trivial concerns

theorem admitPacket_routes (now : Instant) (bytes : Bytes) :
    SameRoutes s (s.admitPacket crypto now bytes).2 := by
  obtain ⟨e, state, refused⟩ | ⟨packet, _, _, -, -, -, admitted⟩ := s.admitPacket_cases crypto now bytes
  · rw [refused]
    exact ⟨fun _ => rfl, rfl, rfl⟩
  · rw [admitted]
    refine SameRoutes.trans ?_ (accountReceived_routes _ packet.pathId bytes.length now)
    exact ⟨fun _ => rfl, rfl, rfl⟩

theorem resetIdleTimer_routes (frames : List Frame) (now : Instant) : SameRoutes s (s.resetIdleTimer frames now) := by
  unfold resetIdleTimer
  split <;> exact ⟨fun _ => rfl, rfl, rfl⟩

theorem emitAck_routes (space : PacketSpace) (response : Bytes) : SameRoutes s (s.emitAck space response).2 := by
  simp only [emitAck]
  split
  · exact .refl s
  · split <;> exact ⟨fun _ => rfl, rfl, rfl⟩

variable {crypto s}

/-- A property of the routes that every frame keeps holds after an inbound call. -/
theorem onInbound_routes {holds : Session → Prop} (stable : ∀ {s s'}, SameRoutes s s' → holds s → holds s')
    (kept : ∀ pathId s frame, holds s → holds (s.applyFrame crypto now pathId frame).2) (bytes : Bytes)
    (initial : holds s) : holds (s.onInbound crypto now bytes).2 :=
  onInbound_stable (s.admitPacket_routes crypto now bytes) (fun s frames => s.resetIdleTimer_routes frames now)
    (fun s => s.emitAck_routes) stable (fun pathId s frame _ => kept pathId s frame) eachInboundFrame_mem
    initial

end

section

/-! MIGRATE frames that fail. The sequence is taken before the migration is tried, so a frame that asks for a
path the session may not migrate to yet is used up: sent again, it is taken for a duplicate. -/

variable {s : Session} {f : MigrateFrame}

theorem migrateTo_failed (failed : ¬Succeeds (s.migrateTo newPathId keepOld)) :
    (s.migrateTo newPathId keepOld).2 = s := by
  unfold migrateTo at failed ⊢
  split
  · rfl
  split
  · rfl
  split
  · rfl
  · next found direct validated =>
    simp only [found, direct, validated, Bool.false_eq_true, if_false, succeeds_ok, not_true_eq_false] at failed

theorem migrateTo_primary (may : s.MayMigrateTo newPathId) :
    (s.migrateTo newPathId keepOld).2.primaryPathId = newPathId := by
  obtain ⟨path, found, direct, validated⟩ := may
  simp only [Option.mem_def] at found
  simp [migrateTo, found, direct, validated]

theorem migrateTo_sequence (s : Session) :
    (s.migrateTo newPathId keepOld).2.lastMigrationSequence = s.lastMigrationSequence := by
  simp only [migrateTo]
  repeat' split
  all_goals rfl

/-! The sequence of the last migration over the calls of a session. -/

theorem applyMigrate_sequence_le (s : Session) :
    s.lastMigrationSequence ≤ (s.applyMigrate f).2.lastMigrationSequence := by
  unfold applyMigrate
  split
  · exact le_rfl
  · next news =>
    split
    · exact le_rfl
    · split
      · rw [migrateTo_sequence]
        exact (not_le.mp news).le
      · exact (not_le.mp news).le

variable (crypto : Primitives)

theorem sequence_le_run (s : Session) (call : Call) :
    s.lastMigrationSequence ≤ (call.run crypto s).lastMigrationSequence := by
  by_cases keeps : call.KeepsRoutes
  · exact (call.routes crypto s keeps).migration.ge
  cases call with
  | control call =>
    refine le_of_eq ?_
    cases call with
    | addPath =>
      simp only [Call.run, ControlCall.run, addPath]
      repeat' split
      all_goals rfl
    | onPathResponse =>
      simp only [Call.run, ControlCall.run, onPathResponse]
      repeat' split
      all_goals rfl
    | migrateTo newPathId keepOld => exact (s.migrateTo_sequence).symm
    | markPathDegraded pathId =>
      simp only [Call.run, ControlCall.run, markPathDegraded]
      repeat' split
      all_goals rfl
    | _ => exact absurd id keeps
  | onInbound now bytes =>
    have stable : ∀ {s' s'' : Session}, SameRoutes s' s'' → s.lastMigrationSequence ≤ s'.lastMigrationSequence →
        s.lastMigrationSequence ≤ s''.lastMigrationSequence := fun same held => held.trans same.migration.ge
    refine onInbound_routes stable (fun pathId s' frame held => ?_) bytes le_rfl
    cases frame with
    | migrate f => exact held.trans (s'.applyMigrate_sequence_le)
    | pathResponse f =>
      simp only [applyFrame, silently, onPathResponse]
      repeat' split
      all_goals exact held
    | _ => exact stable (s'.applyFrame_routes crypto now pathId id) held
  | _ => exact absurd trivial keeps

theorem sequence_le_runs (s : Session) (calls : List Call) :
    s.lastMigrationSequence ≤ (calls.foldl (Call.run crypto) s).lastMigrationSequence := by
  induction calls generalizing s with
  | nil => exact le_rfl
  | cons call rest ih => exact (sequence_le_run crypto s call).trans (ih (call.run crypto s))

/-! Atomicity and retry. -/

/-- The frame is news from the primary path, but the session may not migrate to the path it asks for. -/
def UsesUp (s : Session) (f : MigrateFrame) : Prop :=
  s.lastMigrationSequence < f.migrationSequence ∧ f.oldPathId = s.primaryPathId ∧ f.makePrimary = true ∧
    ¬s.MayMigrateTo f.newPathId

/-- A frame that has failed takes effect when it is handled again after some calls, if no other migration was
accepted, the old path is primary and the session may migrate to the new one. -/
def RetryTakesEffect (s : Session) (f : MigrateFrame) : Prop :=
  ∀ calls : List Call,
    let later := calls.foldl (Call.run crypto) (s.applyMigrate f).2
    later.lastMigrationSequence = (s.applyMigrate f).2.lastMigrationSequence →
    later.primaryPathId = f.oldPathId → f.makePrimary = true → later.MayMigrateTo f.newPathId →
    Succeeds (later.applyMigrate f) ∧ (later.applyMigrate f).2.primaryPathId = f.newPathId

theorem applyMigrate_unchanged (failed : ¬Succeeds (s.applyMigrate f)) (kept : ¬s.UsesUp f) :
    (s.applyMigrate f).2 = s ∧ s.lastMigrationSequence < f.migrationSequence := by
  rw [applyMigrate_isOk, AcceptsMigrate, not_or, not_le] at failed
  obtain ⟨news, refused⟩ := failed
  refine ⟨?_, news⟩
  unfold applyMigrate
  rw [if_neg (not_le.mpr news), if_pos]
  intro old
  by_cases primary : f.makePrimary = true
  · exact kept ⟨news, old, primary, fun may => refused ⟨old, fun _ => may⟩⟩
  · exact refused ⟨old, fun asked => absurd asked primary⟩

theorem applyMigrate_usedUp (uses : s.UsesUp f) :
    ¬Succeeds (s.applyMigrate f) ∧ (s.applyMigrate f).2.lastMigrationSequence = f.migrationSequence := by
  obtain ⟨news, old, primary, may⟩ := uses
  refine ⟨?_, ?_⟩
  · rw [applyMigrate_isOk, AcceptsMigrate]
    rintro (seen | ⟨-, allowed⟩)
    · omega
    · exact may (allowed primary)
  · unfold applyMigrate
    rw [if_neg (not_le.mpr news), if_neg (not_not.mpr old)]
    rw [if_pos primary, migrateTo_sequence]

theorem applyMigrate_primary (news : s.lastMigrationSequence < f.migrationSequence)
    (old : s.primaryPathId = f.oldPathId) (primary : f.makePrimary = true) (may : s.MayMigrateTo f.newPathId) :
    Succeeds (s.applyMigrate f) ∧ (s.applyMigrate f).2.primaryPathId = f.newPathId := by
  refine ⟨applyMigrate_isOk.mpr (.inr ⟨old.symm, fun _ => may⟩), ?_⟩
  unfold applyMigrate
  rw [if_neg (not_le.mpr news), if_neg (not_not.mpr old.symm)]
  rw [if_pos primary]
  exact migrateTo_primary may

/-- A failed MIGRATE is atomic and can be retried just if it is not used up. A frame that is used up is ignored
after any further calls. `migrate_to` itself is atomic. -/
theorem migrate_atomic_iff (crypto : Primitives) (s : Session) (f : MigrateFrame) :
    ((¬Succeeds (s.applyMigrate f) → SamePaths s (s.applyMigrate f).2 ∧ s.RetryTakesEffect crypto f) ↔
      ¬s.UsesUp f) ∧
    (s.UsesUp f → ∀ calls : List Call,
      (calls.foldl (Call.run crypto) (s.applyMigrate f).2).applyMigrate f =
        (.ok (), calls.foldl (Call.run crypto) (s.applyMigrate f).2)) ∧
    ∀ newPathId keepOld, ¬Succeeds (s.migrateTo newPathId keepOld) → (s.migrateTo newPathId keepOld).2 = s := by
  refine ⟨⟨fun atomic uses => ?_, fun kept failed => ?_⟩, fun uses calls => ?_, fun _ _ => migrateTo_failed⟩
  · obtain ⟨failed, taken⟩ := applyMigrate_usedUp uses
    have same := (atomic failed).1.migration
    have news := uses.1
    omega
  · obtain ⟨unchanged, news⟩ := applyMigrate_unchanged failed kept
    rw [RetryTakesEffect, unchanged]
    refine ⟨⟨rfl, rfl, rfl⟩, fun calls sequence old primary may => ?_⟩
    exact applyMigrate_primary (sequence.trans_lt news) old primary may
  · have taken := (applyMigrate_usedUp uses).2
    have kept := sequence_le_runs crypto (s.applyMigrate f).2 calls
    rw [taken] at kept
    exact if_pos kept

def twoPaths : Session :=
  ((tenByteServer.addPath 0 "ump.udp/1" [] [] 0 (Octets.fill 8 0)).2.addPath 1 "ump.udp/1" [] [] 0
    (Octets.fill 8 1)).2

def toSecondPath : MigrateFrame :=
  { oldPathId := 0, newPathId := 1, migrationSequence := 1, makePrimary := true, keepOldPath := true
    duplicateCriticalFrames := false }

/-- The MIGRATE comes before the response that validates the path, and once more after it. -/
def earlyMigrate : List Call :=
  [.onInbound 1 (plainPacket 0 ((toSecondPath.encode).toOption.getD [])),
    .control (.onPathResponse 1 (Octets.fill 8 1)),
    .onInbound 2 (plainPacket 1 ((toSecondPath.encode).toOption.getD []))]

/-- The first MIGRATE fails and leaves its sequence, the second is accepted and does nothing. -/
theorem early_migrate_used_up :
    let s := (earlyMigrate.take 2).foldl (Call.run transparent) twoPaths
    (twoPaths.onInbound transparent 1 (plainPacket 0 ((toSecondPath.encode).toOption.getD []))).1 =
        .error .pathNotValidated ∧
      ((earlyMigrate.take 1).foldl (Call.run transparent) twoPaths).lastMigrationSequence = 1 ∧
      s.MayMigrateTo 1 ∧ s.primaryPathId = 0 ∧
      (s.onInbound transparent 2
        (plainPacket 1 ((toSecondPath.encode).toOption.getD []))).1.toOption.isSome = true ∧
      (earlyMigrate.foldl (Call.run transparent) twoPaths).primaryPathId = 0 := by
  decide +kernel

end

/-! On which response the primary path rests. A ledger beside the session has the data of every challenge on a
path, the response that validated each path last, and the one the primary path had when it became primary. A
response is matched against the outstanding challenges, but whether its challenge has expired is not looked at.
-/

open OrderedMap

/-- A response that validated a path: its data, when it arrived, and when the challenge it answers expired. -/
structure PathProof where
  data : Octets 8
  (arrival expiresAt : Instant)
  deriving DecidableEq

/-- What happens to the paths of a session: a call, or an operation on a path of the table. -/
inductive PathOp where
  | call (call : Call) | startValidation (pathId : Nat) (challenge : Octets 8) (ptoMs : Nat)
  | retryExpiredChallenges (pathId : Nat) | markFailed (pathId : Nat)

structure PathLedger where
  session : Session
  challenged : List (Nat × Octets 8)
  proofs : Nat → Option PathProof
  primaryProof : Option PathProof
  late : Bool

/-- The challenge that a response on the path answers. -/
def answered (s : Session) (pathId : Nat) (response : Octets 8) : Option PathChallenge :=
  (s.paths.get? pathId).bind fun path => path.challenges.find? (·.data = response)

variable {response : Octets 8}

/-- A change to one path of the table. -/
def onPath (s : Session) (pathId : Nat) (change : Path → Path) : Session :=
  match s.paths.get? pathId with
  | none => s
  | some path => { s with paths := s.paths.insert pathId (change path) }

namespace PathLedger

def start (session : Session) : PathLedger :=
  { session, challenged := [], proofs := fun _ => none, primaryProof := none, late := false }

/-- A step that answers no challenge; a path that becomes primary does so with the response it has. -/
def move (l : PathLedger) (session : Session) : PathLedger :=
  { l with
    session
    primaryProof :=
      if session.primaryPathId = l.session.primaryPathId then l.primaryProof else l.proofs session.primaryPathId }

def respond (l : PathLedger) (now : Instant) (pathId : Nat) (response : Octets 8) : PathLedger :=
  let session := (l.session.onPathResponse pathId response).2
  match l.session.answered pathId response with
  | none => { l with session }
  | some challenge =>
    { l with
      session
      proofs := Function.update l.proofs pathId (some ⟨response, now, challenge.expiresAt⟩)
      late := l.late || decide (challenge.expiresAt ≤ now) }

section
variable (crypto : Primitives)

def frame (now : Instant) (pathId : Nat) (l : PathLedger) : Frame → PathLedger
  | .pathResponse f => l.respond now pathId f.data
  | frame => l.move (l.session.applyFrame crypto now pathId frame).2

def frames (now : Instant) (pathId : Nat) (l : PathLedger) : List Frame → PathLedger
  | [] => l
  | frame :: rest =>
    match (l.session.applyFrame crypto now pathId frame).1 with
    | .error _ => l.frame crypto now pathId frame
    | .ok _ => (l.frame crypto now pathId frame).frames now pathId rest

def inbound (now : Instant) (bytes : Bytes) (l : PathLedger) : PathLedger :=
  match l.session.admitPacket crypto now bytes with
  | (.error _, _) => { l with session := (l.session.onInbound crypto now bytes).2 }
  | (.ok packet, s) =>
    match parsePayload (.protectedSpace packet.space) packet.payload with
    | .error _ => { l with session := (l.session.onInbound crypto now bytes).2 }
    | .ok parsed =>
      { ({ l with session := s.resetIdleTimer parsed now }).frames crypto now packet.pathId parsed with
        session := (l.session.onInbound crypto now bytes).2 }

/-- One call, with the challenges it sends and the responses that it takes. -/
def step (l : PathLedger) : Instant × PathOp → PathLedger
  | (now, .call (.control (.onPathResponse pathId response))) => l.respond now pathId response
  | (_, .call (.control (.addPath pathId carrierType localContext remoteContext now challenge))) =>
    match l.session.addPath pathId carrierType localContext remoteContext now challenge with
    | (.error _, session) => { l with session }
    | (.ok sent, session) => { l with session, challenged := (pathId, sent) :: l.challenged }
  | (_, .call (.onInbound now bytes)) => l.inbound crypto now bytes
  | (_, .call call) => l.move (call.run crypto l.session)
  | (now, .startValidation pathId challenge ptoMs) =>
    match l.session.paths.get? pathId with
    | none => l
    | some path =>
      match path.startValidation challenge now ptoMs with
      | .error _ => l
      | .ok path =>
        { l with
          session := { l.session with paths := l.session.paths.insert pathId path }
          challenged := (pathId, challenge) :: l.challenged }
  | (now, .retryExpiredChallenges pathId) =>
    { l with session := l.session.onPath pathId fun path => (path.retryExpiredChallenges now).2 }
  | (_, .markFailed pathId) => { l with session := l.session.onPath pathId Path.markFailed }

def after (s : Session) (ops : List (Instant × PathOp)) : PathLedger := ops.foldl (step crypto) (start s)

end

/-! The ledger follows the session. -/

theorem respond_session {l : PathLedger} :
    (l.respond now pathId response).session = (l.session.onPathResponse pathId response).2 := by
  unfold respond
  split <;> rfl

theorem frame_session (crypto : Primitives) (now : Instant) (pathId : Nat) (l : PathLedger) (frame : Frame) :
    (l.frame crypto now pathId frame).session = (l.session.applyFrame crypto now pathId frame).2 := by
  cases frame with
  | pathResponse f => exact respond_session
  | _ => rfl

theorem frames_session (crypto : Primitives) (now : Instant) (pathId : Nat) (l : PathLedger) (parsed : List Frame)
    (response : Bytes) : (l.frames crypto now pathId parsed).session =
      (l.session.applyFrames crypto now pathId response parsed).2 := by
  induction parsed generalizing l response with
  | nil => rfl
  | cons frame rest ih =>
    have here := frame_session crypto now pathId l frame
    unfold frames applyFrames
    cases shape : l.session.applyFrame crypto now pathId frame with
    | mk result s =>
      rw [shape] at here
      cases result with
      | error e => exact here
      | ok out =>
        rw [ih (l.frame crypto now pathId frame) (response ++ out), here]

/-! The invariant. -/

/-- The response answers a challenge sent on the path, and came in time unless some accepted response was late.
-/
def Vouched (l : PathLedger) (pathId : Nat) (proof : Option PathProof) : Prop :=
  ∃ p, proof = some p ∧ (pathId, p.data) ∈ l.challenged ∧ (p.arrival < p.expiresAt ∨ l.late = true)

/-- The outstanding challenges were sent on their path, and the validated paths and the primary path rest on a
response. -/
structure Sound (l : PathLedger) : Prop where
  known : ∀ id path, l.session.paths.get? id = some path → ∀ c ∈ path.challenges, (id, c.data) ∈ l.challenged
  proven : ∀ id path, l.session.paths.get? id = some path → path.state = .validated → l.Vouched id (l.proofs id)
  primary : l.session.primaryPathId = 0 ∨ l.Vouched l.session.primaryPathId l.primaryProof

/-- No path is added, gains a challenge or becomes validated. -/
def Demotes (s s' : Session) : Prop :=
  ∀ id path', s'.paths.get? id = some path' → ∃ path, s.paths.get? id = some path ∧
    (∀ c' ∈ path'.challenges, ∃ c ∈ path.challenges, c'.data = c.data) ∧
    (path'.state = .validated → path.state = .validated)

theorem Demotes.refl (s : Session) : Demotes s s := fun _ path found =>
  ⟨path, found, fun c member => ⟨c, member, rfl⟩, id⟩

variable {s : Session} {pathId : Nat}

theorem demotes_of_routes (same : SameRoutes s s') : Demotes s s' := by
  intro id path' found
  have view := same.paths id
  rw [found, Option.map_some] at view
  obtain ⟨path, was, agrees⟩ := Option.map_eq_some_iff.mp view.symm
  obtain ⟨state, challenges⟩ := Prod.mk.inj agrees
  refine ⟨path, was, fun c member => ⟨c, by rwa [challenges], rfl⟩, fun validated => state.trans validated⟩

/-- A change to a path that adds no challenge and does not validate. -/
theorem demotes_onPath
    (challenges : ∀ path, ∀ c' ∈ (change path).challenges, ∃ c ∈ path.challenges, c'.data = c.data)
    (state : ∀ path, (change path).state = .validated → path.state = .validated) :
    Demotes s (s.onPath pathId change) := by
  intro id path' found
  unfold onPath at found
  split at found
  · exact Demotes.refl s id path' found
  · next path was =>
    rcases get?_insert_eq_some.mp found with ⟨rfl, rfl⟩ | ⟨-, held⟩
    · exact ⟨path, was, challenges path, state path⟩
    · exact Demotes.refl s id path' held

theorem retryFrom_data : ∀ c' ∈ (Path.retryFrom now challenges).2, ∃ c ∈ challenges, c'.data = c.data := by
  induction challenges with
  | nil => simp [Path.retryFrom]
  | cons challenge rest ih =>
    have later : ∀ c' ∈ (Path.retryFrom now rest).2, ∃ c ∈ challenge :: rest, c'.data = c.data :=
      fun c' member => (ih c' member).imp fun _ here => ⟨List.mem_cons_of_mem _ here.1, here.2⟩
    have kept : ∀ c' ∈ rest, ∃ c ∈ challenge :: rest, c'.data = c.data :=
      fun c' member => ⟨c', List.mem_cons_of_mem _ member, rfl⟩
    unfold Path.retryFrom
    split
    · dsimp only
      split
      · exact List.forall_mem_cons.mpr ⟨⟨challenge, List.mem_cons_self, rfl⟩, kept⟩
      · exact List.forall_mem_cons.mpr ⟨⟨challenge, List.mem_cons_self, rfl⟩, later⟩
    · exact List.forall_mem_cons.mpr ⟨⟨challenge, List.mem_cons_self, rfl⟩, later⟩

variable {l : PathLedger}

theorem Vouched.mono {l' : PathLedger} {id : Nat} (vouched : l.Vouched id proof)
    (challenged : ∀ entry ∈ l.challenged, entry ∈ l'.challenged) (late : l.late = true → l'.late = true) :
    l'.Vouched id proof := by
  obtain ⟨p, known, sent, timely⟩ := vouched
  exact ⟨p, known, challenged _ sent, timely.imp_right late⟩

/-- A step that only demotes keeps the invariant, if a path that becomes primary is validated. -/
theorem Sound.move (sound : l.Sound) (demotes : Demotes l.session s)
    (primary : s.primaryPathId = l.session.primaryPathId ∨
      ∃ path, l.session.paths.get? s.primaryPathId = some path ∧ path.state = .validated) :
    (l.move s).Sound where
  known id path' found c' member := by
    obtain ⟨path, was, challenges, -⟩ := demotes id path' found
    obtain ⟨c, held, same⟩ := challenges c' member
    rw [same]
    exact sound.known id path was c held
  proven id path' found validated := by
    obtain ⟨path, was, -, state⟩ := demotes id path' found
    exact sound.proven id path was (state validated)
  primary := by
    simp only [PathLedger.move]
    rcases primary with same | ⟨path, found, validated⟩
    · rw [same, if_pos rfl]
      exact sound.primary
    · split
      · next same =>
        rw [same]
        exact sound.primary
      · exact .inr (sound.proven _ path found validated)

theorem Sound.routes (sound : l.Sound) (same : SameRoutes l.session s) : Sound { l with session := s } := by
  have moved := sound.move (demotes_of_routes same) (.inl same.primary)
  rwa [PathLedger.move, if_pos same.primary] at moved

theorem answered_eq_none (unknown : s.answered pathId response = none) :
    ∃ e, s.onPathResponse pathId response = (.error e, s) := by
  unfold answered at unknown
  unfold onPathResponse Path.confirm
  cases found : s.paths.get? pathId with
  | none => exact ⟨_, rfl⟩
  | some path =>
    rw [found, Option.bind_some, List.find?_eq_none] at unknown
    have missing : path.challenges.findIdx? (fun c => decide (c.data = response)) = none :=
      List.findIdx?_eq_none_iff.mpr fun c member => by simpa using unknown c member
    dsimp only
    rw [missing]
    exact ⟨_, rfl⟩

theorem answered_eq_some (known : s.answered pathId response = some challenge) :
    ∃ path path', s.paths.get? pathId = some path ∧ challenge ∈ path.challenges ∧ challenge.data = response ∧
      (∀ c ∈ path'.challenges, c ∈ path.challenges) ∧ (s.onPathResponse pathId response).2.paths =
        s.paths.insert pathId path' ∧
      (s.onPathResponse pathId response).2.primaryPathId = s.primaryPathId := by
  obtain ⟨path, found, here⟩ := Option.bind_eq_some_iff.mp known
  have member := List.mem_of_find?_eq_some here
  have data : challenge.data = response := by simpa using List.find?_some here
  obtain ⟨index, position⟩ : ∃ index, path.challenges.findIdx? (fun c => decide (c.data = response)) = some index := by
    rw [← Option.isSome_iff_exists, List.findIdx?_isSome, List.any_eq_true]
    exact ⟨challenge, member, decide_eq_true data⟩
  unfold onPathResponse Path.confirm
  simp only [found, position]
  exact ⟨path, _, rfl, member, data, fun c => List.mem_of_mem_eraseIdx, rfl, trivial⟩

/-- A response validates a path only if it answers a challenge of that path. -/
theorem Sound.respond (sound : l.Sound) (now : Instant) (pathId : Nat) (response : Octets 8) :
    (l.respond now pathId response).Sound := by
  unfold PathLedger.respond
  split
  · next unknown =>
    obtain ⟨e, refused⟩ := answered_eq_none unknown
    rw [refused]
    exact sound
  · next challenge known =>
    obtain ⟨path, path', found, member, data, left, paths, primary⟩ := answered_eq_some known
    have sent : (pathId, response) ∈ l.challenged := data ▸ sound.known pathId path found challenge member
    have late : l.late = true → (l.late || decide (challenge.expiresAt ≤ now)) = true := fun was => by
      rw [was, Bool.true_or]
    refine ⟨fun id other here c held => ?_, fun id other here validated => ?_, ?_⟩
    · rcases get?_insert_eq_some.mp (paths ▸ here) with ⟨rfl, rfl⟩ | ⟨-, here⟩
      · exact sound.known id path found c (left c held)
      · exact sound.known id other here c held
    · by_cases same : id = pathId
      · subst same
        refine ⟨⟨response, now, challenge.expiresAt⟩, Function.update_self .., sent, ?_⟩
        by_cases expired : challenge.expiresAt ≤ now
        · exact .inr (by simp [expired])
        · exact .inl (not_le.mp expired)
      · rw [paths, get?_insert, if_neg same] at here
        obtain ⟨p, known, was, timely⟩ := sound.proven id other here validated
        exact ⟨p, (Function.update_of_ne same _ _).trans known, was, timely.imp_right late⟩
    · rw [primary]
      exact sound.primary.imp_right fun vouched => vouched.mono (fun _ held => held) late

/-- `migrate_to` fails or goes to a validated path, and demotes the others at most. -/
theorem migrateTo_demotes (s : Session) (newPathId : Nat) (keepOld : Bool) :
    Demotes s (s.migrateTo newPathId keepOld).2 ∧
      ((s.migrateTo newPathId keepOld).2.primaryPathId = s.primaryPathId ∨
        ∃ path, s.paths.get? (s.migrateTo newPathId keepOld).2.primaryPathId = some path ∧
          path.state = .validated) := by
  unfold migrateTo
  split
  · exact ⟨.refl s, .inl rfl⟩
  next path found =>
  split
  · exact ⟨.refl s, .inl rfl⟩
  split
  · exact ⟨.refl s, .inl rfl⟩
  next validated =>
  refine ⟨?_, .inr ⟨path, found, not_not.mp validated⟩⟩
  intro id path' here
  split at here
  · exact Demotes.refl s id path' here
  · obtain ⟨was, held, same⟩ := List.mem_map.mp (get?_eq_some.mp here)
    obtain ⟨rfl, rfl⟩ := Prod.mk.inj same
    refine ⟨was.2, get?_eq_some.mpr held, ?_⟩
    split
    · exact ⟨fun c member => ⟨c, member, rfl⟩, id⟩
    · exact ⟨fun c member => ⟨c, member, rfl⟩, nofun⟩

theorem applyMigrate_demotes :
    Demotes s (s.applyMigrate f).2 ∧ ((s.applyMigrate f).2.primaryPathId = s.primaryPathId ∨
      ∃ path, s.paths.get? (s.applyMigrate f).2.primaryPathId = some path ∧ path.state = .validated) := by
  unfold applyMigrate
  split
  · exact ⟨.refl s, .inl rfl⟩
  split
  · exact ⟨.refl s, .inl rfl⟩
  split
  · exact migrateTo_demotes { s with lastMigrationSequence := f.migrationSequence } f.newPathId f.keepOldPath
  · exact ⟨.refl s, .inl rfl⟩

variable (crypto : Primitives)

theorem Sound.frame (sound : l.Sound) (now : Instant) (pathId : Nat) (frame : Frame) :
    (l.frame crypto now pathId frame).Sound := by
  by_cases other : ConcernsPaths frame
  · cases frame with
    | pathResponse f => exact sound.respond now pathId f.data
    | migrate f => exact sound.move applyMigrate_demotes.1 applyMigrate_demotes.2
    | _ => cases other
  · have same := l.session.applyFrame_routes crypto now pathId other
    have moved := sound.move (demotes_of_routes same) (.inl same.primary)
    cases frame with
    | pathResponse f => exact absurd trivial other
    | _ => exact moved

theorem Sound.frames (sound : l.Sound) (now : Instant) (pathId : Nat) (parsed : List Frame) :
    (l.frames crypto now pathId parsed).Sound := by
  induction parsed generalizing l with
  | nil => exact sound
  | cons frame rest ih =>
    unfold PathLedger.frames
    split
    · exact sound.frame crypto now pathId frame
    · exact ih (sound.frame crypto now pathId frame)

/-- An inbound call leaves the routes that its frames have left. -/
theorem onInbound_after_frames (admitted : s.admitPacket crypto now bytes = (.ok packet, s'))
    (parses : parsePayload (.protectedSpace packet.space) packet.payload = .ok parsed) :
    SameRoutes ((s'.resetIdleTimer parsed now).applyFrames crypto now packet.pathId [] parsed).2
      (s.onInbound crypto now bytes).2 := by
  unfold onInbound
  rw [admitted]
  dsimp only
  unfold applyPacket
  rw [parses]
  dsimp only
  cases (s'.resetIdleTimer parsed now).applyFrames crypto now packet.pathId [] parsed with
  | mk result s'' =>
    cases result with
    | error e => exact .refl s''
    | ok response => exact s''.emitAck_routes (spaceOf packet.space) response

theorem Sound.inbound (sound : l.Sound) (now : Instant) (bytes : Bytes) : (l.inbound crypto now bytes).Sound := by
  have admits := l.session.admitPacket_routes crypto now bytes
  unfold PathLedger.inbound
  split
  · next e s admitted =>
    rw [admitted] at admits
    unfold onInbound
    rw [admitted]
    exact sound.routes admits
  next packet s admitted =>
  rw [admitted] at admits
  split
  · next e parses =>
    unfold onInbound applyPacket
    rw [admitted]
    dsimp only
    rw [parses]
    exact sound.routes admits
  · next parsed parses =>
    have begun := sound.routes (admits.trans (s.resetIdleTimer_routes parsed now))
    have applied := begun.frames crypto now packet.pathId parsed
    have session := frames_session crypto now packet.pathId { l with session := s.resetIdleTimer parsed now } parsed []
    refine applied.routes ?_
    rw [session]
    exact onInbound_after_frames crypto admitted parses

theorem addPath_cases (s : Session) (pathId : Nat) (carrierType : String) (localContext remoteContext : Bytes)
    (now : Instant) (challenge : Octets 8) :
    (∃ e, s.addPath pathId carrierType localContext remoteContext now challenge = (.error e, s)) ∨
    ∃ path, s.addPath pathId carrierType localContext remoteContext now challenge =
        (.ok challenge, { s with paths := s.paths.insert pathId path }) ∧
      (∀ c ∈ path.challenges, c.data = challenge) ∧ path.state ≠ .validated := by
  unfold addPath
  split
  · exact .inl ⟨_, rfl⟩
  split
  · exact .inl ⟨_, rfl⟩
  split
  · exact .inl ⟨_, rfl⟩
  dsimp only
  split
  · exact .inl ⟨_, rfl⟩
  · next path validating =>
    refine .inr ⟨path, rfl, ?_⟩
    unfold Path.startValidation at validating
    split at validating
    · cases validating
    · cases validating
      exact ⟨by simp [Path.new], nofun⟩

/-- A path enters the table, or gains a challenge, with what it was sent. -/
theorem Sound.challenge (sound : l.Sound) {challenge : Octets 8}
    (sent : ∀ c ∈ path.challenges, c.data = challenge ∨ (pathId, c.data) ∈ l.challenged)
    (state : path.state ≠ .validated) :
    Sound { l with
      session := { l.session with paths := l.session.paths.insert pathId path }
      challenged := (pathId, challenge) :: l.challenged } := by
  have grows : ∀ entry ∈ l.challenged, entry ∈ (pathId, challenge) :: l.challenged := fun _ =>
    List.mem_cons_of_mem _
  refine ⟨fun id other here c held => ?_, fun id other here validated => ?_, ?_⟩
  · rcases get?_insert_eq_some.mp here with ⟨rfl, rfl⟩ | ⟨-, here⟩
    · rcases sent c held with rfl | known
      · exact List.mem_cons_self
      · exact grows _ known
    · exact grows _ (sound.known id other here c held)
  · rcases get?_insert_eq_some.mp here with ⟨rfl, rfl⟩ | ⟨-, here⟩
    · exact absurd validated state
    · exact (sound.proven id other here validated).mono grows fun held => held
  · exact sound.primary.imp_right fun vouched => vouched.mono grows fun held => held

theorem markPathDegraded_demotes : Demotes s (s.markPathDegraded pathId).2 ∧
    (s.markPathDegraded pathId).2.primaryPathId = s.primaryPathId := by
  unfold markPathDegraded
  split
  · exact ⟨.refl s, rfl⟩
  next path found =>
  split
  · exact ⟨.refl s, rfl⟩
  · have changed : Demotes s (s.onPath pathId fun path => { path with state := .degraded, rttMs := 0 }) :=
      demotes_onPath (fun _ c member => ⟨c, member, rfl⟩) fun _ => nofun
    rw [onPath, found] at changed
    exact ⟨changed, rfl⟩

theorem onPath_primary (s : Session) (pathId : Nat) (change : Path → Path) :
    (s.onPath pathId change).primaryPathId = s.primaryPathId := by
  unfold onPath
  split <;> rfl

/-- The step lemma, over the calls of a session and the operations on its paths. -/
theorem Sound.step (sound : l.Sound) (input : Instant × PathOp) : (l.step crypto input).Sound := by
  obtain ⟨now, op⟩ := input
  have changed : ∀ pathId change, Demotes l.session (l.session.onPath pathId change) →
      Sound { l with session := l.session.onPath pathId change } := by
    intro pathId change demotes
    have same := onPath_primary l.session pathId change
    have moved := sound.move demotes (.inl same)
    rwa [PathLedger.move, if_pos same] at moved
  cases op with
  | startValidation pathId challenge ptoMs =>
    simp only [PathLedger.step]
    split
    · exact sound
    next path found =>
    split
    · exact sound
    · next path' validating =>
      unfold Path.startValidation at validating
      split at validating
      · cases validating
      · cases validating
        refine sound.challenge (fun c member => ?_) nofun
        rcases List.mem_append.mp member with old | new
        · exact .inr (sound.known pathId path found c old)
        · exact .inl (by rw [List.mem_singleton.mp new])
  | retryExpiredChallenges pathId =>
    exact changed pathId _ (demotes_onPath (fun path => retryFrom_data) fun _ same => same)
  | markFailed pathId =>
    exact changed pathId _ (demotes_onPath (fun _ c member => ⟨c, member, rfl⟩) fun _ => nofun)
  | call call =>
    by_cases keeps : call.KeepsRoutes
    · have same := call.routes crypto l.session keeps
      have moved := sound.move (demotes_of_routes same) (.inl same.primary)
      cases call with
      | control call =>
        cases call with
        | onPathResponse => exact absurd trivial keeps
        | addPath => exact absurd trivial keeps
        | _ => exact moved
      | onInbound now bytes => cases keeps
      | _ => exact moved
    · cases call with
      | control call =>
        cases call with
        | onPathResponse pathId response => exact sound.respond now pathId response
        | addPath pathId carrierType localContext remoteContext at_ challenge =>
          simp only [PathLedger.step]
          rcases addPath_cases l.session pathId carrierType localContext remoteContext at_ challenge with
            ⟨e, refused⟩ | ⟨path, added, sent, state⟩
          · rw [refused]
            exact sound
          · rw [added]
            exact sound.challenge (fun c member => .inl (sent c member)) state
        | migrateTo newPathId keepOld =>
          exact sound.move (migrateTo_demotes l.session newPathId keepOld).1
            (migrateTo_demotes l.session newPathId keepOld).2
        | markPathDegraded pathId =>
          exact sound.move markPathDegraded_demotes.1
            (.inl markPathDegraded_demotes.2)
        | _ => exact absurd id keeps
      | onInbound at_ bytes => exact sound.inbound crypto at_ bytes
      | _ => exact absurd trivial keeps

theorem start_sound (begun : Session.new crypto config = .ok s) : (start s).Sound := by
  have fresh := (new_initial begun).2.1
  refine ⟨fun id path found => ?_, fun id path found => ?_, .inl fresh.2⟩
  all_goals
    dsimp only [start] at found
    rw [fresh.1] at found
    cases found

/-- In every run of calls and path operations from a new session, the primary path is path 0 or had, when it
became primary, a response to a challenge sent on it; if no response was accepted after its challenge had
expired, that one was in time. A response that answers no challenge of its path is refused and changes nothing.
-/
theorem primary_path_validated {config : SessionConfig} {s : Session} (begun : Session.new crypto config = .ok s)
    (ops : List (Instant × PathOp)) :
    ((after crypto s ops).session.primaryPathId = 0 ∨
      ∃ proof, (after crypto s ops).primaryProof = some proof ∧
        ((after crypto s ops).session.primaryPathId, proof.data) ∈ (after crypto s ops).challenged ∧
        ((after crypto s ops).late = false → proof.arrival < proof.expiresAt)) ∧
    ∀ pathId response, (pathId, response) ∉ (after crypto s ops).challenged →
      ∃ e, (after crypto s ops).session.onPathResponse pathId response = (.error e, (after crypto s ops).session) := by
  have sound : (after crypto s ops).Sound :=
    @Run.invariant _ _ (step crypto) Sound ops (start s) (fun _ input held => held.step crypto input)
      (start_sound crypto begun)
  refine ⟨sound.primary.imp_right ?_, fun pathId response never => ?_⟩
  · rintro ⟨proof, held, sent, timely⟩
    refine ⟨proof, held, sent, fun none => timely.resolve_right ?_⟩
    rw [none]
    exact nofun
  · refine answered_eq_none (Option.eq_none_iff_forall_ne_some.mpr fun challenge known => never ?_)
    obtain ⟨path, -, found, member, data, -⟩ := answered_eq_some known
    exact data ▸ sound.known pathId path found challenge member

/-- Path 1 is added and challenged, its response arrives, and the session migrates to it. -/
def validateAndMigrate (arrival : Instant) : List (Instant × PathOp) :=
  [(0, .call (.control (.addPath 1 "ump.udp/1" [] [] 0 (Octets.fill 8 1)))),
    (arrival, .call (.control (.onPathResponse 1 (Octets.fill 8 1)))),
    (arrival, .call (.control (.migrateTo 1 true)))]

theorem primary_path_validated_in_time :
    let w := after transparent tenByteServer (validateAndMigrate 100)
    w.session.primaryPathId = 1 ∧ ∃ proof, w.primaryProof = some proof ∧ proof.arrival < proof.expiresAt := by
  intro w
  have primary : w.session.primaryPathId = 1 := by decide +kernel
  have timely : w.late = false := by decide +kernel
  have begun : Session.new transparent tenByteConfig = .ok tenByteServer := new_started _
  refine ⟨primary, ?_⟩
  rcases (primary_path_validated transparent begun (validateAndMigrate 100)).1 with
    initial | ⟨proof, held, -, inTime⟩
  · cases initial
  · exact ⟨proof, held, inTime timely⟩

/-- Every validated path, primary or not, has answered a challenge sent on it. -/
theorem validated_path_answered {config : SessionConfig} {s : Session} (begun : Session.new crypto config = .ok s)
    (ops : List (Instant × PathOp)) (pathId : Nat)
    (validated : ((after crypto s ops).session.paths.get? pathId).map Path.state = some .validated) :
    (after crypto s ops).Vouched pathId ((after crypto s ops).proofs pathId) := by
  have sound : (after crypto s ops).Sound :=
    @Run.invariant _ _ (step crypto) Sound ops (start s) (fun _ input held => held.step crypto input)
      (start_sound crypto begun)
  obtain ⟨path, found, state⟩ := Option.map_eq_some_iff.mp validated
  exact sound.proven pathId path found state

theorem validated_path_answered_first : let l := after transparent tenByteServer (validateAndMigrate 100)
    l.Vouched 1 (l.proofs 1) :=
  @validated_path_answered transparent tenByteConfig _ (new_started _) _ 1 (by decide +kernel)

/-- The challenge expires after three seconds; a response after ten is accepted. -/
theorem expired_response_validates :
    (after transparent tenByteServer (validateAndMigrate 10000)).session.primaryPathId = 1 ∧
      (after transparent tenByteServer (validateAndMigrate 10000)).primaryProof =
        some ⟨Octets.fill 8 1, 10000, 3000⟩ := by
  decide +kernel

end PathLedger
end UniversalMesh.Session
