import UniversalMesh.Session.Calls
import UniversalMesh.Wire.RoundTrip

/-! Two sessions that update their keys. Each side counts the updates of both directions in one number. An
update that crosses one of the peer's carries a number that the peer has reached by itself, so neither side
moves its remote secret; where no side initiates while an update is under way to it, the secrets agree again as
soon as nothing is in flight. -/
namespace UniversalMesh.Session
open Wire Crypto

variable {s : Session}

inductive Side where
  | left | right
  deriving DecidableEq, Repr

namespace Side

def other : Side → Side
  | left => right
  | right => left

@[simp] theorem other_other (side : Side) : side.other.other = side := by cases side <;> rfl

@[simp] theorem other_ne {side : Side} : side.other ≠ side := by cases side <;> simp [other]

@[simp] theorem ne_other (side : Side) : side ≠ side.other := other_ne.symm

theorem eq_or_eq_other (side known : Side) : side = known ∨ side = known.other := by
  cases side <;> cases known <;> simp [other]

instance decidableForall (holds : Side → Prop) [DecidablePred holds] :
    Decidable (∀ side, holds side) :=
  decidable_of_iff (holds left ∧ holds right)
    ⟨fun both side => by cases side <;> simp [both], fun all => ⟨all left, all right⟩⟩

end Side

/-- Both ends, with the KEY_UPDATE payloads under way to each of them, oldest first, and those it was given. -/
structure KeyLink where
  session : Side → Session
  (inbox delivered : Side → List Bytes)

/-- A side starts an update, is given the oldest payload under way to it, or is given
one of the earlier ones again. -/
inductive KeyStep where
  | initiate (side : Side) | deliver (side : Side) | redeliver (side : Side) (index : Nat)

section
variable (crypto : Primitives)

/-- A session is given the frames of a payload. -/
def receiveFrames (s : Session) (payload : Bytes) : Session :=
  match decodeFrames payload with
  | .error _ => s
  | .ok frames => (s.applyFrames crypto 0 defaultPathId [] frames).2

def NumberedBelow (bound : Nat) (payloads : List Bytes) : Prop :=
  ∀ payload ∈ payloads, ∃ n < bound, keyUpdatePayload n = .ok payload

namespace KeyLink

variable (l : KeyLink)

def keys (side : Side) : KeyUpdateState := (l.session side).keyUpdate

/-- One end is given a payload. -/
def give (side : Side) (payload : Bytes) : KeyLink :=
  { l with session := Function.update l.session side (receiveFrames crypto (l.session side) payload) }

/-- Either side starts an update, or gets a payload, in order the first time. -/
def step : KeyStep → KeyLink
  | .initiate side =>
    match (l.session side).initiateKeyUpdate crypto with
    | (.error _, s) => { l with session := Function.update l.session side s }
    | (.ok payload, s) =>
      { l with
        session := Function.update l.session side s
        inbox := Function.update l.inbox side.other (l.inbox side.other ++ [payload]) }
  | .deliver side =>
    match l.inbox side with
    | [] => l
    | payload :: rest =>
      { l.give crypto side payload with
        inbox := Function.update l.inbox side rest
        delivered := Function.update l.delivered side (payload :: l.delivered side) }
  | .redeliver side index =>
    match (l.delivered side)[index]? with
    | none => l
    | some payload => l.give crypto side payload

/-- An update that is not refused starts while none is under way to the side, and its number can be written. -/
def Uncrossed : KeyStep → Prop
  | .initiate side =>
    (l.keys side).awaitingConfirmation = false →
      l.inbox side = [] ∧ (l.keys side).updateSequence < Varint.maxVarint
  | _ => True

instance (l : KeyLink) : (input : KeyStep) → Decidable (l.Uncrossed input)
  | .initiate side =>
    inferInstanceAs (Decidable ((l.keys side).awaitingConfirmation = false →
      l.inbox side = [] ∧ (l.keys side).updateSequence < Varint.maxVarint))
  | .deliver _ => .isTrue trivial
  | .redeliver _ _ => .isTrue trivial

/-- Each end's local secret is the other's remote secret. -/
def Agrees : Prop :=
  ∀ side, (l.keys side).localSecret = (l.keys side.other).remoteSecret

instance (l : KeyLink) : Decidable l.Agrees := Side.decidableForall _

/-- Nothing is under way, and the ends agree. -/
structure Quiet (l : KeyLink) : Prop where
  idle : ∀ side, l.inbox side = []
  agrees : l.Agrees
  sequences : ∀ side, (l.keys side).updateSequence = (l.keys side.other).updateSequence
  history : ∀ side, NumberedBelow ((l.keys side).updateSequence + 1) (l.delivered side)

/-- One update is under way, from `side`. -/
structure UnderWay (l : KeyLink) (side : Side) : Prop where
  idle : l.inbox side = []
  sent : ∃ payload, l.inbox side.other = [payload] ∧
    keyUpdatePayload (l.keys side).updateSequence = .ok payload
  ahead : (l.keys side).updateSequence = (l.keys side.other).updateSequence + 1
  awaiting : (l.keys side).awaitingConfirmation = true
  advanced : (l.keys side).localSecret = nextTrafficSecret crypto (l.keys side.other).remoteSecret
  agrees : (l.keys side.other).localSecret = (l.keys side).remoteSecret
  history : NumberedBelow (l.keys side).updateSequence (l.delivered side)
  peerHistory : NumberedBelow ((l.keys side.other).updateSequence + 1) (l.delivered side.other)

/-- The link is quiet, or one update is under way. -/
def InOrder : Prop := l.Quiet ∨ ∃ side, l.UnderWay crypto side

end KeyLink

/-! ### What a payload does to the keys -/

theorem keyUpdatePayload_ok :
    keyUpdatePayload n = .ok payload ↔
      KeyUpdateFrame.encode { updateSequence := n, requestPeerUpdate := false } = .ok payload := by
  have typed : putVarint FrameType.keyUpdate.value [] =
      .ok (Varint.encoding FrameType.keyUpdate.value) := putVarint_ok.mpr ⟨by decide, rfl⟩
  simp only [keyUpdatePayload, withType, typed]
  cases written : KeyUpdateFrame.encode { updateSequence := n, requestPeerUpdate := false } with
  | error e => simp
  | ok enc =>
    -- Stripping the two bytes of the type and writing them again changes nothing.
    obtain ⟨-, rfl⟩ := KeyUpdateFrame.encode_ok.mp written
    simp

theorem receiveFrames_keyUpdate (written : keyUpdatePayload n = .ok payload) (s : Session) :
    receiveFrames crypto s payload = (s.onKeyUpdate crypto n).2 := by
  have parsed := Frame.decodeFrames_alone
    (KeyUpdateFrame.round_trip (keyUpdatePayload_ok.mp written)) rfl fun _ => rfl
  simp only [receiveFrames, parsed, applyFrames, applyFrame, silently]
  cases (s.onKeyUpdate crypto n).1 <;> rfl

theorem initiateKeyUpdate_idle (idle : s.keyUpdate.awaitingConfirmation = false)
    (bound : s.keyUpdate.updateSequence < Varint.maxVarint) :
    ∃ payload, keyUpdatePayload (s.keyUpdate.updateSequence + 1) = .ok payload ∧
      s.initiateKeyUpdate crypto = (.ok payload,
        { s with keyUpdate :=
          { s.keyUpdate with
            localSecret := nextTrafficSecret crypto s.keyUpdate.localSecret
            localPhase := s.keyUpdate.localPhase ^^^ 1
            updateSequence := s.keyUpdate.updateSequence + 1
            awaitingConfirmation := true } }) := by
  have written := keyUpdatePayload_ok.mpr
    (KeyUpdateFrame.encode_ok.mpr ⟨Nat.succ_le_of_lt bound, rfl⟩)
  exact ⟨_, written, by simp [initiateKeyUpdate, KeyUpdateState.initiate, idle, written]⟩

variable {crypto}

theorem initiateKeyUpdate_awaiting (awaiting : s.keyUpdate.awaitingConfirmation = true) :
    s.initiateKeyUpdate crypto = (.error .keyUpdate, s) := by
  simp [initiateKeyUpdate, KeyUpdateState.initiate, awaiting]

/-- The secrets and the sequence number are the same. -/
structure SamePhase (before after : KeyUpdateState) : Prop where
  localSecret : after.localSecret = before.localSecret
  remoteSecret : after.remoteSecret = before.remoteSecret
  updateSequence : after.updateSequence = before.updateSequence

theorem SamePhase.refl (k : KeyUpdateState) : SamePhase k k := ⟨rfl, rfl, rfl⟩

theorem onKeyUpdate_passed (passed : n < s.keyUpdate.updateSequence) : (s.onKeyUpdate crypto n).2 = s := by
  rw [onKeyUpdate, if_pos ⟨by omega, by omega⟩]

theorem onKeyUpdate_seen (seen : n < s.keyUpdate.updateSequence + 1) :
    SamePhase s.keyUpdate (s.onKeyUpdate crypto n).2.keyUpdate := by
  by_cases passed : n < s.keyUpdate.updateSequence
  · rw [onKeyUpdate_passed passed]
    exact .refl _
  · rw [onKeyUpdate, if_neg (by omega), if_neg (by omega)]
    exact ⟨rfl, rfl, rfl⟩

theorem onKeyUpdate_next (s : Session) :
    (s.onKeyUpdate crypto (s.keyUpdate.updateSequence + 1)).2.keyUpdate =
      { s.keyUpdate with
        remoteSecret := nextTrafficSecret crypto s.keyUpdate.remoteSecret
        remotePhase := s.keyUpdate.remotePhase ^^^ 1
        updateSequence := s.keyUpdate.updateSequence + 1
        awaitingConfirmation := false } := by
  rw [onKeyUpdate, if_neg (by omega), if_pos (by omega)]
  rfl

theorem NumberedBelow.mono (numbered : NumberedBelow low payloads) (within : low ≤ high) :
    NumberedBelow high payloads := by
  intro payload given
  obtain ⟨n, below, written⟩ := numbered payload given
  exact ⟨n, by omega, written⟩

namespace KeyLink
variable {l : KeyLink} {side : Side} {session : Side → Session}

theorem Quiet.of_samePhase (quiet : l.Quiet)
    (same : ∀ side, SamePhase (l.keys side) (session side).keyUpdate) : Quiet { l with session } where
  idle := quiet.idle
  agrees side := by
    simpa only [keys, (same side).localSecret, (same side.other).remoteSecret] using quiet.agrees side
  sequences side := by
    simpa only [keys, (same side).updateSequence, (same side.other).updateSequence]
      using quiet.sequences side
  history side := by
    simpa only [keys, (same side).updateSequence] using quiet.history side

theorem UnderWay.of_samePhase (underWay : l.UnderWay crypto side)
    (same : ∀ side, SamePhase (l.keys side) (session side).keyUpdate)
    (awaiting : (session side).keyUpdate.awaitingConfirmation = true) :
    UnderWay crypto { l with session } side where
  idle := underWay.idle
  sent := by simpa only [keys, (same side).updateSequence] using underWay.sent
  ahead := by
    simpa only [keys, (same side).updateSequence, (same side.other).updateSequence]
      using underWay.ahead
  awaiting := awaiting
  advanced := by
    simpa only [keys, (same side).localSecret, (same side.other).remoteSecret]
      using underWay.advanced
  agrees := by
    simpa only [keys, (same side).remoteSecret, (same side.other).localSecret]
      using underWay.agrees
  history := by simpa only [keys, (same side).updateSequence] using underWay.history
  peerHistory := by
    simpa only [keys, (same side.other).updateSequence] using underWay.peerHistory

theorem samePhase_update (same : SamePhase (l.keys side) s.keyUpdate) (any : Side) :
    SamePhase (l.keys any) (Function.update l.session side s any).keyUpdate := by
  rcases any.eq_or_eq_other side with rfl | rfl
  · simpa using same
  · rw [Function.update_of_ne Side.other_ne]
    exact .refl _

/-! ### Steps -/

theorem Quiet.initiated (quiet : l.Quiet) (idle : (l.keys side).awaitingConfirmation = false)
    (bound : (l.keys side).updateSequence < Varint.maxVarint) :
    (l.step crypto (.initiate side)).UnderWay crypto side := by
  obtain ⟨payload, written, initiated⟩ := initiateKeyUpdate_idle crypto idle bound
  have agreed := quiet.agrees side
  have back := quiet.agrees side.other
  have sequences := quiet.sequences side
  simp only [keys] at agreed back sequences
  simp only [step, initiated]
  constructor
  · simp [quiet.idle side]
  · exact ⟨payload, by simp [quiet.idle side.other], by simpa [keys] using written⟩
  · simp [keys, sequences]
  · simp [keys]
  · simp [keys, agreed]
  · simp [keys, back]
  · simpa [keys] using quiet.history side
  · simpa [keys] using quiet.history side.other

theorem UnderWay.delivered (underWay : l.UnderWay crypto side) :
    (l.step crypto (.deliver side.other)).Quiet := by
  obtain ⟨payload, sent, written⟩ := underWay.sent
  rw [underWay.ahead] at written
  have received := (congrArg Session.keyUpdate
    (receiveFrames_keyUpdate crypto written (l.session side.other))).trans (onKeyUpdate_next _)
  have ahead := underWay.ahead
  have advanced := underWay.advanced
  have agrees := underWay.agrees
  simp only [keys] at received ahead advanced agrees
  simp only [step, sent]
  constructor
  all_goals
    intro any
    rcases any.eq_or_eq_other side with rfl | rfl
  · simp [underWay.idle]
  · simp
  · simp [keys, give, received, advanced]
  · simp [keys, give, received, agrees]
  · simp [keys, give, received, ahead]
  · simp [keys, give, received, ahead]
  · simpa [keys, give] using underWay.history.mono (Nat.le_succ _)
  · simp only [keys, give, Function.update_self, received]
    intro given member
    rcases List.mem_cons.mp member with rfl | member
    · exact ⟨_, Nat.lt_succ_self _, written⟩
    · exact underWay.peerHistory.mono (Nat.le_succ _) given member

theorem give_seen (numbered : NumberedBelow ((l.keys side).updateSequence + 1) (l.delivered side))
    (given : payload ∈ l.delivered side) (any : Side) :
    SamePhase (l.keys any) ((l.give crypto side payload).session any).keyUpdate := by
  obtain ⟨n, seen, written⟩ := numbered payload given
  apply samePhase_update
  rw [receiveFrames_keyUpdate crypto written]
  exact onKeyUpdate_seen seen

theorem give_passed (numbered : NumberedBelow (l.keys side).updateSequence (l.delivered side))
    (given : payload ∈ l.delivered side) : l.give crypto side payload = l := by
  obtain ⟨n, passed, written⟩ := numbered payload given
  rw [give, receiveFrames_keyUpdate crypto written, onKeyUpdate_passed passed, Function.update_eq_self]

theorem step_initiate_awaiting (awaiting : (l.keys side).awaitingConfirmation = true) :
    l.step crypto (.initiate side) = l := by
  simp only [step, initiateKeyUpdate_awaiting awaiting, Function.update_eq_self]

theorem step_deliver_idle (idle : l.inbox side = []) : l.step crypto (.deliver side) = l := by
  simp only [step, idle]

theorem step_redeliver :
    l.step crypto (.redeliver side index) = l ∨ ∃ payload ∈ l.delivered side,
        l.step crypto (.redeliver side index) = l.give crypto side payload := by
  simp only [step]
  cases found : (l.delivered side)[index]? with
  | none => exact .inl rfl
  | some payload => exact .inr ⟨payload, List.mem_of_getElem? found, rfl⟩

theorem Quiet.step (quiet : l.Quiet) (input : KeyStep) (uncrossed : l.Uncrossed input) :
    (l.step crypto input).InOrder crypto := by
  cases input with
  | initiate side =>
    cases awaiting : (l.keys side).awaitingConfirmation with
    | true =>
      rw [step_initiate_awaiting awaiting]
      exact .inl quiet
    | false => exact .inr ⟨side, quiet.initiated awaiting (uncrossed awaiting).2⟩
  | deliver side =>
    rw [step_deliver_idle (quiet.idle side)]
    exact .inl quiet
  | redeliver side index =>
    rcases step_redeliver with unchanged | ⟨payload, given, again⟩
    · rw [unchanged]
      exact .inl quiet
    · rw [again]
      exact .inl (quiet.of_samePhase (give_seen (quiet.history side) given))

theorem UnderWay.step (underWay : l.UnderWay crypto side) (input : KeyStep)
    (uncrossed : l.Uncrossed input) : (l.step crypto input).InOrder crypto := by
  cases input with
  | initiate any =>
    rw [step_initiate_awaiting ?_]
    · exact .inr ⟨side, underWay⟩
    rcases any.eq_or_eq_other side with rfl | rfl
    · exact underWay.awaiting
    -- The peer cannot start one of its own: the update is under way to it.
    · by_contra idle
      obtain ⟨payload, sent, -⟩ := underWay.sent
      simp [(uncrossed (Bool.eq_false_iff.mpr idle)).1] at sent
  | deliver any =>
    rcases any.eq_or_eq_other side with rfl | rfl
    · rw [step_deliver_idle underWay.idle]
      exact .inr ⟨_, underWay⟩
    · exact .inl underWay.delivered
  | redeliver any index =>
    rcases step_redeliver with unchanged | ⟨payload, given, again⟩
    · rw [unchanged]
      exact .inr ⟨side, underWay⟩
    rw [again]
    rcases any.eq_or_eq_other side with rfl | rfl
    · rw [give_passed underWay.history given]
      exact .inr ⟨_, underWay⟩
    · exact .inr ⟨side, underWay.of_samePhase (give_seen underWay.peerHistory given)
        (by simpa [give, keys] using underWay.awaiting)⟩

theorem step_inOrder (l : KeyLink) (input : KeyStep) (inOrder : l.InOrder crypto)
    (uncrossed : l.Uncrossed input) : (l.step crypto input).InOrder crypto := by
  rcases inOrder with quiet | ⟨side, underWay⟩
  · exact quiet.step input uncrossed
  · exact underWay.step input uncrossed

theorem InOrder.agrees (inOrder : l.InOrder crypto) (idle : ∀ side, l.inbox side = []) : l.Agrees := by
  rcases inOrder with quiet | ⟨side, underWay⟩
  · exact quiet.agrees
  · obtain ⟨payload, sent, -⟩ := underWay.sent
    simp [idle] at sent

def between (left right : Session) : KeyLink where
  session
    | .left => left
    | .right => right
  inbox _ := []
  delivered _ := []

theorem between_quiet (leftFresh : Fresh leftConfig left) (rightFresh : Fresh rightConfig right)
    (outward : leftConfig.localTrafficSecret = rightConfig.remoteTrafficSecret)
    (inward : rightConfig.localTrafficSecret = leftConfig.remoteTrafficSecret) :
    (between left right).Quiet where
  idle _ := rfl
  agrees side := by
    cases side with
    | left =>
      change left.keyUpdate.localSecret = right.keyUpdate.remoteSecret
      rw [leftFresh.keys, rightFresh.keys]
      exact outward
    | right =>
      change right.keyUpdate.localSecret = left.keyUpdate.remoteSecret
      rw [leftFresh.keys, rightFresh.keys]
      exact inward
  sequences side := by
    cases side <;> simp [keys, between, Side.other, leftFresh.keys, rightFresh.keys, KeyUpdateState.new]
  history _ _ given := by cases given

end KeyLink

variable (crypto)

/-- In every exchange in which no side starts an update while one is under way to it, the secrets agree whenever
nothing is under way, whatever is given twice. -/
theorem secrets_agree_when_idle {leftConfig rightConfig : SessionConfig} {left right : Session}
    (leftStarted : Session.new crypto leftConfig = .ok left)
    (rightStarted : Session.new crypto rightConfig = .ok right)
    (outward : leftConfig.localTrafficSecret = rightConfig.remoteTrafficSecret)
    (inward : rightConfig.localTrafficSecret = leftConfig.remoteTrafficSecret) {steps : List KeyStep}
    (uncrossed : Run.Meets KeyLink.Uncrossed (KeyLink.step crypto) (.between left right) steps)
    (idle : ∀ side, (steps.foldl (KeyLink.step crypto) (.between left right)).inbox side = []) :
    (steps.foldl (KeyLink.step crypto) (.between left right)).Agrees := by
  have quiet := KeyLink.between_quiet (new_fresh leftStarted) (new_fresh rightStarted) outward inward
  have inOrder : (steps.foldl (KeyLink.step crypto) (.between left right)).InOrder crypto :=
    Run.invariant_of_meets KeyLink.step_inOrder (.inl quiet) uncrossed
  exact inOrder.agrees idle

end

/-! ### Crossing updates -/

/-- One end of a pair, each direction with a secret of its own. -/
def endConfig (role : Role) (out back : UInt8) : SessionConfig :=
  { tenByteConfig with
    role
    localTrafficSecret := ⟨List.replicate 32 out, rfl⟩
    remoteTrafficSecret := ⟨List.replicate 32 back, rfl⟩ }

def paired : KeyLink :=
  .between (started transparent (endConfig .client 1 2) (by decide +kernel))
    (started transparent (endConfig .server 2 1) (by decide +kernel))

/-- Both ends start an update before they hear from the other, and get the other's. -/
def crossing : List KeyStep :=
  [.initiate .left, .initiate .right, .deliver .left, .deliver .right]

/-- Each of two crossing updates looks like the confirmation of the other: neither end moves its remote secret.
-/
theorem crossing_updates_disagree :
    paired.Agrees ∧
      (∀ side, (crossing.foldl (KeyLink.step transparent) paired).inbox side = []) ∧
      ¬ (crossing.foldl (KeyLink.step transparent) paired).Agrees := by
  decide +kernel

/-- An update in each direction, one after the other, with a payload given twice. -/
def alternating : List KeyStep :=
  [.initiate .left, .deliver .right, .redeliver .right 0, .initiate .right, .deliver .left]

theorem secrets_agree_when_idle_alternating :
    Run.Meets KeyLink.Uncrossed (KeyLink.step transparent) paired alternating ∧
      (alternating.foldl (KeyLink.step transparent) paired).Agrees := by
  have uncrossed : Run.Meets KeyLink.Uncrossed (KeyLink.step transparent) paired alternating := by
    decide +kernel
  exact ⟨uncrossed, secrets_agree_when_idle transparent (new_started _) (new_started _)
    rfl rfl uncrossed (by decide +kernel)⟩

end UniversalMesh.Session
