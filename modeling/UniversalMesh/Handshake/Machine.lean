import UniversalMesh.Lib.Run

/-! `umc-handshake/src/state.rs`: the state machine that gates message ordering and the installation of the
application keys. Both roles share its states, so a run may mix the initiator's events with the responder's. -/
namespace UniversalMesh.Handshake

inductive HandshakeState where
  | idle | initialSent | initialReceived | retrySent | retryReceived | handshakeKeys
  | peerAuthenticated | sessionKeys | confirmed | closed
  deriving DecidableEq, Repr

inductive HandshakeEvent where
  | sendClientHello | receiveClientHello | sendServerHello | receiveServerHello | sendRetry
  | receiveRetry | installHandshakeKeys | sendClientAuth | receiveClientAuth | sendServerFinished
  | receiveServerFinished | sendClientFinished | receiveClientFinished | installSessionKeys
  | confirm | fail
  deriving DecidableEq, Repr

inductive StateError where
  | invalidTransition
  deriving DecidableEq, Repr

/-- The table of `HandshakeMachine::apply`. -/
def HandshakeState.next : HandshakeState → HandshakeEvent → Option HandshakeState
  | _, .fail => some .closed
  -- the initiator's path, with the stateless Retry
  | .idle, .sendClientHello => some .initialSent
  | .idle, .receiveRetry => some .retryReceived
  | .initialSent, .receiveRetry => some .retryReceived
  | .retryReceived, .sendClientHello => some .initialSent
  | .initialSent, .receiveServerHello => some .handshakeKeys
  -- the responder's path
  | .idle, .receiveClientHello => some .initialReceived
  | .initialReceived, .sendRetry => some .retrySent
  | .retrySent, .receiveClientHello => some .initialReceived
  | .initialReceived, .sendServerHello => some .handshakeKeys
  -- from here on the two roles share their states
  | .handshakeKeys, .installHandshakeKeys => some .handshakeKeys
  | .handshakeKeys, .sendClientAuth => some .peerAuthenticated
  | .handshakeKeys, .receiveClientAuth => some .peerAuthenticated
  | .peerAuthenticated, .receiveServerFinished => some .sessionKeys
  | .peerAuthenticated, .sendServerFinished => some .sessionKeys
  | .sessionKeys, .installSessionKeys => some .sessionKeys
  | .sessionKeys, .sendClientFinished => some .sessionKeys
  | .sessionKeys, .receiveClientFinished => some .sessionKeys
  | .sessionKeys, .confirm => some .confirmed
  | .confirmed, .installSessionKeys => some .confirmed
  | _, _ => none

/-- The events that carry the peer's authenticated handshake evidence. -/
def HandshakeEvent.isPeerEvidence : HandshakeEvent → Bool
  | .receiveClientAuth | .receiveServerFinished | .receiveClientFinished => true
  | _ => false

/-- The events that a message of the peer causes. -/
def HandshakeEvent.isReceive : HandshakeEvent → Bool
  | .receiveClientHello | .receiveServerHello | .receiveRetry | .receiveClientAuth
  | .receiveServerFinished | .receiveClientFinished => true
  | _ => false

structure HandshakeMachine where
  state : HandshakeState
  (peerAuthenticated applicationKeysInstalled : Bool)
  deriving DecidableEq, Repr

namespace HandshakeMachine

def new : HandshakeMachine := ⟨.idle, false, false⟩

/-- One transition, with the evidence and the keys that it brings. -/
def apply (machine : HandshakeMachine) (event : HandshakeEvent) : Except StateError HandshakeMachine :=
  match machine.state.next event with
  | none => .error .invalidTransition
  | some next =>
    .ok { state := next
          -- confirmation sets the flag as well, whatever was received before it
          peerAuthenticated := machine.peerAuthenticated || event.isPeerEvidence || next == .confirmed
          applicationKeysInstalled := machine.applicationKeysInstalled || next == .confirmed }

def mayInstallApplicationKeys (machine : HandshakeMachine) : Bool :=
  machine.state == .confirmed && machine.peerAuthenticated && machine.applicationKeysInstalled

end HandshakeMachine

/-- A machine with the events it has applied, in order. -/
structure Progress where
  machine : HandshakeMachine
  applied : List HandshakeEvent

namespace Progress

def start : Progress := ⟨.new, []⟩

variable (progress : Progress)

/-- An event the machine refuses leaves it as it was. -/
def step (event : HandshakeEvent) : Progress :=
  match progress.machine.apply event with
  | .ok machine => ⟨machine, progress.applied ++ [event]⟩
  | .error _ => progress

def run (events : List HandshakeEvent) : Progress := events.foldl step start

/-- The application keys may be installed after the events. -/
def Unlocks (events : List HandshakeEvent) : Prop :=
  (run events).machine.mayInstallApplicationKeys = true
  deriving Decidable

/-- Evidence of the peer was applied before the confirmation. -/
def HeardBeforeConfirm (events : List HandshakeEvent) : Prop :=
  ∃ before after, (run events).applied = before ++ .confirm :: after ∧
    ∃ event ∈ before, event.isPeerEvidence = true

variable (applied : List HandshakeEvent)

/-- The machine sent the authentication messages of both roles and received no client's
finished message. -/
def ActsAsBoth : Prop :=
  .sendClientAuth ∈ applied ∧ .sendServerFinished ∈ applied ∧ .receiveClientFinished ∉ applied
  deriving Decidable

/-! ### What the state says about the events applied -/

/-- No authentication event and no confirmation yet. -/
def Unauthenticated : Prop :=
  .confirm ∉ applied ∧ .sendClientAuth ∉ applied ∧ .receiveClientAuth ∉ applied ∧
    .sendServerFinished ∉ applied ∧ .receiveServerFinished ∉ applied

/-- The client's authentication was sent or received, and nothing after it. -/
def ClientAuthenticated : Prop :=
  .confirm ∉ applied ∧ .sendServerFinished ∉ applied ∧ .receiveServerFinished ∉ applied ∧
    (.sendClientAuth ∈ applied ↔ .receiveClientAuth ∉ applied)

/-- Each of the two authentication messages was either sent or received. -/
def BothAuthenticated : Prop :=
  .confirm ∉ applied ∧ (.sendClientAuth ∈ applied ↔ .receiveClientAuth ∉ applied) ∧
    (.sendServerFinished ∈ applied ↔ .receiveServerFinished ∉ applied)

/-- The events applied agree with the state. -/
def Consistent : Prop :=
  match progress.machine.state with
  | .closed => True
  | .confirmed => ∃ before after, progress.applied = before ++ .confirm :: after ∧
      BothAuthenticated before ∧ ∀ event ∈ after, event = .installSessionKeys
  | .sessionKeys => BothAuthenticated progress.applied
  | .peerAuthenticated => ClientAuthenticated progress.applied
  | _ => Unauthenticated progress.applied

/-- A step is refused, or its transition is in the table. -/
theorem step_cases (event : HandshakeEvent) : progress.step event = progress ∨
      ∃ next, progress.machine.state.next event = some next ∧
        (progress.step event).machine.state = next ∧
        (progress.step event).applied = progress.applied ++ [event] := by
  unfold step HandshakeMachine.apply
  cases found : progress.machine.state.next event with
  | none => exact .inl rfl
  | some next => exact .inr ⟨next, rfl, rfl, rfl⟩

/-- Each transition applies the event that its new state stands for. -/
theorem consistent_step {progress : Progress} (event : HandshakeEvent)
    (consistent : progress.Consistent) : (progress.step event).Consistent := by
  obtain refused | ⟨next, moved, state, applied⟩ := step_cases progress event
  · rwa [refused]
  unfold Consistent at consistent ⊢
  rw [state, applied]
  cases was : progress.machine.state with
  | closed =>
    rw [was] at moved
    cases event <;> cases moved
    trivial
  | confirmed =>
    rw [was] at consistent moved
    obtain ⟨before, after, split, both, installs⟩ := consistent
    cases event <;> cases moved
    · refine ⟨before, after ++ [.installSessionKeys], by simp [split], both, ?_⟩
      intro event member
      rcases List.mem_append.mp member with earlier | last
      · exact installs event earlier
      · exact List.mem_singleton.mp last
    · trivial
  | sessionKeys =>
    rw [was] at consistent moved
    cases event <;> cases moved
    case confirm.refl => exact ⟨progress.applied, [], rfl, consistent, by simp⟩
    case fail.refl => trivial
    all_goals simpa [BothAuthenticated] using consistent
  | peerAuthenticated =>
    rw [was] at consistent moved
    cases event <;> cases moved
    case fail.refl => trivial
    all_goals
      obtain ⟨unconfirmed, sent, received, client⟩ := consistent
      simp [BothAuthenticated, unconfirmed, sent, received, client]
  | handshakeKeys =>
    rw [was] at consistent moved
    cases event <;> cases moved
    case fail.refl => trivial
    case installHandshakeKeys.refl => simpa [Unauthenticated] using consistent
    all_goals
      obtain ⟨unconfirmed, clientSent, clientReceived, sent, received⟩ := consistent
      simp [ClientAuthenticated, unconfirmed, clientSent, clientReceived, sent, received]
  | _ =>
    -- the exchange of hellos applies no authentication event
    rw [was] at consistent moved
    cases event <;> cases moved
    case fail.refl => trivial
    all_goals simpa [Unauthenticated] using consistent

theorem consistent_run (events : List HandshakeEvent) : (run events).Consistent :=
  Run.invariant (fun _ event consistent => consistent_step event consistent)
    (by simp [start, HandshakeMachine.new, Consistent, Unauthenticated])

variable {events before : List HandshakeEvent}

theorem confirmed_of_unlocks (unlocked : Unlocks events) : (run events).machine.state = .confirmed := by
  simp only [Unlocks, HandshakeMachine.mayInstallApplicationKeys, Bool.and_eq_true, beq_iff_eq] at unlocked
  exact unlocked.1.1

/-- Evidence of the peer is missing exactly when the two authentication messages were both the machine's own. -/
theorem BothAuthenticated.evidence_iff (both : BothAuthenticated before) :
    (∃ event ∈ before, event.isPeerEvidence = true) ↔ ¬ ActsAsBoth before := by
  obtain ⟨-, client, server⟩ := both
  constructor
  · rintro ⟨event, member, evidence⟩ ⟨clientSent, serverSent, unfinished⟩
    cases event <;> cases evidence
    · exact client.mp clientSent member
    · exact server.mp serverSent member
    · exact unfinished member
  · intro notBoth
    by_cases clientSent : HandshakeEvent.sendClientAuth ∈ before
    · by_cases serverSent : HandshakeEvent.sendServerFinished ∈ before
      · have finished : HandshakeEvent.receiveClientFinished ∈ before := by
          by_contra unfinished
          exact notBoth ⟨clientSent, serverSent, unfinished⟩
        exact ⟨_, finished, rfl⟩
      · exact ⟨.receiveServerFinished, by_contra fun missing => serverSent (server.mpr missing), rfl⟩
    · exact ⟨.receiveClientAuth, by_contra fun missing => clientSent (client.mpr missing), rfl⟩

theorem actsAsBoth_append (installs : ∀ event ∈ after, event = .installSessionKeys) :
    ActsAsBoth (before ++ .confirm :: after) ↔ ActsAsBoth before := by
  have absent {event : HandshakeEvent} (other : event ≠ .installSessionKeys) : event ∉ after :=
    fun member => other (installs event member)
  simp [ActsAsBoth, absent]

theorem split_unique (same : before ++ .confirm :: after = before' ++ .confirm :: after')
    (first : HandshakeEvent.confirm ∉ before) (installs : ∀ event ∈ after, event = .installSessionKeys) :
    before' = before := by
  induction before generalizing before' with
  | nil =>
    cases before' with
    | nil => rfl
    | cons event rest =>
      simp only [List.nil_append, List.cons_append, List.cons.injEq] at same
      have member : HandshakeEvent.confirm ∈ after := by simp [same.2]
      cases installs _ member
  | cons event rest ih =>
    cases before' with
    | nil =>
      simp only [List.nil_append, List.cons_append, List.cons.injEq] at same
      exact absurd (by simp [same.1]) first
    | cons =>
      simp only [List.cons_append, List.cons.injEq] at same
      obtain ⟨rfl, same⟩ := same
      rw [ih same (fun member => first (List.mem_cons_of_mem _ member))]

/-- With the keys unlocked, the peer was heard before the confirmation exactly when the machine
did not play both roles. -/
theorem heard_iff (unlocked : Unlocks events) :
    HeardBeforeConfirm events ↔ ¬ ActsAsBoth (run events).applied := by
  have consistent := consistent_run events
  rw [Consistent, confirmed_of_unlocks unlocked] at consistent
  obtain ⟨before, after, split, both, installs⟩ := consistent
  rw [split, actsAsBoth_append installs, ← both.evidence_iff]
  constructor
  · rintro ⟨before', after', split', heard⟩
    have same : before' = before := split_unique (split.symm.trans split') both.1 installs
    rwa [← same]
  · intro heard
    exact ⟨before, after, split, heard⟩

/-! ### Runs without a message of the peer -/

/-- The states a machine reaches by its own events alone. -/
def Alone : Prop :=
  progress.machine.state = .idle ∨ progress.machine.state = .initialSent ∨
    progress.machine.state = .closed

theorem alone_step (event : HandshakeEvent) (alone : progress.Alone)
    (own : event.isReceive = false) : (progress.step event).Alone := by
  obtain refused | ⟨next, moved, state, -⟩ := step_cases progress event
  · rwa [refused]
  unfold Alone
  rw [state]
  rcases alone with idle | sent | closed
  · rw [idle] at moved
    cases event <;> cases moved <;> simp_all [HandshakeEvent.isReceive]
  · rw [sent] at moved
    cases event <;> cases moved <;> simp_all [HandshakeEvent.isReceive]
  · rw [closed] at moved
    cases event <;> cases moved
    simp

theorem locked_of_alone (own : ∀ event ∈ events, event.isReceive = false) : ¬ Unlocks events := by
  intro unlocked
  have alone : (run events).Alone :=
    Run.invariant_of_meets alone_step (.inl rfl) (Run.meets_of_forall own start)
  have confirmed := confirmed_of_unlocks unlocked
  rcases alone with idle | sent | closed <;> simp_all

/-- After a run that unlocks the application keys, evidence of the peer was applied before the confirmation
exactly when the machine did not send both authentication messages without a client's finished message from the
peer. A run in which the peer sends nothing unlocks no keys. -/
theorem unlocks_after_evidence_iff (events : List HandshakeEvent) :
    ((Unlocks events → HeardBeforeConfirm events) ↔
      (Unlocks events → ¬ ActsAsBoth (run events).applied)) ∧
    ((∀ event ∈ events, event.isReceive = false) → ¬ Unlocks events) := by
  refine ⟨⟨?_, ?_⟩, locked_of_alone⟩
  · intro heard unlocked
    exact (heard_iff unlocked).mp (heard unlocked)
  · intro roles unlocked
    exact (heard_iff unlocked).mpr (roles unlocked)

/-- The responder sends both messages after the hellos and confirms: the keys are unlocked without evidence. -/
theorem unlocks_without_evidence :
    ∃ events, Unlocks events ∧ (run events).applied = events ∧ ¬ HeardBeforeConfirm events := by
  refine ⟨[.receiveClientHello, .sendServerHello, .sendClientAuth, .sendServerFinished, .confirm],
    by decide, by decide, ?_⟩
  intro heard
  exact (heard_iff (by decide)).mp heard (by decide)

end Progress
end UniversalMesh.Handshake
