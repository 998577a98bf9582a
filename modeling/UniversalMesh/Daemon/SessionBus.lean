import UniversalMesh.Lib.OrderedMap
import UniversalMesh.Lib.Run

/-! `session_bus.rs`: the bus finds the session of a peer through one map and the peer of a session through
another. A peer may have several sessions, but the first map names only the one that registered last. -/
namespace UniversalMesh.Daemon
open OrderedMap

structure SessionBus where
  byPeer : OrderedMap (List UInt8) Nat
  byId : OrderedMap Nat (List UInt8)

namespace SessionBus

def new : SessionBus := ⟨.empty, .empty⟩

/-- A session that moves to another peer gives its old peer up, unless that has another session by now. -/
def register (bus : SessionBus) (peer : List UInt8) (sessionId : Nat) : SessionBus :=
  let byPeer := match bus.byId.get? sessionId with
    | some prior =>
      if bus.byPeer.get? prior = some sessionId then bus.byPeer.erase prior else bus.byPeer
    | none => bus.byPeer
  ⟨byPeer.insert peer sessionId, (bus.byId.erase sessionId).insert sessionId peer⟩

def unregister (bus : SessionBus) (sessionId : Nat) : SessionBus :=
  ⟨bus.byPeer.filter fun entry => entry.2 ≠ sessionId, bus.byId.erase sessionId⟩

def lookup (bus : SessionBus) (peer : List UInt8) : Option Nat := bus.byPeer.get? peer

end SessionBus

inductive BusCall where
  | register (peer : List UInt8) (sessionId : Nat) | unregister (sessionId : Nat)

namespace BusCall

def sessionId : BusCall → Nat
  | register _ sessionId | unregister sessionId => sessionId

/-- The peer the session has after the call. -/
def peer? : BusCall → Option (List UInt8)
  | register peer _ => some peer
  | unregister _ => none

end BusCall

/-- The bus with the peers of the registered sessions, as the calls alone determine them. -/
structure BusHistory where
  bus : SessionBus
  registered : Nat → Option (List UInt8)

namespace BusHistory

def start : BusHistory := ⟨.new, fun _ => none⟩

def step (history : BusHistory) (call : BusCall) : BusHistory where
  bus := match call with
    | .register peer sessionId => history.bus.register peer sessionId
    | .unregister sessionId => history.bus.unregister sessionId
  registered := Function.update history.registered call.sessionId call.peer?

/-- `byId` is the registration and no peer is sent to a session that is not its own. -/
def Sound (history : BusHistory) : Prop :=
  (∀ sessionId, history.bus.byId.get? sessionId = history.registered sessionId) ∧
    ∀ peer sessionId, history.bus.lookup peer = some sessionId → history.registered sessionId = some peer

/-- The bus answers for a peer exactly if it has a session, and with one of its sessions. -/
def Reachable (history : BusHistory) : Prop :=
  ∀ peer, ((∃ sessionId, history.bus.lookup peer = some sessionId) ↔
      ∃ sessionId, history.registered sessionId = some peer) ∧
    ∀ sessionId, history.bus.lookup peer = some sessionId → history.registered sessionId = some peer

/-- The call does not take from a peer the session the bus answers with while the peer has another. -/
def Spares (history : BusHistory) (call : BusCall) : Prop :=
  ∀ peer, history.bus.lookup peer = some call.sessionId → call.peer? ≠ some peer →
    ∀ other, history.registered other = some peer → other = call.sessionId

variable {history : BusHistory} {call : BusCall} {peer : List UInt8} {sessionId : Nat}

theorem registered_step : (history.step call).registered sessionId =
    if sessionId = call.sessionId then call.peer? else history.registered sessionId :=
  Function.update_apply ..

/-- The answers after a call: the new session for its peer, and for the others what they were unless that
was the session of the call. -/
theorem lookup_step (sound : history.Sound) : (history.step call).bus.lookup peer = some sessionId ↔
    if call.peer? = some peer then sessionId = call.sessionId
    else history.bus.lookup peer = some sessionId ∧ sessionId ≠ call.sessionId := by
  obtain ⟨recorded, owned⟩ := sound
  cases call with
  | register added id =>
    -- only the prior peer of the session can be answered with it
    have prior := owned peer id
    simp only [step, SessionBus.register, SessionBus.lookup, BusCall.peer?, BusCall.sessionId, recorded,
      get?_insert] at prior ⊢
    grind [get?_erase]
  | unregister id =>
    simp [step, SessionBus.unregister, SessionBus.lookup, BusCall.peer?, BusCall.sessionId, get?_eq_some, mem_filter]

theorem sound_step (history : BusHistory) (call : BusCall) (sound : history.Sound) : (history.step call).Sound := by
  constructor
  · intro sessionId
    rw [registered_step, ← sound.1]
    cases call <;> simp only [step, SessionBus.register, SessionBus.unregister, BusCall.sessionId, BusCall.peer?,
      get?_insert, get?_erase] <;> grind
  · intro peer sessionId found
    rw [lookup_step sound] at found
    have owned := sound.2 peer sessionId
    grind [registered_step]

theorem reachable_iff (sound : history.Sound) : history.Reachable ↔
    ∀ peer sessionId, history.registered sessionId = some peer → ∃ found, history.bus.lookup peer = some found := by
  constructor
  · intro reachable peer sessionId holds
    exact (reachable peer).1.mpr ⟨sessionId, holds⟩
  · intro answered peer
    refine ⟨⟨?_, ?_⟩, sound.2 peer⟩
    · rintro ⟨sessionId, found⟩
      exact ⟨sessionId, sound.2 peer sessionId found⟩
    · rintro ⟨sessionId, holds⟩
      exact answered peer sessionId holds

theorem reachable_step_iff (history : BusHistory) (call : BusCall) (sound : history.Sound)
    (reachable : history.Reachable) : (history.step call).Reachable ↔ history.Spares call := by
  rw [reachable_iff sound] at reachable
  rw [reachable_iff (sound_step history call sound)]
  simp only [lookup_step sound, registered_step]
  constructor
  · intro answered peer found moved other holds
    by_contra differ
    obtain ⟨answer, stays⟩ := answered peer other (by rw [if_neg differ, holds])
    rw [if_neg moved, found] at stays
    exact stays.2 (Option.some.inj stays.1).symm
  · intro spares peer sessionId holds
    by_cases here : call.peer? = some peer
    · exact ⟨call.sessionId, by rw [if_pos here]⟩
    · have differ : sessionId ≠ call.sessionId := by
        rintro rfl
        exact here (by rwa [if_pos rfl] at holds)
      rw [if_neg differ] at holds
      obtain ⟨answer, found⟩ := reachable peer sessionId holds
      refine ⟨answer, ?_⟩
      rw [if_neg here]
      refine ⟨found, ?_⟩
      rintro rfl
      exact differ (spares peer found here sessionId holds)

/-- Every peer is found throughout a run exactly if no call takes away the session a peer is found by while
the peer has another one. -/
theorem reachable_throughout_iff (calls : List BusCall) :
    (∀ before after, calls = before ++ after → (before.foldl step start).Reachable) ↔
      Run.Meets Spares step start calls := by
  have sound : start.Sound := by simp [Sound, start, SessionBus.new, SessionBus.lookup, get?_eq_none.mpr, not_mem_empty]
  refine Run.throughout_iff sound_step reachable_step_iff sound ?_
  rw [reachable_iff sound]
  rintro peer sessionId ⟨⟩

/-- Whatever the calls, a peer is only ever sent to a session that is registered for it. -/
theorem sound_throughout (calls : List BusCall) : (calls.foldl step start).Sound := by
  refine Run.invariant sound_step ⟨fun _ => rfl, ?_⟩
  rintro peer sessionId ⟨⟩

/-- A peer whose second session has ended is not found, although its first session is still registered. -/
theorem surviving_session_not_found :
    let history := [.register [7] 1, .register [7] 2, .unregister 2].foldl step start
    history.registered 1 = some [7] ∧ history.bus.lookup [7] = none := by
  decide +kernel

end BusHistory
end UniversalMesh.Daemon
