import Mathlib.Data.Finset.Basic
import UniversalMesh.Crypto.PacketKeys
import UniversalMesh.Lib.ByteReader
import UniversalMesh.Lib.Fifo

/-! `umc-handshake/src/ticket.rs`: session tickets, sealed by the server under a key derived from
its ticket key and the ticket's clear nonce, and presented by the client to resume a session. -/
namespace UniversalMesh.Handshake
open MachineWord Wire Crypto ByteReader

def maxTicketLifetimeMs : Nat := 24 * 60 * 60 * 1000
def ticketEntropy : Nat := 16
def ticketVersion : UInt8 := 1

/-- The label of the key that seals tickets. -/
def ticketSealLabel : Bytes := ascii "ticket seal"

/-- The associated data of a sealed ticket. -/
def ticketAad : Bytes := ascii "UMP-SESSION-TICKET-v1"

inductive TicketError where
  | invalid | expired
  deriving DecidableEq, Repr

structure TicketPayload where
  version : UInt8
  ticketId : Octets 16
  (clientEndpointIdHash serverEndpointIdHash resumptionSecret : Octets 32)
  (issuedAtMs expiresAtMs : UInt64)
  protocolVersion : UInt32
  cryptoProfile : Bytes
  nonce : Octets ticketEntropy
  deriving DecidableEq

namespace TicketPayload

def encode (payload : TicketPayload) : Bytes :=
  [payload.version] ++ (payload.ticketId.1 ++ (payload.clientEndpointIdHash.1 ++
    (payload.serverEndpointIdHash.1 ++ (payload.resumptionSecret.1 ++ (wordBytes payload.issuedAtMs ++
      (wordBytes payload.expiresAtMs ++ (toBeBytes 4 payload.protocolVersion.toNat ++
        (payload.cryptoProfile ++ 0 :: payload.nonce.1))))))))

variable (fields : Bytes → Octets ticketEntropy → TicketPayload)

/-- What is left of the body: the profile up to the first zero byte, then exactly a nonce. -/
def readTail : Reader Unit UInt8 TicketPayload :=
  fun body pos =>
    let rest := body.drop pos
    match rest.findIdx? (· == 0) with
    | none => .error ()
    | some idx =>
      let nonce := rest.drop (idx + 1)
      if sized : nonce.length = ticketEntropy then .ok (fields (rest.take idx) ⟨nonce, sized⟩, body.length)
      else .error ()

def reader : Reader Unit UInt8 TicketPayload := do
  let version ← byte ()
  let ticketId ← array () 16
  let clientEndpointIdHash ← array () 32
  let serverEndpointIdHash ← array () 32
  let resumptionSecret ← array () 32
  let issuedAtMs ← word64 ()
  let expiresAtMs ← word64 ()
  let protocolVersion ← array () 4
  readTail fun cryptoProfile nonce => {
    version, ticketId, clientEndpointIdHash, serverEndpointIdHash, resumptionSecret, issuedAtMs
    expiresAtMs, protocolVersion := UInt32.ofNat (fromBeBytes protocolVersion.1), cryptoProfile, nonce }

def decode (body : Bytes) : Option TicketPayload :=
  match reader.run body with
  | .ok (payload, _) => some payload
  | .error _ => none

end TicketPayload

variable (crypto : Primitives)

/-- `ticket_seal_key`; a label of one nonce and 32 bytes always expands. -/
def ticketSealKey (ticketKey : Octets 32) (nonce : Octets ticketEntropy) : Octets 32 :=
  match expandLabel crypto ticketKey ticketSealLabel nonce.1 32 with
  | .ok key => copyInto 32 key
  | .error _ => copyInto 32 []

/-- `issue_ticket`, which unwraps the two steps that can fail. -/
def issueTicket (ticketKey : Octets 32) (payload : TicketPayload) : Except AeadError Bytes := do
  let keys ← PacketKeys.fromTrafficSecret crypto (ticketSealKey crypto ticketKey payload.nonce)
  let sealed ← keys.sealPacket crypto 0 ticketAad payload.encode
  return [ticketVersion] ++ payload.nonce.1 ++ sealed

/-- The clear nonce in front of the seal. -/
def ticketNonce (ticket : Bytes) : Option (Octets ticketEntropy) :=
  if ticket.head? ≠ some ticketVersion then none
  else
    let nonce := (ticket.drop 1).take ticketEntropy
    if sized : nonce.length = ticketEntropy then some ⟨nonce, sized⟩ else none

/-- The ticket opens under the key derived from its own nonce, is current, and lives no longer than a ticket may. -/
def validateTicket (ticketKey : Octets 32) (ticket : Bytes) (nowMs : UInt64) :
    Except TicketError TicketPayload := do
  let nonce ← (ticketNonce ticket).elim (.error .invalid) .ok
  let keys ← (PacketKeys.fromTrafficSecret crypto (ticketSealKey crypto ticketKey nonce)).mapError
    fun _ => .invalid
  let plaintext ← (keys.openPacket crypto 0 ticketAad (ticket.drop (1 + ticketEntropy))).mapError
    fun _ => .invalid
  let payload ← (TicketPayload.decode plaintext).elim (.error .invalid) .ok
  refuse (payload.version ≠ ticketVersion) .invalid
  refuse (payload.nonce ≠ nonce) .invalid
  refuse (payload.expiresAtMs ≤ nowMs) .expired
  refuse (maxTicketLifetimeMs < payload.expiresAtMs.toNat - payload.issuedAtMs.toNat) .invalid
  .ok payload

variable {crypto} {ticketKey : Octets 32} {ticket : Bytes} {nowMs : UInt64} {payload : TicketPayload}

/-- A ticket that validates carries its nonce in the clear, has not expired and was not issued for longer than a
day. -/
theorem validateTicket_ok (valid : validateTicket crypto ticketKey ticket nowMs = .ok payload) :
    ticketNonce ticket = some payload.nonce ∧ nowMs < payload.expiresAtMs ∧
      payload.expiresAtMs.toNat - payload.issuedAtMs.toNat ≤ maxTicketLifetimeMs := by
  obtain ⟨nonce, clear, valid⟩ := bind_ok.mp valid
  obtain ⟨keys, -, valid⟩ := bind_ok.mp valid
  obtain ⟨plaintext, -, valid⟩ := bind_ok.mp valid
  obtain ⟨read, -, valid⟩ := bind_ok.mp valid
  obtain ⟨-, valid⟩ := refuse_bind_ok.mp valid
  obtain ⟨same, valid⟩ := refuse_bind_ok.mp valid
  obtain ⟨live, valid⟩ := refuse_bind_ok.mp valid
  obtain ⟨short, valid⟩ := refuse_bind_ok.mp valid
  cases valid
  refine ⟨?_, by simpa using live, by simpa using short⟩
  cases found : ticketNonce ticket with
  | none => simp [found] at clear
  | some prefixed => simp_all

end UniversalMesh.Handshake

/-! The gate for resumed sessions: `bins/umcd/src/unix_main.rs`, where a hello with a session ticket takes the
short path, and the cache of consumed tickets in `bins/umcd/src/state.rs`. The cache is a bounded memory of
nonces, new at every start, while the ticket key stays the same. -/
namespace UniversalMesh.Daemon
open Wire Crypto Handshake

/-- The set of nonces and, beside it, the order in which they were consumed. -/
structure TicketReplayCache where
  seen : Finset (Octets ticketEntropy)
  order : List (Octets ticketEntropy)

namespace TicketReplayCache

def cap : Nat := 1024

def new : TicketReplayCache := ⟨∅, []⟩

/-- The oldest nonce leaves a cache that has grown beyond its bound. -/
def evict (cache : TicketReplayCache) : TicketReplayCache :=
  if cap < cache.order.length then
    match cache.order with
    | oldest :: order => ⟨cache.seen.erase oldest, order⟩
    | [] => cache
  else cache

/-- Whether the nonce is fresh, and the cache with it. -/
def insert (cache : TicketReplayCache) (nonce : Octets ticketEntropy) : Bool × TicketReplayCache :=
  if nonce ∈ cache.seen then (false, cache)
  else (true, evict ⟨Insert.insert nonce cache.seen, cache.order ++ [nonce]⟩)

/-- The cache holds what the memory remembers. -/
def Holds (cache : TicketReplayCache) (memory : Fifo (Octets ticketEntropy) cap) : Prop :=
  cache.order = memory.order ∧ ∀ nonce, nonce ∈ cache.seen ↔ nonce ∈ memory.order

theorem holds_new : new.Holds .empty := ⟨rfl, by simp [new, Fifo.empty]⟩

variable {cache : TicketReplayCache} {memory : Fifo (Octets ticketEntropy) cap}

theorem insert_fresh (holds : cache.Holds memory) (nonce : Octets ticketEntropy) :
    (cache.insert nonce).1 = (memory.arrival? (.touch nonce)).isSome := by
  by_cases known : nonce ∈ memory.order
  · simp [insert, Fifo.arrival?, (holds.2 nonce).mpr known, known]
  · simp [insert, Fifo.arrival?, holds.2 nonce, known]

theorem insert_holds (holds : cache.Holds memory) :
    (cache.insert nonce).2.Holds (memory.step (.touch nonce)) := by
  unfold insert
  by_cases known : nonce ∈ memory.order
  · rw [if_pos ((holds.2 nonce).mpr known), Fifo.step_touch_of_mem known]
    exact holds
  rw [if_neg (fun seen => known ((holds.2 nonce).mp seen))]
  unfold Holds
  rw [Fifo.order_step_touch known, holds.1]
  rcases Fifo.push_cases (by decide) known with ⟨room, pushed⟩ | ⟨oldest, rest, remembered, full, pushed, gone⟩
  · rw [pushed, evict, if_neg (by simpa using Nat.succ_le_of_lt room)]
    refine ⟨rfl, fun other => ?_⟩
    rw [Finset.mem_insert, holds.2, List.mem_append, List.mem_singleton, or_comm]
  · rw [pushed, remembered, evict, if_pos (by rw [← full]; simp)]
    refine ⟨rfl, fun other => ?_⟩
    have held : other ∈ Insert.insert nonce cache.seen ↔ other = oldest ∨ other ∈ rest ++ [nonce] := by
      rw [Finset.mem_insert, holds.2, remembered, List.mem_cons, List.mem_append, List.mem_singleton]
      exact or_left_comm.trans (or_congr_right or_comm)
    show other ∈ (Insert.insert nonce cache.seen).erase oldest ↔ other ∈ rest ++ [nonce]
    rw [Finset.mem_erase, held]
    constructor
    · rintro ⟨differ, same | stays⟩
      · exact absurd same differ
      · exact stays
    · intro stays
      refine ⟨?_, .inr stays⟩
      rintro rfl
      exact gone stays

end TicketReplayCache

/-- `MODE_IK`, the mode of a resumption. -/
def modeIk : Bytes := MachineWord.ascii "IK"

/-- What the gate reads of the daemon's state. -/
structure Resumption where
  ticketKey : Octets 32
  ticketReplayCache : TicketReplayCache

/-- A hello that reaches the gate, with the ticket in its `retry_token`; or a restart of the daemon. -/
inductive Attempt where
  | hello (supportedHandshakeModes : List Bytes) (retryToken : Bytes) (nowMs : UInt64) | restart
  deriving DecidableEq

namespace Resumption

variable (crypto : Primitives)

def start (ticketKey : Octets 32) : Resumption := ⟨ticketKey, .new⟩

/-- The ticket of a hello that offers the mode, if it validates. -/
def resumedTicket (ticketKey : Octets 32) : Attempt → Option TicketPayload
  | .hello modes retryToken nowMs =>
    if modeIk ∈ modes then (validateTicket crypto ticketKey retryToken nowMs).toOption else none
  | .restart => none

/-- The ticket that takes the short path, and the state after the gate. -/
def gate (s : Resumption) (attempt : Attempt) : Option TicketPayload × Resumption :=
  match attempt, resumedTicket crypto s.ticketKey attempt with
  | .restart, _ => (none, start s.ticketKey)
  | _, none => (none, s)
  | _, some ticket =>
    let inserted := s.ticketReplayCache.insert ticket.nonce
    (if inserted.1 then some ticket else none, { s with ticketReplayCache := inserted.2 })

def step (s : Resumption) (attempt : Attempt) : Resumption := (s.gate crypto attempt).2

def takes (s : Resumption) (attempt : Attempt) : Bool := (s.gate crypto attempt).1.isSome

/-- The attempt presents this ticket, and it validates. -/
def presents (ticketKey : Octets 32) (ticket : Bytes) (attempt : Attempt) : Bool :=
  match attempt with
  | .hello _ retryToken _ => retryToken == ticket && (resumedTicket crypto ticketKey attempt).isSome
  | .restart => false

def takesWith (ticket : Bytes) (s : Resumption) (attempt : Attempt) : Bool :=
  presents crypto s.ticketKey ticket attempt && s.takes crypto attempt

def run (s : Resumption) (attempts : List Attempt) : Resumption := attempts.foldl (step crypto) s

def taken (s : Resumption) (attempts : List Attempt) : Nat :=
  Run.count (takes crypto) (step crypto) s attempts

/-- One of the attempts takes the short path with the ticket's nonce and is followed by no restart and by fewer
short paths than the cache has places. -/
def Remembers (ticket : Bytes) (s : Resumption) (attempts : List Attempt) : Prop :=
  ∃ before consumer after, attempts = before ++ consumer :: after ∧
    (∃ payload, ((s.run crypto before).gate crypto consumer).1 = some payload ∧
      ticketNonce ticket = some payload.nonce) ∧
    .restart ∉ after ∧ ((s.run crypto before).step crypto consumer).taken crypto after < TicketReplayCache.cap

/-! ### The gate as a memory of nonces -/

/-- What an attempt does to the memory of nonces. -/
def event (ticketKey : Octets 32) (attempt : Attempt) : Fifo.Event (Octets ticketEntropy) :=
  match attempt, resumedTicket crypto ticketKey attempt with
  | .restart, _ => .forget
  | _, none => .idle
  | _, some ticket => .touch ticket.nonce

/-- The state holds the memory, under the ticket key. -/
def Holds (ticketKey : Octets 32) (s : Resumption) (memory : Fifo (Octets ticketEntropy) TicketReplayCache.cap) :
    Prop :=
  s.ticketKey = ticketKey ∧ s.ticketReplayCache.Holds memory

variable {ticketKey : Octets 32} {s : Resumption} {attempt : Attempt} {ticket : Bytes}
  {memory : Fifo (Octets ticketEntropy) TicketReplayCache.cap}

theorem gate_holds (holds : Holds ticketKey s memory) (attempt : Attempt) :
    Holds ticketKey (s.step crypto attempt) (memory.step (event crypto ticketKey attempt)) ∧
      (s.gate crypto attempt).1.isSome = (memory.arrival? (event crypto ticketKey attempt)).isSome := by
  obtain ⟨rfl, holds⟩ := holds
  cases attempt with
  | restart => exact ⟨⟨rfl, TicketReplayCache.holds_new⟩, rfl⟩
  | hello modes retryToken nowMs =>
    unfold step gate event
    cases read : resumedTicket crypto s.ticketKey (.hello modes retryToken nowMs) with
    | none => exact ⟨⟨rfl, holds⟩, rfl⟩
    | some payload =>
      refine ⟨⟨rfl, TicketReplayCache.insert_holds holds⟩, ?_⟩
      rw [← TicketReplayCache.insert_fresh holds payload.nonce]
      dsimp only
      split <;> simp_all

theorem run_holds (holds : Holds ticketKey s memory) (attempts : List Attempt) :
    s.taken crypto attempts = memory.arrivals (attempts.map (event crypto ticketKey)) ∧
      Holds ticketKey (s.run crypto attempts) (memory.run (attempts.map (event crypto ticketKey))) :=
  Run.count_simulation (Holds ticketKey) (event crypto ticketKey)
    (fun _ _ attempt related => (gate_holds crypto related attempt).1)
    (fun _ _ attempt related => (gate_holds crypto related attempt).2) holds

variable {crypto}

theorem event_eq_forget : event crypto ticketKey attempt = .forget ↔ attempt = .restart := by
  unfold event
  split <;> simp_all

variable {nonce : Octets ticketEntropy}

theorem event_eq_touch : event crypto ticketKey attempt = .touch nonce ↔
    ∃ payload, resumedTicket crypto ticketKey attempt = some payload ∧ payload.nonce = nonce := by
  unfold event
  split <;> simp_all [resumedTicket]

theorem event_of_presents (presented : presents crypto ticketKey ticket attempt = true) :
    ∃ nonce, ticketNonce ticket = some nonce ∧ event crypto ticketKey attempt = .touch nonce := by
  cases attempt with
  | restart => cases presented
  | hello modes retryToken nowMs =>
    simp only [presents, Bool.and_eq_true, beq_iff_eq] at presented
    obtain ⟨rfl, valid⟩ := presented
    obtain ⟨payload, read⟩ := Option.isSome_iff_exists.mp valid
    refine ⟨payload.nonce, ?_, event_eq_touch.mpr ⟨payload, read, rfl⟩⟩
    simp only [resumedTicket] at read
    split at read
    · cases validated : validateTicket crypto ticketKey retryToken nowMs with
      | error e => simp [validated, Except.toOption] at read
      | ok found =>
        obtain rfl : found = payload := by simpa [validated, Except.toOption] using read
        exact (validateTicket_ok validated).1
    · cases read

section
variable (holds : Holds ticketKey s memory)
include holds

/-- The short path is taken with a nonce exactly when the nonce is new to the memory. -/
theorem gate_takes_nonce :
    (∃ payload, (s.gate crypto attempt).1 = some payload ∧ payload.nonce = nonce) ↔
      event crypto ticketKey attempt = .touch nonce ∧ nonce ∉ memory.order := by
  have fresh := (gate_holds crypto holds attempt).2
  rw [event_eq_touch]
  obtain ⟨rfl, -⟩ := holds
  unfold gate event at fresh
  unfold gate
  cases attempt with
  | restart => simp [resumedTicket]
  | hello modes retryToken nowMs =>
    cases read : resumedTicket crypto s.ticketKey (.hello modes retryToken nowMs) with
    | none => simp
    | some payload =>
      simp only [read, Fifo.arrival?] at fresh
      by_cases known : payload.nonce ∈ memory.order
      · simp_all
        rintro rfl
        exact known
      · simp_all
        rintro rfl
        exact known

/-- A nonce is remembered after the attempts exactly when one of them consumed it and it was not pushed out or
forgotten since. -/
theorem mem_run_iff_remembers (clear : ticketNonce ticket = some nonce) (absent : nonce ∉ memory.order) :
    nonce ∈ (memory.run (attempts.map (event crypto ticketKey))).order ↔ Remembers crypto ticket s attempts := by
  rw [Fifo.mem_run_iff (by decide) _ absent]
  constructor
  · rintro ⟨firstEvents, lastEvents, split, fresh, kept, few⟩
    obtain ⟨before, rest, rfl, rfl, restEvents⟩ := List.map_eq_append_iff.mp split
    obtain ⟨consumer, after, rfl, touched, rfl⟩ := List.map_eq_cons_iff.mp restEvents
    have reached := (run_holds crypto holds before).2
    obtain ⟨payload, taken, same⟩ := (gate_takes_nonce reached).mpr ⟨touched, fresh⟩
    refine ⟨before, consumer, after, rfl, ⟨payload, taken, by rw [same, clear]⟩, ?_, ?_⟩
    · intro restarted
      exact kept (List.mem_map.mpr ⟨_, restarted, event_eq_forget.mpr rfl⟩)
    · rw [(run_holds crypto (gate_holds crypto reached consumer).1 after).1, touched]
      exact few
  · rintro ⟨before, consumer, after, rfl, ⟨payload, taken, same⟩, kept, few⟩
    have reached := (run_holds crypto holds before).2
    have same : payload.nonce = nonce := by
      rw [clear] at same
      exact (Option.some.inj same).symm
    obtain ⟨touched, fresh⟩ := (gate_takes_nonce reached).mp ⟨payload, taken, same⟩
    refine ⟨_, after.map (event crypto ticketKey), by simp [touched], fresh, ?_, ?_⟩
    · intro forgotten
      obtain ⟨attempt, member, restarted⟩ := List.mem_map.mp forgotten
      exact kept (event_eq_forget.mp restarted ▸ member)
    · rw [(run_holds crypto (gate_holds crypto reached consumer).1 after).1, touched] at few
      exact few

theorem takesWith_iff (clear : ticketNonce ticket = some nonce) :
    takesWith crypto ticket s attempt = true ↔
      presents crypto ticketKey ticket attempt = true ∧ nonce ∉ memory.order := by
  unfold takesWith takes
  rw [Bool.and_eq_true, (gate_holds crypto holds attempt).2, holds.1]
  apply and_congr_right
  intro presented
  obtain ⟨nonce', clear', touched⟩ := event_of_presents presented
  obtain rfl : nonce' = nonce := Option.some.inj (clear'.symm.trans clear)
  rw [touched, Fifo.arrival?]
  by_cases known : nonce' ∈ memory.order <;> simp [known]

end

variable (crypto)

/-- For any ticket, attempts and restarts, the short path is taken at most once with the ticket exactly when, at
every later valid presentation, its nonce was consumed since the last restart and fewer short paths have been
taken since than the cache has places. -/
theorem taken_once_iff (ticketKey : Octets 32) (ticket : Bytes) (attempts : List Attempt) :
    Run.count (takesWith crypto ticket) (step crypto) (start ticketKey) attempts ≤ 1 ↔
      ∀ before first between second after, attempts = before ++ first :: (between ++ second :: after) →
        takesWith crypto ticket ((start ticketKey).run crypto before) first = true →
        presents crypto ticketKey ticket second = true →
        Remembers crypto ticket ((start ticketKey).run crypto before) (first :: between) := by
  have new : Holds ticketKey (start ticketKey) .empty := ⟨rfl, TicketReplayCache.holds_new⟩
  rw [Run.count_le_one_iff]
  apply forall_congr'
  intro before
  have reached := (run_holds crypto new before).2
  apply forall₅_congr
  intro first between second after split
  apply forall_congr'
  intro consumed
  obtain ⟨nonce, clear, -⟩ := event_of_presents (Bool.and_eq_true_iff.mp consumed).1
  have absent := ((takesWith_iff reached clear).mp consumed).2
  have later := (run_holds crypto reached (first :: between)).2
  rw [← mem_run_iff_remembers reached clear absent, List.foldl_append, ← Bool.not_eq_true]
  constructor
  · intro refused presented
    by_contra forgotten
    exact refused ((takesWith_iff later clear).mpr ⟨presented, forgotten⟩)
  · intro remembered again
    obtain ⟨presented, forgotten⟩ := (takesWith_iff later clear).mp again
    exact forgotten (remembered presented)

/-- A ticket for an hour, issued under the sample key. -/
def samplePayload : TicketPayload :=
  { version := ticketVersion, ticketId := copyInto 16 [], clientEndpointIdHash := copyInto 32 [2]
    serverEndpointIdHash := copyInto 32 [3], resumptionSecret := copyInto 32 [4], issuedAtMs := 1000
    expiresAtMs := 3601000, protocolVersion := 1, cryptoProfile := [0x55], nonce := copyInto 16 [5] }

def sampleTicketKey : Octets 32 := copyInto 32 [1]

def sampleTicket : Bytes := (issueTicket transparent sampleTicketKey samplePayload).toOption.getD []

/-- The daemon restarts between two presentations of the ticket. -/
def sampleAttempts : List Attempt :=
  [.hello [modeIk] sampleTicket 2000, .restart, .hello [modeIk] sampleTicket 3000]

/-- The same ticket takes the short path before and after a restart. -/
theorem taken_twice :
    issueTicket transparent sampleTicketKey samplePayload = .ok sampleTicket ∧
      Run.count (takesWith transparent sampleTicket) (step transparent) (start sampleTicketKey)
        sampleAttempts = 2 := by
  decide +kernel

end Resumption
end UniversalMesh.Daemon
