import UniversalMesh.Crypto.PacketKeys
import UniversalMesh.Lib.Fifo

/-! `bins/umcd/src/control_transport.rs`: the cache that answers a repeated control request with the stored
response. Its entries and the order of their keys are kept apart, and an entry that is dispatched again after it
expired is refreshed where it stands in the order. -/
namespace UniversalMesh.Daemon
open MachineWord Wire Crypto

/-- The principal or the connection, the service, the method and the client's key. -/
abbrev IdempotencyKey := Bytes × String × String × Bytes

structure IdempotencyEntry where
  response : Bytes
  payloadDigest : Octets 32
  insertedAtMs : UInt64
  deriving DecidableEq

inductive IdempotencyLookup where
  | miss | replay (response : Bytes) | conflict
  deriving DecidableEq

def idempotencyTtlMs : Nat := 24 * 60 * 60 * 1000
def idempotencyCacheCap : Nat := 1024

/-- The time from which on the entry answers no more. -/
def IdempotencyEntry.expiresAtMs (entry : IdempotencyEntry) : Nat :=
  saturatingAdd entry.insertedAtMs.toNat idempotencyTtlMs

structure IdempotencyCache where
  entries : IdempotencyKey → Option IdempotencyEntry
  order : List IdempotencyKey

/-- A request that carries an idempotency key. `checked` is the answer of the checks before the cache, if one of
them answers; `response` is what a dispatch returns. -/
structure ControlRequest where
  principalId : UInt64
  connectionId : Bytes
  (service method : String)
  (idempotencyKey payload : Bytes)
  nowMs : UInt64
  checked : Option Bytes
  response : Bytes

inductive ControlAnswer where
  | checked (response : Bytes) | replayed (response : Bytes) | conflict
  | dispatched (response : Bytes)
  deriving DecidableEq

/-- The cache key: clients without a principal are told apart by their connection. -/
def ControlRequest.key (request : ControlRequest) : IdempotencyKey :=
  let scope := if request.principalId = 0 then request.connectionId else toBeBytes 8 request.principalId.toNat
  (scope, request.service, request.method, request.idempotencyKey)

namespace IdempotencyCache

def new : IdempotencyCache := ⟨fun _ => none, []⟩

def put (entries : IdempotencyKey → Option IdempotencyEntry) (key : IdempotencyKey)
    (entry : Option IdempotencyEntry) : IdempotencyKey → Option IdempotencyEntry :=
  fun other => if other = key then entry else entries other

/-- The oldest entries leave while there are too many. -/
def evict (entries : IdempotencyKey → Option IdempotencyEntry) : List IdempotencyKey → IdempotencyCache
  | [] => ⟨entries, []⟩
  | oldest :: order =>
    if idempotencyCacheCap < (oldest :: order).length then evict (put entries oldest none) order
    else ⟨entries, oldest :: order⟩

variable (crypto : Primitives)

section
variable (cache : IdempotencyCache)

/-- A known key keeps its place in the order of eviction. -/
def insert (key : IdempotencyKey) (response payload : Bytes) (nowMs : UInt64) :
    IdempotencyCache :=
  let entry : IdempotencyEntry :=
    { response, payloadDigest := crypto.blake2s payload, insertedAtMs := nowMs }
  match cache.entries key with
  | some _ => { cache with entries := put cache.entries key (some entry) }
  | none => evict (put cache.entries key (some entry)) (cache.order ++ [key])

/-- The same key with another payload is a conflict. -/
def get (key : IdempotencyKey) (payload : Bytes) (nowMs : UInt64) :
    IdempotencyLookup :=
  match cache.entries key with
  | none => .miss
  | some entry =>
    if entry.expiresAtMs ≤ nowMs.toNat then .miss
    else if crypto.blake2s payload = entry.payloadDigest then .replay entry.response
    else .conflict

variable (request : ControlRequest)

/-- The path of a request with an idempotency key through `handle_envelope_inner`. -/
def handle : ControlAnswer × IdempotencyCache :=
  match request.checked with
  | some response => (.checked response, cache)
  | none =>
    if request.idempotencyKey.isEmpty then (.dispatched request.response, cache)
    else match cache.get crypto request.key request.payload request.nowMs with
      | .replay response => (.replayed response, cache)
      | .conflict => (.conflict, cache)
      | .miss => (.dispatched request.response,
          cache.insert crypto request.key request.response request.payload request.nowMs)

def step : IdempotencyCache :=
  (cache.handle crypto request).2

def run (requests : List ControlRequest) : IdempotencyCache :=
  requests.foldl (step crypto) cache

theorem run_cons (rest : List ControlRequest) :
    cache.run crypto (request :: rest) = (cache.step crypto request).run crypto rest := rfl

/-- The request is dispatched under its key. -/
def dispatches : Bool :=
  !request.idempotencyKey.isEmpty && (cache.handle crypto request).1 == .dispatched request.response

/-- The dispatched request's key was not in the cache and enters it. -/
def enters : Bool :=
  cache.dispatches crypto request && (cache.entries request.key).isNone

/-- How many keys stand behind the key in the order of entrance. -/
def behind (key : IdempotencyKey) : Nat :=
  cache.order.length - 1 - cache.order.findIdx fun other => decide (other = key)

/-! ### The order of the keys as a bounded memory -/

/-- The cache holds an entry for exactly the keys the memory remembers, in its order. -/
def Holds (memory : Fifo IdempotencyKey idempotencyCacheCap) : Prop :=
  cache.order = memory.order ∧ ∀ key, (cache.entries key).isSome = true ↔ key ∈ memory.order

end

/-- What a request that reaches the cache does to the memory. -/
def event (request : ControlRequest) : Fifo.Event IdempotencyKey :=
  if request.checked.isNone && !request.idempotencyKey.isEmpty then .touch request.key else .idle

theorem event_ne_forget (request : ControlRequest) : event request ≠ .forget := by
  unfold event
  split <;> simp

theorem forget_not_mem (requests : List ControlRequest) : .forget ∉ requests.map event := by
  intro member
  obtain ⟨request, -, forgotten⟩ := List.mem_map.mp member
  exact event_ne_forget request forgotten

theorem holds_new : new.Holds .empty := ⟨rfl, by simp [new, Fifo.empty]⟩

theorem put_self (entries : IdempotencyKey → Option IdempotencyEntry) :
    put entries key entry key = entry := if_pos rfl

variable {entries : IdempotencyKey → Option IdempotencyEntry}

theorem put_of_ne (differ : other ≠ key) : put entries key entry other = entries other := if_neg differ

theorem evict_of_le {order : List IdempotencyKey} (room : order.length ≤ idempotencyCacheCap) :
    evict entries order = ⟨entries, order⟩ := by
  cases order with
  | nil => rfl
  | cons oldest rest => rw [evict, if_neg (Nat.not_lt.mpr room)]

theorem evict_of_full {rest : List IdempotencyKey} (full : rest.length = idempotencyCacheCap) :
    evict entries (oldest :: rest) = ⟨put entries oldest none, rest⟩ := by
  rw [evict, if_pos (by rw [List.length_cons, full]; exact Nat.lt_succ_self _), evict_of_le full.le]

variable {crypto} {cache : IdempotencyCache} {memory : Fifo IdempotencyKey idempotencyCacheCap}
  {key other : IdempotencyKey} {response payload : Bytes} {nowMs : UInt64}

theorem entries_eq_none (holds : cache.Holds memory) (absent : key ∉ memory.order) :
    cache.entries key = none := by
  rw [← Option.not_isSome_iff_eq_none]
  exact fun some => absent ((holds.2 key).mp some)

/-- A fresh key enters at the back, and the other keys that stay keep their entries. -/
theorem insert_fresh (crypto : Primitives) (holds : cache.Holds memory) (fresh : key ∉ memory.order) :
    let cache' := cache.insert crypto key response payload nowMs
    let order := Fifo.push idempotencyCacheCap memory.order key
    cache'.order = order ∧ cache'.entries key = some ⟨response, crypto.blake2s payload, nowMs⟩ ∧
      ∀ other, other ≠ key → (other ∈ order → cache'.entries other = cache.entries other) ∧
        (other ∉ order → cache'.entries other = none) := by
  unfold insert
  dsimp only
  rw [entries_eq_none holds fresh, holds.1]
  rcases Fifo.push_cases (by decide) fresh with ⟨room, pushed⟩ | ⟨oldest, rest, remembered, full, pushed, gone⟩
  · rw [pushed, evict_of_le (by simpa using Nat.succ_le_of_lt room)]
    dsimp only
    refine ⟨rfl, put_self .., ?_⟩
    intro other differ
    rw [put_of_ne differ]
    refine ⟨fun _ => rfl, ?_⟩
    intro absent
    exact entries_eq_none holds fun known => absent (List.mem_append_left _ known)
  · rw [pushed, remembered, List.cons_append, evict_of_full (by simpa using full)]
    dsimp only
    have differs : key ≠ oldest := by
      rintro rfl
      exact gone (List.mem_append_right _ List.mem_cons_self)
    refine ⟨rfl, by rw [put_of_ne differs, put_self], ?_⟩
    intro other differ
    by_cases first : other = oldest
    · rw [first, put_self]
      exact ⟨fun stays => absurd stays gone, fun _ => rfl⟩
    · rw [put_of_ne first, put_of_ne differ]
      refine ⟨fun _ => rfl, ?_⟩
      intro absent
      apply entries_eq_none holds
      rw [remembered, List.mem_cons]
      rintro (same | later)
      · exact first same
      · exact absent (List.mem_append_left _ later)

theorem insert_known (holds : cache.Holds memory) (known : key ∈ memory.order) :
    cache.insert crypto key response payload nowMs =
      { cache with entries := put cache.entries key (some ⟨response, crypto.blake2s payload, nowMs⟩) } := by
  obtain ⟨old, found⟩ := Option.isSome_iff_exists.mp ((holds.2 key).mpr known)
  simp only [insert, found]

/-- An insertion is a touch of the key, and no other key that stays changes its entry. -/
theorem insert_spec (holds : cache.Holds memory) (key : IdempotencyKey) (response payload : Bytes)
    (nowMs : UInt64) :
    let cache' := cache.insert crypto key response payload nowMs
    let memory' := memory.step (.touch key)
    cache'.Holds memory' ∧ cache'.entries key = some ⟨response, crypto.blake2s payload, nowMs⟩ ∧
      ∀ other ∈ memory'.order, other ≠ key → cache'.entries other = cache.entries other := by
  dsimp only
  by_cases known : key ∈ memory.order
  · rw [Fifo.step_touch_of_mem known]
    rw [insert_known holds known]
    refine ⟨⟨holds.1, ?_⟩, put_self .., fun other _ differ => put_of_ne differ⟩
    intro other
    dsimp only
    by_cases same : other = key
    · subst same
      simp [put_self, known]
    · rw [put_of_ne same]
      exact holds.2 other
  · obtain ⟨order, entry, others⟩ := insert_fresh crypto holds known
    rw [Holds, Fifo.order_step_touch known]
    refine ⟨⟨order, ?_⟩, entry, fun other member differ => (others other differ).1 member⟩
    intro other
    by_cases same : other = key
    · subst same
      have entered : other ∈ Fifo.push idempotencyCacheCap memory.order other := by
        rw [← Fifo.order_step_touch known]
        exact (Fifo.behind_touch (by decide) known).1
      simp [entry, entered]
    · by_cases member : other ∈ Fifo.push idempotencyCacheCap memory.order key
      · rw [(others other same).1 member]
        refine iff_of_true ((holds.2 other).mpr ?_) member
        rcases List.mem_append.mp (List.mem_of_mem_drop member) with earlier | last
        · exact earlier
        · exact absurd (List.mem_singleton.mp last) same
      · rw [(others other same).2 member]
        exact iff_of_false (by simp) member

variable {request : ControlRequest}

def Asks (request : ControlRequest) : Prop := request.checked = none ∧ request.idempotencyKey ≠ []

theorem event_of_asks (asks : Asks request) : event request = .touch request.key := by
  simp [event, asks.1, asks.2]

theorem handle_of_asks (asks : Asks request) : cache.handle crypto request =
    match cache.get crypto request.key request.payload request.nowMs with
    | .replay response => (.replayed response, cache)
    | .conflict => (.conflict, cache)
    | .miss => (.dispatched request.response,
        cache.insert crypto request.key request.response request.payload request.nowMs) := by
  simp [handle, asks.1, asks.2]

theorem step_of_not_asks (silent : ¬ Asks request) :
    cache.step crypto request = cache ∧ event request = .idle ∧ cache.dispatches crypto request = false := by
  unfold Asks at silent
  unfold step handle event dispatches
  cases checked : request.checked with
  | some response => simp [handle, checked]
  | none =>
    have empty : request.idempotencyKey = [] := by simpa [checked] using silent
    simp [empty]

theorem dispatches_iff : cache.dispatches crypto request = true ↔
    Asks request ∧ cache.get crypto request.key request.payload request.nowMs = .miss := by
  by_cases asks : Asks request
  · unfold dispatches
    rw [handle_of_asks asks]
    cases cache.get crypto request.key request.payload request.nowMs <;> simp [asks, asks.2]
  · simp [(step_of_not_asks asks).2.2, asks]

theorem get_eq_miss_iff : cache.get crypto key payload nowMs = .miss ↔
    ∀ entry, cache.entries key = some entry →
      entry.expiresAtMs ≤ nowMs.toNat := by
  unfold get
  cases cache.entries key with
  | none => simp
  | some entry =>
    by_cases expired : entry.expiresAtMs ≤ nowMs.toNat
    · simp [expired]
    · by_cases same : crypto.blake2s payload = entry.payloadDigest <;> simp [expired, same]

/-- The memory follows the cache, and its arrivals are the keys that enter. -/
theorem step_holds (crypto : Primitives) (holds : cache.Holds memory) (request : ControlRequest) :
    (cache.step crypto request).Holds (memory.step (event request)) ∧
      cache.enters crypto request = (memory.arrival? (event request)).isSome := by
  by_cases asks : Asks request
  · rw [event_of_asks asks]
    by_cases missed : cache.get crypto request.key request.payload request.nowMs = .miss
    · have dispatched : cache.dispatches crypto request = true := dispatches_iff.mpr ⟨asks, missed⟩
      constructor
      · rw [step, handle_of_asks asks, missed]
        exact (insert_spec holds ..).1
      · by_cases known : request.key ∈ memory.order
        · obtain ⟨entry, found⟩ := Option.isSome_iff_exists.mp ((holds.2 request.key).mpr known)
          simp [enters, dispatched, Fifo.arrival?, known, found]
        · simp [enters, dispatched, Fifo.arrival?, known, entries_eq_none holds known]
    · -- a request the cache answers has its key in the memory already
      have known : request.key ∈ memory.order := by
        by_contra absent
        exact missed (get_eq_miss_iff.mpr fun entry found => by simp [entries_eq_none holds absent] at found)
      have answered : cache.dispatches crypto request = false := by
        rw [← Bool.not_eq_true, dispatches_iff]
        exact fun dispatched => missed dispatched.2
      rw [Fifo.step_touch_of_mem known]
      refine ⟨?_, by simp [enters, answered, Fifo.arrival?, known]⟩
      rw [step, handle_of_asks asks]
      cases found : cache.get crypto request.key request.payload request.nowMs with
      | miss => exact absurd found missed
      | replay response => exact holds
      | conflict => exact holds
  · obtain ⟨same, idle, silent⟩ := step_of_not_asks asks
    rw [same, idle]
    exact ⟨holds, by simp [enters, silent, Fifo.arrival?]⟩

theorem run_holds (crypto : Primitives) (holds : cache.Holds memory) (requests : List ControlRequest) :
    Run.count (enters crypto) (step crypto) cache requests = memory.arrivals (requests.map event) ∧
      (cache.run crypto requests).Holds (memory.run (requests.map event)) :=
  Run.count_simulation Holds event (fun _ _ request related => (step_holds crypto related request).1)
    (fun _ _ request related => (step_holds crypto related request).2) holds

end IdempotencyCache

/-! Repetitions of a control request: an entry stays while its key has room behind it in the order, which is
that of the first entrance, so an entry that was refreshed has less room than its age says. -/

namespace IdempotencyCache
variable {crypto : Primitives} {cache : IdempotencyCache} {memory : Fifo IdempotencyKey idempotencyCacheCap}
  {key : IdempotencyKey} {response : Bytes} {request : ControlRequest}

def dispatchesKey (crypto : Primitives) (key : IdempotencyKey) (cache : IdempotencyCache)
    (request : ControlRequest) : Bool :=
  cache.dispatches crypto request && request.key == key

variable {entry : IdempotencyEntry} {requests : List ControlRequest}

theorem dispatchesKey_of_live (found : cache.entries key = some entry)
    (live : request.nowMs.toNat < entry.expiresAtMs) : dispatchesKey crypto key cache request = false := by
  rw [← Bool.not_eq_true, dispatchesKey, Bool.and_eq_true, beq_iff_eq, dispatches_iff, get_eq_miss_iff]
  rintro ⟨⟨-, missed⟩, rfl⟩
  exact absurd (missed entry found) (Nat.not_le.mpr live)

theorem dispatchesKey_of_arrival (crypto : Primitives) (holds : cache.Holds memory)
    (arrives : memory.arrival? (event request) = some key) : dispatchesKey crypto key cache request = true := by
  have entered : cache.enters crypto request = true := by
    rw [(step_holds crypto holds request).2, arrives]
    rfl
  have dispatched : cache.dispatches crypto request = true := (Bool.and_eq_true_iff.mp entered).1
  have same : request.key = key := by
    have touched := (Fifo.arrival?_eq_some.mp arrives).1
    rw [event_of_asks (dispatches_iff.mp dispatched).1] at touched
    exact Fifo.Event.touch.inj touched
  simp [dispatchesKey, dispatched, same]

def dispatchesOther (crypto : Primitives) (key : IdempotencyKey) (cache : IdempotencyCache)
    (request : ControlRequest) : Bool :=
  cache.dispatches crypto request && request.key != key

section
variable (holds : cache.Holds memory)
include holds

theorem entries_step (found : cache.entries key = some entry)
    (stays : key ∈ (memory.step (event request)).order)
    (quiet : dispatchesKey crypto key cache request = false) :
    (cache.step crypto request).entries key = some entry := by
  by_cases asks : Asks request
  · rw [event_of_asks asks] at stays
    rw [step, handle_of_asks asks]
    cases missed : cache.get crypto request.key request.payload request.nowMs with
    | miss =>
      have differ : key ≠ request.key := by
        rintro rfl
        simp [dispatchesKey, dispatches_iff.mpr ⟨asks, missed⟩] at quiet
      rw [← found]
      exact (insert_spec holds ..).2.2 key stays differ
    | replay response => exact found
    | conflict => exact found
  · rw [(step_of_not_asks asks).1]
    exact found

theorem entries_run (found : cache.entries key = some entry)
    (room : memory.behind key + memory.arrivals (requests.map event) < idempotencyCacheCap)
    (live : ∀ request ∈ requests, request.nowMs.toNat < entry.expiresAtMs) :
    (cache.run crypto requests).entries key = some entry ∧
      Run.count (dispatchesKey crypto key) (step crypto) cache requests = 0 := by
  induction requests generalizing cache memory with
  | nil => exact ⟨found, rfl⟩
  | cons request rest ih =>
    have known : key ∈ memory.order := (holds.2 key).mp (by rw [found]; rfl)
    rw [List.map_cons, Fifo.arrivals_cons] at room
    have here := Fifo.mem_step_iff known (event_ne_forget request)
    have stays := here.1.mpr (by omega)
    have quiet : dispatchesKey crypto key cache request = false :=
      dispatchesKey_of_live found (live request List.mem_cons_self)
    obtain ⟨later, none⟩ := ih (step_holds crypto holds request).1 (entries_step holds found stays quiet)
      (by rw [here.2 stays]; omega) (fun other member => live other (List.mem_cons_of_mem _ member))
    refine ⟨later, ?_⟩
    rw [Run.count, quiet, none]
    rfl

theorem no_arrival (none : Run.count (dispatchesKey crypto key) (step crypto) cache requests = 0) :
    Run.Meets (fun memory event => memory.arrival? event ≠ some key) Fifo.step memory (requests.map event) := by
  induction requests generalizing cache memory with
  | nil => trivial
  | cons request rest ih =>
    rw [Run.count, Nat.add_eq_zero_iff] at none
    refine ⟨?_, ih (step_holds crypto holds request).1 none.2⟩
    intro arrives
    simp [dispatchesKey_of_arrival crypto holds arrives] at none

/-- While other keys are dispatched less often than there is room behind a key, no more keys arrive
than are dispatched. -/
theorem arrivals_le (known : key ∈ memory.order)
    (few : memory.behind key + Run.count (dispatchesOther crypto key) (step crypto) cache requests <
      idempotencyCacheCap) :
    memory.arrivals (requests.map event) ≤ Run.count (dispatchesOther crypto key) (step crypto) cache requests := by
  induction requests generalizing cache memory with
  | nil => exact Nat.le_refl _
  | cons request rest ih =>
    rw [Run.count] at few ⊢
    rw [List.map_cons, Fifo.arrivals_cons]
    have here := Fifo.mem_step_iff known (event_ne_forget request)
    have step_le : memory.arrivals [event request] ≤
        if dispatchesOther crypto key cache request then 1 else 0 := by
      rw [Fifo.arrivals_singleton]
      cases arrives : memory.arrival? (event request) with
      | none => simp
      | some arrived =>
        have dispatched := dispatchesKey_of_arrival crypto holds arrives
        rw [dispatchesKey, Bool.and_eq_true, beq_iff_eq] at dispatched
        have differ : arrived ≠ key := by
          rintro rfl
          exact (Fifo.arrival?_eq_some.mp arrives).2 known
        simp [dispatchesOther, dispatched, differ]
    have stays := here.1.mpr (by omega)
    have later := ih (step_holds crypto holds request).1 stays (by rw [here.2 stays]; omega)
    omega

theorem entries_dispatched (dispatched : cache.dispatches crypto request = true) :
    (cache.step crypto request).entries request.key =
      some ⟨request.response, crypto.blake2s request.payload, request.nowMs⟩ := by
  obtain ⟨asks, missed⟩ := dispatches_iff.mp dispatched
  rw [step, handle_of_asks asks, missed]
  exact (insert_spec holds ..).2.1

theorem behind_dispatched (dispatched : cache.dispatches crypto request = true)
    (fresh : cache.entries request.key = none) : (memory.step (event request)).behind request.key = 0 := by
  have absent : request.key ∉ memory.order := by
    intro member
    have present := (holds.2 request.key).mpr member
    rw [fresh] at present
    cases present
  rw [event_of_asks (dispatches_iff.mp dispatched).1]
  exact (Fifo.behind_touch (by decide) absent).2

end

/-- A request is answered with a stored response exactly when its entry is live and of the same
payload. -/
theorem replayed_iff (asks : Asks request) : (cache.handle crypto request).1 = .replayed response ↔
    ∃ entry, cache.entries request.key = some entry ∧ entry.response = response ∧
      request.nowMs.toNat < entry.expiresAtMs ∧
      crypto.blake2s request.payload = entry.payloadDigest := by
  have looked : (cache.handle crypto request).1 = .replayed response ↔
      cache.get crypto request.key request.payload request.nowMs = .replay response := by
    rw [handle_of_asks asks]
    cases cache.get crypto request.key request.payload request.nowMs <;> simp
  rw [looked, get]
  cases cache.entries request.key with
  | none => simp
  | some entry =>
    simp only [Option.some.injEq, exists_eq_left']
    split
    · rename_i expired
      exact iff_of_false nofun fun live => absurd expired (Nat.not_le.mpr live.2.1)
    · rename_i live
      split
      · rename_i same
        rw [IdempotencyLookup.replay.injEq]
        exact ⟨fun stored => ⟨stored, Nat.not_le.mp live, same⟩, fun found => found.1⟩
      · rename_i differ
        exact iff_of_false nofun fun found => differ found.2.2

/-- From a dispatch of a key on, a request of the same key and payload within the day is answered with the
stored response, and the key is not dispatched in between, exactly when fewer keys than the cache has places
entered it since the key did. When the dispatch was no refresh, fewer dispatches of other keys than there are
places are enough. -/
theorem executes_once_iff (crypto : Primitives) (before between : List ControlRequest)
    (first second : ControlRequest)
    (ordered : (before ++ first :: (between ++ [second])).Pairwise fun a b => a.nowMs ≤ b.nowMs)
    (dispatched : (new.run crypto before).dispatches crypto first = true)
    (sameKey : second.key = first.key) (samePayload : second.payload = first.payload)
    (asks : Asks second) (recent : second.nowMs.toNat < first.nowMs.toNat + idempotencyTtlMs)
    (few : Run.count (dispatchesOther crypto first.key) (step crypto)
      ((new.run crypto before).step crypto first) between < idempotencyCacheCap) :
    let cache := (new.run crypto before).step crypto first
    let entered := Run.count (enters crypto) (step crypto) cache between
    (((cache.run crypto between).handle crypto second).1 = .replayed first.response ∧
        Run.count (dispatchesKey crypto first.key) (step crypto) cache between = 0 ↔
      cache.behind first.key + entered < idempotencyCacheCap ∧ second.nowMs.toNat < u64Max) ∧
    ((new.run crypto before).entries first.key = none →
      cache.behind first.key + entered < idempotencyCacheCap) := by
  have reached := (run_holds crypto holds_new before).2
  have holds := (step_holds crypto reached first).1
  have stored := entries_dispatched reached dispatched
  have entering := behind_dispatched reached dispatched
  generalize (Fifo.empty.run (before.map event)).step (event first) = memory at holds entering
  intro cache entered
  have known : first.key ∈ memory.order := (holds.2 first.key).mp (by rw [stored]; rfl)
  have behind : cache.behind first.key = memory.behind first.key := by
    unfold IdempotencyCache.behind Fifo.behind
    rw [holds.1]
    rfl
  have arrivals : entered = memory.arrivals (between.map event) := (run_holds crypto holds between).1
  have later := (run_holds crypto holds between).2
  rw [behind, arrivals]
  refine ⟨⟨?_, ?_⟩, ?_⟩
  · rintro ⟨replayed, once⟩
    obtain ⟨entry, found, -, live, -⟩ := (replayed_iff asks).mp replayed
    rw [sameKey] at found
    have remembered := (later.2 first.key).mp (by rw [found]; rfl)
    refine ⟨?_, lt_of_lt_of_le live (Nat.min_le_right ..)⟩
    exact (Fifo.mem_run_iff_of_mem _ known (forget_not_mem between) (no_arrival holds once)).mp remembered
  · rintro ⟨room, bounded⟩
    -- the day has not passed for the requests in between either
    let entry : IdempotencyEntry := ⟨first.response, crypto.blake2s first.payload, first.nowMs⟩
    have live : second.nowMs.toNat < entry.expiresAtMs := lt_min recent bounded
    have earlier : ∀ request ∈ between, request.nowMs ≤ second.nowMs := by
      intro request member
      have tail := (List.pairwise_cons.mp (List.pairwise_append.mp ordered).2.1).2
      exact (List.pairwise_append.mp tail).2.2 request member second List.mem_cons_self
    obtain ⟨kept, once⟩ := entries_run holds stored room fun request member =>
      Nat.lt_of_le_of_lt (earlier request member) live
    refine ⟨(replayed_iff asks).mpr ⟨entry, sameKey ▸ kept, rfl, live, ?_⟩, once⟩
    rw [samePayload]
  · intro fresh
    rw [entering fresh, Nat.zero_add]
    have bounded := arrivals_le holds known (by rw [entering fresh, Nat.zero_add]; exact few)
    exact Nat.lt_of_le_of_lt bounded few

/-- A request of one client, with the number as its idempotency key. -/
def sampleRequest (number : Nat) (nowMs : UInt64) : ControlRequest :=
  { principalId := 0, connectionId := [1], service := "SessionService", method := "CloseSession"
    idempotencyKey := toBeBytes 8 number, payload := [], nowMs, checked := none, response := [7] }

theorem sampleRequest_asks : Asks (sampleRequest number nowMs) := by
  refine ⟨rfl, ?_⟩
  have length := toBeBytes_length 8 number
  intro empty
  simp [sampleRequest] at empty
  rw [empty] at length
  cases length

/-- A request that is sent again, with others before it and in between, is answered from the cache. -/
theorem executes_once_sample :
    let cache := (new.run transparent [sampleRequest 5 0]).step transparent (sampleRequest 0 1)
    let cache := cache.run transparent [sampleRequest 1 1, sampleRequest 2 2, sampleRequest 5 2]
    (cache.handle transparent (sampleRequest 0 3)).1 = .replayed [7] := by
  have once := executes_once_iff transparent [sampleRequest 5 0]
    [sampleRequest 1 1, sampleRequest 2 2, sampleRequest 5 2] (sampleRequest 0 1) (sampleRequest 0 3)
    (by decide +kernel) (by decide +kernel) rfl rfl sampleRequest_asks (by decide +kernel) (by decide +kernel)
  exact (once.1.mpr ⟨once.2 (by decide +kernel), by decide +kernel⟩).1

/-- Enough other keys to fill the cache behind a first one. -/
@[irreducible] def sampleOthers : List ControlRequest := (List.range' 1 1023).map (sampleRequest · 0)

def samplePast : List ControlRequest := sampleRequest 0 0 :: sampleOthers

theorem sampleOthers_now (member : request ∈ sampleOthers) : request.nowMs = 0 := by
  unfold sampleOthers at member
  obtain ⟨number, -, rfl⟩ := List.mem_map.mp member
  rfl

theorem sampleRequest_key_injective (small : left ≤ 1024) (small' : right ≤ 1024)
    (same : (sampleRequest left nowMs).key = (sampleRequest right nowMs').key) : left = right := by
  have bytes : toBeBytes 8 left = toBeBytes 8 right := congrArg (fun key => key.2.2.2) same
  have words := congrArg fromBeBytes bytes
  rw [fromBeBytes_toBeBytes, fromBeBytes_toBeBytes, Nat.mod_eq_of_lt (by omega),
    Nat.mod_eq_of_lt (by omega)] at words
  exact words

theorem event_sampleRequest : event (sampleRequest number nowMs) = .touch (sampleRequest number 0).key :=
  event_of_asks sampleRequest_asks

theorem sampleOthers_arrivals (alone : memory.order = [(sampleRequest 0 0).key]) :
    memory.arrivals (sampleOthers.map event) = 1023 ∧
      (memory.run (sampleOthers.map event)).arrivals [event (sampleRequest 1024 0)] = 1 := by
  have keys : ∀ count, memory.arrivals (((List.range' 1 count).map (sampleRequest · 0)).map event) =
      memory.arrivals ((((List.range' 1 count).map fun number => (sampleRequest number 0).key)).map .touch) := by
    intro count
    rw [List.map_map, List.map_map]
    exact congrArg memory.arrivals (List.map_congr_left fun number _ => event_sampleRequest)
  have all : ∀ count ≤ 1024,
      memory.arrivals (((List.range' 1 count).map (sampleRequest · 0)).map event) = count := by
    intro count bound
    rw [keys, Fifo.arrivals_of_nodup, List.length_map, List.length_range']
    · apply List.Nodup.map_on _ List.nodup_range'
      intro left member right member' same
      rw [List.mem_range'_1] at member member'
      exact sampleRequest_key_injective (by omega) (by omega) same
    · intro key member known
      obtain ⟨number, inside, rfl⟩ := List.mem_map.mp member
      rw [alone, List.mem_singleton] at known
      rw [List.mem_range'_1] at inside
      have := sampleRequest_key_injective (by omega) (by omega) known
      omega
  unfold sampleOthers
  refine ⟨all 1023 (by decide), ?_⟩
  have longer := all 1024 (by decide)
  rw [show (1024 : Nat) = 1023 + 1 from rfl, List.range'_concat, List.map_append, List.map_append,
    Fifo.arrivals_append] at longer
  have shorter := all 1023 (by decide)
  simp only [List.map_cons, List.map_nil] at longer
  have last : (1 + 1 * 1023 : Nat) = 1024 := rfl
  rw [last] at longer
  omega

/-- After the others the entry numbered 0 is the oldest of a full cache. -/
theorem samplePast_spec : ∃ memory : Fifo IdempotencyKey idempotencyCacheCap,
    (new.run transparent samplePast).Holds memory ∧ (sampleRequest 0 0).key ∈ memory.order ∧
      memory.behind (sampleRequest 0 0).key = 1023 ∧ memory.arrivals [event (sampleRequest 1024 0)] = 1 ∧
      ∃ entry, (new.run transparent samplePast).entries (sampleRequest 0 0).key = some entry ∧
        entry.insertedAtMs = 0 := by
  have holds := (step_holds transparent holds_new (sampleRequest 0 0)).1
  have dispatched : new.dispatches transparent (sampleRequest 0 0) = true :=
    dispatches_iff.mpr ⟨sampleRequest_asks, rfl⟩
  have last := behind_dispatched holds_new dispatched rfl
  have stored := entries_dispatched holds_new dispatched
  have alone : (Fifo.empty.step (event (sampleRequest 0 0)) : Fifo _ idempotencyCacheCap).order =
      [(sampleRequest 0 0).key] := Fifo.order_step_touch List.not_mem_nil
  generalize Fifo.empty.step (event (sampleRequest 0 0)) = memory at holds last alone
  obtain ⟨others, more⟩ := sampleOthers_arrivals alone
  have room : memory.behind (sampleRequest 0 0).key + memory.arrivals (sampleOthers.map event) <
      idempotencyCacheCap := by
    rw [last, others]
    decide
  have known : (sampleRequest 0 0).key ∈ memory.order := by rw [alone]; exact List.mem_cons_self
  obtain ⟨kept, behind⟩ := Fifo.mem_run_of_room _ known (forget_not_mem sampleOthers) room
  rw [samplePast, run_cons]
  refine ⟨_, (run_holds transparent holds sampleOthers).2, kept, by rw [behind, last, others], more, _,
    (entries_run holds stored room ?_).1, rfl⟩
  intro request member
  rw [sampleOthers_now member]
  decide +kernel

theorem samplePast_now (member : request ∈ samplePast) : request.nowMs = 0 := by
  rcases List.mem_cons.mp member with rfl | member
  · rfl
  · exact sampleOthers_now member

/-- In a full cache, the oldest key is dispatched again a day later and refreshed where it stands. One key more
pushes it out. -/
theorem refresh_lost (holds : cache.Holds memory) (known : (sampleRequest 0 0).key ∈ memory.order)
    (full : memory.behind (sampleRequest 0 0).key = 1023)
    (more : memory.arrivals [event (sampleRequest 1024 0)] = 1)
    (found : cache.entries (sampleRequest 0 0).key = some entry) (inserted : entry.insertedAtMs = 0) :
    cache.dispatches transparent (sampleRequest 0 86400000) = true ∧
      ((cache.step transparent (sampleRequest 0 86400000)).run transparent [sampleRequest 1024 86400000]).dispatches
        transparent (sampleRequest 0 86400001) = true := by
  constructor
  · refine dispatches_iff.mpr ⟨sampleRequest_asks, get_eq_miss_iff.mpr ?_⟩
    intro entry' found'
    obtain rfl : entry = entry' := Option.some.inj (found.symm.trans found')
    rw [IdempotencyEntry.expiresAtMs, inserted]
    decide +kernel
  · have refreshed := (step_holds transparent holds (sampleRequest 0 86400000)).1
    rw [event_sampleRequest, Fifo.step_touch_of_mem known] at refreshed
    have once : Run.Meets (fun memory event => memory.arrival? event ≠ some (sampleRequest 0 0).key) Fifo.step
        memory [event (sampleRequest 1024 86400000)] := by
      refine ⟨?_, trivial⟩
      intro arrives
      have touched := (Fifo.arrival?_eq_some.mp arrives).1
      rw [event_sampleRequest, Fifo.Event.touch.injEq] at touched
      exact absurd (sampleRequest_key_injective (by decide) (by decide) touched) (by decide)
    have gone : (sampleRequest 0 0).key ∉ (memory.run [event (sampleRequest 1024 86400000)]).order := by
      have kept : .forget ∉ [event (sampleRequest 1024 86400000)] := forget_not_mem [_]
      rw [Fifo.mem_run_iff_of_mem _ known kept once, full, event_sampleRequest, ← event_sampleRequest, more]
      decide
    have absent := entries_eq_none (run_holds transparent refreshed [sampleRequest 1024 86400000]).2 gone
    refine dispatches_iff.mpr ⟨sampleRequest_asks, get_eq_miss_iff.mpr ?_⟩
    intro entry' found'
    exact absurd (absent.symm.trans found') nofun

/-- A key that is dispatched again after a day, with a full cache behind it, and repeated with one other key in
between, is dispatched a third time. -/
theorem refreshed_key_dispatched : let first := sampleRequest 0 86400000
    let between := [sampleRequest 1024 86400000]
    let second := sampleRequest 0 86400001
    let cache := (new.run transparent samplePast).step transparent first
    ((samplePast ++ first :: (between ++ [second])).Pairwise fun a b => a.nowMs ≤ b.nowMs) ∧
      (new.run transparent samplePast).dispatches transparent first = true ∧
      second.key = first.key ∧ second.payload = first.payload ∧ Asks second ∧
      second.nowMs.toNat < first.nowMs.toNat + idempotencyTtlMs ∧
      Run.count (dispatchesOther transparent first.key) (step transparent) cache between < idempotencyCacheCap ∧
      (cache.run transparent between).dispatches transparent second = true := by
  obtain ⟨memory, holds, known, full, more, entry, found, inserted⟩ := samplePast_spec
  obtain ⟨refreshed, lost⟩ := refresh_lost holds known full more found inserted
  refine ⟨?_, refreshed, rfl, rfl, sampleRequest_asks, by decide +kernel, ?_, lost⟩
  · refine List.pairwise_append.mpr ⟨?_, by decide +kernel, ?_⟩
    · apply List.pairwise_of_forall_mem_list
      intro a member b member'
      rw [samplePast_now member, samplePast_now member']
      exact UInt64.le_refl _
    · intro a member b _
      rw [samplePast_now member]
      exact UInt64.zero_le
  · exact Nat.lt_of_le_of_lt (Run.count_le_length _) (by decide +kernel)

end IdempotencyCache
end UniversalMesh.Daemon
