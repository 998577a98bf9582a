import UniversalMesh.Daemon.RelayForwarding

/-! What a circuit has received: the bytes it was charged, the sequence number it expects and its last payload,
and for a multipath circuit the receiving side of its scheduler. `Quiet` says that a call leaves all of this
alone, apart from circuits it removes. Everything but the acceptance of data, the opening of circuits and a
restart is quiet, except that attaching a downstream leg may lower its quota. -/
namespace UniversalMesh.Daemon
open MachineWord Wire Relay OrderedMap MultipathScheduler

variable {ownerPeer destination : Bytes}

structure SameReceipt (c c' : Circuit) : Prop where
  bytes : c'.bytesForwarded = c.bytesForwarded
  next : c'.nextRelaySequence = c.nextRelaySequence
  last : c'.lastAcceptedData = c.lastAcceptedData

theorem SameReceipt.trans (first : SameReceipt c c') (second : SameReceipt c' c'') : SameReceipt c c'' :=
  ⟨second.bytes.trans first.bytes, second.next.trans first.next, second.last.trans first.last⟩

/-- The maps that link circuits, with the ids that were given out. -/
structure Links where
  nextCircuitId : Nat
  (replayFences circuitOwners : OrderedMap Nat Nat)
  destinationHints : OrderedMap Nat Bytes
  circuitsByOwner : OrderedMap Bytes (List Nat)
  wireToInternal : OrderedMap (Nat ×ₗ Nat) Nat
  internalToWire : OrderedMap (Nat ×ₗ Nat) Nat
  pairedCircuits : OrderedMap Nat Nat
  multipathDestinations : OrderedMap Nat (OrderedMap Nat Nat)
  multipathReverse : OrderedMap Nat (Nat × Nat)

namespace RelayService

def links (s : RelayService) : Links :=
  { nextCircuitId := s.nextCircuitId, replayFences := s.replayFences, circuitOwners := s.circuitOwners
    destinationHints := s.destinationHints, circuitsByOwner := s.circuitsByOwner, wireToInternal := s.wireToInternal
    internalToWire := s.internalToWire, pairedCircuits := s.pairedCircuits
    multipathDestinations := s.multipathDestinations, multipathReverse := s.multipathReverse }

def Registered (s : RelayService) (id : Nat) : Prop := (s.circuits.get? id).isSome

def Scheduled (s : RelayService) (id : Nat) : Prop := (s.multipath.get? id).isSome

variable {s s' s'' : RelayService}

structure SameLinks (s s' : RelayService) : Prop where
  links : s'.links = s.links
  registered : ∀ {id : Nat}, s'.Registered id → s.Registered id
  scheduled : ∀ {id : Nat}, s.Scheduled id → s'.Scheduled id

namespace SameLinks

theorem of_eq (links : s'.links = s.links) (circuits : s'.circuits = s.circuits)
    (multipath : s'.multipath = s.multipath) : SameLinks s s' where
  links := links
  registered held := by rwa [Registered, circuits] at held
  scheduled held := by rwa [Scheduled, multipath]

theorem refl (s : RelayService) : SameLinks s s := of_eq rfl rfl rfl

theorem trans (first : SameLinks s s') (second : SameLinks s' s'') : SameLinks s s'' where
  links := second.links.trans first.links
  registered held := first.registered (second.registered held)
  scheduled held := second.scheduled (first.scheduled held)

end SameLinks

theorem SameLinks.paired (same : SameLinks s s') : s'.pairedCircuits = s.pairedCircuits :=
  congrArg Links.pairedCircuits same.links

theorem SameLinks.owners (same : SameLinks s s') : s'.circuitsByOwner = s.circuitsByOwner :=
  congrArg Links.circuitsByOwner same.links

theorem SameLinks.hints (same : SameLinks s s') : s'.destinationHints = s.destinationHints :=
  congrArg Links.destinationHints same.links

variable {source now epoch : Nat} {c : Circuit} {answer : Except RelayError RelayAnswer} {call : RelayCall}

theorem putCircuit_sameLinks {id : Nat} (held : s.Registered id) (c : Circuit) : SameLinks s (s.putCircuit id c) where
  links := rfl
  registered found := by
    rcases isSome_get?_insert.mp found with rfl | found
    · exact held
    · exact found
  scheduled held := held

theorem putScheduler_sameLinks {id : Nat} : SameLinks s (s.putScheduler id m) where
  links := rfl
  registered held := held
  scheduled held := isSome_get?_insert.mpr (.inr held)

/-- No circuit receives anything, and schedulers change their paths only. -/
structure Quiet (s s' : RelayService) : Prop where
  circuits : ∀ {id : Nat} {c' : Circuit}, s'.circuits.get? id = some c' →
    ∃ c, s.circuits.get? id = some c ∧ SameReceipt c c' ∧ c'.grantedByteQuota = c.grantedByteQuota
  schedulers : ∀ {id : Nat} {m' : MultipathScheduler}, s'.multipath.get? id = some m' →
    ∃ m, s.multipath.get? id = some m ∧ ∃ paths, m' = { m with paths }

namespace Quiet

theorem of_subset (circuits : ∀ {id c}, s'.circuits.get? id = some c → s.circuits.get? id = some c)
    (schedulers : ∀ {id m}, s'.multipath.get? id = some m → s.multipath.get? id = some m) : Quiet s s' where
  circuits found := ⟨_, circuits found, ⟨rfl, rfl, rfl⟩, rfl⟩
  schedulers found := ⟨_, schedulers found, _, rfl⟩

theorem of_eq (circuits : s'.circuits = s.circuits) (schedulers : s'.multipath = s.multipath) : Quiet s s' :=
  of_subset (fun found => circuits ▸ found) (fun found => schedulers ▸ found)

theorem refl (s : RelayService) : Quiet s s := of_eq rfl rfl

theorem trans (first : Quiet s s') (second : Quiet s' s'') : Quiet s s'' where
  circuits found := by
    obtain ⟨c', found', same', quota'⟩ := second.circuits found
    obtain ⟨c, found, same, quota⟩ := first.circuits found'
    exact ⟨c, found, same.trans same', quota'.trans quota⟩
  schedulers found := by
    obtain ⟨m', found', paths', rfl⟩ := second.schedulers found
    obtain ⟨m, held, paths, rfl⟩ := first.schedulers found'
    exact ⟨m, held, paths', rfl⟩

theorem foldl {α : Type} {turn : RelayService → α → RelayService} (each : ∀ s item, Quiet s (turn s item))
    (items : List α) (s : RelayService) : Quiet s (items.foldl turn s) :=
  Run.invariant (fun t item before => before.trans (each t item)) (refl s)

end Quiet

/-- Neither what circuits have received nor how they are linked has changed. -/
structure Still (s s' : RelayService) : Prop where
  links : SameLinks s s'
  quiet : Quiet s s'

namespace Still

theorem of_eq (links : s'.links = s.links) (circuits : s'.circuits = s.circuits)
    (multipath : s'.multipath = s.multipath) : Still s s' :=
  ⟨.of_eq links circuits multipath, .of_eq circuits multipath⟩

theorem refl (s : RelayService) : Still s s := of_eq rfl rfl rfl

theorem trans (first : Still s s') (second : Still s' s'') : Still s s'' :=
  ⟨first.links.trans second.links, first.quiet.trans second.quiet⟩

theorem foldl {α : Type} {turn : RelayService → α → RelayService} (each : ∀ s item, Still s (turn s item))
    (items : List α) (s : RelayService) : Still s (items.foldl turn s) :=
  Run.invariant (fun t item before => before.trans (each t item)) (refl s)

end Still

/-! ### The building blocks -/

theorem putCircuit_still {id : Nat} (held : s.circuits.get? id = some c)
    (same : SameReceipt c c') (quota : c'.grantedByteQuota = c.grantedByteQuota) : Still s (s.putCircuit id c') where
  links := putCircuit_sameLinks (Option.isSome_of_eq_some held) c'
  quiet.circuits {other found'} found := by
    rcases get?_insert_eq_some.mp found with ⟨rfl, rfl⟩ | ⟨-, found⟩
    · exact ⟨c, held, same, quota⟩
    · exact ⟨found', found, ⟨rfl, rfl, rfl⟩, rfl⟩
  quiet.schedulers found := ⟨_, found, _, rfl⟩

theorem changeCircuit_still
    (same : ∀ c, SameReceipt c (change c) ∧ (change c).grantedByteQuota = c.grantedByteQuota) {id : Nat} :
    Still s (s.changeCircuit id change) := by
  unfold changeCircuit
  split
  · exact .refl s
  · next c held => exact putCircuit_still held (same c).1 (same c).2

theorem persist_still (record : RelayCircuitRecord) : Still s (s.persist record) := .of_eq rfl rfl rfl

theorem persistCircuit_still (id : Nat) : Still s (s.persistCircuit id) := by
  unfold persistCircuit
  split
  · exact .refl s
  · exact persist_still _

theorem putScheduler_still {id : Nat} (held : s.multipath.get? id = some m)
    (same : ∃ paths, m' = { m with paths }) : Still s (s.putScheduler id m') where
  links := putScheduler_sameLinks
  quiet.circuits found := ⟨_, found, ⟨rfl, rfl, rfl⟩, rfl⟩
  quiet.schedulers {other found'} found := by
    rcases get?_insert_eq_some.mp found with ⟨rfl, rfl⟩ | ⟨-, found⟩
    · exact ⟨m, held, same⟩
    · exact ⟨found', found, _, rfl⟩

theorem changeScheduler_still (same : ∀ {m m'}, change m = .ok m' → ∃ paths, m' = { m with paths }) {id : Nat} :
    Still s (s.changeScheduler id change).2 := by
  unfold changeScheduler
  split
  · exact .refl s
  · next m held =>
    split
    · exact .refl s
    · next m' changed => exact putScheduler_still held (same changed)

theorem addPrimaryPath_still (id : Nat) : Still s (s.addPrimaryPath id) :=
  changeScheduler_still addPath_paths

theorem failMultipathPath_still (id pathId : Nat) : Still s (s.failMultipathPath id pathId).2 :=
  changeScheduler_still changePath_paths

theorem activateMultipathPath_still {id pathId : Nat} : Still s (s.activateMultipathPath id pathId).2 :=
  changeScheduler_still changePath_paths

theorem addMultipathPath_still (id pathId weight : Nat) : Still s (s.addMultipathPath id pathId weight).2 := by
  unfold addMultipathPath
  split
  · exact .refl s
  split
  · exact .refl s
  · exact changeScheduler_still addPath_paths

theorem unbind_quiet {id : Nat} : Quiet s (s.unbind id) :=
  .of_subset (fun found => found) fun found => (get?_erase_eq_some.mp found).2

theorem unpair_quiet {id : Nat} : Quiet s (s.unpair id) := by
  unfold unpair
  split
  · exact .refl s
  · exact .of_eq rfl rfl

/-! ### The quiet calls -/

theorem failMultipathDestination_still {id : Nat} : 
    Still s (s.failMultipathDestination id destination traversal).2 := by
  unfold failMultipathDestination
  split
  · exact .refl s
  · next pathId _ _ =>
    have failed := failMultipathPath_still (s := s) id pathId
    split
    · next s' result => rwa [result] at failed
    · next s' result => rwa [result] at failed

theorem queuePendingData_still {id : Nat} : Still s (s.queuePendingData id frame).2 := by
  unfold queuePendingData
  dsimp only
  split <;> exact .of_eq rfl rfl rfl

theorem activateDownstream_still : Still s (s.activateDownstream session status).2 := by
  unfold activateDownstream
  split
  · exact .refl s
  split
  · exact .refl s
  · next downstream _ =>
    dsimp only
    split
    · exact .refl s
    · next upstream _ =>
      have ready : Still s (s.markReady downstream upstream) := .of_eq rfl rfl rfl
      refine ready.trans ?_
      split
      · exact .of_eq rfl rfl rfl
      · next source pathId _ => exact activateMultipathPath_still.trans (.of_eq rfl rfl rfl)

theorem selectPath_still {id : Nat} : Still s (s.selectPath id).2 := by
  unfold selectPath
  split
  · exact .refl s
  · next m held =>
    split
    · exact .refl s
    · next pathId m' selected => exact putScheduler_still held (selectPath_paths selected)

theorem recordSent_still (recorded : s.recordSent source selectedPath bytes = .ok s') : Still s s' := by
  unfold recordSent at recorded
  split at recorded
  · next m pathId held =>
    split at recorded
    · cases recorded
    · next m' sent =>
      cases recorded
      exact putScheduler_still held (changePath_paths sent)
  · cases recorded
    exact .refl s

theorem choosePath_still (id : Nat) : Still s (s.choosePath id).2 := by
  unfold choosePath
  split
  · exact .refl s
  · exact selectPath_still

theorem forwardDataFrame_still (upstream : RelayDataFrame) : Still s (s.forwardDataFrame upstream).2 := by
  have chosen := choosePath_still (s := s) upstream.circuitId
  rcases s.forwardDataFrame_cases with
    ⟨e, result⟩ | ⟨e, result⟩ | ⟨leaving, c, found, rest⟩
  · rw [result]
    exact .refl s
  · rw [result]
    exact chosen
  have same : SameReceipt c c.allocateSequence.2 := ⟨rfl, rfl, rfl⟩
  have allocated := chosen.trans (putCircuit_still (destinationCircuit_ok found).1 same rfl)
  rcases rest with ⟨e, result⟩ | ⟨s₂, recorded, ⟨e, result⟩ | ⟨peer, bytes, frame, -, -, -, result⟩⟩
  · rw [result]
    exact allocated
  · rw [result]
    exact (allocated.trans (recordSent_still recorded)).trans (persistCircuit_still leaving)
  · rw [result]
    exact (allocated.trans (recordSent_still recorded)).trans (persistCircuit_still leaving)

theorem retireLeg_quiet (now : Nat) (s : RelayService) (leg : Nat) : Quiet s (retireLeg now s leg) := by
  unfold retireLeg
  have fenced : ∀ deadline, Quiet s { s with replayFences := s.replayFences.insert leg deadline } :=
    fun _ => .of_eq rfl rfl
  refine (fenced (saturatingAdd now 10000)).trans ?_
  dsimp only
  split
  · exact unbind_quiet
  · exact (persist_still _).quiet.trans unbind_quiet

theorem closeCircuit_receipt (c : Circuit) (now : Nat) :
    SameReceipt c (c.closeCircuit now) ∧ (c.closeCircuit now).grantedByteQuota = c.grantedByteQuota :=
  ⟨⟨rfl, rfl, rfl⟩, rfl⟩

theorem drainCircuit_receipt :
    SameReceipt c (c.drainCircuit now) ∧ (c.drainCircuit now).grantedByteQuota = c.grantedByteQuota := by
  unfold Circuit.drainCircuit
  split
  · exact ⟨⟨rfl, rfl, rfl⟩, rfl⟩
  split <;> exact ⟨⟨rfl, rfl, rfl⟩, rfl⟩

theorem closeCircuit_quiet {id now : Nat} : Quiet s (s.closeCircuit id now).2 := by
  unfold closeCircuit
  split
  · exact .refl s
  · refine .trans ?_ unpair_quiet
    refine .trans ?_ (.foldl (retireLeg_quiet now) _ _)
    exact (Still.foldl (fun s leg => changeCircuit_still (closeCircuit_receipt · now)) _ s).quiet

theorem purgeClosedCircuit_quiet (now : Nat) (s : RelayService) (id : Nat) :
    Quiet s (purgeClosedCircuit now s id) := by
  refine .trans ?_ unpair_quiet
  have removed : ∀ s : RelayService, Quiet s { s.unbind id with circuits := s.circuits.erase id } :=
    fun _ => unbind_quiet.trans (.of_subset (fun found => (get?_erase_eq_some.mp found).2) fun found => found)
  refine .trans ?_ (removed _)
  split
  · exact .of_eq rfl rfl
  · exact .of_eq rfl rfl

theorem sweepCircuit_still {id : Nat} : Still s (sweepCircuit now (notifications, s) id).2 := by
  unfold sweepCircuit
  dsimp only
  split
  · exact .refl s
  · next c held =>
    split
    · exact putCircuit_still held drainCircuit_receipt.1 drainCircuit_receipt.2
    split
    · exact .refl s
    · next reason _ =>
      have closed : Still s ((s.putCircuit id (c.closeCircuit now)).persistCircuit id) :=
        (putCircuit_still held (closeCircuit_receipt c now).1 rfl).trans (persistCircuit_still id)
      refine closed.trans ?_
      dsimp only
      split
      · exact .refl _
      · next partner _ =>
        refine .trans ?_ (persistCircuit_still partner)
        refine changeCircuit_still (fun c => ?_)
        split <;> exact ⟨⟨rfl, rfl, rfl⟩, rfl⟩

theorem sweepCircuits_still (now : Nat) (ids : List Nat) (result : List RelayExpiryNotification × RelayService) :
    Still result.2 (ids.foldl (sweepCircuit now) result).2 := by
  have each : ∀ t id, Still result.2 t.2 → Still result.2 (sweepCircuit now t id).2 :=
    fun t id before => before.trans sweepCircuit_still
  exact @Run.invariant _ _ (sweepCircuit now) (Still result.2 ·.2) ids result each (.refl result.2)

theorem dropFence_quiet (s : RelayService) (id : Nat) : Quiet s (dropFence s id) := .of_eq rfl rfl

theorem sweep_quiet {now : Nat} : Quiet s (s.sweep now traversal).2 := by
  have fences : ∀ ids : List Nat, Quiet s (ids.foldl dropFence s) := fun ids => .foldl dropFence_quiet ids s
  exact ((fences _).trans (sweepCircuits_still now _ ([], _)).quiet).trans
    (.foldl (purgeClosedCircuit_quiet now) _ _)

/-! ### Circuits that begin, and quotas that are lowered -/

/-- What a call other than the acceptance of data does: circuits that begin have received nothing, the others
are as they were, with a quota that may have been lowered. A scheduler comes only with a circuit that begins. -/
structure Follows (begins : Nat → Prop) (lowers : Nat → Nat → Prop) (s s' : RelayService) : Prop where
  begun : ∀ {id : Nat} {c' : Circuit}, s'.circuits.get? id = some c' → begins id →
    c'.bytesForwarded = 0 ∧ c'.lastAcceptedData = none
  kept : ∀ {id : Nat} {c' : Circuit}, s'.circuits.get? id = some c' → ¬ begins id →
    ∃ c, s.circuits.get? id = some c ∧ SameReceipt c c' ∧
      (c'.grantedByteQuota = c.grantedByteQuota ∨
        ∃ bound, lowers id bound ∧ c'.grantedByteQuota = min c.grantedByteQuota bound)
  schedulers : ∀ {id : Nat} {m' : MultipathScheduler}, s'.multipath.get? id = some m' →
    (begins id ∧ ∃ limit paths, m' = { MultipathScheduler.new limit with paths }) ∨
      ∃ m, s.multipath.get? id = some m ∧ ∃ paths, m' = { m with paths }

variable {begins : Nat → Prop} {lowers : Nat → Nat → Prop}

theorem Quiet.follows (quiet : Quiet s s') (none : ∀ id, ¬ begins id) : Follows begins lowers s s' where
  begun _ begins := absurd begins (none _)
  kept found _ := by
    obtain ⟨c, held, same, quota⟩ := quiet.circuits found
    exact ⟨c, held, same, .inl quota⟩
  schedulers found := .inr (quiet.schedulers found)

theorem Follows.quiet (follows : Follows begins lowers s s') (quiet : Quiet s' s'') :
    Follows begins lowers s s'' where
  begun found begins := by
    obtain ⟨c', found', same, -⟩ := quiet.circuits found
    obtain ⟨bytes, last⟩ := follows.begun found' begins
    exact ⟨same.bytes.trans bytes, same.last.trans last⟩
  kept found old := by
    obtain ⟨c', found', same', quota'⟩ := quiet.circuits found
    obtain ⟨c, held, same, quota⟩ := follows.kept found' old
    exact ⟨c, held, same.trans same', by rw [quota']; exact quota⟩
  schedulers found := by
    obtain ⟨m', found', paths', rfl⟩ := quiet.schedulers found
    rcases follows.schedulers found' with ⟨begins, limit, paths, rfl⟩ | ⟨m, held, paths, rfl⟩
    · exact .inl ⟨begins, limit, paths', rfl⟩
    · exact .inr ⟨m, held, paths', rfl⟩

theorem enter_follows
    (made : Circuit.new circuitId now lifetimeMs byteQuota bidirectional privateHandling = .ok c)
    (same : SameReceipt c c') (circuits : s'.circuits = s.circuits)
    (schedulers : ∀ {id m'}, s'.multipath.get? id = some m' →
      (id = circuitId ∧ ∃ limit paths, m' = { MultipathScheduler.new limit with paths }) ∨
        ∃ m, s.multipath.get? id = some m ∧ ∃ paths, m' = { m with paths }) :
    Follows (· = circuitId) lowers s (s'.enter circuitId c' ownerPeer destination) where
  begun {id found'} found begins := by
    obtain ⟨-, rfl⟩ := Circuit.new_ok.mp made
    rw [enter, begins, get?_insert_self] at found
    cases found
    exact ⟨same.bytes, same.last⟩
  kept {id found'} found old := by
    rw [enter, get?_insert_of_ne old, circuits] at found
    exact ⟨found', found, ⟨rfl, rfl, rfl⟩, .inl rfl⟩
  schedulers := schedulers

theorem pairReciprocal_quiet : Quiet s (s.pairReciprocal circuitId ownerPeer destination) := by
  unfold pairReciprocal
  split
  · exact .refl s
  split
  · exact .refl s
  · next partner _ =>
    have paired : Quiet s ((s.pair circuitId partner).markReady circuitId partner) := .of_eq rfl rfl
    exact paired.trans (addPrimaryPath_still circuitId).quiet

theorem allocate_schedulers {multipath : Bool} {id : Nat}
    (found : (s.allocate circuitId multipath).multipath.get? id = some m') :
    (id = circuitId ∧ ∃ limit paths, m' = { MultipathScheduler.new limit with paths }) ∨
      ∃ m, s.multipath.get? id = some m ∧ ∃ paths, m' = { m with paths } := by
  cases multipath with
  | false => exact .inr ⟨m', found, _, rfl⟩
  | true =>
    have inserted : (s.multipath.insert circuitId newScheduler).get? id = some m' := found
    rcases get?_insert_eq_some.mp inserted with ⟨here, rfl⟩ | ⟨-, held⟩
    · exact .inl ⟨here, 64, _, rfl⟩
    · exact .inr ⟨m', held, _, rfl⟩

theorem openCircuit_follows {answer : Except RelayError CircuitOpenResult}
    (opened : s.openCircuit request ownerPeer now = .ok (answer, s')) :
    Follows (fun id => ∃ result, answer = .ok result ∧ id = result.circuitId) lowers s s' := by
  rcases openCircuit_cases opened with
    ⟨e, rfl, rfl⟩ | ⟨result, c, lifetimeMs, byteQuota, multipath, rfl, -, made, rfl⟩
  · exact (Quiet.refl s').follows fun id ⟨result, refused, _⟩ => by cases refused
  · have only : (fun id => ∃ other : CircuitOpenResult,
        (.ok result : Except RelayError CircuitOpenResult) = .ok other ∧ id = other.circuitId) =
          (· = result.circuitId) := by
      funext id
      simp
    rw [only]
    refine Follows.quiet ?_ ((persistCircuit_still _).quiet.trans pairReciprocal_quiet)
    exact enter_follows made ⟨rfl, rfl, rfl⟩ rfl allocate_schedulers

theorem openAs_receipt {destination source : Circuit} (opened : openAs destination source now = .ok c) :
    SameReceipt destination c := by
  unfold openAs at opened
  split at opened
  · obtain ⟨-, rfl⟩ := Circuit.touch_ok.mp opened
    exact ⟨rfl, rfl, rfl⟩
  · cases opened
    exact ⟨rfl, rfl, rfl⟩

theorem bindWireCircuit_quiet {sessionId wireCircuitId circuitId : Nat}
    (bound : s.bindWireCircuit sessionId wireCircuitId circuitId = .ok s') : Quiet s s' := by
  obtain ⟨-, rfl⟩ := bindWireCircuit_ok bound
  exact .of_eq rfl rfl

theorem attachDestinationLeg_follows {answer : Except RelayError Nat}
    (attached : s.attachDestinationLeg source session wire sourcePeer destinationPeer now = .ok (answer, s')) :
    Follows (fun id => answer = .ok id) lowers s s' := by
  have refused : ∀ {e}, answer = .error e → ∀ id, ¬ answer = .ok id := by
    rintro e rfl id same
    cases same
  rcases attachDestinationLeg_cases attached with
    ⟨e, rfl, rfl⟩ | ⟨c, made, destination, lifetime, -, -, new, opened, rest⟩
  · exact (Quiet.refl s').follows (refused rfl)
  let mid := (s.allocate s.nextCircuitId false).enter s.nextCircuitId destination destinationPeer sourcePeer
  have entered : Follows (· = s.nextCircuitId) lowers s mid :=
    enter_follows new (openAs_receipt opened) rfl allocate_schedulers
  have paired : Quiet mid
      (s.pairDestination source s.nextCircuitId destination session sourcePeer destinationPeer) := .of_eq rfl rfl
  have primary : Quiet (s.pairDestination source s.nextCircuitId destination session sourcePeer destinationPeer)
      (s.joinDestination source s.nextCircuitId destination session sourcePeer destinationPeer) :=
    (addPrimaryPath_still source).quiet
  have linked := (entered.quiet paired).quiet primary
  rcases rest with ⟨e, rfl, rfl⟩ | ⟨s₂, bound, rfl, rfl⟩
  · refine ⟨fun _ begins => (refused rfl _ begins).elim, fun {id c'} found _ => ?_, fun {id m'} found => ?_⟩
    · obtain ⟨old, found⟩ := get?_erase_eq_some.mp found
      exact linked.kept found old
    · exact .inr (primary.schedulers found)
  · have only : (fun id => (.ok s.nextCircuitId : Except RelayError Nat) = .ok id) = (· = s.nextCircuitId) := by
      funext id
      simp [eq_comm]
    rw [only]
    exact ((linked.quiet (bindWireCircuit_quiet bound)).quiet (persistCircuit_still source).quiet).quiet
      (persistCircuit_still _).quiet

/-- The bound that attaching a downstream leg puts on the quota of the leg. -/
def LegBound (s : RelayService) (source downstream id bound : Nat) : Prop :=
  id = downstream ∧ ∃ c, s.circuits.get? source = some c ∧ c.grantedByteQuota = bound

theorem putLimited_follows (served : s.circuits.get? source = some c)
    (held : s.circuits.get? downstream = some d) (none : ∀ id, ¬ begins id)
    (circuits : s'.circuits = s.circuits.insert downstream (limitTo d c))
    (schedulers : s'.multipath = s.multipath) : Follows begins (s.LegBound source downstream) s s' where
  begun _ begins := absurd begins (none _)
  kept {id c'} found _ := by
    rcases get?_insert_eq_some.mp (circuits ▸ found) with ⟨rfl, rfl⟩ | ⟨-, found⟩
    · exact ⟨d, held, ⟨rfl, rfl, rfl⟩, .inr ⟨_, ⟨rfl, c, served, rfl⟩, rfl⟩⟩
    · exact ⟨c', found, ⟨rfl, rfl, rfl⟩, .inl rfl⟩
  schedulers found := by
    rw [schedulers] at found
    exact .inr ⟨_, found, _, rfl⟩

theorem leaveDownstream_quiet : Quiet s (s.leaveDownstream source downstream priorSourceHint downstreamPeer) :=
  .of_subset (fun found => (get?_erase_eq_some.mp found).2) fun found => found

theorem attachDownstreamLeg_follows (none : ∀ id, ¬ begins id) :
    Follows begins (s.LegBound source downstream) s
      (s.attachDownstreamLeg source downstream session wire sourcePeer downstreamPeer).2 := by
  rcases s.attachDownstreamLeg_cases source downstream session wire sourcePeer downstreamPeer with
    ⟨e, result⟩ | ⟨c, d, -, -, -, served, held, rest⟩
  · rw [result]
    exact (Quiet.refl s).follows none
  have limited : Follows begins (s.LegBound source downstream) s
      (s.pairDownstream source downstream (limitTo d c) session sourcePeer downstreamPeer) :=
    putLimited_follows served held none rfl rfl
  have linked := limited.quiet (addPrimaryPath_still source).quiet
  rcases rest with ⟨e, result⟩ | ⟨s₂, bound, result⟩
  · rw [result]
    exact linked.quiet leaveDownstream_quiet
  · rw [result]
    exact ((linked.quiet (bindWireCircuit_quiet bound)).quiet (persistCircuit_still source).quiet).quiet
      (persistCircuit_still downstream).quiet

theorem addMultipathDestination_quiet (source destination pathId weight : Nat) :
    Quiet s (s.addMultipathDestination source destination pathId weight).2 := by
  unfold addMultipathDestination
  split
  · exact .refl s
  dsimp only
  let filed := { s with
    multipathDestinations := s.multipathDestinations.file source pathId destination
    multipathReverse := s.multipathReverse.insert destination (source, pathId) }
  have filing : Quiet s filed := .of_eq rfl rfl
  have added := filing.trans (addMultipathPath_still source pathId weight).quiet
  split
  · next e s₂ result =>
    rw [result] at added
    exact added.trans (.of_eq rfl rfl)
  · next s₂ result =>
    rw [result] at added
    exact added.trans (failMultipathPath_still source pathId).quiet

theorem attachAdditionalDownstreamLeg_follows (source downstream session wire : Nat) (sourcePeer : Bytes)
    (pathId weight : Nat) (none : ∀ id, ¬ begins id) :
    Follows begins (s.LegBound source downstream) s
      (s.attachAdditionalDownstreamLeg source downstream session wire sourcePeer pathId weight).2 := by
  rcases s.attachAdditionalDownstreamLeg_cases source downstream session wire sourcePeer pathId weight with
    ⟨e, result⟩ | ⟨c, d, -, -, -, served, held, rest⟩
  · rw [result]
    exact (Quiet.refl s).follows none
  have joined : Follows begins (s.LegBound source downstream) s
      (s.joinAlternate downstream (limitTo d c) session sourcePeer) :=
    putLimited_follows served held none rfl rfl
  rcases rest with ⟨e, result⟩ | ⟨s₂, s₃, bound, rest⟩
  · rw [result]
    exact joined.quiet (.of_eq rfl rfl)
  have added := (joined.quiet (bindWireCircuit_quiet bound)).quiet
    (addMultipathDestination_quiet source downstream pathId weight)
  rcases rest with ⟨e, filed, result⟩ | ⟨filed, result⟩
  · rw [filed] at added
    rw [result]
    exact added.quiet (.of_eq rfl rfl)
  · rw [filed] at added
    rw [result]
    exact (added.quiet (persistCircuit_still source).quiet).quiet (persistCircuit_still downstream).quiet

/-! ### Restarts -/

/-- What a restart brings back has received nothing, and stands for a lease of the store. -/
structure Restored (leases : List RelayCircuitRecord) (now : Nat) (s : RelayService) : Prop where
  circuits : ∀ {id : Nat} {c : Circuit}, s.circuits.get? id = some c →
    c.bytesForwarded = 0 ∧ c.lastAcceptedData = none ∧
      ∃ record ∈ leases, restorable now record = true ∧ record.circuitId = id
  schedulers : ∀ {id : Nat} {m : MultipathScheduler}, s.multipath.get? id = some m →
    ∃ limit paths, m = { MultipathScheduler.new limit with paths }

theorem restoreRecord_restored {leases : List RelayCircuitRecord} (restored : Restored leases now s)
    {record : RelayCircuitRecord} (member : record ∈ leases) (turned : restoreRecord now s record = .ok s') :
    Restored leases now s' := by
  unfold restoreRecord at turned
  split at turned
  · cases turned
    exact ⟨restored.circuits, restored.schedulers⟩
  next window =>
  split at turned
  · cases turned
    exact ⟨restored.circuits, restored.schedulers⟩
  next live =>
  obtain ⟨c, made, turned⟩ := bind_ok.mp turned
  cases turned
  obtain ⟨-, rfl⟩ := Circuit.new_ok.mp made
  refine ⟨fun {id c'} found => ?_, fun {id m} found => ?_⟩
  · rcases get?_insert_eq_some.mp found with ⟨here, rfl⟩ | ⟨-, found⟩
    · refine ⟨rfl, rfl, record, member, ?_, here.symm⟩
      simp only [restorable, Bool.and_eq_true, decide_eq_true_eq]
      omega
    · exact restored.circuits found
  · have inserted : (if record.multipathGranted then s.multipath.insert record.circuitId (.new 64)
        else s.multipath).get? id = some m := found
    split at inserted
    · rcases get?_insert_eq_some.mp inserted with ⟨-, rfl⟩ | ⟨-, held⟩
      · exact ⟨64, _, rfl⟩
      · exact restored.schedulers held
    · exact restored.schedulers inserted

/-- `holds` may speak about the leases that are left. -/
theorem restart_loop (holds : List RelayCircuitRecord → RelayService → Prop)
    (initial : holds (traversal.order s.leases) { new with persistence := s.persistence, epoch })
    (each : ∀ record rest t t', holds (record :: rest) t → restoreRecord now t record = .ok t' → holds rest t')
    (restarted : s.restart epoch now traversal = .ok s') : holds [] s' := by
  have loop : ∀ records t, holds records t → records.foldlM (restoreRecord now) t = .ok s' → holds [] s' := by
    intro records
    induction records with
    | nil =>
      intro t held done
      cases done
      exact held
    | cons record rest ih =>
      intro t held done
      obtain ⟨t₁, turned, done⟩ := bind_ok.mp done
      exact ih t₁ (each record rest t t₁ held turned) done
  exact loop _ _ initial restarted

theorem restart_invariant (holds : RelayService → Prop)
    (initial : holds { new with persistence := s.persistence, epoch })
    (each : ∀ {t t' : RelayService} {record}, record ∈ s.leases → holds t →
      restoreRecord now t record = .ok t' → holds t') (restarted : s.restart epoch now traversal = .ok s') :
    holds s' := by
  refine (restart_loop (fun records t => records ⊆ s.leases ∧ holds t) ⟨(traversal.perm _).subset, initial⟩ ?_
    restarted).2
  rintro record rest t t' ⟨listed, held⟩ turned
  obtain ⟨here, others⟩ := List.cons_subset.mp listed
  exact ⟨others, each here held turned⟩

theorem restart_restored (restarted : s.restart epoch now traversal = .ok s') : Restored s.leases now s' := by
  refine restart_invariant (Restored s.leases now) ⟨fun found => ?_, fun found => ?_⟩ ?_ restarted
  · exact absurd (get?_eq_some.mp found) not_mem_empty
  · exact absurd (get?_eq_some.mp found) not_mem_empty
  · intro t t' record member restored turned
    exact restoreRecord_restored restored member turned

/-! ### All calls but the acceptance of data -/

def Begins : RelayCall → Except RelayError RelayAnswer → Nat → Prop
  | .openCircuit _ _ _, .ok (.opened result), id => id = result.circuitId
  | .attachDestinationLeg _ _ _ _ _ _, .ok (.leg leg), id => id = leg
  | .restart _ _ _, _, _ => True
  | _, _, _ => False

def Lowers (s : RelayService) : RelayCall → Nat → Nat → Prop
  | .attachDownstreamLeg source downstream _ _ _ _ => s.LegBound source downstream
  | .attachAdditionalDownstreamLeg source downstream _ _ _ _ _ => s.LegBound source downstream
  | _ => fun _ _ => False

/-- A value that is kept for every circuit, from the time that it is opened. -/
def renew {α : Type} (start : α) (kept : Nat → α) :
    RelayCall → Except RelayError RelayAnswer → Nat → α
  | .openCircuit _ _ _, .ok (.opened result) => Function.update kept result.circuitId start
  | .attachDestinationLeg _ _ _ _ _ _, .ok (.leg leg) => Function.update kept leg start
  | _, _ => kept

section
variable {α : Type} {start : α} {kept : Nat → α} {call : RelayCall} {answer : Except RelayError RelayAnswer}
  {id : Nat}

theorem renew_of_begins (noRestart : ∀ epoch now traversal, call ≠ .restart epoch now traversal) (begun : Begins call answer id) :
    renew start kept call answer id = start := by
  unfold Begins at begun
  split at begun
  · subst begun
    exact Function.update_self _ _ _
  · subst begun
    exact Function.update_self _ _ _
  · exact absurd rfl (noRestart _ _ _)
  · exact begun.elim

theorem renew_of_not_begins (old : ¬ Begins call answer id) : renew start kept call answer id = kept id := by
  unfold renew
  split
  · exact Function.update_of_ne old _ _
  · exact Function.update_of_ne old _ _
  · rfl

end

theorem map_answer_ok {α β : Type} {call : Except Halt (Except RelayError α × RelayService)} {answer : α → β}
    {result : Except RelayError β} (performed : call.map (Prod.map (·.map answer) id) = .ok (result, s')) :
    ∃ first, call = .ok (first, s') ∧ result = first.map answer := by
  cases call with
  | error halt => cases performed
  | ok pair =>
    cases performed
    exact ⟨pair.1, rfl, rfl⟩

theorem perform_restart_ok (performed : s.perform (.restart epoch now traversal) = .ok (answer, s')) :
    s.restart epoch now traversal = .ok s' := by
  cases restarted : s.restart epoch now traversal with
  | error halt => rw [perform, restarted] at performed; cases performed
  | ok s₁ =>
    rw [perform, restarted] at performed
    cases performed
    rfl

/-- The calls that change links. -/
def relinks : RelayCall → Bool
  | .openCircuit _ _ _ | .recordCircuitOwner _ _ | .bindWireCircuit _ _ _ | .attachDestinationLeg _ _ _ _ _ _
  | .attachDownstreamLeg _ _ _ _ _ _ | .attachAdditionalDownstreamLeg _ _ _ _ _ _ _ | .closeCircuit _ _
  | .sweep _ _ | .restart _ _ _ => true
  | _ => false

theorem perform_still (still : relinks call = false)
    (noData : ∀ arrival, call ≠ .acceptUpstreamFrames arrival) (performed : s.perform call = .ok (answer, s')) :
    Still s s' := by
  cases call with
  | addMultipathPath circuitId pathId weight =>
    cases performed
    exact addMultipathPath_still circuitId pathId weight
  | failMultipathPath circuitId pathId =>
    cases performed
    exact failMultipathPath_still circuitId pathId
  | failMultipathDestination =>
    cases performed
    exact failMultipathDestination_still
  | activateMultipathPath =>
    cases performed
    exact activateMultipathPath_still
  | queuePendingData =>
    cases performed
    exact queuePendingData_still
  | activateDownstream =>
    cases performed
    exact activateDownstream_still
  | acceptUpstreamFrames arrival => exact absurd rfl (noData arrival)
  | forwardDataFrame frame =>
    cases performed
    exact forwardDataFrame_still frame
  | limits limits =>
    cases performed
    exact .of_eq rfl rfl rfl
  | disk store =>
    cases performed
    exact .of_eq rfl rfl rfl
  | _ => cases still

theorem not_begins (still : relinks call = false) (id : Nat) : ¬ Begins call answer id := by
  cases call <;> first
    | exact not_false
    | cases still

/-- Only data that is accepted is received. -/
theorem perform_follows (noData : ∀ arrival, call ≠ .acceptUpstreamFrames arrival)
    (performed : s.perform call = .ok (answer, s')) : Follows (Begins call answer) (s.Lowers call) s s' := by
  cases still : relinks call with
  | false => exact (perform_still still noData performed).quiet.follows (not_begins still)
  | true =>
    cases call with
    | openCircuit =>
      obtain ⟨first, opened, rfl⟩ := map_answer_ok performed
      convert openCircuit_follows opened using 1
      funext id
      cases first with
      | error e => simp [Begins, Except.map]
      | ok result => simp [Begins, Except.map]
    | recordCircuitOwner =>
      cases performed
      refine Quiet.follows ?_ fun _ => not_false
      exact .of_eq rfl rfl
    | bindWireCircuit =>
      rw [perform] at performed
      split at performed
      · cases performed
        exact (Quiet.refl s).follows fun _ => not_false
      · next bound =>
        cases performed
        exact (bindWireCircuit_quiet bound).follows fun _ => not_false
    | attachDestinationLeg =>
      obtain ⟨first, attached, rfl⟩ := map_answer_ok performed
      convert attachDestinationLeg_follows attached using 1
      funext id
      cases first with
      | error e => simp [Begins, Except.map]
      | ok leg => simp [Begins, Except.map, eq_comm]
    | attachDownstreamLeg =>
      cases performed
      exact attachDownstreamLeg_follows fun _ => not_false
    | attachAdditionalDownstreamLeg source downstream session wire sourcePeer pathId weight =>
      cases performed
      exact attachAdditionalDownstreamLeg_follows source downstream session wire sourcePeer pathId weight
        fun _ => not_false
    | closeCircuit circuitId now =>
      cases performed
      exact closeCircuit_quiet.follows fun _ => not_false
    | sweep =>
      cases performed
      exact sweep_quiet.follows fun _ => not_false
    | restart =>
      have restored := restart_restored (perform_restart_ok performed)
      refine ⟨fun found _ => ?_, fun _ old => absurd trivial old, fun found => ?_⟩
      · obtain ⟨bytes, last, -⟩ := restored.circuits found
        exact ⟨bytes, last⟩
      · exact .inl ⟨trivial, restored.schedulers found⟩
    | _ => cases still

end RelayService
end UniversalMesh.Daemon
