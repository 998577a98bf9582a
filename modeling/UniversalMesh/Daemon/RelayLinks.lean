import UniversalMesh.Daemon.RelayReceipts

/-! How circuits are linked: partners, the alternate legs of a circuit and the way back from a leg, owners, the
peers that circuits lead to and the ids they have on their sessions. Most calls leave all of it alone
(`SameLinks`). Whatever the callers do, the way back from a leg agrees with the legs of its circuit, and wire
ids with the circuits they resolve to (`Coherent`). -/
namespace UniversalMesh.Daemon
open MachineWord Wire Relay OrderedMap

variable {ownerPeer destination : Bytes}

namespace RelayService

variable {s s' s'' : RelayService}

/-- A circuit that the frames of another can leave on: its partner, an alternate leg, or the circuit that
it is a leg of. -/
def Linked (s : RelayService) (id other : Nat) : Prop :=
  s.pairedCircuits.get? id = some other ∨ (∃ path, s.multipathDestinations.Filed id path other) ∨
    ∃ path, s.multipathReverse.get? id = some (other, path)

variable {now source id leg path : Nat}

theorem acceptUpstreamSingle_sameLinks {sequence : Nat}
    (accepted : s.acceptUpstreamSingle circuitId sequence fin data now = .ok (result, s')) :
    SameLinks s s' := by
  cases acceptUpstreamSingle_cases accepted with
  | refused => exact .refl _
  | duplicate => exact .refl _
  | beyond _ held => exact putCircuit_sameLinks (Option.isSome_of_eq_some held) _
  | taken held =>
    exact (putCircuit_sameLinks (Option.isSome_of_eq_some held) _).trans (persistCircuit_still _).links

theorem acceptReleased_sameLinks
    (accepted : acceptReleased circuitId source now s released = .ok (answer, s')) : SameLinks s s' := by
  induction released generalizing s answer with
  | nil =>
    cases accepted
    exact .refl _
  | cons frame rest ih =>
    obtain ⟨sequence, data⟩ := frame
    obtain ⟨result, s₁, single, next⟩ := acceptReleased_cons accepted
    have recalled : SameLinks s (s.takeMetadata source sequence).2 := .of_eq rfl rfl rfl
    have first := recalled.trans (acceptUpstreamSingle_sameLinks single)
    rcases next with ⟨e, rfl, rfl, rfl⟩ | ⟨new, later, frame, rfl, released, rfl, -⟩
    · exact first
    · exact first.trans (ih released)

theorem acceptUpstreamFrames_sameLinks
    (accepted : s.acceptUpstreamFrames arrival = .ok (answer, s')) : SameLinks s s' := by
  have remembered : ∀ (t : RelayService) source, SameLinks t (t.remember source arrival) :=
    fun _ _ => .of_eq rfl rfl rfl
  rcases acceptUpstreamFrames_cases accepted with
    ⟨-, result, single, -⟩ | ⟨m, received, m', -, -, ⟨-, -, rfl | rfl⟩ | ⟨released, -, rest⟩⟩
  · exact acceptUpstreamSingle_sameLinks single
  · exact putScheduler_sameLinks
  · exact putScheduler_sameLinks.trans (remembered _ _)
  · exact (putScheduler_sameLinks.trans (remembered _ _)).trans (acceptReleased_sameLinks rest)

theorem perform_sameLinks
    (still : relinks call = false) (performed : s.perform call = .ok (answer, s')) : SameLinks s s' := by
  by_cases data : ∃ arrival, call = .acceptUpstreamFrames arrival
  · obtain ⟨arrival, rfl⟩ := data
    obtain ⟨first, accepted, -⟩ := map_answer_ok performed
    exact acceptUpstreamFrames_sameLinks accepted
  · exact (perform_still still (fun arrival here => data ⟨arrival, here⟩) performed).links

/-! ### Legs and wire ids -/

/-- The way back from a leg is the way to it, under a circuit with a scheduler; a wire id resolves to the
circuit that has it. -/
structure Coherent (s : RelayService) : Prop where
  filed : ∀ {leg source path : Nat}, s.multipathReverse.get? leg = some (source, path) →
    s.multipathDestinations.Filed source path leg
  scheduled : ∀ {leg source path : Nat}, s.multipathReverse.get? leg = some (source, path) → s.Scheduled source
  wires : ∀ {session id wire : Nat}, s.internalToWire.get? (toLex (session, id)) = some wire →
    s.wireToInternal.get? (toLex (session, wire)) = some id

/-- Legs and wire ids are as they were. -/
structure SameLegs (s s' : RelayService) : Prop where
  destinations : s'.multipathDestinations = s.multipathDestinations
  reverse : s'.multipathReverse = s.multipathReverse
  toInternal : s'.wireToInternal = s.wireToInternal
  toWire : s'.internalToWire = s.internalToWire
  scheduled : ∀ {id : Nat}, s.Scheduled id → s'.Scheduled id

/-- The maps that `SameLegs` is about. -/
def legTables (s : RelayService) : OrderedMap Nat (OrderedMap Nat Nat) × OrderedMap Nat (Nat × Nat) ×
    OrderedMap (Nat ×ₗ Nat) Nat × OrderedMap (Nat ×ₗ Nat) Nat × OrderedMap Nat MultipathScheduler :=
  (s.multipathDestinations, s.multipathReverse, s.wireToInternal, s.internalToWire, s.multipath)

theorem SameLegs.of_eq (same : s'.legTables = s.legTables) : SameLegs s s' := by
  simp only [legTables, Prod.mk.injEq] at same
  obtain ⟨destinations, reverse, toInternal, toWire, multipath⟩ := same
  exact ⟨destinations, reverse, toInternal, toWire, fun held => by rwa [Scheduled, multipath]⟩

theorem SameLinks.legs (same : SameLinks s s') : SameLegs s s' where
  destinations := congrArg Links.multipathDestinations same.links
  reverse := congrArg Links.multipathReverse same.links
  toInternal := congrArg Links.wireToInternal same.links
  toWire := congrArg Links.internalToWire same.links
  scheduled := same.scheduled

theorem SameLegs.trans (first : SameLegs s s') (second : SameLegs s' s'') : SameLegs s s'' where
  destinations := second.destinations.trans first.destinations
  reverse := second.reverse.trans first.reverse
  toInternal := second.toInternal.trans first.toInternal
  toWire := second.toWire.trans first.toWire
  scheduled held := second.scheduled (first.scheduled held)

theorem Coherent.legs (coherent : s.Coherent) (same : SameLegs s s') : s'.Coherent where
  filed back := by
    rw [same.destinations]
    exact coherent.filed (same.reverse ▸ back)
  scheduled back := same.scheduled (coherent.scheduled (same.reverse ▸ back))
  wires bound := by
    rw [same.toInternal]
    exact coherent.wires (same.toWire ▸ bound)

theorem bindWireCircuit_coherent (coherent : s.Coherent)
    (bound : s.bindWireCircuit session wire id = .ok s') : s'.Coherent := by
  obtain ⟨free, rfl⟩ := bindWireCircuit_ok bound
  refine ⟨coherent.filed, coherent.scheduled, fun {other circuit wire'} found => get?_insert_eq_some.mpr ?_⟩
  rcases get?_insert_eq_some.mp found with ⟨here, rfl⟩ | ⟨-, found⟩
  · cases here
    exact .inl ⟨rfl, rfl⟩
  · have held := coherent.wires found
    exact .inr ⟨ne_of_get?_eq_none free (get?_eq_some.mp held), held⟩

theorem unbindWire_coherent {session id : Nat} (coherent : s.Coherent) : (s.unbindWire session id).Coherent where
  filed := coherent.filed
  scheduled := coherent.scheduled
  wires {other circuit wire} found := by
    obtain ⟨differs, found⟩ := get?_erase_eq_some.mp found
    have held := get?_eq_some.mp (coherent.wires found)
    refine get?_eq_some.mpr (mem_filter.mpr ⟨held, ?_⟩)
    simp only [Bool.not_eq_true', Bool.and_eq_false_iff, beq_eq_false_iff_ne, ofLex_toLex]
    by_contra same
    push Not at same
    exact differs (by rw [same.1, same.2])

theorem unbind_reverse (found : (s.unbind id).multipathReverse.get? leg = some back) :
    s.multipathReverse.get? leg = some back ∧ leg ≠ id ∧
      ∀ path, ¬ s.multipathDestinations.Filed id path leg := by
  obtain ⟨differs, found⟩ := get?_erase_eq_some.mp found
  rw [get?_eraseAll] at found
  split at found
  · cases found
  next absent =>
  refine ⟨found, differs, fun path filed => absent ?_⟩
  exact List.mem_map.mpr ⟨(path, leg), filed_iff.mp filed, rfl⟩

theorem unbind_filed : (s.unbind id).multipathDestinations.Filed source path leg ↔
    (s.multipathDestinations.Filed source path leg ∧ source ≠ id) ∧ leg ≠ id := by
  rw [unbind, filed_retainFiled, filed_erase, decide_eq_true_eq]

theorem unbind_coherent (coherent : s.Coherent) : (s.unbind id).Coherent where
  filed {leg source path} back := by
    obtain ⟨back, differs, notLeg⟩ := unbind_reverse back
    have filed := coherent.filed back
    refine unbind_filed.mpr ⟨⟨filed, ?_⟩, differs⟩
    rintro rfl
    exact notLeg path filed
  scheduled {leg source path} back := by
    obtain ⟨held, -, notLeg⟩ := unbind_reverse back
    rw [Scheduled, unbind, get?_erase, if_neg]
    · exact coherent.scheduled held
    · rintro rfl
      exact notLeg path (coherent.filed held)
  wires {session circuit wire} found := by
    obtain ⟨held, differs⟩ := mem_filter.mp (get?_eq_some.mp found)
    have resolves := coherent.wires (get?_eq_some.mpr held)
    exact get?_eq_some.mpr (mem_filter.mpr ⟨get?_eq_some.mp resolves, differs⟩)

theorem unpair_sameLegs (id : Nat) : SameLegs s (s.unpair id) := by
  unfold unpair
  split
  · exact (SameLinks.refl s).legs
  · exact .of_eq rfl

theorem file_coherent (leg : Nat) (coherent : s.Coherent) (held : s.Scheduled source)
    (free : ∀ other, ¬ s.multipathDestinations.Filed source path other) :
    Coherent { s with
      multipathDestinations := s.multipathDestinations.file source path leg
      multipathReverse := s.multipathReverse.insert leg (source, path) } where
  filed {other source' path'} back := by
    rw [filed_file]
    rcases get?_insert_eq_some.mp back with ⟨here, same⟩ | ⟨-, back⟩
    · cases same
      exact .inl ⟨rfl, rfl, here⟩
    · have filed := coherent.filed back
      refine .inr ⟨filed, ?_⟩
      rintro ⟨rfl, rfl⟩
      exact free other filed
  scheduled {other source' path'} back := by
    rcases get?_insert_eq_some.mp back with ⟨-, same⟩ | ⟨-, back⟩
    · cases same
      exact held
    · exact coherent.scheduled back
  wires := coherent.wires

theorem unfile_coherent (coherent : s.Coherent) (back : s.multipathReverse.get? leg = some (source, path)) :
    Coherent { s with
      multipathDestinations := s.multipathDestinations.unfile source path
      multipathReverse := s.multipathReverse.erase leg } where
  filed {other source' path'} found := by
    obtain ⟨differs, found⟩ := get?_erase_eq_some.mp found
    have filed := coherent.filed found
    rw [filed_unfile]
    refine ⟨filed, ?_⟩
    rintro ⟨rfl, rfl⟩
    exact differs (mem_unique (filed_iff.mp filed) (filed_iff.mp (coherent.filed back)))
  scheduled found := coherent.scheduled (get?_erase_eq_some.mp found).2
  wires := coherent.wires

theorem not_filed_of_get? (free : (s.multipathDestinations.filedAt source).get? path = none) (leg : Nat) :
    ¬ s.multipathDestinations.Filed source path leg :=
  fun filed => get?_eq_none.mp free leg (filed_iff.mp filed)

theorem addMultipathDestination_coherent (leg weight : Nat) (coherent : s.Coherent)
    (free : ∀ other, ¬ s.multipathDestinations.Filed source path other) :
    (s.addMultipathDestination source leg path weight).2.Coherent := by
  unfold addMultipathDestination
  split
  · exact coherent
  next held =>
  dsimp only
  have filed := file_coherent leg coherent (by simpa [Scheduled, Option.isSome_iff_ne_none] using held) free
  have added := (addMultipathPath_still (s := { s with
    multipathDestinations := s.multipathDestinations.file source path leg
    multipathReverse := s.multipathReverse.insert leg (source, path) }) source path weight).links
  split
  · next result =>
    rw [result] at added
    refine unfile_coherent (filed.legs added.legs) ?_
    rw [added.legs.reverse]
    exact get?_insert_self
  · next result =>
    rw [result] at added
    exact (filed.legs added.legs).legs (failMultipathPath_still source _).links.legs

/-! ### All calls -/

theorem allocate_sameLegs {multipath : Bool} : SameLegs s (s.allocate id multipath) where
  destinations := rfl
  reverse := rfl
  toInternal := rfl
  toWire := rfl
  scheduled {other} held := by
    show ((if multipath then s.multipath.insert id newScheduler else s.multipath).get? other).isSome
    split
    · exact isSome_get?_insert.mpr (.inr held)
    · exact held

theorem enter_sameLegs : SameLegs s (s.enter id c ownerPeer destination) := .of_eq rfl

theorem pairReciprocal_sameLegs : SameLegs s (s.pairReciprocal id ownerPeer destination) := by
  unfold pairReciprocal
  split
  · exact (SameLinks.refl s).legs
  split
  · exact (SameLinks.refl s).legs
  · next partner _ =>
    have ready : SameLegs s ((s.pair id partner).markReady id partner) := .of_eq rfl
    exact ready.trans (addPrimaryPath_still id).links.legs

theorem openCircuit_sameLegs
    (opened : s.openCircuit request ownerPeer now = .ok (answer, s')) : SameLegs s s' := by
  rcases openCircuit_cases opened with ⟨e, rfl, rfl⟩ | ⟨result, c, lifetimeMs, byteQuota, multipath, rfl, -, -, rfl⟩
  · exact (SameLinks.refl s').legs
  · exact ((allocate_sameLegs.trans enter_sameLegs).trans
      (persistCircuit_still _).links.legs).trans pairReciprocal_sameLegs

theorem joinDestination_sameLegs (source leg : Nat) (c : Circuit) (session : Nat)
    (sourcePeer destinationPeer : Bytes) :
    SameLegs s (s.joinDestination source leg c session sourcePeer destinationPeer) := by
  have paired : SameLegs (s.allocate leg false)
      (s.pairDestination source leg c session sourcePeer destinationPeer) := .of_eq rfl
  exact (allocate_sameLegs.trans paired).trans (addPrimaryPath_still source).links.legs

theorem attachDestinationLeg_coherent (coherent : s.Coherent)
    (attached : s.attachDestinationLeg source session wire sourcePeer destinationPeer now = .ok (answer, s')) :
    s'.Coherent := by
  rcases attachDestinationLeg_cases attached with
    ⟨e, rfl, rfl⟩ | ⟨c, made, destination, lifetime, -, -, -, -, rest⟩
  · exact coherent
  have joined := coherent.legs
    (joinDestination_sameLegs source s.nextCircuitId destination session sourcePeer destinationPeer)
  rcases rest with ⟨e, rfl, rfl⟩ | ⟨s₂, bound, rfl, rfl⟩
  · exact joined.legs (.of_eq rfl)
  · exact (bindWireCircuit_coherent joined bound).legs
      ((persistCircuit_still source).links.trans (persistCircuit_still _).links).legs

theorem joinDownstream_sameLegs (source downstream : Nat) (c : Circuit) (session : Nat)
    (sourcePeer downstreamPeer : Bytes) :
    SameLegs s (s.joinDownstream source downstream c session sourcePeer downstreamPeer) := by
  have paired : SameLegs s (s.pairDownstream source downstream c session sourcePeer downstreamPeer) :=
    .of_eq rfl
  exact paired.trans (addPrimaryPath_still source).links.legs

theorem attachDownstreamLeg_coherent (coherent : s.Coherent) :
    (s.attachDownstreamLeg source downstream session wire sourcePeer downstreamPeer).2.Coherent := by
  rcases s.attachDownstreamLeg_cases source downstream session wire sourcePeer downstreamPeer with
    ⟨e, result⟩ | ⟨c, d, -, -, -, -, -, rest⟩
  · rw [result]
    exact coherent
  have joined := coherent.legs
    (joinDownstream_sameLegs source downstream (limitTo d c) session sourcePeer downstreamPeer)
  rcases rest with ⟨e, result⟩ | ⟨s₂, bound, result⟩
  · rw [result]
    exact joined.legs (.of_eq rfl)
  · rw [result]
    exact (bindWireCircuit_coherent joined bound).legs
      ((persistCircuit_still source).links.trans (persistCircuit_still downstream).links).legs

theorem attachAdditionalDownstreamLeg_coherent (source downstream session wire : Nat) (sourcePeer : Bytes)
    (pathId weight : Nat) (coherent : s.Coherent) :
    (s.attachAdditionalDownstreamLeg source downstream session wire sourcePeer pathId weight).2.Coherent := by
  rcases s.attachAdditionalDownstreamLeg_cases source downstream session wire sourcePeer pathId weight with
    ⟨e, result⟩ | ⟨c, d, -, -, free, -, -, rest⟩
  · rw [result]
    exact coherent
  have joined : (s.joinAlternate downstream (limitTo d c) session sourcePeer).Coherent :=
    coherent.legs (.of_eq rfl)
  rcases rest with ⟨e, result⟩ | ⟨s₂, s₃, bound, rest⟩
  · rw [result]
    exact joined.legs (.of_eq rfl)
  have still : s₂.multipathDestinations = s.multipathDestinations := by
    obtain ⟨-, rfl⟩ := bindWireCircuit_ok bound
    rfl
  have added := addMultipathDestination_coherent downstream weight
    (bindWireCircuit_coherent joined bound) (fun other => still ▸ not_filed_of_get? free other)
  rcases rest with ⟨e, filed, result⟩ | ⟨filed, result⟩
  · rw [filed] at added
    rw [result]
    refine unbindWire_coherent ?_
    exact added.legs (.of_eq rfl)
  · rw [filed] at added
    rw [result]
    exact added.legs ((persistCircuit_still source).links.trans (persistCircuit_still downstream).links).legs

theorem retireLeg_coherent (coherent : s.Coherent) : (retireLeg now s leg).Coherent := by
  have fenced : Coherent { s with replayFences := s.replayFences.insert leg (saturatingAdd now 10000) } :=
    coherent.legs (.of_eq rfl)
  unfold retireLeg
  dsimp only
  split
  · exact unbind_coherent fenced
  · exact unbind_coherent (fenced.legs (persist_still _).links.legs)

theorem closeCircuit_coherent {id now : Nat} (coherent : s.Coherent) : (s.closeCircuit id now).2.Coherent := by
  unfold closeCircuit
  split
  · exact coherent
  · refine Coherent.legs ?_ (unpair_sameLegs id)
    refine Run.invariant (fun _ leg => retireLeg_coherent) ?_
    exact coherent.legs (Still.foldl (fun s leg => changeCircuit_still (closeCircuit_receipt · now)) _ s).links.legs

theorem purgeClosedCircuit_coherent {now id : Nat} (coherent : s.Coherent) :
    (purgeClosedCircuit now s id).Coherent := by
  refine Coherent.legs ?_ (unpair_sameLegs id)
  have removed : ∀ t : RelayService, t.Coherent →
      Coherent { t.unbind id with circuits := t.circuits.erase id } :=
    fun t held => (unbind_coherent held).legs (.of_eq rfl)
  refine removed _ ?_
  split
  · exact coherent.legs (.of_eq rfl)
  · exact coherent.legs (.of_eq rfl)

theorem dropFence_coherent (id : Nat) (coherent : s.Coherent) : (dropFence s id).Coherent :=
  coherent.legs (.of_eq rfl)

theorem sweep_coherent (traversal : Traversal Nat) (coherent : s.Coherent) :
    (s.sweep now traversal).2.Coherent := by
  refine Run.invariant (fun _ id => purgeClosedCircuit_coherent) ?_
  refine Coherent.legs ?_ (sweepCircuits_still now _ ([], _)).links.legs
  exact Run.invariant (fun _ id => dropFence_coherent id) coherent

theorem coherent_of_empty (reverse : s.multipathReverse = .empty) (wires : s.internalToWire = .empty) :
    s.Coherent where
  filed back := absurd (get?_eq_some.mp (reverse ▸ back)) not_mem_empty
  scheduled back := absurd (get?_eq_some.mp (reverse ▸ back)) not_mem_empty
  wires bound := absurd (get?_eq_some.mp (wires ▸ bound)) not_mem_empty

theorem restoreRecord_sameLegs {record : RelayCircuitRecord} (turned : restoreRecord now s record = .ok s') :
    SameLegs s s' := by
  unfold restoreRecord at turned
  split at turned
  · cases turned
    exact .of_eq rfl
  split at turned
  · cases turned
    exact .of_eq rfl
  obtain ⟨c, -, turned⟩ := bind_ok.mp turned
  cases turned
  refine ⟨rfl, rfl, rfl, rfl, fun {id} held => ?_⟩
  show ((if record.multipathGranted then s.multipath.insert record.circuitId (.new 64)
    else s.multipath).get? id).isSome
  split
  · exact isSome_get?_insert.mpr (.inr held)
  · exact held

theorem restart_coherent {epoch : Nat} (restarted : s.restart epoch now traversal = .ok s') : s'.Coherent :=
  restart_invariant Coherent (coherent_of_empty rfl rfl)
    (fun _ coherent turned => coherent.legs (restoreRecord_sameLegs turned)) restarted

theorem perform_coherent (coherent : s.Coherent)
    (performed : s.perform call = .ok (answer, s')) : s'.Coherent := by
  cases still : relinks call with
  | false => exact coherent.legs (perform_sameLinks still performed).legs
  | true =>
    cases call with
    | openCircuit =>
      obtain ⟨first, opened, -⟩ := map_answer_ok performed
      exact coherent.legs (openCircuit_sameLegs opened)
    | recordCircuitOwner =>
      cases performed
      exact coherent.legs (.of_eq rfl)
    | bindWireCircuit =>
      rw [perform] at performed
      split at performed
      · cases performed
        exact coherent
      · next bound =>
        cases performed
        exact bindWireCircuit_coherent coherent bound
    | attachDestinationLeg =>
      obtain ⟨first, attached, -⟩ := map_answer_ok performed
      exact attachDestinationLeg_coherent coherent attached
    | attachDownstreamLeg =>
      cases performed
      exact attachDownstreamLeg_coherent coherent
    | attachAdditionalDownstreamLeg source downstream session wire sourcePeer pathId weight =>
      cases performed
      exact attachAdditionalDownstreamLeg_coherent source downstream session wire sourcePeer pathId weight coherent
    | closeCircuit =>
      cases performed
      exact closeCircuit_coherent coherent
    | sweep now traversal =>
      cases performed
      exact sweep_coherent traversal coherent
    | restart =>
      exact restart_coherent (perform_restart_ok performed)
    | _ => cases still

/-- After any calls, restarts included, legs and wire ids lead back to where they came from. -/
theorem coherent_throughout (calls : List RelayCall) : (calls.foldl step new).Coherent := by
  refine Run.invariant (fun s call coherent => ?_) (coherent_of_empty rfl rfl)
  unfold step
  split
  · next performed => exact perform_coherent coherent performed
  · exact coherent

end RelayService
end UniversalMesh.Daemon
