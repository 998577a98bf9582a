import UniversalMesh.Daemon.RelayAgreement

/-! Who gets relayed bytes. As long as the callers open circuits while there are ids left and attach legs
between circuits of the peers that these lead to, every frame that `forward_data_frame` hands out goes to the
owner of the circuit whose wire id it bears. An alternate leg of another peer breaks this: the frame bears its
id, and the peer of the primary leg gets it. -/
namespace UniversalMesh.Daemon
open MachineWord Wire Relay OrderedMap

variable {record : RelayCircuitRecord}

namespace RelayService

variable {s s' : RelayService}

/-! ### Circuits that enter -/

theorem Agreement.fresh (agreement : s.Agreement) (room : s.nextCircuitId < u64Max) :
    ¬ s.Mentioned s.nextCircuitId := by
  intro mentioned
  rcases agreement.allocated mentioned with below | none
  · exact Nat.lt_irrefl _ below
  · omega

theorem Agreement.unpaired_next (agreement : s.Agreement) (room : s.nextCircuitId < u64Max) :
    s.pairedCircuits.get? s.nextCircuitId = none := by
  rw [Option.eq_none_iff_forall_ne_some]
  intro other paired
  exact agreement.fresh room (.inr (.inr (.inr ⟨other, .inl (.inl paired)⟩)))

variable {id now source downstream leg path : Nat} {ownerPeer destinationPeer sourcePeer downstreamPeer : Bytes}
  {call : RelayCall}

theorem nextUnfenced_fresh (agreement : s.Agreement) (room : s.nextCircuitId < u64Max)
    (free : nextUnfenced s.replayFences (s.replayFences.size + 1) s.nextCircuitId = .ok id) :
    id = s.nextCircuitId := by
  have unfenced : ¬ (s.replayFences.get? s.nextCircuitId).isSome := fun fenced =>
    agreement.fresh room (.inr (.inr (.inl fenced)))
  rw [nextUnfenced, if_neg unfenced] at free
  exact (Except.ok.inj free).symm

theorem enterNext_agreement (agreement : s.Agreement) (room : s.nextCircuitId < u64Max) (multipath : Bool)
    (c : Circuit) (ownerPeer destination : Bytes) :
    ((s.allocate s.nextCircuitId multipath).enter s.nextCircuitId c ownerPeer destination).Agreement := by
  have fresh := agreement.fresh room
  have next : (s.allocate s.nextCircuitId multipath).nextCircuitId = s.nextCircuitId + 1 :=
    saturatingAdd_of_le room
  have counted : (s.allocate s.nextCircuitId multipath).Agreement := by
    exact agreement.keepLinks (agreement.coherent.legs allocate_sameLegs)
      (fun held => held) (by omega) rfl (fun led => led) (fun owned => owned) (fun _ owned => owned) rfl rfl rfl
  refine enter_agreement counted (.inl ?_) ?_ ?_ c ownerPeer destination
  · omega
  · exact fun peer owned => fresh (.inr (.inl ⟨peer, owned⟩))
  · exact fun other => ⟨fun linked => fresh (.inr (.inr (.inr ⟨other, .inl linked⟩))),
      fun linked => fresh (.inr (.inr (.inr ⟨other, .inr linked⟩)))⟩

theorem reciprocal_spec (found : s.reciprocal ownerPeer destination = some partner) :
    s.Owns destination partner ∧ s.pairedCircuits.get? partner = none ∧
      s.destinationHints.get? partner = some ownerPeer := by
  have member := List.mem_reverse.mp (List.mem_of_find?_eq_some found)
  have fits := List.find?_some found
  simp only [Bool.and_eq_true, Option.isNone_iff_eq_none, beq_iff_eq] at fits
  exact ⟨listed_iff.mpr member, fits⟩

section
variable (agreement : s.Agreement)
include agreement

theorem pairReciprocal_agreement (unpaired : s.pairedCircuits.get? id = none)
    (owned : s.Owns ownerPeer id) (led : s.destinationHints.get? id = some destination) :
    (s.pairReciprocal id ownerPeer destination).Agreement := by
  unfold pairReciprocal
  split
  · exact agreement
  split
  · exact agreement
  next partner found =>
  obtain ⟨owns, alone, back⟩ := reciprocal_spec found
  have paired : (s.pair id partner).Agreement := by
    refine pair_agreement agreement unpaired alone (agreement.allocated (.inr (.inl ⟨ownerPeer, owned⟩)))
      (agreement.allocated (.inr (.inl ⟨destination, owns⟩))) ?_ ?_
    · intro peer leads
      rw [led] at leads
      exact Option.some.inj leads ▸ owns
    · intro peer leads
      rw [back] at leads
      exact Option.some.inj leads ▸ owned
  have ready : SameLinks (s.pair id partner) ((s.pair id partner).markReady id partner) := .of_eq rfl rfl rfl
  exact (paired.sameLinks ready).sameLinks (addPrimaryPath_still id).links

section
variable (room : s.nextCircuitId < u64Max)
include room

theorem openCircuit_agreement (opened : s.openCircuit request ownerPeer now = .ok (answer, s')) : s'.Agreement := by
  rcases openCircuit_cases opened with
    ⟨e, rfl, rfl⟩ | ⟨result, c, lifetimeMs, byteQuota, multipath, rfl, free, -, rfl⟩
  · exact agreement
  rw [nextUnfenced_fresh agreement room free]
  have entered := enterNext_agreement agreement room multipath c ownerPeer request.destinationHint
  have same := (persistCircuit_still
    (s := (s.allocate s.nextCircuitId multipath).enter s.nextCircuitId c ownerPeer request.destinationHint)
    s.nextCircuitId).links
  refine pairReciprocal_agreement (entered.sameLinks same) ?_ ?_ ?_
  · rw [same.paired]
    exact agreement.unpaired_next room
  · rw [Owns, same.owners]
    exact listed_push.mpr (.inr ⟨rfl, rfl⟩)
  · rw [same.hints]
    exact get?_insert_self

theorem joinDestination_agreement (registered : s.Registered source) (unpaired : s.pairedCircuits.get? source = none)
    (owned : s.Owns sourcePeer source)
    (leads : ∀ peer, s.destinationHints.get? source = some peer → peer = destinationPeer) (c : Circuit)
    (session : Nat) :
    (s.joinDestination source s.nextCircuitId c session sourcePeer destinationPeer).Agreement := by
  have fresh := agreement.fresh room
  have differs : source ≠ s.nextCircuitId := by
    intro here
    exact fresh (here ▸ .inl registered)
  let entered := ((s.allocate s.nextCircuitId false).enter s.nextCircuitId c destinationPeer
    sourcePeer).recordCircuitOwner s.nextCircuitId session
  have agrees : entered.Agreement := recordCircuitOwner_agreement _ session
    (enterNext_agreement agreement room false c destinationPeer sourcePeer)
  have next : entered.nextCircuitId = s.nextCircuitId + 1 := saturatingAdd_of_le room
  have paired : (entered.pair source s.nextCircuitId).Agreement := by
    refine pair_agreement agrees unpaired (agreement.unpaired_next room)
      ((agreement.allocated (.inl registered)).mono (by omega)) (.inl (by omega)) ?_ ?_
    · intro peer led
      have before : s.destinationHints.get? source = some peer := by
        rwa [← get?_insert_of_ne differs]
      exact listed_push.mpr (.inr ⟨leads peer before, rfl⟩)
    · intro peer led
      cases get?_insert_self.symm.trans led
      exact listed_push.mpr (.inl owned)
  have ready : SameLinks (entered.pair source s.nextCircuitId)
      (s.pairDestination source s.nextCircuitId c session sourcePeer destinationPeer) := .of_eq rfl rfl rfl
  exact (paired.sameLinks ready).sameLinks (addPrimaryPath_still source).links

theorem leaveDestination_agreement (unpaired : s.pairedCircuits.get? source = none) :
    ((s.joinDestination source s.nextCircuitId c session sourcePeer destinationPeer).leaveDestination source
      s.nextCircuitId destinationPeer).Agreement := by
  have fresh := agreement.fresh room
  have coherent : ((s.joinDestination source s.nextCircuitId c session sourcePeer
      destinationPeer).leaveDestination source s.nextCircuitId destinationPeer).Coherent :=
    (agreement.coherent.legs (joinDestination_sameLegs source s.nextCircuitId c session sourcePeer
      destinationPeer)).legs (.of_eq rfl)
  have pairs : (((s.pairedCircuits.insert source s.nextCircuitId).insert s.nextCircuitId source).erase
      source).erase s.nextCircuitId = s.pairedCircuits :=
    erase_erase_insert_insert unpaired (agreement.unpaired_next room)
  rw [joinDestination, addPrimaryPath, changeScheduler_eq] at coherent ⊢
  refine agreement.keepLinks coherent ?_ ?_ rfl ?_ ?_ ?_ pairs rfl rfl
  · intro id held
    obtain ⟨differs, inside⟩ := isSome_get?_erase.mp held
    exact (isSome_get?_insert.mp inside).resolve_left differs
  · show s.nextCircuitId ≤ saturatingAdd s.nextCircuitId 1
    rw [saturatingAdd_of_le room]
    exact Nat.le_succ _
  · intro id peer led
    obtain ⟨differs, before⟩ := get?_erase_eq_some.mp led
    exact (get?_insert_of_ne differs).symm.trans before
  · intro peer id owned
    obtain ⟨pushed, dropped⟩ := listed_retainAt.mp owned
    rcases listed_push.mp pushed with before | ⟨here, rfl⟩
    · exact before
    · simp [here] at dropped
  · intro peer id _ owned
    refine listed_retainAt.mpr ⟨listed_push.mpr (.inl owned), fun _ => ?_⟩
    rw [decide_eq_true_eq]
    rintro rfl
    exact fresh (.inr (.inl ⟨peer, owned⟩))

theorem attachDestinationLeg_agreement (owned : s.Owns sourcePeer source)
    (leads : ∀ peer, s.destinationHints.get? source = some peer → peer = destinationPeer)
    (attached : s.attachDestinationLeg source session wire sourcePeer destinationPeer now = .ok (answer, s')) :
    s'.Agreement := by
  rcases attachDestinationLeg_cases attached with
    ⟨e, rfl, rfl⟩ | ⟨c, made, destination, lifetime, unpaired, held, -, -, rest⟩
  · exact agreement
  rcases rest with ⟨e, rfl, rfl⟩ | ⟨s₂, bound, rfl, rfl⟩
  · exact leaveDestination_agreement agreement room unpaired
  · have joined := joinDestination_agreement agreement room (Option.isSome_of_eq_some held) unpaired owned leads
      destination session
    exact ((bindWireCircuit_agreement joined bound).sameLinks (persistCircuit_still source).links).sameLinks
      (persistCircuit_still _).links

end

/-! ### Circuits that become legs -/

theorem joinDownstream_agreement (differ : source ≠ downstream)
    (served : s.Registered source) (held : s.Registered downstream)
    (unpaired : s.pairedCircuits.get? source = none) (alone : s.pairedCircuits.get? downstream = none)
    (owned : s.Owns sourcePeer source) (owns : s.Owns downstreamPeer downstream)
    (forth : s.LeadsTo source downstreamPeer) (back : s.LeadsTo downstream sourcePeer) (c : Circuit)
    (session : Nat) : (s.joinDownstream source downstream c session sourcePeer downstreamPeer).Agreement := by
  have led : ((s.lead source downstreamPeer).lead downstream sourcePeer).Agreement :=
    lead_agreement (lead_agreement agreement forth) back
  have limited := putCircuit_agreement (recordCircuitOwner_agreement downstream session led) held c
  have paired := pair_agreement limited unpaired alone (agreement.allocated (.inl served))
    (agreement.allocated (.inl held)) ?_ ?_
  · exact paired.sameLinks (addPrimaryPath_still source).links
  · intro peer named
    cases (get?_insert_self.symm.trans (get?_insert_of_ne differ).symm).trans named
    exact owns
  · intro peer named
    cases get?_insert_self.symm.trans named
    exact owned

end

theorem listed_dropIfEmpty : (dropIfEmpty index peer).Listed other id ↔ index.Listed other id := by
  unfold dropIfEmpty
  split
  · next empty => exact listed_erase_of_empty empty
  · exact Iff.rfl

/-- The leg leaves the registry, and the other circuit leads where it led before. -/
theorem leaveDownstream_agreement (agreement : s.Agreement) (unpaired : s.pairedCircuits.get? source = none)
    (alone : s.pairedCircuits.get? downstream = none) (led : (s.destinationHints.get? source).isSome)
    (c : Circuit) (session : Nat) :
    ((s.joinDownstream source downstream c session sourcePeer downstreamPeer).leaveDownstream source downstream
      ((s.destinationHints.get? source).getD []) downstreamPeer).Agreement := by
  have coherent : ((s.joinDownstream source downstream c session sourcePeer downstreamPeer).leaveDownstream source
      downstream ((s.destinationHints.get? source).getD []) downstreamPeer).Coherent :=
    (agreement.coherent.legs (joinDownstream_sameLegs source downstream c session sourcePeer downstreamPeer)).legs
      (.of_eq rfl)
  have pairs : (((s.pairedCircuits.insert source downstream).insert downstream source).erase source).erase
      downstream = s.pairedCircuits := erase_erase_insert_insert unpaired alone
  obtain ⟨prior, hint⟩ := Option.isSome_iff_exists.mp led
  rw [joinDownstream, addPrimaryPath, changeScheduler_eq] at coherent ⊢
  have owners : ∀ {peer : Bytes} {id : Nat}, (dropIfEmpty (s.circuitsByOwner.retainAt downstreamPeer
      (· ≠ downstream)) downstreamPeer).Listed peer id ↔
        s.Owns peer id ∧ (peer = downstreamPeer → id ≠ downstream) := by
    intro peer id
    rw [listed_dropIfEmpty, listed_retainAt, decide_eq_true_eq]
    rfl
  have registered : ∀ {id : Nat}, (((s.circuits.insert downstream c).erase downstream).get? id).isSome →
      s.Registered id ∧ id ≠ downstream := by
    intro id inside
    obtain ⟨differs, inside⟩ := isSome_get?_erase.mp inside
    exact ⟨(isSome_get?_insert.mp inside).resolve_left differs, differs⟩
  refine agreement.keepLinks coherent (fun held => (registered held).1) (Nat.le_refl _) rfl ?_
    (fun owned => (owners.mp owned).1) (fun held owned => owners.mpr ⟨owned, fun _ => (registered held).2⟩)
    pairs rfl rfl
  intro id peer leads
  obtain ⟨notLeg, leads⟩ := get?_erase_eq_some.mp leads
  rcases get?_insert_eq_some.mp leads with ⟨rfl, rfl⟩ | ⟨differs, before⟩
  · rw [hint]
    rfl
  · have before : ((s.destinationHints.insert source downstreamPeer).insert downstream sourcePeer).get? id =
      some peer := before
    rwa [get?_insert_of_ne notLeg, get?_insert_of_ne differs] at before

theorem attachDownstreamLeg_agreement (agreement : s.Agreement) (owned : s.Owns sourcePeer source)
    (owns : s.Owns downstreamPeer downstream) (forth : s.LeadsTo source downstreamPeer)
    (back : s.LeadsTo downstream sourcePeer) (led : (s.destinationHints.get? source).isSome) :
    (s.attachDownstreamLeg source downstream session wire sourcePeer downstreamPeer).2.Agreement := by
  rcases s.attachDownstreamLeg_cases source downstream session wire sourcePeer downstreamPeer with
    ⟨e, result⟩ | ⟨c, d, differ, unpaired, alone, served, held, rest⟩
  · rw [result]
    exact agreement
  rcases rest with ⟨e, result⟩ | ⟨s₂, bound, result⟩
  · rw [result]
    exact leaveDownstream_agreement agreement unpaired alone led _ session
  · have joined := joinDownstream_agreement agreement differ (Option.isSome_of_eq_some served)
      (Option.isSome_of_eq_some held) unpaired alone owned owns forth back (limitTo d c) session
    rw [result]
    exact ((bindWireCircuit_agreement joined bound).sameLinks (persistCircuit_still source).links).sameLinks
      (persistCircuit_still downstream).links

theorem leaveAlternate_agreement (leg : Nat) (agreement : s.Agreement) : (s.leaveAlternate leg).Agreement :=
  agreement.shrink
    { agreement.shrinks with hints := fun led => (get?_erase_eq_some.mp led).2 }
    (agreement.coherent.legs (.of_eq rfl))

theorem unbindWire_agreement (session id : Nat) (agreement : s.Agreement) :
    (s.unbindWire session id).Agreement :=
  agreement.same (unbindWire_coherent agreement.coherent) (fun held => held)
    rfl rfl rfl rfl rfl rfl rfl

theorem unfile_agreement (agreement : s.Agreement) (back : s.multipathReverse.get? leg = some (source, path)) :
    Agreement { s with
      multipathDestinations := s.multipathDestinations.unfile source path
      multipathReverse := s.multipathReverse.erase leg } := by
  refine agreement.shrink { agreement.shrinks with linked := ?_, kept := fun _ _ owned => owned }
    (unfile_coherent agreement.coherent back)
  rintro id other (paired | ⟨place, filed⟩ | ⟨place, way⟩)
  · exact .inl paired
  · exact .inr (.inl ⟨place, (filed_unfile.mp filed).1⟩)
  · exact .inr (.inr ⟨place, (get?_erase_eq_some.mp way).2⟩)

theorem addMultipathDestination_agreement (weight : Nat) (agreement : s.Agreement)
    (free : ∀ other, ¬ s.multipathDestinations.Filed source path other) (known : s.Allocated source)
    (given : s.Allocated leg) (forth : ∀ peer, s.destinationHints.get? source = some peer → s.Owns peer leg)
    (back : ∀ peer, s.destinationHints.get? leg = some peer → s.Owns peer source) :
    (s.addMultipathDestination source leg path weight).2.Agreement := by
  unfold addMultipathDestination
  split
  · exact agreement
  next scheduled =>
  dsimp only
  have filed := file_agreement agreement (by simpa [Scheduled, Option.isSome_iff_ne_none] using scheduled) free
    known given forth back
  have added := (addMultipathPath_still (s := { s with
    multipathDestinations := s.multipathDestinations.file source path leg
    multipathReverse := s.multipathReverse.insert leg (source, path) }) source path weight).links
  split
  · next result =>
    rw [result] at added
    refine unfile_agreement (filed.sameLinks added) ?_
    rw [added.legs.reverse]
    exact get?_insert_self
  · next result =>
    rw [result] at added
    exact (filed.sameLinks added).sameLinks (failMultipathPath_still source _).links

theorem attachAdditionalDownstreamLeg_agreement (session wire pathId weight : Nat) (agreement : s.Agreement)
    (owned : s.Owns sourcePeer source)
    (forth : ∀ peer, s.destinationHints.get? source = some peer → s.Owns peer downstream)
    (back : s.LeadsTo downstream sourcePeer) :
    (s.attachAdditionalDownstreamLeg source downstream session wire sourcePeer pathId weight).2.Agreement := by
  rcases s.attachAdditionalDownstreamLeg_cases source downstream session wire sourcePeer pathId weight with
    ⟨e, result⟩ | ⟨c, d, differ, scheduled, free, served, held, rest⟩
  · rw [result]
    exact agreement
  have registered : s.Registered downstream := Option.isSome_of_eq_some held
  have known := agreement.allocated (.inl (Option.isSome_of_eq_some served))
  have joined : (s.joinAlternate downstream (limitTo d c) session sourcePeer).Agreement :=
    putCircuit_agreement (recordCircuitOwner_agreement downstream session (lead_agreement agreement back))
      registered _
  rcases rest with ⟨e, result⟩ | ⟨s₂, s₃, bound, rest⟩
  · rw [result]
    exact leaveAlternate_agreement downstream joined
  have agrees := bindWireCircuit_agreement joined bound
  obtain ⟨-, rfl⟩ := bindWireCircuit_ok bound
  have added := addMultipathDestination_agreement weight agrees (not_filed_of_get? free) known
    (agreement.allocated (.inl registered)) ?_ ?_
  · rcases rest with ⟨e, filed, result⟩ | ⟨filed, result⟩
    · rw [filed] at added
      rw [result]
      exact unbindWire_agreement session downstream (leaveAlternate_agreement downstream added)
    · rw [filed] at added
      rw [result]
      exact (added.sameLinks (persistCircuit_still source).links).sameLinks (persistCircuit_still downstream).links
  · intro peer named
    exact forth peer ((get?_insert_of_ne differ).symm.trans named)
  · intro peer named
    cases get?_insert_self.symm.trans named
    exact owned

/-! ### Restarts -/

/-- Every record stands under the id of its circuit. -/
def Keyed (latest : OrderedMap Nat RelayCircuitRecord) : Prop := ∀ entry ∈ latest, entry.2.circuitId = entry.1

theorem keepNewest_keys (keyed : Keyed latest) : Keyed (RelayStore.keepNewest latest record) := by
  have inserted : Keyed (latest.insert record.circuitId record) := forall_mem_insert rfl keyed
  unfold RelayStore.keepNewest
  split
  · split
    · exact inserted
    · exact keyed
  · exact inserted

theorem latest_keys {store : RelayStore} : Keyed store.latest :=
  Run.invariant (fun _ _ => keepNewest_keys) fun _ held => absurd held not_mem_empty

theorem leases_nodup (s : RelayService) : (s.leases.map RelayCircuitRecord.circuitId).Nodup := by
  have keys : s.leases.map RelayCircuitRecord.circuitId =
      ((s.persistence.map RelayStore.latest).getD .empty).entries.map Prod.fst := by
    rw [leases, List.map_map]
    refine List.map_congr_left fun entry member => ?_
    cases store : s.persistence with
    | none =>
      rw [store] at member
      exact absurd member not_mem_empty
    | some records =>
      rw [store] at member
      exact latest_keys entry member
  rw [keys]
  exact keys_nodup _

theorem fenceRecord_agreement (record : RelayCircuitRecord) (agreement : s.Agreement) :
    (s.fence record).Agreement ∧ (s.fence record).Allocated record.circuitId := by
  have known : (s.fence record).Allocated record.circuitId := by
    show _ < max _ _ ∨ _ ≤ max _ _
    unfold saturatingAdd
    omega
  refine ⟨agreement.shrink { agreement.shrinks with next := Nat.le_max_left _ _, fenced := fun {id} fenced => ?_ }
    (agreement.coherent.legs (.of_eq rfl)), known⟩
  rcases isSome_get?_insert.mp fenced with rfl | fenced
  · exact known
  · exact (agreement.fenced fenced).mono (Nat.le_max_left _ _)

theorem unlinked_of_empty (paired : s.pairedCircuits = .empty) (destinations : s.multipathDestinations = .empty)
    (reverse : s.multipathReverse = .empty) (id other : Nat) : ¬ s.Linked id other := by
  rintro (pairs | ⟨path, filed⟩ | ⟨path, back⟩)
  · exact not_mem_empty (get?_eq_some.mp (paired ▸ pairs))
  · exact not_filed_empty (destinations ▸ filed)
  · exact not_mem_empty (get?_eq_some.mp (reverse ▸ back))

theorem agreement_of_empty (circuits : s.circuits = .empty) (fences : s.replayFences = .empty)
    (owners : s.circuitsByOwner = .empty) (wires : s.internalToWire = .empty) (paired : s.pairedCircuits = .empty)
    (destinations : s.multipathDestinations = .empty) (reverse : s.multipathReverse = .empty) :
    s.Agreement := by
  have apart := unlinked_of_empty paired destinations reverse
  have unowned : ∀ peer id, ¬ s.Owns peer id := by
    intro peer id owned
    rw [Owns, owners] at owned
    exact not_listed_empty owned
  refine ⟨coherent_of_empty reverse wires, ?_, ?_, ?_, ?_⟩
  · rintro id (held | ⟨peer, owned⟩ | fenced | ⟨other, linked | linked⟩)
    · rw [Registered, circuits] at held
      cases held
    · exact absurd owned (unowned peer id)
    · rw [fences] at fenced
      cases fenced
    · exact absurd linked (apart _ _)
    · exact absurd linked (apart _ _)
  · exact fun owned _ => absurd owned (unowned _ _)
  · exact fun pairs => absurd (.inl pairs) (apart _ _)
  · exact fun _ _ linked => absurd linked (apart _ _)

theorem restoreRecord_agreement (agreement : s.Agreement) (apart : ∀ id other, ¬ s.Linked id other)
    (unowned : ∀ peer, ¬ s.Owns peer record.circuitId) (turned : restoreRecord now s record = .ok s') :
    s'.Agreement ∧ (∀ id other, ¬ s'.Linked id other) ∧
      ∀ {peer : Bytes} {id : Nat}, s'.Owns peer id → s.Owns peer id ∨ id = record.circuitId := by
  unfold restoreRecord at turned
  split at turned
  · cases turned
    exact ⟨agreement.sameLinks (.of_eq rfl rfl rfl), apart, .inl⟩
  obtain ⟨fenced, known⟩ := fenceRecord_agreement record agreement
  split at turned
  · cases turned
    exact ⟨fenced, apart, .inl⟩
  obtain ⟨c, -, turned⟩ := bind_ok.mp turned
  cases turned
  let multipath := if record.multipathGranted then (s.fence record).multipath.insert record.circuitId (.new 64)
    else (s.fence record).multipath
  have granted : Agreement { s.fence record with multipath } := by
    refine fenced.same ⟨fun back => ?_, fun back => ?_, agreement.coherent.wires⟩ (fun held => held)
      rfl rfl rfl rfl rfl rfl rfl
    · exact absurd (.inr (.inr ⟨_, back⟩)) (apart _ _)
    · exact absurd (.inr (.inr ⟨_, back⟩)) (apart _ _)
  refine ⟨enter_agreement granted known unowned (fun other => ⟨apart _ _, apart _ _⟩) _ _ _, apart, ?_⟩
  intro peer id owned
  exact (listed_push.mp owned).imp_right And.right

theorem restart_agreement {epoch : Nat} (restarted : s.restart epoch now traversal = .ok s') :
    s'.Agreement := by
  have distinct := ((traversal.perm s.leases).map RelayCircuitRecord.circuitId).nodup_iff.mpr s.leases_nodup
  refine (restart_loop (fun records t => (records.map RelayCircuitRecord.circuitId).Nodup ∧ t.Agreement ∧
    (∀ id other, ¬ t.Linked id other) ∧ ∀ record ∈ records, ∀ peer, ¬ t.Owns peer record.circuitId)
    ⟨distinct, agreement_of_empty rfl rfl rfl rfl rfl rfl rfl, unlinked_of_empty rfl rfl rfl,
      fun _ _ _ owned => not_listed_empty owned⟩ ?_ restarted).2.1
  rintro record rest t t' ⟨distinct, agreement, apart, unowned⟩ turned
  obtain ⟨fresh, others⟩ := List.nodup_cons.mp distinct
  obtain ⟨next, still, owned⟩ := restoreRecord_agreement agreement apart (unowned record List.mem_cons_self) turned
  refine ⟨others, next, still, fun later member peer owns => ?_⟩
  rcases owned owns with before | same
  · exact unowned later (List.mem_cons_of_mem _ member) peer before
  · exact fresh (same ▸ List.mem_map_of_mem member)

/-! ### Where frames leave -/

theorem SameLinks.outwardId (same : SameLinks s s') (id : Nat) : s'.outwardId id = s.outwardId id := by
  have sessions : s'.circuitOwners = s.circuitOwners := congrArg Links.circuitOwners same.links
  rw [RelayService.outwardId, RelayService.outwardId, sessions]
  unfold wireCircuitId
  rw [same.legs.toWire]

theorem choosePath_linked (chosen : (s.choosePath id).1 = some path)
    (filed : s.multipathDestinations.Filed (s.logicalSource id) path leg) : s.Linked id leg := by
  unfold choosePath at chosen
  split at chosen
  · cases chosen
  next noLeg =>
  have own : s.logicalSource id = id := by
    rw [logicalSource, Option.not_isSome_iff_eq_none.mp noLeg]
  exact .inr (.inl ⟨path, own ▸ filed⟩)

theorem primaryCircuit_linked (primary : s.primaryCircuit id = some other) : s.Linked id other := by
  unfold primaryCircuit at primary
  cases back : s.multipathReverse.get? id with
  | none =>
    have own : s.logicalSource id = id := by rw [logicalSource, back]
    rw [back, Option.isSome_none, if_neg Bool.false_ne_true, own] at primary
    exact .inl primary
  | some pair =>
    obtain ⟨source, path⟩ := pair
    have own : s.logicalSource id = source := by rw [logicalSource, back]
    rw [back, Option.isSome_some, if_pos rfl, own] at primary
    exact .inr (.inr ⟨path, Option.some.inj primary ▸ back⟩)

/-- A frame that is handed out left on a circuit linked to the one it came on, under the id of that circuit, to
the peer that the one it came on leads to. -/
theorem forwardDataFrame_leaves (sent : s.forwardDataFrame upstream = (.ok (peer, bytes), s')) :
    ∃ leaving frame, s.Linked upstream.circuitId leaving ∧ s.Registered leaving ∧
      s.destinationHints.get? upstream.circuitId = some peer ∧
      frame.circuitId = s.outwardId leaving ∧ RelayDataFrame.encode frame = .ok bytes := by
  have same : SameLinks s s' := by
    have all := (forwardDataFrame_still (s := s) upstream).links
    rwa [sent] at all
  have chosen := (choosePath_still (s := s) upstream.circuitId).links
  rcases s.forwardDataFrame_cases with
    ⟨e, result⟩ | ⟨e, result⟩ | ⟨leaving, c, found, rest⟩
  · rw [sent] at result
    cases result
  · rw [sent] at result
    cases result
  rcases rest with ⟨e, result⟩ | ⟨s₂, recorded, ⟨e, result⟩ | ⟨peer', bytes', frame, led, id, encoded, result⟩⟩
  · rw [sent] at result
    cases result
  · rw [sent] at result
    cases result
  rw [sent] at result
  cases result
  obtain ⟨held, way⟩ := destinationCircuit_ok found
  refine ⟨leaving, frame, ?_, chosen.registered (Option.isSome_of_eq_some held), led, ?_, encoded⟩
  · rcases way with ⟨path, selected, filed⟩ | primary
    · exact choosePath_linked selected (chosen.legs.destinations ▸ filed)
    · exact primaryCircuit_linked primary
  · rw [id, same.outwardId]

/-! ### Runs -/

/-- A peer, and bytes under the wire id that a circuit of that peer alone has on the session recorded for it. -/
def HandsToOwner (s : RelayService) (call : RelayCall) : Prop :=
  ∀ upstream, call = .forwardDataFrame upstream →
    ∀ peer bytes s', s.forwardDataFrame upstream = (.ok (peer, bytes), s') →
      ∃ id session frame, SelfDelimiting .relayData RelayDataFrame.decode frame bytes ∧
        s.Owns peer id ∧ (∀ other, s.Owns other id → other = peer) ∧
        s.circuitOwners.get? id = some session ∧
        s.internalToWire.get? (toLex (session, id)) = some frame.circuitId ∧
        s.wireToInternal.get? (toLex (session, frame.circuitId)) = some id

def Bound (s : RelayService) (id : Nat) : Prop :=
  ∃ session ∈ s.circuitOwners.get? id, (s.internalToWire.get? (toLex (session, id))).isSome
  deriving Decidable

/-- What the callers keep: there are ids left; a leg is attached under the peers that own the circuits; a
circuit that gets a new link or leads to a new peer leads to the owner of what it is linked to; and what a frame
can leave on has a session and a wire id. -/
def KeepsOwners (s : RelayService) : RelayCall → Prop
  | .openCircuit _ _ _ => s.nextCircuitId < u64Max
  | .attachDestinationLeg source _ _ sourcePeer destinationPeer _ =>
    s.nextCircuitId < u64Max ∧ s.Owns sourcePeer source ∧
      ∀ peer ∈ s.destinationHints.get? source, peer = destinationPeer
  | .attachDownstreamLeg source downstream _ _ sourcePeer downstreamPeer =>
    s.Owns sourcePeer source ∧ s.Owns downstreamPeer downstream ∧ s.LeadsTo source downstreamPeer ∧
      s.LeadsTo downstream sourcePeer ∧ (s.destinationHints.get? source).isSome
  | .attachAdditionalDownstreamLeg source downstream _ _ sourcePeer _ _ =>
    s.Owns sourcePeer source ∧ (∀ peer ∈ s.destinationHints.get? source, s.Owns peer downstream) ∧
      s.LeadsTo downstream sourcePeer
  | .forwardDataFrame upstream => ∀ id, s.Linked upstream.circuitId id → s.Registered id → s.Bound id
  | _ => True

theorem handsToOwner (agreement : s.Agreement) (keeps : s.KeepsOwners call) : s.HandsToOwner call := by
  rintro upstream rfl peer bytes s' sent
  obtain ⟨id, frame, linked, registered, led, outward, encoded⟩ := forwardDataFrame_leaves sent
  obtain ⟨session, recorded, named⟩ := keeps id linked registered
  obtain ⟨wire, bound⟩ := Option.isSome_iff_exists.mp named
  have owned := agreement.leads led id linked registered
  have same : frame.circuitId = wire := by
    rw [outward, outwardId, recorded]
    dsimp only
    rw [wireCircuitId, bound]
    rfl
  refine ⟨id, session, frame, RelayDataFrame.round_trip encoded, owned,
    fun other owns => agreement.once owns owned, recorded, ?_, ?_⟩
  · rw [same]
    exact bound
  · rw [same]
    exact agreement.coherent.wires bound

/-- Calls that keep the owners keep the agreement. -/
theorem perform_agreement (agreement : s.Agreement)
    (keeps : s.KeepsOwners call) (performed : s.perform call = .ok (answer, s')) : s'.Agreement := by
  cases still : relinks call with
  | false => exact agreement.sameLinks (perform_sameLinks still performed)
  | true =>
    cases call with
    | openCircuit =>
      obtain ⟨first, opened, -⟩ := map_answer_ok performed
      exact openCircuit_agreement agreement keeps opened
    | recordCircuitOwner circuitId sessionId =>
      cases performed
      exact recordCircuitOwner_agreement circuitId sessionId agreement
    | bindWireCircuit =>
      rw [perform] at performed
      split at performed
      · cases performed
        exact agreement
      · next bound =>
        cases performed
        exact bindWireCircuit_agreement agreement bound
    | attachDestinationLeg =>
      obtain ⟨first, attached, -⟩ := map_answer_ok performed
      obtain ⟨room, owned, leads⟩ := keeps
      exact attachDestinationLeg_agreement agreement room owned leads attached
    | attachDownstreamLeg =>
      cases performed
      obtain ⟨owned, owns, forth, back, led⟩ := keeps
      exact attachDownstreamLeg_agreement agreement owned owns forth back led
    | attachAdditionalDownstreamLeg source downstream session wire sourcePeer pathId weight =>
      cases performed
      obtain ⟨owned, forth, back⟩ := keeps
      exact attachAdditionalDownstreamLeg_agreement session wire pathId weight agreement owned forth back
    | closeCircuit =>
      cases performed
      exact closeCircuit_agreement agreement
    | sweep now traversal =>
      cases performed
      exact sweep_agreement now traversal agreement
    | restart => exact restart_agreement (perform_restart_ok performed)
    | _ => cases still

theorem step_agreement (agreement : s.Agreement) (keeps : s.KeepsOwners call) : (s.step call).Agreement := by
  unfold step
  cases performed : s.perform call with
  | error halt => exact agreement
  | ok result => exact perform_agreement agreement keeps performed

/-- In every run in which the callers attach legs only between circuits of the peers that these lead to, frames
are handed to the owner of the circuit whose id they bear. -/
theorem hands_to_owner (calls : List RelayCall) (keeps : Run.Meets KeepsOwners step new calls) :
    Run.Meets HandsToOwner step new calls := by
  have initial : Agreement new := agreement_of_empty rfl rfl rfl rfl rfl rfl rfl
  exact Run.meets_of_invariant (fun _ _ => step_agreement) (fun _ _ => handsToOwner) initial keeps

/-- The circuits that a circuit is linked to. -/
def neighbours (s : RelayService) (id : Nat) : List Nat :=
  (s.pairedCircuits.get? id).toList ++ (s.multipathDestinations.filedAt id).entries.map Prod.snd ++
    ((s.multipathReverse.get? id).map Prod.fst).toList

theorem linked_iff : s.Linked id other ↔ other ∈ s.neighbours id := by
  rw [neighbours, List.mem_append, List.mem_append, Option.mem_toList, Option.mem_toList, List.mem_map, Linked,
    or_assoc]
  refine or_congr Iff.rfl (or_congr ?_ ?_)
  · constructor
    · rintro ⟨path, filed⟩
      exact ⟨(path, other), filed_iff.mp filed, rfl⟩
    · rintro ⟨⟨path, _⟩, listed, rfl⟩
      exact ⟨path, filed_iff.mpr listed⟩
  · constructor
    · rintro ⟨path, back⟩
      exact Option.map_eq_some_iff.mpr ⟨_, back, rfl⟩
    · intro mapped
      obtain ⟨⟨_, path⟩, back, rfl⟩ := Option.map_eq_some_iff.mp mapped
      exact ⟨path, back⟩

theorem forall_linked_iff (holds : Nat → Prop) :
    (∀ other ∈ s.neighbours id, s.Registered other → holds other) ↔
      ∀ other, s.Linked id other → s.Registered other → holds other :=
  forall_congr' fun _ => imp_congr linked_iff.symm Iff.rfl

instance (s : RelayService) (id : Nat) : Decidable (s.Registered id) :=
  inferInstanceAs (Decidable ((s.circuits.get? id).isSome = true))

instance (s : RelayService) (id : Nat) (peer : Bytes) : Decidable (s.LeadsTo id peer) :=
  decidable_of_iff _ (forall_linked_iff (s.Owns peer))

instance (s : RelayService) (call : RelayCall) : Decidable (s.KeepsOwners call) :=
  match call with
  | .openCircuit _ _ _ => inferInstanceAs (Decidable (_ < _))
  | .attachDestinationLeg source _ _ _ _ _ =>
    inferInstanceAs (Decidable (_ ∧ _ ∧ ∀ peer ∈ s.destinationHints.get? source, _))
  | .attachDownstreamLeg _ _ _ _ _ _ => inferInstanceAs (Decidable (_ ∧ _ ∧ _ ∧ _ ∧ _))
  | .attachAdditionalDownstreamLeg source _ _ _ _ _ _ =>
    inferInstanceAs (Decidable (_ ∧ (∀ peer ∈ s.destinationHints.get? source, _) ∧ _))
  | .forwardDataFrame _ => decidable_of_iff _ (forall_linked_iff s.Bound)
  | .recordCircuitOwner _ _ | .bindWireCircuit _ _ _ | .addMultipathPath _ _ _ | .failMultipathPath _ _
  | .failMultipathDestination _ _ _ | .activateMultipathPath _ _ | .queuePendingData _ _
  | .activateDownstream _ _ | .acceptUpstreamFrames _ | .closeCircuit _ _ | .sweep _ _ | .limits _ | .disk _
  | .restart _ _ _ => .isTrue trivial

/-- The status that accepts the leg with wire id 22. -/
def accepted22 : RelayStatusFrame :=
  { circuitId := 22, statusSequence := 0, statusCode := 1, bidirectionalGranted := true
    privateHandlingGranted := false, multipathGranted := false, downstreamAuthenticated := true
    retryable := false, grantedLifetime := 60000, grantedByteQuota := 100, maximumRelayPayload := 1024
    diagnostic := [], authentication := [] }

/-- A multipath circuit of peer 1 has a primary leg of peer 2, which has failed, and an alternate one. -/
def failedOver (alternatePeer : Bytes) : List RelayCall :=
  let request : CircuitOpenRequest :=
    { peerCircuits := 0, requestedLifetimeMs := 60000, requestedByteQuota := 100, flags := 8
      bidirectional := true, privateHandling := false, multipath := true, destinationHint := [4] }
  [.openCircuit request [1] 0, .recordCircuitOwner 1 10, .bindWireCircuit 10 11 1,
    .openCircuit request [2] 0, .attachDownstreamLeg 1 2 20 22 [1] [2], .activateDownstream 20 accepted22,
    .openCircuit request alternatePeer 0, .attachAdditionalDownstreamLeg 1 3 30 33 [1] 1 1,
    .activateMultipathPath 1 1, .failMultipathPath 1 0]

def fromFirst : RelayDataFrame :=
  { circuitId := 1, relaySequence := 0, fin := false, ackRequested := false, highPriority := false, data := [7] }

def handedOut (peer : Bytes) (wire : Nat) : Option (Bytes × Bytes) :=
  ({ fromFirst with circuitId := wire }.encode.toOption).map fun bytes => (peer, bytes)

/-- With both legs of peer 2 the frame goes to peer 2 under the id of the alternate leg. -/
theorem hands_to_owner_failover :
    (((failedOver [2]).foldl step new).forwardDataFrame fromFirst).1.toOption = handedOut [2] 33 ∧
      Run.Meets HandsToOwner step new (failedOver [2] ++ [.forwardDataFrame fromFirst]) :=
  ⟨by decide +kernel, hands_to_owner _ (by decide +kernel)⟩

/-- With an alternate leg of peer 3 the frame goes to peer 2 under the id of a circuit of peer 3. -/
theorem alternate_leg_misdelivers : let reached := (failedOver [3]).foldl step new
    ((reached.forwardDataFrame fromFirst).1.toOption = handedOut [2] 33 ∧
      reached.wireToInternal.get? (toLex (30, 33)) = some 3 ∧ reached.Owns [3] 3 ∧ ¬ reached.Owns [2] 3) ∧
    ¬ reached.HandsToOwner (.forwardDataFrame fromFirst) := by
  intro reached
  have handed : (reached.forwardDataFrame fromFirst).1.toOption = handedOut [2] 33 := by decide +kernel
  have other : ¬ reached.Owns [2] 3 := by decide +kernel
  refine ⟨⟨handed, by decide +kernel, by decide +kernel, other⟩, fun safe => ?_⟩
  obtain ⟨bytes, encoded⟩ : ∃ bytes, ({ fromFirst with circuitId := 33 } : RelayDataFrame).encode = .ok bytes :=
    ⟨_, rfl⟩
  rw [handedOut, encoded] at handed
  obtain ⟨answer, s', sent⟩ : ∃ answer s', reached.forwardDataFrame fromFirst = (answer, s') := ⟨_, _, rfl⟩
  rw [sent] at handed
  cases answer with
  | error e => cases handed
  | ok out =>
    cases handed
    obtain ⟨id, session, frame, reads, owned, -, -, -, resolves⟩ := safe fromFirst rfl _ _ _ sent
    have same : frame.circuitId = 33 :=
      congrArg RelayDataFrame.circuitId (reads.unique (RelayDataFrame.round_trip encoded))
    -- only one circuit goes by 33 on any session
    have only : ∀ entry ∈ reached.wireToInternal.entries, (ofLex entry.1).2 = 33 → entry.2 = 3 := by
      decide +kernel
    rw [same] at resolves
    obtain rfl : id = 3 := only _ (get?_eq_some.mp resolves) rfl
    exact other owned

end RelayService
end UniversalMesh.Daemon
