import UniversalMesh.Daemon.RelayLinks

/-! To whom relayed bytes are handed, and under which id. `forward_data_frame` takes the peer from the
destination of the circuit that a frame came on, the circuit from its scheduler, partner or way back, and the id
from that circuit's session. The three agree as long as every circuit that another one is linked to belongs to
the peer that the other leads to (`Agreement.leads`), which the callers have to keep. -/
namespace UniversalMesh.Daemon
open MachineWord Wire Relay OrderedMap

namespace RelayService

/-- The id was given out, or there are no more ids. -/
def Allocated (s : RelayService) (id : Nat) : Prop := id < s.nextCircuitId ∨ u64Max ≤ s.nextCircuitId

/-- The id is registered, listed under a peer, fenced or linked. The sessions and wire ids that the callers file
under an id are left out: they may name one that was never given out. -/
def Mentioned (s : RelayService) (id : Nat) : Prop :=
  s.Registered id ∨ (∃ peer, s.Owns peer id) ∨ (s.replayFences.get? id).isSome ∨
    ∃ other, s.Linked id other ∨ s.Linked other id

/-- Every circuit that a circuit is linked to belongs to a peer. -/
def LeadsTo (s : RelayService) (id : Nat) (peer : Bytes) : Prop :=
  ∀ other, s.Linked id other → s.Registered other → s.Owns peer other

/-- Owners, partners, legs and hints tell the same story about every circuit. -/
structure Agreement (s : RelayService) : Prop where
  coherent : s.Coherent
  allocated : ∀ {id : Nat}, s.Mentioned id → s.Allocated id
  once : ∀ {peer other : Bytes} {id : Nat}, s.Owns peer id → s.Owns other id → peer = other
  symmetric : ∀ {id other : Nat}, s.pairedCircuits.get? id = some other →
    s.pairedCircuits.get? other = some id
  leads : ∀ {id : Nat} {peer : Bytes}, s.destinationHints.get? id = some peer → s.LeadsTo id peer

variable {s s' s'' : RelayService}

/-! ### Losing links -/

/-- Nothing is new but ids that were given out, and what is linked still has its owner. -/
structure Shrinks (s s' : RelayService) : Prop where
  next : s.nextCircuitId ≤ s'.nextCircuitId
  registered : ∀ {id : Nat}, s'.Registered id → s.Registered id
  owned : ∀ {peer : Bytes} {id : Nat}, s'.Owns peer id → s.Owns peer id
  fenced : ∀ {id : Nat}, (s'.replayFences.get? id).isSome → s'.Allocated id
  linked : ∀ {id other : Nat}, s'.Linked id other → s.Linked id other
  hints : ∀ {id : Nat} {peer : Bytes}, s'.destinationHints.get? id = some peer →
    s.destinationHints.get? id = some peer
  kept : ∀ {id other : Nat} {peer : Bytes}, s'.Linked id other → s'.Registered other → s.Owns peer other →
    s'.Owns peer other
  symmetric : ∀ {id other : Nat}, s'.pairedCircuits.get? id = some other →
    s'.pairedCircuits.get? other = some id

variable {id first second leg now : Nat}

theorem Allocated.mono (allocated : s.Allocated id) (next : s.nextCircuitId ≤ s'.nextCircuitId) :
    s'.Allocated id :=
  allocated.imp (fun below => below.trans_le next) fun none => none.trans next

section
variable (agreement : s.Agreement)
include agreement

theorem Agreement.fenced (fenced : (s.replayFences.get? id).isSome) : s.Allocated id :=
  agreement.allocated (.inr (.inr (.inl fenced)))

theorem Agreement.shrinks : Shrinks s s where
  next := Nat.le_refl _
  registered held := held
  owned owned := owned
  fenced := agreement.fenced
  linked linked := linked
  hints led := led
  kept _ _ owned := owned
  symmetric := agreement.symmetric

theorem Agreement.shrink (shrinks : Shrinks s s') (coherent : s'.Coherent) : s'.Agreement where
  coherent := coherent
  allocated {id} mentioned := by
    rcases mentioned with registered | ⟨peer, owned⟩ | fenced | ⟨other, linked⟩
    · exact (agreement.allocated (.inl (shrinks.registered registered))).mono shrinks.next
    · exact (agreement.allocated (.inr (.inl ⟨peer, shrinks.owned owned⟩))).mono shrinks.next
    · exact shrinks.fenced fenced
    · have before : s.Linked id other ∨ s.Linked other id := linked.imp shrinks.linked shrinks.linked
      exact (agreement.allocated (.inr (.inr (.inr ⟨other, before⟩)))).mono shrinks.next
  once first second := agreement.once (shrinks.owned first) (shrinks.owned second)
  symmetric := shrinks.symmetric
  leads {id peer} led other linked registered :=
    shrinks.kept linked registered (agreement.leads (shrinks.hints led) other (shrinks.linked linked)
      (shrinks.registered registered))

/-- Circuits lose owners and destinations, or are registered no more; no link changes. -/
theorem Agreement.keepLinks (coherent : s'.Coherent)
    (registered : ∀ {id : Nat}, s'.Registered id → s.Registered id)
    (next : s.nextCircuitId ≤ s'.nextCircuitId) (fences : s'.replayFences = s.replayFences)
    (hints : ∀ {id : Nat} {peer : Bytes}, s'.destinationHints.get? id = some peer →
      s.destinationHints.get? id = some peer)
    (owned : ∀ {peer : Bytes} {id : Nat}, s'.Owns peer id → s.Owns peer id)
    (kept : ∀ {peer : Bytes} {id : Nat}, s'.Registered id → s.Owns peer id → s'.Owns peer id)
    (paired : s'.pairedCircuits = s.pairedCircuits)
    (destinations : s'.multipathDestinations = s.multipathDestinations)
    (reverse : s'.multipathReverse = s.multipathReverse) : s'.Agreement := by
  have linked : s'.Linked = s.Linked := by
    funext id other
    rw [Linked, Linked, paired, destinations, reverse]
  refine agreement.shrink { next, registered, owned, hints, fenced := ?_, linked := ?_, kept := fun _ => kept
                            symmetric := ?_ } coherent
  · rw [fences]
    exact fun fenced => (agreement.fenced fenced).mono next
  · rw [linked]
    exact fun linked => linked
  · rw [paired]
    exact agreement.symmetric

/-- A change to sessions, wire ids and circuits that are registered, but to no other link. -/
theorem Agreement.same (coherent : s'.Coherent)
    (registered : ∀ {id : Nat}, s'.Registered id → s.Registered id)
    (next : s'.nextCircuitId = s.nextCircuitId) (fences : s'.replayFences = s.replayFences)
    (hints : s'.destinationHints = s.destinationHints) (owners : s'.circuitsByOwner = s.circuitsByOwner)
    (paired : s'.pairedCircuits = s.pairedCircuits)
    (destinations : s'.multipathDestinations = s.multipathDestinations)
    (reverse : s'.multipathReverse = s.multipathReverse) : s'.Agreement := by
  have owns : s'.Owns = s.Owns := by
    funext peer id
    rw [Owns, Owns, owners]
  refine agreement.keepLinks coherent registered next.ge fences ?_ ?_ ?_ paired destinations reverse
  · rw [hints]
    exact fun led => led
  · rw [owns]
    exact fun owned => owned
  · rw [owns]
    exact fun _ owned => owned

theorem Agreement.sameLinks (same : SameLinks s s') : s'.Agreement :=
  agreement.same (agreement.coherent.legs same.legs) same.registered
    (congrArg Links.nextCircuitId same.links) (congrArg Links.replayFences same.links)
    same.hints same.owners same.paired same.legs.destinations same.legs.reverse

end

theorem recordCircuitOwner_agreement (id session : Nat) (agreement : s.Agreement) :
    (s.recordCircuitOwner id session).Agreement :=
  agreement.same (agreement.coherent.legs (.of_eq rfl)) (fun held => held)
    rfl rfl rfl rfl rfl rfl rfl

theorem unpair_pairs (paired : s.pairedCircuits.get? id = some partner) :
    (s.unpair id).pairedCircuits.get? first = some second ↔
      s.pairedCircuits.get? first = some second ∧ first ≠ id ∧ first ≠ partner := by
  rw [unpair, paired]
  rw [get?_erase_eq_some, get?_erase_eq_some]
  tauto

theorem unpair_agreement (id : Nat) (agreement : s.Agreement) : (s.unpair id).Agreement := by
  cases paired : s.pairedCircuits.get? id with
  | none =>
    rw [unpair, paired]
    exact agreement
  | some partner =>
    have coherent := agreement.coherent.legs (unpair_sameLegs (s := s) id)
    have back := agreement.symmetric paired
    have pairs := fun first second => @unpair_pairs s id first second partner paired
    rw [unpair, paired] at coherent pairs ⊢
    refine agreement.shrink { agreement.shrinks with
      linked := ?_, kept := fun _ _ owned => owned, symmetric := ?_ } coherent
    · exact fun linked => linked.imp_left fun left => ((pairs _ _).mp left).1
    · intro first second left
      obtain ⟨before, notId, notPartner⟩ := (pairs _ _).mp left
      have there := agreement.symmetric before
      refine (pairs _ _).mpr ⟨there, ?_, ?_⟩
      · rintro rfl
        rw [paired] at there
        exact notPartner (Option.some.inj there).symm
      · rintro rfl
        rw [back] at there
        exact notId (Option.some.inj there).symm

/-- Links are left that have nothing to do with the circuit, unless it is paired. -/
theorem unbind_linked (coherent : s.Coherent) (linked : (s.unbind id).Linked first second) :
    s.Linked first second ∧ (s.pairedCircuits.get? first = some second ∨ second ≠ id) := by
  rcases linked with paired | ⟨path, filed⟩ | ⟨path, back⟩
  · exact ⟨.inl paired, .inl paired⟩
  · obtain ⟨⟨filed, -⟩, differs⟩ := unbind_filed.mp filed
    exact ⟨.inr (.inl ⟨path, filed⟩), .inr differs⟩
  · obtain ⟨held, -, notLeg⟩ := unbind_reverse back
    refine ⟨.inr (.inr ⟨path, held⟩), .inr ?_⟩
    rintro rfl
    exact notLeg path (coherent.filed held)

theorem unbind_owns : (s.unbind id).Owns peer other ↔ s.Owns peer other ∧ other ≠ id := by
  rw [Owns, unbind, listed_retainItems, decide_eq_true_eq]
  rfl

theorem retireLeg_eq : ∃ persistence,
    retireLeg now s leg =
      { s with replayFences := s.replayFences.insert leg (saturatingAdd now 10000), persistence }.unbind leg := by
  unfold retireLeg
  dsimp only
  split
  · exact ⟨_, rfl⟩
  · exact ⟨_, rfl⟩

section
variable (agreement : s.Agreement)
include agreement

theorem putCircuit_agreement (held : s.Registered id) (c : Circuit) : (s.putCircuit id c).Agreement :=
  agreement.sameLinks (putCircuit_sameLinks held c)

theorem bindWireCircuit_agreement (bound : s.bindWireCircuit session wire id = .ok s') : s'.Agreement := by
  have coherent := bindWireCircuit_coherent agreement.coherent bound
  obtain ⟨-, rfl⟩ := bindWireCircuit_ok bound
  exact agreement.same coherent (fun held => held) rfl rfl rfl rfl rfl rfl rfl

theorem unbind_agreement (unpaired : s.pairedCircuits.get? id = none) : (s.unbind id).Agreement := by
  refine agreement.shrink { agreement.shrinks with
    owned := fun owned => (unbind_owns.mp owned).1, linked := ?_, hints := ?_, kept := ?_ }
    (unbind_coherent agreement.coherent)
  · exact fun linked => (unbind_linked agreement.coherent linked).1
  · exact fun led => (get?_erase_eq_some.mp led).2
  · intro first second peer linked _ owned
    refine unbind_owns.mpr ⟨owned, ?_⟩
    rcases (unbind_linked agreement.coherent linked).2 with paired | differs
    · rintro rfl
      rw [agreement.symmetric paired] at unpaired
      cases unpaired
    · exact differs

theorem fence_agreement (known : s.Allocated id) (deadline : Nat) (persistence : Option RelayStore) :
    Agreement { s with replayFences := s.replayFences.insert id deadline, persistence } := by
  refine agreement.shrink { agreement.shrinks with fenced := fun {other} fenced => ?_ }
    (agreement.coherent.legs (.of_eq rfl))
  rcases isSome_get?_insert.mp fenced with rfl | fenced
  · exact known
  · exact agreement.fenced fenced

theorem retireLeg_agreement (unpaired : s.pairedCircuits.get? leg = none)
    (known : s.Allocated leg) : (retireLeg now s leg).Agreement := by
  obtain ⟨persistence, same⟩ := retireLeg_eq
  rw [same]
  exact unbind_agreement (fence_agreement agreement known _ persistence) unpaired

end

theorem retireLegs_agreement {legs : List Nat} (agreement : s.Agreement)
    (ready : ∀ leg ∈ legs, s.pairedCircuits.get? leg = none ∧ s.Allocated leg) :
    (legs.foldl (retireLeg now) s).Agreement := by
  induction legs generalizing s with
  | nil => exact agreement
  | cons leg rest ih =>
    obtain ⟨unpaired, known⟩ := ready leg List.mem_cons_self
    refine ih (retireLeg_agreement agreement unpaired known) fun later member => ?_
    obtain ⟨persistence, same⟩ := retireLeg_eq
    rw [same]
    exact ready later (List.mem_cons_of_mem _ member)

/-- Partners can be parted before the legs are retired. -/
theorem retireLegs_unpair {now id : Nat} {legs : List Nat} :
    (legs.foldl (retireLeg now) s).unpair id = legs.foldl (retireLeg now) (s.unpair id) := by
  have other : ∀ (s : RelayService) (leg : Nat),
      (retireLeg now s leg).unpair id = retireLeg now (s.unpair id) leg := by
    intro s leg
    unfold retireLeg unpair
    cases paired : s.pairedCircuits.get? id with
    | none =>
      dsimp only
      cases held : s.circuits.get? leg with
      | none => dsimp only [unbind]; rw [paired]
      | some c => dsimp only [unbind, persistClosedCircuit, persist]; rw [paired]
    | some partner =>
      dsimp only
      cases held : s.circuits.get? leg with
      | none => dsimp only [unbind]; rw [paired]
      | some c => dsimp only [unbind, persistClosedCircuit, persist]; rw [paired]; rfl
  induction legs generalizing s with
  | nil => rfl
  | cons leg rest ih => rw [List.foldl_cons, List.foldl_cons, ih, other]

theorem unpair_unpaired (here : leg = id ∨ s.pairedCircuits.get? id = some leg) :
    (s.unpair id).pairedCircuits.get? leg = none := by
  cases paired : s.pairedCircuits.get? id with
  | none =>
    rw [paired] at here
    obtain rfl : leg = id := here.resolve_right fun same => by cases same
    rw [unpair, paired]
    exact paired
  | some partner =>
    rw [Option.eq_none_iff_forall_ne_some]
    intro other left
    obtain ⟨-, notId, notPartner⟩ := (unpair_pairs paired).mp left
    rcases here with same | same
    · exact notId same
    · rw [paired] at same
      exact notPartner (Option.some.inj same).symm

theorem unpair_next (id : Nat) : (s.unpair id).nextCircuitId = s.nextCircuitId := by
  unfold unpair
  split <;> rfl

theorem closeCircuit_agreement {id now : Nat} (agreement : s.Agreement) :
    (s.closeCircuit id now).2.Agreement := by
  unfold closeCircuit
  split
  · exact agreement
  next found =>
  dsimp only
  rw [retireLegs_unpair]
  -- the circuit and its partner change their state and are parted, then they are retired
  have same : ∀ legs : List Nat,
      SameLinks s (legs.foldl (fun s leg => s.changeCircuit leg (·.closeCircuit now)) s) :=
    fun legs => (Still.foldl (fun s leg => changeCircuit_still (closeCircuit_receipt · now)) legs s).links
  refine retireLegs_agreement (unpair_agreement id (agreement.sameLinks (same _))) fun leg member => ?_
  have here : leg = id ∨ s.pairedCircuits.get? id = some leg := by
    rw [List.mem_cons, Option.mem_toList, Option.filter_eq_some_iff] at member
    exact member.imp_right And.left
  refine ⟨unpair_unpaired ?_, Allocated.mono (s := s) ?_ ?_⟩
  · rwa [(same _).paired]
  · apply agreement.allocated
    rcases here with rfl | partner
    · exact .inl (by simpa [Registered, Option.isSome_iff_ne_none] using found)
    · exact .inr (.inr (.inr ⟨id, .inr (.inl partner)⟩))
  · rw [unpair_next]
    exact (congrArg Links.nextCircuitId (same _).links).ge

theorem erase_agreement (agreement : s.Agreement) : Agreement { s with circuits := s.circuits.erase id } := by
  exact agreement.same (agreement.coherent.legs (.of_eq rfl)) (fun held => (isSome_get?_erase.mp held).2)
    rfl rfl rfl rfl rfl rfl rfl

theorem purgeClosedCircuit_eq (now : Nat) (s : RelayService) (id : Nat) : ∃ deadline persistence,
    purgeClosedCircuit now s id =
      { { s.unpair id with replayFences := s.replayFences.insert id deadline, persistence }.unbind id with
        circuits := (s.unpair id).circuits.erase id } := by
  unfold purgeClosedCircuit unpair
  dsimp only
  cases held : s.circuits.get? id with
  | none =>
    cases paired : s.pairedCircuits.get? id with
    | none => exact ⟨_, _, by dsimp only [unbind]; rw [paired]⟩
    | some partner => exact ⟨_, _, by dsimp only [unbind]; rw [paired]⟩
  | some c =>
    cases paired : s.pairedCircuits.get? id with
    | none => exact ⟨_, _, by dsimp only [unbind, persistClosedCircuit, persist]; rw [paired]⟩
    | some partner => exact ⟨_, _, by dsimp only [unbind, persistClosedCircuit, persist]; rw [paired]⟩

theorem unpair_fences (id : Nat) : (s.unpair id).replayFences = s.replayFences := by
  unfold unpair
  split <;> rfl

theorem purgeClosedCircuit_agreement (agreement : s.Agreement) (known : s.Allocated id) :
    (purgeClosedCircuit now s id).Agreement := by
  obtain ⟨deadline, persistence, same⟩ := purgeClosedCircuit_eq now s id
  rw [same, ← unpair_fences id]
  have parted := unpair_agreement id agreement
  have fenced := fence_agreement parted (known.mono (unpair_next id).ge) deadline persistence
  exact erase_agreement (unbind_agreement fenced (unpair_unpaired (.inl rfl)))

theorem purgeClosedCircuits_agreement {ids : List Nat} (agreement : s.Agreement)
    (known : ∀ id ∈ ids, s.Allocated id) : (ids.foldl (purgeClosedCircuit now) s).Agreement := by
  induction ids generalizing s with
  | nil => exact agreement
  | cons id rest ih =>
    refine ih (purgeClosedCircuit_agreement agreement (known id List.mem_cons_self)) fun later member => ?_
    refine (known later (List.mem_cons_of_mem _ member)).mono ?_
    obtain ⟨deadline, persistence, same⟩ := purgeClosedCircuit_eq now s id
    rw [same]
    exact (unpair_next id).ge

theorem dropFence_agreement {id : Nat} (agreement : s.Agreement) : (dropFence s id).Agreement := by
  exact agreement.shrink
    { agreement.shrinks with fenced := fun fenced => agreement.fenced (isSome_get?_erase.mp fenced).2 }
    (dropFence_coherent id agreement.coherent)

theorem sweep_agreement (now : Nat) (traversal : Traversal Nat) (agreement : s.Agreement) :
    (s.sweep now traversal).2.Agreement := by
  have swept : ∀ fences ids : List Nat,
      (ids.foldl (sweepCircuit now) ([], fences.foldl dropFence s)).2.Agreement :=
    fun _ ids => (Run.invariant (fun _ id => dropFence_agreement) agreement).sameLinks
      (sweepCircuits_still now ids ([], _)).links
  refine purgeClosedCircuits_agreement (swept _ _) fun id member => (swept _ _).allocated (.inl ?_)
  obtain ⟨entry, listed, rfl⟩ := List.mem_map.mp ((traversal.perm _).mem_iff.mp member)
  have held := (mem_filter.mp (mem_entries.mp listed)).1
  exact Option.isSome_of_eq_some (get?_eq_some.mpr held)

/-! ### New links -/

theorem link_agreement {pairedCircuits : OrderedMap Nat Nat}
    {multipathDestinations : OrderedMap Nat (OrderedMap Nat Nat)}
    {multipathReverse : OrderedMap Nat (Nat × Nat)} (agreement : s.Agreement)
    (coherent : Coherent { s with pairedCircuits, multipathDestinations, multipathReverse })
    (linked : ∀ {id other : Nat},
      Linked { s with pairedCircuits, multipathDestinations, multipathReverse } id other →
        id = first ∧ other = second ∨ id = second ∧ other = first ∨ s.Linked id other)
    (symmetric : ∀ {id other : Nat}, pairedCircuits.get? id = some other → pairedCircuits.get? other = some id)
    (known : s.Allocated first) (given : s.Allocated second)
    (forth : ∀ peer, s.destinationHints.get? first = some peer → s.Owns peer second)
    (back : ∀ peer, s.destinationHints.get? second = some peer → s.Owns peer first) :
    Agreement { s with pairedCircuits, multipathDestinations, multipathReverse } := by
  refine ⟨coherent, ?_, agreement.once, symmetric, ?_⟩
  · intro id mentioned
    have allocated : s.Allocated id := by
      rcases mentioned with held | owned | fenced | ⟨other, links | links⟩
      · exact agreement.allocated (.inl held)
      · exact agreement.allocated (.inr (.inl owned))
      · exact agreement.fenced fenced
      · rcases linked links with ⟨rfl, -⟩ | ⟨rfl, -⟩ | before
        · exact known
        · exact given
        · exact agreement.allocated (.inr (.inr (.inr ⟨other, .inl before⟩)))
      · rcases linked links with ⟨-, rfl⟩ | ⟨-, rfl⟩ | before
        · exact given
        · exact known
        · exact agreement.allocated (.inr (.inr (.inr ⟨other, .inr before⟩)))
    exact allocated
  · intro id peer led other links held
    rcases linked links with ⟨rfl, rfl⟩ | ⟨rfl, rfl⟩ | before
    · exact forth peer led
    · exact back peer led
    · exact agreement.leads led other before held

section
variable (agreement : s.Agreement)
include agreement

theorem enter_agreement (known : s.Allocated id)
    (unowned : ∀ peer, ¬ s.Owns peer id) (apart : ∀ other, ¬ s.Linked id other ∧ ¬ s.Linked other id)
    (c : Circuit) (ownerPeer destination : Bytes) : (s.enter id c ownerPeer destination).Agreement := by
  have registered : ∀ {other : Nat}, (s.enter id c ownerPeer destination).Registered other →
      other = id ∨ s.Registered other := isSome_get?_insert.mp
  have owns : ∀ {peer : Bytes} {other : Nat}, (s.enter id c ownerPeer destination).Owns peer other ↔
      s.Owns peer other ∨ peer = ownerPeer ∧ other = id := listed_push
  refine ⟨agreement.coherent.legs (.of_eq rfl), ?_, ?_, agreement.symmetric, ?_⟩
  · intro other mentioned
    have allocated : s.Allocated other := by
      rcases mentioned with held | ⟨peer, owned⟩ | fenced | linked
      · rcases registered held with rfl | held
        · exact known
        · exact agreement.allocated (.inl held)
      · rcases owns.mp owned with owned | ⟨-, rfl⟩
        · exact agreement.allocated (.inr (.inl ⟨peer, owned⟩))
        · exact known
      · exact agreement.fenced fenced
      · exact agreement.allocated (.inr (.inr (.inr linked)))
    exact allocated
  · intro first second other one two
    rcases owns.mp one with held | ⟨rfl, rfl⟩
    · rcases owns.mp two with also | ⟨-, rfl⟩
      · exact agreement.once held also
      · exact absurd held (unowned first)
    · rcases owns.mp two with also | ⟨rfl, -⟩
      · exact absurd also (unowned second)
      · rfl
  · intro other peer led third linked held
    have differs : other ≠ id := by
      rintro rfl
      exact (apart third).1 linked
    have before : s.Registered third := by
      rcases registered held with rfl | held
      · exact absurd linked (apart other).2
      · exact held
    rw [enter, get?_insert_of_ne differs] at led
    exact owns.mpr (.inl (agreement.leads led third linked before))

theorem lead_agreement (leads : s.LeadsTo id peer) : (s.lead id peer).Agreement := by
  refine ⟨agreement.coherent.legs (.of_eq rfl), agreement.allocated, agreement.once, agreement.symmetric, ?_⟩
  exact fun led => forall_get?_insert leads (fun _ _ => agreement.leads) _ _ led

theorem pair_agreement (unpaired : s.pairedCircuits.get? first = none)
    (alone : s.pairedCircuits.get? second = none) (known : s.Allocated first) (given : s.Allocated second)
    (forth : ∀ peer, s.destinationHints.get? first = some peer → s.Owns peer second)
    (back : ∀ peer, s.destinationHints.get? second = some peer → s.Owns peer first) :
    (s.pair first second).Agreement := by
  have pairs : ∀ {id other : Nat}, ((s.pairedCircuits.insert first second).insert second first).get? id =
      some other ↔ id = first ∧ other = second ∨ id = second ∧ other = first ∨
        s.pairedCircuits.get? id = some other := by
    intro id other
    rw [get?_insert, get?_insert]
    by_cases isSecond : id = second
    · subst isSecond
      rw [if_pos rfl, alone]
      constructor
      · intro same
        exact .inr (.inl ⟨rfl, (Option.some.inj same).symm⟩)
      · rintro (⟨rfl, rfl⟩ | ⟨-, rfl⟩ | none)
        · rfl
        · rfl
        · cases none
    · by_cases isFirst : id = first
      · subst isFirst
        simp [isSecond, unpaired, eq_comm]
      · simp [isSecond, isFirst]
  refine link_agreement agreement (agreement.coherent.legs (.of_eq rfl)) ?_ ?_ known
    given forth back
  · rintro id other (paired | legs)
    · exact (pairs.mp paired).imp_right (Or.imp_right .inl)
    · exact .inr (.inr (.inr legs))
  · intro id other paired
    rcases pairs.mp paired with ⟨rfl, rfl⟩ | ⟨rfl, rfl⟩ | before
    · exact pairs.mpr (.inr (.inl ⟨rfl, rfl⟩))
    · exact pairs.mpr (.inl ⟨rfl, rfl⟩)
    · exact pairs.mpr (.inr (.inr (agreement.symmetric before)))

theorem file_agreement (scheduled : s.Scheduled source)
    (free : ∀ other, ¬ s.multipathDestinations.Filed source path other) (known : s.Allocated source)
    (given : s.Allocated leg) (forth : ∀ peer, s.destinationHints.get? source = some peer → s.Owns peer leg)
    (back : ∀ peer, s.destinationHints.get? leg = some peer → s.Owns peer source) :
    Agreement { s with
      multipathDestinations := s.multipathDestinations.file source path leg
      multipathReverse := s.multipathReverse.insert leg (source, path) } := by
  refine link_agreement agreement (file_coherent leg agreement.coherent scheduled free) ?_ agreement.symmetric
    known given forth back
  rintro id other (paired | ⟨place, filed⟩ | ⟨place, way⟩)
  · exact .inr (.inr (.inl paired))
  · rcases filed_file.mp filed with ⟨rfl, -, rfl⟩ | ⟨before, -⟩
    · exact .inl ⟨rfl, rfl⟩
    · exact .inr (.inr (.inr (.inl ⟨place, before⟩)))
  · rcases get?_insert_eq_some.mp way with ⟨rfl, same⟩ | ⟨-, way⟩
    · cases same
      exact .inr (.inl ⟨rfl, rfl⟩)
    · exact .inr (.inr (.inr (.inr ⟨place, way⟩)))

end

end RelayService
end UniversalMesh.Daemon
