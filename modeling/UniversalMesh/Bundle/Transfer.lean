import UniversalMesh.Bundle.Manager

/-! `umc-bundle/src/transfer.rs`: a bundle cut into stream chunks, and the reassembler that takes them in any
order. After chunks of one bundle, its state depends only on which of them it was given. -/
namespace UniversalMesh.Bundle
open MachineWord Wire OrderedMap

def streamChunkSize : Nat := 256 * 1024
def maxReassemblyBytes : Nat := 4 * 1024 * 1024

structure BundleChunk where
  bundleId : BundleId
  chunkIndex : Nat
  chunkFinal : Bool
  payload : Bytes
  deriving DecidableEq

inductive TransferError where
  | wrongBundle | chunkTooLarge | reassemblyTooLarge | conflictingChunk | indexOverflow
  deriving DecidableEq, Repr

variable (payload : Bytes)

/-- The number of chunks of a payload; an empty one has a single empty chunk. -/
def chunkCount : Nat :=
  if payload.isEmpty then 1 else (payload.length + streamChunkSize - 1) / streamChunkSize

/-- `payload.chunks(STREAM_CHUNK_SIZE)` at an index. -/
def chunkBytes (index : Nat) : Bytes :=
  (payload.drop (index * streamChunkSize)).take streamChunkSize

def splitBundle (bundleId : BundleId) (payload : Bytes) : List BundleChunk :=
  (List.range (chunkCount payload)).map fun index =>
    { bundleId, chunkIndex := index, chunkFinal := index + 1 = chunkCount payload
      payload := chunkBytes payload index }

structure BundleReassembler where
  bundleId : BundleId
  chunks : OrderedMap Nat Bytes
  finalIndex : Option Nat
  totalBytes : Nat

namespace BundleReassembler

def new (bundleId : BundleId) : BundleReassembler :=
  { bundleId, chunks := .empty, finalIndex := none, totalBytes := 0 }

variable (r : BundleReassembler) (chunk : BundleChunk)

/-- The chunk is put in the map, or was there with the same bytes. -/
def hold : Except TransferError BundleReassembler :=
  match r.chunks.get? chunk.chunkIndex with
  | some existing => if existing ≠ chunk.payload then .error .conflictingChunk else .ok r
  | none =>
    match checkedAdd r.totalBytes chunk.payload.length with
    | none => .error .reassemblyTooLarge
    | some nextTotal =>
      if nextTotal > maxReassemblyBytes then .error .reassemblyTooLarge
      else .ok { r with totalBytes := nextTotal, chunks := r.chunks.insert chunk.chunkIndex chunk.payload }

/-- The final index is taken from a final chunk. -/
def mark : Except TransferError BundleReassembler :=
  if chunk.chunkFinal then
    if r.finalIndex.any (· ≠ chunk.chunkIndex) then .error .conflictingChunk
    else .ok { r with finalIndex := some chunk.chunkIndex }
  else .ok r

/-- The payload, if every chunk up to the final one is held. -/
def complete : Option Bytes :=
  match r.finalIndex with
  | none => none
  | some finalIndex =>
    if r.chunks.size ≠ finalIndex + 1 ∨ r.chunks.entries.map Prod.fst ≠ List.range (finalIndex + 1) then none
    else some (r.chunks.entries.map Prod.snd).flatten

/-- `BundleReassembler::push`. A chunk whose final mark is refused stays in the map. -/
def push : Except TransferError (Option Bytes) × BundleReassembler :=
  if chunk.bundleId ≠ r.bundleId then (.error .wrongBundle, r)
  else if chunk.payload.length > streamChunkSize then (.error .chunkTooLarge, r)
  else if chunk.chunkIndex > maxReassemblyBytes / streamChunkSize then (.error .indexOverflow, r)
  else
    match r.hold chunk with
    | .error error => (.error error, r)
    | .ok r =>
      match r.mark chunk with
      | .error error => (.error error, r)
      | .ok r => (.ok r.complete, r)

end BundleReassembler

/-! The chunks of a payload. -/

theorem flatten_slices (size count : Nat) :
    ((List.range count).map fun index => (payload.drop (index * size)).take size).flatten =
      payload.take (count * size) := by
  induction count with
  | zero => simp
  | succ count ih =>
    rw [List.range_succ, List.map_append, List.flatten_append, ih, Nat.succ_mul, List.take_add]
    simp

theorem chunkCount_pos : 0 < chunkCount payload := by
  unfold chunkCount
  split
  · exact Nat.one_pos
  · next filled =>
    have : payload.length ≠ 0 := fun none => filled (by simpa using none)
    simp only [streamChunkSize]
    omega

theorem length_le_chunks : payload.length ≤ chunkCount payload * streamChunkSize := by
  unfold chunkCount
  split
  · next empty => simp [List.isEmpty_iff.mp empty]
  · simp only [streamChunkSize]
    omega

theorem flatten_chunks : ((List.range (chunkCount payload)).map (chunkBytes payload)).flatten = payload :=
  (flatten_slices payload streamChunkSize _).trans (List.take_of_length_le (length_le_chunks payload))

theorem chunkCount_le {payload : Bytes} (small : payload.length ≤ maxReassemblyBytes) :
    chunkCount payload ≤ maxReassemblyBytes / streamChunkSize := by
  simp only [chunkCount, streamChunkSize, maxReassemblyBytes] at small ⊢
  split <;> omega

namespace BundleReassembler
section
variable (bundleId : BundleId) (payload : Bytes)

/-- The chunk of an index, as `split_bundle` cuts it. -/
def chunkAt (index : Nat) : BundleChunk :=
  { bundleId, chunkIndex := index, chunkFinal := index + 1 = chunkCount payload
    payload := chunkBytes payload index }

def gathered (given : Nat → Bool) : OrderedMap Nat Bytes :=
  { entries := ((List.range (chunkCount payload)).filter given).map fun index =>
      (index, chunkBytes payload index)
    sorted := List.pairwise_map.mpr (List.pairwise_lt_range.filter _) }

/-- The reassembler that was given these chunks of the payload. -/
def holding (given : Nat → Bool) : BundleReassembler :=
  { bundleId, chunks := gathered payload given
    finalIndex := if given (chunkCount payload - 1) then some (chunkCount payload - 1) else none
    totalBytes := (gathered payload given).sumBy List.length }

end

variable {bundleId : BundleId} {payload : Bytes} {given : Nat → Bool} {index : Nat}

theorem mem_gathered : entry ∈ gathered payload given ↔
    (entry.1 < chunkCount payload ∧ given entry.1 = true) ∧ chunkBytes payload entry.1 = entry.2 := by
  show entry ∈ ((List.range (chunkCount payload)).filter given).map _ ↔ _
  obtain ⟨key, value⟩ := entry
  simp [List.mem_filter]

theorem get?_gathered (inside : index < chunkCount payload) :
    (gathered payload given).get? index = if given index then some (chunkBytes payload index) else none := by
  split
  · next here => exact get?_eq_some.mpr (mem_gathered.mpr ⟨⟨inside, here⟩, rfl⟩)
  · next missing =>
    refine get?_eq_none.mpr fun value member => missing ?_
    exact (mem_gathered.mp member).1.2

theorem gathered_insert (inside : index < chunkCount payload) :
    (gathered payload given).insert index (chunkBytes payload index) =
      gathered payload fun other => given other || other = index := by
  refine ext_mem fun entry => ?_
  obtain ⟨key, value⟩ := entry
  rw [mem_insert, mem_gathered, mem_gathered]
  simp only [Prod.mk.injEq, Bool.or_eq_true, decide_eq_true_eq]
  constructor
  · rintro (⟨rfl, rfl⟩ | ⟨⟨⟨within, here⟩, same⟩, -⟩)
    · exact ⟨⟨inside, .inr rfl⟩, rfl⟩
    · exact ⟨⟨within, .inl here⟩, same⟩
  · rintro ⟨⟨within, here⟩, same⟩
    by_cases last : key = index
    · subst last
      exact .inl ⟨rfl, same.symm⟩
    · exact .inr ⟨⟨⟨within, here.resolve_right last⟩, same⟩, last⟩

theorem gathered_bytes_le : (gathered payload given).sumBy List.length ≤ payload.length := by
  have all : ((List.range (chunkCount payload)).map fun index => (chunkBytes payload index).length).sum =
      payload.length := by
    have whole := congrArg List.length (flatten_chunks payload)
    rwa [List.length_flatten, List.map_map] at whole
  have part : ∀ indices : List Nat,
      ((indices.filter given).map fun index => (chunkBytes payload index).length).sum ≤
        (indices.map fun index => (chunkBytes payload index).length).sum := by
    intro indices
    induction indices with
    | nil => exact Nat.le_refl 0
    | cons first rest ih =>
      rw [List.filter_cons]
      split
      · simpa using ih
      · simp only [List.map_cons, List.sum_cons]
        omega
  calc (gathered payload given).sumBy List.length
      = (((List.range (chunkCount payload)).filter given).map fun index =>
          (chunkBytes payload index).length).sum := by
        simp only [OrderedMap.sumBy, gathered, List.map_map]
        rfl
    _ ≤ _ := part _
    _ = payload.length := all

theorem complete_holding : (holding bundleId payload given).complete =
    if ∀ index < chunkCount payload, given index = true then some payload else none := by
  have positive := chunkCount_pos payload
  have last : chunkCount payload - 1 + 1 = chunkCount payload := by omega
  unfold complete
  by_cases final : given (chunkCount payload - 1) = true
  · have keys : (gathered payload given).entries.map Prod.fst = (List.range (chunkCount payload)).filter given := by
      simp [gathered, Function.comp_def]
    simp only [holding, final, if_true, last, keys]
    by_cases all : ∀ index < chunkCount payload, given index = true
    · have kept : (List.range (chunkCount payload)).filter given = List.range (chunkCount payload) :=
        List.filter_eq_self.mpr fun index member => all index (List.mem_range.mp member)
      have size : (gathered payload given).size = chunkCount payload := by
        simp [OrderedMap.size, gathered, kept]
      have bytes : ((gathered payload given).entries.map Prod.snd).flatten = payload := by
        simpa [gathered, kept, Function.comp_def] using flatten_chunks payload
      rw [if_neg (by simp [size, kept]), if_pos all, bytes]
    · have dropped : (List.range (chunkCount payload)).filter given ≠ List.range (chunkCount payload) := by
        intro kept
        exact all fun index inside =>
          List.filter_eq_self.mp kept index (List.mem_range.mpr inside)
      rw [if_pos (.inr dropped), if_neg all]
  · have missing : ¬ ∀ index < chunkCount payload, given index = true := fun all =>
      final (all _ (by omega))
    simp only [holding, final, Bool.false_eq_true, if_false, if_neg missing]

variable {r : BundleReassembler}

theorem hold_again {chunk : BundleChunk}
    (present : r.chunks.get? chunk.chunkIndex = some chunk.payload) : r.hold chunk = .ok r := by
  simp only [hold, present, ne_eq, not_true_eq_false, if_false]

theorem hold_new {chunk : BundleChunk} (absent : r.chunks.get? chunk.chunkIndex = none)
    (within : r.totalBytes + chunk.payload.length ≤ maxReassemblyBytes) :
    r.hold chunk = .ok { r with
      totalBytes := r.totalBytes + chunk.payload.length
      chunks := r.chunks.insert chunk.chunkIndex chunk.payload } := by
  have fits : r.totalBytes + chunk.payload.length ≤ u64Max := within.trans (by decide)
  simp only [hold, absent, checkedAdd_of_le fits, if_neg (Nat.not_lt.mpr within), gt_iff_lt]

theorem mark_chunkAt (inside : index < chunkCount payload) (chunks : OrderedMap Nat Bytes) (totalBytes : Nat) :
    ({ holding bundleId payload given with chunks, totalBytes }).mark (chunkAt bundleId payload index) =
      .ok { holding bundleId payload (fun other => given other || other = index) with
        chunks, totalBytes } := by
  by_cases final : index + 1 = chunkCount payload
  · have last : chunkCount payload - 1 = index := by omega
    have agrees : (if given index then some index else none).any (fun prior => decide (prior ≠ index)) = false := by
      cases given index <;> simp
    simp only [mark, chunkAt, final, holding, last, agrees, decide_true, if_true, Bool.or_true,
      Bool.false_eq_true, if_false]
  · have other : ¬ chunkCount payload - 1 = index := by omega
    simp only [mark, chunkAt, final, holding, other, decide_false, Bool.or_false, Bool.false_eq_true, if_false]

def after (bundleId : BundleId) (pushed : List BundleChunk) : BundleReassembler :=
  pushed.foldl (fun r chunk => (r.push chunk).2) (new bundleId)

theorem mem_splitBundle {chunk : BundleChunk} : chunk ∈ splitBundle bundleId payload ↔
    ∃ index < chunkCount payload, chunkAt bundleId payload index = chunk := by
  simp [splitBundle, chunkAt]

theorem chunkAt_injective {first second : Nat}
    (same : chunkAt bundleId payload first = chunkAt bundleId payload second) : first = second :=
  congrArg BundleChunk.chunkIndex same

section
variable (small : payload.length ≤ maxReassemblyBytes)
include small

theorem hold_chunkAt (inside : index < chunkCount payload) :
    (holding bundleId payload given).hold (chunkAt bundleId payload index) =
      .ok { holding bundleId payload given with
        chunks := gathered payload fun other => given other || other = index
        totalBytes := (gathered payload fun other => given other || other = index).sumBy List.length } := by
  have found := @get?_gathered payload given index inside
  by_cases here : given index = true
  · have same : (fun other => given other || decide (other = index)) = given := by
      funext other
      by_cases that : other = index
      · simp [that, here]
      · simp [that]
    rw [if_pos here] at found
    rw [hold_again found, same]
    rfl
  · have total := sumBy_put (gathered payload given) index (chunkBytes payload index) List.length
    rw [if_neg here] at found
    rw [found, gathered_insert inside, Option.map_none, Option.getD_none, Nat.add_zero] at total
    have bound := @gathered_bytes_le payload fun other => given other || other = index
    have within : (gathered payload given).sumBy List.length + (chunkBytes payload index).length ≤
        maxReassemblyBytes := by omega
    have held := @hold_new (holding bundleId payload given) (chunkAt bundleId payload index) found within
    rw [held, total, ← gathered_insert inside]
    rfl

/-- A chunk of the payload is accepted, and completes it if every other one was given. -/
theorem push_chunkAt (inside : index < chunkCount payload) :
    (holding bundleId payload given).push (chunkAt bundleId payload index) =
      (.ok (if ∀ other < chunkCount payload, (given other || other = index) = true then some payload else none),
        holding bundleId payload fun other => given other || other = index) := by
  have bounded := chunkCount_le small
  have short : ¬ (chunkAt bundleId payload index).payload.length > streamChunkSize := by
    simp [chunkAt, chunkBytes]
  have indexed : ¬ (chunkAt bundleId payload index).chunkIndex > maxReassemblyBytes / streamChunkSize := by
    simp only [chunkAt]
    omega
  have owned : ¬ (chunkAt bundleId payload index).bundleId ≠ (holding bundleId payload given).bundleId :=
    fun differ => differ rfl
  rw [push, if_neg owned, if_neg short, if_neg indexed, hold_chunkAt small inside]
  simp only [mark_chunkAt inside]
  rw [← complete_holding]
  rfl

/-- In any order and repeated: the state says which chunks were given. -/
theorem after_chunks {pushed : List BundleChunk}
    (own : ∀ chunk ∈ pushed, chunk ∈ splitBundle bundleId payload) :
    pushed.foldl (fun r chunk => (r.push chunk).2) (holding bundleId payload given) =
      holding bundleId payload fun index => given index || chunkAt bundleId payload index ∈ pushed := by
  induction pushed generalizing given with
  | nil => simp
  | cons chunk rest ih =>
    obtain ⟨index, inside, rfl⟩ := mem_splitBundle.mp (own chunk List.mem_cons_self)
    rw [List.foldl_cons, push_chunkAt small inside,
      ih fun later member => own later (List.mem_cons_of_mem _ member)]
    congr 1
    funext other
    by_cases here : other = index
    · simp [here]
    · have differ : chunkAt bundleId payload other ≠ chunkAt bundleId payload index := fun same =>
        here (chunkAt_injective same)
      simp [here, differ]

end

theorem holding_none : holding bundleId payload (fun _ => false) = new bundleId := by
  simp [holding, gathered, new, OrderedMap.empty, OrderedMap.sumBy]

/-- Chunks of a payload of at most 4 MiB are pushed in any order and any number of times: a push returns the
payload if every chunk has been pushed then, and nothing before that. -/
theorem reassembled_at_last_chunk (small : payload.length ≤ maxReassemblyBytes) {pushed : List BundleChunk}
    {chunk : BundleChunk} (own : ∀ earlier ∈ pushed, earlier ∈ splitBundle bundleId payload)
    (next : chunk ∈ splitBundle bundleId payload) :
    ((after bundleId pushed).push chunk).1 =
      .ok (if ∀ needed ∈ splitBundle bundleId payload, needed ∈ pushed ++ [chunk] then some payload else none) := by
  obtain ⟨index, inside, rfl⟩ := mem_splitBundle.mp next
  rw [after, ← @holding_none bundleId payload, after_chunks small own, push_chunkAt small inside]
  refine congrArg Except.ok (if_congr ?_ rfl rfl)
  constructor
  · intro all needed member
    obtain ⟨other, within, rfl⟩ := mem_splitBundle.mp member
    have pushedOrLast := all other within
    simp only [Bool.false_or, Bool.or_eq_true, decide_eq_true_eq] at pushedOrLast
    rcases pushedOrLast with earlier | rfl
    · exact List.mem_append_left _ earlier
    · simp
  · intro all other within
    have pushedOrLast := all _ (mem_splitBundle.mpr ⟨other, within, rfl⟩)
    simp only [List.mem_append, List.mem_singleton] at pushedOrLast
    simp only [Bool.false_or, Bool.or_eq_true, decide_eq_true_eq]
    exact pushedOrLast.imp_right chunkAt_injective

/-- A bundle of two chunks, the second of one byte. -/
def twoChunks : Bytes := List.replicate (streamChunkSize + 1) 7
def twoChunksId : BundleId := Octets.fill 32 9

theorem length_twoChunks : twoChunks.length = streamChunkSize + 1 := List.length_replicate

theorem chunkCount_twoChunks : chunkCount twoChunks = 2 := by
  have filled : twoChunks.isEmpty = false := rfl
  rw [chunkCount, filled, length_twoChunks]
  decide

/-- The second chunk twice gives nothing; the first one behind it gives the payload. -/
theorem reassembled_two_chunks :
    ((after twoChunksId [chunkAt twoChunksId twoChunks 1]).push (chunkAt twoChunksId twoChunks 1)).1 = .ok none ∧
    ((after twoChunksId [chunkAt twoChunksId twoChunks 1]).push (chunkAt twoChunksId twoChunks 0)).1 =
      .ok (some twoChunks) := by
  have small : twoChunks.length ≤ maxReassemblyBytes := length_twoChunks.trans_le (by decide)
  have chunk : ∀ index < 2, chunkAt twoChunksId twoChunks index ∈ splitBundle twoChunksId twoChunks :=
    fun index inside => mem_splitBundle.mpr ⟨index, chunkCount_twoChunks ▸ inside, rfl⟩
  have own : ∀ earlier ∈ [chunkAt twoChunksId twoChunks 1], earlier ∈ splitBundle twoChunksId twoChunks :=
    List.forall_mem_singleton.mpr (chunk 1 (by decide))
  constructor
  · rw [reassembled_at_last_chunk small own (chunk 1 (by decide)), if_neg]
    intro all
    have missing := all _ (chunk 0 (by decide))
    simp only [List.mem_append, List.mem_singleton, or_self] at missing
    exact absurd (chunkAt_injective missing) (by decide)
  · rw [reassembled_at_last_chunk small own (chunk 0 (by decide)), if_pos]
    intro needed member
    obtain ⟨index, inside, rfl⟩ := mem_splitBundle.mp member
    rw [chunkCount_twoChunks] at inside
    have either : index = 0 ∨ index = 1 := by omega
    rcases either with rfl | rfl <;> simp

/-- The chunk is new, passes every check before that of its final mark, and fails that one. -/
def Strands (r : BundleReassembler) (chunk : BundleChunk) : Prop :=
  chunk.bundleId = r.bundleId ∧ chunk.payload.length ≤ streamChunkSize ∧
  chunk.chunkIndex ≤ maxReassemblyBytes / streamChunkSize ∧ r.chunks.get? chunk.chunkIndex = none ∧
  r.totalBytes + chunk.payload.length ≤ maxReassemblyBytes ∧
  chunk.chunkFinal = true ∧ r.finalIndex.any (· ≠ chunk.chunkIndex) = true
  deriving Decidable

variable {r : BundleReassembler} {chunk : BundleChunk} {error : TransferError}

theorem hold_ok (ok : r.hold chunk = .ok held) : held = r ∨ r.chunks.get? chunk.chunkIndex = none ∧
      r.totalBytes + chunk.payload.length ≤ maxReassemblyBytes ∧ r.finalIndex = held.finalIndex := by
  unfold hold at ok
  split at ok
  · split at ok
    · cases ok
    · exact .inl (Except.ok.inj ok).symm
  · next absent =>
    split at ok
    · cases ok
    · next total added =>
      have := (checkedAdd_some.mp added).2
      split at ok
      · cases ok
      · cases ok
        exact .inr ⟨absent, by omega, rfl⟩

theorem push_of_strands (strands : r.Strands chunk) :
    r.push chunk = (.error .conflictingChunk, { r with
      totalBytes := r.totalBytes + chunk.payload.length
      chunks := r.chunks.insert chunk.chunkIndex chunk.payload }) := by
  obtain ⟨owned, short, indexed, absent, within, final, differs⟩ := strands
  rw [push, if_neg (not_not.mpr owned), if_neg (Nat.not_lt.mpr short), if_neg (Nat.not_lt.mpr indexed),
    hold_new absent within]
  simp only [mark, final, differs, if_true]

theorem push_of_not_strands (failed : (r.push chunk).1 = .error error) (sound : ¬ r.Strands chunk) :
    (r.push chunk).2 = r := by
  unfold push at failed ⊢
  split_ifs at failed ⊢ with other long past
  iterate 3 rfl
  split at failed
  · rfl
  · next held ok =>
    rcases hold_ok ok with rfl | ⟨absent, within, final⟩
    · split at failed
      · rfl
      · cases failed
    · -- The chunk is new: were its final mark refused, it would be stranded.
      unfold mark at failed
      rw [← final] at failed
      split_ifs at failed with last differs
      exact absurd ⟨not_not.mp other, Nat.not_lt.mp long, Nat.not_lt.mp past, absent, within, last, differs⟩
        sound

/-- A failed push leaves the reassembler as it was unless the chunk is stranded in it. The payload then still
comes with the chunks that were missing. -/
theorem push_error_keeps_iff (failed : (r.push chunk).1 = .error error) :
    ((r.push chunk).2 = r ↔ ¬ r.Strands chunk) ∧
    (¬ r.Strands chunk → ∀ payload given, payload.length ≤ maxReassemblyBytes →
      r = holding r.bundleId payload given →
      ∀ pushed : List BundleChunk, (∀ own ∈ pushed, own ∈ splitBundle r.bundleId payload) →
      ∀ index < chunkCount payload,
        ((pushed.foldl (fun r chunk => (r.push chunk).2) (r.push chunk).2).push
            (chunkAt r.bundleId payload index)).1 =
          .ok (if ∀ other < chunkCount payload, given other ∨
              chunkAt r.bundleId payload other ∈ pushed ∨ other = index then some payload else none)) := by
  refine ⟨⟨fun same strands => ?_, push_of_not_strands failed⟩, ?_⟩
  · have absent := strands.2.2.2.1
    rw [push_of_strands strands] at same
    rw [← same, get?_insert_self] at absent
    cases absent
  · intro sound payload given small gathered pushed own index inside
    rw [push_of_not_strands failed sound]
    nth_rewrite 1 [gathered]
    rw [after_chunks small own, push_chunkAt small inside]
    simp only [Bool.or_eq_true, decide_eq_true_eq, or_assoc]

theorem push_error_keeps_taken_index : let held := after twoChunksId [⟨twoChunksId, 0, false, [1]⟩]
    (held.push ⟨twoChunksId, 0, false, [2]⟩).2 = held :=
  (@push_error_keeps_iff _ _ .conflictingChunk (by decide)).1.mpr (by decide)

/-- The second of two chunks is held, and one numbered 2 claims to be the last: it is refused and kept, and the
first chunk no longer completes the payload. -/
theorem stranded_chunk_blocks : let held := after twoChunksId [⟨twoChunksId, 1, true, [2]⟩]
    let failed := held.push ⟨twoChunksId, 2, true, [3]⟩
    failed.1 = .error .conflictingChunk ∧ held.totalBytes = 1 ∧ failed.2.totalBytes = 2 ∧
    (held.push ⟨twoChunksId, 0, false, [1]⟩).1 = .ok (some [1, 2]) ∧
    (failed.2.push ⟨twoChunksId, 0, false, [1]⟩).1 = .ok none := by
  decide

end BundleReassembler
end UniversalMesh.Bundle
