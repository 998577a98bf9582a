import UniversalMesh.Lib.Incremental
import UniversalMesh.Wire.Field

/-! `umc-control/src/framing.rs`: envelopes behind a length of 32 bits, and the decoder that takes them
out of a stream as its bytes arrive. -/
namespace UniversalMesh.Control
open MachineWord Wire Incremental

variable {buf : Bytes}

inductive FramingError where
  | zeroLength | tooLarge | truncated | io
  deriving DecidableEq, Repr

/-- `frame_envelope`; `none` is its panic on a length beyond 32 bits. -/
def frameEnvelope (out envelope : Bytes) (max : Nat) : Option (Except FramingError Bytes) :=
  if envelope = [] then some (.error .zeroLength)
  else if envelope.length > max then some (.error .tooLarge)
  else if envelope.length > u32Max then none
  else some (.ok (out ++ toBeBytes 4 envelope.length ++ envelope))

/-- A list of envelopes, each accepted by `frame_envelope`, in one buffer. -/
def frameEnvelopes (max : Nat) : List Bytes → Bytes → Option Bytes
  | [], out => some out
  | envelope :: envelopes, out =>
    match frameEnvelope out envelope max with
    | some (.ok out) => frameEnvelopes max envelopes out
    | _ => none

structure EnvelopeDecoder where
  buf : Bytes
  max : Nat
  deriving DecidableEq, Repr

namespace EnvelopeDecoder

def new (max : Nat) : EnvelopeDecoder := { buf := [], max }

/-- One turn of the loop of `feed`. -/
def nextEnvelope (max : Nat) (buf : Bytes) : Found FramingError UInt8 Bytes :=
  if buf.length < 4 then .more
  else
    let len := fromBeBytes (buf.take 4)
    if len = 0 then .bad .zeroLength
    else if len > max then .bad .tooLarge
    else if buf.length < 4 + len then .more
    else .item ((buf.drop 4).take len) (buf.drop (4 + len))

/-- `feed`. The sum of its last test is taken in 64 bits. -/
def feed (d : EnvelopeDecoder) (bytes : Bytes) : Except FramingError (List Bytes) × EnvelopeDecoder :=
  let buf := d.buf ++ bytes
  match drain (nextEnvelope d.max) (buf.length + 1) buf with
  | (.error e, buf) => (.error e, { d with buf })
  | (.ok out, buf) =>
    if buf.length > (d.max + 4) % 2 ^ 64 then (.error .tooLarge, { d with buf }) else (.ok out, { d with buf })

/-! ### One envelope -/

variable {max : Nat}

/-- What a length in front of the buffer decides. -/
theorem nextEnvelope_of_length (long : 4 ≤ buf.length) (header : fromBeBytes (buf.take 4) = len) :
    nextEnvelope max buf =
      if len = 0 then .bad .zeroLength
      else if len > max then .bad .tooLarge
      else if buf.length < 4 + len then .more
      else .item ((buf.drop 4).take len) (buf.drop (4 + len)) := by
  subst header
  exact if_neg (Nat.not_lt.mpr long)

theorem long_of_nextEnvelope (found : nextEnvelope max buf ≠ .more) : 4 ≤ buf.length := by
  by_contra short
  exact found (if_pos (Nat.not_le.mp short))

theorem nextEnvelope_item (found : nextEnvelope max buf = .item value rest) :
    ∃ len, fromBeBytes (buf.take 4) = len ∧ 0 < len ∧ len ≤ max ∧ 4 + len ≤ buf.length ∧
      value = (buf.drop 4).take len ∧ rest = buf.drop (4 + len) := by
  have long : 4 ≤ buf.length := long_of_nextEnvelope (show nextEnvelope max buf ≠ .more by simp [found])
  rw [nextEnvelope_of_length long rfl] at found
  split at found
  · cases found
  split at found
  · cases found
  split at found
  · cases found
  cases found
  exact ⟨_, rfl, by omega, by omega, by omega, rfl, rfl⟩

theorem nextEnvelope_stable (max : Nat) : Stable (nextEnvelope max) where
  shrinks := by
    intro held value rest found
    obtain ⟨len, -, some, -, whole, -, rfl⟩ := nextEnvelope_item found
    rw [List.length_drop]
    omega
  bad := by
    intro held e found later
    have long : 4 ≤ held.length := long_of_nextEnvelope (show nextEnvelope max held ≠ .more by simp [found])
    have header : (held ++ later).take 4 = held.take 4 := List.take_append_of_le_length long
    rw [nextEnvelope_of_length long rfl] at found
    rw [nextEnvelope_of_length (by rw [List.length_append]; omega) (congrArg fromBeBytes header)]
    -- the two refusals look at the length only
    by_cases zero : fromBeBytes (held.take 4) = 0
    · rwa [if_pos zero] at found ⊢
    by_cases large : fromBeBytes (held.take 4) > max
    · rwa [if_neg zero, if_pos large] at found ⊢
    rw [if_neg zero, if_neg large] at found
    split at found <;> cases found
  item := by
    intro held value rest found later
    obtain ⟨len, length, some, fits, whole, rfl, rfl⟩ := nextEnvelope_item found
    have header : (held ++ later).take 4 = held.take 4 := List.take_append_of_le_length (by omega)
    rw [nextEnvelope_of_length (by rw [List.length_append]; omega) (header ▸ length),
      if_neg (by omega), if_neg (by omega), if_neg (by rw [List.length_append]; omega),
      List.drop_append_of_le_length (by omega), List.drop_append_of_le_length (by omega),
      List.take_append_of_le_length (by rw [List.length_drop]; omega)]

/-- While the decoder waits, it holds less than the largest frame. -/
theorem length_of_nextEnvelope_more (waits : nextEnvelope max buf = .more) : buf.length < max + 4 := by
  by_cases short : buf.length < 4
  · omega
  rw [nextEnvelope_of_length (Nat.not_lt.mp short) rfl] at waits
  split at waits
  · cases waits
  split at waits
  · cases waits
  split at waits
  · omega
  · cases waits

theorem nextEnvelope_frame (some : envelope ≠ []) (fits : envelope.length ≤ max)
    (word : envelope.length ≤ u32Max) :
    nextEnvelope max (toBeBytes 4 envelope.length ++ (envelope ++ rest)) = .item envelope rest := by
  have size : (toBeBytes 4 envelope.length).length = 4 := toBeBytes_length 4 _
  have header : (toBeBytes 4 envelope.length ++ (envelope ++ rest)).take 4 = toBeBytes 4 envelope.length :=
    List.take_left' size
  have behind : (toBeBytes 4 envelope.length ++ (envelope ++ rest)).drop 4 = envelope ++ rest :=
    List.drop_left' size
  have length : fromBeBytes (toBeBytes 4 envelope.length) = envelope.length := by
    rw [fromBeBytes_toBeBytes]
    exact Nat.mod_eq_of_lt (Nat.lt_of_le_of_lt word (by decide))
  have positive : envelope.length ≠ 0 := List.length_eq_zero_iff.not.mpr some
  have whole : (toBeBytes 4 envelope.length ++ (envelope ++ rest)).length = 4 + (envelope.length + rest.length) := by
    rw [List.length_append, List.length_append, size]
  rw [nextEnvelope_of_length (by omega) (header ▸ length), if_neg positive, if_neg (by omega), if_neg (by omega),
    ← List.drop_drop, behind, List.take_left, List.drop_left]

theorem frameEnvelopes_drains (framed : frameEnvelopes max envelopes out = some bytes) :
    ∃ frames, bytes = out ++ frames ∧ Drains (nextEnvelope max) frames (.ok envelopes) [] := by
  induction envelopes generalizing out with
  | nil =>
    cases framed
    exact ⟨[], (List.append_nil _).symm, .more rfl⟩
  | cons envelope envelopes ih =>
    unfold frameEnvelopes frameEnvelope at framed
    split at framed
    next out' accepted =>
      split at accepted
      · cases accepted
      next some =>
      split at accepted
      · cases accepted
      next fits =>
      split at accepted
      · cases accepted
      next word =>
      cases accepted
      obtain ⟨frames, rfl, drains⟩ := ih framed
      refine ⟨toBeBytes 4 envelope.length ++ (envelope ++ frames), by simp, ?_⟩
      exact .item (nextEnvelope_frame some (Nat.not_lt.mp fits) (Nat.not_lt.mp word)) drains
    · cases framed

theorem feed_of_more {d : EnvelopeDecoder} (waits : nextEnvelope d.max (d.buf ++ bytes) = .more) :
    d.feed bytes = (if (d.buf ++ bytes).length > (d.max + 4) % 2 ^ 64 then .error .tooLarge else .ok [],
      { d with buf := d.buf ++ bytes }) := by
  unfold feed
  dsimp only
  rw [drain, waits]
  dsimp only
  split <;> rfl

/-! ### Whole streams -/

/-- Frames cut anywhere are decoded without an error, with less than a largest frame in the buffer after every
call, and give the envelopes in their order; and over any stream the first error is the same however it is cut.
-/
def CuttingIndependent (max : Nat) : Prop :=
  (∀ envelopes bytes, frameEnvelopes max envelopes [] = some bytes →
    ∀ before after : List Bytes, (before ++ after).flatten = bytes →
      ∃ out d, feedChunks feed (new max) before = .ok (out, d) ∧ d.buf.length < max + 4 ∧
        (after = [] → out = envelopes)) ∧
  ∀ first second : List Bytes, first.flatten = second.flatten → ∀ e,
    feedChunks feed (new max) first = .error e ↔ feedChunks feed (new max) second = .error e

section
variable (fits : max + 4 ≤ u64Max)
include fits

/-- As long as the sum of the last test fits in 64 bits, a call is one pass over the buffer. -/
theorem feed_drains (d : EnvelopeDecoder) (bytes : Bytes) (limit : d.max = max) :
    (d.feed bytes).2.max = max ∧
      Drains (nextEnvelope max) (d.buf ++ bytes) (d.feed bytes).1 (d.feed bytes).2.buf := by
  have passed := drains_drain (nextEnvelope_stable max) (Nat.lt_succ_self (d.buf ++ bytes).length)
  unfold feed
  rw [limit]
  dsimp only
  cases pass : drain (nextEnvelope max) ((d.buf ++ bytes).length + 1) (d.buf ++ bytes) with
  | mk result left =>
    rw [pass] at passed
    dsimp only at passed
    cases result with
    | error e => exact ⟨rfl, passed⟩
    | ok out =>
      have small := length_of_nextEnvelope_more (passed.settled rfl)
      have sum : (max + 4) % 2 ^ 64 = max + 4 := Nat.mod_eq_of_lt (Nat.lt_of_le_of_lt fits (by decide))
      dsimp only
      rw [sum, if_neg (by omega)]
      exact ⟨rfl, passed⟩

theorem feedChunks_new :
    ∃ result left, Drains (nextEnvelope max) chunks.flatten result left ∧
      ((∃ e, result = .error e ∧ feedChunks feed (new max) chunks = .error e) ∨
        ∃ items d, result = .ok items ∧ feedChunks feed (new max) chunks = .ok (items, d) ∧ d.buf = left) := by
  obtain ⟨result, left, drains, outcome⟩ := feedChunks_drains (nextEnvelope_stable max)
    (feed_drains fits) chunks (s := new max) rfl rfl
  refine ⟨result, left, drains, outcome.imp_right ?_⟩
  rintro ⟨items, d, ok, fed, same, -⟩
  exact ⟨items, d, ok, fed, same⟩

theorem cuttingIndependent_of_le : CuttingIndependent max := by
  constructor
  · intro envelopes bytes framed before after cut
    obtain ⟨frames, rfl, whole⟩ := frameEnvelopes_drains framed
    rw [List.flatten_append] at cut
    obtain ⟨result, left, drains, ⟨e, rfl, -⟩ | ⟨items, d, rfl, fed, rfl⟩⟩ := feedChunks_new fits
    · -- an error in the chunks so far would be one of the whole stream
      have failed := drains.append_error (nextEnvelope_stable max) rfl after.flatten
      rw [cut] at failed
      cases (whole.unique failed).1
    · refine ⟨items, d, fed, length_of_nextEnvelope_more (drains.settled rfl), ?_⟩
      rintro rfl
      rw [List.flatten_nil, List.append_nil] at cut
      rw [cut] at drains
      cases (whole.unique drains).1
      rfl
  · intro first second same e
    obtain ⟨result, left, drains, outcome⟩ := feedChunks_new fits
    obtain ⟨result', left', drains', outcome'⟩ := feedChunks_new fits
    rw [same] at drains
    obtain ⟨rfl, rfl⟩ := drains.unique drains'
    rcases outcome with ⟨e, rfl, failed⟩ | ⟨items, d, rfl, fed, -⟩
    · rcases outcome' with ⟨e', same, failed'⟩ | ⟨items', d', other, -, -⟩
      · cases same
        rw [failed, failed']
      · cases other
    · rcases outcome' with ⟨e', other, -⟩ | ⟨items', d', -, fed', -⟩
      · cases other
      · simp [fed, fed']

end

/-- Decoding does not depend on how a stream is cut exactly if the limit leaves room for a length in 64 bits:
beyond, the last test of `feed` compares with a sum that has wrapped around. -/
theorem cuttingIndependent_iff (max : UInt64) : CuttingIndependent max.toNat ↔ max.toNat + 4 ≤ u64Max := by
  refine ⟨fun independent => ?_, cuttingIndependent_of_le⟩
  by_contra wraps
  have word : max.toNat < 2 ^ 64 := max.toNat_lt
  have top : u64Max + 1 = 2 ^ 64 := by decide
  have sum : (max.toNat + 4) % 2 ^ 64 < 4 := by omega
  -- one envelope of one byte, cut behind its length
  have framed : frameEnvelopes max.toNat [[7]] [] = some [0, 0, 0, 1, 7] := by
    have accepted : frameEnvelope [] [7] max.toNat = some (.ok [0, 0, 0, 1, 7]) := by
      unfold frameEnvelope
      rw [if_neg (by decide), if_neg (by simp only [List.length_singleton]; omega), if_neg (by decide)]
      rfl
    rw [frameEnvelopes, accepted]
    rfl
  obtain ⟨out, d, fed, -, -⟩ := independent.1 _ _ framed [[0, 0, 0, 1]] [[7]] rfl
  have length : fromBeBytes (([0, 0, 0, 1] : Bytes).take 4) = 1 := rfl
  have waits : nextEnvelope max.toNat [0, 0, 0, 1] = .more := by
    rw [nextEnvelope_of_length (by decide) length, if_neg (by decide), if_neg (by omega), if_pos (by decide)]
  have refused : ((new max.toNat).feed [0, 0, 0, 1]).1 = .error .tooLarge := by
    rw [feed_of_more (show nextEnvelope (new max.toNat).max _ = .more from waits)]
    exact if_pos sum
  simp only [feedChunks] at fed
  split at fed
  · cases fed
  · simp_all

/-- At the largest limit an envelope decodes when its frame arrives at once, and is refused when the length
arrives first. -/
theorem largest_limit_refuses_cut :
    frameEnvelopes u64Max [[7]] [] = some [0, 0, 0, 1, 7] ∧
      feedChunks feed (new u64Max) [[0, 0, 0, 1, 7]] = .ok ([[7]], new u64Max) ∧
      feedChunks feed (new u64Max) [[0, 0, 0, 1], [7]] = .error .tooLarge := by
  decide +kernel

end EnvelopeDecoder
end UniversalMesh.Control
