import CapnpEs.Library.Outcome
import CapnpEs.Serialization.Framing
import CapnpEs.Serialization.PackingRoundTrip
import Mathlib.Algebra.BigOperators.Group.List.Basic

/-! What the stream encoders write, and that the stream decoder reads it back. -/

namespace CapnpEs

open LittleEndian (memoryOf read store)

theorem DataView.setUint_eq {w : Nat} {b : Bytes} {o : Nat} (value : Int)
    (inside : o + w ≤ b.length) :
    DataView.setUint w b o value =
      .ok (LittleEndian.overwrite b o
        (LittleEndian.encode w (value % 256 ^ w).toNat)) := by
  rw [DataView.setUint, if_neg (by omega)]
  simp

theorem DataView.getUint_eq {w : Nat} {b : Bytes} {o : Nat}
    (inside : o + w ≤ b.length) :
    DataView.getUint w b o = .ok (read (memoryOf b) o w) := by
  rw [DataView.getUint, if_neg (by omega)]
  simp

/-! The frame header. -/

theorem writeSegmentSizes_spec (segments : List Segment) (out : Bytes) (i : Nat)
    (room : (i + segments.length) * 4 + 4 ≤ out.length) :
    ∃ after, writeSegmentSizes out i segments = .ok after ∧ after.length = out.length ∧
      (∀ address < i * 4 + 4, memoryOf after address = memoryOf out address) ∧
      ∀ j (bound : j < segments.length), read (memoryOf after) ((i + j) * 4 + 4) 4 =
        (segments[j].byteLength / 8 % 2 ^ 32).toNat := by
  induction segments generalizing out i with
  | nil => exact ⟨out, rfl, rfl, fun _ _ => rfl, fun j bound => by simp at bound⟩
  | cons s segments ih =>
      rw [List.length_cons] at room
      have fits : i * 4 + 4 + 4 ≤ out.length := by omega
      let patch := LittleEndian.encode 4 (s.byteLength / 8 % 256 ^ 4).toNat
      have patchFits : i * 4 + 4 + patch.length ≤ out.length := by
        simpa [patch] using fits
      obtain ⟨after, run, length, before, sizes⟩ :=
        ih (LittleEndian.overwrite out (i * 4 + 4) patch) (i + 1)
          (by rw [LittleEndian.overwrite_length patchFits]; omega)
      rw [LittleEndian.overwrite_length patchFits] at length
      rw [LittleEndian.memoryOf_overwrite patchFits] at before
      refine ⟨after, ?_, length, ?_, ?_⟩
      · have write := DataView.setUint_eq (s.byteLength / 8) fits
        push_cast at write
        rw [writeSegmentSizes, write]
        exact run
      · intro address bound
        rw [before address (by omega), store, if_neg (by omega)]
      · intro j bound
        cases j with
        | zero =>
            have written : read (memoryOf after) (i * 4 + 4) 4 =
                read (store (memoryOf out) (i * 4 + 4) patch) (i * 4 + 4) 4 :=
              LittleEndian.read_congr _ _ fun address _ upper => before address (by omega)
            change read (memoryOf after) (i * 4 + 4) 4 = (s.byteLength / 8 % 2 ^ 32).toNat
            rw [written, LittleEndian.read_store_same]
            omega
        | succ j =>
            have next := sizes j (by simpa using bound)
            rw [show i + (j + 1) = i + 1 + j by omega]
            simpa using next

theorem getStreamFrame_spec {m : Message} (some : 1 ≤ m.segments.length) :
    ∃ frame, getStreamFrame m = .ok frame ∧
      frame.length = 4 + m.segments.length * 4 + (1 - m.segments.length % 2) * 4 ∧
      read (memoryOf frame) 0 4 = (m.segments.length - 1) % 2 ^ 32 ∧
      ∀ j (bound : j < m.segments.length), read (memoryOf frame) (j * 4 + 4) 4 =
        (m.segments[j].byteLength / 8 % 2 ^ 32).toNat := by
  let frameLength := 4 + m.segments.length * 4 + (1 - m.segments.length % 2) * 4
  let zeros : Bytes := List.replicate frameLength 0
  let patch := LittleEndian.encode 4 (((m.segments.length : Int) - 1) % 256 ^ 4).toNat
  have patchFits : 0 + patch.length ≤ zeros.length := by
    simp only [patch, zeros, LittleEndian.encode_length, List.length_replicate]
    omega
  obtain ⟨frame, run, length, before, sizes⟩ :=
    writeSegmentSizes_spec m.segments (LittleEndian.overwrite zeros 0 patch) 0 (by
      rw [LittleEndian.overwrite_length patchFits, List.length_replicate]
      omega)
  rw [LittleEndian.overwrite_length patchFits, List.length_replicate] at length
  rw [LittleEndian.memoryOf_overwrite patchFits] at before
  refine ⟨frame, ?_, length, ?_, ?_⟩
  · have write := DataView.setUint_eq (w := 4) (b := zeros) (o := 0)
      ((m.segments.length : Int) - 1) (by simpa [patch] using patchFits)
    have array : newArrayBuffer (4 + m.segments.length * 4 + (1 - m.segments.length % 2) * 4) =
        .ok zeros := by
      rw [newArrayBuffer, if_neg (by omega)]
      congr 2
      simp only [frameLength]
      omega
    rw [getStreamFrame, if_neg (by omega)]
    change (newArrayBuffer _ >>= _) = _
    rw [show (((4 + m.segments.length * 4 + (1 - m.segments.length % 2) * 4 : Nat)) : Int) =
      4 + m.segments.length * 4 + (1 - m.segments.length % 2) * 4 by omega, array]
    change (DataView.setUint 4 zeros ((0 : Nat) : Int) _ >>= _) = _
    rw [write]
    exact run
  · have written : read (memoryOf frame) 0 4 = read (store (memoryOf zeros) 0 patch) 0 4 :=
      LittleEndian.read_congr _ _ fun address _ upper => before address (by omega)
    rw [written, LittleEndian.read_store_same]
    omega
  · intro j bound
    have size := sizes j bound
    rwa [Nat.zero_add] at size

theorem getStreamFrame_congr {m other : Message}
    (same : m.segments.map (·.byteLength) = other.segments.map (·.byteLength)) :
    getStreamFrame m = getStreamFrame other := by
  have lengths : m.segments.length = other.segments.length := by
    simpa using congrArg List.length same
  have sizes : ∀ (left right : List Segment) (out : Bytes) (i : Nat),
      left.map (·.byteLength) = right.map (·.byteLength) →
        writeSegmentSizes out i left = writeSegmentSizes out i right := by
    intro left
    induction left with
    | nil =>
        intro right out i equal
        rw [List.map_nil, eq_comm, List.map_eq_nil_iff] at equal
        rw [equal]
    | cons s left ih =>
        intro right out i equal
        cases right with
        | nil => simp at equal
        | cons t right =>
            simp only [List.map_cons, List.cons.injEq] at equal
            simp only [writeSegmentSizes, equal.1, ih right _ _ equal.2]
  simp only [getStreamFrame, lengths, sizes _ _ _ _ same]

/-! The body: the padded views of the segments, one behind the other. -/

def segmentViews (segments : List Segment) : Except CapnpError (List Bytes) :=
  segments.mapM fun s => uint8View s.buffer 0 (padToWord s.byteLength)

theorem segmentViews_length {segments : List Segment} {views : List Bytes}
    (found : segmentViews segments = .ok views) :
    (segments.map fun s => padToWord s.byteLength).sum = views.flatten.length := by
  induction segments generalizing views with
  | nil =>
      cases found
      rfl
  | cons s segments ih =>
      rw [segmentViews, List.mapM_cons, Outcome.except_bind_eq_ok] at found
      obtain ⟨view, head, found⟩ := found
      rw [Outcome.except_bind_eq_ok] at found
      obtain ⟨rest, tail, found⟩ := found
      cases found
      have length := uint8View_length head
      rw [List.map_cons, List.sum_cons, ih tail, List.flatten_cons, List.length_append]
      omega

/-- Copying into a buffer of zeros behind `front` appends the views. -/
theorem copySegments_views {segments : List Segment} {views : List Bytes}
    (found : segmentViews segments = .ok views) (front : Bytes) :
    copySegments (front ++ List.replicate views.flatten.length 0) front.length segments =
      .ok (front ++ views.flatten) := by
  induction segments generalizing views front with
  | nil =>
      cases found
      simp [copySegments]
  | cons s segments ih =>
      rw [segmentViews, List.mapM_cons, Outcome.except_bind_eq_ok] at found
      obtain ⟨view, head, found⟩ := found
      rw [Outcome.except_bind_eq_ok] at found
      obtain ⟨rest, tail, found⟩ := found
      cases found
      have length := uint8View_length head
      have placed : setBytes (front ++ List.replicate (view ++ rest.flatten).length 0) view
          front.length = .ok ((front ++ view) ++ List.replicate rest.flatten.length 0) := by
        have zeros : List.replicate (view ++ rest.flatten).length (0 : UInt8) =
            List.replicate view.length 0 ++ List.replicate rest.flatten.length 0 := by
          rw [List.length_append, List.replicate_add]
        rw [setBytes_eq (by simp only [List.length_append, List.length_replicate]; omega), zeros,
          List.take_left, ← List.append_assoc front, List.drop_left' (by simp)]
      have next := ih tail (front ++ view)
      rw [copySegments, head]
      change (setBytes _ _ ((front.length : Int).toNat) >>= _) = _
      rw [Int.toNat_natCast, List.flatten_cons, placed]
      change copySegments _ (front.length + padToWord s.byteLength) segments = _
      rw [← length, show (front.length : Int) + view.length = (front ++ view).length by simp, next,
        List.append_assoc]

theorem copySegments_eq_ok {segments : List Segment} {out after : Bytes} {o : Int}
    (done : copySegments out o segments = .ok after) : ∃ views, segmentViews segments = .ok views := by
  induction segments generalizing out o with
  | nil => exact ⟨[], rfl⟩
  | cons s segments ih =>
      simp only [copySegments, Outcome.except_bind_eq_ok] at done
      obtain ⟨view, head, middle, _, rest⟩ := done
      obtain ⟨views, tail⟩ := ih rest
      refine ⟨view :: views, ?_⟩
      rw [segmentViews] at tail ⊢
      rw [List.mapM_cons, head, tail]
      rfl

theorem joinSegments_views {segments : List Segment} {views : List Bytes}
    (found : segmentViews segments = .ok views) (streamFrame : Bytes) :
    joinSegments streamFrame segments = .ok (streamFrame ++ views.flatten) := by
  have array : newArrayBuffer (streamFrame.length + (views.flatten.length : Int)) =
      .ok (List.replicate (streamFrame.length + views.flatten.length) 0) := by
    rw [newArrayBuffer, if_neg (by omega)]
    congr 2
  have placed : setBytes (List.replicate (streamFrame.length + views.flatten.length) 0)
      streamFrame 0 = .ok (streamFrame ++ List.replicate views.flatten.length 0) := by
    rw [setBytes_eq (by simp)]
    simp [List.drop_replicate]
  rw [joinSegments, segmentViews_length found, array]
  change (setBytes _ _ _ >>= _) = _
  rw [placed]
  exact copySegments_views found streamFrame

theorem joinSegments_eq_ok {segments : List Segment} {streamFrame bytes : Bytes}
    (done : joinSegments streamFrame segments = .ok bytes) :
    ∃ views, segmentViews segments = .ok views := by
  simp only [joinSegments, Outcome.except_bind_eq_ok] at done
  obtain ⟨array, _, out, _, copied⟩ := done
  exact copySegments_eq_ok copied

theorem toArrayBuffer_eq_ok {m after : Message} {bytes : Bytes} :
    m.toArrayBuffer = .ok bytes after ↔
      ∃ streamFrame, getStreamFrame m = .ok streamFrame ∧ m.ensureFirstSegment = .ok () after ∧
        joinSegments streamFrame after.segments = .ok bytes := by
  simp only [Message.toArrayBuffer, Outcome.bind_eq_ok, Outcome.get_apply, Outcome.ofExcept_eq_ok]
  constructor
  · rintro ⟨_, _, same, frame, _, ⟨found, rfl⟩, _, middle, ensured, _, _, again, joined, rfl⟩
    cases same
    cases again
    exact ⟨frame, found, ensured, joined⟩
  · rintro ⟨frame, found, ensured, joined⟩
    exact ⟨m, m, rfl, frame, m, ⟨found, rfl⟩, (), after, ensured, after, after, rfl, joined, rfl⟩

theorem toPackedArrayBuffer_eq_ok {m after : Message} {packed : Bytes} :
    m.toPackedArrayBuffer = .ok packed after ↔
      ∃ streamFrame header segments, getStreamFrame m = .ok streamFrame ∧
        pack streamFrame = .ok header ∧ m.ensureFirstSegment = .ok () after ∧
        after.segments.mapM (fun s => packView s.buffer 0 (padToWord s.byteLength)) = .ok segments ∧
        packed = header ++ segments.flatten := by
  simp only [Message.toPackedArrayBuffer, Outcome.bind_eq_ok, Outcome.get_apply,
    Outcome.ofExcept_eq_ok, Outcome.except_bind_eq_ok, Outcome.pure_apply]
  constructor
  · rintro ⟨_, _, same, header, _, ⟨⟨frame, found, packed⟩, rfl⟩, _, middle, ensured, _, _, again,
      segments, _, ⟨all, rfl⟩, joined⟩
    cases same
    cases again
    cases joined
    exact ⟨frame, header, segments, found, packed, ensured, all, rfl⟩
  · rintro ⟨frame, header, segments, found, packed, ensured, all, rfl⟩
    exact ⟨m, m, rfl, header, m, ⟨⟨frame, found, packed⟩, rfl⟩, (), after, ensured, after, after,
      rfl, segments, after, ⟨all, rfl⟩, rfl⟩

end CapnpEs
