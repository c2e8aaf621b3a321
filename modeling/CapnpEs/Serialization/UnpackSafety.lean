import CapnpEs.Serialization.PackedFormat

/-!
The two loops over a packed buffer with their indices: where each reads a tag, and where `unpack`
stores. Neither throws, both visit the same tags, and every store falls inside the output.
-/

namespace CapnpEs

open PackedTag (ZERO SPAN NONZERO_NONSPAN)

/-- The locals of `getUnpackedByteLength`, with the positions of the tags it has read. -/
structure CountRun where
  wordCount : Nat
  i : Nat
  tags : List Nat
  deriving DecidableEq, Repr

def countLoop (p : Bytes) (lastTag : UInt8) (run : CountRun) : CountRun :=
  if inside : run.i < p.length then
    let tag := p[run.i]
    let tags := run.tags ++ [run.i]
    if lastTag = ZERO then
      countLoop p NONZERO_NONSPAN { wordCount := run.wordCount + tag.toNat, i := run.i + 1, tags }
    else if lastTag = SPAN then
      countLoop p NONZERO_NONSPAN
        { wordCount := run.wordCount + tag.toNat, i := run.i + (tag.toNat * 8 + 1), tags }
    else
      countLoop p tag
        { wordCount := run.wordCount + 1, i := run.i + (getHammingWeight tag.toNat + 1), tags }
  else
    run
  termination_by p.length - run.i

/-- The locals of `unpack`, with the tags it has read and the ranges it has stored to. -/
structure UnpackRun where
  dst : Bytes
  srcByteOffset : Nat
  dstByteOffset : Nat
  tags : List Nat
  stores : List (Nat × Nat)
  deriving DecidableEq, Repr

def copyTag (src : Bytes) (tag : UInt8) : List UInt8 → UnpackRun → UnpackRun
  | [], run => run
  | i :: masks, run =>
      if tag &&& i ≠ 0 then
        copyTag src tag masks
          { run with
            dst := run.dst.set run.dstByteOffset (src.getD run.srcByteOffset 0)
            srcByteOffset := run.srcByteOffset + 1
            dstByteOffset := run.dstByteOffset + 1
            stores := run.stores ++ [(run.dstByteOffset, 1)] }
      else
        copyTag src tag masks { run with dstByteOffset := run.dstByteOffset + 1 }

theorem copyTag_offsets (src : Bytes) (tag : UInt8) (masks : List UInt8) (run : UnpackRun) :
    (copyTag src tag masks run).srcByteOffset = run.srcByteOffset + maskCount tag masks ∧
      (copyTag src tag masks run).dstByteOffset = run.dstByteOffset + masks.length ∧
      (copyTag src tag masks run).tags = run.tags ∧
      (copyTag src tag masks run).dst.length = run.dst.length := by
  induction masks generalizing run with
  | nil => simp [copyTag, maskCount]
  | cons mask masks ih =>
      rw [copyTag, maskCount, List.countP_cons]
      split
      · rename_i present
        obtain ⟨source, target, tags, length⟩ := ih
          { run with
            dst := run.dst.set run.dstByteOffset (src.getD run.srcByteOffset 0)
            srcByteOffset := run.srcByteOffset + 1
            dstByteOffset := run.dstByteOffset + 1
            stores := run.stores ++ [(run.dstByteOffset, 1)] }
        dsimp only at source target tags length
        rw [if_pos (by simpa using present), List.length_cons]
        rw [maskCount] at source
        refine ⟨by omega, by omega, tags, ?_⟩
        rw [length, List.length_set]
      · rename_i absent
        obtain ⟨source, target, tags, length⟩ :=
          ih { run with dstByteOffset := run.dstByteOffset + 1 }
        dsimp only at source target tags length
        rw [if_neg (by simpa using absent), List.length_cons]
        rw [maskCount] at source
        exact ⟨by omega, by omega, tags, length⟩

def unpackLoop (src : Bytes) (lastTag : UInt8) (run : UnpackRun) : Except CapnpError UnpackRun :=
  if inside : run.srcByteOffset < src.length then
    let tag := src[run.srcByteOffset]
    let tags := run.tags ++ [run.srcByteOffset]
    if lastTag = ZERO then
      unpackLoop src NONZERO_NONSPAN
        { run with
          srcByteOffset := run.srcByteOffset + 1
          dstByteOffset := run.dstByteOffset + tag.toNat * 8
          tags }
    else if lastTag = SPAN then
      let spanByteLength := tag.toNat * 8
      let span := (src.drop (run.srcByteOffset + 1)).take spanByteLength
      match setBytes run.dst span run.dstByteOffset with
      | .error reason => .error reason
      | .ok dst =>
          unpackLoop src NONZERO_NONSPAN
            { dst
              srcByteOffset := run.srcByteOffset + (1 + spanByteLength)
              dstByteOffset := run.dstByteOffset + spanByteLength
              tags
              stores := run.stores ++ [(run.dstByteOffset, span.length)] }
    else
      unpackLoop src tag
        (copyTag src tag tagMasks { run with srcByteOffset := run.srcByteOffset + 1, tags })
  else
    .ok run
  termination_by src.length - run.srcByteOffset
  decreasing_by
    · omega
    · omega
    · rw [(copyTag_offsets _ _ _ _).1]
      dsimp only
      omega

def countRun (packed : Bytes) : CountRun :=
  countLoop packed NONZERO_NONSPAN { wordCount := 0, i := 0, tags := [] }

def unpackRun (packed : Bytes) : Except CapnpError UnpackRun :=
  unpackLoop packed NONZERO_NONSPAN
    { dst := List.replicate (getUnpackedByteLength packed) 0
      srcByteOffset := 0
      dstByteOffset := 0
      tags := []
      stores := [] }

/-- What is left to count from position `i`. -/
theorem countWords_drop (p : Bytes) (lastTag : UInt8) {i : Nat} (inside : i < p.length) :
    countWords lastTag (p.drop i) =
      if lastTag = ZERO then p[i].toNat + countWords NONZERO_NONSPAN (p.drop (i + 1))
      else if lastTag = SPAN then
        p[i].toNat + countWords NONZERO_NONSPAN (p.drop (i + (p[i].toNat * 8 + 1)))
      else 1 + countWords p[i] (p.drop (i + (getHammingWeight p[i].toNat + 1))) := by
  rw [List.drop_eq_getElem_cons inside, countWords]
  simp only [List.drop_drop, Nat.add_assoc, Nat.add_comm 1]

theorem countLoop_wordCount (p : Bytes) (lastTag : UInt8) (run : CountRun) :
    (countLoop p lastTag run).wordCount = run.wordCount + countWords lastTag (p.drop run.i) := by
  induction lastTag, run using countLoop.induct p with
  | case1 run inside tag tags ih =>
      rw [countLoop, dif_pos inside, countWords_drop p _ inside]
      simp only [if_true]
      rw [ih, Nat.add_assoc]
  | case2 run inside tag tags notZero ih =>
      rw [countLoop, dif_pos inside, countWords_drop p _ inside]
      simp only [if_true, if_neg notZero]
      rw [ih, Nat.add_assoc]
  | case3 lastTag run inside tag tags notZero notSpan ih =>
      rw [countLoop, dif_pos inside, countWords_drop p _ inside]
      simp only [if_neg notZero, if_neg notSpan]
      rw [ih, Nat.add_assoc]
  | case4 lastTag run outside =>
      rw [countLoop, dif_neg outside, List.drop_eq_nil_of_le (by omega), countWords]
      rfl

theorem getUnpackedByteLength_countRun (packed : Bytes) :
    getUnpackedByteLength packed = (countRun packed).wordCount * 8 := by
  rw [countRun, countLoop_wordCount, getUnpackedByteLength]
  simp

theorem copyTag_copyTagged (src : Bytes) (tag : UInt8) (masks : List UInt8) (run : UnpackRun) :
    copyTagged tag masks run.dst run.dstByteOffset (src.drop run.srcByteOffset) =
      ((copyTag src tag masks run).dst, (copyTag src tag masks run).dstByteOffset,
        src.drop (copyTag src tag masks run).srcByteOffset) := by
  induction masks generalizing run with
  | nil => rfl
  | cons mask masks ih =>
      rw [copyTag, copyTagged]
      have head : (src.drop run.srcByteOffset).headD 0 = src.getD run.srcByteOffset 0 := by
        rw [List.headD_eq_head?_getD, List.head?_drop, List.getD_eq_getElem?_getD]
      rw [head, List.tail_drop]
      split
      · exact ih
          { run with
            dst := run.dst.set run.dstByteOffset (src.getD run.srcByteOffset 0)
            srcByteOffset := run.srcByteOffset + 1
            dstByteOffset := run.dstByteOffset + 1
            stores := run.stores ++ [(run.dstByteOffset, 1)] }
      · exact ih { run with dstByteOffset := run.dstByteOffset + 1 }

/-- The ranges that have been stored to lie inside the output. -/
def UnpackRun.Inside (run : UnpackRun) : Prop :=
  ∀ store ∈ run.stores, store.1 + store.2 ≤ run.dst.length

theorem UnpackRun.Inside.store {run : UnpackRun} (inside : run.Inside) {dst : Bytes} {offset count : Nat}
    (length : dst.length = run.dst.length) (fits : offset + count ≤ run.dst.length) :
    ∀ store ∈ run.stores ++ [(offset, count)], store.1 + store.2 ≤ dst.length := by
  intro store member
  rw [length]
  rcases List.mem_append.mp member with old | new
  · exact inside store old
  · rw [List.mem_singleton.mp new]
    exact fits

theorem copyTag_inside {src : Bytes} {tag : UInt8} {masks : List UInt8} {run : UnpackRun}
    (inside : run.Inside) (room : run.dstByteOffset + masks.length ≤ run.dst.length) :
    (copyTag src tag masks run).Inside := by
  induction masks generalizing run with
  | nil => exact inside
  | cons mask masks ih =>
      rw [List.length_cons] at room
      rw [copyTag]
      split
      · apply ih
        · exact inside.store (by simp) (by omega)
        · simp only [List.length_set]
          omega
      · apply ih
        · exact inside
        · dsimp only
          omega

theorem unpackLoop_spec (src : Bytes) (lastTag : UInt8) (run : UnpackRun) (inside : run.Inside)
    (room : run.dstByteOffset + countWords lastTag (src.drop run.srcByteOffset) * 8 = run.dst.length)
    (wordCount : Nat) :
    ∃ final, unpackLoop src lastTag run = .ok final ∧ final.Inside ∧
      final.dst.length = run.dst.length ∧ final.dstByteOffset = run.dst.length ∧
      final.tags = (countLoop src lastTag { wordCount, i := run.srcByteOffset, tags := run.tags }).tags ∧
      unpackFrom lastTag run.dst run.dstByteOffset (src.drop run.srcByteOffset) = .ok final.dst := by
  induction lastTag, run using unpackLoop.induct src generalizing wordCount with
  | case1 run bound tag tags ih =>
      rw [countWords_drop src _ bound, if_pos rfl] at room
      change _ + (tag.toNat + _) * 8 = _ at room
      obtain ⟨final, done, stores, length, full, same, bytes⟩ :=
        ih inside (by dsimp only; omega) (wordCount + tag.toNat)
      refine ⟨final, ?_, stores, length, full, ?_, ?_⟩
      · rw [unpackLoop, dif_pos bound]
        exact done
      · conv_rhs => rw [countLoop, dif_pos bound]
        exact same
      · rw [List.drop_eq_getElem_cons bound, unpackFrom, if_pos rfl]
        exact bytes
  | case2 run bound tag spanByteLength span reason refused notZero =>
      rw [countWords_drop src _ bound, if_neg notZero, if_pos rfl] at room
      change _ + (tag.toNat + _) * 8 = _ at room
      have size : span.length ≤ tag.toNat * 8 := by
        simp only [span, spanByteLength, List.length_take]
        omega
      rw [setBytes_eq (by omega)] at refused
      simp at refused
  | case3 run bound tag tags spanByteLength span dst stored notZero ih =>
      rw [countWords_drop src _ bound, if_neg notZero, if_pos rfl] at room
      change _ + (tag.toNat + countWords _ (src.drop (_ + (tag.toNat * 8 + 1)))) * 8 = _ at room
      have size : span.length ≤ tag.toNat * 8 := by
        simp only [span, spanByteLength, List.length_take]
        omega
      have kept := setBytes_length stored
      rw [Nat.add_comm _ 1] at room
      obtain ⟨final, done, stores, length, full, same, bytes⟩ :=
        ih (inside.store kept (by omega)) (by dsimp only [spanByteLength]; omega) (wordCount + tag.toNat)
      dsimp only at length full
      refine ⟨final, ?_, stores, by omega, by omega, ?_, ?_⟩
      · rw [unpackLoop, dif_pos bound]
        dsimp only
        rw [if_neg notZero, if_pos rfl, stored]
        exact done
      · conv_rhs => rw [countLoop, dif_pos bound]
        dsimp only
        rw [if_neg notZero, if_pos rfl, Nat.add_comm _ 1]
        exact same
      · rw [List.drop_eq_getElem_cons bound, unpackFrom, if_neg notZero, if_pos rfl, stored]
        simpa only [List.drop_drop, Nat.add_assoc] using bytes
  | case4 lastTag run bound tag tags notZero notSpan ih =>
      rw [countWords_drop src _ bound, if_neg notZero, if_neg notSpan] at room
      change _ + (1 + countWords tag (src.drop (_ + (getHammingWeight tag.toNat + 1)))) * 8 = _ at room
      let start : UnpackRun := { run with srcByteOffset := run.srcByteOffset + 1, tags }
      obtain ⟨source, target, kept, size⟩ := copyTag_offsets src tag tagMasks start
      have eight : tagMasks.length = 8 := rfl
      rw [maskCount_tagMasks] at source
      dsimp only [start] at source target kept size
      have position : run.srcByteOffset + 1 + getHammingWeight tag.toNat =
          run.srcByteOffset + (getHammingWeight tag.toNat + 1) := by omega
      rw [position] at source
      obtain ⟨final, done, stores, length, full, same, bytes⟩ :=
        ih (copyTag_inside inside (by dsimp only; omega)) (by rw [source, target, size]; omega) (wordCount + 1)
      refine ⟨final, ?_, stores, by omega, by omega, ?_, ?_⟩
      · rw [unpackLoop, dif_pos bound]
        dsimp only
        rw [if_neg notZero, if_neg notSpan]
        exact done
      · conv_rhs => rw [countLoop, dif_pos bound]
        dsimp only
        rw [if_neg notZero, if_neg notSpan, same, source, kept]
      · rw [List.drop_eq_getElem_cons bound, unpackFrom, if_neg notZero, if_neg notSpan]
        have copied := copyTag_copyTagged src tag tagMasks start
        dsimp only [start] at copied
        dsimp only
        rw [copied]
        exact bytes
  | case5 lastTag run outside =>
      rw [List.drop_eq_nil_of_le (by omega), countWords] at room
      refine ⟨run, ?_, inside, rfl, by omega, ?_, ?_⟩
      · rw [unpackLoop, dif_neg outside]
      · rw [countLoop, dif_neg outside]
      · rw [List.drop_eq_nil_of_le (by omega), unpackFrom]

/-- Any bytes unpack, cut off or not: `unpack` does not throw, fills its output exactly, and reads a
tag wherever `getUnpackedByteLength` did. -/
theorem unpack_safe (packed : Bytes) :
    ∃ run, unpackRun packed = .ok run ∧ unpack packed = .ok run.dst ∧
      run.dst.length = getUnpackedByteLength packed ∧
      (∀ store ∈ run.stores, store.1 + store.2 ≤ getUnpackedByteLength packed) ∧
      run.dstByteOffset = getUnpackedByteLength packed ∧
      run.tags = (countRun packed).tags ∧
      getUnpackedByteLength packed = (countRun packed).wordCount * 8 := by
  let start : UnpackRun :=
    { dst := List.replicate (getUnpackedByteLength packed) 0
      srcByteOffset := 0
      dstByteOffset := 0
      tags := []
      stores := [] }
  have size : start.dst.length = getUnpackedByteLength packed := List.length_replicate
  have room : start.dstByteOffset + countWords NONZERO_NONSPAN (packed.drop start.srcByteOffset) * 8 =
      start.dst.length := by
    rw [size, getUnpackedByteLength]
    simp [start]
  obtain ⟨run, done, inside, length, full, tags, bytes⟩ :=
    unpackLoop_spec packed NONZERO_NONSPAN start (by simp [UnpackRun.Inside, start]) room 0
  rw [size] at length full
  refine ⟨run, done, bytes, length, ?_, full, tags, getUnpackedByteLength_countRun packed⟩
  intro store member
  rw [← length]
  exact inside store member

/-- A span tag, its word, and a count of two words of which one byte is left. -/
example : unpackRun [0xff, 1, 2, 3, 4, 5, 6, 7, 8, 2, 9] =
    .ok
      { dst := [1, 2, 3, 4, 5, 6, 7, 8, 9] ++ List.replicate 15 0
        srcByteOffset := 26
        dstByteOffset := 24
        tags := [0, 9]
        stores := [(0, 1), (1, 1), (2, 1), (3, 1), (4, 1), (5, 1), (6, 1), (7, 1), (8, 1)] } := by
  decide +kernel

end CapnpEs
