import Norn.Foundation.Bytes

/-!
# Headers of constant length with one layer for every reader

A header has a fixed length.  The writer puts a slot of fixed width in front,
drops as many bytes at the end, and adds a key stream.  A reader appends a slot
of zeros, adds its stream, and takes the slot off the front; the header for the
next reader has the full length again, but its last bytes come from the stream
and not from the writer.

So the writer ends the innermost header with a filler, which it computes from
the streams of the earlier readers.  Then every header it writes is the one the
next reader finds, byte for byte.
-/

namespace Norn.Foundation

/-! ## Adding a stream -/

/-- Add `source` to the front of `target`, bit by bit. -/
def xorInto : List UInt8 → List UInt8 → List UInt8
  | [], _ => []
  | target, [] => target
  | byte :: target, mask :: source =>
    (byte ^^^ mask) :: xorInto target source

@[simp]
theorem length_xorInto (target source : List UInt8) :
    (xorInto target source).length = target.length := by
  induction target generalizing source with
  | nil => rfl
  | cons byte target induction =>
    cases source with
    | nil => rfl
    | cons mask source => simp [xorInto, induction]

/-- Adding the same stream twice changes nothing. -/
theorem xorInto_xorInto (target source : List UInt8) :
    xorInto (xorInto target source) source = target := by
  induction target generalizing source with
  | nil => rfl
  | cons byte target induction =>
    cases source with
    | nil => rfl
    | cons mask source =>
      simp only [xorInto, induction, UInt8.xor_assoc, UInt8.xor_self,
        UInt8.xor_zero]

theorem xorInto_append {front source : List UInt8}
    (sized : front.length = source.length) (back rest : List UInt8) :
    xorInto (front ++ back) (source ++ rest) =
      xorInto front source ++ xorInto back rest := by
  induction front generalizing source with
  | nil =>
    cases source with
    | nil => rfl
    | cons mask source => cases sized
  | cons byte front induction =>
    cases source with
    | nil => cases sized
    | cons mask source =>
      simp only [List.cons_append, xorInto]
      rw [induction (Nat.succ.inj sized)]

/-- Zeros become the stream. -/
theorem xorInto_zeros (source : List UInt8) :
    xorInto (List.replicate source.length 0) source = source := by
  induction source with
  | nil => rfl
  | cons mask source induction =>
    simp [List.replicate_succ, xorInto, induction]

namespace Bytes

/-- The sum of two arrays, bit by bit. -/
def xor {count : Nat} (left right : Bytes count) : Bytes count :=
  ⟨xorInto left.toList right.toList, by simp⟩

theorem xor_xor {count : Nat} (left right : Bytes count) :
    (left.xor right).xor right = left := by
  apply Bytes.ext
  exact xorInto_xorInto left.toList right.toList

/-- Two arrays, one after the other. -/
def append {first second : Nat} (left : Bytes first)
    (right : Bytes second) : Bytes (first + second) :=
  ⟨left.toList ++ right.toList, by simp⟩

@[simp]
theorem toList_append {first second : Nat} (left : Bytes first)
    (right : Bytes second) :
    (left.append right).toList = left.toList ++ right.toList :=
  rfl

/-- The front of an array. -/
def front {first second : Nat} (bytes : Bytes (first + second)) :
    Bytes first :=
  bytes.field 0 first (by omega)

/-- The back of an array. -/
def back {first second : Nat} (bytes : Bytes (first + second)) :
    Bytes second :=
  bytes.field first second (Nat.le_refl _)

@[simp]
theorem front_append {first second : Nat} (left : Bytes first)
    (right : Bytes second) : (left.append right).front = left :=
  @field_eq _ _ _ [] right.toList left rfl _ _ rfl

@[simp]
theorem back_append {first second : Nat} (left : Bytes first)
    (right : Bytes second) : (left.append right).back = right :=
  @field_eq _ _ _ left.toList [] right (by simp) _ _ (by simp)

theorem append_front_back {first second : Nat}
    (bytes : Bytes (first + second)) :
    bytes.front.append bytes.back = bytes := by
  apply Bytes.ext
  change
    (bytes.toList.drop 0).take first ++ (bytes.toList.drop first).take second =
      bytes.toList
  have rest : (bytes.toList.drop first).length ≤ second := by
    simp
  rw [List.drop_zero, List.take_of_length_le rest, List.take_append_drop]

end Bytes

namespace LayeredHeader

variable (width length : Nat)

/-- The header for a reader that is followed by another. -/
def wrap (stream slot inner : List UInt8) : List UInt8 :=
  xorInto (slot ++ inner.take (length - width)) (stream.take length)

/-- What a reader makes of its header. -/
def unwrap (stream header : List UInt8) : List UInt8 :=
  xorInto (header ++ List.replicate width 0) stream

/-- The bytes at the end of the next header, given those of this one. -/
def extendFiller (stream filler : List UInt8) : List UInt8 :=
  xorInto (filler ++ List.replicate width 0)
    (stream.drop (stream.length - (filler.length + width)))

@[simp]
theorem length_extendFiller (stream filler : List UInt8) :
    (extendFiller width stream filler).length = filler.length + width := by
  simp [extendFiller]

variable {width length}

section Step

variable {stream slot filler front : List UInt8}
variable (streamSized : stream.length = length + width)
variable (slotSized : slot.length = width)
variable (room : filler.length + width ≤ length)

include streamSized room

/-- The stream, cut where the filler begins and where the header ends. -/
theorem stream_eq_append :
    ∃ early middle late,
      stream = early ++ (middle ++ late) ∧
        early.length = length - filler.length ∧
        middle.length = filler.length ∧ late.length = width := by
  refine
    ⟨stream.take (length - filler.length),
      (stream.drop (length - filler.length)).take filler.length,
      (stream.drop (length - filler.length)).drop filler.length, ?_⟩
  rw [List.take_append_drop, List.take_append_drop]
  simp only [List.length_take, List.length_drop, true_and]
  omega

include slotSized

/--
Writing in front of a header that ends with the extended filler gives a header
that ends with the filler; reading it gives back the slot and the header.
-/
theorem wrap_unwrap
    (innerSized : front.length + (filler.length + width) = length) :
    (∃ outer,
        outer.length = length - filler.length ∧
          wrap width length stream slot
            (front ++ extendFiller width stream filler) =
            outer ++ filler) ∧
      unwrap width stream
          (wrap width length stream slot
            (front ++ extendFiller width stream filler)) =
        slot ++ (front ++ extendFiller width stream filler) := by
  rcases stream_eq_append streamSized room with
    ⟨early, middle, late, rfl, earlySized, middleSized, lateSized⟩
  have extended :
      extendFiller width (early ++ (middle ++ late)) filler =
        xorInto filler middle ++ late := by
    have start :
        (early ++ (middle ++ late)).length - (filler.length + width) =
          early.length := by
      rw [streamSized]
      omega
    unfold extendFiller
    rw [start, List.drop_left, xorInto_append middleSized.symm, ← lateSized,
      xorInto_zeros]
  have kept :
      (front ++ (xorInto filler middle ++ late)).take (length - width) =
        front ++ xorInto filler middle := by
    rw [← List.append_assoc]
    apply List.take_left'
    rw [List.length_append, length_xorInto]
    omega
  have streamFront :
      (early ++ (middle ++ late)).take length = early ++ middle := by
    rw [← List.append_assoc]
    apply List.take_left'
    rw [List.length_append]
    omega
  have outerSized : (slot ++ front).length = early.length := by
    rw [List.length_append]
    omega
  have written :
      wrap width length (early ++ (middle ++ late)) slot
          (front ++ (xorInto filler middle ++ late)) =
        xorInto (slot ++ front) early ++ filler := by
    unfold wrap
    rw [kept, streamFront, ← List.append_assoc, xorInto_append outerSized,
      xorInto_xorInto]
  rw [extended, written]
  constructor
  · refine ⟨xorInto (slot ++ front) early, ?_, rfl⟩
    rw [length_xorInto, outerSized, earlySized]
  · have streamed : (xorInto (slot ++ front) early).length = early.length := by
      rw [length_xorInto, outerSized]
    unfold unwrap
    rw [List.append_assoc, xorInto_append streamed, xorInto_xorInto,
      xorInto_append middleSized.symm, ← lateSized, xorInto_zeros]
    simp only [List.append_assoc]

end Step

/-- A reader finds its slot whatever stands at the end of the header. -/
theorem unwrap_front {stream slot filler : List UInt8}
    (streamSized : stream.length = length + width)
    (slotSized : slot.length = width)
    (room : filler.length + width ≤ length) (inner : List UInt8) :
    (unwrap width stream
          ((wrap width length stream slot inner).take
              (length - filler.length) ++ filler)).take width =
      slot := by
  obtain ⟨head, tail, rfl, headSized⟩ :
      ∃ head tail, stream = head ++ tail ∧ head.length = width := by
    refine ⟨stream.take width, stream.drop width, ?_, ?_⟩
    · exact (List.take_append_drop width stream).symm
    · rw [List.length_take]
      omega
  have firstSized : (xorInto slot head).length = head.length := by
    rw [length_xorInto, slotSized, headSized]
  have cut :
      (head ++ tail).take length =
        head ++ tail.take (length - head.length) := by
    rw [List.take_append, List.take_of_length_le (by omega)]
  obtain ⟨middle, split⟩ :
      ∃ middle,
        (wrap width length (head ++ tail) slot inner).take
          (length - filler.length) =
          xorInto slot head ++ middle := by
    unfold wrap
    rw [cut, xorInto_append (slotSized.trans headSized.symm),
      List.take_append, List.take_of_length_le (by omega)]
    exact ⟨_, rfl⟩
  unfold unwrap
  rw [split, List.append_assoc, List.append_assoc,
    xorInto_append firstSized, xorInto_xorInto, List.take_left' slotSized]

end LayeredHeader

end Norn.Foundation
