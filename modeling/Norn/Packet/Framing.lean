import Norn.Packet.Groups
import Norn.Router.Wire

/-!
# Frames on a stream

`write_frame`, `write_frames_batched` and `read_frame` of `packet.rs`.  A frame
is written as its length and its bytes; the reader takes the length byte by
byte, so that it never takes a byte of what follows.

A stream hands out its bytes in pieces of any size.  `read_exact` puts them
together, and whatever the pieces, what was written is read frame by frame.
-/

namespace Norn.Packet

open Foundation
open Router (maxFrameLength)

variable {head : List UInt8}

/-- The bytes that `write_frame` writes. -/
def writeFrame (data : List UInt8) : List UInt8 :=
  encodeUvarint (UInt64.ofNat data.length) ++ data

/-- The bytes that `write_frames_batched` writes. -/
def writeFramesBatched : List (List UInt8) → List UInt8
  | [] => []
  | [frame] => writeFrame frame
  | frames =>
    frames.foldl
      (fun buf frame =>
        buf ++ encodeUvarint (UInt64.ofNat frame.length) ++ frame) []

theorem foldl_append_frames (frames : List (List UInt8)) (buf : List UInt8) :
    frames.foldl
        (fun buf frame =>
          buf ++ encodeUvarint (UInt64.ofNat frame.length) ++ frame) buf =
      buf ++ (frames.map writeFrame).flatten := by
  induction frames generalizing buf with
  | nil => simp
  | cons frame frames induction =>
    rw [List.foldl_cons, induction]
    simp [writeFrame]

theorem writeFramesBatched_eq_flatten (frames : List (List UInt8)) :
    writeFramesBatched frames = (frames.map writeFrame).flatten := by
  match frames with
  | [] => rfl
  | [frame] => simp [writeFramesBatched]
  | first :: second :: frames =>
    exact foldl_append_frames (first :: second :: frames) []

/--
The bytes of a stream that have not been read.  `sizes` says how many bytes
beyond the first each read hands out at most.
-/
structure Stream where
  bytes : List UInt8
  sizes : Nat → Nat
  reads : Nat

namespace Stream

/-- One read into a buffer with so much room. -/
def read (self : Stream) (room : Nat) : List UInt8 × Stream :=
  let count := min room (self.sizes self.reads + 1)
  (self.bytes.take count,
    { self with bytes := self.bytes.drop count, reads := self.reads + 1 })

/--
The loop of `read_exact`: reads until nothing is missing or the stream has
ended.  Every round brings a byte, so there are at most as many rounds as
bytes are missing.
-/
def readExactLoop :
    Nat → Nat → List UInt8 → Stream → Except FrameError (List UInt8 × Stream)
  | 0, _, filled, stream => .ok (filled, stream)
  | rounds + 1, missing, filled, stream =>
    if missing = 0 then
      .ok (filled, stream)
    else
      let (chunk, stream) := stream.read missing
      if chunk = [] then
        .error .earlyEof
      else
        readExactLoop rounds (missing - chunk.length) (filled ++ chunk) stream

/-- `read_exact`. -/
def readExact (self : Stream) (count : Nat) :
    Except FrameError (List UInt8 × Stream) :=
  readExactLoop count count [] self

/--
The loop of `read_frame` over the bytes of the length, with room for so many
further bytes.
-/
def readLengthLoop :
    Nat → List UInt8 → Stream → Except FrameError (List UInt8 × Stream)
  | 0, _, _ => .error .lengthTooLong
  | room + 1, lenBytes, stream => do
      let (lenBuf, stream) ← stream.readExact 1
      let lenBytes := lenBytes ++ lenBuf
      if lenBuf.headD 0 &&& 0x80 = 0 then
        .ok (lenBytes, stream)
      else if 9 < lenBytes.length then
        .error .lengthTooLong
      else
        readLengthLoop room lenBytes stream

/-- `read_frame`. -/
def readFrame (self : Stream) : Except FrameError (List UInt8 × Stream) := do
  let (lenBytes, stream) ← readLengthLoop 10 [] self
  let (length, _) ← decodeUvarint lenBytes
  if length = 0 then
    .ok ([], stream)
  else if 1024 * 1024 < length.toNat then
    .error (.frameTooLarge length)
  else
    stream.readExact length.toNat

/-- `read_frame`, so many times. -/
def readFrames : Nat → Stream → Except FrameError (List (List UInt8) × Stream)
  | 0, stream => .ok ([], stream)
  | count + 1, stream => do
      let (frame, stream) ← stream.readFrame
      let (frames, stream) ← readFrames count stream
      .ok (frame :: frames, stream)

end Stream

/-- A whole length: only its last byte has a clear top bit. -/
def WholeLength (head : List UInt8) : Prop :=
  lastPosition head + 1 = head.length

instance : DecidablePred WholeLength :=
  fun head => inferInstanceAs (Decidable (lastPosition head + 1 = _))

/-- The number that a whole length writes. -/
def written (head : List UInt8) : Nat := groupSum head head.length

/-- The number it is read as: a tenth group is shifted out of the word. -/
def announced (head : List UInt8) : Nat := written head % 2 ^ 64

theorem announced_eq_written (short : head.length ≤ 9) :
    announced head = written head := by
  have fits := groupSum_lt head head.length
  have room : 128 ^ head.length ≤ 128 ^ 9 :=
    Nat.pow_le_pow_right (by decide) short
  exact Nat.mod_eq_of_lt
    (Nat.lt_trans (Nat.lt_of_lt_of_le fits room) (by decide))

theorem wholeLength_cons_of_not {byte : UInt8} (marked : ¬IsLast byte) :
    WholeLength (byte :: head) ↔ WholeLength head := by
  rw [WholeLength, lastPosition_cons_of_not marked, List.length_cons,
    WholeLength]
  omega

theorem eq_nil_of_wholeLength {byte : UInt8} (last : IsLast byte)
    (whole : WholeLength (byte :: head)) :
    head = [] := by
  rw [WholeLength, lastPosition_cons_of_last last, List.length_cons] at whole
  exact List.eq_nil_of_length_eq_zero (by omega)

theorem exists_wholeLength {bytes : List UInt8}
    (found : lastPosition bytes < bytes.length) :
    WholeLength (bytes.take (lastPosition bytes + 1)) := by
  simp only [WholeLength, lastPosition, List.findIdx_take, List.length_take]
    at found ⊢
  omega

theorem lastPosition_append (whole : WholeLength head) (rest : List UInt8) :
    lastPosition (head ++ rest) + 1 = head.length := by
  unfold WholeLength lastPosition at whole
  rw [lastPosition, List.findIdx_append, if_pos (by omega), whole]

theorem decodeUvarint_whole (whole : WholeLength head)
    (short : head.length ≤ 10) :
    ∃ length : UInt64,
      decodeUvarint head = .ok (length, head.length) ∧
        length.toNat = announced head := by
  unfold WholeLength at whole
  rcases @decodeUvarintLoop_accepts head 0 0 (by omega) (by omega)
    Nat.one_pos with
    ⟨length, consumed, decoded⟩
  rcases decodeUvarint_value decoded with ⟨_, counted, _, value⟩
  rw [whole] at counted
  subst counted
  exact ⟨length, decoded, value⟩

theorem wholeLength_encodeUvarint (v : UInt64) :
    WholeLength (encodeUvarint v) := by
  have decoded := decodeUvarint_encodeUvarint v []
  rw [List.append_nil] at decoded
  exact (decodeUvarint_value decoded).2.1.symm

/-! ## Reading what was written -/

namespace Stream

variable (sizes : Nat → Nat)

/-- However the bytes arrive, a read gets the first of them or too few. -/
theorem readExactLoop_eq {rounds missing : Nat} (enough : missing ≤ rounds)
    (bytes filled : List UInt8) (reads : Nat) :
    ∃ later,
      readExactLoop rounds missing filled ⟨bytes, sizes, reads⟩ =
        if missing ≤ bytes.length then
          .ok (filled ++ bytes.take missing, ⟨bytes.drop missing, sizes, later⟩)
        else
          .error .earlyEof := by
  induction rounds generalizing missing bytes filled reads with
  | zero =>
    have none : missing = 0 := Nat.le_zero.mp enough
    subst none
    exact ⟨reads, by simp [readExactLoop]⟩
  | succ rounds induction =>
    by_cases full : missing = 0
    · subst full
      exact ⟨reads, by simp [readExactLoop]⟩
    · have count : ∃ count, count = min missing (sizes reads + 1) := ⟨_, rfl⟩
      rcases count with ⟨count, chosen⟩
      simp only [readExactLoop, if_neg full, read, ← chosen]
      by_cases ended : bytes.take count = []
      · refine ⟨reads, ?_⟩
        have size := congrArg List.length ended
        rw [List.length_take, List.length_nil] at size
        rw [if_pos ended, if_neg (by omega)]
      · have size := List.length_pos_of_ne_nil ended
        rw [List.length_take] at size
        rcases @induction (missing - (bytes.take count).length)
            (by rw [List.length_take]; omega) (bytes.drop count)
            (filled ++ bytes.take count) (reads + 1) with
          ⟨later, rest⟩
        refine ⟨later, ?_⟩
        rw [if_neg ended, rest, List.length_take, List.length_drop]
        by_cases there : missing ≤ bytes.length
        · have taken : min count bytes.length = count := by
            omega
          have sum : count + (missing - count) = missing := by
            omega
          rw [taken, if_pos there, if_pos (by omega),
            List.append_assoc, ← List.take_add, List.drop_drop, sum]
        · rw [if_neg there, if_neg (by omega)]

theorem readExact_eq (bytes : List UInt8) (count reads : Nat) :
    ∃ later,
      readExact ⟨bytes, sizes, reads⟩ count =
        if count ≤ bytes.length then
          .ok (bytes.take count, ⟨bytes.drop count, sizes, later⟩)
        else
          .error .earlyEof :=
  readExactLoop_eq sizes (Nat.le_refl count) bytes [] reads

theorem readLengthLoop_nil (room : Nat) (lenBytes : List UInt8) (reads : Nat) :
    readLengthLoop (room + 1) lenBytes ⟨[], sizes, reads⟩ =
      .error .earlyEof := by
  rcases readExact_eq sizes [] 1 reads with ⟨later, ended⟩
  rw [if_neg (by simp)] at ended
  simp only [readLengthLoop, ended]
  rfl

theorem readLengthLoop_cons (room : Nat) (lenBytes : List UInt8) (byte : UInt8)
    (rest : List UInt8) (reads : Nat) :
    ∃ later,
      readLengthLoop (room + 1) lenBytes ⟨byte :: rest, sizes, reads⟩ =
        if IsLast byte then
          .ok (lenBytes ++ [byte], ⟨rest, sizes, later⟩)
        else if 9 < lenBytes.length + 1 then
          .error .lengthTooLong
        else
          readLengthLoop room (lenBytes ++ [byte]) ⟨rest, sizes, later⟩ := by
  rcases readExact_eq sizes (byte :: rest) 1 reads with ⟨later, taken⟩
  refine ⟨later, ?_⟩
  rw [if_pos (by simp)] at taken
  simp only [List.take_succ_cons, List.take_zero, List.drop_succ_cons,
    List.drop_zero] at taken
  simp only [readLengthLoop, taken, ok_bind, List.headD_cons,
    List.length_append, List.length_singleton]
  rfl

theorem readLengthLoop_whole (sizes : Nat → Nat) {head : List UInt8}
    (whole : WholeLength head) {room : Nat} {lenBytes : List UInt8}
    (fits : lenBytes.length + room = 10) (inside : head.length ≤ room)
    (rest : List UInt8) (reads : Nat) :
    ∃ later,
      readLengthLoop room lenBytes ⟨head ++ rest, sizes, reads⟩ =
        .ok (lenBytes ++ head, ⟨rest, sizes, later⟩) := by
  induction head generalizing room lenBytes reads with
  | nil => cases whole
  | cons byte head induction =>
    cases room with
    | zero => cases inside
    | succ room =>
      rcases readLengthLoop_cons sizes room lenBytes byte (head ++ rest)
          reads with
        ⟨next, round⟩
      rw [List.cons_append, round]
      by_cases last : IsLast byte
      · have single := eq_nil_of_wholeLength last whole
        subst single
        exact ⟨next, if_pos last⟩
      · have tail := (wholeLength_cons_of_not last).mp whole
        have more : 0 < head.length := by
          unfold WholeLength at tail
          omega
        rw [List.length_cons] at inside
        rw [if_neg last, if_neg (by omega)]
        rcases @induction tail room (lenBytes ++ [byte])
            (by rw [List.length_append, List.length_singleton]; omega)
            (by omega) next with
          ⟨later, stopped⟩
        refine ⟨later, ?_⟩
        rw [stopped, List.append_assoc, List.singleton_append]

theorem readLengthLoop_marked (sizes : Nat → Nat) {room : Nat}
    {lenBytes bytes : List UInt8} (fits : lenBytes.length + room = 10)
    (positive : 0 < room)
    (marked : min room bytes.length ≤ lastPosition bytes) (reads : Nat) :
    readLengthLoop room lenBytes ⟨bytes, sizes, reads⟩ =
      .error (if bytes.length < room then .earlyEof else .lengthTooLong) := by
  induction room generalizing lenBytes bytes reads with
  | zero => cases positive
  | succ room induction =>
    cases bytes with
    | nil =>
      rw [readLengthLoop_nil, List.length_nil, if_pos positive]
    | cons byte rest =>
      rw [List.length_cons] at marked ⊢
      by_cases last : IsLast byte
      · rw [lastPosition_cons_of_last last] at marked
        omega
      · rw [lastPosition_cons_of_not last] at marked
        rcases readLengthLoop_cons sizes room lenBytes byte rest reads with
          ⟨next, round⟩
        rw [round, if_neg last]
        by_cases full : 9 < lenBytes.length + 1
        · rw [if_pos full, if_neg (by omega)]
        · rw [if_neg full,
            induction
              (by
                rw [List.length_append, List.length_singleton]
                omega)
              (by omega) (by omega) next]
          simp only [Nat.succ_lt_succ_iff]

/-- `read_frame` behind a whole length of ten bytes at most. -/
theorem readFrame_whole {head : List UInt8} (whole : WholeLength head)
    (short : head.length ≤ 10) (rest : List UInt8) (reads : Nat) :
    ∃ later,
      readFrame ⟨head ++ rest, sizes, reads⟩ =
        if announced head ≤ 1024 * 1024 then
          if announced head ≤ rest.length then
            .ok
              (rest.take (announced head),
              ⟨rest.drop (announced head), sizes, later⟩)
          else
            .error .earlyEof
        else
          .error (.frameTooLarge (UInt64.ofNat (announced head))) := by
  rcases @readLengthLoop_whole sizes head whole 10 [] rfl (by omega) rest
    reads with
    ⟨behind, lengthRead⟩
  rcases decodeUvarint_whole whole short with ⟨length, decoded, value⟩
  rcases readExact_eq sizes rest (announced head) behind with ⟨later, taken⟩
  have empty : length = 0 ↔ announced head = 0 := by
    rw [← UInt64.toNat_inj, value]
    rfl
  simp only [readFrame, lengthRead, ok_bind, List.nil_append, decoded, value,
    empty]
  by_cases nothing : announced head = 0
  · exact ⟨behind, by simp [nothing]⟩
  · refine ⟨later, ?_⟩
    rw [if_neg nothing, taken, ← value, UInt64.ofNat_toNat, value]
    by_cases small : announced head ≤ 1024 * 1024
    · rw [if_pos small, if_neg (Nat.not_lt.mpr small)]
    · rw [if_neg small, if_pos (Nat.not_le.mp small)]

/-- A written frame is read back, and what follows it is left. -/
theorem readFrame_append {frame : List UInt8}
    (short : frame.length ≤ maxFrameLength) (rest : List UInt8) (reads : Nat) :
    ∃ later,
      readFrame ⟨writeFrame frame ++ rest, sizes, reads⟩ =
        .ok (frame, ⟨rest, sizes, later⟩) := by
  have small : frame.length ≤ 1048576 := short
  have length : (UInt64.ofNat frame.length).toNat = frame.length := by
    rw [UInt64.toNat_ofNat']
    omega
  have nine : (encodeUvarint (UInt64.ofNat frame.length)).length ≤ 9 :=
    length_encodeUvarintLoop_le 10 (by omega)
  have whole := wholeLength_encodeUvarint (UInt64.ofNat frame.length)
  have value :
      written (encodeUvarint (UInt64.ofNat frame.length)) =
        frame.length := by
    rcases decodeUvarint_whole whole (by omega) with ⟨read, decoded, exact⟩
    have back := decodeUvarint_encodeUvarint (UInt64.ofNat frame.length) []
    rw [List.append_nil, decoded] at back
    rw [← announced_eq_written nine, ← exact,
      (Prod.mk.inj (Except.ok.inj back)).1, length]
  rcases readFrame_whole sizes whole (by omega) (frame ++ rest) reads with
    ⟨later, taken⟩
  refine ⟨later, ?_⟩
  rw [writeFrame, List.append_assoc, taken,
    announced_eq_written nine, value, if_pos (by omega),
    if_pos (by simp), List.take_left, List.drop_left]

theorem readFrames_flatten {frames : List (List UInt8)}
    (short : ∀ frame ∈ frames, frame.length ≤ maxFrameLength)
    (rest : List UInt8) (reads : Nat) :
    ∃ later,
      readFrames frames.length
        ⟨(frames.map writeFrame).flatten ++ rest, sizes, reads⟩ =
        .ok (frames, ⟨rest, sizes, later⟩) := by
  induction frames generalizing reads with
  | nil => exact ⟨reads, by simp [readFrames]⟩
  | cons frame frames induction =>
    rcases readFrame_append sizes (short frame (by simp))
        ((frames.map writeFrame).flatten ++ rest) reads with
      ⟨next, first⟩
    rcases induction (fun other member => short other (by simp [member]))
        next with
      ⟨later, others⟩
    refine ⟨later, ?_⟩
    simp only [List.map_cons, List.flatten_cons, List.length_cons,
      List.append_assoc, readFrames, first, others, ok_bind]

end Stream

/--
A batch is written as its frames one after the other, and from any stream that
goes on with it, in any pieces, `read_frame` takes just these frames.
-/
theorem frames_survive_any_split (frames : List (List UInt8))
    (short : ∀ frame ∈ frames, frame.length ≤ maxFrameLength)
    (rest : List UInt8) (sizes : Nat → Nat) (reads : Nat) :
    writeFramesBatched frames = (frames.map writeFrame).flatten ∧
      ∃ later,
        Stream.readFrames frames.length
            ⟨writeFramesBatched frames ++ rest, sizes, reads⟩ =
          .ok (frames, ⟨rest, sizes, later⟩) := by
  rw [writeFramesBatched_eq_flatten]
  exact ⟨rfl, Stream.readFrames_flatten sizes short rest reads⟩

/-- Three frames, one of them empty, on a stream that trickles. -/
theorem three_frames_trickle :
    writeFramesBatched [[1, 2, 3], [], [4]] =
        ([[1, 2, 3], [], [4]].map writeFrame).flatten ∧
      ∃ later,
        Stream.readFrames 3
            ⟨writeFramesBatched [[1, 2, 3], [], [4]] ++ [9, 9], fun _ => 0, 0⟩ =
          .ok ([[1, 2, 3], [], [4]], ⟨[9, 9], fun _ => 0, later⟩) :=
  frames_survive_any_split [[1, 2, 3], [], [4]] (by decide) [9, 9]
    (fun _ => 0) 0

/-! ## Which frames are accepted -/

/-- What `read_frame` is meant to do with a stream. -/
structure FramesAsWritten (stream : Stream) : Prop where
  /--
  A frame is accepted only if its length takes at most nine bytes and writes
  at most 1048576, and it consists of just as many bytes.
  -/
  accepted :
    ∀ frame later, stream.readFrame = .ok (frame, later) →
      ∃ head rest, stream.bytes = head ++ rest ∧ WholeLength head ∧
        head.length ≤ 9 ∧ written head ≤ 1048576 ∧
        frame = rest.take (written head) ∧
        frame.length = written head ∧
        later.bytes = rest.drop (written head)
  /-- Such a frame is accepted once all of it is there. -/
  accepts :
    ∀ head rest, stream.bytes = head ++ rest → WholeLength head →
      head.length ≤ 9 → written head ≤ 1048576 →
        written head ≤ rest.length →
          ∃ later,
            stream.readFrame = .ok (rest.take (written head), later)
  /--
  Any other whole length is an error, whatever follows it and also if nothing
  does.
  -/
  refuses :
    ∀ head rest, stream.bytes = head ++ rest → WholeLength head →
      ¬(head.length ≤ 9 ∧ written head ≤ 1048576) →
        ∃ failure, failure ≠ .earlyEof ∧
          ∀ rest sizes reads,
            Stream.readFrame ⟨head ++ rest, sizes, reads⟩ = .error failure

/-- A length of ten bytes that is read as a small one. -/
def Misread (head : List UInt8) : Prop :=
  WholeLength head ∧ head.length = 10 ∧ announced head ≤ 1048576

theorem Misread.accepted (misread : Misread head) :
    ∃ frame later,
      Stream.readFrame
          ⟨head ++ List.replicate (announced head) 0, fun _ => 0, 0⟩ =
        .ok (frame, later) := by
  rcases misread with ⟨whole, ten, small⟩
  rcases Stream.readFrame_whole (fun _ => 0) whole ten.le
      (List.replicate (announced head) 0) 0 with
    ⟨later, taken⟩
  rw [if_pos (show announced head ≤ 1024 * 1024 from small),
    if_pos (by rw [List.length_replicate])] at taken
  exact ⟨_, _, taken⟩

/-- A length that is read as it is written, or as too large a one. -/
theorem announced_of_not_misread {rest : List UInt8} (whole : WholeLength head)
    (short : head.length ≤ 10) (read : ¬ Misread ((head ++ rest).take 10)) :
    head.length ≤ 9 ∧ announced head = written head ∨
      ¬ head.length ≤ 9 ∧ 1048576 < announced head := by
  by_cases nine : head.length ≤ 9
  · exact Or.inl ⟨nine, announced_eq_written nine⟩
  · have ten : head.length = 10 := by omega
    rw [List.take_left' ten] at read
    exact Or.inr ⟨nine, Nat.lt_of_not_le fun small => read ⟨whole, ten, small⟩⟩

/-- A frame accepted is the one its length announces. -/
theorem accepted_of_not_misread {stream later : Stream} {frame : List UInt8}
    (read : ¬ Misread (stream.bytes.take 10))
    (accepted : stream.readFrame = .ok (frame, later)) :
    ∃ head rest, stream.bytes = head ++ rest ∧ WholeLength head ∧
      head.length ≤ 9 ∧ written head ≤ 1048576 ∧
      frame = rest.take (written head) ∧
      frame.length = written head ∧
      later.bytes = rest.drop (written head) := by
  rcases stream with ⟨bytes, sizes, reads⟩
  by_cases early : lastPosition bytes < min 10 bytes.length
  · have whole := @exists_wholeLength bytes (by omega)
    have short : (bytes.take (lastPosition bytes + 1)).length ≤ 10 := by
      rw [List.length_take]
      omega
    have split := List.take_append_drop (lastPosition bytes + 1) bytes
    revert whole short split
    generalize bytes.take (lastPosition bytes + 1) = head
    generalize bytes.drop (lastPosition bytes + 1) = rest
    intro whole short split
    subst split
    rcases Stream.readFrame_whole sizes whole short rest reads with
      ⟨behind, taken⟩
    rw [taken] at accepted
    split_ifs at accepted with small there
    cases accepted
    rcases announced_of_not_misread whole short read with
      ⟨nine, exact⟩ | ⟨_, large⟩
    · rw [exact] at small there ⊢
      exact ⟨head, rest, rfl, whole, nine, small, rfl,
        List.length_take_of_le there, rfl⟩
    · omega
  · have failed :=
      @Stream.readLengthLoop_marked sizes 10 [] bytes rfl (by decide)
        (by omega) reads
    rw [Stream.readFrame, failed] at accepted
    cases accepted

theorem refuses_of_not_misread {rest : List UInt8}
    (read : ¬ Misread ((head ++ rest).take 10)) (whole : WholeLength head)
    (refused : ¬(head.length ≤ 9 ∧ written head ≤ 1048576)) :
    ∃ failure, failure ≠ .earlyEof ∧
      ∀ rest sizes reads,
        Stream.readFrame ⟨head ++ rest, sizes, reads⟩ = .error failure := by
  by_cases short : head.length ≤ 10
  · have large : ¬announced head ≤ 1024 * 1024 := by
      rcases announced_of_not_misread whole short read with
        ⟨nine, exact⟩ | ⟨_, large⟩
      · rw [exact]
        exact fun small => refused ⟨nine, small⟩
      · exact Nat.not_le.mpr large
    refine ⟨.frameTooLarge (UInt64.ofNat (announced head)), nofun, ?_⟩
    intro rest sizes reads
    rcases Stream.readFrame_whole sizes whole short rest reads with
      ⟨behind, taken⟩
    rw [taken, if_neg large]
  · refine ⟨.lengthTooLong, nofun, ?_⟩
    intro rest sizes reads
    have position := lastPosition_append whole rest
    have failed :=
      @Stream.readLengthLoop_marked sizes 10 [] (head ++ rest) rfl (by decide)
        (by omega) reads
    rw [List.length_append, if_neg (by omega)] at failed
    rw [Stream.readFrame, failed]
    rfl

/--
`read_frame` does what it is meant to do with a stream if and only if the
stream does not start with a length of ten bytes that is read as at most
1048576.
-/
theorem frames_as_written_iff (stream : Stream) :
    FramesAsWritten stream ↔ ¬ Misread (stream.bytes.take 10) := by
  constructor
  · intro meant misread
    rcases meant.refuses _ (stream.bytes.drop 10)
        (List.take_append_drop 10 stream.bytes).symm misread.1
        (by have ten := misread.2.1; omega) with
      ⟨failure, _, failed⟩
    rcases misread.accepted with ⟨frame, later, accepted⟩
    rw [failed] at accepted
    cases accepted
  · intro read
    refine ⟨?_, ?_, ?_⟩
    · intro frame later accepted
      exact accepted_of_not_misread read accepted
    · rcases stream with ⟨bytes, sizes, reads⟩
      intro head rest split whole short small there
      rcases Stream.readFrame_whole sizes whole (by omega) rest reads with
        ⟨later, taken⟩
      rw [announced_eq_written short,
        if_pos (show written head ≤ 1024 * 1024 from small), if_pos there,
        ← split] at taken
      exact ⟨_, taken⟩
    · intro head rest split whole refused
      rw [split] at read
      exact refuses_of_not_misread read whole refused

/-- A length of ten bytes that writes `2 ^ 64 + 1`. -/
def longLength : List UInt8 := [0x81] ++ List.replicate 8 0x80 ++ [0x02]

/-- It is taken for a length of one. -/
theorem long_length_accepted :
    WholeLength longLength ∧ longLength.length = 10 ∧
      written longLength = 2 ^ 64 + 1 ∧
      (Stream.readFrame ⟨longLength ++ [7, 8, 9], fun _ => 0, 0⟩).map
          (fun read => (read.1, read.2.bytes)) =
        .ok ([7], [8, 9]) := by
  decide +kernel

end Norn.Packet
