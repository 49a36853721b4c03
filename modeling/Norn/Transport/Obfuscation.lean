import Norn.Foundation.Bytes
import Norn.Foundation.Run
import Norn.Foundation.StreamCipher

/-!
# The obfuscated stream

`obfs.rs` wraps a connection into a keystream.  The writer masks each buffer
that it takes over, keeps what the socket does not accept at once, and offers
it again at the next call; the reader unmasks the bytes as they come.  What
the reader yields is what the writer has taken over, wherever either side is
cut into pieces.

An inner writer that accepts no byte at all is reported as an error, like one
that fails.  A `poll_write` that reports an error may have taken its buffer
over already, so the bytes are only compared as long as none does.
-/

namespace Norn.Transport.Obfuscation

open Foundation Foundation.Run

/-- `Blake2b512`. -/
abbrev Blake2b512 := List UInt8 → Bytes 64

/-! ## The keystream -/

/-- `KeyStream`. -/
structure KeyStream where
  base : List UInt8
  counter : UInt64
  block : Bytes 64
  pos : Nat
  deriving DecidableEq

namespace KeyStream

/-- `KeyStream::new`. -/
def new (connKey : Bytes 32) : KeyStream where
  base := connKey.toList
  counter := 0
  block := Bytes.replicate 64 0
  pos := 64

variable (hash : Blake2b512)

/-- `refill`. -/
def refill (self : KeyStream) : KeyStream where
  base := self.base
  counter := self.counter + 1
  block := hash (self.base ++ (u64ToLe self.counter).toList)
  pos := 0

/-- The keystream with a byte left in its block. -/
def ready (self : KeyStream) : KeyStream :=
  if 64 ≤ self.pos then self.refill hash else self

theorem pos_ready_lt (self : KeyStream) : (self.ready hash).pos < 64 := by
  unfold ready
  split_ifs with empty
  · exact Nat.zero_lt_succ 63
  · exact Nat.lt_of_not_le empty

/-- The next byte of the keystream. -/
def byte (self : KeyStream) : UInt8 :=
  (self.ready hash).block.toList.get
    ⟨(self.ready hash).pos, by
      rw [Bytes.length_toList]
      exact self.pos_ready_lt hash⟩

/-- The keystream without its next byte. -/
def skip (self : KeyStream) : KeyStream :=
  { self.ready hash with pos := (self.ready hash).pos + 1 }

/-- `apply`. -/
def apply (self : KeyStream) : List UInt8 → KeyStream × List UInt8
  | [] => (self, [])
  | byte :: data =>
    let later := apply (self.skip hash) data
    (later.1, (byte ^^^ self.byte hash) :: later.2)

/-- The keystream as a cipher. -/
def cipher : StreamCipher KeyStream UInt8 where
  advance self := self.skip hash
  mask self byte := byte ^^^ self.byte hash
  mask_mask self byte := by
    rw [UInt8.xor_assoc, UInt8.xor_self, UInt8.xor_zero]

theorem apply_eq (self : KeyStream) (data : List UInt8) :
    self.apply hash data = (cipher hash).apply self data := by
  induction data generalizing self with
  | nil => rfl
  | cons byte data induction =>
    simp only [apply, StreamCipher.apply, induction]
    rfl

end KeyStream

/-- `conn_key`. -/
def connKey (hash : Blake2b512) (pskKey : Bytes 32) (nonce : Bytes 16) :
    Bytes 32 :=
  (hash (pskKey.toList ++ nonce.toList)).field 0 32 (by decide)

/-- `ObfsHandshake`. -/
structure ObfsHandshake where
  tx : KeyStream
  rx : KeyStream

/--
`obfs_handshake`, given the nonce that is drawn and the bytes that come in;
the bytes that it sends are the second part.
-/
def obfsHandshake (hash : Blake2b512) (pskKey : Bytes 32)
    (txNonce : Bytes 16) (incoming : List UInt8) :
    Option (ObfsHandshake × List UInt8) :=
  match Bytes.read 16 incoming with
  | .error _ => none
  | .ok (rxNonce, _) =>
    some
      ({ tx := .new (connKey hash pskKey txNonce)
         rx := .new (connKey hash pskKey rxNonce) },
        txNonce.toList)

/-- One side reads with the keystream that the other side writes with. -/
theorem rx_eq_tx {hash : Blake2b512} {pskKey : Bytes 32}
    {nonce peerNonce : Bytes 16} {incoming sent answer : List UInt8}
    {ours theirs : ObfsHandshake}
    (here : obfsHandshake hash pskKey nonce incoming = some (ours, sent))
    (there : obfsHandshake hash pskKey peerNonce sent = some (theirs, answer)) :
    theirs.rx = ours.tx := by
  unfold obfsHandshake at here there
  cases received : Bytes.read 16 incoming with
  | error failure =>
    rw [received] at here
    cases here
  | ok split =>
    rw [received] at here
    cases here
    have whole := Bytes.read_append nonce []
    rw [List.append_nil] at whole
    rw [whole] at there
    cases there
    rfl

/-! ## The writer -/

/-- What a poll returns. -/
inductive Poll (Value : Type) where
  | pending
  | ok (value : Value)
  | writeZero
  | innerError
  deriving DecidableEq

/-- The poll has returned an error. -/
def Poll.failed {Value : Type} : Poll Value → Bool
  | .writeZero => true
  | .innerError => true
  | _ => false

/-- What `poll_write` of the inner writer returns. -/
inductive InnerWrite where
  | pending
  | ready (count : Nat)
  | error

/-- `CipherWriter`. -/
structure CipherWriter where
  ks : KeyStream
  pending : List UInt8
  sent : Nat

/-- A poll of the writer: what the inner writer has accepted meanwhile. -/
structure Polled (Value : Type) where
  writer : CipherWriter
  accepted : List UInt8
  unused : List InnerWrite
  result : Poll Value

namespace CipherWriter

variable {self : CipherWriter} {answers : List InnerWrite}

/-- The bytes that still have to be handed to the inner writer. -/
def unsent (self : CipherWriter) : List UInt8 := self.pending.drop self.sent

/--
`drain`, given the answers of the inner writer; with no answer left it is
pending, and it accepts no more than it is offered.
-/
def drain (self : CipherWriter) : List InnerWrite → Polled Unit
  | [] =>
    if self.sent < self.pending.length then
      ⟨self, [], [], .pending⟩
    else
      ⟨{ self with pending := [], sent := 0 }, [], [], .ok ()⟩
  | answer :: answers =>
    if self.sent < self.pending.length then
      match answer with
      | .pending => ⟨self, [], answers, .pending⟩
      | .error => ⟨self, [], answers, .innerError⟩
      | .ready 0 => ⟨self, [], answers, .writeZero⟩
      | .ready (count + 1) =>
        let taken := self.unsent.take (count + 1)
        let later :=
          drain { self with sent := self.sent + taken.length } answers
        { later with accepted := taken ++ later.accepted }
    else
      ⟨{ self with pending := [], sent := 0 }, [], answer :: answers, .ok ()⟩

/-- The second half of `poll_write`: mask the buffer, flush what goes. -/
def takeOver (hash : Blake2b512) (self : CipherWriter)
    (buf : List UInt8) (answers : List InnerWrite) : Polled Nat :=
  let masked := self.ks.apply hash (self.pending ++ buf)
  let drained := drain { self with ks := masked.1, pending := masked.2 } answers
  { drained with
    result := match drained.result with
      | .writeZero => .writeZero
      | .innerError => .innerError
      | _ => .ok buf.length }

/-- `poll_write`. -/
def pollWrite (hash : Blake2b512) (self : CipherWriter)
    (buf : List UInt8) (answers : List InnerWrite) : Polled Nat :=
  let first := self.drain answers
  match first.result with
  | .pending => { first with result := .pending }
  | .writeZero => { first with result := .writeZero }
  | .innerError => { first with result := .innerError }
  | .ok () =>
    if buf.isEmpty then { first with result := .ok 0 }
    else
      let second := first.writer.takeOver hash buf first.unused
      { second with accepted := first.accepted ++ second.accepted }

/-- `poll_flush`, given what the inner writer returns for its own. -/
def pollFlush (self : CipherWriter) (answers : List InnerWrite)
    (inner : Poll Unit) : Polled Unit :=
  let drained := self.drain answers
  match drained.result with
  | .ok () => { drained with result := inner }
  | _ => drained

/-- The bytes of a buffer for which `poll_write` has returned `Ok`. -/
def granted (buf : List UInt8) : Poll Nat → List UInt8
  | .ok count => buf.take count
  | _ => []

/--
The inner writer has accepted the unsent bytes in their order, followed by the
masked bytes that were taken over.
-/
structure HandsOn (hash : Blake2b512) (before : CipherWriter)
    (data : List UInt8) {Value : Type} (polled : Polled Value) : Prop where
  ks : polled.writer.ks = (before.ks.apply hash data).1
  bytes :
    polled.accepted ++ polled.writer.unsent =
      before.unsent ++ (before.ks.apply hash data).2

variable (hash : Blake2b512)

theorem handsOn_done (whole : ¬ self.sent < self.pending.length)
    (answers : List InnerWrite) :
    HandsOn hash self []
      (⟨{ self with pending := [], sent := 0 }, [], answers, .ok ()⟩ : Polled
        Unit) where
  ks := rfl
  bytes := by
    change [] = self.pending.drop self.sent ++ []
    rw [List.append_nil, List.drop_eq_nil_of_le (Nat.le_of_not_lt whole)]

theorem handsOn_kept (answers : List InnerWrite) (result : Poll Unit) :
    HandsOn hash self [] (⟨self, [], answers, result⟩ : Polled Unit) where
  ks := rfl
  bytes := (List.append_nil _).symm

theorem handsOn_drain (self : CipherWriter) (answers : List InnerWrite) :
    HandsOn hash self [] (self.drain answers) := by
  induction answers generalizing self with
  | nil =>
    unfold drain
    split_ifs with left
    · exact handsOn_kept hash _ _
    · exact handsOn_done hash left _
  | cons answer answers induction =>
    unfold drain
    split_ifs with left
    · match answer with
      | .pending => exact handsOn_kept hash _ _
      | .error => exact handsOn_kept hash _ _
      | .ready 0 => exact handsOn_kept hash _ _
      | .ready (count + 1) =>
        have later := induction
          { self with
            sent := self.sent + (self.unsent.take (count + 1)).length }
        refine ⟨later.ks, ?_⟩
        dsimp only
        rw [List.append_assoc, later.bytes]
        change
          self.unsent.take (count + 1) ++
              (self.pending.drop
                (self.sent + (self.unsent.take (count + 1)).length) ++ []) =
            self.unsent ++ []
        rw [List.append_nil, List.append_nil, ← List.drop_drop]
        exact List.prefix_iff_eq_append.mp (List.take_prefix _ _)
    · exact handsOn_done hash left _

/-- After a drain that is done nothing is pending. -/
theorem pending_of_drain (done : (self.drain answers).result = .ok ()) :
    (self.drain answers).writer.pending = [] ∧
      (self.drain answers).writer.sent = 0 := by
  induction answers generalizing self with
  | nil =>
    unfold drain at done ⊢
    split_ifs at done ⊢
    exact ⟨rfl, rfl⟩
  | cons answer answers induction =>
    unfold drain at done ⊢
    split_ifs at done ⊢ with left
    · match answer with
      | .pending => cases done
      | .error => cases done
      | .ready 0 => cases done
      | .ready (count + 1) => exact induction done
    · exact ⟨rfl, rfl⟩

/-- Without an error the whole buffer is taken over. -/
theorem handsOn_takeOver {buf : List UInt8} (cleared : self.pending = [])
    (restarted : self.sent = 0)
    (fine : (self.takeOver hash buf answers).result.failed = false) :
    HandsOn hash self (granted buf (self.takeOver hash buf answers).result)
      (self.takeOver hash buf answers) := by
  have whole : granted buf (self.takeOver hash buf answers).result = buf := by
    dsimp only [takeOver] at fine ⊢
    generalize (drain _ answers).result = result at fine ⊢
    cases result with
    | pending => exact List.take_length
    | ok done => exact List.take_length
    | writeZero => cases fine
    | innerError => cases fine
  rw [whole]
  have drained := handsOn_drain hash
    { self with
      ks := (self.ks.apply hash (self.pending ++ buf)).1
      pending := (self.ks.apply hash (self.pending ++ buf)).2 } answers
  have bytes := drained.bytes
  simp only [unsent, cleared, restarted, List.nil_append, List.drop_zero]
    at bytes
  refine ⟨drained.ks.trans ?_, ?_⟩
  · rw [cleared]
    rfl
  · simp only [unsent, takeOver, cleared, restarted, List.nil_append,
      List.drop_nil]
    exact bytes.trans (List.append_nil _)

/-- A second call goes on where the first has ended. -/
theorem HandsOn.trans {before : CipherWriter} {data : List UInt8}
    {Value Other : Type} {first : Polled Value} {second : Polled Other}
    (drained : HandsOn hash before [] first)
    (handsOn : HandsOn hash first.writer data second) :
    HandsOn hash before data
      { second with accepted := first.accepted ++ second.accepted } := by
  have same : first.writer.ks = before.ks := drained.ks
  have sentAll : first.accepted ++ first.writer.unsent = before.unsent :=
    drained.bytes.trans (List.append_nil _)
  refine ⟨?_, ?_⟩
  · rw [handsOn.ks, same]
  · dsimp only
    rw [List.append_assoc, handsOn.bytes, ← List.append_assoc, sentAll, same]

theorem handsOn_pollWrite (self : CipherWriter) (buf : List UInt8)
    (answers : List InnerWrite)
    (fine : (self.pollWrite hash buf answers).result.failed = false) :
    HandsOn hash self (granted buf (self.pollWrite hash buf answers).result)
      (self.pollWrite hash buf answers) := by
  have first := handsOn_drain hash self answers
  unfold pollWrite at fine ⊢
  cases drained : (self.drain answers).result with
  | pending =>
    simp only [drained]
    exact ⟨first.ks, first.bytes⟩
  | writeZero =>
    simp only [drained] at fine
    cases fine
  | innerError =>
    simp only [drained] at fine
    cases fine
  | ok done =>
    simp only [drained] at fine ⊢
    split_ifs at fine ⊢ with empty
    · exact ⟨first.ks, first.bytes⟩
    · rcases pending_of_drain drained with ⟨cleared, restarted⟩
      exact first.trans hash (handsOn_takeOver hash cleared restarted fine)

theorem handsOn_pollFlush (self : CipherWriter) (answers : List InnerWrite)
    (inner : Poll Unit) :
    HandsOn hash self [] (self.pollFlush answers inner) := by
  have drained := handsOn_drain hash self answers
  unfold pollFlush
  cases finished : (self.drain answers).result with
  | ok done =>
    simp only [finished]
    exact ⟨drained.ks, drained.bytes⟩
  | _ =>
    simp only [finished]
    exact drained

/-- After a flush that returns `Ok` no byte is left in the writer. -/
theorem unsent_of_pollFlush {inner : Poll Unit}
    (flushed : (self.pollFlush answers inner).result = .ok ()) :
    (self.pollFlush answers inner).writer.unsent = [] := by
  unfold pollFlush at flushed ⊢
  cases drained : (self.drain answers).result with
  | ok done =>
    simp only [drained]
    rw [unsent, (pending_of_drain drained).1]
    exact List.drop_nil
  | _ =>
    simp only [drained] at flushed
    cases flushed

end CipherWriter

/-- `CipherReader`. -/
structure CipherReader where
  ks : KeyStream

/--
`poll_read`, given the filled part of the buffer and what the inner reader
returns: the reader and the filled part afterwards.
-/
def CipherReader.pollRead (hash : Blake2b512) (self : CipherReader)
    (filled : List UInt8) : Poll (List UInt8) →
      CipherReader × List UInt8 × Poll Unit
  | .ok arrived =>
    let buf := filled ++ arrived
    let unmasked := self.ks.apply hash (buf.drop filled.length)
    (⟨unmasked.1⟩, buf.take filled.length ++ unmasked.2, .ok ())
  | .pending => (self, filled, .pending)
  | .writeZero => (self, filled, .writeZero)
  | .innerError => (self, filled, .innerError)

theorem CipherReader.pollRead_ok (hash : Blake2b512)
    (self : CipherReader) (filled arrived : List UInt8) :
    self.pollRead hash filled (.ok arrived) =
      (⟨(self.ks.apply hash arrived).1⟩, filled ++
        (self.ks.apply hash arrived).2, .ok ()) := by
  simp only [pollRead, List.drop_left, List.take_left]

/-- `wrap`, for the side that writes and the side that reads. -/
def ObfsHandshake.wrap (self : ObfsHandshake) : CipherReader × CipherWriter :=
  (⟨self.rx⟩, ⟨self.tx, [], 0⟩)

/-! ## One direction of a connection -/

/--
The writer of one side, the bytes under way and the reader of the other side,
with the bytes for which `poll_write` has returned `Ok` and the bytes that
`poll_read` has yielded.
-/
structure Tunnel where
  writer : CipherWriter
  wire : List UInt8
  reader : CipherReader
  accepted : List UInt8
  yielded : List UInt8

/-- What the inner reader returns: some of the bytes that are under way. -/
inductive InnerRead where
  | pending
  | ready (count : Nat)
  | error

/-- The calls of the two sides, with what the inner stream returns. -/
inductive TunnelAction where
  | write (buf : List UInt8) (answers : List InnerWrite)
  | flush (answers : List InnerWrite) (inner : Poll Unit)
  | read (filled : List UInt8) (inner : InnerRead)

/-- The action is a call of the side that reads. -/
def TunnelAction.reads : TunnelAction → Bool
  | .read _ _ => true
  | _ => false

namespace Tunnel

variable (hash : Blake2b512)

/-- Both sides right after the handshake. -/
def connected (ours theirs : ObfsHandshake) : Tunnel where
  writer := ours.wrap.2
  wire := []
  reader := theirs.wrap.1
  accepted := []
  yielded := []

/-- What a read of the inner stream returns. -/
def arrival (self : Tunnel) : InnerRead → Poll (List UInt8)
  | .pending => .pending
  | .error => .innerError
  | .ready count => .ok (self.wire.take count)

/-- The bytes that a read of the inner stream leaves under way. -/
def remaining (self : Tunnel) : InnerRead → List UInt8
  | .ready count => self.wire.drop count
  | _ => self.wire

/-- One call. -/
def step (self : Tunnel) : TunnelAction → Tunnel
  | .write buf answers =>
    let polled := self.writer.pollWrite hash buf answers
    { self with
      writer := polled.writer
      wire := self.wire ++ polled.accepted
      accepted := self.accepted ++ CipherWriter.granted buf polled.result }
  | .flush answers inner =>
    let polled := self.writer.pollFlush answers inner
    { self with
      writer := polled.writer
      wire := self.wire ++ polled.accepted }
  | .read filled inner =>
    let polled := self.reader.pollRead hash filled (self.arrival inner)
    { self with
      wire := self.remaining inner
      reader := polled.1
      yielded := self.yielded ++ polled.2.1.drop filled.length }

/-- A `poll_write` that does not return an error. -/
def WritesFine (self : Tunnel) : TunnelAction → Prop
  | .write buf answers =>
    (self.writer.pollWrite hash buf answers).result.failed = false
  | _ => True

instance (self : Tunnel) (action : TunnelAction) :
    Decidable (self.WritesFine hash action) := by
  cases action <;> unfold WritesFine <;> infer_instance

/--
The bytes that were read, those under way and those that are pending are
together the accepted bytes under the keystream.
-/
structure InStep (start : KeyStream) (tunnel : Tunnel) : Prop where
  writer : tunnel.writer.ks = (start.apply hash tunnel.accepted).1
  reader : tunnel.reader.ks = (start.apply hash tunnel.yielded).1
  bytes :
    (start.apply hash tunnel.yielded).2 ++
        (tunnel.wire ++ tunnel.writer.unsent) =
      (start.apply hash tunnel.accepted).2

variable {hash} {start : KeyStream} {tunnel : Tunnel}

theorem InStep.handsOn (inStep : InStep hash start tunnel)
    {data : List UInt8} {Value : Type} {polled : Polled Value}
    (handsOn : CipherWriter.HandsOn hash tunnel.writer data polled) :
    InStep hash start
      { tunnel with
        writer := polled.writer
        wire := tunnel.wire ++ polled.accepted
        accepted := tunnel.accepted ++ data } := by
  have ks := handsOn.ks
  have bytes := handsOn.bytes
  rw [inStep.writer] at ks bytes
  simp only [KeyStream.apply_eq] at ks bytes
  refine ⟨?_, inStep.reader, ?_⟩
  · simp only [KeyStream.apply_eq, StreamCipher.apply_append, ks]
  · have before := inStep.bytes
    simp only [KeyStream.apply_eq] at before
    simp only [KeyStream.apply_eq, StreamCipher.apply_append]
    rw [← before]
    simp only [List.append_assoc, bytes]

theorem InStep.read (inStep : InStep hash start tunnel)
    {arrived rest : List UInt8} (under : tunnel.wire = arrived ++ rest) :
    InStep hash start
      { tunnel with
        wire := rest
        reader := ⟨(tunnel.reader.ks.apply hash arrived).1⟩
        yielded :=
          tunnel.yielded ++ (tunnel.reader.ks.apply hash arrived).2 } := by
  have before := inStep.bytes
  have reader := inStep.reader
  simp only [KeyStream.apply_eq] at before reader
  refine ⟨inStep.writer, ?_, ?_⟩
  · simp only [KeyStream.apply_eq, StreamCipher.apply_append, reader,
      StreamCipher.apply_apply]
  · simp only [KeyStream.apply_eq, StreamCipher.apply_append, reader,
      StreamCipher.apply_apply]
    rw [← before, under]
    simp only [List.append_assoc]

/-- Every step keeps the two cipher streams in step. -/
theorem inStep_step (inStep : InStep hash start tunnel)
    {action : TunnelAction} (fine : tunnel.WritesFine hash action) :
    InStep hash start (tunnel.step hash action) := by
  cases action with
  | write buf answers =>
    exact inStep.handsOn
      (CipherWriter.handsOn_pollWrite hash _ buf answers fine)
  | flush answers inner =>
    have handsOn :=
      CipherWriter.handsOn_pollFlush hash tunnel.writer answers inner
    have after := inStep.handsOn handsOn
    rwa [List.append_nil] at after
  | read filled inner =>
    have same :
        tunnel.yielded ++ filled.drop filled.length =
          tunnel.yielded := by
      rw [List.drop_length, List.append_nil]
    cases inner with
    | ready count =>
      have after := inStep.read (List.take_append_drop count tunnel.wire).symm
      simpa only [step, arrival, remaining, CipherReader.pollRead_ok,
        List.drop_left] using after
    | pending =>
      simpa only [step, arrival, remaining, CipherReader.pollRead, same]
        using inStep
    | error =>
      simpa only [step, arrival, remaining, CipherReader.pollRead, same]
        using inStep

theorem inStep_connected {pskKey : Bytes 32}
    {nonce peerNonce : Bytes 16} {incoming sent answer : List UInt8}
    {ours theirs : ObfsHandshake}
    (here : obfsHandshake hash pskKey nonce incoming = some (ours, sent))
    (there : obfsHandshake hash pskKey peerNonce sent = some (theirs, answer)) :
    InStep hash ours.tx (connected ours theirs) where
  writer := rfl
  reader := rx_eq_tx here there
  bytes := rfl

/-- Reading takes nothing from the writer. -/
theorem writer_of_reads {later : List TunnelAction}
    (reading : ∀ action ∈ later, TunnelAction.reads action = true) :
    (run (step hash) tunnel later).writer = tunnel.writer := by
  induction later generalizing tunnel with
  | nil => rfl
  | cons action later induction =>
    rw [run_cons, induction fun other member =>
      reading other (List.mem_cons_of_mem _ member)]
    have head := reading action List.mem_cons_self
    cases action with
    | read filled inner => rfl
    | write buf answers => cases head
    | flush answers inner => cases head

theorem inStep_run (inStep : InStep hash start tunnel)
    {actions : List TunnelAction}
    (fine : Along (step hash) (WritesFine hash) tunnel actions) :
    InStep hash start (run (step hash) tunnel actions) :=
  @invariant_run _ _ (step hash) (WritesFine hash) (InStep hash start)
    (fun _ _ before allowed => inStep_step before allowed) _ _ inStep fine

/-- What the reader has yielded is the beginning of what was accepted. -/
theorem InStep.isPrefix (inStep : InStep hash start tunnel) :
    tunnel.yielded <+: tunnel.accepted := by
  have bytes := inStep.bytes
  simp only [KeyStream.apply_eq] at bytes
  exact (KeyStream.cipher hash).isPrefix_of_apply bytes

theorem InStep.yielded_eq (inStep : InStep hash start tunnel)
    (drained : tunnel.wire = [])
    (flushed : tunnel.writer.unsent = []) :
    tunnel.yielded = tunnel.accepted := by
  apply inStep.isPrefix.eq_of_length
  have lengths := congrArg List.length inStep.bytes
  rw [drained, flushed] at lengths
  simpa [KeyStream.apply_eq, StreamCipher.length_apply] using lengths

/--
After the handshake of two sides with the same key, and as long as no
`poll_write` returns an error, the reader yields the accepted bytes in their
order; once a flush has returned `Ok` and the wire is drained it has yielded
all of them.
-/
theorem obfuscated_stream_transparent (blake : Blake2b512)
    {pskKey : Bytes 32} {nonce peerNonce : Bytes 16}
    {incoming sent answer : List UInt8} {ours theirs : ObfsHandshake}
    (here : obfsHandshake blake pskKey nonce incoming = some (ours, sent))
    (there : obfsHandshake blake pskKey peerNonce sent = some (theirs, answer))
    {actions : List TunnelAction}
    (fine :
      Along (step blake) (WritesFine blake) (connected ours theirs) actions) :
    let reached := run (step blake) (connected ours theirs) actions
    reached.yielded <+: reached.accepted ∧
      ∀ answers inner later,
        (reached.writer.pollFlush answers inner).result = .ok () →
          (∀ action ∈ later, TunnelAction.reads action = true) →
            let final :=
              run (step blake) reached (.flush answers inner :: later)
            final.wire = [] → final.yielded = final.accepted := by
  intro reached
  have inStep := inStep_run (inStep_connected here there) fine
  refine ⟨inStep.isPrefix, ?_⟩
  intro answers inner later flushed reading final drained
  have reads :
      Along (step blake) (WritesFine blake) reached
        (.flush answers inner :: later) := by
    refine along_of_forall_mem ?_
    intro action member state
    rcases List.mem_cons.mp member with rfl | inLater
    · trivial
    · have onlyReads := reading action inLater
      cases action with
      | write buf offered => cases onlyReads
      | _ => trivial
  apply (inStep_run inStep reads).yielded_eq drained
  rw [run_cons, writer_of_reads reading]
  exact CipherWriter.unsent_of_pollFlush flushed

end Tunnel

/-- A hash that is always the same. -/
def sampleBlake : Blake2b512 := fun _ => Bytes.replicate 64 5

/-- The keystreams of one side of a sample connection. -/
def sampleHandshake (tx rx : UInt8) : ObfsHandshake where
  tx := .new
    (connKey sampleBlake (Bytes.replicate 32 1) (Bytes.replicate 16 tx))
  rx := .new
    (connKey sampleBlake (Bytes.replicate 32 1) (Bytes.replicate 16 rx))

/-- The writer is cut short twice, and the reader reads a byte at a time. -/
def pieces : List TunnelAction :=
  [.write [1, 2, 3] [.ready 2, .pending], .read [] (.ready 1),
    .write [4] [.pending], .write [4] [.ready 1, .pending],
    .read [9] .pending, .read [9] (.ready 1)]

/-- Bytes written in pieces arrive in order, and all of them after a flush. -/
theorem pieces_come_together :
    let reached :=
      run (Tunnel.step sampleBlake)
        (.connected (sampleHandshake 2 3) (sampleHandshake 3 2))
        pieces
    let final :=
      run (Tunnel.step sampleBlake) reached
        [.flush [.ready 9] (.ok ()), .read [] (.ready 1), .read [] (.ready 1)]
    reached.yielded <+: reached.accepted ∧ final.yielded = final.accepted := by
  have transparent :=
    Tunnel.obfuscated_stream_transparent sampleBlake
      (show obfsHandshake sampleBlake (Bytes.replicate 32 1)
          (Bytes.replicate 16 2) (Bytes.replicate 16 3).toList =
        some (sampleHandshake 2 3, (Bytes.replicate 16 2).toList) from rfl)
      (show obfsHandshake sampleBlake (Bytes.replicate 32 1)
          (Bytes.replicate 16 3) (Bytes.replicate 16 2).toList =
        some (sampleHandshake 3 2, (Bytes.replicate 16 3).toList) from rfl)
      (show Along (Tunnel.step sampleBlake)
          (Tunnel.WritesFine sampleBlake) _ pieces by
        decide +kernel)
  refine ⟨transparent.1, ?_⟩
  exact transparent.2 [.ready 9] (.ok ()) _ (by decide +kernel)
    (by simp [TunnelAction.reads]) (by decide +kernel)

end Norn.Transport.Obfuscation
