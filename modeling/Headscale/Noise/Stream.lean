import Headscale.Lib.Machine
import Headscale.Lib.Result
import Mathlib.Algebra.Group.Nat.Defs

/-!
# The noise transport

After the handshake the control connection carries records: three bytes of header, then the plaintext
sealed under the next nonce. `BeTransport` seals and opens them, one counter for each direction, and
`BeNoiseStream` is the byte stream on top. Both its reader and its writer are machines that are polled.
A poll goes round a loop until the socket has nothing more for it, or the caller has something.

The cipher comes from a crate, and of it only the length of what it seals is used, and that it opens
what it has sealed. The socket is left open: what it does at a poll is read off a schedule, which is any
function of the number of the poll.
-/

namespace Headscale.Noise

abbrev Bytes := List UInt8

inductive ErrorKind where
  | unexpectedEof
  | invalidData
  | writeZero
  | other
deriving DecidableEq, Repr

structure IoError where
  kind : ErrorKind
  message : String
deriving DecidableEq, Repr

/-- `Poll<io::Result<_>>`. -/
inductive Poll (α : Type) where
  | pending
  | error (e : IoError)
  | ready (a : α)
deriving DecidableEq, Repr

/-! ## Records -/

def tagLen : Nat := 16

def maxMessageSize : Nat := 4096

def maxCiphertextPerRecord : Nat := maxMessageSize - 3

def maxPlaintextPerRecord : Nat := maxCiphertextPerRecord - tagLen

/-- The cipher under one key. -/
structure ChaCha20Poly1305 where
  encrypt : Bytes → Bytes → Bytes
  decrypt : Bytes → Bytes → Option Bytes
  length_encrypt : ∀ nonce plaintext, (encrypt nonce plaintext).length = plaintext.length + tagLen
  decrypt_encrypt : ∀ nonce plaintext, decrypt nonce (encrypt nonce plaintext) = some plaintext

inductive BeTransportError where
  | decrypt
  | shortCiphertext (got : Nat)
  | tooLong (got : Nat)
  | nonceExhausted
deriving DecidableEq, Repr

namespace BeTransportError

def message : BeTransportError → String
  | .decrypt => "be_transport: AEAD decrypt failed (bad tag, key, or counter desync)"
  | .shortCiphertext got => s!"be_transport: ciphertext too short ({got} < {tagLen} bytes)"
  | .tooLong got => s!"be_transport: ciphertext too long ({got} > {maxCiphertextPerRecord} bytes)"
  | .nonceExhausted => "be_transport: nonce counter exhausted"

end BeTransportError

/-- `to_be_bytes`, for a number of so many bytes. -/
def toBeBytes : Nat → Nat → Bytes
  | 0, _ => []
  | width + 1, n => UInt8.ofNat (n / 256 ^ width) :: toBeBytes width n

/-- `nonce_be`: the counter is big-endian. -/
def nonceBe (counter : Nat) : Bytes := List.replicate 4 0 ++ toBeBytes 8 counter

/-- What a record may carry; to seal more is a panic. -/
abbrev Plaintext := { plaintext : Bytes // plaintext.length ≤ maxPlaintextPerRecord }

structure BeTransport where
  sendCipher : ChaCha20Poly1305
  recvCipher : ChaCha20Poly1305
  sendCounter : Nat := 0
  recvCounter : Nat := 0

namespace BeTransport

variable (t : BeTransport)

/-- A counter that would overflow is an error. -/
def checkedAdd (counter : Nat) : Except BeTransportError Nat :=
  if counter + 1 < 2 ^ 64 then .ok (counter + 1) else .error .nonceExhausted

def encrypt (plaintext : Plaintext) : Except BeTransportError (Bytes × BeTransport) := do
  let ciphertext := t.sendCipher.encrypt (nonceBe t.sendCounter) plaintext
  let counter ← checkedAdd t.sendCounter
  return (ciphertext, { t with sendCounter := counter })

def decrypt (ciphertext : Bytes) : Except BeTransportError (Bytes × BeTransport) :=
  if ciphertext.length < tagLen then .error (.shortCiphertext ciphertext.length)
  else if maxCiphertextPerRecord < ciphertext.length then .error (.tooLong ciphertext.length)
  else
    match t.recvCipher.decrypt (nonceBe t.recvCounter) ciphertext with
    | none => .error .decrypt
    | some plaintext => do
      let counter ← checkedAdd t.recvCounter
      return (plaintext, { t with recvCounter := counter })

end BeTransport

/-- `MsgType::Record`. -/
def recordType : UInt8 := 4

/-- A record as it is on the wire. -/
def frame (ciphertext : Bytes) : Bytes := recordType :: toBeBytes 2 ciphertext.length ++ ciphertext

def fromBeBytes (hi lo : UInt8) : Nat := hi.toNat * 256 + lo.toNat

/-- What a list of records carries. -/
def content (plaintexts : List Plaintext) : Bytes := (plaintexts.map Subtype.val).flatten

/-- The records of a transport over a list of plaintexts. -/
def sendAll : BeTransport → List Plaintext → Except BeTransportError Bytes
  | _, [] => .ok []
  | t, plaintext :: rest => do
    let (ciphertext, t) ← t.encrypt plaintext
    let later ← sendAll t rest
    return frame ciphertext ++ later

/-! ## The socket -/

inductive SocketPoll where
  | pending
  | failed (e : IoError)
  /-- Bytes go through, up to a limit. -/
  | ready (limit : Nat)
deriving DecidableEq, Repr

/-- The side that is read: the bytes that are still to come, after which it ends. -/
structure InnerReader where
  rest : Bytes
  schedule : Nat → SocketPoll
  polls : Nat := 0
  /-- A read has found the end. -/
  ended : Bool := false

/-- A read into a buffer; one that finds bytes returns at least one of them. -/
def InnerReader.pollRead (inner : InnerReader) (room : Nat) : InnerReader × Poll Bytes :=
  match inner.schedule inner.polls with
  | .pending => ({ inner with polls := inner.polls + 1 }, .pending)
  | .failed e => ({ inner with polls := inner.polls + 1 }, .error e)
  | .ready limit =>
    let n := min room (limit + 1)
    ({ inner with
      rest := inner.rest.drop n
      polls := inner.polls + 1
      ended := inner.ended || inner.rest.isEmpty },
      .ready (inner.rest.take n))

/-- The side that is written, with the bytes it has taken. -/
structure InnerWriter where
  wire : Bytes := []
  schedule : Nat → SocketPoll
  polls : Nat := 0

/-- A write of some of the bytes, possibly of none. -/
def InnerWriter.pollWrite (inner : InnerWriter) (bytes : Bytes) : InnerWriter × Poll Nat :=
  match inner.schedule inner.polls with
  | .pending => ({ inner with polls := inner.polls + 1 }, .pending)
  | .failed e => ({ inner with polls := inner.polls + 1 }, .error e)
  | .ready limit =>
    let n := min bytes.length limit
    ({ inner with wire := inner.wire ++ bytes.take n, polls := inner.polls + 1 }, .ready n)

def InnerWriter.pollFlush (inner : InnerWriter) : InnerWriter × Poll Unit :=
  match inner.schedule inner.polls with
  | .pending => ({ inner with polls := inner.polls + 1 }, .pending)
  | .failed e => ({ inner with polls := inner.polls + 1 }, .error e)
  | .ready _ => ({ inner with polls := inner.polls + 1 }, .ready ())

/-! ## The stream -/

/-- Of a buffer that is being filled the part that is filled. -/
inductive BeReadState where
  | header (filled : Bytes)
  | body (len : Nat) (filled : Bytes)
  | servingPlaintext (buf : Bytes) (pos : Nat)
  | eof
deriving DecidableEq, Repr

inductive BeWriteState where
  | idle
  | flushing (buf : Bytes) (pos : Nat)
deriving DecidableEq, Repr

/-- What of a record is not yet on the wire. -/
def BeWriteState.unwritten : BeWriteState → Bytes
  | .idle => []
  | .flushing buf pos => buf.drop pos

structure BeNoiseStream where
  reader : InnerReader
  writer : InnerWriter
  transport : BeTransport
  readState : BeReadState := .header []
  writeState : BeWriteState := .idle

namespace BeNoiseStream

variable (s : BeNoiseStream)

/-! ### Reading -/

/-- What the reader does with the bytes of a header. A header that is refused leaves an empty one. -/
def headerRead (filled : Bytes) : BeNoiseStream × Option (Poll Bytes) :=
  match filled with
  | [kind, hi, lo] =>
    let len := fromBeBytes hi lo
    if kind ≠ recordType then
      ({ s with readState := .header [] },
        some (.error ⟨.invalidData,
          s!"be_noise: expected Record (4) in transport mode, got {kind}"⟩))
    else if len = 0 then ({ s with readState := .header [] }, none)
    else if maxCiphertextPerRecord < len then
      ({ s with readState := .header [] },
        some (.error ⟨.invalidData,
          s!"be_noise: record body {len} exceeds max ciphertext {maxCiphertextPerRecord}"⟩))
    else ({ s with readState := .body len [] }, none)
  | _ => ({ s with readState := .header filled }, none)

/-- What the reader does with the bytes of a body. -/
def bodyRead (len : Nat) (filled : Bytes) : BeNoiseStream × Option (Poll Bytes) :=
  if filled.length < len then ({ s with readState := .body len filled }, none)
  else
    match s.transport.decrypt filled with
    | .error e =>
      let reason := e.message
      ({ s with readState := .header [] }, some (.error ⟨.invalidData, s!"be_noise decrypt: {reason}"⟩))
    | .ok (plaintext, transport) =>
      ({ s with transport := transport, readState := .servingPlaintext plaintext 0 }, none)

/-- One round of the loop of `poll_read`, for a caller with so much room. -/
def readStep (room : Nat) : BeNoiseStream × Option (Poll Bytes) :=
  match s.readState with
  | .eof => (s, some (.ready []))
  | .servingPlaintext buf pos =>
    let remaining := buf.drop pos
    let n := min remaining.length room
    if n = 0 then (s, some (.ready []))
    else if pos + n = buf.length then
      ({ s with readState := .header [] }, some (.ready (remaining.take n)))
    else ({ s with readState := .servingPlaintext buf (pos + n) }, some (.ready (remaining.take n)))
  | .header filled =>
    match s.reader.pollRead (3 - filled.length) with
    | (reader, .pending) => ({ s with reader := reader }, some .pending)
    | (reader, .error e) => ({ s with reader := reader }, some (.error e))
    | (reader, .ready bytes) =>
      if bytes = [] then
        if filled = [] then ({ s with reader := reader, readState := .eof }, some (.ready []))
        else
          ({ s with reader := reader }, some (.error ⟨.unexpectedEof, "be_noise: EOF mid-header"⟩))
      else ({ s with reader := reader } : BeNoiseStream).headerRead (filled ++ bytes)
  | .body len filled =>
    match s.reader.pollRead (len - filled.length) with
    | (reader, .pending) => ({ s with reader := reader }, some .pending)
    | (reader, .error e) => ({ s with reader := reader }, some (.error e))
    | (reader, .ready bytes) =>
      if bytes = [] then
        ({ s with reader := reader }, some (.error ⟨.unexpectedEof, "be_noise: EOF mid-body"⟩))
      else ({ s with reader := reader } : BeNoiseStream).bodyRead len (filled ++ bytes)

/-- The loop, for so many rounds. -/
def readLoop : Nat → BeNoiseStream → Nat → Option (BeNoiseStream × Poll Bytes)
  | 0, _, _ => none
  | fuel + 1, s, room =>
    match s.readStep room with
    | (s, some result) => some (s, result)
    | (s, none) => readLoop fuel s room

/-- `BeNoiseStream::poll_read`. Each round that goes on has read a byte. -/
def pollRead (room : Nat) : Option (BeNoiseStream × Poll Bytes) :=
  readLoop (s.reader.rest.length + 1) s room

/-! ### Writing -/

/-- What of a buffer goes into one record. -/
def chunk (bytes : Bytes) : Plaintext :=
  ⟨bytes.take maxPlaintextPerRecord, List.length_take_le ..⟩

/-- One write of a record that is under way; with `ready` some of it was taken. -/
def pushRecord (buf : Bytes) (pos : Nat) : BeNoiseStream × Poll Unit :=
  match s.writer.pollWrite (buf.drop pos) with
  | (writer, .pending) => ({ s with writer := writer }, .pending)
  | (writer, .error e) => ({ s with writer := writer }, .error e)
  | (writer, .ready 0) =>
    ({ s with writer := writer }, .error ⟨.writeZero, "be_noise: inner write returned 0"⟩)
  | (writer, .ready n) =>
    let writeState := if pos + n = buf.length then .idle else .flushing buf (pos + n)
    ({ s with writer := writer, writeState := writeState }, .ready ())

/-- One round of the loop of `poll_write`. The length it reports is that of the buffer it has now. -/
def writeStep (bytes : Bytes) : BeNoiseStream × Option (Poll Nat) :=
  match s.writeState with
  | .idle =>
    if bytes = [] then (s, some (.ready 0))
    else
      match s.transport.encrypt (chunk bytes) with
      | .error e =>
        let reason := e.message
        (s, some (.error ⟨.other, s!"be_noise encrypt: {reason}"⟩))
      | .ok (ciphertext, transport) =>
        ({ s with transport := transport, writeState := .flushing (frame ciphertext) 0 }, none)
  | .flushing buf pos =>
    match s.pushRecord buf pos with
    | (s, .pending) => (s, some .pending)
    | (s, .error e) => (s, some (.error e))
    | (s, .ready ()) =>
      if s.writeState = .idle then (s, some (.ready (min bytes.length maxPlaintextPerRecord)))
      else (s, none)

def writeLoop : Nat → BeNoiseStream → Bytes → Option (BeNoiseStream × Poll Nat)
  | 0, _, _ => none
  | fuel + 1, s, bytes =>
    match s.writeStep bytes with
    | (s, some result) => some (s, result)
    | (s, none) => writeLoop fuel s bytes

/-- `BeNoiseStream::poll_write`. A round begins a record or writes some of it. -/
def pollWrite (bytes : Bytes) : Option (BeNoiseStream × Poll Nat) :=
  writeLoop (s.writeState.unwritten.length + bytes.length + 3 + tagLen + 2) s bytes

/-- One round of the loop of `poll_flush`. -/
def flushStep : BeNoiseStream × Option (Poll Unit) :=
  match s.writeState with
  | .idle =>
    let (writer, result) := s.writer.pollFlush
    ({ s with writer := writer }, some result)
  | .flushing buf pos =>
    match s.pushRecord buf pos with
    | (s, .pending) => (s, some .pending)
    | (s, .error e) => (s, some (.error e))
    | (s, .ready ()) => (s, none)

def flushLoop : Nat → BeNoiseStream → Option (BeNoiseStream × Poll Unit)
  | 0, _ => none
  | fuel + 1, s =>
    match s.flushStep with
    | (s, some result) => some (s, result)
    | (s, none) => flushLoop fuel s

/-- `BeNoiseStream::poll_flush`. -/
def pollFlush : Option (BeNoiseStream × Poll Unit) :=
  flushLoop (s.writeState.unwritten.length + 1) s

end BeNoiseStream

/-! ## What a peer sends -/

/-- The records of a cipher from a counter on. -/
def wireFrom (cipher : ChaCha20Poly1305) : Nat → List Plaintext → Bytes
  | _, [] => []
  | counter, plaintext :: rest =>
    frame (cipher.encrypt (nonceBe counter) plaintext) ++ wireFrom cipher (counter + 1) rest

lemma checkedAdd_eq_ok {counter next : Nat} :
    BeTransport.checkedAdd counter = .ok next ↔ counter + 1 < 2 ^ 64 ∧ next = counter + 1 := by
  rw [BeTransport.checkedAdd]
  split
  · next h => exact ⟨fun hnext => ⟨h, (Except.ok.inj hnext).symm⟩, fun hnext => by rw [hnext.2]⟩
  · next h => exact ⟨fun hnext => (nomatch hnext), fun hnext => absurd hnext.1 h⟩

lemma encrypt_eq_ok {t t' : BeTransport} {plaintext : Plaintext} {ciphertext : Bytes} :
    t.encrypt plaintext = .ok (ciphertext, t') ↔ t.sendCounter + 1 < 2 ^ 64 ∧
      ciphertext = t.sendCipher.encrypt (nonceBe t.sendCounter) plaintext ∧
      t' = { t with sendCounter := t.sendCounter + 1 } := by
  rw [BeTransport.encrypt, Result.bind_eq_ok]
  constructor
  · rintro ⟨counter, hcounter, hresult⟩
    obtain ⟨hlt, rfl⟩ := checkedAdd_eq_ok.mp hcounter
    cases hresult
    exact ⟨hlt, rfl, rfl⟩
  · rintro ⟨hlt, rfl, rfl⟩
    exact ⟨_, checkedAdd_eq_ok.mpr ⟨hlt, rfl⟩, rfl⟩

/-- What a transport sends, as long as its counter allows. -/
theorem sendAll_eq_ok {t : BeTransport} {plaintexts : List Plaintext} {wire : Bytes} :
    sendAll t plaintexts = .ok wire ↔
      (plaintexts = [] ∨ t.sendCounter + plaintexts.length < 2 ^ 64) ∧
        wire = wireFrom t.sendCipher t.sendCounter plaintexts := by
  induction plaintexts generalizing t wire with
  | nil => simp [sendAll, wireFrom]
  | cons plaintext rest ih =>
    simp only [sendAll, Result.bind_eq_ok, Prod.exists, encrypt_eq_ok]
    constructor
    · rintro ⟨ciphertext, t', ⟨hlt, rfl, rfl⟩, later, hlater, hwire⟩
      obtain ⟨hbound, rfl⟩ := ih.mp hlater
      cases hwire
      refine ⟨.inr ?_, rfl⟩
      obtain rfl | hbound := hbound
      · exact hlt
      · simp only [List.length_cons] at hbound ⊢
        omega
    · rintro ⟨hbound, rfl⟩
      obtain hnil | hbound := hbound
      · cases hnil
      rw [List.length_cons] at hbound
      refine ⟨_, _, ⟨by omega, rfl, rfl⟩, _, ih.mpr ⟨.inr ?_, rfl⟩, rfl⟩
      show t.sendCounter + 1 + rest.length < 2 ^ 64
      omega

/-! ## Frames -/

lemma length_frame (ciphertext : Bytes) : (frame ciphertext).length = ciphertext.length + 3 := by
  simp [frame, toBeBytes]

lemma fromBeBytes_toBeBytes {n : Nat} (h : n < 2 ^ 16) :
    fromBeBytes (UInt8.ofNat (n / 256 ^ 1)) (UInt8.ofNat (n / 256 ^ 0)) = n := by
  simp only [fromBeBytes, UInt8.toNat_ofNat']
  omega

/-- A cipher that seals nothing, to run the model with. -/
def plainCipher : ChaCha20Poly1305 where
  encrypt _ plaintext := plaintext ++ List.replicate tagLen 0
  decrypt _ ciphertext := some (ciphertext.take (ciphertext.length - tagLen))
  length_encrypt _ _ := by simp
  decrypt_encrypt _ _ := by simp

end Headscale.Noise
