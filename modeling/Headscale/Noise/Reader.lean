import Headscale.Noise.Stream

/-!
# Reading records

However the socket splits the bytes, a reader of records that all carry something delivers what they
carry, in order, and reports the end of the stream after all of it and after the end of the socket. A
record that carries nothing is different: its plaintext is served until it is used up, which for none at
all never happens, and so the reader reports the end of the stream there and stays there.
-/

namespace Headscale.Noise

open List

namespace BeNoiseStream

variable {s s' : BeNoiseStream} {room : Nat}

/-! ## What is still to be delivered -/

/-- A list of plaintexts that the reader of a transport can be sent and can deliver. -/
structure Deliverable (t : BeTransport) (later : List Plaintext) : Prop where
  counter : later = [] ∨ t.recvCounter + later.length < 2 ^ 64
  nonempty : ∀ plaintext ∈ later, plaintext.val ≠ []

/-- The bytes of the records that a reader has yet to read. -/
def upcoming (t : BeTransport) (later : List Plaintext) : Bytes :=
  wireFrom t.recvCipher t.recvCounter later

/-- Where the reader is in the records, with what it has still to deliver. -/
inductive Expects (s : BeNoiseStream) : Bytes → Prop where
  | header {filled : Bytes} {later : List Plaintext} (hstate : s.readState = .header filled)
      (hlater : Deliverable s.transport later) (hshort : filled.length < 3)
      (hwire : filled ++ s.reader.rest = upcoming s.transport later) : Expects s (content later)
  | body {filled : Bytes} {plaintext : Plaintext} {later : List Plaintext}
      (hstate : s.readState = .body (plaintext.val.length + tagLen) filled)
      (hlater : Deliverable s.transport (plaintext :: later))
      (hshort : filled.length < plaintext.val.length + tagLen)
      (hwire : filled ++ s.reader.rest =
        s.transport.recvCipher.encrypt (nonceBe s.transport.recvCounter) plaintext ++
          wireFrom s.transport.recvCipher (s.transport.recvCounter + 1) later) :
      Expects s (content (plaintext :: later))
  | serving {buf : Bytes} {pos : Nat} {later : List Plaintext}
      (hstate : s.readState = .servingPlaintext buf pos) (hlater : Deliverable s.transport later)
      (hpos : pos < buf.length) (hwire : s.reader.rest = upcoming s.transport later) :
      Expects s (buf.drop pos ++ content later)
  | eof (hstate : s.readState = .eof) (hended : s.reader.ended = true) : Expects s []

/-- What a poll may answer, of a stream that had so much to deliver. -/
def Serves (undelivered : Bytes) (room : Nat) (schedule : Nat → SocketPoll) (after : BeNoiseStream) :
    Poll Bytes → Prop
  | .pending => after.Expects undelivered
  | .error e => after.Expects undelivered ∧ ∃ n, schedule n = .failed e
  | .ready bytes => ∃ left, undelivered = bytes ++ left ∧ after.Expects left ∧
    (bytes = [] → 0 < room → after.reader.ended = true ∧ left = [])

/-- The same, of one round of the loop: one that goes on has read something. -/
def StepServes (undelivered : Bytes) (room : Nat) (before after : BeNoiseStream) :
    Option (Poll Bytes) → Prop
  | some result => Serves undelivered room before.reader.schedule after result
  | none => after.Expects undelivered ∧ after.reader.rest.length < before.reader.rest.length

lemma wireFrom_cons (cipher : ChaCha20Poly1305) (counter : Nat) (plaintext : Plaintext)
    (rest : List Plaintext) :
    let len := plaintext.val.length + tagLen
    wireFrom cipher counter (plaintext :: rest) =
      [recordType, UInt8.ofNat (len / 256 ^ 1), UInt8.ofNat (len / 256 ^ 0)] ++
        (cipher.encrypt (nonceBe counter) plaintext ++ wireFrom cipher (counter + 1) rest) := by
  simp [wireFrom, frame, toBeBytes, cipher.length_encrypt]

lemma record_fits (plaintext : Plaintext) :
    plaintext.val.length + tagLen ≤ maxCiphertextPerRecord := by
  have hlength := plaintext.property
  simp only [maxPlaintextPerRecord, maxCiphertextPerRecord, maxMessageSize, tagLen] at hlength ⊢
  omega

/-- The header of a record is followed by its body. -/
theorem headerRead_record (s : BeNoiseStream) (plaintext : Plaintext) :
    let len := plaintext.val.length + tagLen
    s.headerRead [recordType, UInt8.ofNat (len / 256 ^ 1), UInt8.ofNat (len / 256 ^ 0)] =
      ({ s with readState := .body len [] }, none) := by
  have hfits := record_fits plaintext
  have hlen : plaintext.val.length + tagLen < 2 ^ 16 := by
    simp only [maxCiphertextPerRecord, maxMessageSize] at hfits
    omega
  simp only [headerRead, ne_eq, not_true_eq_false, if_false, fromBeBytes_toBeBytes hlen]
  rw [if_neg (by simp [tagLen]), if_neg (by omega)]

variable {inner inner' : InnerReader} {filled : Bytes}

lemma headerRead_short (s : BeNoiseStream) (h : filled.length < 3) :
    s.headerRead filled = ({ s with readState := .header filled }, none) := by
  rw [headerRead]
  rintro kind hi lo rfl
  simp at h

lemma decrypt_record {t : BeTransport} {plaintext : Plaintext} {later : List Plaintext}
    (h : plaintext :: later = [] ∨ t.recvCounter + (plaintext :: later).length < 2 ^ 64) :
    t.decrypt (t.recvCipher.encrypt (nonceBe t.recvCounter) plaintext) =
      .ok (plaintext.val, { t with recvCounter := t.recvCounter + 1 }) := by
  have hlength := t.recvCipher.length_encrypt (nonceBe t.recvCounter) plaintext
  have hcounter : t.recvCounter + 1 < 2 ^ 64 := by
    obtain hnil | hcounter := h
    · cases hnil
    · rw [length_cons] at hcounter
      omega
  rw [BeTransport.decrypt, if_neg (by omega), if_neg (by have := record_fits plaintext; omega),
    t.recvCipher.decrypt_encrypt, Result.bind_eq_ok]
  exact ⟨_, checkedAdd_eq_ok.mpr ⟨hcounter, rfl⟩, rfl⟩

/-! ## One round -/

/-- A read that is ready: it takes as many bytes as there is room for, or fewer, but some if there are
any, and otherwise it has found the end. -/
theorem pollRead_ready {bytes : Bytes} (hroom : 0 < room)
    (h : inner.pollRead room = (inner', .ready bytes)) :
    inner.rest = bytes ++ inner'.rest ∧ bytes.length ≤ room ∧
      (bytes = [] → inner.rest = [] ∧ inner'.ended = true) ∧
      (bytes ≠ [] → inner'.rest.length < inner.rest.length) := by
  rw [InnerReader.pollRead] at h
  split at h
  · cases h
  · cases h
  next limit _ =>
  obtain ⟨rfl, hbytes⟩ := Prod.mk.inj h
  obtain rfl := Poll.ready.inj hbytes
  refine ⟨(take_append_drop _ _).symm, ?_, fun hnone => ?_, fun hsome => ?_⟩
  · exact Nat.le_trans (length_take_le _ _) (Nat.min_le_left _ _)
  · rw [take_eq_nil_iff] at hnone
    obtain hzero | hrest := hnone
    · omega
    · exact ⟨hrest, by simp [hrest]⟩
  · rw [Ne, take_eq_nil_iff, not_or, ← length_eq_zero_iff] at hsome
    simp only [length_drop]
    omega

lemma pollRead_waiting {result : Poll Bytes} (h : inner.pollRead room = (inner', result))
    (hwaiting : ∀ bytes, result ≠ .ready bytes) :
    inner'.rest = inner.rest ∧ ∀ e, result = .error e → ∃ n, inner.schedule n = .failed e := by
  rw [InnerReader.pollRead] at h
  split at h
  · cases h
    exact ⟨rfl, by simp⟩
  · next e hschedule =>
    cases h
    refine ⟨rfl, fun e' he => ⟨inner.polls, ?_⟩⟩
    rw [← Poll.error.inj he]
    exact hschedule
  · obtain ⟨-, rfl⟩ := Prod.mk.inj h
    exact absurd rfl (hwaiting _)

lemma length_upcoming_cons (t : BeTransport) (plaintext : Plaintext) (later : List Plaintext) :
    3 ≤ (upcoming t (plaintext :: later)).length := by
  rw [upcoming, wireFrom_cons]
  simp

/-- The reader is in a header. -/
theorem serves_header {later : List Plaintext} (hstate : s.readState = .header filled)
    (hlater : Deliverable s.transport later) (hshort : filled.length < 3)
    (hwire : filled ++ s.reader.rest = upcoming s.transport later) :
    StepServes (content later) room s (s.readStep room).1 (s.readStep room).2 := by
  rw [readStep, hstate]
  dsimp only
  split
  · next reader hpoll =>
    obtain ⟨hrest, -⟩ := pollRead_waiting hpoll (by simp)
    exact .header rfl hlater hshort (hrest ▸ hwire)
  · next reader e hpoll =>
    obtain ⟨hrest, herror⟩ := pollRead_waiting hpoll (by simp)
    exact ⟨.header rfl hlater hshort (hrest ▸ hwire), herror e rfl⟩
  next reader bytes hpoll =>
  obtain ⟨hrest, hlength, hend, hless⟩ := pollRead_ready (by omega) hpoll
  split
  · next hnone =>
    obtain ⟨hempty, hended⟩ := hend hnone
    rw [hempty, append_nil] at hwire
    cases later with
    | cons plaintext later =>
      have hle := length_upcoming_cons s.transport plaintext later
      rw [← hwire] at hle
      omega
    | nil =>
      obtain rfl : filled = [] := hwire
      exact ⟨[], rfl, .eof rfl hended, fun _ _ => ⟨hended, rfl⟩⟩
  · next hsome =>
    have hless := hless hsome
    rw [hrest, ← append_assoc] at hwire
    by_cases hfull : (filled ++ bytes).length < 3
    · rw [headerRead_short _ hfull]
      exact ⟨.header rfl hlater hfull hwire, hless⟩
    -- the header is complete, and so it is that of the next record
    cases later with
    | nil =>
      have hnil : (filled ++ bytes) ++ reader.rest = [] := hwire
      simp [hsome] at hnil
    | cons plaintext later =>
      rw [upcoming, wireFrom_cons] at hwire
      obtain ⟨hheader, hbody⟩ := append_inj hwire (by
        rw [length_append] at hfull ⊢
        simp only [length_cons, length_nil]
        omega)
      rw [hheader, headerRead_record]
      refine ⟨.body rfl hlater ?_ hbody, hless⟩
      simp [tagLen]

/-- The reader is in a body. -/
theorem serves_body {plaintext : Plaintext} {later : List Plaintext}
    (hstate : s.readState = .body (plaintext.val.length + tagLen) filled)
    (hlater : Deliverable s.transport (plaintext :: later))
    (hshort : filled.length < plaintext.val.length + tagLen)
    (hwire : filled ++ s.reader.rest =
      s.transport.recvCipher.encrypt (nonceBe s.transport.recvCounter) plaintext ++
      wireFrom s.transport.recvCipher (s.transport.recvCounter + 1) later) :
    StepServes (content (plaintext :: later)) room s (s.readStep room).1 (s.readStep room).2 := by
  have hsealed := s.transport.recvCipher.length_encrypt (nonceBe s.transport.recvCounter) plaintext
  rw [readStep, hstate]
  dsimp only
  split
  · next reader hpoll =>
    obtain ⟨hrest, -⟩ := pollRead_waiting hpoll (by simp)
    exact .body rfl hlater hshort (hrest ▸ hwire)
  · next reader e hpoll =>
    obtain ⟨hrest, herror⟩ := pollRead_waiting hpoll (by simp)
    exact ⟨.body rfl hlater hshort (hrest ▸ hwire), herror e rfl⟩
  next reader bytes hpoll =>
  obtain ⟨hrest, hlength, hend, hless⟩ := pollRead_ready (by omega) hpoll
  split
  · next hnone =>
    -- the socket does not end within a record
    have htotal := congrArg List.length hwire
    rw [(hend hnone).1, append_nil, length_append] at htotal
    omega
  · next hsome =>
    have hless := hless hsome
    rw [hrest, ← append_assoc] at hwire
    rw [bodyRead]
    split
    · next hfull => exact ⟨.body rfl hlater hfull hwire, hless⟩
    next hfull =>
    obtain ⟨hbody, htail⟩ := append_inj hwire (by
      rw [length_append] at hfull ⊢
      omega)
    rw [hbody, decrypt_record hlater.counter]
    refine ⟨?_, hless⟩
    have hnonempty := hlater.nonempty plaintext (mem_cons_self ..)
    have hnext : Deliverable { s.transport with recvCounter := s.transport.recvCounter + 1 } later := by
      refine ⟨hlater.counter.imp (by simp) fun h => ?_, fun p hp =>
        hlater.nonempty p (mem_cons_of_mem _ hp)⟩
      rw [length_cons] at h
      show s.transport.recvCounter + 1 + later.length < 2 ^ 64
      omega
    have hserving : 0 < plaintext.val.length := length_pos_iff.mpr hnonempty
    exact .serving rfl hnext hserving htail

/-- The reader is serving a plaintext. -/
theorem serves_plaintext {buf : Bytes} {pos : Nat} {later : List Plaintext}
    (hstate : s.readState = .servingPlaintext buf pos) (hlater : Deliverable s.transport later)
    (hpos : pos < buf.length) (hwire : s.reader.rest = upcoming s.transport later) :
    StepServes (buf.drop pos ++ content later) room s (s.readStep room).1 (s.readStep room).2 := by
  have hremaining : (buf.drop pos).length = buf.length - pos := length_drop
  rw [readStep, hstate]
  dsimp only
  split
  · next hnone =>
    refine ⟨_, rfl, .serving hstate hlater hpos hwire, fun _ hroom => ?_⟩
    omega
  next hsome =>
  have hnonempty : (buf.drop pos).take (min (buf.drop pos).length room) ≠ [] := by
    rw [Ne, take_eq_nil_iff, not_or]
    refine ⟨hsome, fun hnil => ?_⟩
    rw [hnil, length_nil] at hremaining
    omega
  split
  · next hall =>
    have htake : (buf.drop pos).take (min (buf.drop pos).length room) = buf.drop pos := by
      rw [take_of_length_le]
      omega
    refine ⟨content later, by rw [htake], .header rfl hlater (by simp) (by simpa using hwire), ?_⟩
    exact fun hnil => absurd hnil hnonempty
  · next hpart =>
    refine ⟨buf.drop (pos + min (buf.drop pos).length room) ++ content later, ?_,
      .serving rfl hlater (by omega) hwire, fun hnil => absurd hnil hnonempty⟩
    rw [← append_assoc, ← drop_drop, take_append_drop]

/-- One round of the loop. -/
theorem Expects.readStep {undelivered : Bytes} (h : s.Expects undelivered) (room : Nat) :
    StepServes undelivered room s (s.readStep room).1 (s.readStep room).2 := by
  cases h with
  | header hstate hlater hshort hwire => exact serves_header hstate hlater hshort hwire
  | body hstate hlater hshort hwire => exact serves_body hstate hlater hshort hwire
  | serving hstate hlater hpos hwire => exact serves_plaintext hstate hlater hpos hwire
  | eof hstate hended =>
    rw [BeNoiseStream.readStep, hstate]
    exact ⟨[], rfl, .eof hstate hended, fun _ _ => ⟨hended, rfl⟩⟩

lemma pollRead_schedule {result : Poll Bytes} (h : inner.pollRead room = (inner', result)) :
    inner'.schedule = inner.schedule := by
  rw [InnerReader.pollRead] at h
  split at h <;> obtain ⟨rfl, -⟩ := Prod.mk.inj h <;> rfl

lemma headerRead_reader (s : BeNoiseStream) (filled : Bytes) :
    (s.headerRead filled).1.reader = s.reader := by
  unfold headerRead
  dsimp only
  split
  · split_ifs <;> rfl
  · rfl

lemma bodyRead_reader (s : BeNoiseStream) (len : Nat) (filled : Bytes) :
    (s.bodyRead len filled).1.reader = s.reader := by
  rw [bodyRead]
  split
  · rfl
  · split <;> rfl

lemma readStep_schedule (s : BeNoiseStream) (room : Nat) :
    (s.readStep room).1.reader.schedule = s.reader.schedule := by
  rw [readStep]
  split
  · rfl
  · dsimp only
    split_ifs <;> rfl
  all_goals
    split <;> rename_i hpoll
    · exact pollRead_schedule hpoll
    · exact pollRead_schedule hpoll
    · split_ifs <;> simp only [headerRead_reader, bodyRead_reader, pollRead_schedule hpoll]

/-- The loop ends, with one of the answers. -/
theorem Expects.readLoop {undelivered : Bytes} (h : s.Expects undelivered) (room : Nat) {fuel : Nat}
    (hfuel : s.reader.rest.length < fuel) :
    ∃ s' result, BeNoiseStream.readLoop fuel s room = some (s', result) ∧
      s'.reader.schedule = s.reader.schedule ∧ Serves undelivered room s.reader.schedule s' result := by
  induction fuel generalizing s with
  | zero => exact absurd hfuel (Nat.not_lt_zero _)
  | succ fuel ih =>
    have hstep := h.readStep room
    have hschedule := readStep_schedule s room
    rw [BeNoiseStream.readLoop]
    cases hround : s.readStep room with
    | mk middle answer =>
      rw [hround] at hstep hschedule
      cases answer with
      | some result => exact ⟨middle, result, rfl, hschedule, hstep⟩
      | none =>
        obtain ⟨hmiddle, hless⟩ := hstep
        obtain ⟨s', result, hloop, hsame, hserves⟩ := ih hmiddle (by omega)
        rw [hschedule] at hsame hserves
        exact ⟨s', result, hloop, hsame, hserves⟩

end BeNoiseStream

open BeNoiseStream

/-! ## Runs -/

/-- A stream that is being read, with what its reader has been given. -/
structure ReadRun where
  stream : BeNoiseStream
  delivered : Bytes := []
  /-- The polls with some room that were answered. -/
  reads : Nat := 0

def ReadRun.answered (r : ReadRun) (room : Nat) (stream : BeNoiseStream) : Poll Bytes → ReadRun
  | .ready bytes =>
    { stream := stream
      delivered := r.delivered ++ bytes
      reads := if room = 0 then r.reads else r.reads + 1 }
  | _ => { r with stream := stream }

/-- The calls of `poll_read`, each with the room of its buffer. -/
def reading (start : BeNoiseStream) : Machine.System ReadRun Nat where
  init r := r = { stream := start }
  step r room r' := ∃ stream result, r.stream.pollRead room = some (stream, result) ∧
    r' = r.answered room stream result

/-- A stream from which exactly these bytes can be read. -/
structure DeliversExactly (start : BeNoiseStream) (bytes : Bytes) : Prop where
  /-- Every poll has an answer. -/
  answers : ∀ r, (reading start).Reachable r → ∀ room, ∃ stream result,
    r.stream.pollRead room = some (stream, result)
  inOrder : ∀ r, (reading start).Reachable r → r.delivered <+: bytes
  /-- The only errors are those of the socket. -/
  errors : ∀ r, (reading start).Reachable r → ∀ room stream e,
    r.stream.pollRead room = some (stream, .error e) → ∃ n, start.reader.schedule n = .failed e
  endOfStream : ∀ r, (reading start).Reachable r → ∀ room stream, 0 < room →
    r.stream.pollRead room = some (stream, .ready []) →
    stream.reader.ended = true ∧ r.delivered = bytes
  /-- Enough polls deliver everything. -/
  complete : ∀ r, (reading start).Reachable r → bytes.length < r.reads → r.delivered = bytes

/-- What holds in every state of a run. -/
structure ReadRun.Sound (start : BeNoiseStream) (bytes : Bytes) (r : ReadRun) : Prop where
  schedule : r.stream.reader.schedule = start.reader.schedule
  expects : ∃ left, bytes = r.delivered ++ left ∧ r.stream.Expects left
  reads : r.reads ≤ r.delivered.length ∨ r.delivered = bytes

namespace ReadRun.Sound

variable {start : BeNoiseStream} {bytes : Bytes} {r r' : ReadRun}

/-- The answer to a poll. -/
theorem poll (h : r.Sound start bytes) (room : Nat) :
    ∃ left stream result, bytes = r.delivered ++ left ∧
      r.stream.pollRead room = some (stream, result) ∧
      stream.reader.schedule = start.reader.schedule ∧
      Serves left room start.reader.schedule stream result := by
  obtain ⟨left, hbytes, hexpects⟩ := h.expects
  obtain ⟨stream, result, hpoll, hschedule, hserves⟩ :=
    hexpects.readLoop room (Nat.lt_succ_self r.stream.reader.rest.length)
  rw [h.schedule] at hschedule hserves
  exact ⟨left, stream, result, hbytes, hpoll, hschedule, hserves⟩

lemma step (h : r.Sound start bytes) {room : Nat} (hstep : (reading start).step r room r') :
    r'.Sound start bytes := by
  obtain ⟨stream, result, hpoll, rfl⟩ := hstep
  obtain ⟨left, stream', result', hbytes, hpoll', hschedule, hserves⟩ := h.poll room
  cases hpoll.symm.trans hpoll'
  cases result with
  | pending => exact ⟨hschedule, ⟨left, hbytes, hserves⟩, h.reads⟩
  | error e => exact ⟨hschedule, ⟨left, hbytes, hserves.1⟩, h.reads⟩
  | ready served =>
    obtain ⟨rest, rfl, hexpects, hend⟩ := hserves
    refine ⟨hschedule, ⟨rest, by simp [ReadRun.answered, hbytes], hexpects⟩, ?_⟩
    simp only [ReadRun.answered, length_append]
    obtain hreads | hall := h.reads
    · by_cases hroom : room = 0
      · rw [if_pos hroom]
        exact .inl (Nat.le_add_right_of_le hreads)
      rw [if_neg hroom]
      cases served with
      | cons byte served =>
        rw [length_cons]
        exact .inl (by omega)
      | nil =>
        obtain ⟨-, rfl⟩ := hend rfl (Nat.pos_of_ne_zero hroom)
        exact .inr (by simpa using hbytes.symm)
    · have hnone : served ++ rest = [] := self_eq_append_right.mp (hall.trans hbytes)
      rw [(append_eq_nil_iff.mp hnone).1, append_nil]
      exact .inr hall

end ReadRun.Sound

lemma reading_sound {start : BeNoiseStream} {bytes : Bytes} (hstart : start.Expects bytes)
    {r : ReadRun} (h : (reading start).Reachable r) : r.Sound start bytes := by
  refine h.invariant (fun r hinit => ?_) fun r room r' hsound hstep _ => hsound.step hstep
  rw [show r = { stream := start } from hinit]
  exact ⟨rfl, ⟨bytes, rfl, hstart⟩, .inl (Nat.le_refl 0)⟩

lemma deliversExactly_of_expects {start : BeNoiseStream} {bytes : Bytes}
    (hstart : start.Expects bytes) : DeliversExactly start bytes where
  answers r h room := by
    obtain ⟨-, stream, result, -, hpoll, -⟩ := (reading_sound hstart h).poll room
    exact ⟨stream, result, hpoll⟩
  inOrder r h := by
    obtain ⟨left, hbytes, -⟩ := (reading_sound hstart h).expects
    exact ⟨left, hbytes.symm⟩
  errors r h room stream e herror := by
    obtain ⟨left, stream', result, -, hpoll, -, hserves⟩ := (reading_sound hstart h).poll room
    cases herror.symm.trans hpoll
    exact hserves.2
  endOfStream r h room stream hroom hready := by
    obtain ⟨left, stream', result, hbytes, hpoll, -, hserves⟩ := (reading_sound hstart h).poll room
    cases hready.symm.trans hpoll
    obtain ⟨rest, hleft, -, hend⟩ := hserves
    obtain ⟨hended, rfl⟩ := hend rfl hroom
    exact ⟨hended, by rw [hbytes, hleft]; simp⟩
  complete r h hreads := by
    obtain hfew | hall := (reading_sound hstart h).reads
    · obtain ⟨left, hbytes, -⟩ := (reading_sound hstart h).expects
      have hlength := congrArg List.length hbytes
      rw [length_append] at hlength
      omega
    · exact hall

/-! ## A record that carries nothing -/

/-- A socket that always has a whole record. -/
def generous (_ : Nat) : SocketPoll := .ready maxMessageSize

lemma pollRead_generous (inner : InnerReader) (room : Nat) (hschedule : inner.schedule = generous)
    {now later : Bytes} (hrest : inner.rest = now ++ later) (hnow : now ≠ [])
    (hfits : now.length ≤ maxMessageSize) (hroom : room = now.length) :
    inner.pollRead room = ({ inner with rest := later, polls := inner.polls + 1 }, .ready now) := by
  have hmin : min room (maxMessageSize + 1) = now.length := by omega
  rw [InnerReader.pollRead, hschedule, generous]
  simp [hrest, hmin, hnow]

/-- The reader is between two records of such a socket. -/
structure AtRecord (s : BeNoiseStream) (later : List Plaintext) : Prop where
  state : s.readState = .header []
  wire : s.reader.rest = upcoming s.transport later
  counter : later = [] ∨ s.transport.recvCounter + later.length < 2 ^ 64
  schedule : s.reader.schedule = generous
  ended : s.reader.ended = false

/-- The stream that has read the header of the next record. -/
def announced (s : BeNoiseStream) (plaintext : Plaintext) (later : List Plaintext) : BeNoiseStream :=
  { s with
    reader :=
      { s.reader with
        rest := s.transport.recvCipher.encrypt (nonceBe s.transport.recvCounter) plaintext ++
          wireFrom s.transport.recvCipher (s.transport.recvCounter + 1) later
        polls := s.reader.polls + 1 }
    readState := .body (plaintext.val.length + tagLen) [] }

/-- The stream that has read the next record. -/
def served (s : BeNoiseStream) (plaintext : Plaintext) (later : List Plaintext) : BeNoiseStream :=
  { s with
    reader :=
      { s.reader with
        rest := wireFrom s.transport.recvCipher (s.transport.recvCounter + 1) later
        polls := s.reader.polls + 1 + 1 }
    transport := { s.transport with recvCounter := s.transport.recvCounter + 1 }
    readState := .servingPlaintext plaintext.val 0 }

namespace AtRecord

variable {s : BeNoiseStream} {plaintext : Plaintext} {later : List Plaintext}
  (h : AtRecord s (plaintext :: later))

include h

lemma readStep_header (room : Nat) : s.readStep room = (announced s plaintext later, none) := by
  have hwire := h.wire
  rw [upcoming, wireFrom_cons] at hwire
  rw [readStep, h.state]
  dsimp only
  rw [pollRead_generous s.reader (3 - ([] : Bytes).length) h.schedule hwire (by simp)
    (by simp [maxMessageSize]) rfl]
  dsimp only
  rw [if_neg (by simp), nil_append, headerRead_record]
  rfl

lemma readStep_body (room : Nat) :
    (announced s plaintext later).readStep room = (served s plaintext later, none) := by
  have hfits := record_fits plaintext
  have hsealed := s.transport.recvCipher.length_encrypt (nonceBe s.transport.recvCounter) plaintext
  have hsome : s.transport.recvCipher.encrypt (nonceBe s.transport.recvCounter) plaintext ≠ [] := by
    rw [← length_pos_iff, hsealed]
    exact Nat.lt_add_left _ (by simp [tagLen])
  have hpoll := pollRead_generous (announced s plaintext later).reader
    (plaintext.val.length + tagLen - ([] : Bytes).length) h.schedule rfl hsome (by
      simp only [maxCiphertextPerRecord] at hfits
      omega) hsealed.symm
  rw [readStep]
  dsimp only [announced] at hpoll ⊢
  rw [hpoll]
  dsimp only
  rw [if_neg hsome, nil_append, bodyRead, if_neg (by omega), decrypt_record h.counter]
  rfl

/-- A poll reads the next record and then answers with it. -/
theorem pollRead {room : Nat} {s' : BeNoiseStream} {result : Poll Bytes}
    (hanswer : (served s plaintext later).readStep room = (s', some result)) :
    s.pollRead room = some (s', result) := by
  have hlength := length_upcoming_cons s.transport plaintext later
  obtain ⟨fuel, hfuel⟩ := Nat.exists_eq_add_of_le' hlength
  rw [BeNoiseStream.pollRead, h.wire, hfuel, readLoop, h.readStep_header]
  dsimp only
  rw [readLoop, h.readStep_body]
  dsimp only
  rw [readLoop, hanswer]

/-- A record that carries something is delivered to a buffer of its size. -/
theorem pollRead_some (hsome : plaintext.val ≠ []) :
    ∃ s', s.pollRead plaintext.val.length = some (s', .ready plaintext.val) ∧ AtRecord s' later := by
  have hlength : plaintext.val.length ≠ 0 := mt length_eq_zero_iff.mp hsome
  refine ⟨{ served s plaintext later with readState := .header [] }, h.pollRead ?_,
    ⟨rfl, rfl, ?_, h.schedule, h.ended⟩⟩
  · rw [readStep]
    dsimp only [served]
    rw [drop_zero, Nat.min_self, if_neg hlength, if_pos (Nat.zero_add _), take_length]
  · refine .inr ?_
    obtain hnil | hcounter := h.counter
    · cases hnil
    · rw [length_cons] at hcounter
      show s.transport.recvCounter + 1 + later.length < 2 ^ 64
      omega

/-- A record that carries nothing is reported as the end of the stream. -/
theorem pollRead_none (hnone : plaintext.val = []) (room : Nat) :
    ∃ s', s.pollRead room = some (s', .ready []) ∧ s'.reader.ended = false := by
  refine ⟨served s plaintext later, h.pollRead ?_, h.ended⟩
  rw [readStep]
  dsimp only [served]
  rw [hnone, drop_zero, length_nil, Nat.zero_min, if_pos rfl]

end AtRecord

/-- If some record carries nothing, the reader comes to the first of these. -/
theorem reachable_empty {start : BeNoiseStream} {later : List Plaintext} {r : ReadRun}
    (hempty : ∃ plaintext ∈ later, plaintext.val = []) (hreach : (reading start).Reachable r)
    (hrecord : AtRecord r.stream later) :
    ∃ r' plaintext rest, (reading start).Reachable r' ∧ AtRecord r'.stream (plaintext :: rest) ∧
      plaintext.val = [] := by
  induction later generalizing r with
  | nil => simp at hempty
  | cons plaintext later ih =>
    by_cases hnone : plaintext.val = []
    · exact ⟨r, plaintext, later, hreach, hrecord, hnone⟩
    obtain ⟨s', hpoll, hnext⟩ := hrecord.pollRead_some hnone
    obtain ⟨empty, hmem, hempty⟩ := hempty
    have hmem : empty ∈ later := by
      obtain rfl | hmem := mem_cons.mp hmem
      · exact absurd hempty hnone
      · exact hmem
    exact ih ⟨empty, hmem, hempty⟩ (.step hreach ⟨s', _, hpoll, rfl⟩ trivial) hnext

/-- A reader of the records of a peer delivers what they carry, however the socket splits them, exactly
if every one of them carries something. -/
theorem reader_delivers_iff {peer t : BeTransport} {plaintexts : List Plaintext} {wire : Bytes}
    (hsend : sendAll peer plaintexts = .ok wire) (hcipher : t.recvCipher = peer.sendCipher)
    (hcounter : t.recvCounter = peer.sendCounter) :
    (∀ schedule writer, DeliversExactly
      { reader := { rest := wire, schedule := schedule }, writer := writer, transport := t }
      (content plaintexts)) ↔
    ∀ plaintext ∈ plaintexts, plaintext.val ≠ [] := by
  obtain ⟨hbound, rfl⟩ := sendAll_eq_ok.mp hsend
  rw [← hcipher, ← hcounter]
  rw [← hcounter] at hbound
  constructor
  · intro hall plaintext hmem hnone
    let start : BeNoiseStream :=
      { reader := { rest := upcoming t plaintexts, schedule := generous }
        writer := { schedule := generous }
        transport := t }
    have hdelivers : DeliversExactly start _ := hall generous _
    have hinit : (reading start).Reachable { stream := start } := .init rfl
    obtain ⟨r, empty, rest, hreach, hrecord, hempty⟩ := reachable_empty ⟨plaintext, hmem, hnone⟩
      hinit ⟨rfl, rfl, hbound, rfl, rfl⟩
    obtain ⟨s', hpoll, hopen⟩ := hrecord.pollRead_none hempty 1
    have hended := (hdelivers.endOfStream r hreach 1 s' Nat.one_pos hpoll).1
    rw [hopen] at hended
    cases hended
  · intro hsome schedule writer
    exact deliversExactly_of_expects (.header rfl ⟨hbound, hsome⟩ (by simp) rfl)

/-- A record that carries nothing before one that does: the second is never delivered. -/
theorem empty_record_ends_stream :
    let start : BeNoiseStream :=
      { reader :=
          { rest := wireFrom plainCipher 0 [⟨[], by decide⟩, ⟨[7], by decide⟩], schedule := generous }
        writer := { schedule := generous }
        transport := { sendCipher := plainCipher, recvCipher := plainCipher } }
    (start.pollRead 8).map (fun answer =>
      (answer.2, answer.1.reader.ended, (answer.1.pollRead 8).map Prod.snd)) =
      some (.ready [], false, some (.ready [])) ∧
    ¬ DeliversExactly start [7] := by
  intro start
  have hrun : (start.pollRead 8).map (fun answer =>
      (answer.2, answer.1.reader.ended, (answer.1.pollRead 8).map Prod.snd)) =
      some (.ready [], false, some (.ready [])) := by decide +kernel
  refine ⟨hrun, fun hdelivers => ?_⟩
  obtain ⟨⟨stream, result⟩, hpoll, hanswer⟩ := Option.map_eq_some_iff.mp hrun
  obtain ⟨rfl, hopen, -⟩ : result = .ready [] ∧ stream.reader.ended = false ∧ _ := by
    simpa only [Prod.mk.injEq] using hanswer
  have hended := (hdelivers.endOfStream _ (.init rfl) 8 stream (by decide) hpoll).1
  rw [hopen] at hended
  cases hended

/-- Two records that carry something. -/
theorem full_records_delivered :
    let plaintexts : List Plaintext := [⟨[5], by decide⟩, ⟨[7], by decide⟩]
    let transport : BeTransport := { sendCipher := plainCipher, recvCipher := plainCipher }
    ∃ wire, sendAll transport plaintexts = .ok wire ∧ ∀ schedule writer, DeliversExactly
      { reader := { rest := wire, schedule := schedule }, writer := writer, transport := transport }
      [5, 7] := by
  intro plaintexts transport
  have hsend : sendAll transport plaintexts = .ok (wireFrom plainCipher 0 plaintexts) :=
    sendAll_eq_ok.mpr ⟨.inr (by decide), rfl⟩
  exact ⟨_, hsend, (reader_delivers_iff hsend rfl rfl).mpr (by decide)⟩

end Headscale.Noise
