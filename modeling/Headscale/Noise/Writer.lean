import Headscale.Noise.Stream

/-!
# Writing records

A call of `poll_write` seals what it is given, up to the size of a record, before the socket has taken
any of it, and reports the length once the socket has taken it all. The length it reports is that of the
buffer it is called with at that time. A caller that is made to wait may come back with another buffer,
or may flush instead, which writes the record and reports nothing. What is reported agrees with what was
written in the runs in which neither happens: a record under way is retried with the same bytes, and
nothing is written any more after a flush has finished a record for a caller that is still waiting.
-/

namespace Headscale.Noise

open List BeWriteState BeTransport

namespace BeNoiseStream

variable {s s' : BeNoiseStream} {buf : Bytes} {pos : Nat}

/-! ## A record under way -/

/-- The record goes on from the bytes on the wire, and nothing else changes. -/
structure Continues (s s' : BeNoiseStream) : Prop where
  transport : s'.transport = s.transport
  wire : s'.writer.wire ++ s'.writeState.unwritten = s.writer.wire ++ s.writeState.unwritten

lemma Continues.trans {middle : BeNoiseStream} (h : s.Continues middle) (h' : middle.Continues s') :
    s.Continues s' where
  transport := h'.transport.trans h.transport
  wire := h'.wire.trans h.wire

lemma pollWrite_ready {inner inner' : InnerWriter} {bytes : Bytes} {n : Nat}
    (h : inner.pollWrite bytes = (inner', .ready n)) :
    n ≤ bytes.length ∧ inner'.wire = inner.wire ++ bytes.take n := by
  rw [InnerWriter.pollWrite] at h
  split at h
  · cases h
  · cases h
  · obtain ⟨rfl, hn⟩ := Prod.mk.inj h
    obtain rfl := Poll.ready.inj hn
    exact ⟨Nat.min_le_left _ _, rfl⟩

lemma pollWrite_waiting {inner inner' : InnerWriter} {bytes : Bytes} {result : Poll Nat}
    (h : inner.pollWrite bytes = (inner', result)) (hwaiting : ∀ n, result ≠ .ready n) :
    inner'.wire = inner.wire := by
  rw [InnerWriter.pollWrite] at h
  split at h <;> obtain ⟨rfl, rfl⟩ := Prod.mk.inj h
  · rfl
  · rfl
  · exact absurd rfl (hwaiting _)

/-- What one write of a record does: it waits, or some of the record is written. -/
theorem pushRecord_spec (hstate : s.writeState = .flushing buf pos) {result : Poll Unit}
    (h : s.pushRecord buf pos = (s', result)) :
    s.Continues s' ∧
      (result ≠ .ready () ∧ s'.writeState = .flushing buf pos ∨
      result = .ready () ∧ s'.writeState.unwritten.length < s.writeState.unwritten.length ∧
        (s'.writeState = .idle ∨ ∃ pos', s'.writeState = .flushing buf pos')) := by
  rw [pushRecord] at h
  split at h
  · next writer hpoll =>
    cases h
    refine ⟨⟨rfl, ?_⟩, .inl ⟨by simp, hstate⟩⟩
    rw [pollWrite_waiting hpoll (by simp)]
  · next writer e hpoll =>
    cases h
    refine ⟨⟨rfl, ?_⟩, .inl ⟨by simp, hstate⟩⟩
    rw [pollWrite_waiting hpoll (by simp)]
  · next writer hpoll =>
    cases h
    refine ⟨⟨rfl, ?_⟩, .inl ⟨by simp, hstate⟩⟩
    rw [(pollWrite_ready hpoll).2, take_zero, append_nil]
  · next writer n hsome hpoll =>
    cases h
    obtain ⟨hle, hwire⟩ := pollWrite_ready hpoll
    have hpos : n ≠ 0 := hsome
    have hlength : (buf.drop pos).length = buf.length - pos := length_drop
    rw [hstate]
    split
    · next hall =>
      refine ⟨⟨rfl, ?_⟩, .inr ⟨rfl, ?_, .inl rfl⟩⟩
      · rw [hwire, hstate, take_of_length_le (by omega)]
        exact append_nil _
      · simp only [unwritten, length_nil]
        omega
    · next hpart =>
      refine ⟨⟨rfl, ?_⟩, .inr ⟨rfl, ?_, .inr ⟨pos + n, rfl⟩⟩⟩
      · simp only [hwire, hstate, unwritten]
        rw [append_assoc, ← drop_drop, take_append_drop]
      · simp only [unwritten, length_drop] at hle ⊢
        omega

/-- A call of `poll_write` with a record under way: it finishes the record and reports the buffer it was
given, or it waits. -/
theorem writeLoop_flushing (bytes : Bytes) {fuel : Nat} (hstate : s.writeState = .flushing buf pos)
    (hfuel : s.writeState.unwritten.length < fuel) :
    ∃ s' result, writeLoop fuel s bytes = some (s', result) ∧ s.Continues s' ∧
      (s'.writeState = .idle ∧ result = .ready (min bytes.length maxPlaintextPerRecord) ∨
      (∃ pos', s'.writeState = .flushing buf pos') ∧ ∀ n, result ≠ .ready n) := by
  induction fuel generalizing s pos with
  | zero => exact absurd hfuel (Nat.not_lt_zero _)
  | succ fuel ih =>
    rw [writeLoop, writeStep, hstate]
    dsimp only
    cases hpush : s.pushRecord buf pos with
    | mk middle result =>
      obtain ⟨hcontinues, hcase⟩ := pushRecord_spec hstate hpush
      obtain ⟨hwaiting, hmiddle⟩ | ⟨rfl, hless, hmiddle⟩ := hcase
      · cases result with
        | pending => exact ⟨middle, .pending, rfl, hcontinues, .inr ⟨⟨pos, hmiddle⟩, by simp⟩⟩
        | error e => exact ⟨middle, .error e, rfl, hcontinues, .inr ⟨⟨pos, hmiddle⟩, by simp⟩⟩
        | ready => exact absurd rfl hwaiting
      · dsimp only
        obtain hidle | ⟨pos', hflushing⟩ := hmiddle
        · rw [if_pos hidle]
          exact ⟨middle, _, rfl, hcontinues, .inl ⟨hidle, rfl⟩⟩
        · rw [if_neg (by simp [hflushing])]
          obtain ⟨s', result, hloop, hrest, hcase⟩ := ih hflushing (by omega)
          exact ⟨s', result, hloop, hcontinues.trans hrest, hcase⟩

/-- A call of `poll_flush`: the record under way, if there is one, may be finished. -/
theorem flushLoop_spec {fuel : Nat} (hfuel : s.writeState.unwritten.length < fuel) :
    ∃ s' result, flushLoop fuel s = some (s', result) ∧ s.Continues s' ∧
      (s'.writeState = .idle ∨ ∃ buf pos pos', s.writeState = .flushing buf pos ∧
        s'.writeState = .flushing buf pos') := by
  induction fuel generalizing s with
  | zero => exact absurd hfuel (Nat.not_lt_zero _)
  | succ fuel ih =>
    rw [flushLoop, flushStep]
    cases hstate : s.writeState with
    | idle =>
      have hwire : s.writer.pollFlush.1.wire = s.writer.wire := by
        rw [InnerWriter.pollFlush]
        split <;> rfl
      refine ⟨{ s with writer := s.writer.pollFlush.1, writeState := .idle }, s.writer.pollFlush.2, rfl,
        ⟨rfl, ?_⟩, .inl rfl⟩
      rw [hstate]
      exact congrArg (· ++ []) hwire
    | flushing buf pos =>
      dsimp only
      cases hpush : s.pushRecord buf pos with
      | mk middle result =>
        obtain ⟨hcontinues, hcase⟩ := pushRecord_spec hstate hpush
        obtain ⟨hwaiting, hmiddle⟩ | ⟨rfl, hless, hmiddle⟩ := hcase
        · cases result with
          | pending => exact ⟨middle, .pending, rfl, hcontinues, .inr ⟨buf, pos, pos, rfl, hmiddle⟩⟩
          | error e => exact ⟨middle, .error e, rfl, hcontinues, .inr ⟨buf, pos, pos, rfl, hmiddle⟩⟩
          | ready => exact absurd rfl hwaiting
        · obtain ⟨s', result, hloop, hrest, hcase⟩ := ih (s := middle) (by omega)
          refine ⟨s', result, hloop, hcontinues.trans hrest, ?_⟩
          obtain hidle | ⟨buf', pos', pos'', hbefore, hafter⟩ := hcase
          · exact .inl hidle
          obtain hidle | ⟨pos', hflushing⟩ := hmiddle
          · rw [hidle] at hbefore
            cases hbefore
          · cases hflushing.symm.trans hbefore
            exact .inr ⟨buf, pos, pos'', rfl, hafter⟩

end BeNoiseStream

open BeNoiseStream

/-! ## Runs -/

inductive WriteAction where
  | write (bytes : Bytes)
  | flush
deriving DecidableEq, Repr

/-- A stream that is being written, with the records it has begun and the bytes it has reported. -/
structure WriteRun where
  stream : BeNoiseStream
  records : List Plaintext := []
  accepted : Bytes := []

namespace WriteRun

/-- The bytes that the answer to a call reports. -/
def reported (bytes : Bytes) : Poll Nat → Bytes
  | .ready n => bytes.take n
  | _ => []

variable (r : WriteRun)

/-- A call of `poll_write` with these bytes begins a record. -/
def Begins (bytes : Bytes) : Prop :=
  r.stream.writeState = .idle ∧ bytes ≠ [] ∧ r.stream.transport.sendCounter + 1 < 2 ^ 64

instance (bytes : Bytes) : Decidable (r.Begins bytes) :=
  inferInstanceAs (Decidable (_ ∧ _ ∧ _))

def apply : WriteAction → Option WriteRun
  | .write bytes => (r.stream.pollWrite bytes).map fun (stream, result) =>
    { stream := stream
      records := if r.Begins bytes then r.records ++ [chunk bytes] else r.records
      accepted := r.accepted ++ reported bytes result }
  | .flush => r.stream.pollFlush.map fun (stream, _) => { r with stream := stream }

/-- The records that are on the wire as a whole. -/
def completed : List Plaintext :=
  if r.stream.writeState = .idle then r.records else r.records.dropLast

/-- The bytes of these records are those that were reported, and after them those of at most one record
that was not. -/
def Accounted (reached : List Plaintext) (accepted : Bytes) : Prop :=
  ∃ unreported : List Plaintext, unreported.length ≤ 1 ∧ unreported <:+ reached ∧
    content reached = accepted ++ content unreported

/-- What a caller has to keep to: a record under way is retried with the same bytes, and nothing is
written after a flush has finished a record that is not reported. -/
def Steady : WriteAction → Prop
  | .write bytes =>
    if r.stream.writeState = .idle then bytes = [] ∨ content r.records = r.accepted
    else r.records.getLast? = some (chunk bytes)
  | .flush => True

instance : DecidablePred r.Steady
  | .write bytes => inferInstanceAs (Decidable (if r.stream.writeState = .idle then
      bytes = [] ∨ content r.records = r.accepted else r.records.getLast? = some (chunk bytes)))
  | .flush => inferInstanceAs (Decidable True)

end WriteRun

/-- The calls of `poll_write` and `poll_flush` on a stream. -/
def writing (start : BeNoiseStream) : Machine.System WriteRun WriteAction where
  init r := r = { stream := start }
  step r a r' := r.apply a = some r'

/-- The bytes on the wire are those of the records that were begun, but for the end of the last. -/
structure WriteRun.Framed (start : BeNoiseStream) (r : WriteRun) : Prop where
  cipher : r.stream.transport.sendCipher = start.transport.sendCipher
  counter : r.stream.transport.sendCounter = start.transport.sendCounter + r.records.length
  wire : r.stream.writer.wire ++ r.stream.writeState.unwritten =
    start.writer.wire ++ wireFrom start.transport.sendCipher start.transport.sendCounter r.records

namespace WriteRun

variable {start : BeNoiseStream} {r r' : WriteRun}

lemma wireFrom_append (cipher : ChaCha20Poly1305) (counter : Nat) (before after : List Plaintext) :
    wireFrom cipher counter (before ++ after) =
      wireFrom cipher counter before ++ wireFrom cipher (counter + before.length) after := by
  induction before generalizing counter with
  | nil => rfl
  | cons plaintext before ih =>
    rw [cons_append, wireFrom, wireFrom, ih, append_assoc, length_cons,
      Nat.add_assoc counter 1, Nat.add_comm 1]

/-- The stream that has sealed a record. -/
def begun (s : BeNoiseStream) (bytes : Bytes) : BeNoiseStream :=
  { s with
    transport := { s.transport with sendCounter := s.transport.sendCounter + 1 }
    writeState := .flushing (frame (s.transport.sendCipher.encrypt
      (nonceBe s.transport.sendCounter) (chunk bytes))) 0 }

/-- A call either has finished its record and reports it by its own buffer, or it reports nothing. -/
def Answered (bytes : Bytes) (s' : BeNoiseStream) (result : Poll Nat) : Prop :=
  s'.writeState = .idle ∧ reported bytes result = (chunk bytes).val ∨
    s'.writeState ≠ .idle ∧ reported bytes result = []

lemma reported_chunk (bytes : Bytes) :
    reported bytes (.ready (min bytes.length maxPlaintextPerRecord)) = (chunk bytes).val := by
  rw [reported, chunk, ← take_take, take_of_length_le]
  exact length_take_le' ..

lemma writeLoop_answered {s : BeNoiseStream} (hstate : s.writeState ≠ .idle) (bytes : Bytes) {fuel : Nat}
    (hfuel : s.writeState.unwritten.length < fuel) :
    ∃ s' result, writeLoop fuel s bytes = some (s', result) ∧ s.Continues s' ∧
      Answered bytes s' result := by
  cases hflushing : s.writeState with
  | idle => exact absurd hflushing hstate
  | flushing buf pos =>
    obtain ⟨s', result, hloop, hcontinues, hcase⟩ := writeLoop_flushing bytes hflushing hfuel
    refine ⟨s', result, hloop, hcontinues, ?_⟩
    obtain ⟨hidle, rfl⟩ | ⟨⟨pos', hflushing⟩, hwaiting⟩ := hcase
    · exact .inl ⟨hidle, reported_chunk bytes⟩
    · refine .inr ⟨by simp [hflushing], ?_⟩
      cases result with
      | pending | error => rfl
      | ready n => exact absurd rfl (hwaiting n)

/-- A call with a record under way. -/
theorem pollWrite_retry {s : BeNoiseStream} (hstate : s.writeState ≠ .idle) (bytes : Bytes) :
    ∃ s' result, s.pollWrite bytes = some (s', result) ∧ s.Continues s' ∧ Answered bytes s' result :=
  writeLoop_answered hstate bytes (by omega)

/-- A call that begins a record. -/
theorem pollWrite_begin {s : BeNoiseStream} {bytes : Bytes} (hidle : s.writeState = .idle)
    (hbytes : bytes ≠ []) (hcounter : s.transport.sendCounter + 1 < 2 ^ 64) :
    ∃ s' result, s.pollWrite bytes = some (s', result) ∧ (begun s bytes).Continues s' ∧
      Answered bytes s' result := by
  have hfirst : s.writeStep bytes = (begun s bytes, none) := by
    rw [writeStep, hidle]
    rw [if_neg hbytes, encrypt_eq_ok.mpr ⟨hcounter, rfl, rfl⟩]
    rfl
  have hlength : (begun s bytes).writeState.unwritten.length ≤ bytes.length + 3 + tagLen := by
    have hchunk : (chunk bytes).val.length ≤ bytes.length := length_take_le' ..
    simp only [begun, unwritten, drop_zero, length_frame, s.transport.sendCipher.length_encrypt]
    omega
  rw [pollWrite, writeLoop, hfirst]
  exact writeLoop_answered (by simp [begun]) bytes (by omega)

/-- A call that neither finds a record under way nor begins one. -/
theorem pollWrite_nothing {s : BeNoiseStream} {bytes : Bytes} (hidle : s.writeState = .idle)
    (hnothing : bytes ≠ [] → ¬ s.transport.sendCounter + 1 < 2 ^ 64) :
    ∃ result, s.pollWrite bytes = some (s, result) ∧ reported bytes result = [] := by
  rw [pollWrite, writeLoop, writeStep, hidle]
  by_cases hbytes : bytes = []
  · rw [if_pos hbytes]
    exact ⟨.ready 0, rfl, by simp [reported]⟩
  · have hcounter := hnothing hbytes
    rw [if_neg hbytes, encrypt, checkedAdd, if_neg hcounter]
    exact ⟨_, rfl, rfl⟩

end WriteRun

/-- What holds in every state of a run of a steady caller. -/
structure WriteRun.Sound (start : BeNoiseStream) (r : WriteRun) : Prop extends r.Framed start where
  underWay : r.stream.writeState ≠ .idle →
    ∃ done current, r.records = done ++ [current] ∧ content done = r.accepted
  idle : r.stream.writeState = .idle → Accounted r.records r.accepted

namespace WriteRun

variable {start : BeNoiseStream} {r r' : WriteRun}

lemma content_append (before after : List Plaintext) :
    content (before ++ after) = content before ++ content after := by
  simp [content]

lemma accounted_all {records : List Plaintext} {accepted : Bytes} (h : content records = accepted) :
    Accounted records accepted :=
  ⟨[], by simp, nil_suffix, by rw [h]; exact (append_nil _).symm⟩

lemma Framed.continues (h : r.Framed start) {s' : BeNoiseStream} (hs : r.stream.Continues s')
    (accepted : Bytes) :
    ({ stream := s', records := r.records, accepted := accepted } : WriteRun).Framed start where
  cipher := by
    rw [← h.cipher]
    exact congrArg sendCipher hs.transport
  counter := by
    rw [← h.counter]
    exact congrArg sendCounter hs.transport
  wire := hs.wire.trans h.wire

variable {bytes : Bytes}

lemma Framed.begins (h : r.Framed start) (hidle : r.stream.writeState = .idle)
    {s' : BeNoiseStream} (hs : (begun r.stream bytes).Continues s') (accepted : Bytes) :
    ({ stream := s', records := r.records ++ [chunk bytes], accepted := accepted } :
      WriteRun).Framed start where
  cipher := by
    rw [← h.cipher]
    exact (congrArg sendCipher hs.transport).trans rfl
  counter := by
    rw [length_append, ← Nat.add_assoc, ← h.counter]
    exact congrArg sendCounter hs.transport
  wire := by
    have hwire := h.wire
    rw [hidle, unwritten, append_nil] at hwire
    rw [wireFrom_append, ← append_assoc, ← hwire, ← h.counter, ← h.cipher]
    refine hs.wire.trans ?_
    simp [begun, unwritten, wireFrom]

variable (h : r.Sound start)

include h

lemma Sound.write_begins (hidle : r.stream.writeState = .idle)
    (hreported : content r.records = r.accepted) {s' : BeNoiseStream} {result : Poll Nat}
    (hs : (begun r.stream bytes).Continues s') (hanswered : Answered bytes s' result) :
    ({ stream := s'
       records := r.records ++ [chunk bytes]
       accepted := r.accepted ++ reported bytes result } : WriteRun).Sound start where
  toFramed := h.begins hidle hs _
  underWay hbusy := by
    obtain ⟨hnext, -⟩ | ⟨-, hnone⟩ := hanswered
    · exact absurd hnext hbusy
    · exact ⟨r.records, chunk bytes, rfl, by rw [hnone, hreported]; exact (append_nil _).symm⟩
  idle hnext := by
    obtain ⟨-, hchunk⟩ | ⟨hbusy, -⟩ := hanswered
    · refine accounted_all ?_
      rw [content_append, hreported, hchunk]
      simp [content]
    · exact absurd hnext hbusy

lemma Sound.write_retries (hbusy : r.stream.writeState ≠ .idle)
    (hsame : r.records.getLast? = some (chunk bytes)) {s' : BeNoiseStream} {result : Poll Nat}
    (hs : r.stream.Continues s') (hanswered : Answered bytes s' result) :
    ({ stream := s', records := r.records, accepted := r.accepted ++ reported bytes result } :
      WriteRun).Sound start := by
  obtain ⟨done, current, hrecords, hdone⟩ := h.underWay hbusy
  obtain rfl : current = chunk bytes := by
    rw [hrecords, getLast?_append] at hsame
    exact Option.some.inj hsame
  refine ⟨h.continues hs _, fun hnext => ?_, fun hnext => ?_⟩
  · obtain ⟨hidle, -⟩ | ⟨-, hnone⟩ := hanswered
    · exact absurd hidle hnext
    · exact ⟨done, _, hrecords, by rw [hnone, hdone]; exact (append_nil _).symm⟩
  · obtain ⟨-, hchunk⟩ | ⟨hbusy, -⟩ := hanswered
    · refine accounted_all ?_
      rw [hrecords, content_append, hdone, hchunk]
      simp [content]
    · exact absurd hnext hbusy

lemma Sound.flush {s' : BeNoiseStream} (hs : r.stream.Continues s')
    (hstate : s'.writeState = .idle ∨ ∃ buf pos pos',
      r.stream.writeState = .flushing buf pos ∧ s'.writeState = .flushing buf pos') :
    ({ r with stream := s' } : WriteRun).Sound start := by
  refine ⟨h.continues hs _, fun hnext => ?_, fun hnext => ?_⟩
  · obtain hidle | ⟨buf, pos, pos', hbefore, -⟩ := hstate
    · exact absurd hidle hnext
    · exact h.underWay (by simp [hbefore])
  · by_cases hidle : r.stream.writeState = .idle
    · exact h.idle hidle
    -- the flush has finished a record that is not reported
    obtain ⟨done, current, hrecords, hdone⟩ := h.underWay hidle
    exact ⟨[current], by simp, ⟨done, hrecords.symm⟩, by
      rw [← hdone, ← content_append, ← hrecords]⟩

/-- Every call has an answer, and with a steady caller the invariant is kept. -/
theorem Sound.step (a : WriteAction) :
    ∃ r', r.apply a = some r' ∧ (r.Steady a → r'.Sound start) := by
  cases a with
  | flush =>
    obtain ⟨s', result, hloop, hs, hstate⟩ := flushLoop_spec (Nat.lt_succ_self _)
    refine ⟨{ r with stream := s' }, ?_, fun _ => h.flush hs hstate⟩
    rw [apply, pollFlush, hloop]
    rfl
  | write bytes =>
    by_cases hidle : r.stream.writeState = .idle
    · by_cases hbegins : r.Begins bytes
      · obtain ⟨s', result, hpoll, hs, hanswered⟩ := pollWrite_begin hidle hbegins.2.1 hbegins.2.2
        refine ⟨_, by rw [apply, hpoll, Option.map_some, if_pos hbegins], fun hsteady => ?_⟩
        rw [Steady, if_pos hidle] at hsteady
        exact h.write_begins hidle (hsteady.resolve_left hbegins.2.1) hs hanswered
      · obtain ⟨result, hpoll, hnone⟩ := pollWrite_nothing hidle fun hbytes hcounter =>
          hbegins ⟨hidle, hbytes, hcounter⟩
        refine ⟨r, ?_, fun _ => h⟩
        rw [apply, hpoll, Option.map_some, if_neg hbegins]
        dsimp only
        rw [hnone, append_nil]
    · obtain ⟨s', result, hpoll, hs, hanswered⟩ := pollWrite_retry hidle bytes
      have hbegins : ¬ r.Begins bytes := fun hbegins => hidle hbegins.1
      refine ⟨_, by rw [apply, hpoll, Option.map_some, if_neg hbegins], fun hsteady => ?_⟩
      rw [Steady, if_neg hidle] at hsteady
      exact h.write_retries hidle hsteady hs hanswered

lemma Sound.accounted : Accounted r.records r.accepted ∧ Accounted r.completed r.accepted := by
  rw [completed]
  split
  · next hidle => exact ⟨h.idle hidle, h.idle hidle⟩
  next hbusy =>
  obtain ⟨done, current, hrecords, hdone⟩ := h.underWay hbusy
  rw [hrecords, dropLast_concat]
  refine ⟨⟨[current], by simp, suffix_append .., ?_⟩, accounted_all hdone⟩
  rw [content_append, hdone]

end WriteRun

open WriteRun

lemma writing_sound {start : BeNoiseStream} (hidle : start.writeState = .idle) {r : WriteRun}
    (h : (writing start).ReachableBy (fun r a _ => r.Steady a) r) : r.Sound start := by
  refine h.invariant (fun r hinit => ?_) fun r a r' hsound hstep hsteady => ?_
  · rw [show r = { stream := start } from hinit]
    refine ⟨⟨rfl, rfl, ?_⟩, fun hbusy => absurd hidle hbusy, fun _ => accounted_all rfl⟩
    rw [hidle]
    rfl
  · obtain ⟨r'', hnext, hsound'⟩ := hsound.step a
    cases hnext.symm.trans hstep
    exact hsound' hsteady

/-- In every run of a steady caller each call has an answer, and the records that were begun, as well as
those that are on the wire as a whole, carry what was reported and at most one record more. -/
theorem steady_writes_accounted {start : BeNoiseStream} (hidle : start.writeState = .idle) {r : WriteRun}
    (h : (writing start).ReachableBy (fun r a _ => r.Steady a) r) :
    (∀ a, ∃ r', (writing start).step r a r') ∧
    r.stream.writer.wire ++ r.stream.writeState.unwritten = start.writer.wire ++
      wireFrom start.transport.sendCipher start.transport.sendCounter r.records ∧
    WriteRun.Accounted r.records r.accepted ∧ WriteRun.Accounted r.completed r.accepted := by
  have hsound := writing_sound hidle h
  refine ⟨fun a => ?_, hsound.wire, hsound.accounted⟩
  obtain ⟨r', hnext, -⟩ := hsound.step a
  exact ⟨r', hnext⟩

/-- A socket that makes the first write wait. -/
def waitsOnce (poll : Nat) : SocketPoll := if poll = 0 then .pending else .ready maxMessageSize

def waiting : BeNoiseStream :=
  { reader := { rest := [], schedule := waitsOnce }
    writer := { schedule := waitsOnce }
    transport := { sendCipher := plainCipher, recvCipher := plainCipher } }

/-- A call that has to wait is retried. -/
theorem retried_write_accounted :
    ∃ r, (writing waiting).ReachableBy (fun r a _ => r.Steady a) r ∧ r.accepted = [1] ∧
      r.completed.map Subtype.val = [[1]] ∧ WriteRun.Accounted r.completed r.accepted := by
  have hrun : ((apply { stream := waiting } (.write [1])).bind fun middle =>
      (middle.apply (.write [1])).map fun r =>
        (decide (middle.Steady (.write [1])), r.accepted, r.completed.map Subtype.val)) =
      some (true, [1], [[1]]) := by decide +kernel
  obtain ⟨middle, hmiddle, hrest⟩ := Option.bind_eq_some_iff.mp hrun
  obtain ⟨r, hr, hvalues⟩ := Option.map_eq_some_iff.mp hrest
  simp only [Prod.mk.injEq, decide_eq_true_eq] at hvalues
  obtain ⟨hsteady, haccepted, hcompleted⟩ := hvalues
  have hfirst : (writing waiting).ReachableBy (fun r a _ => r.Steady a) middle :=
    .step (.init rfl) hmiddle (.inr rfl)
  have hreach := hfirst.step hr hsteady
  exact ⟨r, hreach, haccepted, hcompleted, (steady_writes_accounted rfl hreach).2.2.2⟩

/-- A call that has to wait is retried with a byte more, and that byte is lost; or the stream is flushed
before another write, and what was reported comes behind something that was not. -/
theorem changed_write_unaccounted :
    (∃ r, (writing waiting).Reachable r ∧ r.accepted = [1, 2] ∧ r.completed.map Subtype.val = [[1]] ∧
      ¬ WriteRun.Accounted r.completed r.accepted) ∧
    ∃ r, (writing waiting).Reachable r ∧ r.accepted = [2] ∧
      r.completed.map Subtype.val = [[1], [2]] ∧ ¬ WriteRun.Accounted r.completed r.accepted := by
  have hreach : ∀ {actions : List WriteAction} {r}, actions.foldlM apply { stream := waiting } =
      some r → (writing waiting).Reachable r := fun hrun =>
    .foldlM (fun _ _ _ _ h => h) (fun _ _ _ _ => trivial) (.init rfl) hrun
  have hlonger : ([.write [1], .write [1, 2]].foldlM apply { stream := waiting }).map
      (fun r => (r.accepted, r.completed.map Subtype.val)) = some ([1, 2], [[1]]) := by decide +kernel
  have hflushed : ([.write [1], .flush, .write [2]].foldlM apply { stream := waiting }).map
      (fun r => (r.accepted, r.completed.map Subtype.val)) = some ([2], [[1], [2]]) := by decide +kernel
  obtain ⟨lost, hlost, hlostValues⟩ := Option.map_eq_some_iff.mp hlonger
  obtain ⟨hlostAccepted, hlostWire⟩ := Prod.mk.inj hlostValues
  obtain ⟨extra, hextra, hextraValues⟩ := Option.map_eq_some_iff.mp hflushed
  obtain ⟨hextraAccepted, hextraWire⟩ := Prod.mk.inj hextraValues
  refine ⟨⟨lost, hreach hlost, hlostAccepted, hlostWire, ?_⟩,
    extra, hreach hextra, hextraAccepted, hextraWire, ?_⟩
  · rintro ⟨unreported, -, -, hcontent⟩
    rw [content, hlostWire, hlostAccepted] at hcontent
    simp at hcontent
  · rintro ⟨unreported, -, -, hcontent⟩
    rw [content, hextraWire, hextraAccepted] at hcontent
    simp at hcontent

end Headscale.Noise
