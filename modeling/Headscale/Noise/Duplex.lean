import Headscale.Noise.Reader
import Headscale.Noise.Writer
import Mathlib.Data.List.Nodup

/-!
# What is written is read

The two ends of a control connection are two machines with nothing but the bytes on the wire between
them. Whatever its caller does, the writer begins no record without something to carry and seals no two
under one nonce, and so the reader at the other end delivers all that the records carry.
-/

namespace Headscale.Noise

open List WriteRun BeNoiseStream

variable {start : BeNoiseStream} {r r' : WriteRun}

/-- What holds of the records of every run. -/
structure WriteRun.Begun (start : BeNoiseStream) (r : WriteRun) : Prop extends r.Framed start where
  lasting : r.records = [] ∨ start.transport.sendCounter + r.records.length < 2 ^ 64
  nonempty : ∀ plaintext ∈ r.records, plaintext.val ≠ []

lemma WriteRun.Begun.step (h : r.Begun start) {a : WriteAction} (hstep : r.apply a = some r') :
    r'.Begun start := by
  cases a with
  | flush =>
    obtain ⟨s', result, hloop, hs, -⟩ := flushLoop_spec (s := r.stream) (Nat.lt_succ_self _)
    rw [apply, pollFlush, hloop] at hstep
    cases hstep
    exact ⟨h.continues hs _, h.lasting, h.nonempty⟩
  | write bytes =>
    by_cases hbegins : r.Begins bytes
    · obtain ⟨hidle, hbytes, hcounter⟩ := hbegins
      obtain ⟨s', result, hpoll, hs, -⟩ := pollWrite_begin hidle hbytes hcounter
      rw [apply, hpoll, Option.map_some, if_pos ⟨hidle, hbytes, hcounter⟩] at hstep
      cases hstep
      rw [h.counter, Nat.add_assoc] at hcounter
      refine ⟨h.begins hidle hs _, .inr (by simpa using hcounter), fun plaintext hplaintext => ?_⟩
      obtain hold | hnew := mem_append.mp hplaintext
      · exact h.nonempty plaintext hold
      · rw [mem_singleton.mp hnew, chunk, Ne, take_eq_nil_iff, not_or]
        exact ⟨by decide, hbytes⟩
    by_cases hidle : r.stream.writeState = .idle
    · obtain ⟨result, hpoll, -⟩ := pollWrite_nothing hidle fun hbytes hcounter =>
        hbegins ⟨hidle, hbytes, hcounter⟩
      rw [apply, hpoll, Option.map_some, if_neg hbegins] at hstep
      cases hstep
      exact ⟨h.continues ⟨rfl, rfl⟩ _, h.lasting, h.nonempty⟩
    · obtain ⟨s', result, hpoll, hs, -⟩ := pollWrite_retry hidle bytes
      rw [apply, hpoll, Option.map_some, if_neg hbegins] at hstep
      cases hstep
      exact ⟨h.continues hs _, h.lasting, h.nonempty⟩

lemma writing_begun (hidle : start.writeState = .idle) (h : (writing start).Reachable r) :
    r.Begun start := by
  refine h.invariant (fun r hinit => ?_) fun _ _ _ hbegun hstep _ => hbegun.step hstep
  rw [show r = { stream := start } from hinit]
  refine ⟨⟨rfl, rfl, ?_⟩, .inl rfl, by simp⟩
  rw [hidle]
  rfl

/-- When no record is under way, a reader at the other end delivers what the records carry, however its
socket splits the bytes. -/
theorem written_is_delivered (hidle : start.writeState = .idle) (hwire : start.writer.wire = [])
    (h : (writing start).Reachable r) (hdone : r.stream.writeState = .idle) {t : BeTransport}
    (hcipher : t.recvCipher = start.transport.sendCipher)
    (hcounter : t.recvCounter = start.transport.sendCounter) (schedule : Nat → SocketPoll)
    (writer : InnerWriter) :
    DeliversExactly
      { reader := { rest := r.stream.writer.wire, schedule := schedule }
        writer := writer
        transport := t } (content r.records) := by
  obtain ⟨hframed, hlasting, hsome⟩ := writing_begun hidle h
  have hrecords := hframed.wire
  rw [hdone, hwire, BeWriteState.unwritten, append_nil, nil_append, ← hcipher, ← hcounter] at hrecords
  rw [← hcounter] at hlasting
  exact deliversExactly_of_expects (.header rfl ⟨hlasting, hsome⟩ (by simp) hrecords)

/-- A write has to wait and comes again with a byte more. -/
lemma exists_written : ∃ r, (writing waiting).Reachable r ∧ r.stream.writeState = .idle ∧
    r.records.map Subtype.val = [[1], [3]] := by
  have hrun : ([.write [1], .write [1, 2], .write [3]].foldlM apply { stream := waiting }).map
      (fun r => (r.stream.writeState, r.records.map Subtype.val)) = some (.idle, [[1], [3]]) := by
    decide +kernel
  obtain ⟨r, hr, hvalues⟩ := Option.map_eq_some_iff.mp hrun
  obtain ⟨hdone, hrecords⟩ := Prod.mk.inj hvalues
  exact ⟨r, .foldlM (fun _ _ _ _ h => h) (fun _ _ _ _ => trivial) (.init rfl) hr, hdone, hrecords⟩

theorem written_bytes_are_delivered : ∃ r, (writing waiting).Reachable r ∧ DeliversExactly
    { waiting with reader := { rest := r.stream.writer.wire, schedule := waitsOnce } } [1, 3] := by
  obtain ⟨r, hreach, hdone, hrecords⟩ := exists_written
  have hread := written_is_delivered rfl rfl hreach hdone (t := waiting.transport) rfl rfl waitsOnce
    waiting.writer
  rw [content, hrecords] at hread
  exact ⟨r, hreach, hread⟩

/-! ## Nonces -/

lemma toBeBytes_mod {width m n : Nat} (h : toBeBytes width m = toBeBytes width n) :
    m % 256 ^ width = n % 256 ^ width := by
  induction width with
  | zero => simp [Nat.mod_one]
  | succ width ih =>
    obtain ⟨hhead, htail⟩ := cons.inj h
    rw [← UInt8.toNat_inj, UInt8.toNat_ofNat', UInt8.toNat_ofNat'] at hhead
    rw [Nat.mod_pow_succ, Nat.mod_pow_succ, ih htail, hhead]

/-- What is on the wire, or about to be, are the records of the run one after the other, each sealed
under the next count, and no two counts make the same nonce. -/
theorem nonces_are_fresh (hidle : start.writeState = .idle) (h : (writing start).Reachable r) :
    r.stream.writer.wire ++ r.stream.writeState.unwritten = start.writer.wire ++
      wireFrom start.transport.sendCipher start.transport.sendCounter r.records ∧
    ((range' start.transport.sendCounter r.records.length).map nonceBe).Nodup := by
  obtain ⟨hframed, hlasting, -⟩ := writing_begun hidle h
  refine ⟨hframed.wire, Nodup.map_on (fun m hm n hn hsame => ?_) nodup_range'⟩
  rw [mem_range'_1] at hm hn
  have hbytes := toBeBytes_mod (append_cancel_left hsame)
  have hbound : start.transport.sendCounter + r.records.length < 256 ^ 8 := by
    obtain hnone | hlasting := hlasting
    · simp only [hnone, length_nil] at hm
      omega
    · exact hlasting
  rwa [Nat.mod_eq_of_lt (by omega), Nat.mod_eq_of_lt (by omega)] at hbytes

theorem written_nonces_are_fresh : ∃ r, (writing waiting).Reachable r ∧ r.records.length = 2 ∧
    ((range' 0 2).map nonceBe).Nodup := by
  obtain ⟨r, hreach, -, hrecords⟩ := exists_written
  have hlength : r.records.length = 2 := by simpa using congrArg length hrecords
  exact ⟨r, hreach, hlength, hlength ▸ (nonces_are_fresh rfl hreach).2⟩

end Headscale.Noise
