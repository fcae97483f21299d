import Headscale.Auth.Eviction
import Headscale.Auth.OperationSpecs

/-!
# Verdicts

Whatever the interleaving, an entry gets at most one verdict, and no entry is left without one by those
who take it out of the map. What a call has taken hold of is an entry and not an id: another entry that
is later stored under the same id is no concern of it.
-/

namespace Headscale.Auth

open Std Node TreeMap Threads

variable {cfg : WireConfig} {w w' : World (Operation cfg) (WireState cfg) (Choice cfg) Reply}

/-! ## Runs -/

lemma valid_of_empty {s : WireState cfg} (h : s.cells = [] ∧ s.inner = ∅ ∧ s.lastSshAuth = fun _ => none) :
    s.Valid :=
  ⟨by simp [h.2.1], by simp [h.2.2]⟩

lemma sound_of_serving (h : (serving cfg).Reachable w) : w.Sound (callSpec cfg) :=
  sound_of_reachable (callSpec cfg) (fun _ => valid_of_empty) h

/-- A verdict is consumed by one call. -/
theorem consumed_once (h : (serving cfg).Reachable w) {e i j : Nat}
    {thread other : Thread (Operation cfg) (WireState cfg) (Choice cfg) Reply}
    (hthread : w.threads[i]? = some thread) (hother : w.threads[j]? = some other)
    (hconsumes : ∃ step ∈ thread.steps, Consumes e step)
    (hconsumesOther : ∃ step ∈ other.steps, Consumes e step) : i = j := by
  obtain ⟨step, hstep, hconsumes⟩ := hconsumes
  obtain ⟨step', hstep', hconsumes'⟩ := hconsumesOther
  refine once_of_reachable (callSpec cfg) (fun _ => valid_of_empty)
    (fun s => (s.entry e).any (·.sshVerdictConsumed) = true) (fun s s' hs hconsumed => ?_) h
    ⟨thread, hthread, hstep⟩ hconsumes ⟨other, hother, hstep'⟩ hconsumes'
  obtain ⟨entry, hentry, hconsumed⟩ := (Option.any_eq_true _ _).mp hconsumed
  obtain ⟨entry', hentry', hgrows⟩ := keeps_entry hs hentry
  exact (Option.any_eq_true _ _).mpr ⟨entry', hentry', hgrows.consumed hconsumed⟩

/-- In every interleaving of the calls: a verdict stays; an entry that was taken out of the map has one
when the call that took it out has returned; a completion touches no other entry than the one it was
captured for; and one waiter at most returns the verdict of an entry that it consumes. -/
theorem interleaved_calls_settle (h : (serving cfg).Reachable w) :
    (∀ w', ((serving cfg).startingAt w).Reachable w' → ∀ e verdict,
      HasOutcome e verdict w.shared → HasOutcome e verdict w'.shared) ∧
    (∀ thread ∈ w.threads, ∀ reply, thread.program = .done reply →
      ∀ step ∈ thread.steps, ∀ e, Removes e step → ∃ verdict, HasOutcome e verdict w.shared) ∧
    (∀ thread ∈ w.threads, ∀ completion registered,
      thread.op = .finishRegistration completion registered →
      ∀ step ∈ thread.steps, OnlyEntry completion.entry step) ∧
    ∀ (i j : Nat) thread other, w.threads[i]? = some thread → w.threads[j]? = some other →
      ∀ rounds rounds' authId authId', thread.op = .waitForSshAuth rounds authId →
      other.op = .waitForSshAuth rounds' authId' →
      ∀ e result result', thread.program = .done (.auth ⟨some e, some result⟩) →
      other.program = .done (.auth ⟨some e, some result'⟩) →
      result ≠ .missing → result' ≠ .missing → i = j := by
  have hsound := sound_of_serving h
  refine ⟨fun w' hw' e verdict hverdict => ?_, fun thread hmem reply hdone step hstep e hremoves => ?_,
    fun thread hmem completion registered hop step hstep => ?_, ?_⟩
  · exact keeps_outcome (keeps_of_reachable (callSpec cfg) hsound hw').2 hverdict
  · have hpost := (hsound.threads thread hmem).holds
    rw [hdone] at hpost
    exact (hpost.1 step hstep e hremoves).resolve_right fun howed => List.not_mem_nil howed.1
  · have hown := ((hsound.threads thread hmem).steps step hstep).2.1.own
    rw [hop] at hown
    exact hown
  · intro i j thread other hthread hother rounds rounds' authId authId' hop hop' e result result' hdone
      hdone' hverdict hverdict'
    have hconsumes : ∀ {i : Nat} {thread} {rounds authId result}, w.threads[i]? = some thread →
        thread.op = .waitForSshAuth rounds authId → thread.program = .done (.auth ⟨some e, some result⟩) →
        result ≠ .missing → ∃ step ∈ thread.steps, Consumes e step := by
      intro i thread rounds authId result hthread hop hdone hverdict
      have hpost := (hsound.threads thread (List.mem_of_getElem? hthread)).holds
      rw [hdone] at hpost
      have hpromise := hpost.2
      rw [hop] at hpromise
      obtain ⟨e', he', -, step, hstep, hconsumes, -⟩ := hpromise result rfl hverdict
      cases he'
      exact ⟨step, hstep, hconsumes⟩
    exact consumed_once h hthread hother (hconsumes hthread hop hdone hverdict)
      (hconsumes hother hop' hdone' hverdict')

/-- The server of a policy whose rule wants a check for every session. -/
def checkingServer : WireConfig where
  Doc := Unit
  Snapshot := Unit
  Nodes := Unit
  expiration := 10
  machineKeyHex _ _ := some "mkey"
  sshPolicyNodes snapshot := snapshot
  sshCheckPeriodForBytes _ _ _ _ _ := some 5
  publicControlUrl := "https://headscale.example"
  delegationUrl _ := some fun authId _ => authId

/-- A session, its approval and two waiters that find it, one after the other. -/
def twoWaiters : List (Move (Operation checkingServer) (Choice checkingServer)) :=
  let choice : Choice checkingServer := { now := 0, snapshot := () }
  .spawn (.insertSshCheck "session" ⟨1, 2, "root"⟩) :: List.replicate 4 (.run 0 choice) ++
    .spawn (.approveWithoutNode "session") :: List.replicate 5 (.run 1 choice) ++
    .spawn (.waitForSshAuth 1 "session") :: List.replicate 6 (.run 2 choice) ++
    .spawn (.waitForSshAuth 1 "session") :: List.replicate 6 (.run 3 choice)

/-- The first waiter has the verdict, and no other has one. -/
theorem one_waiter_has_verdict :
    ∃ w : World (Operation checkingServer) (WireState checkingServer) (Choice checkingServer) Reply,
      (serving checkingServer).Reachable w ∧ ∃ thread, w.threads[2]? = some thread ∧
        thread.program = .done (.auth ⟨some 0, some .accepted⟩) ∧
        ∀ (i : Nat) other rounds authId result, w.threads[i]? = some other →
          other.op = .waitForSshAuth rounds authId →
          other.program = .done (.auth ⟨some 0, some result⟩) → result ≠ .missing → i = 2 := by
  have hreach : ∀ w, twoWaiters.foldlM (World.apply Operation.code) ⟨{}, []⟩ = some w →
      (serving checkingServer).Reachable w := fun w hrun =>
    Machine.System.ReachableBy.foldlM (fun _ _ _ _ h => h) (fun _ _ _ _ => trivial)
      (.init ⟨⟨rfl, rfl, rfl⟩, rfl⟩) hrun
  refine ⟨_, hreach _ rfl, _, rfl, rfl, fun i other rounds authId result hother hop hdone hverdict => ?_⟩
  exact (interleaved_calls_settle (hreach _ rfl)).2.2.2 i 2 other _ hother rfl rounds 1 authId "session"
    hop rfl 0 result .accepted hdone rfl hverdict (by simp)

end Headscale.Auth
