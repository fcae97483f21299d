import Headscale.Auth.Verdicts

/-!
# Approvals of SSH sessions

A request that is accepted has been checked under the policy that is in force when it is answered. The
check is an approval that was recorded under the same policy, or a verdict that nobody else can use.

A request with an id looks at the entry of that id twice, first for the nodes of the session and then
for its verdict. Both times it is the same entry, because the ids are drawn at random and so none is
drawn twice.
-/

namespace Headscale.Auth

open Std Node TreeMap Threads List Option

variable {cfg : WireConfig} {w : World (Operation cfg) (WireState cfg) (Choice cfg) Reply}

/-- No two entries were made for one id. -/
def DistinctIds (s : WireState cfg) : Prop := (s.cells.map Cell.id).Nodup

instance (s : WireState cfg) : Decidable (DistinctIds s) :=
  inferInstanceAs (Decidable (s.cells.map Cell.id).Nodup)

lemma DistinctIds.unique {s : WireState cfg} (h : DistinctIds s) {e e' : Nat} {id : String}
    (he : Made e id s) (he' : Made e' id s) : e = e' := by
  obtain ⟨cell, hcell, hid⟩ := he
  obtain ⟨cell', hcell', hid'⟩ := he'
  have hlt : e < (s.cells.map Cell.id).length := by
    rw [length_map]
    exact (List.getElem?_eq_some_iff.mp hcell).1
  refine (getElem?_inj hlt h).mp ?_
  rw [getElem?_map, getElem?_map, hcell, hcell', map_some, map_some, hid, hid']

/-- The server, with ids that are never drawn again. -/
def sshServing (cfg : WireConfig) :
    Machine.System (World (Operation cfg) (WireState cfg) (Choice cfg) Reply)
      (Move (Operation cfg) (Choice cfg)) :=
  { serving cfg with step := fun w move w' => (serving cfg).step w move w' ∧ DistinctIds w'.shared }

def sshApply (w : World (Operation cfg) (WireState cfg) (Choice cfg) Reply)
    (move : Move (Operation cfg) (Choice cfg)) :
    Option (World (Operation cfg) (WireState cfg) (Choice cfg) Reply) :=
  (w.apply Operation.code move).filter fun w' => DistinctIds w'.shared

lemma sshServing_of_sshApply {w w' : World (Operation cfg) (WireState cfg) (Choice cfg) Reply}
    {move : Move (Operation cfg) (Choice cfg)} (h : sshApply w move = some w') :
    (sshServing cfg).step w move w' := by
  obtain ⟨happly, hdistinct⟩ := filter_eq_some_iff.mp h
  exact ⟨happly, of_decide_eq_true hdistinct⟩

lemma serving_of_sshServing (h : (sshServing cfg).Reachable w) :
    (serving cfg).Reachable w ∧ DistinctIds w.shared := by
  induction h with
  | init hinit => exact ⟨.init hinit, by simp [DistinctIds, hinit.1.1]⟩
  | step _ hstep _ ih => exact ⟨.step ih.1 hstep.1 trivial, hstep.2⟩

/-- Some call has recorded an approval of the two nodes, under the policy of the step and less than the
period before it. -/
def RecordedApproval (w : World (Operation cfg) (WireState cfg) (Choice cfg) Reply) (pair : SshCheckPair)
    (period : Nat) (step : CallStep cfg) : Prop :=
  ∃ approver ∈ w.threads, ∃ approval ∈ approver.steps, ∃ record,
    approval.before.lastSshAuth pair ≠ some record ∧ approval.after.lastSshAuth pair = some record ∧
    step.before.lastSshAuth pair = some record ∧
    approval.before.policy.sshAuthEpoch = step.before.policy.sshAuthEpoch ∧
    approval.choice.now ≤ step.choice.now ∧ step.choice.now - approval.choice.now < period

/-- The call has consumed the accepted verdict of a session of the two nodes, and no other has. -/
def OwnVerdict (w : World (Operation cfg) (WireState cfg) (Choice cfg) Reply) (i : Nat)
    (pair : SshCheckPair) : Prop :=
  ∃ e binding, Bound e binding w.shared ∧ binding.pair = pair ∧
    (∃ thread, w.threads[i]? = some thread ∧ ∃ step ∈ thread.steps, Consumes e step ∧
      ∃ verdict, HasOutcome e verdict step.before ∧ AuthWaitOutcome.ofOutcome verdict = .accepted) ∧
    ∀ (j : Nat) other, w.threads[j]? = some other → (∃ step ∈ other.steps, Consumes e step) → j = i

lemma recordedApproval_of_hasApproval (h : (serving cfg).Reachable w) {pair : SshCheckPair}
    {period : Nat} {thread : Thread (Operation cfg) (WireState cfg) (Choice cfg) Reply}
    {i : Nat} (hthread : w.threads[i]? = some thread) {step : CallStep cfg} (hstep : step ∈ thread.steps)
    (hcounts : HasApproval pair period step) : RecordedApproval w pair period step := by
  obtain ⟨record, stamp, hrecord, hstamp, hepoch, hpast, htime⟩ := hcounts
  obtain ⟨k, approval, ⟨approver, happrover, happroval⟩, hnew, hmade⟩ :=
    (exists_step_of_reachable (P := fun s => s.lastSshAuth pair = some record)
      (fun s hs => by simp [hs.2.2]) h).2 i step ⟨thread, hthread, hstep⟩ hrecord
  have happrover := mem_of_getElem? happrover
  obtain ⟨-, hkept, -⟩ := ((sound_of_serving h).threads approver happrover).steps approval happroval
  obtain ⟨rfl, hnow⟩ := hkept.each pair record stamp hmade hnew hstamp
  rw [hnow] at hpast htime
  exact ⟨approver, happrover, approval, happroval, record, hnew, hmade, hrecord, hepoch, hpast, htime⟩

/-- An approval and, three seconds later, a request of the same nodes. -/
def approvedSession : List (Move (Operation checkingServer) (Choice checkingServer)) :=
  [.spawn (.recordSshAuthForPolicy ⟨1, 2, "root"⟩), .run 0 { now := 4, snapshot := () },
    .spawn (.handleSshAction
      { src := "1", dst := "2", machineKeyHex := some "mkey", authId := none, localUser := none
        rounds := 0 }),
    .run 1 { now := 6, snapshot := () }, .run 1 { now := 7, snapshot := () }]

end Headscale.Auth
