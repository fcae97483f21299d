import Headscale.Auth.CallSpecs

/-!
# What the operations do

A request is accepted in its last section, with the policy as it is then. Either an approval counts, or
the request has waited for a verdict and consumed it.
-/

namespace Headscale.Auth

open Std Node TreeMap Threads Option

variable {cfg : WireConfig} {s s' : WireState cfg} {c : Choice cfg} {e : Nat}

/-! ## SSH actions -/

def SshResponse.accepts : SshResponse → Bool
  | .error _ _ => false
  | .action a => a.accept

/-- In the state before the step, the policy has a rule that wants a check, with this period. The nodes
it is asked about were read by the same call. -/
def HasCheckRule (binding : SshCheckBinding) (localUser : List UInt8) (period : Nat)
    (hist : History (WireState cfg) (Choice cfg)) (step : CallStep cfg) : Prop :=
  ∃ read ∈ hist, step.before.sshCheckPeriod (cfg.sshPolicyNodes read.choice.snapshot)
    binding.srcNodeId binding.dstNodeId localUser = some period

/-- In the state before the step, an approval of the two nodes counts. -/
def HasApproval (pair : SshCheckPair) (period : Nat) (step : CallStep cfg) : Prop :=
  ∃ record stamp, step.before.lastSshAuth pair = some record ∧ record.policyStamp = some stamp ∧
    stamp.epoch = step.before.policy.sshAuthEpoch ∧ record.recordedAt ≤ step.choice.now ∧
    step.choice.now - record.recordedAt < period

/-- The call has found a session of the two nodes under the id, and has consumed an accepted verdict of
an entry that was made for the same id. -/
def ConsumedSession (authId : String) (pair : SshCheckPair) : Condition cfg := fun hist s =>
  ∃ session binding e, Made session authId s ∧ Bound session binding s ∧ binding.pair = pair ∧
    Made e authId s ∧ ∃ step ∈ hist, Consumes e step ∧
      ∃ verdict, HasOutcome e verdict step.before ∧ AuthWaitOutcome.ofOutcome verdict = .accepted

variable (authId : String)

lemma lasting_consumedSession (pair : SshCheckPair) :
    (discipline cfg).Lasting (ConsumedSession authId pair) :=
  .exists fun session => .exists fun binding => .exists fun e =>
    (lasting_made session authId).and ((lasting_bound session binding).and
      (Discipline.Lasting.and (.of_state fun _ _ _ h => h) ((lasting_made e authId).and .of_step)))

/-- Why a call accepts, in its last step. -/
def Accepts (binding : SshCheckBinding) (localUser : List UInt8) (response : SshResponse) :
    Condition cfg := fun hist s =>
  response.accepts = true → ∃ step, hist.head? = some step ∧
    ∃ period, HasCheckRule binding localUser period hist step ∧
      (HasApproval binding.pair period step ∨ ∃ authId, ConsumedSession authId binding.pair hist s)

variable (binding : SshCheckBinding) (localUser : List UInt8)

lemma returns_sshActionHold :
    Gives (sshActionHold binding localUser : Call cfg SshResponse)
      fun response _ _ => response.accepts = false := by
  unfold sshActionHold
  split
  · exact .pure fun _ _ _ => rfl
  refine .bind (Pays.read _) fun drawn => ?_
  cases drawn with
  | none => exact .pure fun _ _ _ => rfl
  | some rawAuthId =>
    exact .bind (pays_insert rawAuthId _) fun _ => .pure fun _ _ _ => rfl

lemma returns_authRequestKind :
    Gives (authRequestKind authId : Call cfg (Option AuthRequestKind)) fun kind _ s =>
      ∀ binding, kind = some (.sshCheck binding) → ∃ e, Made e authId s ∧ Bound e binding s := by
  refine .bind (returns_getEntry authId) fun found => ?_
  cases found with
  | none => exact .pure fun _ _ _ binding h => by cases h
  | some e =>
    have hmade : (discipline cfg).Stable fun _ s => ∀ i, some e = some i → Made i authId s :=
      fun hist s s' hs h i hi => (lasting_made i authId).stable hist s s' hs (h i hi)
    refine .read hmade (fun _ _ => trivial) fun hist c s hinv hs binding hkind => ⟨e, hs e rfl, ?_⟩
    obtain ⟨entry, hentry, hkind⟩ := bind_eq_some_iff.mp hkind
    refine bind_eq_some_iff.mpr ⟨entry, hentry, ?_⟩
    unfold kindOf at hkind
    split at hkind
    · next bound hbound =>
      cases hkind
      exact hbound
    · split at hkind <;> cases hkind

lemma returns_readSnapshot :
    Gives (.read fun c _ => c.snapshot : Call cfg cfg.Snapshot)
      fun snapshot hist _ => ∃ read ∈ hist, read.choice.snapshot = snapshot :=
  .read (fun _ _ _ _ h => h) (fun _ _ => trivial) fun _ _ _ _ _ => ⟨_, List.mem_cons_self, rfl⟩

lemma returns_acceptedSection {authId : String} (snapshot : cfg.Snapshot) :
    Returns (fun _ => True)
      (fun hist s => (∃ read ∈ hist, read.choice.snapshot = snapshot) ∧
        ConsumedSession authId binding.pair hist s)
      (.run fun c s => acceptedSection binding localUser snapshot c.now s : Call cfg SshResponse)
      (Accepts binding localUser) := by
  have hread : (discipline cfg).Lasting fun hist _ => ∃ read ∈ hist, read.choice.snapshot = snapshot :=
    .of_step
  have hsession : (discipline cfg).Lasting (ConsumedSession authId binding.pair) :=
    lasting_consumedSession authId binding.pair
  have hstep : ∀ c s, s.Valid → (discipline cfg).Step (fun _ => True)
      ⟨s, c, (acceptedSection binding localUser snapshot c.now s).2⟩ := by
    intro c s hs
    unfold acceptedSection
    split
    · exact step_refl hs trivial
    · refine step_recordAuth hs _ (fun stamp hstamp => ?_) trivial
      exact ⟨(Option.some.inj hstamp).symm, rfl⟩
  refine .run (hread.and hsession).stable (fun c s => ?_) hstep fun hist c s hinv hpre haccepts => ?_
  · unfold acceptedSection
    split <;> rfl
  · have hkept := (hread.and hsession).grows hist s c _ (hstep c s hinv).keeps hpre
    obtain ⟨⟨read, hmem, rfl⟩, hconsumed⟩ := hkept
    cases hperiod : s.sshCheckPeriod (cfg.sshPolicyNodes read.choice.snapshot) binding.srcNodeId
        binding.dstNodeId localUser with
    | none =>
      simp [acceptedSection, hperiod, SshResponse.accepts, sshNoCheckAction] at haccepts
    | some period =>
      exact ⟨_, rfl, period, ⟨read, hmem, hperiod⟩, .inr ⟨authId, hconsumed⟩⟩

lemma returns_sshActionFollowup (authId : List UInt8) (binding : SshCheckBinding)
    (localUser : List UInt8) (rounds : Nat) :
    Gives (sshActionFollowup authId binding localUser rounds : Call cfg SshResponse)
      (Accepts binding localUser) := by
  have hhold : ∀ pre : Condition cfg, Returns (fun _ => True) pre (sshActionHold binding localUser)
      (Accepts binding localUser) := fun pre =>
    (returns_sshActionHold binding localUser).consequence (fun _ _ _ => trivial)
      fun response _ _ hresponse haccepts => by simp [hresponse] at haccepts
  have hpure : ∀ (pre : Condition cfg) (response : SshResponse), response.accepts = false →
      Returns (fun _ => True) pre (pure response) (Accepts binding localUser) :=
    fun pre response hresponse => .pure fun _ _ _ haccepts => by simp [hresponse] at haccepts
  unfold sshActionFollowup
  split
  · exact hpure _ _ rfl
  split
  · exact hhold _
  next rawAuthId _ =>
  refine .bind (returns_authRequestKind rawAuthId) fun kind => ?_
  split
  · exact hhold _
  · exact hpure _ _ rfl
  next cached =>
  split
  · next hpair =>
    have hsession : (discipline cfg).Lasting fun _ s => ∃ e, Made e rawAuthId s ∧ Bound e cached s :=
      .exists fun e => (lasting_made e rawAuthId).and (lasting_bound e cached)
    have hwait : Returns (fun _ => True) (fun _ s => ∀ found,
        some (AuthRequestKind.sshCheck cached) = some (.sshCheck found) →
          ∃ e, Made e rawAuthId s ∧ Bound e found s)
        (waitForSshAuth rounds rawAuthId : Call cfg (Waited AuthWaitOutcome)) fun waited hist s =>
        Consumed rawAuthId waited hist s ∧ ∃ e, Made e rawAuthId s ∧ Bound e cached s :=
      ((returns_waitForSshAuth rounds rawAuthId).frame hsession).consequence
        (fun _ _ h => ⟨trivial, h cached rfl⟩) fun _ _ _ h => h
    refine .bind hwait fun ⟨entry, result⟩ => ?_
    match result with
    | none => exact hpure _ _ rfl
    | some (.rejected _) => exact hpure _ _ rfl
    | some .expired => exact hpure _ _ rfl
    | some .missing => exact hhold _
    | some .accepted =>
      have hsnapshot : Returns (fun _ => True) (fun hist s =>
          Consumed rawAuthId ⟨entry, some .accepted⟩ hist s ∧ ∃ e, Made e rawAuthId s ∧ Bound e cached s)
          (.read fun c _ => c.snapshot : Call cfg cfg.Snapshot) fun snapshot hist s =>
          (∃ read ∈ hist, read.choice.snapshot = snapshot) ∧
            ConsumedSession rawAuthId binding.pair hist s := by
        refine (returns_readSnapshot.frame (lasting_consumedSession rawAuthId binding.pair)).consequence
          (fun hist s h => ⟨trivial, ?_⟩) fun _ _ _ h => h
        obtain ⟨hconsumed, session, hmade, hbound⟩ := h
        obtain ⟨e, -, hmadeFor, hstep⟩ := hconsumed .accepted rfl (by simp)
        exact ⟨session, cached, e, hmade, hbound, of_decide_eq_true hpair, hmadeFor, hstep⟩
      exact .bind hsnapshot fun snapshot => returns_acceptedSection binding localUser snapshot
  · exact hpure _ _ rfl

lemma returns_cachedAction {followup : Bool} (snapshot : cfg.Snapshot) :
    Returns (fun _ => True) (fun hist _ => ∃ read ∈ hist, read.choice.snapshot = snapshot)
      (.read fun c s => cachedAction followup binding localUser snapshot c.now s :
        Call cfg (Option SshResponse))
      fun cached hist s => ∀ response, cached = some response →
        Accepts binding localUser response hist s := by
  have hread : (discipline cfg).Lasting fun hist _ => ∃ read ∈ hist, read.choice.snapshot = snapshot :=
    .of_step
  refine .read hread.stable (fun _ _ => trivial) fun hist c s hinv hpre response hcached haccepts => ?_
  obtain ⟨read, hmem, rfl⟩ := hpre
  unfold cachedAction at hcached
  split at hcached
  · cases hcached
    simp [SshResponse.accepts, sshNoCheckAction] at haccepts
  next period hperiod =>
  split at hcached
  · obtain ⟨last, hlast, -⟩ := map_eq_some_iff.mp hcached
    obtain ⟨hlast, htime⟩ := filter_eq_some_iff.mp hlast
    obtain ⟨record, hrecord, rfl⟩ := map_eq_some_iff.mp hlast
    obtain ⟨hrecord, hstamp⟩ := filter_eq_some_iff.mp hrecord
    obtain ⟨stamp, hstamp, hepoch⟩ := map_eq_some_iff.mp (of_decide_eq_true hstamp)
    simp only [Bool.and_eq_true, decide_eq_true_eq] at htime
    exact ⟨_, rfl, period, ⟨read, List.mem_cons_of_mem _ hmem, hperiod⟩,
      .inl ⟨record, stamp, hrecord, hstamp, hepoch, htime.1, htime.2⟩⟩
  · cases hcached

/-- The nodes and the user that a request is about. -/
def requestBinding (request : SshActionRequest) (src dst : Nat) : SshCheckBinding :=
  ⟨src, dst, (utf8 (request.localUser.getD [])).getD ""⟩

lemma returns_handleSshAction (request : SshActionRequest) :
    Gives (handleSshAction request : Call cfg SshResponse)
      fun response hist s => response.accepts = true → ∃ src dst, pathNodeIds request = .ok (src, dst) ∧
        Accepts (requestBinding request src dst) (request.localUser.getD []) response hist s := by
  have hpure : ∀ (pre : Condition cfg) (response : SshResponse) {result : SshResponse → Condition cfg},
      response.accepts = false → Returns (fun _ => True) pre (pure response) fun response hist s =>
        response.accepts = true → result response hist s :=
    fun pre response _ hresponse => .pure fun _ _ _ haccepts => by simp [hresponse] at haccepts
  unfold handleSshAction
  split
  · next response hids =>
    refine hpure _ _ ?_
    unfold pathNodeIds at hids
    split at hids
    · cases hids
      rfl
    · split at hids <;> cases hids
      rfl
  next src dst hids =>
  split
  · exact hpure _ _ rfl
  refine .bind returns_readSnapshot fun snapshot => ?_
  split
  · exact hpure _ _ rfl
  split
  · exact hpure _ _ rfl
  refine Returns.bind (returns_cachedAction (requestBinding request src dst) _ snapshot) fun cached => ?_
  cases cached with
  | some response => exact .pure fun _ _ h _ => ⟨src, dst, hids, h response rfl⟩
  | none =>
    refine Returns.forget ?_
    cases authIdBytes request with
    | some authId =>
      exact (returns_sshActionFollowup authId _ _ request.rounds).consequence (fun _ _ h => h)
        fun _ _ _ h _ => ⟨src, dst, hids, h⟩
    | none =>
      exact (returns_sshActionHold _ _).consequence (fun _ _ h => h)
        fun _ _ _ h haccepts => by simp [h] at haccepts

/-! ## Operations -/

namespace Operation

/-- What the steps of an operation do beside what all do. -/
def own : Operation cfg → CallStep cfg → Prop
  | .finishRegistration completion _ => OnlyEntry completion.entry
  | .installPolicy _ _ => fun step => step.before.policy.sshAuthEpoch < step.after.policy.sshAuthEpoch
  | _ => fun _ => True

/-- What is known of an operation that has returned. -/
def promise : Operation cfg → Reply → Condition cfg
  | .waitForSshAuth _ authId, .auth waited => Consumed authId waited
  | .handleSshAction request, .ssh response => fun hist s => response.accepts = true →
      ∃ src dst, pathNodeIds request = .ok (src, dst) ∧
        Accepts (requestBinding request src dst) (request.localUser.getD []) response hist s
  | _, _ => fun _ _ => True

lemma stable_promise (op : Operation cfg) (reply : Reply) : (discipline cfg).Stable (op.promise reply) := by
  intro hist s s' hs h
  unfold promise at h ⊢
  split
  · intro result hresult hfound
    obtain ⟨e, hentry, hmade, hconsumes⟩ := h result hresult hfound
    exact ⟨e, hentry, (lasting_made e _).stable hist s s' hs hmade, hconsumes⟩
  · intro haccepts
    obtain ⟨src, dst, hids, hwhy⟩ := h haccepts
    refine ⟨src, dst, hids, fun haccepts => ?_⟩
    obtain ⟨step, hstep, period, hrule, happroved | ⟨authId, hsession⟩⟩ := hwhy haccepts
    · exact ⟨step, hstep, period, hrule, .inl happroved⟩
    · exact ⟨step, hstep, period, hrule, .inr ⟨authId,
        (lasting_consumedSession authId _).stable hist s s' hs hsession⟩⟩
  · trivial

lemma returns_write {own : CallStep cfg → Prop} {f : Choice cfg → WireState cfg → WireState cfg}
    (hinner : ∀ c s, (f c s).inner = s.inner)
    (hstep : ∀ c s, s.Valid → (discipline cfg).Step own ⟨s, c, f c s⟩) :
    Returns own (fun _ _ => True) (do
      .write f
      return .done : Call cfg Reply) fun _ _ _ => True :=
  .bind (.run (fun _ _ _ _ h => h) hinner hstep fun _ _ _ _ h => h) fun _ => .pure fun _ _ h => h

lemma returns_code (op : Operation cfg) :
    Returns op.own (fun _ _ => True) op.code op.promise := by
  cases op with
  | pruneExpired => exact pays_pruneExpired.bind fun _ => .pure _
  | insertFromSource registrationId record source =>
    exact (pays_insert registrationId _).bind fun _ => .pure _
  | insertSshCheck authId binding => exact (pays_insert authId _).bind fun _ => .pure _
  | pendingRegistrationCompletion registrationId =>
    exact (pays_pendingRegistrationCompletion registrationId).bind fun _ => .pure _
  | finishRegistration completion registered =>
    exact (returns_finishRegistration completion registered).bind fun _ => .pure fun _ _ h => h
  | remove registrationId => exact (pays_remove registrationId).bind fun _ => .pure _
  | complete registrationId registered =>
    exact (pays_complete registrationId registered).bind fun _ => .pure _
  | approveWithoutNode registrationId =>
    exact (pays_settleById registrationId .approvedWithoutNode).bind fun _ => .pure _
  | reject registrationId reason =>
    exact (pays_settleById registrationId (.rejected reason)).bind fun _ => .pure _
  | waitForRegistration rounds registrationId =>
    exact (pays_waitForRegistration rounds registrationId).bind fun _ => .pure _
  | waitForAuth rounds authId => exact (pays_waitForAuth rounds authId).bind fun _ => .pure _
  | waitForSshAuth rounds authId =>
    exact (returns_waitForSshAuth rounds authId).bind fun _ => .pure fun _ _ h => h
  | recordSshAuth binding policyUpdatedAt =>
    refine returns_write (fun _ _ => rfl) fun c s hs => step_recordAuth hs _ (fun stamp h => ?_) trivial
    cases h
  | recordSshAuthForPolicy binding =>
    refine returns_write (fun _ _ => rfl) fun c s hs => step_recordAuth hs _ (fun stamp h => ?_) trivial
    exact ⟨(Option.some.inj h).symm, rfl⟩
  | clearSshAuth => exact returns_write (fun _ _ => rfl) fun c s hs => step_clearSshAuth hs trivial
  | installPolicy doc updatedAt =>
    exact returns_write (fun _ _ => rfl) fun c s hs => step_policy hs (Nat.le_succ _) (Nat.lt_succ_self _)
  | refreshPolicy doc nodeInputs =>
    exact returns_write (fun _ _ => rfl) fun c s hs => step_policy hs (Nat.le_refl _) trivial
  | invalidateSshAuth =>
    exact returns_write (fun _ _ => rfl) fun c s hs => step_policy hs (Nat.le_succ _) trivial
  | handleSshAction request =>
    exact (returns_handleSshAction request).bind fun _ => .pure fun _ _ h => h

end Operation

def callSpec (cfg : WireConfig) : Spec (discipline cfg) (@Operation.code cfg) where
  own := Operation.own
  post op reply := fun hist s => Owes [] hist s ∧ op.promise reply hist s
  stable op reply := (stable_owes []).and (op.stable_promise reply)
  holds op := by
    refine Triple.consequence (fun hist s h => ⟨?_, trivial⟩) (fun _ _ _ h => h) op.returns_code
    rw [h]
    exact fun _ hmem => absurd hmem List.not_mem_nil

end Headscale.Auth
