import Headscale.Policy.Runs

/-!
# Rejected policies

A replacement that is rejected leaves the installed policy in force. The checks come before anything
is published; when the compilation fails, the published projections are undone and the old policy is
compiled again. That compilation sees the retained nodes, which need not be the ones the old runtime
was compiled from, so that the global filter may come back with its prefixes in another order.
-/

namespace Headscale.Policy

open GoNetip Collection Machine PolicyState

/-- The states have the same policy: its document, projections, source, time and identity. -/
structure SamePolicy (s t : PolicyState) : Prop where
  doc : t.doc = s.doc
  filterDoc : t.filterDoc = s.filterDoc
  users : t.users = s.users
  raw : t.raw = s.raw
  rawBytes : t.rawBytes = s.rawBytes
  compilationSource : t.compilationSource = s.compilationSource
  updatedAt : t.updatedAt = s.updatedAt
  sshAuthEpoch : t.sshAuthEpoch = s.sshAuthEpoch
  packetFilterDefaultAllow : t.packetFilterDefaultAllow = s.packetFilterDefaultAllow
  grantApps : t.grantApps = s.grantApps
  sshAcceptEnvNil : t.sshAcceptEnvNil = s.sshAcceptEnvNil
  sourceAclRules : t.sourceAclRules = s.sourceAclRules
  sourceAclIdentity : t.sourceAclIdentity = s.sourceAclIdentity
  sourceContainerShape : t.sourceContainerShape = s.sourceContainerShape
  tagOwnerAliases : t.tagOwnerAliases = s.tagOwnerAliases
  nodes : t.nodeInputs.nodes = s.nodeInputs.nodes

/-- The policy in force is the same: the filters make the same offers, and the attributes, route
approvers and tag owners are equal. -/
structure SameInForce (s t : PolicyState) (rt rt' : CompiledRuntime) : Prop where
  filters : SameOffers s.filters t.filters
  attrs : ∀ id, rt'.attrsFor id = rt.attrsFor id
  approvers : rt'.approvers = rt.approvers
  tagOwners : rt'.tagOwners = rt.tagOwners

section Rejection

variable {opaqueDoc : OpaqueDocument} {s t : PolicyState} {rt : CompiledRuntime}

lemma SamePolicy.refl (s : PolicyState) : SamePolicy s s := by
  constructor <;> rfl

lemma SamePolicy.recompile (h : SamePolicy s t) (invalidate : Bool) :
    SamePolicy s (t.recompile opaqueDoc invalidate).1 := by
  obtain ⟨compiled, filters, pendingAttrs, compileError, hframe⟩ :=
    t.recompile_frame opaqueDoc invalidate
  rw [hframe]
  exact ⟨h.doc, h.filterDoc, h.users, h.raw, h.rawBytes, h.compilationSource, h.updatedAt,
    h.sshAuthEpoch, h.packetFilterDefaultAllow, h.grantApps, h.sshAcceptEnvNil, h.sourceAclRules,
    h.sourceAclIdentity, h.sourceContainerShape, h.tagOwnerAliases, h.nodes⟩

lemma SamePolicy.scratch (h : SamePolicy s t) : t.scratch = s.scratch := by
  simp only [PolicyState.scratch, PolicyState.runtimeInputs, NodeInputs.filterNodes,
    NodeInputs.retained, h.filterDoc, h.grantApps, h.tagOwnerAliases, h.packetFilterDefaultAllow,
    h.nodes]

/-- Undoing the publication of a candidate brings every input of the compilation back. -/
theorem samePolicy_restore (p : PolicyState.Projected) (invalidate : Bool) :
    SamePolicy s (((s.publish p).recompile opaqueDoc invalidate).1.restore s) := by
  obtain ⟨compiled, filters, pendingAttrs, compileError, hframe⟩ :=
    (s.publish p).recompile_frame opaqueDoc invalidate
  rw [hframe]
  constructor <;> rfl

/-- Compiling the policy in force again changes nothing, if the retained nodes compile like those it
was compiled from. -/
theorem Current.recompile_inForce (h : Current opaqueDoc s) (hok : s.compileError = none)
    (hrt : s.compiled = some rt)
    (hnodes : s.users ≠ none ∨ rt.resolverNodes = s.nodeInputs.filterNodes)
    (hpolicy : SamePolicy s t) :
    (t.recompile opaqueDoc true).1.compileError = none ∧
      ∃ rt', (t.recompile opaqueDoc true).1.compiled = some rt' ∧
        SameInForce s (t.recompile opaqueDoc true).1 rt rt' ∧
        (rt.resolverNodes = s.nodeInputs.filterNodes →
          (t.recompile opaqueDoc true).1.filters = s.filters ∧ rt'.attrs = rt.attrs) := by
  obtain ⟨nodes, hfor⟩ := h.runtime hok rt hrt
  have hresolver : rt.resolverNodes = nodes := hfor.compiled.resolverNodes
  have hsame : ∀ doc, s.filterDoc = some doc → SameNodes doc nodes s.nodeInputs.filterNodes := by
    rcases hnodes with hknown | hequal
    · exact h.sameNodes hknown hfor.same
    · intro doc _
      rw [← hresolver, hequal]
      exact Alike.refl (NodeEquiv.refl doc) _
  have hbound : t.nodeInputs.nodes ≠ none := by
    rw [hpolicy.nodes]
    exact h.bound rt hrt
  have hfilterNodes : t.nodeInputs.filterNodes = s.nodeInputs.filterNodes := by
    simp only [NodeInputs.filterNodes, NodeInputs.retained, hpolicy.nodes]
  obtain ⟨rt', hrt', hfilters, hfrom, hresult⟩ := t.recompile_bound opaqueDoc true hbound
  rw [hpolicy.scratch] at hfrom
  rw [hpolicy.filterDoc, hfilterNodes] at hresult
  have hglobal : rt'.globalRules =
      globalFilter s.filterDoc s.nodeInputs.filterNodes s.grantApps s.packetFilterDefaultAllow :=
    hfrom.globalRules
  have hbefore : s.filters =
      globalFilter s.filterDoc nodes s.grantApps s.packetFilterDefaultAllow := by
    rw [h.filters rt hrt, hfor.compiled.globalRules]
    rfl
  obtain ⟨e, -, he, -⟩ | ⟨a, b, ha, hb, hab⟩ := attrsOf_same hsame
  · rw [hfor.attrs] at he
    cases he
  rw [hfor.attrs] at ha
  cases ha
  simp only [hb] at hresult
  obtain ⟨⟨effects, heffects⟩, hattrs, -⟩ := hresult
  refine ⟨by rw [recompile_compileError, heffects], rt', hrt', ⟨?_, ?_, ?_, ?_⟩, ?_⟩
  · rw [hfilters, hglobal, hbefore]
    exact globalFilter_same hsame _ _
  · intro id
    rw [CompiledRuntime.attrsFor, CompiledRuntime.attrsFor, hattrs, hab id]
  · rw [hfrom.approvers, hfor.compiled.approvers]
    simp only [scratch, runtimeInputs]
    cases hdoc : s.filterDoc with
    | none => rfl
    | some doc => exact (routeApprovers_eq (hsame doc hdoc)).symm
  · rw [hfrom.tagOwners, hfor.compiled.tagOwners]
    exact (compileTagOwners_eq hsame _).symm
  · intro hequal
    rw [← hresolver, hequal] at hbefore
    have hunchanged := hfor.attrs
    rw [← hresolver, hequal, hb] at hunchanged
    exact ⟨by rw [hfilters, hglobal, hbefore], by rw [hattrs, Except.ok.inj hunchanged]⟩

end Rejection

/-- After every run: a rejected replacement leaves the policy as it was, and the policy that was in
force without a compile error is in force again. -/
theorem installAtQuiet_rejected_restores (readers : SourceReaders) (opaqueDoc : OpaqueDocument)
    (users : Option (List PolicyUser)) (s : PolicyState)
    (hs : (policyStore readers opaqueDoc users).Reachable s) (hok : s.compileError = none)
    (rt : CompiledRuntime) (hrt : s.compiled = some rt)
    (hnodes : s.users ≠ none ∨ rt.resolverNodes = s.nodeInputs.filterNodes)
    (candidate : PolicyState.Candidate) (t : PolicyState) (e : InstallError)
    (hrejected : s.installAtQuiet readers opaqueDoc candidate .replacement = (t, .error e)) :
    SamePolicy s t ∧ t.compileError = none ∧
      ∃ rt', t.compiled = some rt' ∧ SameInForce s t rt rt' ∧
        (rt.resolverNodes = s.nodeInputs.filterNodes →
          t.filters = s.filters ∧ rt'.attrs = rt.attrs) := by
  obtain ⟨reason, hself⟩ | ⟨p, -, ⟨effects, -, hnew⟩ | ⟨reason, -, hnew⟩⟩ :=
    s.installAtQuiet_cases readers opaqueDoc candidate .replacement
  · obtain ⟨rfl, -⟩ := Prod.mk.inj (hself.symm.trans hrejected)
    exact ⟨.refl s, hok, rt, hrt, ⟨.refl _, fun _ => rfl, rfl, rfl⟩, fun _ => ⟨rfl, rfl⟩⟩
  · obtain ⟨-, herror⟩ := Prod.mk.inj (hnew.symm.trans hrejected)
    cases herror
  rw [if_neg (by decide)] at hnew
  obtain ⟨rfl, -⟩ := Prod.mk.inj (hnew.symm.trans hrejected)
  have hpolicy : SamePolicy s
      (((s.publish p).recompile opaqueDoc (s.invalidates p)).1.restore s) :=
    samePolicy_restore p _
  exact ⟨hpolicy.recompile true,
    (current_of_reachable hs).recompile_inForce hok hrt hnodes hpolicy⟩

/-! ## Reordered routes -/

/-- Everything may reach everything. -/
def openPolicy : PolicyDoc := { rules := [{ src := ["*"], dst := ["*"], ports := ["*/*"] }] }

/-- A policy that does not compile: attributes cannot be given to a user's own devices. -/
def selfAttributes : PolicyDoc :=
  { nodeAttrs := [{ target := ["autogroup:self"], attr := ["funnel"] }] }

def router (routes : List String) : NodeInput :=
  { id := 1, ownerId := 2, associationId := some 2, addrs := ["100.64.0.1"], active := routes,
    legacy := by simp }

/-- A router is retained and the open policy installed; then the router's routes change places,
which counts as no change. -/
def reorderedRun : List StoreAction :=
  [.initializeNodes [router ["10.0.0.0/24", "10.2.0.0/24"]],
    .install { doc := openPolicy, raw := "" } .replacement,
    .replaceNodes [router ["10.2.0.0/24", "10.0.0.0/24"]]]

/-- The store after the first operations of the run. -/
def reorderedStore (length : Nat) : PolicyState :=
  runStore noReaders (fun doc _ => doc) (some []) (reorderedRun.take length)

lemma reachable_reorderedStore (length : Nat) :
    (policyStore noReaders (fun doc _ => doc) (some [])).Reachable (reorderedStore length) := by
  have hids : ∀ routes, ([router routes].map NodeInput.id).Nodup := fun _ => List.nodup_singleton _
  have hwf : ∀ a ∈ reorderedRun, a.WellFormed := by
    simp only [reorderedRun, List.forall_mem_cons]
    exact ⟨hids _, trivial, hids _, by simp⟩
  exact reachable_runStore (fun a ha => hwf a (List.mem_of_mem_take ha)) fun _ _ _ _ => trivial

/-- Replacing the policy by the one that does not compile. -/
def rejectedInstall (s : PolicyState) : PolicyState × Except InstallError Unit :=
  s.installAtQuiet noReaders (fun doc _ => doc) { doc := selfAttributes, raw := "" } .replacement

lemma rejectedInstall_error {s : PolicyState} (h : (rejectedInstall s).2.isOk = false) :
    ∃ e, rejectedInstall s = ((rejectedInstall s).1, .error e) := by
  cases hresult : (rejectedInstall s).2 with
  | error e => exact ⟨e, Prod.ext rfl hresult⟩
  | ok _ => simp [hresult, Except.toBool] at h

/-- A rejected policy brings the global filter back with the routes in their new order. -/
theorem reorderedRun_rejected_filters :
    (policyStore noReaders (fun doc _ => doc) (some [])).Reachable (reorderedStore 3) ∧
      (reorderedStore 3).compileError = none ∧ (reorderedStore 3).nodeInputs.nodes ≠ none ∧
      (∃ e, rejectedInstall (reorderedStore 3) =
        ((rejectedInstall (reorderedStore 3)).1, .error e)) ∧
      (rejectedInstall (reorderedStore 3)).1.filters ≠ (reorderedStore 3).filters :=
  ⟨reachable_reorderedStore 3, by decide +kernel, by decide +kernel,
    rejectedInstall_error (by decide +kernel), by decide +kernel⟩

/-- Before the routes change places, the rejected policy leaves the filter as it was. -/
theorem reorderedRun_take_restores :
    (rejectedInstall (reorderedStore 2)).1.compileError = none ∧
      (rejectedInstall (reorderedStore 2)).1.filters = (reorderedStore 2).filters := by
  have hsome : (reorderedStore 2).compiled.isSome = true := by decide +kernel
  have hnodes : ((reorderedStore 2).compiled.getD {}).resolverNodes =
      (reorderedStore 2).nodeInputs.filterNodes := by decide +kernel
  obtain ⟨rt, hrt⟩ := Option.isSome_iff_exists.mp hsome
  rw [hrt, Option.getD_some] at hnodes
  obtain ⟨e, herror⟩ := rejectedInstall_error (s := reorderedStore 2) (by decide +kernel)
  obtain ⟨-, hok, _, -, -, hequal⟩ := installAtQuiet_rejected_restores noReaders _ (some []) _
    (reachable_reorderedStore 2) (by decide +kernel) rt hrt (.inr hnodes) _ _ e herror
  exact ⟨hok, (hequal hnodes).1⟩

end Headscale.Policy
