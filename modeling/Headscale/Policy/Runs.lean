import Headscale.Lib.Machine
import Headscale.Policy.Store

/-!
# Runs of the policy store

The operations of the store as a transition system, and what holds after every run: the projections
belong to the installed document, and without a compile error the runtime was compiled from them and
from nodes that compile like the retained ones. The nodes need not be the retained ones, since a
replacement that counts as no change keeps the runtime.
-/

namespace Headscale.Policy

open GoNetip Collection Machine Option PolicyState NodeInputs

/-! ## Runs -/

/-- The operations of the store. Queries are about retained nodes. -/
inductive StoreAction where
  | install (candidate : PolicyState.Candidate) (installation : Installation)
  | setUsers (users : List PolicyUser)
  | initializeNodes (nodes : List NodeInput)
  | replaceNodes (nodes : List NodeInput)
  | queryFilter (id : Nat)
  | queryRoute (id : Nat) (route : String)

section Runs

variable (readers : SourceReaders) (opaqueDoc : OpaqueDocument)

def StoreAction.apply (s : PolicyState) : StoreAction → PolicyState
  | .install candidate installation => (s.installAtQuiet readers opaqueDoc candidate installation).1
  | .setUsers users => (s.setUsersWithChangeQuiet opaqueDoc users).1
  | .initializeNodes nodes => (s.initializeNodeInputs opaqueDoc nodes).1
  | .replaceNodes nodes => (s.tryReplaceNodeInputs opaqueDoc nodes).1
  | .queryFilter id =>
    match nodeById s.nodeInputs.retained id with
    | some node => (s.filterRulesForNode node.filterNode).2
    | none => s
  | .queryRoute id route =>
    match nodeById s.nodeInputs.retained id with
    | some node => (s.canAccessRouteForPeer node.filterNode route).2
    | none => s

/-- Node lists come from a registry keyed by id. -/
def StoreAction.WellFormed : StoreAction → Prop
  | .initializeNodes nodes => (nodes.map NodeInput.id).Nodup
  | .replaceNodes nodes => (nodes.map NodeInput.id).Nodup
  | _ => True

/-- A store that starts with the users it is given, if any. -/
def policyStore (users : Option (List PolicyUser)) : System PolicyState StoreAction where
  init s := s = { users := users }
  step s action s' := action.WellFormed ∧ s' = action.apply readers opaqueDoc s

end Runs

/-! ## The invariant -/

/-- Nodes that compile alike under every known directory. -/
def SameKnown (xs ys : List PacketFilterNode) : Prop :=
  ∀ doc : PolicyDoc, doc.users ≠ none → SameNodes doc xs ys

lemma SameKnown.refl (xs : List PacketFilterNode) : SameKnown xs xs :=
  fun doc _ => Alike.refl (NodeEquiv.refl doc) xs

lemma SameKnown.trans {xs ys zs : List PacketFilterNode} (hxy : SameKnown xs ys)
    (hyz : SameKnown ys zs) : SameKnown xs zs :=
  fun doc hdoc => Alike.trans (R := NodeEquiv doc) (fun _ _ _ h h' => h.trans h') (hxy doc hdoc)
    (hyz doc hdoc)

/-- The projections belong to the document and the document has the users of the store. -/
structure WellProjected (s : PolicyState) : Prop where
  docUsers : ∀ doc, s.doc = some doc → doc.users = s.users
  noFilterDoc : s.doc = none → s.filterDoc = none
  filterDoc : ∀ doc, s.doc = some doc →
    ∃ filterDoc, s.filterDoc = some filterDoc ∧
      packetFilterDocument doc s.sourceAclRules = .ok filterDoc
  tagOwners : ∀ doc, s.doc = some doc → flattenTagOwners doc = .ok s.tagOwnerAliases
  distinct : (s.nodeInputs.retained.map NodeInput.id).Nodup

/-- The runtime was compiled from the projections and from nodes that compile like the retained
ones. -/
structure CompiledFor (opaqueDoc : OpaqueDocument) (s : PolicyState) (rt : CompiledRuntime)
    (nodes : List PacketFilterNode) : Prop where
  same : SameKnown nodes s.nodeInputs.filterNodes
  perNode : s.users ≠ none → s.runtimeInputs = s.scratch
  compiled : rt.CompiledFrom opaqueDoc { s.runtimeInputs with resolverNodes := nodes }
  attrs : attrsOf s.filterDoc nodes = .ok rt.attrs

structure Current (opaqueDoc : OpaqueDocument) (s : PolicyState) : Prop extends
    WellProjected s where
  bound : ∀ rt, s.compiled = some rt → s.nodeInputs.nodes ≠ none
  filters : ∀ rt, s.compiled = some rt → s.filters = rt.globalRules
  runtime : s.compileError = none → ∀ rt, s.compiled = some rt →
    ∃ nodes, CompiledFor opaqueDoc s rt nodes

section Invariant

variable {opaqueDoc : OpaqueDocument} {s : PolicyState}

lemma WellProjected.filterDoc_users (h : WellProjected s) {doc : PolicyDoc}
    (hdoc : s.filterDoc = some doc) : doc.users = s.users := by
  cases hsource : s.doc with
  | none =>
    rw [h.noFilterDoc hsource] at hdoc
    cases hdoc
  | some source =>
    obtain ⟨filterDoc, hfilter, hprojected⟩ := h.filterDoc source hsource
    cases hdoc.symm.trans hfilter
    have husers : doc.users = source.users := by
      unfold packetFilterDocument at hprojected
      cases hrules : aclRulesFromGrants source.grants with
      | error e => simp [hrules, Except.map] at hprojected
      | ok rules =>
        simp only [hrules, Except.map, Except.ok.injEq] at hprojected
        rw [← hprojected]
    rw [husers, h.docUsers source hsource]

/-- With known users, nodes that compile alike under known users compile alike. -/
theorem WellProjected.sameNodes (h : WellProjected s) (hknown : s.users ≠ none)
    {xs ys : List PacketFilterNode} (hsame : SameKnown xs ys) :
    ∀ doc, s.filterDoc = some doc → SameNodes doc xs ys :=
  fun doc hdoc => hsame doc (h.filterDoc_users hdoc ▸ hknown)

/-- What holds of the projections holds of every state with the same projections and nodes. -/
theorem WellProjected.congr {t : PolicyState} (h : WellProjected s) (hdoc : t.doc = s.doc)
    (hfilter : t.filterDoc = s.filterDoc) (husers : t.users = s.users)
    (hrules : t.sourceAclRules = s.sourceAclRules)
    (haliases : t.tagOwnerAliases = s.tagOwnerAliases)
    (hnodes : t.nodeInputs.nodes = s.nodeInputs.nodes) : WellProjected t := by
  refine ⟨?_, ?_, ?_, ?_, ?_⟩
  · rw [hdoc, husers]
    exact h.docUsers
  · rw [hdoc, hfilter]
    exact h.noFilterDoc
  · rw [hdoc, hfilter, hrules]
    exact h.filterDoc
  · rw [hdoc, haliases]
    exact h.tagOwners
  · rw [retained, hnodes]
    exact h.distinct

lemma WellProjected.recompile (h : WellProjected s) (invalidate : Bool) :
    WellProjected (s.recompile opaqueDoc invalidate).1 := by
  obtain ⟨compiled, filters, pendingAttrs, compileError, hframe⟩ :=
    s.recompile_frame opaqueDoc invalidate
  rw [hframe]
  exact h.congr rfl rfl rfl rfl rfl rfl

/-! ## Recompilation -/

/-- A recompilation keeps what it compiles from. -/
theorem recompile_inputs (opaqueDoc : OpaqueDocument) (s : PolicyState) (invalidate : Bool) :
    (s.recompile opaqueDoc invalidate).1.scratch = s.scratch ∧
      (s.recompile opaqueDoc invalidate).1.runtimeInputs = s.scratch ∧
      (s.recompile opaqueDoc invalidate).1.filterDoc = s.filterDoc ∧
      (s.recompile opaqueDoc invalidate).1.nodeInputs.nodes = s.nodeInputs.nodes := by
  obtain ⟨compiled, filters, pendingAttrs, compileError, hframe⟩ :=
    s.recompile_frame opaqueDoc invalidate
  rw [hframe]
  exact ⟨rfl, rfl, rfl, rfl⟩

lemma recompile_filterNodes (opaqueDoc : OpaqueDocument) (s : PolicyState) (invalidate : Bool) :
    (s.recompile opaqueDoc invalidate).1.nodeInputs.filterNodes = s.nodeInputs.filterNodes := by
  rw [filterNodes, retained, (recompile_inputs opaqueDoc s invalidate).2.2.2]
  rfl

/-- What a recompilation leaves is compiled for the store, whatever was compiled before. -/
theorem Current.of_recompile (h : WellProjected s)
    (hbound : ∀ rt, s.compiled = some rt → s.nodeInputs.nodes ≠ none) (invalidate : Bool) :
    Current opaqueDoc (s.recompile opaqueDoc invalidate).1 := by
  obtain ⟨hscratch, hinputs, hfilterDoc, hretained⟩ := recompile_inputs opaqueDoc s invalidate
  by_cases hnodes : s.nodeInputs.nodes = none
  · -- Nothing was compiled, and nothing is.
    have hnone : (s.recompile opaqueDoc invalidate).1.compiled = none := by
      rw [s.recompile_unbound opaqueDoc invalidate hnodes]
      cases hrt : s.compiled with
      | none => rfl
      | some rt => exact absurd hnodes (hbound rt hrt)
    refine ⟨h.recompile invalidate, ?_, ?_, ?_⟩ <;> simp [hnone]
  obtain ⟨rt, hrt, hglobal, hfrom, hresult⟩ := s.recompile_bound opaqueDoc invalidate hnodes
  refine ⟨h.recompile invalidate, ?_, ?_, ?_⟩
  · intro _ _
    rw [hretained]
    exact hnodes
  · intro rt' hrt'
    cases hrt.symm.trans hrt'
    exact hglobal
  · intro hok rt' hrt'
    cases hrt.symm.trans hrt'
    rw [recompile_compileError] at hok
    cases hattrs : attrsOf s.filterDoc s.nodeInputs.filterNodes with
    | error e =>
      simp only [hattrs] at hresult
      simp [hresult] at hok
    | ok attrs =>
      simp only [hattrs] at hresult
      refine ⟨s.nodeInputs.filterNodes, ?_, fun _ => hinputs.trans hscratch.symm, ?_, ?_⟩
      · rw [recompile_filterNodes]
        exact .refl _
      · rw [hinputs]
        exact hfrom
      · rw [hfilterDoc, hattrs, hresult.2.1]

/-! ## Installing -/

variable {readers : SourceReaders} {candidate : PolicyState.Candidate} {installation : Installation}
  {p : PolicyState.Projected}

/-- A projected candidate has the projections of its document, with users where the store has. -/
theorem project_ok (h : s.project readers candidate installation = .ok p) :
    (s.users ≠ none → p.doc.users ≠ none) ∧ flattenTagOwners p.doc = .ok p.tagOwnerAliases ∧
      packetFilterDocument p.doc p.sourceAclRules = .ok p.filterDoc := by
  have husers : s.users ≠ none → (s.candidateDoc candidate.doc).users ≠ none := by
    intro hknown
    unfold candidateDoc
    split
    · simp
    · exact hknown
  simp only [project] at h
  split at h
  · cases h
  cases htags : flattenTagOwners (s.candidateDoc candidate.doc) with
  | error e => simp [htags, Except.bind] at h
  | ok tagOwnerAliases =>
    simp only [htags, Except.bind] at h
    generalize hdetails : ((readers.aclDetails candidate.raw (s.candidateDoc candidate.doc)).map
      fun x => (x.1, x.2.1, some x.2.2)).getD ((s.candidateDoc candidate.doc).rules,
        aclUserAliases (s.candidateDoc candidate.doc).rules, none) = details at h
    cases hfilter : packetFilterDocument (s.candidateDoc candidate.doc) details.1 with
    | error e => simp [hfilter, Except.map, Except.mapError] at h
    | ok filterDoc =>
      simp only [hfilter, Except.map, Except.mapError, Except.ok.injEq] at h
      subst h
      exact ⟨husers, htags, hfilter⟩

lemma WellProjected.publish (h : WellProjected s)
    (hp : s.project readers candidate installation = .ok p) : WellProjected (s.publish p) := by
  obtain ⟨-, htags, hfilter⟩ := project_ok hp
  refine ⟨?_, ?_, ?_, ?_, h.distinct⟩
  · rintro doc hdoc
    cases hdoc
    rfl
  · intro hdoc
    cases hdoc
  · rintro doc hdoc
    cases hdoc
    exact ⟨_, rfl, hfilter⟩
  · rintro doc hdoc
    cases hdoc
    exact htags

lemma Current.install (h : Current opaqueDoc s) (candidate : PolicyState.Candidate)
    (installation : Installation) :
    Current opaqueDoc (s.installAtQuiet readers opaqueDoc candidate installation).1 := by
  obtain ⟨e, hself⟩ | ⟨p, hp, hrest⟩ :=
    s.installAtQuiet_cases readers opaqueDoc candidate installation
  · rwa [hself]
  have hpublished : Current opaqueDoc ((s.publish p).recompile opaqueDoc (s.invalidates p)).1 :=
    Current.of_recompile (h.toWellProjected.publish hp) h.bound _
  obtain ⟨effects, -, hnew⟩ | ⟨e, -, hnew⟩ := hrest
  · rw [hnew]
    refine ⟨hpublished.toWellProjected.congr rfl rfl rfl rfl rfl rfl, hpublished.bound,
      hpublished.filters, ?_⟩
    intro hok rt hrt
    obtain ⟨nodes, hfor⟩ := hpublished.runtime hok rt hrt
    exact ⟨nodes, hfor.same, hfor.perNode, hfor.compiled, hfor.attrs⟩
  · rw [hnew]
    split
    · exact hpublished
    have hnodes := (recompile_inputs opaqueDoc (s.publish p) (s.invalidates p)).2.2.2
    exact Current.of_recompile
      (s := ((s.publish p).recompile opaqueDoc (s.invalidates p)).1.restore s)
      (h.toWellProjected.congr rfl rfl rfl rfl rfl hnodes) hpublished.bound true

/-! ## Users and nodes -/

lemma WellProjected.withDirectory (h : WellProjected s) (users : Option (List PolicyUser)) :
    WellProjected (s.withDirectory users) := by
  refine ⟨?_, ?_, ?_, ?_, h.distinct⟩
  · intro doc hdoc
    obtain ⟨source, -, rfl⟩ := map_eq_some_iff.mp hdoc
    rfl
  · intro hdoc
    have hnone : s.doc = none := map_eq_none_iff.mp hdoc
    simp [PolicyState.withDirectory, h.noFilterDoc hnone]
  · intro doc hdoc
    obtain ⟨source, hsource, rfl⟩ := map_eq_some_iff.mp hdoc
    obtain ⟨filterDoc, hfilter, hprojected⟩ := h.filterDoc source hsource
    refine ⟨{ filterDoc with users := users }, by simp [PolicyState.withDirectory, hfilter], ?_⟩
    -- The projection reads the grants only.
    unfold packetFilterDocument at hprojected ⊢
    cases hrules : aclRulesFromGrants source.grants with
    | error e => simp [hrules, Except.map] at hprojected
    | ok rules =>
      simp only [hrules, Except.map, Except.ok.injEq] at hprojected ⊢
      rw [← hprojected]
      rfl
  · intro doc hdoc
    obtain ⟨source, hsource, rfl⟩ := map_eq_some_iff.mp hdoc
    exact h.tagOwners source hsource

lemma Current.setUsers (h : Current opaqueDoc s) (users : List PolicyUser) :
    Current opaqueDoc (s.setUsersWithChangeQuiet opaqueDoc users).1 := by
  simp only [setUsersWithChangeQuiet]
  generalize users.insertionSort (fun a b => a.id ≤ b.id) = users
  have hswitched : Current opaqueDoc ((s.switchDirectory users).recompile opaqueDoc true).1 := by
    refine Current.of_recompile (s := s.switchDirectory users)
      ((h.toWellProjected.withDirectory (some users)).congr rfl rfl rfl rfl rfl rfl) ?_ true
    intro rt hrt
    obtain ⟨before, hbefore, -⟩ := map_eq_some_iff.mp hrt
    exact h.bound before hbefore
  split
  · exact h
  cases hresult : ((s.switchDirectory users).recompile opaqueDoc true).2 with
  | ok effects => exact hswitched
  | error e =>
    -- The error stays with the store, so nothing is said about the runtime.
    refine ⟨hswitched.toWellProjected.withDirectory s.users, hswitched.bound, hswitched.filters, ?_⟩
    intro hok
    change ((s.switchDirectory users).recompile opaqueDoc true).1.compileError = none at hok
    simp [recompile_compileError, hresult] at hok

variable {nodes : List NodeInput}

lemma Current.initializeNodes (h : Current opaqueDoc s) (hids : (nodes.map NodeInput.id).Nodup) :
    Current opaqueDoc (s.initializeNodeInputs opaqueDoc nodes).1 := by
  simp only [initializeNodeInputs, NodeInputs.initializeNodes]
  by_cases hnodes : s.nodeInputs.nodes = none
  · simp only [hnodes]
    exact Current.of_recompile
      (s := { s with nodeInputs := { s.nodeInputs with nodes := some nodes } })
      ⟨h.docUsers, h.noFilterDoc, h.filterDoc, h.tagOwners, hids⟩
      (fun _ _ => some_ne_none nodes) true
  · simp only [hnodes]
    exact h

lemma WellProjected.retainNodes (h : WellProjected s) (hids : (nodes.map NodeInput.id).Nodup) :
    WellProjected (s.retainNodes nodes) :=
  ⟨h.docUsers, h.noFilterDoc, h.filterDoc, h.tagOwners, hids⟩

lemma retainNodes_compiled {rt' : CompiledRuntime}
    (h : (s.retainNodes nodes).compiled = some rt') :
    ∃ rt filters matchers, s.compiled = some rt ∧
      rt' = { rt with filters := filters, matchers := matchers } ∧
      (∀ entry ∈ filters, entry ∈ rt.filters) ∧ ∀ entry ∈ matchers, entry ∈ rt.matchers := by
  obtain ⟨rt, hrt, rfl⟩ := map_eq_some_iff.mp h
  exact ⟨rt, _, _, hrt, rfl, fun entry hentry => (List.mem_filter.mp hentry).1,
    fun entry hentry => (List.mem_filter.mp hentry).1⟩

/-- Nodes that count as unchanged compile in the same filter mode. -/
theorem retainNodes_scratch (h : WellProjected s) (hknown : s.users ≠ none)
    (hsame : SameKnown s.nodeInputs.filterNodes (nodes.map NodeInput.filterNode)) :
    (s.retainNodes nodes).scratch =
      { s.scratch with resolverNodes := nodes.map NodeInput.filterNode } := by
  have hper : (s.filterDoc.any fun doc =>
        hasPerNodeFilters doc (nodes.map NodeInput.filterNode) s.grantApps) =
      s.filterDoc.any fun doc => hasPerNodeFilters doc s.nodeInputs.filterNodes s.grantApps := by
    cases hdoc : s.filterDoc with
    | none => rw [any_none, any_none]
    | some doc =>
      exact (hasPerNodeFilters_eq (h.sameNodes hknown hsame doc hdoc) _).symm
  exact congrArg (fun perNode => { s.scratch with
    resolverNodes := nodes.map NodeInput.filterNode, perNode := perNode }) hper

/-- A replacement that counts as no change leaves the runtime compiled for the new nodes. -/
theorem Current.retainNodes (h : Current opaqueDoc s) (hids : (nodes.map NodeInput.id).Nodup)
    (hsame : s.nodeInputs.changedBy nodes = false) : Current opaqueDoc (s.retainNodes nodes) := by
  have hsameKnown : SameKnown s.nodeInputs.filterNodes (nodes.map NodeInput.filterNode) :=
    fun doc hdoc => sameNodes_of_changedBy hdoc h.distinct hids hsame
  refine ⟨h.toWellProjected.retainNodes hids, fun _ _ => some_ne_none nodes, ?_, ?_⟩
  · intro rt' hrt'
    obtain ⟨rt, filters, matchers, hrt, rfl, -, -⟩ := retainNodes_compiled hrt'
    exact h.filters rt hrt
  · intro hok rt' hrt'
    obtain ⟨rt, filters, matchers, hrt, rfl, -, -⟩ := retainNodes_compiled hrt'
    obtain ⟨compiledNodes, hfor⟩ := h.runtime hok rt hrt
    refine ⟨compiledNodes, hfor.same.trans hsameKnown, ?_, hfor.compiled.withCaches filters matchers,
      hfor.attrs⟩
    intro hknown
    rw [retainNodes_scratch h.toWellProjected hknown hsameKnown, ← hfor.perNode hknown]
    rfl

lemma Current.replaceNodes (h : Current opaqueDoc s) (hids : (nodes.map NodeInput.id).Nodup) :
    Current opaqueDoc (s.tryReplaceNodeInputs opaqueDoc nodes).1 := by
  unfold tryReplaceNodeInputs
  by_cases hchanged : (s.nodeInputs.replace nodes).2 = true
  · rw [if_pos hchanged]
    exact Current.of_recompile (s := s.retainNodes nodes) (h.toWellProjected.retainNodes hids)
      (fun _ _ => some_ne_none nodes) true
  · rw [if_neg hchanged]
    exact h.retainNodes hids (Bool.eq_false_iff.mpr hchanged)

/-! ## Queries -/

lemma Current.withCaches (h : Current opaqueDoc s) {rt : CompiledRuntime}
    (hrt : s.compiled = some rt) (filters : List (Nat × List FilterRule))
    (matchers : List (Nat × List RuleMatcher)) :
    Current opaqueDoc
      { s with compiled := some { rt with filters := filters, matchers := matchers } } := by
  refine ⟨h.toWellProjected.congr rfl rfl rfl rfl rfl rfl, fun _ _ => h.bound rt hrt, ?_, ?_⟩
  · intro rt' hrt'
    cases hrt'
    exact h.filters rt hrt
  · intro hok rt' hrt'
    cases hrt'
    obtain ⟨nodes, hfor⟩ := h.runtime hok rt hrt
    exact ⟨nodes, hfor.same, hfor.perNode, hfor.compiled.withCaches filters matchers, hfor.attrs⟩

/-- A query for a filter caches what it computes and nothing else. -/
theorem filterRulesForNode_cases (s : PolicyState) (node : PacketFilterNode) :
    (s.filterRulesForNode node).2 = s ∨
      ∃ rt filters, s.compiled = some rt ∧
        (s.filterRulesForNode node).2 = { s with compiled := some { rt with filters := filters } } ∧
        ∀ entry ∈ filters, entry ∈ rt.filters ∨ entry = (node.id, rt.freshFilter node) := by
  unfold filterRulesForNode
  split
  · rename_i rt _ hrt
    simp only [CompiledRuntime.filterFor]
    split
    · exact .inr ⟨rt, rt.filters, hrt, rfl, fun _ => .inl⟩
    · exact .inr ⟨rt, _, hrt, rfl, fun entry hentry => (List.mem_cons.mp hentry).symm⟩
  · exact .inl rfl

/-- A query for a route caches the matchers it computes and nothing else. -/
theorem canAccessRouteForPeer_cases (s : PolicyState) (node : PacketFilterNode) (route : String) :
    (s.canAccessRouteForPeer node route).2 = s ∨
      ∃ rt matchers, s.compiled = some rt ∧
        (s.canAccessRouteForPeer node route).2 =
          { s with compiled := some { rt with matchers := matchers } } ∧
        ∀ entry ∈ matchers, entry ∈ rt.matchers ∨ entry = (node.id, rt.freshMatchersFor node) := by
  unfold canAccessRouteForPeer
  split
  · rename_i rt _ hrt
    simp only [CompiledRuntime.canAccessRoute]
    split
    · exact .inr ⟨rt, rt.matchers, hrt, rfl, fun _ => .inl⟩
    · split
      · exact .inr ⟨rt, rt.matchers, hrt, rfl, fun _ => .inl⟩
      · exact .inr ⟨rt, _, hrt, rfl, fun entry hentry => (List.mem_cons.mp hentry).symm⟩
  · exact .inl rfl

/-! ## Every run -/

lemma Current.apply (h : Current opaqueDoc s) {action : StoreAction} (hwf : action.WellFormed) :
    Current opaqueDoc (action.apply readers opaqueDoc s) := by
  cases action with
  | install candidate installation => exact h.install candidate installation
  | setUsers users => exact h.setUsers users
  | initializeNodes nodes => exact h.initializeNodes hwf
  | replaceNodes nodes => exact h.replaceNodes hwf
  | queryFilter id =>
    simp only [StoreAction.apply]
    split
    · rename_i node _
      obtain hself | ⟨rt, filters, hrt, hnew, -⟩ := filterRulesForNode_cases s node.filterNode
      · rwa [hself]
      · rw [hnew]
        exact h.withCaches hrt filters rt.matchers
    · exact h
  | queryRoute id route =>
    simp only [StoreAction.apply]
    split
    · rename_i node _
      obtain hself | ⟨rt, matchers, hrt, hnew, -⟩ :=
        canAccessRouteForPeer_cases s node.filterNode route
      · rwa [hself]
      · rw [hnew]
        exact h.withCaches hrt rt.filters matchers
    · exact h

lemma current_init (users : Option (List PolicyUser)) : Current opaqueDoc { users := users } := by
  refine ⟨⟨by simp, by simp, by simp, by simp, by simp [retained]⟩, ?_, ?_, ?_⟩
  all_goals simp

lemma current_of_reachable {users : Option (List PolicyUser)}
    (h : (policyStore readers opaqueDoc users).Reachable s) : Current opaqueDoc s := by
  refine h.invariant ?_ ?_
  · rintro _ rfl
    exact current_init users
  · rintro s action _ hs ⟨hwf, rfl⟩ -
    exact hs.apply hwf

end Invariant

/-! ## Sequences of operations -/

section Sequences

variable {readers : SourceReaders} {opaqueDoc : OpaqueDocument} {users : Option (List PolicyUser)}

variable (readers opaqueDoc users) in
def runStore (actions : List StoreAction) : PolicyState :=
  actions.foldl (fun s action => action.apply readers opaqueDoc s) { users := users }

lemma reachable_runStore {allowed : PolicyState → StoreAction → PolicyState → Prop}
    {actions : List StoreAction} (hwf : ∀ a ∈ actions, a.WellFormed)
    (hallowed : ∀ a ∈ actions, ∀ s s', allowed s a s') :
    (policyStore readers opaqueDoc users).ReachableBy allowed
      (runStore readers opaqueDoc users actions) := by
  have hfold : ∀ s, (policyStore readers opaqueDoc users).ReachableBy allowed s →
      (policyStore readers opaqueDoc users).ReachableBy allowed
        (actions.foldl (fun s action => action.apply readers opaqueDoc s) s) := by
    induction actions with
    | nil => exact fun s hs => hs
    | cons action rest ih =>
      obtain ⟨hfirst, hrest⟩ := List.forall_mem_cons.mp hwf
      obtain ⟨hfirstAllowed, hrestAllowed⟩ := List.forall_mem_cons.mp hallowed
      exact fun s hs => ih hrest hrestAllowed _ (.step hs ⟨hfirst, rfl⟩ (hfirstAllowed _ _))
  exact hfold _ (.init rfl)

end Sequences

end Headscale.Policy
