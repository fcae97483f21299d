import Headscale.Policy.Runs

/-!
# Coherence of the policy caches

The runtime is compiled from earlier nodes than the retained ones when a replacement counted as no
change, and its caches outlive recompilations that change nothing. In runs where every change of the
users succeeds, whatever the store serves without a compile error is what a runtime compiled from
scratch serves. A failed change of the users breaks this: it leaves the runtime compiled for the
rejected users while the store is back at the old ones, and reinstalling the same policy then clears
the error and keeps what was cached in between.
-/

namespace Headscale.Policy

open GoNetip Collection Machine Option RuleMatcher PolicyState CompiledRuntime

/-! ## The invariant -/

/-- A change of the users, if the action is one, succeeds. -/
def StoreAction.UsersAccepted (opaqueDoc : OpaqueDocument) (s : PolicyState) : StoreAction → Prop
  | .setUsers users => ∃ change, (s.setUsersWithChangeQuiet opaqueDoc users).2 = .ok change
  | _ => True

/-- The cached answers of retained nodes are those the runtime would compute. -/
structure CacheCoherent (rt : CompiledRuntime) (nodes : List NodeInput) : Prop where
  filters : ∀ entry ∈ rt.filters, ∀ node ∈ nodes, node.id = entry.1 →
    SameOffers entry.2 (rt.freshFilter node.filterNode)
  matchers : ∀ entry ∈ rt.matchers, ∀ node ∈ nodes, node.id = entry.1 →
    ∃ rules, entry.2 = fromRules rules ∧
      SameOffers rules (rt.matcherRules node.filterNode)

/-- With a compile error, the attributes do not compile. -/
structure Coherent (opaqueDoc : OpaqueDocument) (s : PolicyState) : Prop extends
    Current opaqueDoc s where
  known : s.users ≠ none
  caches : s.compileError = none → ∀ rt, s.compiled = some rt →
    CacheCoherent rt s.nodeInputs.retained
  failed : s.compileError ≠ none → ∀ rt, s.compiled = some rt →
    ∃ e, attrsOf s.filterDoc s.nodeInputs.filterNodes = .error e

section Invariant

variable {opaqueDoc : OpaqueDocument} {s : PolicyState}

/-- A recompilation makes the store coherent if it clears the caches, or if the caches it may keep
are coherent with every runtime compiled from the same inputs. -/
theorem Coherent.of_recompile (h : WellProjected s) (hknown : s.users ≠ none)
    (hbound : ∀ rt, s.compiled = some rt → s.nodeInputs.nodes ≠ none) {invalidate : Bool}
    (hcaches : invalidate = false → ∀ rt, s.compiled = some rt →
      ∀ attrs, attrsOf s.filterDoc s.nodeInputs.filterNodes = .ok attrs →
      ∀ rt' : CompiledRuntime, rt'.CompiledFrom opaqueDoc s.scratch → rt'.filters = rt.filters →
        rt'.matchers = rt.matchers → CacheCoherent rt' s.nodeInputs.retained) :
    Coherent opaqueDoc (s.recompile opaqueDoc invalidate).1 := by
  have hcurrent : Current opaqueDoc (s.recompile opaqueDoc invalidate).1 :=
    Current.of_recompile h hbound invalidate
  obtain ⟨-, -, hfilterDoc, hretained⟩ := recompile_inputs opaqueDoc s invalidate
  have hoption : ∀ rt, (s.recompile opaqueDoc invalidate).1.compiled = some rt →
      s.nodeInputs.nodes ≠ none := by
    intro rt hrt
    rw [← hretained]
    exact hcurrent.bound rt hrt
  refine ⟨hcurrent, ?_, ?_, ?_⟩
  · obtain ⟨compiled, filters, pendingAttrs, compileError, hframe⟩ :=
      s.recompile_frame opaqueDoc invalidate
    rw [hframe]
    exact hknown
  · intro hok rt' hrt'
    obtain ⟨rt, hrt, -, hfrom, hresult⟩ := s.recompile_bound opaqueDoc invalidate (hoption rt' hrt')
    cases hrt.symm.trans hrt'
    rw [NodeInputs.retained, hretained]
    rw [recompile_compileError] at hok
    cases hattrs : attrsOf s.filterDoc s.nodeInputs.filterNodes with
    | error e =>
      simp only [hattrs] at hresult
      simp [hresult] at hok
    | ok attrs =>
      simp only [hattrs] at hresult
      obtain ⟨-, -, hcleared | ⟨hkeep, hfilters, hmatchers⟩⟩ := hresult
      · exact ⟨by simp [hcleared.1], by simp [hcleared.2]⟩
      cases hold : s.compiled with
      | none =>
        simp only [hold] at hfilters hmatchers
        exact ⟨by simp [hfilters], by simp [hmatchers]⟩
      | some before =>
        simp only [hold] at hfilters hmatchers
        exact hcaches hkeep before hold attrs hattrs _ hfrom hfilters hmatchers
  · intro hfail rt hrt
    obtain ⟨_, _, _, _, hresult⟩ := s.recompile_bound opaqueDoc invalidate (hoption rt hrt)
    rw [hfilterDoc, recompile_filterNodes]
    cases hattrs : attrsOf s.filterDoc s.nodeInputs.filterNodes with
    | error e => exact ⟨e, rfl⟩
    | ok attrs =>
      simp only [hattrs] at hresult
      obtain ⟨⟨effects, heffects⟩, -⟩ := hresult
      exact absurd (by rw [recompile_compileError, heffects]) hfail

/-- The caches of a coherent store stay coherent with a runtime compiled from the retained nodes. -/
theorem Coherent.caches_of_compiledFrom (h : Coherent opaqueDoc s) {rt rt' : CompiledRuntime}
    (hrt : s.compiled = some rt) {attrs : List (Nat × List String)}
    (hattrs : attrsOf s.filterDoc s.nodeInputs.filterNodes = .ok attrs)
    (hrt' : rt'.CompiledFrom opaqueDoc s.scratch) (hfilters : rt'.filters = rt.filters)
    (hmatchers : rt'.matchers = rt.matchers) : CacheCoherent rt' s.nodeInputs.retained := by
  have hok : s.compileError = none := by
    by_contra herror
    obtain ⟨e, he⟩ := h.failed herror rt hrt
    rw [hattrs] at he
    cases he
  obtain ⟨nodes, hruntime⟩ := h.runtime hok rt hrt
  have hcompiled := hruntime.compiled
  rw [hruntime.perNode h.known] at hcompiled
  have hcaches := h.caches hok rt hrt
  have hsame := h.sameNodes h.known hruntime.same
  constructor
  · intro entry hentry node hnode hid
    rw [hfilters] at hentry
    refine (hcaches.filters entry hentry node hnode hid).trans ?_
    exact freshFilter_same hcompiled hsame hrt' (NodeEquiv.refl {} _) fun doc _ =>
      .refl doc _
  · intro entry hentry node hnode hid
    rw [hmatchers] at hentry
    obtain ⟨rules, hrules, hoffers⟩ := hcaches.matchers entry hentry node hnode hid
    refine ⟨rules, hrules, hoffers.trans ?_⟩
    exact matcherRules_same hcompiled hsame hrt' fun doc _ => .refl doc _

/-! ## Operations -/

variable {readers : SourceReaders}

/-- A candidate that invalidates nothing is the policy that is installed. -/
theorem publish_eq_self (h : WellProjected s) (hknown : s.users ≠ none) {candidate : PolicyState.Candidate}
    {installation : Installation} {p : PolicyState.Projected}
    (hp : s.project readers candidate installation = .ok p) (hinv : s.invalidates p = false) :
    s.publish p = s := by
  obtain ⟨hpusers, htags, hfilter⟩ := project_ok hp
  have hnot := of_decide_eq_false hinv
  simp only [not_or, not_not, not_and] at hnot
  obtain ⟨hcontent, hallow, happs, hssh, hrules, hidentity, hshape, husers⟩ := hnot
  have husers := husers (hpusers hknown)
  obtain ⟨doc, hdoc, hcontent⟩ := map_eq_some_iff.mp hcontent
  have hsame : doc = p.doc := by
    have hdocUsers : doc.users = p.doc.users := (h.docUsers doc hdoc).trans husers
    cases doc
    cases hpdoc : p.doc
    simp only [hpdoc, PolicyDoc.mk.injEq, true_and] at hcontent hdocUsers
    simp only [PolicyDoc.mk.injEq]
    exact ⟨hdocUsers, hcontent⟩
  rw [hsame] at hdoc
  obtain ⟨filterDoc, hsfilter, hprojected⟩ := h.filterDoc p.doc hdoc
  rw [hrules, hfilter] at hprojected
  have haliases := h.tagOwners p.doc hdoc
  rw [htags] at haliases
  simp only [publish, ← husers, ← hallow, ← happs, ← hssh, ← hrules, ← hidentity,
    ← hshape, Except.ok.inj haliases, Except.ok.inj hprojected, ← hdoc, ← hsfilter]

lemma Coherent.install (h : Coherent opaqueDoc s) (candidate : PolicyState.Candidate)
    (installation : Installation) :
    Coherent opaqueDoc (s.installAtQuiet readers opaqueDoc candidate installation).1 := by
  obtain ⟨e, hself⟩ | ⟨p, hp, hrest⟩ :=
    s.installAtQuiet_cases readers opaqueDoc candidate installation
  · rwa [hself]
  have hpublished : Coherent opaqueDoc ((s.publish p).recompile opaqueDoc (s.invalidates p)).1 := by
    refine Coherent.of_recompile (h.toWellProjected.publish hp) ((project_ok hp).1 h.known) h.bound ?_
    intro hinv rt hrt attrs hattrs rt' hrt' hfilters hmatchers
    rw [publish_eq_self h.toWellProjected h.known hp hinv] at hrt hattrs hrt' ⊢
    exact h.caches_of_compiledFrom hrt hattrs hrt' hfilters hmatchers
  have hcurrent : Current opaqueDoc
      (s.installAtQuiet readers opaqueDoc candidate installation).1 :=
    h.toCurrent.install candidate installation
  obtain ⟨effects, -, hnew⟩ | ⟨e, -, hnew⟩ := hrest
  · rw [hnew] at hcurrent ⊢
    exact ⟨hcurrent, hpublished.known, hpublished.caches, hpublished.failed⟩
  rw [hnew]
  split
  · exact hpublished
  have hnodes := (recompile_inputs opaqueDoc (s.publish p) (s.invalidates p)).2.2.2
  exact Coherent.of_recompile
    (s := ((s.publish p).recompile opaqueDoc (s.invalidates p)).1.restore s)
    (h.toWellProjected.congr rfl rfl rfl rfl rfl hnodes) h.known hpublished.bound
    (fun hinv => by cases hinv)

lemma Coherent.setUsers (h : Coherent opaqueDoc s) {users : List PolicyUser}
    {change : PolicyState.PolicyUserChange}
    (hok : (s.setUsersWithChangeQuiet opaqueDoc users).2 = .ok change) :
    Coherent opaqueDoc (s.setUsersWithChangeQuiet opaqueDoc users).1 := by
  simp only [setUsersWithChangeQuiet] at hok ⊢
  split at hok
  · rename_i hsame
    rw [if_pos hsame]
    exact h
  rename_i hsame
  rw [if_neg hsame]
  split at hok
  · cases hok
  refine Coherent.of_recompile (s := s.switchDirectory _)
    ((h.toWellProjected.withDirectory (some _)).congr rfl rfl rfl rfl rfl rfl)
    (some_ne_none _) ?_ (fun hinv => by cases hinv)
  intro rt hrt
  obtain ⟨before, hbefore, -⟩ := map_eq_some_iff.mp hrt
  exact h.bound before hbefore

variable {nodes : List NodeInput}

lemma Coherent.initializeNodes (h : Coherent opaqueDoc s)
    (hids : (nodes.map NodeInput.id).Nodup) :
    Coherent opaqueDoc (s.initializeNodeInputs opaqueDoc nodes).1 := by
  simp only [initializeNodeInputs, NodeInputs.initializeNodes]
  by_cases hnodes : s.nodeInputs.nodes = none
  · simp only [hnodes]
    exact Coherent.of_recompile
      (s := { s with nodeInputs := { s.nodeInputs with nodes := some nodes } })
      ⟨h.docUsers, h.noFilterDoc, h.filterDoc, h.tagOwners, hids⟩ h.known
      (fun _ _ => some_ne_none nodes) (fun hinv => by cases hinv)
  · simp only [hnodes]
    exact h

/-- A cached answer belongs to the node that was retained before; the new one is its equivalent. -/
theorem CacheCoherent.retainNodes {rt rt' : CompiledRuntime} {inputs : RuntimeInputs}
    (hrt : rt.CompiledFrom opaqueDoc inputs) (hrt' : rt'.CompiledFrom opaqueDoc inputs)
    (hdocs : ∀ doc, inputs.doc = some doc → doc.users ≠ none) {old nodes : List NodeInput}
    (hknown : SameKnown (old.map NodeInput.filterNode) (nodes.map NodeInput.filterNode))
    (hcaches : CacheCoherent rt old) (hfilters : ∀ entry ∈ rt'.filters, entry ∈ rt.filters)
    (hmatchers : ∀ entry ∈ rt'.matchers, entry ∈ rt.matchers) : CacheCoherent rt' nodes := by
  have hbefore : ∀ node ∈ nodes, ∃ before ∈ old, before.id = node.id ∧
      ∀ doc : PolicyDoc, doc.users ≠ none → NodeEquiv doc before.filterNode node.filterNode := by
    intro node hnode
    obtain ⟨x, hx, hequiv⟩ := (hknown { users := some [] } (by simp)).2 node.filterNode
      (List.mem_map_of_mem hnode)
    obtain ⟨before, hmem, rfl⟩ := List.mem_map.mp hx
    refine ⟨before, hmem, hequiv.id, fun doc hdoc => ?_⟩
    exact ⟨hequiv.id, hequiv.userId, fun hu => hequiv.user (hu.imp (fun hn => absurd hn hdoc) id),
      hequiv.addrs, hequiv.tags, hequiv.routes⟩
  have hsame : ∀ doc, inputs.doc = some doc →
      SameNodes doc inputs.resolverNodes inputs.resolverNodes :=
    fun doc _ => Alike.refl (NodeEquiv.refl doc) _
  constructor
  · intro entry hentry node hnode hid
    obtain ⟨before, hmem, hbid, hequiv⟩ := hbefore node hnode
    refine (hcaches.filters entry (hfilters entry hentry) before hmem (hbid.trans hid)).trans ?_
    exact freshFilter_same hrt hsame hrt' (hequiv { users := some [] } (by simp))
      fun doc hdoc => hequiv doc (hdocs doc hdoc)
  · intro entry hentry node hnode hid
    obtain ⟨before, hmem, hbid, hequiv⟩ := hbefore node hnode
    obtain ⟨rules, hrules, hoffers⟩ := hcaches.matchers entry (hmatchers entry hentry) before hmem
      (hbid.trans hid)
    refine ⟨rules, hrules, hoffers.trans ?_⟩
    exact matcherRules_same hrt hsame hrt' fun doc hdoc => hequiv doc (hdocs doc hdoc)

/-- A replacement that counts as no change keeps the store coherent. -/
theorem Coherent.retainNodes (h : Coherent opaqueDoc s) (hids : (nodes.map NodeInput.id).Nodup)
    (hsame : s.nodeInputs.changedBy nodes = false) : Coherent opaqueDoc (s.retainNodes nodes) := by
  have hknown : SameKnown s.nodeInputs.filterNodes (nodes.map NodeInput.filterNode) :=
    fun doc hdoc => sameNodes_of_changedBy hdoc h.distinct hids hsame
  refine ⟨h.toCurrent.retainNodes hids hsame, h.known, ?_, ?_⟩
  · intro hok rt' hrt'
    obtain ⟨rt, filters, matchers, hrt, rfl, hfilters, hmatchers⟩ := retainNodes_compiled hrt'
    obtain ⟨compiledNodes, hruntime⟩ := h.runtime hok rt hrt
    exact CacheCoherent.retainNodes hruntime.compiled
      (hruntime.compiled.withCaches filters matchers) (fun doc hdoc => h.filterDoc_users hdoc ▸ h.known)
      hknown (h.caches hok rt hrt) hfilters hmatchers
  · intro hfail rt' hrt'
    obtain ⟨rt, filters, matchers, hrt, rfl, -, -⟩ := retainNodes_compiled hrt'
    obtain ⟨e, he⟩ := h.failed hfail rt hrt
    obtain ⟨-, e', -, he'⟩ | ⟨a, b, ha, -, -⟩ := attrsOf_same (h.sameNodes h.known hknown)
    · exact ⟨e', he'⟩
    · rw [he] at ha
      cases ha

lemma Coherent.replaceNodes (h : Coherent opaqueDoc s) (hids : (nodes.map NodeInput.id).Nodup) :
    Coherent opaqueDoc (s.tryReplaceNodeInputs opaqueDoc nodes).1 := by
  unfold tryReplaceNodeInputs
  by_cases hchanged : (s.nodeInputs.replace nodes).2 = true
  · rw [if_pos hchanged]
    exact Coherent.of_recompile (s := s.retainNodes nodes) (h.toWellProjected.retainNodes hids)
      h.known (fun _ _ => some_ne_none nodes) (fun hinv => by cases hinv)
  · rw [if_neg hchanged]
    exact h.retainNodes hids (Bool.eq_false_iff.mpr hchanged)

/-- Caching what the runtime computes for a retained node keeps the store coherent. -/
theorem Coherent.cache (h : Coherent opaqueDoc s) {rt : CompiledRuntime}
    (hrt : s.compiled = some rt) {node : NodeInput} (hnode : node ∈ s.nodeInputs.retained)
    {filters : List (Nat × List FilterRule)} {matchers : List (Nat × List RuleMatcher)}
    (hfilters : ∀ entry ∈ filters, entry ∈ rt.filters ∨
      entry = (node.id, rt.freshFilter node.filterNode))
    (hmatchers : ∀ entry ∈ matchers, entry ∈ rt.matchers ∨
      entry = (node.id, rt.freshMatchersFor node.filterNode)) :
    Coherent opaqueDoc
      { s with compiled := some { rt with filters := filters, matchers := matchers } } := by
  refine ⟨h.toCurrent.withCaches hrt filters matchers, h.known, ?_,
    fun hfail _ _ => h.failed hfail rt hrt⟩
  intro hok rt' hrt'
  cases hrt'
  have hcaches := h.caches hok rt hrt
  have hunique : ∀ other ∈ s.nodeInputs.retained, other.id = node.id → other = node :=
    fun other hother hid => List.inj_on_of_nodup_map h.distinct hother hnode hid
  constructor
  · intro entry hentry other hother hid
    rcases hfilters entry hentry with hold | rfl
    · exact hcaches.filters entry hold other hother hid
    · rw [hunique other hother hid]
      exact .refl _
  · intro entry hentry other hother hid
    rcases hmatchers entry hentry with hold | rfl
    · exact hcaches.matchers entry hold other hother hid
    · rw [hunique other hother hid]
      exact ⟨_, rfl, .refl _⟩

/-! ## Runs -/

/-- Every operation but a failed change of the users keeps the store coherent. -/
theorem Coherent.apply (h : Coherent opaqueDoc s) {action : StoreAction} (hwf : action.WellFormed)
    (hok : action.UsersAccepted opaqueDoc s) :
    Coherent opaqueDoc (action.apply readers opaqueDoc s) := by
  cases action with
  | install candidate installation => exact h.install candidate installation
  | setUsers users =>
    obtain ⟨change, hchange⟩ := hok
    exact h.setUsers hchange
  | initializeNodes nodes => exact h.initializeNodes hwf
  | replaceNodes nodes => exact h.replaceNodes hwf
  | queryFilter id =>
    simp only [StoreAction.apply]
    split
    · rename_i node hnode
      obtain hself | ⟨rt, filters, hrt, hnew, hfilters⟩ :=
        filterRulesForNode_cases s node.filterNode
      · rwa [hself]
      · rw [hnew]
        exact h.cache hrt (nodeById_eq_some hnode).1 hfilters fun _ => .inl
    · exact h
  | queryRoute id route =>
    simp only [StoreAction.apply]
    split
    · rename_i node hnode
      obtain hself | ⟨rt, matchers, hrt, hnew, hmatchers⟩ :=
        canAccessRouteForPeer_cases s node.filterNode route
      · rwa [hself]
      · rw [hnew]
        exact h.cache hrt (nodeById_eq_some hnode).1 (fun _ => .inl) hmatchers
    · exact h

lemma coherent_of_reachable {users : List PolicyUser}
    (h : (policyStore readers opaqueDoc (some users)).ReachableBy
      (fun s action _ => action.UsersAccepted opaqueDoc s) s) : Coherent opaqueDoc s := by
  refine h.invariant ?_ ?_
  · rintro _ rfl
    exact ⟨current_init (some users), by simp, by simp, by simp⟩
  · rintro s action _ hs ⟨hwf, rfl⟩ hok
    exact hs.apply hwf hok

end Invariant

/-! ## Served answers -/

/-- What the runtime of a store without a compile error serves for a retained node is what a runtime
compiled from scratch serves. -/
structure ServesFresh (opaqueDoc : OpaqueDocument) (s : PolicyState) (rt : CompiledRuntime) :
    Prop where
  filter : ∀ node ∈ s.nodeInputs.retained, ∀ packet,
    Accepts (rt.filterFor node.filterNode).1 packet ↔
      Accepts ((freshRuntime opaqueDoc s.scratch).filterFor node.filterNode).1 packet
  route : ∀ node ∈ s.nodeInputs.retained, ∀ route,
    (rt.canAccessRoute node.filterNode route).1 =
      ((freshRuntime opaqueDoc s.scratch).canAccessRoute node.filterNode route).1
  attrs : ∀ id, rt.attrsFor id = (freshRuntime opaqueDoc s.scratch).attrsFor id

section Served

variable {opaqueDoc : OpaqueDocument} {s : PolicyState} {rt : CompiledRuntime}

/-- A coherent cache and a fresh computation serve filters with the same offers. -/
theorem filterFor_same {nodes : List NodeInput} (h : CacheCoherent rt nodes) {node : NodeInput}
    (hnode : node ∈ nodes) :
    SameOffers (rt.filterFor node.filterNode).1 (rt.freshFilter node.filterNode) := by
  unfold filterFor
  split
  · rename_i rules hcached
    exact h.filters _ (mem_of_lookup hcached) node hnode rfl
  · exact .refl _

lemma canAccessRoute_eq {nodes : List NodeInput} (h : CacheCoherent rt nodes)
    (hglobal : rt.globalMatchers = fromRules rt.globalRules) {node : NodeInput}
    (hnode : node ∈ nodes) (route : String) :
    (rt.canAccessRoute node.filterNode route).1 = canAccessRoute
      (fromRules (rt.visibilityRules node.filterNode)) node.filterNode route := by
  unfold CompiledRuntime.canAccessRoute CompiledRuntime.visibilityRules
  cases hper : rt.perNode with
  | false => simp [hglobal]
  | true =>
    simp only [Bool.not_true, Bool.false_eq_true, if_false]
    split
    · rename_i matchers hcached
      obtain ⟨rules, hrules, hoffers⟩ := h.matchers _ (mem_of_lookup hcached) node hnode rfl
      simp only at hrules
      rw [hrules]
      exact canAccessRoute_same hoffers (NodeEquiv.refl {} _) route
    · rfl

lemma Coherent.servesFresh (h : Coherent opaqueDoc s) (hrt : s.compiled = some rt)
    (hok : s.compileError = none) : ServesFresh opaqueDoc s rt := by
  obtain ⟨nodes, hruntime⟩ := h.runtime hok rt hrt
  have hfresh := freshRuntime_compiledFrom opaqueDoc s.scratch
  have hempty : CacheCoherent (freshRuntime opaqueDoc s.scratch) s.nodeInputs.retained := by
    obtain ⟨hfilters, hmatchers⟩ := freshRuntime_caches opaqueDoc s.scratch
    exact ⟨by simp [hfilters], by simp [hmatchers]⟩
  have hsame := h.sameNodes h.known hruntime.same
  have hcompiled := hruntime.compiled
  rw [hruntime.perNode h.known] at hcompiled
  have hcaches := h.caches hok rt hrt
  constructor
  · intro node hnode packet
    have hserved := ((filterFor_same hcaches hnode).trans
      (freshFilter_same hcompiled hsame hfresh (NodeEquiv.refl {} _)
        fun doc _ => .refl doc _)).trans (filterFor_same hempty hnode).symm
    exact hserved.accepts_iff packet
  · intro node hnode route
    rw [canAccessRoute_eq hcaches hcompiled.globalMatchers hnode,
      canAccessRoute_eq hempty hfresh.globalMatchers hnode]
    exact canAccessRoute_same (visibilityRules_same hcompiled hsame hfresh
      fun doc _ => .refl doc _) (NodeEquiv.refl {} _) route
  · intro id
    have hattrs := hruntime.attrs
    have houtcome := recompile_outcome {} opaqueDoc s.scratch true
    have hscratch : attrsOf s.scratch.doc s.scratch.resolverNodes =
        attrsOf s.filterDoc s.nodeInputs.filterNodes := rfl
    rcases attrsOf_same hsame with ⟨e, -, he, -⟩ | ⟨a, b, ha, hb, hab⟩
    · rw [hattrs] at he
      cases he
    · rw [hscratch, hb] at houtcome
      rw [hattrs] at ha
      unfold attrsFor freshRuntime
      rw [houtcome.1, Except.ok.inj ha]
      exact hab id

end Served

/-- Two devices of account 1. -/
def device (id : Nat) (addr : String) : NodeInput :=
  { id := id, ownerId := 1, associationId := some 1, addrs := [addr], legacy := by simp }

/-- Alice's devices may reach each other; bob's get an attribute. -/
def selfAccess : PolicyDoc :=
  { nodeAttrs := [{ target := ["bob@"], attr := ["funnel"] }],
    rules := [{ src := ["alice@"], dst := ["autogroup:self"], ports := ["*/*"] }] }

/-- Account 1 is carol's; in the rejected directory it is alice's and there are two bobs. -/
def acceptedUsers : List PolicyUser :=
  [{ id := 1, name := "carol" }, { id := 2, name := "alice" }, { id := 3, name := "bob" }]

@[inherit_doc acceptedUsers]
def rejectedUsers : List PolicyUser :=
  [{ id := 1, name := "alice" }, { id := 3, name := "bob" }, { id := 4, name := "bob" }]

/-- The directory change fails, the filter of a device is served once, and the policy is installed
again. -/
def staleRun : List StoreAction :=
  [.initializeNodes [device 1 "100.64.0.1", device 2 "100.64.0.2"],
    .install { doc := selfAccess, raw := "" } .replacement,
    .setUsers rejectedUsers, .queryFilter 1,
    .install { doc := selfAccess, raw := "" } .replacement]

/-- The store after the first operations of the run. -/
def staleStore (length : Nat) : PolicyState :=
  runStore noReaders (fun doc _ => doc) (some acceptedUsers) (staleRun.take length)

lemma staleRun_wellFormed : ∀ a ∈ staleRun, a.WellFormed := by
  have hids : ([device 1 "100.64.0.1", device 2 "100.64.0.2"].map NodeInput.id).Nodup := by decide
  simp only [staleRun, List.forall_mem_cons]
  exact ⟨hids, trivial, trivial, trivial, trivial, by simp⟩

end Headscale.Policy
