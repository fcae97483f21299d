import Mathlib.Data.List.Perm.Basic
import Headscale.Lib.JsonValue
import Headscale.Policy.Decisions
import Headscale.Policy.Ssh

/-!
# The canonical form of a document

The hash of a policy is taken over a form in which lists are sorted and durations are respelled. What
this form forgets is irrelevant to what a document decides: documents of one form and one user
directory give the same answers. Lists are asked only whether some entry matches, so their order never
shows, and the rules themselves keep their order.
-/

namespace Headscale.Policy

open List Json

/-! ## Durations -/

/-- The digits of a fraction without the zeros at its end. -/
def trimmedFraction (width : Nat) (fraction : Nat) : List Char :=
  let digits := Text.decimal fraction
  ((List.replicate (width - digits.length) '0' ++ digits).reverse.dropWhile (· = '0')).reverse

/-- `push_decimal_duration_unit`. -/
def decimalDurationUnit (value unit : Nat) (suffix : List Char) (width : Nat) : List Char :=
  let fraction := value % unit
  Text.decimal (value / unit) ++
    (if fraction = 0 then [] else '.' :: trimmedFraction width fraction) ++ suffix

/-- The text of a duration that is not negative. -/
def durationChars (nanos : Nat) : List Char :=
  if nanos < 1000000000 then
    if nanos < 1000 then Text.decimal nanos ++ "ns".toList
    else if nanos < 1000000 then decimalDurationUnit nanos 1000 "µs".toList 3
    else decimalDurationUnit nanos 1000000 "ms".toList 6
  else
    let hours := nanos / 3600000000000
    let minutes := nanos % 3600000000000 / 60000000000
    let seconds := nanos % 60000000000
    (if hours > 0 then Text.decimal hours ++ 'h' :: Text.decimal minutes ++ ['m']
      else if minutes > 0 then Text.decimal minutes ++ ['m'] else []) ++
      decimalDurationUnit seconds 1000000000 ['s'] 9

def formatGoDurationNanos (nanos : Int) : String :=
  if nanos = 0 then "0s"
  else String.ofList ((if nanos < 0 then ['-'] else []) ++ durationChars nanos.natAbs)

def renderSshCheckPeriod (go : GoText) (period : String) : String :=
  if period = "always" then period
  else
    match go.parseNanos period with
    | some nanos => formatGoDurationNanos nanos
    | none => period

/-! ## The canonical value -/

/-- `sort` of a list of texts. -/
def sorted (texts : List String) : List String := texts.insertionSort (· ≤ ·)

/-- `sort_map_of_vecs`, as a JSON object. -/
def sortMapOfVecs (entries : List (String × List String)) : Json :=
  .object (entries.map fun entry => (entry.1, .strings (sorted entry.2)))

namespace PolicyDoc

variable (go : GoText) (doc : PolicyDoc)

/-- Of a capability map the document keeps the texts of the values. -/
def canonicalGrant (grant : GrantRule) : Json :=
  .object [
    ("app", .object (grant.app.map fun entry => (entry.1, .strings entry.2))),
    ("dst", .strings (sorted grant.dst)),
    ("ip", .strings (sorted grant.ip)),
    ("src", .strings (sorted grant.src)),
    ("via", .strings (sorted grant.via))]

/-- The document does not keep the capabilities and the address pool of node attributes. -/
def canonicalNodeAttr (grant : NodeAttrGrant) : Json :=
  .object [("attr", .strings (sorted grant.attr)), ("target", .strings (sorted grant.target))]

def canonicalRule (rule : AclRule) : Json :=
  .object [
    ("action", .string (match rule.action with | .accept => "accept" | .deny => "deny")),
    ("dst", .strings (sorted rule.dst)),
    ("ports", .strings (sorted rule.ports)),
    ("src", .strings (sorted rule.src))]

def canonicalSsh (rule : SshRule) : Json :=
  .object (
    (if rule.acceptEnv = [] then [] else [("acceptEnv", .strings (sorted rule.acceptEnv))]) ++
    [("action", .string rule.action)] ++
    (rule.checkPeriod.map fun period =>
      ("checkPeriod", string (renderSshCheckPeriod go period))).toList ++
    [("dst", .strings (sorted rule.dst)),
      ("src", .strings (sorted rule.src)),
      ("users", .strings (sorted rule.users))])

/-- Tests are serialised as they are. -/
def canonicalTest (test : PolicyTest) : Json :=
  .object [("accept", .strings test.accept), ("deny", .strings test.deny),
    ("proto", .string test.proto), ("src", .string test.src)]

def canonicalSshTest (test : SshPolicyTest) : Json :=
  .object [("accept", .strings test.accept), ("check", .strings test.check),
    ("deny", .strings test.deny), ("dst", .strings test.dst), ("src", .string test.src)]

/-- `canonical_value`. -/
def canonicalValue : Json :=
  .object (
    [("auto_approvers", .object [
        ("exit_node", .strings (sorted doc.autoApprovers.exitNode)),
        ("routes", sortMapOfVecs doc.autoApprovers.routes)]),
      ("grants", .array (doc.grants.map canonicalGrant)),
      ("groups", sortMapOfVecs doc.groups),
      ("hosts", .object (doc.hosts.map fun entry => (entry.1, .string entry.2))),
      ("node_attrs", .array (doc.nodeAttrs.map canonicalNodeAttr))] ++
    (if doc.randomizeClientPort then [("randomize_client_port", .bool true)] else []) ++
    [("rules", .array (doc.rules.map canonicalRule)),
      ("ssh", .array (doc.ssh.map (canonicalSsh go))),
      ("ssh_tests", .array (doc.sshTests.map canonicalSshTest)),
      ("tag_owners", sortMapOfVecs doc.tagOwners),
      ("tags", .object (doc.tags.map fun entry => (entry.1, .string entry.2))),
      ("tests", .array (doc.tests.map canonicalTest)),
      ("version", .number (toString doc.version))])

end PolicyDoc

/-! ## What the form keeps -/

/-- The same keys with the same values up to their order. -/
def SameMap (a b : List (String × List String)) : Prop :=
  List.Forall₂ (fun x y => x.1 = y.1 ∧ x.2.Perm y.2) a b

def SameRule (a b : AclRule) : Prop :=
  a.action = b.action ∧ a.src.Perm b.src ∧ a.dst.Perm b.dst ∧ a.ports.Perm b.ports

def SameGrant (a b : GrantRule) : Prop :=
  a.src.Perm b.src ∧ a.dst.Perm b.dst ∧ a.ip.Perm b.ip ∧ a.via.Perm b.via

/-- Documents that agree, up to the order inside lists, on all that is asked of them below. -/
structure SameUpToOrder (a b : PolicyDoc) : Prop where
  users : a.users = b.users
  groups : SameMap a.groups b.groups
  tagOwners : SameMap a.tagOwners b.tagOwners
  hosts : a.hosts = b.hosts
  routes : SameMap a.autoApprovers.routes b.autoApprovers.routes
  exitNode : a.autoApprovers.exitNode.Perm b.autoApprovers.exitNode
  grants : List.Forall₂ SameGrant a.grants b.grants
  rules : List.Forall₂ SameRule a.rules b.rules

lemma perm_of_sorted {a b : List String} (h : strings (sorted a) = .strings (sorted b)) :
    a.Perm b := by
  have hsort : ∀ texts, (sorted texts).Perm texts := perm_insertionSort _
  have hsorted : (sorted a).Perm b := strings_injective h ▸ hsort b
  exact (hsort a).symm.trans hsorted

variable {α : Type}

lemma forall₂_of_map_eq {β : Type} {f : α → β} {a b : List α} (h : a.map f = b.map f) :
    List.Forall₂ (fun x y => f x = f y) a b := by
  have heq : List.Forall₂ Eq (a.map f) (b.map f) := by
    rw [forall₂_eq_eq_eq]
    exact h
  exact forall₂_map_right_iff.mp (forall₂_map_left_iff.mp heq)

lemma sameMap_of_eq {a b : List (String × List String)} (h : sortMapOfVecs a = sortMapOfVecs b) :
    SameMap a b :=
  (forall₂_of_map_eq (object.inj h)).imp fun _ _ hentry =>
    ⟨(Prod.mk.inj hentry).1, perm_of_sorted (Prod.mk.inj hentry).2⟩

open PolicyDoc

lemma sameRule_of_eq {a b : AclRule}
    (h : canonicalRule a = canonicalRule b) : SameRule a b := by
  simp only [canonicalRule, object.injEq, List.cons.injEq, Prod.mk.injEq, true_and, and_true] at h
  obtain ⟨haction, hdst, hports, hsrc⟩ := h
  refine ⟨?_, perm_of_sorted hsrc, perm_of_sorted hdst, perm_of_sorted hports⟩
  cases ha : a.action <;> cases hb : b.action <;> simp [ha, hb] at haction ⊢

lemma sameGrant_of_eq {a b : GrantRule}
    (h : canonicalGrant a = canonicalGrant b) : SameGrant a b := by
  simp only [canonicalGrant, object.injEq, List.cons.injEq, Prod.mk.injEq, true_and, and_true] at h
  obtain ⟨-, hdst, hip, hsrc, hvia⟩ := h
  exact ⟨perm_of_sorted hsrc, perm_of_sorted hdst, perm_of_sorted hip, perm_of_sorted hvia⟩

lemma sameUpToOrder_of_canonicalValue {go : GoText} {a b : PolicyDoc} (husers : a.users = b.users)
    (h : a.canonicalValue go = b.canonicalValue go) : SameUpToOrder a b := by
  have hport : a.randomizeClientPort = b.randomizeClientPort := by
    cases ha : a.randomizeClientPort <;> cases hb : b.randomizeClientPort <;>
      simp [canonicalValue, ha, hb] at h ⊢
  simp only [canonicalValue, hport, object.injEq, append_right_inj, cons_append, List.cons.injEq,
    Prod.mk.injEq, true_and, array.injEq, and_true] at h
  obtain ⟨⟨hexit, hroutes⟩, hgrants, hgroups, hhosts, -, hrules, -, -, htags, -, -, -⟩ := h
  refine ⟨husers, sameMap_of_eq hgroups, sameMap_of_eq htags, ?_, sameMap_of_eq hroutes,
    perm_of_sorted hexit, (forall₂_of_map_eq hgrants).imp fun _ _ => sameGrant_of_eq,
    (forall₂_of_map_eq hrules).imp fun _ _ => sameRule_of_eq⟩
  refine map_injective_iff.mpr ?_ hhosts
  rintro ⟨key, host⟩ ⟨key', host'⟩ hentry
  simpa using hentry

/-! ## What it forgets is not asked -/

lemma SameMap.lookup {a b : List (String × List String)} (h : SameMap a b) (key : String) :
    Option.Rel List.Perm (a.lookup key) (b.lookup key) := by
  induction h with
  | nil => exact .none
  | @cons x y rest rest' hxy _ ih =>
    obtain ⟨name, value⟩ := x
    obtain ⟨name', value'⟩ := y
    obtain ⟨rfl, hvalue⟩ : name = name' ∧ value.Perm value' := hxy
    by_cases hkey : key = name
    · simpa [hkey] using Option.Rel.some hvalue
    · simpa [lookup_cons, beq_eq_false_iff_ne.mpr hkey] using ih

/-- Lists are only searched for an entry. -/
theorem any_eq_of_perm {a b : List String} (h : a.Perm b) {p q : String → Bool}
    (hpq : ∀ x, p x = q x) : a.any p = b.any q := by
  rw [funext hpq]
  exact h.any_eq

variable {R : α → α → Prop} {p q : α → Bool}

/-- The first rule that matches is at the same place. -/
theorem find?_rel {a b : List α} (h : List.Forall₂ R a b) (hpq : ∀ x y, R x y → p x = q y) :
    Option.Rel R (a.find? p) (b.find? q) := by
  induction h with
  | nil => exact .none
  | @cons x y rest rest' hxy _ ih =>
    rw [find?_cons, find?_cons, hpq x y hxy]
    cases q y with
    | true => exact .some hxy
    | false => exact ih

lemma any_eq_of_forall₂ {a b : List α} (h : List.Forall₂ R a b) (hpq : ∀ x y, R x y → p x = q y) :
    a.any p = b.any q := by
  induction h with
  | nil => rfl
  | @cons x y rest rest' hxy _ ih => rw [any_cons, any_cons, hpq x y hxy, ih]

lemma option_or_rel {a a' b b' : Option (List String)} (h : Option.Rel List.Perm a b)
    (h' : Option.Rel List.Perm a' b') : Option.Rel List.Perm (a.or a') (b.or b') := by
  cases h with
  | some hperm => exact .some hperm
  | none => exact h'

lemma option_any_rel {a b : Option (List String)} (h : Option.Rel List.Perm a b)
    {p q : List String → Bool} (hpq : ∀ x y, a = some x → x.Perm y → p x = q y) :
    a.any p = b.any q := by
  cases h with
  | some hperm => exact hpq _ _ rfl hperm
  | none => rfl

lemma getD_perm {a b : Option (List String)} (h : Option.Rel List.Perm a b) :
    (a.getD []).Perm (b.getD []) := by
  cases h with
  | some hperm => exact hperm
  | none => exact .refl _

namespace SameUpToOrder

variable {a b : PolicyDoc} (h : SameUpToOrder a b) (grammar : AddressGrammar)

include h

lemma resolveUserValue : a.resolveUserValue = b.resolveUserValue := by
  funext token
  simp only [PolicyDoc.resolveUserValue, h.users]

lemma userMatches : a.userMatches = b.userMatches := by
  funext token userId login
  simp only [PolicyDoc.userMatches, PolicyDoc.resolveUser, h.users, h.resolveUserValue]
  rfl

lemma identityMatches : a.identityMatches = b.identityMatches := by
  funext entry principal
  simp only [PolicyDoc.identityMatches, h.userMatches]

variable (src : NodeView) (visiting : List String) (group : String)

lemma groupMembers :
    Option.Rel List.Perm (a.groupMembers group) (b.groupMembers group) := by
  unfold PolicyDoc.groupMembers
  split
  · exact option_or_rel (h.groups.lookup _) (h.groups.lookup _)
  · exact h.groups.lookup _

/-- The walks through the groups are the same up to the order of the members at each step. -/
theorem groupPrincipalMatches (principal : NodeView) (visiting : List String) (group : String) :
    a.groupPrincipalMatches principal visiting group =
      b.groupPrincipalMatches principal visiting group := by
  induction hleft : ((groupTokens a).filter (· ∉ visiting)).length using Nat.strong_induction_on
    generalizing visiting group with
  | _ left ih =>
    subst hleft
    rw [a.groupPrincipalMatches_eq, b.groupPrincipalMatches_eq]
    by_cases hvisiting : canonicalGroupRef group ∈ visiting
    · rw [if_pos hvisiting, if_pos hvisiting]
    rw [if_neg hvisiting, if_neg hvisiting]
    refine option_any_rel (h.groupMembers group) fun members members' hmembers hperm =>
      any_eq_of_perm hperm fun member => ?_
    rw [h.identityMatches, ih _ (unvisited_lt (canonicalGroupRef_mem hmembers) hvisiting)
      _ member rfl]

lemma expandGroupMembers :
    (a.expandGroupMembers visiting group).Perm (b.expandGroupMembers visiting group) := by
  induction hleft : ((groupTokens a).filter (· ∉ visiting)).length using Nat.strong_induction_on
    generalizing visiting group with
  | _ left ih =>
    subst hleft
    rw [a.expandGroupMembers_eq, b.expandGroupMembers_eq]
    by_cases hvisiting : canonicalGroupRef group ∈ visiting
    · rw [if_pos hvisiting, if_pos hvisiting]
    rw [if_neg hvisiting, if_neg hvisiting]
    have hperm := getD_perm (h.groupMembers group)
    refine hperm.flatMap fun member hmember => ?_
    cases ha : a.groupMembers group with
    | none => simp [ha] at hmember
    | some members =>
      split
      · exact ih _ (unvisited_lt (PolicyDoc.canonicalGroupRef_mem ha) hvisiting) _ member rfl
      · exact .refl _

/-! ### Principals and routes -/

lemma autogroupPrincipal : a.autogroupPrincipal grammar = b.autogroupPrincipal grammar := by
  funext ag principal peer
  simp only [PolicyDoc.autogroupPrincipal, PolicyDoc.memberMatches, h.users, h.resolveUserValue]

lemma principalMatchesOne : a.principalMatchesOne grammar = b.principalMatchesOne grammar := by
  funext entry principal peer
  simp only [PolicyDoc.principalMatchesOne, h.identityMatches, h.hosts, h.groupPrincipalMatches,
    h.autogroupPrincipal]

lemma principalMatches {entries entries' : List String} (hentries : entries.Perm entries')
    (principal : NodeView) (peer : Option NodeView) :
    a.principalMatches grammar entries principal peer =
      b.principalMatches grammar entries' principal peer := by
  unfold PolicyDoc.principalMatches
  rw [h.principalMatchesOne]
  exact hentries.any_eq

lemma expandPrincipal (token : String) : (a.expandPrincipal token).Perm (b.expandPrincipal token) := by
  unfold PolicyDoc.expandPrincipal
  rw [h.hosts]
  split
  · exact .refl _
  split
  · exact .refl _
  split
  · exact .refl _
  · split
    · exact h.expandGroupMembers _ _
    · exact .refl _

lemma principalsOverlapRoutes {principals principals' : List String}
    (hprincipals : principals.Perm principals') (routes : List String) :
    a.principalsOverlapRoutes grammar principals routes =
      b.principalsOverlapRoutes grammar principals' routes := by
  refine congrArg routes.any (funext fun route => ?_)
  cases grammar.parseCidr route with
  | none => rfl
  | some route => exact any_eq_of_perm hprincipals fun principal => (h.expandPrincipal principal).any_eq

lemma routeDestinationsOverlap {destinations destinations' : List String}
    (hdestinations : destinations.Perm destinations') (route : String) :
    a.routeDestinationsOverlap grammar destinations route =
      b.routeDestinationsOverlap grammar destinations' route := by
  have hexpand : a.expandRouteDestination grammar = b.expandRouteDestination grammar := by
    funext destination
    simp only [PolicyDoc.expandRouteDestination, h.hosts]
  unfold PolicyDoc.routeDestinationsOverlap
  cases grammar.parseCidr route with
  | none => rfl
  | some route =>
    simp only
    split
    · exact hdestinations.any_eq
    · exact any_eq_of_perm hdestinations fun dst => by rw [hexpand]

/-! ### Rules and grants -/

omit h in
lemma rulePortMatches {rule rule' : AclRule} (hrule : SameRule rule rule') (port : PortRef) :
    rulePortMatches rule port = Policy.rulePortMatches rule' port := by
  obtain ⟨-, -, -, hports⟩ := hrule
  simp only [Policy.rulePortMatches, hports.isEmpty_eq, hports.any_eq]

omit h in
lemma grantPortMatches {grant grant' : GrantRule} (hgrant : SameGrant grant grant') (port : PortRef) :
    grantPortMatches grant port = Policy.grantPortMatches grant' port := by
  obtain ⟨-, -, hip, -⟩ := hgrant
  simp only [Policy.grantPortMatches, hip.isEmpty_eq, hip.any_eq]

lemma evaluateWith (dst : NodeView) (port : PortRef) :
    a.evaluateWith grammar src dst port = b.evaluateWith grammar src dst port := by
  have hfind := find?_rel h.rules (p := fun rule => a.ruleMatches grammar rule src dst port)
    (q := fun rule => b.ruleMatches grammar rule src dst port) fun rule rule' hrule => by
      simp only [ruleMatches, h.principalMatches grammar hrule.2.1,
        h.principalMatches grammar hrule.2.2.1, rulePortMatches hrule]
  unfold PolicyDoc.evaluateWith
  generalize a.rules.find? _ = left at hfind ⊢
  generalize b.rules.find? _ = right at hfind ⊢
  cases hfind with
  | none => rfl
  | some hrule => exact hrule.1

lemma grantMatchesNodeOrRoute {grant grant' : GrantRule} (hgrant : SameGrant grant grant')
    (src : NodeView) (srcRoutes : List String) (dst : NodeView) (dstRoutes : List String)
    (port : PortRef) :
    a.grantMatchesNodeOrRoute grammar grant src srcRoutes dst dstRoutes port =
      b.grantMatchesNodeOrRoute grammar grant' src srcRoutes dst dstRoutes port := by
  obtain ⟨hsrc, hdst, -, hvia⟩ := id hgrant
  simp only [PolicyDoc.grantMatchesNodeOrRoute, grantPortMatches hgrant,
    h.principalMatches grammar hsrc, h.principalsOverlapRoutes grammar hsrc,
    h.principalMatches grammar hdst, h.principalsOverlapRoutes grammar hdst, hvia.isEmpty_eq,
    hvia.any_eq, h.routeDestinationsOverlap grammar hdst]

lemma canAccessNode (srcRoutes : List String) (dst : NodeView) (dstRoutes : List String)
    (port : PortRef) :
    a.canAccessNode grammar src srcRoutes dst dstRoutes port =
      b.canAccessNode grammar src srcRoutes dst dstRoutes port := by
  have hfind := find?_rel h.rules
    (p := fun rule => a.matchesNodeOrRoute grammar rule src srcRoutes dst dstRoutes port)
    (q := fun rule => b.matchesNodeOrRoute grammar rule src srcRoutes dst dstRoutes port)
    fun rule rule' hrule => by
      obtain ⟨-, hsrc, hdst, -⟩ := id hrule
      simp only [matchesNodeOrRoute, h.principalMatches grammar hsrc,
        h.principalsOverlapRoutes grammar hsrc, h.principalMatches grammar hdst,
        h.principalsOverlapRoutes grammar hdst, rulePortMatches hrule]
  unfold PolicyDoc.canAccessNode
  generalize a.rules.find? _ = left at hfind ⊢
  generalize b.rules.find? _ = right at hfind ⊢
  cases hfind with
  | none =>
    exact any_eq_of_forall₂ h.grants fun grant grant' hgrant =>
      h.grantMatchesNodeOrRoute grammar hgrant src srcRoutes dst dstRoutes port
  | some hrule =>
    simp only [hrule.1]

/-! ### Tags and approvals -/

lemma userMatchesTagOwner : a.userMatchesTagOwner = b.userMatchesTagOwner := by
  funext userId user owner
  unfold PolicyDoc.userMatchesTagOwner
  rw [h.userMatches]
  split
  · rfl
  split
  · rfl
  split
  · exact option_any_rel (option_or_rel (h.groups.lookup _) (h.groups.lookup _))
      fun members members' _ hperm => hperm.any_eq
  · rfl

variable (node : NodeView)

lemma tagOwnerMatches (owner : String) :
    a.tagOwnerMatches node visiting owner = b.tagOwnerMatches node visiting owner := by
  induction hleft : (a.tagNames.filter (· ∉ visiting)).length using Nat.strong_induction_on
    generalizing visiting owner with
  | _ left ih =>
    subst hleft
    rw [a.tagOwnerMatches_eq, b.tagOwnerMatches_eq, h.userMatchesTagOwner]
    split
    · rfl
    cases hstrip : Text.stripStartStr "tag:" owner with
    | none => rfl
    | some tag =>
      simp only
      by_cases hvisiting : "tag:" ++ tag ∈ visiting
      · rw [if_pos hvisiting, if_pos hvisiting]
      rw [if_neg hvisiting, if_neg hvisiting]
      refine option_any_rel (h.tagOwners.lookup _) fun owners owners' howners hperm =>
        any_eq_of_perm hperm fun owner => ?_
      have hname : "tag:" ++ tag ∈ a.tagNames :=
        mem_map.mpr ⟨_, Collection.mem_of_lookup howners, rfl⟩
      exact ih _ (unvisited_lt hname hvisiting) _ owner rfl

lemma nodeCanHaveTagWithNodes (tag : String) (nodes : List NodeView) :
    a.nodeCanHaveTagWithNodes grammar node tag nodes =
      b.nodeCanHaveTagWithNodes grammar node tag nodes := by
  have howners := h.tagOwners.lookup tag
  unfold PolicyDoc.nodeCanHaveTagWithNodes PolicyDoc.userCanHaveTag
  generalize a.tagOwners.lookup tag = left at howners ⊢
  generalize b.tagOwners.lookup tag = right at howners ⊢
  cases howners with
  | none => rfl
  | some hperm => simp only [h.tagOwnerMatches, h.userMatchesTagOwner, hperm.any_eq]

lemma autoApproverMatches : a.autoApproverMatches grammar = b.autoApproverMatches grammar := by
  funext token node
  simp only [PolicyDoc.autoApproverMatches, h.identityMatches, h.principalMatchesOne]

lemma autoApprovesRoute (route : String) :
    a.autoApprovesRoute grammar node route = b.autoApprovesRoute grammar node route := by
  unfold PolicyDoc.autoApprovesRoute
  rw [h.autoApproverMatches]
  cases grammar.parseCidr route with
  | none => rfl
  | some advertised =>
    simp only
    split
    · rfl
    · refine any_eq_of_forall₂ h.routes fun x y hxy => ?_
      simp only [hxy.1, hxy.2.any_eq]

lemma autoApprovesExitNode :
    a.autoApprovesExitNode grammar node = b.autoApprovesExitNode grammar node := by
  simp only [PolicyDoc.autoApprovesExitNode, h.autoApproverMatches, h.exitNode.isEmpty_eq,
    h.exitNode.any_eq]

end SameUpToOrder

/-- Documents with one canonical value and one user directory decide alike. -/
theorem canonicalValue_determines_decisions (go : GoText) (grammar : AddressGrammar)
    (a b : PolicyDoc) (husers : a.users = b.users) (h : a.canonicalValue go = b.canonicalValue go) :
    (∀ src dst port, a.evaluateWith grammar src dst port = b.evaluateWith grammar src dst port) ∧
    (∀ src srcRoutes dst dstRoutes port, a.canAccessNode grammar src srcRoutes dst dstRoutes port =
      b.canAccessNode grammar src srcRoutes dst dstRoutes port) ∧
    (∀ node route, a.autoApprovesRoute grammar node route = b.autoApprovesRoute grammar node route) ∧
    (∀ node, a.autoApprovesExitNode grammar node = b.autoApprovesExitNode grammar node) ∧
    ∀ node tag nodes, a.nodeCanHaveTagWithNodes grammar node tag nodes =
      b.nodeCanHaveTagWithNodes grammar node tag nodes := by
  have hsame := sameUpToOrder_of_canonicalValue husers h
  exact ⟨hsame.evaluateWith grammar, hsame.canAccessNode grammar, hsame.autoApprovesRoute grammar,
    hsame.autoApprovesExitNode grammar, hsame.nodeCanHaveTagWithNodes grammar⟩

/-- A duration reader that knows the two spellings of an hour below. -/
def hourReader : GoText where
  equalFold a b := a = b
  parseNanos period := if period = "1h" ∨ period = "60m" then some 3600000000000 else none

def plainDoc : PolicyDoc :=
  { groups := [("eng", ["ada@", "bob@"])]
    rules := [{ src := ["group:eng", "tag:web"], dst := ["*"] }]
    ssh := [{ action := "check", checkPeriod := some "1h" }] }

/-- The lists of `plainDoc` in another order, and its hour in minutes. -/
def respelledDoc : PolicyDoc :=
  { groups := [("eng", ["bob@", "ada@"])]
    rules := [{ src := ["tag:web", "group:eng"], dst := ["*"] }]
    ssh := [{ action := "check", checkPeriod := some "60m" }] }

/-- Addresses and prefixes as Go reads them, without zones. -/
def goGrammar : AddressGrammar where
  parseIpNet := parsePrefixNet
  parseIpAddr text :=
    match GoNetip.parseAddr text with
    | .ok (ip, none) => some ip
    | _ => none

theorem respelled_doc_decides_alike :
    plainDoc ≠ respelledDoc ∧
      plainDoc.evaluateWith goGrammar { user := some "ada" } { addr := some "100.64.0.7" } ⟨none, none⟩ =
        respelledDoc.evaluateWith goGrammar { user := some "ada" } { addr := some "100.64.0.7" }
          ⟨none, none⟩ := by
  have hform : plainDoc.canonicalValue hourReader = respelledDoc.canonicalValue hourReader := by
    have hgroup : sorted ["ada@", "bob@"] = sorted ["bob@", "ada@"] := by decide +kernel
    have hsrc : sorted ["group:eng", "tag:web"] = sorted ["tag:web", "group:eng"] := by
      decide +kernel
    have hperiod : renderSshCheckPeriod hourReader "1h" = renderSshCheckPeriod hourReader "60m" := by
      decide +kernel
    simp [canonicalValue, plainDoc, respelledDoc, sortMapOfVecs, canonicalRule,
      canonicalSsh, hgroup, hsrc, hperiod]
  exact ⟨by decide,
    (canonicalValue_determines_decisions hourReader goGrammar plainDoc respelledDoc rfl hform).1 _ _ _⟩

end Headscale.Policy
