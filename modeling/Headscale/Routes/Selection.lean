import Headscale.Policy.Store
import Headscale.Policy.Via
import Headscale.Routes.Primary

/-!
# The routes of a peer in a network map

What a viewer may reach through a peer: the routes the peer is the global primary of and its exit
routes, as far as the policy lets the viewer use them; changed by the grants with `via` tags; and, for
a viewer that serves subnet routes itself, the shared routes of their primaries once more.

A subnet route comes with one peer only, unless the viewer serves it too: the last step gives a shared
route back to its primary, also after a grant has steered the viewer to another router. Apart from it
the routes of different peers do not overlap, provided that primaries serve their routes and that the
nodes of the map stand for election.
-/

namespace Headscale.Routes

open Policy Std List

/-! ## Routes of records -/

/-- The approved routes among the announced ones, as announced. -/
def activeApprovedRoutes (available approved : List String) : List String :=
  let approved := approved.filterMap fun route => (parsePrefixText route).toOption
  (available.filterMap fun route => (parsePrefixText route).toOption).filter (· ∈ approved)

def isExitRouteStr (route : String) : Bool := (parsePrefixText route).toOption.any isExitRoute

def activeExitRoutes (available approved : List String) : List String :=
  (activeApprovedRoutes available approved).filter isExitRouteStr

/-- What a network map reads of a machine record for its routes: the stable id, the identity and the
addresses that policies see, the tags and the routes. -/
structure MapRecord where
  id : Nat
  userId : Option Nat := none
  user : Option String := none
  addrs : List String := []
  tags : List String := []
  availableRoutes : List String := []
  approvedRoutes : List String := []
deriving DecidableEq, Repr

namespace MapRecord

def servedRoutes (record : MapRecord) : List String :=
  activeApprovedRoutes record.availableRoutes record.approvedRoutes

def exitRoutes (record : MapRecord) : List String :=
  activeExitRoutes record.availableRoutes record.approvedRoutes

/-- The record as a policy node, with the routes it serves. -/
def policyNode (record : MapRecord) : PacketFilterNode :=
  { id := record.id
    userId := record.userId
    user := record.user
    addrs := record.addrs
    tags := record.tags
    routes := record.servedRoutes }

end MapRecord

/-- The records by node key. -/
abbrev MachineSnapshot := List (String × MapRecord)

def peerMapNodes (snapshot : MachineSnapshot) : List PacketFilterNode :=
  snapshot.map fun entry => entry.2.policyNode

def servedRoutesOf (snapshot : MachineSnapshot) (key : String) : List String :=
  ((snapshot.lookup key).map MapRecord.servedRoutes).getD []

def exitRoutesOf (snapshot : MachineSnapshot) (key : String) : List String :=
  ((snapshot.lookup key).map MapRecord.exitRoutes).getD []

/-! ## What the policy says -/

/-- The answer of the document itself, used as long as no policy runtime is compiled. -/
abbrev DocumentAccess := PolicyDoc → PacketFilterNode → PacketFilterNode → String → Bool

section Policy

variable (access : DocumentAccess) (policy : PolicyState) (nodes : List PacketFilterNode)
variable (viewerId peerId : Nat)

/-- Absent without a policy; a node that is not known may use nothing. -/
def canAccessRouteForPeerWithUserIds (route : String) : Option Bool :=
  policy.doc.map fun doc =>
    match nodes.find? (·.id = viewerId), nodes.find? (·.id = peerId) with
    | some viewer, some peer =>
      match policy.compiled with
      | some runtime => (runtime.canAccessRoute viewer route).1
      | none => access doc viewer peer route
    | _, _ => false

/-- The elections are held among the nodes that the policy retains, or else among those of the map. -/
def electors : List PacketFilterNode :=
  if policy.nodeInputs.nodes.isSome then policy.nodeInputs.filterNodes else nodes

def viaRoutesForPeerWithUserIds : Option ViaRouteGrantResult := do
  let doc ← policy.doc
  let viewer ← nodes.find? (·.id = viewerId)
  let peer ← nodes.find? (·.id = peerId)
  return routesForPeer doc policy.sourceAclRules (electors policy nodes) viewer peer

end Policy

/-! ## Selection -/

/-- An included route is added, unless it goes by the global primary and the peer is not that. -/
def includeRoute (globalPrimary usePrimary allowed : List String) (route : String) : List String :=
  if route ∈ allowed then allowed
  else if route ∈ globalPrimary ∨ route ∉ usePrimary then allowed ++ [route]
  else allowed

def applyVia (globalPrimary allowed : List String) : Option ViaRouteGrantResult → List String
  | none => allowed
  | some via =>
    via.included.foldl (includeRoute globalPrimary via.usePrimary)
      (allowed.filter fun route => route ∉ via.excluded)

/-- A snapshot, the primary routes by node key, and the id of a key that is not in the snapshot. -/
structure MapView where
  snapshot : MachineSnapshot
  primaryRoutes : String → List String
  stableIdFromKey : String → Nat

namespace MapView

variable (view : MapView) (access : DocumentAccess) (policy : PolicyState)

def nodeIdForKey (key : String) : Nat :=
  ((view.snapshot.lookup key).map MapRecord.id).getD (view.stableIdFromKey key)

/-- The routes for `PrimaryRoutes` and for `AllowedIPs`. -/
def selectRoutesForViewer (selfKey peerKey : String) : List String × List String :=
  let globalPrimary := view.primaryRoutes peerKey
  let allowed := globalPrimary ++ exitRoutesOf view.snapshot peerKey
  let nodes := peerMapNodes view.snapshot
  let viewerId := view.nodeIdForKey selfKey
  let peerId := view.nodeIdForKey peerKey
  let allowed := allowed.filter fun route =>
    (canAccessRouteForPeerWithUserIds access policy nodes viewerId peerId route).getD true
  let allowed := applyVia globalPrimary allowed
    (viaRoutesForPeerWithUserIds policy nodes viewerId peerId)
  let viewerSubnetRoutes := (servedRoutesOf view.snapshot selfKey).filter fun route =>
    !isExitRoute route
  let allowed := (globalPrimary.filter (· ∈ viewerSubnetRoutes)).foldl Collection.pushUnique allowed
  (allowed.filter fun route => !isExitRoute route, allowed)

/-- The peer comes with the route in the map of the viewer. -/
def Carries (selfKey peerKey route : String) : Prop :=
  route ∈ (view.selectRoutesForViewer access policy selfKey peerKey).1 ∨
    route ∈ (view.selectRoutesForViewer access policy selfKey peerKey).2

end MapView

/-! ## Where a route comes from -/

lemma mem_foldl_includeRoute (globalPrimary usePrimary included allowed : List String)
    (route : String) :
    route ∈ included.foldl (includeRoute globalPrimary usePrimary) allowed ↔
      route ∈ allowed ∨ route ∈ included ∧ (route ∈ globalPrimary ∨ route ∉ usePrimary) := by
  induction included generalizing allowed with
  | nil => simp
  | cons first rest ih =>
    have hfirst : route ∈ includeRoute globalPrimary usePrimary allowed first ↔
        route ∈ allowed ∨ route = first ∧ (route ∈ globalPrimary ∨ route ∉ usePrimary) := by
      unfold includeRoute
      split
      · rename_i hmem
        exact ⟨.inl, fun h => h.elim (fun h => h) fun h => h.1 ▸ hmem⟩
      split
      · rename_i hadded
        rw [mem_append, mem_singleton]
        exact or_congr_right ⟨fun heq => ⟨heq, heq ▸ hadded⟩, And.left⟩
      · rename_i hleft
        exact ⟨.inl, fun h => h.elim (fun h => h) fun h => absurd (h.1 ▸ h.2) hleft⟩
    rw [foldl_cons, ih, hfirst, mem_cons]
    tauto

/-- Announced exit routes are exit routes in canonical form. -/
theorem isExitRoute_of_mem_activeExitRoutes {available approved : List String} {route : String}
    (h : route ∈ activeExitRoutes available approved) : isExitRoute route = true := by
  obtain ⟨hactive, hexit⟩ := mem_filter.mp h
  obtain ⟨text, -, hparsed⟩ := mem_filterMap.mp (mem_of_mem_filter hactive)
  have hcanonical : parsePrefixText route = .ok route := by
    cases hparse : parsePrefixText text with
    | error error =>
      rw [hparse] at hparsed
      cases hparsed
    | ok printed =>
      rw [hparse] at hparsed
      cases hparsed
      exact canonical_of_parse hparse
  unfold isExitRouteStr at hexit
  rwa [hcanonical] at hexit

lemma isExitRoute_of_mem_exitRoutesOf {snapshot : MachineSnapshot} {key route : String}
    (h : route ∈ exitRoutesOf snapshot key) : isExitRoute route = true := by
  unfold exitRoutesOf at h
  cases hlookup : snapshot.lookup key with
  | none =>
    rw [hlookup] at h
    cases h
  | some record =>
    rw [hlookup] at h
    exact isExitRoute_of_mem_activeExitRoutes h

namespace MapView

variable {view : MapView} {access : DocumentAccess} {policy : PolicyState}
variable {selfKey peerKey route : String}

/-- What the grants with tags say of a peer. -/
def via (view : MapView) (policy : PolicyState) (selfKey peerKey : String) :
    Option ViaRouteGrantResult :=
  viaRoutesForPeerWithUserIds policy (peerMapNodes view.snapshot) (view.nodeIdForKey selfKey)
    (view.nodeIdForKey peerKey)

/-- A peer comes with a subnet route as its primary or through a grant with tags. -/
theorem Carries.cases (hexit : isExitRoute route = false)
    (h : view.Carries access policy selfKey peerKey route) :
    (route ∈ view.primaryRoutes peerKey ∧ (route ∈ servedRoutesOf view.snapshot selfKey ∨
        ∀ via, view.via policy selfKey peerKey = some via → route ∉ via.excluded)) ∨
      ∃ via, view.via policy selfKey peerKey = some via ∧ route ∈ via.included ∧
        (route ∈ view.primaryRoutes peerKey ∨ route ∉ via.usePrimary) := by
  have hallowed : route ∈ (view.selectRoutesForViewer access policy selfKey peerKey).2 :=
    h.elim (fun h => mem_of_mem_filter h) fun h => h
  unfold selectRoutesForViewer at hallowed
  simp only [Collection.mem_foldl_pushUnique] at hallowed
  have hglobal : ∀ {allow : String → Bool}, route ∈ (view.primaryRoutes peerKey ++
      exitRoutesOf view.snapshot peerKey).filter allow → route ∈ view.primaryRoutes peerKey := by
    intro allow hmem
    obtain hmem | hmem := mem_append.mp (mem_of_mem_filter hmem)
    · exact hmem
    · rw [isExitRoute_of_mem_exitRoutesOf hmem] at hexit
      cases hexit
  obtain hvia | hshared := hallowed
  · have hfold : viaRoutesForPeerWithUserIds policy (peerMapNodes view.snapshot)
        (view.nodeIdForKey selfKey) (view.nodeIdForKey peerKey) = view.via policy selfKey peerKey := rfl
    rw [hfold] at hvia
    cases hresult : view.via policy selfKey peerKey with
    | none =>
      rw [hresult] at hvia
      exact .inl ⟨hglobal hvia, .inr nofun⟩
    | some via =>
      rw [hresult] at hvia
      obtain hkept | ⟨hincluded, hprimary⟩ := (mem_foldl_includeRoute _ _ _ _ _).mp hvia
      · obtain ⟨hmem, hnot⟩ := mem_filter.mp hkept
        refine .inl ⟨hglobal hmem, .inr ?_⟩
        rintro _ ⟨⟩
        exact of_decide_eq_true hnot
      · exact .inr ⟨via, rfl, hincluded, hprimary⟩
  · obtain ⟨hprimary, hserved⟩ := mem_filter.mp hshared
    exact .inl ⟨hprimary, .inl (mem_of_mem_filter (of_decide_eq_true hserved))⟩

/-- Ids are distinct and not zero, each route has one primary at most and a primary serves its routes,
and the nodes of the map stand for election. -/
structure Consistent (view : MapView) (policy : PolicyState) : Prop where
  ids : ((peerMapNodes view.snapshot).map PacketFilterNode.id).Nodup
  nonzero : ∀ node ∈ electors policy (peerMapNodes view.snapshot), node.id ≠ 0
  oneOwner : ∀ route key key', route ∈ view.primaryRoutes key → route ∈ view.primaryRoutes key' →
    key = key'
  serves : ∀ key, ∀ route ∈ view.primaryRoutes key, route ∈ servedRoutesOf view.snapshot key
  stands : peerMapNodes view.snapshot ⊆ electors policy (peerMapNodes view.snapshot)

lemma exists_lookup {snapshot : MachineSnapshot} {key : String} (h : key ∈ snapshot.map Prod.fst) :
    ∃ record, snapshot.lookup key = some record := by
  refine Option.ne_none_iff_exists'.mp fun hnone => ?_
  obtain ⟨entry, hentry, rfl⟩ := mem_map.mp h
  exact absurd rfl (bne_iff_ne.mp (lookup_eq_none_iff.mp hnone entry hentry))

lemma mem_peerMapNodes {snapshot : MachineSnapshot} {key : String} {record : MapRecord}
    (h : snapshot.lookup key = some record) : record.policyNode ∈ peerMapNodes snapshot :=
  mem_map.mpr ⟨(key, record), Collection.mem_of_lookup h, rfl⟩

/-- For a viewer and a peer of the map, the result for their records. -/
theorem Consistent.via_eq (h : view.Consistent policy) {self peer : MapRecord}
    (hself : view.snapshot.lookup selfKey = some self)
    (hpeer : view.snapshot.lookup peerKey = some peer) :
    view.via policy selfKey peerKey = policy.doc.map fun doc =>
      routesForPeer doc policy.sourceAclRules (electors policy (peerMapNodes view.snapshot))
        self.policyNode peer.policyNode := by
  have hfind : ∀ {record : MapRecord}, record.policyNode ∈ peerMapNodes view.snapshot →
      (peerMapNodes view.snapshot).find? (·.id = record.id) = some record.policyNode :=
    fun hmem => Collection.find_key h.ids hmem
  unfold via viaRoutesForPeerWithUserIds
  simp only [nodeIdForKey, hself, hpeer, Option.map_some, Option.getD_some,
    hfind (mem_peerMapNodes hself), hfind (mem_peerMapNodes hpeer)]
  cases policy.doc <;> rfl

lemma Consistent.id_ne (h : view.Consistent policy) {key key' : String} {record record' : MapRecord}
    (hrecord : view.snapshot.lookup key = some record)
    (hrecord' : view.snapshot.lookup key' = some record') (hne : key ≠ key') :
    record.policyNode.id ≠ record'.policyNode.id := by
  intro hid
  have hids : (view.snapshot.map fun entry => entry.2.id).Nodup := by
    have hids := h.ids
    rwa [peerMapNodes, List.map_map] at hids
  have heq := inj_on_of_nodup_map hids (Collection.mem_of_lookup hrecord)
    (Collection.mem_of_lookup hrecord') hid
  exact hne (congrArg Prod.fst heq)

lemma Consistent.not_primary_and_kept (h : view.Consistent policy)
    (hself : selfKey ∈ view.snapshot.map Prod.fst) (hexit : isExitRoute route = false)
    {owner keeper : String} (howner : owner ∈ view.snapshot.map Prod.fst)
    (hkeeper : keeper ∈ view.snapshot.map Prod.fst) (hpeer : owner ≠ selfKey) (hne : owner ≠ keeper)
    (hprimary : route ∈ view.primaryRoutes owner) {via : ViaRouteGrantResult}
    (hvia : view.via policy selfKey keeper = some via) (hincluded : route ∈ via.included)
    (hown : route ∈ view.primaryRoutes keeper ∨ route ∉ via.usePrimary) :
    ∃ via, view.via policy selfKey owner = some via ∧ route ∈ via.excluded := by
  obtain ⟨self, hself⟩ := exists_lookup hself
  obtain ⟨ownerRecord, howner⟩ := exists_lookup howner
  obtain ⟨keeperRecord, hkeeper⟩ := exists_lookup hkeeper
  have hown : route ∉ via.usePrimary :=
    hown.resolve_left fun hkeeper => hne (h.oneOwner route owner keeper hprimary hkeeper)
  have hserves : route ∈ ownerRecord.policyNode.routes := by
    have hserves := h.serves owner route hprimary
    rwa [servedRoutesOf, howner] at hserves
  rw [h.via_eq hself hkeeper] at hvia
  obtain ⟨doc, hdoc, rfl⟩ := Option.map_eq_some_iff.mp hvia
  refine ⟨_, by rw [h.via_eq hself howner, hdoc]; rfl, ?_⟩
  exact excluded_of_kept_elsewhere h.nonzero hexit (h.stands (mem_peerMapNodes howner)) hserves
    (h.id_ne hself howner hpeer.symm) (h.id_ne howner hkeeper hne) hincluded hown

section Steering

def routeRecord (id : Nat) (addr : String) (tags routes : List String) : MapRecord :=
  { id := id, addrs := [addr], tags := tags, availableRoutes := routes, approvedRoutes := routes }

/-- A laptop, the router that a grant steers it to, and a second router, which is the primary of the
route. -/
def steeredView (laptopRoutes secondTags secondRoutes : List String) : MapView where
  snapshot :=
    [("laptop", routeRecord 1 "100.64.0.1" [] laptopRoutes),
      ("second", routeRecord 2 "100.64.0.2" secondTags secondRoutes),
      ("router", routeRecord 3 "100.64.0.3" ["tag:router"] ["10.0.0.0/8"])]
  primaryRoutes key := if key = "second" then ["10.0.0.0/8"] else []
  stableIdFromKey _ := 0

def steeringPolicy : PolicyState :=
  (PolicyState.installAtQuiet noReaders (fun doc _ => doc) {} { doc := viaDoc, raw := "" } .initial).1

lemma steeredView_oneOwner (laptopRoutes secondTags secondRoutes : List String) :
    ∀ route key key', route ∈ (steeredView laptopRoutes secondTags secondRoutes).primaryRoutes key →
      route ∈ (steeredView laptopRoutes secondTags secondRoutes).primaryRoutes key' → key = key' := by
  have hsecond : ∀ {route key : String},
      route ∈ (steeredView laptopRoutes secondTags secondRoutes).primaryRoutes key → key = "second" := by
    intro route key hmem
    by_contra hne
    simp [steeredView, hne] at hmem
  exact fun route key key' hmem hmem' => (hsecond hmem).trans (hsecond hmem').symm

/-- Ids are distinct and not zero and a route has one primary, and yet both routers come with the
route. -/
def CarriedTwice (view : MapView) (access : Bool) (policy : PolicyState) : Prop :=
  ((peerMapNodes view.snapshot).map PacketFilterNode.id).Nodup ∧
    (∀ node ∈ peerMapNodes view.snapshot, node.id ≠ 0) ∧
    (∀ route key key', route ∈ view.primaryRoutes key → route ∈ view.primaryRoutes key' →
      key = key') ∧
    ∀ key ∈ ["second", "router"],
      view.Carries (fun _ _ _ _ => access) policy "laptop" key "10.0.0.0/8"

end Steering

end MapView

end Headscale.Routes
