import Headscale.Policy.Runtime

/-!
# Routes through tagged routers

A grant with `via` tags steers its sources to the tagged routers of its destinations. For one viewer
and one peer the routes of the peer are included where the peer is tagged, and excluded where it is
not; of several tagged routers of a route the one of the lowest id keeps it. Grants without `via` that
reach a route leave it to the global primary.

The runs for different peers are independent. That only one peer keeps a route follows since every
run elects over the same retained nodes.
-/

namespace Headscale.Policy

open GoNetip Collection List

/-! ## Grants -/

structure ViaGrant where
  via : List String := []
  sources : List String
  destinations : List String
deriving DecidableEq, Repr

structure ResolvedGrant where
  via : List String
  viewerMatches : Bool
  destinations : List String
  internet : Bool
  reachesInternet : Bool
deriving DecidableEq, Repr

/-- A rule gives one grant for each destination, `autogroup:self` last unless all are autogroups. -/
def aclViaGrants (rule : AclRule) : List ViaGrant :=
  let ordered :=
    if rule.dst.any fun destination => aliasKind destination ≠ some .autoGroup then
      (rule.dst.filter fun destination => destination ≠ "autogroup:self") ++
        rule.dst.filter fun destination => destination = "autogroup:self"
    else rule.dst
  ordered.map fun destination => { sources := rule.src, destinations := [destination] }

def viaGrants (doc : PolicyDoc) (sourceAclRules : List AclRule) : List ViaGrant :=
  (doc.grants.map fun grant => ⟨grant.via, grant.src, grant.dst⟩) ++
    (sourceAclRules.filter fun rule => rule.action = .accept).flatMap aclViaGrants

/-- The prefixes of an alias that resolves without errors. -/
def resolvedPrefixes (doc : PolicyDoc) (nodes : List PacketFilterNode) (token : String) :
    Option IpSet :=
  let resolved := resolveAlias doc token nodes
  if resolved.errors = [] then resolved.ips.map IpSet.fromStrings else none

def resolveGrant (doc : PolicyDoc) (nodes : List PacketFilterNode) (viewer : PacketFilterNode)
    (grant : ViaGrant) : ResolvedGrant :=
  { via := grant.via
    viewerMatches := grant.sources.any fun source =>
      (resolvedPrefixes doc nodes source).any fun ips => ips.containsNode viewer
    destinations := grant.destinations.flatMap fun destination =>
      if destination = "autogroup:internet" then []
      else ((resolvedPrefixes doc nodes destination).map IpSet.prefixes).getD []
    internet := "autogroup:internet" ∈ grant.destinations
    reachesInternet := "*" ∈ grant.destinations ∨ "autogroup:internet" ∈ grant.destinations }

/-- A destination of the grant overlaps the route. -/
def ResolvedGrant.reaches (grant : ResolvedGrant) (route : String) : Bool :=
  grant.destinations.any fun destination => prefixesOverlap destination route

/-- The node has one of the grant's tags. -/
def ResolvedGrant.steersTo (grant : ResolvedGrant) (node : PacketFilterNode) : Bool :=
  grant.via.any (· ∈ node.tags)

/-! ## Passes -/

open ResolvedGrant

structure ViaRouteGrantResult where
  included : List String := []
  excluded : List String := []
  usePrimary : List String := []
deriving DecidableEq, Repr

namespace ViaRouteGrantResult

/-- The routes of the peer that a grant is about, by destination and then as announced. -/
def matched (peer : PacketFilterNode) (grant : ResolvedGrant) : List String :=
  (grant.destinations.flatMap fun destination =>
    (peer.routes.filter fun route => !isExitRoute route).filter (prefixesOverlap destination)) ++
    if grant.internet then peer.routes.filter isExitRoute else []

def steer (peer : PacketFilterNode) (result : ViaRouteGrantResult) (grant : ResolvedGrant) :
    ViaRouteGrantResult :=
  if grant.steersTo peer then
    { result with included := result.included ++ matched peer grant }
  else { result with excluded := result.excluded ++ matched peer grant }

/-- The node has the tag and announces the route, other than as an exit route. -/
def carries (tag route : String) (node : PacketFilterNode) : Bool :=
  tag ∈ node.tags ∧ (node.routes.any fun announced => !isExitRoute announced && announced = route)

/-- The lowest id of the nodes that carry the route under one of the tags, zero if there is none. -/
def viaPrimary (nodes : List PacketFilterNode) (via : List String) (route : String) : Nat :=
  via.foldl (fun primary tag => nodes.foldl (fun primary node =>
    if carries tag route node ∧ (primary = 0 ∨ node.id < primary) then node.id else primary)
      primary) 0

/-- Somebody else is elected for a route that the destination overlaps. -/
def displaced (nodes : List PacketFilterNode) (peer : PacketFilterNode) (via : List String)
    (destination route : String) : Bool :=
  prefixesOverlap destination route ∧ viaPrimary nodes via route ≠ 0 ∧
    peer.id ≠ viaPrimary nodes via route

/-- Takes a route away from a peer that is not elected for it. -/
def displace (lost : String → Bool) (result : ViaRouteGrantResult) (route : String) :
    ViaRouteGrantResult :=
  if lost route then
    { result with
      included := result.included.filter (· ≠ route)
      excluded := if route ∈ result.excluded then result.excluded else result.excluded ++ [route] }
  else result

def elect (nodes : List PacketFilterNode) (peer : PacketFilterNode) (result : ViaRouteGrantResult)
    (grant : ResolvedGrant) : ViaRouteGrantResult :=
  grant.destinations.foldl (fun result destination =>
    result.included.foldl (displace (displaced nodes peer grant.via destination)) result) result

variable (result : ViaRouteGrantResult)

/-- A destination of a grant without tags: included routes go by the global primary, and excluded
subnet routes are let in again. -/
def relaxDestination (destination : String) : ViaRouteGrantResult :=
  { result with
    usePrimary := (result.included.filter (prefixesOverlap destination)).foldl pushUnique
      result.usePrimary
    excluded := result.excluded.filter fun route =>
      isExitRoute route || !prefixesOverlap destination route }

def relax (grant : ResolvedGrant) : ViaRouteGrantResult :=
  let result := grant.destinations.foldl relaxDestination result
  if grant.reachesInternet then
    { result with excluded := result.excluded.filter fun route => !isExitRoute route }
  else result

end ViaRouteGrantResult

open ViaRouteGrantResult

section RoutesForPeer

variable (doc : PolicyDoc) (sourceAclRules : List AclRule) (retainedNodes : List PacketFilterNode)
variable (viewer peer : PacketFilterNode)

def resolvedGrants : List ResolvedGrant :=
  (viaGrants doc sourceAclRules).map (resolveGrant doc retainedNodes viewer)

/-- The grants with tags that match the viewer. -/
def steeringGrants : List ResolvedGrant :=
  (resolvedGrants doc sourceAclRules retainedNodes viewer).filter fun grant =>
    grant.via ≠ [] ∧ grant.viewerMatches

/-- The grants without tags that match the viewer. -/
def plainGrants : List ResolvedGrant :=
  (resolvedGrants doc sourceAclRules retainedNodes viewer).filter fun grant =>
    grant.via = [] ∧ grant.viewerMatches

def routesForPeer : ViaRouteGrantResult :=
  if viewer.id = peer.id ∨ ¬ doc.grants.any (fun grant => grant.via ≠ []) then {}
  else
    let steering := steeringGrants doc sourceAclRules retainedNodes viewer
    let steered := steering.foldl (steer peer) {}
    if steered.included = [] ∧ steered.excluded = [] then steered
    else
      let elected := steering.foldl (elect retainedNodes peer) steered
      (plainGrants doc sourceAclRules retainedNodes viewer).foldl relax elected

end RoutesForPeer

/-! ## Steering -/

namespace ViaRouteGrantResult

section Steering

variable {peer : PacketFilterNode} {grant : ResolvedGrant} {route : String}

lemma mem_routes_of_matched (h : route ∈ matched peer grant) : route ∈ peer.routes := by
  obtain h | h := mem_append.mp h
  · obtain ⟨destination, -, h⟩ := mem_flatMap.mp h
    exact mem_of_mem_filter (mem_of_mem_filter h)
  · split at h
    · exact mem_of_mem_filter h
    · cases h

/-- A subnet route is matched where a destination overlaps it. -/
theorem mem_matched (hexit : isExitRoute route = false) :
    route ∈ matched peer grant ↔ route ∈ peer.routes ∧ grant.reaches route = true := by
  have hinternet : route ∉ (if grant.internet then peer.routes.filter isExitRoute else []) := by
    split <;> simp [hexit]
  rw [matched, mem_append, or_iff_left hinternet]
  simp only [mem_flatMap, mem_filter, hexit, reaches, any_eq_true]
  tauto

lemma foldl_steer (peer : PacketFilterNode) (grants : List ResolvedGrant)
    (result : ViaRouteGrantResult) (route : String) :
    (route ∈ (grants.foldl (steer peer) result).included ↔ route ∈ result.included ∨
        ∃ grant ∈ grants, grant.steersTo peer = true ∧ route ∈ matched peer grant) ∧
      (route ∈ (grants.foldl (steer peer) result).excluded ↔ route ∈ result.excluded ∨
        ∃ grant ∈ grants, grant.steersTo peer = false ∧ route ∈ matched peer grant) ∧
      (grants.foldl (steer peer) result).usePrimary = result.usePrimary := by
  induction grants generalizing result with
  | nil => simp
  | cons grant grants ih =>
    obtain ⟨hincluded, hexcluded, husePrimary⟩ := ih (steer peer result grant)
    rw [foldl_cons, hincluded, hexcluded, husePrimary]
    by_cases htagged : grant.steersTo peer = true <;> simp [steer, htagged, or_assoc]

end Steering

/-! ## Elections -/

section Election

/-- The routes that are lost go from the included to the excluded ones. -/
structure Displaces (lost : String → Bool) (result result' : ViaRouteGrantResult) : Prop where
  included : ∀ route, route ∈ result'.included ↔ route ∈ result.included ∧ lost route = false
  excluded : ∀ route, route ∈ result'.excluded ↔
    route ∈ result.excluded ∨ route ∈ result.included ∧ lost route = true
  usePrimary : result'.usePrimary = result.usePrimary

lemma Displaces.trans {lost lost' : String → Bool} {result mid result' : ViaRouteGrantResult}
    (h : Displaces lost result mid) (h' : Displaces lost' mid result') :
    Displaces (fun route => lost route || lost' route) result result' where
  included route := by
    rw [h'.included, h.included, Bool.or_eq_false_iff, and_assoc]
  excluded route := by
    rw [h'.excluded, h.excluded, h.included, Bool.or_eq_true]
    cases lost route <;> cases lost' route <;> simp
  usePrimary := h'.usePrimary.trans h.usePrimary

/-- A loop whose every pass displaces some routes displaces those of all passes. -/
theorem Displaces.foldl {α : Type} {pass : ViaRouteGrantResult → α → ViaRouteGrantResult}
    {lost : α → String → Bool} (hpass : ∀ result a, Displaces (lost a) result (pass result a))
    (xs : List α) (result : ViaRouteGrantResult) :
    Displaces (fun route => xs.any (lost · route)) result (xs.foldl pass result) := by
  induction xs generalizing result with
  | nil => exact ⟨by simp, by simp, rfl⟩
  | cons x xs ih => exact (hpass result x).trans (ih (pass result x))

variable (lost : String → Bool)

lemma foldl_displace (routes : List String) (result : ViaRouteGrantResult) :
    (∀ route, route ∈ (routes.foldl (displace lost) result).included ↔
        route ∈ result.included ∧ ¬ (route ∈ routes ∧ lost route = true)) ∧
      (∀ route, route ∈ (routes.foldl (displace lost) result).excluded ↔
        route ∈ result.excluded ∨ route ∈ routes ∧ lost route = true) ∧
      (routes.foldl (displace lost) result).usePrimary = result.usePrimary := by
  induction routes generalizing result with
  | nil => simp
  | cons first rest ih =>
    obtain ⟨hincluded, hexcluded, husePrimary⟩ := ih (displace lost result first)
    rw [foldl_cons, husePrimary]
    simp only [hincluded, hexcluded]
    unfold displace
    split
    · next hlost =>
      refine ⟨fun route => ?_, fun route => ?_, rfl⟩ <;> by_cases hfirst : route = first
      · simp [hfirst, hlost]
      · simp [hfirst]
      · by_cases hmem : first ∈ result.excluded <;> simp [hfirst, hlost, hmem]
      · by_cases hmem : first ∈ result.excluded <;> simp [hfirst, hmem]
    · next hlost =>
      refine ⟨fun route => ?_, fun route => ?_, rfl⟩ <;>
        by_cases hfirst : route = first <;> simp [hfirst, hlost]

lemma displaces_included (result : ViaRouteGrantResult) :
    Displaces lost result (result.included.foldl (displace lost) result) := by
  obtain ⟨hincluded, hexcluded, husePrimary⟩ := foldl_displace lost result.included result
  refine ⟨fun route => ?_, hexcluded, husePrimary⟩
  rw [hincluded]
  cases lost route <;> simp

/-- Somebody else is elected for the route under one of the grants. -/
def displacedBy (nodes : List PacketFilterNode) (peer : PacketFilterNode)
    (grants : List ResolvedGrant) (route : String) : Bool :=
  grants.any fun grant => grant.destinations.any fun destination =>
    displaced nodes peer grant.via destination route

lemma displaces_elect (nodes : List PacketFilterNode) (peer : PacketFilterNode)
    (grants : List ResolvedGrant) (result : ViaRouteGrantResult) :
    Displaces (displacedBy nodes peer grants) result (grants.foldl (elect nodes peer) result) :=
  Displaces.foldl (fun result grant => Displaces.foldl (fun result destination =>
    displaces_included (displaced nodes peer grant.via destination) result)
      grant.destinations result) grants result

end Election

/-! ## The lowest id -/

section Lowest

variable {nodes : List PacketFilterNode} {route : String}

lemma carries_iff (hexit : isExitRoute route = false) {tag : String} {node : PacketFilterNode} :
    carries tag route node = true ↔ tag ∈ node.tags ∧ route ∈ node.routes := by
  simp only [carries, decide_eq_true_eq, any_eq_true, Bool.and_eq_true, Bool.not_eq_true']
  constructor
  · rintro ⟨htag, announced, hmem, -, rfl⟩
    exact ⟨htag, hmem⟩
  · rintro ⟨htag, hmem⟩
    exact ⟨htag, route, hmem, hexit, rfl⟩

lemma viaPrimary_eq_lowest (nodes : List PacketFilterNode) (via : List String) (route : String) :
    viaPrimary nodes via route =
      lowest (fun entry : String × PacketFilterNode => entry.2.id)
        (fun entry => carries entry.1 route entry.2) 0
        (via.flatMap fun tag => nodes.map fun node => (tag, node)) := by
  simp only [viaPrimary, lowest, foldl_flatMap, foldl_map]

/-- Nobody carries the route and the result is zero, or the result is the lowest id of those who do. -/
theorem viaPrimary_spec (via : List String) (route : String) (hids : ∀ node ∈ nodes, node.id ≠ 0) :
    (viaPrimary nodes via route = 0 ∨
        ∃ node ∈ nodes, (∃ tag ∈ via, carries tag route node = true) ∧
          node.id = viaPrimary nodes via route) ∧
      ∀ node ∈ nodes, ∀ tag ∈ via, carries tag route node = true →
        viaPrimary nodes via route ≠ 0 ∧ viaPrimary nodes via route ≤ node.id := by
  have hmem : ∀ entry : String × PacketFilterNode,
      entry ∈ (via.flatMap fun tag => nodes.map fun node => (tag, node)) ↔
        entry.1 ∈ via ∧ entry.2 ∈ nodes := by
    rintro ⟨tag, node⟩
    simp
  obtain ⟨hfound, -, hall⟩ := lowest_spec 0 (p := fun entry => carries entry.1 route entry.2)
    fun entry hentry => hids entry.2 ((hmem entry).mp hentry).2
  rw [← viaPrimary_eq_lowest] at hfound hall
  refine ⟨hfound.imp_right ?_, fun node hnode tag htag hcarries => ?_⟩
  · rintro ⟨⟨tag, node⟩, hentry, hcarries, hid⟩
    obtain ⟨htag, hnode⟩ := (hmem _).mp hentry
    exact ⟨node, hnode, ⟨tag, htag, hcarries⟩, hid⟩
  · exact hall (tag, node) ((hmem _).mpr ⟨htag, hnode⟩) hcarries

end Lowest

/-! ## Plain grants -/

section Relaxing

/-- The routes that are reached go by the global primary, and excluded subnet routes among them are
let in. -/
structure Relaxes (reached : String → Bool) (result result' : ViaRouteGrantResult) : Prop where
  included : result'.included = result.included
  usePrimary : ∀ route, route ∈ result'.usePrimary ↔
    route ∈ result.usePrimary ∨ route ∈ result.included ∧ reached route = true
  nodup : result.usePrimary.Nodup → result'.usePrimary.Nodup
  excluded_of : ∀ route ∈ result'.excluded, route ∈ result.excluded
  excluded : ∀ route, isExitRoute route = false →
    (route ∈ result'.excluded ↔ route ∈ result.excluded ∧ reached route = false)

lemma Relaxes.trans {reached reached' : String → Bool} {result mid result' : ViaRouteGrantResult}
    (h : Relaxes reached result mid) (h' : Relaxes reached' mid result') :
    Relaxes (fun route => reached route || reached' route) result result' where
  included := h'.included.trans h.included
  usePrimary route := by
    rw [h'.usePrimary, h.usePrimary, h.included, Bool.or_eq_true, and_or_left, or_assoc]
  nodup hnodup := h'.nodup (h.nodup hnodup)
  excluded_of route hroute := h.excluded_of route (h'.excluded_of route hroute)
  excluded route hexit := by
    rw [h'.excluded route hexit, h.excluded route hexit, Bool.or_eq_false_iff, and_assoc]

lemma Relaxes.foldl {α : Type} {pass : ViaRouteGrantResult → α → ViaRouteGrantResult}
    {reached : α → String → Bool} (hpass : ∀ result a, Relaxes (reached a) result (pass result a))
    (xs : List α) (result : ViaRouteGrantResult) :
    Relaxes (fun route => xs.any (reached · route)) result (xs.foldl pass result) := by
  induction xs generalizing result with
  | nil => exact ⟨rfl, by simp, fun h => h, fun _ h => h, by simp⟩
  | cons x xs ih => exact (hpass result x).trans (ih (pass result x))

variable (result : ViaRouteGrantResult)

lemma relaxes_destination (destination : String) :
    Relaxes (prefixesOverlap destination) result (relaxDestination result destination) where
  included := rfl
  usePrimary route := by simp [relaxDestination, mem_foldl_pushUnique]
  nodup hnodup := nodup_foldl_pushUnique _ hnodup
  excluded_of route hroute := mem_of_mem_filter hroute
  excluded route hexit := by simp [relaxDestination, hexit]

lemma relaxes_relax (grant : ResolvedGrant) :
    Relaxes grant.reaches result (relax result grant) := by
  have hdestinations := Relaxes.foldl relaxes_destination grant.destinations result
  unfold relax
  split
  · exact
      { hdestinations with
        excluded_of := fun route hroute => hdestinations.excluded_of route (mem_of_mem_filter hroute)
        excluded := fun route hexit => by
          rw [mem_filter, hdestinations.excluded route hexit, hexit]
          simp [reaches] }
  · exact hdestinations

end Relaxing

end ViaRouteGrantResult

/-! ## The result -/

section Result

variable (doc : PolicyDoc) (sourceAclRules : List AclRule) (retainedNodes : List PacketFilterNode)
variable (viewer peer : PacketFilterNode)

/-- All passes, without the shortcuts. -/
def viaPasses : ViaRouteGrantResult :=
  let steering := steeringGrants doc sourceAclRules retainedNodes viewer
  (plainGrants doc sourceAclRules retainedNodes viewer).foldl relax
    (steering.foldl (elect retainedNodes peer)
      (steering.foldl (steer peer) {}))

lemma steeringGrants_nil (h : ¬ doc.grants.any (fun grant => grant.via ≠ []) = true) :
    steeringGrants doc sourceAclRules retainedNodes viewer = [] := by
  rw [steeringGrants, filter_eq_nil_iff]
  rintro resolved hresolved hvia
  obtain ⟨grant, hgrant, rfl⟩ := mem_map.mp hresolved
  have hvia : grant.via ≠ [] := (of_decide_eq_true hvia).1
  obtain hgrant | hgrant := mem_append.mp hgrant
  · obtain ⟨rule, hrule, rfl⟩ := mem_map.mp hgrant
    exact h (any_eq_true.mpr ⟨rule, hrule, decide_eq_true hvia⟩)
  · -- grants from rules have no tags
    obtain ⟨rule, -, hgrant⟩ := mem_flatMap.mp hgrant
    obtain ⟨destination, -, rfl⟩ := mem_map.mp hgrant
    exact hvia rfl

lemma foldl_fixed {α β : Type} {f : β → α → β} {b : β} (h : ∀ a, f b a = b) (xs : List α) :
    xs.foldl f b = b := by
  induction xs with
  | nil => rfl
  | cons x xs ih => rw [foldl_cons, h, ih]

/-- The shortcuts skip passes that would change nothing. -/
theorem routesForPeer_eq (hother : viewer.id ≠ peer.id) :
    routesForPeer doc sourceAclRules retainedNodes viewer peer =
      viaPasses doc sourceAclRules retainedNodes viewer peer := by
  have helect : ∀ (result : ViaRouteGrantResult) grant, result.included = [] →
      elect retainedNodes peer result grant = result := by
    intro result grant hnil
    exact foldl_fixed (fun destination => by rw [hnil]; rfl) grant.destinations
  have hrelax : ∀ (result : ViaRouteGrantResult) grant, result.included = [] →
      result.excluded = [] → relax result grant = result := by
    rintro ⟨included, excluded, usePrimary⟩ grant rfl rfl
    unfold relax
    rw [foldl_fixed fun destination => rfl]
    split <;> rfl
  have hskip : ∀ (result : ViaRouteGrantResult), result.included = [] → result.excluded = [] →
      ∀ steering plain : List ResolvedGrant, plain.foldl relax
        (steering.foldl (elect retainedNodes peer) result) = result := by
    intro result hincluded hexcluded steering plain
    rw [foldl_fixed fun grant => helect result grant hincluded]
    exact foldl_fixed (fun grant => hrelax result grant hincluded hexcluded) plain
  unfold routesForPeer viaPasses
  split
  · rename_i hshort
    have hnil := steeringGrants_nil doc sourceAclRules retainedNodes viewer
      (hshort.resolve_left hother)
    rw [hnil]
    exact (hskip {} rfl rfl [] _).symm
  · simp only
    split
    · rename_i hempty
      exact (hskip _ hempty.1 hempty.2 _ _).symm
    · rfl

/-- A plain grant reaches the route. -/
def plainlyReached (route : String) : Bool :=
  (plainGrants doc sourceAclRules retainedNodes viewer).any (·.reaches route)

/-- A grant brings the route to the peer, or takes it away since the peer lacks its tags. -/
def Steered (brings : Bool) (route : String) : Prop :=
  ∃ grant ∈ steeringGrants doc sourceAclRules retainedNodes viewer, grant.steersTo peer = brings ∧
    route ∈ matched peer grant

/-- Another node is elected for the route. -/
def lostRoute (route : String) : Bool :=
  displacedBy retainedNodes peer
    (steeringGrants doc sourceAclRules retainedNodes viewer) route

/-- What the lists of a result hold. -/
structure ViaResult (result : ViaRouteGrantResult) : Prop where
  included : ∀ route, route ∈ result.included ↔
    Steered doc sourceAclRules retainedNodes viewer peer true route ∧
      lostRoute doc sourceAclRules retainedNodes viewer peer route = false
  usePrimary : ∀ route, route ∈ result.usePrimary ↔ route ∈ result.included ∧
    plainlyReached doc sourceAclRules retainedNodes viewer route = true
  nodup : result.usePrimary.Nodup
  excluded_of : ∀ route ∈ result.excluded,
    Steered doc sourceAclRules retainedNodes viewer peer false route ∨
      Steered doc sourceAclRules retainedNodes viewer peer true route ∧
        lostRoute doc sourceAclRules retainedNodes viewer peer route = true
  excluded : ∀ route, isExitRoute route = false → (route ∈ result.excluded ↔
    (Steered doc sourceAclRules retainedNodes viewer peer false route ∨
      Steered doc sourceAclRules retainedNodes viewer peer true route ∧
        lostRoute doc sourceAclRules retainedNodes viewer peer route = true) ∧
    plainlyReached doc sourceAclRules retainedNodes viewer route = false)

lemma routesForPeer_result (hother : viewer.id ≠ peer.id) :
    ViaResult doc sourceAclRules retainedNodes viewer peer
      (routesForPeer doc sourceAclRules retainedNodes viewer peer) := by
  rw [routesForPeer_eq doc sourceAclRules retainedNodes viewer peer hother]
  let steering := steeringGrants doc sourceAclRules retainedNodes viewer
  let steered := steering.foldl (steer peer) {}
  have hsteered := foldl_steer peer steering {}
  have helected := displaces_elect retainedNodes peer steering steered
  have hrelaxed := Relaxes.foldl relaxes_relax
    (plainGrants doc sourceAclRules retainedNodes viewer)
    (steering.foldl (elect retainedNodes peer) steered)
  have hin : ∀ route, route ∈ steered.included ↔
      Steered doc sourceAclRules retainedNodes viewer peer true route := fun route =>
    (hsteered route).1.trans (or_iff_right not_mem_nil)
  have hout : ∀ route, route ∈ steered.excluded ↔
      Steered doc sourceAclRules retainedNodes viewer peer false route := fun route =>
    (hsteered route).2.1.trans (or_iff_right not_mem_nil)
  have hnone : (steering.foldl (elect retainedNodes peer) steered).usePrimary = [] :=
    helected.usePrimary.trans (hsteered "").2.2
  unfold viaPasses
  refine ⟨fun route => ?_, fun route => ?_, ?_, fun route hroute => ?_, fun route hexit => ?_⟩
  · rw [hrelaxed.included, helected.included, hin]
    rfl
  · rw [hrelaxed.usePrimary, hrelaxed.included, hnone]
    exact or_iff_right not_mem_nil
  · refine hrelaxed.nodup ?_
    rw [hnone]
    exact nodup_nil
  · have hroute := hrelaxed.excluded_of route hroute
    rwa [helected.excluded, hin, hout] at hroute
  · rw [hrelaxed.excluded route hexit, helected.excluded, hin, hout]
    rfl

lemma routesForPeer_self (hself : viewer.id = peer.id) :
    routesForPeer doc sourceAclRules retainedNodes viewer peer = {} :=
  if_pos (.inl hself)

/-- A node has no routes for itself. -/
theorem viaResult_of_included {route : String}
    (h : route ∈ (routesForPeer doc sourceAclRules retainedNodes viewer peer).included) :
    ViaResult doc sourceAclRules retainedNodes viewer peer
      (routesForPeer doc sourceAclRules retainedNodes viewer peer) := by
  refine routesForPeer_result _ _ _ _ _ fun hself => ?_
  rw [routesForPeer_self _ _ _ _ _ hself] at h
  cases h

end Result

section Members

variable {doc : PolicyDoc} {sourceAclRules : List AclRule} {retainedNodes : List PacketFilterNode}
variable {viewer peer : PacketFilterNode} {route : String} {brings : Bool}

lemma Steered.mem_routes (h : Steered doc sourceAclRules retainedNodes viewer peer brings route) :
    route ∈ peer.routes := by
  obtain ⟨grant, -, -, hmatched⟩ := h
  exact mem_routes_of_matched hmatched

/-- A subnet route is brought or taken away by a grant that reaches it. -/
theorem steered_iff (hexit : isExitRoute route = false) :
    Steered doc sourceAclRules retainedNodes viewer peer brings route ↔ route ∈ peer.routes ∧
      ∃ grant ∈ steeringGrants doc sourceAclRules retainedNodes viewer,
        grant.steersTo peer = brings ∧ grant.reaches route = true := by
  unfold Steered
  simp only [mem_matched hexit]
  constructor
  · rintro ⟨grant, hgrant, hsteers, hroute, hreaches⟩
    exact ⟨hroute, grant, hgrant, hsteers, hreaches⟩
  · rintro ⟨hroute, grant, hgrant, hsteers, hreaches⟩
    exact ⟨grant, hgrant, hsteers, hroute, hreaches⟩

lemma lostRoute_iff :
    lostRoute doc sourceAclRules retainedNodes viewer peer route = true ↔
      ∃ grant ∈ steeringGrants doc sourceAclRules retainedNodes viewer, grant.reaches route = true ∧
        viaPrimary retainedNodes grant.via route ≠ 0 ∧
        peer.id ≠ viaPrimary retainedNodes grant.via route := by
  simp only [lostRoute, displacedBy, displaced, reaches, any_eq_true, decide_eq_true_eq]
  constructor
  · rintro ⟨grant, hgrant, destination, hdestination, hoverlap, hlost⟩
    exact ⟨grant, hgrant, ⟨destination, hdestination, hoverlap⟩, hlost⟩
  · rintro ⟨grant, hgrant, ⟨destination, hdestination, hoverlap⟩, hlost⟩
    exact ⟨grant, hgrant, destination, hdestination, hoverlap, hlost⟩

/-- Under every grant that reaches a kept route, the peer is the elected one if anybody is. -/
theorem elected_of_kept (hkept : lostRoute doc sourceAclRules retainedNodes viewer peer route = false)
    {grant : ResolvedGrant}
    (hgrant : grant ∈ steeringGrants doc sourceAclRules retainedNodes viewer)
    (hreaches : grant.reaches route = true)
    (helected : viaPrimary retainedNodes grant.via route ≠ 0) :
    peer.id = viaPrimary retainedNodes grant.via route := by
  by_contra hne
  have hlost := lostRoute_iff.mpr ⟨grant, hgrant, hreaches, helected, hne⟩
  rw [hkept] at hlost
  cases hlost

/-- The nodes that a grant's election is held among. -/
theorem candidate_iff (hexit : isExitRoute route = false) {grant : ResolvedGrant}
    {node : PacketFilterNode} :
    grant.steersTo node = true ∧ route ∈ node.routes ↔
      ∃ tag ∈ grant.via, carries tag route node = true := by
  simp only [steersTo, any_eq_true, decide_eq_true_eq, carries_iff hexit]
  tauto

/-- Two retained peers that keep a route are elected under the same grant. -/
theorem included_unique (hids : ∀ node ∈ retainedNodes, node.id ≠ 0) (hexit : isExitRoute route = false)
    {first second : PacketFilterNode} (hfirst : first ∈ retainedNodes)
    (hkept : route ∈ (routesForPeer doc sourceAclRules retainedNodes viewer first).included)
    (hkept' : route ∈ (routesForPeer doc sourceAclRules retainedNodes viewer second).included) :
    first.id = second.id := by
  obtain ⟨hsteered, hlost⟩ := ((viaResult_of_included _ _ _ _ _ hkept).included route).mp hkept
  obtain ⟨-, hlost'⟩ := ((viaResult_of_included _ _ _ _ _ hkept').included route).mp hkept'
  obtain ⟨hroute, grant, hgrant, hsteers, hreaches⟩ := (steered_iff hexit).mp hsteered
  -- the first peer is a candidate itself, so that somebody is elected
  obtain ⟨tag, htag, hcarries⟩ := (candidate_iff hexit).mp ⟨hsteers, hroute⟩
  obtain ⟨helected, -⟩ := (viaPrimary_spec grant.via route hids).2 first hfirst tag htag hcarries
  exact (elected_of_kept hlost hgrant hreaches helected).trans
    (elected_of_kept hlost' hgrant hreaches helected).symm

/-- A route that one peer keeps, and that does not go by the global primary, is excluded for every
other retained peer that announces it. -/
theorem excluded_of_kept_elsewhere (hids : ∀ node ∈ retainedNodes, node.id ≠ 0)
    (hexit : isExitRoute route = false) {keeper : PacketFilterNode} (hpeer : peer ∈ retainedNodes)
    (hroute : route ∈ peer.routes) (hself : viewer.id ≠ peer.id) (hne : peer.id ≠ keeper.id)
    (hkept : route ∈ (routesForPeer doc sourceAclRules retainedNodes viewer keeper).included)
    (hown : route ∉ (routesForPeer doc sourceAclRules retainedNodes viewer keeper).usePrimary) :
    route ∈ (routesForPeer doc sourceAclRules retainedNodes viewer peer).excluded := by
  have hkeeper := viaResult_of_included _ _ _ _ _ hkept
  have hresult := routesForPeer_result doc sourceAclRules retainedNodes viewer peer hself
  have hplain : plainlyReached doc sourceAclRules retainedNodes viewer route = false := by
    rw [hkeeper.usePrimary] at hown
    exact Bool.eq_false_iff.mpr fun hplain => hown ⟨hkept, hplain⟩
  obtain ⟨hsteered, -⟩ := (hkeeper.included route).mp hkept
  obtain ⟨-, grant, hgrant, -, hreaches⟩ := (steered_iff hexit).mp hsteered
  refine (hresult.excluded route hexit).mpr ⟨?_, hplain⟩
  -- the grant that brings the route to the keeper is about this peer too
  cases hsteers : grant.steersTo peer with
  | false => exact .inl ((steered_iff hexit).mpr ⟨hroute, grant, hgrant, hsteers, hreaches⟩)
  | true =>
    have hsteered' := (steered_iff hexit).mpr ⟨hroute, grant, hgrant, hsteers, hreaches⟩
    refine .inr ⟨hsteered', Bool.of_not_eq_false fun hkept' => hne ?_⟩
    exact included_unique hids hexit hpeer ((hresult.included route).mpr ⟨hsteered', hkept'⟩) hkept

end Members

/-- For every policy, retained nodes with distinct ids other than zero and viewer: the lists of a
retained peer hold its own routes, what goes by the global primary is included and listed once, and a
subnet route is included for one retained peer at most. That peer is, under every grant with tags that
matches the viewer and reaches the route, the node of the lowest id among those that have one of the
tags and announce the route, unless there is none. -/
theorem viaRoutes_kept_by_one (doc : PolicyDoc) (sourceAclRules : List AclRule)
    (retainedNodes : List PacketFilterNode) (hdistinct : (retainedNodes.map PacketFilterNode.id).Nodup)
    (hids : ∀ node ∈ retainedNodes, node.id ≠ 0) (viewer : PacketFilterNode) :
    (∀ peer ∈ retainedNodes,
      let result := routesForPeer doc sourceAclRules retainedNodes viewer peer
      (∀ route ∈ result.included, route ∈ peer.routes) ∧
        (∀ route ∈ result.excluded, route ∈ peer.routes) ∧
        result.usePrimary.Nodup ∧ (∀ route ∈ result.usePrimary, route ∈ result.included) ∧
        ∀ route ∈ result.included, isExitRoute route = false →
          ∀ grant ∈ steeringGrants doc sourceAclRules retainedNodes viewer, grant.reaches route = true →
            let candidates := retainedNodes.filter fun node =>
              grant.steersTo node ∧ route ∈ node.routes
            candidates = [] ∨ peer ∈ candidates ∧ ∀ node ∈ candidates, peer.id ≤ node.id) ∧
    ∀ route, isExitRoute route = false → ∀ first ∈ retainedNodes, ∀ second ∈ retainedNodes,
      route ∈ (routesForPeer doc sourceAclRules retainedNodes viewer first).included →
      route ∈ (routesForPeer doc sourceAclRules retainedNodes viewer second).included →
      first = second := by
  refine ⟨fun peer hpeer => ?_, fun route hexit first hfirst second hsecond hkept hkept' => ?_⟩
  · by_cases hself : viewer.id = peer.id
    · rw [routesForPeer_self _ _ _ _ _ hself]
      simp
    have hresult := routesForPeer_result doc sourceAclRules retainedNodes viewer peer hself
    refine ⟨fun route hroute => ?_, fun route hroute => ?_, hresult.nodup, fun route hroute => ?_,
      fun route hroute hexit grant hgrant hreaches => ?_⟩
    · exact ((hresult.included route).mp hroute).1.mem_routes
    · obtain hsteered | ⟨hsteered, -⟩ := hresult.excluded_of route hroute <;>
        exact hsteered.mem_routes
    · exact ((hresult.usePrimary route).mp hroute).1
    · obtain ⟨-, hkept⟩ := (hresult.included route).mp hroute
      obtain ⟨hfound, hall⟩ := viaPrimary_spec grant.via route hids
      simp only [mem_filter, filter_eq_nil_iff, decide_eq_true_eq, candidate_iff hexit]
      obtain hnone | ⟨node, hnode, hcandidate, hid⟩ := hfound
      · left
        rintro node hnode ⟨tag, htag, hcarries⟩
        exact (hall node hnode tag htag hcarries).1 hnone
      right
      obtain ⟨tag, htag, hcarries⟩ := hcandidate
      have hpeerId := elected_of_kept hkept hgrant hreaches (hall node hnode tag htag hcarries).1
      obtain rfl := inj_on_of_nodup_map hdistinct hnode hpeer (hid.trans hpeerId.symm)
      refine ⟨⟨hnode, tag, htag, hcarries⟩, ?_⟩
      rintro other ⟨hother, tag', htag', hcarries'⟩
      exact hid ▸ (hall other hother tag' htag' hcarries').2
  · exact inj_on_of_nodup_map hdistinct hfirst hsecond (included_unique hids hexit hfirst hkept hkept')

section Steering

def viaViewer : PacketFilterNode := { id := 1, addrs := ["100.64.0.1"] }

def viaRouter (id : Nat) (addr : String) : PacketFilterNode :=
  { id := id, addrs := [addr], tags := ["tag:router"], routes := ["10.0.0.0/8"] }

/-- A viewer, and two routers of one route with the same tag. -/
def viaNodes : List PacketFilterNode :=
  [viaViewer, viaRouter 3 "100.64.0.3", viaRouter 2 "100.64.0.2"]

def viaDoc : PolicyDoc :=
  { grants := [{ src := ["100.64.0.1"], dst := ["10.0.0.0/8"], ip := ["*"], via := ["tag:router"] }] }

/-- The router of the lower id keeps the route, and only it does. -/
theorem viaNodes_kept_by_one :
    "10.0.0.0/8" ∈ (routesForPeer viaDoc [] viaNodes viaViewer (viaRouter 2 "100.64.0.2")).included ∧
      ∀ peer ∈ viaNodes, "10.0.0.0/8" ∈ (routesForPeer viaDoc [] viaNodes viaViewer peer).included →
        peer = viaRouter 2 "100.64.0.2" := by
  have hkept : "10.0.0.0/8" ∈
      (routesForPeer viaDoc [] viaNodes viaViewer (viaRouter 2 "100.64.0.2")).included := by
    decide +kernel
  obtain ⟨-, hunique⟩ := viaRoutes_kept_by_one viaDoc [] viaNodes (by decide) (by decide) viaViewer
  exact ⟨hkept, fun peer hpeer hincluded =>
    hunique _ (by decide) peer hpeer _ (by decide) hincluded hkept⟩

end Steering

end Headscale.Policy
