import Headscale.Lib.Machine
import Headscale.Lib.Result
import Headscale.Lib.TreeMap
import Headscale.Netip.RoundTrip

/-!
# Primary routes

Of the nodes that advertise a subnet route one is its primary. A primary keeps the route as long as it
advertises it and is healthy, or no advertiser is healthy; otherwise the healthy advertiser of the
lowest id takes over. Whenever routes are set, or a health mark flips, all routes are elected again.
Clearing a mark alone elects nothing.
-/

namespace Headscale.Routes

open GoNetip Machine Std Option ExtTreeMap

/-! ## Route texts -/

def isExitRoute (route : String) : Bool := route = "0.0.0.0/0" ∨ route = "::/0"

/-- `parse_prefix_text`: the prefix as Go prints it, host bits included. -/
def parsePrefixText (text : String) : Except PrefixError String := do
  let (ip, bits) ← parsePrefix text
  return ip.toString ++ "/" ++ String.ofList (Text.decimal bits)

/-- A route text in canonical form. -/
def Canonical (route : String) : Prop := parsePrefixText route = .ok route

lemma parsePrefix_bits {text : String} {ip : IpAddr} {bits : Nat}
    (h : parsePrefix text = .ok (ip, bits)) : bits ≤ ip.family.bits := by
  unfold parsePrefix at h
  cases hchars : parsePrefixChars text.toList with
  | error problem => simp [hchars, Except.mapError] at h
  | ok parts =>
    simp only [hchars, Except.mapError, Except.ok.injEq] at h
    subst h
    unfold parsePrefixChars at hchars
    split at hchars
    · cases hchars
    split at hchars
    · cases hchars
    · cases hchars
    · split at hchars
      · cases hchars
      · split at hchars <;> cases hchars
        omega

/-- What a parsed text is printed as reads as itself. -/
theorem canonical_of_parse {text route : String} (h : parsePrefixText text = .ok route) :
    Canonical route := by
  obtain ⟨⟨ip, bits⟩, hparse, h⟩ := Result.bind_eq_ok.mp h
  cases h
  have hprinted : ip.toString ++ "/" ++ String.ofList (Text.decimal bits) =
      (IpNet.mk ip bits (parsePrefix_bits hparse)).toString := by
    apply String.toList_inj.mp
    simp [IpNet.toString, IpNet.chars, IpAddr.toString]
  unfold Canonical parsePrefixText
  rw [hprinted, parsePrefix_toString, ← hprinted]
  rfl

/-- The subnet routes of a node; a text that is no prefix fails the whole list. -/
def normalizePrimaryRoutes (routes : List String) : Except PrefixError (ExtTreeSet String) :=
  routes.foldlM (fun out route => do
    let route ← parsePrefixText route
    return if isExitRoute route then out else out.insert route) ∅

/-! ## Elections -/

structure PrimaryRouteState where
  routes : ExtTreeMap Nat (ExtTreeSet String) := ∅
  primaries : ExtTreeMap String Nat := ∅
  unhealthy : ExtTreeSet Nat := ∅
deriving DecidableEq

namespace PrimaryRouteState

def new : PrimaryRouteState := {}

def availableByRoute (s : PrimaryRouteState) : ExtTreeMap String (List Nat) :=
  TreeMap.index s.routes.toList ∅

/-- The current primary stays: it advertises the route and is healthy, or nobody else is. -/
def keepsPrimary (unhealthy : ExtTreeSet Nat) (nodes : List Nat) (current : Nat) : Bool :=
  current ∈ nodes ∧ (current ∉ unhealthy ∨ ∀ id ∈ nodes, id ∈ unhealthy)

/-- One pass of the election: the primaries, and whether any has changed. -/
def electPrimary (unhealthy : ExtTreeSet Nat) (elected : ExtTreeMap String Nat × Bool)
    (entry : String × List Nat) : ExtTreeMap String Nat × Bool :=
  let (route, nodes) := entry
  let (primaries, changed) := elected
  if primaries[route]?.any (keepsPrimary unhealthy nodes) then (primaries, changed)
  else
    match (nodes.find? (· ∉ unhealthy)).or (primaries[route]?.filter (· ∈ nodes)) with
    | some newPrimary => (primaries.insert route newPrimary, true)
    | none =>
      if primaries[route]?.isSome then (primaries.erase route, true) else (primaries, changed)

def removeStale (elected : ExtTreeMap String Nat × Bool) (route : String) :
    ExtTreeMap String Nat × Bool :=
  (elected.1.erase route, true)

def updatePrimaryLocked (s : PrimaryRouteState) : PrimaryRouteState × Bool :=
  let available := s.availableByRoute
  let elected := available.toList.foldl (electPrimary s.unhealthy) (s.primaries, false)
  let stale := elected.1.keys.filter fun route => route ∉ available
  let (primaries, changed) := stale.foldl removeStale elected
  ({ s with primaries := primaries }, changed)

/-- Who is elected for a route, from its advertisers and the current primary. -/
def elected (unhealthy : ExtTreeSet Nat) (nodes : List Nat) (current : Option Nat) : Option Nat :=
  if current.any (keepsPrimary unhealthy nodes) then current
  else (nodes.find? (· ∉ unhealthy)).or (current.filter (· ∈ nodes))

section Elected

variable {unhealthy : ExtTreeSet Nat} {nodes : List Nat} {current : Option Nat}

/-- Who is elected in place of a primary is another node. -/
theorem elected_ne_current (hkeeps : ¬ current.any (keepsPrimary unhealthy nodes) = true) {newPrimary : Nat}
    (h : (nodes.find? (· ∉ unhealthy)).or (current.filter (· ∈ nodes)) = some newPrimary) :
    current ≠ some newPrimary := by
  rintro rfl
  rw [any_some, keepsPrimary, decide_eq_true_eq] at hkeeps
  cases hfind : nodes.find? (· ∉ unhealthy) with
  | some found =>
    rw [hfind, some_or] at h
    obtain rfl := Option.some.inj h
    have hhealthy : found ∉ unhealthy := by simpa using List.find?_some hfind
    exact hkeeps ⟨List.mem_of_find?_eq_some hfind, .inl hhealthy⟩
  | none =>
    -- nobody is healthy, so that an advertising primary would have been kept
    rw [hfind, none_or] at h
    have hmem : newPrimary ∈ nodes := by simpa using (filter_eq_some_iff.mp h).2
    have hall : ∀ id ∈ nodes, id ∈ unhealthy := by simpa using List.find?_eq_none.mp hfind
    exact hkeeps ⟨hmem, .inr hall⟩

lemma mem_of_elected {p : Nat} (h : elected unhealthy nodes current = some p) : p ∈ nodes := by
  unfold elected at h
  split at h
  · rename_i hkeeps
    rw [h, any_some, keepsPrimary, decide_eq_true_eq] at hkeeps
    exact hkeeps.1
  · rw [or_eq_some_iff] at h
    obtain hfind | ⟨-, hfilter⟩ := h
    · exact List.mem_of_find?_eq_some hfind
    · simpa using (filter_eq_some_iff.mp hfilter).2

/-- A healthy advertiser means a healthy primary. -/
theorem elected_healthy (current : Option Nat) {id : Nat} (hid : id ∈ nodes)
    (hhealthy : id ∉ unhealthy) : ∃ p, elected unhealthy nodes current = some p ∧ p ∉ unhealthy := by
  unfold elected
  split
  · rename_i hkeeps
    cases current with
    | none => cases hkeeps
    | some p =>
      rw [any_some, keepsPrimary, decide_eq_true_eq] at hkeeps
      refine ⟨p, rfl, hkeeps.2.resolve_right fun hall => hhealthy (hall id hid)⟩
  · have hfound : (nodes.find? (· ∉ unhealthy)).isSome := by
      rw [List.find?_isSome]
      exact ⟨id, hid, by simpa using hhealthy⟩
    obtain ⟨p, hp⟩ := isSome_iff_exists.mp hfound
    exact ⟨p, by rw [hp, some_or], by simpa using List.find?_some hp⟩

lemma elected_sticky {p : Nat} (hp : p ∈ nodes) (hhealthy : p ∉ unhealthy) :
    elected unhealthy nodes (some p) = some p := by
  exact if_pos (by simp [keepsPrimary, hp, hhealthy])

@[simp] lemma elected_nil : elected unhealthy [] current = none := by
  cases current <;> simp [elected, keepsPrimary]

end Elected

section Pass

variable (unhealthy : ExtTreeSet Nat) (s : ExtTreeMap String Nat × Bool) (entry : String × List Nat)

lemma electPrimary_own :
    (electPrimary unhealthy s entry).1[entry.1]? = elected unhealthy entry.2 s.1[entry.1]? := by
  simp only [electPrimary, elected]
  split
  · rfl
  split
  · rename_i hnew
    rw [hnew]
    exact getElem?_insert_self
  rename_i hnone
  rw [hnone]
  split
  · exact getElem?_erase_self
  · rename_i habsent
    exact not_isSome_iff_eq_none.mp habsent

lemma electPrimary_other {route : String} (h : route ≠ entry.1) :
    (electPrimary unhealthy s entry).1[route]? = s.1[route]? := by
  simp only [electPrimary]
  split
  · rfl
  split
  · simp [ExtTreeMap.getElem?_insert, h.symm]
  · split
    · simp [getElem?_erase, h.symm]
    · rfl

lemma electPrimary_flag :
    (electPrimary unhealthy s entry).2 = true ↔
      s.2 = true ∨ (electPrimary unhealthy s entry).1[entry.1]? ≠ s.1[entry.1]? := by
  rw [electPrimary_own]
  simp only [electPrimary, elected]
  split
  · simp
  rename_i hkeeps
  split
  · rename_i newPrimary hnew
    rw [hnew]
    simpa using .inr (elected_ne_current hkeeps hnew).symm
  · rename_i hnone
    rw [hnone]
    cases hcurrent : s.1[entry.1]? <;> simp

lemma electPrimary_tracked : TreeMap.Tracked (electPrimary unhealthy) Prod.fst where
  other s entry _ h := electPrimary_other unhealthy s entry h
  own s s' entry h := by rw [electPrimary_own, electPrimary_own, h]
  flag s entry := electPrimary_flag unhealthy s entry

end Pass

lemma foldl_removeStale (stale : List String) (s : ExtTreeMap String Nat × Bool) :
    (∀ route, (stale.foldl removeStale s).1[route]? = if route ∈ stale then none else s.1[route]?) ∧
      ((stale.foldl removeStale s).2 = true ↔ s.2 = true ∨ stale ≠ []) := by
  induction stale generalizing s with
  | nil => simp
  | cons first rest ih =>
    obtain ⟨hget, hflag⟩ := ih (removeStale s first)
    refine ⟨fun route => ?_, ?_⟩
    · rw [List.foldl_cons, hget]
      by_cases hrest : route ∈ rest
      · simp [hrest]
      · by_cases hfirst : route = first
        · simp [hfirst, removeStale]
        · simp [hfirst, Ne.symm hfirst, removeStale, getElem?_erase]
    · rw [List.foldl_cons, hflag]
      simp [removeStale]

/-- The nodes that advertise the route, in the order of their ids. -/
def advertisers (s : PrimaryRouteState) (route : String) : List Nat :=
  TreeMap.holders s.routes.toList route

lemma mem_advertisers {s : PrimaryRouteState} {route : String} {id : Nat} :
    id ∈ s.advertisers route ↔ ∃ routes, s.routes[id]? = some routes ∧ route ∈ routes := by
  simp [advertisers, TreeMap.holders]

section Update

variable (s : PrimaryRouteState)

/-- The primaries after the passes over the routes that somebody advertises. -/
def passes : ExtTreeMap String Nat × Bool :=
  s.availableByRoute.toList.foldl (electPrimary s.unhealthy) (s.primaries, false)

lemma availableByRoute_get (route : String) :
    s.availableByRoute[route]? =
      if s.advertisers route = [] then none else some (s.advertisers route) := by
  rw [availableByRoute, TreeMap.getElem?_index, advertisers]
  split <;> simp

lemma mem_availableByRoute (route : String) :
    route ∈ s.availableByRoute ↔ s.advertisers route ≠ [] := by
  rw [mem_iff_isSome_getElem?, availableByRoute_get]
  split <;> simp [*]

variable {route : String}

lemma passes_available (h : s.advertisers route ≠ []) :
    s.passes.1[route]? = elected s.unhealthy (s.advertisers route) s.primaries[route]? := by
  have hentry : (route, s.advertisers route) ∈ s.availableByRoute.toList := by
    rw [mem_toList_iff_getElem?_eq_some, availableByRoute_get, if_neg h]
  have hown := (electPrimary_tracked s.unhealthy).foldl_own
    (TreeMap.nodup_keys_toList s.availableByRoute) hentry (s.primaries, false)
  exact hown.trans (electPrimary_own ..)

lemma passes_unavailable (h : s.advertisers route = []) :
    s.passes.1[route]? = s.primaries[route]? := by
  refine (electPrimary_tracked s.unhealthy).foldl_other (fun hmem => ?_) (s.primaries, false)
  rw [map_fst_toList_eq_keys, ExtTreeMap.mem_keys, mem_availableByRoute] at hmem
  exact hmem h

/-- The primaries of routes that nobody advertises any more. -/
def stale : List String := s.passes.1.keys.filter fun route => route ∉ s.availableByRoute

lemma mem_stale : route ∈ s.stale ↔ s.advertisers route = [] ∧ s.primaries[route]? ≠ none := by
  rw [stale, List.mem_filter, decide_eq_true_eq, mem_availableByRoute, not_not, ExtTreeMap.mem_keys,
    mem_iff_isSome_getElem?]
  constructor
  · rintro ⟨hsome, hnil⟩
    rw [s.passes_unavailable hnil] at hsome
    exact ⟨hnil, isSome_iff_ne_none.mp hsome⟩
  · rintro ⟨hnil, hsome⟩
    rw [s.passes_unavailable hnil]
    exact ⟨isSome_iff_ne_none.mpr hsome, hnil⟩

lemma updatePrimaryLocked_eq :
    s.updatePrimaryLocked = ({ s with primaries := (s.stale.foldl removeStale s.passes).1 },
      (s.stale.foldl removeStale s.passes).2) := rfl

/-- An election decides each route by its advertisers and its current primary. -/
theorem updatePrimaryLocked_get (route : String) :
    s.updatePrimaryLocked.1.primaries[route]? =
      elected s.unhealthy (s.advertisers route) s.primaries[route]? := by
  rw [updatePrimaryLocked_eq]
  simp only [(foldl_removeStale s.stale s.passes).1, mem_stale]
  by_cases hnil : s.advertisers route = []
  · rw [hnil, elected_nil, s.passes_unavailable hnil]
    simp
  · rw [if_neg fun hstale => hnil hstale.1, s.passes_available hnil]

/-- An election reports whether the primaries have changed. -/
theorem updatePrimaryLocked_changed :
    s.updatePrimaryLocked.2 = true ↔ s.updatePrimaryLocked.1.primaries ≠ s.primaries := by
  have hpasses : s.passes.2 = true ↔ ∃ route : String, s.passes.1[route]? ≠ s.primaries[route]? := by
    unfold passes
    simpa using (electPrimary_tracked s.unhealthy).foldl_flag
      (TreeMap.nodup_keys_toList s.availableByRoute) (s.primaries, false)
  have hne : s.updatePrimaryLocked.1.primaries ≠ s.primaries ↔
      ∃ route : String, s.updatePrimaryLocked.1.primaries[route]? ≠ s.primaries[route]? := by
    rw [Ne, ← not_forall]
    exact not_congr ⟨fun heq _ => by rw [heq], ExtTreeMap.ext_getElem?⟩
  rw [hne, updatePrimaryLocked_eq]
  simp only [(foldl_removeStale s.stale s.passes).1, (foldl_removeStale s.stale s.passes).2, hpasses]
  constructor
  · rintro (⟨route, hroute⟩ | hstale)
    · -- the passes change no route that goes stale
      refine ⟨route, ?_⟩
      rwa [if_neg]
      intro hmem
      exact hroute (s.passes_unavailable (s.mem_stale.mp hmem).1)
    · obtain ⟨route, hmem⟩ := List.exists_mem_of_ne_nil _ hstale
      exact ⟨route, by rw [if_pos hmem]; exact (s.mem_stale.mp hmem).2.symm⟩
  · rintro ⟨route, hroute⟩
    by_cases hmem : route ∈ s.stale
    · exact .inr (List.ne_nil_of_mem hmem)
    · rw [if_neg hmem] at hroute
      exact .inl ⟨route, hroute⟩

end Update

/-! ## Calls -/

def setRoutes (s : PrimaryRouteState) (nodeId : Nat) (routes : List String) :
    PrimaryRouteState × Except PrefixError Bool :=
  match normalizePrimaryRoutes routes with
  | .error error => (s, .error error)
  | .ok routes =>
    let s :=
      if routes.isEmpty then
        { s with routes := s.routes.erase nodeId, unhealthy := s.unhealthy.erase nodeId }
      else { s with routes := s.routes.insert nodeId routes }
    s.updatePrimaryLocked.map id .ok

/-- The new route table; nodes without subnet routes have no entry. -/
def collectRoutes (nodes : List (Nat × List String)) :
    Except PrefixError (ExtTreeMap Nat (ExtTreeSet String)) :=
  nodes.foldlM (fun table node => do
    let normalized ← normalizePrimaryRoutes node.2
    return if normalized.isEmpty then table else table.insert node.1 normalized) ∅

def syncRoutes (s : PrimaryRouteState) (nodes : List (Nat × List String)) :
    PrimaryRouteState × Except PrefixError Bool :=
  match collectRoutes nodes with
  | .error error => (s, .error error)
  | .ok routes =>
    let s := { s with routes := routes, unhealthy := s.unhealthy.filter (· ∈ routes) }
    s.updatePrimaryLocked.map id .ok

/-- Sets or clears an unhealthy mark, and says whether it was the other way before. -/
def mark (unhealthy : ExtTreeSet Nat) (nodeId : Nat) (healthy : Bool) : ExtTreeSet Nat × Bool :=
  if healthy then (unhealthy.erase nodeId, nodeId ∈ unhealthy)
  else (unhealthy.insert nodeId, nodeId ∉ unhealthy)

def markBatch (unhealthy : ExtTreeSet Nat) (updates : List (Nat × Bool)) : ExtTreeSet Nat × Bool :=
  updates.foldl (fun marked update =>
    let (unhealthy, changed) := mark marked.1 update.1 update.2
    (unhealthy, marked.2 || changed)) (unhealthy, false)

def setNodeHealth (s : PrimaryRouteState) (nodeId : Nat) (healthy : Bool) : PrimaryRouteState × Bool :=
  let (unhealthy, changed) := mark s.unhealthy nodeId healthy
  let s := { s with unhealthy := unhealthy }
  if changed then s.updatePrimaryLocked else (s, false)

def setNodeHealthBatch (s : PrimaryRouteState) (updates : List (Nat × Bool)) :
    PrimaryRouteState × Bool :=
  let (unhealthy, changed) := markBatch s.unhealthy updates
  let s := { s with unhealthy := unhealthy }
  if changed then s.updatePrimaryLocked else (s, false)

/-- No election follows. -/
def clearUnhealthy (s : PrimaryRouteState) (nodeId : Nat) : PrimaryRouteState :=
  { s with unhealthy := s.unhealthy.erase nodeId }

end PrimaryRouteState

/-! ## Runs -/

open PrimaryRouteState

inductive RouteCall where
  | setRoutes (nodeId : Nat) (routes : List String)
  | syncRoutes (nodes : List (Nat × List String))
  | setNodeHealth (nodeId : Nat) (healthy : Bool)
  | setNodeHealthBatch (updates : List (Nat × Bool))
  | clearUnhealthy (nodeId : Nat)
deriving DecidableEq, Repr

namespace RouteCall

/-- The state after a call and its reply, if it has one. -/
def run (s : PrimaryRouteState) :
    RouteCall → PrimaryRouteState × Option (Except PrefixError Bool)
  | .setRoutes nodeId routes => (s.setRoutes nodeId routes).map id some
  | .syncRoutes nodes => (s.syncRoutes nodes).map id some
  | .setNodeHealth nodeId healthy => (s.setNodeHealth nodeId healthy).map id (some ∘ .ok)
  | .setNodeHealthBatch updates => (s.setNodeHealthBatch updates).map id (some ∘ .ok)
  | .clearUnhealthy nodeId => (s.clearUnhealthy nodeId, none)

/-- The call sets routes without error, or flips a health mark. -/
def elects (s : PrimaryRouteState) : RouteCall → Bool
  | .setRoutes _ routes => (normalizePrimaryRoutes routes).isOk
  | .syncRoutes nodes => (collectRoutes nodes).isOk
  | .setNodeHealth nodeId healthy => (mark s.unhealthy nodeId healthy).2
  | .setNodeHealthBatch updates => (markBatch s.unhealthy updates).2
  | .clearUnhealthy _ => false

end RouteCall

def primaryRoutes : System PrimaryRouteState RouteCall where
  init s := s = new
  step s call s' := s' = (call.run s).1

/-- A route text that a primary may be elected for. -/
def SubnetRoute (route : String) : Prop := Canonical route ∧ isExitRoute route = false

/-- The route table holds subnet routes only. -/
def PrimaryRouteState.RoutesNormal (s : PrimaryRouteState) : Prop :=
  ∀ (id : Nat) routes, s.routes[id]? = some routes → ∀ route ∈ routes, SubnetRoute route

lemma normalizePrimaryRoutes_normal {routes : List String} {normalized : ExtTreeSet String}
    (h : normalizePrimaryRoutes routes = .ok normalized) : ∀ route ∈ normalized, SubnetRoute route := by
  unfold normalizePrimaryRoutes at h
  refine Result.foldlM_invariant (P := fun out : ExtTreeSet String => ∀ route ∈ out, SubnetRoute route)
    (fun out text out' hout hstep => ?_) (fun route hroute => ?_) h
  · obtain ⟨parsed, hparsed, hstep⟩ := Result.bind_eq_ok.mp hstep
    cases hstep
    split
    · exact hout
    rename_i hexit
    intro route hroute
    obtain heq | hroute := ExtTreeSet.mem_insert.mp hroute
    · obtain rfl := LawfulEqOrd.eq_of_compare heq
      exact ⟨canonical_of_parse hparsed, Bool.eq_false_iff.mpr hexit⟩
    · exact hout route hroute
  · simp at hroute

lemma collectRoutes_normal {nodes : List (Nat × List String)}
    {table : ExtTreeMap Nat (ExtTreeSet String)}
    (h : collectRoutes nodes = .ok table) :
    ∀ (id : Nat) routes, table[id]? = some routes → ∀ route ∈ routes, SubnetRoute route := by
  unfold collectRoutes at h
  refine Result.foldlM_invariant
    (P := fun table : ExtTreeMap Nat (ExtTreeSet String) =>
      ∀ (id : Nat) routes, table[id]? = some routes → ∀ route ∈ routes, SubnetRoute route)
    (fun table node table' htable hstep => ?_) (fun id routes hget => ?_) h
  · obtain ⟨normalized, hnormalized, hstep⟩ := Result.bind_eq_ok.mp hstep
    cases hstep
    split
    · exact htable
    intro id routes hget
    obtain ⟨-, rfl⟩ | ⟨-, hget⟩ := TreeMap.getElem?_of_insert hget
    · exact normalizePrimaryRoutes_normal hnormalized
    · exact htable id routes hget
  · simp at hget

/-- What a call does: an election over a new route table or new marks, or nothing to the routes and the
primaries. -/
inductive RouteStep (s : PrimaryRouteState) (call : RouteCall) : Prop where
  | elects (mid : PrimaryRouteState) (helects : call.elects s = true)
      (hroutes : s.RoutesNormal → mid.RoutesNormal) (hprimaries : mid.primaries = s.primaries)
      (hrun : call.run s = (mid.updatePrimaryLocked.1, some (.ok mid.updatePrimaryLocked.2)))
  | keeps (helects : call.elects s = false) (hroutes : (call.run s).1.routes = s.routes)
      (hprimaries : (call.run s).1.primaries = s.primaries)

lemma RouteCall.run_step (s : PrimaryRouteState) (call : RouteCall) : RouteStep s call := by
  cases call with
  | setRoutes nodeId routes =>
    cases hnormalized : normalizePrimaryRoutes routes with
    | error error =>
      refine .keeps ?_ ?_ ?_ <;>
        simp [elects, run, PrimaryRouteState.setRoutes, hnormalized, Except.toBool]
    | ok normalized =>
      refine .elects (if normalized.isEmpty then
        { s with routes := s.routes.erase nodeId, unhealthy := s.unhealthy.erase nodeId }
        else { s with routes := s.routes.insert nodeId normalized }) ?_ ?_ ?_ ?_
      · simp [elects, hnormalized, Except.toBool]
      · intro hnormal id routes hget
        split at hget
        · exact hnormal id routes (TreeMap.getElem?_of_erase hget).2
        · obtain ⟨-, rfl⟩ | ⟨-, hget⟩ := TreeMap.getElem?_of_insert hget
          · exact normalizePrimaryRoutes_normal hnormalized
          · exact hnormal id routes hget
      · split <;> rfl
      · simp [run, PrimaryRouteState.setRoutes, hnormalized, Prod.map]
  | syncRoutes nodes =>
    cases hcollected : PrimaryRouteState.collectRoutes nodes with
    | error error =>
      refine .keeps ?_ ?_ ?_ <;>
        simp [elects, run, PrimaryRouteState.syncRoutes, hcollected, Except.toBool]
    | ok table =>
      refine .elects { s with routes := table, unhealthy := s.unhealthy.filter (· ∈ table) }
        ?_ (fun _ => collectRoutes_normal hcollected) rfl ?_
      · simp [elects, hcollected, Except.toBool]
      · simp [run, PrimaryRouteState.syncRoutes, hcollected, Prod.map]
  | setNodeHealth nodeId healthy =>
    by_cases hflips : (PrimaryRouteState.mark s.unhealthy nodeId healthy).2 = true
    · refine .elects { s with unhealthy := (PrimaryRouteState.mark s.unhealthy nodeId healthy).1 }
        hflips (fun h => h) rfl ?_
      simp [run, PrimaryRouteState.setNodeHealth, hflips, Prod.map]
    · refine .keeps (Bool.eq_false_iff.mpr hflips) ?_ ?_ <;>
        simp [run, PrimaryRouteState.setNodeHealth, hflips]
  | setNodeHealthBatch updates =>
    by_cases hflips : (PrimaryRouteState.markBatch s.unhealthy updates).2 = true
    · refine .elects { s with unhealthy := (PrimaryRouteState.markBatch s.unhealthy updates).1 }
        hflips (fun h => h) rfl ?_
      simp [run, PrimaryRouteState.setNodeHealthBatch, hflips, Prod.map]
    · refine .keeps (Bool.eq_false_iff.mpr hflips) ?_ ?_ <;>
        simp [run, PrimaryRouteState.setNodeHealthBatch, hflips]
  | clearUnhealthy nodeId => exact .keeps rfl rfl rfl

/-- The table holds subnet routes, and a primary advertises its route. -/
structure PrimariesAdvertised (s : PrimaryRouteState) : Prop where
  normal : s.RoutesNormal
  advertised : ∀ (route : String) p, s.primaries[route]? = some p → p ∈ s.advertisers route

lemma PrimariesAdvertised.run {s : PrimaryRouteState} (h : PrimariesAdvertised s) (call : RouteCall) :
    PrimariesAdvertised (call.run s).1 := by
  cases call.run_step s with
  | elects mid _ hroutes _ hrun =>
    rw [hrun]
    refine ⟨hroutes h.normal, fun route p hp => ?_⟩
    rw [updatePrimaryLocked_get] at hp
    exact mem_of_elected hp
  | keeps _ hroutes hprimaries =>
    refine ⟨fun id => ?_, fun route p hp => ?_⟩
    · rw [hroutes]
      exact h.normal id
    · rw [hprimaries] at hp
      unfold advertisers
      rw [hroutes]
      exact h.advertised route p hp

lemma primariesAdvertised_of_reachable {s : PrimaryRouteState} (h : primaryRoutes.Reachable s) :
    PrimariesAdvertised s := by
  refine h.invariant ?_ ?_
  · rintro s rfl
    refine ⟨fun id routes hget => ?_, fun route p hp => ?_⟩
    · simp [new] at hget
    · simp [new] at hp
  · rintro s call _ hinv rfl _
    exact hinv.run call

/-- The node advertises the route. -/
def PrimaryRouteState.Advertises (s : PrimaryRouteState) (id : Nat) (route : String) : Prop :=
  ∃ routes, s.routes[id]? = some routes ∧ route ∈ routes

/-- In every state that calls reach from the empty one, primaries are of canonical subnet routes that
they advertise. A call that sets routes or flips a mark gives every route with a healthy advertiser a
healthy primary, displaces no healthy primary that still advertises its route, leaves an unhealthy one
only where all advertisers are unhealthy, and reports whether the primaries have changed. -/
theorem primaryRoutes_elected {s : PrimaryRouteState} (h : primaryRoutes.Reachable s) :
    (∀ (route : String) p, s.primaries[route]? = some p →
      Canonical route ∧ isExitRoute route = false ∧ s.Advertises p route) ∧
    ∀ call : RouteCall, call.elects s = true →
      let s' := (call.run s).1
      (∀ (route : String) id, s'.Advertises id route → id ∉ s'.unhealthy →
        ∃ p, s'.primaries[route]? = some p ∧ p ∉ s'.unhealthy) ∧
      (∀ (route : String) p, s.primaries[route]? = some p → s'.Advertises p route →
        p ∉ s'.unhealthy → s'.primaries[route]? = some p) ∧
      (∀ (route : String) p, s'.primaries[route]? = some p → p ∈ s'.unhealthy →
        ∀ id, s'.Advertises id route → id ∈ s'.unhealthy) ∧
      (call.run s).2 = some (.ok (decide (s'.primaries ≠ s.primaries))) := by
  have hinv := primariesAdvertised_of_reachable h
  refine ⟨fun route p hp => ?_, fun call helects => ?_⟩
  · have hadvertises := mem_advertisers.mp (hinv.advertised route p hp)
    obtain ⟨routes, hget, hroute⟩ := hadvertises
    obtain ⟨hcanonical, hexit⟩ := hinv.normal p routes hget route hroute
    exact ⟨hcanonical, hexit, routes, hget, hroute⟩
  · cases call.run_step s with
    | keeps hkeeps =>
      rw [helects] at hkeeps
      cases hkeeps
    | elects mid _ _ hprimaries hrun =>
      have hget := mid.updatePrimaryLocked_get
      have hchanged := mid.updatePrimaryLocked_changed
      rw [hprimaries] at hchanged
      rw [hrun]
      -- the election leaves the table and the marks of `mid`
      refine ⟨fun route id hid hhealthy => ?_, fun route p hp hadvertises hhealthy => ?_,
        fun route p hp hunhealthy id hid => ?_, ?_⟩
      · rw [hget]
        exact elected_healthy _ (mem_advertisers.mpr hid) hhealthy
      · rw [hget, hprimaries, hp]
        exact elected_sticky (mem_advertisers.mpr hadvertises) hhealthy
      · by_contra hhealthy
        have hid : id ∈ mid.advertisers route := mem_advertisers.mpr hid
        have hhealthy : id ∉ mid.unhealthy := hhealthy
        obtain ⟨p', hp', hhealthy'⟩ :=
          elected_healthy mid.primaries[route]? hid hhealthy
        rw [hget, hp'] at hp
        cases hp
        exact hhealthy' hunhealthy
      · rw [Option.some.injEq, Except.ok.injEq, Bool.eq_iff_iff, decide_eq_true_eq]
        exact hchanged

section Sequence

/-- Two routers of one route, of which the first becomes unhealthy. -/
def failoverCalls : List RouteCall :=
  [.setRoutes 1 ["10.0.0.0/24"], .setRoutes 2 ["10.0.0.0/24", "0.0.0.0/0"]]

def failoverState : PrimaryRouteState :=
  failoverCalls.foldl (fun s call => (call.run s).1) new

lemma failoverState_reachable : primaryRoutes.Reachable failoverState :=
  .step (.step (.init rfl) (a := .setRoutes 1 ["10.0.0.0/24"]) rfl trivial)
    (a := .setRoutes 2 ["10.0.0.0/24", "0.0.0.0/0"]) rfl trivial

/-- The first router owns the route until it is marked, and the second takes over. -/
theorem failoverState_elected :
    failoverState.primaries["10.0.0.0/24"]? = some 1 ∧ Canonical "10.0.0.0/24" ∧
      ∃ p, ((RouteCall.setNodeHealth 1 false).run failoverState).1.primaries["10.0.0.0/24"]? = some p ∧
        p ∉ ((RouteCall.setNodeHealth 1 false).run failoverState).1.unhealthy := by
  obtain ⟨hprimaries, hcalls⟩ := primaryRoutes_elected failoverState_reachable
  have hfirst : failoverState.primaries["10.0.0.0/24"]? = some 1 := by decide +kernel
  obtain ⟨hhealthy, -⟩ := hcalls (.setNodeHealth 1 false) (by decide +kernel)
  refine ⟨hfirst, (hprimaries _ _ hfirst).1, hhealthy "10.0.0.0/24" 2 ?_ (by decide +kernel)⟩
  exact ⟨.ofList ["10.0.0.0/24"], by decide +kernel, by decide +kernel⟩

end Sequence

end Headscale.Routes
