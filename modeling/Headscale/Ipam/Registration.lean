import Headscale.Ipam.Pool
import Headscale.Lib.TreeMap

/-!
# Addresses of registered nodes

An auth-key registration that creates a node allocates its addresses first. After that the hostinfo is
encoded, the key is claimed and the node is stored, and each of these may fail. The addresses are given
back when a node is deleted, and nowhere else: those of a registration that failed stay used.

Registrations and deletions run one at a time. Of a live node only the machine key and the addresses
are kept here.
-/

namespace Headscale.Ipam

open Std Machine GoNetip CidrIpAllocator Option ExtTreeMap

/-! ## Nodes -/

structure LiveNode where
  machineKeyHex : String
  ipv4 : Option (Fin (2 ^ 32)) := none
  ipv6 : Option (Fin (2 ^ 128)) := none
deriving DecidableEq, Repr

def LiveNode.addrs (node : LiveNode) : List IpAddr :=
  (node.ipv4.map .v4).toList ++ (node.ipv6.map .v6).toList

structure Server where
  allocator : CidrIpAllocator
  /-- The live nodes by node key. -/
  nodes : ExtTreeMap String LiveNode
deriving DecidableEq

/-! ## Registration -/

/-- Where a registration may fail once its addresses are known. -/
inductive RegisterFailure where
  | existingHostinfo (error : String)
  | hostinfo (error : String)
  | credential (error : String)
  | storage (error : String)
deriving DecidableEq, Repr

inductive RegisterError where
  | otherMachine
  | addresses (error : PairError)
  | noPrefixes
  | failed (failure : RegisterFailure)
deriving DecidableEq

def RegisterError.text : RegisterError → String
  | .otherMachine => "handling register with auth key: node key already in use by another machine"
  | .addresses error =>
    "handling register with auth key: creating new node: allocating IPs: " ++ error.text
  | .noPrefixes =>
    "handling register with auth key: creating new node: allocating IPs: no IP prefixes enabled"
  | .failed (.existingHostinfo error) => "encoding existing Hostinfo: " ++ error
  | .failed (.hostinfo error) => "encoding registration Hostinfo: " ++ error
  | .failed (.credential error) => error
  | .failed (.storage error) => "handling register with auth key: " ++ error

structure RegisterCall where
  nodeKeyHex : String
  machineKeyHex : String
  /-- The key of the node that the machine has already. -/
  existing : Option String := none
  draws4 : Draws := []
  draws6 : Draws := []
  failure : Option RegisterFailure := none
  /-- An error after the node was published, as of approving its routes. -/
  late : Option String := none
deriving DecidableEq

def asIpv4 : IpAddr → Option (Fin (2 ^ 32))
  | .v4 value => some value
  | .v6 _ => none

def asIpv6 : IpAddr → Option (Fin (2 ^ 128))
  | .v4 _ => none
  | .v6 value => some value

namespace Server

/-- The rest of a registration, once its addresses are known. Nobody takes the node key of another
node. -/
def finishRegistration (server : Server) (call : RegisterCall) (node : LiveNode) :
    Except RegisterError LiveNode × Server :=
  match call.failure with
  | some failure => (.error (.failed failure), server)
  | none =>
    if call.existing ≠ some call.nodeKeyHex ∧ call.nodeKeyHex ∈ server.nodes then
      (.error (.failed (.storage "node key already exists")), server)
    else
      let nodes :=
        match call.existing with
        | some key => server.nodes.erase key
        | none => server.nodes
      let published := { server with nodes := nodes.insert call.nodeKeyHex node }
      match call.late with
      | some error => (.error (.failed (.storage error)), published)
      | none => (.ok node, published)

/-- The addresses of a new node. -/
def allocateRegisterIps (server : Server) (call : RegisterCall) :
    Option (Except RegisterError LiveNode × Server) :=
  (server.allocator.allocateAddresses call.draws4 call.draws6).map fun (result, allocator) =>
    let server := { server with allocator := allocator }
    match result with
    | .error error => (.error (.addresses error), server)
    | .ok (none, none) => (.error .noPrefixes, server)
    | .ok (ipv4, ipv6) =>
      (.ok ⟨call.machineKeyHex, ipv4.bind asIpv4, ipv6.bind asIpv6⟩, server)

/-- A node that the machine has already keeps its addresses. -/
def registerAuthKey (server : Server) (call : RegisterCall) :
    Option (Except RegisterError LiveNode × Server) :=
  if (server.nodes[call.nodeKeyHex]?).any (·.machineKeyHex ≠ call.machineKeyHex) then
    some (.error .otherMachine, server)
  else
    match call.existing with
    | some key => (server.nodes[key]?).map (server.finishRegistration call)
    | none =>
      (server.allocateRegisterIps call).map fun
        | (.ok node, server) => server.finishRegistration call node
        | (.error error, server) => (.error error, server)

def tryDelete (server : Server) (nodeKeyHex : String) : Bool × Server :=
  match server.nodes[nodeKeyHex]? with
  | none => (false, server)
  | some node =>
    (true,
      { allocator := server.allocator.releaseAddresses node.ipv4 node.ipv6
        nodes := server.nodes.erase nodeKeyHex })

end Server

inductive Event where
  | register (call : RegisterCall)
  | delete (nodeKeyHex : String)
deriving DecidableEq

def Server.apply (server : Server) : Event → Option Server
  | .register call => (server.registerAuthKey call).map (·.2)
  | .delete nodeKeyHex => some (server.tryDelete nodeKeyHex).2

/-! ## The used addresses are those of live nodes -/

namespace Server

/-- Some live node has the address. -/
def Live (server : Server) (ip : IpAddr) : Prop :=
  ∃ key node, server.nodes[(key : String)]? = some node ∧ ip ∈ node.addrs

/-- The ends of a prefix aside, the used addresses of an enabled family are those of live nodes. -/
def Exact (server : Server) : Prop :=
  ∀ ip range, server.allocator.range ip.family = some range → ip.value ≠ range.network →
    ip.value ≠ range.last → (ip.value ∈ server.allocator.used ip.family ↔ server.Live ip)

/-- The step loses no address: a registration that is given addresses becomes a node, and a node that
is deleted shares its addresses with no other. -/
def Keeps (server : Server) : Event → Server → Prop
  | .register call, _ =>
    call.existing = none →
      server.allocator.leaks (.allocateAddresses call.draws4 call.draws6) = false ∧
      ∀ pair allocator,
        server.allocator.allocateAddresses call.draws4 call.draws6 = some (.ok pair, allocator) →
        call.failure = none ∧ call.nodeKeyHex ∉ server.nodes
  | .delete nodeKeyHex, _ =>
    ∀ node, server.nodes[nodeKeyHex]? = some node → ∀ ip ∈ node.addrs, ∀ key other,
      server.nodes[(key : String)]? = some other → ip ∈ other.addrs → key = nodeKeyHex

end Server

def servers : System Server Event where
  init server := server.allocator.Valid ∧ server.Exact
  step server event server' := server.apply event = some server'

/-! ### What a registration is given -/

variable {ip : Option IpAddr}

lemma toList_asIpv4 (h : ∀ value ∈ ip, value.family = .v4) :
    ((ip.bind asIpv4).map IpAddr.v4).toList = ip.toList := by
  cases ip with
  | none => rfl
  | some value =>
    cases value with
    | v4 value => rfl
    | v6 value => cases h _ rfl

lemma toList_asIpv6 (h : ∀ value ∈ ip, value.family = .v6) :
    ((ip.bind asIpv6).map IpAddr.v6).toList = ip.toList := by
  cases ip with
  | none => rfl
  | some value =>
    cases value with
    | v4 value => cases h _ rfl
    | v6 value => rfl

lemma allocateAddresses_families {allocator allocator' : CidrIpAllocator} (hvalid : allocator.Valid)
    {draws4 draws6 : Draws} {ipv4 ipv6 : Option IpAddr}
    (h : allocator.allocateAddresses draws4 draws6 = some (.ok (ipv4, ipv6), allocator')) :
    (∀ ip ∈ ipv4, ip.family = .v4) ∧ ∀ ip ∈ ipv6, ip.family = .v6 := by
  have hipv6 : ∀ {mid : CidrIpAllocator} {ip : Option IpAddr}, mid.Valid →
      mid.allocateIpv6Inner draws6 = some (.ok ip, allocator') → ∀ value ∈ ip, value.family = .v6 := by
    intro mid ip hmid hinner
    obtain ⟨hok, -⟩ | ⟨value, hok, hfamily, -⟩ | ⟨error, hok, -⟩ :=
      allocateIpv6Inner_cases hmid hinner
    · cases hok
      exact nofun
    · cases hok
      rintro _ ⟨⟩
      exact hfamily
    · cases hok
  obtain ⟨-, six, hinner, hresult⟩ | ⟨error, -, hresult⟩ | ⟨four, mid, six, hfour, hinner, hresult⟩ :=
    allocateAddresses_cases h
  · cases six with
    | error error => cases hresult
    | ok ip =>
      cases hresult
      exact ⟨nofun, hipv6 hvalid hinner⟩
  · cases hresult
  · obtain ⟨ip, hok, hfamily, hoffers, rfl⟩ | ⟨error, hok, -⟩ :=
      allocateIpv4Inner_cases hvalid hfour
    · cases hok
      cases six with
      | error error => cases hresult
      | ok ip6 =>
        cases hresult
        refine ⟨?_, hipv6 (hvalid.takes hoffers) hinner⟩
        rintro _ ⟨⟩
        exact hfamily
    · cases hok

namespace Server

variable {server server' : Server} {call : RegisterCall}

/-- A new node is given addresses that were free, and they are used from then on; without a node the
used addresses stay as they were, if no half of a pair is lost. -/
theorem allocateRegisterIps_cases (hvalid : server.allocator.Valid)
    {result : Except RegisterError LiveNode}
    (hleaks : server.allocator.leaks (.allocateAddresses call.draws4 call.draws6) = false)
    (h : server.allocateRegisterIps call = some (result, server')) :
    server'.allocator.Valid ∧ (∀ f, server'.allocator.range f = server.allocator.range f) ∧
      server'.nodes = server.nodes ∧
      match result with
      | .ok node =>
        (∃ pair allocator, server.allocator.allocateAddresses call.draws4 call.draws6 =
          some (.ok pair, allocator)) ∧
        ∀ f, server'.allocator.used f = server.allocator.used f ∪ valuesOf f node.addrs
      | .error _ => ∀ f, server'.allocator.used f = server.allocator.used f := by
  obtain ⟨⟨pair, allocator⟩, hpair, heq⟩ := map_eq_some_iff.mp h
  have hrun : ∀ reply, server.allocator.run (.allocateAddresses call.draws4 call.draws6) =
      some (reply, allocator) → allocator.Valid ∧
        (∀ f, allocator.range f = server.allocator.range f) ∧
        ∀ f, allocator.used f = server.allocator.used f ∪ valuesOf f reply.handed := by
    intro reply hrun
    obtain ⟨hvalid', hrange⟩ := valid_run hvalid hrun
    obtain ⟨taken, heffect⟩ := run_effect hvalid hrun
    refine ⟨hvalid', hrange, fun f => ?_⟩
    rw [heffect.used, heffect.handed_of_leak_free hleaks]
    simp [Call.released, valuesOf]
  cases pair with
  | error error =>
    cases heq
    obtain ⟨hvalid', hrange, hused⟩ := hrun (.pairFailed error) (by simp [run, hpair])
    exact ⟨hvalid', hrange, rfl, fun f => by simp [hused, Reply.handed, valuesOf]⟩
  | ok pair =>
    obtain ⟨ipv4, ipv6⟩ := pair
    obtain ⟨hvalid', hrange, hused⟩ := hrun (.pair ipv4 ipv6) (by simp [run, hpair])
    obtain ⟨h4, h6⟩ := allocateAddresses_families hvalid hpair
    have haddrs : (LiveNode.mk call.machineKeyHex (ipv4.bind asIpv4) (ipv6.bind asIpv6)).addrs =
        (Reply.pair ipv4 ipv6).handed := by
      rw [LiveNode.addrs, toList_asIpv4 h4, toList_asIpv6 h6, Reply.handed]
    obtain ⟨rfl, rfl⟩ | ⟨hresult, rfl⟩ : (ipv4 = none ∧ ipv6 = none) ∨
        (result = .ok ⟨call.machineKeyHex, ipv4.bind asIpv4, ipv6.bind asIpv6⟩ ∧
          server' = { server with allocator := allocator }) := by
      cases ipv4 <;> cases ipv6 <;> first
        | exact .inl ⟨rfl, rfl⟩
        | exact .inr ⟨(Prod.mk.inj heq).1.symm, (Prod.mk.inj heq).2.symm⟩
    · cases heq
      exact ⟨hvalid', hrange, rfl, fun f => by simp [hused, Reply.handed, valuesOf]⟩
    · subst hresult
      refine ⟨hvalid', hrange, rfl, ⟨_, allocator, hpair⟩, fun f => ?_⟩
      rw [hused, haddrs]

/-- A registration that does not fail too early publishes its node. -/
theorem finishRegistration_cases (server : Server) (call : RegisterCall) (node : LiveNode) :
    ((server.finishRegistration call node).2 = server ∧
      (call.failure = none →
        call.existing ≠ some call.nodeKeyHex ∧ call.nodeKeyHex ∈ server.nodes)) ∨
    ((call.existing ≠ some call.nodeKeyHex → call.nodeKeyHex ∉ server.nodes) ∧
      (server.finishRegistration call node).2 =
        { server with
          nodes := (call.existing.elim server.nodes server.nodes.erase).insert call.nodeKeyHex node }) := by
  unfold finishRegistration
  split
  · rename_i failure hfailure
    exact .inl ⟨rfl, fun h => by simp [h] at hfailure⟩
  split
  · rename_i hheld
    exact .inl ⟨rfl, fun _ => hheld⟩
  · rename_i hfree
    refine .inr ⟨fun hexisting hmem => hfree ⟨hexisting, hmem⟩, ?_⟩
    cases call.existing <;> cases call.late <;> rfl

variable {key : String} {node : LiveNode} {nodes : ExtTreeMap String LiveNode}
  {allocator : CidrIpAllocator}

/-- What is live after a node was stored under a key that no other node has. -/
theorem live_insert (hkey : key ∉ nodes) (ip : IpAddr) :
    Live ⟨allocator, nodes.insert key node⟩ ip ↔ ip ∈ node.addrs ∨ Live ⟨allocator, nodes⟩ ip := by
  simp only [Live, ExtTreeMap.getElem?_insert, Std.compare_eq_iff_eq]
  constructor
  · rintro ⟨other, found, hfound, hip⟩
    split at hfound
    · cases hfound
      exact .inl hip
    · exact .inr ⟨other, found, hfound, hip⟩
  · rintro (hip | ⟨other, found, hfound, hip⟩)
    · exact ⟨key, node, by simp, hip⟩
    · refine ⟨other, found, ?_, hip⟩
      rw [if_neg, hfound]
      rintro rfl
      exact hkey (mem_iff_isSome_getElem?.mpr (by simp [hfound]))

/-- What was live before a node was taken away. -/
theorem live_erase (hkey : nodes[key]? = some node) (ip : IpAddr) :
    Live ⟨allocator, nodes⟩ ip ↔ ip ∈ node.addrs ∨ Live ⟨allocator, nodes.erase key⟩ ip := by
  simp only [Live, getElem?_erase, Std.compare_eq_iff_eq]
  constructor
  · rintro ⟨other, found, hfound, hip⟩
    by_cases hother : key = other
    · subst hother
      cases hkey.symm.trans hfound
      exact .inl hip
    · exact .inr ⟨other, found, by rw [if_neg hother, hfound], hip⟩
  · rintro (hip | ⟨other, found, hfound, hip⟩)
    · exact ⟨key, node, hkey, hip⟩
    · split at hfound
      · cases hfound
      · exact ⟨other, found, hfound, hip⟩

/-! ### Steps -/

/-- A node that registers again keeps its addresses, under whichever key. -/
theorem live_rekey (hkey : server.nodes[key]? = some node) (hexisting : call.existing = some key)
    (ip : IpAddr) : (server.finishRegistration call node).2.Live ip ↔ server.Live ip := by
  obtain ⟨hsame, -⟩ | ⟨hfree, hafter⟩ := finishRegistration_cases server call node
  · rw [hsame]
  have hnew : call.nodeKeyHex ∉ server.nodes.erase key := by
    rw [mem_erase]
    rintro ⟨hne, hmem⟩
    refine hfree (fun h => ?_) hmem
    rw [hexisting, Option.some.injEq] at h
    simp [h] at hne
  rw [hafter, hexisting, elim_some, live_insert hnew, live_erase hkey]

lemma allocator_finishRegistration (server : Server) (call : RegisterCall) (node : LiveNode) :
    (server.finishRegistration call node).2.allocator = server.allocator := by
  obtain ⟨hsame, -⟩ | ⟨-, hafter⟩ := finishRegistration_cases server call node
  · rw [hsame]
  · rw [hafter]

/-- Both parts of the run invariant. -/
structure Consistent (server : Server) : Prop where
  valid : server.allocator.Valid
  exact : server.Exact

lemma Exact.of_same (hexact : server.Exact)
    (hrange : ∀ f, server'.allocator.range f = server.allocator.range f)
    (hused : ∀ f, server'.allocator.used f = server.allocator.used f)
    (hlive : ∀ ip, server'.Live ip ↔ server.Live ip) : server'.Exact := by
  intro ip range hget hnetwork hlast
  rw [hrange] at hget
  rw [hused, hlive]
  exact hexact ip range hget hnetwork hlast

lemma Consistent.register (hserver : server.Consistent)
    (hstep : server.apply (.register call) = some server')
    (hkeeps : server.Keeps (.register call) server') : server'.Consistent := by
  obtain ⟨⟨result, after⟩, hregister, rfl⟩ := map_eq_some_iff.mp hstep
  unfold registerAuthKey at hregister
  split at hregister
  · obtain ⟨-, rfl⟩ := Prod.mk.inj (Option.some.inj hregister)
    exact hserver
  split at hregister
  · rename_i key hexisting
    obtain ⟨node, hnode, hfinish⟩ := map_eq_some_iff.mp hregister
    have hallocator := allocator_finishRegistration server call node
    have hlive := live_rekey hnode hexisting
    rw [hfinish] at hallocator hlive
    refine ⟨by rw [hallocator]; exact hserver.valid, hserver.exact.of_same ?_ ?_ hlive⟩
    · exact fun f => by rw [hallocator]
    · exact fun f => by rw [hallocator]
  · rename_i hnew
    obtain ⟨⟨result', mid⟩, hips, hfinish⟩ := map_eq_some_iff.mp hregister
    obtain ⟨hleaks, hpublished⟩ := hkeeps hnew
    obtain ⟨hvalid, hrange, hnodes, hresult⟩ := allocateRegisterIps_cases hserver.valid hleaks hips
    cases result' with
    | error error =>
      obtain ⟨-, rfl⟩ := Prod.mk.inj hfinish
      refine ⟨hvalid, hserver.exact.of_same hrange hresult fun ip => ?_⟩
      simp only [Live, hnodes]
    | ok node =>
      obtain ⟨⟨pair, allocator, hpair⟩, hused⟩ := hresult
      obtain ⟨hfailure, hkey⟩ := hpublished pair allocator hpair
      obtain ⟨-, hheld⟩ | ⟨-, hafter⟩ := finishRegistration_cases mid call node
      · exact absurd (hnodes ▸ (hheld hfailure).2) hkey
      rw [show mid.finishRegistration call node = _ from hfinish, hnew, elim_none,
        hnodes] at hafter
      subst hafter
      refine ⟨hvalid, fun ip range hget hnetwork hlast => ?_⟩
      have hexact := hserver.exact ip range ((hrange _).symm.trans hget) hnetwork hlast
      rw [live_insert hkey, hused, Finset.mem_union, value_mem_valuesOf, hexact, or_comm]
      rfl

lemma Consistent.delete (hserver : server.Consistent)
    (hkeeps : server.Keeps (.delete key) server') : (server.tryDelete key).2.Consistent := by
  unfold tryDelete
  split
  · exact hserver
  rename_i node hnode
  have hreleased : ∀ f, (server.allocator.releaseAddresses node.ipv4 node.ipv6).used f =
      server.allocator.used f \ valuesOf f node.addrs :=
    fun f => used_releaseAddresses _ _
  obtain ⟨hvalid, hrange⟩ := valid_run hserver.valid
    (show server.allocator.run (.releaseAddresses node.ipv4 node.ipv6) = some (.released, _) from rfl)
  refine ⟨hvalid, fun ip range hget hnetwork hlast => ?_⟩
  have hexact := hserver.exact ip range ((hrange _).symm.trans hget) hnetwork hlast
  rw [hreleased, Finset.mem_sdiff, value_mem_valuesOf, hexact, live_erase hnode]
  constructor
  · rintro ⟨hip | hlive, hnot⟩
    · exact absurd hip hnot
    · exact hlive
  · intro hlive
    refine ⟨.inr hlive, fun hip => ?_⟩
    obtain ⟨other, found, hfound, hmem⟩ := hlive
    obtain ⟨hne, hfound⟩ := TreeMap.getElem?_of_erase hfound
    exact hne (hkeeps node hnode ip hip other found hfound hmem)

lemma Consistent.step (hserver : server.Consistent) {event : Event}
    (hstep : servers.step server event server') (hkeeps : server.Keeps event server') :
    server'.Consistent := by
  cases event with
  | register call => exact hserver.register hstep hkeeps
  | delete key =>
    cases hstep
    exact hserver.delete hkeeps

end Server

/-- In a run that loses no address, the used addresses are those of live nodes. -/
theorem used_addresses_are_live {server : Server} (h : servers.ReachableBy Server.Keeps server) :
    server.Exact := by
  have hconsistent : server.Consistent :=
    h.invariant (fun _ hinit => ⟨hinit.1, hinit.2⟩)
      fun _ _ _ hserver hstep hkeeps => hserver.step hstep hkeeps
  exact hconsistent.exact

def smallIpv4 : CidrIpAllocator :=
  { ipv4 := some (.new smallRange), ipv6 := none, strategy := .random }

lemma init_smallIpv4 : servers.init ⟨smallIpv4, ∅⟩ := by
  constructor
  · intro f family hget
    cases f with
    | v4 =>
      cases hget
      exact le_rfl
    | v6 => cases hget
  · intro ip range hrange hnetwork hlast
    have hnone : ¬ Server.Live ⟨smallIpv4, ∅⟩ ip := by
      rintro ⟨key, node, hnode, -⟩
      simp at hnode
    refine iff_of_false (fun hused => ?_) hnone
    cases ip with
    | v4 value =>
      cases hrange
      have hend : (IpAddr.v4 value).value ∈ ({smallRange.network, smallRange.last} : Finset Nat) := hused
      simp only [Finset.mem_insert, Finset.mem_singleton] at hend
      exact hend.elim hnetwork hlast
    | v6 value => cases hrange

def firstCall : RegisterCall := { nodeKeyHex := "01", machineKeyHex := "a1", draws4 := [.ok 1] }

/-- The registration is refused since its key was used up in the meantime. -/
def refusedCall (draw : Nat) : RegisterCall :=
  { firstCall with draws4 := [.ok draw], failure := some (.credential "authkey already used") }

def firstNode : LiveNode := ⟨"a1", asIpv4 firstAddr, none⟩

theorem first_node_has_the_used_address :
    Server.apply ⟨smallIpv4, ∅⟩ (.register firstCall) =
        some ⟨smallIpv4.takes firstAddr, (∅ : ExtTreeMap String LiveNode).insert "01" firstNode⟩ ∧
      Server.Exact
        ⟨smallIpv4.takes firstAddr, (∅ : ExtTreeMap String LiveNode).insert "01" firstNode⟩ := by
  have hstep : Server.apply ⟨smallIpv4, ∅⟩ (.register firstCall) =
      some ⟨smallIpv4.takes firstAddr, (∅ : ExtTreeMap String LiveNode).insert "01" firstNode⟩ := by
    decide +kernel
  refine ⟨hstep, used_addresses_are_live (.step (.init init_smallIpv4) hstep fun _ => ⟨rfl, ?_⟩)⟩
  exact fun _ _ _ => ⟨rfl, not_mem_empty⟩

/-- Two registrations are refused. There is no node then, and no address is left for another. -/
theorem refused_registrations_use_up_prefix :
    ∃ server, servers.Reachable server ∧ server.nodes = ∅ ∧ ¬ server.Exact ∧
      server.registerAuthKey firstCall =
        some (.error (.addresses ⟨.v4, .exhausted⟩), server) := by
  have hfirst : Server.apply ⟨smallIpv4, ∅⟩ (.register (refusedCall 1)) =
      some ⟨smallIpv4.takes firstAddr, ∅⟩ := by
    decide +kernel
  have hsecond : Server.apply ⟨smallIpv4.takes firstAddr, ∅⟩ (.register (refusedCall 2)) =
      some ⟨(smallIpv4.takes firstAddr).takes secondAddr, ∅⟩ := by
    decide +kernel
  refine ⟨⟨(smallIpv4.takes firstAddr).takes secondAddr, ∅⟩,
    .step (.step (.init init_smallIpv4) hfirst trivial) hsecond trivial, rfl, fun hexact => ?_,
    by decide +kernel⟩
  obtain ⟨key, node, hnode, -⟩ := (hexact firstAddr smallRange rfl (by decide) (by decide)).mp
    (by decide +kernel)
  simp at hnode

end Headscale.Ipam
