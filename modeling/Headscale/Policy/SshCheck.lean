import Headscale.Policy.Ssh

/-!
# The two evaluators of SSH rules

`SshRule.Covers` says when a rule covers a session. The rules compiled for the destination let the
session in under a check exactly when some check rule covers it, and the server's own decision is the
same. Both need that an address tells its node, and that no account is called by the star that stands
for every account.
-/

namespace Headscale.Policy

open Std GoNetip Collection List

/-! ## What a client reads from a compiled rule -/

/-- The account for a local user: the user's own entry before the one for everybody. -/
def SshUsers.account (users : SshUsers) (localUser : List UInt8) : Option String :=
  ((users.toList.find? fun entry => asBytes entry.1 = localUser).map (·.2)).or users["*"]?

open SshUsers

def SshUsers.Grants (users : SshUsers) (localUser : List UInt8) : Prop :=
  ∃ account, SshUsers.account users localUser = some account ∧ account ≠ ""

/-- Some principal is the address. -/
def Names (principals : List String) (ip : IpAddr) : Prop :=
  ∃ principal ∈ principals, addrIp principal = some ip

/-- Some principal is an address of the node, whatever its zone. -/
def Lists (principals : List String) (node : SshPolicyNode) : Prop :=
  ∃ addr ∈ node.addrs, ∃ ip, addrIp addr = some ip ∧ Names principals ip

/-- The rule lets the node in as the local user. -/
def CompiledSshRule.Admits (rule : CompiledSshRule) (node : SshPolicyNode)
    (localUser : List UInt8) : Prop :=
  Lists rule.principals node ∧ SshUsers.Grants rule.sshUsers localUser

instance (principals : List String) (node : SshPolicyNode) : Decidable (Lists principals node) :=
  decidable_of_iff (∃ addr ∈ node.addrs, (addrIp addr).any fun ip =>
      principals.any fun principal => addrIp principal = some ip) (by
    simp [Lists, Names, Option.any_eq_true])

instance (users : SshUsers) (localUser : List UInt8) : Decidable (SshUsers.Grants users localUser) :=
  decidable_of_iff ((SshUsers.account users localUser).any (· ≠ "")) (by
    simp [SshUsers.Grants, Option.any_eq_true])

instance (rule : CompiledSshRule) (node : SshPolicyNode) (localUser : List UInt8) :
    Decidable (rule.Admits node localUser) :=
  inferInstanceAs (Decidable (_ ∧ _))

/-! ## What a rule is for -/

/-- The users of the rule name the local user, but for the local part of an owner. -/
def NamedIn (users : List String) (localUser : List UInt8) : Prop :=
  localUser = asBytes "root" ∧ "root" ∈ users ∨
    localUser ≠ asBytes "root" ∧ ∃ user ∈ users, user = "autogroup:nonroot" ∨
      asBytes user = localUser ∧ canonicalLocalpartDomain user = none

/-- The rule covers sessions of the source with the destination. -/
def SshRule.Reaches (doc : PolicyDoc) (nodes : List SshPolicyNode) (src dst : SshPolicyNode)
    (rule : SshRule) : Prop :=
  "autogroup:self" ∈ rule.dst ∧ src.sameSshUserOwner dst = true ∨
    (∃ token ∈ rule.dst, token ≠ "autogroup:self" ∧ sshDestinationMatches doc token dst nodes = true) ∨
    usersHaveCanonicalLocalpart rule.users = true ∧
      (∃ token ∈ rule.dst, token ≠ "autogroup:self") ∧
      dst ∈ resolveSshSourceNodes doc rule.src nodes ∧
      (src.sameSshUserOwner dst = true ∨ dst.isUntaggedUserOwned = false ∧ src = dst)

/-- The rule covers the session of the source with the destination as the local user. -/
structure SshRule.Covers (go : GoText) (doc : PolicyDoc) (nodes : List SshPolicyNode)
    (src dst : SshPolicyNode) (localUser : List UInt8) (rule : SshRule) : Prop where
  source : src ∈ resolveSshSourceNodes doc rule.src nodes
  user : NamedIn rule.users localUser ∨ ∃ owner, src.sourceOwner = some owner ∧ ∃ localpart,
    localpartForOwner go doc owner src.user (canonicalLocalpartDomains rule.users) = some localpart ∧
      asBytes localpart = localUser
  reaches : rule.Reaches doc nodes src dst

/-! ## Accounts -/

variable {a : String}

lemma asBytes_inj {b : String} : asBytes a = asBytes b ↔ a = b := by
  refine ⟨fun h => ?_, fun h => h ▸ rfl⟩
  exact String.toByteArray_inj.mp (ByteArray.ext (Array.toList_inj.mp h))

lemma asBytes_ne_nil : asBytes a ≠ [] ↔ a ≠ "" :=
  not_congr (asBytes_inj (b := ""))

lemma SshUsers.account_asBytes (users : SshUsers) (name : String) :
    account users (asBytes name) = users[name]?.or users["*"]? := by
  unfold account
  cases hfind : users.toList.find? fun entry => asBytes entry.1 = asBytes name with
  | some entry =>
    obtain ⟨key, account⟩ := entry
    have hkey : key = name := asBytes_inj.mp (by simpa using find?_some hfind)
    have hmem := ExtTreeMap.mem_toList_iff_getElem?_eq_some.mp (mem_of_find?_eq_some hfind)
    rw [← hkey, hmem]
    rfl
  | none =>
    cases hget : users[name]? with
    | none => rfl
    | some account =>
      have hmem := ExtTreeMap.mem_toList_iff_getElem?_eq_some.mpr hget
      have := find?_eq_none.mp hfind _ hmem
      simp at this

/-- A local user that is no text has no entry of its own. -/
theorem SshUsers.account_of_no_text (users : SshUsers) {localUser : List UInt8}
    (h : ∀ name, asBytes name ≠ localUser) : account users localUser = users["*"]? := by
  have hfind : (users.toList.find? fun entry => asBytes entry.1 = localUser) = none :=
    find?_eq_none.mpr fun entry _ => by simpa using h entry.1
  rw [account, hfind]
  rfl

lemma getElem?_foldl_insert_self (names : List String) (users : SshUsers) (key : String) :
    (names.foldl (fun out name => out.insert name name) users)[key]? =
      if key ∈ names then some key else users[key]? := by
  induction names generalizing users with
  | nil => simp
  | cons name names ih =>
    rw [foldl_cons, ih, ExtTreeMap.getElem?_insert]
    by_cases hkey : key ∈ names
    · simp [hkey]
    · by_cases hname : name = key
      · simp [hname]
      · simp [hname, Ne.symm hname]

lemma getElem?_baseSshUsers (users : List String) (leftOut : String → Bool) (key : String) :
    (baseSshUsers users leftOut)[key]? =
      if key ≠ "root" ∧ key ≠ "autogroup:nonroot" ∧ leftOut key = false ∧ key ∈ users then some key
      else if key = "root" then some (if "root" ∈ users then "root" else "")
      else if key = "*" ∧ "autogroup:nonroot" ∈ users then some "="
      else none := by
  simp only [baseSshUsers, getElem?_foldl_insert_self]
  by_cases hnonroot : "autogroup:nonroot" ∈ users
  · grind
  · grind

section Accounts

variable {localUser : List UInt8} (hne : localUser ≠ []) (hstar : localUser ≠ asBytes "*")

include hne hstar

lemma grants_baseSshUsers_iff {users : List String} (husers : "*" ∉ users)
    (leftOut : String → Bool) :
    SshUsers.Grants (baseSshUsers users leftOut) localUser ↔
      localUser = asBytes "root" ∧ "root" ∈ users ∨
        localUser ≠ asBytes "root" ∧ ∃ user ∈ users, user = "autogroup:nonroot" ∨
          asBytes user = localUser ∧ leftOut user = false := by
  have heverybody : (baseSshUsers users leftOut)["*"]? =
      if "autogroup:nonroot" ∈ users then some "=" else none := by
    simp [getElem?_baseSshUsers, husers]
  by_cases htext : ∃ name, asBytes name = localUser
  · obtain ⟨name, rfl⟩ := htext
    have hname : name ≠ "" := asBytes_ne_nil.mp hne
    simp only [SshUsers.Grants, account_asBytes, getElem?_baseSshUsers, ne_eq, asBytes_inj]
    by_cases hroot : name = "root"
    · by_cases hmem : "root" ∈ users <;> simp [hroot]
    · by_cases hkept : name ≠ "autogroup:nonroot" ∧ leftOut name = false ∧ name ∈ users
      · grind
      · grind
  · have hno : ∀ name, asBytes name ≠ localUser := fun name h => htext ⟨name, h⟩
    simp only [SshUsers.Grants, account_of_no_text _ hno]
    grind

lemma grants_localpart_iff {localpart : String} (h : localpart ≠ "*") :
    SshUsers.Grants ((∅ : SshUsers).insert localpart localpart) localUser ↔
      asBytes localpart = localUser := by
  have heverybody : ((∅ : SshUsers).insert localpart localpart)["*"]? = none := by
    simp [h]
  by_cases htext : ∃ name, asBytes name = localUser
  · obtain ⟨name, rfl⟩ := htext
    have hname : name ≠ "" := asBytes_ne_nil.mp hne
    by_cases hlocal : localpart = name
    · simp [SshUsers.Grants, account_asBytes, hlocal, hname]
    · simp [SshUsers.Grants, account_asBytes, heverybody, asBytes_inj, hlocal]
  · have hno : ∀ name, asBytes name ≠ localUser := fun name h => htext ⟨name, h⟩
    simp [SshUsers.Grants, account_of_no_text _ hno, heverybody, hno]

end Accounts

/-! ## Owners -/

namespace SshPolicyNode

variable {node : SshPolicyNode}

lemma sourceOwner_eq_tagged : node.sourceOwner = some .tagged ↔ node.tags ≠ [] := by
  unfold sourceOwner
  split
  · simpa
  · cases node.userId <;> simp_all

lemma sourceOwner_eq_user {id : Nat} :
    node.sourceOwner = some (.user id) ↔ node.tags = [] ∧ node.userId = some id := by
  unfold sourceOwner
  split
  · simp_all
  · cases node.userId <;> simp_all

lemma sourceOwner_eq_legacy {name : String} :
    node.sourceOwner = some (.legacy name) ↔
      node.tags = [] ∧ node.userId = none ∧ node.user = some name ∧ name ≠ "" := by
  unfold sourceOwner
  split
  · simp_all
  · cases node.userId <;> simp_all

lemma isUntaggedUserOwned_of_sourceOwner {owner : SourceOwner} (h : node.sourceOwner = some owner) :
    node.isUntaggedUserOwned = true ↔ owner ≠ .tagged := by
  cases owner with
  | user id =>
    obtain ⟨htags, hid⟩ := sourceOwner_eq_user.mp h
    simp [isUntaggedUserOwned, htags, hid]
  | legacy name =>
    obtain ⟨htags, hid, huser, hname⟩ := sourceOwner_eq_legacy.mp h
    simp [isUntaggedUserOwned, htags, huser, hname]
  | tagged => simp [isUntaggedUserOwned, sourceOwner_eq_tagged.mp h]

lemma isUntaggedUserOwned_of_sameSshUserOwner {left right : SshPolicyNode}
    (h : left.sameSshUserOwner right = true) : right.isUntaggedUserOwned = true := by
  unfold sameSshUserOwner at h
  split at h
  · cases h
  · simp_all

end SshPolicyNode

lemma mem_sourceOwners {nodes : List SshPolicyNode} {owner : SourceOwner} :
    owner ∈ sourceOwners nodes ↔ ∃ node ∈ nodes, node.sourceOwner = some owner := by
  simp [sourceOwners, mem_foldl_pushUnique]

lemma localpartForOwner_tagged (go : GoText) (doc : PolicyDoc) (user : Option String)
    (domains : List String) : localpartForOwner go doc .tagged user domains = none := by
  unfold localpartForOwner
  split <;> simp_all

lemma localpartForOwner_nil (go : GoText) (doc : PolicyDoc) (owner : SourceOwner)
    (user : Option String) : localpartForOwner go doc owner user [] = none := by
  unfold localpartForOwner
  split <;> simp [localpartForUser]

/-- Nodes of one account have one user name. It matters when the policy has no user directory, as the
name is then what a local part is taken from. -/
def OneNamePerAccount (doc : PolicyDoc) (nodes : List SshPolicyNode) : Prop :=
  doc.users = none → ∀ left ∈ nodes, ∀ right ∈ nodes, left.tags = [] → right.tags = [] →
    left.userId.isSome = true → left.userId = right.userId → left.user = right.user

instance (doc : PolicyDoc) (nodes : List SshPolicyNode) : Decidable (OneNamePerAccount doc nodes) :=
  inferInstanceAs (Decidable (_ → ∀ left ∈ nodes, ∀ right ∈ nodes, _))

open SshPolicyNode

/-- The local part of a group of sources is that of each of its nodes. -/
theorem localpartForOwner_ownerGroup (go : GoText) {doc : PolicyDoc} {sources : List SshPolicyNode}
    (hnames : OneNamePerAccount doc sources) {src : SshPolicyNode} (hsrc : src ∈ sources)
    {owner : SourceOwner} (howner : src.sourceOwner = some owner) (domains : List String) :
    localpartForOwner go doc owner (ownerGroup sources owner).user domains =
      localpartForOwner go doc owner src.user domains := by
  obtain ⟨first, hfirst⟩ : ∃ first, (sources.filter fun node => node.sourceOwner = some owner).head? =
      some first := by
    rw [← Option.isSome_iff_exists, isSome_head?]
    exact ne_nil_of_mem (mem_filter.mpr ⟨hsrc, by simpa using howner⟩)
  obtain ⟨hmem, hfirstOwner⟩ := mem_filter.mp (mem_of_head? hfirst)
  have hfirstOwner : first.sourceOwner = some owner := by simpa using hfirstOwner
  cases owner with
  | tagged => simp only [localpartForOwner_tagged]
  | user id =>
    cases husers : doc.users with
    | some accounts => simp only [localpartForOwner, husers]
    | none =>
      obtain ⟨htags, hid⟩ := sourceOwner_eq_user.mp howner
      obtain ⟨htags', hid'⟩ := sourceOwner_eq_user.mp hfirstOwner
      have howned := (isUntaggedUserOwned_of_sourceOwner hfirstOwner).mpr (by simp)
      have hname := hnames husers first hmem src hsrc htags' htags (by simp [hid'])
        (hid'.trans hid.symm)
      simp [ownerGroup, hfirst, howned, hname]
  | legacy name =>
    cases husers : doc.users with
    | some accounts => simp only [localpartForOwner, husers]
    | none =>
      obtain ⟨-, -, huser, -⟩ := sourceOwner_eq_legacy.mp howner
      obtain ⟨-, -, huser', -⟩ := sourceOwner_eq_legacy.mp hfirstOwner
      have howned := (isUntaggedUserOwned_of_sourceOwner hfirstOwner).mpr (by simp)
      simp [ownerGroup, hfirst, howned, huser, huser']

/-! ## User rules -/

/-- Some user rule for the node has an account for the local user. -/
def UserRulesGrant (rules : List SshUserRule) (nodeId : Nat) (localUser : List UInt8) : Prop :=
  ∃ rule ∈ rules, nodeId ∈ rule.sourceNodeIds ∧ SshUsers.Grants rule.sshUsers localUser

/-- What tells the sources of a rule from each other. -/
def DistinctIds (nodes : List SshPolicyNode) : Prop :=
  ∀ left ∈ nodes, ∀ right ∈ nodes, left.id = right.id → left = right

@[simp] lemma ownerGroup_owner (sources : List SshPolicyNode) (owner : SourceOwner) :
    (ownerGroup sources owner).owner = owner := rfl

lemma id_mem_ownerGroup_iff {sources : List SshPolicyNode} (hids : DistinctIds sources)
    {src : SshPolicyNode} (hsrc : src ∈ sources) (owner : SourceOwner) :
    src.id ∈ (ownerGroup sources owner).sourceNodeIds ↔ src.sourceOwner = some owner := by
  simp only [ownerGroup, mem_map, mem_filter, decide_eq_true_eq]
  constructor
  · rintro ⟨node, ⟨hnode, howner⟩, hid⟩
    rwa [← hids node hnode src hsrc hid]
  · exact fun h => ⟨src, ⟨hsrc, h⟩, rfl⟩

section UserRules

variable (go : GoText) {doc : PolicyDoc} {users : List String} {sources : List SshPolicyNode}
  {src : SshPolicyNode} {owner : SourceOwner} {localUser : List UInt8}

lemma canonicalLocalpartDomains_eq_nil_iff :
    canonicalLocalpartDomains users = [] ↔ ∀ user ∈ users, canonicalLocalpartDomain user = none := by
  simp [canonicalLocalpartDomains]

lemma sshRuleAllowsUser_iff (hne : localUser ≠ []) (howner : src.sourceOwner = some owner) :
    sshRuleAllowsUser go doc users src localUser = true ↔ NamedIn users localUser ∨ ∃ localpart,
      localpartForOwner go doc owner src.user (canonicalLocalpartDomains users) = some localpart ∧
        asBytes localpart = localUser := by
  have hnamed : ((decide (localUser = asBytes "root") && decide ("root" ∈ users)) ||
      (!decide (localUser = asBytes "root") && users.any fun user => user = "autogroup:nonroot" ||
        (asBytes user = localUser && (canonicalLocalpartDomain user).isNone))) = true ↔
      NamedIn users localUser := by
    simp [NamedIn]
  unfold sshRuleAllowsUser
  rw [if_neg hne]
  simp only [howner]
  split
  · rename_i htrue
    simp [hnamed.mp htrue]
  rename_i hfalse
  have h : ¬ NamedIn users localUser := mt hnamed.mpr hfalse
  by_cases htagged : owner = .tagged
  · have howned : src.isUntaggedUserOwned = false := by
      simpa [htagged] using isUntaggedUserOwned_of_sourceOwner howner
    simp [h, htagged, localpartForOwner_tagged]
  · have howned := (isUntaggedUserOwned_of_sourceOwner howner).mpr htagged
    simp [h, howned, Option.any_eq_true]

/-- Of the groups only that of the source's owner has the source. -/
theorem userRulesGrant_withLocalparts_iff (hids : DistinctIds sources) (hsrc : src ∈ sources)
    (howner : src.sourceOwner = some owner) (domains : List String) :
    UserRulesGrant (sshUserRulesWithLocalparts go doc users sources domains) src.id localUser ↔
      SshUsers.Grants (baseSshUsers users fun user => (canonicalLocalpartDomain user).isSome)
        localUser ∨
      ∃ localpart,
        localpartForOwner go doc owner (ownerGroup sources owner).user domains = some localpart ∧
          SshUsers.Grants ((∅ : SshUsers).insert localpart localpart) localUser := by
  have hid := (id_mem_ownerGroup_iff hids hsrc owner).mpr howner
  have hgroup : ownerGroup sources owner ∈ (sourceOwners sources).map (ownerGroup sources) :=
    mem_map_of_mem (mem_sourceOwners.mpr ⟨src, hsrc, howner⟩)
  constructor
  · rintro ⟨rule, hrule, hmem, hgrants⟩
    obtain ⟨group, hgroup, hrule⟩ := mem_flatMap.mp hrule
    obtain ⟨owner', -, rfl⟩ := mem_map.mp hgroup
    rcases mem_cons.mp hrule with rfl | hrule
    · exact .inl hgrants
    · refine .inr ?_
      cases hlocal : localpartForOwner go doc owner' (ownerGroup sources owner').user domains with
      | none => simp [hlocal] at hrule
      | some localpart =>
        simp only [ownerGroup_owner, hlocal, mem_singleton] at hrule
        subst hrule
        obtain rfl : owner = owner' := by
          simpa [howner] using (id_mem_ownerGroup_iff hids hsrc owner').mp hmem
        exact ⟨localpart, hlocal, hgrants⟩
  · rintro (hgrants | ⟨localpart, hlocal, hgrants⟩)
    · exact ⟨_, mem_flatMap.mpr ⟨_, hgroup, mem_cons_self⟩, hid, hgrants⟩
    · refine ⟨⟨(∅ : SshUsers).insert localpart localpart, (ownerGroup sources owner).sourceNodeIds⟩,
        mem_flatMap.mpr ⟨_, hgroup, mem_cons_of_mem _ ?_⟩, hid, hgrants⟩
      simp only [ownerGroup_owner, hlocal, mem_singleton]

variable (hne : localUser ≠ []) (hstar : localUser ≠ asBytes "*") (husers : "*" ∉ users)

include hne hstar husers

lemma grants_baseSshUsers_iff_namedIn (leftOut : String → Bool)
    (h : ∀ user ∈ users, leftOut user = (canonicalLocalpartDomain user).isSome) :
    SshUsers.Grants (baseSshUsers users leftOut) localUser ↔ NamedIn users localUser := by
  rw [grants_baseSshUsers_iff hne hstar husers, NamedIn]
  have hkept : ∀ user ∈ users, leftOut user = false ↔ canonicalLocalpartDomain user = none :=
    fun user hmem => by rw [h user hmem, Option.isSome_eq_false_iff, Option.isNone_iff_eq_none]
  refine or_congr_right (and_congr_right fun _ => exists_congr fun user => ?_)
  exact and_congr_right fun hmem => or_congr_right (and_congr_right fun _ => hkept user hmem)

/-- The user rules for the sources have an account for a source exactly where the server lets its
session on as that user. -/
theorem userRulesGrant_iff (hids : DistinctIds sources) (hnames : OneNamePerAccount doc sources)
    (hsrc : src ∈ sources) (howner : src.sourceOwner = some owner)
    (hlocalpart : localpartForOwner go doc owner src.user (canonicalLocalpartDomains users) ≠
      some "*") :
    UserRulesGrant (sshUserRules go doc users sources) src.id localUser ↔
      NamedIn users localUser ∨ ∃ localpart,
        localpartForOwner go doc owner src.user (canonicalLocalpartDomains users) = some localpart ∧
          asBytes localpart = localUser := by
  by_cases hdomains : canonicalLocalpartDomains users = []
  · have hid : src.id ∈ (sources.filter fun node => node.sourceOwner.isSome).map (·.id) :=
      mem_map.mpr ⟨src, mem_filter.mpr ⟨hsrc, by simp [howner]⟩, rfl⟩
    have hbase := grants_baseSshUsers_iff_namedIn hne hstar husers (fun _ => false)
      fun user hmem => by simp [canonicalLocalpartDomains_eq_nil_iff.mp hdomains user hmem]
    simp only [UserRulesGrant, sshUserRules, hdomains, ne_eq, not_true_eq_false, if_false,
      mem_singleton, exists_eq_left, hid, hbase, localpartForOwner_nil]
    simp
  · have hbase := grants_baseSshUsers_iff_namedIn hne hstar husers
      (fun user => (canonicalLocalpartDomain user).isSome) fun user _ => rfl
    rw [sshUserRules, if_pos hdomains, userRulesGrant_withLocalparts_iff go hids hsrc howner, hbase,
      localpartForOwner_ownerGroup go hnames hsrc howner]
    refine or_congr_right (exists_congr fun localpart => and_congr_right fun hlocal => ?_)
    exact grants_localpart_iff hne hstar fun h => hlocalpart (h ▸ hlocal)

end UserRules

/-! ## Principals -/

lemma addrIp_toString (ip : IpAddr) : addrIp ip.toString = some ip := by
  simp [addrIp]

variable {ip : IpAddr}

lemma addrIp_taggedPrincipal {addr : String} (h : addrIp addr = some ip) :
    addrIp (taggedPrincipal addr) = some ip := by
  have hne : addr ≠ "" := by
    rintro rfl
    cases h
  unfold taggedPrincipal
  rw [if_neg hne]
  unfold addrIp at h
  cases hparse : parseAddr addr with
  | error e => simp [hparse] at h
  | ok parsed =>
    obtain ⟨ip', zone⟩ := parsed
    simp only [hparse, Option.some.injEq] at h
    subst h
    cases zone with
    | none => exact addrIp_toString ip'
    | some zone => simp only [addrIp, parseAddr_zoned hparse]

lemma names_append {left right : List String} :
    Names (left ++ right) ip ↔ Names left ip ∨ Names right ip := by
  simp [Names, or_and_right, exists_or]

variable {α : Type} {items : List α}

lemma exists_mem_flatMap {β : Type} {f : α → List β} {p : β → Prop} :
    (∃ b ∈ items.flatMap f, p b) ↔ ∃ item ∈ items, ∃ b ∈ f item, p b := by
  simp only [mem_flatMap]
  constructor
  · rintro ⟨b, ⟨item, hitem, hmem⟩, hb⟩
    exact ⟨item, hitem, b, hmem, hb⟩
  · rintro ⟨item, hitem, b, hmem, hb⟩
    exact ⟨b, ⟨item, hitem, hmem⟩, hb⟩

lemma names_flatMap {f : α → List String} :
    Names (items.flatMap f) ip ↔ ∃ item ∈ items, Names (f item) ip := exists_mem_flatMap

/-- Every address of the nodes is one. -/
def Parsable (nodes : List SshPolicyNode) : Prop :=
  ∀ node ∈ nodes, ∀ addr ∈ node.addrs, ∃ ip, addrIp addr = some ip

instance (nodes : List SshPolicyNode) : Decidable (Parsable nodes) :=
  decidable_of_iff (∀ node ∈ nodes, ∀ addr ∈ node.addrs, (addrIp addr).isSome = true) (by
    simp [Parsable, Option.isSome_iff_exists])

lemma names_ipsetPrincipalAddresses {addrs : List String}
    (hparse : ∀ addr ∈ addrs, ∃ ip, addrIp addr = some ip) :
    Names ((ipsetPrincipalAddresses addrs).getD []) ip ↔ ∃ addr ∈ addrs, addrIp addr = some ip := by
  have hall : (addrs.all fun addr => (addrIp addr).isSome) = true :=
    all_eq_true.mpr fun addr hmem => Option.isSome_iff_exists.mpr (hparse addr hmem)
  rw [ipsetPrincipalAddresses, if_pos hall]
  simp only [Names, Option.getD_some, mem_map, mem_insertionSort, mem_foldl_pushUnique,
    not_mem_nil, false_or, mem_filterMap]
  constructor
  · rintro ⟨principal, ⟨ip', ⟨addr, hmem, haddr⟩, rfl⟩, hip⟩
    rw [addrIp_toString] at hip
    exact ⟨addr, hmem, haddr.trans hip⟩
  · rintro ⟨addr, hmem, haddr⟩
    exact ⟨ip.toString, ⟨ip, ⟨addr, hmem, haddr⟩, rfl⟩, addrIp_toString ip⟩

/-- The principals of tagged nodes keep their zones, and there is a copy for each tag. -/
theorem names_taggedPrincipals {node : SshPolicyNode}
    (hparse : ∀ addr ∈ node.addrs, ∃ ip, addrIp addr = some ip) (htags : node.tags ≠ []) :
    Names (node.tags.flatMap fun _ => node.addrs.map taggedPrincipal) ip ↔
      ∃ addr ∈ node.addrs, addrIp addr = some ip := by
  rw [names_flatMap]
  simp only [Names, mem_map]
  constructor
  · rintro ⟨-, -, -, ⟨addr, hmem, rfl⟩, hip⟩
    obtain ⟨ip', hip'⟩ := hparse addr hmem
    rw [addrIp_taggedPrincipal hip'] at hip
    exact ⟨addr, hmem, hip'.trans hip⟩
  · rintro ⟨addr, hmem, hip⟩
    obtain ⟨tag, htag⟩ := exists_mem_of_ne_nil _ htags
    exact ⟨tag, htag, taggedPrincipal addr, ⟨addr, hmem, rfl⟩, addrIp_taggedPrincipal hip⟩

/-- The principals of the untagged nodes, taken owner by owner. -/
theorem names_ownerPrincipals {nodes : List SshPolicyNode} (hparse : Parsable nodes) :
    Names ((sourceOwners nodes).flatMap fun owner =>
        (ipsetPrincipalAddresses ((nodes.filter fun node => node.sourceOwner = some owner).flatMap
          (·.addrs))).getD []) ip ↔
      ∃ node ∈ nodes, node.sourceOwner.isSome = true ∧ ∃ addr ∈ node.addrs, addrIp addr = some ip := by
  have hgroup : ∀ owner, Names ((ipsetPrincipalAddresses ((nodes.filter fun node =>
      node.sourceOwner = some owner).flatMap (·.addrs))).getD []) ip ↔
      ∃ node ∈ nodes, node.sourceOwner = some owner ∧ ∃ addr ∈ node.addrs, addrIp addr = some ip := by
    intro owner
    rw [names_ipsetPrincipalAddresses, exists_mem_flatMap]
    · simp only [mem_filter, decide_eq_true_eq, and_assoc]
    · intro addr hmem
      obtain ⟨node, hnode, hmem⟩ := mem_flatMap.mp hmem
      exact hparse node (mem_filter.mp hnode).1 addr hmem
  simp only [names_flatMap, hgroup]
  constructor
  · rintro ⟨owner, -, node, hnode, howner, hip⟩
    exact ⟨node, hnode, by simp [howner], hip⟩
  · rintro ⟨node, hnode, howner, hip⟩
    obtain ⟨owner, howner⟩ := Option.isSome_iff_exists.mp howner
    exact ⟨owner, mem_sourceOwners.mpr ⟨node, hnode, howner⟩, node, hnode, howner, hip⟩

/-- The principals of a user rule are the addresses of the nodes it is for. -/
theorem names_sourceNodeAddrsForRule {nodes : List SshPolicyNode} (hparse : Parsable nodes)
    (rule : SshUserRule) :
    Names (sourceNodeAddrsForRule nodes rule) ip ↔
      ∃ node ∈ nodes, node.id ∈ rule.sourceNodeIds ∧ node.sourceOwner.isSome = true ∧
        ∃ addr ∈ node.addrs, addrIp addr = some ip := by
  unfold sourceNodeAddrsForRule
  rw [names_append, names_ownerPrincipals fun node hnode =>
    hparse node (mem_filter.mp (mem_filter.mp hnode).1).1, names_flatMap]
  simp only [mem_filter, decide_eq_true_eq]
  constructor
  · rintro (⟨node, ⟨⟨hnode, hid⟩, -⟩, howner, hip⟩ | ⟨node, ⟨⟨hnode, hid⟩, htags⟩, hip⟩)
    · exact ⟨node, hnode, hid, howner, hip⟩
    · refine ⟨node, hnode, hid, ?_, (names_taggedPrincipals (hparse node hnode) htags).mp hip⟩
      rw [sourceOwner_eq_tagged.mpr htags]
      rfl
  · rintro ⟨node, hnode, hid, howner, hip⟩
    by_cases htags : node.tags = []
    · exact .inl ⟨node, ⟨⟨hnode, hid⟩, htags⟩, howner, hip⟩
    · exact .inr ⟨node, ⟨⟨hnode, hid⟩, htags⟩,
        (names_taggedPrincipals (hparse node hnode) htags).mpr hip⟩

/-! ## The rules for a destination -/

/-- Addresses tell the nodes, even without their zones. -/
def DistinctAddrs (nodes : List SshPolicyNode) : Prop :=
  ∀ left ∈ nodes, ∀ right ∈ nodes, ∀ a ∈ left.addrs, ∀ b ∈ right.addrs, addrIp a = addrIp b →
    left = right

instance (nodes : List SshPolicyNode) : Decidable (DistinctAddrs nodes) :=
  inferInstanceAs (Decidable (∀ left ∈ nodes, ∀ right ∈ nodes, _))

/-- Some rule of the list lets the node in as the local user. -/
def Admitted (rules : List CompiledSshRule) (node : SshPolicyNode) (localUser : List UInt8) : Prop :=
  ∃ rule ∈ rules, rule.Admits node localUser

section Admitted

variable {node : SshPolicyNode} {localUser : List UInt8}

lemma admitted_append {left right : List CompiledSshRule} :
    Admitted (left ++ right) node localUser ↔
      Admitted left node localUser ∨ Admitted right node localUser := by
  simp [Admitted, or_and_right, exists_or]

lemma admitted_flatMap {f : α → List CompiledSshRule} :
    Admitted (items.flatMap f) node localUser ↔ ∃ item ∈ items, Admitted (f item) node localUser :=
  exists_mem_flatMap

lemma addrs_ne_nil_of_admitted {rules : List CompiledSshRule} (h : Admitted rules node localUser) :
    node.addrs ≠ [] := by
  obtain ⟨rule, -, ⟨addr, hmem, -⟩, -⟩ := h
  exact ne_nil_of_mem hmem

lemma not_admitted_nil : ¬ Admitted [] node localUser := by
  simp [Admitted]

end Admitted

lemma sameUserUntaggedSources_subset (sources : List SshPolicyNode) (dst : SshPolicyNode) :
    sameUserUntaggedSources sources dst ⊆ sources :=
  fun _ h => (mem_filter.mp h).1

section Destination

variable {nodes : List SshPolicyNode} (hparse : Parsable nodes) (haddrs : DistinctAddrs nodes)
  {src : SshPolicyNode} (hsrc : src ∈ nodes) (howner : src.sourceOwner.isSome = true)
  (hreach : src.addrs ≠ []) {localUser : List UInt8} (action : SshRuleAction) (acceptEnv : List String)

lemma admitted_pushSshRule {principals : List String} {sshUsers : SshUsers} :
    Admitted (pushSshRule principals sshUsers action acceptEnv) src localUser ↔
      Lists principals src ∧ SshUsers.Grants sshUsers localUser := by
  unfold pushSshRule
  split
  · rename_i hnil
    simp [hnil, Lists, Names, Admitted]
  · simp [Admitted, CompiledSshRule.Admits]

include hparse haddrs hsrc howner hreach

variable {pushed : List SshPolicyNode}

lemma lists_sourceNodeAddrsForRule_iff (hsub : pushed ⊆ nodes) (rule : SshUserRule) :
    Lists (sourceNodeAddrsForRule pushed rule) src ↔ src ∈ pushed ∧ src.id ∈ rule.sourceNodeIds := by
  simp only [Lists, names_sourceNodeAddrsForRule fun node hnode => hparse node (hsub hnode)]
  constructor
  · rintro ⟨addr, hmem, ip, hip, node, hnode, hid, -, addr', hmem', hip'⟩
    obtain rfl := haddrs src hsrc node (hsub hnode) addr hmem addr' hmem' (hip.trans hip'.symm)
    exact ⟨hnode, hid⟩
  · rintro ⟨hmem, hid⟩
    obtain ⟨addr, haddr⟩ := exists_mem_of_ne_nil _ hreach
    obtain ⟨ip, hip⟩ := hparse src hsrc addr haddr
    exact ⟨addr, haddr, ip, hip, src, hmem, hid, howner, addr, haddr, hip⟩

lemma admitted_pushSshRulesForNodes_iff (hsub : pushed ⊆ nodes) (userRules : List SshUserRule) :
    Admitted (pushSshRulesForNodes pushed userRules action acceptEnv) src localUser ↔
      src ∈ pushed ∧ UserRulesGrant userRules src.id localUser := by
  simp only [pushSshRulesForNodes, admitted_flatMap, admitted_pushSshRule,
    lists_sourceNodeAddrsForRule_iff hparse haddrs hsrc howner hreach hsub]
  constructor
  · rintro ⟨rule, hrule, ⟨hmem, hid⟩, hgrants⟩
    exact ⟨hmem, rule, hrule, hid, hgrants⟩
  · rintro ⟨hmem, rule, hrule, hid, hgrants⟩
    exact ⟨rule, hrule, ⟨hmem, hid⟩, hgrants⟩

omit howner in
lemma lists_uniqueNodeAddrs_iff {dst : SshPolicyNode} (hdst : dst ∈ nodes) :
    Lists (uniqueNodeAddrs dst) src ↔ src = dst := by
  simp only [Lists, uniqueNodeAddrs, names_ipsetPrincipalAddresses (hparse dst hdst)]
  constructor
  · rintro ⟨addr, hmem, ip, hip, addr', hmem', hip'⟩
    exact haddrs src hsrc dst hdst addr hmem addr' hmem' (hip.trans hip'.symm)
  · rintro rfl
    obtain ⟨addr, haddr⟩ := exists_mem_of_ne_nil _ hreach
    obtain ⟨ip, hip⟩ := hparse src hsrc addr haddr
    exact ⟨addr, haddr, ip, hip, addr, haddr, hip⟩

lemma admitted_localpartSelfAccess_iff {sources : List SshPolicyNode} (hsub : sources ⊆ nodes)
    {dst : SshPolicyNode} (hdst : dst ∈ nodes) (hself : dst ∈ sources)
    (userRules : List SshUserRule) :
    Admitted (pushLocalpartSelfAccessRules sources dst userRules action acceptEnv) src localUser ↔
      (src.sameSshUserOwner dst = true ∨ dst.isUntaggedUserOwned = false ∧ src = dst) ∧
        src ∈ sources ∧ UserRulesGrant userRules src.id localUser := by
  unfold pushLocalpartSelfAccessRules
  cases howned : dst.isUntaggedUserOwned with
  | true =>
    rw [if_pos rfl, admitted_pushSshRulesForNodes_iff hparse haddrs hsrc howner hreach action
      acceptEnv (List.Subset.trans (sameUserUntaggedSources_subset sources dst) hsub)]
    simp [sameUserUntaggedSources, and_assoc, and_left_comm]
  | false =>
    have hother : src.sameSshUserOwner dst = false := by
      by_contra h
      have := isUntaggedUserOwned_of_sameSshUserOwner (Bool.eq_true_of_not_eq_false h)
      simp [howned] at this
    simp only [Bool.false_eq_true, if_false, admitted_flatMap, hother, false_or, true_and]
    constructor
    · rintro ⟨rule, hrule, hadmitted⟩
      split at hadmitted
      · rename_i hid
        rw [admitted_pushSshRule, lists_uniqueNodeAddrs_iff hparse haddrs hsrc hreach hdst] at hadmitted
        obtain ⟨rfl, hgrants⟩ := hadmitted
        exact ⟨rfl, hself, rule, hrule, hid, hgrants⟩
      · exact absurd hadmitted not_admitted_nil
    · rintro ⟨rfl, -, rule, hrule, hid, hgrants⟩
      refine ⟨rule, hrule, ?_⟩
      rw [if_pos hid, admitted_pushSshRule, lists_uniqueNodeAddrs_iff hparse haddrs hsrc hreach hdst]
      exact ⟨rfl, hgrants⟩

lemma admitted_selfRules_iff {sources : List SshPolicyNode} (hsub : sources ⊆ nodes)
    (dst : SshPolicyNode) (dsts : List String) (userRules : List SshUserRule) :
    Admitted (if "autogroup:self" ∈ dsts ∧ dst.isUntaggedUserOwned = true then
        pushSshRulesForNodes (sameUserUntaggedSources sources dst) userRules action acceptEnv
      else []) src localUser ↔
      ("autogroup:self" ∈ dsts ∧ src.sameSshUserOwner dst = true) ∧
        src ∈ sources ∧ UserRulesGrant userRules src.id localUser := by
  split
  · rename_i h
    rw [admitted_pushSshRulesForNodes_iff hparse haddrs hsrc howner hreach action acceptEnv
      (List.Subset.trans (sameUserUntaggedSources_subset sources dst) hsub)]
    simp [sameUserUntaggedSources, h.1, and_assoc, and_left_comm]
  · rename_i h
    refine iff_of_false not_admitted_nil ?_
    rintro ⟨⟨hself, hsame⟩, -⟩
    exact h ⟨hself, isUntaggedUserOwned_of_sameSshUserOwner hsame⟩

lemma admitted_otherRules_iff {sources : List SshPolicyNode} (hsub : sources ⊆ nodes)
    {dst : SshPolicyNode} (hdst : dst ∈ nodes) {Matches Localpart : Prop} [Decidable Matches]
    [Decidable Localpart] (hself : Localpart → dst ∈ sources) (userRules : List SshUserRule) :
    Admitted (if Matches then pushSshRulesForNodes sources userRules action acceptEnv
      else if Localpart then
        pushLocalpartSelfAccessRules sources dst userRules action acceptEnv
      else []) src localUser ↔
      (Matches ∨ Localpart ∧
        (src.sameSshUserOwner dst = true ∨ dst.isUntaggedUserOwned = false ∧ src = dst)) ∧
        src ∈ sources ∧ UserRulesGrant userRules src.id localUser := by
  by_cases hmatches : Matches
  · rw [if_pos hmatches,
      admitted_pushSshRulesForNodes_iff hparse haddrs hsrc howner hreach action acceptEnv hsub]
    simp [hmatches]
  by_cases hlocalpart : Localpart
  · rw [if_neg hmatches, if_pos hlocalpart, admitted_localpartSelfAccess_iff hparse haddrs hsrc
      howner hreach action acceptEnv hsub hdst (hself hlocalpart)]
    simp [hmatches, hlocalpart]
  · rw [if_neg hmatches, if_neg hlocalpart]
    exact iff_of_false not_admitted_nil (by simp [hmatches, hlocalpart])

end Destination

/-! ## Both evaluators decide what the rule is for -/

variable {tokens : List String}

lemma mem_resolveSshSourceNodes {doc : PolicyDoc} {nodes : List SshPolicyNode}
    {node : SshPolicyNode} :
    node ∈ resolveSshSourceNodes doc tokens nodes ↔ node ∈ nodes ∧
      anyIpMatches (resolvedSshAliases doc tokens nodes).partialIps node.packetFilterNode = true :=
  mem_filter

lemma resolveSshSourceNodes_subset (doc : PolicyDoc) (tokens : List String)
    (nodes : List SshPolicyNode) : resolveSshSourceNodes doc tokens nodes ⊆ nodes :=
  fun _ h => (mem_resolveSshSourceNodes.mp h).1

/-- A source has an address. -/
theorem addrs_ne_nil_of_source {doc : PolicyDoc} {nodes : List SshPolicyNode}
    {node : SshPolicyNode} (h : node ∈ resolveSshSourceNodes doc tokens nodes) :
    node.addrs ≠ [] := by
  intro hnil
  have := (mem_resolveSshSourceNodes.mp h).2
  simp [anyIpMatches, packetFilterNode, hnil] at this

lemma any_sshTokenCovers_iff {doc : PolicyDoc} {nodes : List SshPolicyNode} {dsts : List String}
    (h : ∀ token ∈ dsts, token ≠ "autogroup:self" →
      (resolvedSshAliases doc [token] nodes).errors = []) (src dst : SshPolicyNode) :
    dsts.any (sshTokenCovers doc nodes src dst) = true ↔
      "autogroup:self" ∈ dsts ∧ src.sameSshUserOwner dst = true ∨
        ∃ token ∈ dsts, token ≠ "autogroup:self" ∧
          sshDestinationMatches doc token dst nodes = true := by
  have hother : ∀ token ∈ dsts, token ≠ "autogroup:self" →
      sshTokenCovers doc nodes src dst token = sshDestinationMatches doc token dst nodes := by
    intro token htoken hself
    rw [sshTokenCovers, if_neg hself, ResolvedAlias.checked, if_pos (h token htoken hself)]
    rfl
  rw [any_eq_true]
  constructor
  · rintro ⟨token, htoken, hcovers⟩
    by_cases hself : token = "autogroup:self"
    · rw [sshTokenCovers, if_pos hself] at hcovers
      exact .inl ⟨hself ▸ htoken, hcovers⟩
    · rw [hother token htoken hself] at hcovers
      exact .inr ⟨token, htoken, hself, hcovers⟩
  · rintro (⟨htoken, hsame⟩ | ⟨token, htoken, hself, hmatches⟩)
    · exact ⟨_, htoken, by rwa [sshTokenCovers, if_pos rfl]⟩
    · exact ⟨token, htoken, by rwa [hother token htoken hself]⟩

lemma SshRule.covers_iff {go : GoText} {doc : PolicyDoc} {nodes : List SshPolicyNode}
    {src dst : SshPolicyNode} {localUser : List UInt8} {rule : SshRule} {owner : SourceOwner}
    (howner : src.sourceOwner = some owner) : rule.Covers go doc nodes src dst localUser ↔
      src ∈ resolveSshSourceNodes doc rule.src nodes ∧
        (NamedIn rule.users localUser ∨ ∃ localpart,
          localpartForOwner go doc owner src.user (canonicalLocalpartDomains rule.users) =
            some localpart ∧ asBytes localpart = localUser) ∧
        rule.Reaches doc nodes src dst :=
  ⟨fun h => ⟨h.source, by simpa [howner] using h.user, h.reaches⟩,
    fun ⟨hsource, huser, hreaches⟩ => ⟨hsource, by simpa [howner] using huser, hreaches⟩⟩

/-- What the two evaluators need of a network in order to agree. -/
structure SshNetwork (doc : PolicyDoc) (nodes : List SshPolicyNode) : Prop where
  ids : (nodes.map (·.id)).Nodup
  parsable : Parsable nodes
  addrs : DistinctAddrs nodes
  names : OneNamePerAccount doc nodes

namespace SshNetwork

variable {doc : PolicyDoc} {nodes : List SshPolicyNode} (network : SshNetwork doc nodes)

include network

lemma distinctIds : DistinctIds nodes :=
  fun _ hleft _ hright hid => inj_on_of_nodup_map network.ids hleft hright hid

lemma find?_id {node : SshPolicyNode} (hnode : node ∈ nodes) :
    nodes.find? (fun other => other.id = node.id) = some node := by
  cases hfind : nodes.find? (fun other => other.id = node.id) with
  | none => simpa using find?_eq_none.mp hfind node hnode
  | some found =>
    have hid : found.id = node.id := by simpa using find?_some hfind
    rw [network.distinctIds found (mem_of_find?_eq_some hfind) node hnode hid]

variable (go : GoText) {src dst : SshPolicyNode} (hsrc : src ∈ nodes)
  (howner : src.sourceOwner.isSome = true) (hdst : dst ∈ nodes) {localUser : List UInt8}
  {rule : SshRule}

lemma id_mem_sources_iff (hdst : dst ∈ nodes) (tokens : List String) :
    dst.id ∈ (resolveSshSourceNodes doc tokens nodes).map (·.id) ↔
      dst ∈ resolveSshSourceNodes doc tokens nodes := by
  refine ⟨fun h => ?_, fun h => mem_map_of_mem h⟩
  obtain ⟨node, hnode, hid⟩ := mem_map.mp h
  rwa [← network.distinctIds node (resolveSshSourceNodes_subset _ _ _ hnode) dst hdst hid]

include hsrc howner hdst

/-- The rules compiled from a rule of the document let in the sources that the rule reaches the
destination from and has an account for. -/
theorem admitted_compileSshRule (hreach : src.addrs ≠ []) (baseUrl : String) :
    Admitted (compileSshRule go doc nodes dst baseUrl rule) src localUser ↔
      rule.Reaches doc nodes src dst ∧ src ∈ resolveSshSourceNodes doc rule.src nodes ∧
        UserRulesGrant (sshUserRules go doc rule.users (resolveSshSourceNodes doc rule.src nodes))
          src.id localUser := by
  have hsub := resolveSshSourceNodes_subset doc rule.src nodes
  unfold compileSshRule
  simp only [network.id_mem_sources_iff hdst]
  split
  · rename_i hnil
    exact iff_of_false not_admitted_nil (by simp [hnil])
  rw [admitted_append,
    admitted_selfRules_iff network.parsable network.addrs hsrc howner hreach _ _ hsub,
    admitted_otherRules_iff network.parsable network.addrs hsrc howner hreach _ _ hsub hdst
      (fun h => h.2.2), ← or_and_right]
  refine and_congr_left fun _ => ?_
  simp only [SshRule.Reaches, any_eq_true, mem_filter, decide_eq_true_eq, and_assoc,
    ne_eq, filter_eq_nil_iff, not_forall, not_not, exists_prop, and_left_comm]

variable (hne : localUser ≠ [])

include hne

/-- The rules compiled from a rule of the document let the source in exactly where that rule covers
the session. -/
theorem admitted_compileSshRule_iff (hstar : localUser ≠ asBytes "*") (husers : "*" ∉ rule.users)
    (hlocalpart : ∀ owner, src.sourceOwner = some owner →
      localpartForOwner go doc owner src.user (canonicalLocalpartDomains rule.users) ≠ some "*")
    (baseUrl : String) :
    Admitted (compileSshRule go doc nodes dst baseUrl rule) src localUser ↔
      rule.Covers go doc nodes src dst localUser := by
  obtain ⟨owner, howner'⟩ := Option.isSome_iff_exists.mp howner
  have hgrant (hmem : src ∈ resolveSshSourceNodes doc rule.src nodes) :=
    userRulesGrant_iff go hne hstar husers
      (fun left hleft right hright => network.distinctIds left (resolveSshSourceNodes_subset _ _ _ hleft) right
        (resolveSshSourceNodes_subset _ _ _ hright))
      (fun hnone left hleft right hright => network.names hnone left (resolveSshSourceNodes_subset _ _ _ hleft)
        right (resolveSshSourceNodes_subset _ _ _ hright)) hmem howner' (hlocalpart owner howner')
  rw [SshRule.covers_iff howner']
  constructor
  · intro hadmitted
    obtain ⟨hreaches, hmem, hgrants⟩ := (network.admitted_compileSshRule go hsrc howner hdst
      (addrs_ne_nil_of_admitted hadmitted) baseUrl).mp hadmitted
    exact ⟨hmem, (hgrant hmem).mp hgrants, hreaches⟩
  · rintro ⟨hmem, huser, hreaches⟩
    exact (network.admitted_compileSshRule go hsrc howner hdst (addrs_ne_nil_of_source hmem)
      baseUrl).mpr ⟨hreaches, hmem, (hgrant hmem).mpr huser⟩

/-- The server decides a held session as the rule says. -/
theorem sshRuleCovers_iff (hresolved : (resolvedSshAliases doc rule.src nodes).errors = [])
    (hdsts : ∀ token ∈ rule.dst, token ≠ "autogroup:self" →
      (resolvedSshAliases doc [token] nodes).errors = []) :
    sshRuleCovers go doc nodes src dst localUser rule = true ↔
      rule.Covers go doc nodes src dst localUser := by
  obtain ⟨owner, howner'⟩ := Option.isSome_iff_exists.mp howner
  have hsources : (resolvedSshAliases doc rule.src nodes).checked =
      .ok (resolvedSshAliases doc rule.src nodes).partialIps := by
    rw [ResolvedAlias.checked, if_pos hresolved]
  have hids : src.id = dst.id ↔ src = dst :=
    ⟨network.distinctIds src hsrc dst hdst, fun h => h ▸ rfl⟩
  have hlocal : (dst.isUntaggedUserOwned && src.sameSshUserOwner dst ||
      !dst.isUntaggedUserOwned && decide (src.id = dst.id)) = true ↔
      src.sameSshUserOwner dst = true ∨ dst.isUntaggedUserOwned = false ∧ src = dst := by
    simp only [hids, Bool.or_eq_true, Bool.and_eq_true, Bool.not_eq_true', decide_eq_true_eq]
    refine or_congr_left ⟨And.right, fun h => ⟨?_, h⟩⟩
    exact isUntaggedUserOwned_of_sameSshUserOwner h
  have hresolve : sshSourceNodesForIps (resolvedSshAliases doc rule.src nodes).partialIps nodes =
      resolveSshSourceNodes doc rule.src nodes := rfl
  unfold sshRuleCovers
  simp only [hsources, hresolve, Bool.and_eq_true, Bool.or_eq_true, any_sshTokenCovers_iff hdsts,
    hlocal, decide_eq_true_eq, network.id_mem_sources_iff hsrc, network.id_mem_sources_iff hdst,
    sshRuleAllowsUser_iff go hne howner', any_eq_true, SshRule.covers_iff howner', SshRule.Reaches,
    or_assoc, and_assoc]

end SshNetwork

/-! ## The policy of a destination -/

lemma holdAndDelegate_sshAction (baseUrl action : String) :
    (sshAction baseUrl action).holdAndDelegate ≠ "" ↔ action = "check" := by
  by_cases h : action = "check" <;> simp [sshAction, h]

variable {out : CompiledSshRule} {action : SshRuleAction} {acceptEnv : List String}

lemma action_of_mem_pushSshRule {principals : List String} {sshUsers : SshUsers}
    (h : out ∈ pushSshRule principals sshUsers action acceptEnv) : out.action = action := by
  unfold pushSshRule at h
  split at h
  · cases h
  · rw [mem_singleton.mp h]

variable {userRules : List SshUserRule}

lemma action_of_mem_pushSshRulesForNodes {nodes : List SshPolicyNode}
    (h : out ∈ pushSshRulesForNodes nodes userRules action acceptEnv) : out.action = action := by
  obtain ⟨rule, -, hout⟩ := mem_flatMap.mp h
  exact action_of_mem_pushSshRule hout

lemma action_of_mem_localpartSelfAccess {sources : List SshPolicyNode} {dst : SshPolicyNode}
    (h : out ∈ pushLocalpartSelfAccessRules sources dst userRules action acceptEnv) :
    out.action = action := by
  unfold pushLocalpartSelfAccessRules at h
  split at h
  · exact action_of_mem_pushSshRulesForNodes h
  obtain ⟨rule, -, hout⟩ := mem_flatMap.mp h
  split at hout
  · exact action_of_mem_pushSshRule hout
  · cases hout

lemma action_of_mem_compileSshRule {go : GoText} {doc : PolicyDoc} {nodes : List SshPolicyNode}
    {dst : SshPolicyNode} {baseUrl : String} {rule : SshRule}
    (h : out ∈ compileSshRule go doc nodes dst baseUrl rule) :
    out.action = sshAction baseUrl rule.action := by
  simp only [compileSshRule] at h
  split at h
  · cases h
  rcases mem_append.mp h with h | h
  · split at h
    · exact action_of_mem_pushSshRulesForNodes h
    · cases h
  · split at h
    · exact action_of_mem_pushSshRulesForNodes h
    · split at h
      · exact action_of_mem_localpartSelfAccess h
      · cases h

/-- A session that the two evaluators are asked about. -/
structure SshSession (doc : PolicyDoc) (nodes : List SshPolicyNode) (src dst : SshPolicyNode)
    (localUser : List UInt8) : Prop where
  sources_resolve : ∀ rule ∈ doc.ssh, (resolvedSshAliases doc rule.src nodes).errors = []
  destinations_resolve : ∀ rule ∈ doc.ssh, ∀ token ∈ rule.dst, token ≠ "autogroup:self" →
    (resolvedSshAliases doc [token] nodes).errors = []
  ids : (nodes.map (·.id)).Nodup
  parsable : Parsable nodes
  addrs : (nodes.flatMap (·.addrs)).Nodup
  source : src ∈ nodes
  owned : src.sourceOwner.isSome = true
  destination : dst ∈ nodes
  user : localUser ≠ []
  not_star : localUser ≠ asBytes "*"

/-- The policy compiled for the destination holds the session for a check. -/
def HeldForCheck (go : GoText) (doc : PolicyDoc) (nodes : List SshPolicyNode)
    (src dst : SshPolicyNode) (localUser : List UInt8) (baseUrl : String) (acceptEnvNil : List Bool) :
    Prop :=
  ∃ out ∈ compileSshPolicySnapshot go doc nodes dst baseUrl acceptEnvNil,
    out.1.action.holdAndDelegate ≠ "" ∧ out.1.Admits src localUser

instance (go : GoText) (doc : PolicyDoc) (nodes : List SshPolicyNode) (src dst : SshPolicyNode)
    (localUser : List UInt8) (baseUrl : String) (acceptEnvNil : List Bool) :
    Decidable (HeldForCheck go doc nodes src dst localUser baseUrl acceptEnvNil) :=
  inferInstanceAs (Decidable (∃ out ∈ compileSshPolicySnapshot _ _ _ _ _ _, _))

lemma heldForCheck_iff {go : GoText} {doc : PolicyDoc} {nodes : List SshPolicyNode}
    {src dst : SshPolicyNode} {localUser : List UInt8} {baseUrl : String} {acceptEnvNil : List Bool} :
    HeldForCheck go doc nodes src dst localUser baseUrl acceptEnvNil ↔
      ∃ rule ∈ doc.ssh, rule.action = "check" ∧
        Admitted (compileSshRule go doc nodes dst baseUrl rule) src localUser := by
  have hindex : ∀ rule ∈ doc.ssh, ∃ index, (rule, index) ∈ doc.ssh.zipIdx := by
    intro rule hrule
    obtain ⟨index, hindex, rfl⟩ := getElem_of_mem hrule
    exact ⟨index, mem_zipIdx_iff_getElem?.mpr (getElem?_eq_getElem hindex)⟩
  simp only [HeldForCheck, compileSshPolicySnapshot, mem_insertionSort, mem_flatMap, mem_map]
  constructor
  · rintro ⟨_, ⟨⟨rule, index⟩, hrule, out, hout, rfl⟩, hcheck, hadmits⟩
    rw [action_of_mem_compileSshRule hout, holdAndDelegate_sshAction] at hcheck
    exact ⟨rule, mem_of_getElem? (mem_zipIdx_iff_getElem?.mp hrule), hcheck, out, hout,
      hadmits⟩
  · rintro ⟨rule, hrule, hcheck, out, hout, hadmits⟩
    obtain ⟨index, hindex⟩ := hindex rule hrule
    refine ⟨_, ⟨(rule, index), hindex, out, hout, rfl⟩, ?_, hadmits⟩
    rwa [action_of_mem_compileSshRule hout, holdAndDelegate_sshAction]

lemma isSome_sshCheckPeriodForBytes_iff {go : GoText} {doc : PolicyDoc}
    {nodes : List SshPolicyNode} (network : SshNetwork doc nodes) {src dst : SshPolicyNode}
    (hsrc : src ∈ nodes) (hdst : dst ∈ nodes) {localUser : List UInt8} (hne : localUser ≠ []) :
    (sshCheckPeriodForBytes go doc nodes src.id dst.id localUser).isSome = true ↔
      ∃ rule ∈ doc.ssh, rule.action = "check" ∧
        sshRuleCovers go doc nodes src dst localUser rule = true := by
  unfold sshCheckPeriodForBytes
  rw [network.find?_id hsrc, network.find?_id hdst]
  split
  · rename_i h
    obtain h | h := h
    · simp [h]
    · exact absurd h hne
  · simp

/-- Texts that are equal fold, and no duration is read. -/
def exactText : GoText := ⟨fun a b => a = b, fun _ => none⟩

def adaLaptop : SshPolicyNode :=
  { id := 1, user := some "ada@example.com", userId := some 1, addrs := ["100.64.0.1"] }

def taggedServer : SshPolicyNode := { id := 2, addrs := ["100.64.0.2"], tags := ["tag:prod"] }

/-- Members reach tagged nodes under a check. -/
def memberRule (users : List String) : SshRule :=
  { action := "check", src := ["autogroup:member"], dst := ["autogroup:tagged"], users := users }

/-- The policy of the destination holds the session, but the server has no check period for it. -/
structure HeldAndRefused (doc : PolicyDoc) (nodes : List SshPolicyNode) (src dst : SshPolicyNode)
    (localUser : List UInt8) : Prop where
  session : SshSession doc nodes src dst localUser
  held : HeldForCheck exactText doc nodes src dst localUser "https://hs.example.com" []
  refused : sshCheckPeriodForBytes exactText doc nodes src.id dst.id localUser = none

end Headscale.Policy
