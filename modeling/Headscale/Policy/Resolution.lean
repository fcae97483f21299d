import Headscale.Policy.Doc

/-!
# Resolving aliases

An alias resolves to an optional list of prefixes and a list of errors, and it can have both. Each
consumer decides whether it uses such a partial result. An empty list is not the same as none.
-/

namespace Headscale.Policy

open GoNetip Collection List Text

/-! ## Results -/

inductive AliasError where
  | invalidAddress
  | multipleUsers (token : String) (found : List (Nat × String))
  | selfNeedsNode
  | unknownAutogroup (token : String)
  | recursiveGroup
  | invalidPrefix (value : String)
  | resolvingHost (host : String)
deriving DecidableEq, Repr

def AliasError.text (quote : String → String) : AliasError → String
  | .invalidAddress => "Add(IP\x7b\x7d)"
  | .multipleUsers token found =>
    "multiple users found: token " ++ quote token ++ " found: [ " ++
      String.join (found.map fun user => toString user.1 ++ ": " ++ user.2 ++ ", ") ++ " ]"
  | .selfNeedsNode =>
    "autogroup:self requires per-node resolution and cannot be resolved in this context"
  | .unknownAutogroup token => "unknown autogroup: " ++ quote token
  | .recursiveGroup => "group members cannot be recursive"
  | .invalidPrefix value => "invalid prefix: " ++ quote value
  | .resolvingHost host => "error resolving host: " ++ quote host

structure ResolvedAlias where
  ips : Option (List String) := none
  errors : List AliasError := []
deriving DecidableEq, Repr

namespace ResolvedAlias

def set (ips : List String) : ResolvedAlias := { ips := some ips }

def failed (error : AliasError) : ResolvedAlias := { errors := [error] }

/-- The usable part, errors or not. -/
def partialIps (result : ResolvedAlias) : List String := result.ips.getD []

/-- The usable part, only where nothing went wrong. -/
def checked (result : ResolvedAlias) : Except (List AliasError) (List String) :=
  if result.errors = [] then .ok result.partialIps else .error result.errors

def append (a b : ResolvedAlias) : ResolvedAlias :=
  { ips := some (a.partialIps ++ b.partialIps), errors := a.errors ++ b.errors }

end ResolvedAlias

/-- The text of a failed `checked`: one error as it is, several as a list. -/
def aliasErrorsText (quote : String → String) : List AliasError → String
  | [error] => error.text quote
  | errors => "multiple errors:\n\t" ++ "\n\t".intercalate (errors.map (·.text quote))

/-! ## Resolution -/

/-- The host prefixes of the nodes' addresses, zones dropped, with an error for each address that
does not parse. -/
def nodeAddresses (nodes : List PacketFilterNode) : ResolvedAlias :=
  { ips := some (nodes.flatMap fun node => node.addrs.filterMap addrPrefixString)
    errors := nodes.flatMap fun node => node.addrs.filterMap fun addr =>
      match parseAddr addr with
      | .ok _ => none
      | .error _ => some .invalidAddress }

/-- The account a name stands for: a provider identifier first, then the one user with that email or
name. Several matches continue with account zero and an error; no match is an empty set. -/
def usernameAccount (users : List PolicyUser) (token : String) :
    Option (Nat × Option AliasError) :=
  let name := (stripLastStr '@' token).getD token
  match users.find? fun user => user.providerIdentifier = some name with
  | some user => some (user.id, none)
  | none =>
    match users.filter fun user => user.email = name ∨ user.name = name with
    | [] => none
    | [user] => some (user.id, none)
    | found => some (0, some (.multipleUsers token (found.map fun user => (user.id, user.name))))

def username (doc : PolicyDoc) (token : String) (nodes : List PacketFilterNode) : ResolvedAlias :=
  match doc.users with
  | none =>
    nodeAddresses (nodes.filter fun node =>
      node.tags = [] ∧ ∃ login ∈ node.user, userMatchesLogin token login = true)
  | some users =>
    match usernameAccount users token with
    | none => .set []
    | some (id, error) =>
      let result := nodeAddresses (nodes.filter fun node => node.tags = [] ∧ node.userId = some id)
      { result with errors := error.toList ++ result.errors }

/-- The members of a group, under its token or its bare name. -/
def groupMembers (doc : PolicyDoc) (token : String) : List String :=
  ((doc.groups.lookup token).or
    ((stripStartStr "group:" token).bind fun group => doc.groups.lookup group)).getD []

/-- What is left of the aliases once prefixes, users, autogroups and groups are taken out. -/
def resolveNamed (doc : PolicyDoc) (token : String) (nodes : List PacketFilterNode) :
    ResolvedAlias :=
  if startsWith "tag:" token then nodeAddresses (nodes.filter fun node => token ∈ node.tags)
  else
    let host := (stripStartStr "host:" token).getD token
    match doc.hosts.lookup host with
    | some value =>
      match ipsetStringToCidrs value with
      | [] => .failed (.invalidPrefix value)
      | ips => .set ips
    | none =>
      match ipsetStringToCidrs token with
      | [] => .failed (.resolvingHost host)
      | ips => .set ips

/-- Every alias but a group, in the order the source tries them; absent for a group token. -/
def resolveDirect (doc : PolicyDoc) (token : String) (nodes : List PacketFilterNode) :
    Option ResolvedAlias :=
  match aliasPrefix token with
  | some cidr => some (.set (ipsetStringToCidrs cidr))
  | none =>
    if aliasKind token = some .username then some (username doc token nodes)
    else if token = "*" then some (.set tailnetFilterSrcs)
    else if token = "autogroup:danger-all" then some (.set ["0.0.0.0/0", "::/0"])
    else if token = "autogroup:internet" then some (.set internetFilterCidrs)
    else if token = "autogroup:member" then
      some (nodeAddresses (nodes.filter fun node => node.tags = []))
    else if token = "autogroup:tagged" then
      some (nodeAddresses (nodes.filter fun node => node.tags ≠ []))
    else if token = "autogroup:self" then some (.failed .selfNeedsNode)
    else if startsWith "autogroup:" token then some (.failed (.unknownAutogroup token))
    else if startsWith "group:" token then none
    else some (resolveNamed doc token nodes)

/-- `resolve`, with the group tokens being expanded in `visiting`. Every level of group expansion
adds a token to `visiting`, so that the depth is bounded by the groups of the document. -/
def resolve (doc : PolicyDoc) (nodes : List PacketFilterNode) :
    Nat → List String → String → ResolvedAlias
  | depth, visiting, token =>
    match resolveDirect doc token nodes with
    | some result => result
    | none =>
      if token ∈ visiting then .failed .recursiveGroup
      else
        match depth with
        | 0 => .set []
        | depth + 1 =>
          (groupMembers doc token).foldl (fun result member =>
            result.append (if containsChar '@' member then username doc member nodes
              else resolve doc nodes depth (token :: visiting) member)) (.set [])

/-- How deep group expansion can get: each group has a token and a bare name. -/
def groupDepth (doc : PolicyDoc) : Nat := 2 * doc.groups.length + 1

def resolveAlias (doc : PolicyDoc) (token : String) (nodes : List PacketFilterNode) :
    ResolvedAlias :=
  resolve doc nodes (groupDepth doc) [] token

def aliases (doc : PolicyDoc) (tokens : List String) (nodes : List PacketFilterNode) :
    ResolvedAlias :=
  tokens.foldl (fun result token => result.append (resolveAlias doc token nodes)) (.set [])

/-- Owners and approvers: a user name wins over every other reading. -/
def owners (doc : PolicyDoc) (tokens : List String) (nodes : List PacketFilterNode) :
    ResolvedAlias :=
  tokens.foldl (fun result token =>
    result.append (if containsChar '@' token then username doc token nodes
      else resolveAlias doc token nodes)) (.set [])

/-! ## The depth is enough -/

/-- The tokens under which a group of the document can be expanded. -/
def groupTokens (doc : PolicyDoc) : List String :=
  doc.groups.flatMap fun entry => [entry.1, "group:" ++ entry.1]

variable (doc : PolicyDoc)

lemma length_groupTokens : (groupTokens doc).length = 2 * doc.groups.length := by
  simp [groupTokens, Nat.mul_comm]

/-- A group token with members is one of the document's. -/
theorem mem_groupTokens {doc : PolicyDoc} {token : String}
    (hmembers : groupMembers doc token ≠ []) : token ∈ groupTokens doc := by
  unfold groupMembers at hmembers
  cases htok : doc.groups.lookup token with
  | some members =>
    exact mem_flatMap.mpr ⟨_, mem_of_lookup htok, by simp⟩
  | none =>
    cases hgroup : stripStartStr "group:" token with
    | none => simp [htok, hgroup] at hmembers
    | some group =>
      have htoken : token = "group:" ++ group := stripStartStr_eq hgroup
      cases hname : doc.groups.lookup group with
      | some members =>
        exact mem_flatMap.mpr ⟨_, mem_of_lookup hname, by simp [htoken]⟩
      | none => simp [htok, hgroup, hname] at hmembers

/-- One more level changes nothing once the levels cover the groups not being expanded yet. -/
theorem resolve_succ (nodes : List PacketFilterNode) (depth : Nat) (visiting : List String)
    (hnodup : visiting.Nodup) (hsub : ∀ token ∈ visiting, token ∈ groupTokens doc)
    (hdepth : groupDepth doc ≤ depth + visiting.length) (token : String) :
    resolve doc nodes (depth + 1) visiting token = resolve doc nodes depth visiting token := by
  induction depth generalizing visiting token with
  | zero =>
    have hle : visiting.length ≤ 2 * doc.groups.length := by
      rw [← length_groupTokens]
      exact (subperm_of_subset hnodup hsub).length_le
    simp only [groupDepth] at hdepth
    omega
  | succ depth ih =>
    rw [resolve, resolve]
    cases resolveDirect doc token nodes with
    | some result => rfl
    | none =>
      by_cases hvisiting : token ∈ visiting
      · simp [hvisiting]
      by_cases hmembers : groupMembers doc token = []
      · simp [hmembers]
      -- Only the expansion of a new group goes one level down.
      have hnext : ∀ member, resolve doc nodes (depth + 1) (token :: visiting) member =
          resolve doc nodes depth (token :: visiting) member := by
        intro member
        refine ih (token :: visiting) (nodup_cons.mpr ⟨hvisiting, hnodup⟩) ?_ ?_ member
        · intro t ht
          rcases mem_cons.mp ht with rfl | ht
          · exact mem_groupTokens hmembers
          · exact hsub t ht
        · simp only [length_cons]
          omega
      simp only [hnext]

/-- Expanding groups deeper than `groupDepth` never changes an alias. -/
theorem resolve_depth (nodes : List PacketFilterNode) (extra : Nat) (token : String) :
    resolve doc nodes (groupDepth doc + extra) [] token = resolveAlias doc token nodes := by
  induction extra with
  | zero => rfl
  | succ extra ih =>
    rw [← Nat.add_assoc, resolve_succ doc nodes _ [] nodup_nil (by simp) (by simp), ih]

end Headscale.Policy
