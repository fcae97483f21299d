import Mathlib.Data.List.Destutter
import Mathlib.Data.Prod.Lex
import Headscale.Netip.Texts
import Headscale.Policy.Decisions
import Headscale.Routes.Selection

/-!
# Approving announced routes

`auto_approved_routes_for_node` keeps the routes that are approved and adds the announced ones that the
policy approves for the node. It works on canonical prefix texts, sorted as prefixes; only where that
changes the sorted list is the result used, so that a second pass finds nothing to do.
-/

namespace Headscale.Policy

open GoNetip

/-! ## The snapshot of the approvers -/

def prefixCoversRoute (pfx route : String) : Bool :=
  match parseIpNet pfx, parseIpNet route with
  | some net, some route =>
    net.prefixLen ≤ route.prefixLen ∧ netContainsAddr net route.addr.toString
  | _, _ => false

def IpSet.containsView (set : IpSet) (node : NodeView) : Bool :=
  (node.addrs ++ node.addr.toList).any set.containsIp

namespace RouteApprovers

def approvesRoute (approvers : RouteApprovers) (node : NodeView) (route : String) : Bool :=
  if route = "0.0.0.0/0" ∨ route = "::/0" then false
  else approvers.routes.any fun entry => prefixCoversRoute entry.1 route && entry.2.containsView node

def approvesExit (approvers : RouteApprovers) (node : NodeView) : Bool :=
  approvers.exit.any fun ips => ips.containsView node

end RouteApprovers

/-- The compiled approvers, or the document as long as nothing is compiled. -/
structure RouteApprovalSnapshot where
  doc : Option PolicyDoc := none
  approvers : Option RouteApprovers := none

def RouteApprovalSnapshot.approves (snapshot : RouteApprovalSnapshot) (grammar : AddressGrammar)
    (node : NodeView) (route : String) (exit : Bool) : Bool :=
  match snapshot.approvers with
  | some approvers => if exit then approvers.approvesExit node else approvers.approvesRoute node route
  | none => snapshot.doc.any fun doc =>
    if exit then doc.autoApprovesExitNode grammar node else doc.autoApprovesRoute grammar node route

end Headscale.Policy

namespace Headscale.Routes

open GoNetip Policy

/-! ## The source's functions -/

def sortRoutes (routes : List String) : List String := routes.insertionSort DestinationLe

def typedPrefixes (values : List String) : Except String (List String) :=
  values.mapM fun value =>
    match prefixText value with
    | some text => .ok text
    | none => .error "invalid route prefix text"

/-- What a node is to the approvers. -/
structure NodeIdentity where
  addresses : List String := []
  user : Option String := none
  userId : Option Nat := none
  tags : List String := []

def NodeIdentity.view (node : NodeIdentity) : NodeView :=
  { userId := node.userId
    addr := node.addresses.head?
    addrs := node.addresses
    user := node.user
    tags := node.tags }

/-- `can_approve`: what the snapshot answers for a node that has an address. -/
def canApprove (snapshot : RouteApprovalSnapshot) (grammar : AddressGrammar) (node : NodeIdentity)
    (route : String) : Bool :=
  !node.addresses.isEmpty && snapshot.approves grammar node.view route (isExitRouteStr route)

section Approval

variable (can : String → Bool)

/-- One turn of the loop over the announced routes. -/
def approveRoute (approved : List String) (route : String) : List String :=
  if route = "" ∨ route ∈ approved then approved
  else if can route then approved ++ [route] else approved

/-- The routes as they are sorted, without repetitions and zero values. -/
def cleaned (routes : List String) : List String :=
  ((sortRoutes routes).destutter (· ≠ ·)).filter (· ≠ "")

def autoApprovedRoutesWithSnapshot (current announced : List String) : Except String (List String) := do
  let approved ← typedPrefixes current
  let announced ← typedPrefixes announced
  return cleaned (announced.foldl (approveRoute can) approved)

def autoApprovalChanged (current approved : List String) : Except String Bool := do
  let current ← typedPrefixes current
  return sortRoutes current ≠ approved

def autoApprovedRoutesForNode (current announced : List String) : Except String (List String) := do
  let approved ← autoApprovedRoutesWithSnapshot can current announced
  if ← autoApprovalChanged current approved then return approved else return current

end Approval

/-! ## The order of prefixes -/

/-- What the order of prefixes looks at: family, masked address, length and address; the zero prefix
comes first. -/
def prefixKey (text : String) : ℕ ×ₗ ℕ ×ₗ ℕ ×ₗ ℕ :=
  match prefixCompare.prefixParts text with
  | some (some (ip, bits)) =>
    toLex (ip.family.bits, toLex (maskedValue ip bits, toLex (bits, ip.value)))
  | _ => toLex (0, toLex (0, toLex (0, 0)))

lemma prefixParts_of_text {text canonical : String} (h : prefixText text = some canonical) :
    ∃ parts, prefixCompare.prefixParts text = some parts := by
  unfold prefixText at h
  unfold prefixCompare.prefixParts
  split
  · exact ⟨none, rfl⟩
  next hne =>
  rw [if_neg hne] at h
  cases hparse : parsePrefix text with
  | ok parts => exact ⟨some parts, rfl⟩
  | error e => simp [Routes.parsePrefixText, hparse, Except.toOption] at h

lemma compare_then_ne_gt {a b : Nat} {o : Ordering} :
    (compare a b).then o ≠ .gt ↔ a < b ∨ (a = b ∧ o ≠ .gt) := by
  rcases Nat.lt_trichotomy a b with h | h | h
  · simp [Nat.compare_eq_lt.mpr h, h]
  · simp [h]
  · simp [Nat.compare_eq_gt.mpr h, h.not_gt, h.ne']

lemma destinationLe_iff {a b : String} {x y : Option (IpAddr × Nat)}
    (ha : prefixCompare.prefixParts a = some x) (hb : prefixCompare.prefixParts b = some y) :
    DestinationLe a b ↔ prefixKey a ≤ prefixKey b := by
  have hsame : ∀ (ip ip' : IpAddr) (n n' : Nat), ip.family = ip'.family →
      (compareAddress ip n ip' n' ≠ .gt ↔
        toLex (ip.family.bits, toLex (maskedValue ip n, toLex (n, ip.value))) ≤
          toLex (ip'.family.bits, toLex (maskedValue ip' n', toLex (n', ip'.value)))) := by
    intro ip ip' n n' hfamily
    simp only [compareAddress, Ordering.then_assoc, compare_then_ne_gt, Prod.Lex.toLex_le_toLex,
      hfamily, lt_irrefl, false_or, true_and, Nat.compare_ne_gt]
  unfold DestinationLe prefixCompare prefixKey
  rw [ha, hb]
  rcases x with _ | ⟨ip, n⟩ <;> rcases y with _ | ⟨ip', n'⟩
  · simp
  · cases ip' <;> simp [Prod.Lex.toLex_le_toLex, IpAddr.family, Family.bits]
  · cases ip <;> simp [Prod.Lex.toLex_le_toLex, IpAddr.family, Family.bits]
  · cases ip <;> cases ip'
    · exact hsame _ _ _ _ rfl
    · simp [Prod.Lex.toLex_le_toLex, IpAddr.family, Family.bits]
    · simp [Prod.Lex.toLex_le_toLex, IpAddr.family, Family.bits]
    · exact hsame _ _ _ _ rfl

/-! ## Typed texts -/

/-- A text that `prefix_text` prints: a canonical prefix or the empty text. -/
def Typed (text : String) : Prop := prefixText text = some text

lemma Typed.cases {text : String} (h : Typed text) :
    text = "" ∨ ∃ ip bits, prefixCompare.prefixParts text = some (some (ip, bits)) ∧
      text = ip.toString ++ "/" ++ String.ofList (Text.decimal bits) := by
  by_cases hempty : text = ""
  · exact .inl hempty
  right
  rw [Typed, prefixText, if_neg hempty, parsePrefixText] at h
  rw [prefixCompare.prefixParts, if_neg hempty]
  cases hparse : parsePrefix text with
  | error e => simp [hparse, Except.toOption] at h
  | ok parts =>
    rw [hparse] at h
    exact ⟨parts.1, parts.2, rfl, (Option.some.inj h).symm⟩

lemma Typed.ext {a b : String} (ha : Typed a) (hb : Typed b) (h : prefixKey a = prefixKey b) : a = b := by
  have hbits : ∀ family : Family, family.bits ≠ 0 := fun family => by cases family <;> decide
  unfold prefixKey at h
  rcases ha.cases with rfl | ⟨ip, n, hparts, htext⟩ <;> rcases hb.cases with rfl | ⟨ip', n', hparts', htext'⟩
  · rfl
  · rw [hparts'] at h
    exact absurd (congrArg (fun key => (ofLex key).1) h).symm (hbits _)
  · rw [hparts] at h
    exact absurd (congrArg (fun key => (ofLex key).1) h) (hbits _)
  · rw [hparts, hparts'] at h
    simp only [toLex_inj, Prod.mk.injEq] at h
    have hfamily : ip.family = ip'.family := by
      revert h
      cases ip <;> cases ip' <;> simp [IpAddr.family, Family.bits]
    rw [htext, htext', IpAddr.ext_value hfamily h.2.2.2, h.2.2.1]

lemma mem_destutter_ne {α : Type} [DecidableEq α] {x : α} {values : List α} :
    x ∈ values.destutter (· ≠ ·) ↔ x ∈ values := by
  have hfrom : ∀ (rest : List α) (a : α), x ∈ rest.destutter' (· ≠ ·) a ↔ x = a ∨ x ∈ rest := by
    intro rest
    induction rest with
    | nil => simp
    | cons b rest ih =>
      intro a
      rw [List.destutter'_cons]
      split <;> grind
  cases values with
  | nil => rfl
  | cons a rest => rw [List.destutter_cons', hfrom, List.mem_cons]

section Sorted

variable {routes : List String} (htyped : ∀ route ∈ routes, Typed route)

@[simp] lemma mem_cleaned {route : String} : route ∈ cleaned routes ↔ route ∈ routes ∧ route ≠ "" := by
  simp [cleaned, sortRoutes, mem_destutter_ne]

include htyped

lemma destinationLe_iff_key {a b : String} (ha : a ∈ routes) (hb : b ∈ routes) :
    DestinationLe a b ↔ prefixKey a ≤ prefixKey b := by
  obtain ⟨x, hx⟩ := prefixParts_of_text (htyped a ha)
  obtain ⟨y, hy⟩ := prefixParts_of_text (htyped b hb)
  exact destinationLe_iff hx hy

lemma sortRoutes_eq : sortRoutes routes = routes.insertionSort fun a b => prefixKey a ≤ prefixKey b := by
  have h := List.map_insertionSort DestinationLe (fun a b => prefixKey a ≤ prefixKey b) id routes
    fun a ha b hb => destinationLe_iff_key htyped ha hb
  simpa [sortRoutes] using h

lemma cleaned_increasing : (cleaned routes).Pairwise fun a b => prefixKey a < prefixKey b := by
  refine List.Pairwise.filter _ ?_
  have hsorted : (sortRoutes routes).Pairwise fun a b => prefixKey a ≤ prefixKey b := by
    rw [sortRoutes_eq htyped]
    exact List.pairwise_insertionSort (Order.Preimage prefixKey (· ≤ ·)) routes
  have hsub := List.destutter_sublist (· ≠ ·) (sortRoutes routes)
  -- neighbours differ, and texts with one key are equal
  have hmem : ∀ route ∈ (sortRoutes routes).destutter (· ≠ ·), Typed route := fun route hroute =>
    htyped route (by simpa [sortRoutes] using hsub.subset hroute)
  have hchain := List.isChain_destutter (· ≠ ·) (sortRoutes routes)
  have hle := (hsorted.sublist hsub).isChain
  rw [List.isChain_iff_getElem] at hchain hle
  have hlt : ((sortRoutes routes).destutter (· ≠ ·)).IsChain fun a b => prefixKey a < prefixKey b := by
    rw [List.isChain_iff_getElem]
    intro i hi
    refine lt_of_le_of_ne (hle i hi) fun hkey => hchain i hi ?_
    exact (hmem _ (List.getElem_mem _)).ext (hmem _ (List.getElem_mem _)) hkey
  exact List.isChain_iff_pairwise.mp hlt

lemma cleaned_of_increasing (h : routes.Pairwise fun a b => prefixKey a < prefixKey b)
    (hempty : "" ∉ routes) : cleaned routes = routes := by
  have hsorted : sortRoutes routes = routes := by
    rw [sortRoutes_eq htyped]
    exact (h.imp le_of_lt).insertionSort_eq
  have hchain : routes.IsChain (· ≠ ·) := (h.imp fun hlt heq => hlt.ne (congrArg _ heq)).isChain
  rw [cleaned, hsorted, List.destutter_of_isChain _ _ hchain, List.filter_eq_self]
  intro route hroute
  simp only [decide_eq_true_eq]
  rintro rfl
  exact hempty hroute

end Sorted

/-! ## One pass -/

section Pass

variable {can : String → Bool} {current announced : List String}

/-- The canonical text of a valid entry. -/
def typedText (text : String) : String := (prefixText text).getD ""

lemma typed_typedText {text : String} (h : (prefixText text).isSome) : Typed (typedText text) := by
  obtain ⟨canonical, hcanonical⟩ := Option.isSome_iff_exists.mp h
  rw [typedText, hcanonical]
  exact (prefixText_canonical hcanonical).1

lemma prefixText_typedText {text : String} (h : (prefixText text).isSome) :
    prefixText (typedText text) = prefixText text := by
  obtain ⟨canonical, hcanonical⟩ := Option.isSome_iff_exists.mp h
  rw [typed_typedText h, typedText, hcanonical, Option.getD_some]

lemma typedText_ne_empty {text : String} (h : (prefixText text).isSome) (hne : text ≠ "") :
    typedText text ≠ "" := by
  obtain ⟨canonical, hcanonical⟩ := Option.isSome_iff_exists.mp h
  rw [typedText, hcanonical, Option.getD_some]
  rintro rfl
  -- the empty text is no prefix, but the text is one
  have hparse := (prefixText_canonical hcanonical).2
  rw [prefixText, if_neg hne, parsePrefixText, ← hparse] at hcanonical
  exact absurd hcanonical (by decide)

lemma Typed.typedText {text : String} (h : Typed text) : typedText text = text := by
  rw [Routes.typedText, h, Option.getD_some]

lemma typedPrefixes_eq {values : List String} (h : ∀ value ∈ values, (prefixText value).isSome) :
    typedPrefixes values = .ok (values.map typedText) := by
  unfold typedPrefixes
  induction values with
  | nil => rfl
  | cons value rest ih =>
    obtain ⟨canonical, hcanonical⟩ := Option.isSome_iff_exists.mp (h value (by simp))
    rw [List.mapM_cons, ih fun v hv => h v (by simp [hv])]
    simp [hcanonical, typedText, bind, Except.bind, pure, Except.pure]

/-- The loop adds the announced routes that can be approved, and nothing else. -/
theorem mem_approveRoutes {approved : List String} {route : String} :
    route ∈ announced.foldl (approveRoute can) approved ↔
      route ∈ approved ∨
        (route ∈ announced ∧ route ≠ "" ∧ can route = true) := by
  induction announced generalizing approved with
  | nil => simp
  | cons next rest ih =>
    rw [List.foldl_cons, ih, approveRoute]
    grind

lemma approveRoutes_of_done {approved : List String} (h : ∀ route ∈ announced, route ≠ "" →
    can route = true → route ∈ approved) :
    announced.foldl (approveRoute can) approved = approved := by
  induction announced with
  | nil => rfl
  | cons next rest ih =>
    have hnext : approveRoute can approved next = approved := by
      grind [approveRoute]
    rw [List.foldl_cons, hnext]
    exact ih fun route hroute => h route (by simp [hroute])

variable (can current announced)

/-- What a pass over valid entries approves. -/
def approvedRoutes : List String :=
  cleaned ((announced.map typedText).foldl (approveRoute can) (current.map typedText))

variable {can current announced}

lemma mem_approvedRoutes {route : String} :
    route ∈ approvedRoutes can current announced ↔ route ≠ "" ∧
      (route ∈ current.map typedText ∨
        (route ∈ announced.map typedText ∧ can route = true)) := by
  rw [approvedRoutes, mem_cleaned, mem_approveRoutes]
  grind

variable (can) (hcurrent : ∀ route ∈ current, (prefixText route).isSome)
  (hannounced : ∀ route ∈ announced, (prefixText route).isSome)
include hcurrent hannounced

lemma withSnapshot_eq : autoApprovedRoutesWithSnapshot can current announced =
    .ok (approvedRoutes can current announced) := by
  rw [autoApprovedRoutesWithSnapshot, typedPrefixes_eq hcurrent, typedPrefixes_eq hannounced]
  rfl

lemma forNode_eq : autoApprovedRoutesForNode can current announced =
    .ok (if sortRoutes (current.map typedText) ≠ approvedRoutes can current announced
      then approvedRoutes can current announced else current) := by
  rw [autoApprovedRoutesForNode, withSnapshot_eq can hcurrent hannounced]
  simp only [autoApprovalChanged, typedPrefixes_eq hcurrent, bind, Except.bind, pure, Except.pure,
    decide_eq_true_eq]
  split <;> rfl

lemma typedRoutes_typed {route : String} (h : route ∈ (announced.map typedText).foldl
    (approveRoute can) (current.map typedText)) : Typed route := by
  rcases mem_approveRoutes.mp h with h | ⟨h, -⟩
  · obtain ⟨text, htext, rfl⟩ := List.mem_map.mp h
    exact typed_typedText (hcurrent text htext)
  · obtain ⟨text, htext, rfl⟩ := List.mem_map.mp h
    exact typed_typedText (hannounced text htext)

lemma approvedRoutes_increasing : (approvedRoutes can current announced).Pairwise
    fun a b => prefixKey a < prefixKey b :=
  cleaned_increasing fun _ => typedRoutes_typed can hcurrent hannounced

lemma approvedRoutes_typed {route : String}
    (h : route ∈ approvedRoutes can current announced) : Typed route :=
  typedRoutes_typed can hcurrent hannounced (mem_cleaned.mp h).1

lemma map_typedText_approvedRoutes : (approvedRoutes can current announced).map typedText =
    approvedRoutes can current announced :=
  (List.map_congr_left fun _ h => (approvedRoutes_typed can hcurrent hannounced h).typedText).trans
    (List.map_id' _)

lemma cleaned_approvedRoutes : cleaned (approvedRoutes can current announced) =
    approvedRoutes can current announced :=
  cleaned_of_increasing (fun _ => approvedRoutes_typed can hcurrent hannounced)
    (approvedRoutes_increasing can hcurrent hannounced) fun h => (mem_approvedRoutes.mp h).1 rfl

/-- A second pass over its own result approves nothing more. -/
theorem approvedRoutes_again : approvedRoutes can
    (approvedRoutes can current announced) announced =
      approvedRoutes can current announced := by
  conv_lhs => rw [approvedRoutes]
  rw [map_typedText_approvedRoutes can hcurrent hannounced, approveRoutes_of_done,
    cleaned_approvedRoutes can hcurrent hannounced]
  intro route hroute hne hcan
  exact mem_approvedRoutes.mpr ⟨hne, .inr ⟨hroute, hcan⟩⟩

/-- The result holds the approved prefixes, as they are or as they were written. -/
theorem forNode_cases : ∃ result,
    autoApprovedRoutesForNode can current announced = .ok result ∧
      autoApprovedRoutesForNode can result announced = .ok result ∧
      ((∀ route ∈ result, Typed route ∧ route ∈ approvedRoutes can current announced) ∨
        result = current) ∧
      ∀ route ∈ approvedRoutes can current announced,
        ∃ text ∈ result, prefixText text = some route := by
  have hpass := forNode_eq can hcurrent hannounced
  by_cases hsame : sortRoutes (current.map typedText) =
      approvedRoutes can current announced
  · rw [if_neg (not_not.mpr hsame)] at hpass
    refine ⟨current, hpass, hpass, .inr rfl, fun route hroute => ?_⟩
    rw [← hsame, sortRoutes, List.mem_insertionSort] at hroute
    obtain ⟨text, htext, rfl⟩ := List.mem_map.mp hroute
    have hvalid := hcurrent text htext
    exact ⟨text, htext, by rw [← prefixText_typedText hvalid, typed_typedText hvalid]⟩
  · rw [if_pos hsame] at hpass
    have htyped : ∀ route ∈ approvedRoutes can current announced, Typed route := fun _ =>
      approvedRoutes_typed can hcurrent hannounced
    refine ⟨_, hpass, ?_, .inl fun route hroute => ⟨htyped route hroute, hroute⟩,
      fun route hroute => ⟨route, hroute, htyped route hroute⟩⟩
    rw [forNode_eq can (fun route hroute => by rw [htyped route hroute]; rfl) hannounced,
      approvedRoutes_again can hcurrent hannounced, ite_self]

end Pass

/-- Approving routes takes no approval away, adds only announced routes that the snapshot approves, and
all of them, and finds nothing to do the second time. What is compared are prefixes, by their canonical
texts. -/
theorem approval_adds_what_is_approved (snapshot : RouteApprovalSnapshot) (grammar : AddressGrammar)
    (node : NodeIdentity) (current announced : List String)
    (hcurrent : ∀ route ∈ current, (prefixText route).isSome)
    (hannounced : ∀ route ∈ announced, (prefixText route).isSome) :
    ∃ result,
      autoApprovedRoutesForNode (canApprove snapshot grammar node) current announced = .ok result ∧
      (∀ route ∈ current, route ≠ "" → ∃ kept ∈ result, prefixText kept = prefixText route) ∧
      (∀ route ∈ result, (∃ kept ∈ current, prefixText route = prefixText kept) ∨
        ∃ text ∈ announced, prefixText route = prefixText text ∧
          snapshot.approves grammar node.view route (isExitRouteStr route) = true) ∧
      (∀ text ∈ announced, text ≠ "" → node.addresses ≠ [] →
        snapshot.approves grammar node.view (typedText text) (isExitRouteStr (typedText text)) = true →
        ∃ route ∈ result, prefixText route = prefixText text) ∧
      autoApprovedRoutesForNode (canApprove snapshot grammar node) result announced = .ok result ∧
      ∃ sorted, autoApprovedRoutesWithSnapshot (canApprove snapshot grammar node) current announced =
        .ok sorted ∧ sorted.Pairwise DestinationLe ∧ sorted.Nodup := by
  obtain ⟨result, hfirst, hagain, honly, hall⟩ := forNode_cases _ hcurrent hannounced
  refine ⟨result, hfirst, fun route hroute hne => ?_, fun route hroute => ?_,
    fun text htext hne hnode happroves => ?_, hagain, _, withSnapshot_eq _ hcurrent hannounced, ?_, ?_⟩
  · have hvalid := hcurrent route hroute
    obtain ⟨kept, hkept, htext⟩ := hall (typedText route) (mem_approvedRoutes.mpr
      ⟨typedText_ne_empty hvalid hne, .inl (List.mem_map_of_mem hroute)⟩)
    exact ⟨kept, hkept, by rw [htext, ← prefixText_typedText hvalid, typed_typedText hvalid]⟩
  · rcases honly with honly | rfl
    · obtain ⟨htyped, happroved⟩ := honly route hroute
      rcases (mem_approvedRoutes.mp happroved).2 with h | ⟨h, hcan⟩
      · obtain ⟨kept, hkept, rfl⟩ := List.mem_map.mp h
        exact .inl ⟨kept, hkept, prefixText_typedText (hcurrent kept hkept)⟩
      · obtain ⟨text, htext, rfl⟩ := List.mem_map.mp h
        refine .inr ⟨text, htext, prefixText_typedText (hannounced text htext), ?_⟩
        exact (Bool.and_eq_true_iff.mp hcan).2
    · exact .inl ⟨route, hroute, rfl⟩
  · have hvalid := hannounced text htext
    obtain ⟨route, hroute, heq⟩ := hall (typedText text) (mem_approvedRoutes.mpr
      ⟨typedText_ne_empty hvalid hne, .inr ⟨List.mem_map_of_mem htext, by
        simp [canApprove, hnode, happroves]⟩⟩)
    exact ⟨route, hroute, by rw [heq, ← prefixText_typedText hvalid, typed_typedText hvalid]⟩
  · refine (approvedRoutes_increasing _ hcurrent hannounced).imp_of_mem fun ha hb hlt => ?_
    exact (destinationLe_iff_key (fun _ => approvedRoutes_typed _ hcurrent hannounced) ha hb).mpr
      hlt.le
  · exact (approvedRoutes_increasing _ hcurrent hannounced).imp fun hlt heq =>
      hlt.ne (congrArg prefixKey heq)

/-- A snapshot that approves what lies in one prefix, for every node with an address. -/
def approveTen : RouteApprovalSnapshot := { approvers := some { routes := [("10.0.0.0/8", .all)] } }

theorem announced_route_is_added :
    (prefixText "192.0.2.0/24").isSome ∧ (prefixText "10.1.0.0/16").isSome ∧
    ∃ result, autoApprovedRoutesForNode (canApprove approveTen ⟨fun _ => none, fun _ => none⟩
      { addresses := ["100.64.0.1"] }) ["192.0.2.0/24"] ["10.1.0.0/16"] = .ok result ∧
        ∃ kept ∈ result, prefixText kept = prefixText "192.0.2.0/24" := by
  have hcurrent : (prefixText "192.0.2.0/24").isSome := by decide +kernel
  have hannounced : (prefixText "10.1.0.0/16").isSome := by decide +kernel
  obtain ⟨result, hresult, hkept, -⟩ := approval_adds_what_is_approved approveTen
    ⟨fun _ => none, fun _ => none⟩ { addresses := ["100.64.0.1"] } ["192.0.2.0/24"] ["10.1.0.0/16"]
    (by simpa using hcurrent) (by simpa using hannounced)
  exact ⟨hcurrent, hannounced, result, hresult, hkept _ (by simp) (by decide)⟩

end Headscale.Routes
