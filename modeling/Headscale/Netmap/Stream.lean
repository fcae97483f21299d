import Headscale.Netmap.Delta

/-!
# The client's view of its peers

A client takes the frames of a stream one after the other: it forgets the peers that are removed, takes
the whole ones as they come, and changes those that are patched. The server does not look at the view;
it goes by what it remembers. A frame keeps the two in step as to which peers there are. It brings the
peers it is about up to date, apart from what a patch cannot say.
-/

namespace Headscale.Netmap

open Std List ExtTreeMap PeerChange

/-! ## The client -/

abbrev ClientView := PeerState

def applyPatch (view : ClientView) (patch : PeerChange) : ClientView :=
  view.alter patch.nodeId fun shown =>
    shown.map fun shown => { shown with node := patch.encode.applyTo shown.node }

def receive (view : ClientView) (response : MapResponse) : ClientView :=
  response.peersChangedPatch.foldl applyPatch
    ((response.peers ++ response.peersChanged).foldl insertPeer
      (response.peersRemoved.foldl ExtTreeMap.erase view))

namespace PeerDeltaChunk

def deliver (chunk : PeerDeltaChunk) (view : ClientView) : ClientView := chunk.frames.foldl receive view

def wholeIds (chunk : PeerDeltaChunk) : List Nat :=
  chunk.frames.flatMap fun response => (response.peers ++ response.peersChanged).map MapStateNode.id

def patchIds (chunk : PeerDeltaChunk) : List Nat :=
  chunk.frames.flatMap fun response => response.peersChangedPatch.map nodeId

end PeerDeltaChunk

/-! ## Agreement -/

/-- Equal up to when the peer was last seen and to hostinfo that peers do not see. -/
structure Agrees (shown current : MapStateNode) : Prop where
  slices : shown.slices = current.slices
  node : shown.node = { current.node with lastSeen := shown.node.lastSeen }
  hostinfo : rawPeerHostinfoEqual shown.hostinfo current.hostinfo = true

lemma peerSlicesEqual_iff {α : Type} [DecidableEq α] (left right : Option (List α)) :
    peerSlicesEqual left right = true ↔ left.getD [] = right.getD [] := by
  unfold peerSlicesEqual
  rw [decide_eq_true_eq]
  constructor
  · rintro (⟨hleft, hright⟩ | rfl)
    · rw [hleft, hright]
    · rfl
  · intro heq
    cases left with
    | none => exact .inl ⟨rfl, heq.symm⟩
    | some left =>
      cases right with
      | none => exact .inl ⟨heq, rfl⟩
      | some right => exact .inr (congrArg some heq)

/-- What peers see of a hostinfo. -/
def RawHostinfo.seen (hostinfo : RawHostinfo) : RawHostinfo :=
  { hostinfo with
    services := some (hostinfo.services.getD [])
    sshHostKeys := some (hostinfo.sshHostKeys.getD [])
    routableIps := some (hostinfo.routableIps.getD [])
    rest := "" }

lemma rawPeerHostinfoEqual_iff (left right : Option RawHostinfo) :
    rawPeerHostinfoEqual left right = true ↔ left.map RawHostinfo.seen = right.map RawHostinfo.seen := by
  cases left <;> cases right <;>
    simp [rawPeerHostinfoEqual, RawHostinfo.seen, peerSlicesEqual_iff, and_assoc]

namespace Agrees

lemma refl (peer : MapStateNode) : Agrees peer peer :=
  ⟨rfl, rfl, (rawPeerHostinfoEqual_iff _ _).mpr rfl⟩

lemma trans {first second third : MapStateNode} (h : Agrees first second) (h' : Agrees second third) :
    Agrees first third := by
  refine ⟨h.slices.trans h'.slices, ?_, ?_⟩
  · calc first.node = { second.node with lastSeen := first.node.lastSeen } := h.node
      _ = { third.node with lastSeen := first.node.lastSeen } :=
        congrArg (fun node : MapNode => { node with lastSeen := first.node.lastSeen }) h'.node
  · rw [rawPeerHostinfoEqual_iff]
    exact ((rawPeerHostinfoEqual_iff _ _).mp h.hostinfo).trans
      ((rawPeerHostinfoEqual_iff _ _).mp h'.hostinfo)

end Agrees

/-! ## What is said of a peer -/

namespace PeerDelta

/-- The peer is remembered anew. -/
def recorded : PeerDelta → Bool
  | patch _ | whole => true
  | outOfScope | unchanged | again _ => false

def sent : PeerDelta → Option PeerChange
  | patch change | again change => some change
  | outOfScope | unchanged | whole => none

/-- A peer in scope that is not sent whole was sent before. If it is not patched or patched again, it
agrees with what was sent. -/
def Holds (inScope : Nat → Bool) (last : PeerState) (peer : MapStateNode) : PeerDelta → Prop
  | outOfScope => inScope peer.id = false
  | unchanged => inScope peer.id = true ∧
      ∃ previous, last[peer.id]? = some previous ∧ Agrees previous peer
  | again change => inScope peer.id = true ∧ change.nodeId = peer.id ∧
      ∃ previous, last[peer.id]? = some previous ∧ Agrees previous peer
  | patch change => inScope peer.id = true ∧ change.nodeId = peer.id ∧
      ∃ previous, last[peer.id]? = some previous
  | whole => inScope peer.id = true

lemma Holds.scope {inScope : Nat → Bool} {last : PeerState} {peer : MapStateNode} {delta : PeerDelta}
    (h : delta.Holds inScope last peer) (hdelta : delta ≠ .outOfScope) : inScope peer.id = true := by
  cases delta with
  | outOfScope => exact absurd rfl hdelta
  | unchanged | again | patch => exact h.1
  | whole => exact h

end PeerDelta

lemma peerDelta_holds (request : DeltaRequest) (last : PeerState) (peer : MapStateNode) :
    (peerDelta request last peer).Holds request.peerInScope last peer := by
  unfold peerDelta
  by_cases hscope : request.peerInScope peer.id = true
  · simp only [hscope, Bool.not_true, Bool.false_eq_true, if_false]
    split
    · exact hscope
    cases hprevious : last[peer.id]? with
    | none => exact hscope
    | some previous =>
      simp only
      split
      · rename_i hequal
        simp only [Bool.and_eq_true, decide_eq_true_eq] at hequal
        have hagrees : Agrees previous peer :=
          ⟨hequal.1.1, of_decide_eq_true hequal.2, hequal.1.2⟩
        split
        · exact ⟨hscope, rfl, previous, hprevious, hagrees⟩
        · exact ⟨hscope, previous, hprevious, hagrees⟩
      · split
        · split
          · rename_i change hchange
            have hid : change.nodeId = peer.id := by
              rw [(isPatch hchange).fields]
              rfl
            refine ⟨hscope, ?_, previous, hprevious⟩
            split
            · exact hid
            · exact hid
          · exact hscope
        · exact hscope
  · simp only [hscope]
    exact Bool.eq_false_iff.mpr hscope

lemma foldl_deltaStep (request : DeltaRequest) (last : PeerState) (current : List MapStateNode)
    (parts : DeltaParts) :
    current.foldl (deltaStep request last) parts =
      { nextPeerState :=
          (current.filter fun peer => (peerDelta request last peer).recorded).foldl insertPeer
            parts.nextPeerState
        peerPatches :=
          parts.peerPatches ++ current.filterMap fun peer => (peerDelta request last peer).sent
        fullPeersChanged :=
          parts.fullPeersChanged ++ current.filter fun peer => peerDelta request last peer = .whole } := by
  induction current generalizing parts with
  | nil => simp
  | cons peer rest ih =>
    rw [foldl_cons, ih]
    unfold deltaStep
    cases hdelta : peerDelta request last peer <;>
      simp [hdelta, PeerDelta.recorded, PeerDelta.sent]

/-! ## Receiving a response -/

lemma applyPatch_local :
    TreeMap.Local (fun (view : ClientView) (id : Nat) => view[id]?) applyPatch nodeId where
  other view patch id hid := by simp [applyPatch, getElem?_alter, hid.symm]
  own view view' patch heq := by simp [applyPatch, heq]

lemma mem_foldl_applyPatch (patches : List PeerChange) (view : ClientView) (id : Nat) :
    id ∈ patches.foldl applyPatch view ↔ id ∈ view := by
  induction patches generalizing view with
  | nil => rfl
  | cons patch patches ih =>
    rw [foldl_cons, ih, mem_iff_isSome_getElem?, mem_iff_isSome_getElem?,
      applyPatch, getElem?_alter]
    split
    · rename_i heq
      rw [Std.compare_eq_iff_eq.mp heq, Option.isSome_map]
    · rfl

section Receive

variable {response : MapResponse}

lemma mem_receive (view : ClientView) (id : Nat) :
    id ∈ receive view response ↔
      id ∈ (response.peers ++ response.peersChanged).map MapStateNode.id ∨
        id ∈ view ∧ id ∉ response.peersRemoved := by
  unfold receive insertPeer
  rw [mem_foldl_applyPatch, TreeMap.mem_foldl_insertAt]
  refine or_congr_right ?_
  rw [mem_iff_isSome_getElem?, TreeMap.getElem?_foldl_erase, mem_iff_isSome_getElem?]
  by_cases hid : id ∈ response.peersRemoved <;> simp [hid]

lemma receive_whole {peer : MapStateNode}
    (hids : ((response.peers ++ response.peersChanged).map MapStateNode.id).Nodup)
    (hpeer : peer ∈ response.peers ++ response.peersChanged)
    (hpatch : peer.id ∉ response.peersChangedPatch.map nodeId) (view : ClientView) :
    (receive view response)[peer.id]? = some peer := by
  unfold receive insertPeer
  rw [applyPatch_local.foldl_other hpatch]
  exact TreeMap.getElem?_foldl_insertAt hids hpeer _

lemma receive_other {id : Nat}
    (hwhole : id ∉ (response.peers ++ response.peersChanged).map MapStateNode.id)
    (hpatch : id ∉ response.peersChangedPatch.map nodeId) (view : ClientView) :
    (receive view response)[id]? = if id ∈ response.peersRemoved then none else view[id]? := by
  unfold receive insertPeer
  rw [applyPatch_local.foldl_other hpatch, TreeMap.getElem?_foldl_insertAt_other hwhole,
    TreeMap.getElem?_foldl_erase]

end Receive

/-! ## Frames -/

/-- The frames of the chunk come to the same as one response with these peers. -/
structure Conveys (chunk : PeerDeltaChunk) (removed : List Nat) (whole : List MapStateNode)
    (patches : List PeerChange) : Prop where
  deliver : ∀ view, chunk.deliver view =
    receive view { peersRemoved := removed, peersChanged := whole, peersChangedPatch := patches }
  wholeIds : chunk.wholeIds = whole.map MapStateNode.id
  patchIds : chunk.patchIds = patches.map nodeId

/-- A chunk that is made from the visible peers and what is remembered, with what it says of each
peer. -/
structure IsFrame (inScope : Nat → Bool) (last : PeerState) (current : List MapStateNode)
    (delta : MapStateNode → PeerDelta) (chunk : PeerDeltaChunk) : Prop where
  ids : (current.map MapStateNode.id).Nodup
  holds : ∀ peer ∈ current, (delta peer).Holds inScope last peer
  conveys : Conveys chunk (peersRemoved last current)
    (current.filter fun peer => delta peer = .whole) (current.filterMap fun peer => (delta peer).sent)
  recorded : ∀ peer ∈ current, (delta peer).recorded = true → chunk.nextPeerState[peer.id]? = some peer
  kept : ∀ peer ∈ current, (delta peer).recorded = false →
    chunk.nextPeerState[peer.id]? = last[peer.id]? ∨
      delta peer ≠ .outOfScope ∧ chunk.nextPeerState[peer.id]? = some peer
  gone : ∀ id, id ∉ current.map MapStateNode.id → chunk.nextPeerState[id]? = none

/-- The peers that were patched since they were last sent whole. -/
def patchedAfter (patched : List Nat) (chunk : PeerDeltaChunk) : List Nat :=
  patched.filter (· ∉ chunk.wholeIds) ++ chunk.patchIds

/-- The view has the peers that the server remembers, and agrees with it on those not patched. -/
structure InStep (view : ClientView) (last : PeerState) (patched : List Nat) : Prop where
  ids : ∀ id : Nat, id ∈ view ↔ id ∈ last
  agrees : ∀ id : Nat, id ∉ patched → ∀ shown previous, view[id]? = some shown →
    last[id]? = some previous → Agrees shown previous

lemma mem_filter_ids {current : List MapStateNode} (hids : (current.map MapStateNode.id).Nodup)
    {peer : MapStateNode} (hpeer : peer ∈ current) {p : MapStateNode → Bool} :
    peer.id ∈ (current.filter p).map MapStateNode.id ↔ p peer = true := by
  constructor
  · intro hmem
    obtain ⟨other, hother, hid⟩ := mem_map.mp hmem
    obtain ⟨hother, hp⟩ := mem_filter.mp hother
    rwa [inj_on_of_nodup_map hids hother hpeer hid] at hp
  · exact fun hp => mem_map_of_mem (mem_filter.mpr ⟨hpeer, hp⟩)

namespace IsFrame

variable {inScope : Nat → Bool} {last : PeerState} {current : List MapStateNode}
variable {delta : MapStateNode → PeerDelta} {chunk : PeerDeltaChunk} {peer : MapStateNode}
variable {view : ClientView} {patched : List Nat}

section

variable (h : IsFrame inScope last current delta chunk)

include h

lemma mem_wholeIds (hpeer : peer ∈ current) : peer.id ∈ chunk.wholeIds ↔ delta peer = .whole := by
  rw [h.conveys.wholeIds, mem_filter_ids h.ids hpeer, decide_eq_true_iff]

lemma nodeId_of_sent (hpeer : peer ∈ current) {change : PeerChange}
    (hsent : (delta peer).sent = some change) : change.nodeId = peer.id := by
  have hholds := h.holds peer hpeer
  cases hdelta : delta peer with
  | outOfScope | unchanged | whole => simp [hdelta, PeerDelta.sent] at hsent
  | again sent | patch sent =>
    rw [hdelta] at hsent hholds
    cases hsent
    exact hholds.2.1

lemma mem_patchIds_iff {id : Nat} : id ∈ chunk.patchIds ↔
    id ∈ (current.filter fun peer => (delta peer).sent.isSome).map MapStateNode.id := by
  simp only [h.conveys.patchIds, mem_map, mem_filterMap, mem_filter]
  constructor
  · rintro ⟨change, ⟨peer, hpeer, hsent⟩, rfl⟩
    exact ⟨peer, ⟨hpeer, by rw [hsent]; rfl⟩, (h.nodeId_of_sent hpeer hsent).symm⟩
  · rintro ⟨peer, ⟨hpeer, hsome⟩, rfl⟩
    obtain ⟨change, hsent⟩ := Option.isSome_iff_exists.mp hsome
    exact ⟨change, ⟨peer, hpeer, hsent⟩, h.nodeId_of_sent hpeer hsent⟩

lemma mem_patchIds (hpeer : peer ∈ current) :
    peer.id ∈ chunk.patchIds ↔ (delta peer).sent.isSome = true := by
  rw [h.mem_patchIds_iff, mem_filter_ids h.ids hpeer]

end

lemma mem_peersRemoved {id : Nat} :
    id ∈ peersRemoved last current ↔ id ∈ last ∧ id ∉ current.map MapStateNode.id := by
  simp [peersRemoved]

variable (h : IsFrame inScope last current delta chunk)

include h

/-- A peer that is neither sent whole nor patched stays as it is shown. -/
theorem deliver_kept (hpeer : peer ∈ current) (hwhole : delta peer ≠ .whole)
    (hsent : (delta peer).sent = none) (view : ClientView) :
    (chunk.deliver view)[peer.id]? = view[peer.id]? := by
  have hids : peer.id ∉ chunk.wholeIds := fun hmem => hwhole ((h.mem_wholeIds hpeer).mp hmem)
  have hpatches : peer.id ∉ chunk.patchIds := fun hmem => by
    have hsome := (h.mem_patchIds hpeer).mp hmem
    rw [hsent] at hsome
    cases hsome
  rw [h.conveys.wholeIds] at hids
  rw [h.conveys.patchIds] at hpatches
  rw [h.conveys.deliver, receive_other hids hpatches, if_neg]
  exact fun hremoved => (mem_peersRemoved.mp hremoved).2 (mem_map_of_mem hpeer)

lemma deliver_whole (hpeer : peer ∈ current) (hwhole : delta peer = .whole) (view : ClientView) :
    (chunk.deliver view)[peer.id]? = some peer := by
  have hpatches : peer.id ∉ chunk.patchIds := fun hmem => by
    have hsome := (h.mem_patchIds hpeer).mp hmem
    rw [hwhole] at hsome
    cases hsome
  rw [h.conveys.patchIds] at hpatches
  rw [h.conveys.deliver]
  refine receive_whole ?_ ?_ hpatches view
  · exact (filter_sublist.map _).nodup h.ids
  · exact mem_filter.mpr ⟨hpeer, decide_eq_true hwhole⟩

/-- No peer remains that is not visible. -/
theorem deliver_gone (hstep : InStep view last patched) {id : Nat}
    (hid : id ∉ current.map MapStateNode.id) : (chunk.deliver view)[id]? = none := by
  have hpatches : id ∉ chunk.patchIds := fun hmem =>
    hid ((filter_sublist.map _).subset (h.mem_patchIds_iff.mp hmem))
  rw [h.conveys.patchIds] at hpatches
  rw [h.conveys.deliver, receive_other (mt ((filter_sublist.map _).subset ·) hid) hpatches]
  split
  · rfl
  · rename_i hremoved
    have hlast : id ∉ last := fun hlast => hremoved (mem_peersRemoved.mpr ⟨hlast, hid⟩)
    rw [← hstep.ids] at hlast
    exact ExtTreeMap.getElem?_eq_none hlast

lemma deliver_outOfScope (hpeer : peer ∈ current) (hscope : inScope peer.id = false)
    (view : ClientView) : (chunk.deliver view)[peer.id]? = view[peer.id]? := by
  have hdelta : delta peer = .outOfScope := by
    by_contra hne
    exact absurd (((h.holds peer hpeer).scope hne).symm.trans hscope) (by decide)
  exact h.deliver_kept hpeer (by rw [hdelta]; nofun) (by rw [hdelta]; rfl) view

lemma not_patched (hpeer : peer ∈ current) (hwhole : delta peer ≠ .whole)
    (hpatched : peer.id ∉ patchedAfter patched chunk) : peer.id ∉ patched := by
  intro hmem
  refine hpatched (mem_append_left _ (mem_filter.mpr ⟨hmem, decide_eq_true ?_⟩))
  exact fun hids => hwhole ((h.mem_wholeIds hpeer).mp hids)

lemma sent_none (hpeer : peer ∈ current) (hpatched : peer.id ∉ patchedAfter patched chunk) :
    (delta peer).sent = none := by
  refine Option.not_isSome_iff_eq_none.mp fun hsome => hpatched ?_
  exact mem_append_right _ ((h.mem_patchIds hpeer).mpr hsome)

/-- A peer in scope that is not sent as a patch is shown as it is now. -/
theorem deliver_shown (hstep : InStep view last patched) (hpeer : peer ∈ current)
    (hscope : inScope peer.id = true) (hpatched : peer.id ∉ patchedAfter patched chunk) :
    ∃ shown, (chunk.deliver view)[peer.id]? = some shown ∧ Agrees shown peer := by
  have hholds := h.holds peer hpeer
  have hsent := h.sent_none hpeer hpatched
  cases hdelta : delta peer with
  | outOfScope =>
    rw [hdelta] at hholds
    exact absurd (hholds.symm.trans hscope) (by decide)
  | again change | patch change =>
    rw [hdelta] at hsent
    cases hsent
  | whole => exact ⟨peer, h.deliver_whole hpeer hdelta view, Agrees.refl peer⟩
  | unchanged =>
    have hwhole : delta peer ≠ .whole := by
      rw [hdelta]
      nofun
    rw [hdelta] at hholds
    obtain ⟨-, previous, hprevious, hagrees⟩ := hholds
    have hlast : peer.id ∈ last := by
      rw [mem_iff_isSome_getElem?, hprevious]
      rfl
    have hview := (hstep.ids peer.id).mpr hlast
    rw [mem_iff_isSome_getElem?] at hview
    obtain ⟨shown, hshown⟩ := Option.isSome_iff_exists.mp hview
    refine ⟨shown, (h.deliver_kept hpeer hwhole hsent view).trans hshown, ?_⟩
    -- the view agrees with what was remembered, and that with the peer as it is now
    exact (hstep.agrees _ (h.not_patched hpeer hwhole hpatched) _ _ hshown hprevious).trans hagrees

lemma mem_deliver (hstep : InStep view last patched) (id : Nat) :
    id ∈ chunk.deliver view ↔ id ∈ chunk.nextPeerState := by
  by_cases hid : id ∈ current.map MapStateNode.id
  · obtain ⟨peer, hpeer, rfl⟩ := mem_map.mp hid
    have hremoved : peer.id ∉ peersRemoved last current := fun hmem => (mem_peersRemoved.mp hmem).2 hid
    have hdeliver : peer.id ∈ chunk.deliver view ↔ delta peer = .whole ∨ peer.id ∈ last := by
      have hwhole := h.mem_wholeIds hpeer
      rw [h.conveys.wholeIds] at hwhole
      rw [h.conveys.deliver, mem_receive, hstep.ids]
      exact or_congr hwhole ⟨And.left, fun hmem => ⟨hmem, hremoved⟩⟩
    -- what is neither sent as a whole nor out of scope is compared with what was sent before
    have hbefore : delta peer ≠ .outOfScope → delta peer = .whole ∨ last[peer.id]?.isSome := by
      intro hscope
      have hholds := h.holds peer hpeer
      cases hdelta : delta peer with
      | whole => exact .inl rfl
      | outOfScope => exact absurd hdelta hscope
      | patch change =>
        rw [hdelta] at hholds
        obtain ⟨-, -, previous, hprevious⟩ := hholds
        exact .inr (by rw [hprevious]; rfl)
      | unchanged =>
        rw [hdelta] at hholds
        obtain ⟨-, previous, hprevious, -⟩ := hholds
        exact .inr (by rw [hprevious]; rfl)
      | again change =>
        rw [hdelta] at hholds
        obtain ⟨-, -, previous, hprevious, -⟩ := hholds
        exact .inr (by rw [hprevious]; rfl)
    rw [hdeliver, mem_iff_isSome_getElem?, mem_iff_isSome_getElem?]
    cases hrecorded : (delta peer).recorded with
    | true =>
      rw [h.recorded peer hpeer hrecorded]
      exact iff_of_true (hbefore fun heq => by simp [heq, PeerDelta.recorded] at hrecorded) rfl
    | false =>
      obtain hkept | ⟨hscope, hnew⟩ := h.kept peer hpeer hrecorded
      · rw [hkept, or_iff_right fun heq => by simp [heq, PeerDelta.recorded] at hrecorded]
      · rw [hnew]
        exact iff_of_true (hbefore hscope) rfl
  · rw [mem_iff_isSome_getElem?, mem_iff_isSome_getElem?, h.deliver_gone hstep hid,
      h.gone id hid]

/-- View and server are in step after the frame. -/
theorem inStep (hstep : InStep view last patched) :
    InStep (chunk.deliver view) chunk.nextPeerState (patchedAfter patched chunk) := by
  refine ⟨h.mem_deliver hstep, fun id hpatched shown next hshown hnext => ?_⟩
  by_cases hid : id ∈ current.map MapStateNode.id
  · obtain ⟨peer, hpeer, rfl⟩ := mem_map.mp hid
    -- either the peer as it is now is remembered, or nothing has changed
    have hnow : inScope peer.id = true → chunk.nextPeerState[peer.id]? = some peer →
        Agrees shown next := by
      intro hscope hrecorded
      obtain ⟨shown', hshown', hagrees⟩ := h.deliver_shown hstep hpeer hscope hpatched
      rw [hshown] at hshown'
      rw [hnext] at hrecorded
      cases hshown'
      cases hrecorded
      exact hagrees
    have hscope := (h.holds peer hpeer).scope
    cases hrecorded : (delta peer).recorded with
    | true =>
      refine hnow (hscope fun heq => ?_) (h.recorded peer hpeer hrecorded)
      simp [heq, PeerDelta.recorded] at hrecorded
    | false =>
      have hwhole : delta peer ≠ .whole := fun heq => by simp [heq, PeerDelta.recorded] at hrecorded
      obtain hkept | ⟨hin, hnew⟩ := h.kept peer hpeer hrecorded
      · rw [h.deliver_kept hpeer hwhole (h.sent_none hpeer hpatched)] at hshown
        rw [hkept] at hnext
        exact hstep.agrees _ (h.not_patched hpeer hwhole hpatched) _ _ hshown hnext
      · exact hnow (hscope hin) hnew
  · rw [h.gone id hid] at hnext
    cases hnext

end IsFrame

/-! ## The frames that are built -/

lemma selfNodeDelta_fst (response : MapResponse) (current last : Option MapStateNode) :
    (selfNodeDelta response current last).1 =
      { response with node := (selfNodeDelta response current last).1.node } := by
  unfold selfNodeDelta
  split
  · split <;> rfl
  · rfl

lemma foldl_receive_removals (view : ClientView) (removed : List Nat) :
    (buildPeerRemovalChunk removed).foldl receive view = removed.foldl ExtTreeMap.erase view := by
  unfold buildPeerRemovalChunk
  split
  · rename_i hnil
    rw [hnil]
    rfl
  · rfl

lemma flatMap_removals {β : Type} (removed : List Nat) (f : MapResponse → List β)
    (hf : ∀ removed, f { peersRemoved := removed } = []) :
    (buildPeerRemovalChunk removed).flatMap f = [] := by
  unfold buildPeerRemovalChunk
  split
  · rfl
  · simp [hf]

/-- A response may come after one without peers, and its removals in a response of their own. -/
theorem conveys_of_frames {chunk : PeerDeltaChunk} {lead : List MapResponse} {early : List Nat}
    {response : MapResponse} {current last : Option MapStateNode}
    (hframes : chunk.frames =
      lead ++ buildPeerRemovalChunk early ++ [(selfNodeDelta response current last).1])
    (hlead : lead = [] ∨ ∃ self dns, lead = [{ node := self, dnsConfig := dns }]) :
    Conveys chunk (early ++ response.peersRemoved) (response.peers ++ response.peersChanged)
      response.peersChangedPatch := by
  have hview : ∀ view, lead.foldl receive view = view := by
    obtain rfl | ⟨self, dns, rfl⟩ := hlead <;> exact fun view => rfl
  have hnil : ∀ {β : Type} (f : MapResponse → List β),
      (∀ self dns, f { node := self, dnsConfig := dns } = []) → lead.flatMap f = [] := by
    intro β f hf
    obtain rfl | ⟨self, dns, rfl⟩ := hlead
    · rfl
    · simp [hf]
  rw [selfNodeDelta_fst] at hframes
  refine ⟨fun view => ?_, ?_, ?_⟩
  · rw [PeerDeltaChunk.deliver, hframes, foldl_append, foldl_append, hview,
      foldl_receive_removals]
    simp only [receive, foldl_cons, foldl_nil, foldl_append]
  · rw [PeerDeltaChunk.wholeIds, hframes, flatMap_append, flatMap_append, hnil _ fun _ _ => rfl,
      flatMap_removals _ _ fun _ => rfl]
    simp
  · rw [PeerDeltaChunk.patchIds, hframes, flatMap_append, flatMap_append, hnil _ fun _ _ => rfl,
      flatMap_removals _ _ fun _ => rfl]
    simp

lemma conveys_of_split {chunk : PeerDeltaChunk} {lead : List MapResponse} {removed : List Nat}
    {whole : List MapStateNode} {patches : List PeerChange} {node current last : Option MapStateNode}
    {dns split : Bool}
    (hframes : chunk.frames = lead ++ buildPeerRemovalChunk (if split then removed else []) ++
      [(selfNodeDelta
        { node := node
          peersChanged := whole
          peersRemoved := if split then [] else removed
          peersChangedPatch := patches
          dnsConfig := dns } current last).1])
    (hlead : lead = [] ∨ ∃ self dns, lead = [{ node := self, dnsConfig := dns }]) :
    Conveys chunk removed whole patches := by
  have hconveys := conveys_of_frames hframes hlead
  cases split with
  | true | false => simpa using hconveys

section Built

variable {scene : Scene} {lastSelf : Option MapStateNode} {last : PeerState} {initialPeerIds : List Nat}

lemma Scene.nodup_visiblePeers (hids : (scene.peers.map MapStateNode.id).Nodup)
    (allowed : Option (List Nat)) : ((scene.visiblePeers allowed).map MapStateNode.id).Nodup :=
  (filter_sublist.map _).nodup hids

lemma getElem?_peerStateFromNodes {current : List MapStateNode}
    (hids : (current.map MapStateNode.id).Nodup) {peer : MapStateNode} (hpeer : peer ∈ current) :
    (peerStateFromNodes current)[peer.id]? = some peer :=
  TreeMap.getElem?_foldl_insertAt hids hpeer _

lemma getElem?_peerStateFromNodes_other {current : List MapStateNode} {id : Nat}
    (hid : id ∉ current.map MapStateNode.id) : (peerStateFromNodes current)[id]? = none :=
  (TreeMap.getElem?_foldl_insertAt_other hid _).trans getElem?_empty

lemma rebuildMapChunk_isFrame (hids : (scene.peers.map MapStateNode.id).Nodup)
    (hrefused : FrameCall.full.refused scene = false) :
    IsFrame (fun _ => true) last (fullVisible scene) (fun _ => .whole)
      (rebuildMapChunk scene lastSelf last) := by
  obtain ⟨hpresent, hself⟩ : scene.selfPresent = true ∧ scene.selfNode.isSome = true := by
    simpa [FrameCall.refused] using hrefused
  obtain ⟨self, hself⟩ := Option.isSome_iff_exists.mp hself
  have hframes : (rebuildMapChunk scene lastSelf last).frames =
      [] ++ buildPeerRemovalChunk (peersRemoved last (fullVisible scene)) ++
        [(selfNodeDelta { node := some self, peers := fullVisible scene, dnsConfig := true }
          (some self) lastSelf).1] := by
    unfold rebuildMapChunk
    rw [hpresent, hself]
    rfl
  have hnext : (rebuildMapChunk scene lastSelf last).nextPeerState =
      peerStateFromNodes (fullVisible scene) := by
    unfold rebuildMapChunk
    rw [hpresent, hself]
  have hvisible : ((fullVisible scene).map MapStateNode.id).Nodup :=
    scene.nodup_visiblePeers hids scene.allowedPeerIds
  refine ⟨hvisible, fun _ _ => rfl, ?_, fun peer hpeer _ => ?_, fun peer hpeer => nofun, fun id hid => ?_⟩
  · have hconveys := conveys_of_frames hframes (.inl rfl)
    simpa [PeerDelta.sent] using hconveys
  · rw [hnext]
    exact getElem?_peerStateFromNodes hvisible hpeer
  · rw [hnext]
    exact getElem?_peerStateFromNodes_other hid

variable (last) in
/-- What is remembered of the peers after their loop. -/
theorem getElem?_deltaParts (request : DeltaRequest) {current : List MapStateNode}
    (hids : (current.map MapStateNode.id).Nodup) :
    (∀ peer ∈ current, (peerDelta request last peer).recorded = true →
      (deltaParts last request current).nextPeerState[peer.id]? = some peer) ∧
    (∀ peer ∈ current, (peerDelta request last peer).recorded = false →
      (deltaParts last request current).nextPeerState[peer.id]? =
        if request.filterPeerIds.isSome then last[peer.id]? else some peer) ∧
    ∀ id, id ∉ current.map MapStateNode.id →
      (deltaParts last request current).nextPeerState[id]? = none := by
  unfold deltaParts
  rw [foldl_deltaStep]
  refine ⟨fun peer hpeer hrecorded => ?_, fun peer hpeer hrecorded => ?_, fun id hid => ?_⟩
  · refine TreeMap.getElem?_foldl_insertAt ((filter_sublist.map _).nodup hids) ?_ _
    exact mem_filter.mpr ⟨hpeer, hrecorded⟩
  · have hother : peer.id ∉
        (current.filter fun peer => (peerDelta request last peer).recorded).map MapStateNode.id := by
      rw [mem_filter_ids hids hpeer, hrecorded]
      exact Bool.false_ne_true
    have hremoved : peer.id ∉ peersRemoved last current := fun hmem =>
      (IsFrame.mem_peersRemoved.mp hmem).2 (mem_map_of_mem hpeer)
    refine (TreeMap.getElem?_foldl_insertAt_other hother _).trans ?_
    rw [TreeMap.getElem?_foldl_erase, if_neg hremoved]
    split
    · rfl
    · exact getElem?_peerStateFromNodes hids hpeer
  · have hother : id ∉
        (current.filter fun peer => (peerDelta request last peer).recorded).map MapStateNode.id :=
      fun hmem => hid ((filter_sublist.map _).subset hmem)
    refine (TreeMap.getElem?_foldl_insertAt_other hother _).trans ?_
    rw [TreeMap.getElem?_foldl_erase]
    split
    · rfl
    rename_i hremoved
    split
    · have hlast : id ∉ last := fun hlast => hremoved (IsFrame.mem_peersRemoved.mpr ⟨hlast, hid⟩)
      exact ExtTreeMap.getElem?_eq_none hlast
    · exact getElem?_peerStateFromNodes_other hid

variable (last) in
lemma deltaParts_sent (request : DeltaRequest) (current : List MapStateNode) :
    (deltaParts last request current).fullPeersChanged =
        current.filter (fun peer => peerDelta request last peer = .whole) ∧
      (deltaParts last request current).peerPatches =
        current.filterMap fun peer => (peerDelta request last peer).sent := by
  unfold deltaParts
  rw [foldl_deltaStep]
  exact ⟨rfl, rfl⟩

lemma peerInScope_of_filter_none {request : DeltaRequest} (hfilter : request.filterPeerIds.isSome = false)
    (id : Nat) : request.peerInScope id = true := by
  unfold DeltaRequest.peerInScope
  rw [Option.isSome_eq_false_iff, Option.isNone_iff_eq_none] at hfilter
  rw [hfilter]
  rfl

/-- A chunk that remembers the outcome of the loop is a frame. So is one that has nothing to say and
remembers what was remembered. -/
theorem isFrame_of_parts {request : DeltaRequest} {current : List MapStateNode} {chunk : PeerDeltaChunk}
    (hids : (current.map MapStateNode.id).Nodup)
    (hconveys : Conveys chunk (peersRemoved last current) (deltaParts last request current).fullPeersChanged
      (deltaParts last request current).peerPatches)
    (hnext : chunk.nextPeerState = (deltaParts last request current).nextPeerState ∨
      chunk.nextPeerState = last ∧ peersRemoved last current = [] ∧
        (deltaParts last request current).fullPeersChanged = [] ∧
        (deltaParts last request current).peerPatches = []) :
    IsFrame request.peerInScope last current (peerDelta request last) chunk := by
  obtain ⟨hfull, hpatches⟩ := deltaParts_sent last request current
  rw [hfull, hpatches] at hconveys hnext
  refine ⟨hids, fun peer _ => peerDelta_holds request last peer, hconveys, ?_, ?_, ?_⟩
  all_goals obtain hnext | ⟨hnext, hremoved, hwhole, hsent⟩ := hnext
  all_goals obtain ⟨hrecorded, hkept, hgone⟩ := getElem?_deltaParts last request hids
  · rwa [hnext]
  · intro peer hpeer hrecorded
    have hnot : peerDelta request last peer ≠ .whole := by
      simpa using filter_eq_nil_iff.mp hwhole peer hpeer
    have hnone : (peerDelta request last peer).sent = none := filterMap_eq_nil_iff.mp hsent peer hpeer
    cases hdelta : peerDelta request last peer with
    | whole => exact absurd hdelta hnot
    | patch change =>
      rw [hdelta] at hnone
      cases hnone
    | outOfScope | unchanged | again change =>
      rw [hdelta] at hrecorded
      cases hrecorded
  · intro peer hpeer hrecorded
    rw [hnext, hkept peer hpeer hrecorded]
    cases hfilter : request.filterPeerIds.isSome with
    | true => exact .inl rfl
    | false =>
      refine .inr ⟨fun hdelta => ?_, rfl⟩
      have hholds := peerDelta_holds request last peer
      rw [hdelta] at hholds
      exact absurd (hholds.symm.trans (peerInScope_of_filter_none hfilter peer.id)) (by decide)
  · exact fun peer hpeer _ => .inl (by rw [hnext])
  · rwa [hnext]
  · intro id hid
    rw [hnext]
    refine ExtTreeMap.getElem?_eq_none fun hlast => ?_
    have hmem := IsFrame.mem_peersRemoved.mpr ⟨hlast, hid⟩
    rw [hremoved] at hmem
    cases hmem

/-- Nothing is sent, and nothing remembered anew. -/
def unsent (lastSelf : Option MapStateNode) (last : PeerState) : PeerDeltaChunk :=
  { frames := [], nextPeerState := last, nextSelfNode := lastSelf }

lemma rebuildPeerDeltaChunk_isFrame (request : DeltaRequest)
    (hids : (scene.peers.map MapStateNode.id).Nodup) (hpresent : scene.selfPresent = true) :
    IsFrame request.peerInScope last (deltaVisible scene last initialPeerIds request)
      (peerDelta request last)
      ((rebuildPeerDeltaChunk scene lastSelf last initialPeerIds request).getD (unsent lastSelf last)) := by
  have hvisible : ((deltaVisible scene last initialPeerIds request).map MapStateNode.id).Nodup :=
    scene.nodup_visiblePeers hids _
  unfold rebuildPeerDeltaChunk
  simp only [hpresent, Bool.not_true, Bool.false_eq_true, if_false]
  split
  · rename_i hquiet
    simp only [Bool.and_eq_true, decide_eq_true_eq] at hquiet
    obtain ⟨-, hfull, hremoved, hpatches⟩ := hquiet
    refine isFrame_of_parts hvisible ?_ (.inr ⟨rfl, hremoved, hfull, hpatches⟩)
    rw [hremoved, hfull, hpatches]
    exact ⟨fun _ => rfl, rfl, rfl⟩
  · refine isFrame_of_parts hvisible ?_ (.inl rfl)
    refine conveys_of_split rfl ?_
    split
    · exact .inr ⟨_, _, by rw [selfNodeDelta_fst]⟩
    · exact .inl rfl

end Built

namespace FrameCall

variable (scene : Scene) (lastSelf : Option MapStateNode) (last : PeerState) (initialPeerIds : List Nat)

/-- What is sent, if anything. -/
def answer (call : FrameCall) : PeerDeltaChunk :=
  (call.rebuild scene lastSelf last initialPeerIds).getD (unsent lastSelf last)

variable {scene}

lemma answer_isFrame (hids : (scene.peers.map MapStateNode.id).Nodup) {call : FrameCall}
    (hrefused : call.refused scene = false) :
    ∃ delta, IsFrame call.peerInScope last (call.visible scene last initialPeerIds) delta
      (call.answer scene lastSelf last initialPeerIds) := by
  cases call with
  | full => exact ⟨_, rebuildMapChunk_isFrame hids hrefused⟩
  | delta request =>
    exact ⟨_, rebuildPeerDeltaChunk_isFrame request hids (by simpa [refused] using hrefused)⟩

/-- A client whose map is refused is only kept waiting. -/
theorem answer_refused {call : FrameCall} (hrefused : call.refused scene = true) :
    call.answer scene lastSelf last initialPeerIds =
      { frames := [keepalive], nextPeerState := last, nextSelfNode := lastSelf } := by
  cases call with
  | full =>
    have hcases : scene.selfPresent = false ∨ scene.selfNode = none := by
      simpa [refused] using hrefused
    unfold answer rebuild rebuildMapChunk
    obtain hpresent | hself := hcases
    · rw [hpresent]
      rfl
    · rw [hself]
      cases scene.selfPresent <;> rfl
  | delta request =>
    have hchunk : rebuildPeerDeltaChunk scene lastSelf last initialPeerIds request =
        some { frames := [keepalive], nextPeerState := last, nextSelfNode := lastSelf } :=
      if_pos hrefused
    exact congrArg (·.getD (unsent lastSelf last)) hchunk

end FrameCall

/-! ## Streams -/

/-- The client's view, what the server remembers of the stream, and the peers that were patched since
they were last sent whole. -/
structure StreamState where
  view : ClientView
  last : PeerState
  lastSelf : Option MapStateNode
  patched : List Nat

def StreamState.take (s : StreamState) (chunk : PeerDeltaChunk) : StreamState :=
  { view := chunk.deliver s.view
    last := chunk.nextPeerState
    lastSelf := chunk.nextSelfNode
    patched := patchedAfter s.patched chunk }

/-- A stream whose client starts with what the server remembers. Frames are made one after the other,
each from what there is then. -/
def mapStream (initialPeerIds : List Nat) : Machine.System StreamState (Scene × FrameCall) where
  init s := s.view = s.last ∧ s.patched = []
  step s frame s' := (frame.1.peers.map MapStateNode.id).Nodup ∧
    s' = s.take (frame.2.answer frame.1 s.lastSelf s.last initialPeerIds)

lemma mapStream_inStep {initialPeerIds : List Nat} {s : StreamState}
    (h : (mapStream initialPeerIds).Reachable s) : InStep s.view s.last s.patched := by
  refine h.invariant (I := fun s => InStep s.view s.last s.patched) ?_ ?_
  · rintro s ⟨hview, -⟩
    refine ⟨fun id => by rw [hview], fun id _ shown previous hshown hprevious => ?_⟩
    rw [hview, hprevious] at hshown
    exact Option.some.inj hshown ▸ Agrees.refl previous
  · rintro s ⟨scene, call⟩ s' hstep ⟨hids, rfl⟩ -
    cases hrefused : call.refused scene with
    | false =>
      obtain ⟨delta, hframe⟩ := call.answer_isFrame s.lastSelf s.last initialPeerIds hids hrefused
      exact hframe.inStep hstep
    | true =>
      have hanswer := call.answer_refused s.lastSelf s.last initialPeerIds hrefused
      simp only [hanswer]
      refine ⟨hstep.ids, fun id hid => hstep.agrees id fun hmem => hid ?_⟩
      exact mem_append_left _ (mem_filter.mpr ⟨hmem, rfl⟩)

section Divergence

def peerAt (id : Nat) (endpoints : List String) : MapStateNode :=
  { node := { id := id, key := "nodekey:01", endpoints := endpoints, online := some true } }

def viewerNode : MapStateNode := { node := { id := 1 } }

/-- A stream that knows one peer. -/
def startedStream : StreamState :=
  { view := peerStateFromNodes [peerAt 7 ["10.0.0.1:41641"]]
    last := peerStateFromNodes [peerAt 7 ["10.0.0.1:41641"]]
    lastSelf := some viewerNode
    patched := [] }

def sceneOf (peers : List MapStateNode) : Scene :=
  { selfNode := some viewerNode, selfNodeId := 1, peers := peers }

def registryUpdate : FrameCall := .delta { options := .registryChange }

/-- The peer withdraws its endpoints, which goes out as a patch. -/
def withdrawnStream : StreamState :=
  startedStream.take (registryUpdate.answer (sceneOf [peerAt 7 []]) startedStream.lastSelf
    startedStream.last [])

lemma startedStream_reachable : (mapStream []).Reachable startedStream := .init ⟨rfl, rfl⟩

lemma withdrawnStream_reachable : (mapStream []).Reachable withdrawnStream :=
  .step startedStream_reachable (a := (sceneOf [peerAt 7 []], registryUpdate)) ⟨by decide, rfl⟩ trivial

end Divergence

end Headscale.Netmap
