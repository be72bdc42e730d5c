import HeteroNetwork.Relay.ReturnRoutes

/-!
# Who can change the addresses of a session

The relay forwards to the addresses of a session, so whoever changes them takes over its traffic.
`AddressStep` lists what may happen to the addresses in one call, `Forwards` the targets a datagram may have.
-/

namespace HeteroNetwork.Relay

open Checked OrderedMap RelaySession Option
open ControlPlane (RelayCapability)

/-! ## What may happen to an address -/

def Current (table : RelayTable) : Prop :=
  ∀ index, (routesAt table.wireguardReturnRoutes index).Perm
    (routesAt table.rebuildWireguardReturnRoutes.wireguardReturnRoutes index)

inductive AddressStep (call : RelayCall) (id : RelaySessionId) (s s' : RelaySession) : Prop
  | kept (h : ∀ side, s'.addr side = s.addr side ∧ s'.learned side = s.learned side)
  /-- The same two nodes are admitted again: an address that has been learned stays. -/
  | readmitted {capability : RelayCapability} {admission : RelaySessionAdmission}
      (hop : call.op = .admission capability admission)
      (hjoins : s.joins admission.left admission.right = true)
      (h : ∀ side, s'.learned side = s.learned side ∧
        (s.learned side = true → s'.addr side = s.addr side))
  /-- The session was over, and the same two nodes begin a new one. -/
  | replaced {capability : RelayCapability} {admission : RelaySessionAdmission}
      (hop : call.op = .admission capability admission)
      (hjoins : s.joins admission.left admission.right = true)
      (hexpired : s.isExpired call.now = true) (hcreated : s'.createdAt = call.now)
  /-- A frame with the token of the session names its two nodes: the address of the sender is
  learned. -/
  | learned {src : SocketAddr} {datagram : List UInt8} {d : RelayDatagram} {side : RelaySessionSide}
      (hop : call.op = .datagram src datagram) (hdecode : decodeRelayDatagram datagram = .ok d)
      (hid : d.sessionId = id) (hnames : Names s d side)
      (haddr : s'.addr side = src ∧ s'.learned side = true)
      (hother : s'.addr side.other = s.addr side.other ∧
        s'.learned side.other = s.learned side.other)
  /-- A bare packet comes from the address of one side, maybe from another port. -/
  | rebound {src : SocketAddr} {datagram : List UInt8} {side : RelaySessionSide}
      (hop : call.op = .datagram src datagram)
      (hdecode : decodeRelayDatagram datagram = .error .malformedFrame)
      (hip : src.ip = (s.addr side).ip) (haddr : s'.addr side = src)
      (hother : s'.addr side.other = s.addr side.other)
      (hlearned : ∀ side, s'.learned side = s.learned side)

inductive Forwards (table : RelayTable) (now : Timestamp) (src : SocketAddr) (datagram : List UInt8) :
    SocketAddr → Prop
  /-- A frame with the token of a session goes to the other node; without a route, it has to come from
  one of the two addresses. -/
  | framed {d : RelayDatagram} {s : RelaySession} {side : RelaySessionSide}
      (hdecode : decodeRelayDatagram datagram = .ok d)
      (hs : table.sessions[d.sessionId]? = some s) (hlive : s.isExpired now = false)
      (hroute : Names s d side ∨ (Routeless s d ∧ s.addr side = src)) :
      Forwards table now src datagram (s.addr side.other)
  /-- A bare packet goes to an address that has been learned. -/
  | bare {id : RelaySessionId} {s : RelaySession} {side : RelaySessionSide}
      (hdecode : decodeRelayDatagram datagram = .error .malformedFrame)
      (hs : table.sessions[id]? = some s) (hlive : s.isExpired now = false)
      (hlearned : s.learned side.other = true) :
      Forwards table now src datagram (s.addr side.other)

section Step

variable {table : RelayTable} {call : RelayCall} {now : Timestamp} {id : RelaySessionId}
  {s s' : RelaySession}

/-! ## One session -/

lemma learned_learn (s : RelaySession) (src : SocketAddr) (side : RelaySessionSide) :
    (s.learn src side).learned side = true ∧
      (s.learn src side).learned side.other = s.learned side.other := by
  cases side <;> exact ⟨rfl, rfl⟩

lemma learned_setAddr (s : RelaySession) (src : SocketAddr) (side side' : RelaySessionSide) :
    (s.setAddr src side).learned side' = s.learned side' := by
  cases side <;> cases side' <;> rfl

lemma learned_setSenderIndices (s : RelaySession) (l : List UInt32) (side side' : RelaySessionSide) :
    (s.setSenderIndices l side).learned side' = s.learned side' := by
  cases side <;> cases side' <;> rfl

structure SameAddresses (s s' : RelaySession) : Prop where
  addr : ∀ side, s'.addr side = s.addr side
  learned : ∀ side, s'.learned side = s.learned side

lemma sameAddresses_of_counted (h : Counted s s') : SameAddresses s s' := ⟨h.addr, h.learned⟩

lemma SameAddresses.trans {s'' : RelaySession} (h : SameAddresses s s') (h' : SameAddresses s' s'') :
    SameAddresses s s'' :=
  ⟨fun side => (h'.addr side).trans (h.addr side), fun side => (h'.learned side).trans (h.learned side)⟩

variable {side : RelaySessionSide} {d : RelayDatagram}

lemma sameAddresses_of_recorded {update : Option RouteUpdate} (h : Recorded d side s update s') :
    SameAddresses s s' := by
  cases h with
  | nothing => exact ⟨fun _ => rfl, fun _ => rfl⟩
  | index x => exact ⟨addr_setSenderIndices _ side, learned_setSenderIndices s _ side⟩

variable {datagram : List UInt8} {src : SocketAddr}

section

variable (hop : call.op = .datagram src datagram) (hdecode : decodeRelayDatagram datagram = .ok d)
include hop hdecode

lemma addressStep_of_routed {s₁ : RelaySession} (hrouted : Routed src d s side s₁)
    (hsame : SameAddresses s₁ s') : AddressStep call d.sessionId s s' := by
  cases hrouted with
  | routeless h haddr => exact .kept fun side => ⟨hsame.addr side, hsame.learned side⟩
  | named hnames =>
    obtain ⟨haddr, haddr'⟩ := addr_learn s src side
    obtain ⟨hlearned, hlearned'⟩ := learned_learn s src side
    exact .learned hop hdecode rfl hnames
      ⟨(hsame.addr side).trans haddr, (hsame.learned side).trans hlearned⟩
      ⟨(hsame.addr _).trans haddr', (hsame.learned _).trans hlearned'⟩

lemma addressStep_of_frame
    {r : Except RelayError (RelayDatagramForward × Option RouteUpdate) × RelaySession}
    (h : FrameStep src d s r) : AddressStep call d.sessionId s r.2 := by
  cases h with
  | refused => exact .kept fun _ => ⟨rfl, rfl⟩
  | limited hrouted hcounted =>
    exact addressStep_of_routed hop hdecode hrouted (sameAddresses_of_counted hcounted)
  | accepted hrouted hcounted hrecorded hcounted' =>
    exact addressStep_of_routed hop hdecode hrouted
      (((sameAddresses_of_counted hcounted).trans (sameAddresses_of_recorded hrecorded)).trans
        (sameAddresses_of_counted hcounted'))

end

lemma addressStep_of_return {r : Except RelayError RelayDatagramForward × RelaySession}
    (hop : call.op = .datagram src datagram)
    (hdecode : decodeRelayDatagram datagram = .error .malformedFrame)
    (hip : src.ip = (s.addr side).ip) (h : ReturnStep src side s r) : AddressStep call id s r.2 := by
  cases h with
  | limited hcounted => exact .kept fun side => ⟨hcounted.addr side, hcounted.learned side⟩
  | @accepted s₁ _ payload hcounted hcounted' =>
    obtain ⟨haddr, hother⟩ := addr_setAddr s₁ src side
    refine .rebound hop hdecode hip ((hcounted'.addr side).trans haddr) ?_ fun side' => ?_
    · rw [hcounted'.addr, hother, hcounted.addr]
    · rw [hcounted'.learned, learned_setAddr, hcounted.learned]

lemma addressStep_of_readmit {capability : RelayCapability} {admission : RelaySessionAdmission}
    (hop : call.op = .admission capability admission)
    (hjoins : s.joins admission.left admission.right = true) (expiresAt : Timestamp)
    (limit : UInt64) : AddressStep call id s (s.readmit admission expiresAt limit) := by
  refine .readmitted hop hjoins fun side => ⟨?_, fun hlearned => ?_⟩
  · cases side <;> rfl
  · cases side with
    | left =>
      change s.leftAddrLearned = true at hlearned
      simp [RelaySession.readmit, RelaySession.addr, hlearned]
    | right =>
      change s.rightAddrLearned = true at hlearned
      simp [RelaySession.readmit, RelaySession.addr, hlearned]

/-! ## The table -/

section

variable {sessions : Sessions}
    (hsub : ∀ (id : RelaySessionId) (t : RelaySession), sessions[id]? = some t → table.sessions[id]? = some t)
include hsub

lemma addressStep_insert {id₀ : RelaySessionId} {s₁ : RelaySession}
    (h : ∀ s, table.sessions[id₀]? = some s → AddressStep call id₀ s s₁)
    (hs : table.sessions[id]? = some s) (hs' : (sessions.insert id₀ s₁)[id]? = some s') :
    AddressStep call id s s' := by
  by_cases hid : id₀ = id
  · subst hid
    rw [Std.TreeMap.getElem?_insert_self] at hs'
    rw [← some.inj hs']
    exact h s hs
  · rw [getElem?_insert_ne hid] at hs'
    have heq := hsub id s' hs'
    rw [hs] at heq
    rw [some.inj heq]
    exact .kept fun _ => ⟨rfl, rfl⟩

lemma addressStep_sub
    (hs : table.sessions[id]? = some s) (hs' : sessions[id]? = some s') : AddressStep call id s s' := by
  have heq := hsub id s' hs'
  rw [hs] at heq
  rw [some.inj heq]
  exact .kept fun _ => ⟨rfl, rfl⟩

end

lemma isExpired_of_purged (hs : table.sessions[id]? = some s)
    (h : (table.purgeExpired now).1.sessions[id]? = none) : s.isExpired now = true := by
  rw [purge_sessions, Std.TreeMap.getElem?_filter', hs, filter_some] at h
  by_contra hlive
  simp [hlive] at h

lemma ip_of_matched {index : UInt32} (hcurrent : Current table)
    (hfound : matchReturnRoute (table.purgeExpired now).1.sessions src.ip none
      (routesAt (table.purgeExpired now).1.wireguardReturnRoutes index) = .ok (some (id, side)))
    (hs : (table.purgeExpired now).1.sessions[id]? = some s) : src.ip = (s.addr side).ip := by
  obtain ⟨⟨⟩⟩ | ⟨hroute, -⟩ := mem_of_matchReturnRoute hfound
  have hexpected : Expected (table.purgeExpired now).1.sessions index ⟨id, side, src.ip⟩ := by
    obtain hroutes | ⟨hroutes, hsame⟩ := purge_cases table now
    · rw [hroutes] at hroute
      exact mem_rebuild.mp hroute
    · rw [hroutes, (hcurrent index).mem_iff, mem_rebuild] at hroute
      simpa only [Expected, hsame] using hroute
  obtain ⟨t, ht, -, hip⟩ := hexpected
  rw [hs] at ht
  rw [some.inj ht]
  exact hip

/-- Nothing else happens to an address. -/
theorem addressStep_relay (parseUrl : String → Option ParsedUrl) (hkeyed : Keyed table.sessions)
    (hcurrent : (∃ src datagram, call.op = .datagram src datagram ∧
      decodeRelayDatagram datagram = .error .malformedFrame) → Current table)
    (hs : table.sessions[id]? = some s)
    (hs' : (relay parseUrl table call).2.sessions[id]? = some s') : AddressStep call id s s' := by
  obtain ⟨op, now⟩ := call
  have hstep := relayStep_relay parseUrl table ⟨op, now⟩
  generalize relay parseUrl table ⟨op, now⟩ = result at hstep hs'
  have hpurged : ∀ (id : RelaySessionId) (t : RelaySession),
      (table.purgeExpired now).1.sessions[id]? = some t → table.sessions[id]? = some t :=
    fun id t ht => (getElem?_purge ht).1
  cases hstep with
  | refused | authorized => exact addressStep_sub (fun _ _ h => h) hs hs'
  | expired m hexpired => exact addressStep_sub (fun _ _ h => getElem?_of_erase h) hs hs'
  | purged => exact addressStep_sub hpurged hs hs'
  | readmitted expiresAt limit answer hfound hjoins =>
    refine addressStep_insert hpurged (fun t ht => ?_) hs hs'
    rw [(getElem?_purge hfound).1] at ht
    obtain rfl := some.inj ht
    exact addressStep_of_readmit rfl hjoins expiresAt limit
  | @admitted capability admission expiresAt limit answer hvalid hne hnew =>
    refine addressStep_insert hpurged (fun t ht => ?_) hs hs'
    -- a session of this name has just been purged
    have hgone := getElem?_new_eq_none (keyed_purge hkeyed) hvalid hnew
    refine .replaced rfl ?_ (isExpired_of_purged ht hgone) rfl
    obtain ⟨hid, hleft, hright⟩ := hkeyed _ t ht
    have hpair := new_inj hvalid.1 hvalid.2 hleft hright hid
    simp only [RelaySession.joins, decide_eq_true_eq]
    obtain ⟨h₁, h₂⟩ | ⟨h₁, h₂⟩ := hpair
    · exact Or.inl ⟨h₁.symm, h₂.symm⟩
    · exact Or.inr ⟨h₂.symm, h₁.symm⟩
  | target m hfound hcounted =>
    refine addressStep_insert (fun _ _ h => h) (fun t ht => ?_) hs hs'
    rw [hfound] at ht
    obtain rfl := some.inj ht
    exact .kept fun side => ⟨hcounted.addr side, hcounted.learned side⟩
  | framed m hdecode hfound hlive hframe =>
    simp only [sessions_afterFrame] at hs'
    refine addressStep_insert (fun _ _ h => h) (fun t ht => ?_) hs hs'
    rw [hfound] at ht
    obtain rfl := some.inj ht
    exact addressStep_of_frame rfl hdecode hframe
  | returned m hdecode hindex hmatch hfound hreturn =>
    refine addressStep_insert hpurged (fun t ht => ?_) hs hs'
    have hip := ip_of_matched (hcurrent ⟨_, _, rfl, hdecode⟩) hmatch hfound
    rw [(getElem?_purge hfound).1] at ht
    obtain rfl := some.inj ht
    exact addressStep_of_return rfl hdecode hip hreturn

/-- Nothing is forwarded anywhere else. -/
theorem forwards_relay (parseUrl : String → Option ParsedUrl) {target : SocketAddr}
    {payload : List UInt8} (hop : call.op = .datagram src datagram)
    (h : (relay parseUrl table call).1 = .ok (.forwarded target payload)) :
    Forwards table call.now src datagram target := by
  obtain ⟨op, now⟩ := call
  obtain rfl : op = .datagram src datagram := hop
  have hstep := relayStep_relay parseUrl table ⟨.datagram src datagram, now⟩
  generalize relay parseUrl table ⟨.datagram src datagram, now⟩ = result at hstep h
  cases hstep with
  | refused | expired => cases h
  | purged m hresult => exact absurd h (hresult ⟨target, payload, true⟩)
  | framed m hdecode hs hlive hframe =>
    cases hframe with
    | refused | limited => cases h
    | accepted hrouted hcounted hrecorded hcounted' =>
      cases h
      cases hrouted with
      | named hnames => exact .framed hdecode hs hlive (Or.inl hnames)
      | routeless hrouteless haddr => exact .framed hdecode hs hlive (Or.inr ⟨hrouteless, haddr⟩)
  | returned m hdecode hindex hmatch hfound hreturn =>
    obtain ⟨hs, hlive⟩ := getElem?_purge hfound
    obtain ⟨⟨⟩⟩ | ⟨-, t, ht, hlearned⟩ := mem_of_matchReturnRoute hmatch
    rw [hfound] at ht
    obtain rfl := some.inj ht
    cases hreturn with
    | limited => cases h
    | accepted =>
      cases h
      exact .bare hdecode hs hlive hlearned

end Step

/-- At every call of every run: the addresses of a session change only as listed, and a datagram is
forwarded only to the listed targets. -/
theorem session_addresses_guarded (parseUrl : String → Option ParsedUrl) (calls : List RelayCall)
    (call : RelayCall) :
    (∀ (id : RelaySessionId) (s s' : RelaySession),
      ((∃ src datagram, call.op = .datagram src datagram ∧
        decodeRelayDatagram datagram = .error .malformedFrame) → Current (relayed parseUrl calls)) →
      (relayed parseUrl calls).sessions[id]? = some s →
      (relay parseUrl (relayed parseUrl calls) call).2.sessions[id]? = some s' →
      AddressStep call id s s') ∧
    ∀ src datagram target payload, call.op = .datagram src datagram →
      (relay parseUrl (relayed parseUrl calls) call).1 = .ok (.forwarded target payload) →
      Forwards (relayed parseUrl calls) call.now src datagram target :=
  ⟨fun _ _ _ hcurrent hs hs' =>
      addressStep_relay parseUrl (keyed_relayed parseUrl calls) hcurrent hs hs',
    fun _ _ _ _ hop h => forwards_relay parseUrl hop h⟩

namespace SampleRelay

def routeless : List UInt8 :=
  match encodeRelayDatagram "left:right" "token" [0] with
  | .ok datagram => datagram
  | .error _ => []

/-- Right after the admission, a frame without a route is forwarded to an address that nobody has
authenticated. -/
theorem routeless_to_unauthenticated :
    (∃ d, decodeRelayDatagram routeless = .ok d ∧ d.source = none ∧ d.destination = none) ∧
      ¬∀ target payload,
        (relay parseUrl (relayed parseUrl [admitPair]) ⟨.datagram (addr 1 1000) routeless, 1⟩).1 =
            .ok (.forwarded target payload) →
          ∃ (id : RelaySessionId) (s : RelaySession) (side : RelaySessionSide),
            (relayed parseUrl [admitPair]).sessions[id]? = some s ∧ s.addr side = target ∧
              s.learned side = true := by
  refine ⟨⟨⟨⟨"left:right"⟩, "token", none, none, [0], false⟩, by decide +kernel, rfl, rfl⟩, fun h => ?_⟩
  obtain ⟨id, s, side, hs, -, hlearned⟩ := h (addr 2 1000) [0] (by decide +kernel)
  have hnone : ∀ e ∈ (relayed parseUrl [admitPair]).sessions.toList,
      e.2.leftAddrLearned = false ∧ e.2.rightAddrLearned = false := by decide +kernel
  obtain ⟨hleft, hright⟩ := hnone (id, s) (Std.TreeMap.mem_toList_iff_getElem?_eq_some.mpr hs)
  cases side with
  | left => exact absurd (hlearned.symm.trans hleft) (by decide)
  | right => exact absurd (hlearned.symm.trans hright) (by decide)

theorem session_addresses_guarded_moved :
    ∃ s s', (relayed parseUrl [admitPair]).sessions[RelaySessionId.mk "left:right"]? = some s ∧
      (relay parseUrl (relayed parseUrl [admitPair]) (frameFrom 3 1000 2)).2.sessions[
        RelaySessionId.mk "left:right"]? = some s' ∧
      AddressStep (frameFrom 3 1000 2) ⟨"left:right"⟩ s s' := by
  obtain ⟨s, hs⟩ := Option.isSome_iff_exists.mp (show
    ((relayed parseUrl [admitPair]).sessions[RelaySessionId.mk "left:right"]?).isSome = true by
      decide +kernel)
  obtain ⟨s', hs'⟩ := Option.isSome_iff_exists.mp (show
    ((relay parseUrl (relayed parseUrl [admitPair]) (frameFrom 3 1000 2)).2.sessions[
      RelaySessionId.mk "left:right"]?).isSome = true by decide +kernel)
  refine ⟨s, s', hs, hs', (session_addresses_guarded parseUrl [admitPair] (frameFrom 3 1000 2)).1
    _ s s' ?_ hs hs'⟩
  rintro ⟨src, datagram, hop, hdecode⟩
  obtain ⟨-, rfl⟩ := RelayOp.datagram.inj hop
  exact absurd hdecode (by decide +kernel)

end SampleRelay

end HeteroNetwork.Relay
