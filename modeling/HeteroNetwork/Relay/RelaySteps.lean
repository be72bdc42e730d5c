import HeteroNetwork.Lib.Framing
import HeteroNetwork.Relay.RelayTable

/-!
# What a call does to the relay table

The fields that the source keeps once for each side of a session are read here by side.  Every call does one
of the things that `RelayStep` lists; the proofs about runs go through that list.
-/

namespace HeteroNetwork.Relay

open Checked OrderedMap
open ControlPlane (RelayCapability)

/-! ## Sides -/

def RelaySessionSide.other : RelaySessionSide → RelaySessionSide
  | .left => .right
  | .right => .left

@[simp] lemma RelaySessionSide.other_other (side : RelaySessionSide) : side.other.other = side := by
  cases side <;> rfl

lemma RelaySessionSide.eq_or_eq_other (side side' : RelaySessionSide) :
    side' = side ∨ side' = side.other := by
  cases side <;> cases side' <;> simp [RelaySessionSide.other]

namespace RelaySession

def node (session : RelaySession) : RelaySessionSide → NodeId
  | .left => session.left
  | .right => session.right

def addr (session : RelaySession) : RelaySessionSide → SocketAddr
  | .left => session.leftAddr
  | .right => session.rightAddr

def learned (session : RelaySession) : RelaySessionSide → Bool
  | .left => session.leftAddrLearned
  | .right => session.rightAddrLearned

def senderIndices (session : RelaySession) : RelaySessionSide → List UInt32
  | .left => session.leftWireguardSenderIndices
  | .right => session.rightWireguardSenderIndices

def setAddr (session : RelaySession) (addr : SocketAddr) : RelaySessionSide → RelaySession
  | .left => { session with leftAddr := addr }
  | .right => { session with rightAddr := addr }

def learn (session : RelaySession) (addr : SocketAddr) : RelaySessionSide → RelaySession
  | .left => { session with leftAddr := addr, leftAddrLearned := true }
  | .right => { session with rightAddr := addr, rightAddrLearned := true }

def setSenderIndices (session : RelaySession) (indices : List UInt32) :
    RelaySessionSide → RelaySession
  | .left => { session with leftWireguardSenderIndices := indices }
  | .right => { session with rightWireguardSenderIndices := indices }

structure Same (s s' : RelaySession) : Prop where
  token : s'.sessionToken = s.sessionToken
  node : ∀ side, s'.node side = s.node side

structure Counted (s s' : RelaySession) : Prop extends Same s s' where
  addr : ∀ side, s'.addr side = s.addr side
  learned : ∀ side, s'.learned side = s.learned side
  senderIndices : ∀ side, s'.senderIndices side = s.senderIndices side

variable {s s₁ s₂ : RelaySession} {side : RelaySessionSide} {src : SocketAddr} {now : Timestamp}

lemma Counted.refl (s : RelaySession) : Counted s s := ⟨⟨rfl, fun _ => rfl⟩, fun _ => rfl, fun _ => rfl, fun _ => rfl⟩

lemma Counted.trans (h : Counted s s₁) (h' : Counted s₁ s₂) : Counted s s₂ where
  token := h'.token.trans h.token
  node side := (h'.node side).trans (h.node side)
  addr side := (h'.addr side).trans (h.addr side)
  learned side := (h'.learned side).trans (h.learned side)
  senderIndices side := (h'.senderIndices side).trans (h.senderIndices side)

lemma counted_of_counters (s : RelaySession) (windowStartedAt : Timestamp)
    (windowBytes bytesForwarded : UInt64) :
    Counted s { s with windowStartedAt, windowBytes, bytesForwarded } where
  token := rfl
  node side := by cases side <;> rfl
  addr side := by cases side <;> rfl
  learned side := by cases side <;> rfl
  senderIndices side := by cases side <;> rfl

lemma exec_consumeRateLimit (n : ℕ) (now : Timestamp) (s : RelaySession) :
    ∃ s', Counted s s' ∧ (exec (consumeRateLimit n now) s = (.ok (), s') ∨
      exec (consumeRateLimit n now) s = (.error .rateLimited, s')) := by
  rw [consumeRateLimit, exec_modify_bind, exec_get_bind]
  generalize hs₁ : (if now - s.windowStartedAt ≥ seconds 1 then
    { s with windowStartedAt := now, windowBytes := 0 } else s : RelaySession) = s₁
  have hcounted : Counted s s₁ := by
    rw [← hs₁]
    split_ifs
    · exact counted_of_counters s now 0 s.bytesForwarded
    · exact .refl s
  by_cases hlimit : saturatingAdd s₁.windowBytes (UInt64.ofNat n) > s₁.maxBytesPerSecond
  · refine ⟨s₁, hcounted, Or.inr ?_⟩
    rw [exec_bind, rejectIf, if_pos hlimit]
    rfl
  · refine ⟨_, hcounted.trans (counted_of_counters s₁ s₁.windowStartedAt
      (saturatingAdd s₁.windowBytes (UInt64.ofNat n)) s₁.bytesForwarded), Or.inl ?_⟩
    rw [exec_check_bind ((rejectIf_eq_ok (u := ())).mpr hlimit)]
    rfl

lemma counted_addBytesForwarded (n : ℕ) (s : RelaySession) :
    Counted s { s with bytesForwarded := saturatingAdd s.bytesForwarded (UInt64.ofNat n) } :=
  counted_of_counters s s.windowStartedAt s.windowBytes _

/-! ## Frames -/

/-- The frame carries the token of the session and names its nodes, the sender at `side`. -/
def Names (s : RelaySession) (d : RelayDatagram) (side : RelaySessionSide) : Prop :=
  d.sessionToken = s.sessionToken ∧ d.source = some (s.node side) ∧
    d.destination = some (s.node side.other)

/-- The frame carries the token of the session and no route. -/
def Routeless (s : RelaySession) (d : RelayDatagram) : Prop :=
  d.sessionToken = s.sessionToken ∧ (d.source = none ∨ d.destination = none)

/-- A frame that a session accepts, and the session that has learned from it. -/
inductive Routed (src : SocketAddr) (d : RelayDatagram) (s : RelaySession) (side : RelaySessionSide) :
    RelaySession → Prop
  | named (h : Names s d side) : Routed src d s side (s.learn src side)
  | routeless (h : Routeless s d) (haddr : s.addr side = src) : Routed src d s side s

abbrev RouteUpdate := UInt32 × Option UInt32 × WireGuardReturnRoute

inductive Recorded (d : RelayDatagram) (side : RelaySessionSide) (s : RelaySession) :
    Option RouteUpdate → RelaySession → Prop
  | nothing : Recorded d side s none s
  | index (senderIndex : UInt32) :
      Recorded d side s
        (some (senderIndex, (pushSenderIndex (s.senderIndices side) senderIndex).2,
          ⟨d.sessionId, side.other, (s.addr side.other).ip⟩))
        (s.setSenderIndices (pushSenderIndex (s.senderIndices side) senderIndex).1 side)

inductive FrameStep (src : SocketAddr) (d : RelayDatagram) (s : RelaySession) :
    Except RelayError (RelayDatagramForward × Option RouteUpdate) × RelaySession → Prop
  | refused (error : RelayError) : FrameStep src d s (.error error, s)
  | limited {side : RelaySessionSide} {s₁ s₂ : RelaySession}
      (hrouted : Routed src d s side s₁) (hcounted : Counted s₁ s₂) :
      FrameStep src d s (.error .rateLimited, s₂)
  | accepted {side : RelaySessionSide} {s₁ s₂ s₃ s₄ : RelaySession} {update : Option RouteUpdate}
      (hrouted : Routed src d s side s₁) (hcounted : Counted s₁ s₂)
      (hrecorded : Recorded d side s₂ update s₃) (hcounted' : Counted s₃ s₄) :
      FrameStep src d s
        (.ok (⟨s.addr side.other, d.ciphertextPayload, !d.endpointAnnouncement⟩, update), s₄)

variable {d : RelayDatagram}

lemma exec_routeFrame (src : SocketAddr) (htoken : d.sessionToken = s.sessionToken) :
    (∃ error, exec (routeFrame src d) s = (.error error, s)) ∨
      ∃ side s₁, Routed src d s side s₁ ∧
        exec (routeFrame src d) s = (.ok (s.addr side.other, side), s₁) := by
  have hrouteless (hnone : d.source = none ∨ d.destination = none) :
      let route : Session _ := if s.leftAddr = src then pure (s.rightAddr, RelaySessionSide.left)
        else if s.rightAddr = src then pure (s.leftAddr, .right) else check (.error .unknownSession)
      (∃ error, exec route s = (.error error, s)) ∨
        ∃ side s₁, Routed src d s side s₁ ∧ exec route s = (.ok (s.addr side.other, side), s₁) := by
    dsimp only
    split_ifs with hleft hright
    · exact Or.inr ⟨.left, s, .routeless ⟨htoken, hnone⟩ hleft, rfl⟩
    · exact Or.inr ⟨.right, s, .routeless ⟨htoken, hnone⟩ hright, rfl⟩
    · exact Or.inl ⟨_, rfl⟩
  rw [routeFrame, exec_get_bind]
  cases hsource : d.source with
  | none => exact hrouteless (Or.inl hsource)
  | some source =>
    cases hdestination : d.destination with
    | none => exact hrouteless (Or.inr hdestination)
    | some destination =>
      simp only
      split_ifs with hleft hright
      · obtain ⟨rfl, rfl⟩ := hleft
        exact Or.inr ⟨.left, _, .named ⟨htoken, hsource, hdestination⟩, rfl⟩
      · obtain ⟨rfl, rfl⟩ := hright
        exact Or.inr ⟨.right, _, .named ⟨htoken, hsource, hdestination⟩, rfl⟩
      · exact Or.inl ⟨_, rfl⟩

def routeUpdate (d : RelayDatagram) (side : RelaySessionSide) (s : RelaySession)
    (recorded : Option (UInt32 × Option UInt32)) : Option RouteUpdate :=
  recorded.map fun r => (r.1, r.2, ⟨d.sessionId, side.other, (s.addr side.other).ip⟩)

lemma exec_recordSenderOf (d : RelayDatagram) (side : RelaySessionSide) (s : RelaySession) :
    ∃ recorded s', exec (recordSenderOf side d) s = (.ok recorded, s') ∧
      Recorded d side s (routeUpdate d side s' recorded) s' := by
  rw [recordSenderOf]
  by_cases hannouncement : d.endpointAnnouncement
  · rw [if_pos hannouncement]
    exact ⟨none, s, rfl, .nothing⟩
  · rw [if_neg hannouncement, recordWireguardSenderIndex]
    cases wireguardSenderIndex d.ciphertextPayload with
    | none => exact ⟨none, s, rfl, .nothing⟩
    | some senderIndex =>
      cases side with
      | left | right => exact ⟨_, _, rfl, .index senderIndex⟩

/-- A frame at its session. -/
theorem frameStep_acceptFrame (src : SocketAddr) (d : RelayDatagram) (now : Timestamp)
    (s : RelaySession) : FrameStep src d s (exec (acceptFrame src d now) s) := by
  rw [acceptFrame, exec_get_bind]
  cases htoken : s.verifyToken d.sessionToken with
  | error error => exact .refused error
  | ok =>
    rw [exec_check_bind rfl]
    have htoken : d.sessionToken = s.sessionToken := by
      rw [verifyToken, rejectIf_eq_ok, Bool.not_eq_false, relaySessionTokenMatches_iff] at htoken
      exact htoken.1.symm
    obtain ⟨error, herror⟩ | ⟨side, s₁, hrouted, hok⟩ := exec_routeFrame src htoken
    · rw [exec_bind, herror]
      exact .refused error
    · rw [exec_bind_of_ok hok]
      obtain ⟨s₂, hcounted, hok | herror⟩ := exec_consumeRateLimit d.ciphertextPayload.length now s₁
      · obtain ⟨recorded, s₃, hrecord, hrecorded⟩ := exec_recordSenderOf d side s₂
        have hend := FrameStep.accepted hrouted hcounted hrecorded
          (counted_addBytesForwarded d.ciphertextPayload.length s₃)
        simp only
        rw [exec_bind_of_ok hok, exec_bind_of_ok hrecord, exec_get_bind]
        cases side with
        | left | right => exact hend
      · simp only
        rw [exec_bind, herror]
        exact .limited hrouted hcounted

inductive ReturnStep (src : SocketAddr) (side : RelaySessionSide) (s : RelaySession) :
    Except RelayError RelayDatagramForward × RelaySession → Prop
  | limited {s₁ : RelaySession} (hcounted : Counted s s₁) :
      ReturnStep src side s (.error .rateLimited, s₁)
  | accepted {s₁ s₂ : RelaySession} (payload : List UInt8) (hcounted : Counted s s₁)
      (hcounted' : Counted (s₁.setAddr src side) s₂) :
      ReturnStep src side s (.ok ⟨s.addr side.other, payload, true⟩, s₂)

theorem returnStep_acceptReturn (src : SocketAddr) (side : RelaySessionSide) (datagram : List UInt8)
    (now : Timestamp) (s : RelaySession) :
    ReturnStep src side s (exec (acceptReturn src side datagram now) s) := by
  rw [acceptReturn]
  obtain ⟨s₁, hcounted, hok | herror⟩ := exec_consumeRateLimit datagram.length now s
  · rw [exec_bind_of_ok hok, exec_get_bind]
    have hend := ReturnStep.accepted datagram hcounted
      (counted_addBytesForwarded datagram.length (s₁.setAddr src side))
    rw [← hcounted.addr] at hend
    cases side with
    | left | right => exact hend
  · rw [exec_bind, herror]
    exact .limited hcounted

lemma counted_acceptTarget (frame : RelayFrame) (now : Timestamp) (s : RelaySession) :
    Counted s (exec (acceptTarget frame now) s).2 := by
  rw [acceptTarget, exec_get_bind]
  cases htoken : s.verifyToken frame.sessionToken with
  | error error => exact .refl s
  | ok =>
    rw [exec_check_bind rfl, exec_bind]
    cases htarget : (if frame.source = s.left ∧ frame.destination = s.right then .ok s.rightAddr
        else if frame.source = s.right ∧ frame.destination = s.left then .ok s.leftAddr
        else .error .unknownSession : Except RelayError SocketAddr) with
    | error error => exact .refl s
    | ok target =>
      obtain ⟨s₁, hcounted, hok | herror⟩ :=
        exec_consumeRateLimit frame.ciphertextPayload.length now s
      · change Counted s (exec (consumeRateLimit _ now >>= _) s).2
        rw [exec_bind_of_ok hok]
        exact hcounted.trans (counted_addBytesForwarded _ s₁)
      · change Counted s (exec (consumeRateLimit _ now >>= _) s).2
        rw [exec_bind, herror]
        exact hcounted

end RelaySession

/-! ## Calls -/

section Calls

open RelaySession

variable {table : RelayTable} {now : Timestamp}

def RelayTable.afterFrame (table : RelayTable) (sessionId : RelaySessionId)
    (r : Except RelayError (RelayDatagramForward × Option RouteUpdate) × RelaySession) : RelayTable :=
  let table := { table with sessions := table.sessions.insert sessionId r.2 }
  match r.1 with
  | .ok (_, some (receiverIndex, evictedIndex, route)) =>
    table.upsertWireguardReturnRoute receiverIndex evictedIndex route
  | _ => table

def forwardedAnswer (forward : RelayDatagramForward) : RelayAnswer :=
  .forwarded forward.target forward.payload

inductive RelayStep (table : RelayTable) (now : Timestamp) :
    RelayOp → Except RelayError RelayAnswer × RelayTable → Prop
  | refused {op : RelayOp} (error : RelayError) (m : RelayDataplaneMetrics) :
      RelayStep table now op (.error error, { table with dataplane := m })
  | authorized {node : NodeId} {packet : List UInt8} (answer : RelayAnswer) :
      RelayStep table now (.announcement node packet) (.ok answer, table)
  | expired {op : RelayOp} {id : RelaySessionId} {s : RelaySession} (m : RelayDataplaneMetrics)
      (hs : table.sessions[id]? = some s) (hexpired : s.isExpired now = true) :
      RelayStep table now op (.error .sessionExpired,
        { RelayTable.rebuildWireguardReturnRoutes
            { table with sessions := table.sessions.erase id } with dataplane := m })
  | purged {op : RelayOp} {result : Except RelayError RelayAnswer} (m : RelayDataplaneMetrics)
      (hresult : ∀ forward, result ≠ .ok (forwardedAnswer forward)) :
      RelayStep table now op (result, { (table.purgeExpired now).1 with dataplane := m })
  | readmitted {capability : RelayCapability} {admission : RelaySessionAdmission}
      {id : RelaySessionId} {s : RelaySession} (expiresAt : Timestamp) (limit : UInt64)
      (answer : RelaySessionCredentials) (hs : (table.purgeExpired now).1.sessions[id]? = some s)
      (hjoins : s.joins admission.left admission.right = true) :
      RelayStep table now (.admission capability admission) (.ok (.credentials answer),
        RelayTable.rebuildWireguardReturnRoutes
          { (table.purgeExpired now).1 with
            sessions := (table.purgeExpired now).1.sessions.insert id
              (s.readmit admission expiresAt limit) })
  | admitted {capability : RelayCapability} {admission : RelaySessionAdmission}
      (expiresAt : Timestamp) (limit : UInt64) (answer : RelaySessionCredentials)
      (hvalid : relayNodeIdIsValid admission.left = true ∧ relayNodeIdIsValid admission.right = true)
      (hne : admission.left ≠ admission.right)
      (hnew : ∀ (id : RelaySessionId) (s : RelaySession), (table.purgeExpired now).1.sessions[id]? = some s →
        s.joins admission.left admission.right = false) :
      RelayStep table now (.admission capability admission) (.ok (.credentials answer),
        { (table.purgeExpired now).1 with
          sessions := (table.purgeExpired now).1.sessions.insert
            (.new admission.left admission.right)
            (.admitted (.new admission.left admission.right) admission now expiresAt limit) })
  | target {frame : RelayFrame} {s s' : RelaySession} {result : Except RelayError SocketAddr}
      (m : RelayDataplaneMetrics) (hs : table.sessions[frame.sessionId]? = some s)
      (hcounted : Counted s s') :
      RelayStep table now (.frame frame) (result.map RelayAnswer.target,
        { table with sessions := table.sessions.insert frame.sessionId s', dataplane := m })
  | framed {src : SocketAddr} {datagram : List UInt8} {d : RelayDatagram} {s : RelaySession}
      {r : Except RelayError (RelayDatagramForward × Option RouteUpdate) × RelaySession}
      (m : RelayDataplaneMetrics) (hdecode : decodeRelayDatagram datagram = .ok d)
      (hs : table.sessions[d.sessionId]? = some s) (hlive : s.isExpired now = false)
      (hstep : FrameStep src d s r) :
      RelayStep table now (.datagram src datagram) (r.1.map fun f => forwardedAnswer f.1,
        { table.afterFrame d.sessionId r with dataplane := m })
  | returned {src : SocketAddr} {datagram : List UInt8} {index : UInt32} {id : RelaySessionId}
      {side : RelaySessionSide} {s : RelaySession}
      {r : Except RelayError RelayDatagramForward × RelaySession} (m : RelayDataplaneMetrics)
      (hdecode : decodeRelayDatagram datagram = .error .malformedFrame)
      (hindex : wireguardReceiverIndex datagram = some index)
      (hfound : matchReturnRoute (table.purgeExpired now).1.sessions src.ip none
        (routesAt (table.purgeExpired now).1.wireguardReturnRoutes index) = .ok (some (id, side)))
      (hs : (table.purgeExpired now).1.sessions[id]? = some s) (hstep : ReturnStep src side s r) :
      RelayStep table now (.datagram src datagram) (r.1.map forwardedAnswer,
        { (table.purgeExpired now).1 with
          sessions := (table.purgeExpired now).1.sessions.insert id r.2, dataplane := m })

lemma exec_onSession {α : Type} (id : RelaySessionId) (method : Mutating RelaySession RelayError α)
    (table : RelayTable) :
    exec (onSession id method) table = match table.sessions[id]? with
      | none => (.error .unknownSession, table)
      | some s => ((exec method s).1,
          { table with sessions := table.sessions.insert id (exec method s).2 }) := by
  rw [onSession, exec_get_bind]
  cases table.sessions[id]? with
  | none | some => rfl

lemma exec_removeExpiredSession (id : RelaySessionId) (now : Timestamp) (table : RelayTable) :
    (∃ s, table.sessions[id]? = some s ∧ s.isExpired now = true ∧
      exec (removeExpiredSession id now) table = (.error .sessionExpired,
        RelayTable.rebuildWireguardReturnRoutes { table with sessions := table.sessions.erase id })) ∨
    ((∀ s, table.sessions[id]? = some s → s.isExpired now = false) ∧
      exec (removeExpiredSession id now) table = (.ok (), table)) := by
  rw [removeExpiredSession, exec_get_bind]
  cases hs : table.sessions[id]? with
  | none =>
    refine Or.inr ⟨?_, rfl⟩
    rintro s ⟨⟩
  | some s =>
    cases hexpired : s.isExpired now with
    | true => exact Or.inl ⟨s, rfl, hexpired, by simp only [Option.any_some, hexpired, if_true]; rfl⟩
    | false =>
      refine Or.inr ⟨fun s' h => by rw [← Option.some.inj h, hexpired], ?_⟩
      simp only [Option.any_some, hexpired, Bool.false_eq_true, if_false]
      rfl

lemma exec_withMetrics {α : Type} (received : ℕ) (forwarded : α → Option ℕ) (method : Relaying α)
    (table : RelayTable) :
    ∃ m m', exec (withMetrics received forwarded method) table =
      ((exec method { table with dataplane := m }).1,
        { (exec method { table with dataplane := m }).2 with dataplane := m' }) :=
  ⟨_, _, rfl⟩

lemma purgeExpired_metrics (table : RelayTable) (m : RelayDataplaneMetrics) (now : Timestamp) :
    (RelayTable.purgeExpired now { table with dataplane := m }).1 =
      { (table.purgeExpired now).1 with dataplane := m } := by
  simp only [RelayTable.purgeExpired]
  split_ifs <;> rfl

lemma relayStep_forwardTarget (frame : RelayFrame) (m m' : RelayDataplaneMetrics) :
    RelayStep table now (.frame frame)
      ((exec (forwardTargetAtInner frame now) { table with dataplane := m }).1.map RelayAnswer.target,
        { (exec (forwardTargetAtInner frame now) { table with dataplane := m }).2 with
          dataplane := m' }) := by
  rw [forwardTargetAtInner]
  cases hsizes : validateRelayFrameSizes (utf8 frame.sessionId.asStr).length
      (utf8 frame.sessionToken).length frame.ciphertextPayload.length with
  | error error => exact .refused error m'
  | ok =>
    rw [exec_check_bind rfl]
    obtain ⟨s, hs, hexpired, hexec⟩ | ⟨-, hexec⟩ :=
      exec_removeExpiredSession frame.sessionId now { table with dataplane := m }
    · rw [exec_bind, hexec]
      exact .expired m' hs hexpired
    · rw [exec_bind_of_ok hexec, exec_onSession]
      cases hs : table.sessions[frame.sessionId]? with
      | none => exact .refused .unknownSession m'
      | some s => exact .target m' hs (counted_acceptTarget frame now s)

lemma relayStep_forwardFrame {src : SocketAddr} {datagram : List UInt8} {d : RelayDatagram}
    (hdecode : decodeRelayDatagram datagram = .ok d) (m m' : RelayDataplaneMetrics) :
    RelayStep table now (.datagram src datagram)
      ((exec (forwardFrame src d now) { table with dataplane := m }).1.map forwardedAnswer,
        { (exec (forwardFrame src d now) { table with dataplane := m }).2 with dataplane := m' }) := by
  rw [forwardFrame]
  obtain ⟨s, hs, hexpired, hexec⟩ | ⟨hlive, hexec⟩ :=
    exec_removeExpiredSession d.sessionId now { table with dataplane := m }
  · rw [exec_bind, hexec]
    exact .expired m' hs hexpired
  · rw [exec_bind_of_ok hexec, exec_bind, exec_onSession]
    cases hs : table.sessions[d.sessionId]? with
    | none => exact .refused .unknownSession m'
    | some s =>
      have hstep := frameStep_acceptFrame src d now s
      have hframed := RelayStep.framed m' hdecode hs (hlive s hs) hstep
      simp only
      generalize exec (acceptFrame src d now) s = r at hframed ⊢
      obtain ⟨error | ⟨forward, _ | update⟩, s'⟩ := r
      · exact hframed
      · exact hframed
      · exact hframed

lemma relayStep_forwardReturn {src : SocketAddr} {datagram : List UInt8}
    (hdecode : decodeRelayDatagram datagram = .error .malformedFrame) (m m' : RelayDataplaneMetrics) :
    RelayStep table now (.datagram src datagram)
      ((exec (forwardWireguardReturnDatagram src datagram now)
          { table with dataplane := m }).1.map forwardedAnswer,
        { (exec (forwardWireguardReturnDatagram src datagram now) { table with dataplane := m }).2 with
          dataplane := m' }) := by
  rw [forwardWireguardReturnDatagram]
  cases hindex : wireguardReceiverIndex datagram with
  | none => exact .refused .malformedFrame m'
  | some index =>
    rw [orError, exec_check_bind rfl, exec_modify_bind, exec_get_bind, purgeExpired_metrics]
    cases hmatch : matchReturnRoute (table.purgeExpired now).1.sessions src.ip none
        (routesAt (table.purgeExpired now).1.wireguardReturnRoutes index) with
    | error error => exact .purged m' (by rintro _ ⟨⟩)
    | ok found =>
      rw [exec_check_bind rfl]
      cases found with
      | none => exact .purged m' (by rintro _ ⟨⟩)
      | some found =>
        obtain ⟨id, side⟩ := found
        rw [orError, exec_check_bind rfl]
        simp only
        rw [exec_onSession]
        cases hs : (table.purgeExpired now).1.sessions[id]? with
        | none => exact .purged m' (by rintro _ ⟨⟩)
        | some s =>
          exact .returned m' hdecode hindex hmatch hs
            (returnStep_acceptReturn src side datagram now s)

lemma relayStep_forwardDatagram (table : RelayTable) (now : Timestamp) (src : SocketAddr)
    (datagram : List UInt8) (m m' : RelayDataplaneMetrics) :
    RelayStep table now (.datagram src datagram)
      ((exec (forwardDatagramForAddrAtInner src datagram now)
          { table with dataplane := m }).1.map forwardedAnswer,
        { (exec (forwardDatagramForAddrAtInner src datagram now) { table with dataplane := m }).2 with
          dataplane := m' }) := by
  rw [forwardDatagramForAddrAtInner]
  cases hdecode : decodeRelayDatagram datagram with
  | ok d => exact relayStep_forwardFrame hdecode m m'
  | error error =>
    by_cases hreturn : error = .malformedFrame ∧ wireguardDatagramPayload datagram = true
    · obtain ⟨rfl, hpayload⟩ := hreturn
      simp only [hpayload, and_self, if_true]
      exact relayStep_forwardReturn hdecode m m'
    · simp only [hreturn, if_false]
      exact .refused error m'

lemma relayStep_authorize (node : NodeId) (packet : List UInt8) :
    RelayStep table now (.announcement node packet)
      (exec ((fun answer => RelayAnswer.announced answer.1 answer.2) <$>
        authorizeHttpAnnouncement node packet now) table) := by
  rw [exec_map, authorizeHttpAnnouncement]
  cases hdecode : decodeRelayDatagram packet with
  | error error => exact .refused error table.dataplane
  | ok frame =>
    rw [exec_check_bind rfl]
    cases hsender : rejectIf (frame.endpointAnnouncement = false ∨ frame.source ≠ some node)
        RelayError.invalidSessionCredential with
    | error error => exact .refused error table.dataplane
    | ok =>
      rw [exec_check_bind rfl]
      obtain ⟨s, hs, hexpired, hexec⟩ | ⟨-, hexec⟩ :=
        exec_removeExpiredSession frame.sessionId now table
      · rw [exec_bind, hexec]
        exact .expired table.dataplane hs hexpired
      · rw [exec_bind_of_ok hexec, exec_get_bind]
        -- the rest only reads
        generalize hsession : orError table.sessions[frame.sessionId]? RelayError.unknownSession = x
        cases x with
        | error error => exact .refused error table.dataplane
        | ok session =>
          rw [exec_check_bind rfl]
          cases htoken : session.verifyToken frame.sessionToken with
          | error error => exact .refused error table.dataplane
          | ok =>
            rw [exec_check_bind rfl]
            cases hroute : rejectIf
                (¬((frame.source = some session.left ∧ frame.destination = some session.right) ∨
                  (frame.source = some session.right ∧ frame.destination = some session.left)))
                RelayError.invalidSessionCredential with
            | error error => exact .refused error table.dataplane
            | ok => exact .authorized _

lemma validateRelayAdmissionNodeId_eq_ok {node : NodeId} {u : Unit}
    (h : validateRelayAdmissionNodeId node = .ok u) : relayNodeIdIsValid node = true := by
  rw [validateRelayAdmissionNodeId, rejectIf_eq_ok] at h
  simpa using h

variable {id : RelaySessionId}

lemma validateRelaySessionAdmission_eq_ok {admission : RelaySessionAdmission} {u : Unit}
    (h : validateRelaySessionAdmission admission id = .ok u) :
    (relayNodeIdIsValid admission.left = true ∧ relayNodeIdIsValid admission.right = true) ∧
      admission.left ≠ admission.right := by
  simp only [validateRelaySessionAdmission, bind_eq_ok] at h
  obtain ⟨_, hleft, _, hright, _, hne, -⟩ := h
  rw [rejectIf_eq_ok, not_or] at hne
  exact ⟨⟨validateRelayAdmissionNodeId_eq_ok hleft, validateRelayAdmissionNodeId_eq_ok hright⟩, hne.1⟩

variable (parseUrl : String → Option ParsedUrl)

lemma relayStep_admission (capability : RelayCapability) (admission : RelaySessionAdmission) :
    RelayStep table now (.admission capability admission)
      (exec (RelayAnswer.credentials <$> admitWithOptions parseUrl capability admission now)
        table) := by
  have hdenied : ∀ error : RelayError, RelayStep table now (.admission capability admission)
      (.error error, (table.purgeExpired now).1) :=
    fun error => .purged (table.purgeExpired now).1.dataplane (by rintro _ ⟨⟩)
  rw [exec_map, admitWithOptions, exec_modify_bind]
  simp only
  cases hvalid : validateRelaySessionAdmission admission
      (RelaySessionId.new admission.left admission.right) with
  | error error => exact hdenied error
  | ok =>
    rw [exec_check_bind rfl, exec_get_bind]
    cases hfind : (table.purgeExpired now).1.sessions.toList.find?
        fun e => e.2.joins admission.left admission.right with
    | some found =>
      obtain ⟨id, s⟩ := found
      have hs : (table.purgeExpired now).1.sessions[id]? = some s :=
        Std.TreeMap.mem_toList_iff_getElem?_eq_some.mp (List.mem_of_find?_eq_some hfind)
      have hjoins := List.find?_some hfind
      exact .readmitted _ _ _ hs hjoins
    | none =>
      obtain ⟨hnodes, hne⟩ := validateRelaySessionAdmission_eq_ok hvalid
      simp only
      cases hadmit : canAdmit parseUrl capability with
      | false => exact hdenied .admissionDenied
      | true =>
        refine .admitted _ _ _ hnodes hne fun id s hs => ?_
        have := List.find?_eq_none.mp hfind (id, s)
          (Std.TreeMap.mem_toList_iff_getElem?_eq_some.mpr hs)
        simpa using this

/-- A call on the table does one of the listed things. -/
theorem relayStep_relay (table : RelayTable) (call : RelayCall) :
    RelayStep table call.now call.op (relay parseUrl table call) := by
  obtain ⟨op, now⟩ := call
  rw [relay, RelayCall.method]
  cases op with
  | admission capability admission => exact relayStep_admission parseUrl capability admission
  | datagram src datagram =>
    simp only
    rw [exec_map, forwardDatagramForAddrAt, exec_bind]
    obtain ⟨m, m', hexec⟩ := exec_withMetrics datagram.length
      (fun forward : RelayDatagramForward =>
        if forward.shouldForward then some forward.payload.length else none)
      (forwardDatagramForAddrAtInner src datagram now) table
    have hstep := relayStep_forwardDatagram table now src datagram m m'
    rw [hexec]
    generalize exec (forwardDatagramForAddrAtInner src datagram now) _ = r at hstep ⊢
    obtain ⟨error | forward, table'⟩ := r
    · exact hstep
    · exact hstep
  | frame frame =>
    simp only
    obtain ⟨m, m', hexec⟩ := exec_withMetrics frame.ciphertextPayload.length
      (fun _ => some frame.ciphertextPayload.length) (forwardTargetAtInner frame now) table
    rw [exec_map, forwardTargetAt, hexec]
    exact relayStep_forwardTarget frame m m'
  | purge => exact .purged (table.purgeExpired now).1.dataplane (by rintro _ ⟨⟩)
  | announcement node packet => exact relayStep_authorize node packet

/-! ## Sessions and their names

An identifier that the relay admits has no `:` in it, so the name of a session tells its two nodes. -/

lemma notMem_asBytes_of_valid {node : NodeId} (h : relayNodeIdIsValid node = true) :
    (0x3a : UInt8) ∉ node.asBytes := by
  intro hmem
  simp only [relayNodeIdIsValid, Bool.and_eq_true, List.all_eq_true] at h
  exact absurd (h.2 _ hmem) (by decide)

variable {l r : NodeId}

lemma asStr_inj_of_valid {l' r' : NodeId} (hl : relayNodeIdIsValid l = true)
    (hl' : relayNodeIdIsValid l' = true)
    (h : l.asStr ++ ":" ++ r.asStr = l'.asStr ++ ":" ++ r'.asStr) : l = l' ∧ r = r' := by
  have hcolon : utf8 ":" = [0x3a] := by decide +kernel
  have hbytes := congrArg utf8 h
  simp only [utf8_append, hcolon, List.append_assoc, List.singleton_append] at hbytes
  obtain ⟨hleft, hright⟩ :=
    Framing.terminated_inj (notMem_asBytes_of_valid hl) (notMem_asBytes_of_valid hl') hbytes
  exact ⟨NodeId.asBytes_injective hleft, NodeId.asBytes_injective hright⟩

lemma new_inj {l' r' : NodeId} (hl : relayNodeIdIsValid l = true)
    (hr : relayNodeIdIsValid r = true) (hl' : relayNodeIdIsValid l' = true)
    (hr' : relayNodeIdIsValid r' = true) (h : RelaySessionId.new l r = RelaySessionId.new l' r') :
    (l = l' ∧ r = r') ∨ (l = r' ∧ r = l') := by
  have hasStr := congrArg RelaySessionId.asStr h
  simp only [RelaySessionId.new] at hasStr
  split_ifs at hasStr
  · exact Or.inl (asStr_inj_of_valid hl hl' hasStr)
  · exact Or.inr (asStr_inj_of_valid hl hr' hasStr)
  · exact Or.inr (asStr_inj_of_valid hr hl' hasStr).symm
  · exact Or.inl (asStr_inj_of_valid hr hr' hasStr).symm

lemma new_comm (l r : NodeId) : RelaySessionId.new l r = RelaySessionId.new r l := by
  rw [RelaySessionId.new, RelaySessionId.new]
  split_ifs with hle hge hge
  · rw [le_antisymm hle hge]
  · rfl
  · rfl
  · exact absurd (le_of_not_ge hle) hge

def Keyed (sessions : Sessions) : Prop :=
  ∀ (id : RelaySessionId) (s : RelaySession), sessions[id]? = some s →
    id = .new s.left s.right ∧ relayNodeIdIsValid s.left = true ∧ relayNodeIdIsValid s.right = true

variable {sessions : Sessions}

lemma keyed_insert {s : RelaySession} (h : Keyed sessions) (hid : id = .new s.left s.right)
    (hvalid : relayNodeIdIsValid s.left = true ∧ relayNodeIdIsValid s.right = true) :
    Keyed (sessions.insert id s) := by
  intro id' t ht
  by_cases heq : id = id'
  · subst heq
    rw [Std.TreeMap.getElem?_insert_self] at ht
    obtain rfl := Option.some.inj ht
    exact ⟨hid, hvalid⟩
  · rw [getElem?_insert_ne heq] at ht
    exact h id' t ht

lemma keyed_replace {s s' : RelaySession} (h : Keyed sessions) (hs : sessions[id]? = some s)
    (hnode : ∀ side, s'.node side = s.node side) : Keyed (sessions.insert id s') := by
  have hleft : s'.left = s.left := hnode .left
  have hright : s'.right = s.right := hnode .right
  refine keyed_insert h ?_ ?_
  · rw [hleft, hright]
    exact (h id s hs).1
  · rw [hleft, hright]
    exact (h id s hs).2

lemma purge_sessions (table : RelayTable) (now : Timestamp) :
    (table.purgeExpired now).1.sessions = table.sessions.filter fun _ s => !s.isExpired now := by
  simp only [RelayTable.purgeExpired]
  split_ifs <;> rfl

lemma getElem?_purge {s : RelaySession} (h : (table.purgeExpired now).1.sessions[id]? = some s) :
    table.sessions[id]? = some s ∧ s.isExpired now = false := by
  rw [purge_sessions, Std.TreeMap.getElem?_filter'] at h
  obtain ⟨hs, hlive⟩ := Option.filter_eq_some_iff.mp h
  exact ⟨hs, by simpa using hlive⟩

lemma keyed_purge (h : Keyed table.sessions) : Keyed (table.purgeExpired now).1.sessions :=
  fun id s hs => h id s (getElem?_purge hs).1

lemma getElem?_new_eq_none (h : Keyed sessions)
    (hvalid : relayNodeIdIsValid l = true ∧ relayNodeIdIsValid r = true)
    (hnew : ∀ (id : RelaySessionId) (s : RelaySession), sessions[id]? = some s →
      s.joins l r = false) : sessions[RelaySessionId.new l r]? = none := by
  rw [Option.eq_none_iff_forall_not_mem]
  intro s hs
  obtain ⟨hid, hleft, hright⟩ := h _ s hs
  have hjoins := hnew _ s hs
  simp only [RelaySession.joins, decide_eq_false_iff_not] at hjoins
  refine hjoins ?_
  obtain ⟨h₁, h₂⟩ | ⟨h₁, h₂⟩ := new_inj hvalid.1 hvalid.2 hleft hright hid
  · exact Or.inl ⟨h₁.symm, h₂.symm⟩
  · exact Or.inr ⟨h₂.symm, h₁.symm⟩

lemma node_learn (s : RelaySession) (src : SocketAddr) (side side' : RelaySessionSide) :
    (s.learn src side).node side' = s.node side' := by
  cases side <;> cases side' <;> rfl

lemma node_setAddr (s : RelaySession) (src : SocketAddr) (side side' : RelaySessionSide) :
    (s.setAddr src side).node side' = s.node side' := by
  cases side <;> cases side' <;> rfl

lemma node_setSenderIndices (s : RelaySession) (l : List UInt32) (side side' : RelaySessionSide) :
    (s.setSenderIndices l side).node side' = s.node side' := by
  cases side <;> cases side' <;> rfl

lemma RelaySession.Routed.node {src : SocketAddr} {d : RelayDatagram} {s s₁ : RelaySession}
    {side : RelaySessionSide} (h : Routed src d s side s₁) (side' : RelaySessionSide) :
    s₁.node side' = s.node side' := by
  cases h with
  | named => exact node_learn s src side side'
  | routeless => rfl

lemma RelaySession.Recorded.node {d : RelayDatagram} {s s' : RelaySession} {side : RelaySessionSide}
    {update : Option RouteUpdate} (h : Recorded d side s update s') (side' : RelaySessionSide) :
    s'.node side' = s.node side' := by
  cases h with
  | nothing => rfl
  | index x => exact node_setSenderIndices s _ side side'

lemma RelaySession.FrameStep.node {src : SocketAddr} {d : RelayDatagram} {s : RelaySession}
    {r : Except RelayError (RelayDatagramForward × Option RouteUpdate) × RelaySession}
    (h : FrameStep src d s r) (side : RelaySessionSide) : r.2.node side = s.node side := by
  cases h with
  | refused => rfl
  | limited hrouted hcounted => rw [hcounted.node, hrouted.node]
  | accepted hrouted hcounted hrecorded hcounted' =>
    rw [hcounted'.node, hrecorded.node, hcounted.node, hrouted.node]

lemma RelaySession.ReturnStep.node {src : SocketAddr} {s : RelaySession} {side : RelaySessionSide}
    {r : Except RelayError RelayDatagramForward × RelaySession} (h : ReturnStep src side s r)
    (side' : RelaySessionSide) : r.2.node side' = s.node side' := by
  cases h with
  | limited hcounted => rw [hcounted.node]
  | accepted payload hcounted hcounted' => rw [hcounted'.node, node_setAddr, hcounted.node]

lemma sessions_afterFrame (table : RelayTable) (id : RelaySessionId)
    (r : Except RelayError (RelayDatagramForward × Option RouteUpdate) × RelaySession) :
    (table.afterFrame id r).sessions = table.sessions.insert id r.2 := by
  obtain ⟨error | ⟨forward, _ | ⟨x, evicted, route⟩⟩, s'⟩ := r <;> rfl

/-- Every call keeps the sessions under the names of their nodes. -/
theorem keyed_relay (call : RelayCall) (h : Keyed table.sessions) :
    Keyed (relay parseUrl table call).2.sessions := by
  obtain ⟨op, now⟩ := call
  have hstep := relayStep_relay parseUrl table ⟨op, now⟩
  generalize relay parseUrl table ⟨op, now⟩ = result at hstep ⊢
  cases hstep with
  | refused | authorized => exact h
  | expired m hs hexpired =>
    exact fun id s hs' => h id s (getElem?_of_erase hs')
  | purged => exact keyed_purge h
  | readmitted expiresAt limit answer hs hjoins =>
    exact keyed_replace (keyed_purge h) hs fun side => by cases side <;> rfl
  | admitted expiresAt limit answer hvalid => exact keyed_insert (keyed_purge h) rfl hvalid
  | target m hs hcounted => exact keyed_replace h hs hcounted.node
  | framed m hdecode hs hlive hframe =>
    simp only [sessions_afterFrame]
    exact keyed_replace h hs hframe.node
  | returned m hdecode hindex hfound hs hreturn =>
    exact keyed_replace (keyed_purge h) hs hreturn.node

end Calls

end HeteroNetwork.Relay
