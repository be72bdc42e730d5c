import HeteroNetwork.Endpoints
import HeteroNetwork.Relay.RelayDatagram

/-!
# The relay table

A session joins two nodes and holds the address the relay knows for each of them.  A frame is forwarded to the
other address of its session; a bare WireGuard packet goes by the receiver index it carries, which the relay
has seen as a sender index in a frame the other way.  A method that fails leaves its changes to the session.
-/

namespace HeteroNetwork.Relay

open Checked
open ControlPlane (RelayCapability)

/-! ## Sessions -/

inductive RelaySessionSide where
  | left
  | right
deriving DecidableEq

structure RelaySession where
  id : RelaySessionId
  sessionToken : String
  left : NodeId
  right : NodeId
  leftAddr : SocketAddr
  rightAddr : SocketAddr
  createdAt : Timestamp
  expiresAt : Timestamp
  bytesForwarded : UInt64
  leftAddrLearned : Bool
  rightAddrLearned : Bool
  leftWireguardSenderIndices : List UInt32
  rightWireguardSenderIndices : List UInt32
  windowStartedAt : Timestamp
  windowBytes : UInt64
  maxBytesPerSecond : UInt64
deriving DecidableEq

structure RelaySessionCredentials where
  sessionId : RelaySessionId
  sessionToken : String
  expiresAt : Timestamp
deriving DecidableEq

structure RelaySessionAdmission where
  left : NodeId
  right : NodeId
  leftAddr : SocketAddr
  rightAddr : SocketAddr
  sessionToken : String
  sessionTtl : ℤ
deriving DecidableEq

structure RelayDatagramForward where
  target : SocketAddr
  payload : List UInt8
  shouldForward : Bool
deriving DecidableEq

structure WireGuardReturnRoute where
  sessionId : RelaySessionId
  sourceSide : RelaySessionSide
  sourceIp : IpAddr
deriving DecidableEq

namespace RelaySession

abbrev Session := Mutating RelaySession RelayError

def isExpired (session : RelaySession) (now : Timestamp) : Bool := now ≥ session.expiresAt

def verifyToken (session : RelaySession) (sessionToken : String) : Except RelayError Unit :=
  rejectIf (relaySessionTokenMatches session.sessionToken sessionToken = false)
    .invalidSessionCredential

def targetIsAuthenticated (session : RelaySession) : RelaySessionSide → Bool
  | .left => session.rightAddrLearned
  | .right => session.leftAddrLearned

/-- Push a sender index that is not there, dropping the oldest one if there are too many. -/
def pushSenderIndex (indices : List UInt32) (senderIndex : UInt32) : List UInt32 × Option UInt32 :=
  let indices := indices.erase senderIndex
  if indices.length ≥ maxWireguardSenderIndicesPerSide then
    (indices.tail ++ [senderIndex], indices.head?)
  else (indices ++ [senderIndex], none)

def recordWireguardSenderIndex (side : RelaySessionSide) (payload : List UInt8) :
    Session (Option (UInt32 × Option UInt32)) := do
  match wireguardSenderIndex payload with
  | none => pure none
  | some senderIndex =>
    let session ← get
    match side with
    | .left =>
      let (indices, evicted) := pushSenderIndex session.leftWireguardSenderIndices senderIndex
      modify fun session => { session with leftWireguardSenderIndices := indices }
      pure (some (senderIndex, evicted))
    | .right =>
      let (indices, evicted) := pushSenderIndex session.rightWireguardSenderIndices senderIndex
      modify fun session => { session with rightWireguardSenderIndices := indices }
      pure (some (senderIndex, evicted))

/-- An announcement carries no packet. -/
def recordSenderOf (side : RelaySessionSide) (datagram : RelayDatagram) :
    Session (Option (UInt32 × Option UInt32)) :=
  if datagram.endpointAnnouncement then pure none
  else recordWireguardSenderIndex side datagram.ciphertextPayload

def consumeRateLimit (payloadLen : ℕ) (now : Timestamp) : Session Unit := do
  modify fun session =>
    if now - session.windowStartedAt ≥ seconds 1 then
      { session with windowStartedAt := now, windowBytes := 0 }
    else session
  let session ← get
  let windowBytes := saturatingAdd session.windowBytes (UInt64.ofNat payloadLen)
  check (rejectIf (windowBytes > session.maxBytesPerSecond) .rateLimited)
  modify fun session => { session with windowBytes }

def addBytesForwarded (payloadLen : ℕ) : Session Unit :=
  modify fun session =>
    { session with bytesForwarded := saturatingAdd session.bytesForwarded (UInt64.ofNat payloadLen) }

/-- Where a frame goes, and the side it came from.  A frame that names the two nodes teaches the relay the
address of its sender; any other has to come from a known address. -/
def routeFrame (sourceAddr : SocketAddr) (datagram : RelayDatagram) :
    Session (SocketAddr × RelaySessionSide) := do
  let session ← get
  match datagram.source, datagram.destination with
  | some source, some destination =>
    if source = session.left ∧ destination = session.right then
      modify fun session => { session with leftAddr := sourceAddr, leftAddrLearned := true }
      pure (session.rightAddr, .left)
    else if source = session.right ∧ destination = session.left then
      modify fun session => { session with rightAddr := sourceAddr, rightAddrLearned := true }
      pure (session.leftAddr, .right)
    else check (.error .unknownSession)
  | _, _ =>
    if session.leftAddr = sourceAddr then pure (session.rightAddr, .left)
    else if session.rightAddr = sourceAddr then pure (session.leftAddr, .right)
    else check (.error .unknownSession)

/-- The part of `forward_datagram_for_addr_at_inner` that holds the session. -/
def acceptFrame (sourceAddr : SocketAddr) (datagram : RelayDatagram) (now : Timestamp) :
    Session (RelayDatagramForward × Option (UInt32 × Option UInt32 × WireGuardReturnRoute)) := do
  check ((← get).verifyToken datagram.sessionToken)
  let (target, sourceSide) ← routeFrame sourceAddr datagram
  consumeRateLimit datagram.ciphertextPayload.length now
  let recorded ← recordSenderOf sourceSide datagram
  let session ← get
  let routeUpdate := recorded.map fun (receiverIndex, evictedIndex) =>
    let (rawSourceSide, rawSourceIp) := match sourceSide with
      | .left => (RelaySessionSide.right, session.rightAddr.ip)
      | .right => (RelaySessionSide.left, session.leftAddr.ip)
    (receiverIndex, evictedIndex, ⟨datagram.sessionId, rawSourceSide, rawSourceIp⟩)
  addBytesForwarded datagram.ciphertextPayload.length
  pure (⟨target, datagram.ciphertextPayload, !datagram.endpointAnnouncement⟩, routeUpdate)

/-- The part of `forward_wireguard_return_datagram` that holds the session. -/
def acceptReturn (sourceAddr : SocketAddr) (sourceSide : RelaySessionSide) (datagram : List UInt8)
    (now : Timestamp) : Session RelayDatagramForward := do
  consumeRateLimit datagram.length now
  let session ← get
  let target ← match sourceSide with
    | .left => do
        modify fun session => { session with leftAddr := sourceAddr }
        pure session.rightAddr
    | .right => do
        modify fun session => { session with rightAddr := sourceAddr }
        pure session.leftAddr
  addBytesForwarded datagram.length
  pure ⟨target, datagram, true⟩

/-- The part of `forward_target_at_inner` that holds the session. -/
def acceptTarget (frame : RelayFrame) (now : Timestamp) : Session SocketAddr := do
  let session ← get
  check (session.verifyToken frame.sessionToken)
  let target ← check (
    if frame.source = session.left ∧ frame.destination = session.right then .ok session.rightAddr
    else if frame.source = session.right ∧ frame.destination = session.left then .ok session.leftAddr
    else .error .unknownSession)
  consumeRateLimit frame.ciphertextPayload.length now
  addBytesForwarded frame.ciphertextPayload.length
  pure target

end RelaySession

section Capability

variable (parseUrl : String → Option ParsedUrl)

def availableCapacity (capability : RelayCapability) : ℕ :=
  capability.maxSessions.toNat - capability.activeSessions.toNat

def canAdmit (capability : RelayCapability) : Bool :=
  isEligibleRelay parseUrl capability && availableCapacity capability > 0

end Capability

/-- The product is below `2^52`, so that the saturation of the source is never reached. -/
def megabitsToBytesPerSecond (maxMbps : UInt32) : UInt64 :=
  UInt64.ofNat (maxMbps.toNat * 1000000 / 8)

/-! ## Metrics -/

inductive RelayDataplaneDropReason where
  | admissionDenied
  | unknownSession
  | sessionExpired
  | invalidSessionCredential
  | rateLimited
  | malformedFrame
  | frameTooLarge
  | socketError
deriving DecidableEq

def relayErrorDropReason : RelayError → RelayDataplaneDropReason
  | .invalidAdmissionRequest => .admissionDenied
  | .admissionDenied => .admissionDenied
  | .nodeSessionLimitExceeded => .admissionDenied
  | .unknownSession => .unknownSession
  | .sessionExpired => .sessionExpired
  | .invalidSessionCredential => .invalidSessionCredential
  | .rateLimited => .rateLimited
  | .malformedFrame => .malformedFrame
  | .frameTooLarge => .frameTooLarge
  | .socket => .socketError

structure RelayDataplaneMetrics where
  datagramsReceived : UInt64 := 0
  datagramsForwarded : UInt64 := 0
  datagramsDropped : UInt64 := 0
  datagramBytesReceived : UInt64 := 0
  payloadBytesForwarded : UInt64 := 0
  datagramBytesDropped : UInt64 := 0
  dropsByReason : RelayDataplaneDropReason → UInt64 := fun _ => 0

namespace RelayDataplaneMetrics

def recordReceived (metrics : RelayDataplaneMetrics) (datagramBytes : ℕ) : RelayDataplaneMetrics :=
  { metrics with
    datagramsReceived := saturatingAdd metrics.datagramsReceived 1
    datagramBytesReceived :=
      saturatingAdd metrics.datagramBytesReceived (UInt64.ofNat datagramBytes) }

def recordForwarded (metrics : RelayDataplaneMetrics) (payloadBytes : ℕ) : RelayDataplaneMetrics :=
  { metrics with
    datagramsForwarded := saturatingAdd metrics.datagramsForwarded 1
    payloadBytesForwarded :=
      saturatingAdd metrics.payloadBytesForwarded (UInt64.ofNat payloadBytes) }

def recordDrop (metrics : RelayDataplaneMetrics) (reason : RelayDataplaneDropReason)
    (datagramBytes : ℕ) : RelayDataplaneMetrics :=
  { metrics with
    datagramsDropped := saturatingAdd metrics.datagramsDropped 1
    datagramBytesDropped := saturatingAdd metrics.datagramBytesDropped (UInt64.ofNat datagramBytes)
    dropsByReason :=
      Function.update metrics.dropsByReason reason (saturatingAdd (metrics.dropsByReason reason) 1) }

end RelayDataplaneMetrics

/-! ## The table -/

abbrev Sessions := Std.TreeMap RelaySessionId RelaySession

abbrev ReturnRoutes := Std.TreeMap UInt32 (List WireGuardReturnRoute)

structure RelayTable where
  sessions : Sessions := ∅
  wireguardReturnRoutes : ReturnRoutes := ∅
  dataplane : RelayDataplaneMetrics := {}

abbrev Relaying := Mutating RelayTable RelayError

def onSession {α : Type} (sessionId : RelaySessionId) (method : Mutating RelaySession RelayError α) :
    Relaying α := do
  let table ← get
  let session ← check (orError table.sessions[sessionId]? .unknownSession)
  modify fun table =>
    { table with sessions := table.sessions.insert sessionId (exec method session).2 }
  check (exec method session).1

def routesAt (routes : ReturnRoutes) (index : UInt32) : List WireGuardReturnRoute :=
  (routes[index]?).getD []

def pushRoute (route : WireGuardReturnRoute) (routes : ReturnRoutes) (index : UInt32) : ReturnRoutes :=
  routes.insert index (routesAt routes index ++ [route])

/-- The two loops of `rebuild_wireguard_return_routes` over the indices of one session. -/
def pushSessionRoutes (routes : ReturnRoutes) (entry : RelaySessionId × RelaySession) : ReturnRoutes :=
  let (sessionId, session) := entry
  let routes := session.leftWireguardSenderIndices.foldl
    (pushRoute ⟨sessionId, .right, session.rightAddr.ip⟩) routes
  session.rightWireguardSenderIndices.foldl (pushRoute ⟨sessionId, .left, session.leftAddr.ip⟩) routes

def otherRoutes (route : WireGuardReturnRoute) (routes : List WireGuardReturnRoute) :
    List WireGuardReturnRoute :=
  routes.filter fun existing =>
    existing.sessionId ≠ route.sessionId ∨ existing.sourceSide ≠ route.sourceSide

/-- The first half of `upsert_wireguard_return_route`; an entry without routes is removed. -/
def dropEvicted (evictedIndex : Option UInt32) (route : WireGuardReturnRoute) (routes : ReturnRoutes) :
    ReturnRoutes :=
  match evictedIndex with
  | none => routes
  | some evictedIndex =>
    match routes[evictedIndex]? with
    | none => routes
    | some existing =>
      if otherRoutes route existing = [] then routes.erase evictedIndex
      else routes.insert evictedIndex (otherRoutes route existing)

namespace RelayTable

def rebuildWireguardReturnRoutes (table : RelayTable) : RelayTable :=
  { table with wireguardReturnRoutes := table.sessions.toList.foldl pushSessionRoutes ∅ }

def upsertWireguardReturnRoute (receiverIndex : UInt32) (evictedIndex : Option UInt32)
    (route : WireGuardReturnRoute) (table : RelayTable) : RelayTable :=
  let routes := dropEvicted evictedIndex route table.wireguardReturnRoutes
  { table with
    wireguardReturnRoutes :=
      routes.insert receiverIndex (otherRoutes route (routesAt routes receiverIndex) ++ [route]) }

/-- The sessions that are kept, and the number of the others. -/
def purgeExpired (now : Timestamp) (table : RelayTable) : RelayTable × ℕ :=
  let kept := { table with
    sessions := table.sessions.filter fun _ session => !session.isExpired now }
  let removed := table.sessions.size - kept.sessions.size
  if removed > 0 then (kept.rebuildWireguardReturnRoutes, removed) else (kept, removed)

end RelayTable

/-- The loop of `forward_wireguard_return_datagram` over the routes of a receiver index. -/
def matchReturnRoute (sessions : Sessions) (sourceIp : IpAddr) :
    Option (RelaySessionId × RelaySessionSide) → List WireGuardReturnRoute →
      Except RelayError (Option (RelaySessionId × RelaySessionSide))
  | found, [] => .ok found
  | found, route :: rest =>
    if route.sourceIp ≠ sourceIp then matchReturnRoute sessions sourceIp found rest
    else
      match sessions[route.sessionId]? with
      | none => matchReturnRoute sessions sourceIp found rest
      | some session =>
        if session.targetIsAuthenticated route.sourceSide = false then matchReturnRoute sessions sourceIp found rest
        else if found.isSome then .error .unknownSession
        else matchReturnRoute sessions sourceIp (some (route.sessionId, route.sourceSide)) rest

/-! ## Operations -/

def removeExpiredSession (sessionId : RelaySessionId) (now : Timestamp) : Relaying Unit := do
  let table ← get
  if (table.sessions[sessionId]?).any fun session => session.isExpired now then
    modify fun table =>
      RelayTable.rebuildWireguardReturnRoutes
        { table with sessions := table.sessions.erase sessionId }
    check (.error .sessionExpired)

/-- `authorize_http_announcement`, with the time that it reads. -/
def authorizeHttpAnnouncement (node : NodeId) (packet : List UInt8) (now : Timestamp) :
    Relaying (String × Timestamp) := do
  let frame ← check (decodeRelayDatagram packet)
  check (rejectIf (frame.endpointAnnouncement = false ∨ frame.source ≠ some node)
    .invalidSessionCredential)
  removeExpiredSession frame.sessionId now
  let session ← check (orError (← get).sessions[frame.sessionId]? .unknownSession)
  check (session.verifyToken frame.sessionToken)
  check (rejectIf (¬((frame.source = some session.left ∧ frame.destination = some session.right) ∨
    (frame.source = some session.right ∧ frame.destination = some session.left)))
    .invalidSessionCredential)
  pure (session.id.asStr, session.expiresAt)

def validateRelaySessionAdmission (admission : RelaySessionAdmission) (sessionId : RelaySessionId) :
    Except RelayError Unit := do
  validateRelayAdmissionNodeId admission.left
  validateRelayAdmissionNodeId admission.right
  rejectIf (admission.left = admission.right ∨ admission.leftAddr = admission.rightAddr)
    .admissionDenied
  rejectIf (endpointAddrIsUsable admission.leftAddr = false ∨
    endpointAddrIsUsable admission.rightAddr = false) .admissionDenied
  rejectIf ((utf8 sessionId.asStr).length > maxRelaySessionIdBytes) .admissionDenied
  rejectIf (utf8 admission.sessionToken = [] ∨
    (utf8 admission.sessionToken).length > maxRelaySessionTokenBytes) .invalidSessionCredential

def RelaySession.joins (session : RelaySession) (left right : NodeId) : Bool :=
  (session.left = left ∧ session.right = right) ∨ (session.left = right ∧ session.right = left)

def RelaySession.readmit (existing : RelaySession) (admission : RelaySessionAdmission)
    (expiresAt : Timestamp) (maxBytesPerSecond : UInt64) : RelaySession :=
  let (leftAddr, rightAddr) :=
    if existing.left = admission.left then (admission.leftAddr, admission.rightAddr)
    else (admission.rightAddr, admission.leftAddr)
  { existing with
    leftAddr := if existing.leftAddrLearned = false then leftAddr else existing.leftAddr
    rightAddr := if existing.rightAddrLearned = false then rightAddr else existing.rightAddr
    expiresAt
    maxBytesPerSecond }

def RelaySession.admitted (id : RelaySessionId) (admission : RelaySessionAdmission)
    (now expiresAt : Timestamp) (maxBytesPerSecond : UInt64) : RelaySession where
  id := id
  sessionToken := admission.sessionToken
  left := admission.left
  right := admission.right
  leftAddr := admission.leftAddr
  rightAddr := admission.rightAddr
  createdAt := now
  expiresAt := expiresAt
  bytesForwarded := 0
  leftAddrLearned := false
  rightAddrLearned := false
  leftWireguardSenderIndices := []
  rightWireguardSenderIndices := []
  windowStartedAt := now
  windowBytes := 0
  maxBytesPerSecond := maxBytesPerSecond

def admitWithOptions (parseUrl : String → Option ParsedUrl) (capability : RelayCapability)
    (admission : RelaySessionAdmission) (now : Timestamp) : Relaying RelaySessionCredentials := do
  modify fun table => (table.purgeExpired now).1
  let id := RelaySessionId.new admission.left admission.right
  check (validateRelaySessionAdmission admission id)
  let expiresAt := now + max admission.sessionTtl 1000000
  let maxBytesPerSecond := megabitsToBytesPerSecond capability.maxMbps
  let table ← get
  match table.sessions.toList.find? fun e => e.2.joins admission.left admission.right with
  | some (sessionId, existing) =>
    let existing := existing.readmit admission expiresAt maxBytesPerSecond
    modify fun table =>
      RelayTable.rebuildWireguardReturnRoutes
        { table with sessions := table.sessions.insert sessionId existing }
    pure ⟨existing.id, existing.sessionToken, expiresAt⟩
  | none =>
    check (rejectIf (canAdmit parseUrl capability = false) .admissionDenied)
    modify fun table =>
      { table with
        sessions := table.sessions.insert id
          (.admitted id admission now expiresAt maxBytesPerSecond) }
    pure ⟨id, admission.sessionToken, expiresAt⟩

def forwardTargetAtInner (frame : RelayFrame) (now : Timestamp) : Relaying SocketAddr := do
  check (validateRelayFrameSizes (utf8 frame.sessionId.asStr).length (utf8 frame.sessionToken).length
    frame.ciphertextPayload.length)
  removeExpiredSession frame.sessionId now
  onSession frame.sessionId (RelaySession.acceptTarget frame now)

def forwardWireguardReturnDatagram (sourceAddr : SocketAddr) (datagram : List UInt8)
    (now : Timestamp) : Relaying RelayDatagramForward := do
  let receiverIndex ← check (orError (wireguardReceiverIndex datagram) .malformedFrame)
  modify fun table => (table.purgeExpired now).1
  let table ← get
  let found ← check (matchReturnRoute table.sessions sourceAddr.ip none
    (routesAt table.wireguardReturnRoutes receiverIndex))
  let (sessionId, sourceSide) ← check (orError found .unknownSession)
  onSession sessionId (RelaySession.acceptReturn sourceAddr sourceSide datagram now)

/-- The part of `forward_datagram_for_addr_at_inner` that follows a datagram that was decoded. -/
def forwardFrame (sourceAddr : SocketAddr) (datagram : RelayDatagram) (now : Timestamp) :
    Relaying RelayDatagramForward := do
  removeExpiredSession datagram.sessionId now
  let (forward, routeUpdate) ←
    onSession datagram.sessionId (RelaySession.acceptFrame sourceAddr datagram now)
  match routeUpdate with
  | none => pure forward
  | some (receiverIndex, evictedIndex, route) =>
    modify (RelayTable.upsertWireguardReturnRoute receiverIndex evictedIndex route)
    pure forward

def forwardDatagramForAddrAtInner (sourceAddr : SocketAddr) (datagram : List UInt8)
    (now : Timestamp) : Relaying RelayDatagramForward :=
  match decodeRelayDatagram datagram with
  | .ok frame => forwardFrame sourceAddr frame now
  | .error error =>
    if error = .malformedFrame ∧ wireguardDatagramPayload datagram then
      forwardWireguardReturnDatagram sourceAddr datagram now
    else check (.error error)

/-- The bookkeeping around a forwarding method: `received` bytes come in, and those of a forwarded
payload are counted unless the payload stays at the relay. -/
def withMetrics {α : Type} (received : ℕ) (forwarded : α → Option ℕ) (method : Relaying α) :
    Relaying α := do
  modify fun table => { table with dataplane := table.dataplane.recordReceived received }
  let table ← get
  let (result, table) := exec method table
  set { table with
    dataplane := match result with
      | .ok a => (forwarded a).elim table.dataplane table.dataplane.recordForwarded
      | .error error => table.dataplane.recordDrop (relayErrorDropReason error) received }
  check result

def forwardTargetAt (frame : RelayFrame) (now : Timestamp) : Relaying SocketAddr :=
  withMetrics frame.ciphertextPayload.length (fun _ => some frame.ciphertextPayload.length)
    (forwardTargetAtInner frame now)

def forwardDatagramForAddrAt (sourceAddr : SocketAddr) (datagram : List UInt8) (now : Timestamp) :
    Relaying (SocketAddr × List UInt8) := do
  let forward ← withMetrics datagram.length
    (fun forward : RelayDatagramForward =>
      if forward.shouldForward then some forward.payload.length else none)
    (forwardDatagramForAddrAtInner sourceAddr datagram now)
  pure (forward.target, forward.payload)

inductive RelayOp where
  | admission (capability : RelayCapability) (admission : RelaySessionAdmission)
  | datagram (sourceAddr : SocketAddr) (datagram : List UInt8)
  | frame (frame : RelayFrame)
  | purge
  | announcement (node : NodeId) (packet : List UInt8)
deriving DecidableEq

inductive RelayAnswer where
  | credentials (credentials : RelaySessionCredentials)
  | forwarded (target : SocketAddr) (payload : List UInt8)
  | target (addr : SocketAddr)
  | removed (count : ℕ)
  | announced (sessionId : String) (expiresAt : Timestamp)
deriving DecidableEq

structure RelayCall where
  op : RelayOp
  now : Timestamp
deriving DecidableEq

def RelayCall.method (parseUrl : String → Option ParsedUrl) (call : RelayCall) :
    Relaying RelayAnswer :=
  match call.op with
  | .admission capability admission =>
    RelayAnswer.credentials <$> admitWithOptions parseUrl capability admission call.now
  | .datagram sourceAddr datagram =>
    (fun forward => RelayAnswer.forwarded forward.1 forward.2) <$>
      forwardDatagramForAddrAt sourceAddr datagram call.now
  | .frame frame => RelayAnswer.target <$> forwardTargetAt frame call.now
  | .purge => do
      let table ← get
      set (table.purgeExpired call.now).1
      pure (.removed (table.purgeExpired call.now).2)
  | .announcement node packet =>
    (fun answer => RelayAnswer.announced answer.1 answer.2) <$>
      authorizeHttpAnnouncement node packet call.now

def relay (parseUrl : String → Option ParsedUrl) (table : RelayTable) (call : RelayCall) :
    Except RelayError RelayAnswer × RelayTable :=
  exec (call.method parseUrl) table

end HeteroNetwork.Relay
