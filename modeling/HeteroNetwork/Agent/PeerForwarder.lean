import HeteroNetwork.Agent.OverlayForwarder

/-!
# One peer's datagrams over the overlay

`OverlayWireGuardPeerForwarder::serve` with `OverlayTransitClient::send_with_secondary_failover`, for one
`path_id`.  A datagram from the local WireGuard socket reserves two sequence numbers, `n` for its first attempt
and `n + 1` for the failover, and becomes a task.  A `PeerStep` is one access of a task to shared state; the
`engine` steps are calls of other peers and of the receive loop.
-/

namespace HeteroNetwork

open Checked BoundedOverlayForwarder

/-! ## Constants and outcomes -/

def maxOverlayPeerInFlightSends : ℕ := 256
def maxOverlayPrimaryInFlightPerNextHop : ℕ := 16

def overlayPrimaryFailureBackoff : ℕ := 5 * 10 ^ 9

inductive OverlayPathAttemptError where
  | send
  | acknowledgementTimeout
  | acknowledgementWaiterClosed
  | acknowledgementCapacity
  | duplicateAcknowledgement
deriving DecidableEq

structure OverlaySendOutcome where
  selection : OverlayPathSelection
  sequence : UInt64
deriving DecidableEq

inductive OverlayTransitError where
  | forwarder (error : OverlayForwarderError)
  | failoverPreparation (primary : OverlayPathAttemptError) (secondary : OverlayForwarderError)
  | bothPathsFailed (primary secondary : OverlayPathAttemptError)
  | suppressedSecondaryFailed (error : OverlayPathAttemptError)
  | sequenceOverflow (sequence : UInt64)
  | directNeighborRequiresDataplane (peer : NodeId)
  /-- The task panicked: `unreachable!` on a frame for a direct neighbour. -/
  | task
deriving DecidableEq

/-! ## Tasks -/

inductive SendPhase where
  /-- Before the first look at the suppression table. -/
  | starting
  /-- In `acquire_owned`. -/
  | waitingPermit
  /-- Permit held, before the second look at the suppression table. -/
  | permitted
  /-- Permit held, before the primary attempt enters the engine. -/
  | primaryReady
  /-- Permit held, primary frame sent. -/
  | awaitingPrimary
  /-- The primary attempt failed; the secondary has not entered the engine. -/
  | failingOver (primary : OverlayPathAttemptError)
  | awaitingSecondary (primary : OverlayPathAttemptError)
  /-- The primary route is suppressed; the secondary attempt uses the first sequence number. -/
  | suppressedReady
  | awaitingSuppressed
  | finished (outcome : Except OverlayTransitError OverlaySendOutcome)
deriving DecidableEq

structure Send where
  sequence : UInt64
  payload : List UInt8
  phase : SendPhase
deriving DecidableEq

namespace Send

def holdsPermit (send : Send) : Bool :=
  match send.phase with
  | .permitted | .primaryReady | .awaitingPrimary => true
  | _ => false

def isFinished (send : Send) : Bool :=
  match send.phase with
  | .finished _ => true
  | _ => false

end Send

/-- Calls on the shared engine by others.  Another peer has another `path_id`. -/
inductive EngineStep where
  | receive (now : Instant) (previousHop : NodeId) (datagram : List UInt8)
  | encapsulate (now : Instant) (path : OverlayPath) (selection : OverlayPathSelection)
      (pathId : PathId) (sequence : UInt64) (datagram : List UInt8)
  | updateNeighborMap (now later : Instant) (neighborMap : NeighborMap)

inductive PeerStep where
  /-- A datagram from the local WireGuard socket. -/
  | receive (payload : List UInt8)
  /-- Task `i` looks up whether its primary route is suppressed. -/
  | checkSuppressed (i : ℕ) (now : Instant)
  | acquirePermit (i : ℕ)
  /-- Task `i` makes its next attempt through the engine. -/
  | encapsulate (i : ℕ) (now : Instant)
  /-- The attempt task `i` waits for was acknowledged. -/
  | acknowledged (i : ℕ)
  /-- The attempt task `i` waits for failed. -/
  | failed (i : ℕ) (now : Instant) (error : OverlayPathAttemptError)
  /-- `join_next` returns task `i`. -/
  | join (i : ℕ)
  | engine (step : EngineStep)
  /-- Another peer's task changes the shared suppression entry of the route. -/
  | suppression (deadline : Option Instant)

structure PeerConfig where
  path : OverlayPath
  pathId : PathId

structure PeerState where
  engine : BoundedOverlayForwarder
  nextSequence : UInt64
  suppressedUntil : Option Instant
  sends : List Send

def overlayWireguardDatagram (payload : List UInt8) : Bool :=
  if payload.length < 4 ∨ (payload.drop 1).take 3 ≠ [0, 0, 0] then false
  else match payload.head? with
    | some 1 => payload.length = 148
    | some 2 => payload.length = 92
    | some 3 => payload.length = 64
    | some 4 => payload.length ≥ 32 && payload.length % 16 = 0
    | _ => false

namespace PeerState

def isSuppressed (s : PeerState) (now : Instant) : Bool :=
  s.suppressedUntil.any fun deadline => deadline > now

def setPhase (s : PeerState) (i : ℕ) (phase : SendPhase) : PeerState :=
  { s with sends := s.sends.modify i fun send => { send with phase } }

def finish (s : PeerState) (i : ℕ) (outcome : Except OverlayTransitError OverlaySendOutcome) :
    PeerState :=
  s.setPhase i (.finished outcome)

/-- The `recv_from` arm of `serve`.  A full task set, a datagram that is not WireGuard's and an
exhausted sequence space reserve nothing. -/
def receive (s : PeerState) (payload : List UInt8) : PeerState :=
  if s.sends.length < maxOverlayPeerInFlightSends ∧ payload.length ≤ maxMultihopPayloadBytes ∧
      overlayWireguardDatagram payload ∧ s.nextSequence.toNat + 1 < 2 ^ 64 then
    let reservedLimit := s.nextSequence + 1
    { s with
      sends := s.sends ++ [{ sequence := s.nextSequence, payload, phase := .starting }]
      -- `reserved_limit.checked_add(1).unwrap_or(reserved_limit)`
      nextSequence := if reservedLimit.toNat + 1 < 2 ^ 64 then reservedLimit + 1
        else reservedLimit }
  else s

/-- `path.secondary_ordered_nodes.is_some() && primary_route_is_suppressed(..)`. -/
def usesSuppressed (c : PeerConfig) (s : PeerState) (now : Instant) : Bool :=
  c.path.secondaryOrderedNodes.isSome && s.isSuppressed now

/-- The head of `send_with_secondary_failover`, and the second check under the permit. -/
def checkSuppressed (c : PeerConfig) (s : PeerState) (i : ℕ) (send : Send) (now : Instant) :
    PeerState :=
  match send.phase with
  | .starting =>
    match c.path.validate with
    | .error error => s.finish i (.error (.forwarder (.invalidOverlayPath error)))
    | .ok () =>
      if c.path.orderedNodes.length = 2 then
        s.finish i (.error (.directNeighborRequiresDataplane c.path.target.nodeId))
      else s.setPhase i (if usesSuppressed c s now then .suppressedReady else .waitingPermit)
  | .permitted => s.setPhase i (if usesSuppressed c s now then .suppressedReady else .primaryReady)
  | _ => s

/-- One attempt through the engine.  `onFrame` is the phase that waits for the frame's
acknowledgement, `onError` what an engine error makes of the task. -/
def attempt (c : PeerConfig) (s : PeerState) (i : ℕ) (send : Send) (now : Instant)
    (selection : OverlayPathSelection) (sequence : UInt64) (onFrame : SendPhase)
    (onError : OverlayForwarderError → OverlayTransitError) : PeerState :=
  match exec (encapsulateSelected now c.path selection c.pathId sequence send.payload) s.engine with
  | (.ok (.forward _ _), engine) => { s with engine }.setPhase i onFrame
  | (.ok _, engine) => { s with engine }.finish i (.error .task)
  | (.error error, engine) => { s with engine }.finish i (.error (onError error))

def encapsulate (c : PeerConfig) (s : PeerState) (i : ℕ) (send : Send) (now : Instant) :
    PeerState :=
  match send.phase with
  | .primaryReady => s.attempt c i send now .primary send.sequence .awaitingPrimary .forwarder
  | .suppressedReady =>
    s.attempt c i send now .secondary send.sequence .awaitingSuppressed .forwarder
  | .failingOver primary =>
    -- `sequence.checked_add(1)`
    if send.sequence.toNat + 1 ≥ 2 ^ 64 then
      s.finish i (.error (.sequenceOverflow send.sequence))
    else if c.path.secondaryOrderedNodes = none then
      s.finish i (.error (.failoverPreparation primary .secondaryPathUnavailable))
    else
      s.attempt c i send now .secondary (send.sequence + 1) (.awaitingSecondary primary)
        (.failoverPreparation primary)
  | _ => s

def acknowledged (s : PeerState) (i : ℕ) (send : Send) : PeerState :=
  match send.phase with
  | .awaitingPrimary => s.finish i (.ok { selection := .primary, sequence := send.sequence })
  | .awaitingSecondary _ =>
    s.finish i (.ok { selection := .secondary, sequence := send.sequence + 1 })
  | .awaitingSuppressed => s.finish i (.ok { selection := .secondary, sequence := send.sequence })
  | _ => s

def failed (s : PeerState) (i : ℕ) (send : Send) (now : Instant)
    (error : OverlayPathAttemptError) : PeerState :=
  match send.phase with
  | .awaitingPrimary =>
    let s := if error = .send ∨ error = .acknowledgementTimeout then
        { s with suppressedUntil := some (now + overlayPrimaryFailureBackoff) }
      else s
    s.setPhase i (.failingOver error)
  | .awaitingSecondary primary => s.finish i (.error (.bothPathsFailed primary error))
  | .awaitingSuppressed => s.finish i (.error (.suppressedSecondaryFailed error))
  | _ => s

def engineStep (c : PeerConfig) (s : PeerState) : EngineStep → PeerState
  | .receive now previousHop datagram =>
    { s with
      engine := (exec (BoundedOverlayForwarder.receive now previousHop datagram) s.engine).2 }
  | .encapsulate now path selection pathId sequence datagram =>
    if pathId = c.pathId then s
    else
      { s with
        engine :=
          (exec (encapsulateSelected now path selection pathId sequence datagram) s.engine).2 }
  | .updateNeighborMap now later neighborMap =>
    match s.engine.updateNeighborMap now later neighborMap with
    | .ok engine => { s with engine }
    | .error _ => s

def onSend (s : PeerState) (i : ℕ) (f : Send → PeerState) : PeerState :=
  match s.sends[i]? with
  | some send => f send
  | none => s

def apply (c : PeerConfig) (s : PeerState) : PeerStep → PeerState
  | .receive payload => s.receive payload
  | .checkSuppressed i now => s.onSend i fun send => s.checkSuppressed c i send now
  | .acquirePermit i => s.onSend i fun send =>
    if send.phase = .waitingPermit ∧
        s.sends.countP Send.holdsPermit < maxOverlayPrimaryInFlightPerNextHop then
      s.setPhase i .permitted
    else s
  | .encapsulate i now => s.onSend i fun send => s.encapsulate c i send now
  | .acknowledged i => s.onSend i fun send => s.acknowledged i send
  | .failed i now error => s.onSend i fun send => s.failed i send now error
  | .join i => s.onSend i fun send =>
    if send.isFinished then { s with sends := s.sends.eraseIdx i } else s
  | .engine step => s.engineStep c step
  | .suppression deadline => { s with suppressedUntil := deadline }

def run (c : PeerConfig) (s : PeerState) (steps : List PeerStep) : PeerState :=
  steps.foldl (apply c) s

end PeerState

end HeteroNetwork
