import HeteroNetwork.Lib.Tasks
import HeteroNetwork.ControlPlane.AdminLedger
import HeteroNetwork.ControlPlane.RequestAuth

/-!
# Opening proofs of the HTTP tunnel

A peer opens a tunnel, or asks for a relay session, with a proof over its node id, a timestamp, a nonce
and the body.  The gateway checks the proof against one reading of the clock and consumes the nonce
against another one; between the two the request may have waited for a lookup.
-/

namespace HeteroNetwork

open Checked OrderedMap ExpiringMap ControlPlane Runs List
open Std (TreeMap)

namespace Tunnel

inductive TunnelError where
  | invalidPacket
  | capacity
  | unauthorized
deriving DecidableEq

inductive StatusCode where
  | badRequest
  | unauthorized
  | forbidden
  | tooManyRequests
  | badGateway
  | serviceUnavailable
deriving DecidableEq

def failure : TunnelError → StatusCode
  | .unauthorized => .unauthorized
  | .capacity => .tooManyRequests
  | .invalidPacket => .badRequest

structure TunnelProof where
  node : NodeId
  timestamp : ℤ
  nonce : String
  body : List UInt8
  proof : String
deriving DecidableEq

/-- What the gateway takes from other crates: hexadecimal, SHA-256, the key that it shares with a peer,
HMAC, and JSON. -/
structure TunnelPrimitives where
  gateway : NodeId
  hexDecode : String → Option (List UInt8)
  sha256Hex : List UInt8 → String
  /-- `TunnelAuth::new` over the decoded keys. -/
  sharedKey : String → Option (List UInt8)
  verifyMac : List UInt8 → List UInt8 → List UInt8 → Bool
  /-- The failure counters of an opening body. -/
  jsonFailures : List UInt8 → Option (List (String × ℕ))
  /-- Whether the body is a `RelayAdmissionRequest`. -/
  jsonAdmission : List UInt8 → Bool

section Checks

variable (env : TunnelPrimitives)

def macMessage (p : TunnelProof) (node : NodeId) : List UInt8 :=
  utf8 ("heteronetwork-http-tunnel-v1\n" ++ node.asStr ++ "\n" ++ env.gateway.asStr ++ "\n" ++
    toString p.timestamp ++ "\n" ++ p.nonce ++ "\n" ++ env.sha256Hex p.body ++ "\n")

def withinMinute (now : Timestamp) (timestamp : ℤ) : Bool :=
  (unixTimestamp now - timestamp).natAbs ≤ 60

def verify (key : List UInt8) (node : NodeId) (p : TunnelProof) (now : Timestamp) :
    Except TunnelError Unit := do
  rejectIf (¬withinMinute now p.timestamp ∨ (utf8 p.nonce).length ≠ 32 ∨
    ¬(utf8 p.nonce).all isAsciiHexdigit ∨ (utf8 p.proof).length ≠ 64) .unauthorized
  let decoded ← orError (env.hexDecode p.proof) .unauthorized
  rejectIf (¬env.verifyMac key (macMessage env p node) decoded) .unauthorized

def validateProofHeaders (p : TunnelProof) (now : Timestamp) : Except StatusCode Unit :=
  rejectIf (¬withinMinute now p.timestamp ∨ (utf8 p.nonce).length ≠ 32 ∨
    (utf8 p.proof).length ≠ 64 ∨ ¬(utf8 p.nonce ++ utf8 p.proof).all isAsciiHexdigit) .unauthorized

def wireguardPacket (packet : List UInt8) : Bool :=
  match packet with
  | kind :: 0 :: 0 :: 0 :: _ =>
    if kind = 1 then packet.length = 148
    else if kind = 2 then packet.length = 92
    else if kind = 3 then packet.length = 64
    else if kind = 4 then 32 ≤ packet.length ∧ packet.length ≤ 65507
    else false
  | _ => false

def decodeOpen (body : List UInt8) : Except TunnelError (List UInt8) := do
  rejectIf (body.length < 6 ∨ body.take 4 ≠ utf8 "HNT1") .invalidPacket
  let size := (body.getD 4 0).toNat * 256 + (body.getD 5 0).toNat
  rejectIf (2048 < size ∨ body.length < 6 + size) .invalidPacket
  let failures ← orError (env.jsonFailures ((body.drop 6).take size)) .invalidPacket
  rejectIf (16 < failures.length ∨ failures.any fun (key, _) =>
    64 < (utf8 key).length || !(utf8 key).all fun b =>
      (97 ≤ b && b ≤ 122) || (48 ≤ b && b ≤ 57) || b = 95) .invalidPacket
  pure (body.drop (6 + size))

end Checks

/-! ## The nonces of the hub -/

abbrev NonceLedger := TreeMap (NodeId × String) ℤ

/-- A call of `consume_nonce`, with the reading of the clock that it takes. -/
structure ConsumeCall where
  proof : TunnelProof
  now : Timestamp
deriving DecidableEq

def ConsumeCall.key (call : ConsumeCall) : NodeId × String := (call.proof.node, call.proof.nonce)

def ConsumeCall.timestamp (call : ConsumeCall) : ℤ := call.proof.timestamp

def remembered (ledger : NonceLedger) (node : NodeId) : List (NodeId × String) :=
  ledger.keys.filter fun key => key.1 = node

def ledgerFull (maximum : ℕ) (peer : NodeId) (ledger : NonceLedger) : Bool :=
  min (maximum * 8) (2 ^ 64 - 1) ≤ ledger.size || 8 ≤ (remembered ledger peer).length

def consumeNonce (maximum : ℕ) (ledger : NonceLedger) (call : ConsumeCall) :
    Except TunnelError Unit × NonceLedger :=
  let outcome := rememberUnless (ledgerFull maximum call.proof.node) (withinMinute call.now)
    call.key call.timestamp ledger
  match outcome.1 with
  | .present => (.error .unauthorized, outcome.2)
  | .full => (.error .capacity, outcome.2)
  | .fresh => (.ok (), outcome.2)

/-! ## The requests, section by section -/

inductive RequestKind where
  | openSession
  | admission
deriving DecidableEq

inductive Phase where
  | arriving
  | asking
  | keying
  | querying
  | verifying (publicKey : String) (node : NodeId)
  | consuming
  | serving
  | finished (result : Except StatusCode Unit)
deriving DecidableEq

structure TunnelTask where
  kind : RequestKind
  proof : TunnelProof
  phase : Phase
deriving DecidableEq

structure HttpPeer where
  nodeId : NodeId
  isClient : Bool
  wireguardPublicKey : String

inductive Answer where
  | ready
  | known (isKnown : Bool)
  | key (publicKey : Option String)
  | peer (found : Option HttpPeer)
  | served (result : Except StatusCode Unit)

structure GatewayState where
  nonces : NonceLedger
  relay : Bool
  /-- Permits left of the semaphore `authorizing`. -/
  permits : ℕ
  lookupBudget : ℤ × ℕ

/-- The two clocks at a section: the date, and the monotonic clock. -/
structure Clock where
  now : Timestamp
  instant : ℤ

section Handlers

-- `maximum` is the number of sessions of the hub
variable (env : TunnelPrimitives) (maximum : ℕ)

def allowLookup (state : GatewayState) (clock : Clock) : Except StatusCode Unit × GatewayState :=
  let budget := if clock.instant - state.lookupBudget.1 ≥ 1000000000 then (clock.instant, 0)
    else state.lookupBudget
  if budget.2 ≥ 64 then (.error .tooManyRequests, { state with lookupBudget := budget })
  else (.ok (), { state with lookupBudget := (budget.1, budget.2 + 1) })

/-- The permit is given back with the answer. -/
def finish (state : GatewayState) (task : TunnelTask) (result : Except StatusCode Unit) :
    GatewayState × TunnelTask :=
  ({ state with permits := state.permits + 1 }, { task with phase := .finished result })

/-- On to the next phase, or the end of the request. -/
def proceed (state : GatewayState) (task : TunnelTask) (next : Except StatusCode Phase) :
    GatewayState × TunnelTask :=
  match next with
  | .error status => finish state task (.error status)
  | .ok phase => (state, { task with phase })

def checkOpen (p : TunnelProof) (now : Timestamp) : Except StatusCode Phase := do
  let packet ← (decodeOpen env p.body).mapError failure
  rejectIf (¬wireguardPacket packet) .badRequest
  rejectIf (p.node.asStr = "" ∨ 128 < p.node.asBytes.length) .badRequest
  validateProofHeaders p now
  pure .asking

/-- The lookup at the control plane, within the budget. -/
def startLookup (state : GatewayState) (task : TunnelTask) (clock : Clock) (accepted : Bool) :
    GatewayState × TunnelTask :=
  let allowed := allowLookup state clock
  proceed allowed.2 task (do
    allowed.1
    rejectIf (¬accepted) .badRequest
    pure .querying)

def arrive (state : GatewayState) (task : TunnelTask) (clock : Clock) : GatewayState × TunnelTask :=
  if state.permits = 0 then (state, { task with phase := .finished (.error .tooManyRequests) })
  else
    let state := { state with permits := state.permits - 1 }
    match task.kind with
    | .openSession => proceed state task (checkOpen env task.proof clock.now)
    | .admission =>
      if ¬state.relay then finish state task (.error .serviceUnavailable)
      else match validateProofHeaders task.proof clock.now with
        | .error status => finish state task (.error status)
        | .ok _ => startLookup state task clock (env.jsonAdmission task.proof.body)

/-- What the control plane answered. -/
def afterQuery (kind : RequestKind) : Option HttpPeer → Except StatusCode Phase
  | none => .error (match kind with
      | .openSession => .unauthorized
      | .admission => .forbidden)
  | some peer =>
    if kind = .openSession ∧ ¬peer.isClient then .error .unauthorized
    else .ok (.verifying peer.wireguardPublicKey peer.nodeId)

def checkProof (p : TunnelProof) (publicKey : String) (node : NodeId) (now : Timestamp) :
    Except StatusCode Phase := do
  let key ← orError (env.sharedKey publicKey) .unauthorized
  (verify env key node p now).mapError fun _ => .unauthorized
  pure .consuming

/-- One section of a request, with the call of `consume_nonce` that it made. -/
def advance (state : GatewayState) (task : TunnelTask) (input : Clock × Answer) :
    Option (ConsumeCall × Except TunnelError Unit) × GatewayState × TunnelTask :=
  match task.phase, input.2 with
  | .arriving, .ready => (none, arrive env state task input.1)
  | .asking, .known true => (none, state, { task with phase := .keying })
  | .asking, .known false => (none, startLookup state task input.1 true)
  | .keying, .key none => (none, finish state task (.error .unauthorized))
  | .keying, .key (some publicKey) =>
    (none, state, { task with phase := .verifying publicKey task.proof.node })
  | .querying, .peer found => (none, proceed state task (afterQuery task.kind found))
  | .verifying publicKey node, .ready =>
    (none, proceed state task (checkProof env task.proof publicKey node input.1.now))
  | .consuming, .ready =>
    let call : ConsumeCall := ⟨task.proof, input.1.now⟩
    let outcome := consumeNonce maximum state.nonces call
    (some (call, outcome.1), proceed { state with nonces := outcome.2 } task
      ((outcome.1.mapError failure).map fun _ => .serving))
  | .serving, .served result => (none, finish state task result)
  | _, _ => (none, state, task)

end Handlers

/-! ## Runs -/

inductive EventKind where
  | arrives (kind : RequestKind) (proof : TunnelProof)
  | resumes (turn : ℕ) (answer : Answer)

structure TunnelEvent where
  clock : Clock
  kind : EventKind

def TunnelEvent.now (event : TunnelEvent) : Timestamp := event.clock.now

def TunnelEvent.toTask (event : TunnelEvent) : Tasks.Event TunnelTask (Clock × Answer) :=
  match event.kind with
  | .arrives kind proof => .start ⟨kind, proof, .arriving⟩
  | .resumes turn answer => .resume turn (event.clock, answer)

abbrev Gateway := Tasks.System GatewayState TunnelTask

def Gateway.new (relay : Bool) (instant : ℤ) : Gateway := ⟨⟨∅, relay, 32, (instant, 0)⟩, []⟩

section System

variable (env : TunnelPrimitives) (maximum : ℕ)

def Gateway.step (s : Gateway) (event : TunnelEvent) :
    Option (ConsumeCall × Except TunnelError Unit) × Gateway :=
  Tasks.step (advance env maximum) none s event.toTask

def consumeCalls (s : Gateway) (events : List TunnelEvent) :
    List (ConsumeCall × Except TunnelError Unit) :=
  Runs.calls (Gateway.step env maximum) id s events

end System

section Ledger

variable {maximum : ℕ} {ledger : NonceLedger} {call : ConsumeCall} {k : NodeId × String} {v : ℤ}

lemma consumeNonce_eq (maximum : ℕ) (ledger : NonceLedger) (call : ConsumeCall) :
    ∃ outcome, rememberUnless (ledgerFull maximum call.proof.node) (withinMinute call.now) call.key
        call.timestamp ledger = outcome ∧
      ((consumeNonce maximum ledger call).1 = .ok () ↔ outcome.1 = .fresh) ∧
      (consumeNonce maximum ledger call).2 = outcome.2 := by
  refine ⟨_, rfl, ?_⟩
  rw [consumeNonce]
  generalize rememberUnless _ _ _ _ ledger = outcome
  obtain ⟨answer, kept⟩ := outcome
  cases answer <;> simp

lemma ledger_oneTime (maximum : ℕ) : OneTime (consumeNonce maximum) (· = .ok ())
    (fun (ledger : NonceLedger) k => ledger[k]?) ConsumeCall.key ConsumeCall.timestamp
    (fun call v => withinMinute call.now v = true) where
  kept ledger call k v h hlive := by
    obtain ⟨outcome, rfl, -, heq⟩ := consumeNonce_eq maximum ledger call
    rw [heq]
    exact rememberUnless_kept h hlive
  remembers ledger call h := by
    obtain ⟨outcome, rfl, hok, heq⟩ := consumeNonce_eq maximum ledger call
    rw [heq]
    exact rememberUnless_fresh (hok.mp h)
  refuses ledger call v h hlive := by
    obtain ⟨outcome, rfl, hok, -⟩ := consumeNonce_eq maximum ledger call
    rw [hok, rememberUnless_present h hlive]
    decide

lemma length_remembered_le {ledger' : NonceLedger} {node : NodeId} (h : ∀ key ∈ ledger, key ∈ ledger') :
    (remembered ledger node).length ≤ (remembered ledger' node).length := by
  refine (subperm_of_subset ((nodup_keys ledger).filter _) fun key hkey => ?_).length_le
  rw [mem_filter, TreeMap.mem_keys] at hkey
  exact mem_filter.mpr ⟨TreeMap.mem_keys.mpr (h key hkey.1), hkey.2⟩

lemma remembered_consumeNonce (h : ∀ node, (remembered ledger node).length ≤ 8) (node : NodeId) :
    (remembered (consumeNonce maximum ledger call).2 node).length ≤ 8 := by
  obtain ⟨outcome, rfl, -, heq⟩ := consumeNonce_eq maximum ledger call
  rw [heq, rememberUnless]
  generalize hkept : ledger.filter (fun _ v => withinMinute call.now v) = kept
  have hfewer : ∀ node, (remembered kept node).length ≤ 8 := by
    intro node
    refine (length_remembered_le fun key hkey => ?_).trans (h node)
    rw [← hkept] at hkey
    exact TreeMap.mem_of_mem_filter hkey
  split_ifs with hmem hfull
  · exact hfewer node
  · exact hfewer node
  · simp only [ledgerFull, Bool.or_eq_true, decide_eq_true_eq, not_or, not_le] at hfull
    by_cases hnode : call.key.1 = node
    · have hnew : (remembered (kept.insert call.key call.timestamp) node).length ≤
          (call.key :: remembered kept node).length := by
        refine (subperm_of_subset ((nodup_keys _).filter _) fun key hkey => ?_).length_le
        rw [mem_filter, TreeMap.mem_keys, TreeMap.mem_insert] at hkey
        rcases hkey.1 with heq | hold
        · exact mem_cons.mpr (Or.inl (Std.LawfulEqOrd.eq_of_compare heq).symm)
        · exact mem_cons_of_mem _ (mem_filter.mpr ⟨TreeMap.mem_keys.mpr hold, hkey.2⟩)
      have hroom := hfull.2
      rw [show call.proof.node = node from hnode] at hroom
      rw [length_cons] at hnew
      exact hnew.trans hroom
    · refine le_trans ?_ (hfewer node)
      refine (subperm_of_subset ((nodup_keys _).filter _) fun key hkey => ?_).length_le
      rw [mem_filter, TreeMap.mem_keys, TreeMap.mem_insert] at hkey
      rcases hkey.1 with heq | hold
      · rw [← Std.LawfulEqOrd.eq_of_compare heq] at hkey
        exact absurd (by simpa using hkey.2) hnode
      · exact mem_filter.mpr ⟨TreeMap.mem_keys.mpr hold, hkey.2⟩

end Ledger

/-! ## One section -/

section Sections

variable {env : TunnelPrimitives} {maximum : ℕ} {state : GatewayState} {task : TunnelTask}

/-- A section that leaves the ledger and the proof alone, and lets the request on to `consume_nonce` only
if `ready`. -/
structure Quiet (state : GatewayState) (task : TunnelTask) (ready : Prop)
    (next : GatewayState × TunnelTask) : Prop where
  nonces : next.1.nonces = state.nonces
  proof : next.2.proof = task.proof
  consuming : next.2.phase = .consuming → ready

lemma quiet_finish (state : GatewayState) (task : TunnelTask) (ready : Prop)
    (result : Except StatusCode Unit) : Quiet state task ready (finish state task result) :=
  ⟨rfl, rfl, by simp [finish]⟩

lemma quiet_proceed {ready : Prop} {next : Except StatusCode Phase}
    (h : next = .ok .consuming → ready) : Quiet state task ready (proceed state task next) := by
  cases next with
  | error status => exact quiet_finish state task ready _
  | ok phase => exact ⟨rfl, rfl, fun hphase => h (by rw [show phase = .consuming from hphase])⟩

lemma quiet_startLookup (clock : Clock) (accepted ready) :
    Quiet state task ready (startLookup state task clock accepted) := by
  have hnonces : (allowLookup state clock).2.nonces = state.nonces := by
    unfold allowLookup
    dsimp only
    split_ifs <;> rfl
  have hquiet : Quiet (allowLookup state clock).2 task ready (startLookup state task clock accepted) := by
    refine quiet_proceed fun h => ?_
    obtain ⟨_, -, h⟩ := bind_eq_ok.mp h
    obtain ⟨_, -, h⟩ := bind_eq_ok.mp h
    cases h
  exact ⟨hquiet.nonces.trans hnonces, hquiet.proof, hquiet.consuming⟩

lemma quiet_arrive (clock : Clock) (ready) : Quiet state task ready (arrive env state task clock) := by
  unfold arrive
  split_ifs with hpermits
  · exact ⟨rfl, rfl, by simp⟩
  · have hpermit : ∀ next, Quiet { state with permits := state.permits - 1 } task ready next →
        Quiet state task ready next := fun next h => ⟨h.nonces, h.proof, h.consuming⟩
    refine hpermit _ ?_
    dsimp only
    split
    · refine quiet_proceed fun h => ?_
      simp only [checkOpen, bind_eq_ok] at h
      obtain ⟨_, -, _, -, _, -, _, -, h⟩ := h
      cases h
    · split_ifs
      · split
        · exact quiet_finish _ _ _ _
        · exact quiet_startLookup _ _ _
      · exact quiet_finish _ _ _ _

lemma withinMinute_of_checkProof {p : TunnelProof} {publicKey : String} {node : NodeId}
    {now : Timestamp} {phase : Phase} (h : checkProof env p publicKey node now = .ok phase) :
    withinMinute now p.timestamp = true := by
  obtain ⟨key, -, h⟩ := bind_eq_ok.mp h
  obtain ⟨_, hverify, -⟩ := bind_eq_ok.mp h
  rw [mapError_eq_ok] at hverify
  obtain ⟨_, hwindow, -⟩ := bind_eq_ok.mp hverify
  rw [rejectIf_eq_ok, not_or] at hwindow
  exact not_not.mp hwindow.1

lemma advance_cases (state : GatewayState) (task : TunnelTask) (input : Clock × Answer) :
    ((advance env maximum state task input).1 = none ∧
      Quiet state task (task.phase = .consuming ∨ withinMinute input.1.now task.proof.timestamp = true)
        (advance env maximum state task input).2) ∨
    (task.phase = .consuming ∧
      (advance env maximum state task input).1 = some (⟨task.proof, input.1.now⟩,
        (consumeNonce maximum state.nonces ⟨task.proof, input.1.now⟩).1) ∧
      (advance env maximum state task input).2.1.nonces =
        (consumeNonce maximum state.nonces ⟨task.proof, input.1.now⟩).2 ∧
      (advance env maximum state task input).2.2.proof = task.proof) := by
  unfold advance
  split
  case h_1 => exact Or.inl ⟨rfl, quiet_arrive _ _⟩
  case h_2 => exact Or.inl ⟨rfl, rfl, rfl, by simp⟩
  case h_3 => exact Or.inl ⟨rfl, quiet_startLookup _ _ _⟩
  case h_4 => exact Or.inl ⟨rfl, quiet_finish _ _ _ _⟩
  case h_5 => exact Or.inl ⟨rfl, rfl, rfl, by simp⟩
  case h_6 found _ _ =>
      refine Or.inl ⟨rfl, quiet_proceed fun h => ?_⟩
      rcases found with _ | peer
      · cases h
      · rw [afterQuery] at h
        split_ifs at h
        cases h
  case h_7 => exact Or.inl ⟨rfl, quiet_proceed fun h => Or.inr (withinMinute_of_checkProof h)⟩
  case h_8 hphase _ =>
      refine Or.inr ⟨hphase, rfl, ?_, ?_⟩
      · exact (quiet_proceed fun _ => trivial).nonces
      · exact (quiet_proceed fun _ => trivial).proof
  case h_9 => exact Or.inl ⟨rfl, quiet_finish _ _ _ _⟩
  case h_10 => exact Or.inl ⟨rfl, rfl, rfl, Or.inl⟩

end Sections

/-! ## Runs -/

section Run

variable {env : TunnelPrimitives} {maximum : ℕ} {s : Gateway} {event : TunnelEvent}
  {events : List TunnelEvent}

variable (env maximum) in
lemma drives : Drives (Gateway.step env maximum) (consumeNonce maximum)
    (fun s => s.shared.nonces) id := by
  have hdrives : Drives (Tasks.step (advance env maximum) none) (consumeNonce maximum)
      (fun s => s.shared.nonces) id := by
    refine Tasks.drives_step rfl (fun state task input h => ?_) fun state task input c r h => ?_
    · rcases advance_cases state task input with ⟨-, hquiet⟩ | ⟨-, hcall, -⟩
      · exact hquiet.nonces
      · rw [hcall] at h
        cases h
    · rcases advance_cases state task input with ⟨hnone, -⟩ | ⟨-, hcall, heq, -⟩
      · rw [hnone] at h
        cases h
      · rw [hcall] at h
        obtain ⟨rfl, rfl⟩ := Prod.mk.inj (Option.some.inj h)
        rw [heq]
  exact ⟨fun s event => hdrives.quiet s event.toTask, fun s event => hdrives.answered s event.toTask⟩

lemma remembered_le (relay : Bool) (instant : ℤ) (events : List TunnelEvent) (node : NodeId) :
    (remembered (exec (Gateway.step env maximum) (.new relay instant) events).shared.nonces
      node).length ≤ 8 := by
  rw [(drives env maximum).view_exec]
  refine exec_invariant (fun ledger => ∀ node, (remembered ledger node).length ≤ 8)
    (fun call _ ledger h => remembered_consumeNonce h) ?_ node
  intro node
  refine (length_filter_le _ _).trans ?_
  rw [TreeMap.length_keys]
  exact Nat.zero_le _

/-- A request that is about to consume its nonce was verified within its minute, at `t` or before. -/
def Verified (t : Timestamp) (task : TunnelTask) : Prop :=
  task.phase = .consuming → task.proof.timestamp - 60 ≤ unixTimestamp t

lemma unixTimestamp_mono {t t' : Timestamp} (h : t ≤ t') : unixTimestamp t ≤ unixTimestamp t' :=
  Int.ediv_le_ediv (by decide) h

lemma verified_step {t : Timestamp} (ht : event.now ≤ t) (h : ∀ task ∈ s.tasks, Verified t task) :
    ∀ task ∈ (Gateway.step env maximum s event).2.tasks, Verified t task := by
  refine Tasks.step_tasks (fun task hstart hphase => ?_) (fun turn input shared task hresume hold => ?_) h
  · rw [TunnelEvent.toTask] at hstart
    split at hstart
    · obtain rfl := Tasks.Event.start.inj hstart
      cases hphase
    · cases hstart
  · have hclock : input.1 = event.clock := by
      rw [TunnelEvent.toTask] at hresume
      split at hresume
      · cases hresume
      · rw [← (Tasks.Event.resume.inj hresume).2]
    intro hphase
    rcases advance_cases shared task input with
      ⟨-, hquiet⟩ | ⟨hconsuming, -, -, hproof⟩
    · rw [hquiet.proof]
      rcases hquiet.consuming hphase with hconsuming | hwindow
      · exact hold hconsuming
      · rw [withinMinute, decide_eq_true_eq, hclock] at hwindow
        have hmono := unixTimestamp_mono ht
        rw [TunnelEvent.now] at hmono
        omega
    · rw [hproof]
      exact hold hconsuming

lemma call_of_step {c : ConsumeCall} {r : Except TunnelError Unit}
    (h : (Gateway.step env maximum s event).1 = some (c, r)) :
    c.now = event.now ∧ ∃ task ∈ s.tasks, task.phase = .consuming ∧ c.proof = task.proof := by
  rw [Gateway.step] at h
  rcases Tasks.step_cases (advance env maximum) none s event.toTask with
    ⟨turn, input, task, hevent, htask, heq⟩ | ⟨hnone, -, -⟩
  · rw [heq] at h
    rcases advance_cases s.shared task input with ⟨hquiet, -⟩ | ⟨hconsuming, hcall, -, -⟩
    · rw [hquiet] at h
      cases h
    · rw [hcall] at h
      obtain ⟨rfl, -⟩ := Prod.mk.inj (Option.some.inj h)
      refine ⟨?_, task, mem_of_getElem? htask, hconsuming, rfl⟩
      rw [TunnelEvent.toTask] at hevent
      split at hevent
      · cases hevent
      · rw [← (Tasks.Event.resume.inj hevent).2]
        rfl
  · rw [hnone] at h
    cases h

/-- The nonce is consumed while the timestamp is still within its minute. -/
def ConsumeCall.InTime (call : ConsumeCall) : Prop :=
  unixTimestamp call.now ≤ call.timestamp + 60

instance : DecidablePred ConsumeCall.InTime := fun call => by
  unfold ConsumeCall.InTime
  infer_instance

/-- Two proofs with which something was opened are not for the same node, nonce and timestamp. -/
abbrev ProofsDiffer : ConsumeCall × Except TunnelError Unit → ConsumeCall × Except TunnelError Unit → Prop :=
  UsedOnce (· = .ok ()) ConsumeCall.key ConsumeCall.timestamp

lemma clock_of_calls (env : TunnelPrimitives) (maximum : ℕ) (relay : Bool) (instant : ℤ)
    (hclock : (events.map TunnelEvent.now).Pairwise (· ≤ ·)) :
    (∀ e ∈ consumeCalls env maximum (.new relay instant) events,
      e.1.timestamp - 60 ≤ unixTimestamp e.1.now) ∧
    (consumeCalls env maximum (.new relay instant) events).Pairwise fun e e' => e.1.now ≤ e'.1.now := by
  constructor
  · intro e he
    obtain ⟨⟨event, answer⟩, hmem, hcall⟩ := mem_filterMap.mp he
    obtain ⟨before, event, after, rfl, heq⟩ := mem_trace.mp hmem
    obtain ⟨rfl, rfl⟩ := Prod.mk.inj heq
    obtain ⟨hnow, task, htask, hphase, hproof⟩ := call_of_step hcall
    -- the request was verified before the call
    have hverified : ∀ task ∈ (exec (Gateway.step env maximum) (.new relay instant) before).tasks,
        Verified event.now task := by
      rw [map_append, map_cons, pairwise_append] at hclock
      exact exec_invariant (fun s : Gateway => ∀ task ∈ s.tasks, Verified event.now task)
        (fun e he _ => verified_step (hclock.2.2 _ (mem_map_of_mem he) _ mem_cons_self))
        fun task htask => absurd htask not_mem_nil
    rw [ConsumeCall.timestamp, hproof, hnow]
    exact hverified task htask hphase
  · have htrace : (trace (Gateway.step env maximum) (.new relay instant) events).Pairwise
        fun e e' => e.1.now ≤ e'.1.now := by
      have hevents : (trace (Gateway.step env maximum) (.new relay instant) events).map Prod.fst =
          events := map_fst_trace
      rw [← hevents, map_map, pairwise_map] at hclock
      exact hclock
    refine pairwise_filterMap.mpr (htrace.imp_of_mem fun {a b} ha hb hle c hc c' hc' => ?_)
    have hnow : ∀ e ∈ trace (Gateway.step env maximum) (.new relay instant) events,
        ∀ c : ConsumeCall × Except TunnelError Unit, id e.2 = some c → c.1.now = e.1.now := by
      intro e he c hc
      obtain ⟨before, event, after, -, rfl⟩ := mem_trace.mp he
      exact (call_of_step hc).1
    rw [hnow a ha c hc, hnow b hb c' hc']
    exact hle

/-- No proof opens two things as long as every nonce is consumed in time, and at most eight nonces of a node
are remembered. -/
theorem tunnel_proofs_used_once (env : TunnelPrimitives) (maximum : ℕ) (relay : Bool) (instant : ℤ)
    (events : List TunnelEvent) (hclock : (events.map TunnelEvent.now).Pairwise (· ≤ ·)) :
    ((∀ e ∈ consumeCalls env maximum (.new relay instant) events, e.1.InTime) →
      (consumeCalls env maximum (.new relay instant) events).Pairwise ProofsDiffer) ∧
    ∀ before after, events = before ++ after → ∀ node,
      (remembered (Runs.exec (Gateway.step env maximum) (.new relay instant) before).shared.nonces
        node).length ≤ 8 := by
  refine ⟨fun hintime => ?_, fun before after _ node => remembered_le relay instant before node⟩
  obtain ⟨hverified, hordered⟩ := clock_of_calls env maximum relay instant hclock
  have hrun : consumeCalls env maximum (.new relay instant) events = _ := (drives env maximum).calls_eq
  rw [hrun]
  refine (ledger_oneTime maximum).used_once ?_
  intro before call middle call' after hcalls hkey htimestamp c hc
  have hmem : ∀ c ∈ before ++ call :: (middle ++ call' :: after),
      ∃ e ∈ consumeCalls env maximum (.new relay instant) events, e.1 = c := by
    intro c hc
    rw [← hcalls] at hc
    exact List.mem_map.mp hc
  -- the readings from the first use of the timestamp to the second
  have hreadings : ((before ++ call :: (middle ++ call' :: after)).map ConsumeCall.now).Pairwise
      (· ≤ ·) := by
    rw [← hcalls, List.map_map, List.pairwise_map]
    exact hordered
  have hfirst := ordered_between hreadings c hc
  obtain ⟨e, he, rfl⟩ := hmem call (by simp)
  obtain ⟨e', he', rfl⟩ := hmem call' (by simp)
  have hlow := (hverified e he).trans (unixTimestamp_mono hfirst.1)
  have hhigh := (unixTimestamp_mono hfirst.2).trans (hintime e' he')
  rw [← htimestamp] at hhigh
  rw [withinMinute, decide_eq_true_eq]
  omega

end Run

namespace SampleGateway

def nonce : String := String.ofList (List.replicate 32 'a')

def env : TunnelPrimitives where
  gateway := ⟨"g"⟩
  hexDecode _ := some []
  sha256Hex _ := ""
  sharedKey _ := some []
  verifyMac _ message _ :=
    message = utf8 ("heteronetwork-http-tunnel-v1\nn\ng\n0\n" ++ nonce ++ "\n\n")
  jsonFailures _ := some []
  jsonAdmission _ := true

def body : List UInt8 := utf8 "HNT1" ++ [0, 0] ++ 1 :: List.replicate 147 0

def proof : TunnelProof := ⟨⟨"n"⟩, 0, nonce, body, String.ofList (List.replicate 64 'b')⟩

def atSecond (second : ℤ) (kind : EventKind) : TunnelEvent := ⟨⟨seconds second, 0⟩, kind⟩

def verifyAt (second : ℤ) (turn : ℕ) : List TunnelEvent :=
  [.resumes turn .ready, .resumes turn (.known true), .resumes turn (.key (some "key")),
    .resumes turn .ready].map (atSecond second)

def arrivals : List TunnelEvent :=
  [atSecond 60 (.arrives .openSession proof), atSecond 60 (.arrives .openSession proof)] ++
    verifyAt 60 0 ++ verifyAt 60 1

/-- Both copies are verified in the last second of the minute; one consumes the nonce at once, the other
in the next second. -/
def late : List TunnelEvent :=
  arrivals ++ [atSecond 60 (.resumes 0 .ready), atSecond 61 (.resumes 1 .ready)]

theorem proof_used_twice :
    (late.map TunnelEvent.now).Pairwise (· ≤ ·) ∧
    consumeCalls env 2048 (.new true 0) late =
      [(⟨proof, seconds 60⟩, .ok ()), (⟨proof, seconds 61⟩, .ok ())] ∧
    ¬(consumeCalls env 2048 (.new true 0) late).Pairwise ProofsDiffer := by
  refine ⟨by decide +kernel, (and_iff_left_of_imp fun hcalls honce => ?_).mpr (by decide +kernel)⟩
  rw [hcalls] at honce
  exact (List.pairwise_cons.mp honce).1 _ (List.mem_singleton_self _) rfl rfl ⟨rfl, rfl⟩

def inTime : List TunnelEvent :=
  arrivals ++ [atSecond 60 (.resumes 0 .ready), atSecond 60 (.resumes 1 .ready)]

theorem tunnel_proofs_used_once_in_time :
    consumeCalls env 2048 (.new true 0) inTime =
      [(⟨proof, seconds 60⟩, .ok ()), (⟨proof, seconds 60⟩, .error .unauthorized)] ∧
    (consumeCalls env 2048 (.new true 0) inTime).Pairwise ProofsDiffer := by
  refine (and_iff_left_of_imp fun hcalls => ?_).mpr (by decide +kernel)
  refine (tunnel_proofs_used_once env 2048 true 0 inTime (by decide +kernel)).1 ?_
  rw [hcalls]
  decide

end SampleGateway

end Tunnel

end HeteroNetwork
