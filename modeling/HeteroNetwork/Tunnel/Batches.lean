import HeteroNetwork.Lib.Traces
import HeteroNetwork.Tunnel.Gateway

/-!
# Batches of the datagram proxy

The sender task of the proxy takes packets from a bounded queue, writes them into a body and hands it to the
tunnel, which decodes a body before it sends it.  The task goes on as long as another packet is sure to fit,
and the producer refills the queue meanwhile.
-/

namespace HeteroNetwork

open BigEndian Checked Runs List

namespace Tunnel

def maxPacketBytes : ℕ := 65507

def maxBatchBytes : ℕ := 256 * 1024

def maxBatchPackets : ℕ := 64

def validatePacket (packet : List UInt8) : Except TunnelError Unit :=
  rejectIf (packet = [] ∨ maxPacketBytes < packet.length) .invalidPacket

def appendPacket (body packet : List UInt8) : Except TunnelError (List UInt8) := do
  validatePacket packet
  rejectIf (maxBatchBytes < body.length + packet.length + 2) .invalidPacket
  pure (body ++ (toBytes 2 packet.length ++ packet))

/-- The loop of `decode_batch`. -/
def decodePackets (packets : List (List UInt8)) (body : List UInt8) :
    Except TunnelError (List (List UInt8)) :=
  match body with
  | [] => .ok packets
  | [_] => .error .invalidPacket
  | high :: low :: body =>
    if maxBatchPackets ≤ packets.length then .error .invalidPacket
    else
      let len := ofBytes [high, low]
      if len = 0 ∨ maxPacketBytes < len ∨ body.length < len then .error .invalidPacket
      else decodePackets (packets ++ [body.take len]) (body.drop len)
termination_by body.length
decreasing_by
  simp only [List.length_drop, List.length_cons]
  omega

def decodeBatch (body : List UInt8) : Except TunnelError (List (List UInt8)) :=
  if maxBatchBytes < body.length then .error .invalidPacket else decodePackets [] body

/-! ## The sender task -/

inductive Sender where
  | receiving
  | filling (body : List UInt8)
  | stopped

/-- `taken` are the packets that have left the queue since the last send. -/
structure Proxy where
  queue : List (List UInt8)
  sender : Sender
  taken : List (List UInt8)

/-- A body that is handed to `tunnel.send`, and the packets that have been taken for it. -/
abbrev Batch := List UInt8 × List (List UInt8)

/-- The producer pushes a packet, the sender task goes on, or the task that receives has ended. -/
inductive ProxyEvent where
  | push (packet : List UInt8)
  | turn (delivered : Bool)
  | receiverEnded
deriving DecidableEq

namespace Proxy

def new : Proxy := ⟨[], .receiving, []⟩

/-- `tunnel.send(body)`; `delivered` is what becomes of a body that passes `decode_batch`. -/
def send (s : Proxy) (body : List UInt8) (delivered : Bool) : Option Batch × Proxy :=
  (some (body, s.taken),
    { s with
      sender := if (decodeBatch body).isOk ∧ delivered then .receiving else .stopped
      taken := [] })

/-- The inner loop, with the body so far. -/
def fill (s : Proxy) (body : List UInt8) (delivered : Bool) : Option Batch × Proxy :=
  if maxBatchBytes < body.length + maxPacketBytes + 2 then s.send body delivered
  else match s.queue with
    | [] => s.send body delivered
    | packet :: queue =>
      let s := { s with queue, taken := s.taken ++ [packet] }
      match appendPacket body packet with
      | .ok body => (none, { s with sender := .filling body })
      | .error _ => s.send body delivered

def step (s : Proxy) : ProxyEvent → Option Batch × Proxy
  | .push packet =>
    (none, if s.queue.length < maxBatchPackets then { s with queue := s.queue ++ [packet] } else s)
  | .receiverEnded =>
    match s.sender with
    | .receiving => (none, { s with sender := .stopped })
    | _ => (none, s)
  | .turn delivered =>
    match s.sender with
    | .stopped => (none, s)
    | .filling body => s.fill body delivered
    | .receiving =>
      match s.queue with
      | [] => (none, s)
      | packet :: queue =>
        (none, { s with
          queue
          taken := s.taken ++ [packet]
          sender := match appendPacket [] packet with
            | .ok body => .filling body
            | .error _ => .stopped })

end Proxy

def encodeBatch (packets : List (List UInt8)) : List UInt8 :=
  packets.flatMap fun packet => toBytes 2 packet.length ++ packet

/-- A packet that `validate_packet` accepts. -/
def Fits (packet : List UInt8) : Prop := 0 < packet.length ∧ packet.length ≤ maxPacketBytes

lemma appendPacket_eq_ok {body packet : List UInt8} (h : Fits packet)
    (hroom : body.length + maxPacketBytes + 2 ≤ maxBatchBytes) :
    appendPacket body packet = .ok (body ++ encodeBatch [packet]) := by
  have hne : packet ≠ [] := ne_nil_of_length_pos h.1
  have hlen := h.2
  have hfits : ¬maxBatchBytes < body.length + packet.length + 2 := by omega
  simp [appendPacket, validatePacket, rejectIf, hne, not_lt.mpr hlen, hfits, encodeBatch]

lemma decodePackets_encodeBatch {packets : List (List UInt8)} (hfits : ∀ p ∈ packets, Fits p)
    (before : List (List UInt8)) (hcount : before.length + packets.length ≤ maxBatchPackets) :
    decodePackets before (encodeBatch packets) = .ok (before ++ packets) := by
  induction packets generalizing before with
  | nil => simp [encodeBatch, decodePackets]
  | cons packet rest ih =>
    rw [forall_mem_cons] at hfits
    obtain ⟨⟨hpos, hlen⟩, hrest⟩ := hfits
    rw [length_cons] at hcount
    have hsmall : packet.length < 256 ^ 2 := lt_of_le_of_lt hlen (by decide)
    obtain ⟨high, low, hbytes⟩ : ∃ high low, toBytes 2 packet.length = [high, low] :=
      length_eq_two.mp (length_toBytes 2 _)
    have hvalue : ofBytes [high, low] = packet.length := by rw [← hbytes, ofBytes_toBytes hsmall]
    have hbody : encodeBatch (packet :: rest) = high :: low :: (packet ++ encodeBatch rest) := by
      simp [encodeBatch, hbytes]
    have hok : ¬(packet.length = 0 ∨ maxPacketBytes < packet.length ∨
        (packet ++ encodeBatch rest).length < packet.length) := by
      rw [length_append]
      omega
    rw [hbody, decodePackets, if_neg (by omega)]
    simp only [hvalue, if_neg hok, take_left', drop_left']
    rw [ih hrest (before ++ [packet]) (by simp only [length_append, length_singleton]; omega)]
    simp

lemma eq_encodeBatch_of_decodePackets {before packets : List (List UInt8)} {body : List UInt8}
    (hcount : before.length ≤ maxBatchPackets) (h : decodePackets before body = .ok packets) :
    ∃ rest, packets = before ++ rest ∧ body = encodeBatch rest ∧ packets.length ≤ maxBatchPackets ∧
      ∀ p ∈ rest, Fits p := by
  fun_induction decodePackets before body with
  | case1 before =>
    obtain rfl := Except.ok.inj h
    exact ⟨[], by simp [encodeBatch, hcount]⟩
  | case2 | case3 | case4 => cases h
  | case5 before high low body hroom len hlen ih =>
    obtain ⟨rest, rfl, hrest, hfew, hfits⟩ := ih (by simp; omega) h
    push Not at hlen
    have htake : (body.take len).length = len := length_take_of_le hlen.2.2
    have hbytes : toBytes 2 len = [high, low] := toBytes_ofBytes [high, low]
    refine ⟨body.take len :: rest, by simp, ?_, hfew, ?_⟩
    · rw [encodeBatch, flatMap_cons, htake, hbytes, ← encodeBatch, ← hrest]
      simp
    · exact forall_mem_cons.mpr ⟨by rw [Fits, htake]; omega, hfits⟩

/-- **A body is accepted exactly if it encodes packets that can be sent**, at most as many as a batch holds. -/
theorem decode_batch_exact (body : List UInt8) (packets : List (List UInt8)) :
    decodeBatch body = .ok packets ↔ body = encodeBatch packets ∧ body.length ≤ maxBatchBytes ∧
      packets.length ≤ maxBatchPackets ∧ ∀ p ∈ packets, Fits p := by
  rw [decodeBatch]
  split_ifs with hlong
  · simp [hlong]
  · constructor
    · intro h
      obtain ⟨rest, rfl, hbody, hcount, hfits⟩ := eq_encodeBatch_of_decodePackets (Nat.zero_le _) h
      exact ⟨hbody, not_lt.mp hlong, hcount, hfits⟩
    · rintro ⟨rfl, -, hcount, hfits⟩
      exact decodePackets_encodeBatch hfits [] (by simpa using hcount)

/-! ## Every run -/

/-- A packet is pushed while a body is filled only if it can still be decoded together with the packets in
the body and in the queue. -/
def Proxy.roomy (s : Proxy) : ProxyEvent → Bool
  | .push _ => match s.sender with
    | .filling _ => s.taken.length + s.queue.length < maxBatchPackets
    | _ => true
  | _ => true

/-- The body is made of the packets taken for it, and they can be decoded together. -/
structure Proxy.Filled (s : Proxy) : Prop where
  queued : s.queue.length ≤ maxBatchPackets
  fits : ∀ p ∈ s.taken ++ s.queue, Fits p
  waiting : s.sender = .receiving → s.taken = []
  body : ∀ body, s.sender = .filling body → body = encodeBatch s.taken ∧
    body.length ≤ maxBatchBytes ∧ s.taken.length + s.queue.length ≤ maxBatchPackets

namespace Proxy

variable {s : Proxy} {body packet : List UInt8} {queue : List (List UInt8)} {delivered : Bool}

lemma Filled.decodeBatch (h : s.Filled) (hsender : s.sender = .filling body) :
    decodeBatch body = .ok s.taken := by
  obtain ⟨rfl, hlen, hcount⟩ := h.body body hsender
  rw [Tunnel.decodeBatch, if_neg (not_lt.mpr hlen)]
  refine decodePackets_encodeBatch (fun p hp => h.fits p (mem_append_left _ hp)) [] ?_
  simp only [length_nil]
  omega

lemma Filled.send (h : s.Filled) : (s.send body delivered).2.Filled where
  queued := h.queued
  fits p hp := h.fits p (mem_append_right _ hp)
  waiting _ := rfl
  body other hother := by
    simp only [Proxy.send] at hother
    split_ifs at hother

lemma Filled.take (h : s.Filled) (hqueue : s.queue = packet :: queue) (hbody : body = encodeBatch s.taken)
    (hroom : body.length + maxPacketBytes + 2 ≤ maxBatchBytes)
    (hcount : s.taken.length + s.queue.length ≤ maxBatchPackets) :
    appendPacket body packet = .ok (body ++ encodeBatch [packet]) ∧
      Filled ⟨queue, .filling (body ++ encodeBatch [packet]), s.taken ++ [packet]⟩ := by
  have hfits : ∀ p ∈ s.taken ++ packet :: queue, Fits p := hqueue ▸ h.fits
  have hpacket : Fits packet := hfits packet (by simp)
  have hlen := hpacket.2
  rw [hqueue, length_cons] at hcount
  refine ⟨appendPacket_eq_ok hpacket hroom, ?_, ?_, nofun, ?_⟩
  · dsimp only
    omega
  · rw [append_assoc]
    exact hfits
  · rintro _ ⟨⟩
    refine ⟨by simp [hbody, encodeBatch], ?_, ?_⟩
    · simp [encodeBatch]
      omega
    · simp
      omega

/-- A step keeps the invariant, and what it hands over decodes to what was taken. -/
def Sound (result : Option Batch × Proxy) : Prop :=
  result.2.Filled ∧ ∀ sent ∈ result.1, Tunnel.decodeBatch sent.1 = .ok sent.2

lemma Filled.sound (h : s.Filled) : Sound (none, s) := ⟨h, by simp⟩

lemma Filled.fill (h : s.Filled) (hsender : s.sender = .filling body) : Sound (s.fill body delivered) := by
  have hsend : Sound (s.send body delivered) := by
    refine ⟨h.send, ?_⟩
    rintro sent ⟨⟩
    exact h.decodeBatch hsender
  rw [Proxy.fill]
  split_ifs with hroom
  · exact hsend
  · cases hqueue : s.queue with
    | nil => exact hsend
    | cons packet queue =>
      obtain ⟨henc, -, hcount⟩ := h.body body hsender
      obtain ⟨happend, hfilled⟩ := h.take hqueue henc (not_lt.mp hroom) hcount
      simp only [happend]
      exact hfilled.sound

lemma Filled.push (h : s.Filled) (hroomy : s.roomy (.push packet) = true) (hfits : Fits packet)
    (hfull : s.queue.length < maxBatchPackets) : Filled { s with queue := s.queue ++ [packet] } := by
  refine ⟨by simpa using hfull, fun p hp => ?_, h.waiting, fun body hbody => ?_⟩
  · simp only [← append_assoc, mem_append, mem_singleton] at hp
    rcases hp with hp | rfl
    · exact h.fits p (mem_append.mpr hp)
    · exact hfits
  · obtain ⟨henc, hlen, -⟩ := h.body body hbody
    simp only [roomy, show s.sender = _ from hbody, decide_eq_true_eq] at hroomy
    refine ⟨henc, hlen, ?_⟩
    simp only [length_append, length_singleton]
    omega

/-- The producer pushes packets that can be sent, and keeps within one batch. -/
def Allows (s : Proxy) (event : ProxyEvent) : Prop :=
  s.roomy event = true ∧ ∀ packet, event = .push packet → Fits packet

lemma Filled.step (h : s.Filled) {event : ProxyEvent} (hallowed : s.Allows event) : Sound (s.step event) := by
  cases event with
  | push packet =>
    rw [Proxy.step]
    split_ifs with hfull
    · exact (h.push hallowed.1 (hallowed.2 packet rfl) hfull).sound
    · exact h.sound
  | receiverEnded =>
    rw [Proxy.step]
    cases hsender : s.sender with
    | receiving => exact Filled.sound ⟨h.queued, h.fits, by simp, by simp⟩
    | _ => exact h.sound
  | turn delivered =>
    rw [Proxy.step]
    cases hsender : s.sender with
    | stopped => exact h.sound
    | filling body => exact h.fill hsender
    | receiving =>
      cases hqueue : s.queue with
      | nil => exact h.sound
      | cons packet queue =>
        have htaken := h.waiting hsender
        obtain ⟨happend, hfilled⟩ := h.take hqueue (by rw [htaken]; rfl : [] = encodeBatch s.taken)
          (by decide) (by simpa [htaken] using h.queued)
        simp only [happend]
        exact hfilled.sound

end Proxy

/-- **What is handed over is what was taken.**  In every run in which the producer keeps within the packets
of one batch, every body decodes to the packets that have left the queue since the previous one. -/
theorem batches_decode (events : List ProxyEvent)
    (hpackets : ∀ packet, ProxyEvent.push packet ∈ events → Fits packet)
    (hroomy : ∀ before event after, events = before ++ event :: after →
      (exec Proxy.step .new before).roomy event = true) :
    ∀ event body taken, (event, some (body, taken)) ∈ trace Proxy.step .new events →
      decodeBatch body = .ok taken := by
  have hallowed : ∀ before event after, events = before ++ event :: after →
      (exec Proxy.step .new before).Allows event := by
    intro before event after hevents
    refine ⟨hroomy before event after hevents, ?_⟩
    rintro packet rfl
    exact hpackets packet (by simp [hevents])
  have hnew : Proxy.new.Filled := ⟨Nat.zero_le _, by simp [Proxy.new], fun _ => rfl, by simp [Proxy.new]⟩
  obtain ⟨-, hdecodes⟩ := exec_guarded
    (Q := fun _ (answer : Option Batch) => ∀ sent ∈ answer, decodeBatch sent.1 = .ok sent.2)
    hallowed (fun _ _ h hop => h.step hop) hnew
  exact fun event body taken hsent => hdecodes _ hsent (body, taken) rfl

namespace SampleProxy

def events : List ProxyEvent := [.push [1], .turn true, .push [2], .turn true, .turn true]

theorem batches_decode_pair : decodeBatch [0, 1, 1, 0, 1, 2] = .ok [[1], [2]] := by
  refine batches_decode events ?_ (forall_step ?_) (.turn true) _ _ (by decide +kernel)
  · intro packet hpacket
    simp only [events, List.mem_cons, ProxyEvent.push.injEq, reduceCtorEq, List.not_mem_nil, or_false,
      false_or] at hpacket
    rcases hpacket with rfl | rfl <;> exact ⟨by decide, by decide⟩
  · decide +kernel

/-- The queue is full; one more packet is pushed as soon as the first one has been taken. -/
def burst : List ProxyEvent :=
  List.replicate 64 (.push [0]) ++ [.turn true, .push [0]] ++ List.replicate 65 (.turn true)

/-- The body has one packet more than the tunnel decodes, and none of the 65 packets is sent. -/
theorem batch_of_sixty_five :
    (.turn true, some (encodeBatch (List.replicate 65 [0]), List.replicate 65 [0])) ∈
        trace Proxy.step .new burst ∧
      decodeBatch (encodeBatch (List.replicate 65 [0])) = .error .invalidPacket := by
  decide +kernel

end SampleProxy

end Tunnel

end HeteroNetwork
