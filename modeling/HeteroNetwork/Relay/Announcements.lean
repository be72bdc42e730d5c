import HeteroNetwork.Relay.ReturnRoutes

/-!
# Announcements at the relay

A forwarder announces its address with a frame that carries no packet.  The table counts a datagram as
forwarded unless it is an announcement, and the UDP server sends whatever payload the table returns.  The
decoder takes bytes behind an announcement for its payload; then they are sent and not counted.
-/

namespace HeteroNetwork.Relay

open Checked OrderedMap RelaySession

def transmissions (peer : SocketAddr) (datagram : List UInt8) :
    Except RelayError (SocketAddr × List UInt8) → List (SocketAddr × List UInt8)
  | .ok (target, payload) =>
    if payload ≠ [] then [(target, payload)]
    else if datagram.take 10 = relayFrameMagicV4 then [(peer, datagram)]
    else []
  | .error _ => []

def Announces (datagram : List UInt8) : Prop :=
  datagram.take 10 = relayFrameMagicV3 ∨ datagram.take 10 = relayFrameMagicV4

instance (datagram : List UInt8) : Decidable (Announces datagram) :=
  inferInstanceAs (Decidable (_ ∨ _))

def announcementEnd (datagram : List UInt8) : ℕ :=
  18 + readLength datagram 10 + readLength datagram 12 + readLength datagram 14 + readLength datagram 16

/-- An announcement that something follows. -/
def AnnouncesPayload (datagram : List UInt8) : Prop :=
  Announces datagram ∧ announcementEnd datagram < datagram.length

instance (datagram : List UInt8) : Decidable (AnnouncesPayload datagram) :=
  inferInstanceAs (Decidable (_ ∧ _))

/-! ## What the decoder takes for the payload -/

section Decoding

variable {datagram : List UInt8} {frame : RelayDatagram}

lemma decodeWithOptions_spec {magic : List UInt8} {endpointAnnouncement : Bool} (hmagic : magic.length = 10)
    (h : decodeRelayDatagramV2WithOptions datagram magic endpointAnnouncement = .ok frame) :
    frame.endpointAnnouncement = endpointAnnouncement ∧
      frame.ciphertextPayload = datagram.drop (announcementEnd datagram) := by
  simp only [decodeRelayDatagramV2WithOptions, bind_eq_ok, hmagic] at h
  cases endpointAnnouncement with
  | false =>
    simp only [Bool.false_eq_true, if_false, bind_eq_ok] at h
    obtain ⟨_, -, _, -, _, -, _, -, _, -, _, -, _, -, _, -, _, -, _, -, _, -, _, -, h⟩ := h
    cases h
    exact ⟨rfl, rfl⟩
  | true =>
    simp only [if_true, bind_eq_ok] at h
    obtain ⟨_, -, _, -, _, -, _, -, _, -, _, -, _, -, _, -, _, -, _, -, _, -, _, -, h⟩ := h
    cases h
    exact ⟨rfl, rfl⟩

lemma decodeV1_spec (h : decodeRelayDatagramV1 datagram = .ok frame) :
    frame.endpointAnnouncement = false := by
  simp only [decodeRelayDatagramV1, bind_eq_ok] at h
  obtain ⟨_, -, _, -, _, -, _, -, _, -, _, -, h⟩ := h
  cases h
  rfl

section Magic

variable {magic magic' : List UInt8} (h : magic.length = 10) (h' : magic'.length = 10)

include h h'

lemma drop_magic (rest : List UInt8) (k : ℕ) :
    (magic ++ rest).drop (10 + k) = (magic' ++ rest).drop (10 + k) := by
  have hmagic : magic.drop (10 + k) = [] := List.drop_of_length_le (by omega)
  have hmagic' : magic'.drop (10 + k) = [] := List.drop_of_length_le (by omega)
  rw [List.drop_append, List.drop_append, hmagic, hmagic', h, h']

lemma announcementEnd_magic (rest : List UInt8) :
    announcementEnd (magic ++ rest) = announcementEnd (magic' ++ rest) := by
  have hread : ∀ k, readLength (magic ++ rest) (10 + k) = readLength (magic' ++ rest) (10 + k) := by
    intro k
    rw [readLength, readLength, slice, slice, drop_magic h h']
  rw [announcementEnd, announcementEnd, hread 0, hread 2, hread 4, hread 6]

lemma drop_announcementEnd_magic (rest : List UInt8) :
    (magic ++ rest).drop (announcementEnd (magic ++ rest)) =
      (magic' ++ rest).drop (announcementEnd (magic' ++ rest)) := by
  obtain ⟨k, hk⟩ : ∃ k, announcementEnd (magic' ++ rest) = 10 + k :=
    Nat.exists_eq_add_of_le (by rw [announcementEnd]; omega)
  rw [announcementEnd_magic h h', hk, drop_magic h h']

end Magic

lemma decode_spec (h : decodeRelayDatagram datagram = .ok frame) :
    (frame.endpointAnnouncement = true ↔ Announces datagram) ∧
      (Announces datagram → frame.ciphertextPayload = datagram.drop (announcementEnd datagram)) := by
  rw [decodeRelayDatagram] at h
  by_cases hprobe : datagram.take 10 = relayFrameMagicV4
  · obtain ⟨hannouncement, hpayload⟩ := decodeWithOptions_spec rfl (if_pos hprobe ▸ h)
    have hsplit : relayFrameMagicV4 ++ datagram.drop 10 = datagram := by
      rw [← hprobe, List.take_append_drop]
    refine ⟨iff_of_true hannouncement (Or.inr hprobe), fun _ => ?_⟩
    rw [hpayload, drop_announcementEnd_magic rfl (rfl : relayFrameMagicV4.length = 10), hsplit]
  · rw [if_neg hprobe] at h
    by_cases hv3 : datagram.take 10 = relayFrameMagicV3
    · obtain ⟨hannouncement, hpayload⟩ := decodeWithOptions_spec rfl (if_pos hv3 ▸ h)
      exact ⟨iff_of_true hannouncement (Or.inl hv3), fun _ => hpayload⟩
    · rw [if_neg hv3] at h
      have hother : ¬Announces datagram := not_or.mpr ⟨hv3, hprobe⟩
      have hplain : frame.endpointAnnouncement = false := by
        split_ifs at h
        · exact (decodeWithOptions_spec rfl h).1
        · exact decodeV1_spec h
      exact ⟨iff_of_false (Bool.eq_false_iff.mp hplain) hother, fun h => absurd h hother⟩

lemma not_announces_of_wireguard (h : wireguardDatagramPayload datagram = true) : ¬Announces datagram := by
  have hhead : Announces datagram → datagram.head? = some 0x49 := by
    have htake : (datagram.take 10).head? = datagram.head? := by rw [List.head?_take, if_neg (by decide)]
    rintro (h | h)
    · rw [← htake, h]
      rfl
    · rw [← htake, h]
      rfl
  intro hannounces
  rw [wireguardDatagramPayload, hhead hannounces] at h
  split_ifs at h
  cases h

end Decoding

/-! ## What the table returns -/

section Forwarding

variable {table table' : RelayTable} {src : SocketAddr} {datagram : List UInt8} {now : Timestamp}
  {forward : RelayDatagramForward}

inductive ForwardOf (datagram : List UInt8) : RelayDatagramForward → Prop
  | framed {frame : RelayDatagram} (target : SocketAddr) (h : decodeRelayDatagram datagram = .ok frame) :
      ForwardOf datagram ⟨target, frame.ciphertextPayload, !frame.endpointAnnouncement⟩
  | bare (target : SocketAddr) (h : wireguardDatagramPayload datagram = true) :
      ForwardOf datagram ⟨target, datagram, true⟩

lemma exec_forwardFrame {frame : RelayDatagram} (hdecode : decodeRelayDatagram datagram = .ok frame)
    (h : exec (forwardFrame src frame now) table = (.ok forward, table')) :
    ForwardOf datagram forward ∧ table'.dataplane = table.dataplane := by
  rw [forwardFrame] at h
  obtain ⟨s, -, -, hexec⟩ | ⟨-, hexec⟩ := exec_removeExpiredSession frame.sessionId now table
  · rw [exec_bind, hexec] at h
    cases h
  · rw [exec_bind_of_ok hexec, exec_bind, exec_onSession] at h
    cases hs : table.sessions[frame.sessionId]? with
    | none =>
      rw [hs] at h
      cases h
    | some s =>
      rw [hs] at h
      have hstep := frameStep_acceptFrame src frame now s
      dsimp only at h
      generalize exec (acceptFrame src frame now) s = r at h hstep
      cases hstep with
      | refused | limited => cases h
      | @accepted side _ _ _ _ update =>
        cases update with
        | none | some =>
          cases h
          exact ⟨.framed _ hdecode, rfl⟩

lemma exec_acceptReturn {side : RelaySessionSide} {s s' : RelaySession}
    (h : exec (acceptReturn src side datagram now) s = (.ok forward, s')) :
    ∃ target, forward = ⟨target, datagram, true⟩ := by
  cases side with
  | left | right =>
    simp only [acceptReturn, exec_bind_eq_ok, exec_pure_eq_ok] at h
    obtain ⟨_, _, -, _, _, -, _, _, -, target, _, -, _, _, -, rfl, -⟩ := h
    exact ⟨target, rfl⟩

lemma exec_forwardReturn (hpacket : wireguardDatagramPayload datagram = true)
    (h : exec (forwardWireguardReturnDatagram src datagram now) table = (.ok forward, table')) :
    ForwardOf datagram forward ∧ table'.dataplane = table.dataplane := by
  have hpurge : (table.purgeExpired now).1.dataplane = table.dataplane := by
    rw [RelayTable.purgeExpired]
    split_ifs <;> rfl
  simp only [forwardWireguardReturnDatagram, exec_bind_eq_ok, exec_check_eq_ok, exec_modify_eq_ok,
    exec_get_eq_ok] at h
  obtain ⟨index, _, ⟨-, rfl⟩, _, _, rfl, _, _, ⟨rfl, rfl⟩, found, _, ⟨-, rfl⟩, ⟨id, side⟩, _, ⟨-, rfl⟩,
    h⟩ := h
  rw [exec_onSession] at h
  cases hs : (table.purgeExpired now).1.sessions[id]? with
  | none =>
    rw [hs] at h
    cases h
  | some s =>
    rw [hs] at h
    obtain ⟨hforward, rfl⟩ := Prod.mk.inj h
    obtain ⟨target, rfl⟩ := exec_acceptReturn (Prod.ext hforward rfl)
    exact ⟨.bare target hpacket, hpurge⟩

lemma exec_forwardInner
    (h : exec (forwardDatagramForAddrAtInner src datagram now) table = (.ok forward, table')) :
    ForwardOf datagram forward ∧ table'.dataplane = table.dataplane := by
  rw [forwardDatagramForAddrAtInner] at h
  cases hdecode : decodeRelayDatagram datagram with
  | ok frame =>
    rw [hdecode] at h
    exact exec_forwardFrame hdecode h
  | error error =>
    rw [hdecode] at h
    dsimp only at h
    split_ifs at h with hreturn
    · exact exec_forwardReturn hreturn.2 h
    · cases h

lemma exec_withMetrics_eq {α : Type} (received : ℕ) (forwarded : α → Option ℕ) (method : Relaying α)
    (table : RelayTable) :
    exec (withMetrics received forwarded method) table =
      match exec method { table with dataplane := table.dataplane.recordReceived received } with
      | (.ok a, after) => (.ok a, { after with
          dataplane := (forwarded a).elim after.dataplane after.dataplane.recordForwarded })
      | (.error error, after) => (.error error, { after with
          dataplane := after.dataplane.recordDrop (relayErrorDropReason error) received }) := by
  rw [withMetrics, exec_modify_bind, exec_get_bind]
  rcases exec method { table with dataplane := table.dataplane.recordReceived received } with
    ⟨error | a, after⟩
  · rfl
  · rfl

def CountsForwarded (src : SocketAddr) (datagram : List UInt8) (now : Timestamp) (table : RelayTable) :
    Prop :=
  ∃ forward table', exec (forwardDatagramForAddrAtInner src datagram now)
    { table with dataplane := table.dataplane.recordReceived datagram.length } = (.ok forward, table') ∧
      forward.shouldForward = true

lemma exec_forwardDatagram {target : SocketAddr} {payload : List UInt8}
    (h : exec (forwardDatagramForAddrAt src datagram now) table = (.ok (target, payload), table')) :
    ∃ shouldForward, ForwardOf datagram ⟨target, payload, shouldForward⟩ ∧
      (CountsForwarded src datagram now table ↔ shouldForward = true) ∧
      table'.dataplane = if shouldForward then
          (table.dataplane.recordReceived datagram.length).recordForwarded payload.length
        else table.dataplane.recordReceived datagram.length := by
  simp only [forwardDatagramForAddrAt, exec_bind_eq_ok, exec_pure_eq_ok] at h
  obtain ⟨⟨_, _, shouldForward⟩, _, hinner, heq, rfl⟩ := h
  obtain ⟨rfl, rfl⟩ := Prod.mk.inj heq
  rw [exec_withMetrics_eq] at hinner
  rcases hexec : exec (forwardDatagramForAddrAtInner src datagram now)
    { table with dataplane := table.dataplane.recordReceived datagram.length } with ⟨error | found, after⟩
  · rw [hexec] at hinner
    cases hinner
  · rw [hexec] at hinner
    obtain ⟨hfound, rfl⟩ := Prod.mk.inj hinner
    obtain rfl := Except.ok.inj hfound
    obtain ⟨hforward, hmetrics⟩ := exec_forwardInner hexec
    refine ⟨shouldForward, hforward, ⟨?_, fun h => ⟨_, _, hexec, h⟩⟩, ?_⟩
    · rintro ⟨forward, after', hexec', hcounts⟩
      obtain ⟨hsame, -⟩ := Prod.mk.inj (hexec.symm.trans hexec')
      rw [← Except.ok.inj hsame] at hcounts
      exact hcounts
    · cases shouldForward with
      | false => exact hmetrics
      | true =>
        change after.dataplane.recordForwarded _ = _
        rw [hmetrics]
        rfl

lemma shouldForward_of_announces (h : ForwardOf datagram forward) (hannounces : Announces datagram) :
    forward.shouldForward = false := by
  cases h with
  | framed _ hdecode => exact congrArg not ((decode_spec hdecode).1.mpr hannounces)
  | bare _ hpacket => exact absurd hannounces (not_announces_of_wireguard hpacket)

lemma announcesPayload_iff {target : SocketAddr} {payload : List UInt8} {shouldForward : Bool}
    (h : ForwardOf datagram ⟨target, payload, shouldForward⟩) :
    AnnouncesPayload datagram ↔ shouldForward = false ∧ payload ≠ [] := by
  cases h with
  | framed _ hdecode =>
    obtain ⟨hannounces, hpayload⟩ := decode_spec hdecode
    rw [AnnouncesPayload, Bool.not_eq_false', hannounces]
    refine and_congr_right fun h => ?_
    rw [hpayload h, ne_eq, List.drop_eq_nil_iff, not_le]
  | bare _ hpacket =>
    exact ⟨fun h => absurd h.1 (not_announces_of_wireguard hpacket), fun h => nomatch h.1⟩

end Forwarding

/-- **What is sent and what is counted agree exactly when no bytes follow an announcement.** -/
theorem announcement_payload_iff (table table' : RelayTable) (src : SocketAddr) (datagram : List UInt8)
    (now : Timestamp) (target : SocketAddr) (payload : List UInt8)
    (hok : exec (forwardDatagramForAddrAt src datagram now) table = (.ok (target, payload), table')) :
    (((payload ≠ [] → CountsForwarded src datagram now table) ∧
        (Announces datagram → ∀ sent ∈ transmissions src datagram (.ok (target, payload)),
          sent = (src, datagram))) ↔
      ¬AnnouncesPayload datagram) ∧
    (CountsForwarded src datagram now table → table'.dataplane =
      (table.dataplane.recordReceived datagram.length).recordForwarded payload.length) ∧
    (¬CountsForwarded src datagram now table →
      table'.dataplane = table.dataplane.recordReceived datagram.length) := by
  obtain ⟨shouldForward, hforward, hcounts, hmetrics⟩ := exec_forwardDatagram hok
  refine ⟨?_, fun h => ?_, fun h => ?_⟩
  · rw [announcesPayload_iff hforward, hcounts]
    constructor
    · rintro ⟨hcounted, -⟩ ⟨hstays, hpayload⟩
      rw [hcounted hpayload] at hstays
      cases hstays
    · intro hagree
      refine ⟨fun hpayload => Bool.eq_true_of_not_eq_false fun hstays => hagree ⟨hstays, hpayload⟩,
        fun hannounces sent hsent => ?_⟩
      have hempty : payload = [] :=
        not_not.mp fun hpayload => hagree ⟨shouldForward_of_announces hforward hannounces, hpayload⟩
      rw [transmissions, hempty, if_neg (not_not.mpr rfl)] at hsent
      split_ifs at hsent
      · exact List.mem_singleton.mp hsent
      · cases hsent
  · rw [hmetrics, if_pos (hcounts.mp h)]
  · rw [hmetrics, if_neg fun htrue => h (hcounts.mpr htrue)]

namespace SampleRelay

def announcement (trailing : List UInt8) : List UInt8 :=
  relayFrameMagicV3 ++ [0, 10, 0, 5, 0, 4, 0, 5] ++ utf8 "left:right" ++ utf8 "token" ++ left.asBytes ++
    right.asBytes ++ trailing

lemma exec_announcement (trailing : List UInt8) (payload : List UInt8)
    (h : (exec (forwardDatagramForAddrAt (addr 1 2000) (announcement trailing) 1)
      (relayed parseUrl [admitPair])).1 = .ok (addr 2 1000, payload)) :
    exec (forwardDatagramForAddrAt (addr 1 2000) (announcement trailing) 1) (relayed parseUrl [admitPair]) =
      (.ok (addr 2 1000, payload), (exec (forwardDatagramForAddrAt (addr 1 2000) (announcement trailing) 1)
        (relayed parseUrl [admitPair])).2) :=
  Prod.ext h rfl

/-- A byte behind an announcement of `left` is sent to `right` and not counted. -/
theorem announcement_sends_payload :
    (exec (forwardDatagramForAddrAt (addr 1 2000) (announcement [42]) 1)
      (relayed parseUrl [admitPair])).1 = .ok (addr 2 1000, [42]) ∧
    transmissions (addr 1 2000) (announcement [42]) (.ok (addr 2 1000, [42])) = [(addr 2 1000, [42])] ∧
    ¬CountsForwarded (addr 1 2000) (announcement [42]) 1 (relayed parseUrl [admitPair]) := by
  refine (and_iff_left_of_imp fun hok => ⟨by decide +kernel, ?_⟩).mpr (by decide +kernel)
  obtain ⟨shouldForward, hforward, hcounts, -⟩ := exec_forwardDatagram (exec_announcement [42] [42] hok)
  have hstays : shouldForward = false := shouldForward_of_announces hforward (by decide +kernel)
  rw [hcounts, hstays]
  decide

theorem announcement_payload_iff_bare :
    transmissions (addr 1 2000) (announcement []) (.ok (addr 2 1000, [])) ⊆
      [(addr 1 2000, announcement [])] := by
  have hsent := ((announcement_payload_iff _ _ _ _ _ _ _
    (exec_announcement [] [] (by decide +kernel))).1.mpr (by decide +kernel)).2 (by decide +kernel)
  intro sent hmem
  exact List.mem_singleton.mpr (hsent sent hmem)

end SampleRelay

end HeteroNetwork.Relay
