import HeteroNetwork.Relay.RelaySteps

/-!
# The index of return routes

`wireguard_return_routes` is updated by some operations and built anew by others.  What it should hold follows
from the sessions: for every sender index of one side, a route from the other side and the address it has
(`Expected`).
-/

namespace HeteroNetwork.Relay

open Checked OrderedMap RelaySession Std TreeMap List
open ControlPlane (RelayCapability)

/-! ## What the index should hold -/

def Expected (sessions : Sessions) (index : UInt32) (route : WireGuardReturnRoute) : Prop :=
  ∃ s, sessions[route.sessionId]? = some s ∧ index ∈ s.senderIndices route.sourceSide.other ∧
    route.sourceIp = (s.addr route.sourceSide).ip

structure Indexed (sessions : Sessions) (routes : ReturnRoutes) : Prop where
  indices : ∀ (id : RelaySessionId) (s : RelaySession), sessions[id]? = some s →
    ∀ side, (s.senderIndices side).Nodup
  nodup : ∀ index, (routesAt routes index).Nodup
  mem : ∀ index route, route ∈ routesAt routes index ↔ Expected sessions index route

/-! ## The index built anew -/

lemma routesAt_insert (routes : ReturnRoutes) (index i : UInt32) (l : List WireGuardReturnRoute) :
    routesAt (routes.insert index l) i = if index = i then l else routesAt routes i := by
  rw [routesAt, routesAt]
  split_ifs with h
  · rw [h, TreeMap.getElem?_insert_self, Option.getD_some]
  · rw [getElem?_insert_ne h]

lemma routesAt_foldl_pushRoute (route : WireGuardReturnRoute) (indices : List UInt32)
    (routes : ReturnRoutes) (i : UInt32) :
    routesAt (indices.foldl (pushRoute route) routes) i =
      routesAt routes i ++ List.replicate (indices.count i) route := by
  induction indices generalizing routes with
  | nil => simp
  | cons index indices ih =>
    rw [foldl_cons, ih, pushRoute, routesAt_insert]
    by_cases h : index = i
    · subst h
      rw [if_pos rfl, count_cons_self, replicate_succ, append_assoc]
      rfl
    · rw [if_neg h, count_cons_of_ne h]

def sessionRoutes (index : UInt32) (entry : RelaySessionId × RelaySession) :
    List WireGuardReturnRoute :=
  List.replicate (entry.2.leftWireguardSenderIndices.count index)
      ⟨entry.1, .right, entry.2.rightAddr.ip⟩ ++
    List.replicate (entry.2.rightWireguardSenderIndices.count index)
      ⟨entry.1, .left, entry.2.leftAddr.ip⟩

lemma routesAt_foldl_pushSessionRoutes (entries : List (RelaySessionId × RelaySession))
    (routes : ReturnRoutes) (i : UInt32) :
    routesAt (entries.foldl pushSessionRoutes routes) i =
      routesAt routes i ++ entries.flatMap (sessionRoutes i) := by
  induction entries generalizing routes with
  | nil => simp
  | cons entry entries ih =>
    rw [foldl_cons, ih, pushSessionRoutes, routesAt_foldl_pushRoute, routesAt_foldl_pushRoute,
      flatMap_cons, sessionRoutes]
    simp only [append_assoc]

variable {entry : RelaySessionId × RelaySession} {index : UInt32} {route : WireGuardReturnRoute}

lemma mem_sessionRoutes
    :
    route ∈ sessionRoutes index entry ↔ route.sessionId = entry.1 ∧
      index ∈ entry.2.senderIndices route.sourceSide.other ∧
      route.sourceIp = (entry.2.addr route.sourceSide).ip := by
  obtain ⟨id, side, ip⟩ := route
  have hpos : ∀ l : List UInt32, l.count index ≠ 0 ↔ index ∈ l := fun l => by
    rw [← Nat.pos_iff_ne_zero, count_pos_iff]
  simp only [sessionRoutes, mem_append, mem_replicate, hpos, WireGuardReturnRoute.mk.injEq]
  cases side <;> simp [RelaySessionSide.other, senderIndices, addr] <;> tauto

lemma nodup_sessionRoutes
    (h : ∀ side, (entry.2.senderIndices side).Nodup) : (sessionRoutes index entry).Nodup := by
  have hcount : ∀ l : List UInt32, l.Nodup → ∀ route : WireGuardReturnRoute,
      (List.replicate (l.count index) route).Nodup := fun l hl route =>
    nodup_replicate.mpr (nodup_iff_count_le_one.mp hl index)
  refine List.Nodup.append (hcount _ (h .left) _) (hcount _ (h .right) _) fun route hl hr => ?_
  rw [(mem_replicate.mp hl).2] at hr
  cases (mem_replicate.mp hr).2

lemma routesAt_rebuild (table : RelayTable) (index : UInt32) :
    routesAt table.rebuildWireguardReturnRoutes.wireguardReturnRoutes index =
      table.sessions.toList.flatMap (sessionRoutes index) := by
  rw [RelayTable.rebuildWireguardReturnRoutes, routesAt_foldl_pushSessionRoutes]
  rfl

lemma mem_rebuild {table : RelayTable} :
    route ∈ routesAt table.rebuildWireguardReturnRoutes.wireguardReturnRoutes index ↔
      Expected table.sessions index route := by
  rw [routesAt_rebuild, mem_flatMap]
  constructor
  · rintro ⟨⟨id, s⟩, hentry, hroute⟩
    obtain ⟨hid, hindex, hip⟩ := mem_sessionRoutes.mp hroute
    exact ⟨s, hid ▸ TreeMap.mem_toList_iff_getElem?_eq_some.mp hentry, hindex, hip⟩
  · rintro ⟨s, hs, hindex, hip⟩
    exact ⟨(route.sessionId, s), TreeMap.mem_toList_iff_getElem?_eq_some.mpr hs,
      mem_sessionRoutes.mpr ⟨rfl, hindex, hip⟩⟩

/-- The index built anew is the expected one. -/
theorem indexed_rebuild {table : RelayTable}
    (h : ∀ (id : RelaySessionId) (s : RelaySession), table.sessions[id]? = some s →
      ∀ side, (s.senderIndices side).Nodup) :
    Indexed table.rebuildWireguardReturnRoutes.sessions
      table.rebuildWireguardReturnRoutes.wireguardReturnRoutes := by
  refine ⟨h, fun index => ?_, fun index route => mem_rebuild⟩
  rw [routesAt_rebuild, nodup_flatMap]
  refine ⟨fun entry hentry => nodup_sessionRoutes
    (h _ _ (TreeMap.mem_toList_iff_getElem?_eq_some.mp hentry)), ?_⟩
  refine TreeMap.distinct_keys_toList.imp fun hne route hroute hroute' => hne ?_
  rw [← (mem_sessionRoutes.mp hroute).1, ← (mem_sessionRoutes.mp hroute').1]
  exact ReflCmp.compare_self

/-! ## Updates -/

section Updates

variable {sessions : Sessions} {routes : ReturnRoutes} {id : RelaySessionId} {s s' : RelaySession}
  {side : RelaySessionSide}

lemma Indexed.congr {sessions' : Sessions} (h : Indexed sessions routes)
    (hsame : ∀ id : RelaySessionId, sessions'[id]? = sessions[id]?) : Indexed sessions' routes where
  indices id s hs := h.indices id s (hsame id ▸ hs)
  nodup := h.nodup
  mem index route := by simp only [h.mem, Expected, hsame]

lemma purge_cases (table : RelayTable) (now : Timestamp) :
    (table.purgeExpired now).1.wireguardReturnRoutes =
        (table.purgeExpired now).1.rebuildWireguardReturnRoutes.wireguardReturnRoutes ∨
      ((table.purgeExpired now).1.wireguardReturnRoutes = table.wireguardReturnRoutes ∧
        ∀ id : RelaySessionId, (table.purgeExpired now).1.sessions[id]? = table.sessions[id]?) := by
  simp only [RelayTable.purgeExpired]
  have hkept : ∀ (id : RelaySessionId) (s : RelaySession),
      (table.sessions.filter fun _ s => !s.isExpired now)[id]? = some s →
      table.sessions[id]? = some s := fun id s hs => by
    rw [getElem?_filter'] at hs
    exact (Option.filter_eq_some_iff.mp hs).1
  split_ifs with hremoved
  · exact Or.inl rfl
  · -- nothing has been removed
    refine Or.inr ⟨rfl, fun id => ?_⟩
    have hall := mem_of_size_le (fun id hid => by
      obtain ⟨s, hs⟩ := mem_iff_exists.mp hid
      exact mem_of_getElem? (hkept id s hs)) (Nat.sub_eq_zero_iff_le.mp (by omega)) id
    cases hs : table.sessions[id]? with
    | none => rw [getElem?_filter', hs, Option.filter_none]
    | some s =>
      obtain ⟨s', hs'⟩ := mem_iff_exists.mp (hall (mem_of_getElem? hs))
      rw [hs', ← hkept id s' hs', hs]

lemma indexed_purge {table : RelayTable} (h : Indexed table.sessions table.wireguardReturnRoutes)
    (now : Timestamp) : Indexed (table.purgeExpired now).1.sessions
      (table.purgeExpired now).1.wireguardReturnRoutes := by
  obtain hroutes | ⟨hroutes, hsame⟩ := purge_cases table now
  · rw [hroutes]
    exact indexed_rebuild fun id s hs => h.indices id s (getElem?_purge hs).1
  · rw [hroutes]
    exact h.congr hsame

lemma Indexed.replace (h : Indexed sessions routes) (hs : sessions[id]? = some s)
    (hindices : ∀ side, s'.senderIndices side = s.senderIndices side)
    (haddr : ∀ side, (s'.addr side).ip = (s.addr side).ip ∨ s.senderIndices side.other = []) :
    Indexed (sessions.insert id s') routes where
  indices := forall_insert h.indices fun side => by
    rw [hindices]
    exact h.indices id s hs side
  nodup := h.nodup
  mem index route := by
    rw [h.mem, Expected, Expected]
    by_cases hid : id = route.sessionId
    · rw [← hid, getElem?_insert_self, hs]
      have hiff : index ∈ s.senderIndices route.sourceSide.other →
          (s'.addr route.sourceSide).ip = (s.addr route.sourceSide).ip := by
        intro hmem
        refine (haddr route.sourceSide).resolve_right fun hnil => ?_
        rw [hnil] at hmem
        cases hmem
      constructor
      · rintro ⟨_, ⟨⟩, hindex, hip⟩
        exact ⟨s', rfl, by rwa [hindices], by rw [hip, hiff hindex]⟩
      · rintro ⟨_, ⟨⟩, hindex, hip⟩
        rw [hindices] at hindex
        exact ⟨s, rfl, hindex, by rw [hip, hiff hindex]⟩
    · rw [getElem?_insert_ne hid]

lemma Indexed.counted (h : Indexed sessions routes) (hs : sessions[id]? = some s)
    (hcounted : Counted s s') : Indexed (sessions.insert id s') routes :=
  h.replace hs hcounted.senderIndices fun side => Or.inl (by rw [hcounted.addr])

lemma Indexed.insert_new (h : Indexed sessions routes) (hnew : sessions[id]? = none)
    (hindices : ∀ side, s.senderIndices side = []) : Indexed (sessions.insert id s) routes where
  indices := forall_insert h.indices fun side => by
    rw [hindices]
    exact nodup_nil
  nodup := h.nodup
  mem index route := by
    rw [h.mem, Expected, Expected]
    by_cases hid : id = route.sessionId
    · rw [← hid, getElem?_insert_self, hnew]
      simp [hindices]
    · rw [getElem?_insert_ne hid]

/-! ## Sender indices -/

lemma pushSenderIndex_spec {l : List UInt32} (hl : l.Nodup) (x : UInt32) :
    (pushSenderIndex l x).1.Nodup ∧ (pushSenderIndex l x).2 ≠ some x ∧
      ∀ i, i ∈ (pushSenderIndex l x).1 ↔ i = x ∨ (i ∈ l ∧ (pushSenderIndex l x).2 ≠ some i) := by
  have hx : x ∉ l.erase x := hl.not_mem_erase
  have hmem : ∀ i, i = x ∨ i ∈ l.erase x ↔ i = x ∨ i ∈ l := fun i => by
    by_cases hi : i = x
    · simp [hi]
    · simp [hi, mem_erase_of_ne hi]
  have hnodup := hl.erase x
  rw [pushSenderIndex]
  generalize l.erase x = kept at hx hmem hnodup ⊢
  split_ifs with hfull
  · cases kept with
    | nil => simp [maxWireguardSenderIndicesPerSide] at hfull
    | cons first rest =>
      obtain ⟨hfirst, hrest⟩ := nodup_cons.mp hnodup
      simp only [tail_cons, head?_cons, ne_eq, Option.some.injEq] at *
      refine ⟨?_, ?_, fun i => ?_⟩
      · exact List.Nodup.append hrest (nodup_singleton x) (by simp_all)
      · rintro rfl
        simp at hx
      · have := hmem i
        by_cases hi : i = x
        · simp [hi]
        · by_cases hif : first = i
          · subst hif
            simp [hfirst, hi]
          · simp only [mem_append, hi, false_or, mem_cons, Ne.symm hif] at this ⊢
            simp [this, hif]
  · refine ⟨?_, by simp, fun i => ?_⟩
    · exact List.Nodup.append hnodup (nodup_singleton x) (by simpa using hx)
    · rw [mem_append, mem_singleton, or_comm, hmem]
      simp

lemma mem_otherRoutes {route existing : WireGuardReturnRoute} {l : List WireGuardReturnRoute} :
    existing ∈ otherRoutes route l ↔ existing ∈ l ∧
      ¬(existing.sessionId = route.sessionId ∧ existing.sourceSide = route.sourceSide) := by
  rw [otherRoutes, mem_filter, decide_eq_true_eq]
  tauto

lemma routesAt_dropEvicted (evicted : Option UInt32) (route : WireGuardReturnRoute)
    (routes : ReturnRoutes) (i : UInt32) :
    routesAt (dropEvicted evicted route routes) i =
      if evicted = some i then otherRoutes route (routesAt routes i) else routesAt routes i := by
  cases evicted with
  | none => rfl
  | some e =>
    simp only [dropEvicted, Option.some.injEq]
    by_cases he : e = i
    · subst he
      rw [if_pos rfl, routesAt]
      cases hentry : routes[e]? with
      | none =>
        simp only
        rw [hentry, routesAt, hentry]
        rfl
      | some existing =>
        simp only
        split_ifs with hempty
        · rw [getElem?_erase_self, routesAt, hentry, Option.getD_some, hempty]
          rfl
        · rw [getElem?_insert_self, routesAt, hentry]
          rfl
    · rw [if_neg he, routesAt, routesAt]
      cases routes[e]? with
      | none => rfl
      | some existing =>
        simp only
        split_ifs
        · rw [getElem?_erase_ne he]
        · rw [getElem?_insert_ne he]

lemma routesAt_upsert (table : RelayTable) (x : UInt32) (evicted : Option UInt32)
    (route : WireGuardReturnRoute) (i : UInt32) :
    routesAt (table.upsertWireguardReturnRoute x evicted route).wireguardReturnRoutes i =
      if x = i then otherRoutes route (routesAt table.wireguardReturnRoutes i) ++ [route]
      else if evicted = some i then otherRoutes route (routesAt table.wireguardReturnRoutes i)
      else routesAt table.wireguardReturnRoutes i := by
  have hidem : ∀ l, otherRoutes route (otherRoutes route l) = otherRoutes route l := fun l => by
    simp [otherRoutes, filter_filter]
  have hat := routesAt_dropEvicted evicted route table.wireguardReturnRoutes i
  simp only [RelayTable.upsertWireguardReturnRoute]
  rw [routesAt_insert]
  by_cases hx : x = i
  · subst hx
    rw [if_pos rfl, if_pos rfl, hat]
    split_ifs with hevicted
    · rw [hidem]
    · rfl
  · rw [if_neg hx, if_neg hx, hat]

lemma addr_setSenderIndices (indices : List UInt32) (side side' : RelaySessionSide) :
    (s.setSenderIndices indices side).addr side' = s.addr side' := by
  cases side <;> cases side' <;> rfl

lemma senderIndices_setSenderIndices (indices : List UInt32) (side : RelaySessionSide) :
    (s.setSenderIndices indices side).senderIndices side = indices ∧
      (s.setSenderIndices indices side).senderIndices side.other = s.senderIndices side.other := by
  cases side <;> exact ⟨rfl, rfl⟩

lemma Indexed.record {table : RelayTable} (h : Indexed sessions table.wireguardReturnRoutes)
    (hs : sessions[id]? = some s) (side : RelaySessionSide) (x : UInt32) :
    Indexed (sessions.insert id (s.setSenderIndices (pushSenderIndex (s.senderIndices side) x).1 side))
      (table.upsertWireguardReturnRoute x (pushSenderIndex (s.senderIndices side) x).2
        ⟨id, side.other, (s.addr side.other).ip⟩).wireguardReturnRoutes := by
  obtain ⟨hnodup, -, hmem⟩ := pushSenderIndex_spec (h.indices id s hs side) x
  generalize pushSenderIndex (s.senderIndices side) x = pushed at hnodup hmem ⊢
  obtain ⟨indices, evicted⟩ := pushed
  dsimp only at hnodup hmem ⊢
  obtain ⟨hself, hother⟩ := senderIndices_setSenderIndices (s := s) indices side
  refine ⟨forall_insert h.indices fun side' => ?_, fun index => ?_, fun index route => ?_⟩
  · obtain rfl | rfl := side.eq_or_eq_other side'
    · rwa [hself]
    · rw [hother]
      exact h.indices id s hs _
  · rw [routesAt_upsert]
    have hfilter := (h.nodup index).filter fun existing =>
      existing.sessionId ≠ id ∨ existing.sourceSide ≠ side.other
    split_ifs
    · refine List.Nodup.append hfilter (nodup_singleton _) ?_
      simp [mem_otherRoutes]
    · exact hfilter
    · exact h.nodup index
  · rw [routesAt_upsert]
    by_cases hsame : route.sessionId = id ∧ route.sourceSide = side.other
    · -- the routes of this session from the other side
      obtain ⟨rid, rside, rip⟩ := route
      obtain ⟨rfl, rfl⟩ : rid = id ∧ rside = side.other := hsame
      have hexpected : Expected (sessions.insert rid (s.setSenderIndices indices side)) index
          ⟨rid, side.other, rip⟩ ↔ index ∈ indices ∧ rip = (s.addr side.other).ip := by
        simp [Expected, hself, addr_setSenderIndices]
      have hold : Expected sessions index ⟨rid, side.other, rip⟩ ↔
          index ∈ s.senderIndices side ∧ rip = (s.addr side.other).ip := by
        simp [Expected, hs]
      rw [hexpected, hmem]
      split_ifs with hx hevicted
      · simp [mem_otherRoutes, hx]
      · simp [mem_otherRoutes, hevicted, Ne.symm hx]
      · rw [h.mem, hold]
        simp [hevicted, Ne.symm hx]
    · have hold : Expected (sessions.insert id (s.setSenderIndices indices side)) index route ↔
          Expected sessions index route := by
        rw [Expected, Expected]
        by_cases hid : id = route.sessionId
        · have hside : route.sourceSide.other = side.other := by
            obtain heq | heq := side.eq_or_eq_other route.sourceSide
            · rw [heq]
            · exact absurd ⟨hid.symm, heq⟩ hsame
          rw [← hid, getElem?_insert_self, hs, hside]
          simp [hother, addr_setSenderIndices]
        · rw [getElem?_insert_ne hid]
      rw [hold, ← h.mem]
      have hkept : route ∈ otherRoutes ⟨id, side.other, (s.addr side.other).ip⟩
          (routesAt table.wireguardReturnRoutes index) ↔
          route ∈ routesAt table.wireguardReturnRoutes index := by
        rw [mem_otherRoutes]
        exact and_iff_left hsame
      split_ifs
      · rw [mem_append, hkept, mem_singleton]
        refine or_iff_left fun heq => hsame ?_
        rw [heq]
        exact ⟨rfl, rfl⟩
      · exact hkept
      · exact Iff.rfl

end Updates

/-! ## Calls -/

instance (s : RelaySession) (d : RelayDatagram) (side : RelaySessionSide) : Decidable (Names s d side) :=
  inferInstanceAs (Decidable (_ ∧ _ ∧ _))

/-- The call is a frame that moves one side of its session to another address, while the other side
has sender indices. -/
def moves (table : RelayTable) (call : RelayCall) : Bool :=
  match call.op with
  | .datagram src datagram =>
    match decodeRelayDatagram datagram with
    | .ok d => (table.sessions[d.sessionId]?).any fun s =>
      !s.isExpired call.now && [RelaySessionSide.left, .right].any fun side =>
        Names s d side ∧ src.ip ≠ (s.addr side).ip ∧ s.senderIndices side.other ≠ []
    | .error _ => false
  | _ => false

section Calls

variable {table : RelayTable} {s : RelaySession} {id : RelaySessionId}

section

variable (s) (src : SocketAddr)

lemma addr_learn (side : RelaySessionSide) :
    (s.learn src side).addr side = src ∧ (s.learn src side).addr side.other = s.addr side.other := by
  cases side <;> exact ⟨rfl, rfl⟩

lemma senderIndices_learn (side side' : RelaySessionSide) :
    (s.learn src side).senderIndices side' = s.senderIndices side' := by
  cases side <;> cases side' <;> rfl

lemma addr_setAddr (side : RelaySessionSide) :
    (s.setAddr src side).addr side = src ∧
      (s.setAddr src side).addr side.other = s.addr side.other := by
  cases side <;> exact ⟨rfl, rfl⟩

lemma senderIndices_setAddr (side side' : RelaySessionSide) :
    (s.setAddr src side).senderIndices side' = s.senderIndices side' := by
  cases side <;> cases side' <;> rfl

end

lemma Indexed.of_insert_insert {sessions : Sessions} {routes : ReturnRoutes} {s' : RelaySession}
    (h : Indexed ((sessions.insert id s).insert id s') routes) :
    Indexed (sessions.insert id s') routes := by
  refine h.congr fun id' => ?_
  by_cases hid : id = id'
  · rw [hid, getElem?_insert_self, getElem?_insert_self]
  · rw [getElem?_insert_ne hid, getElem?_insert_ne hid, getElem?_insert_ne hid]

variable {side : RelaySessionSide} {d : RelayDatagram}

lemma Indexed.routed {sessions : Sessions} {routes : ReturnRoutes} {src : SocketAddr}
    {s₁ : RelaySession} (h : Indexed sessions routes)
    (hs : sessions[id]? = some s) (hrouted : Routed src d s side s₁)
    (hmoves : Names s d side → src.ip = (s.addr side).ip ∨ s.senderIndices side.other = []) :
    Indexed (sessions.insert id s₁) routes := by
  cases hrouted with
  | routeless => exact h.replace hs (fun _ => rfl) fun _ => Or.inl rfl
  | named hnames =>
    refine h.replace hs (senderIndices_learn s src side) fun side' => ?_
    obtain ⟨hself, hother⟩ := addr_learn s src side
    obtain rfl | rfl := side.eq_or_eq_other side'
    · rw [hself]
      exact hmoves hnames
    · exact Or.inl (by rw [hother])

lemma Indexed.afterFrame {src : SocketAddr}
    {r : Except RelayError (RelayDatagramForward × Option RouteUpdate) × RelaySession}
    (h : Indexed table.sessions table.wireguardReturnRoutes)
    (hs : table.sessions[d.sessionId]? = some s) (hframe : FrameStep src d s r)
    (hmoves : ∀ side, Names s d side → src.ip = (s.addr side).ip ∨ s.senderIndices side.other = []) :
    Indexed (table.afterFrame d.sessionId r).sessions
      (table.afterFrame d.sessionId r).wireguardReturnRoutes := by
  cases hframe with
  | refused error => exact h.replace hs (fun _ => rfl) fun _ => Or.inl rfl
  | limited hrouted hcounted =>
    have hlearned := h.routed hs hrouted (hmoves _)
    exact (hlearned.counted getElem?_insert_self hcounted).of_insert_insert
  | @accepted side _ _ _ _ _ hrouted hcounted hrecorded hcounted' =>
    have hlearned := h.routed hs hrouted (hmoves _)
    have hlimited := (hlearned.counted getElem?_insert_self hcounted).of_insert_insert
    cases hrecorded with
    | nothing =>
      exact (hlimited.counted getElem?_insert_self hcounted').of_insert_insert
    | index x =>
      have hrecord := (hlimited.record getElem?_insert_self side x).of_insert_insert
      exact (hrecord.counted getElem?_insert_self hcounted').of_insert_insert

lemma targetIsAuthenticated_eq (s : RelaySession) (side : RelaySessionSide) :
    s.targetIsAuthenticated side = s.learned side.other := by
  cases side <;> rfl

lemma mem_of_matchReturnRoute {sessions : Sessions} {ip : IpAddr}
    {routes : List WireGuardReturnRoute} {found : Option (RelaySessionId × RelaySessionSide)}
    (h : matchReturnRoute sessions ip found routes = .ok (some (id, side))) :
    found = some (id, side) ∨ (⟨id, side, ip⟩ ∈ routes ∧
      ∃ s, sessions[id]? = some s ∧ s.learned side.other = true) := by
  induction routes generalizing found with
  | nil =>
    rw [matchReturnRoute] at h
    exact Or.inl (Except.ok.inj h)
  | cons route rest ih =>
    have hrest : ∀ {found'}, matchReturnRoute sessions ip found' rest = .ok (some (id, side)) →
        found' = some (id, side) ∨ (⟨id, side, ip⟩ ∈ route :: rest ∧
          ∃ s, sessions[id]? = some s ∧ s.learned side.other = true) := fun h =>
      (ih h).imp_right fun ⟨hmem, hs⟩ => ⟨mem_cons_of_mem _ hmem, hs⟩
    rw [matchReturnRoute] at h
    by_cases hip : route.sourceIp = ip
    · rw [if_neg (not_not.mpr hip)] at h
      cases hs : sessions[route.sessionId]? with
      | none =>
        rw [hs] at h
        exact hrest h
      | some s =>
        rw [hs] at h
        simp only at h
        rw [targetIsAuthenticated_eq] at h
        split_ifs at h with hauth hfound
        · exact hrest h
        · refine (hrest h).elim (fun heq => Or.inr ?_) Or.inr
          obtain ⟨rfl, rfl⟩ := Prod.mk.inj (Option.some.inj heq)
          refine ⟨?_, s, hs, by simpa using hauth⟩
          rw [← hip]
          exact mem_cons_self
    · rw [if_pos hip] at h
      exact hrest h

/-- Every call keeps the index, unless it moves a side from which routes come. -/
theorem indexed_relay (parseUrl : String → Option ParsedUrl) (call : RelayCall)
    (hkeyed : Keyed table.sessions) (h : Indexed table.sessions table.wireguardReturnRoutes)
    (hmoves : moves table call = false) :
    Indexed (relay parseUrl table call).2.sessions
      (relay parseUrl table call).2.wireguardReturnRoutes := by
  obtain ⟨op, now⟩ := call
  have hstep := relayStep_relay parseUrl table ⟨op, now⟩
  generalize relay parseUrl table ⟨op, now⟩ = result at hstep ⊢
  have hpurged := indexed_purge h now
  cases hstep with
  | refused | authorized => exact h
  | expired m hs hexpired =>
    exact indexed_rebuild fun id s hs' => h.indices id s (getElem?_of_erase hs')
  | purged => exact hpurged
  | readmitted expiresAt limit answer hs hjoins =>
    -- an admission leaves the sender indices alone
    refine indexed_rebuild (forall_insert hpurged.indices fun side => ?_)
    cases side with
    | left => exact hpurged.indices _ _ hs .left
    | right => exact hpurged.indices _ _ hs .right
  | admitted expiresAt limit answer hvalid hne hnew =>
    exact hpurged.insert_new (getElem?_new_eq_none (keyed_purge hkeyed) hvalid hnew)
      fun side => by cases side <;> rfl
  | target m hs hcounted => exact h.counted hs hcounted
  | @framed src datagram _ _ _ m hdecode hs hlive hframe =>
    refine h.afterFrame hs hframe fun side hnames => ?_
    by_contra hmove
    rw [not_or] at hmove
    have hmoved : moves table ⟨.datagram src datagram, now⟩ = true := by
      simp only [moves, hdecode, hs, Option.any_some, Bool.and_eq_true, Bool.not_eq_true',
        any_eq_true, decide_eq_true_eq]
      exact ⟨hlive, side, by cases side <;> simp, hnames, hmove⟩
    rw [hmoves] at hmoved
    cases hmoved
  | @returned src _ _ id side _ _ m hdecode hindex hfound hs hreturn =>
    cases hreturn with
    | limited hcounted => exact hpurged.counted hs hcounted
    | @accepted s₁ _ payload hcounted hcounted' =>
      have hlimited := hpurged.counted hs hcounted
      -- the packet came from the address the session has
      obtain ⟨⟨⟩⟩ | ⟨hroute, -⟩ := mem_of_matchReturnRoute hfound
      obtain ⟨t, ht, -, hip⟩ := (hpurged.mem _ _).mp hroute
      rw [hs] at ht
      obtain rfl := Option.some.inj ht
      have hsame : ∀ side', ((s₁.setAddr src side).addr side').ip = (s₁.addr side').ip := by
        intro side'
        obtain ⟨hself, hother⟩ := addr_setAddr s₁ src side
        obtain rfl | rfl := side.eq_or_eq_other side'
        · rw [hself, hcounted.addr]
          exact hip
        · rw [hother]
      have hset := (hlimited.replace getElem?_insert_self
        (senderIndices_setAddr s₁ src side) fun side' => Or.inl (hsame side')).of_insert_insert
      exact (hset.counted getElem?_insert_self hcounted').of_insert_insert

end Calls

def leads (sessions : Sessions) (ip : IpAddr) (route : WireGuardReturnRoute) : Bool :=
  route.sourceIp = ip && (sessions[route.sessionId]?).any fun s => s.targetIsAuthenticated route.sourceSide

lemma matchReturnRoute_eq (sessions : Sessions) (ip : IpAddr)
    (found : Option (RelaySessionId × RelaySessionSide)) (routes : List WireGuardReturnRoute) :
    matchReturnRoute sessions ip found routes =
      match routes.filter (leads sessions ip) with
      | [] => .ok found
      | [route] => if found.isSome then .error .unknownSession
          else .ok (some (route.sessionId, route.sourceSide))
      | _ :: _ :: _ => .error .unknownSession := by
  induction routes generalizing found with
  | nil => rfl
  | cons route rest ih =>
    rw [matchReturnRoute, filter_cons, leads]
    by_cases hip : route.sourceIp = ip
    · rw [if_neg (not_not.mpr hip)]
      cases hs : sessions[route.sessionId]? with
      | none =>
        simp only [Option.any_none, Bool.and_false, Bool.false_eq_true, if_false]
        exact ih found
      | some s =>
        cases hauth : s.targetIsAuthenticated route.sourceSide with
        | false =>
          simp only [Option.any_some, hauth, Bool.and_false, Bool.false_eq_true, if_false, if_true]
          exact ih found
        | true =>
          simp only [hip, Option.any_some, hauth, Bool.and_self, decide_true, if_true,
            Bool.true_eq_false, if_false]
          cases found with
          | some first =>
            cases rest.filter (leads sessions ip) <;> rfl
          | none =>
            rw [ih]
            cases rest.filter (leads sessions ip) with
            | nil => rfl
            | cons second others => cases others <;> rfl
    · rw [if_pos hip]
      simp only [hip, decide_false, Bool.false_and, Bool.false_eq_true, if_false]
      exact ih found

lemma matchReturnRoute_perm {sessions : Sessions} {ip : IpAddr} {routes routes' : List WireGuardReturnRoute}
    (h : routes.Perm routes') :
    matchReturnRoute sessions ip none routes = matchReturnRoute sessions ip none routes' := by
  have hperm := h.filter (leads sessions ip)
  rw [matchReturnRoute_eq, matchReturnRoute_eq]
  generalize routes.filter (leads sessions ip) = l at hperm
  generalize routes'.filter (leads sessions ip) = l' at hperm
  match l, l', hperm.length_eq with
  | [], [], _ => rfl
  | [r], [r'], _ =>
    rw [singleton_perm_singleton] at hperm
    rw [hperm]
  | _ :: _ :: _, _ :: _ :: _, _ => rfl

lemma Indexed.perm {sessions : Sessions} {routes routes' : ReturnRoutes} (h : Indexed sessions routes)
    (h' : Indexed sessions routes') (index : UInt32) :
    (routesAt routes index).Perm (routesAt routes' index) :=
  (perm_ext_iff_of_nodup (h.nodup index) (h'.nodup index)).mpr fun route => by
    rw [h.mem, h'.mem]

lemma forwardReturn_congr {table table' : RelayTable} (hsessions : table'.sessions = table.sessions)
    (h : Indexed table.sessions table.wireguardReturnRoutes)
    (h' : Indexed table.sessions table'.wireguardReturnRoutes) (src : SocketAddr)
    (datagram : List UInt8) (now : Timestamp) :
    (exec (forwardWireguardReturnDatagram src datagram now) table').1 =
        (exec (forwardWireguardReturnDatagram src datagram now) table).1 ∧
      (exec (forwardWireguardReturnDatagram src datagram now) table').2.sessions =
        (exec (forwardWireguardReturnDatagram src datagram now) table).2.sessions := by
  rw [forwardWireguardReturnDatagram]
  cases hindex : wireguardReceiverIndex datagram with
  | none => exact ⟨rfl, hsessions⟩
  | some index =>
    have hpurged : (table'.purgeExpired now).1.sessions = (table.purgeExpired now).1.sessions := by
      rw [purge_sessions, purge_sessions, hsessions]
    have hroutes := (indexed_purge h now).perm
      (hpurged ▸ indexed_purge (hsessions.symm ▸ h' : Indexed table'.sessions _) now) index
    rw [orError, exec_check_bind rfl, exec_modify_bind, exec_get_bind, exec_check_bind rfl,
      exec_modify_bind, exec_get_bind, hpurged, ← matchReturnRoute_perm hroutes]
    cases matchReturnRoute (table.purgeExpired now).1.sessions src.ip none
        (routesAt (table.purgeExpired now).1.wireguardReturnRoutes index) with
    | error error => exact ⟨rfl, hpurged⟩
    | ok found =>
      rw [exec_check_bind rfl, exec_check_bind rfl]
      cases found with
      | none => exact ⟨rfl, hpurged⟩
      | some found =>
        rw [orError, exec_check_bind rfl, exec_check_bind rfl]
        simp only
        rw [exec_onSession, exec_onSession, hpurged]
        cases (table.purgeExpired now).1.sessions[found.1]? with
        | none => exact ⟨rfl, hpurged⟩
        | some s => exact ⟨rfl, rfl⟩

/-! ## Runs -/

def relayed (parseUrl : String → Option ParsedUrl) (calls : List RelayCall) : RelayTable :=
  Runs.exec (relay parseUrl) {} calls

lemma keyed_relayed (parseUrl : String → Option ParsedUrl) (calls : List RelayCall) :
    Keyed (relayed parseUrl calls).sessions :=
  Runs.exec_invariant (fun table : RelayTable => Keyed table.sessions)
    (fun call _ _ h => keyed_relay parseUrl call h) (by rintro id s ⟨⟩)

lemma indexed_relayed (parseUrl : String → Option ParsedUrl) (calls : List RelayCall)
    (hmoves : ∀ before call after, calls = before ++ call :: after →
      moves (relayed parseUrl before) call = false) :
    Indexed (relayed parseUrl calls).sessions (relayed parseUrl calls).wireguardReturnRoutes := by
  induction calls using List.reverseRecOn with
  | nil => exact @indexed_rebuild {} (by rintro id s ⟨⟩)
  | append_singleton calls call ih =>
    have hbefore := ih fun before c after heq =>
      hmoves before c (after ++ [call]) (by rw [heq, append_assoc]; rfl)
    rw [relayed, Runs.exec_append]
    exact indexed_relay parseUrl call (keyed_relayed parseUrl calls) hbefore
      (hmoves calls call [] rfl)

/-- As long as no frame moves a side while the other one has sender indices, the index is the one that would
be built anew, and bare packets are forwarded as they would be then. -/
theorem return_routes_current (parseUrl : String → Option ParsedUrl) (calls : List RelayCall)
    (hmoves : ∀ before call after, calls = before ++ call :: after →
      moves (relayed parseUrl before) call = false) :
    ∀ before after, calls = before ++ after →
      (∀ index, (routesAt (relayed parseUrl before).wireguardReturnRoutes index).Perm
        (routesAt (relayed parseUrl before).rebuildWireguardReturnRoutes.wireguardReturnRoutes index)) ∧
      ∀ src datagram now,
        (exec (forwardWireguardReturnDatagram src datagram now)
            (relayed parseUrl before).rebuildWireguardReturnRoutes).1 =
          (exec (forwardWireguardReturnDatagram src datagram now) (relayed parseUrl before)).1 ∧
        (exec (forwardWireguardReturnDatagram src datagram now)
            (relayed parseUrl before).rebuildWireguardReturnRoutes).2.sessions =
          (exec (forwardWireguardReturnDatagram src datagram now) (relayed parseUrl before)).2.sessions := by
  rintro before after rfl
  have hindexed := indexed_relayed parseUrl before fun first call rest heq =>
    hmoves first call (rest ++ after) (by rw [heq, List.append_assoc]; rfl)
  have hrebuilt := indexed_rebuild hindexed.indices
  exact ⟨hindexed.perm hrebuilt, forwardReturn_congr rfl hindexed hrebuilt⟩

/-- **A pair of nodes has one session**, whichever of them is on its left. -/
theorem one_session_per_pair (parseUrl : String → Option ParsedUrl) (calls : List RelayCall) :
    (relayed parseUrl calls).sessions.toList.Pairwise fun e e' =>
      e'.2.joins e.2.left e.2.right = false := by
  refine distinct_keys_toList.imp_of_mem fun {e e'} he he' hkeys => ?_
  obtain ⟨hid, -⟩ := keyed_relayed parseUrl calls e.1 e.2 (mem_toList_iff_getElem?_eq_some.mp he)
  obtain ⟨hid', -⟩ := keyed_relayed parseUrl calls e'.1 e'.2 (mem_toList_iff_getElem?_eq_some.mp he')
  refine Bool.eq_false_iff.mpr fun hjoins => hkeys (Std.compare_eq_iff_eq.mpr ?_)
  rw [joins, decide_eq_true_eq] at hjoins
  rw [hid, hid']
  rcases hjoins with ⟨hleft, hright⟩ | ⟨hleft, hright⟩
  · rw [hleft, hright]
  · rw [hleft, hright, new_comm]

/-! The right node sends a handshake; then the left node sends a frame, once from another port and once
from another address. -/

namespace SampleRelay

def parseUrl (_ : String) : Option ParsedUrl := some ⟨"https", some (.domain "relay"), some 443⟩

def capability : RelayCapability where
  enabledByPolicy := true
  publicEndpoint := some (.v4 0xcb00710a 51820)
  admissionUrl := some "https://relay"
  maxSessions := 10
  activeSessions := 0
  maxMbps := 10
  e2eOnly := true

def left : NodeId := ⟨"left"⟩

def right : NodeId := ⟨"right"⟩

def addr (host : BitVec 8) (port : UInt16) : SocketAddr := .v4 (0x0a0000#24 ++ host) port

def admitPair : RelayCall where
  op := .admission capability ⟨left, right, addr 1 1000, addr 2 1000, "token", seconds 300⟩
  now := 0

def framed (source destination : NodeId) (payload : List UInt8) : List UInt8 :=
  match encodeRelayDatagramWithRoute "left:right" "token" source destination payload with
  | .ok datagram => datagram
  | .error _ => []

def initiation : List UInt8 := [1, 0, 0, 0, 7, 0, 0, 0] ++ List.replicate 140 0

def handshake : RelayCall := ⟨.datagram (addr 2 1000) (framed right left initiation), 1⟩

def frameFrom (host : BitVec 8) (port : UInt16) (now : Timestamp) : RelayCall :=
  ⟨.datagram (addr host port) (framed left right [0]), now⟩

theorem stale_return_route :
    ([admitPair, handshake, frameFrom 3 1000 2].map RelayCall.now).Pairwise (· ≤ ·) ∧
      ¬∀ index route,
        route ∈ routesAt (relayed parseUrl
            [admitPair, handshake, frameFrom 3 1000 2]).wireguardReturnRoutes index ↔
          route ∈ routesAt (relayed parseUrl
            [admitPair, handshake, frameFrom 3 1000 2]).rebuildWireguardReturnRoutes.wireguardReturnRoutes
              index := by
  refine ⟨by decide, fun h => ?_⟩
  have hold := (h 7 ⟨⟨"left:right"⟩, .left, (addr 1 1000).ip⟩).mp (by decide +kernel)
  exact absurd hold (by decide +kernel)

theorem return_routes_current_rebound :
    (routesAt (relayed parseUrl
        [admitPair, handshake, frameFrom 1 2000 2]).wireguardReturnRoutes 7).Perm
      (routesAt (relayed parseUrl
        [admitPair, handshake, frameFrom 1 2000 2]).rebuildWireguardReturnRoutes.wireguardReturnRoutes
          7) := by
  exact (return_routes_current parseUrl [admitPair, handshake, frameFrom 1 2000 2]
    (Runs.forall_step (by decide +kernel)) [admitPair, handshake, frameFrom 1 2000 2] [] rfl).1 7

end SampleRelay

end HeteroNetwork.Relay
