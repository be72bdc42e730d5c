import HeteroNetwork.Lib.OrderedMap

/-!
# Kernel routes of the headless client

A route is keyed by its address and an installed record by its node id, and the routes of an inventory
are added before those of the departed nodes are deleted.
-/

namespace HeteroNetwork.Headless

open List

structure NodeRecord where
  nodeId : String
  vpnIp : BitVec 32
  wireGuardPublicKey : String

def ids (nodes : List NodeRecord) : List String :=
  nodes.map NodeRecord.nodeId

def ips (nodes : List NodeRecord) : List (BitVec 32) :=
  nodes.map NodeRecord.vpnIp

/-- The installed records, and the addresses of the `/32` routes in the table. -/
structure KernelState where
  installed : Std.TreeMap String NodeRecord
  table : Finset (BitVec 32)

/-- A complete inventory as its map is iterated, and an iteration order for the installed records. -/
structure Inventory where
  nodes : List NodeRecord
  order : List (String × NodeRecord) → List (String × NodeRecord)
  nodup_ids : (ids nodes).Nodup
  nodup_ips : (ips nodes).Nodup
  perm : ∀ entries, (order entries).Perm entries

/-- A node of the previous inventory is in the latest one exactly if its address is. -/
def Inventory.Keeps (previous latest : Inventory) : Prop :=
  ∀ record ∈ previous.nodes, (record.vpnIp ∈ ips latest.nodes ↔
    record.nodeId ∈ ids latest.nodes)

namespace KernelState

def new : KernelState := ⟨∅, ∅⟩

/-- The first loop: `ip route replace` unless the record is installed. -/
def add (s : KernelState) (record : NodeRecord) : KernelState :=
  if s.installed[record.nodeId]?.any fun previous =>
      previous.vpnIp = record.vpnIp ∧ previous.wireGuardPublicKey = record.wireGuardPublicKey then s
  else ⟨s.installed.insert record.nodeId record, insert record.vpnIp s.table⟩

/-- The second loop: `ip route delete` unless the node is desired. -/
def remove (desired : List NodeRecord) (s : KernelState) (entry : String × NodeRecord) : KernelState :=
  if entry.1 ∈ ids desired then s
  else ⟨s.installed.erase entry.1, s.table.erase entry.2.vpnIp⟩

/-- One iteration in which every command succeeds. -/
def routes (s : KernelState) (inventory : Inventory) : KernelState :=
  let added := inventory.nodes.foldl add s
  (inventory.order added.installed.toList).foldl (remove inventory.nodes) added

/-- The address that is installed for a node. -/
def address (s : KernelState) (id : String) : Option (BitVec 32) :=
  s.installed[id]?.map NodeRecord.vpnIp

/-- The table has the addresses of the nodes, and their ids are installed with these addresses. -/
structure Follows (s : KernelState) (nodes : List NodeRecord) : Prop where
  table : ∀ ip, ip ∈ s.table ↔ ip ∈ ips nodes
  installed : ∀ id ip, s.address id = some ip ↔ ∃ record ∈ nodes, record.nodeId = id ∧ record.vpnIp = ip

variable {s : KernelState} {nodes : List NodeRecord} {previous : Inventory}

lemma add_spec (hroutes : ∀ id ip, s.address id = some ip → ip ∈ s.table) (record : NodeRecord) :
    (∀ ip, ip ∈ (s.add record).table ↔ ip ∈ s.table ∨ ip = record.vpnIp) ∧
    (s.add record).address record.nodeId = some record.vpnIp ∧
    ∀ id ≠ record.nodeId, (s.add record).address id = s.address id := by
  unfold add
  split
  · rename_i hinstalled
    have hip : s.address record.nodeId = some record.vpnIp := by
      cases hprevious : s.installed[record.nodeId]? <;> simp_all [address]
    exact ⟨fun ip => ⟨.inl, Or.rec id fun h => h ▸ hroutes _ _ hip⟩, hip, fun _ _ => rfl⟩
  · refine ⟨fun ip => by simp [or_comm], by simp [address], fun id hid => ?_⟩
    simp [address, Std.TreeMap.getElem?_insert, Ne.symm hid]

/-- The first loop adds the routes of the nodes and keeps the addresses of the others. -/
lemma foldl_add (hroutes : ∀ id ip, s.address id = some ip → ip ∈ s.table) (hnodup : (ids nodes).Nodup) :
    (∀ ip, ip ∈ (nodes.foldl add s).table ↔ ip ∈ s.table ∨ ip ∈ ips nodes) ∧
    (∀ record ∈ nodes, (nodes.foldl add s).address record.nodeId = some record.vpnIp) ∧
    ∀ id ∉ ids nodes, (nodes.foldl add s).address id = s.address id := by
  induction nodes generalizing s with
  | nil => simp [ips]
  | cons record nodes ih =>
    obtain ⟨hnew, hnodup⟩ := nodup_cons.mp hnodup
    obtain ⟨htable, hrecord, hother⟩ := add_spec hroutes record
    have hroutes' : ∀ id ip, (s.add record).address id = some ip → ip ∈ (s.add record).table := by
      refine fun id ip hip => (htable ip).mpr ?_
      by_cases hid : id = record.nodeId
      · exact .inr (Option.some.inj (hip.symm.trans (hid ▸ hrecord)))
      · exact .inl (hroutes id ip (hother id hid ▸ hip))
    obtain ⟨htables, hrecords, hothers⟩ := ih hroutes' hnodup
    refine ⟨fun ip => ?_, forall_mem_cons.mpr ⟨(hothers _ hnew).trans hrecord, hrecords⟩, fun id hid => ?_⟩
    · simp only [foldl_cons, htables, htable, ips, map_cons, mem_cons, or_assoc]
    · obtain ⟨hid, hids⟩ := not_or.mp fun h => hid (mem_cons.mpr h)
      exact (hothers id hids).trans (hother id hid)

/-- The second loop deletes the routes and the records of the departed nodes. -/
lemma foldl_remove (entries : List (String × NodeRecord)) :
    (∀ ip, ip ∈ (entries.foldl (remove nodes) s).table ↔
      ip ∈ s.table ∧ ∀ entry ∈ entries, entry.1 ∉ ids nodes → entry.2.vpnIp ≠ ip) ∧
    ∀ id ip, (entries.foldl (remove nodes) s).address id = some ip ↔
      s.address id = some ip ∧ (id ∈ ids nodes ∨ id ∉ entries.map Prod.fst) := by
  induction entries generalizing s with
  | nil => simp
  | cons entry entries ih =>
    simp only [foldl_cons, ih, map_cons, mem_cons]
    unfold remove
    split
    · rename_i hdesired
      exact ⟨fun ip => by grind, fun id ip => by grind⟩
    · rename_i hdeparted
      refine ⟨fun ip => by grind, fun id ip => ?_⟩
      by_cases hid : entry.1 = id
      · simp [address, hid, hid ▸ hdeparted]
      · simp [address, Std.TreeMap.getElem?_erase, hid, Ne.symm hid]

/-- An iteration leaves the routes of both inventories but those of departed nodes, and installs the latest. -/
lemma Follows.after_routes (hs : s.Follows nodes) (latest : Inventory) :
    (∀ ip, ip ∈ (s.routes latest).table ↔ (ip ∈ ips nodes ∨ ip ∈ ips latest.nodes) ∧
      ∀ record ∈ nodes, record.nodeId ∉ ids latest.nodes → record.vpnIp ≠ ip) ∧
    ∀ id ip, (s.routes latest).address id = some ip ↔
      ∃ record ∈ latest.nodes, record.nodeId = id ∧ record.vpnIp = ip := by
  have hroutes : ∀ id ip, s.address id = some ip → ip ∈ s.table := fun id ip h => by
    obtain ⟨record, hrecord, -, rfl⟩ := (hs.installed id ip).mp h
    exact (hs.table _).mpr (mem_map_of_mem hrecord)
  obtain ⟨htable, hrecords, hothers⟩ := foldl_add hroutes latest.nodup_ids
  unfold KernelState.routes
  generalize latest.nodes.foldl add s = added at *
  have hentry : ∀ entry, entry ∈ latest.order added.installed.toList ↔ added.installed[entry.1]? = some entry.2 :=
    fun _ => (latest.perm _).mem_iff.trans Std.TreeMap.mem_toList_iff_getElem?_eq_some
  refine ⟨fun ip => ?_, fun id ip => ?_⟩
  · rw [(foldl_remove _).1, htable, hs.table]
    refine and_congr_right fun _ => ⟨fun h record hrecord hid => ?_, fun h entry hmem hid => ?_⟩
    · have haddress := (hothers _ hid).trans ((hs.installed _ _).mpr ⟨record, hrecord, rfl, rfl⟩)
      obtain ⟨installed, hinstalled, hip⟩ := Option.map_eq_some_iff.mp haddress
      exact hip ▸ h (record.nodeId, installed) ((hentry _).mpr hinstalled) hid
    · have haddress := congrArg (Option.map NodeRecord.vpnIp) ((hentry entry).mp hmem)
      obtain ⟨record, hrecord, hname, hip⟩ := (hs.installed _ _).mp ((hothers _ hid).symm.trans haddress)
      exact hip ▸ h record hrecord (hname ▸ hid)
  · rw [(foldl_remove _).2]
    refine ⟨fun ⟨haddress, hkept⟩ => ?_, ?_⟩
    · obtain ⟨installed, hinstalled, -⟩ := Option.map_eq_some_iff.mp haddress
      have hid := hkept.resolve_right (not_not.mpr (mem_map_of_mem ((hentry (id, installed)).mpr hinstalled)))
      obtain ⟨record, hrecord, rfl⟩ := mem_map.mp hid
      exact ⟨record, hrecord, rfl, Option.some.inj ((hrecords record hrecord).symm.trans haddress)⟩
    · rintro ⟨record, hrecord, rfl, rfl⟩
      exact ⟨hrecords record hrecord, .inl (mem_map_of_mem hrecord)⟩

lemma Follows.routes_iff (hs : s.Follows previous.nodes) (latest : Inventory) :
    (s.routes latest).Follows latest.nodes ↔ previous.Keeps latest := by
  obtain ⟨htable, hinstalled⟩ := hs.after_routes latest
  refine ⟨fun h record hrecord => ⟨fun hip => ?_, fun hid => ?_⟩, fun h => ⟨fun ip => ?_, hinstalled⟩⟩
  · by_contra hid
    exact ((htable _).mp ((h.table _).mpr hip)).2 record hrecord hid rfl
  · refine (h.table _).mp ((htable _).mpr ⟨.inl (mem_map_of_mem hrecord), fun other hother hgone heq => ?_⟩)
    exact hgone (inj_on_of_nodup_map previous.nodup_ips hother hrecord heq ▸ hid)
  · rw [htable]
    refine ⟨fun ⟨hip, hkept⟩ => hip.elim (fun hip => ?_) id, fun hip => ⟨.inr hip, fun record hrecord hgone heq => ?_⟩⟩
    · obtain ⟨record, hrecord, rfl⟩ := mem_map.mp hip
      by_contra hlost
      exact hkept record hrecord (fun hid => hlost ((h record hrecord).mpr hid)) rfl
    · exact hgone ((h record hrecord).mp (heq ▸ hip))

lemma Follows.foldl_routes_iff (hs : s.Follows previous.nodes) (inventories : List Inventory) :
    (∀ before latest after, inventories = before ++ latest :: after →
      ((before ++ [latest]).foldl routes s).Follows latest.nodes) ↔
      (previous :: inventories).IsChain Inventory.Keeps := by
  induction inventories generalizing s previous with
  | nil => simp
  | cons inventory inventories ih =>
    rw [isChain_cons_cons, ← hs.routes_iff]
    refine ⟨fun h => ?_, fun ⟨hfirst, hrest⟩ before latest after heq => ?_⟩
    · have hfirst := h [] inventory inventories rfl
      exact ⟨hfirst, (ih hfirst).mp fun before latest after heq => h (inventory :: before) latest after (heq ▸ rfl)⟩
    · cases before with
      | nil => exact (List.cons.inj heq).1 ▸ hfirst
      | cons _ before =>
        obtain ⟨rfl, hlater⟩ := List.cons.inj heq
        exact (ih hfirst).mpr hrest before latest after hlater

/-- **The routes follow every inventory** exactly if, from each one to the next, the addresses that stay are
those of the nodes that stay. -/
theorem kernel_routes_follow_iff (inventories : List Inventory) :
    (∀ before latest after, inventories = before ++ latest :: after →
      ((before ++ [latest]).foldl routes .new).Follows latest.nodes) ↔ inventories.IsChain Inventory.Keeps := by
  have hnew : KernelState.new.Follows (⟨[], id, .nil, .nil, fun _ => .refl _⟩ : Inventory).nodes :=
    ⟨by simp [new, ips], by simp [new, address]⟩
  rw [hnew.foldl_routes_iff, List.isChain_cons]
  exact and_iff_right fun _ _ _ h => nomatch h

end KernelState

def SampleInventory.single (nodeId : String) (vpnIp : BitVec 32) : Inventory :=
  ⟨[⟨nodeId, vpnIp, "key"⟩], id, List.nodup_singleton _, List.nodup_singleton _, fun _ => .refl _⟩

/-- A moved node leaves its old route behind, and the route to a reused address is deleted. -/
theorem SampleInventory.routes_of_moved_and_reused :
    ([single "a" 1, single "a" 2].foldl KernelState.routes .new).table = {1, 2} ∧
    ([single "a" 1, single "b" 1].foldl KernelState.routes .new).table = ∅ := by
  decide +kernel

end HeteroNetwork.Headless
