import HeteroNetwork.Lib.BigEndian
import HeteroNetwork.Lib.OrderedMap
import HeteroNetwork.Lib.Ranking
import HeteroNetwork.Lib.Runs
import HeteroNetwork.Types

/-!
# Public ingress of Kubernetes services

The controller decides which public nodes accept traffic for which service.  No two services may claim the
same port on a node.  Services take their turn by age, and each goes through the nodes in an order of its
own until it has as many as it asks for.
-/

namespace HeteroNetwork

open Std (LawfulEqOrd TransCmp TreeMap)

open OrderedMap Ranking Runs List

namespace Kubernetes

/-! ## Services and nodes -/

inductive TrafficMode where
  | forwarded
  | direct
deriving DecidableEq

structure ServiceKey where
  nameSpace : String
  name : String
deriving DecidableEq

namespace ServiceKey

def toPair (key : ServiceKey) : String ×ₗ String := toLex (key.nameSpace, key.name)

lemma toPair_injective : Function.Injective toPair := by
  rintro ⟨nameSpace, name⟩ ⟨nameSpace', name'⟩ h
  simpa [toPair] using h

instance : LinearOrder ServiceKey := LinearOrder.lift' toPair toPair_injective

instance : LawfulEqOrd ServiceKey := ⟨compare_eq_iff_eq.mp⟩

end ServiceKey

structure PortClaim where
  protocol : String
  port : UInt16
deriving DecidableEq

namespace PortClaim

def toPair (claim : PortClaim) : String ×ₗ ℕ := toLex (claim.protocol, claim.port.toNat)

lemma toPair_injective : Function.Injective toPair := by
  rintro ⟨protocol, port⟩ ⟨protocol', port'⟩ h
  simpa [toPair, UInt16.toNat_inj] using h

instance : LinearOrder PortClaim := LinearOrder.lift' toPair toPair_injective

instance : LawfulEqOrd PortClaim := ⟨compare_eq_iff_eq.mp⟩

end PortClaim

inductive IpFamily where
  | ipv4
  | ipv6
deriving DecidableEq

def IpFamily.of : IpAddr → IpFamily
  | .v4 _ => .ipv4
  | .v6 _ => .ipv6

structure PublicNode where
  name : String
  publicIp : IpAddr
  vpnIp : Option IpAddr
  nodeId : Option String
deriving DecidableEq

structure ManagedService where
  key : ServiceKey
  creationTimestamp : Option String
  mode : TrafficMode
  ingressReplicas : ℕ
  requestedIp : Option IpAddr
  ipFamilies : Finset IpFamily
  ports : List PortClaim
deriving DecidableEq

structure AssignedNode where
  name : String
  publicIp : IpAddr
  vpnIp : Option IpAddr
  nodeId : Option String
deriving DecidableEq

structure ServiceAssignment where
  key : ServiceKey
  nodes : List AssignedNode
  error : Option String
deriving DecidableEq

def PublicNode.assigned (node : PublicNode) : AssignedNode :=
  ⟨node.name, node.publicIp, node.vpnIp, node.nodeId⟩

structure NodeObject where
  name : String
  conditions : List (String × String)
  labels : List (String × String)
  annotations : List (String × String)

def nodeIsReady (node : NodeObject) : Bool :=
  node.conditions.any fun condition => condition.1 = "Ready" && condition.2 = "True"

def nodeOrder : PublicNode → PublicNode → Ordering :=
  compareOn fun node => (node.publicIp, node.name)

instance : TransCmp nodeOrder := inferInstanceAs (TransCmp (compareOn _))

/-- The nodes that take part in public ingress, one for each address.  `parseIp` is
`str::parse::<IpAddr>`. -/
def publicNodes (parseIp : String → Option IpAddr) (nodes : List NodeObject)
    (readyAgentNodes : Finset String) : List PublicNode :=
  let listed := nodes.filterMap fun node => do
    guard (nodeIsReady node ∧ node.name ∈ readyAgentNodes)
    guard ((node.labels.lookup "networking.heteronetwork.io/public-ingress").any (· = "true"))
    guard ((node.annotations.lookup "networking.heteronetwork.io/public-ingress-enabled").all
      (· ≠ "false"))
    let publicIp ← (node.annotations.lookup "networking.heteronetwork.io/public-ip").bind parseIp
    pure { name := node.name
           publicIp
           vpnIp := (node.annotations.lookup "networking.heteronetwork.io/vpn-ip").bind parseIp
           nodeId := node.annotations.lookup "networking.heteronetwork.io/node-id" }
  (sortBy nodeOrder listed).destutter fun left right => left.publicIp ≠ right.publicIp

/-! ## Scores -/

def fnvPrime : UInt64 := 0x00000100000001b3

def fnvOffset : UInt64 := 0xcbf29ce484222325

def updateHash (hash : UInt64) (value : List UInt8) : UInt64 :=
  (BigEndian.toBytes 8 value.length ++ value).foldl
    (fun hash byte => (hash ^^^ byte.toUInt64) * fnvPrime) hash

def stableHash (domain : List UInt8) (values : List (List UInt8)) : UInt64 :=
  values.foldl updateHash (updateHash fnvOffset domain)

def serviceIdentityHash (service : ServiceKey) : UInt64 :=
  stableHash (utf8 "heteronetwork-kubernetes-service-v1")
    [utf8 service.nameSpace, utf8 service.name]

def nodeIdentityHash (displayIp : IpAddr → String) (node : PublicNode) : UInt64 :=
  stableHash (utf8 "heteronetwork-kubernetes-public-node-v1")
    [utf8 node.name, utf8 (displayIp node.publicIp)]

def rendezvousScore (serviceHash nodeHash : UInt64) : UInt64 :=
  let value := serviceHash ^^^ (nodeHash + 0x9e3779b97f4a7c15)
  let value := (value ^^^ (value >>> 30)) * 0xbf58476d1ce4e5b9
  let value := (value ^^^ (value >>> 27)) * 0x94d049bb133111eb
  value ^^^ (value >>> 31)

/-! ## The plan -/

abbrev Used := TreeMap (IpAddr × PortClaim) ServiceKey

def serviceOrder : ManagedService → ManagedService → Ordering :=
  compareOn fun service => (service.creationTimestamp.getD "", service.key)

section Plan

variable (displayIp : IpAddr → String) (nodes : List PublicNode)
  (endpointNodes : TreeMap ServiceKey (Finset String)) (service : ManagedService)

def candidates : List PublicNode :=
  sortBy (byScore
    (fun node => rendezvousScore (serviceIdentityHash service.key) (nodeIdentityHash displayIp node))
    fun node => (node.publicIp, node.name)) nodes

def eligible (node : PublicNode) : Bool :=
  IpFamily.of node.publicIp ∈ service.ipFamilies &&
    service.requestedIp.all (· = node.publicIp) &&
    (service.mode ≠ .direct || endpointNodes[service.key]?.any (node.name ∈ ·))

def conflict (used : Used) (node : PublicNode) : Bool :=
  service.ports.any fun port => used[(node.publicIp, port)]?.any (· ≠ service.key)

def claimPorts (used : Used) (node : PublicNode) : Used :=
  service.ports.foldl (fun used port => used.insert (node.publicIp, port) service.key) used

def assignNodes : List PublicNode → Used → List AssignedNode → List AssignedNode × Used
  | [], used, assigned => (assigned, used)
  | node :: candidates, used, assigned =>
    if !eligible endpointNodes service node then assignNodes candidates used assigned
    else if conflict service used node then assignNodes candidates used assigned
    else
      let used := claimPorts service used node
      let assigned := assigned ++ [node.assigned]
      if service.ingressReplicas ≤ assigned.length then (assigned, used)
      else assignNodes candidates used assigned

def assignmentError (assigned : List AssignedNode) : Option String :=
  if assigned.isEmpty then
    some <| match service.mode with
      | .forwarded => "no healthy public node has all requested Service ports available"
      | .direct => "no healthy public node with a local Ready endpoint has all requested Service " ++
          "ports available"
  else if assigned.length < service.ingressReplicas then
    some s!"assigned {assigned.length} of {service.ingressReplicas} requested ingress nodes"
  else none

def assignService (used : Used) (service : ManagedService) : ServiceAssignment × Used :=
  let (assigned, used) :=
    assignNodes endpointNodes service (candidates displayIp nodes service) used []
  (⟨service.key, assigned, assignmentError service assigned⟩, used)

def planAssignments (services : List ManagedService) : List ServiceAssignment :=
  (trace (assignService displayIp nodes endpointNodes) ∅ (sortBy serviceOrder services)).map Prod.snd

end Plan

/-! ## What a service gets -/

section Turn

variable {displayIp : IpAddr → String} {nodes : List PublicNode}
  {endpointNodes : TreeMap ServiceKey (Finset String)} {service : ManagedService} {used : Used}

variable {node : PublicNode}

lemma eligible_iff :
    eligible endpointNodes service node = true ↔
    IpFamily.of node.publicIp ∈ service.ipFamilies ∧
      (∀ ip, service.requestedIp = some ip → ip = node.publicIp) ∧
      (service.mode = .direct →
        ∃ names, endpointNodes[service.key]? = some names ∧ node.name ∈ names) := by
  simp only [eligible, Bool.and_eq_true, Bool.or_eq_true, decide_eq_true_eq, Option.all_eq_true,
    Option.any_eq_true, and_assoc, ne_eq, imp_iff_not_or]

lemma getElem?_claimPorts {ip : IpAddr} {port : PortClaim} :
    (claimPorts service used node)[(ip, port)]? =
      if node.publicIp = ip ∧ port ∈ service.ports then some service.key else used[(ip, port)]? := by
  unfold claimPorts
  induction service.ports using List.reverseRecOn with
  | nil => simp
  | append_singleton ports last ih =>
    rw [foldl_append, foldl_cons, foldl_nil, TreeMap.getElem?_insert, ih]
    simp only [LawfulEqOrd.compare_eq_iff_eq, Prod.mk.injEq, mem_append, mem_singleton]
    by_cases hip : node.publicIp = ip
    · by_cases hport : last = port
      · simp [hip, hport]
      · simp [hip, hport, Ne.symm hport]
    · simp [hip]

def isOpen (endpointNodes : TreeMap ServiceKey (Finset String)) (service : ManagedService)
    (used : Used) (node : PublicNode) : Bool :=
  eligible endpointNodes service node && !conflict service used node

lemma conflict_eq_true :
    conflict service used node = true ↔
    ∃ port ∈ service.ports, ∃ owner, used[(node.publicIp, port)]? = some owner ∧
      owner ≠ service.key := by
  simp [conflict, Option.any_eq_true]

lemma conflict_eq_false :
    conflict service used node = false ↔
    ∀ port ∈ service.ports, ∀ owner, used[(node.publicIp, port)]? = some owner →
      owner = service.key := by
  rw [← Bool.not_eq_true, conflict_eq_true]
  push Not
  rfl

lemma conflict_claimPorts (hfree : conflict service used node = false) :
    conflict service (claimPorts service used node) = conflict service used := by
  funext other
  rw [Bool.eq_iff_iff, conflict_eq_true, conflict_eq_true]
  refine exists_congr fun port => and_congr_right fun hport => exists_congr fun owner => ?_
  rw [getElem?_claimPorts]
  split_ifs with heq
  · constructor
    · rintro ⟨howner, hne⟩
      exact absurd (Option.some.inj howner).symm hne
    · rintro ⟨howner, hne⟩
      exact absurd (conflict_eq_false.mp hfree port hport owner (heq.1 ▸ howner)) hne
  · rfl

lemma assignNodes_eq (nodes : List PublicNode) (assigned : List AssignedNode) :
    assignNodes endpointNodes service nodes used assigned =
      let chosen := (nodes.filter (isOpen endpointNodes service used)).take
        (max 1 (service.ingressReplicas - assigned.length))
      (assigned ++ chosen.map PublicNode.assigned, chosen.foldl (claimPorts service) used) := by
  induction nodes generalizing used assigned with
  | nil => simp [assignNodes]
  | cons node nodes ih =>
    rw [assignNodes]
    cases heligible : eligible endpointNodes service node with
    | false => simp [ih, isOpen, heligible]
    | true =>
      cases hconflict : conflict service used node with
      | true => simp [ih, isOpen, heligible, hconflict]
      | false =>
        have hopen : isOpen endpointNodes service (claimPorts service used node) =
            isOpen endpointNodes service used := by
          funext other
          rw [isOpen, isOpen, conflict_claimPorts hconflict]
        have hnode : isOpen endpointNodes service used node = true := by
          simp [isOpen, heligible, hconflict]
        rw [filter_cons_of_pos hnode]
        simp only [Bool.not_true, Bool.false_eq_true, if_false, length_append,
          length_singleton, ih, hopen, append_assoc, singleton_append]
        split_ifs with henough
        · have hcount : max 1 (service.ingressReplicas - assigned.length) = 1 := by omega
          simp [hcount]
        · have hcount : max 1 (service.ingressReplicas - assigned.length) =
              max 1 (service.ingressReplicas - (assigned.length + 1)) + 1 := by omega
          simp [hcount]

/-- The nodes that a service takes when the ports in `used` are held. -/
def chosen (displayIp : IpAddr → String) (nodes : List PublicNode)
    (endpointNodes : TreeMap ServiceKey (Finset String)) (used : Used) (service : ManagedService) :
    List PublicNode :=
  ((candidates displayIp nodes service).filter (isOpen endpointNodes service used)).take
    (max 1 service.ingressReplicas)

lemma assignService_eq :
    assignService displayIp nodes endpointNodes used service =
      let assigned := (chosen displayIp nodes endpointNodes used service).map PublicNode.assigned
      (⟨service.key, assigned, assignmentError service assigned⟩,
        (chosen displayIp nodes endpointNodes used service).foldl (claimPorts service) used) := by
  rw [assignService, assignNodes_eq]
  rfl

lemma mem_chosen (h : node ∈ chosen displayIp nodes endpointNodes used service) :
    node ∈ nodes ∧ eligible endpointNodes service node = true ∧ conflict service used node = false := by
  have hmem := mem_filter.mp (mem_of_mem_take h)
  simpa [candidates, isOpen] using hmem

lemma mem_chosen_of_length_lt
    (hlen : (chosen displayIp nodes endpointNodes used service).length < service.ingressReplicas)
    (hnode : node ∈ nodes) (heligible : eligible endpointNodes service node = true)
    (hfree : conflict service used node = false) :
    node ∈ chosen displayIp nodes endpointNodes used service := by
  unfold chosen at hlen ⊢
  rw [length_take] at hlen
  rw [take_of_length_le (by omega), mem_filter]
  exact ⟨by simpa [candidates] using hnode, by simp [isOpen, heligible, hfree]⟩

lemma getElem?_foldl_claimPorts {taken : List PublicNode} {ip : IpAddr} {port : PortClaim} :
    (taken.foldl (claimPorts service) used)[(ip, port)]? =
      if (∃ node ∈ taken, node.publicIp = ip) ∧ port ∈ service.ports then some service.key
      else used[(ip, port)]? := by
  induction taken generalizing used with
  | nil => simp
  | cons node taken ih =>
    rw [foldl_cons, ih, getElem?_claimPorts]
    by_cases hport : port ∈ service.ports
    · by_cases hnode : node.publicIp = ip
      · simp [hport, hnode]
      · simp [hport, hnode]
    · simp [hport]

end Turn

/-- The service of an entry holds the port at the address. -/
def Claims (entry : ManagedService × ServiceAssignment) (ip : IpAddr) (port : PortClaim) : Prop :=
  port ∈ entry.1.ports ∧ ∃ node ∈ entry.2.nodes, node.publicIp = ip

section Run

variable {displayIp : IpAddr → String} {nodes : List PublicNode}
  {endpointNodes : TreeMap ServiceKey (Finset String)} {services : List ManagedService}
  {service : ManagedService} {used : Used}

variable {port : PortClaim} {ip : IpAddr}

lemma claims_assignService :
    Claims (service, (assignService displayIp nodes endpointNodes used service).1) ip port ↔
      (∃ node ∈ chosen displayIp nodes endpointNodes used service, node.publicIp = ip) ∧
        port ∈ service.ports := by
  rw [assignService_eq, Claims, and_comm]
  simp [PublicNode.assigned]

section Keys

variable (hkeys : (services.map ManagedService.key).Nodup)

include hkeys

lemma getElem?_used {owner : ServiceKey} :
    (exec (assignService displayIp nodes endpointNodes) ∅ services)[(ip, port)]? = some owner ↔
      ∃ entry ∈ trace (assignService displayIp nodes endpointNodes) ∅ services,
        entry.1.key = owner ∧ Claims entry ip port := by
  induction services using List.reverseRecOn with
  | nil => simp [trace]
  | append_singleton services last ih =>
    rw [map_append, nodup_append] at hkeys
    have ih := ih hkeys.1
    set used := exec (assignService displayIp nodes endpointNodes) ∅ services with hused
    have hexec : exec (assignService displayIp nodes endpointNodes) ∅ (services ++ [last]) =
        (chosen displayIp nodes endpointNodes used last).foldl (claimPorts last) used := by
      rw [exec_append, exec_cons, exec_nil, ← hused, assignService_eq]
    simp only [hexec, getElem?_foldl_claimPorts, trace_append, ← hused, trace, mem_append,
      mem_singleton, or_and_right, exists_or, exists_eq_left, claims_assignService]
    split_ifs with hlast
    · -- The last service holds the port, so no other one has claimed it before.
      obtain ⟨⟨node, hnode, rfl⟩, hport⟩ := hlast
      have hnone : ∀ entry ∈ trace (assignService displayIp nodes endpointNodes) ∅ services,
          ¬(entry.1.key = owner ∧ Claims entry node.publicIp port) := by
        rintro entry hentry hclaims
        have hsame : owner = last.key :=
          conflict_eq_false.mp (mem_chosen hnode).2.2 port hport owner (ih.mpr ⟨entry, hentry, hclaims⟩)
        refine hkeys.2.2 entry.1.key ?_ last.key (by simp) (hclaims.1.trans hsame)
        exact mem_map_of_mem (fst_mem_of_mem_trace hentry)
      have hnode' : ∃ a ∈ chosen displayIp nodes endpointNodes used last, a.publicIp = node.publicIp :=
        ⟨node, hnode, rfl⟩
      simp only [Option.some.injEq, hnode', hport, and_self, and_true]
      constructor
      · exact .inr
      · rintro (⟨entry, hentry, hclaims⟩ | h)
        · exact absurd hclaims (hnone entry hentry)
        · exact h
    · simp only [hlast, and_false, or_false, ih]

/-! ### The turn of one service in the plan -/

instance : TransCmp serviceOrder := inferInstanceAs (TransCmp (compareOn _))

lemma separates_services : Separates serviceOrder services :=
  .of_nodup (fun _ _ h => congrArg Prod.snd (LawfulEqOrd.eq_of_compare h)) hkeys

lemma nodup_keys_sortBy : ((sortBy serviceOrder services).map ManagedService.key).Nodup :=
  (sortBy_perm.map _).nodup_iff.mpr hkeys

def earlier (services : List ManagedService) (service : ManagedService) : List ManagedService :=
  sortBy serviceOrder (services.filter fun other => serviceOrder other service = .lt)

lemma exists_sortBy_eq (hservice : service ∈ services) :
    ∃ later, sortBy serviceOrder services = earlier services service ++ service :: later ∧
      service ∉ earlier services service ∧ service ∉ later := by
  have hsplit := sortBy_eq_append (separates_services hkeys) hkeys.of_map hservice
  have hnodup := (nodup_keys_sortBy hkeys).of_map
  rw [hsplit, nodup_append, nodup_cons] at hnodup
  refine ⟨_, hsplit, fun h => ?_, hnodup.2.1.1⟩
  exact hnodup.2.2 service h service (by simp) rfl

variable {assignment : ServiceAssignment}

lemma mem_trace_iff (hservice : service ∈ services) :
    (service, assignment) ∈
        trace (assignService displayIp nodes endpointNodes) ∅ (sortBy serviceOrder services) ↔
      assignment = (assignService displayIp nodes endpointNodes
        (exec (assignService displayIp nodes endpointNodes) ∅ (earlier services service)) service).1 := by
  obtain ⟨later, hsplit, hbefore, hafter⟩ := exists_sortBy_eq hkeys hservice
  rw [hsplit]
  exact mem_trace_of_notMem hbefore hafter

lemma mem_planAssignments (hservice : service ∈ services) :
    assignment ∈ planAssignments displayIp nodes endpointNodes services ∧
        assignment.key = service.key ↔
      (service, assignment) ∈
        trace (assignService displayIp nodes endpointNodes) ∅ (sortBy serviceOrder services) := by
  have hkey : ∀ entry ∈ trace (assignService displayIp nodes endpointNodes) ∅
      (sortBy serviceOrder services), entry.2.key = entry.1.key := by
    intro entry hentry
    obtain ⟨before, op, after, -, rfl⟩ := mem_trace.mp hentry
    simp only [assignService_eq]
  constructor
  · rintro ⟨hmem, hassignment⟩
    obtain ⟨⟨other, _⟩, hentry, rfl⟩ := mem_map.mp hmem
    have hother : other ∈ services := mem_sortBy.mp (fst_mem_of_mem_trace hentry)
    obtain rfl : other = service :=
      inj_on_of_nodup_map hkeys hother hservice ((hkey _ hentry).symm.trans hassignment)
    exact hentry
  · intro hentry
    exact ⟨mem_map_of_mem hentry, hkey _ hentry⟩

lemma mem_planAssignments_iff (hservice : service ∈ services) (hkey : assignment.key = service.key) :
    assignment ∈ planAssignments displayIp nodes endpointNodes services ↔
      assignment = (assignService displayIp nodes endpointNodes
        (exec (assignService displayIp nodes endpointNodes) ∅ (earlier services service)) service).1 := by
  rw [← mem_trace_iff hkeys hservice, ← mem_planAssignments hkeys hservice, and_iff_left hkey]

lemma key_eq_of_claims {entry entry' : ManagedService × ServiceAssignment}
    (hentry : entry ∈ trace (assignService displayIp nodes endpointNodes) ∅
      (sortBy serviceOrder services))
    (hentry' : entry' ∈ trace (assignService displayIp nodes endpointNodes) ∅
      (sortBy serviceOrder services)) (hclaims : Claims entry ip port)
    (hclaims' : Claims entry' ip port) : entry.1.key = entry'.1.key := by
  have howner := (getElem?_used (nodup_keys_sortBy hkeys)).mpr ⟨entry, hentry, rfl, hclaims⟩
  have howner' := (getElem?_used (nodup_keys_sortBy hkeys)).mpr ⟨entry', hentry', rfl, hclaims'⟩
  exact Option.some.inj (howner.symm.trans howner')

variable {node : PublicNode}

lemma exists_earlier
    (hservice : service ∈ services) (hconflict : conflict service
      (exec (assignService displayIp nodes endpointNodes) ∅ (earlier services service)) node = true) :
    ∃ entry ∈ trace (assignService displayIp nodes endpointNodes) ∅ (sortBy serviceOrder services),
      entry.1 ∈ services ∧ serviceOrder entry.1 service = .lt ∧
        ∃ port ∈ service.ports, Claims entry node.publicIp port := by
  obtain ⟨port, hport, owner, howner, -⟩ := conflict_eq_true.mp hconflict
  have hearlier : ((earlier services service).map ManagedService.key).Nodup :=
    nodup_keys_sortBy (hkeys.sublist (filter_sublist.map _))
  obtain ⟨entry, hentry, -, hclaims⟩ := (getElem?_used hearlier).mp howner
  obtain ⟨hmem, hlt⟩ := mem_filter.mp (mem_sortBy.mp (fst_mem_of_mem_trace hentry))
  obtain ⟨later, hsplit, -⟩ := exists_sortBy_eq hkeys hservice
  refine ⟨entry, ?_, hmem, of_decide_eq_true hlt, port, hport, hclaims⟩
  rw [hsplit, trace_append]
  exact mem_append_left _ hentry

end Keys

/-! ### Changes of the input -/

lemma separates_nodes (hips : (nodes.map PublicNode.publicIp).Nodup) :
    Separates (byScore
      (fun node => rendezvousScore (serviceIdentityHash service.key) (nodeIdentityHash displayIp node))
      fun node : PublicNode => (node.publicIp, node.name)) nodes :=
  .of_nodup (fun _ _ h => congrArg Prod.fst (key_eq_of_byScore _ _ h)) hips

lemma planAssignments_perm {services' : List ManagedService} {nodes' : List PublicNode}
    (hkeys : (services.map ManagedService.key).Nodup) (hips : (nodes.map PublicNode.publicIp).Nodup)
    (hservices : services'.Perm services) (hnodes : nodes'.Perm nodes) :
    planAssignments displayIp nodes' endpointNodes services' =
      planAssignments displayIp nodes endpointNodes services := by
  have hcandidates : candidates displayIp nodes' = candidates displayIp nodes := by
    funext service
    exact (sortBy_eq_of_perm (separates_nodes hips) hnodes.symm).symm
  have hassign : assignService displayIp nodes' endpointNodes =
      assignService displayIp nodes endpointNodes := by
    funext used service
    rw [assignService, assignService, hcandidates]
  rw [planAssignments, planAssignments, hassign,
    sortBy_eq_of_perm (separates_services hkeys) hservices.symm]

lemma earlier_cons {added : ManagedService} (hlater : serviceOrder service added = .lt) :
    earlier (added :: services) service = earlier services service := by
  have hnot : serviceOrder added service ≠ .lt := fun h => by
    have hself : serviceOrder service service = .eq := Std.ReflCmp.compare_self
    rw [TransCmp.lt_trans hlater h] at hself
    cases hself
  rw [earlier, filter_cons_of_neg (by simpa using hnot), earlier]

lemma chosen_erase (hips : (nodes.map PublicNode.publicIp).Nodup)
    (hnode : node ∉ chosen displayIp nodes endpointNodes used service) :
    chosen displayIp (nodes.erase node) endpointNodes used service =
      chosen displayIp nodes endpointNodes used service := by
  unfold chosen candidates at hnode ⊢
  rw [hips.of_map.erase_eq_filter, sortBy_filter _ (separates_nodes hips), filter_comm]
  refine take_filter fun other hother => ?_
  simpa using fun h : other = node => hnode (h ▸ hother)

lemma planAssignments_erase (hips : (nodes.map PublicNode.publicIp).Nodup)
    (hnode : ∀ assignment ∈ planAssignments displayIp nodes endpointNodes services,
      node.assigned ∉ assignment.nodes) :
    planAssignments displayIp (nodes.erase node) endpointNodes services =
      planAssignments displayIp nodes endpointNodes services := by
  unfold planAssignments
  congr 1
  refine trace_congr fun before service after hsplit => ?_
  rw [assignService_eq, assignService_eq, chosen_erase hips]
  intro hchosen
  refine hnode _ (mem_map_of_mem (mem_trace.mpr ⟨before, service, after, hsplit, rfl⟩)) ?_
  rw [assignService_eq]
  exact mem_map_of_mem hchosen

end Run

namespace SampleIngress

def displayIp : IpAddr → String
  | .v4 bits => s!"v4:{bits.toNat}"
  | .v6 bits => s!"v6:{bits.toNat}"

def nodes : List PublicNode :=
  [⟨"a", .v4 0xcb007101#32, none, none⟩, ⟨"b", .v4 0xcb007102#32, none, none⟩]

def web : ManagedService :=
  ⟨⟨"default", "web"⟩, some "2026-01-01", .forwarded, 1, none, {.ipv4}, [⟨"TCP", 443⟩]⟩

def game : ManagedService :=
  ⟨⟨"default", "game"⟩, some "2026-01-02", .forwarded, 2, none, {.ipv4}, [⟨"TCP", 443⟩]⟩

def plan : List ServiceAssignment :=
  [⟨web.key, [⟨"a", .v4 0xcb007101#32, none, none⟩], none⟩,
    ⟨game.key, [⟨"b", .v4 0xcb007102#32, none, none⟩],
      some "assigned 1 of 2 requested ingress nodes"⟩]

end SampleIngress

end Kubernetes

end HeteroNetwork
