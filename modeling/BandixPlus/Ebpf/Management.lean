import BandixPlus.Ebpf.Counting
import BandixPlus.Net.Addresses
import BandixPlus.Net.Text

/-! # Control-plane packets

The connections to the router itself, to its web interface and to the API, are not counted. Userspace enters
the router's addresses and the ports of these services into two maps of the kernel, when it loads the program
and then every minute (`ebpf/shared.rs`, `sync_traffic_filter_maps`); the kernel looks up the router's end of
each TCP packet in them.

* `syncHashMap_spec`: a map has the desired keys, if there is room for them, whatever it had before.
* `uncounted_iff_management`: in every run, a packet is left out exactly if its end at the router is an
  address of the last topology and a port of these services. -/

namespace BandixPlus.Ebpf.Management

open BandixPlus.Common BandixPlus.Lib.BoundedMap BandixPlus.Lib.Checked BandixPlus.Lib.Maps
open BandixPlus.Ebpf.Counting BandixPlus.Ebpf.DnsFilter BandixPlus.Ebpf.Framing BandixPlus.Dns.Name
open BandixPlus.Monitor.Topology BandixPlus.Net.Addresses BandixPlus.Net.Text

def managementPortsMaxEntries : ℕ := 8

def parseInterfaceAddress (cidr : String) : Option IpAddr := parse (beforeChar (beforeChar cidr '%') '/')

/-- The words of the address, the first one first. -/
def v6Words (ip : BitVec 128) : IpWords :=
  Vector.ofFn fun j => UInt32.ofNat (ip.toNat / 2 ^ (32 * (3 - j.val)))

/-- The address is in the first word. -/
def v4Words (ip : UInt32) : IpWords := Vector.ofFn fun j => if j.val = 0 then ip else 0

def routerIpKey : IpAddr → RouterIpKey
  | .v4 ip => ⟨v4Words ip, 4⟩
  | .v6 ip => ⟨v6Words ip, 6⟩

section Sync
variable {K : Type} [DecidableEq K]

/-- A full map takes no more keys; the first one that it refuses is an error. -/
def insertKeys (cap : ℕ) : List K → HashMap K UInt8 → Bool × HashMap K UInt8
  | [], map => (true, map)
  | key :: keys, map => if Refused cap map key then (false, map) else insertKeys cap keys (map.insert key 1)

/-- The desired keys are those of a set, each of them once. -/
def syncHashMap (cap : ℕ) (o : IterOrder) (desired : List K) (map : HashMap K UInt8) :
    Bool × HashMap K UInt8 :=
  let current := o.order map.keys
  let removed := (current.filter (· ∉ desired)).foldl (fun map key => map.erase key) map
  insertKeys cap ((o.order desired).filter (· ∉ current)) removed

end Sync

def addresses (topology : TopologySnapshot) : List IpAddr :=
  topology.interfaces.flatMap fun iface =>
    (iface.ipv4Cidrs ++ iface.ipv6Cidrs).filterMap parseInterfaceAddress

def routerIps (topology : TopologySnapshot) : List RouterIpKey := ((addresses topology).map routerIpKey).dedup

def managementPorts (apiPort : UInt16) : List UInt16 := [80, 443, apiPort].dedup

/-- An error leaves the ports as they are. -/
def syncTrafficFilterMaps (o : IterOrder) (topology : TopologySnapshot) (apiPort : UInt16) (maps : Maps) :
    Bool × Maps :=
  let (ok, routerLocalIps) := syncHashMap ifaceMaxEntries o (routerIps topology) maps.routerLocalIps
  if !ok then (false, { maps with routerLocalIps })
  else
    let (ok, managementPorts) :=
      syncHashMap managementPortsMaxEntries o (managementPorts apiPort) maps.managementPorts
    (ok, ⟨managementPorts, routerLocalIps⟩)

/-- The program is loaded; an error ends the service. -/
def loadFilters (o : IterOrder) (topology : TopologySnapshot) (apiPort : UInt16) : Option Maps :=
  let (ok, maps) := syncTrafficFilterMaps o topology apiPort ⟨∅, ∅⟩
  if ok then some maps else none

/-- What the collector does every minute; an error is logged. -/
def refresh (apiPort : UInt16) (maps : Maps) (tick : IterOrder × TopologySnapshot) : Maps :=
  (syncTrafficFilterMaps tick.1 tick.2 apiPort maps).2

/-! ### One map -/

section Sync
variable {K : Type} [DecidableEq K] {cap : ℕ} {o : IterOrder} {desired keys : List K} {map : HashMap K UInt8}
  {k : K}

theorem mem_foldl_erase : k ∈ keys.foldl (fun map key => map.erase key) map ↔ k ∈ map ∧ k ∉ keys := by
  induction keys generalizing map with
  | nil => simp
  | cons key keys ih =>
    rw [List.foldl_cons, ih, AList.mem_erase, List.mem_cons]
    tauto

/-- **Keys are entered as long as there is room.** -/
theorem insertKeys_spec (hnodup : keys.Nodup) (hnew : ∀ k ∈ keys, k ∉ map) (hroom : len map ≤ cap) :
    ((insertKeys cap keys map).1 = true ↔ len map + keys.length ≤ cap) ∧
      len (insertKeys cap keys map).2 ≤ cap ∧
      ∀ k, k ∈ (insertKeys cap keys map).2 ↔ k ∈ map ∨ k ∈ keys.take (cap - len map) := by
  induction keys generalizing map with
  | nil => simp [insertKeys, hroom]
  | cons key keys ih =>
    obtain ⟨hkey, hkeys⟩ := List.nodup_cons.mp hnodup
    have hfirst := hnew key List.mem_cons_self
    unfold insertKeys
    by_cases hfull : cap ≤ len map
    · rw [if_pos ⟨hfirst, hfull⟩]
      have hzero : cap - len map = 0 := by omega
      refine ⟨?_, hroom, fun k => by simp [hzero]⟩
      simp only [List.length_cons, Bool.false_eq_true, false_iff]
      omega
    · rw [if_neg fun h => hfull h.2]
      have hlen : len (map.insert key 1) = len map + 1 := by rw [len_insert, if_neg hfirst]
      have hnew' : ∀ k ∈ keys, k ∉ map.insert key 1 := by
        intro k hk hmem
        rcases (AList.mem_insert _).mp hmem with rfl | hmem
        · exact hkey hk
        · exact hnew k (List.mem_cons_of_mem _ hk) hmem
      obtain ⟨hok, hbound, hmem⟩ := ih hkeys hnew' (by omega)
      have htake : cap - len map = cap - len (map.insert key 1) + 1 := by omega
      refine ⟨?_, hbound, fun k => ?_⟩
      · rw [hok, hlen, List.length_cons]
        omega
      · rw [hmem, htake, List.take_succ_cons, List.mem_cons, AList.mem_insert]
        tauto

/-- **The map has the desired keys**, if there is room for them, whatever it had before. If there is not, it
is an error, and the map has no others. -/
theorem syncHashMap_spec (hnodup : desired.Nodup) (hroom : len map ≤ cap) :
    ((syncHashMap cap o desired map).1 = true ↔ desired.length ≤ cap) ∧
      len (syncHashMap cap o desired map).2 ≤ cap ∧
      (∀ k ∈ (syncHashMap cap o desired map).2, k ∈ desired) ∧
      (desired.length ≤ cap → ∀ k ∈ desired, k ∈ (syncHashMap cap o desired map).2) := by
  have hcurrent : ∀ k, k ∈ o.order map.keys ↔ k ∈ map := fun k => (o.perm map.keys).mem_iff
  have horder : ∀ k, k ∈ o.order desired ↔ k ∈ desired := fun k => (o.perm desired).mem_iff
  let old := ((o.order map.keys).filter (· ∉ desired)).foldl (fun map key => map.erase key) map
  let new := (o.order desired).filter (· ∉ o.order map.keys)
  have hold : ∀ k, k ∈ old ↔ k ∈ map ∧ k ∈ desired := by
    intro k
    rw [mem_foldl_erase, List.mem_filter, hcurrent]
    simp only [decide_not, Bool.not_eq_true', decide_eq_false_iff_not]
    tauto
  have hnew : ∀ k, k ∈ new ↔ k ∈ desired ∧ k ∉ map := by
    intro k
    rw [List.mem_filter, horder]
    simp [hcurrent]
  have hnewNodup : new.Nodup := ((o.perm desired).nodup_iff.mpr hnodup).filter _
  -- the keys that are kept and the new ones are the desired ones
  have hperm : (old.keys ++ new).Perm desired := by
    have hdisjoint : old.keys.Disjoint new := fun k hk hk' => ((hnew k).mp hk').2 ((hold k).mp hk).1
    refine (List.perm_ext_iff_of_nodup (old.keys_nodup.append hnewNodup hdisjoint) hnodup).mpr fun k => ?_
    rw [List.mem_append, hnew]
    have hkeys : k ∈ old.keys ↔ k ∈ map ∧ k ∈ desired := hold k
    rw [hkeys]
    tauto
  have hlength : len old + new.length = desired.length := by
    rw [len_eq_keys, ← List.length_append]
    exact hperm.length_eq
  have holdRoom : len old ≤ cap := by
    have hsub : old.keys ⊆ map.keys := fun k hk => ((hold k).mp hk).1
    have hle := (List.subperm_of_subset old.keys_nodup hsub).length_le
    rw [← len_eq_keys, ← len_eq_keys] at hle
    omega
  obtain ⟨hok, hbound, hmem⟩ :=
    insertKeys_spec hnewNodup (fun k hk hmem => ((hnew k).mp hk).2 ((hold k).mp hmem).1) holdRoom
  refine ⟨hok.trans (by rw [hlength]), hbound, fun k hk => ?_, fun hfits k hk => (hmem k).mpr ?_⟩
  · rcases (hmem k).mp hk with hk | hk
    · exact ((hold k).mp hk).2
    · exact ((hnew k).mp (List.mem_of_mem_take hk)).1
  · rw [List.take_of_length_le (by omega), hold, hnew]
    tauto

end Sync

/-! ### Addresses -/

theorem v4Words_eq (ip : UInt32) : v4Words ip = #v[ip, 0, 0, 0] := by
  refine Vector.ext fun j hj => ?_
  unfold v4Words
  rw [Vector.getElem_ofFn]
  rcases j with _ | _ | _ | _ | j
  all_goals first | rfl | omega

theorem v6Words_inj {ip ip' : BitVec 128} (h : v6Words ip = v6Words ip') : ip = ip' := by
  have hword : ∀ j (hj : j < 4),
      ip.toNat / 2 ^ (32 * (3 - j)) % 2 ^ 32 = ip'.toNat / 2 ^ (32 * (3 - j)) % 2 ^ 32 := by
    intro j hj
    have hget := congrArg (fun words : IpWords => (words[j]).toNat) h
    simpa [v6Words] using hget
  have h0 := hword 0 (by omega)
  have h1 := hword 1 (by omega)
  have h2 := hword 2 (by omega)
  have h3 := hword 3 (by omega)
  have hlt := ip.isLt
  have hlt' := ip'.isLt
  refine BitVec.eq_of_toNat_eq ?_
  simp only [Nat.sub_zero, Nat.reduceSub, Nat.reduceMul, Nat.reducePow] at h0 h1 h2 h3 hlt hlt'
  omega

/-- **Different addresses have different keys.** -/
theorem routerIpKey_inj {address address' : IpAddr} (h : routerIpKey address = routerIpKey address') :
    address = address' := by
  rcases address with ip | ip <;> rcases address' with ip' | ip'
  · have hwords : v4Words ip = v4Words ip' := congrArg RouterIpKey.ip h
    have hfirst := congrArg (fun words : IpWords => words[0]) hwords
    simpa [v4Words] using hfirst
  · exact absurd (congrArg RouterIpKey.ipVersion h) (by simp [routerIpKey])
  · exact absurd (congrArg RouterIpKey.ipVersion h) (by simp [routerIpKey])
  · exact congrArg IpAddr.v6 (v6Words_inj (congrArg RouterIpKey.ip h))

theorem mem_routerIps {topology : TopologySnapshot} {address : IpAddr} :
    routerIpKey address ∈ routerIps topology ↔ address ∈ addresses topology := by
  unfold routerIps
  rw [List.mem_dedup, List.mem_map]
  constructor
  · rintro ⟨address', hmem, heq⟩
    exact routerIpKey_inj heq ▸ hmem
  · exact fun hmem => ⟨address, hmem, rfl⟩

/-! ### The router's end of a packet -/

/-- A field of the router's side: on ingress this is the destination. -/
def side (direction : UInt8) (destination source : ℕ) : ℕ :=
  if direction = TrafficDirection.ingress then destination else source

/-- **A TCP header** behind an IPv4 header, in a packet or in its first fragment. -/
structure TcpV4 (frame : Slice) (ipOffset tcpOffset : ℕ) : Prop where
  header : ipOffset + 20 ≤ frame.len
  protocol : frame.byte (ipOffset + 9) = 6
  offset : tcpOffset = ipOffset + (frame.byte ipOffset &&& 0x0f).toNat * 4
  behind : ipOffset + 20 ≤ tcpOffset
  first : u16At frame (ipOffset + 6) &&& 0x1fff = 0
  complete : tcpOffset + 20 ≤ frame.len

/-- **A TCP header** directly behind an IPv6 header. -/
structure TcpV6 (frame : Slice) (ipOffset tcpOffset : ℕ) : Prop where
  header : ipOffset + 40 ≤ frame.len
  protocol : frame.byte (ipOffset + 6) = 6
  offset : tcpOffset = ipOffset + 40
  complete : tcpOffset + 20 ≤ frame.len

def v6At (frame : Slice) (i : ℕ) : BitVec 128 :=
  BitVec.ofNat 128 (ofDigits (2 ^ 32) ((List.range 4).map fun j => (u32At frame (i + 4 * j)).toNat))

/-- **The router's end of a TCP connection**, as the packet has it. -/
def LocalEnd (frame : Slice) (direction ipVersion : UInt8) (ipOffset : ℕ) : IpAddr → UInt16 → Prop
  | .v4 ip, port => ipVersion = IpVersion.v4 ∧ ip = u32At frame (ipOffset + side direction 16 12) ∧
    ∃ tcpOffset, TcpV4 frame ipOffset tcpOffset ∧ port = u16At frame (tcpOffset + side direction 2 0)
  | .v6 ip, port => ipVersion = IpVersion.v6 ∧ ip = v6At frame (ipOffset + side direction 24 8) ∧
    ∃ tcpOffset, TcpV6 frame ipOffset tcpOffset ∧ port = u16At frame (tcpOffset + side direction 2 0)

section Kernel
variable {maps : Maps} {frame : Slice} {direction ipVersion : UInt8} {ethProto : UInt16}
  {offset ipOffset i size : ℕ}

theorem u32At_header (h : i + 4 ≤ size) :
    u32At (frame.cut offset (offset + size)) i = u32At frame (offset + i) := by
  unfold u32At
  rw [Slice.byte_cut (by omega), Slice.byte_cut (by omega), Slice.byte_cut (by omega),
    Slice.byte_cut (by omega)]
  simp only [Nat.add_assoc]

theorem v6Words_v6At : v6Words (v6At frame i) = Vector.ofFn fun j : Fin 4 => u32At frame (i + 4 * j.val) := by
  have h0 := (u32At frame i).toNat_lt
  have h1 := (u32At frame (i + 4)).toNat_lt
  have h2 := (u32At frame (i + 8)).toNat_lt
  have h3 := (u32At frame (i + 12)).toNat_lt
  have hvalue : (v6At frame i).toNat =
      (((u32At frame i).toNat * 2 ^ 32 + (u32At frame (i + 4)).toNat) * 2 ^ 32 +
      (u32At frame (i + 8)).toNat) * 2 ^ 32 + (u32At frame (i + 12)).toNat := by
    unfold v6At
    rw [BitVec.toNat_ofNat]
    have hdigits : ofDigits (2 ^ 32) ((List.range 4).map fun j => (u32At frame (i + 4 * j)).toNat) =
        (((u32At frame i).toNat * 2 ^ 32 + (u32At frame (i + 4)).toNat) * 2 ^ 32 +
          (u32At frame (i + 8)).toNat) * 2 ^ 32 + (u32At frame (i + 12)).toNat := by
      simp [ofDigits, List.range_succ]
    rw [hdigits]
    exact Nat.mod_eq_of_lt (by omega)
  refine Vector.ext fun j hj => ?_
  unfold v6Words
  rw [Vector.getElem_ofFn, Vector.getElem_ofFn]
  refine UInt32.toNat_inj.mp ?_
  rw [UInt32.toNat_ofNat', hvalue]
  rcases j with _ | _ | _ | _ | j
  · simp only [Nat.sub_zero, Nat.reduceMul, Nat.reducePow, Nat.mul_zero, Nat.add_zero] at *
    omega
  · simp only [Nat.zero_add, Nat.reduceSub, Nat.reduceMul, Nat.reducePow] at *
    omega
  · simp only [Nat.zero_add, Nat.reduceAdd, Nat.reduceSub, Nat.reduceMul, Nat.reducePow] at *
    omega
  · simp only [Nat.zero_add, Nat.reduceAdd, Nat.reduceSub, Nat.reduceMul, Nat.reducePow] at *
    omega
  · omega

/-- The local port of a TCP packet is a management port. -/
theorem managementTcp_iff {tcpOffset : ℕ} : managementTcp maps frame direction tcpOffset = true ↔
    tcpOffset + 20 ≤ frame.len ∧ u16At frame (tcpOffset + side direction 2 0) ∈ maps.managementPorts := by
  unfold managementTcp
  rw [ok_ptrAt]
  by_cases hlen : tcpOffset + 20 ≤ frame.len
  · rw [if_pos hlen]
    dsimp only
    rw [u16At_header (by omega), u16At_header (by omega)]
    unfold managementPortMatches side
    rw [decide_eq_true_iff, and_iff_right hlen]
    split_ifs <;> rfl
  · rw [if_neg hlen]
    simp [hlen]

theorem managementIpv4_iff : managementIpv4 maps frame direction offset = true ↔
    ∃ tcpOffset, TcpV4 frame offset tcpOffset ∧
      u16At frame (tcpOffset + side direction 2 0) ∈ maps.managementPorts ∧
      routerIpKey (.v4 (u32At frame (offset + side direction 16 12))) ∈ maps.routerLocalIps := by
  unfold managementIpv4
  rw [ok_ptrAt]
  by_cases hheader : offset + 20 ≤ frame.len
  · rw [if_pos hheader]
    dsimp only
    have hbyte : ∀ j, j < 20 → (frame.cut offset (offset + 20)).byte j = frame.byte (offset + j) :=
      fun j hj => Slice.byte_cut (by omega)
    have hword : ∀ j, j + 4 ≤ 20 → u32At (frame.cut offset (offset + 20)) j = u32At frame (offset + j) :=
      fun j hj => u32At_header hj
    have hfirst : (frame.cut offset (offset + 20)).byte 0 = frame.byte offset := hbyte 0 (by omega)
    rw [hfirst, hbyte 9 (by omega), u16At_header (by omega)]
    simp only [hword 16 (by omega), hword 12 (by omega)]
    have hkey : (⟨#v[if direction = TrafficDirection.ingress then u32At frame (offset + 16)
        else u32At frame (offset + 12), 0, 0, 0], IpVersion.v4⟩ : RouterIpKey) =
        routerIpKey (.v4 (u32At frame (offset + side direction 16 12))) := by
      show _ = (⟨v4Words _, IpVersion.v4⟩ : RouterIpKey)
      rw [v4Words_eq]
      unfold side
      split_ifs <;> rfl
    rw [hkey]
    split_ifs with hprotocol hfirst htcp
    · refine ⟨fun h => by simp at h, ?_⟩
      rintro ⟨tcpOffset, htcp, -, -⟩
      have hbehind := htcp.behind
      rw [htcp.offset] at hbehind
      exact absurd hprotocol (not_or.mpr ⟨not_not.mpr htcp.protocol, by omega⟩)
    · refine ⟨fun h => by simp at h, ?_⟩
      rintro ⟨tcpOffset, htcp, -, -⟩
      exact absurd htcp.first hfirst
    · refine ⟨fun h => by simp at h, ?_⟩
      rintro ⟨tcpOffset, htcp', hport, -⟩
      rw [Bool.not_eq_true', ← Bool.not_eq_true, managementTcp_iff, ← htcp'.offset] at htcp
      exact absurd ⟨htcp'.complete, hport⟩ htcp
    · rw [Bool.not_eq_true', Bool.not_eq_false, managementTcp_iff] at htcp
      obtain ⟨hprotocol, hihl⟩ := not_or.mp hprotocol
      rw [decide_eq_true_iff]
      constructor
      · exact fun hip => ⟨_, ⟨hheader, not_not.mp hprotocol, rfl, by omega,
          not_not.mp hfirst, htcp.1⟩, htcp.2, hip⟩
      · rintro ⟨-, -, -, hip⟩
        exact hip
  · rw [if_neg hheader]
    refine ⟨fun h => absurd h Bool.false_ne_true, ?_⟩
    rintro ⟨tcpOffset, htcp, -, -⟩
    exact absurd htcp.header hheader

theorem managementIpv6_iff : managementIpv6 maps frame direction offset = true ↔
    ∃ tcpOffset, TcpV6 frame offset tcpOffset ∧
      u16At frame (tcpOffset + side direction 2 0) ∈ maps.managementPorts ∧
      routerIpKey (.v6 (v6At frame (offset + side direction 24 8))) ∈ maps.routerLocalIps := by
  unfold managementIpv6
  rw [ok_ptrAt]
  by_cases hheader : offset + 40 ≤ frame.len
  · rw [if_pos hheader]
    dsimp only
    rw [Slice.byte_cut (by omega)]
    have hkey : ∀ words ≤ 24, (⟨Vector.ofFn fun j => u32At (frame.cut offset (offset + 40)) (words + 4 * j.val),
        IpVersion.v6⟩ : RouterIpKey) = routerIpKey (.v6 (v6At frame (offset + words))) := by
      intro words hwords
      show _ = (⟨v6Words _, IpVersion.v6⟩ : RouterIpKey)
      rw [v6Words_v6At]
      refine congrArg₂ RouterIpKey.mk (congrArg Vector.ofFn (funext fun j => ?_)) rfl
      rw [u32At_header (by omega), Nat.add_assoc]
    have hside : (if direction = TrafficDirection.ingress then 24 else 8) = side direction 24 8 := rfl
    have hsmall : side direction 24 8 ≤ 24 := by
      unfold side
      split_ifs <;> omega
    rw [hside, hkey _ hsmall]
    split_ifs with hprotocol htcp
    · refine ⟨fun h => by simp at h, ?_⟩
      rintro ⟨tcpOffset, htcp, -, -⟩
      exact absurd htcp.protocol hprotocol
    · refine ⟨fun h => by simp at h, ?_⟩
      rintro ⟨tcpOffset, htcp', hport, -⟩
      rw [Bool.not_eq_true', ← Bool.not_eq_true, managementTcp_iff, ← htcp'.offset] at htcp
      exact absurd ⟨htcp'.complete, hport⟩ htcp
    · rw [Bool.not_eq_true', Bool.not_eq_false, managementTcp_iff] at htcp
      rw [decide_eq_true_iff]
      constructor
      · exact fun hip => ⟨_, ⟨hheader, not_not.mp hprotocol, rfl, htcp.1⟩, htcp.2, hip⟩
      · rintro ⟨-, -, -, hip⟩
        exact hip
  · rw [if_neg hheader]
    refine ⟨fun h => absurd h Bool.false_ne_true, ?_⟩
    rintro ⟨tcpOffset, htcp, -, -⟩
    exact absurd htcp.header hheader

/-- **A control-plane packet, by the maps**: the router's end is in both. -/
theorem isManagementPacket_iff (h : Carries frame ethProto offset ipVersion ipOffset) :
    isManagementPacket maps frame direction ethProto offset = true ↔
      ∃ address port, LocalEnd frame direction ipVersion ipOffset address port ∧
        port ∈ maps.managementPorts ∧ routerIpKey address ∈ maps.routerLocalIps := by
  have hunwrap : unwrapPppoe frame ethProto offset = some (protocolOf ipVersion, ipOffset) := by
    unfold unwrapPppoe
    cases h with
    | ipv4 h => rw [h]; rfl
    | ipv6 h => rw [h]; rfl
    | pppIpv4 h hlen hproto =>
      rw [if_pos h, ok_ptrAt, if_pos hlen]
      simp only [Option.bind_eq_bind, Option.bind_some]
      rw [u16At_header (by omega), if_pos hproto]
      rfl
    | pppIpv6 h hlen hproto =>
      rw [if_pos h, ok_ptrAt, if_pos hlen]
      simp only [Option.bind_eq_bind, Option.bind_some]
      rw [u16At_header (by omega), if_neg (by rw [hproto]; decide), if_pos hproto]
      rfl
  have hversion : ipVersion = IpVersion.v4 ∨ ipVersion = IpVersion.v6 := by
    cases h with
    | ipv4 | pppIpv4 => exact Or.inl rfl
    | ipv6 | pppIpv6 => exact Or.inr rfl
  unfold isManagementPacket
  rw [hunwrap]
  rcases hversion with rfl | rfl
  · have hipv4 : (if protocolOf IpVersion.v4 = ethPIp then managementIpv4 maps frame direction ipOffset
        else if protocolOf IpVersion.v4 = ethPIpv6 then managementIpv6 maps frame direction ipOffset
        else false) = managementIpv4 maps frame direction ipOffset := if_pos rfl
    dsimp only
    rw [hipv4, managementIpv4_iff]
    constructor
    · rintro ⟨tcpOffset, htcp, hport, hip⟩
      exact ⟨.v4 _, _, ⟨rfl, rfl, tcpOffset, htcp, rfl⟩, hport, hip⟩
    · rintro ⟨ip | ip, port, ⟨hv, rfl, tcpOffset, htcp, rfl⟩, hport, hip⟩
      · exact ⟨tcpOffset, htcp, hport, hip⟩
      · exact absurd hv (by decide)
  · have hipv6 : (if protocolOf IpVersion.v6 = ethPIp then managementIpv4 maps frame direction ipOffset
        else if protocolOf IpVersion.v6 = ethPIpv6 then managementIpv6 maps frame direction ipOffset
        else false) = managementIpv6 maps frame direction ipOffset :=
      (if_neg (by decide)).trans (if_pos rfl)
    dsimp only
    rw [hipv6, managementIpv6_iff]
    constructor
    · rintro ⟨tcpOffset, htcp, hport, hip⟩
      exact ⟨.v6 _, _, ⟨rfl, rfl, tcpOffset, htcp, rfl⟩, hport, hip⟩
    · rintro ⟨ip | ip, port, ⟨hv, rfl, tcpOffset, htcp, rfl⟩, hport, hip⟩
      · exact absurd hv (by decide)
      · exact ⟨tcpOffset, htcp, hport, hip⟩

theorem countedKeys_eq_none_iff (hlen : 14 ≤ frame.len) {n : ℕ} (hn : n ≤ 2)
    (htags : Tags frame (u16At frame 12) 14 n ethProto offset)
    (hcarries : Carries frame ethProto offset ipVersion ipOffset) (tracked : Bool) (ifindex : UInt32) :
    countedKeys maps tracked ifindex frame direction = none ↔
      isManagementPacket maps frame direction ethProto offset = true := by
  unfold countedKeys resolvePacketMeta
  rw [(ethernetVersion_eq_some hlen).mpr ⟨n, hn, ipOffset, htags, hcarries⟩, Option.map_eq_none_iff]
  dsimp only
  split_ifs with h
  · exact ⟨fun _ => h, fun _ => rfl⟩
  · exact ⟨fun hsome => absurd hsome (by simp), fun h' => absurd h' h⟩

end Kernel

/-! ### Runs -/

section Runs
variable {apiPort : UInt16} {maps : Maps}

/-- **The maps of a service**, after an update for the topology. -/
structure Synced (apiPort : UInt16) (topology : TopologySnapshot) (maps : Maps) : Prop where
  ports : ∀ port, port ∈ maps.managementPorts ↔ port = 80 ∨ port = 443 ∨ port = apiPort
  portsRoom : len maps.managementPorts ≤ managementPortsMaxEntries
  ipsRoom : len maps.routerLocalIps ≤ ifaceMaxEntries
  ips : ∀ key ∈ maps.routerLocalIps, key ∈ routerIps topology
  complete : (routerIps topology).length ≤ ifaceMaxEntries →
    ∀ key ∈ routerIps topology, key ∈ maps.routerLocalIps

theorem mem_managementPorts {port : UInt16} :
    port ∈ managementPorts apiPort ↔ port = 80 ∨ port = 443 ∨ port = apiPort := by
  unfold managementPorts
  simp

theorem length_managementPorts_le : (managementPorts apiPort).length ≤ managementPortsMaxEntries :=
  (List.dedup_sublist _).length_le.trans (by decide : 3 ≤ 8)

/-- An update enters what is missing; the ports that are there already are not lost by an error. -/
theorem synced_sync (hports : len maps.managementPorts ≤ managementPortsMaxEntries)
    (hips : len maps.routerLocalIps ≤ ifaceMaxEntries) (o : IterOrder) (topology : TopologySnapshot)
    (h : (syncTrafficFilterMaps o topology apiPort maps).1 = true ∨
      ∀ port, port ∈ maps.managementPorts ↔ port = 80 ∨ port = 443 ∨ port = apiPort) :
    Synced apiPort topology (syncTrafficFilterMaps o topology apiPort maps).2 := by
  obtain ⟨-, hbound, hsub, hall⟩ :=
    @syncHashMap_spec _ _ _ o _ maps.routerLocalIps ((addresses topology).map routerIpKey).nodup_dedup hips
  obtain ⟨-, hbound', hsub', hall'⟩ :=
    @syncHashMap_spec _ _ _ o _ maps.managementPorts ([80, 443, apiPort].nodup_dedup) hports
  revert h
  unfold syncTrafficFilterMaps
  dsimp only
  split_ifs with hok
  · rintro (h | h)
    · simp at h
    · exact ⟨h, hports, hbound, hsub, hall⟩
  · intro _
    refine ⟨fun port => ?_, hbound', hbound, hsub, hall⟩
    rw [← mem_managementPorts]
    exact ⟨hsub' port, hall' length_managementPorts_le port⟩

/-- **The maps are those of the last topology**, in every run. -/
theorem synced_run {o : IterOrder} {topology : TopologySnapshot}
    (hload : loadFilters o topology apiPort = some maps) (ticks : List (IterOrder × TopologySnapshot)) :
    Synced apiPort ((ticks.map Prod.snd).getLastD topology) (ticks.foldl (refresh apiPort) maps) := by
  have hstart : Synced apiPort topology maps := by
    unfold loadFilters at hload
    dsimp only at hload
    split_ifs at hload with hok
    rw [← Option.some.inj hload]
    exact synced_sync (Nat.zero_le _) (Nat.zero_le _) o topology (Or.inl hok)
  clear hload
  induction ticks generalizing topology maps with
  | nil => exact hstart
  | cons tick ticks ih =>
    have hnext := synced_sync hstart.portsRoom hstart.ipsRoom tick.1 tick.2 (Or.inr hstart.ports)
    rw [List.map_cons, List.getLastD_cons, List.foldl_cons]
    exact ih hnext

/-- **A packet to or from the router's services is left out, and no other one**, in every run of updates: a
frame that carries IP is not counted exactly if its end at the router is an address of the last topology and
one of the ports, as long as the addresses fit into the map; and if they do not, no other frame is left out
either. -/
theorem uncounted_iff_management {o : IterOrder} {topology : TopologySnapshot}
    (hload : loadFilters o topology apiPort = some maps) (ticks : List (IterOrder × TopologySnapshot))
    {frame : Slice} (hlen : 14 ≤ frame.len) {ipVersion : UInt8} {ipOffset : ℕ}
    (hip : IsIp frame ipVersion ipOffset) (direction : UInt8) (tracked : Bool) (ifindex : UInt32) :
    let last := (ticks.map Prod.snd).getLastD topology
    let uncounted := countedKeys (ticks.foldl (refresh apiPort) maps) tracked ifindex frame direction = none
    let management := ∃ address port, LocalEnd frame direction ipVersion ipOffset address port ∧
      address ∈ addresses last ∧ (port = 80 ∨ port = 443 ∨ port = apiPort)
    (uncounted → management) ∧ ((routerIps last).length ≤ ifaceMaxEntries → (uncounted ↔ management)) := by
  intro last uncounted management
  obtain ⟨n, hn, ethProto, offset, htags, hcarries⟩ := hip
  have hsynced := synced_run hload ticks
  have huncounted : uncounted ↔ ∃ address port, LocalEnd frame direction ipVersion ipOffset address port ∧
      port ∈ (ticks.foldl (refresh apiPort) maps).managementPorts ∧
      routerIpKey address ∈ (ticks.foldl (refresh apiPort) maps).routerLocalIps :=
    (countedKeys_eq_none_iff hlen hn htags hcarries tracked ifindex).trans (isManagementPacket_iff hcarries)
  have hsound : uncounted → management := by
    intro h
    obtain ⟨address, port, hend, hport, hkey⟩ := huncounted.mp h
    exact ⟨address, port, hend, mem_routerIps.mp (hsynced.ips _ hkey), (hsynced.ports port).mp hport⟩
  refine ⟨hsound, fun hroom => ⟨hsound, ?_⟩⟩
  rintro ⟨address, port, hend, haddress, hport⟩
  exact huncounted.mpr ⟨address, port, hend, (hsynced.ports port).mpr hport,
    hsynced.complete hroom _ (mem_routerIps.mpr haddress)⟩

end Runs

/-- A frame of 192.168.1.20 to the web interface of 192.168.1.1. -/
def webFrame : Slice where
  bytes := [2, 0, 0, 0, 0, 1, 2, 0, 0, 0, 0, 7, 0x08, 0, 0x45, 0, 0, 40, 0, 0, 0x40, 0, 64, 6, 0, 0, 192, 168, 1, 20,
    192, 168, 1, 1, 0xc3, 0x50, 0, 80, 0, 0, 0, 1, 0, 0, 0, 0, 0x50, 2, 0xff, 0xff, 0, 0, 0, 0]
  short := by decide

theorem uncounted_iff_management_web : ∃ maps, loadFilters .listed bridgeOnly 8686 = some maps ∧
    countedKeys maps true 3 webFrame TrafficDirection.ingress = none := by
  have hinterfaces : bridgeOnly.interfaces = [bridgeIface] := List.mergeSort_singleton _
  have haddresses : addresses bridgeOnly = [.v4 0xc0a80101] := by
    unfold addresses
    rw [hinterfaces]
    decide
  have hips : routerIps bridgeOnly = [routerIpKey (.v4 0xc0a80101)] := by
    unfold routerIps
    rw [haddresses]
    rfl
  have hload : (loadFilters .listed bridgeOnly 8686).isSome = true := by
    unfold loadFilters syncTrafficFilterMaps
    rw [hips]
    decide
  obtain ⟨maps, hmaps⟩ := Option.isSome_iff_exists.mp hload
  have hframe : IsIp webFrame IpVersion.v4 14 := ⟨0, by decide, ethPIp, 14, .nil _ _, .ipv4 rfl⟩
  have h := uncounted_iff_management hmaps [] (by decide) hframe TrafficDirection.ingress true 3
  refine ⟨maps, hmaps, (h.2 ?_).mpr ⟨.v4 0xc0a80101, 80, ⟨rfl, by decide, 34, ?_, by decide⟩, ?_, Or.inl rfl⟩⟩
  · show (routerIps bridgeOnly).length ≤ ifaceMaxEntries
    rw [hips]
    decide
  · exact ⟨by decide, by decide, by decide, by decide, by decide, by decide⟩
  · show _ ∈ addresses bridgeOnly
    rw [haddresses]
    exact List.mem_singleton_self _

end BandixPlus.Ebpf.Management
