import BandixPlus.Lib.LastWins
import BandixPlus.Monitor.Cumulative

/-! # The saved state of the collector

`monitor.rs`, `export_runtime_state`: devices and breakdowns are saved under the names of their
interfaces; a device whose interface is gone is saved under the name that it was last seen on.
`import_runtime_state` finds the interfaces by these names again.

* `bytesUnder_importBreakdown`: the breakdowns of the interfaces come back.
* `restored_iff`: all devices come back, in whatever order the registry is iterated, exactly if no other
  entry of the same MAC address takes the place of one.
* `stale_device_restored`: an interface was created anew, and the old entry of a device wins. -/

namespace BandixPlus.Monitor.RuntimeState

open BandixPlus.Common BandixPlus.Lib.LastWins BandixPlus.Lib.Maps
open BandixPlus.Monitor.Counters BandixPlus.Monitor.Topology BandixPlus.Monitor.Runtime
open BandixPlus.Monitor.Session BandixPlus.Monitor.Cumulative BandixPlus.Net.Text

/-! ### Export -/

/-- The name that a device is saved under. -/
def exportName (topology : TopologySnapshot) (key : DeviceKey) (dev : KnownDevice) : String :=
  ((topology.byIfindex key.1).map Interface.name).getD dev.logicalIface

def exportDevice (topology : TopologySnapshot) (key : DeviceKey) (dev : KnownDevice) :
    PersistedKnownDevice where
  logicalIface := exportName topology key dev
  mac := macToString key.2
  ipv4 := dev.ipv4
  ipv6 := dev.ipv6
  hostname := dev.hostname
  subnet := dev.subnet
  lastSeenMs := dev.lastSeenMs

/-- The order of the saved devices. -/
def persistedLe (a b : PersistedKnownDevice) : Bool :=
  ((compare a.logicalIface b.logicalIface).then (compare a.mac b.mac)).isLE

def exportDevices (o : IterOrder) (topology : TopologySnapshot)
    (registry : HashMap DeviceKey KnownDevice) : List PersistedKnownDevice :=
  ((o.order registry.entries).map fun e => exportDevice topology e.1 e.2).mergeSort persistedLe

/-- Breakdowns of interfaces that are gone, and empty ones, are not saved. -/
def exportEntry (topology : TopologySnapshot) (ifindex : UInt32) (quad : CounterQuad) :
    Option PersistedIfaceBreakdown :=
  match topology.byIfindex ifindex with
  | some iface =>
    if quad.isEmpty then none
    else some { logicalIface := iface.name, cumulative := bytesOnly quad }
  | none => none

def exportBreakdown (o : IterOrder) (topology : TopologySnapshot) (m : HashMap UInt32 CounterQuad) :
    List PersistedIfaceBreakdown :=
  ((o.order m.entries).filterMap fun e => exportEntry topology e.1 e.2).mergeSort
    fun a b => (compare a.logicalIface b.logicalIface).isLE

def exportRuntimeState (o : IterOrder) (topology : TopologySnapshot) (rt : MonitorRuntime) :
    MonitorRuntimeState where
  knownDevices := exportDevices o topology rt.deviceRegistry
  ifaceMcast := exportBreakdown o topology rt.cumulativeMcast
  ifaceBcast := exportBreakdown o topology rt.cumulativeBcast
  ifaceUnresolved := exportBreakdown o topology rt.cumulativeUnresolved

/-! ### Names -/

theorem ifindexByName_eq_some {topology : TopologySnapshot} (h : NamesOk topology) (o : IterOrder)
    (name : String) {i : UInt32} {iface : Interface} (hi : topology.byIfindex i = some iface) :
    topology.ifindexByName o name = some i ↔ trim name = iface.name := by
  have hfind := ifindexByName_name h o hi
  obtain ⟨htrim, hne⟩ := h.trimmed i iface hi
  constructor
  · intro hname
    obtain ⟨info, hinfo, htrimName⟩ := byIfindex_of_ifindexByName hname
    rw [htrimName, Option.some.inj (hinfo.symm.trans hi)]
  · intro hname
    unfold TopologySnapshot.ifindexByName at hfind ⊢
    rw [htrim, if_neg hne] at hfind
    dsimp only
    rw [hname, if_neg hne]
    exact hfind

/-! ### Breakdowns -/

theorem importBreakdown_eq (o : IterOrder) (topology : TopologySnapshot)
    (items : List PersistedIfaceBreakdown) :
    importBreakdown o topology items = insertKeyed
      (fun item => topology.ifindexByName o item.logicalIface)
      (fun _ item => bytesOnly item.cumulative) items := by
  unfold importBreakdown insertKeyed
  refine congrArg (fun f => items.foldl f ∅) (funext fun m => funext fun item => ?_)
  dsimp only
  cases topology.ifindexByName o item.logicalIface <;> rfl

/-- **The breakdown of an interface comes back.** -/
theorem bytesUnder_importBreakdown {topology : TopologySnapshot} (h : NamesOk topology)
    (o o' : IterOrder) (m : HashMap UInt32 CounterQuad) {i : UInt32}
    (hi : (topology.byIfindex i).isSome) :
    bytesUnder (importBreakdown o' topology (exportBreakdown o topology m)) i = bytesUnder m i := by
  obtain ⟨iface, hiface⟩ := Option.isSome_iff_exists.mp hi
  -- what is saved under the name of the interface comes from its own entry
  have hitem : ∀ item, item ∈ (exportBreakdown o topology m).filter (fun item =>
      topology.ifindexByName o' item.logicalIface = some i) ↔
      ∃ quad, m.lookup i = some quad ∧ quad.isEmpty = false ∧
        item = ⟨iface.name, bytesOnly quad⟩ := by
    intro item
    unfold exportBreakdown
    rw [List.mem_filter, List.mem_mergeSort, List.mem_filterMap, decide_eq_true_iff,
      ifindexByName_eq_some h o' _ hiface]
    constructor
    · rintro ⟨⟨e, he, hexport⟩, hname⟩
      have hlookup := mem_order_iff.mp he
      unfold exportEntry at hexport
      split at hexport
      · next iface' hiface' =>
        split_ifs at hexport with hempty
        obtain rfl := Option.some.inj hexport
        have hkey : e.1 = i := h.distinct e.1 i iface' iface hiface' hiface
          ((h.trimmed e.1 iface' hiface').1.symm.trans hname)
        rw [hkey] at hlookup hiface'
        obtain rfl := Option.some.inj (hiface'.symm.trans hiface)
        exact ⟨e.2, hlookup, Bool.eq_false_iff.mpr hempty, rfl⟩
      · cases hexport
    · rintro ⟨quad, hlookup, hempty, rfl⟩
      refine ⟨⟨⟨i, quad⟩, mem_order_iff.mpr hlookup, ?_⟩, (h.trimmed i iface hiface).1⟩
      unfold exportEntry
      dsimp only
      rw [hiface]
      dsimp only
      rw [hempty, if_neg Bool.false_ne_true]
  unfold bytesUnder
  rw [importBreakdown_eq, lookup_insertKeyed]
  cases hlast : ((exportBreakdown o topology m).filter fun item =>
      topology.ifindexByName o' item.logicalIface = some i).getLast? with
  | some item =>
    obtain ⟨quad, hlookup, -, rfl⟩ := (hitem item).mp (List.mem_of_getLast? hlast)
    rw [hlookup]
    rfl
  | none =>
    cases hlookup : m.lookup i with
    | none => rfl
    | some quad =>
      -- an empty entry is not saved, and reads as zero
      have hempty : quad.isEmpty = true := by
        by_contra hne
        have hmem := (hitem ⟨iface.name, bytesOnly quad⟩).mpr
          ⟨quad, hlookup, Bool.eq_false_iff.mpr hne, rfl⟩
        rw [List.getLast?_eq_none_iff.mp hlast] at hmem
        cases hmem
      exact (of_decide_eq_true hempty).1.symm

/-! ### Devices -/

/-- The key that a saved device is restored under. -/
def itemKey (o : IterOrder) (topology : TopologySnapshot) (item : PersistedKnownDevice) :
    Option DeviceKey :=
  match topology.ifindexByName o item.logicalIface, macFromStr item.mac with
  | some ifindex, .ok mac => some (ifindex, mac)
  | _, _ => none

def importDevice (key : DeviceKey) (item : PersistedKnownDevice) : KnownDevice where
  ifindex := key.1
  mac := key.2
  ipv4 := item.ipv4
  ipv6 := item.ipv6
  hostname := item.hostname
  logicalIface := item.logicalIface
  subnet := item.subnet
  lastSeenMs := item.lastSeenMs

theorem foldl_importStep (o : IterOrder) (topology : TopologySnapshot)
    (items : List PersistedKnownDevice) :
    items.foldl (importStep o topology) ∅ = insertKeyed (itemKey o topology) importDevice items := by
  unfold insertKeyed
  refine congrArg (fun f => items.foldl f ∅) (funext fun m => funext fun item => ?_)
  unfold importStep itemKey
  cases topology.ifindexByName o item.logicalIface with
  | none => rfl
  | some ifindex => cases macFromStr item.mac <;> rfl

/-- What is to come back of a device. -/
structure SameDevice (a b : KnownDevice) : Prop where
  ipv4 : b.ipv4 = a.ipv4
  ipv6 : b.ipv6 = a.ipv6
  hostname : b.hostname = a.hostname
  subnet : b.subnet = a.subnet
  lastSeenMs : b.lastSeenMs = a.lastSeenMs

/-- **A rival of a device**: an entry of the same MAC address that is saved under a name of the same
interface. The device is one itself. -/
structure Rival (topology : TopologySnapshot) (registry : HashMap DeviceKey KnownDevice)
    (key : DeviceKey) (name : String) (rival : DeviceKey) (dev : KnownDevice) : Prop where
  entry : registry.lookup rival = some dev
  mac : rival.2 = key.2
  name : trim (exportName topology rival dev) = name

/-- **No device has a rival that differs** and is among the last in the order of the names. -/
def Unrivalled (topology : TopologySnapshot) (registry : HashMap DeviceKey KnownDevice) : Prop :=
  ∀ key dev iface, registry.lookup key = some dev → topology.byIfindex key.1 = some iface →
    ∀ rival dev', Rival topology registry key iface.name rival dev' →
      (∀ other dev'', Rival topology registry key iface.name other dev'' →
        (compare (exportName topology other dev'') (exportName topology rival dev')).isLE) →
      SameDevice dev dev'

/-- Names first, MAC addresses then. -/
def persistedCmp : PersistedKnownDevice → PersistedKnownDevice → Ordering :=
  compareLex (compareOn PersistedKnownDevice.logicalIface) (compareOn PersistedKnownDevice.mac)

theorem persistedLe_eq (a b : PersistedKnownDevice) : persistedLe a b = (persistedCmp a b).isLE := rfl

instance : Std.TransCmp persistedCmp := by
  unfold persistedCmp
  infer_instance

theorem persistedLe_trans (a b c : PersistedKnownDevice) (hab : persistedLe a b = true)
    (hbc : persistedLe b c = true) : persistedLe a c = true := by
  rw [persistedLe_eq] at *
  exact Std.TransCmp.isLE_trans hab hbc

theorem persistedLe_total (a b : PersistedKnownDevice) :
    (persistedLe a b || persistedLe b a) = true := by
  rw [persistedLe_eq, persistedLe_eq, @Std.OrientedCmp.eq_swap _ persistedCmp _ b a]
  cases persistedCmp a b <;> rfl

theorem persistedLe_of_mac {a b : PersistedKnownDevice} (h : a.mac = b.mac) :
    persistedLe a b = (compare a.logicalIface b.logicalIface).isLE := by
  have hmac : compare a.mac b.mac = .eq := by rw [h, Std.ReflOrd.compare_self]
  unfold persistedLe
  rw [hmac, Ordering.then_eq]

theorem lookup_import (o o' : IterOrder) (topology : TopologySnapshot)
    (registry : HashMap DeviceKey KnownDevice) (key : DeviceKey) :
    ((exportDevices o topology registry).foldl (importStep o' topology) ∅).lookup key =
      (((exportDevices o topology registry).filter fun item =>
        itemKey o' topology item = some key).getLast?).map (importDevice key) := by
  rw [foldl_importStep, lookup_insertKeyed]

section Devices
variable {topology : TopologySnapshot} (h : NamesOk topology)
  {registry : HashMap DeviceKey KnownDevice} {key : DeviceKey} {iface : Interface}
  (hiface : topology.byIfindex key.1 = some iface)

include h hiface

theorem itemKey_exportDevice (o : IterOrder) (rival : DeviceKey) (dev : KnownDevice) :
    itemKey o topology (exportDevice topology rival dev) = some key ↔
      rival.2 = key.2 ∧ trim (exportName topology rival dev) = iface.name := by
  have hname : topology.ifindexByName o (exportDevice topology rival dev).logicalIface = some key.1 ↔
      trim (exportName topology rival dev) = iface.name := ifindexByName_eq_some h o _ hiface
  have hmac : macFromStr (exportDevice topology rival dev).mac = .ok rival.2 :=
    macFromStr_macToString rival.2
  unfold itemKey
  rw [hmac, ← hname]
  cases topology.ifindexByName o (exportDevice topology rival dev).logicalIface with
  | none => simp
  | some ifindex => simp [Prod.ext_iff, and_comm]

/-- What is saved for the device is saved for its rivals. -/
theorem mem_exported_iff (o o' : IterOrder) (item : PersistedKnownDevice) :
    (item ∈ (o.order registry.entries).map (fun e => exportDevice topology e.1 e.2) ∧
      itemKey o' topology item = some key) ↔
    ∃ rival dev, Rival topology registry key iface.name rival dev ∧
      item = exportDevice topology rival dev := by
  constructor
  · rintro ⟨hitem, hkey⟩
    obtain ⟨e, he, rfl⟩ := List.mem_map.mp hitem
    obtain ⟨hmac, hname⟩ := (itemKey_exportDevice h hiface o' e.1 e.2).mp hkey
    exact ⟨e.1, e.2, ⟨mem_order_iff.mp he, hmac, hname⟩, rfl⟩
  · rintro ⟨rival, dev, ⟨hentry, hmac, hname⟩, rfl⟩
    exact ⟨List.mem_map.mpr ⟨⟨rival, dev⟩, mem_order_iff.mpr hentry, rfl⟩,
      (itemKey_exportDevice h hiface o' rival dev).mpr ⟨hmac, hname⟩⟩

/-- **What comes back under the key of a device is a rival, one of the last in the order of names.** -/
theorem lookup_import_eq_some {dev : KnownDevice} (hdev : registry.lookup key = some dev)
    (o o' : IterOrder) : ∃ rival dev', Rival topology registry key iface.name rival dev' ∧
      (∀ other dev'', Rival topology registry key iface.name other dev'' →
        (compare (exportName topology other dev'') (exportName topology rival dev')).isLE) ∧
      ((exportDevices o topology registry).foldl (importStep o' topology) ∅).lookup key =
        some (importDevice key (exportDevice topology rival dev')) := by
  have hself : Rival topology registry key iface.name key dev := by
    refine ⟨hdev, rfl, ?_⟩
    unfold exportName
    rw [hiface]
    exact (h.trimmed key.1 iface hiface).1
  let p : PersistedKnownDevice → Bool := fun item => itemKey o' topology item = some key
  have hmem : ∀ rival dev', Rival topology registry key iface.name rival dev' →
      exportDevice topology rival dev' ∈
        (o.order registry.entries).map (fun e => exportDevice topology e.1 e.2) ∧
      p (exportDevice topology rival dev') = true := by
    intro rival dev' hrival
    obtain ⟨hin, hkey⟩ := (mem_exported_iff h hiface o o' _).mpr ⟨rival, dev', hrival, rfl⟩
    exact ⟨hin, decide_eq_true hkey⟩
  obtain ⟨hin, hp⟩ := hmem key dev hself
  have hsorted : exportDevice topology key dev ∈ exportDevices o topology registry :=
    List.mem_mergeSort.mpr hin
  obtain ⟨w, hw⟩ := exists_getLast_filter hsorted hp
  obtain ⟨hwin, hpw, hgreatest⟩ := le_of_getLast persistedLe_trans persistedLe_total hw
  obtain ⟨rival, dev', hrival, rfl⟩ :=
    (mem_exported_iff h hiface o o' w).mp ⟨hwin, of_decide_eq_true hpw⟩
  refine ⟨rival, dev', hrival, fun other dev'' hother => ?_, ?_⟩
  · obtain ⟨hin, hp⟩ := hmem other dev'' hother
    have hle := hgreatest _ hin hp
    rw [persistedLe_of_mac (congrArg macToString (hother.mac.trans hrival.mac.symm))] at hle
    exact hle
  · rw [lookup_import, hw, Option.map_some]

/-- In some order the rival itself comes back. -/
theorem exists_lookup_import {rival : DeviceKey} {dev' : KnownDevice}
    (hrival : Rival topology registry key iface.name rival dev')
    (hmax : ∀ other dev'', Rival topology registry key iface.name other dev'' →
      (compare (exportName topology other dev'') (exportName topology rival dev')).isLE) :
    ∃ o : IterOrder,
      ((exportDevices o topology registry).foldl (importStep .listed topology) ∅).lookup key =
        some (importDevice key (exportDevice topology rival dev')) := by
  obtain ⟨o, init, ho⟩ := exists_order_concat (mem_entries_iff.mpr hrival.entry)
  refine ⟨o, ?_⟩
  have hsplit : (o.order registry.entries).map (fun e => exportDevice topology e.1 e.2) =
      init.map (fun e => exportDevice topology e.1 e.2) ++ [exportDevice topology rival dev'] := by
    rw [ho, List.map_append]
    rfl
  have hkey := ((mem_exported_iff h hiface o .listed _).mpr ⟨rival, dev', hrival, rfl⟩).2
  let p : PersistedKnownDevice → Bool := fun item => itemKey .listed topology item = some key
  have hlast : ((exportDevices o topology registry).filter p).getLast? =
      some (exportDevice topology rival dev') := by
    refine getLast_mergeSort_concat persistedLe_trans persistedLe_total hsplit (decide_eq_true hkey)
      fun item hitem hp => ?_
    obtain ⟨other, dev'', hother, rfl⟩ :=
      (mem_exported_iff h hiface o .listed item).mp ⟨hitem, of_decide_eq_true hp⟩
    rw [persistedLe_of_mac (congrArg macToString (hother.mac.trans hrival.mac.symm))]
    exact hmax other dev'' hother
  rw [lookup_import, hlast, Option.map_some]

end Devices

/-! ### The state that comes back -/

/-- **Everything comes back** of the interfaces in the topology. -/
structure Restored (topology : TopologySnapshot) (rt rt' : MonitorRuntime) : Prop where
  device : ∀ key dev, rt.deviceRegistry.lookup key = some dev → (topology.byIfindex key.1).isSome →
    ∃ dev', rt'.deviceRegistry.lookup key = some dev' ∧ SameDevice dev dev'
  mcast : ∀ i, (topology.byIfindex i).isSome →
    bytesUnder rt'.cumulativeMcast i = bytesUnder rt.cumulativeMcast i
  bcast : ∀ i, (topology.byIfindex i).isSome →
    bytesUnder rt'.cumulativeBcast i = bytesUnder rt.cumulativeBcast i
  unresolved : ∀ i, (topology.byIfindex i).isSome →
    bytesUnder rt'.cumulativeUnresolved i = bytesUnder rt.cumulativeUnresolved i

/-- **The saved state restores everything, in whatever order the maps are iterated, exactly if no device
has a rival that differs.** The breakdowns come back in any case. -/
theorem restored_iff {topology : TopologySnapshot} (h : NamesOk topology) (rt : MonitorRuntime) :
    (∀ o o', Restored topology rt
      (importRuntimeState o' topology .default (exportRuntimeState o topology rt))) ↔
      Unrivalled topology rt.deviceRegistry := by
  constructor
  · intro hall key dev iface hdev hiface rival dev' hrival hmax
    obtain ⟨o, ho⟩ := exists_lookup_import h hiface hrival hmax
    obtain ⟨back, hback, hsame⟩ := (hall o .listed).device key dev hdev
      (Option.isSome_of_eq_some hiface)
    obtain rfl := Option.some.inj (ho.symm.trans hback)
    exact ⟨hsame.ipv4, hsame.ipv6, hsame.hostname, hsame.subnet, hsame.lastSeenMs⟩
  · intro hrivals o o'
    refine ⟨fun key dev hdev hi => ?_, fun i hi => bytesUnder_importBreakdown h o o' _ hi,
      fun i hi => bytesUnder_importBreakdown h o o' _ hi,
      fun i hi => bytesUnder_importBreakdown h o o' _ hi⟩
    obtain ⟨iface, hiface⟩ := Option.isSome_iff_exists.mp hi
    obtain ⟨rival, dev', hrival, hmax, hback⟩ := lookup_import_eq_some h hiface hdev o o'
    obtain ⟨hipv4, hipv6, hhostname, hsubnet, hlastSeen⟩ :=
      hrivals key dev iface hdev hiface rival dev' hrival hmax
    exact ⟨_, hback, ⟨hipv4, hipv6, hhostname, hsubnet, hlastSeen⟩⟩

/-! ### An interface that was created anew -/

def recreatedTopology : TopologySnapshot := .ofInterfaces [⟨7, "br-lan", "lan", [], []⟩]

theorem byIfindex_recreatedTopology {i : UInt32} {iface : Interface}
    (h : recreatedTopology.byIfindex i = some iface) :
    i = 7 ∧ iface = ⟨7, "br-lan", "lan", [], []⟩ := by
  have hlookup : recreatedTopology.byIfindex i =
      if i = 7 then some ⟨7, "br-lan", "lan", [], []⟩ else none := lookup_insert_eq _ _ _ _
  rw [hlookup] at h
  split_ifs at h with hi
  exact ⟨hi, (Option.some.inj h).symm⟩

theorem namesOk_recreatedTopology : NamesOk recreatedTopology := by
  constructor
  · intro i j a b ha hb _
    exact (byIfindex_recreatedTopology ha).1.trans (byIfindex_recreatedTopology hb).1.symm
  · intro i a ha
    obtain ⟨-, rfl⟩ := byIfindex_recreatedTopology ha
    exact ⟨rfl, by decide⟩

def laptop (ifindex : UInt32) (ip : String) (lastSeenMs : UInt64) : KnownDevice :=
  ⟨ifindex, #v[2, 0, 0, 0, 0, 7], [ip], [], "laptop", "br-lan", "192.168.1.0/24", lastSeenMs⟩

def tabletMac : Mac := .replicate 6 0x08

def tablet : KnownDevice := ⟨7, tabletMac, ["192.168.1.21"], [], "tablet", "br-lan", "192.168.1.0/24", 1500⟩

/-- What a guest network showed, that is no more. -/
def guestLaptop : KnownDevice :=
  ⟨2, #v[2, 0, 0, 0, 0, 7], ["192.168.2.20"], [], "guest", "br-guest", "192.168.2.0/24", 1000⟩

/-- Two devices, and one of them as another interface knew it. -/
def laptopRuntime : MonitorRuntime :=
  { MonitorRuntime.default with
    deviceRegistry := (((∅ : HashMap DeviceKey KnownDevice).insert (7, #v[2, 0, 0, 0, 0, 7])
      (laptop 7 "192.168.1.20" 2000)).insert (7, tabletMac) tablet).insert
        (2, #v[2, 0, 0, 0, 0, 7]) guestLaptop }

theorem lookup_laptopRuntime {key : DeviceKey} {dev : KnownDevice}
    (h : laptopRuntime.deviceRegistry.lookup key = some dev) :
    key = (2, #v[2, 0, 0, 0, 0, 7]) ∧ dev = guestLaptop ∨ key = (7, tabletMac) ∧ dev = tablet ∨
      key = (7, #v[2, 0, 0, 0, 0, 7]) ∧ dev = laptop 7 "192.168.1.20" 2000 := by
  unfold laptopRuntime at h
  simp only [lookup_insert_eq, AList.lookup_empty] at h
  split_ifs at h with hguest htablet hlaptop
  · exact Or.inl ⟨hguest, (Option.some.inj h).symm⟩
  · exact Or.inr (Or.inl ⟨htablet, (Option.some.inj h).symm⟩)
  · exact Or.inr (Or.inr ⟨hlaptop, (Option.some.inj h).symm⟩)

/-- **Both devices come back**: under the name of the lost interface there is no rival. -/
theorem restored_iff_laptop : Restored recreatedTopology laptopRuntime
    (importRuntimeState .listed recreatedTopology .default
      (exportRuntimeState .listed recreatedTopology laptopRuntime)) := by
  refine (restored_iff namesOk_recreatedTopology laptopRuntime).mpr ?_ .listed .listed
  intro key dev iface hdev hiface rival dev' hrival _
  obtain ⟨hkey, rfl⟩ := byIfindex_recreatedTopology hiface
  rcases lookup_laptopRuntime hdev with ⟨rfl, -⟩ | ⟨rfl, rfl⟩ | ⟨rfl, rfl⟩
  · exact absurd hkey (by decide)
  · have hmac := hrival.mac
    rcases lookup_laptopRuntime hrival.entry with ⟨rfl, -⟩ | ⟨-, rfl⟩ | ⟨rfl, -⟩
    · exact absurd hmac (by decide)
    · exact ⟨rfl, rfl, rfl, rfl, rfl⟩
    · exact absurd hmac (by decide)
  · have hmac := hrival.mac
    have hname := hrival.name
    rcases lookup_laptopRuntime hrival.entry with ⟨rfl, rfl⟩ | ⟨rfl, -⟩ | ⟨-, rfl⟩
    · exact absurd hname (by decide)
    · exact absurd hmac (by decide)
    · exact ⟨rfl, rfl, rfl, rfl, rfl⟩

/-- The interface had index 2 before, and the entry of that time is still there. -/
def recreatedRuntime : MonitorRuntime :=
  { MonitorRuntime.default with
    deviceRegistry := ((∅ : HashMap DeviceKey KnownDevice).insert (2, #v[2, 0, 0, 0, 0, 7])
      (laptop 2 "192.168.1.10" 1000)).insert (7, #v[2, 0, 0, 0, 0, 7])
      (laptop 7 "192.168.1.20" 2000) }

/-- Both entries are saved under one name, in the order in which they were iterated. -/
theorem exportDevices_recreatedRuntime :
    exportDevices .listed recreatedTopology recreatedRuntime.deviceRegistry =
      [exportDevice recreatedTopology (7, #v[2, 0, 0, 0, 0, 7]) (laptop 7 "192.168.1.20" 2000),
        exportDevice recreatedTopology (2, #v[2, 0, 0, 0, 0, 7]) (laptop 2 "192.168.1.10" 1000)] := by
  refine List.mergeSort_of_pairwise (List.pairwise_pair.mpr ?_)
  exact (persistedLe_of_mac rfl).trans (Std.ReflOrd.isLE_rfl (a := "br-lan"))

theorem itemKey_recreatedRuntime {item : PersistedKnownDevice}
    (h : item ∈ [exportDevice recreatedTopology (7, #v[2, 0, 0, 0, 0, 7])
        (laptop 7 "192.168.1.20" 2000),
      exportDevice recreatedTopology (2, #v[2, 0, 0, 0, 0, 7]) (laptop 2 "192.168.1.10" 1000)]) :
    itemKey .listed recreatedTopology item = some (7, #v[2, 0, 0, 0, 0, 7]) := by
  have hiface : recreatedTopology.byIfindex 7 = some ⟨7, "br-lan", "lan", [], []⟩ := rfl
  rcases List.mem_pair.mp h with rfl | rfl
  · exact (itemKey_exportDevice namesOk_recreatedTopology hiface .listed _ _).mpr ⟨rfl, rfl⟩
  · exact (itemKey_exportDevice namesOk_recreatedTopology hiface .listed _ _).mpr ⟨rfl, rfl⟩

/-- **The old entry of the device comes back**: its address and the time that it was last seen are those
from before the interface was created anew. -/
theorem stale_device_restored :
    let rt' := importRuntimeState .listed recreatedTopology .default
      (exportRuntimeState .listed recreatedTopology recreatedRuntime)
    recreatedRuntime.deviceRegistry.lookup (7, #v[2, 0, 0, 0, 0, 7]) =
        some (laptop 7 "192.168.1.20" 2000) ∧
      rt'.deviceRegistry.lookup (7, #v[2, 0, 0, 0, 0, 7]) =
        some (laptop 7 "192.168.1.10" 1000) := by
  intro rt'
  have hback := lookup_import .listed .listed recreatedTopology recreatedRuntime.deviceRegistry
    (7, #v[2, 0, 0, 0, 0, 7])
  rw [exportDevices_recreatedRuntime, List.filter_eq_self.mpr fun item hitem =>
    decide_eq_true (itemKey_recreatedRuntime hitem), ← exportDevices_recreatedRuntime] at hback
  refine ⟨rfl, hback.trans ?_⟩
  rw [exportDevices_recreatedRuntime]
  rfl

end BandixPlus.Monitor.RuntimeState
