import BandixPlus.Lib.Maps
import BandixPlus.Net.Text

/-! # The topology

`topology.rs`: the network interfaces of one scan. The fields that nothing modelled here reads, the
role and the parent, are left out.

* `ifindexByName_name`: an interface is found by its name.
* `mem_interfaces`: the interfaces are those that are found by their index. -/

namespace BandixPlus.Monitor.Topology

open BandixPlus.Lib.Maps BandixPlus.Net.Text

structure Interface where
  ifindex : UInt32
  name : String
  /-- The firewall zone, `unknown` if there is none. -/
  zone : String
  ipv4Cidrs : List String
  ipv6Cidrs : List String

/-- `discover` enters each interface under its own index. -/
structure TopologySnapshot where
  entries : HashMap UInt32 Interface
  keyed : ∀ i info, entries.lookup i = some info → info.ifindex = i

namespace TopologySnapshot

def byIfindex (t : TopologySnapshot) (ifindex : UInt32) : Option Interface :=
  t.entries.lookup ifindex

/-- The interfaces in the order of their indices. -/
def interfaces (t : TopologySnapshot) : List Interface :=
  (t.entries.entries.map fun e => e.2).mergeSort fun a b => a.ifindex ≤ b.ifindex

/-- The first interface of this name, in the order in which the map is iterated. -/
def ifindexByName (o : IterOrder) (t : TopologySnapshot) (name : String) : Option UInt32 :=
  let name := trim name
  if name = "" then none
  else ((o.order t.entries.entries).find? fun e => e.2.name = name).map fun e => e.2.ifindex

/-- The topology of some interfaces. -/
def ofInterfaces (l : List Interface) : TopologySnapshot where
  entries := l.foldl (fun m i => m.insert i.ifindex i) ∅
  keyed := by
    refine List.foldlRecOn (motive := fun m : HashMap UInt32 Interface =>
      ∀ i info, m.lookup i = some info → info.ifindex = i) _ _ ?_ fun m hm iface _ i info h => ?_
    · intro i info h
      rw [AList.lookup_empty] at h
      cases h
    · rw [lookup_insert_eq] at h
      split_ifs at h with hi
      · rw [hi, ← Option.some.inj h]
      · exact hm i info h

end TopologySnapshot

/-- **The names of the interfaces are distinct**, not empty and not padded, as the kernel's are. -/
structure NamesOk (t : TopologySnapshot) : Prop where
  distinct : ∀ i j a b, t.byIfindex i = some a → t.byIfindex j = some b → a.name = b.name → i = j
  trimmed : ∀ i a, t.byIfindex i = some a → trim a.name = a.name ∧ a.name ≠ ""

theorem ifindexByName_name {t : TopologySnapshot} (h : NamesOk t) (o : IterOrder) {i : UInt32}
    {info : Interface} (hi : t.byIfindex i = some info) :
    t.ifindexByName o info.name = some i := by
  obtain ⟨htrim, hne⟩ := h.trimmed i info hi
  have hentry : ⟨i, info⟩ ∈ o.order t.entries.entries :=
    (o.perm _).mem_iff.mpr (mem_entries_iff.mpr hi)
  unfold TopologySnapshot.ifindexByName
  rw [htrim, if_neg hne]
  cases hfind : (o.order t.entries.entries).find? fun e => e.2.name = info.name with
  | none =>
    have := List.find?_eq_none.mp hfind _ hentry
    exact absurd (decide_eq_true rfl) this
  | some e =>
    have hname := List.find?_some hfind
    have hmem := mem_entries_iff.mp ((o.perm _).mem_iff.mp (List.mem_of_find?_eq_some hfind))
    have hkey := h.distinct e.1 i e.2 info hmem hi (of_decide_eq_true hname)
    rw [Option.map_some, t.keyed e.1 e.2 hmem, hkey]

/-- An interface that is found has the name that was asked for. -/
theorem byIfindex_of_ifindexByName {t : TopologySnapshot} {o : IterOrder} {name : String} {i : UInt32}
    (h : t.ifindexByName o name = some i) : ∃ info, t.byIfindex i = some info ∧ trim name = info.name := by
  unfold TopologySnapshot.ifindexByName at h
  dsimp only at h
  split_ifs at h
  obtain ⟨e, he, hifindex⟩ := Option.map_eq_some_iff.mp h
  have hname := List.find?_some he
  have hmem := mem_order_iff.mp (List.mem_of_find?_eq_some he)
  have hkey : e.1 = i := (t.keyed e.1 e.2 hmem).symm.trans hifindex
  exact ⟨e.2, hkey ▸ hmem, (of_decide_eq_true hname).symm⟩

theorem mem_interfaces {t : TopologySnapshot} {iface : Interface} :
    iface ∈ t.interfaces ↔ t.byIfindex iface.ifindex = some iface := by
  unfold TopologySnapshot.interfaces TopologySnapshot.byIfindex
  rw [List.mem_mergeSort, List.mem_map]
  constructor
  · rintro ⟨⟨i, iface⟩, he, rfl⟩
    have hi := mem_entries_iff.mp he
    rw [t.keyed i iface hi]
    exact hi
  · exact fun h => ⟨⟨iface.ifindex, iface⟩, mem_entries_iff.mpr h, rfl⟩

end BandixPlus.Monitor.Topology
