import BandixPlus.Lib.Bytes
import BandixPlus.Lib.Run
import Mathlib.Logic.Function.Basic

/-! # Files that are replaced

A disk with one directory, as programs see it and as a power cut leaves it. What a program writes is in the
cache until it is synced: after a cut, the bytes of other files are anything. The directory is written in
order, but later: after a cut, it is the current one or an earlier one, back to the last that the file system
has committed. A program that is killed leaves the disk as it is.

A file is replaced by a temporary one: this is created, written in parts, synced and renamed. Programs do
this at the same time, for one file or several.

* `inv_step`: every name of a replaced file, in the directory and in those that may come back, leads to the
  bytes of one replacement, all of them.
* `inv_run`, `mem_saved_of_read`: so a file is read complete, in every run, if no two replacements at a time
  have the same temporary name. -/

namespace BandixPlus.Lib.CrashDisk

open BandixPlus.Lib.Bytes BandixPlus.Lib.Run

structure Node where
  bytes : List UInt8
  synced : Bool

/-- Nodes by their number, and a directory from names to numbers. -/
structure Disk (N : Type) where
  node : ℕ → Node
  dir : N → Option ℕ
  /-- The earlier directories that a power cut may bring back. -/
  past : List (N → Option ℕ)
  /-- No node from here on is in use. -/
  next : ℕ

/-- The calls of a program; it writes into the file that it has created. -/
inductive Op (N : Type) where
  | create (n : N)
  | write (bytes : List UInt8)
  | sync
  | rename (a b : N)

/-- An open file: its node, and where the next write goes. -/
structure Handle where
  node : ℕ
  off : ℕ

variable {N : Type}

namespace Disk

def empty : Disk N := ⟨fun _ => ⟨[], false⟩, fun _ => none, [], 0⟩

def read (d : Disk N) (n : N) : Option (List UInt8) := (d.dir n).map fun i => (d.node i).bytes

/-- A new directory. -/
def redirect (d : Disk N) (dir : N → Option ℕ) : Disk N := { d with dir, past := d.dir :: d.past }

/-- A file that exists is truncated. -/
def create [DecidableEq N] (d : Disk N) (n : N) : Disk N :=
  match d.dir n with
  | some i => { d with node := Function.update d.node i ⟨[], false⟩ }
  | none =>
    { d.redirect (Function.update d.dir n (some d.next)) with
      node := Function.update d.node d.next ⟨[], false⟩
      next := d.next + 1 }

def change (d : Disk N) (i : ℕ) (f : Node → Node) : Disk N :=
  { d with node := Function.update d.node i (f (d.node i)) }

def rename [DecidableEq N] (d : Disk N) (a b : N) : Disk N :=
  match d.dir a with
  | some i => d.redirect (Function.update (Function.update d.dir b (some i)) a none)
  | none => d

end Disk

def Op.run [DecidableEq N] (d : Disk N) (file : Handle) : Op N → Disk N × Handle
  | .create n => (d.create n, ⟨(d.dir n).getD d.next, 0⟩)
  | .write bytes =>
    (d.change file.node fun node => ⟨writeAt node.bytes file.off bytes, false⟩,
      ⟨file.node, file.off + bytes.length⟩)
  | .sync => (d.change file.node fun node => ⟨node.bytes, true⟩, file)
  | .rename a b => (d.rename a b, file)

/-- The calls that replace a file. -/
def replaceOps (tmp path : N) (parts : List (List UInt8)) : List (Op N) :=
  .create tmp :: (parts.map Op.write ++ [.sync, .rename tmp path])

/-! ### Programs -/

/-- A program that replaces a file, with the calls that it has still to make. -/
structure Writer (N : Type) where
  tmp : N
  path : N
  payload : List UInt8
  file : Handle
  todo : List (Op N)

structure System (N : Type) where
  disk : Disk N
  writers : List (Writer N)
  /-- What files were to be replaced by. -/
  saved : List (N × List UInt8)

inductive Action (N : Type) where
  | start (tmp path : N) (parts : List (List UInt8))
  /-- The program at `i` makes its next call. -/
  | call (i : ℕ)
  /-- It gives up. -/
  | fail (i : ℕ)
  /-- The file system commits the directory. -/
  | commit
  /-- All programs are killed. -/
  | kill
  /-- The power is cut: the directory is that at `k`, and files that were not synced are `junk`. -/
  | powerCut (k : ℕ) (junk : ℕ → List UInt8)

def Disk.commit (d : Disk N) : Disk N := { d with past := [] }

/-- What a power cut leaves. -/
def Disk.cut (d : Disk N) (k : ℕ) (junk : ℕ → List UInt8) : Disk N where
  node := fun i => if (d.node i).synced then d.node i else ⟨junk i, true⟩
  dir := (d.dir :: d.past).getD k d.dir
  past := []
  next := d.next

def step [DecidableEq N] (s : System N) : Action N → System N
  | .start tmp path parts =>
    { s with
      writers := s.writers ++ [⟨tmp, path, parts.flatten, ⟨0, 0⟩, replaceOps tmp path parts⟩]
      saved := (path, parts.flatten) :: s.saved }
  | .call i =>
    match s.writers[i]? with
    | some ⟨tmp, path, payload, file, op :: todo⟩ =>
      let (disk, file) := op.run s.disk file
      { s with disk, writers := s.writers.set i ⟨tmp, path, payload, file, todo⟩ }
    | _ => s
  | .fail i => { s with writers := s.writers.modify i fun w => { w with todo := [] } }
  | .commit => { s with disk := s.disk.commit }
  | .kill => { s with writers := [] }
  | .powerCut k junk => { s with disk := s.disk.cut k junk, writers := [] }

/-- **The condition on a step**: a program starts with a temporary name that no other one is using. -/
def Meets (temp : N → Prop) (s : System N) : Action N → Prop
  | .start tmp path _ => temp tmp ∧ ¬ temp path ∧ ∀ w ∈ s.writers, w.todo ≠ [] → w.tmp ≠ tmp
  | _ => True

/-! ### The disk -/

/-- **The directories lead to complete files**: the current one, and those that may come back. -/
structure DiskInv (temp : N → Prop) (saved : List (N × List UInt8)) (d : Disk N) : Prop where
  fresh : ∀ D ∈ d.dir :: d.past, ∀ n i, D n = some i → i < d.next
  inj : ∀ D ∈ d.dir :: d.past, ∀ a b i, D a = some i → D b = some i → a = b
  complete : ∀ D ∈ d.dir :: d.past, ∀ p, ¬ temp p → ∀ i, D p = some i →
    (d.node i).synced = true ∧ (p, (d.node i).bytes) ∈ saved
  /-- What has a temporary name now is not a replaced file, nor was it. -/
  apart : ∀ D ∈ d.dir :: d.past, ∀ t, temp t → ∀ p, ¬ temp p → ∀ i, d.dir t = some i → D p ≠ some i

/-- The file is there, also after a power cut. -/
def Kept (d : Disk N) (p : N) : Prop := ∀ D ∈ d.dir :: d.past, D p ≠ none

/-- Nothing but the file `t` changes, for those who use other temporary names, and no other file is lost. -/
structure Frame (temp : N → Prop) (t : N) (d d' : Disk N) : Prop where
  dir : ∀ n, temp n → n ≠ t → d'.dir n = d.dir n
  node : ∀ n, temp n → n ≠ t → ∀ i, d.dir n = some i → d'.node i = d.node i
  kept : ∀ n, n ≠ t → Kept d n → Kept d' n

section
variable {temp : N → Prop} {saved : List (N × List UInt8)} {d : Disk N} {t p : N}

theorem diskInv_empty : DiskInv temp saved (.empty : Disk N) := by
  have hdir : ∀ D ∈ (Disk.empty : Disk N).dir :: (Disk.empty : Disk N).past, ∀ n, D n = none := by
    intro D hD n
    rw [List.mem_singleton.mp hD]
    rfl
  refine ⟨fun D hD n i hi => ?_, fun D hD a b i hi => ?_,
    fun D hD p _ i hi => ?_, fun D hD t _ p _ i _ hi => ?_⟩
  all_goals rw [hdir D hD] at hi; cases hi

theorem DiskInv.mono (h : DiskInv temp saved d) {saved' : List (N × List UInt8)} (hsub : saved ⊆ saved') :
    DiskInv temp saved' d :=
  ⟨h.fresh, h.inj, fun D hD p hp i hi => ⟨(h.complete D hD p hp i hi).1, hsub (h.complete D hD p hp i hi).2⟩,
    h.apart⟩

/-- **A temporary file may change in any way.** -/
theorem diskInv_update (h : DiskInv temp saved d) (ht : temp t) {i : ℕ} (hi : d.dir t = some i)
    (node : Node) :
    DiskInv temp saved { d with node := Function.update d.node i node } := by
  refine ⟨h.fresh, h.inj, fun D hD p hp j hj => ?_, h.apart⟩
  have hne : j ≠ i := by
    rintro rfl
    exact h.apart D hD t ht p hp j hi hj
  dsimp only
  rw [Function.update_of_ne hne]
  exact h.complete D hD p hp j hj

theorem frame_update (h : DiskInv temp saved d) {i : ℕ} (hi : d.dir t = some i) (node : Node) :
    Frame temp t d { d with node := Function.update d.node i node } := by
  refine ⟨fun n _ _ => rfl, fun n _ hne j hj => ?_, fun n _ hkept => hkept⟩
  have hji : j ≠ i := by
    rintro rfl
    exact hne (h.inj _ List.mem_cons_self n t j hj hi)
  exact Function.update_of_ne hji _ _

end

section
variable [DecidableEq N] {temp : N → Prop} {saved : List (N × List UInt8)} {d : Disk N} {t p : N}

/-- **A temporary file is created**, or an old one of this name is truncated. -/
theorem diskInv_create (h : DiskInv temp saved d) (ht : temp t) : DiskInv temp saved (d.create t) := by
  unfold Disk.create
  cases hi : d.dir t with
  | some i => exact diskInv_update h ht hi _
  | none =>
    show DiskInv temp saved ⟨Function.update d.node d.next ⟨[], false⟩,
      Function.update d.dir t (some d.next), d.dir :: d.past, d.next + 1⟩
    have hnew : ∀ n i, Function.update d.dir t (some d.next) n = some i →
        (n = t ∧ i = d.next) ∨ d.dir n = some i := by
      intro n i hn
      by_cases hnt : n = t
      · subst hnt
        rw [Function.update_self] at hn
        exact Or.inl ⟨rfl, (Option.some.inj hn).symm⟩
      · rw [Function.update_of_ne hnt] at hn
        exact Or.inr hn
    have hunused : ∀ D ∈ d.dir :: d.past, ∀ n, D n ≠ some d.next := fun D hD n hn =>
      Nat.lt_irrefl _ (h.fresh D hD n d.next hn)
    -- a replaced file leads where it led in some directory before
    have hold : ∀ D ∈ Function.update d.dir t (some d.next) :: d.dir :: d.past, ∀ p, ¬ temp p → ∀ i,
        D p = some i → ∃ D' ∈ d.dir :: d.past, D' p = some i := by
      intro D hD p hp i hpi
      rcases List.mem_cons.mp hD with rfl | hD
      · rcases hnew p i hpi with ⟨rfl, -⟩ | hpi
        · exact absurd ht hp
        · exact ⟨_, List.mem_cons_self, hpi⟩
      · exact ⟨D, hD, hpi⟩
    refine ⟨fun D hD n i hn => ?_, fun D hD a b i ha hb => ?_, fun D hD p hp i hpi => ?_,
      fun D hD u hu p hp i hui hpi => ?_⟩
    · rcases List.mem_cons.mp hD with rfl | hD
      · rcases hnew n i hn with ⟨-, rfl⟩ | hn
        · exact Nat.lt_succ_self _
        · exact Nat.lt_succ_of_lt (h.fresh _ List.mem_cons_self n i hn)
      · exact Nat.lt_succ_of_lt (h.fresh D hD n i hn)
    · rcases List.mem_cons.mp hD with rfl | hD
      · rcases hnew a i ha with ⟨rfl, rfl⟩ | hai <;> rcases hnew b _ hb with ⟨rfl, hbi⟩ | hbi
        · rfl
        · exact absurd hbi (hunused _ List.mem_cons_self b)
        · exact absurd (hbi ▸ hai) (hunused _ List.mem_cons_self a)
        · exact h.inj _ List.mem_cons_self a b i hai hbi
      · exact h.inj D hD a b i ha hb
    · obtain ⟨D', hD', hpi'⟩ := hold D hD p hp i hpi
      have hne : i ≠ d.next := fun hi' => hunused D' hD' p (hi' ▸ hpi')
      dsimp only
      rw [Function.update_of_ne hne]
      exact h.complete D' hD' p hp i hpi'
    · obtain ⟨D', hD', hpi'⟩ := hold D hD p hp i hpi
      rcases hnew u i hui with ⟨-, rfl⟩ | hui
      · exact hunused D' hD' p hpi'
      · exact h.apart D' hD' u hu p hp i hui hpi'

theorem frame_create (h : DiskInv temp saved d) : Frame temp t d (d.create t) := by
  unfold Disk.create
  cases hi : d.dir t with
  | some i => exact frame_update h hi _
  | none =>
    refine ⟨fun n _ hne => Function.update_of_ne hne _ _, fun n _ _ j hj => ?_, fun n hne hkept D hD => ?_⟩
    · exact Function.update_of_ne (Nat.ne_of_lt (h.fresh _ List.mem_cons_self n j hj)) _ _
    · rcases List.mem_cons.mp hD with rfl | hD
      · show Function.update d.dir t (some d.next) n ≠ none
        rw [Function.update_of_ne hne]
        exact hkept _ List.mem_cons_self
      · exact hkept D hD

/-- **A synced temporary file takes the place of a file.** -/
theorem diskInv_rename (h : DiskInv temp saved d) (ht : temp t) (hp : ¬ temp p) {i : ℕ}
    (hi : d.dir t = some i) (hsynced : (d.node i).synced = true) (hsaved : (p, (d.node i).bytes) ∈ saved) :
    DiskInv temp saved (d.rename t p) := by
  unfold Disk.rename
  rw [hi]
  show DiskInv temp saved ⟨d.node, Function.update (Function.update d.dir p (some i)) t none, d.dir :: d.past,
    d.next⟩
  have hnew : ∀ n j, Function.update (Function.update d.dir p (some i)) t none n = some j →
      n ≠ t ∧ (n = p ∧ j = i ∨ n ≠ p ∧ d.dir n = some j) := by
    intro n j hn
    by_cases hnt : n = t
    · subst hnt
      rw [Function.update_self] at hn
      cases hn
    · rw [Function.update_of_ne hnt] at hn
      refine ⟨hnt, ?_⟩
      by_cases hnp : n = p
      · subst hnp
        rw [Function.update_self] at hn
        exact Or.inl ⟨rfl, (Option.some.inj hn).symm⟩
      · rw [Function.update_of_ne hnp] at hn
        exact Or.inr ⟨hnp, hn⟩
  refine ⟨fun D hD n j hn => ?_, fun D hD a b j ha hb => ?_, fun D hD q hq j hqj => ?_,
    fun D hD u hu q hq j huj hqj => ?_⟩
  · rcases List.mem_cons.mp hD with rfl | hD
    · rcases hnew n j hn with ⟨-, ⟨-, rfl⟩ | ⟨-, hn⟩⟩
      · exact h.fresh _ List.mem_cons_self t _ hi
      · exact h.fresh _ List.mem_cons_self n j hn
    · exact h.fresh D hD n j hn
  · rcases List.mem_cons.mp hD with rfl | hD
    · obtain ⟨hat, hai⟩ := hnew a j ha
      obtain ⟨hbt, hbi⟩ := hnew b j hb
      rcases hai with ⟨rfl, rfl⟩ | ⟨-, hai⟩ <;> rcases hbi with ⟨rfl, hbi⟩ | ⟨-, hbi⟩
      · rfl
      · exact absurd (h.inj _ List.mem_cons_self b t _ hbi hi) hbt
      · exact absurd (h.inj _ List.mem_cons_self a t _ (hbi ▸ hai) hi) hat
      · exact h.inj _ List.mem_cons_self a b j hai hbi
    · exact h.inj D hD a b j ha hb
  · rcases List.mem_cons.mp hD with rfl | hD
    · rcases hnew q j hqj with ⟨-, ⟨rfl, rfl⟩ | ⟨-, hqj⟩⟩
      · exact ⟨hsynced, hsaved⟩
      · exact h.complete _ List.mem_cons_self q hq j hqj
    · exact h.complete D hD q hq j hqj
  · obtain ⟨hut, huj⟩ := hnew u j huj
    have huj' : d.dir u = some j := huj.elim (fun hup => absurd (hup.1 ▸ hu) hp) fun huj => huj.2
    rcases List.mem_cons.mp hD with rfl | hD
    · rcases hnew q j hqj with ⟨-, ⟨-, rfl⟩ | ⟨-, hqj⟩⟩
      · exact hut (h.inj _ List.mem_cons_self u t _ huj' hi)
      · exact h.apart _ List.mem_cons_self u hu q hq j huj' hqj
    · exact h.apart D hD u hu q hq j huj' hqj

theorem frame_rename (hp : ¬ temp p) : Frame temp t d (d.rename t p) := by
  unfold Disk.rename
  cases d.dir t with
  | none => exact ⟨fun _ _ _ => rfl, fun _ _ _ _ _ => rfl, fun _ _ hkept => hkept⟩
  | some i =>
    refine ⟨fun n hn hne => ?_, fun _ _ _ _ _ => rfl, fun n hne hkept D hD => ?_⟩
    · have hnp : n ≠ p := fun heq => hp (heq ▸ hn)
      show Function.update (Function.update d.dir p (some i)) t none n = _
      rw [Function.update_of_ne hne, Function.update_of_ne hnp]
    · rcases List.mem_cons.mp hD with rfl | hD
      · show Function.update (Function.update d.dir p (some i)) t none n ≠ none
        rw [Function.update_of_ne hne]
        by_cases hnp : n = p
        · subst hnp
          rw [Function.update_self]
          exact Option.some_ne_none i
        · rw [Function.update_of_ne hnp]
          exact hkept _ List.mem_cons_self
      · exact hkept D hD

end

section
variable {temp : N → Prop} {saved : List (N × List UInt8)} {d : Disk N}

theorem kept_commit_of_read {p : N} {bytes : List UInt8} (h : d.read p = some bytes) : Kept d.commit p := by
  intro D hD
  obtain rfl : D = d.dir := List.mem_singleton.mp hD
  obtain ⟨i, hi, -⟩ := Option.map_eq_some_iff.mp h
  rw [hi]
  exact Option.some_ne_none i

theorem Kept.commit {p : N} (h : Kept d p) : Kept d.commit p := fun D hD =>
  h D (List.mem_singleton.mp hD ▸ List.mem_cons_self)

theorem getD_mem_dirs (d : Disk N) (k : ℕ) : (d.dir :: d.past).getD k d.dir ∈ d.dir :: d.past := by
  rw [List.getD_eq_getElem?_getD]
  cases hk : (d.dir :: d.past)[k]? with
  | none => exact List.mem_cons_self
  | some D => exact List.mem_of_getElem? hk

theorem Kept.cut {p : N} (h : Kept d p) (k : ℕ) (junk : ℕ → List UInt8) : Kept (d.cut k junk) p :=
  fun _ hD => List.mem_singleton.mp hD ▸ h _ (getD_mem_dirs d k)

theorem Kept.read {p : N} (h : Kept d p) : d.read p ≠ none := by
  unfold Disk.read
  rw [Ne, Option.map_eq_none_iff]
  exact h _ List.mem_cons_self

theorem diskInv_commit (h : DiskInv temp saved d) : DiskInv temp saved d.commit := by
  have hsub : ∀ D ∈ [d.dir], D ∈ d.dir :: d.past := fun D hD =>
    List.mem_singleton.mp hD ▸ List.mem_cons_self
  exact ⟨fun D hD => h.fresh D (hsub D hD), fun D hD => h.inj D (hsub D hD),
    fun D hD => h.complete D (hsub D hD), fun D hD => h.apart D (hsub D hD)⟩

/-- **A power cut leaves complete files.** -/
theorem diskInv_cut (h : DiskInv temp saved d) (k : ℕ) (junk : ℕ → List UInt8) :
    DiskInv temp saved (d.cut k junk) := by
  have hmem := getD_mem_dirs d k
  have hsub : ∀ D ∈ (d.cut k junk).dir :: (d.cut k junk).past, D = (d.dir :: d.past).getD k d.dir := by
    intro D hD
    exact List.mem_singleton.mp hD
  refine ⟨fun D hD n i hn => ?_, fun D hD a b i ha hb => ?_, fun D hD p hp i hpi => ?_,
    fun D hD t ht p hp i hti hpi => ?_⟩
  · rw [hsub D hD] at hn
    exact h.fresh _ hmem n i hn
  · rw [hsub D hD] at ha hb
    exact h.inj _ hmem a b i ha hb
  · rw [hsub D hD] at hpi
    have hcomplete := h.complete _ hmem p hp i hpi
    have hnode : (d.cut k junk).node i = d.node i := if_pos hcomplete.1
    rw [hnode]
    exact hcomplete
  · rw [hsub D hD] at hpi
    exact hp (h.inj _ hmem t p i hti hpi ▸ ht)

end

/-! ### The programs -/

/-- **How far a program is**: what it has written and what it has still to write are the payload. -/
inductive Phase (d : Disk N) (t p : N) (payload : List UInt8) : Handle → List (Op N) → Prop
  | begun {file : Handle} {parts : List (List UInt8)} (h : parts.flatten = payload) :
      Phase d t p payload file (replaceOps t p parts)
  | writing {i : ℕ} {parts : List (List UInt8)} (hdir : d.dir t = some i)
      (h : (d.node i).bytes ++ parts.flatten = payload) :
      Phase d t p payload ⟨i, (d.node i).bytes.length⟩ (parts.map Op.write ++ [.sync, .rename t p])
  | synced {file : Handle} {i : ℕ} (hdir : d.dir t = some i) (h : d.node i = ⟨payload, true⟩) :
      Phase d t p payload file [.rename t p]
  | done {file : Handle} : Phase d t p payload file []

/-- A program does not notice what happens to other files. -/
theorem Phase.congr {d d' : Disk N} {t p : N} {payload : List UInt8} {file : Handle} {todo : List (Op N)}
    (h : Phase d t p payload file todo) (hdir : d'.dir t = d.dir t)
    (hnode : ∀ i, d.dir t = some i → d'.node i = d.node i) : Phase d' t p payload file todo := by
  cases h with
  | begun h => exact .begun h
  | writing hi h =>
    rw [← hnode _ hi] at h ⊢
    exact .writing (hdir.trans hi) h
  | synced hi h => exact .synced (hdir.trans hi) (by rw [hnode _ hi]; exact h)
  | done => exact .done

structure WriterInv (temp : N → Prop) (saved : List (N × List UInt8)) (d : Disk N) (w : Writer N) : Prop where
  temp_tmp : temp w.tmp
  not_temp_path : ¬ temp w.path
  mem_saved : (w.path, w.payload) ∈ saved
  phase : Phase d w.tmp w.path w.payload w.file w.todo

structure Inv (temp : N → Prop) (s : System N) : Prop where
  disk : DiskInv temp s.saved s.disk
  writers : ∀ w ∈ s.writers, WriterInv temp s.saved s.disk w
  distinct : ∀ (i j : ℕ) (w w' : Writer N), s.writers[i]? = some w → s.writers[j]? = some w' → i ≠ j →
    w.todo ≠ [] → w'.todo ≠ [] → w.tmp ≠ w'.tmp

theorem writeAt_length (bytes data : List UInt8) : writeAt bytes bytes.length data = bytes ++ data := by
  rw [writeAt_eq le_rfl, List.take_length, List.drop_eq_nil_of_le (Nat.le_add_right _ _), List.append_nil]

/-- **One call of a program** keeps the disk in order, brings the program forward and touches no other
file. -/
theorem call_spec [DecidableEq N] {temp : N → Prop} {saved : List (N × List UInt8)} {d : Disk N} {t p : N}
    {payload : List UInt8} {file : Handle} {op : Op N} {todo : List (Op N)} (h : DiskInv temp saved d)
    (hw : WriterInv temp saved d ⟨t, p, payload, file, op :: todo⟩) :
    DiskInv temp saved (op.run d file).1 ∧
      WriterInv temp saved (op.run d file).1 ⟨t, p, payload, (op.run d file).2, todo⟩ ∧
      Frame temp t d (op.run d file).1 := by
  obtain ⟨htemp, hp, hsaved, hphase⟩ := hw
  have ht : temp t := htemp
  have hwriter : ∀ {d' : Disk N} {file' : Handle}, Phase d' t p payload file' todo →
      WriterInv temp saved d' ⟨t, p, payload, file', todo⟩ := fun hphase => ⟨ht, hp, hsaved, hphase⟩
  have hcalls : Phase d t p payload file (op :: todo) := hphase
  generalize hall : op :: todo = calls at hcalls
  cases hcalls with
  | begun hparts =>
    obtain ⟨rfl, rfl⟩ := List.cons.inj hall
    refine ⟨diskInv_create h ht, hwriter ?_, frame_create h⟩
    have hdir : (d.create t).dir t = some ((d.dir t).getD d.next) := by
      unfold Disk.create
      cases hi : d.dir t with
      | some i => exact hi
      | none => exact Function.update_self _ _ _
    have hnode : (d.create t).node ((d.dir t).getD d.next) = ⟨[], false⟩ := by
      unfold Disk.create
      cases hi : d.dir t with
      | some i => exact Function.update_self _ _ _
      | none => exact Function.update_self _ _ _
    have hwriting := @Phase.writing N (d.create t) t p payload _ _ hdir (by rw [hnode]; exact hparts)
    rw [hnode] at hwriting
    exact hwriting
  | @writing i parts hdir hbytes =>
    cases parts with
    | nil =>
      obtain ⟨rfl, rfl⟩ := List.cons.inj hall
      refine ⟨diskInv_update h ht hdir _, hwriter (.synced hdir ?_), frame_update h hdir _⟩
      have hall : (d.node i).bytes = payload := by simpa using hbytes
      rw [← hall]
      exact Function.update_self _ _ _
    | cons part parts =>
      obtain ⟨rfl, rfl⟩ := List.cons.inj hall
      refine ⟨diskInv_update h ht hdir _, hwriter ?_, frame_update h hdir _⟩
      let d' := d.change i fun node => ⟨writeAt node.bytes (d.node i).bytes.length part, false⟩
      have hnode : (d'.node i).bytes = (d.node i).bytes ++ part :=
        (congrArg Node.bytes (Function.update_self _ _ _)).trans (writeAt_length _ _)
      have hwriting := @Phase.writing N d' t p payload i parts hdir (by rw [hnode]; simpa using hbytes)
      rw [hnode, List.length_append] at hwriting
      exact hwriting
  | synced hdir hnode =>
    obtain ⟨rfl, rfl⟩ := List.cons.inj hall
    exact ⟨diskInv_rename h ht hp hdir (by rw [hnode]) (by rw [hnode]; exact hsaved), hwriter .done,
      frame_rename hp⟩
  | done => cases hall

section
variable [DecidableEq N] {temp : N → Prop} {s : System N}

theorem inv_start (h : Inv temp s) {tmp path : N} {parts : List (List UInt8)}
    (hmeets : Meets temp s (.start tmp path parts)) : Inv temp (step s (.start tmp path parts)) := by
  obtain ⟨htmp, hpath, hfree⟩ := hmeets
  refine ⟨h.disk.mono (List.subset_cons_self _ _), fun w hw => ?_, fun i j w w' hi hj hne hw hw' => ?_⟩
  · rcases List.mem_append.mp hw with hw | hw
    · obtain ⟨ht, hp, hsaved, hphase⟩ := h.writers w hw
      exact ⟨ht, hp, List.mem_cons_of_mem _ hsaved, hphase⟩
    · obtain rfl := List.mem_singleton.mp hw
      exact ⟨htmp, hpath, List.mem_cons_self, .begun rfl⟩
  · have hold : ∀ (k : ℕ) (w : Writer N),
        (s.writers ++ [⟨tmp, path, parts.flatten, ⟨0, 0⟩, replaceOps tmp path parts⟩])[k]? = some w →
        s.writers[k]? = some w ∨ k = s.writers.length ∧ w.tmp = tmp := by
      intro k w hk
      rcases Nat.lt_trichotomy k s.writers.length with hlt | rfl | hgt
      · rw [List.getElem?_append_left hlt] at hk
        exact Or.inl hk
      · rw [List.getElem?_concat_length] at hk
        exact Or.inr ⟨rfl, Option.some.inj hk ▸ rfl⟩
      · rw [List.getElem?_eq_none (by simp; omega)] at hk
        cases hk
    rcases hold i w hi with hi | ⟨hi, hwi⟩ <;> rcases hold j w' hj with hj | ⟨hj, hwj⟩
    · exact h.distinct i j w w' hi hj hne hw hw'
    · rw [hwj]
      exact hfree w (List.mem_of_getElem? hi) hw
    · rw [hwi]
      exact Ne.symm (hfree w' (List.mem_of_getElem? hj) hw')
    · omega

omit [DecidableEq N] in
/-- Programs that go on with the same names keep these apart. -/
theorem distinct_of_shorter (h : Inv temp s) {writers : List (Writer N)}
    (hshorter : ∀ (i : ℕ) (w : Writer N), writers[i]? = some w → w.todo ≠ [] →
      ∃ w', s.writers[i]? = some w' ∧ w'.tmp = w.tmp ∧ w'.todo ≠ []) (i j : ℕ) (w w' : Writer N)
    (hi : writers[i]? = some w) (hj : writers[j]? = some w') (hne : i ≠ j) (hw : w.todo ≠ [])
    (hw' : w'.todo ≠ []) : w.tmp ≠ w'.tmp := by
  obtain ⟨v, hv, htmp, hvtodo⟩ := hshorter i w hi hw
  obtain ⟨v', hv', htmp', hvtodo'⟩ := hshorter j w' hj hw'
  rw [← htmp, ← htmp']
  exact h.distinct i j v v' hv hv' hne hvtodo hvtodo'

theorem inv_call (h : Inv temp s) (i : ℕ) : Inv temp (step s (.call i)) := by
  unfold step
  dsimp only
  split
  · next tmp path payload file op todo hi =>
    have hw := h.writers _ (List.mem_of_getElem? hi)
    obtain ⟨hdisk, hwriter, hframe⟩ := call_spec h.disk hw
    have hlookup : ∀ (j : ℕ) (w : Writer N),
        (s.writers.set i ⟨tmp, path, payload, (op.run s.disk file).2, todo⟩)[j]? = some w →
        j = i ∧ w = ⟨tmp, path, payload, (op.run s.disk file).2, todo⟩ ∨ j ≠ i ∧ s.writers[j]? = some w := by
      intro j w hj
      by_cases hji : j = i
      · subst hji
        rw [List.getElem?_set_self (List.getElem?_eq_some_iff.mp hi).1] at hj
        exact Or.inl ⟨rfl, (Option.some.inj hj).symm⟩
      · rw [List.getElem?_set_ne (Ne.symm hji)] at hj
        exact Or.inr ⟨hji, hj⟩
    refine ⟨hdisk, fun w hmem => ?_, distinct_of_shorter h fun j w hj hw => ?_⟩
    · obtain ⟨j, hj⟩ := List.mem_iff_getElem?.mp hmem
      rcases hlookup j w hj with ⟨-, rfl⟩ | ⟨hji, hj⟩
      · exact hwriter
      · obtain ⟨ht, hp, hsaved, hphase⟩ := h.writers w (List.mem_of_getElem? hj)
        refine ⟨ht, hp, hsaved, ?_⟩
        by_cases hdone : w.todo = []
        · rw [hdone]
          exact .done
        · have hne : w.tmp ≠ tmp := h.distinct j i _ _ hj hi hji hdone (List.cons_ne_nil _ _)
          exact hphase.congr (hframe.dir _ ht hne) (hframe.node _ ht hne)
    · rcases hlookup j w hj with ⟨rfl, rfl⟩ | ⟨-, hj⟩
      · exact ⟨_, hi, rfl, List.cons_ne_nil _ _⟩
      · exact ⟨w, hj, rfl, hw⟩
  · exact h

theorem inv_fail (h : Inv temp s) (i : ℕ) : Inv temp (step s (.fail i)) := by
  have hlookup : ∀ (j : ℕ) (w : Writer N), (s.writers.modify i fun w => { w with todo := [] })[j]? = some w →
      s.writers[j]? = some w ∨ w.todo = [] ∧
        ∃ w', s.writers[j]? = some w' ∧ w' = { w with todo := w'.todo } := by
    intro j w hj
    rw [List.getElem?_modify] at hj
    obtain ⟨w', hw', heq⟩ := Option.map_eq_some_iff.mp hj
    split_ifs at heq
    · subst heq
      exact Or.inr ⟨rfl, w', hw', rfl⟩
    · subst heq
      exact Or.inl hw'
  refine ⟨h.disk, fun w hmem => ?_, distinct_of_shorter h fun j w hj hw => ?_⟩
  · obtain ⟨j, hj⟩ := List.mem_iff_getElem?.mp hmem
    rcases hlookup j w hj with hj | ⟨hdone, w', hw', heq⟩
    · exact h.writers w (List.mem_of_getElem? hj)
    · obtain ⟨ht, hp, hsaved, -⟩ := h.writers w' (List.mem_of_getElem? hw')
      rw [heq] at ht hp hsaved
      refine ⟨ht, hp, hsaved, ?_⟩
      rw [hdone]
      exact .done
  · rcases hlookup j w hj with hj | ⟨hdone, -⟩
    · exact ⟨w, hj, rfl, hw⟩
    · exact absurd hdone hw

/-- **One step keeps the invariant.** -/
theorem inv_step (h : Inv temp s) {a : Action N} (hmeets : Meets temp s a) : Inv temp (step s a) := by
  cases a with
  | start tmp path parts => exact inv_start h hmeets
  | call i => exact inv_call h i
  | fail i => exact inv_fail h i
  | commit =>
    refine ⟨diskInv_commit h.disk, fun w hw => ?_, h.distinct⟩
    obtain ⟨ht, hp, hsaved, hphase⟩ := h.writers w hw
    exact ⟨ht, hp, hsaved, hphase.congr rfl fun _ _ => rfl⟩
  | kill =>
    exact ⟨h.disk, fun w hw => absurd hw List.not_mem_nil, fun i j w w' hi => by cases hi⟩
  | powerCut k junk =>
    exact ⟨diskInv_cut h.disk k junk, fun w hw => absurd hw List.not_mem_nil, fun i j w w' hi => by cases hi⟩

theorem inv_run {acts : List (Action N)} (h : Along step (Meets temp) s acts) (hs : Inv temp s) :
    Inv temp (acts.foldl step s) :=
  h.invariant (fun _ _ hs hmeets => inv_step hs hmeets) hs

omit [DecidableEq N] in
theorem inv_empty : Inv temp (⟨.empty, [], []⟩ : System N) :=
  ⟨diskInv_empty, fun _ hw => absurd hw List.not_mem_nil, fun i j w w' hi => by cases hi⟩

/-- **A file that is committed stays**, whatever happens. -/
theorem kept_step (h : Inv temp s) {p : N} (hp : ¬ temp p) (hkept : Kept s.disk p) (a : Action N) :
    Kept (step s a).disk p := by
  cases a with
  | call i =>
    unfold step
    dsimp only
    split
    · next tmp path payload file op todo hi =>
      have hw := h.writers _ (List.mem_of_getElem? hi)
      exact (call_spec h.disk hw).2.2.kept p (fun heq => hp (heq ▸ hw.temp_tmp)) hkept
    · exact hkept
  | start tmp path parts => exact hkept
  | fail i => exact hkept
  | commit => exact hkept.commit
  | kill => exact hkept
  | powerCut k junk => exact hkept.cut k junk

/-! ### What is read -/

omit [DecidableEq N] in
/-- **A file is read complete.** -/
theorem mem_saved_of_read (h : Inv temp s) {p : N} (hp : ¬ temp p) {bytes : List UInt8}
    (hread : s.disk.read p = some bytes) : (p, bytes) ∈ s.saved := by
  obtain ⟨i, hi, rfl⟩ := Option.map_eq_some_iff.mp hread
  exact (h.disk.complete _ List.mem_cons_self p hp i hi).2

theorem read_rename {d : Disk N} {t p : N} {payload : List UInt8} {i : ℕ} (hdir : d.dir t = some i)
    (hnode : d.node i = ⟨payload, true⟩) (hne : p ≠ t) : (d.rename t p).read p = some payload := by
  unfold Disk.rename Disk.read
  rw [hdir]
  simp [Disk.redirect, hne, hnode]

/-- **No replacement is lost**: with its last call, the file has its bytes. -/
theorem read_call (h : Inv temp s) {i : ℕ} {w : Writer N} (hi : s.writers[i]? = some w)
    (hlast : w.todo = [.rename w.tmp w.path]) : (step s (.call i)).disk.read w.path = some w.payload := by
  obtain ⟨tmp, path, payload, file, todo⟩ := w
  obtain ⟨htmp, hpath, -, hphase⟩ := h.writers _ (List.mem_of_getElem? hi)
  obtain rfl : todo = [.rename tmp path] := hlast
  have hne : path ≠ tmp := fun heq => hpath (heq ▸ htmp)
  have hdisk : (step s (.call i)).disk = s.disk.rename tmp path := by
    unfold step
    dsimp only
    rw [hi]
    rfl
  rw [hdisk]
  have hphase : Phase s.disk tmp path payload file [.rename tmp path] := hphase
  generalize hcalls : [Op.rename tmp path] = calls at hphase
  cases hphase with
  | begun => cases hcalls
  | @writing j parts _ _ => cases parts <;> cases hcalls
  | synced hdir hnode => exact read_rename hdir hnode hne
  | done => cases hcalls

omit [DecidableEq N] in
/-- **What is committed survives**: a power cut changes no file after a commit. -/
theorem read_cut_commit (h : DiskInv temp s.saved s.disk) {p : N} (hp : ¬ temp p) (k : ℕ)
    (junk : ℕ → List UInt8) :
    (s.disk.commit.cut k junk).read p = s.disk.read p := by
  have hdir : (s.disk.commit.cut k junk).dir = s.disk.dir := by
    show [s.disk.dir].getD k s.disk.dir = _
    cases k <;> rfl
  unfold Disk.read
  rw [hdir]
  cases hi : s.disk.dir p with
  | none => rfl
  | some i =>
    have hsynced := (h.complete _ List.mem_cons_self p hp i hi).1
    exact congrArg (fun node => some (Node.bytes node)) (if_pos hsynced)

end

end BandixPlus.Lib.CrashDisk
