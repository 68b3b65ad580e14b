import BandixPlus.Lib.Saturating
import Mathlib.Algebra.Group.Defs

/-! # Counters and buckets

`monitor.rs`: `CounterQuad` and `AggregatedBucket`. Both keep each figure for upload and download, IPv4
and IPv6; here such a group of four fields is a `Quad`, so that the field `up_v4_bps_sum` is
`bpsSum.upV4`. -/

namespace BandixPlus.Monitor.Counters

open BandixPlus.Lib.Saturating

@[ext] structure Quad (α : Type) where
  upV4 : α
  downV4 : α
  upV6 : α
  downV6 : α
  deriving DecidableEq

/-- One of the four fields of a `Quad`. -/
inductive Lane where
  | upV4 | downV4 | upV6 | downV6
  deriving DecidableEq

namespace Quad

variable {α β γ : Type}

def get : Lane → Quad α → α
  | .upV4, q => q.upV4
  | .downV4, q => q.downV4
  | .upV6, q => q.upV6
  | .downV6, q => q.downV6

def const (a : α) : Quad α := ⟨a, a, a, a⟩

def map (f : α → β) (q : Quad α) : Quad β := ⟨f q.upV4, f q.downV4, f q.upV6, f q.downV6⟩

def zip (f : α → β → γ) (q : Quad α) (r : Quad β) : Quad γ :=
  ⟨f q.upV4 r.upV4, f q.downV4 r.downV4, f q.upV6 r.upV6, f q.downV6 r.downV6⟩

def modify (q : Quad α) (l : Lane) (f : α → α) : Quad α :=
  match l with
  | .upV4 => { q with upV4 := f q.upV4 }
  | .downV4 => { q with downV4 := f q.downV4 }
  | .upV6 => { q with upV6 := f q.upV6 }
  | .downV6 => { q with downV6 := f q.downV6 }

@[simp] theorem get_const (l : Lane) (a : α) : (const a).get l = a := by cases l <;> rfl

@[simp] theorem get_map (l : Lane) (f : α → β) (q : Quad α) : (q.map f).get l = f (q.get l) := by
  cases l <;> rfl

@[simp] theorem get_zip (l : Lane) (f : α → β → γ) (q : Quad α) (r : Quad β) :
    (zip f q r).get l = f (q.get l) (r.get l) := by
  cases l <;> rfl

@[simp] theorem get_modify (q : Quad α) (l l' : Lane) (f : α → α) :
    (q.modify l f).get l' = if l' = l then f (q.get l') else q.get l' := by
  cases l <;> cases l' <;> rfl

end Quad

/-- Saturating addition, field by field. -/
def addSat (q r : Quad UInt64) : Quad UInt64 := Quad.zip satAdd q r

instance : Add (Quad UInt64) := ⟨addSat⟩

instance : Zero (Quad UInt64) := ⟨.const 0⟩

/-- Four counters under saturating addition. -/
instance : AddCommMonoid (Quad UInt64) where
  add_assoc _ _ _ :=
    Quad.ext (satAdd_assoc _ _ _) (satAdd_assoc _ _ _) (satAdd_assoc _ _ _) (satAdd_assoc _ _ _)
  zero_add _ := Quad.ext (zero_satAdd _) (zero_satAdd _) (zero_satAdd _) (zero_satAdd _)
  add_zero _ := Quad.ext (satAdd_zero _) (satAdd_zero _) (satAdd_zero _) (satAdd_zero _)
  add_comm _ _ :=
    Quad.ext (satAdd_comm _ _) (satAdd_comm _ _) (satAdd_comm _ _) (satAdd_comm _ _)
  nsmul := nsmulRec

structure CounterQuad where
  bps : Quad UInt64
  bytes : Quad UInt64
  deriving DecidableEq

/-- `CounterQuad::default()`. -/
def CounterQuad.zero : CounterQuad := ⟨.const 0, .const 0⟩

def CounterQuad.isEmpty (c : CounterQuad) : Bool := c.bytes = .const 0 ∧ c.bps = .const 0

@[ext] structure AggregatedBucket where
  startTsMs : UInt64
  endTsMs : UInt64
  sampleCount : UInt64
  bytes : Quad UInt64
  bpsSum : Quad UInt64
  bpsMax : Quad UInt64
  bpsMin : Quad UInt64
  bpsAvg : Quad UInt64
  bpsP95 : Quad UInt64
  deriving DecidableEq

/-- A bucket with its bounds and `..Default::default()`. -/
def AggregatedBucket.empty (startTsMs endTsMs : UInt64) : AggregatedBucket where
  startTsMs
  endTsMs
  sampleCount := 0
  bytes := .const 0
  bpsSum := .const 0
  bpsMax := .const 0
  bpsMin := .const 0
  bpsAvg := .const 0
  bpsP95 := .const 0

/-- `AggregatedBucket::finalize`. -/
def AggregatedBucket.finalize (b : AggregatedBucket) : AggregatedBucket :=
  { b with
    bpsAvg := if 0 < b.sampleCount then b.bpsSum.map (· / b.sampleCount) else b.bpsAvg
    bpsP95 := b.bpsMax }

theorem AggregatedBucket.finalize_finalize (b : AggregatedBucket) :
    b.finalize.finalize = b.finalize := by
  unfold finalize
  dsimp only
  split_ifs <;> rfl

end BandixPlus.Monitor.Counters
