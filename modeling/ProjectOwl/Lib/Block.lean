import Mathlib.Data.List.Basic
import Mathlib.Tactic.Common

/-! # Blocks of memory

A block has a number of cells and the stores made through a pointer to its first
cell, in order.  A store at an index the block does not have is kept like any
other, so that a run can be said to have stayed inside (`InBounds`), and what
the cells would hold can be said of every run (`load`, `cells`). -/

set_option autoImplicit false

structure Block (α : Type*) where
  size : Nat
  stores : List (Nat × α)
  deriving DecidableEq, Repr

namespace Block

variable {α : Type*}

def alloc (size : Nat) : Block α := ⟨size, []⟩

def store (b : Block α) (i : Nat) (a : α) : Block α := { b with stores := b.stores ++ [(i, a)] }

/-- Stores to consecutive cells from `offset` on. -/
def storeAll (b : Block α) (offset : Nat) : List α → Block α
  | [] => b
  | a :: rest => (b.store offset a).storeAll (offset + 1) rest

def InBounds (b : Block α) : Prop := ∀ entry ∈ b.stores, entry.1 < b.size

instance (b : Block α) : Decidable b.InBounds := by
  unfold InBounds
  infer_instance

/-- What cell `i` holds, `none` if nothing was stored there. -/
def load (b : Block α) (i : Nat) : Option α :=
  (b.stores.reverse.find? fun entry => entry.1 == i).map Prod.snd

def cells (b : Block α) (n : Nat) : List (Option α) := (List.range n).map b.load

/-! ## Sizes and bounds -/

@[simp] theorem size_alloc (size : Nat) : (alloc size : Block α).size = size := rfl

@[simp] theorem size_store (b : Block α) (i : Nat) (a : α) : (b.store i a).size = b.size := rfl

@[simp] theorem size_storeAll (b : Block α) (offset : Nat) (as : List α) :
    (b.storeAll offset as).size = b.size := by
  induction as generalizing b offset with
  | nil => rfl
  | cons a rest ih => exact ih (b.store offset a) (offset + 1)

@[simp] theorem inBounds_alloc (size : Nat) : (alloc size : Block α).InBounds := by
  intro entry member
  exact absurd member List.not_mem_nil

@[simp] theorem inBounds_store (b : Block α) (i : Nat) (a : α) :
    (b.store i a).InBounds ↔ b.InBounds ∧ i < b.size := by
  simp only [InBounds, store, List.forall_mem_append, List.forall_mem_singleton]

theorem inBounds_storeAll (b : Block α) (offset : Nat) (as : List α) :
    (b.storeAll offset as).InBounds ↔
      b.InBounds ∧ (as = [] ∨ offset + as.length ≤ b.size) := by
  induction as generalizing b offset with
  | nil => simp [storeAll]
  | cons a rest ih =>
      rw [storeAll, ih, inBounds_store, size_store, List.length_cons, and_assoc]
      apply and_congr_right
      intro _
      cases rest with
      | nil =>
          simp only [List.length_nil, true_or, and_true, reduceCtorEq, false_or]
          omega
      | cons b rest =>
          simp only [List.length_cons, reduceCtorEq, false_or]
          omega

theorem storeAll_size (b : Block α) (offset size : Nat) (as : List α) :
    { b.storeAll offset as with size := size } = { b with size := size }.storeAll offset as := by
  induction as generalizing b offset with
  | nil => rfl
  | cons a rest ih => exact ih (b.store offset a) (offset + 1)

/-! ## Contents -/

@[simp] theorem load_store_same (b : Block α) (i : Nat) (a : α) :
    (b.store i a).load i = some a := by
  simp [load, store]

theorem load_store_other (b : Block α) (i j : Nat) (a : α) (other : i ≠ j) :
    (b.store i a).load j = b.load j := by
  simp [load, store, other]

theorem load_storeAll_below (b : Block α) (offset i : Nat) (as : List α) (below : i < offset) :
    (b.storeAll offset as).load i = b.load i := by
  induction as generalizing b offset with
  | nil => rfl
  | cons a rest ih =>
      rw [storeAll, ih (b.store offset a) (offset + 1) (by omega)]
      exact load_store_other b offset i a (by omega)

theorem load_storeAll (b : Block α) (offset i : Nat) (as : List α) (inside : i < as.length) :
    (b.storeAll offset as).load (offset + i) = some (as.get ⟨i, inside⟩) := by
  induction as generalizing b offset i with
  | nil => exact absurd inside (Nat.not_lt_zero i)
  | cons a rest ih =>
      cases i with
      | zero =>
          change ((b.store offset a).storeAll (offset + 1) rest).load offset = some a
          rw [load_storeAll_below _ (offset + 1) offset rest (Nat.lt_succ_self offset)]
          exact load_store_same b offset a
      | succ i =>
          have shifted : offset + (i + 1) = offset + 1 + i := by omega
          rw [storeAll, shifted, ih (b.store offset a) (offset + 1) i (Nat.lt_of_succ_lt_succ inside)]
          rfl

/-- What was stored from the first cell on is what the cells hold. -/
theorem cells_storeAll (b : Block α) (as : List α) :
    (b.storeAll 0 as).cells as.length = as.map some := by
  apply List.ext_getElem
  · simp [cells]
  · intro i inside _
    have bound : i < as.length := by simpa [cells] using inside
    have held := load_storeAll b 0 i as bound
    rw [Nat.zero_add] at held
    simp [cells, held]

end Block
