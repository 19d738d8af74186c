import Mathlib.Data.Finset.Basic
import Mathlib.Data.Finset.Dedup
import Mathlib.Data.Finset.Lattice.Fold
import Mathlib.Data.Finset.Lattice.Lemmas
import Mathlib.Order.Lattice.Nat
import Mathlib.Logic.Function.Basic

/-! # Names in use

A pool keeps the names that are in use and what each stands for: the cells of a
heap, or the open descriptors of a process.  A name that has been given up stands
for nothing until it is handed out again. -/

set_option autoImplicit false

structure Pool (β : Type*) where
  used : Finset Nat
  contents : Nat → β

/-- A policy for new names, which may be names given up before. -/
structure Allocator where
  choose : Finset Nat → Nat
  fresh : ∀ used, choose used ∉ used

/-- Names chosen one after the other. -/
def Allocator.several (allocator : Allocator) : Nat → Finset Nat → List Nat
  | 0, _ => []
  | n + 1, used =>
      allocator.choose used :: allocator.several n (insert (allocator.choose used) used)

theorem Allocator.several_fresh (allocator : Allocator) (n : Nat) (used : Finset Nat) :
    (allocator.several n used).Nodup ∧ ∀ name ∈ allocator.several n used, name ∉ used := by
  induction n generalizing used with
  | zero => exact ⟨List.nodup_nil, fun name member => absurd member List.not_mem_nil⟩
  | succ n ih =>
      obtain ⟨apart, fresh⟩ := ih (insert (allocator.choose used) used)
      rw [several, List.nodup_cons]
      refine ⟨⟨fun member => fresh _ member (Finset.mem_insert_self ..), apart⟩, ?_⟩
      intro name member
      rcases List.mem_cons.mp member with rfl | later
      · exact allocator.fresh used
      · exact fun inUse => fresh name later (Finset.mem_insert_of_mem inUse)

/-- Names that go up. -/
def Allocator.above : Allocator where
  choose used := used.sup id + 1
  fresh _ member := Nat.not_succ_le_self _ (Finset.le_sup (f := id) member)

namespace Pool

section Operations
variable {β : Type*}

def get? (pool : Pool β) (name : Nat) : Option β :=
  if name ∈ pool.used then some (pool.contents name) else none

def add (pool : Pool β) (name : Nat) (b : β) : Pool β :=
  ⟨insert name pool.used, Function.update pool.contents name b⟩

def set (pool : Pool β) (name : Nat) (b : β) : Pool β :=
  { pool with contents := Function.update pool.contents name b }

def drop (pool : Pool β) (name : Nat) : Pool β := { pool with used := pool.used.erase name }

variable (pool : Pool β) (name other : Nat) (b : β)

@[simp] theorem add_used : (pool.add name b).used = insert name pool.used := rfl

@[simp] theorem set_used : (pool.set name b).used = pool.used := rfl

@[simp] theorem drop_used : (pool.drop name).used = pool.used.erase name := rfl

theorem mem_of_get? {pool : Pool β} {name : Nat} {b : β} (stands : pool.get? name = some b) :
    name ∈ pool.used := by
  by_contra absent
  rw [get?, if_neg absent] at stands
  cases stands

theorem get?_of_notMem {pool : Pool β} {name : Nat} (absent : name ∉ pool.used) :
    pool.get? name = none :=
  if_neg absent

theorem get?_add : (pool.add name b).get? other = if other = name then some b else pool.get? other := by
  by_cases same : other = name
  · simp [get?, add, same]
  · simp [get?, add, same]

theorem get?_drop : (pool.drop name).get? other = if other = name then none else pool.get? other := by
  by_cases same : other = name
  · simp [get?, drop, same]
  · simp [get?, drop, same]

@[simp] theorem get?_add_self : (pool.add name b).get? name = some b := by
  simp [get?, add]

theorem get?_add_other {name other : Nat} (different : other ≠ name) :
    (pool.add name b).get? other = pool.get? other := by
  rw [get?_add, if_neg different]

theorem get?_add_of_fresh {name other : Nat} {c : β} (fresh : name ∉ pool.used)
    (stands : pool.get? other = some c) : (pool.add name b).get? other = some c := by
  have different : other ≠ name := fun same => fresh (same ▸ mem_of_get? stands)
  rw [get?_add_other pool b different, stands]

theorem get?_set_self {pool : Pool β} {name : Nat} (inUse : name ∈ pool.used) (b : β) :
    (pool.set name b).get? name = some b := by
  simp [get?, set, inUse]

theorem get?_set_other {name other : Nat} (different : other ≠ name) :
    (pool.set name b).get? other = pool.get? other := by
  simp [get?, set, different]

@[simp] theorem get?_drop_self : (pool.drop name).get? name = none := by
  simp [get?, drop]

theorem get?_drop_other {name other : Nat} (different : other ≠ name) :
    (pool.drop name).get? other = pool.get? other := by
  rw [get?_drop, if_neg different]

theorem used_eq {pool other : Pool β} (same : ∀ name, pool.get? name = other.get? name) :
    pool.used = other.used := by
  ext name
  have agree := congrArg Option.isSome (same name)
  simpa [get?, apply_ite Option.isSome] using agree

end Operations

/-! ## Several names -/

section Several
variable {β : Type*}

def addAll (pool : Pool β) (pairs : List (Nat × β)) : Pool β :=
  pairs.foldl (fun pool pair => pool.add pair.1 pair.2) pool

def dropAll (pool : Pool β) (names : List Nat) : Pool β := names.foldl drop pool

theorem addAll_used (pool : Pool β) (pairs : List (Nat × β)) :
    (pool.addAll pairs).used = pool.used ∪ (pairs.map Prod.fst).toFinset := by
  induction pairs generalizing pool with
  | nil => simp [addAll]
  | cons pair rest ih =>
      have step : pool.addAll (pair :: rest) = (pool.add pair.1 pair.2).addAll rest := rfl
      rw [step, ih, add_used]
      ext name
      simp

theorem get?_addAll_of_notMem (pool : Pool β) (pairs : List (Nat × β)) {name : Nat}
    (other : name ∉ pairs.map Prod.fst) : (pool.addAll pairs).get? name = pool.get? name := by
  induction pairs generalizing pool with
  | nil => rfl
  | cons pair rest ih =>
      simp only [List.map_cons, List.mem_cons, not_or] at other
      have step : pool.addAll (pair :: rest) = (pool.add pair.1 pair.2).addAll rest := rfl
      rw [step, ih _ other.2, get?_add_other _ _ other.1]

theorem get?_addAll_of_mem (pool : Pool β) (pairs : List (Nat × β)) {name : Nat} {b : β}
    (apart : (pairs.map Prod.fst).Nodup) (member : (name, b) ∈ pairs) :
    (pool.addAll pairs).get? name = some b := by
  induction pairs generalizing pool with
  | nil => simp at member
  | cons pair rest ih =>
      rw [List.map_cons, List.nodup_cons] at apart
      have step : pool.addAll (pair :: rest) = (pool.add pair.1 pair.2).addAll rest := rfl
      rw [step]
      rcases List.mem_cons.mp member with rfl | later
      · rw [get?_addAll_of_notMem _ _ apart.1, get?_add_self]
      · exact ih _ apart.2 later

theorem dropAll_used (pool : Pool β) (names : List Nat) :
    (pool.dropAll names).used = pool.used \ names.toFinset := by
  induction names generalizing pool with
  | nil => simp [dropAll]
  | cons first rest ih =>
      have step : pool.dropAll (first :: rest) = (pool.drop first).dropAll rest := rfl
      rw [step, ih, drop_used, List.toFinset_cons, Finset.sdiff_insert, Finset.erase_sdiff_comm]

theorem get?_dropAll (pool : Pool β) (names : List Nat) (name : Nat) :
    (pool.dropAll names).get? name = if name ∈ names then none else pool.get? name := by
  induction names generalizing pool with
  | nil => simp [dropAll]
  | cons first rest ih =>
      have step : pool.dropAll (first :: rest) = (pool.drop first).dropAll rest := rfl
      rw [step, ih, get?_drop]
      by_cases later : name ∈ rest
      · simp [later]
      · by_cases same : name = first
        · simp [same]
        · simp [later, same]

/-- New names that are all given up again leave nothing behind. -/
theorem get?_dropAll_addAll (pool : Pool β) (pairs : List (Nat × β))
    (fresh : ∀ pair ∈ pairs, pair.1 ∉ pool.used) (name : Nat) :
    ((pool.addAll pairs).dropAll (pairs.map Prod.fst)).get? name = pool.get? name := by
  rw [get?_dropAll]
  by_cases member : name ∈ pairs.map Prod.fst
  · obtain ⟨pair, isPair, rfl⟩ := List.mem_map.mp member
    rw [if_pos member, get?_of_notMem (fresh pair isPair)]
  · rw [if_neg member, get?_addAll_of_notMem pool pairs member]

end Several

end Pool
