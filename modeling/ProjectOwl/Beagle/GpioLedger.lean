import ProjectOwl.Beagle.Gpio

/-! # The descriptors of the pins

Every open descriptor is one entry's of the list, an instance of epoll that is in use, or
lost, and a pin is on the list once at most. -/

set_option autoImplicit false

namespace ProjectOwl.Beagle.Gpio

/-- The list as descriptors and pins. -/
def System.pairs (s : System) : List (Nat × Nat) := s.fdList.map fun f => (f.fd, f.gpio)

/-- `may` tells what `beaglebone_blue` returned to the calls that opened the files. -/
structure Ledger (may : Bool → Prop) (pairs : List (Nat × Nat)) (files : Pool File)
    (interest : Nat → Finset Nat) (epolls lost : List Nat) : Prop where
  pins : (pairs.map Prod.snd).Nodup
  value : ∀ pair ∈ pairs, ∃ blue, may blue ∧
    files.get? pair.1 = some (.value (valuePath blue pair.2))
  epoll : ∀ e ∈ epolls, ∃ inst, files.get? e = some (.epoll inst)
  apart : (pairs.map Prod.fst ++ (epolls ++ lost)).Nodup
  whole : files.used = (pairs.map Prod.fst ++ (epolls ++ lost)).toFinset
  positive : ∀ fd ∈ files.used, 0 < fd
  watched : ∀ inst, ∀ fd ∈ interest inst, ∃ path, files.get? fd = some (.value path)
  range : ∀ inst, ∀ pair ∈ pairs, pair.1 ∈ interest inst → pair.2 < GPIOS

section Ledger
variable {may : Bool → Prop} {pairs front back : List (Nat × Nat)} {files : Pool File}
  {interest : Nat → Finset Nat} {epolls lost : List Nat} {fd gpio : Nat}

theorem Ledger.mem_used (ledger : Ledger may pairs files interest epolls lost) :
    fd ∈ files.used ↔ fd ∈ pairs.map Prod.fst ++ (epolls ++ lost) := by
  rw [ledger.whole, List.mem_toFinset]

theorem Ledger.perm {epolls' : List Nat} (ledger : Ledger may pairs files interest epolls lost)
    (same : epolls.Perm epolls') : Ledger may pairs files interest epolls' lost where
  pins := ledger.pins
  value := ledger.value
  epoll e member := ledger.epoll e (same.mem_iff.mpr member)
  apart := ((same.append_right lost).append_left _).nodup_iff.mp ledger.apart
  whole := by
    rw [ledger.whole]
    exact List.toFinset_eq_of_perm _ _ ((same.append_right lost).append_left _)
  positive := ledger.positive
  watched := ledger.watched
  range := ledger.range

/-- An instance that nothing keeps. -/
theorem Ledger.abandon {e : Nat} (ledger : Ledger may pairs files interest (e :: epolls) lost) :
    Ledger may pairs files interest epolls (e :: lost) := by
  have moved : (pairs.map Prod.fst ++ (e :: epolls ++ lost)).Perm
      (pairs.map Prod.fst ++ (epolls ++ e :: lost)) :=
    List.perm_middle.symm.append_left _
  exact
    { pins := ledger.pins
      value := ledger.value
      epoll := fun e member => ledger.epoll e (List.mem_cons_of_mem _ member)
      apart := moved.nodup_iff.mp ledger.apart
      whole := ledger.whole.trans (List.toFinset_eq_of_perm _ _ moved)
      positive := ledger.positive
      watched := ledger.watched
      range := ledger.range }

/-- Fewer descriptors in the instances. -/
theorem Ledger.unwatch {interest' : Nat → Finset Nat}
    (ledger : Ledger may pairs files interest epolls lost)
    (fewer : ∀ inst, interest' inst ⊆ interest inst) :
    Ledger may pairs files interest' epolls lost where
  pins := ledger.pins
  value := ledger.value
  epoll := ledger.epoll
  apart := ledger.apart
  whole := ledger.whole
  positive := ledger.positive
  watched inst fd member := ledger.watched inst fd (fewer inst member)
  range inst pair isPair member := ledger.range inst pair isPair (fewer inst member)

theorem Ledger.watch {path : Path} (ledger : Ledger may pairs files interest epolls lost)
    (inst : Nat) (file : files.get? fd = some (.value path))
    (range : ∀ pair ∈ pairs, pair.1 = fd → pair.2 < GPIOS) :
    Ledger may pairs files (Function.update interest inst (insert fd (interest inst)))
      epolls lost where
  pins := ledger.pins
  value := ledger.value
  epoll := ledger.epoll
  apart := ledger.apart
  whole := ledger.whole
  positive := ledger.positive
  watched other fd' member := by
    by_cases same : other = inst
    · subst same
      rw [Function.update_self] at member
      rcases Finset.mem_insert.mp member with rfl | before
      · exact ⟨path, file⟩
      · exact ledger.watched other fd' before
    · rw [Function.update_of_ne same] at member
      exact ledger.watched other fd' member
  range other pair isPair member := by
    by_cases same : other = inst
    · subst same
      rw [Function.update_self] at member
      rcases Finset.mem_insert.mp member with here | before
      · exact range pair isPair here
      · exact ledger.range other pair isPair before
    · rw [Function.update_of_ne same] at member
      exact ledger.range other pair isPair member

/-! ## A new descriptor -/

section New
variable (ledger : Ledger may pairs files interest epolls lost) (fresh : fd ∉ files.used)
  (positive : 0 < fd)

include ledger fresh

theorem Ledger.notMem : fd ∉ pairs.map Prod.fst ++ (epolls ++ lost) :=
  fun member => fresh (ledger.mem_used.mpr member)

theorem Ledger.notWatched (inst : Nat) : fd ∉ interest inst := by
  intro member
  obtain ⟨path, file⟩ := ledger.watched inst fd member
  exact fresh (Pool.mem_of_get? file)

include positive

/-- What is open when `fd` is, which is put on one of the lists. -/
theorem Ledger.grown {file : File} {pairs' : List (Nat × Nat)} {epolls' lost' : List Nat}
    (split : (fd :: (pairs.map Prod.fst ++ (epolls ++ lost))).Perm
      (pairs'.map Prod.fst ++ (epolls' ++ lost')))
    (pins : (pairs'.map Prod.snd).Nodup)
    (value : ∀ pair ∈ pairs', pair ∈ pairs ∨ (pair.1 = fd ∧
      ∃ blue, may blue ∧ file = .value (valuePath blue pair.2)))
    (epoll : ∀ e ∈ epolls', e ∈ epolls ∨ (e = fd ∧ ∃ inst, file = .epoll inst)) :
    Ledger may pairs' (files.add fd file) interest epolls' lost' where
  pins := pins
  value pair member := by
    rcases value pair member with before | ⟨rfl, blue, allowed, rfl⟩
    · obtain ⟨blue, allowed, stands⟩ := ledger.value pair before
      exact ⟨blue, allowed, Pool.get?_add_of_fresh _ _ fresh stands⟩
    · exact ⟨blue, allowed, Pool.get?_add_self ..⟩
  epoll e member := by
    rcases epoll e member with before | ⟨rfl, inst, rfl⟩
    · obtain ⟨inst, stands⟩ := ledger.epoll e before
      exact ⟨inst, Pool.get?_add_of_fresh _ _ fresh stands⟩
    · exact ⟨inst, Pool.get?_add_self ..⟩
  apart := split.nodup_iff.mp (List.nodup_cons.mpr ⟨ledger.notMem fresh, ledger.apart⟩)
  whole := by
    rw [Pool.add_used, ledger.whole, ← List.toFinset_cons]
    exact List.toFinset_eq_of_perm _ _ split
  positive other member := by
    rcases Finset.mem_insert.mp member with rfl | before
    · exact positive
    · exact ledger.positive other before
  watched inst other member := by
    obtain ⟨path, stands⟩ := ledger.watched inst other member
    exact ⟨path, Pool.get?_add_of_fresh _ _ fresh stands⟩
  range inst pair member watched := by
    rcases value pair member with before | ⟨rfl, -⟩
    · exact ledger.range inst pair before watched
    · exact absurd watched (ledger.notWatched fresh inst)

theorem Ledger.opened {blue : Bool} (allowed : may blue) (unlisted : gpio ∉ pairs.map Prod.snd) :
    Ledger may ((fd, gpio) :: pairs) (files.add fd (.value (valuePath blue gpio))) interest
      epolls lost := by
  refine ledger.grown fresh positive (List.Perm.refl _) ?_ ?_ fun e member => Or.inl member
  · exact List.nodup_cons.mpr ⟨unlisted, ledger.pins⟩
  · intro pair member
    rcases List.mem_cons.mp member with rfl | before
    · exact Or.inr ⟨rfl, blue, allowed, rfl⟩
    · exact Or.inl before

theorem Ledger.created (inst : Nat) :
    Ledger may pairs (files.add fd (.epoll inst)) interest (fd :: epolls) lost := by
  refine ledger.grown fresh positive List.perm_middle.symm ledger.pins
    (fun pair member => Or.inl member) ?_
  intro e member
  rcases List.mem_cons.mp member with rfl | before
  · exact Or.inr ⟨rfl, inst, rfl⟩
  · exact Or.inl before

/-- A value file that could not be put on the list. -/
theorem Ledger.unlisted (path : Path) :
    Ledger may pairs (files.add fd (.value path)) interest epolls (fd :: lost) :=
  ledger.grown fresh positive
    (List.perm_middle.symm.trans (List.perm_middle.symm.append_left _)) ledger.pins
    (fun _ member => Or.inl member) fun _ member => Or.inl member

end New

/-! ## A closed descriptor -/

/-- What stays open when `fd` is closed, which is on no list any more. -/
theorem Ledger.closed {pairs' : List (Nat × Nat)} {epolls' : List Nat}
    (ledger : Ledger may pairs files interest epolls lost)
    (split : (pairs.map Prod.fst ++ (epolls ++ lost)).Perm
      (fd :: (pairs'.map Prod.fst ++ (epolls' ++ lost))))
    (left : pairs'.Sublist pairs) (others : ∀ e ∈ epolls', e ∈ epolls) :
    Ledger may pairs' (files.drop fd) (fun inst => (interest inst).erase fd) epolls' lost := by
  obtain ⟨notMem, apart⟩ := List.nodup_cons.mp (split.nodup_iff.mp ledger.apart)
  have stays : ∀ other ∈ pairs'.map Prod.fst ++ (epolls' ++ lost),
      (files.drop fd).get? other = files.get? other := by
    intro other member
    apply Pool.get?_drop_other
    rintro rfl
    exact notMem member
  exact
    { pins := ledger.pins.sublist (left.map _)
      value := fun pair member => by
        obtain ⟨blue, allowed, file⟩ := ledger.value pair (left.subset member)
        refine ⟨blue, allowed, (stays _ ?_).trans file⟩
        exact List.mem_append_left _ (List.mem_map_of_mem member)
      epoll := fun e member => by
        obtain ⟨inst, file⟩ := ledger.epoll e (others e member)
        refine ⟨inst, (stays e ?_).trans file⟩
        exact List.mem_append_right _ (List.mem_append_left _ member)
      apart := apart
      whole := by
        rw [Pool.drop_used, ledger.whole, List.toFinset_eq_of_perm _ _ split, List.toFinset_cons,
          Finset.erase_insert (by simpa using notMem)]
      positive := fun other member => ledger.positive other (Finset.mem_of_mem_erase member)
      watched := fun inst other member => by
        obtain ⟨different, before⟩ := Finset.mem_erase.mp member
        obtain ⟨path, file⟩ := ledger.watched inst other before
        exact ⟨path, (Pool.get?_drop_other _ different).trans file⟩
      range := fun inst pair isPair member =>
        ledger.range inst pair (left.subset isPair) (Finset.mem_of_mem_erase member) }

theorem Ledger.closePair
    (ledger : Ledger may (front ++ (fd, gpio) :: back) files interest epolls lost) :
    Ledger may (front ++ back) (files.drop fd) (fun inst => (interest inst).erase fd)
      epolls lost := by
  refine ledger.closed ?_ ?_ (fun _ member => member)
  · simp only [List.map_append, List.map_cons, List.append_assoc, List.cons_append]
    exact List.perm_middle
  · exact (List.sublist_cons_self ..).append_left _

theorem Ledger.closeEpoll (ledger : Ledger may pairs files interest (fd :: epolls) lost) :
    Ledger may pairs (files.drop fd) (fun inst => (interest inst).erase fd) epolls lost :=
  ledger.closed List.perm_middle (List.Sublist.refl _) fun _ member => List.mem_cons_of_mem _ member

end Ledger

end ProjectOwl.Beagle.Gpio
