import ProjectOwl.Beagle.Slew

/-! # The loop of `main`

`beagle/owl.c` swivels to each number that `scanf` reads, and to the last one again
where there is none.  The calls of a whole run fall into one part for each number:
all but the last end settled on it with the servo stopped, and in each the speed is
ramped up anew. -/

set_option autoImplicit false

namespace ProjectOwl.Beagle

open Proc

/-- `scanned` is what `scanf` made of the input each time; `none` leaves `angle` as it was. -/
def mainLoop (fuel : Nat) : ℚ → List (Option ℚ) → Proc World PUnit
  | _, [] => pure ⟨⟩
  | angle, scanned :: rest => do
      swivel fuel (scanned.getD angle)
      mainLoop fuel (scanned.getD angle) rest

/-- The angles swivelled to. -/
def angles : ℚ → List (Option ℚ) → List ℚ
  | _, [] => []
  | angle, scanned :: rest => scanned.getD angle :: angles (scanned.getD angle) rest

/-- The calls of a swivel so far. -/
def Ramping (events : List MotionEvent) : Prop :=
  ∃ start more, events = .clock start :: more ∧ Slews .swivelServo start events

/-- The calls of a swivel that returned. -/
def Commanded (value : ℚ) (events : List MotionEvent) : Prop :=
  Ramping events ∧ EndsSettled value [] events ∧ lastSpeed .swivelServo events = some 0

section Swivel
variable {value : ℚ} {s : World}

theorem wp_swivelLoop_settled (fuel : Nat) {l : Ramp} {before : List MotionEvent}
    (held : before <+: s.trace) :
    Wp (loop (swivelBody value) fuel l) (fun _ t => EndsSettled value before t.trace)
      (fun t => before <+: t.trace) s := by
  refine wp_loop (fun _ t => before <+: t.trace) ?_ (fun _ _ held => held) held fuel
  intro l t _ heldToo
  exact wp_swivelBody_settled heldToo

theorem EndsSettled.after {before events : List MotionEvent}
    (ends : EndsSettled value before (before ++ events)) : EndsSettled value [] events := by
  obtain ⟨earlier, p, startTime, waiting, finish, q, split, late, first, second⟩ := ends
  refine ⟨earlier, p, startTime, waiting, finish, q, ?_, late, first, second⟩
  simpa only [List.append_assoc, List.append_cancel_left_eq, List.nil_append] using split

theorem EndsSettled.extends {before trace : List MotionEvent}
    (ends : EndsSettled value before trace) : before <+: trace := by
  obtain ⟨earlier, p, startTime, waiting, finish, q, rfl, -⟩ := ends
  simp only [List.append_assoc]
  exact List.prefix_append ..

theorem EndsSettled.cons {events : List MotionEvent} (event : MotionEvent)
    (ends : EndsSettled value [] events) : EndsSettled value [] (event :: events) := by
  obtain ⟨earlier, p, startTime, waiting, finish, q, rfl, late, first, second⟩ := ends
  exact ⟨event :: earlier, p, startTime, waiting, finish, q, rfl, late, first, second⟩

/-- One swivel: its calls are a part, whole if it returned. -/
theorem wp_swivel_part (fuel : Nat) (sorted : s.clocks.Pairwise (· ≤ ·)) :
    Wp (swivel fuel value)
      (fun _ t => t.clocks.Pairwise (· ≤ ·) ∧
        ∃ part, t.trace = s.trace ++ part ∧ Commanded value part)
      (fun t => ∃ part, t.trace = s.trace ++ part ∧ (part = [] ∨ Ramping part)) s := by
  cases clocks : s.clocks with
  | nil =>
      rw [swivel, wp_bind]
      refine wp_clock (fun _ => ⟨[], by simp, Or.inl rfl⟩) ?_
      intro now rest some
      simp [clocks] at some
  | cons start rest =>
      have slews := wp_swivel_slews clocks sorted value fuel
      have settles : Wp (swivel fuel value)
          (fun _ t => EndsSettled value (s.trace ++ [.clock start]) t.trace)
          (fun t => s.trace ++ [.clock start] <+: t.trace) s := by
        rw [swivel, wp_bind]
        refine wp_clock (fun none => by simp [none] at clocks) ?_
        intro now rest' clocks'
        obtain ⟨rfl, -⟩ := List.cons.inj (clocks'.symm.trans clocks)
        exact wp_swivelLoop_settled fuel List.prefix_rfl
      have ramping : ∀ t : World, SlewsSince .swivelServo start s.trace t.trace →
          s.trace ++ [.clock start] <+: t.trace →
          ∃ more, t.trace = s.trace ++ .clock start :: more ∧ Ramping (.clock start :: more) := by
        rintro t ⟨events, trace, slews⟩ ⟨more, begins⟩
        rw [List.append_assoc, List.singleton_append] at begins
        obtain rfl := List.append_cancel_left (begins.trans trace)
        exact ⟨more, trace, start, more, rfl, slews⟩
      refine wp_mono (wp_and slews settles) ?_ ?_
      · rintro _ t ⟨⟨ordered, slews⟩, ends⟩
        obtain ⟨more, trace, ramps⟩ := ramping t slews ends.extends
        have split : t.trace = s.trace ++ [.clock start] ++ more := by
          rw [trace, List.append_cons]
        rw [split] at ends
        have settled := ends.after
        exact ⟨ordered, _, trace, ramps, settled.cons _, (settled.cons _).lastSpeed⟩
      · rintro t ⟨slews, held⟩
        obtain ⟨more, trace, ramps⟩ := ramping t slews held
        exact ⟨_, trace, Or.inr ramps⟩

/-- The calls of the loop, one part for each number read. -/
theorem wp_mainLoop (fuel : Nat) (scans : List (Option ℚ)) (angle : ℚ)
    (sorted : s.clocks.Pairwise (· ≤ ·)) :
    Wp (mainLoop fuel angle scans)
      (fun _ t => ∃ parts, t.trace = s.trace ++ parts.flatten ∧
        List.Forall₂ Commanded (angles angle scans) parts)
      (fun t => ∃ parts last, t.trace = s.trace ++ parts.flatten ++ last ∧
        List.Forall₂ Commanded ((angles angle scans).take parts.length) parts ∧
        (last = [] ∨ Ramping last)) s := by
  induction scans generalizing angle s with
  | nil =>
      rw [mainLoop, wp_pure]
      exact ⟨[], by simp, List.Forall₂.nil⟩
  | cons scanned rest ih =>
      rw [mainLoop, wp_bind]
      refine wp_mono (wp_swivel_part fuel sorted) ?_ ?_
      · rintro _ t ⟨ordered, part, trace, commanded⟩
        refine wp_mono (ih (scanned.getD angle) ordered) ?_ ?_
        · rintro _ final ⟨parts, trace', all⟩
          refine ⟨part :: parts, ?_, List.Forall₂.cons commanded all⟩
          rw [trace', trace, List.flatten_cons, List.append_assoc]
        · rintro final ⟨parts, last, trace', all, cut⟩
          refine ⟨part :: parts, last, ?_, List.Forall₂.cons commanded all, cut⟩
          rw [trace', trace, List.flatten_cons]
          simp only [List.append_assoc]
      · rintro t ⟨part, trace, cut⟩
        exact ⟨[], part, by simpa using trace, List.Forall₂.nil, cut⟩

end Swivel

/-- The calls of every run of the loop: one part for each number it is through with,
and of the next swivel those made so far. -/
theorem main_commands (fuel : Nat) (angle : ℚ) (scans : List (Option ℚ)) {s : World}
    (sorted : s.clocks.Pairwise (· ≤ ·)) :
    ∃ parts last,
      (exec (mainLoop fuel angle scans) s).2.trace = s.trace ++ parts.flatten ++ last ∧
      List.Forall₂ Commanded ((angles angle scans).take parts.length) parts ∧
      (last = [] ∨ Ramping last) ∧
      ((exec (mainLoop fuel angle scans) s).1 = some ⟨⟩ →
        last = [] ∧ parts.length = (angles angle scans).length) := by
  have runs := wp_mainLoop fuel scans angle sorted
  unfold Wp at runs
  rcases ran : exec (mainLoop fuel angle scans) s with ⟨_ | done, t⟩
  · rw [ran] at runs
    obtain ⟨parts, last, trace, all, cut⟩ := runs
    exact ⟨parts, last, trace, all, cut, fun returned => nomatch returned⟩
  · rw [ran] at runs
    obtain ⟨parts, trace, all⟩ := runs
    have whole := all.length_eq
    refine ⟨parts, [], by simpa using trace, ?_, Or.inl rfl, fun _ => ⟨rfl, whole.symm⟩⟩
    rwa [List.take_of_length_le whole.le]

/-- The shaft stands at the target for the number read and for the missing one after it. -/
def steadyShaftTwice : World :=
  ⟨[0, 1, 100001, 100002, 100003, 200003], [], [45, 44.5, 44.5, 45], []⟩

theorem main_commands_example :
    (exec (mainLoop 1 0 [some 45, none]) steadyShaftTwice).1 = some ⟨⟩ ∧
      ∃ parts last,
        (exec (mainLoop 1 0 [some 45, none]) steadyShaftTwice).2.trace = parts.flatten ++ last ∧
        List.Forall₂ Commanded ([45, 45].take parts.length) parts ∧
        (last = [] ∨ Ramping last) := by
  refine ⟨by decide +kernel, ?_⟩
  obtain ⟨parts, last, trace, all, cut, -⟩ :=
    main_commands 1 0 [some 45, none] (s := steadyShaftTwice) (by decide)
  exact ⟨parts, last, by simpa [steadyShaftTwice] using trace, all, cut⟩

end ProjectOwl.Beagle
