import Mathlib.Tactic.Linarith
import ProjectOwl.Beagle.SelfRight
import ProjectOwl.Beagle.ServoDuty

/-! # What a bad reading does to the righting

The norm in `bno055_read_accel_norm` is zero on three zeros, and its squares do not
fit an `int` at the corners of the range.  Every value `self_right` computes from
other readings is a real number, the duty cycles included. -/

set_option autoImplicit false

namespace ProjectOwl.Beagle

open Proc

/-- What the C library says of its functions. -/
structure Libm.Documented (libm : Libm) : Prop where
  root_zero : libm.root 0 = 0
  root_pos : ∀ q, 0 < q → 0 < libm.root q
  /-- On real arguments `atan2` is an angle from `-PI` to `PI`. -/
  atan2_angle : ∀ y x : ℚ, ∃ angle, libm.atan2 (.fin y) (.fin x) = .fin angle ∧
    |angle| ≤ 3.14159265358979323846

/-- The sum of the squares as an integer. -/
def RawAccel.squares (raw : RawAccel) : Int :=
  raw.x.toInt * raw.x.toInt + raw.y.toInt * raw.y.toInt + raw.z.toInt * raw.z.toInt

/-- The sum does not overflow. -/
def RawAccel.Exact (raw : RawAccel) : Prop := raw.sumOfSquares.toInt = raw.squares

def RawAccel.norm (libm : Libm) (raw : RawAccel) : Dbl :=
  (ofInt raw.sumOfSquares.toInt).sqrt libm.root

/-- Not three zeros, and within reach of an `int`. -/
def RawAccel.Sound (raw : RawAccel) : Prop := raw ≠ ⟨0, 0, 0⟩ ∧ raw.squares ≤ 2147483647

section Reading
variable {raw : RawAccel} {libm : Libm}

theorem mul_self_range {n : Int} (low : -32768 ≤ n) (high : n < 32768) :
    0 ≤ n * n ∧ n * n ≤ 1073741824 := by
  constructor
  · nlinarith
  · nlinarith

theorem int16_range (n : Int16) : -32768 ≤ n.toInt ∧ n.toInt < 32768 :=
  ⟨n.le_toInt, n.toInt_lt⟩

theorem toInt_mul_self (n : Int16) : (n.toInt32 * n.toInt32).toInt = n.toInt * n.toInt := by
  obtain ⟨low, high⟩ := int16_range n
  obtain ⟨nonneg, small⟩ := mul_self_range low high
  rw [Int32.toInt_mul, Int16.toInt_toInt32]
  exact Int.bmod_eq_of_le (by omega) (by omega)

theorem exact_iff : raw.Exact ↔ raw.squares ≤ 2147483647 := by
  obtain ⟨x, y, z⟩ := raw
  constructor
  · intro exact'
    have small := (RawAccel.sumOfSquares ⟨x, y, z⟩).toInt_lt
    rw [exact'] at small
    omega
  · intro small
    have rangeX := mul_self_range (int16_range x).1 (int16_range x).2
    have rangeY := mul_self_range (int16_range y).1 (int16_range y).2
    have rangeZ := mul_self_range (int16_range z).1 (int16_range z).2
    unfold RawAccel.squares at small
    unfold RawAccel.Exact RawAccel.sumOfSquares RawAccel.squares
    dsimp only at small ⊢
    have first : (x.toInt * x.toInt + y.toInt * y.toInt).bmod (2 ^ 32) =
        x.toInt * x.toInt + y.toInt * y.toInt := Int.bmod_eq_of_le (by omega) (by omega)
    rw [Int32.toInt_add, Int32.toInt_add, toInt_mul_self, toInt_mul_self, toInt_mul_self, first]
    exact Int.bmod_eq_of_le (by omega) (by omega)

/-- Some component is not zero. -/
theorem squares_pos (nonzero : raw ≠ ⟨0, 0, 0⟩) : 0 < raw.squares := by
  obtain ⟨x, y, z⟩ := raw
  have square : ∀ n : Int16, n ≠ 0 → 0 < n.toInt * n.toInt := by
    intro n other
    have value : n.toInt ≠ 0 := fun zero => other (Int16.toInt_inj.mp zero)
    exact mul_self_pos.mpr value
  have low := fun n : Int16 => (mul_self_range (int16_range n).1 (int16_range n).2).1
  unfold RawAccel.squares
  dsimp only
  by_cases hx : x = 0
  · by_cases hy : y = 0
    · have hz : z ≠ 0 := fun zero => nonzero (by rw [hx, hy, zero])
      have := square z hz
      have := low x
      have := low y
      omega
    · have := square y hy
      have := low x
      have := low z
      omega
  · have := square x hx
    have := low y
    have := low z
    omega

/-- The norm of a sound reading is a real number that is not zero. -/
theorem RawAccel.Sound.norm_real (documented : libm.Documented) (sound : raw.Sound) :
    ∃ q, q ≠ 0 ∧ raw.norm libm = .fin q := by
  obtain ⟨nonzero, small⟩ := sound
  have exact' := exact_iff.mpr small
  have positive : (0 : ℚ) < raw.squares := by exact_mod_cast squares_pos nonzero
  refine ⟨libm.root raw.squares, (documented.root_pos _ positive).ne', ?_⟩
  rw [RawAccel.norm, exact', ofInt, Dbl.sqrt, if_neg (not_lt.mpr positive.le)]

/-- And only that of one. -/
theorem sound_of_norm (documented : libm.Documented) (exact' : raw.Exact)
    (norm : raw.norm libm ≠ 0) : raw.Sound := by
  refine ⟨?_, exact_iff.mp exact'⟩
  rintro rfl
  refine norm ?_
  have zero : (RawAccel.sumOfSquares ⟨0, 0, 0⟩).toInt = 0 := by decide
  rw [RawAccel.norm, zero, ofInt, Int.cast_zero, Dbl.sqrt, if_neg (lt_irrefl 0),
    documented.root_zero]
  rfl

/-- The angle of a sound reading is a real number. -/
theorem RawAccel.Sound.err_real (documented : libm.Documented) (sound : raw.Sound) :
    ((raw.normalised libm).err libm).IsReal := by
  obtain ⟨q, nonzero, norm⟩ := sound.norm_real documented
  have component : ∀ n : Int, (ofInt n / raw.norm libm).IsReal := by
    intro n
    rw [norm]
    exact (Dbl.isReal_fin n).div nonzero
  obtain ⟨y, eqY⟩ := component raw.y.toInt
  obtain ⟨z, eqZ⟩ := (component raw.z.toInt).neg
  obtain ⟨angle, eq, -⟩ := documented.atan2_angle y z
  have turned : (libm.atan2 (ofInt raw.y.toInt / raw.norm libm)
      (-(ofInt raw.z.toInt / raw.norm libm))).IsReal := by
    rw [eqY, eqZ, eq]
    exact Dbl.isReal_fin angle
  exact (turned.mul (Dbl.isReal_fin 180)).div (by norm_num)

end Reading

/-! ## The runs of `self_right` -/

/-- The controller's values are real numbers. -/
structure RightLocals.AllReal (l : RightLocals) : Prop where
  error : l.error.IsReal
  prevError : l.prevError.IsReal
  output : l.output.IsReal
  integral : l.integral.IsReal
  derivative : l.derivative.IsReal

/-- What is asked of the readings a run takes and of the calls it makes. -/
structure SafeCalls (libm : Libm) (taken : List RawAccel) (events : List MotionEvent) : Prop where
  readings : ∀ raw ∈ taken, raw.Exact ∧ raw.norm libm ≠ 0
  errors : ∀ r, .accel r ∈ events → (r.err libm).IsReal
  duties : ∀ pin d, .duty pin d ∈ events → InBand d

def SafeSince (libm : Libm) (s t : World) : Prop :=
  ∃ taken events, s.accels = taken ++ t.accels ∧ t.trace = s.trace ++ events ∧
    SafeCalls libm taken events

/-- The readings taken from the one world to the other. -/
def World.takenSince (s t : World) : List RawAccel :=
  s.accels.take (s.accels.length - t.accels.length)

/-- As long as the readings are sound the calls are safe, and `real` holds. -/
def Guarded (libm : Libm) (s : World) (real : Prop) (t : World) : Prop :=
  ∃ taken events, s.accels = taken ++ t.accels ∧ t.trace = s.trace ++ events ∧
    ((∀ raw ∈ taken, raw.Sound) → SafeCalls libm taken events ∧ real)

section Guarded
variable {libm : Libm} {s t : World} {real real' : Prop}

theorem takenSince_eq {taken : List RawAccel} (split : s.accels = taken ++ t.accels) :
    s.takenSince t = taken := by
  rw [World.takenSince, split]
  simp

theorem Guarded.start (libm : Libm) (s : World) : Guarded libm s True s :=
  ⟨[], [], rfl, by simp, fun _ => ⟨⟨by simp, by simp, by simp⟩, trivial⟩⟩

theorem Guarded.mono (guarded : Guarded libm s real t) (implies : real → real') :
    Guarded libm s real' t := by
  obtain ⟨taken, events, accels, trace, safe⟩ := guarded
  exact ⟨taken, events, accels, trace, fun sound => ⟨(safe sound).1, implies (safe sound).2⟩⟩

/-- Calls that read nothing. -/
theorem Guarded.append {more : List MotionEvent} (guarded : Guarded libm s real t)
    (clocks : List Int) (unread : ∀ r, .accel r ∉ more)
    (duties : real → ∀ pin d, .duty pin d ∈ more → InBand d) :
    Guarded libm s real { t with clocks := clocks, trace := t.trace ++ more } := by
  obtain ⟨taken, events, accels, trace, safe⟩ := guarded
  refine ⟨taken, events ++ more, accels, by simp [trace], ?_⟩
  intro sound
  obtain ⟨⟨readings, errors, bands⟩, holds⟩ := safe sound
  refine ⟨⟨readings, ?_, ?_⟩, holds⟩
  · intro r member
    exact errors r ((List.mem_append.mp member).resolve_right (unread r))
  · intro pin d member
    rcases List.mem_append.mp member with earlier | new
    · exact bands pin d earlier
    · exact duties holds pin d new

theorem Guarded.clock (guarded : Guarded libm s real t) (now : Int) (rest : List Int) :
    Guarded libm s real { t with clocks := rest, trace := t.trace ++ [.clock now] } :=
  guarded.append rest (by simp) (by simp)

/-- A speed that is real where `real` holds. -/
theorem Guarded.speed (guarded : Guarded libm s real t) (servo : ServoName) {u : Dbl}
    (isReal : real → u.IsReal) :
    Guarded libm s real
      { t with trace := t.trace ++ [.speed servo u, .duty servo.ctrlPin (dutyCycle u)] } := by
  refine guarded.append t.clocks (by simp) ?_
  intro holds pin d member
  obtain ⟨-, rfl⟩ : pin = servo.ctrlPin ∧ d = dutyCycle u := by simpa using member
  exact dutyCycle_inBand (isReal holds)

theorem Guarded.stop (guarded : Guarded libm s real t) (servo : ServoName)
    (readings clocks : List Int) :
    Guarded libm s real
      { t with clocks := clocks, trace := t.trace ++ stopEvents servo readings } := by
  refine guarded.append clocks (by simp [stopEvents]) ?_
  intro _ pin d member
  obtain ⟨-, rfl⟩ : pin = servo.ctrlPin ∧ d = dutyCycle 0 := by simpa [stopEvents] using member
  exact dutyCycle_inBand (Dbl.isReal_fin 0)

theorem Guarded.read (documented : libm.Documented) (guarded : Guarded libm s real t)
    {raw : RawAccel} {rest : List RawAccel} (accels : t.accels = raw :: rest) :
    Guarded libm s (real ∧ ((raw.normalised libm).err libm).IsReal)
      { t with accels := rest, trace := t.trace ++ [.accel (raw.normalised libm)] } := by
  obtain ⟨taken, events, split, trace, safe⟩ := guarded
  refine ⟨taken ++ [raw], events ++ [.accel (raw.normalised libm)], by simp [split, accels],
    by simp [trace], ?_⟩
  intro sound
  have last : raw.Sound := sound raw (by simp)
  have error := last.err_real documented
  obtain ⟨⟨readings, errors, bands⟩, holds⟩ := safe fun r member => sound r (by simp [member])
  obtain ⟨q, nonzero, norm⟩ := last.norm_real documented
  refine ⟨⟨?_, ?_, ?_⟩, holds, error⟩
  · intro r member
    rcases List.mem_append.mp member with earlier | new
    · exact readings r earlier
    · obtain rfl := List.mem_singleton.mp new
      refine ⟨exact_iff.mpr last.2, ?_⟩
      rw [norm, Dbl.zero_eq]
      exact fun zero => nonzero (Dbl.fin.inj zero)
  · intro r member
    rcases List.mem_append.mp member with earlier | new
    · exact errors r earlier
    · obtain rfl : r = raw.normalised libm := by simpa using new
      exact error
  · intro pin d member
    exact bands pin d (by simpa using member)

end Guarded

section Runs
variable {libm : Libm} {s t : World} {l : RightLocals}

/-- The controller's values after an iteration that was given a real error. -/
theorem allReal_driven (reals : l.error.IsReal ∧ l.prevError.IsReal ∧ l.integral.IsReal) :
    (3 * l.error + 0.0001 * (l.integral + l.error) + 0 * (l.error - l.prevError)).IsReal ∧
      (l.integral + l.error).IsReal ∧ (l.error - l.prevError).IsReal := by
  obtain ⟨error, prevError, integral⟩ := reals
  have sum := integral.add error
  have difference := error.sub prevError
  have small : Dbl.IsReal 0.0001 := Dbl.isReal_fin _
  refine ⟨?_, sum, difference⟩
  exact (((Dbl.isReal_fin 3).mul error).add (small.mul sum)).add
    ((Dbl.isReal_fin 0).mul difference)

theorem wp_selfRightDrive_guarded
    (guarded : Guarded libm s (l.error.IsReal ∧ l.prevError.IsReal ∧ l.integral.IsReal) t)
    {done : PUnit → World → Prop} :
    Wp (selfRightDrive l) (fun outcome u =>
      outcome.elim (fun next => Guarded libm s next.AllReal u) (done · u))
      (fun u => Guarded libm s True u) t := by
  rw [selfRightDrive, wp_bind, wp_servoSetSpeed, wp_pure]
  refine (guarded.speed _ fun reals => (allReal_driven reals).1).mono ?_
  intro reals
  obtain ⟨output, integral, derivative⟩ := allReal_driven reals
  exact ⟨reals.1, reals.1, output, integral, derivative⟩

theorem wp_selfRightBody_guarded (documented : libm.Documented)
    (guarded : Guarded libm s l.AllReal t) :
    Wp (selfRightBody libm l) (fun outcome u =>
      outcome.elim (fun next => Guarded libm s next.AllReal u) (fun _ => Guarded libm s True u))
      (fun u => Guarded libm s True u) t := by
  rw [selfRightBody, wp_bind]
  refine wp_bno055ReadAccelNorm (fun _ => guarded.mono fun _ => trivial) ?_
  intro raw rest accels
  have read := (guarded.read documented accels).mono fun both : _ ∧ _ =>
    (⟨both.2, both.1.prevError, both.1.integral⟩ :
      ((raw.normalised libm).err libm).IsReal ∧ l.prevError.IsReal ∧ l.integral.IsReal)
  dsimp only
  by_cases upright : (raw.normalised libm).Axial ∨ Small ((raw.normalised libm).err libm)
  · rw [if_pos upright, wp_bind]
    refine wp_stopAndWait ?_ ?_
    · intro _ readings clocks
      exact (read.stop _ readings clocks).mono fun _ => trivial
    · intro startTime _ passed left _ _
      have stopped := read.stop .rotationServo (startTime :: passed) left
      rw [wp_bind]
      refine wp_bno055ReadAccelNorm (fun _ => stopped.mono fun _ => trivial) ?_
      intro raw' rest' accels'
      have again := stopped.read documented accels'
      by_cases leaves : (raw'.normalised libm).Axial ∨ Small ((raw.normalised libm).err libm)
      · rw [if_pos leaves, wp_pure]
        exact again.mono fun _ => trivial
      · rw [if_neg leaves]
        exact wp_selfRightDrive_guarded (again.mono fun both => both.1)
  · rw [if_neg upright]
    exact wp_selfRightDrive_guarded read

/-- From the start of the loop on the run is guarded. -/
theorem wp_selfRightLoop_guarded (documented : libm.Documented) (startTime : Int)
    (guarded : Guarded libm s True t) (fuel : Nat) :
    Wp (loop (selfRightBody libm) fuel (.start startTime)) (fun _ u => Guarded libm s True u)
      (fun u => Guarded libm s True u) t := by
  have zero : Dbl.IsReal 0 := Dbl.isReal_fin 0
  refine wp_loop (fun l u => Guarded libm s l.AllReal u) ?_ ?_ ?_ fuel
  · intro l u _ held
    exact wp_selfRightBody_guarded documented held
  · intro l u held
    exact held.mono fun _ => trivial
  · exact guarded.mono fun _ => ⟨zero, zero, zero, zero, zero⟩

theorem selfRight_guarded (documented : libm.Documented) (s : World) (fuel : Nat) :
    Guarded libm s True (exec (selfRight libm fuel) s).2 := by
  have start := Guarded.start libm s
  refine wp_final.mp ?_
  rw [selfRight, wp_bind]
  refine wp_clock (fun _ => start) ?_
  intro startTime rest _
  rw [wp_bind]
  refine wp_mono (wp_selfRightLoop_guarded documented startTime (start.clock startTime rest) fuel)
    ?_ fun _ held => held
  intro done u held
  rw [wp_servoSetSpeed]
  exact held.speed _ fun _ => Dbl.isReal_fin 0

/-- A head of a call is the state of a call that is cut short there. -/
theorem selfRightHead_final {head : RightLocals × World} (isHead : SelfRightHead libm s head) :
    ∃ fuel, (exec (selfRight libm fuel) s).2 = head.2 := by
  obtain ⟨startTime, entry, ranClock, reached⟩ := isHead
  obtain ⟨rounds, arrives⟩ := exec_loop_reached reached
  refine ⟨rounds, ?_⟩
  have stops := arrives 0
  rw [Nat.add_zero] at stops
  rw [selfRight, exec_bind_some ranClock, exec_bind, stops]
  rfl

theorem selfRightHead_guarded (documented : libm.Documented) {head : RightLocals × World}
    (isHead : SelfRightHead libm s head) : Guarded libm s head.1.AllReal head.2 := by
  have zero : Dbl.IsReal 0 := Dbl.isReal_fin 0
  obtain ⟨startTime, entry, ranClock, reached⟩ := isHead
  obtain ⟨rest, clocks, rfl⟩ := clock_some ranClock
  induction reached with
  | refl =>
      exact ((Guarded.start libm s).clock startTime rest).mono
        fun _ => ⟨zero, zero, zero, zero, zero⟩
  | tail _ goes ih =>
      have after := wp_of_exec (wp_selfRightBody_guarded documented ih) goes
      exact after

/-- A call is safe, and its values are real, exactly as long as no reading it takes
is three zeros or has squares that overflow. -/
theorem self_right_safe_iff (libm : Libm) (documented : libm.Documented) (s : World) :
    ((∀ fuel, SafeSince libm s (exec (selfRight libm fuel) s).2) ∧
        ∀ head, SelfRightHead libm s head → head.1.AllReal) ↔
      ∀ fuel, ∀ raw ∈ s.takenSince (exec (selfRight libm fuel) s).2, raw.Sound := by
  constructor
  · rintro ⟨safe, -⟩ fuel raw member
    obtain ⟨taken, events, accels, -, calls⟩ := safe fuel
    rw [takenSince_eq accels] at member
    obtain ⟨exact', norm⟩ := calls.readings raw member
    exact sound_of_norm documented exact' norm
  · intro sound
    constructor
    · intro fuel
      obtain ⟨taken, events, accels, trace, safe⟩ := selfRight_guarded documented s fuel
      refine ⟨taken, events, accels, trace, (safe ?_).1⟩
      rw [← takenSince_eq accels]
      exact sound fuel
    · intro head isHead
      obtain ⟨fuel, same⟩ := selfRightHead_final isHead
      obtain ⟨taken, events, accels, trace, safe⟩ := selfRightHead_guarded documented isHead
      refine (safe ?_).2
      rw [← takenSince_eq accels, ← same]
      exact sound fuel

end Runs

/-- The library functions at the readings of the runs below, a root of 10000 among
them; a coordinate that is no real number has no angle. -/
def readingLibm : Libm where
  root q := if q = 10000 then 100 else q
  atan2
    | .fin y, .fin x => if y = 0 ∧ 0 < x then 0 else .fin 1
    | _, _ => .nan

theorem readingLibm_documented : readingLibm.Documented where
  root_zero := by decide +kernel
  root_pos := by
    intro q positive
    change 0 < if q = 10000 then (100 : ℚ) else q
    split
    · norm_num
    · exact positive
  atan2_angle := by
    intro y x
    change ∃ angle, (if y = 0 ∧ 0 < x then (0 : Dbl) else .fin 1) = .fin angle ∧ _
    split
    · exact ⟨0, rfl, by norm_num⟩
    · exact ⟨1, rfl, by norm_num⟩

theorem self_right_safe_iff_level :
    (∀ fuel, SafeSince readingLibm (levelStart ⟨0, 0, -100⟩)
        (exec (selfRight readingLibm fuel) (levelStart ⟨0, 0, -100⟩)).2) ∧
      ∀ head, SelfRightHead readingLibm (levelStart ⟨0, 0, -100⟩) head → head.1.AllReal := by
  refine (self_right_safe_iff readingLibm readingLibm_documented _).mpr ?_
  intro fuel raw member
  have level : raw ∈ [(⟨0, 0, -100⟩ : RawAccel), ⟨0, 0, -100⟩] := List.mem_of_mem_take member
  obtain rfl : raw = ⟨0, 0, -100⟩ := by simpa using level
  exact ⟨by decide, by decide⟩

/-- The transfer of the first reading fails: the servo is sent a duty cycle that is no
number. -/
theorem self_right_sends_nan :
    let run := exec (selfRight readingLibm 1) ⟨[0], [⟨0, 0, 0⟩], [], []⟩
    .duty "P8_13" .nan ∈ run.2.trace ∧
      ¬SafeSince readingLibm ⟨[0], [⟨0, 0, 0⟩], [], []⟩ run.2 := by
  have sent : .duty "P8_13" .nan ∈
      (exec (selfRight readingLibm 1) ⟨[0], [⟨0, 0, 0⟩], [], []⟩).2.trace := by
    decide +kernel
  refine ⟨sent, ?_⟩
  rintro ⟨taken, events, -, trace, calls⟩
  rw [trace, List.nil_append] at sent
  obtain ⟨q, eq, -⟩ := calls.duties _ _ sent
  simp at eq

end ProjectOwl.Beagle
