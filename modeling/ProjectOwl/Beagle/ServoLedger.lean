import Mathlib.Data.Finset.Insert
import Mathlib.Logic.Function.Basic
import ProjectOwl.Beagle.Servo

/-! # The servo resource ledger

Any number of servos, each initialised and cleaned up any number of times.  The
calls whose failures come before anything is acquired or released keep the
ledger; a later failure leaves what the call did before it. -/

set_option autoImplicit false

namespace ProjectOwl.Beagle

/-! ## What the two calls do -/

theorem initServo_refused (outcome : InitOutcome) (servo : Servo) (k : Kernel)
    (refused : outcome.pwmStart = false) : initServo outcome servo k = (1, servo, k) := by
  simp [initServo, pwmStart, refused]

theorem initServo_unopened (outcome : InitOutcome) (servo : Servo) (k : Kernel)
    (started : outcome.pwmStart = true) (unopened : outcome.openMem = false) :
    initServo outcome servo k =
      (1, servo, { k with held := { k.held with pwms := insert servo.ctrlPin k.held.pwms } }) := by
  simp [initServo, pwmStart, openDevMem, started, unopened]

theorem initServo_unmapped (outcome : InitOutcome) (servo : Servo) (k : Kernel)
    (started : outcome.pwmStart = true) (opened : outcome.openMem = true)
    (unmapped : outcome.mmap = false) :
    initServo outcome servo k =
      (1, { servo with pru := .mapFailed },
        ⟨⟨insert k.next k.held.descriptors, k.held.mappings,
          insert servo.ctrlPin k.held.pwms⟩, k.next + 1⟩) := by
  simp [initServo, pwmStart, openDevMem, mmap, started, opened, unmapped]

/-- The mapping of the PRU memory at `base`. -/
def pruMapping (base : Nat) : Mapping := ⟨base, PRU_LEN, PRU_ADDR⟩

theorem initServo_ready (outcome : InitOutcome) (servo : Servo) (k : Kernel)
    (started : outcome.pwmStart = true) (opened : outcome.openMem = true)
    (mapped : outcome.mmap = true) :
    initServo outcome servo k =
      (0, { servo with
              pru := .mapped (k.next + 1)
              pruDram := some (k.next + 1, dramOffset servo.prunum) },
        ⟨⟨(insert k.next k.held.descriptors).erase k.next,
          insert (pruMapping (k.next + 1)) k.held.mappings,
          insert servo.ctrlPin k.held.pwms⟩, k.next + 2⟩) := by
  simp [initServo, pwmStart, openDevMem, mmap, close, pruMapping, started, opened, mapped]

theorem servoCleanup_refused (outcome : CleanupOutcome) (servo : Servo) (k : Kernel)
    (refused : outcome.pwmDisable = false) : servoCleanup outcome servo k = (1, k) := by
  simp [servoCleanup, pwmDisable, refused]

theorem servoCleanup_stillMapped (outcome : CleanupOutcome) (servo : Servo) (k : Kernel)
    (disabled : outcome.pwmDisable = true) (failed : outcome.munmap = false) :
    servoCleanup outcome servo k =
      (1, { k with held := { k.held with pwms := k.held.pwms.erase servo.ctrlPin } }) := by
  simp [servoCleanup, pwmDisable, munmap, disabled, failed]

theorem servoCleanup_released (outcome : CleanupOutcome) (servo : Servo) (k : Kernel)
    (disabled : outcome.pwmDisable = true) (unmaps : outcome.munmap = true) (base : Nat)
    (mapped : servo.pru = .mapped base) :
    servoCleanup outcome servo k =
      (0, { k with held := { k.held with
        pwms := k.held.pwms.erase servo.ctrlPin
        mappings := k.held.mappings.filter fun m => ¬(m.base = base ∧ m.len = PRU_LEN) } }) := by
  simp [servoCleanup, pwmDisable, munmap, disabled, unmaps, mapped]

/-! ## Runs over any number of servos -/

section Rig
variable {ι : Type*}

/-- `initialised` records whose last `init_servo` returned 0 with no
`servo_cleanup` returning 0 since. -/
structure Rig (ι : Type*) where
  servos : ι → Servo
  kernel : Kernel
  initialised : ι → Bool

inductive ServoCall (ι : Type*) where
  | init (i : ι) (outcome : InitOutcome)
  | cleanup (i : ι) (outcome : CleanupOutcome)
  deriving DecidableEq, Repr

/-- The `servo` variables before any call: static storage with a pin and a PRU number. -/
def Rig.start (ctrlPin : ι → String) (prunum : ι → Int) : Rig ι where
  servos i := ⟨.null, none, ctrlPin i, prunum i, 0⟩
  kernel := .idle
  initialised _ := false

/-- `init_servo` only when not initialised, `servo_cleanup` only when initialised. -/
def Rig.Legal (rig : Rig ι) : ServoCall ι → Prop
  | .init i _ => rig.initialised i = false
  | .cleanup i _ => rig.initialised i = true

instance (rig : Rig ι) : ∀ call, Decidable (rig.Legal call)
  | .init i _ => inferInstanceAs (Decidable (rig.initialised i = false))
  | .cleanup i _ => inferInstanceAs (Decidable (rig.initialised i = true))

def Rig.OwnsMapping (rig : Rig ι) (i : ι) : Prop :=
  ∃ base, (rig.servos i).pru = .mapped base ∧ pruMapping base ∈ rig.kernel.held.mappings

/-- What holds whenever no call is in progress. -/
structure Rig.Accounted (rig : Rig ι) : Prop where
  closed : rig.kernel.held.descriptors = ∅
  mapping : ∀ i, rig.OwnsMapping i ↔ rig.initialised i = true
  pwm : ∀ i, (rig.servos i).ctrlPin ∈ rig.kernel.held.pwms ↔ rig.initialised i = true

/-- No failure once the call has acquired or released something. -/
def ServoCall.FailsOnlyEarly : ServoCall ι → Prop
  | .init _ outcome =>
      outcome.pwmStart = true → outcome.openMem = true ∧ outcome.mmap = true
  | .cleanup _ outcome => outcome.pwmDisable = true → outcome.munmap = true

instance : ∀ call : ServoCall ι, Decidable call.FailsOnlyEarly
  | .init _ outcome => inferInstanceAs (Decidable (outcome.pwmStart = true → _))
  | .cleanup _ outcome => inferInstanceAs (Decidable (outcome.pwmDisable = true → _))

/-- `Accounted`, and the bookkeeping that keeps it: distinct servos have distinct
pins and mappings, and every name in use is older than `next`. -/
structure Rig.Sound (rig : Rig ι) : Prop extends rig.Accounted where
  pins : ∀ i j, (rig.servos i).ctrlPin = (rig.servos j).ctrlPin → i = j
  bases : ∀ i j base, (rig.servos i).pru = .mapped base → (rig.servos j).pru = .mapped base → i = j
  older : ∀ i base, (rig.servos i).pru = .mapped base → base < rig.kernel.next

theorem start_sound (ctrlPin : ι → String) (prunum : ι → Int)
    (distinct : Function.Injective ctrlPin) : (Rig.start ctrlPin prunum).Sound where
  closed := rfl
  mapping i := by simp [Rig.OwnsMapping, Rig.start]
  pwm i := by simp [Rig.start, Kernel.idle]
  pins i j same := distinct same
  bases i j base mapped := by simp [Rig.start] at mapped
  older i base mapped := by simp [Rig.start] at mapped

variable [DecidableEq ι]

def Rig.result (rig : Rig ι) : ServoCall ι → Int
  | .init i outcome => (initServo outcome (rig.servos i) rig.kernel).1
  | .cleanup i outcome => (servoCleanup outcome (rig.servos i) rig.kernel).1

def Rig.step (rig : Rig ι) : ServoCall ι → Rig ι
  | .init i outcome =>
      let (result, servo, kernel) := initServo outcome (rig.servos i) rig.kernel
      { servos := Function.update rig.servos i servo
        kernel := kernel
        initialised :=
          if result = 0 then Function.update rig.initialised i true else rig.initialised }
  | .cleanup i outcome =>
      let (result, kernel) := servoCleanup outcome (rig.servos i) rig.kernel
      { servos := rig.servos
        kernel := kernel
        initialised :=
          if result = 0 then Function.update rig.initialised i false else rig.initialised }

/-- A call that returns nonzero leaves the ledger as it found it. -/
def Rig.Atomic (rig : Rig ι) (call : ServoCall ι) : Prop :=
  rig.result call ≠ 0 → (rig.step call).kernel.held = rig.kernel.held

theorem step_init_refused (rig : Rig ι) (i : ι) (outcome : InitOutcome)
    (refused : outcome.pwmStart = false) : rig.step (.init i outcome) = rig := by
  simp [Rig.step, initServo_refused _ _ _ refused]

theorem step_cleanup_refused (rig : Rig ι) (i : ι) (outcome : CleanupOutcome)
    (refused : outcome.pwmDisable = false) : rig.step (.cleanup i outcome) = rig := by
  simp [Rig.step, servoCleanup_refused _ _ _ refused]

/-- The rig after a successful `init_servo` of servo `i`. -/
def Rig.acquired (rig : Rig ι) (i : ι) : Rig ι where
  servos := Function.update rig.servos i
    { rig.servos i with
      pru := .mapped (rig.kernel.next + 1)
      pruDram := some (rig.kernel.next + 1, dramOffset (rig.servos i).prunum) }
  kernel :=
    ⟨⟨(insert rig.kernel.next rig.kernel.held.descriptors).erase rig.kernel.next,
      insert (pruMapping (rig.kernel.next + 1)) rig.kernel.held.mappings,
      insert (rig.servos i).ctrlPin rig.kernel.held.pwms⟩, rig.kernel.next + 2⟩
  initialised := Function.update rig.initialised i true

/-- The rig after a successful `servo_cleanup` of servo `i`, mapped at `base`. -/
def Rig.released (rig : Rig ι) (i : ι) (base : Nat) : Rig ι where
  servos := rig.servos
  kernel := { rig.kernel with held := { rig.kernel.held with
    pwms := rig.kernel.held.pwms.erase (rig.servos i).ctrlPin
    mappings := rig.kernel.held.mappings.filter fun m => ¬(m.base = base ∧ m.len = PRU_LEN) } }
  initialised := Function.update rig.initialised i false

theorem step_init_ready (rig : Rig ι) (i : ι) (outcome : InitOutcome)
    (started : outcome.pwmStart = true) (opened : outcome.openMem = true)
    (mapped : outcome.mmap = true) : rig.step (.init i outcome) = rig.acquired i := by
  simp [Rig.step, Rig.acquired, initServo_ready _ _ _ started opened mapped]

theorem step_cleanup_released (rig : Rig ι) (i : ι) (outcome : CleanupOutcome)
    (disabled : outcome.pwmDisable = true) (unmaps : outcome.munmap = true) (base : Nat)
    (mapped : (rig.servos i).pru = .mapped base) :
    rig.step (.cleanup i outcome) = rig.released i base := by
  simp [Rig.step, Rig.released, servoCleanup_released _ _ _ disabled unmaps base mapped]

theorem pruMapping_injective {left right : Nat} (same : pruMapping left = pruMapping right) :
    left = right :=
  congrArg Mapping.base same

section Acquired
variable (rig : Rig ι) (i j : ι)

theorem acquired_pin : ((rig.acquired i).servos j).ctrlPin = (rig.servos j).ctrlPin := by
  by_cases same : j = i
  · simp [Rig.acquired, same]
  · simp [Rig.acquired, same]

theorem acquired_self : ((rig.acquired i).servos i).pru = .mapped (rig.kernel.next + 1) := by
  simp [Rig.acquired]

theorem acquired_other (different : j ≠ i) : (rig.acquired i).servos j = rig.servos j := by
  simp [Rig.acquired, different]

theorem acquired_owns_other {rig : Rig ι} (sound : rig.Sound) (different : j ≠ i) :
    (rig.acquired i).OwnsMapping j ↔ rig.OwnsMapping j := by
  have held : ∀ base, (rig.servos j).pru = .mapped base →
      (pruMapping base ∈ (rig.acquired i).kernel.held.mappings ↔
        pruMapping base ∈ rig.kernel.held.mappings) := by
    intro base mapped
    -- The new mapping is younger than every base in use.
    have fresh : pruMapping base ≠ pruMapping (rig.kernel.next + 1) := by
      intro eq
      have older := sound.older j base mapped
      have same := pruMapping_injective eq
      omega
    simp [Rig.acquired, fresh]
  rw [Rig.OwnsMapping, Rig.OwnsMapping, acquired_other rig i j different]
  exact exists_congr fun base => and_congr_right (held base)

theorem acquired_base {rig : Rig ι} (sound : rig.Sound) {base : Nat}
    (mapped : ((rig.acquired i).servos j).pru = .mapped base) :
    (j = i ∧ base = rig.kernel.next + 1) ∨
      (j ≠ i ∧ base < rig.kernel.next ∧ (rig.servos j).pru = .mapped base) := by
  by_cases same : j = i
  · rw [same, acquired_self, Pointer.mapped.injEq] at mapped
    exact Or.inl ⟨same, mapped.symm⟩
  · rw [acquired_other rig i j same] at mapped
    exact Or.inr ⟨same, sound.older j base mapped, mapped⟩

end Acquired

theorem acquired_sound {rig : Rig ι} (sound : rig.Sound) (i : ι) : (rig.acquired i).Sound := by
  constructor
  · constructor
    · simp [Rig.acquired, sound.closed]
    · intro j
      by_cases same : j = i
      · subst same
        simp [Rig.OwnsMapping, Rig.acquired]
      · have live : (rig.acquired i).initialised j = rig.initialised j := by
          simp [Rig.acquired, same]
        rw [acquired_owns_other i j sound same, live]
        exact sound.mapping j
    · intro j
      rw [acquired_pin]
      by_cases same : j = i
      · simp [Rig.acquired, same]
      · have differ : (rig.servos j).ctrlPin ≠ (rig.servos i).ctrlPin :=
          fun eq => same (sound.pins j i eq)
        simp [Rig.acquired, same, differ, sound.pwm j]
  · intro j k samePin
    rw [acquired_pin, acquired_pin] at samePin
    exact sound.pins j k samePin
  · intro j k base left right
    rcases acquired_base i j sound left with ⟨first, new⟩ | ⟨first, old, before⟩
    · rcases acquired_base i k sound right with ⟨second, _⟩ | ⟨second, old, _⟩
      · rw [first, second]
      · omega
    · rcases acquired_base i k sound right with ⟨second, new⟩ | ⟨second, _, also⟩
      · omega
      · exact sound.bases j k base before also
  · intro j base mapped
    have next : (rig.acquired i).kernel.next = rig.kernel.next + 2 := rfl
    rcases acquired_base i j sound mapped with ⟨_, new⟩ | ⟨_, old, _⟩
    · omega
    · omega

theorem released_sound {rig : Rig ι} (sound : rig.Sound) (i : ι) (base : Nat)
    (mapped : (rig.servos i).pru = .mapped base) : (rig.released i base).Sound := by
  obtain ⟨⟨closed, mapping, pwm⟩, pins, bases, older⟩ := sound
  refine ⟨⟨closed, ?_, ?_⟩, pins, bases, older⟩
  · intro j
    by_cases same : j = i
    · subst same
      simp [Rig.OwnsMapping, Rig.released, mapped, pruMapping]
    · have held : ∀ b, (rig.servos j).pru = .mapped b →
          (pruMapping b ∈ (rig.released i base).kernel.held.mappings ↔
            pruMapping b ∈ rig.kernel.held.mappings) := by
        intro b mappedAt
        have differ : b ≠ base := by
          intro eq
          exact same (bases j i base (eq ▸ mappedAt) mapped)
        simp [Rig.released, pruMapping, differ]
      have live : (rig.released i base).initialised j = rig.initialised j := by
        simp [Rig.released, same]
      rw [live, ← mapping j]
      exact exists_congr fun b => and_congr_right (held b)
  · intro j
    by_cases same : j = i
    · simp [Rig.released, same]
    · have differ : (rig.servos j).ctrlPin ≠ (rig.servos i).ctrlPin :=
        fun eq => same (pins j i eq)
      simp [Rig.released, same, differ, pwm j]

theorem step_early {rig : Rig ι} (sound : rig.Sound) (call : ServoCall ι) (legal : rig.Legal call)
    (early : call.FailsOnlyEarly) : (rig.step call).Sound ∧ rig.Atomic call := by
  cases call with
  | init i outcome =>
      cases started : outcome.pwmStart with
      | false =>
          have unchanged := step_init_refused rig i outcome started
          rw [Rig.Atomic, unchanged]
          exact ⟨sound, fun _ => rfl⟩
      | true =>
          obtain ⟨opened, mapped⟩ := early started
          rw [Rig.Atomic, step_init_ready rig i outcome started opened mapped]
          refine ⟨acquired_sound sound i, fun failed => absurd ?_ failed⟩
          simp [Rig.result, initServo_ready _ _ _ started opened mapped]
  | cleanup i outcome =>
      cases disabled : outcome.pwmDisable with
      | false =>
          have unchanged := step_cleanup_refused rig i outcome disabled
          rw [Rig.Atomic, unchanged]
          exact ⟨sound, fun _ => rfl⟩
      | true =>
          obtain ⟨base, mapped, -⟩ := (sound.mapping i).mpr legal
          have unmaps := early disabled
          rw [Rig.Atomic, step_cleanup_released rig i outcome disabled unmaps base mapped]
          refine ⟨released_sound sound i base mapped, fun failed => absurd ?_ failed⟩
          simp [Rig.result, servoCleanup_released _ _ _ disabled unmaps base mapped]

theorem step_late {rig : Rig ι} (sound : rig.Sound) (call : ServoCall ι) (legal : rig.Legal call)
    (late : ¬call.FailsOnlyEarly) : ¬rig.Atomic call := by
  intro atomic
  cases call with
  | init i outcome =>
      have idle : (rig.servos i).ctrlPin ∉ rig.kernel.held.pwms := by
        rw [sound.pwm i, legal]
        exact Bool.false_ne_true
      obtain ⟨started, failed⟩ : outcome.pwmStart = true ∧
          ¬(outcome.openMem = true ∧ outcome.mmap = true) := by
        simpa [ServoCall.FailsOnlyEarly] using late
      cases opened : outcome.openMem with
      | false =>
          have result := initServo_unopened outcome (rig.servos i) rig.kernel started opened
          have kept := atomic (by simp [Rig.result, result])
          simp only [Rig.step, result] at kept
          have same := congrArg Holdings.pwms kept
          exact idle (same ▸ Finset.mem_insert_self ..)
      | true =>
          have unmapped : outcome.mmap = false := by simpa [opened] using failed
          have result :=
            initServo_unmapped outcome (rig.servos i) rig.kernel started opened unmapped
          have kept := atomic (by simp [Rig.result, result])
          simp only [Rig.step, result] at kept
          have same := congrArg Holdings.pwms kept
          exact idle (same ▸ Finset.mem_insert_self ..)
  | cleanup i outcome =>
      have running : (rig.servos i).ctrlPin ∈ rig.kernel.held.pwms := (sound.pwm i).mpr legal
      obtain ⟨disabled, failed⟩ : outcome.pwmDisable = true ∧ outcome.munmap = false := by
        simpa [ServoCall.FailsOnlyEarly] using late
      have result := servoCleanup_stillMapped outcome (rig.servos i) rig.kernel disabled failed
      have kept := atomic (by simp [Rig.result, result])
      simp only [Rig.step, result] at kept
      have same := congrArg Holdings.pwms kept
      rw [← same] at running
      exact absurd running (Finset.notMem_erase _ _)

/-- The ledger is kept along a run exactly when no call of the run fails late. -/
theorem servo_ledger_iff (ctrlPin : ι → String) (prunum : ι → Int)
    (distinct : Function.Injective ctrlPin) (calls : List (ServoCall ι))
    (legal : Machine.Each Rig.step Rig.Legal (Rig.start ctrlPin prunum) calls) :
    Machine.Along Rig.step Rig.Accounted Rig.Atomic (Rig.start ctrlPin prunum) calls ↔
      ∀ call ∈ calls, call.FailsOnlyEarly := by
  rw [Machine.along_iff_each Rig.Sound Rig.Legal (fun _ call => call.FailsOnlyEarly)
    (fun rig sound => sound.toAccounted)
    (fun rig call sound allowed early => step_early sound call allowed early)
    (fun rig call sound allowed late atomic => absurd atomic (step_late sound call allowed late))
    (start_sound ctrlPin prunum distinct) calls legal, Machine.each_iff_forall]

/-- The two servos of `main`, and `rotation_servo` cleaned up again. -/
theorem servo_ledger_iff_two_servos :
    let calls : List (ServoCall Bool) :=
      [.init false ⟨true, true, true⟩, .init true ⟨true, true, true⟩, .cleanup true ⟨true, true⟩]
    let ctrlPin := fun i : Bool => if i then "P8_13" else "P9_16"
    Machine.Along Rig.step Rig.Accounted Rig.Atomic (Rig.start ctrlPin Bool.toInt) calls :=
  (servo_ledger_iff _ _ (by simp [Function.Injective]) _ (by decide)).mpr (by decide)

/-- `init_servo` returns 1 after a failed `open` and leaves the PWM running. -/
theorem failed_open_leaks_pwm :
    let rig : Rig Unit := Rig.start (fun _ => "P8_13") (fun _ => 1)
    let call := ServoCall.init () ⟨true, false, true⟩
    rig.Legal call ∧ rig.result call = 1 ∧
      (rig.step call).kernel.held = ⟨∅, ∅, {"P8_13"}⟩ ∧
      ¬Machine.Along Rig.step Rig.Accounted Rig.Atomic rig [call] := by
  refine ⟨by decide, by decide, by decide, ?_⟩
  rintro ⟨-, atomic, -⟩
  exact absurd (atomic (by decide)) (by decide)

end Rig

end ProjectOwl.Beagle
