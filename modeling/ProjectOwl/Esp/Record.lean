import Mathlib.Data.List.ReduceOption
import ProjectOwl.Esp.Camera
import ProjectOwl.Lib.Block

/-! # The recording handler

`camera_record_get_handler` of `esp/main/owl.c` as a program over the outcomes
of the calls it makes.  It prints a file name into a block from `malloc` and
then writes frames to that file for ever; `malloc` is taken to return a block.
The block is sized by the width of the time in memory, not by its digits.  The
sensor's frame size and, but for the frame they look at, the log lines are left
out. -/

set_option autoImplicit false

namespace ProjectOwl.Esp

open Proc

def sizeofInt64 : Nat := 8

/-- The digits `%lli` prints. -/
def signedDecimal (n : Int) : List UInt8 :=
  if n < 0 then ascii "-" ++ decimal n.natAbs else decimal n.natAbs

/-- The format of the name with its `%lli` printed. -/
def vidName (time : Int) : List UInt8 :=
  ascii "/sdcard/vid_" ++ signedDecimal time ++ ascii ".jpg"

/-- The camera and, besides it, the readings of the clock still to come, the
block of the name, the names of the files opened and what was written. -/
structure Recorder where
  camera : Camera
  clock : List Int
  vidBlock : Block UInt8
  opened : List (List UInt8)
  written : List (List UInt8)

def onCamera {α : Type} (p : Proc Camera α) : Proc Recorder α := fun r =>
  ((exec p r.camera).1, { r with camera := (exec p r.camera).2 })

/-! ## The calls the handler makes -/

def espTimerGetTime : Proc Recorder Int :=
  .step fun r =>
    match r.clock with
    | [] => none
    | now :: rest => some (now, { r with clock := rest })

def malloc (size : Nat) : Proc Recorder PUnit :=
  .modify fun r => { r with vidBlock := Block.alloc size }

/-- `sprintf` into the block: the text and its NUL. -/
def sprintf (text : List UInt8) : Proc Recorder PUnit :=
  .modify fun r => { r with vidBlock := r.vidBlock.storeAll 0 (text ++ [0]) }

def fopen (name : List UInt8) : Proc Recorder PUnit :=
  .modify fun r => { r with opened := r.opened ++ [name] }

def fwrite (bytes : List UInt8) : Proc Recorder PUnit :=
  .modify fun r => { r with written := r.written ++ [bytes] }

/-- The body of the `while` loop, which has no exit. -/
def recordBody : Proc Recorder (PUnit ⊕ Empty) := do
  match ← onCamera espCameraFbGet with
  | some fb =>
      let buf ← onCamera (fbBuf fb)
      fwrite buf.bytes
      onCamera (espCameraFbReturn fb)
      -- the log line prints `fb->len`
      let _ ← onCamera (fbBuf fb)
      pure (.inl ⟨⟩)
  | none => pure (.inl ⟨⟩)

def cameraRecordGetHandler (fuel : Nat) : Proc Recorder Int := do
  malloc (17 + sizeofInt64)
  let time ← espTimerGetTime
  sprintf (vidName time)
  fopen (vidName time)
  let left ← loop (fun _ => recordBody) fuel PUnit.unit
  nomatch left

/-! ## The name -/

theorem vidName_length (t : Nat) : (vidName t).length = 16 + (decimal t).length := by
  have positive : ¬(t : Int) < 0 := by omega
  have front : (ascii "/sdcard/vid_").length = 12 := by decide
  have back : (ascii ".jpg").length = 4 := by decide
  simp only [vidName, signedDecimal, if_neg positive, List.length_append, front, back,
    Int.natAbs_natCast]
  omega

theorem vidName_fits_iff (t : Nat) :
    (vidName t).length + 1 ≤ 17 + sizeofInt64 ↔ t < 100000000 := by
  have digits : (decimal t).length ≤ 8 ↔ t < 100000000 := decimal_length_le_iff t 8 (by decide)
  rw [vidName_length, sizeofInt64]
  omega

/-! ## The loop -/

/-- What an iteration does to the frame it gets; the last entry is the log line's. -/
def recordLedger (f : Nat) : List BufEvent :=
  [.fbGet f, .read (.frame f), .fbReturn f, .read (.frame f)]

/-- From the first state to the second the handler dealt with these captures. -/
structure Recorded (seen : List (Option Shot)) (r s : Recorder) : Prop where
  captures : r.camera.captures = seen ++ s.camera.captures
  written : s.written = r.written ++ seen.reduceOption.map Shot.bytes
  fresh : s.camera.fresh = r.camera.fresh + seen.reduceOption.length
  ledger : s.camera.ledger = r.camera.ledger ++
    (List.range' r.camera.fresh seen.reduceOption.length).flatMap recordLedger
  vidBlock : s.vidBlock = r.vidBlock
  opened : s.opened = r.opened

theorem Recorded.refl (r : Recorder) : Recorded [] r r := by
  constructor <;> simp

theorem Recorded.trans {first later : List (Option Shot)} {r s t : Recorder}
    (before : Recorded first r s) (after : Recorded later s t) :
    Recorded (first ++ later) r t where
  captures := by rw [before.captures, after.captures, List.append_assoc]
  written := by
    rw [after.written, before.written, List.reduceOption_append, List.map_append,
      List.append_assoc]
  fresh := by
    rw [after.fresh, before.fresh, List.reduceOption_append, List.length_append, Nat.add_assoc]
  ledger := by
    rw [after.ledger, before.ledger, before.fresh, List.reduceOption_append, List.length_append,
      ← List.range'_append_1, List.flatMap_append, List.append_assoc]
  vidBlock := after.vidBlock.trans before.vidBlock
  opened := after.opened.trans before.opened

theorem exec_onCamera_some {α : Type} {p : Proc Camera α} {r : Recorder} {a : α} {c : Camera}
    (ran : exec p r.camera = (some a, c)) :
    exec (onCamera p) r = (some a, { r with camera := c }) := by
  change ((exec p r.camera).1, { r with camera := (exec p r.camera).2 }) = _
  rw [ran]

theorem recordBody_ended (r : Recorder) (captures : r.camera.captures = []) :
    exec recordBody r = (none, r) := by
  have got : exec (onCamera espCameraFbGet) r = (none, r) := by
    have stopped : exec espCameraFbGet r.camera = (none, r.camera) := by
      simp only [exec, espCameraFbGet, step, OptionT.run, StateT.run, captures]
    change ((exec espCameraFbGet r.camera).1, { r with camera := (exec _ r.camera).2 }) = _
    rw [stopped]
  rw [recordBody, exec_bind, got]

def Recorder.missed (r : Recorder) (rest : List (Option Shot)) : Recorder :=
  { r with camera := { r.camera with captures := rest } }

def Recorder.took (r : Recorder) (shot : Shot) (rest : List (Option Shot)) : Recorder where
  camera := { r.camera with
    captures := rest
    fresh := r.camera.fresh + 1
    ledger := r.camera.ledger ++ recordLedger r.camera.fresh }
  clock := r.clock
  vidBlock := r.vidBlock
  opened := r.opened
  written := r.written ++ [shot.bytes]

theorem missed_recorded (r : Recorder) (rest : List (Option Shot))
    (captures : r.camera.captures = none :: rest) : Recorded [none] r (r.missed rest) := by
  constructor <;> simp [captures, Recorder.missed]

theorem took_recorded (r : Recorder) (shot : Shot) (rest : List (Option Shot))
    (captures : r.camera.captures = some shot :: rest) :
    Recorded [some shot] r (r.took shot rest) := by
  constructor <;> simp [captures, Recorder.took]

theorem recordBody_missed (r : Recorder) (rest : List (Option Shot))
    (captures : r.camera.captures = none :: rest) :
    exec recordBody r = (some (.inl ⟨⟩), r.missed rest) := by
  have got : exec espCameraFbGet r.camera = (some none, { r.camera with captures := rest }) := by
    apply exec_step_eq_some.mpr
    rw [captures]
  rw [recordBody, exec_bind_some (exec_onCamera_some got)]
  rfl

theorem recordBody_took (r : Recorder) (shot : Shot) (rest : List (Option Shot))
    (captures : r.camera.captures = some shot :: rest) :
    exec recordBody r = (some (.inl ⟨⟩), r.took shot rest) := by
  have got : exec espCameraFbGet r.camera =
      (some (some ⟨r.camera.fresh, shot⟩),
        { r.camera with captures := rest, fresh := r.camera.fresh + 1 }.record
          (.fbGet r.camera.fresh)) := by
    apply exec_step_eq_some.mpr
    rw [captures]
  have ledger : r.camera.ledger ++ recordLedger r.camera.fresh =
      r.camera.ledger ++ [.fbGet r.camera.fresh] ++ [.read (.frame r.camera.fresh)] ++
        [.fbReturn r.camera.fresh] ++ [.read (.frame r.camera.fresh)] := by
    simp [recordLedger]
  rw [recordBody, exec_bind_some (exec_onCamera_some got), Recorder.took, ledger]
  rfl

theorem recordBody_recorded (r : Recorder) (capture : Option Shot) (rest : List (Option Shot))
    (captures : r.camera.captures = capture :: rest) :
    ∃ s, exec recordBody r = (some (.inl ⟨⟩), s) ∧ Recorded [capture] r s := by
  cases capture with
  | none => exact ⟨_, recordBody_missed r rest captures, missed_recorded r rest captures⟩
  | some shot => exact ⟨_, recordBody_took r shot rest captures, took_recorded r shot rest captures⟩

theorem recordLoop_recorded (fuel : Nat) (r : Recorder) :
    ∃ seen, Recorded seen r (exec (loop (fun _ => recordBody) fuel PUnit.unit) r).2 := by
  induction fuel generalizing r with
  | zero => exact ⟨[], Recorded.refl r⟩
  | succ fuel ih =>
      cases captures : r.camera.captures with
      | nil =>
          rw [loop, exec_bind, recordBody_ended r captures]
          exact ⟨[], Recorded.refl r⟩
      | cons capture rest =>
          obtain ⟨s, ran, one⟩ := recordBody_recorded r capture rest captures
          obtain ⟨seen, others⟩ := ih s
          rw [loop_next ran]
          exact ⟨capture :: seen, one.trans others⟩

/-! ## The handler -/

/-- The handler called with these outcomes to come. -/
def Recorder.start (camera : Camera) (clock : List Int) : Recorder :=
  ⟨camera, clock, Block.alloc 0, [], []⟩

def Recorder.named (camera : Camera) (t : Nat) (clock : List Int) : Recorder :=
  ⟨camera, clock, (Block.alloc (17 + sizeofInt64)).storeAll 0 (vidName t ++ [0]), [vidName t], []⟩

/-- Once the file is open the handler records and nothing else, and never returns. -/
theorem cameraRecordGetHandler_recorded (camera : Camera) (t : Nat) (clock : List Int)
    (fuel : Nat) :
    let run := exec (cameraRecordGetHandler fuel) (Recorder.start camera (t :: clock))
    run.1 = none ∧ ∃ seen, Recorded seen (Recorder.named camera t clock) run.2 := by
  have whole : exec (cameraRecordGetHandler fuel) (Recorder.start camera (t :: clock)) =
      (none, (exec (loop (fun _ => recordBody) fuel PUnit.unit)
        (Recorder.named camera t clock)).2) := by
    have timed : exec espTimerGetTime
        { Recorder.start camera (t :: clock) with vidBlock := .alloc (17 + sizeofInt64) } =
          (some (t : Int),
            { Recorder.start camera clock with vidBlock := .alloc (17 + sizeofInt64) }) :=
      exec_step_eq_some.mpr rfl
    unfold cameraRecordGetHandler malloc sprintf fopen
    rw [exec_bind_some (exec_modify _ _), exec_bind_some timed,
      exec_bind_some (exec_modify _ _), exec_bind_some (exec_modify _ _), exec_bind_endless]
    rfl
  rw [whole]
  exact ⟨rfl, recordLoop_recorded fuel (Recorder.named camera t clock)⟩

/-- The name and its NUL stay in the block, at any time of any run, exactly when
the clock shows less than a hundred seconds. -/
theorem vidName_fits_block_iff (camera : Camera) (t : Nat) (clock : List Int) (fuel : Nat) :
    ((vidName t).length + 1 ≤ 17 + sizeofInt64 ∧
      (exec (cameraRecordGetHandler fuel)
        (Recorder.start camera (t :: clock))).2.vidBlock.InBounds) ↔ t < 100000000 := by
  obtain ⟨-, seen, recorded⟩ := cameraRecordGetHandler_recorded camera t clock fuel
  have stored : (exec (cameraRecordGetHandler fuel)
      (Recorder.start camera (t :: clock))).2.vidBlock.InBounds ↔
        (vidName t).length + 1 ≤ 17 + sizeofInt64 := by
    rw [recorded.vidBlock, Recorder.named, Block.inBounds_storeAll]
    simp
  rw [stored, and_self]
  exact vidName_fits_iff t

/-- The twenty-sixth byte of `/sdcard/vid_100000000.jpg`, its NUL. -/
theorem vidName_outside_block :
    ¬∀ t : Nat, t < 9223372036854775808 → (vidName t).length + 1 ≤ 17 + sizeofInt64 := by
  intro fits
  exact absurd (fits 100000000 (by decide)) (by decide +kernel)

end ProjectOwl.Esp
