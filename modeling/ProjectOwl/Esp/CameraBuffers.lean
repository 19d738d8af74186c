import Mathlib.Data.List.Count
import ProjectOwl.Esp.Camera

/-! # Frames and JPEG buffers of the stream handler

Every part the handler gets through, sent or not, takes one frame and perhaps
one JPEG buffer and gives both back once.  The iteration in which a conversion
fails gives its frame back twice, and reads it in between. -/

set_option autoImplicit false

namespace ProjectOwl.Esp

open BufEvent Proc

/-- The first event gives back what the second one reads. -/
def BufEvent.TouchedBy : BufEvent → BufEvent → Prop
  | fbReturn f, read (.frame g) => f = g
  | freed (some (.jpg j)), read (.jpg k) => j = k
  | _, _ => False

structure Balanced (ledger : List BufEvent) : Prop where
  returned : ∀ f, fbGet f ∈ ledger → ledger.count (fbReturn f) = 1
  lent : ∀ f, fbReturn f ∈ ledger → fbGet f ∈ ledger
  untouched : ledger.Pairwise fun event later => ¬event.TouchedBy later
  freedOnce : ∀ j, produced j ∈ ledger → ledger.count (freed (some (.jpg j))) = 1
  freedOnly : ∀ buf, freed buf ∈ ledger → ∃ j, buf = some (.jpg j) ∧ produced j ∈ ledger

/-! ## Ledgers over different names -/

def BufRef.name : BufRef → Nat
  | .frame f => f
  | .jpg j => j

def BufEvent.name : BufEvent → Option Nat
  | fbGet f => some f
  | fbReturn f => some f
  | produced j => some j
  | freed buf => buf.map BufRef.name
  | read buf => some buf.name

def Below (n : Nat) (ledger : List BufEvent) : Prop :=
  ∀ event ∈ ledger, ∀ k, event.name = some k → k < n

def From (n : Nat) (ledger : List BufEvent) : Prop :=
  ∀ event ∈ ledger, ∀ k, event.name = some k → n ≤ k

theorem Below.append {n : Nat} {left right : List BufEvent} (below : Below n left)
    (also : Below n right) : Below n (left ++ right) := by
  intro event member
  rcases List.mem_append.mp member with inLeft | inRight
  · exact below event inLeft
  · exact also event inRight

theorem Below.mono {m n : Nat} {ledger : List BufEvent} (below : Below m ledger) (le : m ≤ n) :
    Below n ledger :=
  fun event member k named => Nat.lt_of_lt_of_le (below event member k named) le

theorem BufEvent.TouchedBy.name {event later : BufEvent} (touched : event.TouchedBy later) :
    ∃ k, event.name = some k ∧ later.name = some k := by
  revert touched
  fun_cases BufEvent.TouchedBy event later with
  | case1 f g =>
      rintro rfl
      exact ⟨f, rfl, rfl⟩
  | case2 j k =>
      rintro rfl
      exact ⟨j, rfl, rfl⟩
  | case3 => exact False.elim

theorem Balanced.append {n : Nat} {left right : List BufEvent} (before : Balanced left)
    (after : Balanced right) (below : Below n left) (above : From n right) :
    Balanced (left ++ right) := by
  -- A named event occurs on one side only.
  have apart : ∀ event later k, event ∈ left → later ∈ right → event.name = some k →
      later.name ≠ some k := by
    intro event later k inLeft inRight named alsoNamed
    have := below event inLeft k named
    have := above later inRight k alsoNamed
    omega
  have onlyLeft : ∀ event later k, event ∈ left → event.name = some k → later.name = some k →
      (left ++ right).count later = left.count later := by
    intro event later k inLeft named alsoNamed
    have absent : later ∉ right := fun inRight =>
      apart event later k inLeft inRight named alsoNamed
    rw [List.count_append, List.count_eq_zero.mpr absent, Nat.add_zero]
  have onlyRight : ∀ event later k, event ∈ right → event.name = some k → later.name = some k →
      (left ++ right).count later = right.count later := by
    intro event later k inRight named alsoNamed
    have absent : later ∉ left := fun inLeft =>
      apart later event k inLeft inRight alsoNamed named
    rw [List.count_append, List.count_eq_zero.mpr absent, Nat.zero_add]
  refine ⟨?_, ?_, ?_, ?_, ?_⟩
  · intro f got
    rcases List.mem_append.mp got with inLeft | inRight
    · rw [onlyLeft (fbGet f) (fbReturn f) f inLeft rfl rfl]
      exact before.returned f inLeft
    · rw [onlyRight (fbGet f) (fbReturn f) f inRight rfl rfl]
      exact after.returned f inRight
  · intro f given
    rcases List.mem_append.mp given with inLeft | inRight
    · exact List.mem_append_left _ (before.lent f inLeft)
    · exact List.mem_append_right _ (after.lent f inRight)
  · refine List.pairwise_append.mpr ⟨before.untouched, after.untouched, ?_⟩
    intro event inLeft later inRight touched
    obtain ⟨k, named, alsoNamed⟩ := touched.name
    exact apart event later k inLeft inRight named alsoNamed
  · intro j made
    rcases List.mem_append.mp made with inLeft | inRight
    · rw [onlyLeft (produced j) (freed (some (.jpg j))) j inLeft rfl rfl]
      exact before.freedOnce j inLeft
    · rw [onlyRight (produced j) (freed (some (.jpg j))) j inRight rfl rfl]
      exact after.freedOnce j inRight
  · intro buf gone
    rcases List.mem_append.mp gone with inLeft | inRight
    · obtain ⟨j, named, made⟩ := before.freedOnly buf inLeft
      exact ⟨j, named, List.mem_append_left _ made⟩
    · obtain ⟨j, named, made⟩ := after.freedOnly buf inRight
      exact ⟨j, named, List.mem_append_right _ made⟩

theorem balanced_nil : Balanced [] := by
  constructor <;> simp

/-! ## One part -/

/-- What an iteration does to its frame `f` and, when the frame is converted,
to the buffer `j`; `sent` tells whether the payload was handed to the server. -/
def partLedger (f : Nat) (converted : Option Nat) (sent : Bool) : List BufEvent :=
  match converted with
  | none =>
      [fbGet f, read (.frame f), read (.frame f)] ++
        (if sent then [read (.frame f)] else []) ++ [read (.frame f), fbReturn f]
  | some j =>
      [fbGet f, read (.frame f), read (.frame f), produced j] ++
        (if sent then [read (.jpg j)] else []) ++
          [read (.frame f), freed (some (.jpg j)), fbReturn f]

theorem partLedger_balanced (f : Nat) (converted : Option Nat) (sent : Bool) :
    Balanced (partLedger f converted sent) := by
  cases converted with
  | none => cases sent <;> constructor <;> simp [partLedger, BufEvent.TouchedBy]
  | some j => cases sent <;> constructor <;> simp [partLedger, BufEvent.TouchedBy]

theorem partLedger_name (f : Nat) (converted : Option Nat) (sent : Bool) :
    ∀ event ∈ partLedger f converted sent, ∀ k, event.name = some k → k = f ∨ k ∈ converted := by
  cases converted with
  | none =>
      cases sent <;> simp [partLedger, BufEvent.name, BufRef.name]
  | some j =>
      cases sent <;> simp [partLedger, BufEvent.name, BufRef.name]

theorem partLedger_names (f : Nat) (converted : Option Nat) (sent : Bool)
    (next : ∀ j ∈ converted, j = f + 1) :
    From f (partLedger f converted sent) ∧
      Below (f + 1 + converted.toList.length) (partLedger f converted sent) := by
  refine ⟨?_, ?_⟩
  · intro event member k named
    rcases partLedger_name f converted sent event member k named with rfl | isBuf
    · exact Nat.le_refl _
    · have := next k isBuf
      omega
  · intro event member k named
    rcases partLedger_name f converted sent event member k named with rfl | isBuf
    · omega
    · have follows := next k isBuf
      have some : converted.toList.length = 1 := by
        rw [Option.mem_def.mp isBuf, Option.toList_some, List.length_singleton]
      omega

/-! ## What the calls do -/

section Calls
variable {s t : Camera} {fb : Fb} {l l' : StreamLocals}

@[simp] theorem record_ledger (event : BufEvent) (w : Camera) :
    (w.record event).ledger = w.ledger ++ [event] := rfl

@[simp] theorem record_fresh (event : BufEvent) (w : Camera) : (w.record event).fresh = w.fresh :=
  rfl

@[simp] theorem record_conversions (event : BufEvent) (w : Camera) :
    (w.record event).conversions = w.conversions := rfl

theorem espCameraFbGet_some {got : Option Fb} (ran : exec espCameraFbGet s = (some got, t)) :
    (got = none ∧ t.ledger = s.ledger ∧ t.fresh = s.fresh ∧ s.captures.head? = some none) ∨
    ∃ shot, got = some ⟨s.fresh, shot⟩ ∧ t.ledger = s.ledger ++ [fbGet s.fresh] ∧
      t.fresh = s.fresh + 1 ∧ t.conversions = s.conversions ∧
      s.captures.head? = some (some shot) := by
  have stepped := exec_step_eq_some.mp ran
  rcases captures : s.captures with _ | ⟨_ | shot, rest⟩
  · simp [captures] at stepped
  · simp only [captures, Option.some.injEq, Prod.mk.injEq] at stepped
    obtain ⟨rfl, rfl⟩ := stepped
    exact Or.inl ⟨rfl, rfl, rfl, rfl⟩
  · simp only [captures, Option.some.injEq, Prod.mk.injEq] at stepped
    obtain ⟨rfl, rfl⟩ := stepped
    exact Or.inr ⟨shot, rfl, rfl, rfl, rfl, rfl⟩

theorem fbFormat_held {format : PixFormat} (held : fbReturn fb.name ∉ s.ledger)
    (ran : exec (fbFormat fb) s = (some format, t)) :
    format = fb.shot.format ∧ t = s.record (read (.frame fb.name)) := by
  have stepped := exec_step_eq_some.mp ran
  rw [if_neg held, Option.some.injEq, Prod.mk.injEq] at stepped
  exact ⟨stepped.1.symm, stepped.2.symm⟩

theorem fbFormat_ledger {format : PixFormat} (ran : exec (fbFormat fb) s = (some format, t)) :
    t.ledger = s.ledger ++ [read (.frame fb.name)] := by
  have stepped := exec_step_eq_some.mp ran
  split at stepped
  · cases stale : s.staleFormats with
    | nil => simp [stale] at stepped
    | cons next rest =>
        simp only [stale, Option.some.injEq, Prod.mk.injEq] at stepped
        obtain ⟨-, rfl⟩ := stepped
        rfl
  · simp only [Option.some.injEq, Prod.mk.injEq] at stepped
    obtain ⟨-, rfl⟩ := stepped
    rfl

theorem frame2jpg_some {jpg : Option JpgBuf} {quality : Nat}
    (ran : exec (frame2jpg fb quality) s = (some jpg, t)) :
    (jpg = none ∧ s.conversions.head? = some none ∧
      t.ledger = s.ledger ++ [read (.frame fb.name)]) ∨
    ∃ bytes, jpg = some ⟨.jpg s.fresh, bytes⟩ ∧ s.conversions.head? = some (some bytes) ∧
      t.ledger = s.ledger ++ [read (.frame fb.name), produced s.fresh] ∧
      t.fresh = s.fresh + 1 := by
  have stepped := exec_step_eq_some.mp ran
  rcases conversions : s.conversions with _ | ⟨_ | bytes, rest⟩
  · simp [conversions] at stepped
  · simp only [conversions, Option.some.injEq, Prod.mk.injEq] at stepped
    obtain ⟨rfl, rfl⟩ := stepped
    exact Or.inl ⟨rfl, rfl, rfl⟩
  · simp only [conversions, Option.some.injEq, Prod.mk.injEq] at stepped
    obtain ⟨rfl, rfl⟩ := stepped
    exact Or.inr ⟨bytes, rfl, rfl, by simp, rfl⟩

theorem httpdRespSendChunk_some {bytes : List UInt8} {res : Int}
    (ran : exec (httpdRespSendChunk bytes) s = (some res, t)) :
    t.ledger = s.ledger ∧ t.fresh = s.fresh := by
  have stepped := exec_step_eq_some.mp ran
  cases sends : s.sends with
  | nil => simp [sends] at stepped
  | cons next rest =>
      simp only [sends, Option.some.injEq, Prod.mk.injEq] at stepped
      obtain ⟨-, rfl⟩ := stepped
      exact ⟨rfl, rfl⟩

/-- `_jpg_buf` as an iteration that does not fail to convert leaves it. -/
def bufFor (f : Nat) (converted : Option Nat) : BufRef :=
  match converted with
  | none => .frame f
  | some j => .jpg j

theorem takeJpg_converts (held : fbReturn fb.name ∉ s.ledger)
    (converts : fb.shot.format ≠ .jpeg → s.conversions.head? ≠ some none)
    (ran : exec (takeJpg fb l) s = (some l', t)) :
    ∃ converted bytes, l' = { l with jpgBuf := some ⟨bufFor fb.name converted, bytes⟩ } ∧
      (∀ j ∈ converted, j = s.fresh) ∧ (converted = none ↔ fb.shot.format = .jpeg) ∧
      t.fresh = s.fresh + converted.toList.length ∧
      t.ledger = s.ledger ++ [read (.frame fb.name), read (.frame fb.name)] ++
        converted.toList.map produced := by
  obtain ⟨format, mid, readFormat, ran⟩ := exec_bind_eq_some.mp ran
  obtain ⟨rfl, rfl⟩ := fbFormat_held held readFormat
  by_cases jpeg : fb.shot.format = .jpeg
  · rw [if_neg (not_not.mpr jpeg)] at ran
    obtain ⟨buf, mid, readBuf, ran⟩ := exec_bind_eq_some.mp ran
    have stepped := exec_step_eq_some.mp readBuf
    simp only [Option.some.injEq, Prod.mk.injEq] at stepped
    obtain ⟨rfl, rfl⟩ := stepped
    obtain ⟨rfl, rfl⟩ := exec_pure_eq_some.mp ran
    exact ⟨none, fb.shot.bytes, rfl, by simp, by simp [jpeg], rfl, by simp⟩
  · rw [if_pos jpeg] at ran
    obtain ⟨jpg, mid, converted, ran⟩ := exec_bind_eq_some.mp ran
    rcases frame2jpg_some converted with ⟨-, failed, -⟩ | ⟨bytes, rfl, -, ledger, fresh⟩
    · exact absurd failed (converts jpeg)
    · obtain ⟨rfl, rfl⟩ := exec_pure_eq_some.mp ran
      refine ⟨some s.fresh, bytes, rfl, ?_, ?_, ?_, ?_⟩
      · simp
      · simp [jpeg]
      · simp [fresh]
      · simp [ledger]

theorem takeJpg_fails (held : fbReturn fb.name ∉ s.ledger) (raw : fb.shot.format ≠ .jpeg)
    (fails : s.conversions.head? = some none) (ran : exec (takeJpg fb l) s = (some l', t)) :
    l' = { l with res := ESP_FAIL } ∧
      t.ledger = s.ledger ++
        [read (.frame fb.name), read (.frame fb.name), fbReturn fb.name] := by
  obtain ⟨format, mid, readFormat, ran⟩ := exec_bind_eq_some.mp ran
  obtain ⟨rfl, rfl⟩ := fbFormat_held held readFormat
  rw [if_pos raw] at ran
  obtain ⟨jpg, mid, converted, ran⟩ := exec_bind_eq_some.mp ran
  rcases frame2jpg_some converted with ⟨rfl, -, ledger⟩ | ⟨bytes, -, succeeded, -, -⟩
  · obtain ⟨done, after, returned, ran⟩ := exec_bind_eq_some.mp ran
    rw [espCameraFbReturn, exec_modify_eq_some] at returned
    obtain ⟨rfl, rfl⟩ := exec_pure_eq_some.mp ran
    subst returned
    exact ⟨rfl, by simp [ledger]⟩
  · simp only [record_conversions] at succeeded
    rw [fails] at succeeded
    simp at succeeded

theorem sendJpgBuf_some {buf : Option JpgBuf} {res : Int}
    (ran : exec (sendJpgBuf buf) s = (some res, t)) :
    t.fresh = s.fresh ∧ t.ledger = s.ledger ++ buf.toList.map fun sent => read sent.ref := by
  cases buf with
  | none =>
      obtain ⟨ledger, fresh⟩ := httpdRespSendChunk_some ran
      exact ⟨fresh, by simp [ledger]⟩
  | some buf =>
      obtain ⟨done, mid, recorded, ran⟩ := exec_bind_eq_some.mp ran
      rw [exec_modify_eq_some] at recorded
      subst recorded
      obtain ⟨ledger, fresh⟩ := httpdRespSendChunk_some ran
      exact ⟨fresh, by simp [ledger]⟩

theorem sendIfOk_chunk {res sent : Int} {bytes : List UInt8}
    (ran : exec (sendIfOk res (httpdRespSendChunk bytes)) s = (some sent, t)) :
    t.ledger = s.ledger ∧ t.fresh = s.fresh ∧ (res ≠ ESP_OK → sent = res) := by
  by_cases ok : res = ESP_OK
  · rw [sendIfOk, if_pos ok] at ran
    obtain ⟨ledger, fresh⟩ := httpdRespSendChunk_some ran
    exact ⟨ledger, fresh, fun failed => absurd ok failed⟩
  · rw [sendIfOk, if_neg ok, exec_pure_eq_some] at ran
    obtain ⟨rfl, rfl⟩ := ran
    exact ⟨rfl, rfl, fun _ => rfl⟩

/-- A part is sent without a change to the ledger but the reading of its payload. -/
theorem sendPart_some (ran : exec (sendPart l) s = (some l', t)) :
    l'.jpgBuf = l.jpgBuf ∧ t.fresh = s.fresh ∧ (l.res ≠ ESP_OK → l'.res = l.res) ∧
      (t.ledger = s.ledger ∨ (l.res = ESP_OK ∧
        t.ledger = s.ledger ++ l.jpgBuf.toList.map fun sent => read sent.ref)) := by
  obtain ⟨afterBoundary, first, sentBoundary, ran⟩ := exec_bind_eq_some.mp ran
  obtain ⟨afterHeader, second, sentHeader, ran⟩ := exec_bind_eq_some.mp ran
  obtain ⟨afterData, third, sentData, ran⟩ := exec_bind_eq_some.mp ran
  obtain ⟨rfl, rfl⟩ := exec_pure_eq_some.mp ran
  obtain ⟨ledger, fresh, skipped⟩ := sendIfOk_chunk sentBoundary
  obtain ⟨ledgerHeader, freshHeader, skippedHeader⟩ := sendIfOk_chunk sentHeader
  by_cases ok : afterHeader = ESP_OK
  · rw [sendIfOk, if_pos ok] at sentData
    obtain ⟨freshData, ledgerData⟩ := sendJpgBuf_some sentData
    have sending : l.res = ESP_OK := by
      by_contra failed
      have boundaryFailed := skipped failed
      have headerFailed := skippedHeader (by rw [boundaryFailed]; exact failed)
      exact failed (by rw [← boundaryFailed, ← headerFailed, ok])
    refine ⟨rfl, by rw [freshData, freshHeader, fresh], fun failed => absurd sending failed, ?_⟩
    exact Or.inr ⟨sending, by rw [ledgerData, ledgerHeader, ledger]⟩
  · rw [sendIfOk, if_neg ok, exec_pure_eq_some] at sentData
    obtain ⟨rfl, rfl⟩ := sentData
    refine ⟨rfl, by rw [freshHeader, fresh], ?_, Or.inl (by rw [ledgerHeader, ledger])⟩
    intro failed
    have boundaryFailed := skipped failed
    rw [← boundaryFailed]
    exact skippedHeader (by rw [boundaryFailed]; exact failed)

/-- Whatever the format field holds, the frame is returned last. -/
theorem releaseJpg_returns {done : PUnit} (ran : exec (releaseJpg fb l) s = (some done, t)) :
    ∃ more, t.ledger = s.ledger ++ more ++ [fbReturn fb.name] := by
  obtain ⟨format, mid, readFormat, ran⟩ := exec_bind_eq_some.mp ran
  obtain ⟨released, after, ranFree, returned⟩ := exec_bind_eq_some.mp ran
  rw [espCameraFbReturn, exec_modify_eq_some] at returned
  subst returned
  have stale := fbFormat_ledger readFormat
  by_cases raw : format ≠ .jpeg
  · rw [freeJpgBuf, if_pos raw, free, exec_modify_eq_some] at ranFree
    subst ranFree
    exact ⟨[read (.frame fb.name), freed (l.jpgBuf.map JpgBuf.ref)], by simp [stale]⟩
  · simp only [freeJpgBuf, if_neg raw, exec_pure, Prod.mk.injEq, true_and] at ranFree
    subst ranFree
    exact ⟨[read (.frame fb.name)], by simp [stale]⟩

theorem releaseJpg_held (held : fbReturn fb.name ∉ s.ledger) {done : PUnit}
    (ran : exec (releaseJpg fb l) s = (some done, t)) :
    t.fresh = s.fresh ∧
      t.ledger = s.ledger ++ [read (.frame fb.name)] ++
        (if fb.shot.format ≠ .jpeg then [freed (l.jpgBuf.map JpgBuf.ref)] else []) ++
          [fbReturn fb.name] := by
  obtain ⟨format, mid, readFormat, ran⟩ := exec_bind_eq_some.mp ran
  obtain ⟨rfl, rfl⟩ := fbFormat_held held readFormat
  obtain ⟨released, after, ranFree, returned⟩ := exec_bind_eq_some.mp ran
  rw [espCameraFbReturn, exec_modify_eq_some] at returned
  subst returned
  by_cases raw : fb.shot.format ≠ .jpeg
  · rw [freeJpgBuf, if_pos raw, free, exec_modify_eq_some] at ranFree
    subst ranFree
    simp [raw]
  · simp only [freeJpgBuf, if_neg raw, exec_pure, Prod.mk.injEq, true_and] at ranFree
    subst ranFree
    simp [raw]

end Calls

/-! ## One iteration -/

/-- The next frame is not a JPEG and its conversion fails. -/
def ConversionFails (w : Camera) : Prop :=
  ∃ shot, w.captures.head? = some (some shot) ∧ shot.format ≠ .jpeg ∧
    w.conversions.head? = some none

/-- At a loop head every frame and buffer has been given back. -/
structure HeadBalanced (l : StreamLocals) (w : Camera) : Prop where
  ok : l.res = ESP_OK
  balanced : Balanced w.ledger
  below : Below w.fresh w.ledger

theorem Below.not_returned {n : Nat} {ledger : List BufEvent} (below : Below n ledger) :
    fbReturn n ∉ ledger :=
  fun member => Nat.lt_irrefl n (below _ member n rfl)

section Iteration
variable {s t : Camera} {l : StreamLocals} {outcome : StreamLocals ⊕ Int}

/-- The calls on a captured frame add the rest of one part's ledger. -/
theorem frameCalls_part {fb : Fb} {second third : Camera} {taken sent : StreamLocals}
    {released : PUnit} (held : fbReturn fb.name ∉ s.ledger)
    (converts : fb.shot.format ≠ .jpeg → s.conversions.head? ≠ some none)
    (ranTake : exec (takeJpg fb l) s = (some taken, second))
    (ranSend : exec (sendPart taken) second = (some sent, third))
    (ranRelease : exec (releaseJpg fb sent) third = (some released, t)) :
    ∃ converted payload, (∀ j ∈ converted, j = s.fresh) ∧
      t.fresh = s.fresh + converted.toList.length ∧
      t.ledger = s.ledger ++ (partLedger fb.name converted payload).tail := by
  obtain ⟨converted, bytes, rfl, named, raw, freshTaken, ledgerTaken⟩ :=
    takeJpg_converts held converts ranTake
  obtain ⟨sameBuf, freshSent, -, ledgerSent⟩ := sendPart_some ranSend
  have stillHeld : fbReturn fb.name ∉ third.ledger := by
    rcases ledgerSent with skipped | ⟨-, readBack⟩
    · simp [skipped, ledgerTaken, held]
    · simp [readBack, ledgerTaken, held]
  obtain ⟨freshReleased, ledgerReleased⟩ := releaseJpg_held stillHeld ranRelease
  have fresh : t.fresh = s.fresh + converted.toList.length := by
    rw [freshReleased, freshSent, freshTaken]
  cases converted with
  | none =>
      have jpeg : fb.shot.format = .jpeg := raw.mp rfl
      rcases ledgerSent with skipped | ⟨-, readBack⟩
      · refine ⟨none, false, named, fresh, ?_⟩
        simp [ledgerReleased, skipped, ledgerTaken, jpeg, partLedger]
      · refine ⟨none, true, named, fresh, ?_⟩
        simp [ledgerReleased, readBack, ledgerTaken, jpeg, partLedger, bufFor]
  | some j =>
      have notJpeg : fb.shot.format ≠ .jpeg := fun jpeg => absurd (raw.mpr jpeg) (by simp)
      rcases ledgerSent with skipped | ⟨-, readBack⟩
      · refine ⟨some j, false, named, fresh, ?_⟩
        simp [ledgerReleased, skipped, ledgerTaken, notJpeg, partLedger, sameBuf, bufFor]
      · refine ⟨some j, true, named, fresh, ?_⟩
        simp [ledgerReleased, readBack, ledgerTaken, notJpeg, partLedger, sameBuf, bufFor]

/-- An iteration without a failed conversion adds the ledger of one part, or nothing. -/
theorem streamBody_part (inv : HeadBalanced l s) (converts : ¬ConversionFails s)
    (ran : exec (streamBody l) s = (some outcome, t)) :
    Balanced t.ledger ∧ Below t.fresh t.ledger ∧ ∀ next, outcome = .inl next → next.res = ESP_OK := by
  obtain ⟨ok, balanced, below⟩ := inv
  obtain ⟨got, first, ranGet, ran⟩ := exec_bind_eq_some.mp ran
  rcases espCameraFbGet_some ranGet with
    ⟨rfl, ledger, fresh, -⟩ | ⟨shot, rfl, ledger, fresh, conversions, captured⟩
  · obtain ⟨rfl, rfl⟩ := exec_pure_eq_some.mp ran
    rw [ledger, fresh]
    exact ⟨balanced, below, fun next goes => by simp at goes⟩
  · obtain ⟨taken, second, ranTake, ran⟩ := exec_bind_eq_some.mp ran
    obtain ⟨sent, third, ranSend, ran⟩ := exec_bind_eq_some.mp ran
    obtain ⟨released, fourth, ranRelease, leaves⟩ := exec_bind_eq_some.mp ran
    have held : fbReturn s.fresh ∉ first.ledger := by simp [ledger, below.not_returned]
    have succeeds : shot.format ≠ .jpeg → first.conversions.head? ≠ some none := by
      intro raw failed
      exact converts ⟨shot, captured, raw, by rw [← conversions, failed]⟩
    obtain ⟨converted, payload, named, freshAfter, rest⟩ :=
      frameCalls_part held succeeds ranTake ranSend ranRelease
    have whole : fourth.ledger = s.ledger ++ partLedger s.fresh converted payload := by
      rw [rest, ledger, List.append_assoc]
      cases converted <;> rfl
    obtain ⟨above, within⟩ := partLedger_names s.fresh converted payload
      (fun j member => by rw [named j member, fresh])
    have balancedAfter : Balanced fourth.ledger := by
      rw [whole]
      exact balanced.append (partLedger_balanced s.fresh converted payload) below above
    have belowAfter : Below fourth.fresh fourth.ledger := by
      rw [whole, freshAfter, fresh]
      exact (below.mono (by omega)).append within
    by_cases failed : sent.res ≠ ESP_OK
    · rw [if_pos failed, exec_pure_eq_some] at leaves
      obtain ⟨rfl, rfl⟩ := leaves
      exact ⟨balancedAfter, belowAfter, fun next goes => by simp at goes⟩
    · rw [if_neg failed, exec_pure_eq_some] at leaves
      obtain ⟨rfl, rfl⟩ := leaves
      refine ⟨balancedAfter, belowAfter, ?_⟩
      intro next goes
      obtain rfl := Sum.inl.inj goes
      exact not_not.mp failed

/-- The iteration of a failed conversion returns its frame twice and leaves the loop. -/
theorem streamBody_fails (inv : HeadBalanced l s) (fails : ConversionFails s)
    (ran : exec (streamBody l) s = (some outcome, t)) :
    outcome = .inr ESP_FAIL ∧ ¬Balanced t.ledger := by
  obtain ⟨ok, balanced, below⟩ := inv
  obtain ⟨shot, captured, raw, failed⟩ := fails
  obtain ⟨got, first, ranGet, ran⟩ := exec_bind_eq_some.mp ran
  rcases espCameraFbGet_some ranGet with
    ⟨-, -, -, nothing⟩ | ⟨shot', rfl, ledger, -, conversions, captured'⟩
  · simp [captured] at nothing
  · obtain rfl : shot = shot' := by simpa [captured] using captured'
    obtain ⟨taken, second, ranTake, ran⟩ := exec_bind_eq_some.mp ran
    obtain ⟨sent, third, ranSend, ran⟩ := exec_bind_eq_some.mp ran
    obtain ⟨released, fourth, ranRelease, leaves⟩ := exec_bind_eq_some.mp ran
    have held : fbReturn s.fresh ∉ first.ledger := by simp [ledger, below.not_returned]
    obtain ⟨rfl, ledgerTaken⟩ := takeJpg_fails held raw (by rw [conversions, failed]) ranTake
    obtain ⟨-, -, unsent, ledgerSent⟩ := sendPart_some ranSend
    have failure : ESP_FAIL ≠ ESP_OK := by decide
    have res : sent.res = ESP_FAIL := unsent failure
    have unread : third.ledger = second.ledger := by
      rcases ledgerSent with skipped | ⟨sending, -⟩
      · exact skipped
      · exact absurd sending failure
    obtain ⟨more, ledgerReleased⟩ : ∃ more,
        fourth.ledger = third.ledger ++ more ++ [fbReturn s.fresh] := releaseJpg_returns ranRelease
    rw [res, if_pos failure, exec_pure_eq_some] at leaves
    obtain ⟨rfl, rfl⟩ := leaves
    refine ⟨rfl, fun balancedAfter => ?_⟩
    have once := balancedAfter.returned s.fresh (by simp [ledgerReleased, unread, ledgerTaken, ledger])
    simp [ledgerReleased, unread, ledgerTaken, ledger, List.count_append] at once
    omega

theorem HeadBalanced.next {next : StreamLocals} (inv : HeadBalanced l s)
    (converts : ¬ConversionFails s) (goes : exec (streamBody l) s = (some (.inl next), t)) :
    HeadBalanced next t := by
  obtain ⟨balanced, below, res⟩ := streamBody_part inv converts goes
  exact ⟨res next rfl, balanced, below⟩

theorem HeadBalanced.stays (inv : HeadBalanced l s) (fails : ConversionFails s)
    (next : StreamLocals) (t : Camera) : exec (streamBody l) s ≠ (some (.inl next), t) := by
  intro goes
  have leaves := (streamBody_fails inv fails goes).1
  simp at leaves

end Iteration

/-! ## The handler -/

/-- The handler called with these outcomes to come. -/
def Camera.start (setType : Int) (captures : List (Option Shot))
    (conversions : List (Option (List UInt8))) (staleFormats : List PixFormat)
    (sends : List Int) : Camera :=
  ⟨setType, captures, conversions, staleFormats, sends, 0, [], []⟩

/-- A handler that returned gave everything back once exactly when its loop
reached no frame whose conversion failed. -/
theorem stream_handler_balanced_iff (setType : Int) (captures : List (Option Shot))
    (conversions : List (Option (List UInt8))) (staleFormats : List PixFormat)
    (sends : List Int) (fuel : Nat) (res : Int) (t : Camera)
    (returned : exec (cameraStreamGetHandler fuel)
      (Camera.start setType captures conversions staleFormats sends) = (some res, t)) :
    Balanced t.ledger ↔
      (setType = ESP_OK → ∀ head,
        Reached streamBody
          (⟨ESP_OK, none⟩, Camera.start setType captures conversions staleFormats sends) head →
        ¬ConversionFails head.2) := by
  obtain ⟨typed, mid, ranType, ran⟩ := exec_bind_eq_some.mp returned
  have stepped := exec_step_eq_some.mp ranType
  simp only [Option.some.injEq, Prod.mk.injEq] at stepped
  obtain ⟨rfl, rfl⟩ := stepped
  by_cases ok : setType = ESP_OK
  · have looping : exec (loop streamBody fuel ⟨ESP_OK, none⟩)
        (Camera.start setType captures conversions staleFormats sends) = (some res, t) := by
      simpa [Camera.start, ok] using ran
    have start : HeadBalanced ⟨ESP_OK, none⟩
        (Camera.start setType captures conversions staleFormats sends) :=
      ⟨rfl, balanced_nil, fun event member => by simp [Camera.start] at member⟩
    rw [imp_iff_right ok]
    refine returned_iff_reached HeadBalanced (fun _ w => ConversionFails w)
      (fun _ w => Balanced w.ledger) ?_ ?_ ?_ ?_ start looping
    · exact fun l s next u inv converts goes => inv.next converts goes
    · intro l s a u inv converts leaves
      exact (streamBody_part inv converts leaves).1
    · exact fun l s next u inv fails => inv.stays fails next u
    · intro l s a u inv fails leaves
      exact (streamBody_fails inv fails leaves).2
  · have left : exec (pure setType) (Camera.start setType captures conversions staleFormats sends) =
        (some res, t) := by
      simpa [Camera.start, ok] using ran
    simp only [exec_pure, Prod.mk.injEq] at left
    obtain ⟨-, rfl⟩ := left
    exact ⟨fun _ isOk => absurd isOk ok, fun _ => balanced_nil⟩

/-- One converted frame is sent, then the capture fails. -/
def onePart : Camera :=
  .start ESP_OK [some ⟨.other 0, [1, 2]⟩, none] [some [0xFF]] [] [0, 0, 0]

theorem stream_handler_balanced_iff_one_part :
    Balanced (exec (cameraStreamGetHandler 2) onePart).2.ledger ∧
      ∀ head, Reached streamBody (⟨ESP_OK, none⟩, onePart) head → ¬ConversionFails head.2 := by
  have balanced : Balanced (exec (cameraStreamGetHandler 2) onePart).2.ledger :=
    partLedger_balanced 0 (some 1) true
  refine ⟨balanced, ?_⟩
  exact (stream_handler_balanced_iff ESP_OK [some ⟨.other 0, [1, 2]⟩, none] [some [0xFF]] []
    [0, 0, 0] 2 ESP_FAIL _ rfl).mp balanced rfl

/-- The second conversion fails: its frame is returned twice and read after it
was returned, and the buffer of the first conversion is freed again. -/
theorem failed_conversion_returns_twice :
    let run := exec (cameraStreamGetHandler 2) (Camera.start ESP_OK
      [some ⟨.other 0, [1, 2]⟩, some ⟨.other 0, [3, 4]⟩] [some [0xFF], none] [.other 0] [0, 0, 0])
    run.1 = some ESP_FAIL ∧
      run.2.ledger = partLedger 0 (some 1) true ++
        [fbGet 2, read (.frame 2), read (.frame 2), fbReturn 2,
          read (.frame 2), freed (some (.jpg 1)), fbReturn 2] ∧
      ¬Balanced run.2.ledger := by
  refine ⟨rfl, rfl, fun balanced => ?_⟩
  exact absurd (balanced.returned 2 (by decide)) (by decide)

end ProjectOwl.Esp
