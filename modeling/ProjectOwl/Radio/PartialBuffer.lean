import ProjectOwl.Radio.Receive

/-! # A parse of fewer bytes

`parse_buffer` drops a word that touches the end of what it is given, and once
`finished` is set it looks at nothing more.  So every byte either leaves the
result alone or adds to it, and what a shorter parse reports stands in every
longer one.  A receiver that passed on the byte count of its reads would show
none of the phantoms of `cut_read_noPhantom_iff`. -/

set_option autoImplicit false

namespace ProjectOwl.Radio

open Tcp

theorem NoPhantom.refl (result : Parsed) : NoPhantom result result :=
  ⟨List.prefix_rfl, Or.inr rfl⟩

theorem NoPhantom.trans {first second third : Parsed} (early : NoPhantom first second)
    (late : NoPhantom second third) : NoPhantom first third := by
  obtain ⟨earlyCmds, earlyCallsign⟩ := early
  obtain ⟨lateCmds, lateCallsign⟩ := late
  constructor
  · exact earlyCmds.trans lateCmds
  · rcases earlyCallsign with empty | same
    · exact Or.inl empty
    · rw [same]
      exact lateCallsign

/-! ## One byte -/

def PastCallsign (s : ParserState) : Prop := s.state = .whitespace ∨ s.state = .token

/-- A byte changes nothing a caller sees, or ends the callsign, or ends a token. -/
inductive ByteEffect (s next : ParserState) : Prop where
  | same : next.parsed = s.parsed → (PastCallsign s → PastCallsign next) → ByteEffect s next
  | callsign : s.state = .callsign → next.parsed = ⟨s.token, s.cmds⟩ →
      next.finished = true ∨ PastCallsign next → ByteEffect s next
  | command : next.parsed = ⟨s.callsign, s.cmds ++ [commandFromToken s.token]⟩ →
      next.finished = true ∨ PastCallsign next → ByteEffect s next

theorem parseByte_effect (char : PlainChar) (s : ParserState) (byte : UInt8) :
    ByteEffect s (parseByte char s byte) := by
  unfold parseByte
  cases position : s.state with
  | noFrame =>
      have early : ¬PastCallsign s := by simp [PastCallsign, position]
      dsimp only
      split <;> exact ByteEffect.same rfl fun past => absurd past early
  | frameStart =>
      have early : ¬PastCallsign s := by simp [PastCallsign, position]
      dsimp only
      split <;> exact ByteEffect.same rfl fun past => absurd past early
  | whitespaceInitial =>
      have early : ¬PastCallsign s := by simp [PastCallsign, position]
      dsimp only
      split
      · exact ByteEffect.same rfl fun past => absurd past early
      · split <;> exact ByteEffect.same rfl fun past => absurd past early
  | callsign =>
      have early : ¬PastCallsign s := by simp [PastCallsign, position]
      dsimp only
      split
      · exact ByteEffect.callsign position rfl (Or.inl rfl)
      · split
        · exact ByteEffect.same rfl fun past => absurd past early
        · exact ByteEffect.callsign position rfl (Or.inr (Or.inl rfl))
  | whitespace =>
      dsimp only
      split
      · exact ByteEffect.same rfl fun _ => Or.inl rfl
      · split
        · exact ByteEffect.same rfl fun _ => Or.inr rfl
        · exact ByteEffect.same rfl fun _ => Or.inl rfl
  | token =>
      dsimp only
      split
      · exact ByteEffect.command rfl (Or.inl rfl)
      · split
        · exact ByteEffect.same rfl fun _ => Or.inr rfl
        · exact ByteEffect.command rfl (Or.inr (Or.inl rfl))

/-! ## The callsign is written once -/

/-- A machine that still runs has no callsign before it is past it. -/
def CallsignPending (s : ParserState) : Prop :=
  s.finished = false → ¬PastCallsign s → s.callsign = []

theorem initial_pending : CallsignPending .initial :=
  fun _ _ => rfl

theorem parseByte_pending (char : PlainChar) (s : ParserState) (byte : UInt8)
    (running : s.finished = false) (pending : CallsignPending s) :
    CallsignPending (parseByte char s byte) := by
  have settled (ends : (parseByte char s byte).finished = true ∨
      PastCallsign (parseByte char s byte)) : CallsignPending (parseByte char s byte) := by
    intro stillRunning early
    rcases ends with finished | past
    · exact absurd (finished.symm.trans stillRunning) (by decide)
    · exact absurd past early
  cases parseByte_effect char s byte with
  | same result keeps =>
      intro _ early
      have unchanged : (parseByte char s byte).callsign = s.callsign :=
        congrArg Parsed.callsign result
      rw [unchanged]
      exact pending running fun past => early (keeps past)
  | callsign _ _ ends => exact settled ends
  | command _ ends => exact settled ends

theorem parseByte_noPhantom (char : PlainChar) (s : ParserState) (byte : UInt8)
    (running : s.finished = false) (pending : CallsignPending s) :
    NoPhantom s.parsed (parseByte char s byte).parsed := by
  cases parseByte_effect char s byte with
  | same result _ =>
      rw [result]
      exact NoPhantom.refl s.parsed
  | callsign position result _ =>
      have early : ¬PastCallsign s := by simp [PastCallsign, position]
      rw [result]
      exact ⟨List.prefix_rfl, Or.inl (pending running early)⟩
  | command result _ =>
      rw [result]
      exact ⟨List.prefix_append _ _, Or.inr rfl⟩

/-! ## Whole runs -/

theorem parseLoop_append (char : PlainChar) (front back : List UInt8) (s : ParserState) :
    parseLoop char (front ++ back) s = parseLoop char back (parseLoop char front s) := by
  induction front generalizing s with
  | nil => rfl
  | cons byte front ih =>
      by_cases finished : s.finished = true
      · rw [parseLoop_finished char _ s finished, parseLoop_finished char _ s finished,
          parseLoop_finished char _ s finished]
      · simp only [List.cons_append, parseLoop, finished, Bool.false_eq_true, if_false]
        exact ih (parseByte char s byte)

theorem parseLoop_extends (char : PlainChar) (bytes : List UInt8) (s : ParserState)
    (pending : CallsignPending s) :
    CallsignPending (parseLoop char bytes s) ∧
      NoPhantom s.parsed (parseLoop char bytes s).parsed := by
  induction bytes generalizing s with
  | nil => exact ⟨pending, NoPhantom.refl s.parsed⟩
  | cons byte bytes ih =>
      cases status : s.finished with
      | true =>
          rw [parseLoop_finished char _ s status]
          exact ⟨pending, NoPhantom.refl s.parsed⟩
      | false =>
          simp only [parseLoop, status, Bool.false_eq_true, if_false]
          have one := parseByte_noPhantom char s byte status pending
          obtain ⟨kept, others⟩ := ih _ (parseByte_pending char s byte status pending)
          exact ⟨kept, one.trans others⟩

theorem parseLoop_noPhantom (char : PlainChar) (front back : List UInt8) :
    NoPhantom (parseLoop char front .initial).parsed
      (parseLoop char (front ++ back) .initial).parsed := by
  have halfway := (parseLoop_extends char front .initial initial_pending).1
  rw [parseLoop_append]
  exact (parseLoop_extends char back _ halfway).2

theorem parseBuffer_noPhantom (char : PlainChar) (buffer : List UInt8) (m n : Nat)
    (shorter : m ≤ n) :
    NoPhantom (parseBuffer char buffer m) (parseBuffer char buffer n) := by
  have split : buffer.take n = buffer.take m ++ (buffer.take n).drop m := by
    conv_lhs => rw [← List.take_append_drop m (buffer.take n), List.take_take,
      Nat.min_eq_left shorter]
  simp only [parseBuffer]
  rw [split]
  exact parseLoop_noPhantom char (buffer.take m) _

theorem parseBuffer_take (char : PlainChar) (buffer : List UInt8) (m : Nat) :
    parseBuffer char (buffer.take m) (buffer.take m).length = parseBuffer char buffer m := by
  simp only [parseBuffer]
  rw [List.take_length]

theorem parseBuffer_counted (char : PlainChar) (bytes stale : List UInt8) :
    parseBuffer char (bytes ++ stale) bytes.length = parseBuffer char bytes bytes.length := by
  simp [parseBuffer]

/-- A longer parse only adds to a shorter one, and so to the parse of a partial
read whose byte count the caller passes on. -/
theorem parseBuffer_monotone (char : PlainChar) (buffer stale : List UInt8) (m n : Nat)
    (shorter : m ≤ n) :
    ((parseBuffer char buffer m).cmds <+: (parseBuffer char buffer n).cmds ∧
      ((parseBuffer char buffer m).callsign = [] ∨
        (parseBuffer char buffer m).callsign = (parseBuffer char buffer n).callsign)) ∧
    NoPhantom (parseBuffer char (buffer.take m ++ stale) (buffer.take m).length)
      (parseBuffer char buffer n) := by
  constructor
  · exact parseBuffer_noPhantom char buffer m n shorter
  · rw [parseBuffer_counted, parseBuffer_take]
    exact parseBuffer_noPhantom char buffer m n shorter

def frameA1X : List UInt8 := 0xC0 :: 0x00 :: (ascii "K A1X" ++ [0xC0])

/-- Six bytes of a frame, in a buffer of zeros: `A1`, which would be a command, is withheld,
and the whole word is none. -/
theorem parseBuffer_monotone_six :
    parseBuffer .unsigned frameA1X 6 = ⟨ascii "K", []⟩ ∧
      parseBuffer .unsigned frameA1X 8 = ⟨ascii "K", [.undefined]⟩ ∧
      ((parseBuffer .unsigned frameA1X 6).cmds <+: (parseBuffer .unsigned frameA1X 8).cmds ∧
        ((parseBuffer .unsigned frameA1X 6).callsign = [] ∨
          (parseBuffer .unsigned frameA1X 6).callsign =
            (parseBuffer .unsigned frameA1X 8).callsign)) ∧
      NoPhantom
        (parseBuffer .unsigned (frameA1X.take 6 ++ zeros 250) (frameA1X.take 6).length)
        (parseBuffer .unsigned frameA1X 8) :=
  ⟨by decide, by decide, parseBuffer_monotone .unsigned frameA1X (zeros 250) 6 8 (by decide)⟩

/-- A receiver that parses as many bytes as its read reports is free of phantoms
wherever the read cuts the frame, unlike `cut_read_noPhantom_iff`. -/
theorem counted_read_noPhantom (char : PlainChar) (f : Frame) (k : Nat) :
    let read := readBuffer (readOf (f.bytes.take k)) 256
    NoPhantom (parseBuffer char read.2 read.1.toNat)
      (parseBuffer char f.bytes f.bytes.length) := by
  have fits : (f.bytes.take k).length ≤ 255 := by
    have whole := f.fits
    rw [List.length_take, f.bytes_length]
    omega
  have stored : (f.bytes.take k).take 255 = f.bytes.take k := List.take_of_length_le fits
  simp only [readBuffer, readOf, ReadResult.fill, ReadResult.value, stored, Int.toNat_natCast]
  rw [parseBuffer_counted]
  simp only [parseBuffer, List.take_length]
  have extended := parseLoop_noPhantom char (f.bytes.take k) (f.bytes.drop k)
  rwa [List.take_append_drop] at extended

end ProjectOwl.Radio
