import ProjectOwl.Radio.Grammar
import ProjectOwl.Tcp

/-! # The receive loop and one read

`radio/main_rx.cpp` reads into a zeroed buffer and parses all 256 bytes of it,
however many the read returned.  The zeros after a short read look like blanks,
so a word that the read cut in two is taken for a whole one. -/

set_option autoImplicit false

namespace ProjectOwl.Radio

open MaximalRuns
open Tcp

/-- The loop of `main`, one entry a `read`; the results printed and, once `main`
has returned, its exit code. -/
def mainRx (char : PlainChar) : List (Nat → ReadResult) → List Parsed × Option Int
  | [] => ([], none)
  | read :: rest =>
      let (result, buffer) := readBuffer read 256
      if result < 0 then ([], some result)
      else
        let (later, exit) := mainRx char rest
        (parseBuffer char buffer 256 :: later, exit)

/-- A `read` that finds `bytes` on the socket. -/
def readOf (bytes : List UInt8) : Nat → ReadResult := fun asked => .stored (bytes.take asked)

/-- What the loop makes of one read. -/
def received (bytes : List UInt8) : Parsed :=
  parseBuffer .unsigned (readBuffer (readOf bytes) 256).2 256

/-- A KISS data frame that fits one read. -/
structure Frame where
  body : List UInt8
  fendFree : fend ∉ body
  fits : body.length + 3 ≤ 255

def Frame.bytes (f : Frame) : List UInt8 := 0xC0 :: 0x00 :: (f.body ++ [0xC0])

theorem Frame.bytes_length (f : Frame) : f.bytes.length = f.body.length + 3 := by
  simp [Frame.bytes]

theorem Frame.parse_bytes (f : Frame) :
    parseBuffer .unsigned f.bytes f.bytes.length = parsedOfWords (runs graphic f.body) := by
  rw [parseBuffer_eq_grammar, List.take_length]
  change grammar (fend :: 0x00 :: (f.body ++ fend :: [])) = _
  rw [grammar_frame, frameWords_closed f.body [] f.fendFree]

theorem received_eq_grammar (bytes : List UInt8) (fits : bytes.length ≤ 255) :
    received bytes = grammar (bytes ++ zeros (256 - bytes.length)) := by
  have stored : bytes.take 255 = bytes := List.take_of_length_le fits
  have full : (bytes ++ zeros (256 - bytes.length)).length ≤ 256 := by
    simp only [List.length_append, zeros_length]
    omega
  simp only [received, readBuffer, readOf, ReadResult.fill, parseBuffer_eq_grammar, stored]
  rw [List.take_of_length_le full]

theorem graphic_zeros (n : Nat) : ∀ byte ∈ zeros n, graphic byte = false := by
  intro byte member
  rw [List.eq_of_mem_replicate member]
  decide

theorem fend_notMem_zeros (n : Nat) : fend ∉ zeros n := by
  intro member
  exact absurd (List.eq_of_mem_replicate member) (by decide)

/-- The zeros after an unclosed body end its last word. -/
theorem frameWords_zeros (front : List UInt8) (n : Nat) (absent : fend ∉ front)
    (positive : 0 < n) : frameWords (front ++ zeros n) = runs graphic front := by
  obtain ⟨k, rfl⟩ : ∃ k, n = k + 1 := ⟨n - 1, by omega⟩
  have open_ : fend ∉ front ++ zeros (k + 1) := by
    simp [absent, fend_notMem_zeros]
  have zero : graphic 0 = false := by decide
  rw [frameWords_open _ open_, zeros_succ, closedRuns_append_cons graphic front _ 0 zero,
    closedRuns_eq, runs_eq_nil graphic _ fun x member =>
      graphic_zeros k x ((List.rdropWhile_prefix graphic _).subset member), List.append_nil]

/-- A read that starts at a frame and ends inside or right after it. -/
theorem received_take (f : Frame) (k : Nat) :
    received (f.bytes.take k) = parsedOfWords (runs graphic (f.body.take (k - 2))) := by
  have fits := f.fits
  have short : (f.bytes.take k).length ≤ 255 := by
    rw [List.length_take, f.bytes_length]
    omega
  rw [received_eq_grammar _ short]
  match k with
  | 0 =>
      rw [List.take_zero, List.nil_append]
      exact grammar_of_head_ne 0 (zeros 255) (by decide)
  | 1 =>
      change grammar (fend :: 0x00 :: zeros 254) = _
      rw [grammar_frame]
      exact congrArg parsedOfWords (frameWords_zeros [] 254 (by simp) (by omega))
  | j + 2 =>
      have opened : f.bytes.take (j + 2) = fend :: 0x00 :: (f.body ++ [fend]).take j := rfl
      rw [opened, List.cons_append, List.cons_append, grammar_frame, Nat.add_sub_cancel]
      congr 1
      rcases Nat.lt_or_ge f.body.length j with past | inside
      · have whole : (f.body ++ [fend]).take j = f.body ++ [fend] := by
          apply List.take_of_length_le
          simpa [Nat.succ_le_iff] using past
        rw [whole, List.append_assoc, List.singleton_append,
          frameWords_closed f.body _ f.fendFree, List.take_of_length_le (by omega)]
      · rw [List.take_append_of_le_length inside]
        have absent : fend ∉ f.body.take j := fun member =>
          f.fendFree (List.mem_of_mem_take member)
        apply frameWords_zeros _ _ absent
        simp only [List.length_cons, List.length_take]
        omega

/-- A read that starts at a frame, wherever it ends. -/
theorem received_frame_start (f : Frame) (bytes left rest : List UInt8)
    (stream : bytes ++ left = f.bytes ++ rest) (fits : bytes.length ≤ 255) :
    received bytes = parsedOfWords (runs graphic (f.body.take (bytes.length - 2))) := by
  rcases Nat.lt_or_ge f.bytes.length bytes.length with past | inside
  · have split : bytes = f.bytes ++ bytes.drop f.bytes.length := by
      have front := congrArg (List.take f.bytes.length) stream
      rw [List.take_append_of_le_length (by omega), List.take_left] at front
      conv_lhs => rw [← List.take_append_drop f.bytes.length bytes, front]
    have whole : f.body.take (bytes.length - 2) = f.body := by
      rw [f.bytes_length] at past
      exact List.take_of_length_le (by omega)
    rw [received_eq_grammar _ fits, whole, split]
    change grammar (fend :: 0x00 :: ((f.body ++ [fend] ++ _) ++ _)) = _
    rw [grammar_frame, List.append_assoc, List.append_assoc, List.singleton_append,
      frameWords_closed f.body _ f.fendFree]
  · have cut : bytes = f.bytes.take bytes.length := by
      have front := congrArg (List.take bytes.length) stream
      rw [List.take_left, List.take_append_of_le_length inside] at front
      exact front
    conv_lhs => rw [cut]
    exact received_take f bytes.length

/-! ## A word cut in two -/

/-- A word that begins in `front` and goes on in `back` is a command token whose
first part alone decodes to the same command. -/
def HalfWordHarmless (front back : List UInt8) : Prop :=
  let half := front.rtakeWhile graphic
  let more := back.takeWhile graphic
  half ≠ [] → more ≠ [] →
    2 ≤ (runs graphic front).length ∧ commandFromToken half = commandFromToken (half ++ more)

instance (front back : List UInt8) : Decidable (HalfWordHarmless front back) := by
  unfold HalfWordHarmless
  infer_instance

/-- What a reader of `cut` may believe about a frame that reads as `whole`. -/
def NoPhantom (cut whole : Parsed) : Prop :=
  cut.cmds <+: whole.cmds ∧ (cut.callsign = [] ∨ cut.callsign = whole.callsign)

instance (cut whole : Parsed) : Decidable (NoPhantom cut whole) := by
  unfold NoPhantom
  infer_instance

theorem noPhantom_append (words more : List (List UInt8)) :
    NoPhantom (parsedOfWords words) (parsedOfWords (words ++ more)) := by
  cases words with
  | nil => exact ⟨List.nil_prefix, Or.inl rfl⟩
  | cons callsign tokens =>
      refine ⟨?_, Or.inr rfl⟩
      simp [parsedOfWords, List.prefix_append]

/-- The last word before the cut is `half`, and the whole text has `word` there. -/
theorem noPhantom_half_word (words more : List (List UInt8)) (half word : List UInt8)
    (nonempty : half ≠ []) (differ : half ≠ word) :
    NoPhantom (parsedOfWords (words ++ [half])) (parsedOfWords (words ++ word :: more)) ↔
      words ≠ [] ∧ commandFromToken half = commandFromToken word := by
  cases words with
  | nil =>
      simp [NoPhantom, parsedOfWords, nonempty, differ]
  | cons callsign tokens =>
      simp [NoPhantom, parsedOfWords, List.prefix_append_right_inj]

theorem noPhantom_iff_harmless (front back : List UInt8) :
    NoPhantom (parsedOfWords (runs graphic front)) (parsedOfWords (runs graphic (front ++ back))) ↔
      HalfWordHarmless front back := by
  by_cases half : front.rtakeWhile graphic = []
  · rw [runs_append_of_left graphic front back half]
    exact iff_of_true (noPhantom_append _ _) fun pending => absurd half pending
  · by_cases more : back.takeWhile graphic = []
    · rw [runs_append_of_right graphic front back more]
      exact iff_of_true (noPhantom_append _ _) fun _ pending => absurd more pending
    · obtain ⟨before, across, nonempty⟩ := runs_cut_inside graphic front back half
      have longer : front.rtakeWhile graphic ≠
          front.rtakeWhile graphic ++ back.takeWhile graphic := by simpa using more
      have exact_cut := noPhantom_half_word (runs graphic (front.rdropWhile graphic))
        (runs graphic (back.dropWhile graphic)) _ _ half longer
      rw [← before, ← across, nonempty] at exact_cut
      rw [exact_cut]
      exact ⟨fun harmless _ _ => harmless, fun harmless => harmless half more⟩

/-- A read of the first `k` bytes of a frame shows no phantom exactly when the
cut falls between words or splits a token harmlessly. -/
theorem cut_read_noPhantom_iff (f : Frame) (k : Nat) :
    NoPhantom (parseBuffer .unsigned (readBuffer (readOf (f.bytes.take k)) 256).2 256)
        (parseBuffer .unsigned f.bytes f.bytes.length) ↔
      HalfWordHarmless (f.body.take (k - 2)) (f.body.drop (k - 2)) := by
  rw [f.parse_bytes, ← noPhantom_iff_harmless, List.take_append_drop]
  exact iff_of_eq (congrArg (fun cut => NoPhantom cut _) (received_take f k))

/-- Six of eight bytes: the token `A1X` shows as the command `A1`. -/
theorem cut_token_phantom :
    ¬ NoPhantom
      (parseBuffer .unsigned
        (readBuffer (readOf ((0xC0 :: 0x00 :: (ascii "K A1X" ++ [0xC0])).take 6)) 256).2 256)
      (parseBuffer .unsigned (0xC0 :: 0x00 :: (ascii "K A1X" ++ [0xC0])) 8) := by
  decide +kernel

end ProjectOwl.Radio
