import ProjectOwl.Lib.MaximalRuns
import ProjectOwl.Radio.Parser

/-! # The grammar `parse_buffer` accepts

A frame is `0xC0 0x00 body 0xC0`; its words are the maximal runs of graphic
bytes of the body, the first one being the callsign and the others command
tokens.  `parseBuffer_eq_grammar` shows that the six-state machine computes
exactly this reading of every buffer.  Between two bytes the machine is either
in `callsignState` or in `commandState` of its pending token, or finished. -/

set_option autoImplicit false

namespace ProjectOwl.Radio

open MaximalRuns

def fend : UInt8 := 0xC0

def graphic (byte : UInt8) : Bool := decide (0x21 ≤ byte ∧ byte ≤ 0x7E)

/-- The words of what follows the two opening bytes.  Without a closing `0xC0`
a last word that touches the end of the buffer does not count. -/
def frameWords (payload : List UInt8) : List (List UInt8) :=
  let body := payload.takeWhile (· ≠ fend)
  if fend ∈ payload then runs graphic body else closedRuns graphic body

def parsedOfWords : List (List UInt8) → Parsed
  | [] => ⟨[], []⟩
  | callsign :: tokens => ⟨callsign, tokens.map commandFromToken⟩

def grammar (buffer : List UInt8) : Parsed :=
  if [0xC0, 0x00] <+: buffer then parsedOfWords (frameWords (buffer.drop 2)) else ⟨[], []⟩

/-! ## Character tests -/

@[simp] theorem promote_unsigned_eq_fend (byte : UInt8) :
    PlainChar.unsigned.promote byte = 0xC0 ↔ byte = fend := by
  have value : fend.toNat = 192 := rfl
  rw [← UInt8.toNat_inj, value]
  exact Int.natCast_inj (n := 192)

@[simp] theorem promote_unsigned_eq_zero (byte : UInt8) :
    PlainChar.unsigned.promote byte = 0x00 ↔ byte = 0x00 := by
  have value : (0x00 : UInt8).toNat = 0 := rfl
  rw [← UInt8.toNat_inj, value]
  exact Int.natCast_inj (n := 0)

@[simp] theorem isgraph_promote_unsigned (byte : UInt8) :
    isgraph (PlainChar.unsigned.promote byte) = graphic byte := by
  have low : 0x21 ≤ byte ↔ 33 ≤ byte.toNat := UInt8.le_iff_toNat_le
  have high : byte ≤ 0x7E ↔ byte.toNat ≤ 126 := UInt8.le_iff_toNat_le
  simp only [isgraph, graphic, PlainChar.promote, low, high]
  norm_cast

@[simp] theorem graphic_fend : graphic fend = false := by
  decide

theorem ne_fend_of_graphic (byte : UInt8) (inside : graphic byte = true) : byte ≠ fend := by
  intro equal
  rw [equal, graphic_fend] at inside
  exact absurd inside (by decide)

theorem fend_notMem_block {t : List UInt8} (inside : ∀ x ∈ t, graphic x = true) : fend ∉ t :=
  fun member => ne_fend_of_graphic fend (inside fend member) rfl

theorem block_concat {t : List UInt8} {c : UInt8} (blocks : ∀ x ∈ t, graphic x = true)
    (inside : graphic c = true) : ∀ x ∈ t ++ [c], graphic x = true := by
  intro x member
  rcases List.mem_append.mp member with old | new
  · exact blocks x old
  · rw [List.mem_singleton.mp new]
    exact inside

/-! ## The body of a payload -/

theorem takeWhile_fendFree (front rest : List UInt8) (absent : fend ∉ front) :
    (front ++ rest).takeWhile (· ≠ fend) = front ++ rest.takeWhile (· ≠ fend) := by
  apply List.takeWhile_append_of_pos
  intro x member
  have other : x ≠ fend := fun equal => absent (equal ▸ member)
  simpa using other

theorem takeWhile_fendFree_all (front : List UInt8) (absent : fend ∉ front) :
    front.takeWhile (· ≠ fend) = front := by
  have whole := takeWhile_fendFree front [] absent
  rwa [List.takeWhile_nil, List.append_nil] at whole

theorem frameWords_closed (body rest : List UInt8) (absent : fend ∉ body) :
    frameWords (body ++ fend :: rest) = runs graphic body := by
  have cut : (body ++ fend :: rest).takeWhile (· ≠ fend) = body := by
    rw [takeWhile_fendFree body _ absent]
    simp
  simp only [frameWords, cut]
  simp

theorem frameWords_open (payload : List UInt8) (absent : fend ∉ payload) :
    frameWords payload = closedRuns graphic payload := by
  simp only [frameWords, if_neg absent, takeWhile_fendFree_all payload absent]

/-! ## Words of a payload with a pending block -/

theorem frameWords_block (t : List UInt8) (inside : ∀ x ∈ t, graphic x = true) :
    frameWords t = [] := by
  rw [frameWords_open t (fend_notMem_block inside), closedRuns_eq,
    List.rdropWhile_eq_nil_iff.mpr inside, runs_nil]

theorem frameWords_block_fend (t rest : List UInt8) (inside : ∀ x ∈ t, graphic x = true) :
    frameWords (t ++ fend :: rest) = runs graphic t :=
  frameWords_closed t rest (fend_notMem_block inside)

theorem frameWords_block_cons (t rest : List UInt8) (c : UInt8)
    (inside : ∀ x ∈ t, graphic x = true) (outside : graphic c = false) (other : c ≠ fend) :
    frameWords (t ++ c :: rest) = runs graphic t ++ frameWords rest := by
  have absent := fend_notMem_block inside
  have body : (t ++ c :: rest).takeWhile (· ≠ fend) = t ++ c :: rest.takeWhile (· ≠ fend) := by
    rw [takeWhile_fendFree t _ absent]
    simp [other]
  have closes : fend ∈ t ++ c :: rest ↔ fend ∈ rest := by
    simp [absent, Ne.symm other]
  simp only [frameWords, body, closes]
  split
  · exact runs_append_cons graphic t _ c outside
  · exact closedRuns_append_cons graphic t _ c outside

/-! ## The machine between two bytes -/

/-- The callsign is still being looked for (`t` empty) or read. -/
def callsignState (t : List UInt8) : ParserState :=
  ⟨if t = [] then .whitespaceInitial else .callsign, t, [], [], false⟩

/-- The callsign is known; a token is being looked for (`t` empty) or read. -/
def commandState (t callsign : List UInt8) (cmds : List Command) : ParserState :=
  ⟨if t = [] then .whitespace else .token, t, callsign, cmds, false⟩

theorem parseLoop_finished (char : PlainChar) (bytes : List UInt8) (s : ParserState)
    (finished : s.finished = true) : parseLoop char bytes s = s := by
  cases bytes <;> simp [parseLoop, finished]

theorem parseByte_commandState_graphic (t callsign : List UInt8) (cmds : List Command)
    (c : UInt8) (inside : graphic c = true) :
    parseByte .unsigned (commandState t callsign cmds) c =
      commandState (t ++ [c]) callsign cmds := by
  have other := ne_fend_of_graphic c inside
  by_cases empty : t = [] <;> simp [parseByte, commandState, empty, inside, other]

theorem parseByte_commandState_cut (t callsign : List UInt8) (cmds : List Command)
    (c : UInt8) (blocks : ∀ x ∈ t, graphic x = true) (outside : graphic c = false)
    (other : c ≠ fend) :
    parseByte .unsigned (commandState t callsign cmds) c =
      commandState [] callsign (cmds ++ (runs graphic t).map commandFromToken) := by
  by_cases empty : t = []
  · simp [parseByte, commandState, empty, outside, other]
  · simp [parseByte, commandState, empty, outside, other, runs_of_all graphic t empty blocks]

theorem parseByte_commandState_fend (t callsign : List UInt8) (cmds : List Command)
    (blocks : ∀ x ∈ t, graphic x = true) :
    parseByte .unsigned (commandState t callsign cmds) fend =
      { commandState [] callsign (cmds ++ (runs graphic t).map commandFromToken) with
        state := (commandState t callsign cmds).state, finished := true } := by
  by_cases empty : t = []
  · simp [parseByte, commandState, empty]
  · simp [parseByte, commandState, empty, runs_of_all graphic t empty blocks]

theorem parseByte_callsignState_graphic (t : List UInt8) (c : UInt8)
    (inside : graphic c = true) :
    parseByte .unsigned (callsignState t) c = callsignState (t ++ [c]) := by
  have other := ne_fend_of_graphic c inside
  by_cases empty : t = [] <;> simp [parseByte, callsignState, empty, inside, other]

theorem parseByte_callsignState_fend (t : List UInt8) :
    (parseByte .unsigned (callsignState t) fend).finished = true ∧
      (parseByte .unsigned (callsignState t) fend).parsed = ⟨t, []⟩ := by
  by_cases empty : t = [] <;> simp [parseByte, callsignState, ParserState.parsed, empty]

theorem parseByte_callsignState_cut (t : List UInt8) (c : UInt8)
    (outside : graphic c = false) (other : c ≠ fend) :
    parseByte .unsigned (callsignState t) c =
      if t = [] then callsignState [] else commandState [] t [] := by
  by_cases empty : t = [] <;>
    simp [parseByte, callsignState, commandState, empty, outside, other]

/-! ## Whole runs of the machine -/

theorem parseLoop_commandState (rest t callsign : List UInt8) (cmds : List Command)
    (blocks : ∀ x ∈ t, graphic x = true) :
    (parseLoop .unsigned rest (commandState t callsign cmds)).parsed =
      ⟨callsign, cmds ++ (frameWords (t ++ rest)).map commandFromToken⟩ := by
  induction rest generalizing t cmds with
  | nil => simp [parseLoop, commandState, ParserState.parsed, frameWords_block t blocks]
  | cons c rest ih =>
      have running : (commandState t callsign cmds).finished = false := rfl
      simp only [parseLoop, running, Bool.false_eq_true, if_false]
      by_cases closes : c = fend
      · subst closes
        rw [parseByte_commandState_fend t callsign cmds blocks, parseLoop_finished _ _ _ rfl,
          frameWords_block_fend t rest blocks]
        rfl
      · by_cases inside : graphic c = true
        · have longer := block_concat blocks inside
          rw [parseByte_commandState_graphic t callsign cmds c inside, ih (t ++ [c]) cmds longer,
            List.append_assoc, List.singleton_append]
        · have outside : graphic c = false := by simpa using inside
          rw [parseByte_commandState_cut t callsign cmds c blocks outside closes,
            ih [] _ (by simp), frameWords_block_cons t rest c blocks outside closes]
          simp [List.append_assoc]

theorem parseLoop_callsignState (rest t : List UInt8) (blocks : ∀ x ∈ t, graphic x = true) :
    (parseLoop .unsigned rest (callsignState t)).parsed =
      parsedOfWords (frameWords (t ++ rest)) := by
  induction rest generalizing t with
  | nil =>
      simp [parseLoop, callsignState, ParserState.parsed, frameWords_block t blocks,
        parsedOfWords]
  | cons c rest ih =>
      have running : (callsignState t).finished = false := rfl
      simp only [parseLoop, running, Bool.false_eq_true, if_false]
      by_cases closes : c = fend
      · subst closes
        obtain ⟨finished, result⟩ := parseByte_callsignState_fend t
        rw [parseLoop_finished _ _ _ finished, result, frameWords_block_fend t rest blocks]
        by_cases empty : t = []
        · simp [empty, parsedOfWords]
        · simp [runs_of_all graphic t empty blocks, parsedOfWords]
      · by_cases inside : graphic c = true
        · have longer := block_concat blocks inside
          rw [parseByte_callsignState_graphic t c inside, ih (t ++ [c]) longer,
            List.append_assoc, List.singleton_append]
        · have outside : graphic c = false := by simpa using inside
          rw [parseByte_callsignState_cut t c outside closes,
            frameWords_block_cons t rest c blocks outside closes]
          by_cases empty : t = []
          · subst empty
            rw [if_pos rfl, ih [] blocks, runs_nil]
            rfl
          · rw [if_neg empty, parseLoop_commandState rest [] t [] (by simp),
              runs_of_all graphic t empty blocks]
            rfl

/-- On every buffer the machine reads exactly the words of the grammar. -/
theorem parseBuffer_eq_grammar (buffer : List UInt8) (n : Nat) :
    parseBuffer .unsigned buffer n = grammar (buffer.take n) := by
  unfold parseBuffer
  generalize buffer.take n = bytes
  cases bytes with
  | nil => rfl
  | cons first rest =>
      by_cases opens : first = fend
      · subst opens
        cases rest with
        | nil => rfl
        | cons second rest =>
            by_cases data : second = 0x00
            · subst data
              have whole := parseLoop_callsignState rest [] (by simp)
              simpa [parseLoop, parseByte, ParserState.initial, callsignState, grammar, fend]
                using whole
            · have stop : (parseLoop .unsigned (fend :: second :: rest) .initial).parsed =
                  ⟨[], []⟩ := by
                simp [parseLoop, parseByte, ParserState.initial, data, parseLoop_finished,
                  ParserState.parsed]
              simp [stop, grammar, Ne.symm data]
      · have stop : (parseLoop .unsigned (first :: rest) .initial).parsed = ⟨[], []⟩ := by
          simp [parseLoop, parseByte, ParserState.initial, opens, parseLoop_finished,
            ParserState.parsed]
        have differs : (0xC0 : UInt8) ≠ first := Ne.symm opens
        simp [stop, grammar, differs]

/-! ## Frames -/

theorem grammar_frame (payload : List UInt8) :
    grammar (fend :: 0x00 :: payload) = parsedOfWords (frameWords payload) := by
  simp [grammar, fend]

theorem grammar_of_head_ne (first : UInt8) (rest : List UInt8) (other : first ≠ fend) :
    grammar (first :: rest) = ⟨[], []⟩ := by
  have differs : (0xC0 : UInt8) ≠ first := Ne.symm other
  simp [grammar, differs]

theorem grammar_of_second_ne (second : UInt8) (rest : List UInt8) (other : second ≠ 0x00) :
    grammar (fend :: second :: rest) = ⟨[], []⟩ := by
  simp [grammar, Ne.symm other]

theorem parsedOfWords_eq (words : List (List UInt8)) :
    parsedOfWords words = ⟨words.headD [], words.tail.map commandFromToken⟩ := by
  cases words <;> rfl

/-- `parse_buffer` accepts exactly its grammar, and nothing after the closing
byte has any influence. -/
theorem parseBuffer_accepts_grammar (buffer : List UInt8) :
    (¬ [0xC0, 0x00] <+: buffer → parseBuffer .unsigned buffer buffer.length = ⟨[], []⟩) ∧
    ([0xC0, 0x00] <+: buffer →
      let body := (buffer.drop 2).takeWhile (· ≠ 0xC0)
      let words :=
        if 0xC0 ∈ buffer.drop 2 then runs graphic body
        else if body.rtakeWhile graphic = [] then runs graphic body
        else (runs graphic body).dropLast
      parseBuffer .unsigned buffer buffer.length =
        ⟨words.headD [], words.tail.map commandFromToken⟩) ∧
    (∀ frame after, buffer = frame ++ after → [0xC0, 0x00] <+: frame → 0xC0 ∈ frame.drop 2 →
      parseBuffer .unsigned buffer buffer.length =
        parseBuffer .unsigned frame frame.length) := by
  simp only [parseBuffer_eq_grammar, List.take_length]
  refine ⟨?_, ?_, ?_⟩
  · intro starts
    rw [grammar, if_neg starts]
  · intro starts
    rw [grammar, if_pos starts, parsedOfWords_eq]
    rfl
  · rintro frame after rfl ⟨payload, rfl⟩ closed
    obtain ⟨body, rest, split, absent⟩ := List.eq_append_cons_of_mem closed
    have payloadSplit : payload = body ++ fend :: rest := split
    subst payloadSplit
    have whole : [0xC0, 0x00] ++ (body ++ fend :: rest) ++ after =
        fend :: 0x00 :: (body ++ fend :: (rest ++ after)) := by
      simp [fend]
    have short : [0xC0, 0x00] ++ (body ++ fend :: rest) =
        fend :: 0x00 :: (body ++ fend :: rest) := rfl
    rw [whole, short, grammar_frame, grammar_frame, frameWords_closed body _ absent,
      frameWords_closed body _ absent]

end ProjectOwl.Radio
