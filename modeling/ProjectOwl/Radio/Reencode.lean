import ProjectOwl.Radio.Transmit

/-! # Re-encoding a parse result

What `parse_buffer` can return: nothing at all, or a callsign of graphic bytes
with any commands.  Printed the way `main_rx` prints it, with the tokens of
`token_from_command`, and put into a frame again, such a result is parsed to
itself; a token the parser does not know comes back as `XX`, which it does not
know either. -/

set_option autoImplicit false

namespace ProjectOwl.Radio

open MaximalRuns

/-- A buffer parsed up to its end, a plain `char` being unsigned. -/
def parseWhole (buffer : List UInt8) : Parsed := parseBuffer .unsigned buffer buffer.length

/-- The callsign, then a space and a token for each command. -/
def rendered (p : Parsed) : List UInt8 :=
  p.callsign ++ p.cmds.flatMap fun c => 0x20 :: tokenFromCommand c

def reencoded (p : Parsed) : List UInt8 := 0xC0 :: 0x00 :: (rendered p ++ [0xC0])

/-- A result with a callsign of graphic bytes, or with nothing. -/
structure Printable (p : Parsed) : Prop where
  callsign : ∀ byte ∈ p.callsign, graphic byte = true
  cmds : p.callsign = [] → p.cmds = []

/-! ## What the parser returns -/

theorem frameWords_words (payload : List UInt8) :
    ∀ word ∈ frameWords payload, word ≠ [] ∧ ∀ byte ∈ word, graphic byte = true := by
  intro word member
  rw [frameWords] at member
  split at member
  · exact mem_runs graphic _ word member
  · rw [closedRuns_eq] at member
    exact mem_runs graphic _ word member

theorem parsedOfWords_printable (words : List (List UInt8))
    (graphics : ∀ word ∈ words, word ≠ [] ∧ ∀ byte ∈ word, graphic byte = true) :
    Printable (parsedOfWords words) := by
  cases words with
  | nil => exact ⟨fun byte member => absurd member List.not_mem_nil, fun _ => rfl⟩
  | cons callsign tokens =>
      obtain ⟨nonempty, inside⟩ := graphics callsign (List.mem_cons_self ..)
      exact ⟨inside, fun empty => absurd empty nonempty⟩

/-- No command is pushed before a callsign is complete. -/
theorem parseWhole_printable (buffer : List UInt8) : Printable (parseWhole buffer) := by
  rw [parseWhole, parseBuffer_eq_grammar, grammar]
  split
  · exact parsedOfWords_printable _ (frameWords_words _)
  · exact parsedOfWords_printable [] fun word member => absurd member List.not_mem_nil

/-! ## And back -/

theorem rendered_eq_message {p : Parsed} (printable : Printable p) (nonempty : p.callsign ≠ []) :
    rendered p = message ⟨[], fun _ member => absurd member List.not_mem_nil⟩
      ⟨p.callsign, nonempty, printable.callsign⟩ (p.cmds.map fun c => (space, c))
      ⟨[], fun _ member => absurd member List.not_mem_nil⟩ := by
  simp [rendered, message, renderItems, space, List.flatMap_map]

theorem parseWhole_reencoded {p : Parsed} (printable : Printable p) (nonempty : p.callsign ≠ []) :
    parseWhole (reencoded p) = p := by
  have text := rendered_eq_message printable nonempty
  have absent : fend ∉ rendered p := by
    rw [text]
    exact fend_notMem_message _ _ _ _
  have words : runs graphic (rendered p) = p.callsign :: p.cmds.map tokenFromCommand := by
    rw [text, runs_message, List.map_map]
    rfl
  have same : p.cmds.map (commandFromToken ∘ tokenFromCommand) = p.cmds := by
    rw [funext commandFromToken_tokenFromCommand (f := commandFromToken ∘ tokenFromCommand)]
    exact List.map_id _
  calc
    parseWhole (reencoded p)
      = grammar (fend :: 0x00 :: (rendered p ++ fend :: [])) := by
          rw [parseWhole, parseBuffer_eq_grammar, List.take_length]
          rfl
    _ = parsedOfWords (p.callsign :: p.cmds.map tokenFromCommand) := by
          rw [grammar_frame, frameWords_closed _ _ absent, words]
    _ = p := by
          rw [parsedOfWords, List.map_map, same]

/-- The results of the parser are exactly the printable ones. -/
theorem printable_iff_parsed (p : Parsed) : Printable p ↔ ∃ buffer, parseWhole buffer = p := by
  constructor
  · intro printable
    by_cases empty : p.callsign = []
    · refine ⟨[], ?_⟩
      obtain ⟨callsign, cmds⟩ := p
      obtain rfl : callsign = [] := empty
      obtain rfl : cmds = [] := printable.cmds rfl
      rfl
    · exact ⟨reencoded p, parseWhole_reencoded printable empty⟩
  · intro parsed
    obtain ⟨buffer, rfl⟩ := parsed
    exact parseWhole_printable buffer

/-- Every buffer is parsed to a result that its own printing reproduces. -/
theorem parseBuffer_stable (buffer : List UInt8) :
    (∀ byte ∈ (parseWhole buffer).callsign, graphic byte = true) ∧
      ((parseWhole buffer).callsign = [] → (parseWhole buffer).cmds = []) ∧
      ((parseWhole buffer).callsign ≠ [] →
        parseWhole (reencoded (parseWhole buffer)) = parseWhole buffer) := by
  have printable := parseWhole_printable buffer
  exact ⟨printable.callsign, printable.cmds, parseWhole_reencoded printable⟩

/-- An unknown token, and no closing byte. -/
example : reencoded (parseWhole ([0xC0, 0x00] ++ ascii "K q B2 H8")) =
    [0xC0, 0x00] ++ ascii "K XX B2" ++ [0xC0] := by decide

end ProjectOwl.Radio
