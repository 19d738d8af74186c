import ProjectOwl.Radio.Grammar

/-! # The sign of a plain `char`

`parse_buffer` copies every byte into a plain `char` and compares it with
`0xC0`.  Where plain `char` is signed that comparison never succeeds, as the
byte promotes to a negative `int`: no frame opens, and the parser returns
nothing for every buffer.  Neither the sources nor the flags of the Makefile
choose the sign. -/

set_option autoImplicit false

namespace ProjectOwl.Radio

open MaximalRuns

/-! ## Promotion -/

theorem promote_signed_ne_fend (byte : UInt8) : PlainChar.signed.promote byte ≠ 0xC0 := by
  have bound := byte.toNat_lt
  simp only [PlainChar.promote]
  split <;> omega

theorem promote_eq_of_lt (first second : PlainChar) (byte : UInt8) (text : byte.toNat < 128) :
    first.promote byte = second.promote byte := by
  cases first <;> cases second <;> simp [PlainChar.promote, text]

theorem promote_signed_neg (byte : UInt8) (high : 128 ≤ byte.toNat) :
    PlainChar.signed.promote byte < 0 := by
  have bound := byte.toNat_lt
  simp only [PlainChar.promote, if_neg (Nat.not_lt.mpr high)]
  omega

theorem isgraph_promote (char : PlainChar) (byte : UInt8) :
    isgraph (char.promote byte) = graphic byte := by
  cases char with
  | unsigned => exact isgraph_promote_unsigned byte
  | signed =>
      rcases Nat.lt_or_ge byte.toNat 128 with text | high
      · rw [promote_eq_of_lt .signed .unsigned byte text]
        exact isgraph_promote_unsigned byte
      · have negative := promote_signed_neg byte high
        have outside : ¬byte ≤ 0x7E := by
          intro below
          have := UInt8.le_iff_toNat_le.mp below
          have value : (0x7E : UInt8).toNat = 126 := rfl
          omega
        have left : isgraph (PlainChar.signed.promote byte) = false := by
          simp only [isgraph, decide_eq_false_iff_not, not_and]
          omega
        have right : graphic byte = false := by
          simp [graphic, outside]
        rw [left, right]

theorem promote_eq_zero (char : PlainChar) (byte : UInt8) :
    char.promote byte = 0x00 ↔ byte = 0x00 := by
  cases char with
  | unsigned => exact promote_unsigned_eq_zero byte
  | signed =>
      rcases Nat.lt_or_ge byte.toNat 128 with text | high
      · rw [promote_eq_of_lt .signed .unsigned byte text]
        exact promote_unsigned_eq_zero byte
      · have negative := promote_signed_neg byte high
        apply iff_of_false
        · omega
        · intro zero
          rw [zero] at high
          exact absurd high (by decide)

/-- In no state does the sign matter for another byte than `0xC0`. -/
theorem parseByte_signed_eq (s : ParserState) (byte : UInt8) (other : byte ≠ 0xC0) :
    parseByte .signed s byte = parseByte .unsigned s byte := by
  have signedOther : PlainChar.signed.promote byte ≠ 0xC0 := promote_signed_ne_fend byte
  have unsignedOther : PlainChar.unsigned.promote byte ≠ 0xC0 := fun equal =>
    other ((promote_unsigned_eq_fend byte).mp equal)
  simp only [parseByte, isgraph_promote, promote_eq_zero, if_neg signedOther,
    if_neg unsignedOther]

/-! ## With a signed `char` no frame opens -/

theorem parseBuffer_signed (buffer : List UInt8) (n : Nat) :
    parseBuffer .signed buffer n = ⟨[], []⟩ := by
  unfold parseBuffer
  cases buffer.take n with
  | nil => rfl
  | cons first rest =>
      have closed := promote_signed_ne_fend first
      simp [parseLoop, parseByte, ParserState.initial, closed, parseLoop_finished,
        ParserState.parsed]

/-! ## When a frame has a word at all -/

/-- Before any `0xC0` a graphic byte is followed by one that is not. -/
def EndsWord (payload : List UInt8) : Prop :=
  ∃ front c d rest, payload = front ++ c :: d :: rest ∧ 0xC0 ∉ front ∧
    graphic c = true ∧ graphic d = false

theorem not_endsWord_block (t : List UInt8) (inside : ∀ x ∈ t, graphic x = true) :
    ¬EndsWord t := by
  rintro ⟨front, c, d, rest, rfl, _, _, outside⟩
  have graphicEnd := inside d (by simp)
  rw [outside] at graphicEnd
  exact absurd graphicEnd (by decide)

theorem endsWord_of_block (t rest : List UInt8) (d : UInt8) (nonempty : t ≠ [])
    (inside : ∀ x ∈ t, graphic x = true) (outside : graphic d = false) :
    EndsWord (t ++ d :: rest) := by
  have split : t.dropLast ++ [t.getLast nonempty] = t := List.dropLast_append_getLast nonempty
  refine ⟨t.dropLast, t.getLast nonempty, d, rest, ?_, ?_, ?_, outside⟩
  · conv_lhs => rw [← split]
    simp
  · exact fun member => fend_notMem_block inside (List.dropLast_subset t member)
  · exact inside _ (List.getLast_mem nonempty)

theorem endsWord_cons (c : UInt8) (rest : List UInt8) (outside : graphic c = false) :
    EndsWord (c :: rest) ↔ c ≠ fend ∧ EndsWord rest := by
  constructor
  · rintro ⟨front, a, b, tail, split, absent, word, blank⟩
    cases front with
    | nil =>
        have same : c = a := (List.cons.inj split).1
        rw [same, word] at outside
        exact absurd outside (by decide)
    | cons first front =>
        have ⟨same, others⟩ := List.cons.inj split
        rw [List.mem_cons, not_or] at absent
        exact ⟨fun closes => absent.1 (closes.symm.trans same), front, a, b, tail, others,
          absent.2, word, blank⟩
  · rintro ⟨other, front, a, b, tail, split, absent, word, blank⟩
    refine ⟨c :: front, a, b, tail, by rw [split]; rfl, ?_, word, blank⟩
    rw [List.mem_cons, not_or]
    exact ⟨Ne.symm other, absent⟩

theorem frameWords_ne_nil_iff (payload : List UInt8) :
    frameWords payload ≠ [] ↔ EndsWord payload := by
  induction payload using cutInduction graphic with
  | block t inside =>
      apply iff_of_false
      · exact fun some => some (frameWords_block t inside)
      · exact not_endsWord_block t inside
  | cut t c ys inside outside ih =>
      by_cases empty : t = []
      · subst empty
        rw [List.nil_append, endsWord_cons c ys outside]
        by_cases closes : c = fend
        · have none : frameWords (c :: ys) = [] := by
            rw [closes]
            exact (frameWords_block_fend [] ys (by simp)).trans (runs_nil graphic)
          apply iff_of_false
          · exact fun some => some none
          · exact fun both => both.1 closes
        · have rest : frameWords (c :: ys) = frameWords ys := by
            have cut := frameWords_block_cons [] ys c (by simp) outside closes
            rwa [runs_nil, List.nil_append] at cut
          rw [rest, ih]
          simp [closes]
      · apply iff_of_true
        · by_cases closes : c = fend
          · rw [closes, frameWords_block_fend t ys inside, runs_of_all graphic t empty inside]
            simp
          · rw [frameWords_block_cons t ys c inside outside closes,
              runs_of_all graphic t empty inside]
            simp
        · exact endsWord_of_block t ys c empty inside outside

theorem frameWords_nonempty (payload : List UInt8) : ∀ word ∈ frameWords payload, word ≠ [] := by
  intro word member
  unfold frameWords at member
  split at member
  · exact (mem_runs graphic _ word member).1
  · rw [closedRuns_eq] at member
    exact (mem_runs graphic _ word member).1

theorem parsedOfWords_ne_empty (words : List (List UInt8)) (nonempty : ∀ word ∈ words, word ≠ []) :
    parsedOfWords words ≠ ⟨[], []⟩ ↔ words ≠ [] := by
  cases words with
  | nil => simp [parsedOfWords]
  | cons callsign tokens =>
      have known : callsign ≠ [] := nonempty callsign (List.mem_cons_self ..)
      simp [parsedOfWords, known]

/-! ## The two parsers -/

/-- A frame opens, and a word of it is followed by another byte. -/
def CompletesWord (buffer : List UInt8) : Prop :=
  ∃ payload, buffer = 0xC0 :: 0x00 :: payload ∧ EndsWord payload

theorem grammar_ne_empty_iff (buffer : List UInt8) :
    grammar buffer ≠ ⟨[], []⟩ ↔ CompletesWord buffer := by
  by_cases opens : [0xC0, 0x00] <+: buffer
  · obtain ⟨payload, rfl⟩ := opens
    change grammar (fend :: 0x00 :: payload) ≠ _ ↔ _
    rw [grammar_frame, parsedOfWords_ne_empty _ (frameWords_nonempty payload),
      frameWords_ne_nil_iff]
    constructor
    · exact fun ends => ⟨payload, rfl, ends⟩
    · rintro ⟨other, same, ends⟩
      have payloads : payload = other := (List.cons.inj (List.cons.inj same).2).2
      exact payloads ▸ ends
  · apply iff_of_false
    · simp [grammar, opens]
    · rintro ⟨payload, rfl, _⟩
      exact opens ⟨payload, rfl⟩

/-- The sign of plain `char` shows exactly on the buffers in which a frame
opens and a word of it ends. -/
theorem parseBuffer_signed_eq_unsigned_iff (buffer : List UInt8) (n : Nat) :
    parseBuffer .signed buffer n = parseBuffer .unsigned buffer n ↔
      ¬CompletesWord (buffer.take n) := by
  rw [parseBuffer_signed, parseBuffer_eq_grammar, ← grammar_ne_empty_iff, not_ne_iff]
  exact eq_comm

/-- The frame of the callsign `K`, four bytes. -/
theorem parseBuffer_sign_dependent :
    ¬∀ buffer : List UInt8,
      (parseBuffer .signed buffer buffer.length).callsign =
          (parseBuffer .unsigned buffer buffer.length).callsign ∧
        (parseBuffer .signed buffer buffer.length).cmds =
          (parseBuffer .unsigned buffer buffer.length).cmds := by
  intro independent
  have callsigns := (independent [0xC0, 0x00, 0x4B, 0xC0]).1
  have unsigned : (parseBuffer .unsigned [0xC0, 0x00, 0x4B, 0xC0] 4).callsign = [0x4B] := by
    decide +kernel
  have signed : (parseBuffer .signed [0xC0, 0x00, 0x4B, 0xC0] 4).callsign = [] := by
    decide +kernel
  exact absurd (signed.symm.trans (callsigns.trans unsigned)) (by decide)

end ProjectOwl.Radio
