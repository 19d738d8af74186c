import ProjectOwl.Radio.Grammar

/-! # Building KISS frames

`fill_buffer` of `radio/test_kiss_tx.cpp` wraps a message into a frame.  A
message is a callsign and command tokens set apart by blanks; decoding the
filled buffer gives the callsign and the commands back, whatever the blanks. -/

set_option autoImplicit false

namespace ProjectOwl.Radio

open MaximalRuns

/-- The result of `fill_buffer` and the buffer after the call. -/
def fillBuffer (buffer : List UInt8) (n : Nat) (msg : List UInt8) : Int × List UInt8 :=
  if msg.length + 3 > n then (-1, buffer)
  else
    let buffer := memcpy buffer 0 (zeros 256)
    let buffer := buffer.set 0 0xC0
    let buffer := buffer.set 1 0x00
    let buffer := memcpy buffer 2 msg
    let buffer := buffer.set (2 + msg.length) 0xC0
    (((3 + msg.length : Nat) : Int), buffer)

theorem fillBuffer_fits (buffer msg : List UInt8) (size : buffer.length = 256)
    (fits : msg.length + 3 ≤ 256) :
    fillBuffer buffer 256 msg =
      (((3 + msg.length : Nat) : Int),
        fend :: 0x00 :: (msg ++ fend :: zeros (253 - msg.length))) := by
  have small : ¬ msg.length + 3 > 256 := by omega
  have cleared : memcpy buffer 0 (zeros 256) = zeros 256 := by
    rw [memcpy, zeros_length, List.drop_eq_nil_of_le (by omega), List.take_zero,
      List.append_nil, List.nil_append]
  have opened : ((zeros 256).set 0 0xC0).set 1 0x00 = fend :: 0x00 :: zeros 254 := rfl
  have copied : memcpy (fend :: 0x00 :: zeros 254) 2 msg =
      fend :: 0x00 :: (msg ++ 0 :: zeros (253 - msg.length)) := by
    have left : 254 - msg.length = 253 - msg.length + 1 := by omega
    have rest : (fend :: 0x00 :: zeros 254).drop (2 + msg.length) =
        0 :: zeros (253 - msg.length) := by
      rw [Nat.add_comm, List.drop_succ_cons, List.drop_succ_cons, drop_zeros, left, zeros_succ]
    rw [memcpy, rest]
    rfl
  have closed : (fend :: 0x00 :: (msg ++ 0 :: zeros (253 - msg.length))).set (2 + msg.length) 0xC0
      = fend :: 0x00 :: (msg ++ fend :: zeros (253 - msg.length)) := by
    rw [Nat.add_comm 2, List.set_cons_succ, List.set_cons_succ,
      List.set_append_right _ _ (Nat.le_refl _), Nat.sub_self]
    rfl
  simp only [fillBuffer, if_neg small, cleared, opened, copied, closed]

/-! ## Messages -/

/-- Bytes that neither print nor delimit. -/
structure Blank where
  bytes : List UInt8
  outside : ∀ byte ∈ bytes, graphic byte = false ∧ byte ≠ fend

structure Separator extends Blank where
  nonempty : bytes ≠ []

structure Callsign where
  bytes : List UInt8
  nonempty : bytes ≠ []
  printable : ∀ byte ∈ bytes, graphic byte = true

/-- Tokens, each after its separator. -/
def renderItems (items : List (Separator × Command)) : List UInt8 :=
  items.flatMap fun item => item.1.bytes ++ tokenFromCommand item.2

def message (lead : Blank) (callsign : Callsign) (items : List (Separator × Command))
    (trail : Blank) : List UInt8 :=
  lead.bytes ++ callsign.bytes ++ renderItems items ++ trail.bytes

theorem tokenFromCommand_ne_nil (cmd : Command) : tokenFromCommand cmd ≠ [] := by
  cases cmd <;> decide

theorem tokenFromCommand_printable (cmd : Command) :
    ∀ byte ∈ tokenFromCommand cmd, graphic byte = true := by
  have all : (tokenFromCommand cmd).all graphic = true := by
    cases cmd <;> decide
  exact List.all_eq_true.mp all

theorem Blank.graphic_false (blank : Blank) : ∀ byte ∈ blank.bytes, graphic byte = false :=
  fun byte member => (blank.outside byte member).1

theorem Blank.takeWhile_append (blank : Blank) (nonempty : blank.bytes ≠ []) (rest : List UInt8) :
    (blank.bytes ++ rest).takeWhile graphic = [] := by
  obtain ⟨first, more, shape⟩ := List.exists_cons_of_ne_nil nonempty
  have outside := blank.graphic_false first (by simp [shape])
  simp [shape, outside]

/-- Whatever follows a word begins outside it. -/
theorem items_boundary (items : List (Separator × Command)) (trail : Blank) :
    (renderItems items ++ trail.bytes).takeWhile graphic = [] := by
  cases items with
  | nil =>
      by_cases empty : trail.bytes = []
      · simp [renderItems, empty]
      · simpa [renderItems] using trail.takeWhile_append empty []
  | cons item rest =>
      simp only [renderItems, List.flatMap_cons, List.append_assoc]
      exact item.1.takeWhile_append item.1.nonempty _

theorem runs_items (items : List (Separator × Command)) (trail : Blank) :
    runs graphic (renderItems items ++ trail.bytes) =
      items.map fun item => tokenFromCommand item.2 := by
  induction items with
  | nil => exact runs_eq_nil graphic _ trail.graphic_false
  | cons item rest ih =>
      have shape : renderItems (item :: rest) ++ trail.bytes =
          item.1.bytes ++ (tokenFromCommand item.2 ++ (renderItems rest ++ trail.bytes)) := by
        simp [renderItems]
      rw [shape, runs_outside_append graphic _ _ item.1.graphic_false,
        runs_append_of_right graphic _ _ (items_boundary rest trail), ih,
        runs_of_all graphic _ (tokenFromCommand_ne_nil item.2)
          (tokenFromCommand_printable item.2)]
      rfl

theorem runs_message (lead : Blank) (callsign : Callsign) (items : List (Separator × Command))
    (trail : Blank) :
    runs graphic (message lead callsign items trail) =
      callsign.bytes :: items.map fun item => tokenFromCommand item.2 := by
  have shape : message lead callsign items trail =
      lead.bytes ++ (callsign.bytes ++ (renderItems items ++ trail.bytes)) := by
    simp [message]
  rw [shape, runs_outside_append graphic _ _ lead.graphic_false,
    runs_append_of_right graphic _ _ (items_boundary items trail), runs_items,
    runs_of_all graphic _ callsign.nonempty callsign.printable]
  rfl

theorem fend_notMem_message (lead : Blank) (callsign : Callsign)
    (items : List (Separator × Command)) (trail : Blank) :
    fend ∉ message lead callsign items trail := by
  have blank : ∀ b : Blank, fend ∉ b.bytes := fun b member => (b.outside fend member).2 rfl
  have word : fend ∉ callsign.bytes := fun member =>
    ne_fend_of_graphic fend (callsign.printable fend member) rfl
  have body : fend ∉ renderItems items := by
    intro member
    obtain ⟨item, _, inside⟩ := List.mem_flatMap.mp member
    rcases List.mem_append.mp inside with separator | token
    · exact blank item.1.toBlank separator
    · exact ne_fend_of_graphic fend (tokenFromCommand_printable item.2 fend token) rfl
  simp [message, blank, word, body]

/-- Decoding a filled buffer gives back the callsign and the commands. -/
theorem parseBuffer_fillBuffer (buffer : List UInt8) (lead : Blank) (callsign : Callsign)
    (items : List (Separator × Command)) (trail : Blank) (size : buffer.length = 256)
    (fits : (message lead callsign items trail).length + 3 ≤ 256) :
    ∃ (count : Nat) (filled : List UInt8),
      fillBuffer buffer 256 (message lead callsign items trail) = ((count : Int), filled) ∧
      count = (message lead callsign items trail).length + 3 ∧
      parseBuffer .unsigned filled 256 = ⟨callsign.bytes, items.map Prod.snd⟩ ∧
      parseBuffer .unsigned filled count = ⟨callsign.bytes, items.map Prod.snd⟩ := by
  have words := runs_message lead callsign items trail
  have absent := fend_notMem_message lead callsign items trail
  have decoded : parsedOfWords (runs graphic (message lead callsign items trail)) =
      ⟨callsign.bytes, items.map Prod.snd⟩ := by
    rw [words]
    simp [parsedOfWords, commandFromToken_tokenFromCommand, Function.comp_def]
  have filled := fillBuffer_fits buffer (message lead callsign items trail) size fits
  generalize message lead callsign items trail = msg at fits absent decoded filled ⊢
  refine ⟨3 + msg.length, _, filled, Nat.add_comm .., ?_, ?_⟩
  · have whole : (fend :: 0x00 :: (msg ++ fend :: zeros (253 - msg.length))).take 256 =
        fend :: 0x00 :: (msg ++ fend :: zeros (253 - msg.length)) := by
      apply List.take_of_length_le
      simp only [List.length_cons, List.length_append, zeros_length]
      omega
    rw [parseBuffer_eq_grammar, whole, grammar_frame, frameWords_closed msg _ absent, decoded]
  · have short : (fend :: 0x00 :: (msg ++ fend :: zeros (253 - msg.length))).take
        (3 + msg.length) = fend :: 0x00 :: (msg ++ fend :: []) := by
      have count : 3 + msg.length = msg.length + 1 + 1 + 1 := by omega
      have split : msg ++ fend :: zeros (253 - msg.length) =
          (msg ++ [fend]) ++ zeros (253 - msg.length) := by
        rw [List.append_assoc, List.singleton_append]
      rw [count, List.take_succ_cons, List.take_succ_cons, split, List.take_left' (by simp)]
    rw [parseBuffer_eq_grammar, short, grammar_frame, frameWords_closed msg _ absent, decoded]

def callsignK : Callsign := ⟨[0x4B], by decide, List.forall_mem_singleton.mpr (by decide)⟩

def space : Separator := ⟨⟨[0x20], List.forall_mem_singleton.mpr (by decide)⟩, by decide⟩

def spaces : Separator :=
  ⟨⟨[0x20, 0x09], List.forall_mem_cons.mpr ⟨by decide, List.forall_mem_singleton.mpr (by decide)⟩⟩,
    by decide⟩

/-- Three commands, one of them none, with a blank before and after. -/
theorem parseBuffer_fillBuffer_sample :
    ∃ (count : Nat) (filled : List UInt8),
      fillBuffer (zeros 256) 256 (ascii " K A1 \tXX F6 ") = ((count : Int), filled) ∧
      count = 16 ∧
      parseBuffer .unsigned filled 256 = ⟨ascii "K", [.right60, .undefined, .picture180]⟩ ∧
      parseBuffer .unsigned filled count = ⟨ascii "K", [.right60, .undefined, .picture180]⟩ :=
  parseBuffer_fillBuffer (zeros 256) space.toBlank callsignK
    [(space, .right60), (spaces, .undefined), (space, .picture180)] space.toBlank
    (zeros_length 256) (by decide)

end ProjectOwl.Radio
