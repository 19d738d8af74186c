import ProjectOwl.Bytes

/-! # The KISS frame parser of the radio link

`radio/parser.h` and `radio/parser.cpp`: the command alphabet, its two token
tables and the byte machine `parse_buffer` runs over a buffer.  A plain `char`
is a byte; whether it promotes to a negative `int` is the compiler's choice and
a parameter here.  `std::string` values are byte lists. -/

set_option autoImplicit false

namespace ProjectOwl.Radio

/-- Signedness of plain `char`, which neither the sources nor the Makefile fix. -/
inductive PlainChar where
  | unsigned
  | signed
  deriving DecidableEq, Repr

/-- The `int` that a byte stored in a plain `char` promotes to. -/
def PlainChar.promote : PlainChar → UInt8 → Int
  | .unsigned, byte => byte.toNat
  | .signed, byte => if byte.toNat < 128 then byte.toNat else byte.toNat - 256

/-- `isgraph` in the C locale, false on negative arguments. -/
def isgraph (c : Int) : Bool := decide (0x21 ≤ c ∧ c ≤ 0x7E)

inductive Command where
  | right60
  | left60
  | takePicture
  | modeGrayscale
  | modeColor
  | picture180
  | specialFilter
  | removeFilter
  | undefined
  deriving DecidableEq, Repr

inductive KState where
  | noFrame
  | frameStart
  | whitespaceInitial
  | callsign
  | whitespace
  | token
  deriving DecidableEq, Repr

def commandFromToken (token : List UInt8) : Command :=
  let cmd := Command.undefined
  let cmd := if token = ascii "A1" then .right60 else cmd
  let cmd := if token = ascii "B2" then .left60 else cmd
  let cmd := if token = ascii "C3" then .takePicture else cmd
  let cmd := if token = ascii "D4" then .modeGrayscale else cmd
  let cmd := if token = ascii "E5" then .modeColor else cmd
  let cmd := if token = ascii "F6" then .picture180 else cmd
  let cmd := if token = ascii "G7" then .specialFilter else cmd
  let cmd := if token = ascii "H8" then .removeFilter else cmd
  cmd

def tokenFromCommand : Command → List UInt8
  | .right60 => ascii "A1"
  | .left60 => ascii "B2"
  | .takePicture => ascii "C3"
  | .modeGrayscale => ascii "D4"
  | .modeColor => ascii "E5"
  | .picture180 => ascii "F6"
  | .specialFilter => ascii "G7"
  | .removeFilter => ascii "H8"
  | .undefined => ascii "XX"

/-- The variables of `parse_buffer` that live across loop iterations. -/
structure ParserState where
  state : KState
  token : List UInt8
  callsign : List UInt8
  cmds : List Command
  finished : Bool
  deriving DecidableEq, Repr

def ParserState.initial : ParserState := ⟨.noFrame, [], [], [], false⟩

/-- The body of the `for` loop: one byte through the `switch`. -/
def parseByte (char : PlainChar) (s : ParserState) (byte : UInt8) : ParserState :=
  let c := char.promote byte
  match s.state with
  | .noFrame =>
      if c = 0xC0 then { s with state := .frameStart }
      else { s with finished := true }
  | .frameStart =>
      if c = 0x00 then { s with state := .whitespaceInitial }
      else { s with finished := true }
  | .whitespaceInitial =>
      if c = 0xC0 then { s with finished := true }
      else if isgraph c then { s with token := s.token ++ [byte], state := .callsign }
      else { s with state := .whitespaceInitial }
  | .callsign =>
      if c = 0xC0 then { s with finished := true, callsign := s.token, token := [] }
      else if isgraph c then { s with token := s.token ++ [byte], state := .callsign }
      else { s with callsign := s.token, token := [], state := .whitespace }
  | .whitespace =>
      if c = 0xC0 then { s with finished := true }
      else if isgraph c then { s with token := s.token ++ [byte], state := .token }
      else { s with state := .whitespace }
  | .token =>
      if c = 0xC0 then
        { s with finished := true, cmds := s.cmds ++ [commandFromToken s.token], token := [] }
      else if isgraph c then { s with token := s.token ++ [byte], state := .token }
      else
        { s with cmds := s.cmds ++ [commandFromToken s.token], token := [], state := .whitespace }

/-- The `for` loop, left early once `finished` is set. -/
def parseLoop (char : PlainChar) : List UInt8 → ParserState → ParserState
  | [], s => s
  | byte :: rest, s => if s.finished then s else parseLoop char rest (parseByte char s byte)

/-- What the caller of `parse_buffer` gets: the `callsign` reference and the
returned vector. -/
structure Parsed where
  callsign : List UInt8
  cmds : List Command
  deriving DecidableEq, Repr

def ParserState.parsed (s : ParserState) : Parsed := ⟨s.callsign, s.cmds⟩

def parseBuffer (char : PlainChar) (buffer : List UInt8) (n : Nat) : Parsed :=
  (parseLoop char (buffer.take n) .initial).parsed

/-! ## The token tables -/

theorem commandFromToken_tokenFromCommand (cmd : Command) :
    commandFromToken (tokenFromCommand cmd) = cmd := by
  cases cmd <;> decide

example : parseBuffer .unsigned (0xC0 :: 0x00 :: ascii "KQ4DIB  A1        H8" ++ [0xC0]) 23 =
    ⟨ascii "KQ4DIB", [.right60, .removeFilter]⟩ := by decide

end ProjectOwl.Radio
