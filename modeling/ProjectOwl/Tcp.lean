import ProjectOwl.Bytes

/-! # The TCP helpers of both programs

`radio/tcp.cpp` and `beagle/tcp.c` carry the same four helpers.  A call of
`read` is what the socket answers to a request for so many bytes; `write` is
modelled by the bytes handed to it. -/

set_option autoImplicit false

namespace ProjectOwl.Tcp

inductive ReadResult where
  | failed (code : Int)
  | stored (bytes : List UInt8)
  deriving DecidableEq, Repr

/-- The `int` that `read` returns. -/
def ReadResult.value : ReadResult → Int
  | .failed code => code
  | .stored bytes => bytes.length

/-- A buffer of `n` bytes, cleared by `memset` and then filled by `read`. -/
def ReadResult.fill (n : Nat) : ReadResult → List UInt8
  | .failed _ => zeros n
  | .stored bytes => bytes ++ zeros (n - bytes.length)

/-- `write_string` with a buffer of `size` bytes: the bytes handed to `write`. -/
def writeStringWith (size copied sent : Nat) (msg : List UInt8) : List UInt8 :=
  (strncpy (zeros size) msg copied).take sent

/-- `read_string` with a buffer of `size` bytes: the result and, unless it is
negative, the string stored in `rcv`. -/
def readStringWith (size asked : Nat) (read : Nat → ReadResult) : Int × Option (List UInt8) :=
  let result := read asked
  (result.value, if 0 ≤ result.value then some (cString (result.fill size)) else none)

def readBuffer (read : Nat → ReadResult) (n : Nat) : Int × List UInt8 :=
  let result := read (n - 1)
  (result.value, result.fill n)

namespace Radio

def writeString : List UInt8 → List UInt8 := writeStringWith 256 255 256

def readString : (Nat → ReadResult) → Int × Option (List UInt8) := readStringWith 256 255

end Radio

namespace Beagle

def writeString : List UInt8 → List UInt8 := writeStringWith 256 255 256

def readString : (Nat → ReadResult) → Int × Option (List UInt8) := readStringWith 256 255

end Beagle

/-- The two programs that carry a copy of the helpers. -/
inductive Program where
  | radio
  | beagle
  deriving DecidableEq, Repr

def Program.writeString : Program → List UInt8 → List UInt8
  | .radio => Radio.writeString
  | .beagle => Beagle.writeString

def Program.readString : Program → (Nat → ReadResult) → Int × Option (List UInt8)
  | .radio => Radio.readString
  | .beagle => Beagle.readString

end ProjectOwl.Tcp
