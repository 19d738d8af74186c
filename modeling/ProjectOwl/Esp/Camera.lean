import ProjectOwl.Bytes
import ProjectOwl.Lib.Proc

/-! # The camera stream handler

`camera_stream_get_handler` of `esp/main/owl.c` as a program over the outcomes
of the calls it makes.  `ledger` records, in order, what it does to frames and
JPEG buffers, and `chunks` what it sends.  The sensor's frame size, the timing
of frames and the log lines are left out. -/

set_option autoImplicit false

namespace ProjectOwl.Esp

def ESP_OK : Int := 0
def ESP_FAIL : Int := -1

def PART_BOUNDARY : String := "123456789000000000000987654321"

def streamContentType : List UInt8 := ascii ("multipart/x-mixed-replace;boundary=" ++ PART_BOUNDARY)

def streamBoundary : List UInt8 := ascii ("\r\n--" ++ PART_BOUNDARY ++ "\r\n")

/-- `_STREAM_PART` with its `%u` printed. -/
def streamPart (jpgBufLen : Nat) : List UInt8 :=
  ascii "Content-Type: image/jpeg\r\nContent-Length: " ++ decimal jpgBufLen ++ ascii "\r\n\r\n"

inductive PixFormat where
  | jpeg
  | other (code : Nat)
  deriving DecidableEq, Repr

/-- What the camera delivers: the fields of a `camera_fb_t` that are read. -/
structure Shot where
  format : PixFormat
  bytes : List UInt8
  deriving DecidableEq, Repr

/-- A frame buffer lent by the driver under a name of its own. -/
structure Fb where
  name : Nat
  shot : Shot

/-- What `_jpg_buf` points to: the data of a frame or a buffer of `frame2jpg`. -/
inductive BufRef where
  | frame (name : Nat)
  | jpg (name : Nat)
  deriving DecidableEq, Repr

/-- `_jpg_buf` with the `_jpg_buf_len` bytes there. -/
structure JpgBuf where
  ref : BufRef
  bytes : List UInt8
  deriving DecidableEq, Repr

inductive BufEvent where
  | fbGet (name : Nat)
  | fbReturn (name : Nat)
  | produced (name : Nat)
  /-- `free`; `none` is the value of an uninitialised pointer. -/
  | freed (buf : Option BufRef)
  | read (buf : BufRef)
  deriving DecidableEq, Repr

/-- The outcomes still to come, and what has been done.  `staleFormats` are the
values found in the format field of a frame that the driver has back. -/
structure Camera where
  setType : Int
  captures : List (Option Shot)
  conversions : List (Option (List UInt8))
  staleFormats : List PixFormat
  sends : List Int
  fresh : Nat
  ledger : List BufEvent
  chunks : List (List UInt8 × Int)
  deriving DecidableEq, Repr

def Camera.record (event : BufEvent) (w : Camera) : Camera :=
  { w with ledger := w.ledger ++ [event] }

/-! ## The calls the handler makes -/

def httpdRespSetType (_contentType : List UInt8) : Proc Camera Int :=
  .step fun w => some (w.setType, w)

def espCameraFbGet : Proc Camera (Option Fb) :=
  .step fun w =>
    match w.captures with
    | [] => none
    | none :: rest => some (none, { w with captures := rest })
    | some shot :: rest =>
        some (some ⟨w.fresh, shot⟩,
          { w with captures := rest, fresh := w.fresh + 1 }.record (.fbGet w.fresh))

def espCameraFbReturn (fb : Fb) : Proc Camera PUnit :=
  .modify (Camera.record (.fbReturn fb.name))

/-- `fb->format`. -/
def fbFormat (fb : Fb) : Proc Camera PixFormat :=
  .step fun w =>
    if .fbReturn fb.name ∈ w.ledger then
      match w.staleFormats with
      | [] => none
      | format :: rest =>
          some (format, { w with staleFormats := rest }.record (.read (.frame fb.name)))
    else some (fb.shot.format, w.record (.read (.frame fb.name)))

/-- `fb->buf` and `fb->len`. -/
def fbBuf (fb : Fb) : Proc Camera JpgBuf :=
  .step fun w => some (⟨.frame fb.name, fb.shot.bytes⟩, w.record (.read (.frame fb.name)))

/-- A conversion that fails leaves the output buffer unset and allocates nothing. -/
def frame2jpg (fb : Fb) (_quality : Nat) : Proc Camera (Option JpgBuf) :=
  .step fun w =>
    match w.conversions with
    | [] => none
    | none :: rest => some (none, { w with conversions := rest }.record (.read (.frame fb.name)))
    | some bytes :: rest =>
        some (some ⟨.jpg w.fresh, bytes⟩,
          ({ w with conversions := rest, fresh := w.fresh + 1 }.record
            (.read (.frame fb.name))).record (.produced w.fresh))

def free (buf : Option JpgBuf) : Proc Camera PUnit :=
  .modify (Camera.record (.freed (buf.map JpgBuf.ref)))

def httpdRespSendChunk (bytes : List UInt8) : Proc Camera Int :=
  .step fun w =>
    match w.sends with
    | [] => none
    | res :: rest => some (res, { w with sends := rest, chunks := w.chunks ++ [(bytes, res)] })

/-- Sends `_jpg_buf_len` bytes at `_jpg_buf`. -/
def sendJpgBuf : Option JpgBuf → Proc Camera Int
  | some buf => do
      Proc.modify (Camera.record (.read buf.ref))
      httpdRespSendChunk buf.bytes
  | none => httpdRespSendChunk []

/-- `snprintf` into a buffer of `size` bytes: what it leaves there, and the
length it wanted to print. -/
def snprintf (size : Nat) (text : List UInt8) : List UInt8 × Nat :=
  (text.take (size - 1) ++ [0], text.length)

/-! ## The handler -/

structure StreamLocals where
  res : Int
  jpgBuf : Option JpgBuf
  deriving DecidableEq, Repr

/-- Takes `_jpg_buf` from the frame, converted unless it is a JPEG. -/
def takeJpg (fb : Fb) (l : StreamLocals) : Proc Camera StreamLocals := do
  let format ← fbFormat fb
  if format ≠ .jpeg then
    match ← frame2jpg fb 80 with
    | some buf => pure { l with jpgBuf := some buf }
    | none => do
        espCameraFbReturn fb
        pure { l with res := ESP_FAIL }
  else do
    let buf ← fbBuf fb
    pure { l with jpgBuf := some buf }

/-- A send that is skipped once one has failed. -/
def sendIfOk (res : Int) (send : Proc Camera Int) : Proc Camera Int :=
  if res = ESP_OK then send else pure res

def sendPart (l : StreamLocals) : Proc Camera StreamLocals := do
  let res ← sendIfOk l.res (httpdRespSendChunk streamBoundary)
  let jpgBufLen := (l.jpgBuf.map fun buf => buf.bytes.length).getD 0
  let (partBuf, hlen) := snprintf 64 (streamPart jpgBufLen)
  let res ← sendIfOk res (httpdRespSendChunk (partBuf.take hlen))
  let res ← sendIfOk res (sendJpgBuf l.jpgBuf)
  pure { l with res := res }

/-- Frees a converted buffer: the format of the frame tells it from the frame's own data. -/
def freeJpgBuf (format : PixFormat) (l : StreamLocals) : Proc Camera PUnit :=
  if format ≠ .jpeg then free l.jpgBuf else pure ⟨⟩

def releaseJpg (fb : Fb) (l : StreamLocals) : Proc Camera PUnit := do
  let format ← fbFormat fb
  freeJpgBuf format l
  espCameraFbReturn fb

def streamBody (l : StreamLocals) : Proc Camera (StreamLocals ⊕ Int) := do
  match ← espCameraFbGet with
  | none => pure (.inr ESP_FAIL)
  | some fb => do
      let l ← takeJpg fb l
      let l ← sendPart l
      releaseJpg fb l
      if l.res ≠ ESP_OK then pure (.inr l.res) else pure (.inl l)

def cameraStreamGetHandler (fuel : Nat) : Proc Camera Int := do
  let res ← httpdRespSetType streamContentType
  if res ≠ ESP_OK then pure res
  else Proc.loop streamBody fuel ⟨res, none⟩

end ProjectOwl.Esp
