import ProjectOwl.Esp.CameraBuffers
import ProjectOwl.Lib.PrefixReader
import ProjectOwl.Lib.Wp

/-! # The framing of the camera stream

Every frame the stream handler captures becomes one part of three chunks: the
boundary, a header with the length of the JPEG, and the JPEG.  A reader that
trusts the length gets the JPEGs back, whatever they contain; a send that fails
leaves an unfinished part at the end, which the reader refuses. -/

set_option autoImplicit false

namespace ProjectOwl.Esp

open BufEvent Proc PrefixReader

abbrev Jpeg := List UInt8

/-! ## The format -/

def partChunks (jpeg : Jpeg) : List (List UInt8) := [streamBoundary, streamPart jpeg.length, jpeg]

def part (jpeg : Jpeg) : List UInt8 := (partChunks jpeg).flatten

/-- A length that `size_t` holds and that does not end the chunked response. -/
def Sized (jpeg : Jpeg) : Prop := 0 < jpeg.length ∧ jpeg.length < UInt32.size

def isDigit (b : UInt8) : Bool := 48 ≤ b ∧ b ≤ 57

def readDecimal (digits : List UInt8) : Nat :=
  digits.foldl (fun n b => 10 * n + (b.toNat - 48)) 0

/-- One boundary, one header, and as many bytes as the header says. -/
def readPart (stream : List UInt8) : Option (Jpeg × List UInt8) := do
  let stream ← literal streamBoundary stream
  let stream ← literal (ascii "Content-Type: image/jpeg\r\nContent-Length: ") stream
  let digits := stream.takeWhile isDigit
  let stream ← literal (ascii "\r\n\r\n") (stream.dropWhile isDigit)
  block (readDecimal digits) stream

/-- The byte of a printed digit. -/
theorem toDigits_byte {n : Nat} {c : Char} (member : c ∈ Nat.toDigits 10 n) :
    c.toNat.toUInt8.toNat = c.toNat ∧ 48 ≤ c.toNat ∧ c.toNat ≤ 57 := by
  have digit := Nat.isDigit_of_mem_toDigits (by omega) (by omega) member
  simp only [Char.isDigit, Bool.and_eq_true, decide_eq_true_eq] at digit
  have low : 48 ≤ c.toNat := digit.1
  have high : c.toNat ≤ 57 := digit.2
  refine ⟨?_, low, high⟩
  simp only [Nat.toUInt8, UInt8.toNat_ofNat']
  omega

theorem foldl_digits (digits : List Char) (same : ∀ c ∈ digits, c.toNat.toUInt8.toNat = c.toNat)
    (m : Nat) :
    (digits.map fun c => c.toNat.toUInt8).foldl (fun n b => 10 * n + (b.toNat - 48)) m =
      Nat.ofDigitChars 10 digits m := by
  induction digits generalizing m with
  | nil => simp
  | cons c digits ih =>
      rw [List.map_cons, List.foldl_cons, same c (by simp), Nat.ofDigitChars_cons]
      exact ih (fun d member => same d (by simp [member])) _

theorem readDecimal_decimal (n : Nat) : readDecimal (decimal n) = n := by
  rw [readDecimal, decimal, foldl_digits _ fun c member => (toDigits_byte member).1]
  exact Nat.ofDigitChars_ten_toDigits

theorem decimal_isDigit (n : Nat) : ∀ b ∈ decimal n, isDigit b := by
  intro b member
  obtain ⟨c, isChar, rfl⟩ := List.mem_map.mp member
  obtain ⟨same, low, high⟩ := toDigits_byte isChar
  simp only [isDigit, UInt8.le_iff_toNat_le, same, decide_eq_true_eq]
  exact ⟨low, high⟩

theorem decimal_length {n : Nat} (fits : n < UInt32.size) : (decimal n).length ≤ 10 := by
  rw [decimal, List.length_map, Nat.length_toDigits_le_iff (by omega) (by omega)]
  exact Nat.lt_trans fits (by decide)

/-- The header fits the 64 bytes it is printed to. -/
theorem streamPart_length {n : Nat} (fits : n < UInt32.size) : (streamPart n).length < 64 := by
  have digits := decimal_length fits
  have front : (ascii "Content-Type: image/jpeg\r\nContent-Length: ").length = 42 := by decide
  have back : (ascii "\r\n\r\n").length = 4 := by decide
  simp only [streamPart, List.length_append]
  omega

theorem snprintf_fits {size : Nat} {text : List UInt8} (fits : text.length < size) :
    snprintf size text = (text ++ [0], text.length) := by
  rw [snprintf, List.take_of_length_le (by omega)]

/-- What `readPart` does behind a boundary and a header. -/
theorem readPart_header (n : Nat) (rest : List UInt8) :
    readPart (streamBoundary ++ streamPart n ++ rest) = block n rest := by
  have back : ascii "\r\n\r\n" ++ rest = 13 :: ([10, 13, 10] ++ rest) := rfl
  obtain ⟨digits, after⟩ := takeWhile_stops (decimal_isDigit n)
    (show isDigit 13 = false by decide) ([10, 13, 10] ++ rest)
  rw [← back] at digits after
  simp only [readPart, streamPart, List.append_assoc, literal_append, Option.bind_eq_bind,
    Option.bind_some, digits, after, readDecimal_decimal]

theorem readPart_legible (jpeg : Jpeg) : Legible readPart part jpeg where
  nonempty := by
    have boundary : streamBoundary ≠ [] := by decide
    simp [part, partChunks, boundary]
  reads rest := by
    have framed : part jpeg ++ rest =
        streamBoundary ++ streamPart jpeg.length ++ (jpeg ++ rest) := by simp [part, partChunks]
    rw [framed, readPart_header, block_append]

/-- The reader refuses a part that lacks chunks. -/
theorem readPart_unfinished {jpeg : Jpeg} (nonempty : 0 < jpeg.length) {sent : Nat}
    (short : sent < 3) : readPart ((partChunks jpeg).take sent).flatten = none := by
  match sent with
  | 0 => rfl
  | 1 =>
      have boundary : ((partChunks jpeg).take 1).flatten = streamBoundary ++ [] := by
        simp [partChunks]
      rw [boundary]
      simp only [readPart, literal_append, Option.bind_eq_bind, Option.bind_some]
      rw [literal_short (by decide)]
      rfl
  | 2 =>
      have header : ((partChunks jpeg).take 2).flatten =
          streamBoundary ++ streamPart jpeg.length ++ [] := by simp [partChunks]
      rw [header, readPart_header, block_short (by simpa using nonempty)]

/-! ## What has been sent -/

/-- The JPEGs of the frames captured before a capture or a conversion fails. -/
def jpegs : List (Option Shot) → List (Option Jpeg) → List Jpeg
  | some ⟨.jpeg, bytes⟩ :: captures, conversions => bytes :: jpegs captures conversions
  | some ⟨.other _, _⟩ :: captures, some bytes :: conversions => bytes :: jpegs captures conversions
  | _, _ => []

/-- The bytes the peer receives: a chunk that was not accepted adds nothing. -/
def received (chunks : List (List UInt8 × Int)) : List UInt8 :=
  (chunks.filter fun chunk => chunk.2 = ESP_OK).flatMap Prod.fst

def accepted (chunks : List (List UInt8)) : List (List UInt8 × Int) :=
  chunks.map fun bytes => (bytes, ESP_OK)

/-- Every part has been sent. -/
def Whole (parts : List Jpeg) (chunks : List (List UInt8 × Int)) : Prop :=
  chunks = accepted (parts.flatMap partChunks)

/-- The last part lacks chunks, and `refused` is the send that failed, if one did. -/
def Unfinished (parts : List Jpeg) (refused chunks : List (List UInt8 × Int)) : Prop :=
  ∃ earlier jpeg sent, parts = earlier ++ [jpeg] ∧ sent < 3 ∧
    chunks = accepted (earlier.flatMap partChunks ++ (partChunks jpeg).take sent) ++ refused

/-- A send was refused in the last part. -/
def Refused (parts : List Jpeg) (chunks : List (List UInt8 × Int)) : Prop :=
  ∃ chunk code, code ≠ ESP_OK ∧ Unfinished parts [(chunk, code)] chunks

@[simp] theorem accepted_append (left right : List (List UInt8)) :
    accepted (left ++ right) = accepted left ++ accepted right :=
  List.map_append

theorem received_accepted (chunks : List (List UInt8)) {refused : List (List UInt8 × Int)}
    (failed : ∀ chunk ∈ refused, chunk.2 ≠ ESP_OK) :
    received (accepted chunks ++ refused) = chunks.flatten := by
  have nothing : refused.filter (fun chunk => chunk.2 = ESP_OK) = [] := by
    simpa [List.filter_eq_nil_iff] using failed
  rw [received, List.filter_append, nothing, List.append_nil]
  induction chunks with
  | nil => rfl
  | cons bytes chunks ih =>
      rw [accepted, List.map_cons, List.filter_cons_of_pos (by simp), List.flatMap_cons,
        List.flatten_cons]
      exact congrArg (bytes ++ ·) ih

theorem flatten_partChunks (parts : List Jpeg) :
    (parts.flatMap partChunks).flatten = parts.flatMap part := by
  induction parts with
  | nil => rfl
  | cons jpeg parts ih =>
      rw [List.flatMap_cons, List.flatten_append, ih, List.flatMap_cons, part]

theorem Whole.received {parts : List Jpeg} {chunks : List (List UInt8 × Int)}
    (whole : Whole parts chunks) : Esp.received chunks = parts.flatMap part := by
  have noneFailed : ∀ chunk ∈ ([] : List (List UInt8 × Int)), chunk.2 ≠ ESP_OK := by simp
  have all := received_accepted (parts.flatMap partChunks) noneFailed
  rw [whole, ← flatten_partChunks, ← all, List.append_nil]

@[simp] theorem jpegs_nil (conversions : List (Option Jpeg)) : jpegs [] conversions = [] := by
  simp [jpegs]

theorem jpegs_front (seen more : List (Option Shot)) (conversions : List (Option Jpeg)) :
    jpegs seen conversions <+: jpegs (seen ++ more) conversions := by
  fun_induction jpegs seen conversions with
  | case1 bytes captures conversions ih =>
      rw [List.cons_append, jpegs]
      exact (List.prefix_cons_inj _).mpr ih
  | case2 code bytes' captures bytes conversions ih =>
      rw [List.cons_append, jpegs]
      exact (List.prefix_cons_inj _).mpr ih
  | case3 => exact List.nil_prefix

/-! ## Guarded sends -/

/-- After `tried` of the chunks of a part: all are sent, or one before was refused. -/
def Sending (before : List (List UInt8 × Int)) (part : List (List UInt8)) (tried : Nat) (res : Int)
    (w : Camera) : Prop :=
  (res = ESP_OK ∧ w.chunks = before ++ accepted (part.take tried)) ∨
  (res ≠ ESP_OK ∧ ∃ sent chunk, sent < tried ∧
    w.chunks = before ++ accepted (part.take sent) ++ [(chunk, res)])

/-- Frames and conversions are the ones still to come in `s`. -/
def SameSource (s t : Camera) : Prop := t.captures = s.captures ∧ t.conversions = s.conversions

section Calls
variable {s : Camera} {fb : Fb} {l : StreamLocals}

theorem SameSource.trans {s t u : Camera} (first : SameSource s t) (second : SameSource t u) :
    SameSource s u :=
  ⟨second.1.trans first.1, second.2.trans first.2⟩

/-- The send hands `bytes` to the server, unless no outcome is left for it. -/
def Sends (bytes : List UInt8) (send : Proc Camera Int) (s : Camera) : Prop :=
  Wp send (fun res t => SameSource s t ∧ t.chunks = s.chunks ++ [(bytes, res)])
    (fun t => SameSource s t ∧ t.chunks = s.chunks ∧ t.sends = []) s

theorem httpdRespSendChunk_sends (bytes : List UInt8) : Sends bytes (httpdRespSendChunk bytes) s := by
  refine wp_step.mpr ⟨?_, ?_⟩
  · cases outcomes : s.sends with
    | nil => exact fun _ => ⟨⟨rfl, rfl⟩, rfl, rfl⟩
    | cons res rest => simp
  · intro res t stepped
    cases outcomes : s.sends with
    | nil => simp [outcomes] at stepped
    | cons next rest =>
        simp only [outcomes, Option.some.injEq, Prod.mk.injEq] at stepped
        obtain ⟨rfl, rfl⟩ := stepped
        exact ⟨⟨rfl, rfl⟩, rfl⟩

theorem sendJpgBuf_sends (buf : JpgBuf) : Sends buf.bytes (sendJpgBuf (some buf)) s := by
  rw [Sends, sendJpgBuf, wp_bind, wp_modify]
  exact httpdRespSendChunk_sends (s := s.record (.read buf.ref)) buf.bytes

theorem wp_sendIfOk {send : Proc Camera Int} {bytes : List UInt8}
    {before : List (List UInt8 × Int)} {part : List (List UInt8)} {tried : Nat} {res : Int}
    (sends : Sends bytes send s) (chunk : part[tried]? = some bytes)
    (sending : Sending before part tried res s) :
    Wp (sendIfOk res send)
      (fun res t => SameSource s t ∧ Sending before part (tried + 1) res t)
      (fun t => SameSource s t ∧ t.chunks = before ++ accepted (part.take tried) ∧ t.sends = [])
      s := by
  rcases sending with ⟨ok, chunks⟩ | ⟨failed, sent, refused, lt, chunks⟩
  · rw [sendIfOk, if_pos ok]
    refine wp_mono sends ?_ ?_
    · intro res t after
      obtain ⟨same, after⟩ := after
      refine ⟨same, ?_⟩
      by_cases accepts : res = ESP_OK
      · refine Or.inl ⟨accepts, ?_⟩
        rw [after, chunks, accepts, List.take_add_one, chunk]
        simp [accepted]
      · refine Or.inr ⟨accepts, tried, bytes, Nat.lt_succ_self tried, ?_⟩
        rw [after, chunks]
    · intro t cut
      obtain ⟨same, unchanged, ended⟩ := cut
      exact ⟨same, unchanged.trans chunks, ended⟩
  · rw [sendIfOk, if_neg failed, wp_pure]
    exact ⟨⟨rfl, rfl⟩, Or.inr ⟨failed, sent, refused, Nat.lt_succ_of_lt lt, chunks⟩⟩

/-- The three sends of a part whose header fits its buffer. -/
theorem wp_sendPart {buf : JpgBuf} (taken : l.jpgBuf = some buf) (ok : l.res = ESP_OK)
    (fits : buf.bytes.length < UInt32.size) :
    Wp (sendPart l)
      (fun next t => SameSource s t ∧ Sending s.chunks (partChunks buf.bytes) 3 next.res t)
      (fun t => SameSource s t ∧ t.sends = [] ∧ ∃ sent < 3,
        t.chunks = s.chunks ++ accepted ((partChunks buf.bytes).take sent)) s := by
  have header : (snprintf 64 (streamPart buf.bytes.length)).1.take
      (snprintf 64 (streamPart buf.bytes.length)).2 = streamPart buf.bytes.length := by
    rw [snprintf_fits (streamPart_length fits)]
    exact List.take_left
  have start : Sending s.chunks (partChunks buf.bytes) 0 l.res s := Or.inl ⟨ok, by simp [accepted]⟩
  rw [sendPart, wp_bind]
  refine wp_mono (wp_sendIfOk (httpdRespSendChunk_sends streamBoundary) rfl start) ?_ ?_
  · intro afterBoundary t sentBoundary
    obtain ⟨sameBoundary, sendingBoundary⟩ := sentBoundary
    rw [taken]
    simp only [Option.map_some, Option.getD_some, header]
    rw [wp_bind]
    refine wp_mono (wp_sendIfOk (httpdRespSendChunk_sends _) rfl sendingBoundary) ?_ ?_
    · intro afterHeader u sentHeader
      obtain ⟨sameHeader, sendingHeader⟩ := sentHeader
      rw [wp_bind]
      refine wp_mono (wp_sendIfOk (sendJpgBuf_sends buf) rfl sendingHeader) ?_ ?_
      · intro res v sentData
        obtain ⟨sameData, sendingData⟩ := sentData
        exact ⟨(sameBoundary.trans sameHeader).trans sameData, sendingData⟩
      · intro v cut
        obtain ⟨sameData, chunks, ended⟩ := cut
        exact ⟨(sameBoundary.trans sameHeader).trans sameData, ended, 2, by omega, chunks⟩
    · intro u cut
      obtain ⟨sameHeader, chunks, ended⟩ := cut
      exact ⟨sameBoundary.trans sameHeader, ended, 1, by omega, chunks⟩
  · intro t cut
    obtain ⟨sameBoundary, chunks, ended⟩ := cut
    exact ⟨sameBoundary, ended, 0, by omega, chunks⟩

/-- A part is skipped once the conversion has failed. -/
theorem wp_sendPart_skipped (failed : l.res ≠ ESP_OK) {halt : Camera → Prop} :
    Wp (sendPart l) (fun next t => next.res = l.res ∧ t = s) halt s := by
  simp only [sendPart, sendIfOk, if_neg failed, pure_bind]
  exact ⟨rfl, rfl⟩

/-! ## Taking and releasing a frame -/

/-- What `takeJpg` leaves: the next JPEG of the frames to come, or none as its conversion failed. -/
def Took (shot : Shot) (s : Camera) (l : StreamLocals) (t : Camera) : Prop :=
  (l.res = ESP_OK ∧ ∃ buf, l.jpgBuf = some buf ∧
    ∀ more, jpegs (some shot :: more) s.conversions = buf.bytes :: jpegs more t.conversions) ∨
  (l.res ≠ ESP_OK ∧ ∀ more, jpegs (some shot :: more) s.conversions = [])

theorem wp_takeJpg (held : fbReturn fb.name ∉ s.ledger) (ok : l.res = ESP_OK) :
    Wp (takeJpg fb l)
      (fun next t => t.captures = s.captures ∧ t.chunks = s.chunks ∧ Took fb.shot s next t)
      (fun t => t.captures = s.captures ∧ t.chunks = s.chunks ∧
        ∀ more, jpegs (some fb.shot :: more) s.conversions = []) s := by
  have format : exec (fbFormat fb) s =
      (some fb.shot.format, s.record (.read (.frame fb.name))) :=
    exec_step_eq_some.mpr (if_neg held)
  obtain ⟨name, ⟨format', bytes⟩⟩ := fb
  rw [takeJpg, wp_bind, wp_exec format]
  cases format' with
  | jpeg =>
      rw [if_neg (by simp), wp_bind]
      refine wp_step.mpr ⟨by simp, ?_⟩
      intro buf t stepped
      simp only [Option.some.injEq, Prod.mk.injEq] at stepped
      obtain ⟨rfl, rfl⟩ := stepped
      rw [wp_pure]
      exact ⟨rfl, rfl, Or.inl ⟨ok, _, rfl, fun more => rfl⟩⟩
  | other code =>
      rw [if_pos (by simp), wp_bind]
      refine wp_step.mpr ⟨?_, ?_⟩
      · intro ended
        cases conversions : s.conversions with
        | nil => exact ⟨rfl, rfl, fun more => by simp [jpegs]⟩
        | cons outcome rest => cases outcome <;> simp [conversions] at ended
      · intro jpg t stepped
        rcases conversions : s.conversions with _ | ⟨_ | bytes, rest⟩
        · simp [conversions] at stepped
        · simp only [record_conversions, conversions, Option.some.injEq, Prod.mk.injEq] at stepped
          obtain ⟨rfl, rfl⟩ := stepped
          have failure : ESP_FAIL ≠ ESP_OK := by decide
          refine ⟨rfl, rfl, Or.inr ⟨failure, fun more => ?_⟩⟩
          simp [conversions, jpegs]
        · simp only [record_conversions, conversions, Option.some.injEq, Prod.mk.injEq] at stepped
          obtain ⟨rfl, rfl⟩ := stepped
          refine ⟨rfl, rfl, Or.inl ⟨ok, _, rfl, fun more => ?_⟩⟩
          simp [conversions, jpegs, Camera.record]

theorem wp_releaseJpg :
    Wp (releaseJpg fb l) (fun _ t => SameSource s t ∧ t.chunks = s.chunks)
      (fun t => t.captures = s.captures ∧ t.chunks = s.chunks) s := by
  rw [releaseJpg, wp_bind]
  refine wp_step.mpr ⟨fun _ => ⟨rfl, rfl⟩, ?_⟩
  intro format t stepped
  have same : SameSource s t ∧ t.chunks = s.chunks := by
    split at stepped
    · cases stale : s.staleFormats with
      | nil => simp [stale] at stepped
      | cons next rest =>
          simp only [stale, Option.some.injEq, Prod.mk.injEq] at stepped
          obtain ⟨-, rfl⟩ := stepped
          exact ⟨⟨rfl, rfl⟩, rfl⟩
    · simp only [Option.some.injEq, Prod.mk.injEq] at stepped
      obtain ⟨-, rfl⟩ := stepped
      exact ⟨⟨rfl, rfl⟩, rfl⟩
  rw [wp_bind, freeJpgBuf]
  by_cases raw : format ≠ .jpeg
  · rw [if_pos raw]
    exact same
  · rw [if_neg raw]
    exact same

end Calls

/-! ## One iteration -/

/-- `seen` are the frames captured so far, and each of them has become a JPEG. -/
structure Seen (captures : List (Option Shot)) (conversions : List (Option Jpeg))
    (seen : List (Option Shot)) (w : Camera) : Prop where
  split : captures = seen ++ w.captures
  rest : ∀ more, jpegs (seen ++ more) conversions = jpegs seen conversions ++ jpegs more w.conversions

/-- At any time: all parts are sent, or the last one is not, because a send was
refused or because the outcome of one is still to come. -/
def Framed (captures : List (Option Shot)) (conversions : List (Option Jpeg)) (w : Camera) : Prop :=
  ∃ seen, captures = seen ++ w.captures ∧
    (Whole (jpegs seen conversions) w.chunks ∨ Refused (jpegs seen conversions) w.chunks ∨
      (Unfinished (jpegs seen conversions) [] w.chunks ∧ w.sends = []))

/-- Between iterations: every frame captured so far has been sent. -/
def Caught (captures : List (Option Shot)) (conversions : List (Option Jpeg)) (w : Camera) : Prop :=
  ∃ seen, Seen captures conversions seen w ∧ Whole (jpegs seen conversions) w.chunks

/-- After the last iteration: only a send that was refused leaves a part unfinished. -/
def Left (captures : List (Option Shot)) (conversions : List (Option Jpeg)) (w : Camera) : Prop :=
  ∃ seen, captures = seen ++ w.captures ∧
    (Whole (jpegs seen conversions) w.chunks ∨ Refused (jpegs seen conversions) w.chunks)

section Iteration
variable {captures : List (Option Shot)} {conversions : List (Option Jpeg)}
  {seen : List (Option Shot)} {s t : Camera} {l : StreamLocals} {shot : Shot}

theorem Seen.concat (before : Seen captures conversions seen s)
    {rest : List (Option Shot)} (next : s.captures = some shot :: rest) (left : t.captures = rest)
    {jpeg : Jpeg}
    (took : ∀ more, jpegs (some shot :: more) s.conversions = jpeg :: jpegs more t.conversions) :
    Seen captures conversions (seen ++ [some shot]) t ∧
      jpegs (seen ++ [some shot]) conversions = jpegs seen conversions ++ [jpeg] := by
  have added : jpegs (seen ++ [some shot]) conversions = jpegs seen conversions ++ [jpeg] := by
    rw [before.rest, took, jpegs_nil]
  refine ⟨⟨?_, ?_⟩, added⟩
  · rw [before.split, next, left, List.append_assoc, List.singleton_append]
  · intro more
    rw [added, List.append_assoc, List.append_assoc, List.singleton_append, before.rest, took,
      List.singleton_append]

/-- A frame that gives no JPEG adds no part. -/
theorem Seen.failed (before : Seen captures conversions seen s) {outcome : Option Shot}
    (none : ∀ more, jpegs (outcome :: more) s.conversions = []) :
    jpegs (seen ++ [outcome]) conversions = jpegs seen conversions := by
  rw [before.rest, none, List.append_nil]

theorem Unfinished.of_chunks {parts : List Jpeg} {jpeg : Jpeg} {sent : Nat} (short : sent < 3)
    {refused before chunks : List (List UInt8 × Int)} (whole : Whole parts before)
    (added : chunks = before ++ accepted ((partChunks jpeg).take sent) ++ refused) :
    Unfinished (parts ++ [jpeg]) refused chunks := by
  refine ⟨parts, jpeg, sent, rfl, short, ?_⟩
  rw [added, whole, accepted_append]

/-- After the three guarded sends of a part. -/
theorem Sending.framed {parts : List Jpeg} {jpeg : Jpeg} {res : Int}
    {before : List (List UInt8 × Int)} (whole : Whole parts before)
    (sending : Sending before (partChunks jpeg) 3 res t) :
    (res = ESP_OK ∧ Whole (parts ++ [jpeg]) t.chunks) ∨
      (res ≠ ESP_OK ∧ Refused (parts ++ [jpeg]) t.chunks) := by
  rcases sending with ⟨ok, chunks⟩ | ⟨failed, sent, chunk, short, chunks⟩
  · refine Or.inl ⟨ok, ?_⟩
    rw [Whole, chunks, whole, List.flatMap_append, accepted_append]
    simp [partChunks]
  · exact Or.inr ⟨failed, chunk, res, failed, Unfinished.of_chunks short whole chunks⟩

theorem Left.framed (left : Left captures conversions s) : Framed captures conversions s := by
  obtain ⟨seen, split, whole | refused⟩ := left
  · exact ⟨seen, split, Or.inl whole⟩
  · exact ⟨seen, split, Or.inr (Or.inl refused)⟩

theorem Caught.left (caught : Caught captures conversions s) : Left captures conversions s := by
  obtain ⟨seen, before, whole⟩ := caught
  exact ⟨seen, before.split, Or.inl whole⟩

/-- The end of an iteration gives the frame back and sends nothing. -/
theorem wp_leave {fb : Fb} (left : Left captures conversions s)
    (caught : l.res = ESP_OK → Caught captures conversions s) :
    Wp (do
        releaseJpg fb l
        if l.res ≠ ESP_OK then pure (.inr l.res) else pure (.inl l))
      (fun (outcome : StreamLocals ⊕ Int) t => outcome.elim (fun _ => Caught captures conversions t)
        (fun _ => Left captures conversions t))
      (Framed captures conversions) s := by
  rw [wp_bind]
  refine wp_mono wp_releaseJpg ?_ ?_
  · intro done t released
    obtain ⟨⟨sameCaptures, sameConversions⟩, sameChunks⟩ := released
    by_cases failed : l.res ≠ ESP_OK
    · rw [if_pos failed, wp_pure]
      rw [Left, ← sameCaptures, ← sameChunks] at left
      exact left
    · rw [if_neg failed, wp_pure]
      obtain ⟨seen, before, whole⟩ := caught (not_not.mp failed)
      refine ⟨seen, ⟨?_, ?_⟩, ?_⟩
      · rw [sameCaptures]
        exact before.split
      · rw [sameConversions]
        exact before.rest
      · rw [sameChunks]
        exact whole
  · intro t cut
    obtain ⟨sameCaptures, sameChunks⟩ := cut
    obtain ⟨seen, split, sent⟩ := left
    rw [← sameCaptures] at split
    rw [← sameChunks] at sent
    exact Left.framed ⟨seen, split, sent⟩

/-- The rest of an iteration whose frame has become a JPEG. -/
theorem wp_sendTaken {fb : Fb} {buf : JpgBuf} {parts : List Jpeg} (ok : l.res = ESP_OK)
    (isBuf : l.jpgBuf = some buf) (size : Sized buf.bytes) (whole : Whole parts s.chunks)
    (after : Seen captures conversions seen s)
    (added : jpegs seen conversions = parts ++ [buf.bytes]) :
    Wp (do
        let l ← sendPart l
        releaseJpg fb l
        if l.res ≠ ESP_OK then pure (.inr l.res) else pure (.inl l))
      (fun (outcome : StreamLocals ⊕ Int) t => outcome.elim
        (fun _ => Caught captures conversions t) (fun _ => Left captures conversions t))
      (Framed captures conversions) s := by
  rw [wp_bind]
  refine wp_mono (wp_sendPart isBuf ok size.2) ?_ ?_
  · intro sent t sentPart
    obtain ⟨⟨sameCaptures, sameConversions⟩, sending⟩ := sentPart
    have afterSend : Seen captures conversions seen t := by
      refine ⟨?_, ?_⟩
      · rw [sameCaptures]
        exact after.split
      · rw [sameConversions]
        exact after.rest
    have framed := sending.framed whole
    rw [← added] at framed
    rcases framed with ⟨sentAll, all⟩ | ⟨failed, refused⟩
    · have caught : Caught captures conversions t := ⟨seen, afterSend, all⟩
      exact wp_leave caught.left fun _ => caught
    · exact wp_leave ⟨seen, afterSend.split, Or.inr refused⟩ fun ok => absurd ok failed
  · intro t cut
    obtain ⟨⟨sameCaptures, -⟩, ended, sent, short, chunks⟩ := cut
    refine ⟨seen, ?_, Or.inr (Or.inr ⟨?_, ended⟩)⟩
    · rw [sameCaptures]
      exact after.split
    · rw [added]
      apply Unfinished.of_chunks short whole
      rw [chunks, List.append_nil]

/-- The rest of an iteration whose conversion failed. -/
theorem wp_sendNothing {fb : Fb} (failed : l.res ≠ ESP_OK) (left : Left captures conversions s) :
    Wp (do
        let l ← sendPart l
        releaseJpg fb l
        if l.res ≠ ESP_OK then pure (.inr l.res) else pure (.inl l))
      (fun (outcome : StreamLocals ⊕ Int) t => outcome.elim
        (fun _ => Caught captures conversions t) (fun _ => Left captures conversions t))
      (Framed captures conversions) s := by
  rw [wp_bind]
  refine wp_mono (wp_sendPart_skipped failed) ?_ fun _ => id
  intro sent t skipped
  obtain ⟨sameRes, rfl⟩ := skipped
  apply wp_leave left
  intro ok
  exact absurd (sameRes.symm.trans ok) failed

theorem wp_streamBody (balanced : HeadBalanced l s) (caught : Caught captures conversions s)
    (sized : ∀ jpeg ∈ jpegs captures conversions, Sized jpeg) :
    Wp (streamBody l)
      (fun outcome t => outcome.elim (fun _ => Caught captures conversions t)
        (fun _ => Left captures conversions t))
      (Framed captures conversions) s := by
  obtain ⟨seen, before, whole⟩ := caught
  rw [streamBody, wp_bind]
  refine wp_step.mpr ⟨fun _ => ⟨seen, before.split, Or.inl whole⟩, ?_⟩
  intro got first stepped
  rcases coming : s.captures with _ | ⟨outcome, rest⟩
  · simp [coming] at stepped
  · -- What is captured, whether it gives a JPEG or not, is seen from here on.
    have split : captures = (seen ++ [outcome]) ++ rest := by
      rw [before.split, coming, List.append_assoc, List.singleton_append]
    have seenWhole : (∀ more, jpegs (outcome :: more) s.conversions = []) → ∀ t : Camera,
        t.captures = rest → t.chunks = s.chunks → Left captures conversions t := by
      intro gives t left sameChunks
      refine ⟨seen ++ [outcome], ?_, Or.inl ?_⟩
      · rw [left]
        exact split
      · rw [before.failed gives, sameChunks]
        exact whole
    cases outcome with
    | none =>
        simp only [coming, Option.some.injEq, Prod.mk.injEq] at stepped
        obtain ⟨rfl, rfl⟩ := stepped
        exact seenWhole (fun more => by simp [jpegs]) _ rfl rfl
    | some shot =>
        simp only [coming, Option.some.injEq, Prod.mk.injEq] at stepped
        obtain ⟨rfl, rfl⟩ := stepped
        have held : fbReturn s.fresh ∉ (s.record (fbGet s.fresh)).ledger := by
          simp [balanced.below.not_returned]
        rw [wp_bind]
        refine wp_mono (wp_takeJpg held balanced.ok) ?_ ?_
        · intro taken second took
          obtain ⟨left, sameChunks, ⟨ok, buf, isBuf, took⟩ | ⟨failed, gives⟩⟩ := took
          · obtain ⟨after, added⟩ := before.concat coming left took
            have size : Sized buf.bytes := by
              apply sized
              have all := after.rest second.captures
              rw [← after.split, added] at all
              simp [all]
            have wholeBefore : Whole (jpegs seen conversions) second.chunks := by
              rw [sameChunks]
              exact whole
            exact wp_sendTaken ok isBuf size wholeBefore after added
          · exact wp_sendNothing failed (seenWhole gives second left sameChunks)
        · intro second cut
          obtain ⟨left, sameChunks, gives⟩ := cut
          exact (seenWhole gives second left sameChunks).framed

end Iteration

/-! ## The handler -/

section Handler
variable {captures : List (Option Shot)} {conversions : List (Option Jpeg)}

theorem heads_balanced {start head : StreamLocals × Camera} (holds : HeadBalanced start.1 start.2)
    (reached : Reached streamBody start head) : HeadBalanced head.1 head.2 := by
  have goesOn : ∀ (l : StreamLocals) (s : Camera) (next : StreamLocals) (t : Camera),
      HeadBalanced l s → ¬ConversionFails s → exec (streamBody l) s = (some (.inl next), t) →
        HeadBalanced next t :=
    fun l s next t inv converts goes => inv.next converts goes
  exact reached.keeps holds goesOn fun l s next t inv fails => inv.stays fails next t

theorem wp_cameraStreamGetHandler (setType : Int) (staleFormats : List PixFormat)
    (sends : List Int) (fuel : Nat) (sized : ∀ jpeg ∈ jpegs captures conversions, Sized jpeg) :
    Wp (cameraStreamGetHandler fuel) (fun _ t => Left captures conversions t)
      (Framed captures conversions)
      (Camera.start setType captures conversions staleFormats sends) := by
  have caught : Caught captures conversions
      (Camera.start setType captures conversions staleFormats sends) :=
    ⟨[], ⟨rfl, fun more => by simp [Camera.start]⟩, by simp [Whole, Camera.start, accepted]⟩
  rw [cameraStreamGetHandler, wp_bind]
  refine wp_step.mpr ⟨by simp, ?_⟩
  intro res t stepped
  simp only [Option.some.injEq, Prod.mk.injEq] at stepped
  obtain ⟨rfl, rfl⟩ := stepped
  have typed : (Camera.start setType captures conversions staleFormats sends).setType = setType := rfl
  rw [typed]
  by_cases ok : setType = ESP_OK
  · have start : HeadBalanced ⟨setType, none⟩
        (Camera.start setType captures conversions staleFormats sends) :=
      ⟨ok, balanced_nil, fun event member => by simp [Camera.start] at member⟩
    rw [if_neg (not_not.mpr ok)]
    refine wp_loop (fun _ w => Caught captures conversions w) ?_ ?_ caught fuel
    · intro head t reached caught
      exact wp_streamBody (heads_balanced start reached) caught sized
    · intro head t caught
      exact caught.left.framed
  · rw [if_pos ok, wp_pure]
    exact caught.left

/-- All parts but the last have been received in full, and the reader stops before the last. -/
theorem Unfinished.received {parts : List Jpeg} {refused chunks : List (List UInt8 × Int)}
    (unfinished : Unfinished parts refused chunks) (failed : ∀ chunk ∈ refused, chunk.2 ≠ ESP_OK)
    (sized : ∀ jpeg ∈ parts, Sized jpeg) :
    ∃ whole jpeg sent, parts = whole ++ [jpeg] ∧ sent < 3 ∧
      Esp.received chunks = whole.flatMap part ++ ((partChunks jpeg).take sent).flatten ∧
      records readPart (Esp.received chunks) = whole := by
  obtain ⟨whole, jpeg, sent, rfl, short, rfl⟩ := unfinished
  have bytes := received_accepted (whole.flatMap partChunks ++ (partChunks jpeg).take sent) failed
  rw [List.flatten_append, flatten_partChunks] at bytes
  refine ⟨whole, jpeg, sent, rfl, short, bytes, ?_⟩
  rw [bytes]
  apply records_flatMap fun other _ => readPart_legible other
  exact readPart_unfinished (sized jpeg (by simp)).1 short

theorem Refused.failed {parts : List Jpeg} {chunks : List (List UInt8 × Int)}
    (refused : Refused parts chunks) :
    ∃ last, Unfinished parts last chunks ∧ (∀ chunk ∈ last, chunk.2 ≠ ESP_OK) ∧
      ∃ chunk ∈ chunks, chunk.2 ≠ ESP_OK := by
  obtain ⟨chunk, code, bad, unfinished⟩ := refused
  refine ⟨[(chunk, code)], unfinished, by simpa using bad, (chunk, code), ?_, bad⟩
  obtain ⟨earlier, jpeg, sent, -, -, rfl⟩ := unfinished
  simp

/-- A part is left unfinished by a send that failed, or by a run that stops before the next send. -/
theorem handler_sent (setType : Int) (captures : List (Option Shot))
    (conversions : List (Option Jpeg)) (staleFormats : List PixFormat) (sends : List Int)
    (fuel : Nat) (sized : ∀ jpeg ∈ jpegs captures conversions, Sized jpeg) {res : Option Int}
    {t : Camera} (ran : exec (cameraStreamGetHandler fuel)
      (Camera.start setType captures conversions staleFormats sends) = (res, t)) :
    ∃ seen, captures = seen ++ t.captures ∧
      (Whole (jpegs seen conversions) t.chunks ∨
        ∃ refused, Unfinished (jpegs seen conversions) refused t.chunks ∧
          (∀ chunk ∈ refused, chunk.2 ≠ ESP_OK) ∧
          ((∃ chunk ∈ t.chunks, chunk.2 ≠ ESP_OK) ∨ (res = none ∧ t.sends = []))) := by
  have outcome := wp_cameraStreamGetHandler setType staleFormats sends fuel sized
  rw [Wp, ran] at outcome
  cases res with
  | some code =>
      obtain ⟨seen, split, whole | refused⟩ := outcome
      · exact ⟨seen, split, Or.inl whole⟩
      · obtain ⟨last, unfinished, failed, cause⟩ := refused.failed
        exact ⟨seen, split, Or.inr ⟨last, unfinished, failed, Or.inl cause⟩⟩
  | none =>
      obtain ⟨seen, split, whole | refused | ⟨unfinished, ended⟩⟩ := outcome
      · exact ⟨seen, split, Or.inl whole⟩
      · obtain ⟨last, unfinished, failed, cause⟩ := refused.failed
        exact ⟨seen, split, Or.inr ⟨last, unfinished, failed, Or.inl cause⟩⟩
      · exact ⟨seen, split, Or.inr ⟨[], unfinished, by simp, Or.inr ⟨rfl, ended⟩⟩⟩

theorem partChunks_nonempty {jpeg : Jpeg} (sized : Sized jpeg) :
    ∀ chunk ∈ partChunks jpeg, chunk ≠ [] := by
  intro chunk member
  have boundary : streamBoundary ≠ [] := by decide
  have back : ascii "\r\n\r\n" ≠ [] := by decide
  have header : streamPart jpeg.length ≠ [] := by simp [streamPart, back]
  simp only [partChunks, List.mem_cons, List.not_mem_nil, or_false] at member
  rcases member with rfl | rfl | rfl
  · exact boundary
  · exact header
  · exact List.ne_nil_of_length_pos sized.1

/-- No chunk the server accepts ends the response. -/
theorem accepted_nonempty {front : List (List UInt8)} {refused : List (List UInt8 × Int)}
    (failed : ∀ chunk ∈ refused, chunk.2 ≠ ESP_OK) (nonempty : ∀ bytes ∈ front, bytes ≠ []) :
    ∀ chunk ∈ accepted front ++ refused, chunk.2 = ESP_OK → chunk.1 ≠ [] := by
  intro chunk member ok
  rcases List.mem_append.mp member with sent | refusedOne
  · obtain ⟨bytes, inFront, rfl⟩ := List.mem_map.mp sent
    exact nonempty bytes inFront
  · exact absurd ok (failed chunk refusedOne)

theorem Whole.nonempty {parts : List Jpeg} {chunks : List (List UInt8 × Int)}
    (whole : Whole parts chunks) (sized : ∀ jpeg ∈ parts, Sized jpeg) :
    ∀ chunk ∈ chunks, chunk.2 = ESP_OK → chunk.1 ≠ [] := by
  rw [whole, ← List.append_nil (accepted _)]
  apply accepted_nonempty (by simp)
  intro bytes member
  obtain ⟨jpeg, isPart, inPart⟩ := List.mem_flatMap.mp member
  exact partChunks_nonempty (sized jpeg isPart) bytes inPart

theorem Unfinished.nonempty {parts : List Jpeg} {refused chunks : List (List UInt8 × Int)}
    (unfinished : Unfinished parts refused chunks) (failed : ∀ chunk ∈ refused, chunk.2 ≠ ESP_OK)
    (sized : ∀ jpeg ∈ parts, Sized jpeg) : ∀ chunk ∈ chunks, chunk.2 = ESP_OK → chunk.1 ≠ [] := by
  obtain ⟨earlier, jpeg, sent, rfl, -, rfl⟩ := unfinished
  apply accepted_nonempty failed
  intro bytes member
  rcases List.mem_append.mp member with before | last
  · obtain ⟨other, isPart, inPart⟩ := List.mem_flatMap.mp before
    exact partChunks_nonempty (sized other (by simp [isPart])) bytes inPart
  · exact partChunks_nonempty (sized jpeg (by simp)) bytes (List.mem_of_mem_take last)

/-- At any time of any run the peer has received complete parts of the frames
captured so far, in their order, and perhaps some chunks of the last of them,
because a send failed or is still to come; a reader gets the JPEGs back. -/
theorem stream_decodable (setType : Int) (captures : List (Option Shot))
    (conversions : List (Option (List UInt8))) (staleFormats : List PixFormat) (sends : List Int)
    (fuel : Nat) (sized : ∀ jpeg ∈ jpegs captures conversions, Sized jpeg) :
    let run := exec (cameraStreamGetHandler fuel)
      (Camera.start setType captures conversions staleFormats sends)
    (∃ seen whole rest, captures = seen ++ run.2.captures ∧
      received run.2.chunks = whole.flatMap part ++ rest ∧
      records readPart (received run.2.chunks) = whole ∧
      ((jpegs seen conversions = whole ∧ rest = []) ∨
        ∃ jpeg sent, jpegs seen conversions = whole ++ [jpeg] ∧ sent < 3 ∧
          rest = ((partChunks jpeg).take sent).flatten ∧
          ((∃ chunk ∈ run.2.chunks, chunk.2 ≠ ESP_OK) ∨ (run.1 = none ∧ run.2.sends = [])))) ∧
    (∀ chunk ∈ run.2.chunks, chunk.2 = ESP_OK → chunk.1 ≠ []) ∧
    ∀ jpeg ∈ jpegs captures conversions,
      snprintf 64 (streamPart jpeg.length) =
        (streamPart jpeg.length ++ [0], (streamPart jpeg.length).length) := by
  intro run
  obtain ⟨seen, split, sent⟩ :=
    handler_sent setType captures conversions staleFormats sends fuel sized (t := run.2) rfl
  have sizedSeen : ∀ jpeg ∈ jpegs seen conversions, Sized jpeg := by
    intro jpeg member
    apply sized
    rw [split]
    exact (jpegs_front seen run.2.captures conversions).subset member
  refine ⟨?_, ?_, ?_⟩
  · rcases sent with whole | ⟨refused, unfinished, failed, cause⟩
    · have bytes := whole.received
      refine ⟨seen, jpegs seen conversions, [], split, ?_, ?_, Or.inl ⟨rfl, rfl⟩⟩
      · rw [bytes, List.append_nil]
      · rw [bytes, ← List.append_nil (List.flatMap _ _)]
        exact records_flatMap (fun other _ => readPart_legible other) rfl
    · obtain ⟨whole, jpeg, count, parts, short, bytes, read⟩ :=
        unfinished.received failed sizedSeen
      exact ⟨seen, whole, _, split, bytes, read, Or.inr ⟨jpeg, count, parts, short, rfl, cause⟩⟩
  · rcases sent with whole | ⟨refused, unfinished, failed, -⟩
    · exact whole.nonempty sizedSeen
    · exact unfinished.nonempty failed sizedSeen
  · intro jpeg member
    exact snprintf_fits (streamPart_length (sized jpeg member).2)

/-- The first JPEG is a boundary, the second one a converted frame; then the capture fails. -/
def boundaryInside : List (Option Shot) := [some ⟨.jpeg, streamBoundary⟩, some ⟨.other 0, [1]⟩, none]

theorem stream_decodable_boundary :
    records readPart (received (exec (cameraStreamGetHandler 3)
      (Camera.start ESP_OK boundaryInside [some [7]] [] [0, 0, 0, 0, 0, 0])).2.chunks) =
        [streamBoundary, [7]] := by
  have sized : ∀ jpeg ∈ jpegs boundaryInside [some [7]], Sized jpeg := by
    intro jpeg member
    have either : jpeg = streamBoundary ∨ jpeg = [7] := by simpa [boundaryInside, jpegs] using member
    rcases either with rfl | rfl
    · exact ⟨by decide, by decide⟩
    · exact ⟨by decide, by decide⟩
  have ended : (exec (cameraStreamGetHandler 3)
      (Camera.start ESP_OK boundaryInside [some [7]] [] [0, 0, 0, 0, 0, 0])).2.captures = [] ∧
      (exec (cameraStreamGetHandler 3)
        (Camera.start ESP_OK boundaryInside [some [7]] [] [0, 0, 0, 0, 0, 0])).1 = some ESP_FAIL ∧
      ∀ chunk ∈ (exec (cameraStreamGetHandler 3)
        (Camera.start ESP_OK boundaryInside [some [7]] [] [0, 0, 0, 0, 0, 0])).2.chunks,
        chunk.2 = ESP_OK := by decide +kernel
  obtain ⟨captured, returned, accepts⟩ := ended
  obtain ⟨⟨seen, whole, rest, split, -, read, parts⟩, -, -⟩ :=
    stream_decodable ESP_OK boundaryInside [some [7]] [] [0, 0, 0, 0, 0, 0] 3 sized
  have all : boundaryInside = seen := by rw [split, captured, List.append_nil]
  rcases parts with ⟨same, -⟩ | ⟨jpeg, sent, -, -, -, ⟨chunk, member, failed⟩ | ⟨stopped, -⟩⟩
  · rw [read, ← same, ← all]
    rfl
  · exact absurd (accepts chunk member) failed
  · rw [returned] at stopped
    exact absurd stopped (by simp)

end Handler

end ProjectOwl.Esp
