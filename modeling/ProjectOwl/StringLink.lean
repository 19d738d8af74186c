import ProjectOwl.Lib.RecordStream
import ProjectOwl.Tcp

/-! # Strings over a TCP stream

One end sends a list of messages with `write_string`, the other end calls
`read_string`.  A write puts 256 bytes on the stream and a read takes only 255
of them, so the two ends drift apart by one byte a message: the link is a
`RecordStream` of records of 256 bytes read in blocks of 255. -/

set_option autoImplicit false

namespace ProjectOwl.Tcp

open RecordStream (Call Ordered piece)

/-- A NUL-free message of at most 255 bytes, as `write_string` demands. -/
structure Message where
  bytes : List UInt8
  nulFree : 0 ∉ bytes
  fits : bytes.length ≤ 255

structure StringLink where
  unsent : List Message
  pending : List UInt8
  delivered : List (List UInt8)

/-- `write` accepts every byte; `read` returns all pending bytes up to the
number asked for. -/
def StringLink.step (writer reader : Program) (link : StringLink) : Call → StringLink
  | .put =>
      match link.unsent with
      | [] => link
      | msg :: rest =>
          { link with unsent := rest, pending := link.pending ++ writer.writeString msg.bytes }
  | .get =>
      let (result, rcv) := reader.readString fun asked => .stored (link.pending.take asked)
      { link with
        pending := link.pending.drop result.toNat
        delivered := link.delivered ++ rcv.toList }

def StringLink.run (writer reader : Program) (messages : List Message) (calls : List Call) :
    StringLink :=
  calls.foldl (StringLink.step writer reader) ⟨messages, [], []⟩

theorem Program.writeString_eq (program : Program) :
    program.writeString = writeStringWith 256 255 256 := by
  cases program <;> rfl

theorem Program.readString_eq (program : Program) :
    program.readString = readStringWith 256 255 := by
  cases program <;> rfl

/-- What `write_string` puts on the stream for a message. -/
def Message.record (msg : Message) : List UInt8 :=
  msg.bytes ++ zeros (256 - msg.bytes.length)

/-- The string `read_string` assigns after taking `block` off the stream. -/
def decodeBlock (block : List UInt8) : List UInt8 :=
  cString (block ++ zeros (256 - block.length))

theorem Message.record_length (msg : Message) : msg.record.length = 256 := by
  have fits := msg.fits
  simp only [Message.record, List.length_append, zeros_length]
  omega

theorem cString_of_nulFree (bytes : List UInt8) (nulFree : 0 ∉ bytes) :
    cString bytes = bytes := by
  rw [cString, List.takeWhile_eq_self_iff]
  intro byte member
  have : byte ≠ 0 := fun zero => nulFree (zero ▸ member)
  simpa using this

theorem cString_append_zeros (bytes rest : List UInt8) (n : Nat) (nulFree : 0 ∉ bytes)
    (positive : 0 < n) : cString (bytes ++ (zeros n ++ rest)) = bytes := by
  obtain ⟨k, rfl⟩ : ∃ k, n = k + 1 := ⟨n - 1, by omega⟩
  have inside : ∀ byte ∈ bytes, decide (byte ≠ 0) = true := by
    intro byte member
    have : byte ≠ 0 := fun zero => nulFree (zero ▸ member)
    simpa using this
  rw [cString, List.takeWhile_append_of_pos inside, zeros_succ]
  simp

theorem Program.writeString_message (program : Program) (msg : Message) :
    program.writeString msg.bytes = msg.record := by
  have fits := msg.fits
  have copied : (cString msg.bytes).take 255 = msg.bytes := by
    rw [cString_of_nulFree _ msg.nulFree, List.take_of_length_le fits]
  have padding : zeros (255 - msg.bytes.length) ++ (zeros 256).drop 255 =
      zeros (256 - msg.bytes.length) := by
    rw [drop_zeros, zeros_append]
    congr 1
    omega
  rw [program.writeString_eq]
  simp only [writeStringWith, strncpy, copied, List.append_assoc, padding]
  exact List.take_of_length_le (by rw [← Message.record, msg.record_length])

/-! ## The link is a record stream -/

structure Simulates (link : StringLink) (stream : RecordStream.Link UInt8) : Prop where
  unsent : stream.unsent = link.unsent.map Message.record
  pending : stream.pending = link.pending
  delivered : link.delivered = stream.taken.map decodeBlock

theorem step_simulates (writer reader : Program) {link : StringLink}
    {stream : RecordStream.Link UInt8} (simulates : Simulates link stream) (call : Call) :
    Simulates (link.step writer reader call) (RecordStream.step 255 stream call) := by
  obtain ⟨unsent, pending, delivered⟩ := simulates
  cases call with
  | put =>
      cases messages : link.unsent with
      | nil =>
          have none : stream.unsent = [] := by rw [unsent, messages, List.map_nil]
          simp only [StringLink.step, RecordStream.step, messages, none]
          exact ⟨unsent, pending, delivered⟩
      | cons msg rest =>
          have next : stream.unsent = msg.record :: rest.map Message.record := by
            rw [unsent, messages, List.map_cons]
          simp only [StringLink.step, RecordStream.step, messages, next]
          exact ⟨rfl, by rw [pending, writer.writeString_message], delivered⟩
  | get =>
      have dropped : link.pending.drop (min 255 link.pending.length) = link.pending.drop 255 := by
        rcases Nat.le_total 255 link.pending.length with long | short
        · rw [Nat.min_eq_left long]
        · rw [Nat.min_eq_right short, List.drop_length, List.drop_eq_nil_of_le short]
      simp only [StringLink.step, RecordStream.step, reader.readString_eq, readStringWith,
        ReadResult.value, ReadResult.fill]
      have count : ((link.pending.take 255).length : Int).toNat = min 255 link.pending.length := by
        rw [Int.toNat_natCast, List.length_take]
      refine ⟨unsent, ?_, ?_⟩
      · rw [count, dropped, pending]
      · simp [delivered, pending, decodeBlock]

theorem run_simulates (writer reader : Program) (messages : List Message) (calls : List Call) :
    Simulates (StringLink.run writer reader messages calls)
      (RecordStream.run 255 (messages.map Message.record) calls) := by
  induction calls using List.reverseRecOn with
  | nil => exact ⟨rfl, rfl, rfl⟩
  | append_singleton calls call ih =>
      rw [RecordStream.run_concat]
      simpa [StringLink.run] using step_simulates writer reader ih call

theorem run_delivered (writer reader : Program) (messages : List Message) (calls : List Call)
    (ordered : Ordered calls) (puts : calls.count .put = messages.length)
    (gets : calls.count .get = messages.length) :
    (StringLink.run writer reader messages calls).delivered =
      (List.range messages.length).map fun i =>
        decodeBlock (piece 255 (messages.map Message.record).flatten i) := by
  have uniform : ∀ record ∈ messages.map Message.record, record.length = 256 := by
    intro record member
    obtain ⟨msg, _, rfl⟩ := List.mem_map.mp member
    exact msg.record_length
  have taken := RecordStream.run_taken uniform (by omega : 255 ≤ 256) calls ordered
    (by simp [puts])
  rw [(run_simulates writer reader messages calls).delivered, taken, gets, List.map_map]
  rfl

/-! ## The drift -/

theorem Message.record_split (msg : Message) :
    msg.record = (msg.bytes ++ zeros (255 - msg.bytes.length)) ++ zeros 1 := by
  have fits := msg.fits
  rw [Message.record, List.append_assoc, zeros_append]
  congr 2
  omega

theorem Message.front_length (msg : Message) :
    (msg.bytes ++ zeros (255 - msg.bytes.length)).length = 255 := by
  have fits := msg.fits
  simp only [List.length_append, zeros_length]
  omega

theorem flatten_empty_records (messages : List Message) (empty : ∀ msg ∈ messages, msg.bytes = []) :
    (messages.map Message.record).flatten = zeros (256 * messages.length) := by
  induction messages with
  | nil => rfl
  | cons msg rest ih =>
      have first : msg.record = zeros 256 := by
        simp [Message.record, empty msg (List.mem_cons_self ..)]
      have later := ih fun m member => empty m (List.mem_cons_of_mem _ member)
      rw [List.map_cons, List.flatten_cons, first, later, zeros_append, List.length_cons]
      congr 1
      omega

/-- The first block ends before the last byte of the first record. -/
theorem decode_first (msg : Message) (rest : List UInt8) :
    decodeBlock (piece 255 (msg.record ++ rest) 0) = msg.bytes := by
  have block : piece 255 (msg.record ++ rest) 0 =
      msg.bytes ++ zeros (255 - msg.bytes.length) := by
    rw [piece, Nat.mul_zero, List.drop_zero, msg.record_split, List.append_assoc,
      List.take_left' msg.front_length]
  rw [decodeBlock, block, msg.front_length, List.append_assoc, zeros_append]
  simpa using cString_append_zeros msg.bytes [] (255 - msg.bytes.length + (256 - 255))
    msg.nulFree (by omega)

/-- While only empty messages followed the first one, every later block starts
with a NUL of an earlier record. -/
theorem decode_later (msg : Message) (rest : List UInt8) (k i : Nat) (after : 1 ≤ i)
    (before : i ≤ k + 1) :
    decodeBlock (piece 255 (msg.record ++ (zeros (256 * k) ++ rest)) i) = [] := by
  have offset : 255 * i = 255 + 255 * (i - 1) := by omega
  obtain ⟨left, count⟩ : ∃ left, 1 + 256 * k = 255 * (i - 1) + (left + 1) :=
    ⟨256 * k - 255 * (i - 1), by omega⟩
  have stream : (msg.record ++ (zeros (256 * k) ++ rest)).drop (255 * i) =
      0 :: (zeros left ++ rest) := by
    rw [msg.record_split, List.append_assoc, ← List.append_assoc (zeros 1), zeros_append, count,
      ← zeros_append, offset, ← List.drop_drop, List.drop_left' msg.front_length,
      List.append_assoc, List.drop_left' (zeros_length _), zeros_succ]
    rfl
  rw [decodeBlock, piece, stream]
  simp [cString]

theorem exists_first_nonempty (messages : List Message)
    (nonempty : ¬ ∀ msg ∈ messages, msg.bytes = []) :
    ∃ front msg back, messages = front ++ msg :: back ∧ (∀ m ∈ front, m.bytes = []) ∧
      msg.bytes ≠ [] := by
  induction messages with
  | nil => simp at nonempty
  | cons m rest ih =>
      by_cases empty : m.bytes = []
      · have later : ¬ ∀ msg ∈ rest, msg.bytes = [] := by
          intro all
          apply nonempty
          intro msg member
          rcases List.mem_cons.mp member with rfl | member
          · exact empty
          · exact all msg member
        obtain ⟨front, msg, back, split, allEmpty, found⟩ := ih later
        refine ⟨m :: front, msg, back, by rw [split, List.cons_append], ?_, found⟩
        intro x member
        rcases List.mem_cons.mp member with rfl | member
        · exact empty
        · exact allEmpty x member
      · exact ⟨[], m, rest, rfl, by simp, empty⟩

/-- The two ends stay in step exactly on the lists whose messages after the
first one are all empty. -/
theorem delivered_eq_messages_iff (writer reader : Program) (messages : List Message)
    (calls : List Call) (ordered : Ordered calls) (puts : calls.count .put = messages.length)
    (gets : calls.count .get = messages.length) :
    (StringLink.run writer reader messages calls).delivered = messages.map Message.bytes ↔
      ∀ msg ∈ messages.tail, msg.bytes = [] := by
  rw [run_delivered writer reader messages calls ordered puts gets]
  cases messages with
  | nil => simp
  | cons first rest =>
      simp only [List.map_cons, List.flatten_cons, List.length_cons, List.tail_cons]
      constructor
      · intro delivered
        by_contra nonempty
        obtain ⟨front, msg, back, split, allEmpty, found⟩ :=
          exists_first_nonempty rest nonempty
        subst split
        have stream : ((front ++ msg :: back).map Message.record).flatten =
            zeros (256 * front.length) ++ ((msg :: back).map Message.record).flatten := by
          rw [List.map_append, List.flatten_append, flatten_empty_records front allEmpty]
        have at_msg := congrArg (fun strings => strings[front.length + 1]?) delivered
        rw [stream] at at_msg
        simp only [List.getElem?_map, List.getElem?_cons_succ] at at_msg
        rw [List.getElem?_range (by simp), Option.map_some,
          decode_later first _ front.length (front.length + 1) (by omega) (by omega)] at at_msg
        simp [Ne.symm found] at at_msg
      · intro allEmpty
        have stream := flatten_empty_records rest allEmpty
        apply List.ext_getElem
        · simp
        · intro i left right
          simp only [List.length_map, List.length_range] at left
          simp only [List.getElem_map, List.getElem_range, stream]
          cases i with
          | zero => exact decode_first first _
          | succ i =>
              have member : rest[i] ∈ rest := List.getElem_mem (by omega)
              have empty := decode_later first [] rest.length (i + 1) (by omega) (by omega)
              rw [List.append_nil] at empty
              simp [empty, allEmpty rest[i] member]

theorem delivered_eq_messages_iff_empty_tail :
    (StringLink.run .radio .beagle [⟨[0x4F, 0x4B], by decide, by decide⟩, ⟨[], by decide, by decide⟩]
      [.put, .get, .put, .get]).delivered = [[0x4F, 0x4B], []] :=
  (delivered_eq_messages_iff .radio .beagle
    [⟨[0x4F, 0x4B], by decide, by decide⟩, ⟨[], by decide, by decide⟩]
    [.put, .get, .put, .get] (by decide) rfl rfl).mpr (by simp)

/-- The counter of the echo test: the second string arrives empty. -/
theorem second_string_lost :
    Ordered [.put, .get, .put, .get] ∧
    (StringLink.run .radio .radio [⟨[0x30], by decide, by decide⟩, ⟨[0x31], by decide, by decide⟩]
      [.put, .get, .put, .get]).delivered ≠ [[0x30], [0x31]] := by
  decide +kernel

end ProjectOwl.Tcp
