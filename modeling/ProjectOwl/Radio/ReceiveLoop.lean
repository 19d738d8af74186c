import ProjectOwl.Lib.StreamOffsets
import ProjectOwl.Radio.Receive

/-! # The receive loop over a segmented stream

The TNC writes frames, TCP delivers the same bytes in chunks, and the loop parses
every chunk on its own.  A chunk shows the first frame that starts exactly where
the chunk starts, and nothing else.  Hence the loop shows all frames, and only
those, exactly when every frame with a word in it starts a chunk that reads all
its words. -/

set_option autoImplicit false

namespace ProjectOwl.Radio

open MaximalRuns StreamOffsets
open Tcp

/-- The bytes one `read` returns. -/
structure Chunk where
  bytes : List UInt8
  nonempty : bytes ≠ []
  fits : bytes.length ≤ 255

def Chunk.size (chunk : Chunk) : Nat := chunk.bytes.length

def Frame.size (f : Frame) : Nat := f.bytes.length

def Frame.parsed (f : Frame) : Parsed := parseBuffer .unsigned f.bytes f.bytes.length

/-- Results with an empty callsign and no commands are left out. -/
def shown (results : List Parsed) : List Parsed :=
  results.filter fun r => !(r.callsign.isEmpty && r.cmds.isEmpty)

def Frame.hasWord (f : Frame) : Prop := ∃ byte ∈ f.body, graphic byte = true

/-- A cut between `front` and `back` after which no new word begins, and which
splits at most one token, harmlessly. -/
def ReadsAllWords (front back : List UInt8) : Prop :=
  HalfWordHarmless front back ∧
    (front.rtakeWhile graphic = [] → back.takeWhile graphic = []) ∧
    ∀ byte ∈ back.dropWhile graphic, graphic byte = false

/-- On a stream that first gives `offset` bytes of an earlier frame and then
`frames`: every frame with a word in it starts where some chunk starts, and that
chunk reads all its words. -/
def FollowFrom (offset : Nat) (chunks : List Chunk) (frames : List Frame) : Prop :=
  ∀ f ∈ located Frame.size offset frames, f.2.hasWord →
    ∃ chunk ∈ located Chunk.size 0 chunks, chunk.1 = f.1 ∧
      ReadsAllWords (f.2.body.take (chunk.2.size - 2)) (f.2.body.drop (chunk.2.size - 2))

def ChunksFollowFrames (chunks : List Chunk) (frames : List Frame) : Prop :=
  FollowFrom 0 chunks frames

/-! ## Results that show -/

theorem Frame.parsed_eq (f : Frame) : f.parsed = parsedOfWords (runs graphic f.body) :=
  f.parse_bytes

theorem Frame.hasWord_iff (f : Frame) : f.hasWord ↔ runs graphic f.body ≠ [] := by
  rw [ne_eq, runs_eq_nil_iff]
  simp [Frame.hasWord]

theorem shown_parsedOfWords (text : List UInt8) :
    shown [parsedOfWords (runs graphic text)] =
      if runs graphic text = [] then [] else [parsedOfWords (runs graphic text)] := by
  cases words : runs graphic text with
  | nil => rfl
  | cons callsign tokens =>
      have nonempty := (mem_runs graphic text callsign (by simp [words])).1
      simp [shown, parsedOfWords, nonempty]

theorem shown_cons (result : Parsed) (rest : List Parsed) :
    shown (result :: rest) = shown [result] ++ shown rest := by
  rw [← List.singleton_append, shown, List.filter_append]
  rfl

theorem parsedOfWords_append_eq_iff (words more : List (List UInt8))
    (nonempty : ∀ word ∈ more, word ≠ []) (some : words ++ more ≠ []) :
    parsedOfWords words = parsedOfWords (words ++ more) ↔ more = [] := by
  constructor
  · intro same
    cases words with
    | nil =>
        cases more with
        | nil => rfl
        | cons callsign tokens =>
            have empty : [] = callsign := congrArg Parsed.callsign same
            exact absurd empty.symm (nonempty callsign (List.mem_cons_self ..))
    | cons callsign tokens =>
        have cmds := congrArg (List.length ∘ Parsed.cmds) same
        simpa [parsedOfWords] using cmds
  · rintro rfl
    rw [List.append_nil]

theorem parsedOfWords_half_eq_iff (words more : List (List UInt8)) (half word : List UInt8)
    (differ : half ≠ word) :
    parsedOfWords (words ++ [half]) = parsedOfWords (words ++ word :: more) ↔
      words ≠ [] ∧ commandFromToken half = commandFromToken word ∧ more = [] := by
  cases words with
  | nil => simp [parsedOfWords, differ]
  | cons callsign tokens => simp [parsedOfWords, eq_comm]

theorem runs_back_eq_nil_iff (back : List UInt8) :
    runs graphic back = [] ↔
      back.takeWhile graphic = [] ∧ ∀ byte ∈ back.dropWhile graphic, graphic byte = false := by
  rw [runs_split_left graphic back, List.append_eq_nil_iff, runs_eq_nil_iff graphic
    (back.dropWhile graphic)]
  refine and_congr ⟨?_, ?_⟩ Iff.rfl
  · intro none
    by_contra some
    rw [runs_of_all graphic _ some fun x => List.mem_takeWhile_imp] at none
    exact List.cons_ne_nil _ _ none
  · intro none
    rw [none, runs_nil]

/-- A text with a word in it reads the same from its front part exactly when
that part reads all its words. -/
theorem parsed_front_eq_iff (front back : List UInt8) (some : runs graphic (front ++ back) ≠ []) :
    parsedOfWords (runs graphic front) = parsedOfWords (runs graphic (front ++ back)) ↔
      ReadsAllWords front back := by
  have words : ∀ word ∈ runs graphic back, word ≠ [] :=
    fun word member => (mem_runs graphic back word member).1
  by_cases half : front.rtakeWhile graphic = []
  · have boundary := runs_append_of_left graphic front back half
    rw [boundary] at some ⊢
    rw [parsedOfWords_append_eq_iff _ _ words some, runs_back_eq_nil_iff]
    simp [ReadsAllWords, HalfWordHarmless, half]
  · by_cases more : back.takeWhile graphic = []
    · have boundary := runs_append_of_right graphic front back more
      rw [boundary] at some ⊢
      rw [parsedOfWords_append_eq_iff _ _ words some, runs_back_eq_nil_iff]
      simp [ReadsAllWords, HalfWordHarmless, half, more]
    · obtain ⟨before, across, nonempty⟩ := runs_cut_inside graphic front back half
      have longer : front.rtakeWhile graphic ≠
          front.rtakeWhile graphic ++ back.takeWhile graphic := by simpa using more
      have exact_cut := parsedOfWords_half_eq_iff (runs graphic (front.rdropWhile graphic))
        (runs graphic (back.dropWhile graphic)) _ _ longer
      rw [← before, ← across, nonempty, runs_eq_nil_iff graphic (back.dropWhile graphic)]
        at exact_cut
      rw [exact_cut]
      simp [ReadsAllWords, HalfWordHarmless, half, more, and_assoc]

/-! ## One chunk -/

theorem mainRx_chunks (chunks : List Chunk) :
    mainRx .unsigned (chunks.map fun chunk => readOf chunk.bytes) =
      (chunks.map fun chunk => received chunk.bytes, none) := by
  induction chunks with
  | nil => rfl
  | cons chunk rest ih =>
      have stored : ¬ (readBuffer (readOf chunk.bytes) 256).1 < 0 := by
        simp only [readBuffer, readOf, ReadResult.value]
        omega
      simp only [List.map_cons, mainRx, if_neg stored, ih]
      rfl

/-- A proper rest of a frame: all its bytes but the first, or fewer. -/
def IsRest (rest : List UInt8) : Prop := ∃ body, fend ∉ body ∧ rest <:+ body ++ [fend]

theorem Frame.tail_isRest (f : Frame) (rest : List UInt8) (suffix : rest <:+ f.bytes.tail) :
    IsRest rest := by
  refine ⟨0x00 :: f.body, ?_, suffix⟩
  intro member
  rcases List.mem_cons.mp member with zero | inside
  · exact absurd zero (by decide)
  · exact f.fendFree inside

theorem IsRest.tail {rest more : List UInt8} (isRest : IsRest rest) (suffix : more <:+ rest.tail) :
    IsRest more := by
  obtain ⟨body, absent, whole⟩ := isRest
  exact ⟨body, absent, (suffix.trans (List.tail_suffix rest)).trans whole⟩

theorem IsRest.eq_of_fend {more : List UInt8} (isRest : IsRest (fend :: more)) : more = [] := by
  obtain ⟨body, absent, suffix⟩ := isRest
  rcases List.suffix_concat_iff.mp suffix with none | ⟨front, split, inside⟩
  · exact absurd none (List.cons_ne_nil _ _)
  · cases front with
    | nil => exact (List.cons.inj split).2
    | cons first front =>
        have first_fend : fend = first := (List.cons.inj split).1
        exact absurd (inside.subset (first_fend ▸ List.mem_cons_self ..)) absent

/-- A chunk that starts inside a frame shows nothing. -/
theorem received_inside_frame (chunk : Chunk) (left rest : List UInt8) (frames : List Frame)
    (isRest : IsRest rest) (some : rest ≠ [])
    (stream : chunk.bytes ++ left = rest ++ frames.flatMap Frame.bytes) :
    received chunk.bytes = ⟨[], []⟩ := by
  rw [received_eq_grammar _ chunk.fits]
  obtain ⟨first, bytes, chunkShape⟩ := List.exists_cons_of_ne_nil chunk.nonempty
  obtain ⟨head, more, restShape⟩ := List.exists_cons_of_ne_nil some
  rw [chunkShape, restShape, List.cons_append, List.cons_append] at stream
  obtain ⟨same, follows⟩ := List.cons.inj stream
  subst same
  rw [chunkShape, List.cons_append]
  by_cases closing : first = fend
  · subst closing
    have last : more = [] := (restShape ▸ isRest).eq_of_fend
    rw [last, List.nil_append] at follows
    cases bytes with
    | nil =>
        change grammar (fend :: 0x00 :: zeros 254) = _
        rw [grammar_frame, ← List.nil_append (zeros 254),
          frameWords_zeros [] 254 (by simp) (by omega), runs_nil]
        rfl
    | cons second bytes =>
        cases frames with
        | nil => exact absurd follows (List.cons_ne_nil _ _)
        | cons f frames =>
            have opening : second = fend := (List.cons.inj follows).1
            rw [opening, List.cons_append]
            exact grammar_of_second_ne fend _ (by decide)
  · exact grammar_of_head_ne first _ closing

/-! ## The whole loop -/

theorem append_eq_append_of_length_le {α : Type*} (left gone right : List α)
    (shorter : left.length ≤ right.length) :
    left = gone ++ right ↔ gone = [] ∧ left = right := by
  constructor
  · intro same
    have none : gone = [] := by
      have length := congrArg List.length same
      rw [List.length_append] at length
      exact List.eq_nil_of_length_eq_zero (by omega)
    rw [none, List.nil_append] at same
    exact ⟨none, same⟩
  · rintro ⟨rfl, rfl⟩
    rfl

theorem shown_parsed_eq_nil_iff (frames : List Frame) :
    shown (frames.map Frame.parsed) = [] ↔ ∀ f ∈ frames, ¬ f.hasWord := by
  induction frames with
  | nil => simp [shown]
  | cons f frames ih =>
      rw [List.map_cons, shown_cons, List.append_eq_nil_iff, ih, f.parsed_eq,
        shown_parsedOfWords, List.forall_mem_cons, f.hasWord_iff]
      refine and_congr_left' ?_
      by_cases none : runs graphic f.body = [] <;> simp [none]

/-- The first chunk can only serve a frame that starts where it does; the frames
that start after it are left to the other chunks. -/
theorem followFrom_cons_iff (offset rest : Nat) (chunk : Chunk) (chunks : List Chunk)
    (gone later : List Frame)
    (length : offset + total Frame.size gone = chunk.size + rest)
    (early : ∀ f ∈ located Frame.size offset gone, f.1 < chunk.size) :
    FollowFrom offset (chunk :: chunks) (gone ++ later) ↔
      (∀ f ∈ located Frame.size offset gone, f.2.hasWord → f.1 = 0 ∧
        ReadsAllWords (f.2.body.take (chunk.size - 2)) (f.2.body.drop (chunk.size - 2))) ∧
      FollowFrom rest chunks later := by
  have positive : 0 < chunk.size := List.length_pos_iff.mpr chunk.nonempty
  simp only [FollowFrom, located_append, length, List.forall_mem_append, located, Nat.zero_add]
  refine and_congr ?_ ?_
  · constructor
    · intro follows f member word
      obtain ⟨c, memberChunk, start, reads⟩ := follows f member word
      rcases List.mem_cons.mp memberChunk with rfl | later
      · exact ⟨start.symm, reads⟩
      · have after := le_of_mem_located Chunk.size chunk.size chunks c later
        have before := early f member
        omega
    · intro follows f member word
      obtain ⟨start, reads⟩ := follows f member word
      exact ⟨(0, chunk), List.mem_cons_self .., start.symm, reads⟩
  · constructor
    · intro follows f member word
      obtain ⟨c, memberChunk, start, reads⟩ := follows (chunk.size + f.1, f.2)
        ((mem_located_add _ _ _ _ _).mpr ⟨f, member, rfl⟩) word
      rcases List.mem_cons.mp memberChunk with rfl | other
      · dsimp only at start
        omega
      · rw [← Nat.add_zero chunk.size] at other
        obtain ⟨d, located, rfl⟩ := (mem_located_add _ _ _ _ _).mp other
        exact ⟨d, located, Nat.add_left_cancel start, reads⟩
    · intro follows f member word
      obtain ⟨g, located, rfl⟩ := (mem_located_add _ _ _ _ _).mp member
      obtain ⟨d, memberChunk, start, reads⟩ := follows g located word
      refine ⟨(chunk.size + d.1, d.2), List.mem_cons_of_mem _ ?_, by rw [start], reads⟩
      rw [← Nat.add_zero chunk.size]
      exact (mem_located_add _ _ _ _ _).mpr ⟨d, memberChunk, rfl⟩

theorem late_frames_iff (offset : Nat) (frames : List Frame) (positive : 0 < offset)
    (reads : Frame → Prop) :
    (∀ f ∈ located Frame.size offset frames, f.2.hasWord → f.1 = 0 ∧ reads f.2) ↔
      shown (frames.map Frame.parsed) = [] := by
  rw [shown_parsed_eq_nil_iff]
  constructor
  · intro late f member word
    obtain ⟨start, located⟩ := exists_located_of_mem Frame.size offset frames f member
    have after := le_of_mem_located Frame.size offset frames _ located
    have zero := (late _ located word).1
    omega
  · intro none f member word
    exact absurd word (none f.2 (mem_of_mem_located Frame.size offset frames f member))

/-- A chunk that starts with frame `f` shows it, or nothing, or something else. -/
theorem first_frame_iff (f : Frame) (k : Nat) (later frames : List Parsed)
    (shorter : later.length ≤ frames.length) :
    (shown [parsedOfWords (runs graphic (f.body.take k))] ++ later).length ≤
        (shown [f.parsed] ++ frames).length ∧
    (shown [parsedOfWords (runs graphic (f.body.take k))] ++ later = shown [f.parsed] ++ frames ↔
      (f.hasWord → ReadsAllWords (f.body.take k) (f.body.drop k)) ∧ later = frames) := by
  have whole : f.body.take k ++ f.body.drop k = f.body := List.take_append_drop ..
  rw [f.parsed_eq, shown_parsedOfWords, shown_parsedOfWords, f.hasWord_iff]
  by_cases word : runs graphic f.body = []
  · have front : runs graphic (f.body.take k) = [] := by
      rw [runs_eq_nil_iff] at word ⊢
      exact fun byte member => word byte (List.mem_of_mem_take member)
    simp [word, front, shorter]
  · have reads := parsed_front_eq_iff (f.body.take k) (f.body.drop k) (by rwa [whole])
    rw [whole] at reads
    rw [if_neg word, ← reads]
    simp only [ne_eq, word, not_false_eq_true, forall_const]
    by_cases front : runs graphic (f.body.take k) = []
    · have differ : parsedOfWords [] ≠ parsedOfWords (runs graphic f.body) := by
        have plain := parsedOfWords_append_eq_iff [] (runs graphic f.body)
          (fun w member => (mem_runs graphic f.body w member).1) (by simpa using word)
        exact fun same => word (plain.mp same)
      have longer : later ≠ parsedOfWords (runs graphic f.body) :: frames := by
        rintro rfl
        simp at shorter
      rw [if_pos front, front, List.nil_append, List.singleton_append]
      refine ⟨?_, iff_of_false longer fun same => differ same.1⟩
      rw [List.length_cons]
      omega
    · rw [if_neg front, List.singleton_append, List.singleton_append, List.cons_eq_cons]
      refine ⟨?_, Iff.rfl⟩
      rw [List.length_cons, List.length_cons]
      omega

section OneChunk
variable (chunk : Chunk) (gone : List Frame) (later frames : List Parsed)

theorem chunk_inside_iff (offset : Nat) (positive : 0 < offset)
    (nothing : received chunk.bytes = ⟨[], []⟩) (shorter : later.length ≤ frames.length) :
    (shown [received chunk.bytes] ++ later).length ≤
        (shown (gone.map Frame.parsed) ++ frames).length ∧
    (shown [received chunk.bytes] ++ later = shown (gone.map Frame.parsed) ++ frames ↔
      (∀ f ∈ located Frame.size offset gone, f.2.hasWord → f.1 = 0 ∧
        ReadsAllWords (f.2.body.take (chunk.size - 2)) (f.2.body.drop (chunk.size - 2))) ∧
      later = frames) := by
  have blank : shown [received chunk.bytes] = [] := by
    rw [nothing]
    rfl
  rw [late_frames_iff offset gone positive fun f =>
    ReadsAllWords (f.body.take (chunk.size - 2)) (f.body.drop (chunk.size - 2)), blank,
    List.nil_append]
  constructor
  · rw [List.length_append]
    omega
  · exact append_eq_append_of_length_le _ _ _ shorter

theorem chunk_start_iff (f : Frame)
    (reads : received chunk.bytes = parsedOfWords (runs graphic (f.body.take (chunk.size - 2))))
    (shorter : later.length ≤ frames.length) :
    (shown [received chunk.bytes] ++ later).length ≤
        (shown ((f :: gone).map Frame.parsed) ++ frames).length ∧
    (shown [received chunk.bytes] ++ later = shown ((f :: gone).map Frame.parsed) ++ frames ↔
      (∀ g ∈ located Frame.size 0 (f :: gone), g.2.hasWord → g.1 = 0 ∧
        ReadsAllWords (g.2.body.take (chunk.size - 2)) (g.2.body.drop (chunk.size - 2))) ∧
      later = frames) := by
  have longer : later.length ≤ (shown (gone.map Frame.parsed) ++ frames).length := by
    rw [List.length_append]
    omega
  have first := first_frame_iff f (chunk.size - 2) later (shown (gone.map Frame.parsed) ++ frames)
    longer
  have positive : 0 < 0 + f.size := by
    rw [Frame.size, f.bytes_length]
    omega
  rw [append_eq_append_of_length_le _ _ _ shorter] at first
  rw [List.map_cons, shown_cons f.parsed, List.append_assoc, reads]
  refine ⟨first.1, first.2.trans ?_⟩
  simp only [located, List.forall_mem_cons, true_and]
  rw [late_frames_iff (0 + f.size) gone positive fun g =>
    ReadsAllWords (g.body.take (chunk.size - 2)) (g.body.drop (chunk.size - 2)), and_assoc]

end OneChunk

theorem loop_follows_iff (chunks : List Chunk) (rest : List UInt8) (frames : List Frame)
    (isRest : IsRest rest)
    (stream : chunks.flatMap Chunk.bytes = rest ++ frames.flatMap Frame.bytes) :
    (shown (chunks.map fun chunk => received chunk.bytes)).length ≤
        (shown (frames.map Frame.parsed)).length ∧
    (shown (chunks.map fun chunk => received chunk.bytes) = shown (frames.map Frame.parsed) ↔
      FollowFrom rest.length chunks frames) := by
  induction chunks generalizing rest frames with
  | nil =>
      cases frames with
      | nil => simp [shown, FollowFrom, located]
      | cons f frames =>
          have length := congrArg List.length stream
          simp [f.bytes_length] at length
          omega
  | cons chunk chunks ih =>
      rw [List.flatMap_cons] at stream
      obtain ⟨gone, later, newRest, split, left, suffix, length, early⟩ :=
        cut_stream Frame.bytes chunk.bytes _ rest frames chunk.nonempty stream
      have newIsRest : IsRest newRest := by
        rcases suffix with old | ⟨f, _, inside⟩
        · exact isRest.tail old
        · exact f.tail_isRest newRest inside
      obtain ⟨shorter, same⟩ := ih newRest later newIsRest left
      have follows := followFrom_cons_iff rest.length newRest.length chunk chunks gone later
        length early
      have shownFrames : shown ((gone ++ later).map Frame.parsed) =
          shown (gone.map Frame.parsed) ++ shown (later.map Frame.parsed) := by
        rw [List.map_append, shown, List.filter_append]
        rfl
      rw [split, follows, ← same, List.map_cons, shown_cons, shownFrames]
      cases rest with
      | cons byte bytes =>
          have nothing := received_inside_frame chunk _ (byte :: bytes) frames isRest
            (List.cons_ne_nil _ _) stream
          exact chunk_inside_iff chunk gone _ _ _ (Nat.succ_pos _) nothing shorter
      | nil =>
          cases gone with
          | nil =>
              have some := List.length_pos_iff.mpr chunk.nonempty
              simp only [total_nil, List.length_nil] at length
              omega
          | cons f gone =>
              have whole : chunk.bytes ++ chunks.flatMap Chunk.bytes =
                  f.bytes ++ (gone ++ later).flatMap Frame.bytes := by
                rw [stream, split, List.nil_append, List.cons_append, List.flatMap_cons]
              have reads := received_frame_start f chunk.bytes _ _ whole chunk.fits
              exact chunk_start_iff chunk gone _ _ f reads shorter

/-- The loop shows every frame, and only frames, in order, exactly when the
chunks follow the frames. -/
theorem mainRx_shows_frames_iff (frames : List Frame) (chunks : List Chunk)
    (stream : chunks.flatMap Chunk.bytes = frames.flatMap Frame.bytes) :
    shown (mainRx .unsigned (chunks.map fun chunk => readOf chunk.bytes)).1 =
        shown (frames.map Frame.parsed) ↔
      ChunksFollowFrames chunks frames := by
  rw [mainRx_chunks]
  have empty : IsRest [] := ⟨[], by simp, List.nil_suffix⟩
  exact (loop_follows_iff chunks [] frames empty stream).2

def frameA1 : Frame := ⟨ascii "K A1", by decide, by decide⟩

def frameB2 : Frame := ⟨ascii "K B2", by decide, by decide⟩

theorem mainRx_shows_frames_iff_aligned :
    shown (mainRx .unsigned [readOf frameA1.bytes, readOf frameB2.bytes]).1 =
        shown [frameA1.parsed, frameB2.parsed] ↔
      ChunksFollowFrames
        [⟨frameA1.bytes, by decide, by decide⟩, ⟨frameB2.bytes, by decide, by decide⟩]
        [frameA1, frameB2] :=
  mainRx_shows_frames_iff [frameA1, frameB2]
    [⟨frameA1.bytes, by decide, by decide⟩, ⟨frameB2.bytes, by decide, by decide⟩] rfl

/-- Two frames in one chunk: the second one is lost. -/
theorem second_frame_lost :
    shown (mainRx .unsigned [readOf (frameA1.bytes ++ frameB2.bytes)]).1 ≠
      shown [frameA1.parsed, frameB2.parsed] := by
  decide +kernel

end ProjectOwl.Radio
