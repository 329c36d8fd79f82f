import Mathlib

set_option autoImplicit false

/- Length-prefixed framing of a stream, and its decoding by a reader that is fed
the stream in arbitrary segments. -/
namespace Framing

variable {α : Type}

/-- A header of `width` symbols tells the length of the body behind it. -/
structure Format (α : Type) where
  width : Nat
  limit : Nat
  header : Nat → List α
  size : List α → Nat
  width_pos : 0 < width
  header_length : ∀ n, (header n).length = width
  size_header : ∀ n, n ≤ limit → size (header n) = n

/-- What stands at the head of a stream. -/
inductive Head (α : Type) where
  | short
  | oversize (rest : List α)
  | frame (body rest : List α)

/-- The complete frames of a stream up to the first header above the limit. `rest` is
the incomplete frame at the end or, after such a header, everything behind it. -/
structure Scan (α : Type) where
  frames : List (List α)
  rest : List α
  rejected : Bool

namespace Format

variable (fmt : Format α)

/-- A body as it is sent. -/
def encode (body : List α) : List α := fmt.header body.length ++ body

def encodeAll (bodies : List (List α)) : List α := (bodies.map fmt.encode).flatten

def head (stream : List α) : Head α :=
  if stream.length < fmt.width then
    .short
  else if fmt.limit < fmt.size (stream.take fmt.width) then
    .oversize (stream.drop fmt.width)
  else if (stream.drop fmt.width).length < fmt.size (stream.take fmt.width) then
    .short
  else
    .frame ((stream.drop fmt.width).take (fmt.size (stream.take fmt.width)))
      ((stream.drop fmt.width).drop (fmt.size (stream.take fmt.width)))

variable {fmt}

/-- A complete frame is a header, the body it announces and whatever follows. -/
theorem head_of_frame {header body : List α} (length : header.length = fmt.width)
    (size : fmt.size header = body.length) (bounded : body.length ≤ fmt.limit) (rest : List α) :
    fmt.head (header ++ (body ++ rest)) = .frame body rest := by
  have front : (header ++ (body ++ rest)).take fmt.width = header := by
    rw [← length, List.take_left]
  have behind : (header ++ (body ++ rest)).drop fmt.width = body ++ rest := by
    rw [← length, List.drop_left]
  unfold head
  rw [front, behind, size, if_neg (by simp only [List.length_append]; omega), if_neg (by omega),
    if_neg (by simp only [List.length_append]; omega), List.take_left, List.drop_left]

theorem head_frame_parts {stream body rest : List α} (found : fmt.head stream = .frame body rest) :
    ∃ header, stream = header ++ (body ++ rest) ∧ header.length = fmt.width ∧
      fmt.size header = body.length ∧ body.length ≤ fmt.limit := by
  unfold head at found
  split at found
  · cases found
  · split at found
    · cases found
    · split at found
      · cases found
      · injection found with bodyEq restEq
        subst bodyEq restEq
        refine ⟨stream.take fmt.width, ?_, ?_, ?_, ?_⟩
        · rw [List.take_append_drop, List.take_append_drop]
        · simp only [List.length_take]
          omega
        · simp only [List.length_take]
          omega
        · simp only [List.length_take]
          omega

theorem head_of_oversize {header : List α} (length : header.length = fmt.width)
    (above : fmt.limit < fmt.size header) (rest : List α) :
    fmt.head (header ++ rest) = .oversize rest := by
  unfold head
  rw [if_neg (by simp only [List.length_append]; omega), ← length, List.take_left, if_pos above,
    List.drop_left]

/-- A body that has not arrived in full is not found. -/
theorem head_of_incomplete {header body : List α} (length : header.length = fmt.width)
    (bounded : fmt.size header ≤ fmt.limit) (incomplete : body.length < fmt.size header) :
    fmt.head (header ++ body) = .short := by
  unfold head
  rw [if_neg (by simp only [List.length_append]; omega), ← length, List.take_left,
    if_neg (by omega), List.drop_left, if_pos incomplete]

theorem head_of_length {stream : List α} (few : stream.length < fmt.width) :
    fmt.head stream = .short := by
  simp only [head, few, ↓reduceIte]

theorem head_oversize_parts {stream rest : List α} (found : fmt.head stream = .oversize rest) :
    ∃ header, stream = header ++ rest ∧ header.length = fmt.width ∧
      fmt.limit < fmt.size header := by
  unfold head at found
  split at found
  · cases found
  · split at found
    · rename_i above
      injection found with restEq
      subst restEq
      refine ⟨stream.take fmt.width, (List.take_append_drop _ _).symm, ?_, above⟩
      simp only [List.length_take]
      omega
    · split at found <;> cases found

theorem head_frame_length {stream body rest : List α} (found : fmt.head stream = .frame body rest) :
    fmt.width + body.length + rest.length = stream.length := by
  obtain ⟨header, rfl, length, -, -⟩ := head_frame_parts found
  simp only [List.length_append]
  omega

/-- What is behind a frame plays no part in finding it. -/
theorem head_frame_append {stream body rest : List α}
    (found : fmt.head stream = .frame body rest) (more : List α) :
    fmt.head (stream ++ more) = .frame body (rest ++ more) := by
  obtain ⟨header, rfl, length, size, bounded⟩ := head_frame_parts found
  rw [List.append_assoc, List.append_assoc]
  exact head_of_frame length size bounded _

theorem head_oversize_append {stream rest : List α} (found : fmt.head stream = .oversize rest)
    (more : List α) : fmt.head (stream ++ more) = .oversize (rest ++ more) := by
  obtain ⟨header, rfl, length, above⟩ := head_oversize_parts found
  rw [List.append_assoc]
  exact head_of_oversize length above _

theorem head_encode {body : List α} (bounded : body.length ≤ fmt.limit) (more : List α) :
    fmt.head (fmt.encode body ++ more) = .frame body more := by
  rw [encode, List.append_assoc]
  exact head_of_frame (fmt.header_length _) (fmt.size_header _ bounded) bounded _

theorem head_encode_take {body : List α} (bounded : body.length ≤ fmt.limit) {n : Nat}
    (incomplete : n < fmt.width + body.length) : fmt.head ((fmt.encode body).take n) = .short := by
  have length := fmt.header_length body.length
  have size := fmt.size_header _ bounded
  by_cases few : n < fmt.width
  · exact head_of_length (by simp only [List.length_take]; omega)
  · rw [encode, List.take_append, List.take_of_length_le (by omega)]
    apply head_of_incomplete length (by omega)
    simp only [List.length_take]
    omega

variable (fmt)

def scan (stream : List α) : Scan α :=
  match _found : fmt.head stream with
  | .short => ⟨[], stream, false⟩
  | .oversize rest => ⟨[], rest, true⟩
  | .frame body rest =>
      let tail := scan rest
      ⟨body :: tail.frames, tail.rest, tail.rejected⟩
termination_by stream.length
decreasing_by
  have length := head_frame_length (by assumption : fmt.head stream = .frame body rest)
  have pos := fmt.width_pos
  omega

variable {fmt}

theorem scan_short {stream : List α} (found : fmt.head stream = .short) :
    fmt.scan stream = ⟨[], stream, false⟩ := by
  unfold scan
  split <;> simp_all

theorem scan_oversize {stream rest : List α} (found : fmt.head stream = .oversize rest) :
    fmt.scan stream = ⟨[], rest, true⟩ := by
  unfold scan
  split <;> simp_all

theorem scan_frame {stream body rest : List α} (found : fmt.head stream = .frame body rest) :
    fmt.scan stream =
      ⟨body :: (fmt.scan rest).frames, (fmt.scan rest).rest, (fmt.scan rest).rejected⟩ := by
  rw [scan]
  split <;> simp_all

/-- Induction along the frames at the head of a stream. -/
theorem stream_induction (fmt : Format α) {motive : List α → Prop}
    (short : ∀ stream, fmt.head stream = .short → motive stream)
    (oversize : ∀ stream rest, fmt.head stream = .oversize rest → motive stream)
    (frame : ∀ stream body rest, fmt.head stream = .frame body rest → motive rest → motive stream)
    (stream : List α) : motive stream := by
  induction size : stream.length using Nat.strongRecOn generalizing stream with
  | ind size_ ih =>
      cases found : fmt.head stream with
      | short => exact short stream found
      | oversize rest => exact oversize stream rest found
      | frame body rest =>
          have length := head_frame_length found
          have pos := fmt.width_pos
          exact frame stream body rest found (ih rest.length (by omega) rest rfl)

theorem scan_nil : fmt.scan [] = ⟨[], [], false⟩ := scan_short (head_of_length fmt.width_pos)

/-- Decoding may stop after any part of a stream and resume from the residue. -/
theorem scan_append (front back : List α) (accepted : (fmt.scan front).rejected = false) :
    fmt.scan (front ++ back) =
      ⟨(fmt.scan front).frames ++ (fmt.scan ((fmt.scan front).rest ++ back)).frames,
        (fmt.scan ((fmt.scan front).rest ++ back)).rest,
        (fmt.scan ((fmt.scan front).rest ++ back)).rejected⟩ := by
  induction front using stream_induction fmt with
  | short stream found => simp only [scan_short found, List.nil_append]
  | oversize stream rest found => simp [scan_oversize found] at accepted
  | frame stream body rest found ih =>
      simp only [scan_frame found] at accepted ⊢
      rw [scan_frame (head_frame_append found back), ih accepted]
      simp only [List.cons_append]

/-- Nothing behind a rejected header is decoded. -/
theorem scan_append_rejected (front back : List α) (refused : (fmt.scan front).rejected = true) :
    fmt.scan (front ++ back) =
      ⟨(fmt.scan front).frames, (fmt.scan front).rest ++ back, true⟩ := by
  induction front using stream_induction fmt with
  | short stream found => simp [scan_short found] at refused
  | oversize stream rest found =>
      simp only [scan_oversize found, scan_oversize (head_oversize_append found back)]
  | frame stream body rest found ih =>
      simp only [scan_frame found] at refused ⊢
      rw [scan_frame (head_frame_append found back), ih refused]

/-- The residue of an accepted stream begins with no complete frame. -/
theorem scan_rest_short (stream : List α) (accepted : (fmt.scan stream).rejected = false) :
    fmt.head (fmt.scan stream).rest = .short := by
  induction stream using stream_induction fmt with
  | short stream found => simpa only [scan_short found] using found
  | oversize stream rest found => simp [scan_oversize found] at accepted
  | frame stream body rest found ih =>
      simp only [scan_frame found] at accepted ⊢
      exact ih accepted

theorem head_frame_encode
    (canonical : ∀ h : List α, h.length = fmt.width → fmt.header (fmt.size h) = h)
    {stream body rest : List α} (found : fmt.head stream = .frame body rest) :
    stream = fmt.encode body ++ rest ∧ body.length ≤ fmt.limit := by
  obtain ⟨header, rfl, length, size, bounded⟩ := head_frame_parts found
  refine ⟨?_, bounded⟩
  rw [encode, ← size, canonical header length, List.append_assoc]

/-- Where a header can be told from its length alone, an accepted stream is the encoding of its
frames and the residue. -/
theorem scan_encodeAll
    (canonical : ∀ h : List α, h.length = fmt.width → fmt.header (fmt.size h) = h)
    (stream : List α) (accepted : (fmt.scan stream).rejected = false) :
    stream = fmt.encodeAll (fmt.scan stream).frames ++ (fmt.scan stream).rest := by
  induction stream using stream_induction fmt with
  | short stream found =>
      rw [scan_short found]
      rfl
  | oversize stream rest found => simp [scan_oversize found] at accepted
  | frame stream body rest found ih =>
      rw [scan_frame found] at accepted ⊢
      have tail := ih accepted
      obtain ⟨whole, -⟩ := head_frame_encode canonical found
      calc stream = fmt.encode body ++ rest := whole
        _ = fmt.encode body ++ (fmt.encodeAll (fmt.scan rest).frames ++ (fmt.scan rest).rest) := by
            rw [← tail]
        _ = fmt.encodeAll (body :: (fmt.scan rest).frames) ++ (fmt.scan rest).rest := by
            rw [← List.append_assoc]
            rfl

/-- A rejected stream has a header above the limit behind its frames. -/
theorem scan_encodeAll_rejected
    (canonical : ∀ h : List α, h.length = fmt.width → fmt.header (fmt.size h) = h)
    (stream : List α) (refused : (fmt.scan stream).rejected = true) :
    ∃ bodies header rest, stream = fmt.encodeAll bodies ++ (header ++ rest) ∧
      (∀ body ∈ bodies, body.length ≤ fmt.limit) ∧ header.length = fmt.width ∧
        fmt.limit < fmt.size header := by
  induction stream using stream_induction fmt with
  | short stream found => simp [scan_short found] at refused
  | oversize stream rest found =>
      obtain ⟨header, whole, length, above⟩ := head_oversize_parts found
      exact ⟨[], header, rest, whole, by simp, length, above⟩
  | frame stream body rest found ih =>
      rw [scan_frame found] at refused
      obtain ⟨bodies, header, tail, whole, bounded, length, above⟩ := ih refused
      obtain ⟨first, fits⟩ := head_frame_encode canonical found
      refine ⟨body :: bodies, header, tail, ?_, ?_, length, above⟩
      · rw [first, whole, ← List.append_assoc]
        rfl
      · intro other member
        rcases List.mem_cons.mp member with rfl | member
        · exact fits
        · exact bounded other member

variable (fmt)

/-- The bodies whose whole frame lies within the first `n` symbols. -/
def completeWithin : List (List α) → Nat → List (List α)
  | [], _ => []
  | body :: bodies, n =>
      if (fmt.encode body).length ≤ n then
        body :: completeWithin bodies (n - (fmt.encode body).length)
      else
        []

variable {fmt}

theorem completeWithin_all (bodies : List (List α)) {n : Nat}
    (whole : (fmt.encodeAll bodies).length ≤ n) : fmt.completeWithin bodies n = bodies := by
  induction bodies generalizing n with
  | nil => rfl
  | cons body bodies ih =>
      simp only [encodeAll, List.map_cons, List.flatten_cons, List.length_append] at whole
      rw [completeWithin, if_pos (by omega), ih]
      simp only [encodeAll]
      omega

/-- The complete bodies come first. -/
theorem completeWithin_front (bodies : List (List α)) (n : Nat) :
    fmt.completeWithin bodies n <+: bodies := by
  induction bodies generalizing n with
  | nil => exact List.nil_prefix
  | cons body bodies ih =>
      rw [completeWithin]
      split
      · exact (List.cons_prefix_cons).mpr ⟨rfl, ih _⟩
      · exact List.nil_prefix

/-- A cut of a well-formed stream decodes to the frames complete at the cut. -/
theorem scan_encodeAll_take (bodies : List (List α))
    (bounded : ∀ body ∈ bodies, body.length ≤ fmt.limit) (n : Nat) :
    (fmt.scan ((fmt.encodeAll bodies).take n)).frames = fmt.completeWithin bodies n ∧
      (fmt.scan ((fmt.encodeAll bodies).take n)).rejected = false := by
  induction bodies generalizing n with
  | nil =>
      simp only [encodeAll, List.map_nil, List.flatten_nil, List.take_nil, scan_nil,
        completeWithin, and_self]
  | cons body bodies ih =>
      have fits : body.length ≤ fmt.limit := bounded body (by simp)
      have total : (fmt.encode body).length = fmt.width + body.length := by
        simp only [encode, List.length_append, fmt.header_length]
      have unfolded : fmt.encodeAll (body :: bodies) = fmt.encode body ++ fmt.encodeAll bodies :=
          rfl
      by_cases whole : (fmt.encode body).length ≤ n
      · have rest := ih (fun b member => bounded b (by simp [member]))
          (n - (fmt.encode body).length)
        have cut : (fmt.encodeAll (body :: bodies)).take n =
            fmt.encode body ++ (fmt.encodeAll bodies).take (n - (fmt.encode body).length) := by
          rw [unfolded, List.take_append, List.take_of_length_le whole]
        rw [cut, scan_frame (head_encode fits _), completeWithin, if_pos whole]
        exact ⟨by rw [rest.1], rest.2⟩
      · have cut : (fmt.encodeAll (body :: bodies)).take n = (fmt.encode body).take n := by
          rw [unfolded, List.take_append_of_le_length (by omega)]
        rw [cut, scan_short (head_encode_take fits (by omega)), completeWithin, if_neg whole]
        exact ⟨rfl, rfl⟩

end Format

/-- What a reader reports of a stream. -/
inductive Signal (α : Type) where
  | chunk (body : List α)
  | reject

namespace Signal

/-- The bodies among the signals. -/
def chunks : List (Signal α) → List (List α)
  | [] => []
  | .chunk body :: signals => body :: chunks signals
  | .reject :: signals => chunks signals

@[simp] theorem chunks_append (front back : List (Signal α)) :
    chunks (front ++ back) = chunks front ++ chunks back := by
  induction front with
  | nil => rfl
  | cons signal front ih =>
      cases signal with
      | chunk body => simp only [List.cons_append, chunks, ih]
      | reject => simp only [List.cons_append, chunks, ih]

@[simp] theorem chunks_map_chunk (bodies : List (List α)) :
    chunks (bodies.map .chunk) = bodies := by
  induction bodies with
  | nil => rfl
  | cons body bodies ih => simp only [List.map_cons, chunks, ih]

/-- No body is reported behind a rejection. -/
def Final (signals : List (Signal α)) : Prop :=
  ∀ front back, signals = front ++ .reject :: back → chunks back = []

theorem Final.of_chunks (bodies : List (List α)) : Final (bodies.map .chunk) := by
  intro front back cut
  have member : (.reject : Signal α) ∈ bodies.map .chunk := by
    rw [cut]
    exact List.mem_append_right _ List.mem_cons_self
  simp at member

theorem Final.chunks_append {signals : List (Signal α)} (final : Final signals)
    (bodies : List (List α)) : Final (bodies.map .chunk ++ signals) := by
  intro front back cut
  rcases List.append_eq_append_iff.mp cut with
    ⟨between, frontEq, behind⟩ | ⟨between, bodiesEq, behind⟩
  · exact final between back behind
  · cases between with
    | nil => exact final [] back (by simpa only [List.nil_append] using behind.symm)
    | cons signal between =>
        have member : (.reject : Signal α) ∈ bodies.map .chunk := by
          rw [bodiesEq]
          injection behind with same _
          subst same
          exact List.mem_append_right _ List.mem_cons_self
        simp at member

end Signal

def Scan.signals (found : Scan α) : List (Signal α) :=
  found.frames.map .chunk ++ if found.rejected then [.reject] else []

namespace Format

variable (fmt : Format α)

/-- Feeds one segment to a reader that holds the residue `carry`. A rejected header
discards the rest of its segment. -/
def feed (carry segment : List α) : List α × List (Signal α) :=
  let found := fmt.scan (carry ++ segment)
  (if found.rejected then [] else found.rest, found.signals)

def feedAll : List α → List (List α) → List α × List (Signal α)
  | carry, [] => (carry, [])
  | carry, segment :: segments =>
      let first := fmt.feed carry segment
      let rest := feedAll first.1 segments
      (rest.1, first.2 ++ rest.2)

theorem feedAll_cons_fst (carry segment : List α) (segments : List (List α)) :
    (fmt.feedAll carry (segment :: segments)).1 =
      (fmt.feedAll (fmt.feed carry segment).1 segments).1 := by
  rw [feedAll]

theorem feedAll_cons_snd (carry segment : List α) (segments : List (List α)) :
    (fmt.feedAll carry (segment :: segments)).2 =
      (fmt.feed carry segment).2 ++ (fmt.feedAll (fmt.feed carry segment).1 segments).2 := by
  rw [feedAll]

/-- No complete frame begins anywhere in these symbols. -/
def Quiet (symbols : List α) : Prop :=
  ∀ suffix, suffix <:+ symbols → ∀ body rest, fmt.head suffix ≠ .frame body rest

variable {fmt}

theorem Quiet.suffix {front back : List α} (quiet : fmt.Quiet (front ++ back)) :
    fmt.Quiet back :=
  fun suffix inside => quiet suffix (inside.trans (List.suffix_append _ _))

theorem Quiet.front {front back : List α} (quiet : fmt.Quiet (front ++ back)) :
    fmt.Quiet front := by
  rintro suffix ⟨before, rfl⟩ body rest found
  exact quiet (suffix ++ back) ⟨before, (List.append_assoc _ _ _).symm⟩ _ _
    (head_frame_append found back)

/-- A stream that is never rejected decodes alike under every segmentation. -/
theorem feedAll_accepted (carry : List α) (segments : List (List α))
    (short : fmt.head carry = .short)
    (accepted : (fmt.scan (carry ++ segments.flatten)).rejected = false) :
    fmt.feedAll carry segments =
      ((fmt.scan (carry ++ segments.flatten)).rest,
        (fmt.scan (carry ++ segments.flatten)).frames.map .chunk) := by
  induction segments generalizing carry with
  | nil =>
      rw [List.flatten_nil, List.append_nil, scan_short short]
      rfl
  | cons segment segments ih =>
      rw [List.flatten_cons, ← List.append_assoc] at accepted ⊢
      have first : (fmt.scan (carry ++ segment)).rejected = false := by
        cases refused : (fmt.scan (carry ++ segment)).rejected with
        | false => rfl
        | true =>
            rw [scan_append_rejected _ _ refused] at accepted
            cases accepted
      rw [scan_append _ _ first] at accepted ⊢
      have rest := ih (fmt.scan (carry ++ segment)).rest (scan_rest_short _ first) accepted
      simp only [feedAll, feed, Scan.signals, first, Bool.false_eq_true, ↓reduceIte,
        List.append_nil, rest, List.map_append]

theorem feedAll_quiet (carry : List α) (segments : List (List α))
    (quiet : fmt.Quiet (carry ++ segments.flatten)) :
    Signal.chunks (fmt.feedAll carry segments).2 = [] := by
  induction segments generalizing carry with
  | nil => rfl
  | cons segment segments ih =>
      rw [List.flatten_cons, ← List.append_assoc] at quiet
      cases found : fmt.head (carry ++ segment) with
      | short =>
          simp only [feedAll, feed, Scan.signals, scan_short found, List.map_nil,
            Bool.false_eq_true, ↓reduceIte, List.nil_append]
          exact ih _ quiet
      | oversize rest =>
          simp only [feedAll, feed, Scan.signals, scan_oversize found, List.map_nil,
            ↓reduceIte, List.nil_append, List.cons_append, Signal.chunks]
          exact ih [] quiet.suffix
      | frame body rest =>
          exact absurd (head_frame_append found segments.flatten)
            (quiet _ (List.suffix_refl _) _ _)

/-- If nothing behind the first rejected header looks like a frame, then every
segmentation decodes to the frames before that header. -/
theorem feedAll_chunks (carry : List α) (segments : List (List α))
    (short : fmt.head carry = .short)
    (quiet : (fmt.scan (carry ++ segments.flatten)).rejected = true →
      fmt.Quiet (fmt.scan (carry ++ segments.flatten)).rest) :
    Signal.chunks (fmt.feedAll carry segments).2 =
        (fmt.scan (carry ++ segments.flatten)).frames ∧
      Signal.Final (fmt.feedAll carry segments).2 := by
  induction segments generalizing carry with
  | nil =>
      rw [List.flatten_nil, List.append_nil, scan_short short]
      exact ⟨rfl, Signal.Final.of_chunks []⟩
  | cons segment segments ih =>
      rw [List.flatten_cons, ← List.append_assoc] at quiet ⊢
      cases refused : (fmt.scan (carry ++ segment)).rejected with
      | false =>
          rw [scan_append _ _ refused] at quiet ⊢
          have rest := ih (fmt.scan (carry ++ segment)).rest (scan_rest_short _ refused) quiet
          simp only [feedAll, feed, Scan.signals, refused, Bool.false_eq_true, ↓reduceIte,
            List.append_nil, Signal.chunks_append, Signal.chunks_map_chunk, rest.1, true_and]
          exact rest.2.chunks_append _
      | true =>
          rw [scan_append_rejected _ _ refused] at quiet ⊢
          have silent := feedAll_quiet [] segments (quiet rfl).suffix
          simp only [feedAll, feed, Scan.signals, refused, ↓reduceIte, Signal.chunks_append,
            Signal.chunks_map_chunk, Signal.chunks, silent, List.append_nil, true_and]
          rw [List.append_assoc]
          apply Signal.Final.chunks_append
          intro front back cut
          cases front with
          | nil =>
              injection cut with _ behind
              rw [← behind]
              exact silent
          | cons signal front =>
              injection cut with _ behind
              have split : (fmt.feedAll [] segments).2 = front ++ .reject :: back := behind
              rw [split, Signal.chunks_append] at silent
              exact (List.append_eq_nil_iff.mp silent).2

theorem feedAll_append (carry : List α) (front back : List (List α)) :
    (fmt.feedAll carry (front ++ back)).2 =
      (fmt.feedAll carry front).2 ++ (fmt.feedAll (fmt.feedAll carry front).1 back).2 := by
  induction front generalizing carry with
  | nil => rfl
  | cons segment front ih => simp only [List.cons_append, feedAll, ih, List.append_assoc]

variable (fmt) in
/-- A segment that is one frame, or that begins with a rejected header. Fed on its
own it leaves no residue. -/
def Whole (segment : List α) : Prop :=
  (∃ body, fmt.head segment = .frame body []) ∨ ∃ rest, fmt.head segment = .oversize rest

theorem feed_frame {segment body : List α} (found : fmt.head segment = .frame body []) :
    fmt.feed [] segment = ([], [.chunk body]) := by
  simp only [feed, List.nil_append, scan_frame found, scan_nil, Scan.signals, Bool.false_eq_true,
    ↓reduceIte, List.map_cons, List.map_nil, List.append_nil]

theorem feed_oversize {segment rest : List α} (found : fmt.head segment = .oversize rest) :
    fmt.feed [] segment = ([], [.reject]) := by
  simp only [feed, List.nil_append, scan_oversize found, Scan.signals, ↓reduceIte, List.map_nil]

theorem feedAll_whole_carry {segments : List (List α)} (whole : ∀ s ∈ segments, fmt.Whole s) :
    (fmt.feedAll [] segments).1 = [] := by
  induction segments with
  | nil => rfl
  | cons segment segments ih =>
      have rest := ih (fun s member => whole s (List.mem_cons_of_mem _ member))
      rcases whole segment List.mem_cons_self with ⟨body, found⟩ | ⟨behind, found⟩
      · simp only [feedAll, feed_frame found, rest]
      · simp only [feedAll, feed_oversize found, rest]

theorem head_short_length {stream : List α} (found : fmt.head stream = .short) :
    stream.length < fmt.width + fmt.limit := by
  have pos := fmt.width_pos
  unfold head at found
  split at found
  · omega
  · split at found
    · cases found
    · split at found
      · simp only [List.length_drop] at *
        omega
      · cases found

/-- The frames before the first rejected header, and that header, as segments. -/
theorem scan_rejected_parts (stream : List α) (refused : (fmt.scan stream).rejected = true) :
    ∃ (segments : List (List α)) (header : List α),
      stream = segments.flatten ++ (header ++ (fmt.scan stream).rest) ∧
      (∀ s ∈ segments, (∃ body, fmt.head s = .frame body []) ∧
        s.length ≤ fmt.width + fmt.limit) ∧
      header.length = fmt.width ∧ fmt.limit < fmt.size header := by
  induction stream using stream_induction fmt with
  | short stream found => simp [scan_short found] at refused
  | oversize stream rest found =>
      obtain ⟨header, same, length, above⟩ := head_oversize_parts found
      refine ⟨[], header, ?_, by simp, length, above⟩
      simpa only [scan_oversize found, List.flatten_nil, List.nil_append] using same
  | frame stream body rest found ih =>
      simp only [scan_frame found] at refused ⊢
      obtain ⟨segments, bad, restEq, frames, length, above⟩ := ih refused
      obtain ⟨header, same, headerLength, size, bounded⟩ := head_frame_parts found
      refine ⟨(header ++ body) :: segments, bad, ?_, ?_, length, above⟩
      · rw [List.flatten_cons, List.append_assoc, ← restEq, List.append_assoc, ← same]
      · intro s member
        rcases List.mem_cons.mp member with rfl | member
        · refine ⟨⟨body, ?_⟩, ?_⟩
          · simpa only [List.append_nil] using head_of_frame headerLength size bounded []
          · simp only [List.length_append]
            omega
        · exact frames s member

variable (fmt) in
/-- A way to a frame inside `tail`: symbols discarded at once, segments that each begin
with a rejected header, and the frame. -/
structure Reaches (tail skipped : List α) (resets : List (List α)) (last unread : List α) :
    Prop where
  parts : tail = skipped ++ (resets.flatten ++ (last ++ unread))
  near : skipped.length ≤ fmt.width + fmt.limit
  reset : ∀ s ∈ resets, (∃ rest, fmt.head s = .oversize rest) ∧
    s.length ≤ fmt.width + (fmt.width + fmt.limit)
  frame : ∃ body, fmt.head last = .frame body []
  small : last.length ≤ fmt.width + fmt.limit

theorem reaches_near {front back body rest : List α}
    (near : front.length ≤ fmt.width + fmt.limit) (found : fmt.head back = .frame body rest) :
    ∃ last unread, fmt.Reaches (front ++ back) front [] last unread := by
  obtain ⟨header, rfl, length, size, bounded⟩ := head_frame_parts found
  refine ⟨header ++ body, rest, ?_, near, by simp, ⟨body, ?_⟩, ?_⟩
  · simp only [List.flatten_nil, List.nil_append, List.append_assoc]
  · simpa only [List.append_nil] using head_of_frame length size bounded []
  · simp only [List.length_append]
    omega

/-- Behind a rejection a frame can be reached wherever it begins: the symbols before
it are discarded together with rejected headers. -/
theorem exists_late_frame (tail : List α) (loud : ¬ fmt.Quiet tail) :
    ∃ skipped resets last unread, fmt.Reaches tail skipped resets last unread := by
  induction size : tail.length using Nat.strongRecOn generalizing tail with
  | ind size_ ih =>
      simp only [Quiet, Classical.not_forall, Classical.not_not] at loud
      obtain ⟨suffix, ⟨front, rfl⟩, body, rest, found⟩ := loud
      by_cases near : front.length ≤ fmt.width + fmt.limit
      · exact ⟨front, [], reaches_near near found⟩
      · cases head : fmt.head (front ++ suffix) with
        | short =>
            have length := head_short_length head
            simp only [List.length_append] at length
            omega
        | frame body rest => exact ⟨[], [], @reaches_near _ _ [] _ _ _ (Nat.zero_le _) head⟩
        | oversize behind =>
            obtain ⟨header, same, length, above⟩ := head_oversize_parts head
            -- the frame begins behind the rejected header, which is shorter than `front`
            obtain ⟨between, behindEq⟩ : ∃ between, behind = between ++ suffix := by
              rcases List.append_eq_append_iff.mp same with
                ⟨spare, headerEq, -⟩ | ⟨between, -, rest⟩
              · have lengths := congrArg List.length headerEq
                simp only [List.length_append] at lengths
                omega
              · exact ⟨between, rest⟩
            have total := congrArg List.length same
            simp only [List.length_append] at total
            have pos := fmt.width_pos
            have loudBehind : ¬ fmt.Quiet behind := fun quiet =>
              quiet suffix ⟨between, behindEq.symm⟩ body rest found
            obtain ⟨skipped, resets, last, unread, reached⟩ :=
              ih behind.length (by simp only [← size, List.length_append]; omega) behind
                loudBehind rfl
            refine ⟨[], (header ++ skipped) :: resets, last, unread, ?_, by simp, ?_,
              reached.frame, reached.small⟩
            · rw [same, reached.parts]
              simp only [List.nil_append, List.flatten_cons, List.append_assoc]
            · intro s member
              rcases List.mem_cons.mp member with rfl | member
              · refine ⟨⟨skipped, head_of_oversize length above skipped⟩, ?_⟩
                have near := reached.near
                simp only [List.length_append]
                omega
              · exact reached.reset s member

end Format

end Framing
