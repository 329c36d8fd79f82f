import Getrafty.ChunkerRefinement

set_option autoImplicit false

namespace Getrafty

open Framing (Format Signal)

namespace StageAction

/-- No chunk is fired after a failure. -/
def Final (actions : List StageAction) : Prop :=
  ∀ front what back, actions = front ++ .failure what :: back → chunks back = []

theorem final_iff (actions : List StageAction) :
    Final actions ↔ Signal.Final (signals actions) := by
  constructor
  · intro final front back cut
    obtain ⟨seen, rest, rfl, -, restEq⟩ := List.filterMap_eq_append_iff.mp cut
    obtain ⟨skipped, action, later, rfl, -, isReject, laterEq⟩ :=
      List.filterMap_eq_cons_iff.mp restEq
    cases action with
    | fireInbound buf => cases isReject
    | fireOutbound buf => cases isReject
    | failure what =>
        rw [← laterEq]
        have silent := final (seen ++ skipped) what later (List.append_assoc _ _ _).symm
        rwa [chunks_eq] at silent
  · rintro final front what back rfl
    rw [chunks_eq]
    exact final (signals front) (signals back) (signals_append _ _)

end StageAction

namespace LiveBuf

/-- Any segments that fit into memory can be received as events. -/
theorem exists_events (segments : List (List UInt8)) (fits : ∀ s ∈ segments, s.length ≤ maxSize) :
    ∃ events : List LiveBuf, events.map (fun evt => evt.content) = segments := by
  induction segments with
  | nil => exact ⟨[], rfl⟩
  | cons segment segments ih =>
      obtain ⟨events, same⟩ := ih (fun s member => fits s (List.mem_cons_of_mem _ member))
      refine ⟨ofBytes segment (fits segment List.mem_cons_self) :: events, ?_⟩
      rw [List.map_cons, content_ofBytes, same]

theorem exists_stream (bytes : List UInt8) : ∃ events : List LiveBuf, stream events = bytes := by
  induction bytes with
  | nil => exact ⟨[], rfl⟩
  | cons byte bytes ih =>
      obtain ⟨events, same⟩ := ih
      have fits : [byte].length ≤ maxSize := by
        rw [List.length_singleton]
        decide
      refine ⟨ofBytes [byte] fits :: events, ?_⟩
      rw [stream_cons, content_ofBytes, same, List.singleton_append]

end LiveBuf

theorem chunkFormat_head_frame {stream body rest : List UInt8}
    (found : chunkFormat.head stream = .frame body rest) :
    stream = chunkFormat.encode body ++ rest ∧ body.length ≤ kChunkLimit := by
  obtain ⟨header, rfl, length, size, bounded⟩ := Format.head_frame_parts found
  refine ⟨?_, bounded⟩
  match header, length with
  | [b0, b1, b2, b3], _ =>
      have word : Words.wordLE b0 b1 b2 b3 = body.length := size
      have same : chunkFormat.header body.length = [b0, b1, b2, b3] := by
        rw [← word]
        exact Words.bytesLE_wordLE b0 b1 b2 b3
      rw [Format.encode, same, List.append_assoc]

namespace Chunker

/-- Behind the first header above the limit there begins something that reads as a
well-formed frame. -/
def HidesFrame (stream : List UInt8) : Prop :=
  ∃ bodies header skipped body rest,
    stream = chunkFormat.encodeAll bodies ++
    (header ++ (skipped ++ (chunkFormat.encode body ++ rest))) ∧
      (∀ b ∈ bodies, b.length ≤ kChunkLimit) ∧ header.length = 4 ∧
      kChunkLimit < chunkFormat.size header ∧ body.length ≤ kChunkLimit

/-- What is fired depends on the bytes only, and a rejection is final. -/
structure SegmentationIndependent (stream : List UInt8) : Prop where
  alike : ∀ events events' alloc alloc', LiveBuf.stream events = stream →
    LiveBuf.stream events' = stream → (receive {} events alloc).alloc.refused = alloc.refused →
    (receive {} events' alloc').alloc.refused = alloc'.refused →
    StageAction.chunks (receive {} events alloc).actions =
      StageAction.chunks (receive {} events' alloc').actions
  final : ∀ seen later alloc, LiveBuf.stream (seen ++ later) = stream →
    (receive {} seen alloc).alloc.refused = alloc.refused →
    StageAction.Final (receive {} seen alloc).actions

theorem scan_hidden (bodies : List (List UInt8)) {header : List UInt8}
    (bounded : ∀ b ∈ bodies, b.length ≤ kChunkLimit) (length : header.length = 4)
    (above : kChunkLimit < chunkFormat.size header) (tail : List UInt8) :
    chunkFormat.scan (chunkFormat.encodeAll bodies ++ (header ++ tail)) = ⟨bodies, tail, true⟩ := by
  induction bodies with
  | nil => exact Format.scan_oversize (Format.head_of_oversize length above tail)
  | cons body bodies ih =>
      have rest := ih (fun b member => bounded b (List.mem_cons_of_mem _ member))
      have unfolded : chunkFormat.encodeAll (body :: bodies) =
          chunkFormat.encode body ++ chunkFormat.encodeAll bodies := rfl
      rw [unfolded, List.append_assoc,
        Format.scan_frame (Format.head_encode (bounded body List.mem_cons_self) _), rest]

theorem hidesFrame_iff (stream : List UInt8) :
    HidesFrame stream ↔ (chunkFormat.scan stream).rejected = true ∧
      ¬ chunkFormat.Quiet (chunkFormat.scan stream).rest := by
  constructor
  · rintro ⟨bodies, header, skipped, body, rest, rfl, bounded, length, above, fits⟩
    rw [scan_hidden bodies bounded length above]
    exact ⟨rfl, fun quiet => quiet _ (List.suffix_append _ _) _ _ (Format.head_encode fits rest)⟩
  · rintro ⟨refused, loud⟩
    obtain ⟨segments, header, parts, frames, length, above⟩ :=
      Format.scan_rejected_parts stream refused
    have bodies : ∃ bodies, segments.flatten = chunkFormat.encodeAll bodies ∧
        ∀ b ∈ bodies, b.length ≤ kChunkLimit := by
      clear parts
      induction segments with
      | nil => exact ⟨[], rfl, by simp⟩
      | cons segment segments ih =>
          obtain ⟨⟨body, found⟩, -⟩ := frames segment List.mem_cons_self
          obtain ⟨bodies, same, bounded⟩ :=
            ih (fun s member => frames s (List.mem_cons_of_mem _ member))
          obtain ⟨segmentEq, fits⟩ := chunkFormat_head_frame found
          refine ⟨body :: bodies, ?_, ?_⟩
          · rw [List.flatten_cons, same, segmentEq, List.append_nil]
            rfl
          · intro b member
            rcases List.mem_cons.mp member with rfl | member
            · exact fits
            · exact bounded b member
    obtain ⟨bodies, same, bounded⟩ := bodies
    simp only [Format.Quiet, Classical.not_forall, Classical.not_not] at loud
    obtain ⟨suffix, ⟨skipped, restEq⟩, body, rest, found⟩ := loud
    obtain ⟨rfl, fits⟩ := chunkFormat_head_frame found
    exact ⟨bodies, header, skipped, body, rest, by rw [parts, same, restEq], bounded, length,
      above, fits⟩

/-- Segments that leave no residue are received without any refusal by an allocator
that grants every call. -/
theorem Carries.receive_whole {c : Chunker} (carries : Carries c []) (evts : List LiveBuf)
    (whole : ∀ evt ∈ evts, chunkFormat.Whole evt.content) (alloc : Allocator)
    (granted : ∀ call, alloc.grants call = true) :
    (c.receive evts alloc).alloc.refused = alloc.refused := by
  induction evts generalizing c alloc with
  | nil => rw [receive_nil_alloc]
  | cons evt evts ih =>
      have empty : c.in_.content = [] := (List.append_eq_nil_iff.mp carries.carry_eq.symm).2
      obtain ⟨-, -, grants, all⟩ := carries.onInbound_sound evt.wf alloc
      have one := all granted (by rw [carries.rewound empty, Nat.zero_add]; exact evt.wf.content_le)
      obtain ⟨carried, -⟩ := carries.onInbound_feed evt.wf alloc one
      have back : (chunkFormat.feed [] evt.content).1 = [] := by
        rcases whole evt List.mem_cons_self with ⟨body, found⟩ | ⟨rest, found⟩
        · rw [Format.feed_frame found]
        · rw [Format.feed_oversize found]
      rw [back] at carried
      have rest := ih carried (fun e member => whole e (List.mem_cons_of_mem _ member)) _
        (by rw [grants]; exact granted)
      rw [receive_cons, Outcome.after_alloc, rest, one]

theorem segmentationIndependent_of_not_hidesFrame {stream : List UInt8}
    (plain : ¬ HidesFrame stream) : SegmentationIndependent stream := by
  have short : chunkFormat.head [] = .short := Format.head_of_length chunkFormat.width_pos
  have quiet : (chunkFormat.scan stream).rejected = true →
      chunkFormat.Quiet (chunkFormat.scan stream).rest := fun refused =>
    Classical.not_not.mp fun loud => plain ((hidesFrame_iff stream).mpr ⟨refused, loud⟩)
  have chunks : ∀ events alloc, LiveBuf.stream events = stream →
      (receive {} events alloc).alloc.refused = alloc.refused →
      StageAction.chunks (receive {} events alloc).actions = (chunkFormat.scan stream).frames := by
    rintro events alloc rfl granted
    obtain ⟨-, feed⟩ := Carries.fresh.receive_feedAll events alloc granted
    rw [StageAction.chunks_eq, feed]
    exact (Format.feedAll_chunks [] _ short quiet).1
  refine ⟨fun events events' alloc alloc' same same' granted granted' => ?_,
    fun seen later alloc same granted => ?_⟩
  · rw [chunks events alloc same granted, chunks events' alloc' same' granted']
  · obtain ⟨-, feed⟩ := Carries.fresh.receive_feedAll seen alloc granted
    rw [StageAction.final_iff, feed]
    refine (Format.feedAll_chunks [] _ short fun refused => ?_).2
    have whole := Format.scan_append_rejected (LiveBuf.stream seen) (LiveBuf.stream later) refused
    rw [← LiveBuf.stream_append, same] at whole
    rw [whole] at quiet
    exact (quiet rfl).front

/-- The events that make a stage fire the frame a rejected stream hides. -/
theorem exists_late_chunk {stream : List UInt8} (hides : HidesFrame stream) :
    ∃ seen later alloc, LiveBuf.stream (seen ++ later) = stream ∧
      (receive {} seen alloc).alloc.refused = alloc.refused ∧
      ¬ StageAction.Final (receive {} seen alloc).actions := by
  obtain ⟨refused, loud⟩ := (hidesFrame_iff stream).mp hides
  obtain ⟨frames, header, parts, whole, length, above⟩ := Format.scan_rejected_parts stream refused
  obtain ⟨skipped, resets, last, unread, reached⟩ := Format.exists_late_frame _ loud
  obtain ⟨body, found⟩ := reached.frame
  have rejected := Format.head_of_oversize length above skipped
  have wholeReset : ∀ s ∈ resets, chunkFormat.Whole s := fun s member =>
    Or.inr (reached.reset s member).1
  have wholeAll : ∀ s ∈ frames ++ (header ++ skipped) :: (resets ++ [last]),
      chunkFormat.Whole s := by
    intro s member
    simp only [List.mem_append, List.mem_cons, List.not_mem_nil, or_false] at member
    rcases member with member | rfl | member | rfl
    · exact Or.inl (whole s member).1
    · exact Or.inr ⟨skipped, rejected⟩
    · exact wholeReset s member
    · exact Or.inl ⟨body, found⟩
  have fits : ∀ s ∈ frames ++ (header ++ skipped) :: (resets ++ [last]), s.length ≤ maxSize := by
    have limits : chunkFormat.width + (chunkFormat.width + chunkFormat.limit) ≤ maxSize := by decide
    have near := reached.near
    have small := reached.small
    intro s member
    simp only [List.mem_append, List.mem_cons, List.not_mem_nil, or_false] at member
    rcases member with member | rfl | member | rfl
    · have := (whole s member).2
      omega
    · rw [List.length_append]
      omega
    · have := (reached.reset s member).2
      omega
    · omega
  obtain ⟨seen, seenEq⟩ := LiveBuf.exists_events _ fits
  obtain ⟨later, laterEq⟩ := LiveBuf.exists_stream unread
  have granted : (receive {} seen .unlimited).alloc.refused = Allocator.unlimited.refused := by
    refine Carries.fresh.receive_whole seen (fun evt member => wholeAll _ ?_) _ (fun _ => rfl)
    rw [← seenEq]
    exact List.mem_map_of_mem member
  refine ⟨seen, later, .unlimited, ?_, granted, ?_⟩
  · rw [LiveBuf.stream_append, LiveBuf.stream, seenEq, laterEq, parts, reached.parts]
    simp only [List.flatten_append, List.flatten_cons, List.flatten_nil, List.append_nil,
      List.append_assoc]
  · obtain ⟨-, feed⟩ := Carries.fresh.receive_feedAll seen .unlimited granted
    have fed : StageAction.signals (receive {} seen .unlimited).actions =
        (chunkFormat.feedAll [] frames).2 ++
          .reject :: ((chunkFormat.feedAll [] resets).2 ++ [.chunk body]) := by
      rw [feed, seenEq, Format.feedAll_append,
        Format.feedAll_whole_carry (fun s member => Or.inl (whole s member).1),
        Format.feedAll_cons_snd, Format.feed_oversize rejected, Format.feedAll_append,
        Format.feedAll_whole_carry wholeReset, Format.feedAll_cons_snd, Format.feed_frame found]
      rfl
    rw [StageAction.final_iff]
    intro final
    have silent := final _ _ fed
    rw [Signal.chunks_append] at silent
    exact List.cons_ne_nil _ _ (List.append_eq_nil_iff.mp silent).2

/-- A rejection only drops the bytes already received, and `failure` does not stop the
events behind it: `shutdown` hands the error to `::shutdown` as its `how`. So cuttings
agree on exactly the streams that hide no frame behind a rejected header. -/
theorem segmentationIndependent_iff (stream : List UInt8) :
    SegmentationIndependent stream ↔ ¬ HidesFrame stream := by
  refine ⟨fun independent hides => ?_, segmentationIndependent_of_not_hidesFrame⟩
  obtain ⟨seen, later, alloc, same, granted, late⟩ := exists_late_chunk hides
  exact late (independent.final seen later alloc same granted)

/-- One event drops the frame behind the bad header, two events fire it. -/
theorem not_segmentationIndependent :
    ¬ ∀ stream, SegmentationIndependent stream := by
  intro independent
  have alike := (independent [255, 255, 255, 255, 1, 0, 0, 0, 7]).alike
    [.ofBytes [255, 255, 255, 255, 1, 0, 0, 0, 7] (by decide)]
    [.ofBytes [255, 255, 255, 255] (by decide), .ofBytes [1, 0, 0, 0, 7] (by decide)]
    .unlimited .unlimited (by decide) (by decide) (by decide) (by decide)
  revert alike
  decide

end Chunker

end Getrafty
