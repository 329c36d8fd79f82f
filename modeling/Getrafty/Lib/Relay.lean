import Getrafty.Lib.Framing

set_option autoImplicit false

/- Framed bodies on their way from a sender to the reader at the other end of a stream, which
may hold back any part of it for any time but loses and adds nothing. -/
namespace Framing

variable {α : Type} {fmt : Format α}

namespace Format

@[simp] theorem encodeAll_nil : fmt.encodeAll [] = [] := rfl

@[simp] theorem encodeAll_cons (body : List α) (bodies : List (List α)) :
    fmt.encodeAll (body :: bodies) = fmt.encode body ++ fmt.encodeAll bodies := rfl

theorem encodeAll_append (front back : List (List α)) :
    fmt.encodeAll (front ++ back) = fmt.encodeAll front ++ fmt.encodeAll back := by
  simp only [encodeAll, List.map_append, List.flatten_append]

/-- The front of an encoding is scanned into the bodies it completes, and its residue
starts what is left of the encoding. -/
theorem scan_front (bodies : List (List α)) (bounded : ∀ body ∈ bodies, body.length ≤ fmt.limit)
    {front back : List α} (cut : front ++ back = fmt.encodeAll bodies) :
    ∃ complete rest carry, bodies = complete ++ rest ∧ fmt.scan front = ⟨complete, carry, false⟩ ∧
      carry ++ back = fmt.encodeAll rest ∧ fmt.head carry = .short := by
  induction bodies generalizing front with
  | nil =>
      obtain ⟨rfl, rfl⟩ := List.append_eq_nil_iff.mp cut
      exact ⟨[], [], [], rfl, scan_nil, rfl, head_of_length fmt.width_pos⟩
  | cons body bodies ih =>
      have inside := bounded body List.mem_cons_self
      rw [encodeAll_cons] at cut
      by_cases whole : (fmt.encode body).length ≤ front.length
      · obtain ⟨later, rfl⟩ : ∃ later, front = fmt.encode body ++ later := by
          have start : front.take (fmt.encode body).length = fmt.encode body := by
            have same := congrArg (List.take (fmt.encode body).length) cut
            rwa [List.take_append_of_le_length whole, List.take_left] at same
          refine ⟨front.drop (fmt.encode body).length, ?_⟩
          calc front = front.take (fmt.encode body).length ++ front.drop (fmt.encode body).length :=
                (List.take_append_drop _ _).symm
            _ = fmt.encode body ++ front.drop (fmt.encode body).length := by rw [start]
        rw [List.append_assoc] at cut
        obtain ⟨complete, rest, carry, rfl, scanned, left, short⟩ :=
          ih (fun other member => bounded other (List.mem_cons_of_mem _ member))
            (List.append_cancel_left cut)
        refine ⟨body :: complete, rest, carry, rfl, ?_, left, short⟩
        rw [scan_frame (head_encode inside later), scanned]
      · -- the first body has not arrived in full
        have start : front = (fmt.encode body).take front.length := by
          have same := congrArg (List.take front.length) cut
          rwa [List.take_left, List.take_append_of_le_length (by omega)] at same
        have size : (fmt.encode body).length = fmt.width + body.length := by
          rw [encode, List.length_append, fmt.header_length]
        have short : fmt.head front = .short := by
          rw [start]
          apply head_encode_take inside
          omega
        exact ⟨[], body :: bodies, front, rfl, scan_short short, cut, short⟩

end Format

/-- Where the bodies sent so far are: delivered, or still in the symbols that the reader carries
and in those ahead of it. -/
structure Relay (fmt : Format α) (sent delivered : List (List α)) (carry ahead : List α) :
    Prop where
  bounded : ∀ body ∈ sent, body.length ≤ fmt.limit
  short : fmt.head carry = .short
  underway : ∃ rest, sent = delivered ++ rest ∧ carry ++ ahead = fmt.encodeAll rest

namespace Relay

variable {sent delivered : List (List α)} {carry ahead : List α}

theorem start : Relay fmt [] [] [] [] where
  bounded := fun _ member => absurd member List.not_mem_nil
  short := Format.head_of_length fmt.width_pos
  underway := ⟨[], rfl, rfl⟩

theorem send (relay : Relay fmt sent delivered carry ahead) {bodies : List (List α)}
    (bounded : ∀ body ∈ bodies, body.length ≤ fmt.limit) :
    Relay fmt (sent ++ bodies) delivered carry (ahead ++ fmt.encodeAll bodies) := by
  obtain ⟨rest, split, stream⟩ := relay.underway
  refine ⟨?_, relay.short, rest ++ bodies, ?_, ?_⟩
  · intro body member
    rcases List.mem_append.mp member with old | new
    · exact relay.bounded body old
    · exact bounded body new
  · rw [split, List.append_assoc]
  · rw [← List.append_assoc, stream, Format.encodeAll_append]

/-- The next segment makes the reader deliver the bodies it completes, and nothing else. -/
theorem receive {segment : List α} (relay : Relay fmt sent delivered carry (segment ++ ahead)) :
    ∃ bodies, (fmt.feed carry segment).2 = bodies.map .chunk ∧
      Relay fmt sent (delivered ++ bodies) (fmt.feed carry segment).1 ahead := by
  obtain ⟨rest, split, stream⟩ := relay.underway
  have bounded : ∀ body ∈ rest, body.length ≤ fmt.limit := fun body member =>
    relay.bounded body (split ▸ List.mem_append_right _ member)
  rw [← List.append_assoc] at stream
  obtain ⟨complete, later, carry', parts, scanned, left, short⟩ :=
    Format.scan_front rest bounded stream
  have fed : fmt.feed carry segment = (carry', complete.map .chunk) := by
    simp only [Format.feed, scanned, Scan.signals, Bool.false_eq_true, ↓reduceIte, List.append_nil]
  refine ⟨complete, by rw [fed], relay.bounded, ?_, later, ?_, ?_⟩
  · rw [fed]
    exact short
  · rw [split, parts, List.append_assoc]
  · rw [fed]
    exact left

theorem delivered_front (relay : Relay fmt sent delivered carry ahead) : delivered <+: sent := by
  obtain ⟨rest, split, -⟩ := relay.underway
  exact ⟨rest, split.symm⟩

/-- Once nothing is ahead of the reader, every body is delivered and nothing is left over. -/
theorem arrived (relay : Relay fmt sent delivered carry []) : delivered = sent ∧ carry = [] := by
  obtain ⟨rest, split, stream⟩ := relay.underway
  rw [List.append_nil] at stream
  cases rest with
  | nil => exact ⟨by rw [split, List.append_nil], stream⟩
  | cons body rest =>
      have inside : body.length ≤ fmt.limit :=
        relay.bounded body (split ▸ List.mem_append_right _ List.mem_cons_self)
      have found := Format.head_encode inside (fmt.encodeAll rest)
      rw [← Format.encodeAll_cons, ← stream, relay.short] at found
      cases found

end Relay

end Framing
