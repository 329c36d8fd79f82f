import Mathlib

set_option autoImplicit false

/- What a file holds after a history of writes and changes of its length. -/
namespace FileHistory

inductive FileEvent where
  | write (off : Nat) (bytes : List UInt8)
  | resize (size : Nat)
  deriving DecidableEq

/-- The length after a history, which has its latest event first. -/
def length : List FileEvent → Nat
  | [] => 0
  | .write off bytes :: before => max (length before) (off + bytes.length)
  | .resize size :: _ => size

/-- The byte at a position: the last one written there since the position came to be within the
length, or zero. -/
def byteAt : List FileEvent → Nat → UInt8
  | [], _ => 0
  | .write off bytes :: before, p =>
      if off ≤ p ∧ p < off + bytes.length then bytes.getD (p - off) 0 else byteAt before p
  | .resize size :: before, p => if p < size then byteAt before p else 0

/-- The bytes at the positions from `first` up to `last`. -/
def slice (history : List FileEvent) (first last : Nat) : List UInt8 :=
  (List.range' first (last - first)).map (byteAt history)

def contents (history : List FileEvent) : List UInt8 := slice history 0 (length history)

variable {history : List FileEvent}

theorem slice_length (first last : Nat) : (slice history first last).length = last - first := by
  rw [slice, List.length_map, List.length_range']

theorem slice_getElem (first last i : Nat) (inside : i < (slice history first last).length) :
    (slice history first last)[i] = byteAt history (first + i) := by
  simp only [slice, List.getElem_map, List.getElem_range', Nat.one_mul]

theorem contents_length : (contents history).length = length history := slice_length 0 _

theorem contents_getElem (i : Nat) (inside : i < (contents history).length) :
    (contents history)[i] = byteAt history i := by
  have found := slice_getElem 0 (length history) i inside
  rwa [Nat.zero_add] at found

/-- Behind the end there is nothing to come back to. -/
theorem byteAt_beyond (p : Nat) (beyond : length history ≤ p) : byteAt history p = 0 := by
  induction history with
  | nil => rfl
  | cons event before ih =>
      cases event with
      | write off bytes =>
          have ends : length before ≤ p ∧ off + bytes.length ≤ p := max_le_iff.mp beyond
          rw [byteAt, if_neg (by omega)]
          exact ih ends.1
      | resize size => exact if_neg (Nat.not_lt.mpr beyond)

theorem contents_slice (first last : Nat) (ends : last ≤ length history) :
    ((contents history).drop first).take (last - first) = slice history first last := by
  apply List.ext_getElem
  · rw [List.length_take, List.length_drop, contents_length, slice_length]
    omega
  · intro i inside _
    rw [List.getElem_take, List.getElem_drop, contents_getElem, slice_getElem]

/-- Cut off, or filled up with zeros. -/
theorem contents_resize (size : Nat) :
    contents (.resize size :: history) =
      (contents history).take size ++ List.replicate (size - (contents history).length) 0 := by
  apply List.ext_getElem
  · simp only [contents_length, List.length_append, List.length_take, List.length_replicate]
    show size = _
    omega
  · intro i inside _
    have below : i < size := by
      rw [contents_length] at inside
      exact inside
    have here : byteAt (.resize size :: history) i = byteAt history i := if_pos below
    rw [contents_getElem, here]
    by_cases old : i < (contents history).length
    · rw [List.getElem_append_left (by rw [List.length_take]; omega), List.getElem_take,
        contents_getElem]
    · rw [List.getElem_append_right (by rw [List.length_take]; omega), List.getElem_replicate]
      apply byteAt_beyond
      rw [contents_length] at old
      omega

/-- The bytes are laid over what is there, with zeros where there was nothing. -/
theorem contents_write (off : Nat) (bytes : List UInt8) (resized : List UInt8)
    (grown : resized = if (contents history).length < off + bytes.length then
      (contents history).take (off + bytes.length) ++
        List.replicate (off + bytes.length - (contents history).length) 0
      else contents history) :
    contents (.write off bytes :: history) =
      resized.take off ++ bytes ++ resized.drop (off + bytes.length) := by
  have wide : resized.length = max (length history) (off + bytes.length) := by
    rw [grown]
    split
    · simp only [contents_length, List.length_append, List.length_take,
        List.length_replicate] at *
      omega
    · rw [contents_length] at *
      omega
  have kept : ∀ i (inside : i < resized.length), resized[i] = byteAt history i := by
    intro i inside
    by_cases longer : (contents history).length < off + bytes.length
    · rw [if_pos longer, ← contents_resize] at grown
      subst grown
      rw [contents_getElem]
      rw [contents_length] at inside
      exact if_pos inside
    · rw [if_neg longer] at grown
      subst grown
      exact contents_getElem i inside
  have taken : (resized.take off).length = off := by
    rw [List.length_take, wide]
    omega
  rw [List.append_assoc]
  apply List.ext_getElem
  · simp only [contents_length, List.length_append, taken, List.length_drop, wide]
    show max _ _ = _
    omega
  · intro i inside _
    rw [contents_getElem, byteAt]
    rw [contents_length] at inside
    have total : i < max (length history) (off + bytes.length) := inside
    by_cases front : i < off
    · rw [if_neg (by omega), List.getElem_append_left (by omega), List.getElem_take]
      exact (kept i (by omega)).symm
    · rw [List.getElem_append_right (by omega)]
      by_cases back : i < off + bytes.length
      · rw [if_pos (by omega), List.getElem_append_left (by omega),
          List.getD_eq_getElem bytes 0 (by omega)]
        simp only [taken]
      · rw [if_neg (by omega), List.getElem_append_right (by omega), List.getElem_drop,
          kept _ (by omega)]
        congr 1
        omega

end FileHistory
