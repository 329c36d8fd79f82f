import Getrafty.Lib.NameTree

set_option autoImplicit false

/- The paths of a tree that is stored by parents and names, and what becomes of them when a node is
added or removed. -/

variable {ι κ : Type}

namespace NameTree

/-- Follows a path down from a node. -/
def walk (t : NameTree ι κ) (i : ι) : List κ → Option ι
  | [] => some i
  | k :: ks => (t.entry i k).bind fun c => t.walk c ks

variable {t : NameTree ι κ} {root : ι}

@[simp] theorem walk_nil (i : ι) : t.walk i [] = some i := rfl

theorem walk_append (i : ι) (front back : List κ) :
    t.walk i (front ++ back) = (t.walk i front).bind fun c => t.walk c back := by
  induction front generalizing i with
  | nil => rfl
  | cons k front ih =>
      rw [List.cons_append, walk, walk, Option.bind_assoc]
      exact congrArg _ (funext ih)

theorem walk_snoc (i : ι) (path : List κ) (k : κ) :
    t.walk i (path ++ [k]) = (t.walk i path).bind fun c => t.entry c k := by
  have last : ∀ c, t.walk c [k] = t.entry c k := fun c => Option.bind_fun_some _
  rw [walk_append]
  exact congrArg _ (funext last)

namespace WellFormed

theorem walk_present (wf : t.WellFormed root) {path : List κ} {i : ι}
    (leads : t.walk root path = some i) : (t.node i).isSome := by
  induction path using List.reverseRecOn generalizing i with
  | nil =>
      obtain rfl : root = i := Option.some.inj leads
      rw [wf.top]
      rfl
  | append_singleton path k _ =>
      rw [walk_snoc, Option.bind_eq_some_iff] at leads
      obtain ⟨p, -, held⟩ := leads
      obtain ⟨-, directory, found⟩ := wf.names p k i held
      rw [found]
      rfl

/-- Every node has a path. -/
theorem exists_walk (wf : t.WellFormed root) {i : ι} (present : (t.node i).isSome) :
    ∃ path, t.walk root path = some i := by
  have down := wf.reaches present
  clear present
  induction down with
  | root => exact ⟨[], rfl⟩
  | @down i c k _ held ih =>
      obtain ⟨path, leads⟩ := ih
      refine ⟨path ++ [k], ?_⟩
      rw [walk_snoc, leads]
      exact held

/-- No path but the empty one leads to the root. -/
theorem walk_root (wf : t.WellFormed root) {path : List κ} (leads : t.walk root path = some root) :
    path = [] := by
  rcases List.eq_nil_or_concat path with none | ⟨front, k, rfl⟩
  · exact none
  · rw [List.concat_eq_append, walk_snoc, Option.bind_eq_some_iff] at leads
    obtain ⟨p, -, held⟩ := leads
    exact absurd rfl (wf.names p k root held).1

/-- And it has only one. -/
theorem walk_inj (wf : t.WellFormed root) {path other : List κ} {i : ι}
    (leads : t.walk root path = some i) (leads' : t.walk root other = some i) : path = other := by
  induction path using List.reverseRecOn generalizing other i with
  | nil =>
      obtain rfl : root = i := Option.some.inj leads
      exact (wf.walk_root leads').symm
  | append_singleton path k ih =>
      rcases List.eq_nil_or_concat other with rfl | ⟨front, l, rfl⟩
      · obtain rfl : root = i := Option.some.inj leads'
        exact wf.walk_root leads
      · rw [List.concat_eq_append, walk_snoc, Option.bind_eq_some_iff] at leads'
        rw [walk_snoc, Option.bind_eq_some_iff] at leads
        obtain ⟨p, toward, held⟩ := leads
        obtain ⟨q, toward', held'⟩ := leads'
        obtain ⟨-, directory, found⟩ := wf.names p k i held
        obtain ⟨-, directory', found'⟩ := wf.names q l i held'
        obtain rfl : p = q := congrArg Prod.snd (Option.some.inj (found.symm.trans found'))
        rw [List.concat_eq_append, ih toward toward', wf.distinct p k l i held held']

variable {p c : ι} {k : κ} {path : List κ}

/-- A place in the tree is a path. -/
theorem walk_place (wf : t.WellFormed root) {front : List κ} {i : ι} {l : κ}
    (toward : t.walk root front = some i) (leads : t.walk root path = some p) :
    (i = p ∧ l = k) ↔ front ++ [l] = path ++ [k] := by
  constructor
  · rintro ⟨rfl, rfl⟩
    rw [wf.walk_inj toward leads]
  · intro same
    obtain ⟨rfl, last⟩ := List.append_inj' same rfl
    exact ⟨Option.some.inj (toward.symm.trans leads), List.singleton_inj.mp last⟩

variable [DecidableEq ι] [DecidableEq κ]

/-- A new node has one new path, and all others lead where they did. -/
theorem walk_add (wf : t.WellFormed root) {directory : Bool} (free : t.node c = none)
    (unused : t.entry p k = none) (leads : t.walk root path = some p) (other : List κ) :
    (t.add p k c directory).walk root other =
      if other = path ++ [k] then some c else t.walk root other := by
  have apart : c ≠ p := by
    rintro rfl
    have present := wf.walk_present leads
    rw [free] at present
    cases present
  induction other using List.reverseRecOn with
  | nil => rw [if_neg (by simp), walk_nil, walk_nil]
  | append_singleton front l ih =>
      rw [walk_snoc, ih]
      by_cases through : front = path ++ [k]
      · -- nothing is in the new node yet
        have deeper : ¬ front ++ [l] = path ++ [k] := by
          rw [through]
          simp
        have nothing : (t.add p k c directory).entry c l = none :=
          (if_neg fun both => apart both.1).trans (wf.entry_absent free l)
        rw [if_pos through, if_neg deeper, Option.bind_some, nothing, walk_snoc, through, walk_snoc,
          leads, Option.bind_some, unused]
        rfl
      · rw [if_neg through, walk_snoc]
        cases toward : t.walk root front with
        | none =>
            have elsewhere : ¬ front ++ [l] = path ++ [k] := by
              intro same
              rw [(List.append_inj' same rfl).1, leads] at toward
              cases toward
            rw [if_neg elsewhere]
            rfl
        | some i =>
            rw [Option.bind_some, Option.bind_some]
            exact if_congr (wf.walk_place toward leads) rfl rfl

/-- The path of the node is gone, and all others lead where they did. -/
theorem walk_remove (wf : t.WellFormed root) (held : t.entry p k = some c)
    (leaf : ∀ l, t.entry c l = none) (leads : t.walk root path = some p) (other : List κ) :
    (t.remove p k c).walk root other =
      if other = path ++ [k] then none else t.walk root other := by
  induction other using List.reverseRecOn with
  | nil => rw [if_neg (by simp), walk_nil, walk_nil]
  | append_singleton front l ih =>
      rw [walk_snoc, ih]
      by_cases through : front = path ++ [k]
      · have deeper : ¬ front ++ [l] = path ++ [k] := by
          rw [through]
          simp
        rw [if_pos through, if_neg deeper, walk_snoc, through, walk_snoc, leads, Option.bind_some,
          held, Option.bind_some, leaf l]
        rfl
      · rw [if_neg through, walk_snoc]
        cases toward : t.walk root front with
        | none =>
            rw [Option.bind_none, Option.bind_none, ite_self]
        | some i =>
            rw [Option.bind_some, Option.bind_some]
            exact if_congr (wf.walk_place toward leads) rfl rfl

end WellFormed

end NameTree
