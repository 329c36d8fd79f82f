import Mathlib

set_option autoImplicit false

/- Trees that are stored twice over: every node knows its parent, and every directory knows its
nodes by name. -/

variable {ι κ : Type}

/-- A node is a directory or not and has a parent; a name in a directory stands for a node. -/
structure NameTree (ι κ : Type) where
  node : ι → Option (Bool × ι)
  entry : ι → κ → Option ι

namespace NameTree

@[ext] theorem ext {t u : NameTree ι κ} (node : ∀ i, t.node i = u.node i)
    (entry : ∀ i k, t.entry i k = u.entry i k) : t = u := by
  obtain ⟨nodes, entries⟩ := t
  obtain ⟨nodes', entries'⟩ := u
  obtain rfl : nodes = nodes' := funext node
  obtain rfl : entries = entries' := funext fun i => funext (entry i)
  rfl

/-- Going from parent to parent leads to the root. -/
inductive Ascends (t : NameTree ι κ) (root : ι) : ι → Prop
  | root : Ascends t root root
  | up {i p : ι} {directory : Bool} :
      t.node i = some (directory, p) → Ascends t root p → Ascends t root i

/-- Going from name to name leads from the root to the node. -/
inductive Reaches (t : NameTree ι κ) (root : ι) : ι → Prop
  | root : Reaches t root root
  | down {i c : ι} {k : κ} : Reaches t root i → t.entry i k = some c → Reaches t root c

structure WellFormed (t : NameTree ι κ) (root : ι) : Prop where
  top : t.node root = some (true, root)
  parents : ∀ i directory p, t.node i = some (directory, p) → ∃ q, t.node p = some (true, q)
  names : ∀ i k c, t.entry i k = some c → c ≠ root ∧ ∃ directory, t.node c = some (directory, i)
  named : ∀ i directory p, t.node i = some (directory, p) → i ≠ root → ∃ k, t.entry p k = some i
  distinct : ∀ i k l c, t.entry i k = some c → t.entry i l = some c → k = l
  ascends : ∀ i, (t.node i).isSome → t.Ascends root i
  files : ∀ i p, t.node i = some (false, p) → ∀ k, t.entry i k = none

section Operations

variable [DecidableEq ι] [DecidableEq κ]

/-- The tree with a new node `c` under the name `k` in `p`. -/
def add (t : NameTree ι κ) (p : ι) (k : κ) (c : ι) (directory : Bool) : NameTree ι κ where
  node := fun i => if i = c then some (directory, p) else t.node i
  entry := fun i l => if i = p ∧ l = k then some c else t.entry i l

/-- The tree without the node `c`, whose name in `p` was `k`. -/
def remove (t : NameTree ι κ) (p : ι) (k : κ) (c : ι) : NameTree ι κ where
  node := fun i => if i = c then none else t.node i
  entry := fun i l => if i = p ∧ l = k then none else t.entry i l

end Operations

variable {t : NameTree ι κ} {root : ι}

section Single

variable [DecidableEq ι]

/-- The tree that has only a root. -/
def single (root : ι) : NameTree ι κ where
  node := fun i => if i = root then some (true, root) else none
  entry := fun _ _ => none

theorem single_node {i : ι} {value : Bool × ι}
    (found : (single root : NameTree ι κ).node i = some value) :
    i = root ∧ value = (true, root) := by
  by_cases here : i = root
  · exact ⟨here, Option.some.inj (found.symm.trans (if_pos here))⟩
  · cases (if_neg here).symm.trans found

theorem wellFormed_single (root : ι) : (single root : NameTree ι κ).WellFormed root where
  top := if_pos rfl
  parents := by
    intro i directory p found
    obtain ⟨-, same⟩ := single_node found
    exact ⟨root, if_pos (congrArg Prod.snd same)⟩
  names := fun i k c held => nomatch held
  named := fun i directory p found other => absurd (single_node found).1 other
  distinct := fun i k l c held => nomatch held
  ascends := by
    intro i present
    obtain ⟨value, found⟩ := Option.isSome_iff_exists.mp present
    rw [(single_node found).1]
    exact .root
  files := fun i p found k => rfl

end Single

namespace WellFormed

/-- Every node but the root has one name. -/
theorem unique (wf : t.WellFormed root) {i : ι} (present : (t.node i).isSome) (other : i ≠ root) :
    ∃! place : ι × κ, t.entry place.1 place.2 = some i := by
  obtain ⟨⟨directory, p⟩, found⟩ := Option.isSome_iff_exists.mp present
  obtain ⟨k, held⟩ := wf.named i directory p found other
  refine ⟨(p, k), held, ?_⟩
  rintro ⟨q, l⟩ again
  obtain ⟨-, again_directory, same⟩ := wf.names q l i again
  obtain rfl : p = q := congrArg Prod.snd (Option.some.inj (found.symm.trans same))
  rw [wf.distinct p k l i held again]

theorem entry_parent (wf : t.WellFormed root) {i c : ι} {k : κ} (held : t.entry i k = some c) :
    ∃ q, t.node i = some (true, q) := by
  obtain ⟨-, directory, found⟩ := wf.names i k c held
  exact wf.parents c directory i found

/-- The names lead back down the way that the parents lead up. -/
theorem reaches (wf : t.WellFormed root) {i : ι} (present : (t.node i).isSome) :
    t.Reaches root i := by
  have up := wf.ascends i present
  clear present
  induction up with
  | root => exact .root
  | @up i p directory found above ih =>
      by_cases top : i = root
      · rw [top]
        exact .root
      · obtain ⟨k, held⟩ := wf.named i directory p found top
        exact ih.down held

/-- What is not there has no names in it. -/
theorem entry_absent (wf : t.WellFormed root) {i : ι} (absent : t.node i = none) (k : κ) :
    t.entry i k = none := by
  rw [Option.eq_none_iff_forall_ne_some]
  intro c held
  obtain ⟨q, found⟩ := wf.entry_parent held
  rw [absent] at found
  cases found

variable [DecidableEq ι] [DecidableEq κ] {p c : ι} {k : κ}

section Add

variable {directory : Bool}

theorem add (wf : t.WellFormed root) (inside : ∃ q, t.node p = some (true, q))
    (free : t.node c = none) (unused : t.entry p k = none) :
    (t.add p k c directory).WellFormed root := by
  have kept : ∀ {i value}, t.node i = some value → (t.add p k c directory).node i = some value := by
    intro i value found
    have other : i ≠ c := by
      rintro rfl
      rw [free] at found
      cases found
    exact (if_neg other).trans found
  have fresh : (t.add p k c directory).node c = some (directory, p) := if_pos rfl
  have old : ∀ {i value}, (t.add p k c directory).node i = some value → i ≠ c →
      t.node i = some value := by
    intro i value found other
    exact (if_neg other).symm.trans found
  have climbs : ∀ i, t.Ascends root i → (t.add p k c directory).Ascends root i := by
    intro i ascent
    induction ascent with
    | root => exact .root
    | up found _ ih => exact .up (kept found) ih
  have still : ∀ {i l}, ¬ (i = p ∧ l = k) → (t.add p k c directory).entry i l = t.entry i l :=
    fun elsewhere => if_neg elsewhere
  obtain ⟨q, parent⟩ := inside
  constructor
  case top => exact kept wf.top
  case parents =>
    intro i kind r found
    by_cases here : i = c
    · subst here
      rw [fresh, Option.some.injEq, Prod.mk.injEq] at found
      exact ⟨q, found.2 ▸ kept parent⟩
    · obtain ⟨above, held⟩ := wf.parents i kind r (old found here)
      exact ⟨above, kept held⟩
  case names =>
    intro i l d held
    by_cases here : i = p ∧ l = k
    · obtain rfl : c = d := Option.some.inj ((if_pos here).symm.trans held)
      refine ⟨?_, directory, here.1 ▸ fresh⟩
      rintro rfl
      rw [wf.top] at free
      cases free
    · rw [still here] at held
      obtain ⟨other, kind, found⟩ := wf.names i l d held
      exact ⟨other, kind, kept found⟩
  case named =>
    intro i kind r found other
    by_cases here : i = c
    · subst here
      rw [fresh, Option.some.injEq, Prod.mk.injEq] at found
      exact ⟨k, if_pos ⟨found.2.symm, rfl⟩⟩
    · obtain ⟨l, held⟩ := wf.named i kind r (old found here) other
      refine ⟨l, ?_⟩
      rw [still]
      · exact held
      · rintro ⟨rfl, rfl⟩
        rw [unused] at held
        cases held
  case distinct =>
    -- the new node had no name before
    have nameless : ∀ i l, t.entry i l ≠ some c := by
      intro i l held
      obtain ⟨-, kind, found⟩ := wf.names i l c held
      rw [free] at found
      cases found
    intro i l m d first second
    by_cases here : i = p ∧ l = k
    · by_cases there : i = p ∧ m = k
      · exact here.2.trans there.2.symm
      · rw [still there] at second
        obtain rfl : c = d := Option.some.inj ((if_pos here).symm.trans first)
        exact absurd second (nameless i m)
    · by_cases there : i = p ∧ m = k
      · rw [still here] at first
        obtain rfl : c = d := Option.some.inj ((if_pos there).symm.trans second)
        exact absurd first (nameless i l)
      · rw [still here] at first
        rw [still there] at second
        exact wf.distinct i l m d first second
  case ascends =>
    intro i present
    by_cases here : i = c
    · subst here
      exact .up fresh (climbs p (wf.ascends p (by rw [parent]; rfl)))
    · obtain ⟨value, found⟩ := Option.isSome_iff_exists.mp present
      exact climbs i (wf.ascends i (by rw [old found here]; rfl))
  case files =>
    intro i r found l
    have elsewhere : ¬ (i = p ∧ l = k) := by
      rintro ⟨rfl, -⟩
      rw [kept parent] at found
      cases found
    rw [still elsewhere]
    by_cases here : i = c
    · subst here
      exact wf.entry_absent free l
    · exact wf.files i r (old found here) l

end Add

theorem remove (wf : t.WellFormed root) (held : t.entry p k = some c)
    (leaf : ∀ l, t.entry c l = none) : (t.remove p k c).WellFormed root := by
  obtain ⟨other, directory, found⟩ := wf.names p k c held
  have kept : ∀ {i}, i ≠ c → (t.remove p k c).node i = t.node i := fun elsewhere => if_neg elsewhere
  have old : ∀ {i value}, (t.remove p k c).node i = some value →
      i ≠ c ∧ t.node i = some value := by
    intro i value still
    by_cases here : i = c
    · cases (if_pos here).symm.trans still
    · exact ⟨here, (kept here).symm.trans still⟩
  have gone : ∀ {i l d}, (t.remove p k c).entry i l = some d →
      t.entry i l = some d ∧ d ≠ c := by
    intro i l d still
    by_cases here : i = p ∧ l = k
    · cases (if_pos here).symm.trans still
    · have same : t.entry i l = some d := (if_neg here).symm.trans still
      refine ⟨same, ?_⟩
      rintro rfl
      obtain ⟨-, kind, again⟩ := wf.names i l d same
      obtain rfl : p = i := congrArg Prod.snd (Option.some.inj (found.symm.trans again))
      exact here ⟨rfl, wf.distinct p l k d same held⟩
  -- no node hangs on the one that goes
  have childless : ∀ {i kind}, i ≠ root → t.node i ≠ some (kind, c) := by
    intro i kind below hangs
    obtain ⟨l, named⟩ := wf.named i kind c hangs below
    rw [leaf l] at named
    cases named
  have parent_kept : ∀ {i kind r}, t.node i = some (kind, r) → r ≠ c := by
    intro i kind r hangs same
    subst same
    by_cases highest : i = root
    · rw [highest, wf.top, Option.some.injEq, Prod.mk.injEq] at hangs
      exact other hangs.2.symm
    · exact childless highest hangs
  have climbs : ∀ i, t.Ascends root i → i ≠ c → (t.remove p k c).Ascends root i := by
    intro i ascent
    induction ascent with
    | root => exact fun _ => .root
    | up hangs _ ih => exact fun here => .up ((kept here).trans hangs) (ih (parent_kept hangs))
  constructor
  case top => exact (kept other.symm).trans wf.top
  case parents =>
    intro i kind r still
    obtain ⟨-, hangs⟩ := old still
    obtain ⟨above, up⟩ := wf.parents i kind r hangs
    exact ⟨above, (kept (parent_kept hangs)).trans up⟩
  case names =>
    intro i l d still
    obtain ⟨same, different⟩ := gone still
    obtain ⟨below, kind, hangs⟩ := wf.names i l d same
    exact ⟨below, kind, (kept different).trans hangs⟩
  case named =>
    intro i kind r still below
    obtain ⟨different, hangs⟩ := old still
    obtain ⟨l, named⟩ := wf.named i kind r hangs below
    refine ⟨l, (if_neg ?_).trans named⟩
    rintro ⟨rfl, rfl⟩
    exact different (Option.some.inj (named.symm.trans held))
  case distinct =>
    intro i l m d first second
    exact wf.distinct i l m d (gone first).1 (gone second).1
  case ascends =>
    intro i present
    obtain ⟨value, still⟩ := Option.isSome_iff_exists.mp present
    obtain ⟨different, hangs⟩ := old still
    exact climbs i (wf.ascends i (by rw [hangs]; rfl)) different
  case files =>
    intro i r still l
    have before := wf.files i r (old still).2 l
    by_cases here : i = p ∧ l = k
    · exact if_pos here
    · exact (if_neg here).trans before

end WellFormed

end NameTree
