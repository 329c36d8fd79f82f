import Mathlib

set_option autoImplicit false

/- Resources that are open, each in the hands of one owner, and a list that enters owners under
resources: nobody is entered under what he does not hold. -/

structure Custody (ι ρ φ : Type) where
  holds : ι → Option ρ
  opened : ρ → Prop
  listed : ρ → φ → ι → Prop

namespace Custody

variable {ι ρ φ : Type}

structure Sound (c : Custody ι ρ φ) : Prop where
  live : ∀ {owner r}, c.holds owner = some r → c.opened r
  apart : ∀ {owner other r}, c.holds owner = some r → c.holds other = some r → owner = other
  kept : ∀ {r}, c.opened r → ∃ owner, c.holds owner = some r
  entered : ∀ {r f owner}, c.listed r f owner → c.holds owner = some r

section Rules

variable {c next : Custody ι ρ φ} {owner : ι} {r : ρ}

/-- An owner may be entered under what he holds, and entries may be struck out. -/
theorem Sound.relist (sound : c.Sound) (holds : next.holds = c.holds)
    (opened : ∀ x, next.opened x ↔ c.opened x)
    (listed : ∀ x f k, next.listed x f k → c.listed x f k ∨ c.holds k = some x) : next.Sound where
  live held := by
    rw [holds] at held
    exact (opened _).mpr (sound.live held)
  apart first second := by
    rw [holds] at first second
    exact sound.apart first second
  kept open_ := by
    obtain ⟨owner, held⟩ := sound.kept ((opened _).mp open_)
    exact ⟨owner, by rw [holds, held]⟩
  entered entry := by
    rw [holds]
    exact (listed _ _ _ entry).elim sound.entered id

/-- What the only one who held it has no more, and nobody got, is lost if it is open. -/
theorem Sound.lost (sound : c.Sound) (held : c.holds owner = some r) (opened : next.opened r)
    (others : ∀ k, next.holds k = some r → k ≠ owner ∧ c.holds k = some r) : ¬ next.Sound := by
  intro after
  obtain ⟨k, kept⟩ := after.kept opened
  obtain ⟨apart, before⟩ := others k kept
  exact apart (sound.apart before held)

variable [DecidableEq ι]

theorem Sound.acquire (sound : c.Sound) (idle : c.holds owner = none) (fresh : ¬ c.opened r)
    (holds : next.holds = Function.update c.holds owner (some r))
    (opened : ∀ x, next.opened x ↔ x = r ∨ c.opened x)
    (listed : ∀ x f k, next.listed x f k → c.listed x f k ∨ k = owner ∧ x = r) : next.Sound := by
  have of_holds : ∀ {k x}, next.holds k = some x → k = owner ∧ x = r ∨ c.holds k = some x := by
    intro k x held
    rw [holds, Function.update_apply] at held
    split at held
    · rename_i same
      exact Or.inl ⟨same, (Option.some.inj held).symm⟩
    · exact Or.inr held
  have held_owner : next.holds owner = some r := by rw [holds, Function.update_self]
  have held_other : ∀ {k x}, c.holds k = some x → next.holds k = some x := by
    intro k x held
    have other : k ≠ owner := by
      intro same
      rw [same, idle] at held
      cases held
    rw [holds, Function.update_of_ne other, held]
  constructor
  · intro k x held
    rw [opened]
    exact (of_holds held).imp (fun new => new.2) sound.live
  · intro k other x first second
    rcases of_holds first with ⟨rfl, rfl⟩ | first <;>
      rcases of_holds second with ⟨rfl, new⟩ | second
    · rfl
    · exact absurd (sound.live second) fresh
    · rw [new] at first
      exact absurd (sound.live first) fresh
    · exact sound.apart first second
  · intro x open_
    rcases (opened x).mp open_ with rfl | before
    · exact ⟨owner, held_owner⟩
    · obtain ⟨k, held⟩ := sound.kept before
      exact ⟨k, held_other held⟩
  · intro x f k entry
    rcases listed x f k entry with before | ⟨rfl, rfl⟩
    · exact held_other (sound.entered before)
    · exact held_owner

theorem Sound.release (sound : c.Sound) (held : c.holds owner = some r)
    (holds : next.holds = Function.update c.holds owner none)
    (opened : ∀ x, next.opened x ↔ c.opened x ∧ x ≠ r)
    (listed : ∀ x f k, next.listed x f k → c.listed x f k ∧ x ≠ r) : next.Sound := by
  have of_holds : ∀ {k x}, next.holds k = some x → k ≠ owner ∧ c.holds k = some x := by
    intro k x after
    rw [holds, Function.update_apply] at after
    split at after
    · cases after
    · rename_i other
      exact ⟨other, after⟩
  have held_other : ∀ {k x}, c.holds k = some x → x ≠ r → next.holds k = some x := by
    intro k x before other
    have apart : k ≠ owner := by
      intro same
      rw [same, held] at before
      exact other (Option.some.inj before).symm
    rw [holds, Function.update_of_ne apart, before]
  constructor
  · intro k x after
    obtain ⟨other, before⟩ := of_holds after
    refine (opened x).mpr ⟨sound.live before, ?_⟩
    intro same
    rw [same] at before
    exact other (sound.apart before held)
  · intro k other x first second
    exact sound.apart (of_holds first).2 (of_holds second).2
  · intro x open_
    obtain ⟨before, other⟩ := (opened x).mp open_
    obtain ⟨k, kept⟩ := sound.kept before
    exact ⟨k, held_other kept other⟩
  · intro x f k entry
    obtain ⟨before, other⟩ := listed x f k entry
    exact held_other (sound.entered before) other

/-- A resource without entries changes hands. -/
theorem Sound.hand (sound : c.Sound) {heir : ι} (held : c.holds owner = some r)
    (idle : c.holds heir = none)
    (holds : next.holds = Function.update (Function.update c.holds owner none) heir (some r))
    (opened : ∀ x, next.opened x ↔ c.opened x)
    (listed : ∀ x f k, next.listed x f k → c.listed x f k ∧ x ≠ r) : next.Sound := by
  let between : Custody ι ρ φ :=
    { holds := Function.update c.holds owner none
      opened := fun x => c.opened x ∧ x ≠ r
      listed := next.listed }
  have released : between.Sound := sound.release held rfl (fun _ => Iff.rfl) listed
  have idle_between : between.holds heir = none := by
    show Function.update c.holds owner none heir = none
    rw [Function.update_apply]
    split
    · rfl
    · exact idle
  refine released.acquire (r := r) idle_between (fun open_ => open_.2 rfl) holds ?_
    (fun _ _ _ entry => Or.inl entry)
  intro x
  rw [opened]
  constructor
  · intro before
    exact (em (x = r)).imp id (fun other => ⟨before, other⟩)
  · rintro (rfl | ⟨before, -⟩)
    · exact sound.live held
    · exact before

end Rules

end Custody
