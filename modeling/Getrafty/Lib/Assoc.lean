import Mathlib

set_option autoImplicit false

/- What the entries of an association list yield, when one of them is erased, replaced or
passed over. -/
namespace Assoc

variable {α γ : Type} {β : α → Type}

theorem filterMap_cons_perm (f : Sigma β → Option γ) (entry : Sigma β) (entries : List (Sigma β)) :
    (entry :: entries).filterMap f = (f entry).toList ++ entries.filterMap f := by
  cases yield : f entry with
  | none => rw [List.filterMap_cons_none yield]; rfl
  | some c => rw [List.filterMap_cons_some yield]; rfl

variable [DecidableEq α] {entries : List (Sigma β)} {a : α} {b : β a}

/-- The entry that a lookup finds, and the others. -/
theorem filterMap_kerase (f : Sigma β → Option γ) (held : entries.dlookup a = some b) :
    (entries.filterMap f).Perm ((f ⟨a, b⟩).toList ++ (entries.kerase a).filterMap f) := by
  induction entries with
  | nil => cases held
  | cons entry entries ih =>
      obtain ⟨key, value⟩ := entry
      by_cases same : a = key
      · subst same
        rw [List.dlookup_cons_eq, Option.some.injEq] at held
        have front : List.kerase a (⟨a, value⟩ :: entries) = entries :=
          List.kerase_cons_eq rfl
        rw [front, filterMap_cons_perm, held]
      · rw [List.dlookup_cons_ne _ _ same] at held
        rw [List.kerase_cons_ne same, filterMap_cons_perm, filterMap_cons_perm]
        exact ((ih held).append_left _).trans (List.perm_append_comm_assoc _ _ _)

theorem kreplace_cons_eq (value other : β a) :
    List.kreplace a other (⟨a, value⟩ :: entries) = ⟨a, other⟩ :: entries := by
  rw [List.kreplace, List.lookmap_cons_some _ _ (dif_pos rfl)]

theorem kreplace_cons_ne {key : α} (value : β key) (other : β a) (same : ¬ a = key) :
    List.kreplace a other (⟨key, value⟩ :: entries) =
      ⟨key, value⟩ :: List.kreplace a other entries := by
  rw [List.kreplace, List.lookmap_cons_none _ _ (dif_neg same)]

theorem mem_kreplace {other : β a} {entry : Sigma β} (member : entry ∈ entries.kreplace a other) :
    entry ∈ entries ∨ entry = ⟨a, other⟩ := by
  induction entries with
  | nil => cases member
  | cons front entries ih =>
      obtain ⟨key, value⟩ := front
      by_cases same : a = key
      · subst same
        rw [kreplace_cons_eq] at member
        rcases List.mem_cons.mp member with here | later
        · exact Or.inr here
        · exact Or.inl (List.mem_cons_of_mem _ later)
      · rw [kreplace_cons_ne value other same] at member
        rcases List.mem_cons.mp member with here | later
        · exact Or.inl (here ▸ List.mem_cons_self)
        · exact (ih later).imp_left (List.mem_cons_of_mem _)

theorem filterMap_kreplace (f : Sigma β → Option γ) {other : β a}
    (held : entries.dlookup a = some b) (alike : f ⟨a, other⟩ = f ⟨a, b⟩) :
    (entries.kreplace a other).filterMap f = entries.filterMap f := by
  induction entries with
  | nil => cases held
  | cons entry entries ih =>
      obtain ⟨key, value⟩ := entry
      by_cases same : a = key
      · subst same
        rw [List.dlookup_cons_eq, Option.some.injEq] at held
        rw [kreplace_cons_eq, filterMap_cons_perm, filterMap_cons_perm, alike, held]
      · rw [List.dlookup_cons_ne _ _ same] at held
        rw [kreplace_cons_ne value other same, filterMap_cons_perm, filterMap_cons_perm, ih held]

/-- A function that passes over one key and agrees on the others. -/
theorem filterMap_pass {f g : Sigma β → Option γ} (nodup : entries.NodupKeys)
    (held : entries.dlookup a = some b) (passes : g ⟨a, b⟩ = none)
    (agree : ∀ entry ∈ entries, entry.1 ≠ a → g entry = f entry) :
    (entries.filterMap f).Perm ((f ⟨a, b⟩).toList ++ entries.filterMap g) := by
  have rest : (entries.kerase a).filterMap g = (entries.kerase a).filterMap f := by
    refine List.filterMap_congr fun entry member => agree entry ?_ ?_
    · exact (List.kerase_sublist a entries).subset member
    · rintro rfl
      exact List.notMem_keys_kerase _ nodup (List.mem_keys_of_mem member)
  have found := filterMap_kerase g held
  rw [passes, Option.toList_none, List.nil_append, rest] at found
  exact (filterMap_kerase f held).trans (found.symm.append_left _)

end Assoc
