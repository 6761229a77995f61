import Mathlib.Logic.Relation
import Mathlib.Data.List.Basic

/-!
# Rows that point back

A table that only grows is a list, and what was added last stands last.  `Linked R root`
says of such a list that every row is a root or points, by `R`, to a row before it.
Then every chain of pointers ends in a root (`Linked.chain`).
-/

namespace Sql

open Relation

variable {α : Type}

/-- Where a row stands in a list that has just grown. -/
theorem snoc_eq_append_cons {l before after : List α} {a v : α} (h : l ++ [a] = before ++ v :: after) :
    (l = before ∧ a = v ∧ after = []) ∨ ∃ rest, after = rest ++ [a] ∧ l = before ++ v :: rest := by
  rcases List.eq_nil_or_concat after with rfl | ⟨rest, last, rfl⟩
  · obtain ⟨hl, ha⟩ := List.append_inj' h rfl
    exact Or.inl ⟨hl, List.singleton_inj.mp ha, rfl⟩
  · rw [List.concat_eq_append, ← List.cons_append, ← List.append_assoc] at h
    obtain ⟨hl, ha⟩ := List.append_inj' h rfl
    rw [List.concat_eq_append, List.singleton_inj.mp ha]
    exact Or.inr ⟨rest, rfl, hl⟩

/-- A list built row by row, where every row is a root or points to a row before it. -/
inductive Linked (R : α → α → Prop) (root : α → Prop) : List α → Prop
  | nil : Linked R root []
  | snoc {l : List α} {v : α} (h : Linked R root l) (hv : root v ∨ ∃ w ∈ l, R v w) :
      Linked R root (l ++ [v])

variable {R : α → α → Prop} {root : α → Prop} {l : List α}

/-- A row points to a row that stands before it. -/
theorem Linked.back (h : Linked R root l) : ∀ {before after : List α} {v : α},
    l = before ++ v :: after → root v ∨ ∃ w ∈ before, R v w := by
  induction h with
  | nil =>
    intro before after v hl
    simp at hl
  | snoc _ hv ih =>
    intro before after v hl
    rcases snoc_eq_append_cons hl with ⟨rfl, rfl, -⟩ | ⟨rest, -, hl⟩
    · exact hv
    · exact ih hl

/-- **Every chain ends in a root.** -/
theorem Linked.chain (h : Linked R root l) :
    ∀ v ∈ l, ∃ r ∈ l, root r ∧ ReflTransGen (fun a b => b ∈ l ∧ R a b) v r := by
  induction h with
  | nil =>
    intro v hv
    cases hv
  | @snoc l v _ hv ih =>
    have hold : ∀ w ∈ l, ∃ r ∈ l ++ [v], root r ∧
        ReflTransGen (fun a b => b ∈ l ++ [v] ∧ R a b) w r := by
      intro w hw
      obtain ⟨r, hr, hroot, hchain⟩ := ih w hw
      refine ⟨r, List.mem_append_left _ hr, hroot, ReflTransGen.mono ?_ _ _ hchain⟩
      exact fun a b hab => ⟨List.mem_append_left _ hab.1, hab.2⟩
    intro w hw
    rcases List.mem_append.mp hw with hw | hw
    · exact hold w hw
    · obtain rfl := List.mem_singleton.mp hw
      rcases hv with hroot | ⟨u, hu, hpoint⟩
      · exact ⟨w, by simp, hroot, .refl⟩
      · obtain ⟨r, hr, hroot, hchain⟩ := hold u hu
        exact ⟨r, hr, hroot, .head ⟨List.mem_append_left _ hu, hpoint⟩ hchain⟩

end Sql
