import Mathlib.Data.List.Dedup
import Mathlib.Data.List.Sort
import Mathlib.Data.String.Basic
import EmbeddedAlerts.Text.Encoding

/-!
# The order of texts

Texts are ordered letter by letter, as `str` is in Rust, where the order of the
code points is the order of the bytes.  For texts of one length the first
parts decide before the rest does (`append_lt_append_iff`), so hexadecimal
digits are in the order of their numbers (`hexFixed_lt_iff`) and stay in it
when the same mark is put in at the same place (`insert_lt_insert_iff`).

A list that is sorted and freed of duplicates is strictly increasing
(`increasing_dedup`), and by `List.Pairwise.eq_of_mem_iff` its elements determine it.
-/

namespace Text

/-! ### Texts of one length -/

section Lex

variable {α : Type} [LinearOrder α]

theorem append_lt_append_iff : ∀ {a b c d : List α}, a.length = b.length →
    (a ++ c < b ++ d ↔ a < b ∨ (a = b ∧ c < d)) := by
  intro a
  induction a with
  | nil =>
    intro b c d h
    obtain rfl : b = [] := List.length_eq_zero_iff.mp h.symm
    simp
  | cons x a ih =>
    intro b c d h
    cases b with
    | nil => cases h
    | cons y b =>
      have hlen : a.length = b.length := Nat.succ.inj h
      rw [List.cons_append, List.cons_append, List.cons_lt_cons_iff, List.cons_lt_cons_iff,
        ih hlen, List.cons.injEq]
      tauto

/-- The same letter at the same place changes nothing. -/
theorem insert_lt_insert_iff {a b c d : List α} (x : α) (h : a.length = b.length) :
    a ++ x :: c < b ++ x :: d ↔ a ++ c < b ++ d := by
  rw [append_lt_append_iff h, append_lt_append_iff h, List.cons_lt_cons_self]

end Lex

theorem hexDigit_lt_iff : ∀ m < 16, ∀ n < 16, hexDigit m < hexDigit n ↔ m < n := by decide

/-- **Hexadecimal digits are in the order of their numbers.** -/
theorem hexFixed_lt_iff : ∀ {w m n : ℕ}, m < 16 ^ w → n < 16 ^ w →
    (hexFixed w m < hexFixed w n ↔ m < n) := by
  intro w
  induction w with
  | zero =>
    intro m n hm hn
    simp at hm hn
    simp [hexFixed, hm, hn]
  | succ w ih =>
    intro m n hm hn
    rw [pow_succ] at hm hn
    have hdiv : hexFixed w (m / 16) = hexFixed w (n / 16) ↔ m / 16 = n / 16 :=
      ⟨hexFixed_inj (by omega) (by omega), fun h => by rw [h]⟩
    rw [hexFixed, hexFixed, append_lt_append_iff (by simp), ih (by omega) (by omega), hdiv,
      List.cons_lt_cons_iff, hexDigit_lt_iff _ (by omega) _ (by omega)]
    simp only [lt_self_iff_false, and_false, or_false]
    omega

/-! ### Strictly increasing lists -/

section Increasing

variable {α : Type} [LinearOrder α] {l : List α}

theorem increasing_of_nodup (hsorted : l.Pairwise (· ≤ ·)) (hnodup : l.Nodup) :
    l.Pairwise (· < ·) :=
  (hsorted.and hnodup).imp fun h => lt_of_le_of_ne h.1 h.2

theorem increasing_dedup (l : List α) : (l.insertionSort (· ≤ ·)).dedup.Pairwise (· < ·) :=
  increasing_of_nodup ((List.pairwise_insertionSort _ l).sublist (List.dedup_sublist _))
    (List.nodup_dedup _)

end Increasing

end Text
