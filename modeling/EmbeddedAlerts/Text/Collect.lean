import Mathlib.Data.List.Basic
import Mathlib.Data.List.Infix

/-!
# Collecting elements of a list

Two loops that read a list from left to right and what they collect.

* `addNew key` keeps the first element of every key; run over a list it leaves what
  `List.eraseDupsBy` does (`foldl_addNew`).  `addCapped key n` also stops at `n`
  elements, and leaves the first `n` of these (`foldl_addCapped`): stopping early
  loses nothing.
* `runs p` are the maximal runs of consecutive elements with `p`.  A list splits at
  every element without it (`runs_append_cons`), which is all that a loop that
  closes a run at such an element needs to know.
-/

namespace Text

/-! ### First occurrences -/

section First

variable {α κ : Type} [DecidableEq κ] (key : α → κ)

/-- Add an element, unless one with its key is there. -/
def addNew (out : List α) (a : α) : List α :=
  if key a ∈ out.map key then out else out ++ [a]

/-- Add an element, unless there are `n` or one with its key is there. -/
def addCapped (n : ℕ) (out : List α) (a : α) : List α :=
  if n ≤ out.length then out else addNew key out a

/-- The first element of every key. -/
def firstBy (l : List α) : List α := l.eraseDupsBy fun a b => key a == key b

variable {key}

theorem prefix_addNew (out : List α) (a : α) : out <+: addNew key out a := by
  rw [addNew]
  split_ifs
  · exact List.prefix_rfl
  · exact List.prefix_append out [a]

theorem length_addNew_le (out : List α) (a : α) :
    (addNew key out a).length ≤ out.length + 1 := by
  rw [addNew]
  split_ifs
  · omega
  · rw [List.length_append, List.length_singleton]

theorem prefix_foldl_addNew (l : List α) : ∀ out : List α, out <+: l.foldl (addNew key) out := by
  induction l with
  | nil => exact fun out => List.prefix_rfl
  | cons a l ih => exact fun out => (prefix_addNew out a).trans (ih _)

/-- What is added after `out` are the first elements of the keys not in it. -/
theorem foldl_addNew_append (l : List α) : ∀ out : List α, l.foldl (addNew key) out =
    out ++ firstBy key (l.filter fun a => decide (key a ∉ out.map key)) := by
  induction l with
  | nil =>
    intro out
    rw [List.foldl_nil, List.filter_nil, firstBy, List.eraseDupsBy_nil, List.append_nil]
  | cons a l ih =>
    intro out
    rw [List.foldl_cons, ih, addNew]
    by_cases ha : key a ∈ out.map key
    · rw [if_pos ha, List.filter_cons, if_neg (by simpa using ha)]
    · have hfilter : (l.filter fun b => decide (key b ∉ (out ++ [a]).map key)) =
          (l.filter fun b => decide (key b ∉ out.map key)).filter
            fun b => (key b == key a) = false := by
        rw [List.filter_filter]
        refine List.filter_congr fun b _ => ?_
        simp only [List.map_append, List.map_cons, List.map_nil, List.mem_append,
          List.mem_singleton, not_or, beq_eq_false_iff_ne, ne_eq, Bool.decide_and]
        exact Bool.and_comm _ _
      rw [if_neg ha, List.filter_cons, if_pos (by simpa using ha), firstBy, firstBy,
        List.eraseDupsBy_cons, hfilter, List.append_assoc, List.singleton_append]

/-- **Adding what is new leaves the first element of every key.** -/
theorem foldl_addNew (l : List α) : l.foldl (addNew key) [] = firstBy key l := by
  rw [foldl_addNew_append]
  simp

theorem foldl_addCapped_of_full {n : ℕ} {out : List α} (h : n ≤ out.length) (l : List α) :
    l.foldl (addCapped key n) out = out := by
  induction l with
  | nil => rfl
  | cons a l ih => rw [List.foldl_cons, addCapped, if_pos h, ih]

theorem take_of_prefix {n : ℕ} {out l : List α} (hlen : out.length = n) (h : out <+: l) :
    l.take n = out := by
  obtain ⟨t, rfl⟩ := h
  rw [← hlen, List.take_left]

/-- **Stopping at `n` leaves the first `n`** of what the whole loop would leave. -/
theorem foldl_addCapped {n : ℕ} (l : List α) : ∀ out : List α, out.length ≤ n →
    l.foldl (addCapped key n) out = (l.foldl (addNew key) out).take n := by
  induction l with
  | nil =>
    intro out h
    rw [List.foldl_nil, List.foldl_nil, List.take_of_length_le h]
  | cons a l ih =>
    intro out h
    by_cases hfull : n ≤ out.length
    · have hpre : out <+: l.foldl (addNew key) (addNew key out a) :=
        (prefix_addNew out a).trans (prefix_foldl_addNew l _)
      rw [foldl_addCapped_of_full hfull, List.foldl_cons,
        take_of_prefix (Nat.le_antisymm h hfull) hpre]
    · have hlen : (addNew key out a).length ≤ out.length + 1 := length_addNew_le out a
      rw [List.foldl_cons, List.foldl_cons, addCapped, if_neg hfull, ih _ (by omega)]

theorem firstBy_id {α : Type} [BEq α] [LawfulBEq α] [DecidableEq α] (l : List α) :
    firstBy id l = l.eraseDups := by
  have hbeq : (fun a b : α => decide (id a = id b)) = fun a b => a == b := by
    funext a b
    rw [id_eq, id_eq, beq_eq_decide]
  rw [List.eraseDups, ← hbeq]
  rfl

/-- The keys of the first elements are distinct. -/
theorem pairwise_foldl_addNew (l : List α) : ∀ out : List α,
    out.Pairwise (fun a b => key a ≠ key b) →
      (l.foldl (addNew key) out).Pairwise fun a b => key a ≠ key b := by
  induction l with
  | nil => exact fun out h => h
  | cons a l ih =>
    intro out h
    refine ih _ ?_
    rw [addNew]
    split_ifs with ha
    · exact h
    · refine List.pairwise_append.mpr ⟨h, List.pairwise_singleton _ _, fun b hb c hc => ?_⟩
      rw [List.mem_singleton.mp hc]
      intro hkey
      exact ha (hkey ▸ List.mem_map_of_mem hb)

theorem pairwise_firstBy (l : List α) : (firstBy key l).Pairwise fun a b => key a ≠ key b := by
  rw [← foldl_addNew]
  exact pairwise_foldl_addNew l [] List.Pairwise.nil

theorem mem_of_mem_foldl_addNew {l : List α} : ∀ {out : List α} {a : α},
    a ∈ l.foldl (addNew key) out → a ∈ out ∨ a ∈ l := by
  induction l with
  | nil => exact fun h => Or.inl h
  | cons b l ih =>
    intro out a h
    rcases ih h with h | h
    · rw [addNew] at h
      split_ifs at h
      · exact Or.inl h
      · rw [List.mem_append, List.mem_singleton] at h
        rcases h with h | rfl
        · exact Or.inl h
        · exact Or.inr List.mem_cons_self
    · exact Or.inr (List.mem_cons_of_mem b h)

theorem mem_of_mem_firstBy {l : List α} {a : α} (h : a ∈ firstBy key l) : a ∈ l := by
  rw [← foldl_addNew] at h
  rcases mem_of_mem_foldl_addNew h with h | h
  · cases h
  · exact h

end First

/-! ### Runs -/

section Runs

variable {α : Type} (p : α → Bool)

/-- The maximal runs of consecutive elements with `p`. -/
def runs (l : List α) : List (List α) :=
  (l.splitOnP fun a => !p a).filter fun r => !r.isEmpty

variable {p}

theorem ne_nil_of_mem_runs {l r : List α} (h : r ∈ runs p l) : r ≠ [] := by
  rw [runs, List.mem_filter] at h
  simpa using h.2

/-- An element without `p` ends a run and belongs to none. -/
theorem runs_append_cons {a : α} (ha : p a = false) (s t : List α) :
    runs p (s ++ a :: t) = runs p s ++ runs p t := by
  rw [runs, List.splitOnP_append_cons s t (by simp [ha]), List.filter_append]
  rfl

theorem runs_of_forall {s : List α} (h : ∀ a ∈ s, p a = true) :
    runs p s = if s = [] then [] else [s] := by
  rw [runs, List.splitOnP_eq_singleton fun a ha => by simp [h a ha]]
  by_cases hs : s = []
  · simp [hs]
  · simp [hs]

theorem sublist_of_mem_splitOnP {q : α → Bool} :
    ∀ {l r : List α}, r ∈ l.splitOnP q → r.Sublist l := by
  intro l
  induction l with
  | nil =>
    intro r hr
    rw [List.splitOnP_nil, List.mem_singleton] at hr
    rw [hr]
  | cons a l ih =>
    intro r hr
    rw [List.splitOnP_cons_eq_if_modifyHead] at hr
    by_cases ha : q a = true
    · rw [if_pos ha, List.mem_cons] at hr
      rcases hr with rfl | hr
      · exact List.nil_sublist _
      · exact (ih hr).cons a
    · rw [if_neg ha] at hr
      obtain ⟨s, ss, hss⟩ := List.exists_cons_of_ne_nil (List.splitOnP_ne_nil q l)
      have hmem : ∀ t ∈ s :: ss, t.Sublist l := fun t ht => ih (hss ▸ ht)
      rw [hss, List.modifyHead_cons, List.mem_cons] at hr
      rcases hr with rfl | hr
      · exact (hmem s List.mem_cons_self).cons_cons a
      · exact (hmem r (List.mem_cons_of_mem s hr)).cons a

theorem sublist_of_mem_runs {l r : List α} (h : r ∈ runs p l) : r.Sublist l := by
  rw [runs, List.mem_filter] at h
  exact sublist_of_mem_splitOnP h.1

end Runs

end Text
