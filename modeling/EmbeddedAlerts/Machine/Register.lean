import EmbeddedAlerts.Machine.Run
import Mathlib.Data.List.Sort

/-!
# Registers

A register is a book of records that are only ever added.  A reader sees some of the
records: it can ask for the one with a key (`get`) and for the first ones in some order
(`list`).

* `get_of_mem_list`: what is listed is what is got.
* `list_first`, `mem_list_iff`: the list are the first records that the reader sees, and
  all of them if there are not too many.
* `views`: both ways of reading agree, if no two records have one key.
* `book_final`: **if every action adds the record that its output reports, the outputs of a
  run alone tell what is in the book.**
-/

namespace Register

variable {ρ κ : Type} [DecidableEq κ] {sees : ρ → Bool} {key : ρ → κ} {k : κ}
  {book : List ρ} {r q : ρ}

/-- The record with a key, if it is seen. -/
def get (sees : ρ → Bool) (key : ρ → κ) (k : κ) (book : List ρ) : Option ρ :=
  book.find? fun r => sees r && decide (key r = k)

/-- The first records that are seen. -/
def list (sees : ρ → Bool) (le : ρ → ρ → Prop) [DecidableRel le] (limit : ℕ) (book : List ρ) :
    List ρ :=
  ((book.filter sees).insertionSort le).take limit

/-! ### One record -/

theorem get_eq_some_iff (hkeys : (book.map key).Nodup) :
    get sees key k book = some r ↔ r ∈ book ∧ sees r = true ∧ key r = k := by
  constructor
  · intro h
    have hfound := List.find?_some h
    rw [Bool.and_eq_true, decide_eq_true_iff] at hfound
    exact ⟨List.mem_of_find?_eq_some h, hfound⟩
  · rintro ⟨hr, hsees, rfl⟩
    cases hget : get sees key (key r) book with
    | none =>
      have hnone := List.find?_eq_none.mp hget r hr
      rw [hsees, decide_eq_true rfl] at hnone
      exact absurd rfl hnone
    | some q =>
      have hfound := List.find?_some hget
      rw [Bool.and_eq_true, decide_eq_true_iff] at hfound
      rw [List.inj_on_of_nodup_map hkeys (List.mem_of_find?_eq_some hget) hr hfound.2]

/-! ### The first records -/

section List

variable {le : ρ → ρ → Prop} [DecidableRel le] {limit : ℕ}

theorem mem_of_mem_list (h : r ∈ list sees le limit book) : r ∈ book ∧ sees r = true := by
  have hsorted := List.mem_of_mem_take h
  rw [List.mem_insertionSort, List.mem_filter] at hsorted
  exact hsorted

/-- **What is listed is what is got.** -/
theorem get_of_mem_list (hkeys : (book.map key).Nodup) (h : r ∈ list sees le limit book) :
    get sees key (key r) book = some r := by
  obtain ⟨hr, hsees⟩ := mem_of_mem_list h
  exact (get_eq_some_iff hkeys).mpr ⟨hr, hsees, rfl⟩

/-- If there are not too many, all are listed. -/
theorem mem_list_iff (hfew : (book.filter sees).length ≤ limit) :
    r ∈ list sees le limit book ↔ r ∈ book ∧ sees r = true := by
  have hlength := List.length_insertionSort le (book.filter sees)
  rw [list, List.take_of_length_le (by omega), List.mem_insertionSort, List.mem_filter]

variable [Std.Total le] [IsTrans ρ le]

theorem list_sorted : (list sees le limit book).Pairwise le :=
  (List.pairwise_insertionSort le _).sublist (List.take_sublist _ _)

/-- **What is not listed comes later.** -/
theorem list_first (hr : r ∈ list sees le limit book) (hq : q ∈ book) (hsees : sees q = true)
    (hnot : q ∉ list sees le limit book) : le r q := by
  have hsorted := List.pairwise_insertionSort le (book.filter sees)
  rw [← List.take_append_drop limit (List.insertionSort le (book.filter sees)),
    List.pairwise_append] at hsorted
  refine hsorted.2.2 r hr q ?_
  have hmem : q ∈ List.insertionSort le (book.filter sees) :=
    List.mem_insertionSort le |>.mpr (List.mem_filter.mpr ⟨hq, hsees⟩)
  rw [← List.take_append_drop limit (List.insertionSort le (book.filter sees)),
    List.mem_append] at hmem
  exact hmem.resolve_left hnot

/-- The list and the single records agree: a record that is seen is got by its key, what is
listed is seen, and what is seen and not listed comes after a full list. -/
structure Views (sees : ρ → Bool) (key : ρ → κ) (le : ρ → ρ → Prop) [DecidableRel le] (limit : ℕ)
    (book : List ρ) : Prop where
  got : ∀ r ∈ book, sees r = true → get sees key (key r) book = some r
  listed : ∀ r ∈ list sees le limit book, get sees key (key r) book = some r
  sorted : (list sees le limit book).Pairwise le
  rest : ∀ q ∈ book, sees q = true → q ∉ list sees le limit book →
    (list sees le limit book).length = limit ∧ ∀ r ∈ list sees le limit book, le r q

theorem views (hkeys : (book.map key).Nodup) : Views sees key le limit book where
  got r hr hsees := (get_eq_some_iff hkeys).mpr ⟨hr, hsees, rfl⟩
  listed r hr := get_of_mem_list hkeys hr
  sorted := list_sorted
  rest q hq hsees hnot := by
    refine ⟨?_, fun r hr => list_first hr hq hsees hnot⟩
    have hmany : ¬ (book.filter sees).length ≤ limit := fun hfew =>
      hnot ((mem_list_iff hfew).mpr ⟨hq, hsees⟩)
    have hlength := List.length_insertionSort le (book.filter sees)
    rw [list, List.length_take]
    omega

end List

/-! ### Runs -/

/-- **The book is what the outputs report.** -/
theorem book_final {σ α ο : Type} {m : σ → α → ο × σ} {I : σ → Prop} {book : σ → List ρ}
    {made : ο → Option ρ} (hstep : ∀ s a, I s → I (m s a).2 ∧
      book (m s a).2 = book s ++ (made (m s a).1).toList) (as : List α) : ∀ {s : σ}, I s →
    book (Machine.final m s as)
      = book s ++ (Machine.outputs m (fun _ => true) s as).filterMap made := by
  induction as with
  | nil => exact fun _ => (List.append_nil _).symm
  | cons a as ih =>
    intro s hs
    obtain ⟨hnext, hbook⟩ := hstep s a hs
    rw [Machine.final_cons, ih hnext, hbook, Machine.outputs_cons_of rfl, List.append_assoc]
    congr 1
    cases hmade : made (m s a).1 with
    | none => rw [List.filterMap_cons_none hmade, Option.toList_none, List.nil_append]
    | some r =>
      rw [List.filterMap_cons_some hmade, Option.toList_some, List.singleton_append]

end Register
