import Mathlib.Data.List.Sort
import Mathlib.Data.List.Infix
import Mathlib.Tactic.Linarith

/-!
# Keyset pagination

`ORDER BY key LIMIT n` over rows with different keys, and paging through such a
result with the key of the last row as a cursor.

* `Increasing.ext`: rows in the order of their keys are determined by which they
  are.
* `remaining`: what is still to come after a cursor, in order.  `page` is its
  first `limit` rows, `next` the cursor for the next page if there are more.
* `remaining_next`: the next cursor leaves exactly what the page has not returned.
* `Walk`: following `next` from page to page, while rows are added.
  `Walk.increasing`, `Walk.complete` and `Walk.length_eq` are what such a walk
  returns, and `exists_walk` that it ends.
-/

namespace Sql

section Order

variable {α κ : Type} [LinearOrder κ] {key : α → κ} {l m : List α}

/-- No two rows have the same key. -/
def Distinct {α κ : Type} (key : α → κ) (l : List α) : Prop := l.Pairwise fun a b => key a ≠ key b

/-- Of rows with different keys, two with one key are the same. -/
theorem Distinct.eq_of_key {α κ : Type} {key : α → κ} {l : List α} (h : Distinct key l) {a b : α}
    (ha : a ∈ l) (hb : b ∈ l) (hkey : key a = key b) : a = b :=
  List.inj_on_of_nodup_map (List.pairwise_map.mpr h) ha hb hkey

/-- Of rows with different keys, at most one has a given key. -/
theorem Distinct.pairwise_filter {α κ : Type} {key : α → κ} {l : List α} (h : Distinct key l)
    {p : α → Bool} {c : κ} (hp : ∀ a, p a = true → key a = c) {R : α → α → Prop} :
    (l.filter p).Pairwise R := by
  refine (h.sublist List.filter_sublist).imp_of_mem fun {a b} ha hb hne => ?_
  have hac := hp a (List.mem_filter.mp ha).2
  have hbc := hp b (List.mem_filter.mp hb).2
  exact absurd (hac.trans hbc.symm) hne

/-- The rows are in the order of their keys. -/
def Increasing (key : α → κ) (l : List α) : Prop := l.Pairwise fun a b => key a < key b

theorem Increasing.nodup (h : Increasing key l) : l.Nodup :=
  h.imp fun hlt heq => absurd hlt (by rw [heq]; exact lt_irrefl _)

/-- **Rows in order are determined by which they are.** -/
theorem Increasing.ext (hl : Increasing key l) (hm : Increasing key m) (h : ∀ a, a ∈ l ↔ a ∈ m) :
    l = m := by
  have hperm : l.Perm m := (List.perm_ext_iff_of_nodup hl.nodup hm.nodup).mpr h
  exact hperm.eq_of_pairwise (fun _ _ _ _ hab hba => absurd hab (lt_asymm hba)) hl hm

/-- A list in order is split by the keys of its parts. -/
theorem Increasing.take_lt_drop (h : Increasing key l) {n : ℕ} {a b : α} (ha : a ∈ l.take n)
    (hb : b ∈ l.drop n) : key a < key b := by
  rw [Increasing, ← List.take_append_drop n l, List.pairwise_append] at h
  exact h.2.2 a ha b hb

theorem Increasing.take (h : Increasing key l) (n : ℕ) : Increasing key (l.take n) :=
  h.sublist (List.take_sublist n l)

/-- **Rows that are added push others back**: a row among the first `n` of a list in
order is among the first `n` of any part of it. -/
theorem Increasing.mem_take_of_subset (hl : Increasing key l) (hm : Increasing key m)
    (hsub : l ⊆ m) {n : ℕ} {a : α} (ha : a ∈ l) (hfirst : a ∈ m.take n) : a ∈ l.take n := by
  by_contra hnot
  have hdrop : a ∈ l.drop n := by
    rw [← List.take_append_drop n l] at ha
    exact (List.mem_append.mp ha).resolve_left hnot
  -- everything in front of `a` is among the first `n` as well
  have hfront : l.take n ++ [a] ⊆ m.take n := by
    intro b hb
    rcases List.mem_append.mp hb with hb | hb
    · have hbm : b ∈ m.take n ++ m.drop n := by
        rw [List.take_append_drop]
        exact hsub (List.mem_of_mem_take hb)
      refine (List.mem_append.mp hbm).resolve_right fun hlate => ?_
      exact absurd (hl.take_lt_drop hb hdrop) (lt_asymm (hm.take_lt_drop hfirst hlate))
    · rw [List.mem_singleton.mp hb]
      exact hfirst
  have hnodup : (l.take n ++ [a]).Nodup := by
    refine List.Nodup.append (hl.take n).nodup (List.nodup_singleton a) ?_
    rw [List.disjoint_singleton]
    exact hnot
  have hlength := (List.subperm_of_subset hnodup hfront).length_le
  have hlong := List.length_pos_of_mem hdrop
  rw [List.length_append, List.length_take, List.length_take, List.length_singleton] at hlength
  rw [List.length_drop] at hlong
  omega

theorem Increasing.le_getLast (h : Increasing key l) {b : α} (hb : l.getLast? = some b) {a : α}
    (ha : a ∈ l) : key a ≤ key b := by
  obtain ⟨front, rfl⟩ := List.getLast?_eq_some_iff.mp hb
  rcases List.mem_append.mp ha with ha | ha
  · exact ((List.pairwise_append.mp h).2.2 a ha b (List.mem_singleton_self b)).le
  · rw [List.mem_singleton.mp ha]

/-- `ORDER BY key`. -/
def sorted (key : α → κ) (l : List α) : List α := l.insertionSort fun a b => key a ≤ key b

@[simp] theorem mem_sorted {a : α} : a ∈ sorted key l ↔ a ∈ l := List.mem_insertionSort _

@[simp] theorem length_sorted : (sorted key l).length = l.length := List.length_insertionSort _ _

/-- An `ORDER BY` that compares keys. -/
theorem insertionSort_eq_sorted {r : α → α → Prop} [DecidableRel r]
    (hr : ∀ a b, r a b ↔ key a ≤ key b) (l : List α) : l.insertionSort r = sorted key l := by
  obtain rfl : r = fun a b => key a ≤ key b := by
    funext a b
    exact propext (hr a b)
  unfold sorted
  congr

theorem increasing_sorted (h : Distinct key l) : Increasing key (sorted key l) := by
  have : Std.Total fun a b : α => key a ≤ key b := ⟨fun a b => le_total (key a) (key b)⟩
  have : IsTrans α fun a b => key a ≤ key b := ⟨fun _ _ _ hab hbc => hab.trans hbc⟩
  have hle : (sorted key l).Pairwise fun a b => key a ≤ key b :=
    List.pairwise_insertionSort _ l
  have hne : (sorted key l).Pairwise fun a b => key a ≠ key b :=
    (List.perm_insertionSort _ l).symm.pairwise h fun hab => hab.symm
  exact hle.imp₂ (fun _ _ hle hne => lt_of_le_of_ne hle hne) hne

end Order

/-! ### Pages -/

section Page

variable {α κ : Type} [LinearOrder κ]

/-- The row comes after the cursor. -/
def After (key : α → κ) (cursor : Option κ) (a : α) : Prop := ∀ c ∈ cursor, c < key a

instance (key : α → κ) (cursor : Option κ) (a : α) : Decidable (After key cursor a) := by
  unfold After
  infer_instance

/-- What is still to come after the cursor. -/
def remaining (key : α → κ) (cursor : Option κ) (items : List α) : List α :=
  sorted key (items.filter fun a => decide (After key cursor a))

/-- The page after the cursor. -/
def page (key : α → κ) (limit : ℕ) (cursor : Option κ) (items : List α) : List α :=
  (remaining key cursor items).take limit

/-- The cursor for the page after that, if there is one. -/
def next (key : α → κ) (limit : ℕ) (cursor : Option κ) (items : List α) : Option κ :=
  if limit < (remaining key cursor items).length then
    (page key limit cursor items).getLast?.map key
  else none

variable {key : α → κ} {limit : ℕ} {cursor : Option κ} {items : List α} {c : κ} {a : α}

@[simp] theorem mem_remaining : a ∈ remaining key cursor items ↔ a ∈ items ∧ After key cursor a := by
  simp [remaining]

theorem increasing_remaining (h : Distinct key items) : Increasing key (remaining key cursor items) :=
  increasing_sorted (h.sublist List.filter_sublist)

theorem perm_remaining : (remaining key cursor items).Perm
    (items.filter fun a => decide (After key cursor a)) :=
  List.perm_insertionSort _ _

theorem length_page :
    (page key limit cursor items).length = min limit (remaining key cursor items).length :=
  List.length_take

theorem page_subset : page key limit cursor items ⊆ remaining key cursor items :=
  List.take_subset _ _

/-- **There is no next cursor exactly if nothing is left.** -/
theorem next_eq_none (hlimit : 0 < limit) :
    next key limit cursor items = none ↔ (remaining key cursor items).length ≤ limit := by
  unfold next
  by_cases hmore : limit < (remaining key cursor items).length
  · rw [if_pos hmore, Option.map_eq_none_iff, List.getLast?_eq_none_iff]
    constructor
    · intro hnil
      have hlength := congrArg List.length hnil
      rw [length_page, List.length_nil] at hlength
      omega
    · intro hle
      omega
  · rw [if_neg hmore]
    exact ⟨fun _ => by omega, fun _ => rfl⟩

theorem next_eq_some (h : next key limit cursor items = some c) :
    limit < (remaining key cursor items).length ∧
      ∃ a, (page key limit cursor items).getLast? = some a ∧ key a = c := by
  unfold next at h
  by_cases hmore : limit < (remaining key cursor items).length
  · rw [if_pos hmore] at h
    exact ⟨hmore, Option.map_eq_some_iff.mp h⟩
  · rw [if_neg hmore] at h
    cases h

/-- The rows of a page are not after the next cursor; those that are left are. -/
theorem not_after_next_iff (hd : Distinct key items) (h : next key limit cursor items = some c)
    (ha : a ∈ remaining key cursor items) :
    a ∈ page key limit cursor items ↔ ¬ c < key a := by
  obtain ⟨-, b, hlast, rfl⟩ := next_eq_some h
  have hincreasing : Increasing key (remaining key cursor items) := increasing_remaining hd
  constructor
  · intro hpage
    exact not_lt.mpr ((hincreasing.take limit).le_getLast hlast hpage)
  · intro hle
    have hsplit : a ∈ (remaining key cursor items).take limit ++
        (remaining key cursor items).drop limit := by rwa [List.take_append_drop]
    rcases List.mem_append.mp hsplit with htake | hdrop
    · exact htake
    · exact absurd (hincreasing.take_lt_drop (List.mem_of_mem_getLast? hlast) hdrop) hle

/-- The next cursor is behind the one before. -/
theorem After.next (h : next key limit cursor items = some c) (hc : c < key a ∨ c = key a) :
    After key cursor a := by
  obtain ⟨-, b, hlast, rfl⟩ := next_eq_some h
  have hb := (mem_remaining.mp (page_subset (List.mem_of_mem_getLast? hlast))).2
  intro d hd
  have hdb := hb d hd
  rcases hc with hlt | heq
  · exact hdb.trans hlt
  · rwa [heq] at hdb

/-- **The next cursor leaves exactly what the page has not returned.** -/
theorem remaining_next (hd : Distinct key items) (h : next key limit cursor items = some c) :
    remaining key (some c) items = (remaining key cursor items).drop limit := by
  have hincreasing : Increasing key (remaining key cursor items) := increasing_remaining hd
  refine Increasing.ext (increasing_remaining hd)
    (hincreasing.sublist (List.drop_sublist limit _)) fun a => ?_
  constructor
  · intro ha
    obtain ⟨hitem, hafter⟩ := mem_remaining.mp ha
    have hlt : c < key a := hafter c rfl
    have hrest : a ∈ remaining key cursor items :=
      mem_remaining.mpr ⟨hitem, After.next h (Or.inl hlt)⟩
    have hnot : a ∉ page key limit cursor items := by
      rw [not_after_next_iff hd h hrest]
      exact fun hn => hn hlt
    have hsplit : a ∈ (remaining key cursor items).take limit ++
        (remaining key cursor items).drop limit := by rwa [List.take_append_drop]
    rcases List.mem_append.mp hsplit with htake | hdrop
    · exact absurd htake hnot
    · exact hdrop
  · intro ha
    have hrest : a ∈ remaining key cursor items := List.drop_subset _ _ ha
    refine mem_remaining.mpr ⟨(mem_remaining.mp hrest).1, ?_⟩
    rintro d hd'
    obtain rfl : c = d := Option.some.inj hd'
    obtain ⟨-, b, hlast, rfl⟩ := next_eq_some h
    exact hincreasing.take_lt_drop (List.mem_of_mem_getLast? hlast) ha

end Page

/-! ### Walks -/

section Walk

variable {α κ : Type} [LinearOrder κ]

/-- Page after page, each with the cursor of the one before: the rows there are at
each page, the pages, and the cursor of the last. -/
inductive Walk (key : α → κ) (limit : ℕ) :
    Option κ → List (List α) → List (List α) → Option κ → Prop
  | last (cursor : Option κ) (items : List α) :
      Walk key limit cursor [items] [page key limit cursor items] (next key limit cursor items)
  | more {cursor : Option κ} {items : List α} {c : κ} {stores pages : List (List α)}
      {final : Option κ} (cursor_eq : next key limit cursor items = some c)
      (rest : Walk key limit (some c) stores pages final) :
      Walk key limit cursor (items :: stores) (page key limit cursor items :: pages) final

variable {key : α → κ} {limit : ℕ} {cursor final : Option κ} {stores pages : List (List α)}

/-- Every row of a walk comes after the cursor it starts from. -/
theorem Walk.after (h : Walk key limit cursor stores pages final) :
    ∀ a ∈ pages.flatten, After key cursor a := by
  induction h with
  | last cursor items =>
    intro a ha
    rw [List.flatten_singleton] at ha
    exact (mem_remaining.mp (page_subset ha)).2
  | more cursor_eq _ ih =>
    intro a ha
    rw [List.flatten_cons] at ha
    rcases List.mem_append.mp ha with ha | ha
    · exact (mem_remaining.mp (page_subset ha)).2
    · exact After.next cursor_eq (Or.inl (ih a ha _ rfl))

/-- Every row of a walk is one of a store it was read from. -/
theorem Walk.mem_store (h : Walk key limit cursor stores pages final) :
    ∀ a ∈ pages.flatten, ∃ items ∈ stores, a ∈ items := by
  induction h with
  | last cursor items =>
    intro a ha
    rw [List.flatten_singleton] at ha
    exact ⟨items, List.mem_singleton_self items, (mem_remaining.mp (page_subset ha)).1⟩
  | @more cursor items _ _ _ _ _ _ ih =>
    intro a ha
    rw [List.flatten_cons] at ha
    rcases List.mem_append.mp ha with ha | ha
    · exact ⟨items, List.mem_cons_self, (mem_remaining.mp (page_subset ha)).1⟩
    · obtain ⟨s, hs, has⟩ := ih a ha
      exact ⟨s, List.mem_cons_of_mem _ hs, has⟩

/-- **The rows of a walk come in the order of their keys**, so none comes twice. -/
theorem Walk.increasing (h : Walk key limit cursor stores pages final)
    (hd : ∀ items ∈ stores, Distinct key items) : Increasing key pages.flatten := by
  induction h with
  | last cursor items =>
    rw [List.flatten_singleton]
    exact (increasing_remaining (hd items (List.mem_singleton_self items))).take limit
  | @more cursor items c _ _ _ cursor_eq rest ih =>
    have hitems := hd items List.mem_cons_self
    rw [List.flatten_cons]
    refine List.pairwise_append.mpr ⟨(increasing_remaining hitems).take limit,
      ih fun s hs => hd s (List.mem_cons_of_mem _ hs), fun a ha b hb => ?_⟩
    have hle := (not_after_next_iff hitems cursor_eq (page_subset ha)).mp ha
    exact lt_of_le_of_lt (not_lt.mp hle) (rest.after b hb c rfl)

/-- **A walk that has ended has returned every row that was there from the first
page on.** -/
theorem Walk.complete (hlimit : 0 < limit) (h : Walk key limit cursor stores pages final)
    (hfinal : final = none) (hd : ∀ items ∈ stores, Distinct key items) {a : α}
    (ha : ∀ items ∈ stores, a ∈ items) (hafter : After key cursor a) : a ∈ pages.flatten := by
  induction h with
  | last cursor items =>
    have hrest : a ∈ remaining key cursor items :=
      mem_remaining.mpr ⟨ha items (List.mem_singleton_self items), hafter⟩
    rw [List.flatten_singleton, page, List.take_of_length_le ((next_eq_none hlimit).mp hfinal)]
    exact hrest
  | @more cursor items c _ _ _ cursor_eq _ ih =>
    rw [List.flatten_cons, List.mem_append]
    have hrest : a ∈ remaining key cursor items :=
      mem_remaining.mpr ⟨ha items List.mem_cons_self, hafter⟩
    by_cases hpage : a ∈ page key limit cursor items
    · exact Or.inl hpage
    · rw [not_after_next_iff (hd items List.mem_cons_self) cursor_eq hrest, not_not] at hpage
      refine Or.inr (ih hfinal (fun s hs => hd s (List.mem_cons_of_mem _ hs))
        (fun s hs => ha s (List.mem_cons_of_mem _ hs)) ?_)
      rintro d hd'
      obtain rfl := Option.some.inj hd'
      exact hpage

/-- How many pages it takes to return `n` rows. -/
def pageCount (limit n : ℕ) : ℕ := max 1 ((n + limit - 1) / limit)

theorem pageCount_of_le {n : ℕ} (hlimit : 0 < limit) (h : n ≤ limit) : pageCount limit n = 1 := by
  have hdiv : (n + limit - 1) / limit ≤ 1 := by
    rw [Nat.div_le_iff_le_mul hlimit]
    omega
  unfold pageCount
  omega

theorem pageCount_of_lt {n : ℕ} (hlimit : 0 < limit) (h : limit < n) :
    pageCount limit n = pageCount limit (n - limit) + 1 := by
  have hstep : (n + limit - 1) / limit = (n - limit + limit - 1) / limit + 1 := by
    rw [show n + limit - 1 = n - limit + limit - 1 + limit by omega, Nat.add_div_right _ hlimit]
  have hpos : 1 ≤ (n - limit + limit - 1) / limit := by
    rw [Nat.le_div_iff_mul_le hlimit]
    omega
  unfold pageCount
  omega

/-- **Without insertions a walk takes as many pages as its rows need.** -/
theorem Walk.length_eq (hlimit : 0 < limit) {items : List α} (hd : Distinct key items)
    (h : Walk key limit cursor stores pages final) (hfinal : final = none)
    (hstores : ∀ s ∈ stores, s = items) :
    pages.length = pageCount limit (remaining key cursor items).length := by
  induction h with
  | last cursor s =>
    obtain rfl := hstores s (List.mem_singleton_self s)
    rw [pageCount_of_le hlimit ((next_eq_none hlimit).mp hfinal)]
    rfl
  | @more cursor s c _ _ _ cursor_eq _ ih =>
    obtain rfl := hstores s List.mem_cons_self
    rw [List.length_cons, ih hfinal fun s' hs' => hstores s' (List.mem_cons_of_mem _ hs'),
      remaining_next hd cursor_eq, List.length_drop,
      pageCount_of_lt hlimit (next_eq_some cursor_eq).1]

/-- **Without insertions a walk ends.** -/
theorem exists_walk (hlimit : 0 < limit) {items : List α} (hd : Distinct key items) :
    ∀ n cursor, (remaining key cursor items).length ≤ n →
      ∃ pages, Walk key limit cursor
        (List.replicate (pageCount limit (remaining key cursor items).length) items) pages none := by
  intro n
  induction n with
  | zero =>
    intro cursor hn
    have hle : (remaining key cursor items).length ≤ limit := by omega
    refine ⟨[page key limit cursor items], ?_⟩
    rw [pageCount_of_le hlimit hle, ← (next_eq_none hlimit).mpr hle]
    exact .last cursor items
  | succ n ih =>
    intro cursor hn
    cases hnext : next key limit cursor items with
    | none =>
      refine ⟨[page key limit cursor items], ?_⟩
      rw [pageCount_of_le hlimit ((next_eq_none hlimit).mp hnext), ← hnext]
      exact .last cursor items
    | some c =>
      have hmore := (next_eq_some hnext).1
      have hrest : (remaining key (some c) items).length
          = (remaining key cursor items).length - limit := by
        rw [remaining_next hd hnext, List.length_drop]
      obtain ⟨pages, hpages⟩ := ih (some c) (by omega)
      refine ⟨page key limit cursor items :: pages, ?_⟩
      rw [pageCount_of_lt hlimit hmore, List.replicate_succ, ← hrest]
      exact .more hnext hpages

end Walk

end Sql
