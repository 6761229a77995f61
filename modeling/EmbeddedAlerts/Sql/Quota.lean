import Mathlib.Data.Finset.Card
import Mathlib.Logic.Relation
import EmbeddedAlerts.Sql.Keyset

/-!
# A quota that is guarded by a lock

Any number of transactions switch rows on and off.  At most `limit` rows may be on in
what is committed.  A transaction works on versions of rows that the others do not see
before it commits, and counts what is committed and not replaced by its own versions
(`Quota.view`).

A table as a transaction sees it is `overlay`: its own versions, and the committed rows
it has no version of.

The guard is a lock that is held until the end of the transaction.  A row is switched
on only by a transaction that has counted under the lock (`Quota.Step.claim`) and found
room; others may commit between the count and the write.  To switch a row off takes no
lock.

`Quota.Run.card_le`: **at most `limit` rows are on in every state that is committed.**
The invariant behind it is that who does not hold the lock has switched nothing on, so
that whatever the others commit, the holder of the lock sees no more rows than before.
-/

namespace Sql

/-! ### Row versions -/

section Versions

variable {ρ κ : Type} [DecidableEq κ] {key : ρ → κ} {own rows : List ρ} {r row : ρ}

/-- The rows as a transaction with the versions `own` sees them. -/
def overlay (key : ρ → κ) (own rows : List ρ) : List ρ :=
  (rows.filter fun r => !own.any fun o => decide (key o = key r)) ++ own

/-- The versions after a write. -/
def put (key : ρ → κ) (own : List ρ) (row : ρ) : List ρ :=
  (own.filter fun o => decide (key o ≠ key row)) ++ [row]

theorem mem_overlay :
    r ∈ overlay key own rows ↔ (r ∈ rows ∧ ∀ o ∈ own, key o ≠ key r) ∨ r ∈ own := by
  rw [overlay, List.mem_append, List.mem_filter, Bool.not_eq_true', List.any_eq_false]
  simp only [decide_eq_true_eq, ne_eq]

theorem mem_put : r ∈ put key own row ↔ (r ∈ own ∧ key r ≠ key row) ∨ r = row := by
  rw [put, List.mem_append, List.mem_filter, List.mem_singleton, decide_eq_true_eq]

omit [DecidableEq κ] in
theorem distinct_append {l m : List ρ} :
    Distinct key (l ++ m) ↔ Distinct key l ∧ Distinct key m ∧ ∀ a ∈ l, ∀ b ∈ m, key a ≠ key b :=
  List.pairwise_append

theorem distinct_overlay (hrows : Distinct key rows) (hown : Distinct key own) :
    Distinct key (overlay key own rows) := by
  refine distinct_append.mpr ⟨hrows.sublist List.filter_sublist, hown, fun a ha b hb => ?_⟩
  have hfree := (List.mem_filter.mp ha).2
  rw [Bool.not_eq_true', List.any_eq_false] at hfree
  intro heq
  exact hfree b hb (decide_eq_true heq.symm)

theorem distinct_put (hown : Distinct key own) : Distinct key (put key own row) := by
  refine distinct_append.mpr ⟨hown.sublist List.filter_sublist, List.pairwise_singleton _ _,
    fun a ha b hb => ?_⟩
  obtain rfl := List.mem_singleton.mp hb
  exact of_decide_eq_true (List.mem_filter.mp ha).2

/-- A table without the rows of `own`. -/
theorem overlay_of_new (h : ∀ r ∈ rows, ∀ o ∈ own, key o ≠ key r) :
    overlay key own rows = rows ++ own := by
  rw [overlay, List.filter_eq_self.mpr]
  intro r hr
  rw [Bool.not_eq_true', List.any_eq_false]
  intro o ho
  rw [decide_eq_true_eq]
  exact h r hr o ho

end Versions

/-! ### The quota -/

/-- The open transactions after the transaction `i` went on to `o`. -/
theorem update_eq_some {ι α : Type} [DecidableEq ι] {f : ι → Option α} {i j : ι} {o : Option α}
    {a : α} (h : Function.update f i o j = some a) :
    (j = i ∧ o = some a) ∨ (j ≠ i ∧ f j = some a) := by
  by_cases hji : j = i
  · subst hji
    rw [Function.update_self] at h
    exact Or.inl ⟨rfl, h⟩
  · rw [Function.update_of_ne hji] at h
    exact Or.inr ⟨hji, h⟩

/-- An open transaction: its versions, those of them that are on, whether it holds the
lock, and the row it has found room for. -/
structure Quota.Txn (κ : Type) where
  rows : Finset κ
  active : Finset κ
  holds : Bool
  admitted : Option κ

/-- The rows that are on in what is committed, and the open transactions. -/
structure Quota (ι κ : Type) where
  active : Finset κ
  txns : ι → Option (Quota.Txn κ)

namespace Quota

variable {ι κ : Type} [DecidableEq κ] {limit : ℕ} {q q' : Quota ι κ} {t u : Txn κ}

/-- The rows that are on, as the transaction sees them. -/
def view (q : Quota ι κ) (t : Txn κ) : Finset κ := q.active \ t.rows ∪ t.active

def Txn.start : Txn κ := ⟨∅, ∅, false, none⟩

section Steps

variable [DecidableEq ι]

/-- The transaction `i` goes on to `o`. -/
def set (q : Quota ι κ) (i : ι) (o : Option (Txn κ)) : Quota ι κ :=
  { q with txns := Function.update q.txns i o }

inductive Step (limit : ℕ) : Quota ι κ → Quota ι κ → Prop
  | begins {q : Quota ι κ} (i : ι) (h : q.txns i = none) : Step limit q (q.set i (some .start))
  | lock {q : Quota ι κ} (i : ι) {t : Txn κ} (h : q.txns i = some t)
      (free : ∀ j u, j ≠ i → q.txns j = some u → u.holds = false) :
      Step limit q (q.set i (some { t with holds := true }))
  | claim {q : Quota ι κ} (i : ι) {t : Txn κ} (h : q.txns i = some t) (r : κ)
      (holds : t.holds = true) (room : ((q.view t).erase r).card < limit) :
      Step limit q (q.set i (some { t with admitted := some r }))
  | activate {q : Quota ι κ} (i : ι) {t : Txn κ} (h : q.txns i = some t) {r : κ}
      (admitted : t.admitted = some r) :
      Step limit q
        (q.set i (some ⟨insert r t.rows, insert r t.active, t.holds, none⟩))
  | deactivate {q : Quota ι κ} (i : ι) {t : Txn κ} (h : q.txns i = some t) (r : κ) :
      Step limit q (q.set i (some ⟨insert r t.rows, t.active.erase r, t.holds, none⟩))
  | commit {q : Quota ι κ} (i : ι) {t : Txn κ} (h : q.txns i = some t) :
      Step limit q ⟨q.view t, Function.update q.txns i none⟩
  | rollback {q : Quota ι κ} (i : ι) : Step limit q (q.set i none)

end Steps

/-- What is known of an open transaction. -/
structure Txn.Inv (limit : ℕ) (q : Quota ι κ) (t : Txn κ) : Prop where
  own : t.active ⊆ t.rows
  /-- Without the lock nothing has been switched on. -/
  free : t.holds = false → t.active = ∅ ∧ t.admitted = none
  within : t.holds = true → (q.view t).card ≤ limit
  room : ∀ r, t.admitted = some r → ((q.view t).erase r).card < limit

structure Inv (limit : ℕ) (q : Quota ι κ) : Prop where
  card : q.active.card ≤ limit
  txns : ∀ i t, q.txns i = some t → t.Inv limit q
  lock : ∀ i j t u, i ≠ j → q.txns i = some t → q.txns j = some u → t.holds = true →
    u.holds = false

/-! ### Single steps -/

/-- Without the lock a transaction sees no more than what is committed. -/
theorem Txn.Inv.view_subset (h : t.Inv limit q) (hfree : t.holds = false) :
    q.view t ⊆ q.active := by
  rw [view, (h.free hfree).1, Finset.union_empty]
  exact Finset.sdiff_subset

/-- What is known of a transaction stays true if less is committed. -/
theorem Txn.Inv.mono (h : t.Inv limit q) (hsub : q.view t ⊇ q'.view t) : t.Inv limit q' where
  own := h.own
  free := h.free
  within hholds := (Finset.card_le_card hsub).trans (h.within hholds)
  room r hr := (Finset.card_le_card (Finset.erase_subset_erase r hsub)).trans_lt (h.room r hr)

variable [DecidableEq ι]

/-- A step of one transaction, with nothing committed. -/
theorem Inv.set (h : q.Inv limit) {i : ι} {o : Option (Txn κ)}
    (ho : ∀ t, o = some t → t.Inv limit q)
    (hlock : ∀ t, o = some t → t.holds = true →
      (∃ t', q.txns i = some t' ∧ t'.holds = true) ∨
        ∀ j u, j ≠ i → q.txns j = some u → u.holds = false) :
    (q.set i o).Inv limit := by
  refine ⟨h.card, fun j u hj => ?_, fun j k t u hjk hj hk hholds => ?_⟩
  · rcases update_eq_some hj with ⟨-, hu⟩ | ⟨-, hu⟩
    · exact (ho u hu).mono (subset_refl _)
    · exact (h.txns j u hu).mono (subset_refl _)
  · rcases update_eq_some hj with ⟨rfl, ht⟩ | ⟨hji, ht⟩
    · rcases update_eq_some hk with ⟨rfl, -⟩ | ⟨hkj, hu⟩
      · exact absurd rfl hjk
      · rcases hlock t ht hholds with ⟨t', ht', hholds'⟩ | hfree
        · exact h.lock j k t' u hjk ht' hu hholds'
        · exact hfree k u hkj hu
    · rcases update_eq_some hk with ⟨rfl, hu⟩ | ⟨-, hu⟩
      · by_contra hu'
        rcases hlock u hu (Bool.not_eq_false _ |>.mp hu') with ⟨u', hu', hholds'⟩ | hfree
        · exact absurd (h.lock j k t u' hjk ht hu' hholds) (by simp [hholds'])
        · exact absurd (hfree j t hji ht) (by simp [hholds])
      · exact h.lock j k t u hjk ht hu hholds

omit [DecidableEq ι] in
/-- What is seen after a row is switched on. -/
theorem view_insert {r : κ} :
    q.view ⟨insert r t.rows, insert r t.active, t.holds, none⟩ ⊆ insert r ((q.view t).erase r) := by
  intro c hc
  by_cases hcr : c = r
  · subst hcr
    exact Finset.mem_insert_self _ _
  · refine Finset.mem_insert_of_mem (Finset.mem_erase.mpr ⟨hcr, ?_⟩)
    simp only [view, Finset.mem_union, Finset.mem_sdiff, Finset.mem_insert, hcr, false_or] at hc ⊢
    exact hc

omit [DecidableEq ι] in
theorem view_erase {r : κ} :
    q.view ⟨insert r t.rows, t.active.erase r, t.holds, none⟩ ⊆ q.view t := by
  intro c hc
  simp only [view, Finset.mem_union, Finset.mem_sdiff, Finset.mem_insert, Finset.mem_erase,
    not_or] at hc ⊢
  exact hc.imp (fun h => ⟨h.1, h.2.2⟩) fun h => h.2

/-- **Every step keeps the invariant.** -/
theorem Step.inv (hs : Step limit q q') (h : q.Inv limit) : q'.Inv limit := by
  cases hs with
  | begins i hi =>
    refine h.set (fun t ht => ?_) fun t ht hholds => ?_
    · obtain rfl := Option.some.inj ht
      exact ⟨subset_refl _, fun _ => ⟨rfl, rfl⟩, (fun hholds => by cases hholds),
        (fun r hr => by cases hr)⟩
    · obtain rfl := Option.some.inj ht
      cases hholds
  | @lock i t hi free =>
    have ht := h.txns i t hi
    refine h.set (fun u hu => ?_) fun _ _ _ => Or.inr free
    obtain rfl := Option.some.inj hu
    refine ⟨ht.own, (fun hholds => by cases hholds), fun _ => ?_, ht.room⟩
    -- What was seen without the lock is part of what is committed.
    by_cases hholds : t.holds = true
    · exact ht.within hholds
    · exact (Finset.card_le_card (ht.view_subset (Bool.not_eq_true _ |>.mp hholds))).trans h.card
  | @claim i t hi r holds room =>
    have ht := h.txns i t hi
    refine h.set (fun u hu => ?_) fun _ _ _ => Or.inl ⟨t, hi, holds⟩
    obtain rfl := Option.some.inj hu
    refine ⟨ht.own, fun hholds => ?_, ht.within, fun r' hr' => ?_⟩
    · exact absurd (holds.symm.trans hholds) (by decide)
    · obtain rfl := Option.some.inj hr'
      exact room
  | @activate i t hi r admitted =>
    have ht := h.txns i t hi
    have holds : t.holds = true := by
      by_contra hholds
      exact absurd ((ht.free (Bool.not_eq_true _ |>.mp hholds)).2.symm.trans admitted) (by simp)
    refine h.set (fun u hu => ?_) fun _ _ _ => Or.inl ⟨t, hi, holds⟩
    obtain rfl := Option.some.inj hu
    refine ⟨Finset.insert_subset_insert _ ht.own, fun hholds => ?_, fun _ => ?_,
      (fun r hr => by cases hr)⟩
    · exact absurd (holds.symm.trans hholds) (by decide)
    · have hle := (Finset.card_le_card (view_insert (q := q) (t := t) (r := r))).trans
        (Finset.card_insert_le _ _)
      have hroom := ht.room r admitted
      omega
  | @deactivate i t hi r =>
    have ht := h.txns i t hi
    refine h.set (fun u hu => ?_) fun u hu hholds => ?_
    · obtain rfl := Option.some.inj hu
      refine ⟨?_, fun hholds => ⟨?_, rfl⟩, fun hholds => ?_, (fun r hr => by cases hr)⟩
      · exact ((Finset.erase_subset _ _).trans ht.own).trans (Finset.subset_insert _ _)
      · rw [(ht.free hholds).1, Finset.erase_empty]
      · exact (Finset.card_le_card view_erase).trans (ht.within hholds)
    · obtain rfl := Option.some.inj hu
      exact Or.inl ⟨t, hi, hholds⟩
  | @commit i t hi =>
    have ht := h.txns i t hi
    have htxn : ∀ j u, Function.update q.txns i none j = some u → j ≠ i ∧ q.txns j = some u := by
      intro j u hj
      rcases update_eq_some hj with ⟨-, hnone⟩ | hu
      · cases hnone
      · exact hu
    refine ⟨?_, fun j u hj => ?_, fun j k t' u hjk hj hk => ?_⟩
    · by_cases hholds : t.holds = true
      · exact ht.within hholds
      · exact (Finset.card_le_card (ht.view_subset (Bool.not_eq_true _ |>.mp hholds))).trans h.card
    · obtain ⟨hji, hu⟩ := htxn j u hj
      have hu' := h.txns j u hu
      by_cases hholds : u.holds = true
      · -- Who commits does not hold the lock, so it has switched nothing on.
        have hfree := h.lock j i u t hji hu hi hholds
        refine hu'.mono (Finset.union_subset_union ?_ (subset_refl _))
        exact Finset.sdiff_subset_sdiff (ht.view_subset hfree) (subset_refl _)
      · have hfree := hu'.free (Bool.not_eq_true _ |>.mp hholds)
        refine ⟨hu'.own, fun _ => hfree, fun hholds' => absurd hholds' hholds, fun r hr => ?_⟩
        exact absurd (hfree.2.symm.trans hr) (by simp)
    · obtain ⟨-, ht'⟩ := htxn j t' hj
      obtain ⟨-, hu⟩ := htxn k u hk
      exact h.lock j k t' u hjk ht' hu
  | rollback i => exact h.set (fun t ht => by cases ht) (fun t ht => by cases ht)

/-! ### Runs -/

/-- The runs from a state in which nothing is open. -/
abbrev Run (limit : ℕ) (start q : Quota ι κ) : Prop := Relation.ReflTransGen (Step limit) start q

omit [DecidableEq ι] in
theorem inv_of_closed (hclosed : ∀ i, q.txns i = none) (hcard : q.active.card ≤ limit) :
    q.Inv limit where
  card := hcard
  txns i t h := absurd ((hclosed i).symm.trans h) (by simp)
  lock i _ t _ _ h := absurd ((hclosed i).symm.trans h) (by simp)

theorem Run.inv {start : Quota ι κ} (hrun : Run limit start q) (h : start.Inv limit) :
    q.Inv limit := by
  induction hrun with
  | refl => exact h
  | tail _ hs ih => exact hs.inv ih

/-- **At most `limit` rows are on in what is committed.** -/
theorem Run.card_le {start : Quota ι κ} (hrun : Run limit start q)
    (hclosed : ∀ i, start.txns i = none) (hcard : start.active.card ≤ limit) :
    q.active.card ≤ limit :=
  (hrun.inv (inv_of_closed hclosed hcard)).card

end Quota

end Sql
