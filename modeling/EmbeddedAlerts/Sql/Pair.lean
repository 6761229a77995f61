import EmbeddedAlerts.Sql.Table

/-!
# Two transactions that want one key

Two transactions under READ COMMITTED each issue a statement that inserts a row
with the same key.  `first` is the one whose statement runs first; the insert of
the other waits until that transaction has ended.  What does not wait is the
snapshot: a statement takes it when it begins.

`Interleaves` are the runs of such a pair, with the order of events.  A statement
reads its snapshot and writes to what is committed when it runs.  `R` is what a
transaction may do after its statement and before its commit.

`Interleaves.second`: **the second statement runs on what the first transaction has
committed, with a snapshot from before it or after it**, and `Late`, a condition on
the order of events, says which.
-/

namespace Sql

inductive Party where
  | first
  | second
deriving DecidableEq

/-- What a transaction does: its statement begins, its statement runs, it commits. -/
inductive Event where
  | begins (p : Party)
  | runs (p : Party)
  | commits (p : Party)
deriving DecidableEq

/-- How far a transaction is, with the result of its statement. -/
inductive Txn (δ α : Type) where
  | idle
  | begun (snapshot : δ)
  | ran (result : α) (written : δ)
  | failed (error : DbErr)
  | committed (result : α)

/-- The committed store and the two transactions. -/
structure Pair (δ α : Type) where
  db : δ
  first : Txn δ α
  second : Txn δ α

variable {δ α : Type} {R : δ → δ → Prop} {p q : Statement δ α} {db : δ}

/-- The runs of a pair that issues `p` and `q`, and the order of their events. -/
inductive Interleaves (R : δ → δ → Prop) (p q : Statement δ α) (db : δ) :
    List Event → Pair δ α → Prop
  | start : Interleaves R p q db [] ⟨db, .idle, .idle⟩
  | beginFirst {l d t} (h : Interleaves R p q db l ⟨d, .idle, t⟩) :
      Interleaves R p q db (l ++ [.begins .first]) ⟨d, .begun d, t⟩
  | runFirst {l d s t a w} (h : Interleaves R p q db l ⟨d, .begun s, t⟩)
      (statement : p s d = .ok (a, w)) :
      Interleaves R p q db (l ++ [.runs .first]) ⟨d, .ran a w, t⟩
  | commitFirst {l d t a w w'} (h : Interleaves R p q db l ⟨d, .ran a w, t⟩) (rest : R w w') :
      Interleaves R p q db (l ++ [.commits .first]) ⟨w', .committed a, t⟩
  | beginSecond {l d t} (h : Interleaves R p q db l ⟨d, t, .idle⟩) :
      Interleaves R p q db (l ++ [.begins .second]) ⟨d, t, .begun d⟩
  | runSecond {l d a s b w} (h : Interleaves R p q db l ⟨d, .committed a, .begun s⟩)
      (statement : q s d = .ok (b, w)) :
      Interleaves R p q db (l ++ [.runs .second]) ⟨d, .committed a, .ran b w⟩
  | failSecond {l d a s e} (h : Interleaves R p q db l ⟨d, .committed a, .begun s⟩)
      (statement : q s d = .error e) :
      Interleaves R p q db (l ++ [.runs .second]) ⟨d, .committed a, .failed e⟩
  | commitSecond {l d t b w w'} (h : Interleaves R p q db l ⟨d, t, .ran b w⟩) (rest : R w w') :
      Interleaves R p q db (l ++ [.commits .second]) ⟨w', t, .committed b⟩

/-- The first transaction commits before the second statement begins. -/
def Late (l : List Event) : Prop :=
  Event.commits .first ∈ l.takeWhile fun e => decide (e ≠ .begins .second)

instance (l : List Event) : Decidable (Late l) := by
  unfold Late
  infer_instance

/-- The snapshot of the second statement, if the first transaction has left `d`. -/
def Snapshot (db d : δ) (l : List Event) (s : δ) : Prop :=
  (Late l ∧ s = d) ∨ (¬ Late l ∧ s = db)

theorem takeWhile_append_of_mem {l m : List Event} (h : Event.begins .second ∈ l) :
    (l ++ m).takeWhile (fun e => decide (e ≠ .begins .second))
      = l.takeWhile fun e => decide (e ≠ .begins .second) := by
  induction l with
  | nil => cases h
  | cons e l ih =>
    by_cases he : e = .begins .second
    · simp [he]
    · rcases List.mem_cons.mp h with h | h
      · exact absurd h.symm he
      · simp only [List.cons_append, List.takeWhile_cons, ih h]

/-- Later events do not change the order of the earlier ones. -/
theorem late_append {l m : List Event} (h : Event.begins .second ∈ l) :
    Late (l ++ m) ↔ Late l := by
  rw [Late, Late, takeWhile_append_of_mem h]

theorem late_begin {l : List Event} (h : Event.begins .second ∉ l) :
    Late (l ++ [.begins .second]) ↔ Event.commits .first ∈ l := by
  have hall : ∀ e ∈ l, decide (e ≠ .begins .second) = true := by
    intro e he
    exact decide_eq_true fun heq => h (heq ▸ he)
  rw [Late, List.takeWhile_append_of_pos hall]
  simp

/-- What is known about the second transaction once the first has left `d`. -/
def SecondAt (q : Statement δ α) (db d : δ) (l : List Event) (now : δ) : Txn δ α → Prop
  | .idle => Event.begins .second ∉ l ∧ now = d
  | .begun s => Event.begins .second ∈ l ∧ now = d ∧ Snapshot db d l s
  | .ran b w => Event.begins .second ∈ l ∧ ∃ s, Snapshot db d l s ∧ q s d = .ok (b, w)
  | .failed e => Event.begins .second ∈ l ∧ ∃ s, Snapshot db d l s ∧ q s d = .error e
  | .committed b => Event.begins .second ∈ l ∧ ∃ s w, Snapshot db d l s ∧ q s d = .ok (b, w)

/-- What is known about the second transaction before the first has committed. -/
def SecondBefore (db : δ) (l : List Event) : Txn δ α → Prop
  | .idle => Event.begins .second ∉ l
  | .begun s => Event.begins .second ∈ l ∧ ¬ Late l ∧ s = db
  | .ran _ _ => False
  | .failed _ => False
  | .committed _ => False

/-- What is known about the first transaction before it has committed. -/
def FirstBefore (p : Statement δ α) (db now : δ) : Txn δ α → Prop
  | .idle => now = db
  | .begun s => now = db ∧ s = db
  | .ran a w => now = db ∧ p db db = .ok (a, w)
  | .failed _ => False
  | .committed _ => False

theorem FirstBefore.now_eq {now : δ} {t : Txn δ α} (h : FirstBefore p db now t) : now = db := by
  cases t with
  | idle => exact h
  | begun | ran => exact h.1
  | failed | committed => exact h.elim

/-- What is known about the pair. -/
inductive Pair.Inv (R : δ → δ → Prop) (p q : Statement δ α) (db : δ) (l : List Event) :
    Pair δ α → Prop
  | before {now t u} (commit : Event.commits .first ∉ l) (first : FirstBefore p db now t)
      (second : SecondBefore db l u) : Pair.Inv R p q db l ⟨now, t, u⟩
  | after {now a u w d} (commit : Event.commits .first ∈ l) (statement : p db db = .ok (a, w))
      (rest : R w d) (second : SecondAt q db d l now u) :
      Pair.Inv R p q db l ⟨now, .committed a, u⟩

theorem SecondBefore.append {l : List Event} {e : Event} {t : Txn δ α}
    (he : e ≠ .begins .second) (h : SecondBefore db l t) : SecondBefore db (l ++ [e]) t := by
  cases t with
  | idle =>
    intro hmem
    rcases List.mem_append.mp hmem with hmem | hmem
    · exact h hmem
    · exact he (List.mem_singleton.mp hmem).symm
  | begun s =>
    obtain ⟨hbegun, hlate, hs⟩ := h
    exact ⟨List.mem_append_left _ hbegun, by rwa [late_append hbegun], hs⟩
  | ran | failed | committed => exact h

/-- The commit of the first transaction, seen from the second. -/
theorem SecondBefore.commit {l : List Event} {d : δ} {t : Txn δ α} (h : SecondBefore db l t) :
    SecondAt q db d (l ++ [.commits .first]) d t := by
  cases t with
  | idle =>
    refine ⟨fun hmem => ?_, rfl⟩
    rcases List.mem_append.mp hmem with hmem | hmem
    · exact h hmem
    · cases List.mem_singleton.mp hmem
  | begun s =>
    obtain ⟨hbegun, hlate, hs⟩ := h
    refine ⟨List.mem_append_left _ hbegun, rfl, Or.inr ⟨?_, hs⟩⟩
    rwa [late_append hbegun]
  | ran | failed | committed => exact h.elim

theorem not_mem_append_singleton {l : List Event} {e f : Event} (h : e ∉ l) (hne : f ≠ e) :
    e ∉ l ++ [f] := by
  intro hmem
  rcases List.mem_append.mp hmem with hmem | hmem
  · exact h hmem
  · exact hne (List.mem_singleton.mp hmem).symm

/-- **Every event keeps the invariant.** -/
theorem Interleaves.inv {l : List Event} {sys : Pair δ α} (h : Interleaves R p q db l sys) :
    sys.Inv R p q db l := by
  induction h with
  | start => exact .before List.not_mem_nil rfl List.not_mem_nil
  | beginFirst _ ih =>
    cases ih with
    | before commit first second =>
      exact .before (not_mem_append_singleton commit (by decide)) ⟨first, first⟩
        (second.append (by decide))
  | runFirst _ statement ih =>
    cases ih with
    | before commit first second =>
      obtain ⟨hnow, rfl⟩ := first
      rw [hnow] at statement
      exact .before (not_mem_append_singleton commit (by decide)) ⟨hnow, statement⟩
        (second.append (by decide))
  | commitFirst _ rest ih =>
    cases ih with
    | before _ first second =>
      exact .after (List.mem_append_right _ (List.mem_singleton_self _)) first.2 rest second.commit
  | beginSecond _ ih =>
    cases ih with
    | before commit first second =>
      refine .before (not_mem_append_singleton commit (by decide)) first
        ⟨List.mem_append_right _ (List.mem_singleton_self _), ?_, first.now_eq⟩
      rwa [late_begin second]
    | after commit statement rest second =>
      obtain ⟨hbegins, hnow⟩ := second
      refine .after (List.mem_append_left _ commit) statement rest
        ⟨List.mem_append_right _ (List.mem_singleton_self _), hnow, Or.inl ⟨?_, hnow⟩⟩
      rwa [late_begin hbegins]
  | runSecond _ statement' ih =>
    cases ih with
    | before _ first _ => exact first.elim
    | after commit statement rest second =>
      obtain ⟨hbegun, rfl, hsnapshot⟩ := second
      refine .after (List.mem_append_left _ commit) statement rest
        ⟨List.mem_append_left _ hbegun, _, ?_, statement'⟩
      rwa [Snapshot, late_append hbegun]
  | failSecond _ statement' ih =>
    cases ih with
    | before _ first _ => exact first.elim
    | after commit statement rest second =>
      obtain ⟨hbegun, rfl, hsnapshot⟩ := second
      refine .after (List.mem_append_left _ commit) statement rest
        ⟨List.mem_append_left _ hbegun, _, ?_, statement'⟩
      rwa [Snapshot, late_append hbegun]
  | commitSecond _ _ ih =>
    cases ih with
    | before _ _ second => exact second.elim
    | after commit statement rest second =>
      obtain ⟨hbegun, s, hsnapshot, hq⟩ := second
      refine .after (List.mem_append_left _ commit) statement rest
        ⟨List.mem_append_left _ hbegun, s, _, ?_, hq⟩
      rwa [Snapshot, late_append hbegun]

/-- The outcome of a statement that has run. -/
def Txn.outcome : Txn δ α → Option (Except DbErr α)
  | .idle => none
  | .begun _ => none
  | .ran a _ => some (.ok a)
  | .failed e => some (.error e)
  | .committed a => some (.ok a)

/-- **The second statement runs on what the first transaction has committed, and
reads a snapshot from after the commit if it begins late, and from before it if
not.** -/
theorem Interleaves.second {l : List Event} {sys : Pair δ α} (h : Interleaves R p q db l sys)
    {a : α} (ha : sys.first = .committed a) {r : Except DbErr α}
    (hr : sys.second.outcome = some r) :
    ∃ w d s, p db db = .ok (a, w) ∧ R w d ∧ r = (q s d).map Prod.fst ∧
      ((Late l ∧ s = d) ∨ (¬ Late l ∧ s = db)) := by
  cases h.inv with
  | before _ first _ =>
    obtain rfl := ha
    exact first.elim
  | @after _ a' u w d _ statement rest second =>
    obtain rfl : a' = a := by injection ha
    cases u with
    | idle | begun => cases hr
    | ran | failed =>
      obtain ⟨-, s, hsnapshot, hq⟩ := second
      obtain rfl := Option.some.inj hr
      exact ⟨w, d, s, statement, rest, by rw [hq]; rfl, hsnapshot⟩
    | committed =>
      obtain ⟨-, s, w', hsnapshot, hq⟩ := second
      obtain rfl := Option.some.inj hr
      exact ⟨w, d, s, statement, rest, by rw [hq]; rfl, hsnapshot⟩

end Sql
