import Mathlib.Data.List.Basic
import Mathlib.Data.List.Pairwise
import EmbeddedAlerts.Sql.Action

/-!
# Tables with constraints

A table is the list of its rows.  `Constraints δ ρ` are what a table of rows
`ρ` in a database `δ` declares: CHECKs on a row, keys two rows may not share
(the primary key and every unique constraint), and foreign keys, which look at
the whole database.

A statement reads and writes two versions of the database.  Its `SELECT`s see
the snapshot taken when the statement began; its writes, and the search for a
conflicting row in `ON CONFLICT`, work on the current version.  `Statement δ α`
keeps the two apart, and `Action.statement` runs a statement alone, where they
are the same.

* `insert`, `insertOrNothing` (`ON CONFLICT .. DO NOTHING`) and `insertOrUpdate`
  (`ON CONFLICT .. DO UPDATE`) follow the order in which PostgreSQL looks at a
  row: CHECKs first, then the conflict target, then the other keys, then the
  foreign keys.
* `insertOrSelect` is `DO NOTHING` with a fallback: when nothing was inserted, the
  row is looked up in the snapshot.
* `updateUnwritten` is an `UPDATE` that stands beside other writes in one
  statement: it finds its rows in the snapshot, and passes over a row that
  another part of the statement has already written.
* `Holds` says a table meets its constraints; `Holds.append` that a row that
  was let in keeps them.
-/

namespace Sql

/-- Why a statement failed. -/
inductive DbErr where
  | checkViolation
  | uniqueViolation
  | foreignKeyViolation
  | raised (message : String)
deriving DecidableEq, Repr

/-- A statement: from the snapshot and the current version, its rows and the
version it leaves. -/
abbrev Statement (δ α : Type) : Type := δ → δ → Except DbErr (α × δ)

/-- A statement run alone sees what it writes to.  A failed statement writes
nothing. -/
def Action.statement {δ ε α : Type} (toError : DbErr → ε) (q : Statement δ α) : Action δ ε α :=
  fun d =>
    match q d d with
    | .ok (a, d') => (.ok a, d')
    | .error e => (.error (toError e), d)

theorem Action.statement_of_ok {δ ε α : Type} {toError : DbErr → ε} {q : Statement δ α}
    {d d' : δ} {a : α} (h : q d d = .ok (a, d')) :
    Action.statement toError q d = (.ok a, d') := by
  simp [Action.statement, h]

theorem Action.statement_of_error {δ ε α : Type} {toError : DbErr → ε} {q : Statement δ α}
    {d : δ} {e : DbErr} (h : q d d = .error e) :
    Action.statement toError q d = (.error (toError e), d) := by
  simp [Action.statement, h]

theorem Action.statement_eq_ok {δ ε α : Type} {toError : DbErr → ε} {q : Statement δ α}
    {d d' : δ} {a : α} (h : Action.statement toError q d = (.ok a, d')) :
    q d d = .ok (a, d') := by
  rcases hq : q d d with e | ⟨b, d''⟩
  · rw [Action.statement_of_error hq] at h
    simp at h
  · rw [Action.statement_of_ok hq] at h
    obtain ⟨h1, h2⟩ := Prod.mk.inj h
    rw [Except.ok.inj h1, h2]

/-- A statement moves the store along a reflexive `R` if it does when it
succeeds. -/
theorem Action.Moves.statement {δ ε α : Type} {R : δ → δ → Prop} [Std.Refl R]
    {toError : DbErr → ε} {q : Statement δ α} {d : δ}
    (h : ∀ a d', q d d = .ok (a, d') → R d d') :
    Action.Moves R (Action.statement toError q) d := by
  rcases hq : q d d with e | ⟨a, d'⟩
  · exact Action.Moves.of_same (by rw [Action.statement_of_error hq])
  · rw [Action.Moves, Action.statement_of_ok hq]
    exact h a d' hq

/-- A statement run alone fails with what its own errors become. -/
theorem Action.Throws.statement {δ ε α : Type} {P : ε → Prop} {toError : DbErr → ε}
    {q : Statement δ α} {d : δ} (h : ∀ e, q d d = .error e → P (toError e)) :
    Action.Throws P (Action.statement toError q) d := by
  intro e he
  rcases hq : q d d with e' | ⟨a, d'⟩
  · rw [Action.statement_of_error hq] at he
    exact Except.error.inj he ▸ h e' hq
  · rw [Action.statement_of_ok hq] at he
    cases he

/-- `find?` by a predicate that only one row can meet. -/
theorem find?_eq_of_unique {α : Type} {l : List α} {p : α → Bool} {a : α} (ha : a ∈ l)
    (hp : ∀ b ∈ l, p b = true → b = a) : l.find? p = if p a then some a else none := by
  by_cases hpa : p a = true
  · rw [if_pos hpa]
    rcases hf : l.find? p with _ | b
    · exact absurd hpa (List.find?_eq_none.mp hf a ha)
    · rw [hp b (List.mem_of_find?_eq_some hf) (List.find?_some hf)]
  · rw [if_neg hpa, List.find?_eq_none]
    intro b hb hpb
    exact hpa (hp b hb hpb ▸ hpb)

/-- The constraints of a table with rows `ρ` in a database `δ`. -/
structure Constraints (δ ρ : Type) where
  /-- NOT NULL and CHECK. -/
  check : ρ → Bool
  /-- The rows agree on the primary key or on the columns of a unique
  constraint. -/
  sameKey : ρ → ρ → Bool
  /-- Every foreign key of the row finds its target. -/
  refs : δ → ρ → Bool

namespace Constraints

variable {δ ρ : Type} (c : Constraints δ ρ)

/-- The row may be added to the table. -/
structure Admits (d : δ) (rows : List ρ) (r : ρ) : Prop where
  check : c.check r = true
  fresh : ∀ s ∈ rows, c.sameKey r s = false
  refs : c.refs d r = true

/-- The table meets its constraints. -/
structure Holds (d : δ) (rows : List ρ) : Prop where
  check : ∀ r ∈ rows, c.check r = true
  keys : rows.Pairwise fun r s => c.sameKey r s = false
  refs : ∀ r ∈ rows, c.refs d r = true

/-- `INSERT` of one row. -/
def insert (d : δ) (rows : List ρ) (r : ρ) : Except DbErr (List ρ) :=
  if c.check r = false then .error .checkViolation
  else if rows.any (c.sameKey r) then .error .uniqueViolation
  else if c.refs d r = false then .error .foreignKeyViolation
  else .ok (rows ++ [r])

/-- A row that meets the CHECKs is refused for a key or a reference. -/
theorem insert_error_of_check {d : δ} {rows : List ρ} {r : ρ} {e : DbErr}
    (hcheck : c.check r = true) (h : c.insert d rows r = .error e) :
    e = .uniqueViolation ∨ e = .foreignKeyViolation := by
  rw [insert, if_neg (by simp [hcheck])] at h
  split_ifs at h with hkey href
  · exact Or.inl (Except.error.inj h).symm
  · exact Or.inr (Except.error.inj h).symm

theorem insert_of_check_false {d : δ} {rows : List ρ} {r : ρ} (h : c.check r = false) :
    c.insert d rows r = .error .checkViolation := by
  rw [insert, if_pos h]

/-- `INSERT .. ON CONFLICT (target) DO NOTHING RETURNING *`. -/
def insertOrNothing (target : ρ → ρ → Bool) (d : δ) (rows : List ρ) (r : ρ) :
    Except DbErr (Option ρ × List ρ) :=
  if c.check r = false then .error .checkViolation
  else if rows.any (target r) then .ok (none, rows)
  else (c.insert d rows r).map fun rows' => (some r, rows')

/-- `INSERT .. ON CONFLICT (target) DO UPDATE SET .. RETURNING *`. -/
def insertOrUpdate (target : ρ → ρ → Bool) (set : ρ → ρ) (d : δ) (rows : List ρ) (r : ρ) :
    Except DbErr (ρ × List ρ) :=
  if c.check r = false then .error .checkViolation
  else match rows.find? (target r) with
    | some s => .ok (set s, rows.map fun s => if target r s then set s else s)
    | none => (c.insert d rows r).map fun rows' => (r, rows')

/-- An insert-or-select statement: `INSERT .. ON CONFLICT (target) DO NOTHING
RETURNING *`, `UNION ALL` the rows of the snapshot that `p` picks if nothing was
inserted, `LIMIT 1`.  The flag tells the two apart. -/
def insertOrSelect (target : ρ → ρ → Bool) (p : ρ → Bool) (d : δ) (snapshot current : List ρ)
    (r : ρ) : Except DbErr (Option (ρ × Bool) × List ρ) :=
  (c.insertOrNothing target d current r).map fun (inserted, rows) =>
    match inserted with
    | some s => (some (s, true), rows)
    | none => ((snapshot.find? p).map fun s => (s, false), rows)

variable {c}

theorem insert_of_admits {d : δ} {rows : List ρ} {r : ρ} (h : c.Admits d rows r) :
    c.insert d rows r = .ok (rows ++ [r]) := by
  have hany : rows.any (c.sameKey r) = false := by
    rw [List.any_eq_false]
    intro s hs
    simp [h.fresh s hs]
  simp [insert, h.check, hany, h.refs]

theorem admits_of_insert {d : δ} {rows rows' : List ρ} {r : ρ}
    (h : c.insert d rows r = .ok rows') : c.Admits d rows r ∧ rows' = rows ++ [r] := by
  unfold insert at h
  split at h
  · cases h
  · next hc =>
    split at h
    · cases h
    · next hk =>
      split at h
      · cases h
      · next hr =>
        refine ⟨⟨by simpa using hc, fun s hs => ?_, by simpa using hr⟩, (Except.ok.inj h).symm⟩
        rw [Bool.not_eq_true, List.any_eq_false] at hk
        simpa using hk s hs

/-- **What `ON CONFLICT DO NOTHING` can do**: find a conflicting row and leave
the table alone, or add the row. -/
theorem insertOrNothing_cases {target : ρ → ρ → Bool} {d : δ} {rows rows' : List ρ} {r : ρ}
    {o : Option ρ} (h : c.insertOrNothing target d rows r = .ok (o, rows')) :
    (o = none ∧ rows' = rows ∧ ∃ s ∈ rows, target r s = true) ∨
      (o = some r ∧ rows' = rows ++ [r] ∧ c.Admits d rows r ∧
        ∀ s ∈ rows, target r s = false) := by
  unfold insertOrNothing at h
  split at h
  · cases h
  · split at h
    · next ht =>
      obtain ⟨h1, h2⟩ := Prod.mk.inj (Except.ok.inj h)
      exact Or.inl ⟨h1.symm, h2.symm, by simpa using ht⟩
    · next ht =>
      rcases hi : c.insert d rows r with e | rows''
      · rw [hi] at h
        cases h
      · rw [hi] at h
        obtain ⟨h1, h2⟩ := Prod.mk.inj (Except.ok.inj h)
        obtain ⟨ha, hrows⟩ := admits_of_insert hi
        refine Or.inr ⟨h1.symm, h2.symm.trans hrows, ha, fun s hs => ?_⟩
        rw [Bool.not_eq_true, List.any_eq_false] at ht
        simpa using ht s hs

theorem insertOrNothing_of_conflict {target : ρ → ρ → Bool} {d : δ} {rows : List ρ} {r s : ρ}
    (hc : c.check r = true) (hs : s ∈ rows) (ht : target r s = true) :
    c.insertOrNothing target d rows r = .ok (none, rows) := by
  have : rows.any (target r) = true := List.any_eq_true.mpr ⟨s, hs, ht⟩
  simp [insertOrNothing, hc, this]

theorem insertOrNothing_of_admits {target : ρ → ρ → Bool} {d : δ} {rows : List ρ} {r : ρ}
    (h : c.Admits d rows r) (ht : ∀ s ∈ rows, target r s = false) :
    c.insertOrNothing target d rows r = .ok (some r, rows ++ [r]) := by
  have hany : rows.any (target r) = false := by
    rw [List.any_eq_false]
    intro s hs
    simp [ht s hs]
  simp [insertOrNothing, h.check, hany, insert_of_admits h, Except.map]

/-- **What an insert-or-select statement can do**: add the row and return it, or
find a conflicting row, leave the table alone and return what it can see. -/
theorem insertOrSelect_cases {target : ρ → ρ → Bool} {p : ρ → Bool} {d : δ}
    {snapshot current rows : List ρ} {r : ρ} {o : Option (ρ × Bool)}
    (h : c.insertOrSelect target p d snapshot current r = .ok (o, rows)) :
    (o = (snapshot.find? p).map (fun s => (s, false)) ∧ rows = current ∧
        ∃ s ∈ current, target r s = true) ∨
      (o = some (r, true) ∧ rows = current ++ [r] ∧ c.Admits d current r ∧
        ∀ s ∈ current, target r s = false) := by
  rw [insertOrSelect] at h
  rcases hi : c.insertOrNothing target d current r with e | ⟨inserted, rows'⟩
  · rw [hi] at h
    cases h
  · rw [hi] at h
    rcases insertOrNothing_cases hi with ⟨rfl, rfl, ht⟩ | ⟨rfl, rfl, ha, ht⟩
    · obtain ⟨h1, h2⟩ := Prod.mk.inj (Except.ok.inj h)
      exact Or.inl ⟨h1.symm, h2.symm, ht⟩
    · obtain ⟨h1, h2⟩ := Prod.mk.inj (Except.ok.inj h)
      exact Or.inr ⟨h1.symm, h2.symm, ha, ht⟩

theorem insertOrSelect_of_conflict {target : ρ → ρ → Bool} {p : ρ → Bool} {d : δ}
    {snapshot current : List ρ} {r s : ρ} (hc : c.check r = true) (hs : s ∈ current)
    (ht : target r s = true) :
    c.insertOrSelect target p d snapshot current r
      = .ok ((snapshot.find? p).map fun s => (s, false), current) := by
  rw [insertOrSelect, insertOrNothing_of_conflict hc hs ht]
  rfl

theorem insertOrSelect_of_admits {target : ρ → ρ → Bool} {p : ρ → Bool} {d : δ}
    {snapshot current : List ρ} {r : ρ} (h : c.Admits d current r)
    (ht : ∀ s ∈ current, target r s = false) :
    c.insertOrSelect target p d snapshot current r = .ok (some (r, true), current ++ [r]) := by
  rw [insertOrSelect, insertOrNothing_of_admits h ht]
  rfl

/-- **What `ON CONFLICT DO UPDATE` can do**: rewrite the conflicting row, or add
the row. -/
theorem insertOrUpdate_cases {target : ρ → ρ → Bool} {set : ρ → ρ} {d : δ}
    {rows rows' : List ρ} {r o : ρ}
    (h : c.insertOrUpdate target set d rows r = .ok (o, rows')) :
    (∃ s ∈ rows, target r s = true ∧ o = set s ∧
        rows' = rows.map fun s => if target r s then set s else s) ∨
      (o = r ∧ rows' = rows ++ [r] ∧ c.Admits d rows r ∧ ∀ s ∈ rows, target r s = false) := by
  unfold insertOrUpdate at h
  split at h
  · cases h
  · split at h
    · next s hf =>
      obtain ⟨h1, h2⟩ := Prod.mk.inj (Except.ok.inj h)
      exact Or.inl ⟨s, List.mem_of_find?_eq_some hf, by simpa using List.find?_some hf,
        h1.symm, h2.symm⟩
    · next hf =>
      rcases hi : c.insert d rows r with e | rows''
      · rw [hi] at h
        cases h
      · rw [hi] at h
        obtain ⟨h1, h2⟩ := Prod.mk.inj (Except.ok.inj h)
        obtain ⟨ha, hrows⟩ := admits_of_insert hi
        refine Or.inr ⟨h1.symm, h2.symm.trans hrows, ha, fun s hs => ?_⟩
        simpa using List.find?_eq_none.mp hf s hs

theorem insertOrUpdate_of_admits {target : ρ → ρ → Bool} (set : ρ → ρ) {d : δ} {rows : List ρ}
    {r : ρ} (h : c.Admits d rows r) (ht : ∀ s ∈ rows, target r s = false) :
    c.insertOrUpdate target set d rows r = .ok (r, rows ++ [r]) := by
  have hnone : rows.find? (target r) = none := by
    rw [List.find?_eq_none]
    intro s hs
    simp [ht s hs]
  simp [insertOrUpdate, h.check, hnone, insert_of_admits h, Except.map]

theorem insertOrUpdate_of_find {target : ρ → ρ → Bool} (set : ρ → ρ) {d : δ} {rows : List ρ}
    {r s : ρ} (hc : c.check r = true) (hf : rows.find? (target r) = some s) :
    c.insertOrUpdate target set d rows r
      = .ok (set s, rows.map fun s => if target r s then set s else s) := by
  simp [insertOrUpdate, hc, hf]

/-- `DO UPDATE` succeeds if the row may be added whenever nothing conflicts. -/
theorem insertOrUpdate_total {target : ρ → ρ → Bool} {set : ρ → ρ} {d : δ} {rows : List ρ} {r : ρ}
    (hc : c.check r = true) (h : (∀ s ∈ rows, target r s = false) → c.Admits d rows r) :
    ∃ o rows', c.insertOrUpdate target set d rows r = .ok (o, rows') := by
  rcases hf : rows.find? (target r) with _ | s
  · have hnone : ∀ s ∈ rows, target r s = false := by
      intro s hs
      simpa using List.find?_eq_none.mp hf s hs
    exact ⟨_, _, insertOrUpdate_of_admits set (h hnone) hnone⟩
  · exact ⟨_, _, insertOrUpdate_of_find set hc hf⟩

/-- **A second insert-or-select of the same row**, `r'`, after `r` was inserted:
it finds `r` in a snapshot that has it, and nothing in one from before. -/
theorem insertOrSelect_again {target : ρ → ρ → Bool} {p : ρ → Bool} {d : δ}
    {before current : List ρ} (r r' : ρ) (hc : c.check r' = true) (hr : r ∈ current)
    (ht : target r' r = true) (hp : p r = true) (hpt : ∀ s, p s = true → target r s = true)
    (hbefore : ∀ s ∈ before, target r s = false)
    (hunique : ∀ s ∈ current, target r s = true → s = r) :
    c.insertOrSelect target p d current current r' = .ok (some (r, false), current) ∧
      c.insertOrSelect target p d before current r' = .ok (none, current) := by
  have hfound : current.find? p = some r := by
    rw [find?_eq_of_unique hr fun s hs h => hunique s hs (hpt s h), if_pos hp]
  have hnone : before.find? p = none := by
    rw [List.find?_eq_none]
    intro s hs h
    have hfalse := hbefore s hs
    rw [hpt s h] at hfalse
    cases hfalse
  constructor
  · rw [insertOrSelect_of_conflict hc hr ht, hfound]
    rfl
  · rw [insertOrSelect_of_conflict hc hr ht, hnone]
    rfl

/-- **A row that was let in keeps the constraints**, as long as the foreign keys
of the rows already there still hold. -/
theorem Holds.append {d d' : δ} {rows : List ρ} {r : ρ} (h : c.Holds d rows)
    (ha : c.Admits d rows r) (hsymm : ∀ s ∈ rows, c.sameKey s r = c.sameKey r s)
    (hrefs : ∀ s, c.refs d s = true → c.refs d' s = true) : c.Holds d' (rows ++ [r]) where
  check := by
    intro s hs
    rcases List.mem_append.mp hs with hs | hs
    · exact h.check s hs
    · rw [List.mem_singleton.mp hs]
      exact ha.check
  keys := by
    rw [List.pairwise_append]
    refine ⟨h.keys, List.pairwise_singleton _ _, fun s hs t ht => ?_⟩
    rw [List.mem_singleton.mp ht, hsymm s hs]
    exact ha.fresh s hs
  refs := by
    intro s hs
    rcases List.mem_append.mp hs with hs | hs
    · exact hrefs s (h.refs s hs)
    · rw [List.mem_singleton.mp hs]
      exact hrefs r ha.refs

/-- A table that is left alone keeps its constraints when no foreign key loses
its target. -/
theorem Holds.mono {d d' : δ} {rows : List ρ} (h : c.Holds d rows)
    (hrefs : ∀ s, c.refs d s = true → c.refs d' s = true) : c.Holds d' rows where
  check := h.check
  keys := h.keys
  refs := fun s hs => hrefs s (h.refs s hs)

/-- Rewriting rows in place keeps the constraints if every rewritten row has its
old keys, passes its CHECKs and keeps its foreign keys. -/
theorem Holds.map {d d' : δ} {rows : List ρ} {f : ρ → ρ} (h : c.Holds d rows)
    (hcheck : ∀ r ∈ rows, c.check (f r) = true)
    (hkey : ∀ r s, c.sameKey (f r) (f s) = c.sameKey r s)
    (hrefs : ∀ r ∈ rows, c.refs d' (f r) = true) : c.Holds d' (rows.map f) where
  check := by
    intro s hs
    obtain ⟨r, hr, rfl⟩ := List.mem_map.mp hs
    exact hcheck r hr
  keys := by
    rw [List.pairwise_map]
    exact h.keys.imp fun {r s} hk => by rw [hkey, hk]
  refs := by
    intro s hs
    obtain ⟨r, hr, rfl⟩ := List.mem_map.mp hs
    exact hrefs r hr

/-- Two rows of one table that agree on a key are one row. -/
theorem Holds.eq_of_sameKey {d : δ} {rows : List ρ} (h : c.Holds d rows)
    (hsymm : ∀ r s, c.sameKey r s = c.sameKey s r) {r s : ρ} (hr : r ∈ rows) (hs : s ∈ rows)
    (hk : c.sameKey r s = true) : r = s := by
  have : Std.Symm fun a b => c.sameKey a b = false := ⟨fun a b hab => by rw [hsymm, hab]⟩
  by_contra hne
  have := h.keys.forall hr hs hne
  rw [hk] at this
  cases this

end Constraints

/-- `UPDATE` beside other writes of one statement: the rows come from the
snapshot, and a row whose key is among those already `written` by the statement
is neither updated nor returned. -/
def updateUnwritten {ρ κ : Type} [BEq κ] (key : ρ → κ) (written : List κ) (p : ρ → Bool)
    (set : ρ → ρ) (snapshot current : List ρ) : List ρ × List ρ :=
  let found := (snapshot.filter fun r => p r && !written.contains (key r)).map key
  ((current.filter fun r => found.contains (key r)).map set,
    current.map fun r => if found.contains (key r) then set r else r)

/-- An update all of whose rows are already written does nothing and returns
nothing. -/
theorem updateUnwritten_of_written {ρ κ : Type} [BEq κ] {key : ρ → κ} {written : List κ}
    {p : ρ → Bool} {set : ρ → ρ} {snapshot current : List ρ}
    (h : ∀ r ∈ snapshot, p r = true → written.contains (key r) = true) :
    updateUnwritten key written p set snapshot current = ([], current) := by
  have hnone : snapshot.filter (fun r => p r && !written.contains (key r)) = [] := by
    rw [List.filter_eq_nil_iff]
    intro r hr
    by_cases hp : p r = true
    · simp [h r hr hp]
    · simp [hp]
  simp [updateUnwritten, hnone]

end Sql
