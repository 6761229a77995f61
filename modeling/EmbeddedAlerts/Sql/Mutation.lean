import EmbeddedAlerts.Sql.Table

/-!
# Writing statements and sessions

What `INSERT`, `UPDATE` and `DELETE` do to a table with row triggers, and what a
session that issues them commits.

* `Change ρ` is a statement on a table of rows `ρ`; `Change.rows` gives the rows
  it leaves.  A row trigger sees each row before it is written and raises or lets
  it through.
* `Constraints.recheck` is the look at the constraints when the statement ends.  A
  row that the statement left alone may go on missing a CHECK or a foreign key
  that it missed before: that is what `NOT VALID` leaves room for.  PostgreSQL
  looks for duplicate keys after every row, so it refuses some statements that
  pass here.
* `Session σ` is the committed state with the state that the open transaction has
  made of it.  A failed statement leaves the transaction without effect until it
  is closed.
* `Session.run_kept` is the invariant rule: if every statement moves the state
  along a preorder, what has been committed stays behind every later state.
-/

namespace Sql

/-! ### Statements on one table -/

/-- The row triggers of a table, run before the row is written. -/
structure Triggers (ρ : Type) where
  insert : ρ → Except DbErr ρ
  update : ρ → ρ → Except DbErr ρ
  delete : ρ → Except DbErr Unit

/-- A table without triggers. -/
def Triggers.none {ρ : Type} : Triggers ρ where
  insert r := .ok r
  update _ r := .ok r
  delete _ := .ok ()

/-- A table whose rows may be added and never touched again. -/
def Triggers.immutable {ρ : Type} (message : String) : Triggers ρ where
  insert r := .ok r
  update _ _ := .error (.raised message)
  delete _ := .error (.raised message)

/-- A statement on a table.  `set r = none` says that `r` is outside the `WHERE`. -/
inductive Change (ρ : Type) where
  | insert (rows : List ρ)
  | update (set : ρ → Option ρ)
  | delete (p : ρ → Bool)

namespace Change

variable {ρ : Type} {t : Triggers ρ}

/-- One row of an `UPDATE`. -/
def updateRow (t : Triggers ρ) (set : ρ → Option ρ) (r : ρ) : Except DbErr ρ :=
  match set r with
  | none => .ok r
  | some r' => t.update r r'

/-- The rows the statement leaves. -/
def rows (t : Triggers ρ) : Change ρ → List ρ → Except DbErr (List ρ)
  | insert new, rows => (new.mapM t.insert).map fun new => rows ++ new
  | update set, rows => rows.mapM (updateRow t set)
  | delete p, rows => ((rows.filter p).mapM t.delete).map fun _ => rows.filter fun r => !p r

/-- The rows the statement deletes. -/
def deleted : Change ρ → List ρ → List ρ
  | insert _, _ => []
  | update _, _ => []
  | delete p, rows => rows.filter p

/-- A row trigger that refuses every `DELETE` lets one through only if it finds
nothing to delete. -/
theorem rows_delete_eq {p : ρ → Bool} {rows rows' : List ρ}
    (hdelete : ∀ r, ∃ e, t.delete r = .error e) (h : (delete p).rows t rows = .ok rows') :
    rows' = rows := by
  rw [Change.rows] at h
  rcases hm : (rows.filter p).mapM t.delete with e | units
  · rw [hm] at h
    cases h
  · rw [hm] at h
    have hnone : ∀ r ∈ rows, ¬p r = true := by
      intro r hr hp
      obtain ⟨_, -, hok⟩ := exists_mem_of_mapM hm (List.mem_filter.mpr ⟨hr, hp⟩)
      obtain ⟨e, he⟩ := hdelete r
      rw [he] at hok
      cases hok
    rw [← Except.ok.inj h, List.filter_eq_self]
    intro r hr
    simp [hnone r hr]

/-- **What a statement can do to a table whose trigger refuses every `DELETE`**:
add rows, or rewrite rows as the trigger lets it. -/
theorem rows_cases {c : Change ρ} {rows rows' : List ρ}
    (hdelete : ∀ r, ∃ e, t.delete r = .error e) (h : c.rows t rows = .ok rows') :
    (∃ new, rows' = rows ++ new) ∨
      ∃ set, c = update set ∧
        List.Forall₂ (fun r r' => updateRow t set r = .ok r') rows rows' := by
  cases c with
  | insert new =>
    rw [Change.rows] at h
    rcases hm : new.mapM t.insert with e | new'
    · rw [hm] at h
      cases h
    · rw [hm] at h
      exact Or.inl ⟨new', (Except.ok.inj h).symm⟩
  | update set => exact Or.inr ⟨set, rfl, mapM_eq_ok_iff.mp h⟩
  | delete p => exact Or.inl ⟨[], by rw [rows_delete_eq hdelete h, List.append_nil]⟩

end Change

/-- The constraints of a table when a statement ends that took the database from
`d` to `d'` and the table from `rows` to `rows'`. -/
def Constraints.recheck {δ ρ : Type} [BEq ρ] (c : Constraints δ ρ) (d d' : δ)
    (rows rows' : List ρ) : Except DbErr Unit :=
  if rows'.any fun r => !c.check r && !rows.contains r then .error .checkViolation
  else if rows'.Pairwise fun r s => c.sameKey r s = false then
    if rows'.any fun r => !c.refs d' r && !(rows.contains r && !c.refs d r) then
      .error .foreignKeyViolation
    else .ok ()
  else .error .uniqueViolation

/-! ### Sessions -/

/-- What a session does. -/
inductive SessionStep (κ : Type) where
  | command (c : κ)
  | commit
  | rollback

/-- The committed state, and the state the open transaction works on. -/
structure Session (σ : Type) where
  committed : σ
  working : σ
  /-- A statement of the open transaction has failed. -/
  failed : Bool

namespace Session

variable {σ κ ε : Type} (exec : κ → σ → Except ε σ)

/-- A session in which nothing has been done. -/
def start (state : σ) : Session σ := ⟨state, state, false⟩

def step (s : Session σ) : SessionStep κ → Session σ
  | .command c =>
    if s.failed then s
    else match exec c s.working with
      | .ok working => { s with working := working }
      | .error _ => { s with working := s.committed, failed := true }
  | .commit => ⟨s.working, s.working, false⟩
  | .rollback => ⟨s.committed, s.committed, false⟩

def run (s : Session σ) (steps : List (SessionStep κ)) : Session σ := steps.foldl (step exec) s

/-- Every statement of the run meets `P` in the state it finds. -/
def Obeys (P : κ → σ → Prop) : Session σ → List (SessionStep κ) → Prop
  | _, [] => True
  | s, .command c :: steps => P c s.working ∧ Obeys P (step exec s (.command c)) steps
  | s, .commit :: steps => Obeys P (step exec s .commit) steps
  | s, .rollback :: steps => Obeys P (step exec s .rollback) steps

variable {exec} {P : κ → σ → Prop} {s : Session σ}

theorem run_append (first second : List (SessionStep κ)) :
    run exec s (first ++ second) = run exec (run exec s first) second :=
  List.foldl_append

theorem obeys_append {first second : List (SessionStep κ)} :
    Obeys exec P s (first ++ second) ↔
      Obeys exec P s first ∧ Obeys exec P (run exec s first) second := by
  induction first generalizing s with
  | nil => exact Iff.intro (fun h => ⟨trivial, h⟩) fun h => h.2
  | cons step steps ih =>
    cases step with
    | command c =>
      rw [List.cons_append, Obeys, Obeys, ih, and_assoc]
      rfl
    | commit => exact ih
    | rollback => exact ih

section Kept

variable {R : σ → σ → Prop} [Std.Refl R] [IsTrans σ R]

theorem step_kept (hexec : ∀ c w w', P c w → exec c w = .ok w' → R w w')
    (hs : R s.committed s.working) {st : SessionStep κ} (hP : Obeys exec P s [st]) :
    R s.committed (step exec s st).committed ∧
      R (step exec s st).committed (step exec s st).working := by
  cases st with
  | command c =>
    rw [step]
    split_ifs with hfailed
    · exact ⟨refl_of R _, hs⟩
    · rcases hx : exec c s.working with e | w
      · exact ⟨refl_of R _, refl_of R _⟩
      · exact ⟨refl_of R _, trans_of R hs (hexec c _ _ hP.1 hx)⟩
  | commit => exact ⟨hs, refl_of R _⟩
  | rollback => exact ⟨refl_of R _, refl_of R _⟩

/-- **What is committed stays behind every later state**, committed or not. -/
theorem run_kept (hexec : ∀ c w w', P c w → exec c w = .ok w' → R w w')
    (hs : R s.committed s.working) {steps : List (SessionStep κ)} (hP : Obeys exec P s steps) :
    R s.committed (run exec s steps).committed ∧
      R (run exec s steps).committed (run exec s steps).working := by
  induction steps generalizing s with
  | nil => exact ⟨refl_of R _, hs⟩
  | cons st steps ih =>
    have hP' : Obeys exec P s [st] ∧ Obeys exec P (run exec s [st]) steps := obeys_append.mp hP
    obtain ⟨hfirst, hnext⟩ := step_kept hexec hs hP'.1
    obtain ⟨hrest, hlast⟩ := ih hnext hP'.2
    exact ⟨trans_of R hfirst hrest, hlast⟩

end Kept

end Session

end Sql
