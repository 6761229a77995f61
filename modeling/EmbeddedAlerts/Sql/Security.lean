import EmbeddedAlerts.Sql.Table

/-!
# Row-level security

Three-valued truth, run-time settings and policies, as far as row-level security
needs them.  For a role that does not bypass it, a table is what its policy lets
through: the policy is read as one more condition of every `SELECT` and `UPDATE`,
and as a check on every new row.  Keys and foreign keys look at the whole table all
the same.

* `Truth`: a condition on a NULL is unknown, and a row passes only if the condition
  is true.
* `Settings`: what `current_setting(name, true)` returns; `Settings.set` is
  `set_config` until the end of the transaction.
* `castBoolean`: the input of the type `boolean`.
* `Policy.visible` and `Policy.withCheck`: the two uses of a policy.
-/

namespace Sql

/-! ### Truth -/

inductive Truth where
  | true
  | false
  | unknown
deriving DecidableEq, Repr

namespace Truth

def ofBool (b : Bool) : Truth := if b then .true else .false

def and : Truth → Truth → Truth
  | .true, t => t
  | .false, _ => .false
  | .unknown, .false => .false
  | .unknown, _ => .unknown

def or : Truth → Truth → Truth
  | .false, t => t
  | .true, _ => .true
  | .unknown, .true => .true
  | .unknown, _ => .unknown

/-- `a = b`, unknown if one of them is NULL. -/
def equals {α : Type} [DecidableEq α] (a b : Option α) : Truth :=
  match a, b with
  | some a, some b => ofBool (decide (a = b))
  | _, _ => .unknown

@[simp] theorem ofBool_eq_true {b : Bool} : ofBool b = .true ↔ b = Bool.true := by
  cases b <;> decide

@[simp] theorem and_eq_true {s t : Truth} : s.and t = .true ↔ s = .true ∧ t = .true := by
  cases s <;> cases t <;> decide

@[simp] theorem or_eq_true {s t : Truth} : s.or t = .true ↔ s = .true ∨ t = .true := by
  cases s <;> cases t <;> decide

/-- **Nothing equals a NULL.** -/
@[simp] theorem equals_some_eq_true {α : Type} [DecidableEq α] {a : α} {b : Option α} :
    equals (some a) b = .true ↔ b = some a := by
  cases b with
  | none => simp [equals]
  | some b => rw [equals, ofBool_eq_true, decide_eq_true_iff, Option.some.injEq, eq_comm]

end Truth

/-! ### Settings -/

/-- The value of each setting, if it has one. -/
abbrev Settings : Type := String → Option String

/-- `set_config(name, value, true)`. -/
def Settings.set (s : Settings) (name value : String) : Settings :=
  fun n => if n = name then some value else s n

@[simp] theorem Settings.set_self (s : Settings) (name value : String) :
    s.set name value name = some value := if_pos rfl

theorem Settings.set_of_ne (s : Settings) {name n : String} (value : String) (h : n ≠ name) :
    s.set name value n = s n := if_neg h

/-- `NULLIF(a, b)`. -/
def nullIf (a : Option String) (b : String) : Option String := a.filter fun s => decide (s ≠ b)

theorem nullIf_some {s b : String} (h : s ≠ b) : nullIf (some s) b = some s := by
  simp [nullIf, Option.filter, h]

/-- A setting that was never made, or was reset when its transaction ended, is
NULL. -/
theorem nullIf_eq_none {a : Option String} {b : String} (h : a = none ∨ a = some b) :
    nullIf a b = none := by
  rcases h with rfl | rfl <;> simp [nullIf, Option.filter]

/-- C's `isspace`. -/
def isSpace (c : Char) : Bool := decide (c = ' ') || decide (9 ≤ c.toNat ∧ c.toNat ≤ 13)

/-- `boolin`: a prefix of `true`, `false`, `yes` or `no`, enough of `on` or `off` to
tell them apart, `1` or `0`, in either case and with spaces around it. -/
def castBoolean (s : String) : Option Bool :=
  let s := ((s.toList.dropWhile isSpace).reverse.dropWhile isSpace).reverse.map Char.toLower
  let starts (word : String) : Bool := !s.isEmpty && s.isPrefixOf word.toList
  if starts "true" || starts "yes" || decide (s = "on".toList) || decide (s = ['1']) then
    some true
  else if starts "false" || starts "no" || decide (s = "of".toList)
      || decide (s = "off".toList) || decide (s = ['0']) then some false
  else none

theorem castBoolean_toString (b : Bool) : castBoolean (toString b) = some b := by
  cases b <;> decide

/-! ### Policies -/

/-- A policy with one expression for `USING` and `WITH CHECK`. -/
abbrev Policy (ρ : Type) : Type := ρ → Truth

namespace Policy

variable {ρ : Type} (p : Policy ρ)

/-- The rows that can be seen. -/
def visible (rows : List ρ) : List ρ := rows.filter fun r => decide (p r = .true)

/-- The check of a new row. -/
def withCheck (table : String) (r : ρ) : Except DbErr Unit :=
  if p r = .true then .ok ()
  else .error (.raised ("new row violates row-level security policy for table " ++ table))

@[simp] theorem mem_visible {rows : List ρ} {r : ρ} : r ∈ p.visible rows ↔ r ∈ rows ∧ p r = .true := by
  simp [visible]

theorem withCheck_of {table : String} {r : ρ} (h : p r = .true) : p.withCheck table r = .ok () :=
  if_pos h

/-- A condition that implies the policy finds the same rows. -/
theorem filter_visible {q : ρ → Bool} {rows : List ρ} (h : ∀ r ∈ rows, q r = true → p r = .true) :
    (p.visible rows).filter q = rows.filter q := by
  rw [visible, List.filter_filter]
  refine List.filter_congr fun r hr => ?_
  by_cases hq : q r = true
  · simp [hq, h r hr hq]
  · simp [hq]

theorem find?_visible {q : ρ → Bool} {rows : List ρ} (h : ∀ r ∈ rows, q r = true → p r = .true) :
    (p.visible rows).find? q = rows.find? q := by
  rw [← List.head?_filter, ← List.head?_filter, filter_visible p h]

theorem visible_eq_nil {rows : List ρ} (h : ∀ r ∈ rows, p r ≠ .true) : p.visible rows = [] := by
  rw [visible, List.filter_eq_nil_iff]
  intro r hr
  simp [h r hr]

end Policy

end Sql
