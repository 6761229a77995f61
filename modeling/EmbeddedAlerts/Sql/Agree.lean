import EmbeddedAlerts.Sql.Keyset
import EmbeddedAlerts.Sql.Table

/-!
# Two runs on tables that agree on some rows

`AgreeOn P l m`: the tables `l` and `m` have the same rows among those that `P` holds
of.  Whatever looks for rows that `P` holds of finds the same in both: `any`, `find?`
if there is one row to find, and an `ORDER BY`.

`Outcome R` compares the outcomes of two runs of a statement, the same error or the
same rows, and versions of the database that `R` relates.  `Twin` is what it takes for
an insert to do the same in both runs: the rows that are in its way are rows that `P`
holds of, and its foreign keys find their targets in both or in neither.
-/

namespace Sql

section Agree

variable {ρ : Type} {P : ρ → Prop} {l m : List ρ} {p : ρ → Bool}

/-- The tables have the same rows among those that `P` holds of. -/
def AgreeOn (P : ρ → Prop) (l m : List ρ) : Prop := ∀ r, P r → (r ∈ l ↔ r ∈ m)

theorem AgreeOn.refl (l : List ρ) : AgreeOn P l l := fun _ _ => Iff.rfl

theorem AgreeOn.any (h : AgreeOn P l m) (hl : ∀ r ∈ l, p r = true → P r)
    (hm : ∀ r ∈ m, p r = true → P r) : l.any p = m.any p := by
  rw [Bool.eq_iff_iff, List.any_eq_true, List.any_eq_true]
  constructor
  · rintro ⟨r, hr, hp⟩
    exact ⟨r, (h r (hl r hr hp)).mp hr, hp⟩
  · rintro ⟨r, hr, hp⟩
    exact ⟨r, (h r (hm r hr hp)).mpr hr, hp⟩

theorem AgreeOn.find? (h : AgreeOn P l m) (hl : ∀ r ∈ l, p r = true → P r)
    (hm : ∀ r ∈ m, p r = true → P r)
    (hunique : ∀ a ∈ l, ∀ b ∈ l, p a = true → p b = true → a = b) :
    l.find? p = m.find? p := by
  rcases hf : m.find? p with _ | b
  · rw [List.find?_eq_none] at hf ⊢
    intro r hr hp
    exact hf r ((h r (hl r hr hp)).mp hr) hp
  · have hb := List.mem_of_find?_eq_some hf
    have hpb := List.find?_some hf
    have hbl := (h b (hm b hb hpb)).mpr hb
    rw [find?_eq_of_unique hbl fun a ha hpa => hunique a ha b hbl hpa hpb, if_pos hpb]

/-- The rows that are picked are the same, up to their order. -/
theorem AgreeOn.mem_filter (h : AgreeOn P l m) (hp : ∀ r, p r = true → P r) (r : ρ) :
    r ∈ l.filter p ↔ r ∈ m.filter p := by
  rw [List.mem_filter, List.mem_filter]
  exact and_congr_left fun hpr => h r (hp r hpr)

/-- Tables that agree after a filter agree on what the filter keeps. -/
theorem AgreeOn.of_filter (h : l.filter p = m.filter p) (hp : ∀ r, P r → p r = true) :
    AgreeOn P l m := by
  intro r hr
  have hmem : r ∈ l.filter p ↔ r ∈ m.filter p := by rw [h]
  rw [List.mem_filter, List.mem_filter] at hmem
  exact ⟨fun hl => (hmem.mp ⟨hl, hp r hr⟩).1, fun hm => (hmem.mpr ⟨hm, hp r hr⟩).1⟩

theorem AgreeOn.append (h : AgreeOn P l m) (r : ρ) : AgreeOn P (l ++ [r]) (m ++ [r]) := by
  intro s hs
  rw [List.mem_append, List.mem_append]
  exact or_congr_left (h s hs)

/-- An update that does not move rows in or out of `P`. -/
theorem AgreeOn.map (h : AgreeOn P l m) {f : ρ → ρ} (hf : ∀ r, P (f r) → P r) :
    AgreeOn P (l.map f) (m.map f) := by
  intro s hs
  rw [List.mem_map, List.mem_map]
  refine exists_congr fun r => ?_
  constructor
  · rintro ⟨hr, rfl⟩
    exact ⟨(h r (hf r hs)).mp hr, rfl⟩
  · rintro ⟨hr, rfl⟩
    exact ⟨(h r (hf r hs)).mpr hr, rfl⟩

/-- Lists without repetitions that have the same members are as long. -/
theorem length_eq_of_mem_iff (hl : l.Nodup) (hm : m.Nodup) (h : ∀ r, r ∈ l ↔ r ∈ m) :
    l.length = m.length :=
  ((List.perm_ext_iff_of_nodup hl hm).mpr h).length_eq

/-- A list with one member at most is determined by it. -/
theorem head?_eq_of_mem_iff (hl : ∀ a ∈ l, ∀ b ∈ l, a = b) (h : ∀ r, r ∈ l ↔ r ∈ m) :
    l.head? = m.head? := by
  rcases l with _ | ⟨a, l⟩
  · rw [List.eq_nil_iff_forall_not_mem.mpr fun r hr => List.not_mem_nil ((h r).mpr hr)]
  · rcases m with _ | ⟨b, m⟩
    · exact absurd ((h a).mp List.mem_cons_self) List.not_mem_nil
    · exact congrArg some (hl a List.mem_cons_self b ((h b).mpr List.mem_cons_self))

/-- **An `ORDER BY` gives the same rows in the same order.** -/
theorem sorted_eq_of_mem_iff {κ : Type} [LinearOrder κ] {key : ρ → κ} (hl : Distinct key l)
    (hm : Distinct key m) (h : ∀ r, r ∈ l ↔ r ∈ m) : sorted key l = sorted key m := by
  refine (increasing_sorted hl).ext (increasing_sorted hm) fun r => ?_
  rw [mem_sorted, mem_sorted]
  exact h r

end Agree

/-! ### Statements -/

section Outcome

variable {α β σ τ : Type} {R : σ → σ → Prop} {S : τ → τ → Prop}

/-- Both runs fail with the same error, or return the same and leave related
versions. -/
inductive Outcome (R : σ → σ → Prop) : Except DbErr (α × σ) → Except DbErr (α × σ) → Prop
  | error (e : DbErr) : Outcome R (.error e) (.error e)
  | ok {a : α} {s t : σ} (h : R s t) : Outcome R (.ok (a, s)) (.ok (a, t))

theorem Outcome.bind {q q' : Except DbErr (α × σ)} {f g : α × σ → Except DbErr (β × τ)}
    (h : Outcome R q q')
    (hf : ∀ a s t, q = .ok (a, s) → q' = .ok (a, t) → R s t → Outcome S (f (a, s)) (g (a, t))) :
    Outcome S (q >>= f) (q' >>= g) := by
  cases h with
  | error e => exact .error e
  | ok h => exact hf _ _ _ rfl rfl h

theorem Action.Alike.statement {δ ε : Type} {R : δ → δ → Prop} {toError : DbErr → ε}
    {q : Statement δ α} {s t : δ} (h : R s t) (hq : Outcome R (q s s) (q t t)) :
    Action.Alike R (Action.statement toError q) s t := by
  generalize hs : q s s = r at hq
  generalize ht : q t t = r' at hq
  cases hq with
  | error e =>
    rw [Action.Alike, Action.statement_of_error hs, Action.statement_of_error ht]
    exact ⟨rfl, h⟩
  | ok h' =>
    rw [Action.Alike, Action.statement_of_ok hs, Action.statement_of_ok ht]
    exact ⟨rfl, h'⟩

theorem Outcome.mono {R' : σ → σ → Prop} {q q' : Except DbErr (α × σ)} (h : Outcome R q q')
    (hR : ∀ a s t, q = .ok (a, s) → q' = .ok (a, t) → R s t → R' s t) : Outcome R' q q' := by
  cases h with
  | error e => exact .error e
  | ok h => exact .ok (hR _ _ _ rfl rfl h)

end Outcome

/-! ### Actions that read nothing -/

namespace Action.Alike

variable {σ ε α β : Type} {R : σ → σ → Prop} {s t : σ}

theorem const {r : Except ε α} (h : R s t) : Alike R (ofExcept r : Action σ ε α) s t := ⟨rfl, h⟩

theorem okOr {e : ε} {o : Option α} (h : R s t) : Alike R (okOr e o : Action σ ε α) s t := by
  cases o with
  | none => exact ⟨rfl, h⟩
  | some a => exact ⟨rfl, h⟩

theorem ensure_bind {p : Prop} [Decidable p] {e : ε} {f : Unit → Action σ ε β} (h : R s t)
    (hf : p → Alike R (f ()) s t) : Alike R (ensure p e >>= f) s t := by
  by_cases hp : p
  · rw [Alike, bind_of_ok (ensure_apply_of hp e s), bind_of_ok (ensure_apply_of hp e t)]
    exact hf hp
  · rw [Alike, bind_of_error (ensure_apply_of_not hp e s),
      bind_of_error (ensure_apply_of_not hp e t)]
    exact ⟨rfl, h⟩

theorem ofExcept_bind {r : Except ε α} {f : α → Action σ ε β} (h : R s t)
    (hf : ∀ a, r = .ok a → Alike R (f a) s t) : Alike R (ofExcept r >>= f) s t := by
  cases r with
  | error e => exact ⟨rfl, h⟩
  | ok a => exact hf a rfl

theorem okOr_bind {e : ε} {o : Option α} {f : α → Action σ ε β} (h : R s t)
    (hf : ∀ a, o = some a → Alike R (f a) s t) : Alike R (Action.okOr e o >>= f) s t := by
  cases o with
  | none => exact ⟨rfl, h⟩
  | some a => exact hf a rfl

theorem query_bind {g : σ → α} {f : α → Action σ ε β} (hg : g s = g t)
    (hf : Alike R (f (g s)) s t) : Alike R (query g >>= f) s t := by
  have hquery : (query g >>= f) t = f (g s) t := by
    rw [hg]
    rfl
  rw [Alike, hquery]
  exact hf

end Action.Alike

/-! ### Inserts -/

namespace Constraints

variable {δ ρ : Type} {c : Constraints δ ρ} {P : ρ → Prop} {d d' : δ} {l m : List ρ} {r : ρ}
  {target : ρ → ρ → Bool}

/-- What makes an insert of `r` do the same in two runs. -/
structure Twin (c : Constraints δ ρ) (P : ρ → Prop) (d d' : δ) (l m : List ρ) (r : ρ) : Prop where
  rows : AgreeOn P l m
  left : ∀ s ∈ l, c.sameKey r s = true → P s
  right : ∀ s ∈ m, c.sameKey r s = true → P s
  refs : c.refs d r = c.refs d' r

theorem Twin.any_eq (h : c.Twin P d d' l m r)
    (htarget : ∀ s, target r s = true → c.sameKey r s = true) :
    l.any (target r) = m.any (target r) :=
  h.rows.any (fun s hs ht => h.left s hs (htarget s ht)) fun s hs ht => h.right s hs (htarget s ht)

theorem Twin.insert (h : c.Twin P d d' l m r) :
    (∃ e, c.insert d l r = .error e ∧ c.insert d' m r = .error e) ∨
      (c.insert d l r = .ok (l ++ [r]) ∧ c.insert d' m r = .ok (m ++ [r])) := by
  rw [Constraints.insert, Constraints.insert, h.any_eq fun _ hs => hs, h.refs]
  split_ifs
  · exact Or.inl ⟨_, rfl, rfl⟩
  · exact Or.inl ⟨_, rfl, rfl⟩
  · exact Or.inl ⟨_, rfl, rfl⟩
  · exact Or.inr ⟨rfl, rfl⟩

theorem Twin.insertOrNothing (h : c.Twin P d d' l m r)
    (htarget : ∀ s, target r s = true → c.sameKey r s = true) :
    Outcome (AgreeOn P) (c.insertOrNothing target d l r) (c.insertOrNothing target d' m r) := by
  rw [Constraints.insertOrNothing, Constraints.insertOrNothing, h.any_eq htarget]
  split_ifs
  · exact .error _
  · exact .ok h.rows
  · rcases h.insert with ⟨e, hl, hm⟩ | ⟨hl, hm⟩
    · rw [hl, hm]
      exact .error e
    · rw [hl, hm]
      exact .ok (h.rows.append r)

theorem Twin.insertOrUpdate (h : c.Twin P d d' l m r)
    (htarget : ∀ s, target r s = true → c.sameKey r s = true)
    (hunique : ∀ a ∈ l, ∀ b ∈ l, target r a = true → target r b = true → a = b) {set : ρ → ρ}
    (hset : ∀ s, P (set s) → P s) :
    Outcome (AgreeOn P) (c.insertOrUpdate target set d l r)
      (c.insertOrUpdate target set d' m r) := by
  have hfind : l.find? (target r) = m.find? (target r) :=
    h.rows.find? (fun s hs ht => h.left s hs (htarget s ht))
      (fun s hs ht => h.right s hs (htarget s ht)) hunique
  rw [Constraints.insertOrUpdate, Constraints.insertOrUpdate, hfind]
  split_ifs
  · exact .error _
  · rcases m.find? (target r) with _ | s
    · rcases h.insert with ⟨e, hl, hm⟩ | ⟨hl, hm⟩
      · rw [hl, hm]
        exact .error e
      · rw [hl, hm]
        exact .ok (h.rows.append r)
    · refine .ok (h.rows.map fun s hs => ?_)
      split_ifs at hs
      · exact hset s hs
      · exact hs

theorem Twin.insertOrSelect (h : c.Twin P d d' l m r)
    (htarget : ∀ s, target r s = true → c.sameKey r s = true) {p : ρ → Bool} {snapshot : List ρ}
    {snapshot' : List ρ} (hfind : snapshot.find? p = snapshot'.find? p) :
    Outcome (AgreeOn P) (c.insertOrSelect target p d snapshot l r)
      (c.insertOrSelect target p d' snapshot' m r) := by
  have hnothing := h.insertOrNothing htarget
  rw [Constraints.insertOrSelect, Constraints.insertOrSelect]
  generalize c.insertOrNothing target d l r = q at hnothing
  generalize c.insertOrNothing target d' m r = q' at hnothing
  cases hnothing with
  | error e => exact .error e
  | @ok a l' m' hrows =>
    rcases a with _ | s
    · rw [hfind]
      exact .ok hrows
    · exact .ok hrows

end Constraints

end Sql
