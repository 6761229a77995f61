import Mathlib.Logic.Relation
import Mathlib.Data.List.Forall2

/-!
# Store actions

An `Action σ ε α` is a computation over a store `σ` that ends in a value or in
an error.  An error does not undo anything: what the action wrote before it
failed stays written, as it does for a program that issues one autocommitted
statement after another.  `transaction` is the combinator that does undo it.

Five ways of talking about an action are set up here, each with the rules its
combinators obey.

* `bind_eq_ok` takes a run apart, one statement at a time.
* `forEach_zipIdx_ok` and `forEach_zipIdx_error` run a numbered loop on an
  invariant that knows the number of the turn.
* `Moves R x s`: the action takes `s` to a state that `R` relates to it, whether
  it succeeds or fails.  For a preorder `R` the rules compose (`Moves.bind`,
  `Moves.forEach`, `Moves.transaction`), so a bound on what one statement can
  do bounds what a whole request can do.
* `Throws P x s`: every error that the action can end in from `s` meets `P`.
* `Alike R x s t`: two runs of the same action, from `s` and from `t`, give the
  same result and end in states that `R` relates again.
-/

namespace Sql

/-! ### Results -/

theorem except_bind_eq_ok {ε α β : Type} {r : Except ε α} {f : α → Except ε β} {b : β}
    (h : (r >>= f) = .ok b) : ∃ a, r = .ok a ∧ f a = .ok b := by
  cases r with
  | error e => cases h
  | ok a => exact ⟨a, rfl, h⟩

/-- `mapM` succeeds exactly when it does on every element. -/
theorem mapM_eq_ok_iff {ε α β : Type} {f : α → Except ε β} :
    ∀ {l : List α} {m : List β}, l.mapM f = .ok m ↔ List.Forall₂ (fun a b => f a = .ok b) l m := by
  intro l
  induction l with
  | nil =>
    intro m
    rw [List.forall₂_nil_left_iff, List.mapM_nil]
    exact ⟨fun h => (Except.ok.inj h).symm, fun h => by rw [h]; rfl⟩
  | cons a l ih =>
    intro m
    rw [List.mapM_cons, List.forall₂_cons_left_iff]
    constructor
    · intro h
      obtain ⟨b, hb, h⟩ := except_bind_eq_ok h
      obtain ⟨bs, hbs, h⟩ := except_bind_eq_ok h
      exact ⟨b, bs, hb, ih.mp hbs, (Except.ok.inj h).symm⟩
    · rintro ⟨b, bs, hb, hbs, rfl⟩
      rw [hb, ih.mpr hbs]
      rfl

section Related

variable {α β γ : Type} {R : α → β → Prop} {l : List α} {m : List β}

theorem exists_of_forall₂_right (h : List.Forall₂ R l m) {b : β} (hb : b ∈ m) :
    ∃ a ∈ l, R a b := by
  induction h with
  | nil => cases hb
  | cons hab _ ih =>
    rcases List.mem_cons.mp hb with rfl | hb
    · exact ⟨_, List.mem_cons_self, hab⟩
    · obtain ⟨a, ha, hR⟩ := ih hb
      exact ⟨a, List.mem_cons_of_mem _ ha, hR⟩

theorem exists_of_forall₂_left (h : List.Forall₂ R l m) {a : α} (ha : a ∈ l) : ∃ b ∈ m, R a b :=
  exists_of_forall₂_right h.flip ha

/-- Lists related element by element to one in the middle. -/
theorem forall₂_comp {S : β → γ → Prop} {n : List γ} (h : List.Forall₂ R l m)
    (h' : List.Forall₂ S m n) : List.Forall₂ (fun a c => ∃ b, R a b ∧ S b c) l n := by
  induction h generalizing n with
  | nil =>
    cases h'
    exact .nil
  | cons hab _ ih =>
    cases h' with
    | cons hbc hrest => exact .cons ⟨_, hab, hbc⟩ (ih hrest)

end Related

theorem exists_of_mem_mapM {ε α β : Type} {f : α → Except ε β} {l : List α} {m : List β} {b : β}
    (h : l.mapM f = .ok m) (hb : b ∈ m) : ∃ a ∈ l, f a = .ok b :=
  exists_of_forall₂_right (mapM_eq_ok_iff.mp h) hb

theorem exists_mem_of_mapM {ε α β : Type} {f : α → Except ε β} {l : List α} {m : List β} {a : α}
    (h : l.mapM f = .ok m) (ha : a ∈ l) : ∃ b ∈ m, f a = .ok b :=
  exists_of_forall₂_left (mapM_eq_ok_iff.mp h) ha

theorem mapM_ok_of_forall {ε α β : Type} {f : α → Except ε β} {l : List α}
    (h : ∀ a ∈ l, ∃ b, f a = .ok b) : ∃ m, l.mapM f = .ok m := by
  induction l with
  | nil => exact ⟨[], rfl⟩
  | cons a l ih =>
    obtain ⟨b, hb⟩ := h a List.mem_cons_self
    obtain ⟨m, hm⟩ := ih fun c hc => h c (List.mem_cons_of_mem _ hc)
    exact ⟨b :: m, mapM_eq_ok_iff.mpr (.cons hb (mapM_eq_ok_iff.mp hm))⟩

/-! ### Actions -/

/-- A computation over a store that ends in a value or in an error, and leaves
a store in both cases. -/
def Action (σ ε α : Type) : Type := σ → Except ε α × σ

namespace Action

variable {σ ε α β : Type}

instance : Monad (Action σ ε) where
  pure a := fun s => (.ok a, s)
  bind x f := fun s =>
    match x s with
    | (.ok a, s') => f a s'
    | (.error e, s') => (.error e, s')

/-- Stop with an error. -/
def fail (e : ε) : Action σ ε α := fun s => (.error e, s)

/-- Read the store. -/
def query (f : σ → α) : Action σ ε α := fun s => (.ok (f s), s)

/-- A computation that does not look at the store. -/
def ofExcept (r : Except ε α) : Action σ ε α := fun s => (r, s)

/-- The value of an `Option`, or the error. -/
def okOr (e : ε) : Option α → Action σ ε α
  | some a => pure a
  | none => fail e

/-- Go on if `p` holds, stop with the error if not. -/
def ensure (p : Prop) [Decidable p] (e : ε) : Action σ ε Unit :=
  if p then pure () else fail e

/-- All or nothing: an error gives the store back as it was. -/
def transaction (x : Action σ ε α) : Action σ ε α := fun s =>
  match x s with
  | (.ok a, s') => (.ok a, s')
  | (.error e, _) => (.error e, s)

/-- Run `f` on every element in turn, stop at the first error, and collect the
results. -/
def forEach (f : α → Action σ ε β) : List α → Action σ ε (List β)
  | [] => pure []
  | a :: as => do
    let b ← f a
    let bs ← forEach f as
    pure (b :: bs)

@[simp] theorem pure_apply (a : α) (s : σ) : (pure a : Action σ ε α) s = (.ok a, s) := rfl

@[simp] theorem fail_apply (e : ε) (s : σ) : (fail e : Action σ ε α) s = (.error e, s) := rfl

@[simp] theorem query_apply (f : σ → α) (s : σ) :
    (query f : Action σ ε α) s = (.ok (f s), s) := rfl

@[simp] theorem ofExcept_apply (r : Except ε α) (s : σ) :
    (ofExcept r : Action σ ε α) s = (r, s) := rfl

@[simp] theorem okOr_some (e : ε) (a : α) (s : σ) :
    (okOr e (some a) : Action σ ε α) s = (.ok a, s) := rfl

@[simp] theorem okOr_none (e : ε) (s : σ) :
    (okOr e none : Action σ ε α) s = (.error e, s) := rfl

theorem bind_of_ok {x : Action σ ε α} {f : α → Action σ ε β} {s s' : σ} {a : α}
    (h : x s = (.ok a, s')) : (x >>= f) s = f a s' := by
  show (match x s with | (.ok a, s') => f a s' | (.error e, s') => (.error e, s')) = _
  rw [h]

theorem bind_of_error {x : Action σ ε α} {f : α → Action σ ε β} {s s' : σ} {e : ε}
    (h : x s = (.error e, s')) : (x >>= f) s = (.error e, s') := by
  show (match x s with | (.ok a, s') => f a s' | (.error e, s') => (.error e, s')) = _
  rw [h]

/-- Two sequences run alike if their first halves do, and their second halves after
that. -/
theorem bind_congr {x y : Action σ ε α} {f g : α → Action σ ε β} {s : σ} (h : x s = y s)
    (hf : ∀ a s', y s = (.ok a, s') → f a s' = g a s') : (x >>= f) s = (y >>= g) s := by
  rcases hy : y s with ⟨e | a, s'⟩
  · rw [bind_of_error (h.trans hy), bind_of_error hy]
  · rw [bind_of_ok (h.trans hy), bind_of_ok hy]
    exact hf a s' hy

theorem transaction_congr {x y : Action σ ε α} {s : σ} (h : x s = y s) :
    transaction x s = transaction y s := by
  rw [transaction, transaction, h]

theorem ensure_apply_of {p : Prop} [Decidable p] (h : p) (e : ε) (s : σ) :
    (ensure p e : Action σ ε Unit) s = (.ok (), s) := by
  rw [ensure, if_pos h]
  rfl

theorem ensure_apply_of_not {p : Prop} [Decidable p] (h : ¬ p) (e : ε) (s : σ) :
    (ensure p e : Action σ ε Unit) s = (.error e, s) := by
  rw [ensure, if_neg h]
  rfl

@[simp] theorem pure_bind_apply (a : α) (f : α → Action σ ε β) (s : σ) :
    ((pure a : Action σ ε α) >>= f) s = f a s := rfl

@[simp] theorem query_bind_apply (g : σ → α) (f : α → Action σ ε β) (s : σ) :
    ((query g : Action σ ε α) >>= f) s = f (g s) s := rfl

@[simp] theorem fail_bind_apply (e : ε) (f : α → Action σ ε β) (s : σ) :
    ((fail e : Action σ ε α) >>= f) s = (.error e, s) := rfl

@[simp] theorem ofExcept_ok_bind_apply (a : α) (f : α → Action σ ε β) (s : σ) :
    ((ofExcept (.ok a) : Action σ ε α) >>= f) s = f a s := rfl

@[simp] theorem ofExcept_error_bind_apply (e : ε) (f : α → Action σ ε β) (s : σ) :
    ((ofExcept (.error e) : Action σ ε α) >>= f) s = (.error e, s) := rfl

@[simp] theorem okOr_some_bind_apply (e : ε) (a : α) (f : α → Action σ ε β) (s : σ) :
    ((okOr e (some a) : Action σ ε α) >>= f) s = f a s := rfl

@[simp] theorem okOr_none_bind_apply (e : ε) (f : α → Action σ ε β) (s : σ) :
    ((okOr e none : Action σ ε α) >>= f) s = (.error e, s) := rfl

/-- **A run of a sequence that succeeds is a run of both halves that do.** -/
theorem bind_eq_ok {x : Action σ ε α} {f : α → Action σ ε β} {s t : σ} {b : β}
    (h : (x >>= f) s = (.ok b, t)) : ∃ a s', x s = (.ok a, s') ∧ f a s' = (.ok b, t) := by
  rcases hx : x s with ⟨a | a, s'⟩
  · rw [bind_of_error hx] at h
    simp at h
  · rw [bind_of_ok hx] at h
    exact ⟨a, s', rfl, h⟩

theorem forEach_cons (f : α → Action σ ε β) (a : α) (as : List α) :
    forEach f (a :: as) = (do let b ← f a; let bs ← forEach f as; pure (b :: bs)) := rfl

theorem forEach_congr {f g : α → Action σ ε β} : ∀ {as : List α}, (∀ a ∈ as, f a = g a) →
    forEach f as = forEach g as := by
  intro as
  induction as with
  | nil =>
    intro _
    rfl
  | cons a as ih =>
    intro h
    rw [forEach_cons, forEach_cons, h a List.mem_cons_self,
      ih fun b hb => h b (List.mem_cons_of_mem _ hb)]

/-- A loop ends at its first turn that fails. -/
theorem forEach_append_error {f : α → Action σ ε β} {a : α} {rest : List α} {e : ε} :
    ∀ {as : List α} {bs : List β} {s s' t : σ}, forEach f as s = (.ok bs, s') →
      f a s' = (.error e, t) → forEach f (as ++ a :: rest) s = (.error e, t) := by
  intro as
  induction as with
  | nil =>
    intro bs s s' t h ha
    obtain rfl : s = s' := congrArg Prod.snd h
    exact bind_of_error ha
  | cons b as ih =>
    intro bs s s' t h ha
    rw [forEach_cons] at h
    obtain ⟨c, s1, hc, h1⟩ := bind_eq_ok h
    obtain ⟨cs, s2, hcs, h2⟩ := bind_eq_ok h1
    obtain rfl : s2 = s' := congrArg Prod.snd h2
    rw [List.cons_append, forEach_cons, bind_of_ok hc]
    exact bind_of_error (ih hcs ha)

/-- A loop that succeeds has succeeded on its first turns. -/
theorem forEach_take {f : α → Action σ ε β} (n : ℕ) : ∀ {as : List α} {bs : List β} {s t : σ},
    forEach f as s = (.ok bs, t) → ∃ t', forEach f (as.take n) s = (.ok (bs.take n), t') := by
  induction n with
  | zero =>
    intro as bs s t _
    exact ⟨s, rfl⟩
  | succ n ih =>
    intro as bs s t h
    cases as with
    | nil =>
      obtain rfl := Except.ok.inj (Prod.mk.inj h).1
      exact ⟨s, rfl⟩
    | cons a as =>
      rw [forEach_cons] at h
      obtain ⟨b, s1, hb, h1⟩ := bind_eq_ok h
      obtain ⟨cs, s2, hcs, h2⟩ := bind_eq_ok h1
      obtain rfl := Except.ok.inj (Prod.mk.inj h2).1
      obtain ⟨t', ht'⟩ := ih hcs
      refine ⟨t', ?_⟩
      rw [List.take_succ_cons, forEach_cons, bind_of_ok hb, bind_of_ok ht']
      rfl

/-- An action that succeeds is not changed by being made a transaction. -/
theorem transaction_of_ok {x : Action σ ε α} {s s' : σ} {a : α} (h : x s = (.ok a, s')) :
    transaction x s = (.ok a, s') := by
  simp [transaction, h]

theorem transaction_of_error {x : Action σ ε α} {s s' : σ} {e : ε} (h : x s = (.error e, s')) :
    transaction x s = (.error e, s) := by
  simp [transaction, h]

/-- A transaction that succeeds is an action that succeeds. -/
theorem transaction_eq_ok {x : Action σ ε α} {s s' : σ} {a : α}
    (h : transaction x s = (.ok a, s')) : x s = (.ok a, s') := by
  rcases hx : x s with ⟨e | b, t⟩
  · rw [transaction_of_error hx] at h
    cases h
  · rw [transaction_of_ok hx] at h
    exact h

theorem transaction_fst (x : Action σ ε α) (s : σ) : (transaction x s).1 = (x s).1 := by
  rcases hx : x s with ⟨e | a, s'⟩
  · rw [transaction_of_error hx]
  · rw [transaction_of_ok hx]

/-! ### Numbered loops -/

/-- **A loop whose turns all succeed.**  `I k` holds before turn `k`; a turn on `a`
that answers `b` establishes `Q a b`, and no later turn destroys it. -/
theorem forEach_zipIdx_ok {f : α × ℕ → Action σ ε β} {I : ℕ → σ → Prop} {Q : α → β → σ → Prop}
    {n : ℕ} : ∀ {as : List α},
    (∀ a ∈ as, ∀ k < n, ∀ s, I k s → ∃ b s', f (a, k) s = (.ok b, s') ∧ I (k + 1) s' ∧ Q a b s' ∧
      ∀ c d, Q c d s → Q c d s') →
    ∀ k s, k + as.length ≤ n → I k s → ∃ bs s', forEach f (as.zipIdx k) s = (.ok bs, s') ∧
      I (k + as.length) s' ∧ List.Forall₂ (fun a b => Q a b s') as bs ∧
      ∀ c d, Q c d s → Q c d s' := by
  intro as
  induction as with
  | nil =>
    intro _ k s _ hI
    exact ⟨[], s, rfl, hI, .nil, fun _ _ h => h⟩
  | cons a as ih =>
    intro hstep k s hn hI
    rw [List.length_cons] at hn
    obtain ⟨b, s1, hb, hI1, hQ1, hkeep1⟩ := hstep a List.mem_cons_self k (by omega) s hI
    obtain ⟨bs, s2, hbs, hI2, hQ2, hkeep2⟩ := ih
      (fun c hc => hstep c (List.mem_cons_of_mem _ hc)) (k + 1) s1 (by omega) hI1
    refine ⟨b :: bs, s2, ?_, ?_, .cons (hkeep2 a b hQ1) hQ2, fun c d h => hkeep2 c d (hkeep1 c d h)⟩
    · rw [List.zipIdx_cons, forEach_cons, bind_of_ok hb, bind_of_ok hbs]
      rfl
    · rw [List.length_cons, show k + (as.length + 1) = k + 1 + as.length by omega]
      exact hI2

/-- **A loop with a turn that fails** ends in the error of that turn, if every
turn before it succeeds. -/
theorem forEach_zipIdx_error {f : α × ℕ → Action σ ε β} {I : ℕ → σ → Prop} {B : α → Prop} {e : ε}
    {n : ℕ} : ∀ {as : List α},
    (∀ a ∈ as, ∀ k < n, ∀ s, I k s → ¬ B a → ∃ b s', f (a, k) s = (.ok b, s') ∧ I (k + 1) s') →
    (∀ a ∈ as, ∀ k < n, ∀ s, I k s → B a → ∃ s', f (a, k) s = (.error e, s')) →
    (∃ a ∈ as, B a) → ∀ k s, k + as.length ≤ n → I k s →
    ∃ s', forEach f (as.zipIdx k) s = (.error e, s') := by
  intro as
  induction as with
  | nil =>
    rintro _ _ ⟨a, ha, -⟩
    cases ha
  | cons a as ih =>
    intro hgood hbad hexists k s hn hI
    rw [List.length_cons] at hn
    rw [List.zipIdx_cons, forEach_cons]
    by_cases ha : B a
    · obtain ⟨s1, h1⟩ := hbad a List.mem_cons_self k (by omega) s hI ha
      exact ⟨s1, bind_of_error h1⟩
    · obtain ⟨b, s1, hb, hI1⟩ := hgood a List.mem_cons_self k (by omega) s hI ha
      have hrest : ∃ c ∈ as, B c := by
        obtain ⟨c, hc, hBc⟩ := hexists
        rcases List.mem_cons.mp hc with rfl | hc
        · exact absurd hBc ha
        · exact ⟨c, hc, hBc⟩
      obtain ⟨s2, h2⟩ := ih (fun c hc => hgood c (List.mem_cons_of_mem _ hc))
        (fun c hc => hbad c (List.mem_cons_of_mem _ hc)) hrest (k + 1) s1 (by omega) hI1
      refine ⟨s2, ?_⟩
      rw [bind_of_ok hb]
      exact bind_of_error h2

/-! ### What an action can do to the store -/

/-- The state the action leaves, on success and on failure, is one that `R`
allows from `s`. -/
def Moves (R : σ → σ → Prop) (x : Action σ ε α) (s : σ) : Prop := R s (x s).2

section Moves

variable {R : σ → σ → Prop}

theorem Moves.of_same [Std.Refl R] {x : Action σ ε α} {s : σ} (h : (x s).2 = s) :
    Moves R x s := by
  rw [Moves, h]
  exact refl_of R s

/-- An action that only reads moves the store along any reflexive relation. -/
theorem Moves.of_reads [Std.Refl R] {x : Action σ ε α} {s : σ} (h : Moves Eq x s) :
    Moves R x s :=
  Moves.of_same (Eq.symm h)

theorem Moves.bind [IsTrans σ R] {x : Action σ ε α} {f : α → Action σ ε β} {s : σ}
    (hx : Moves R x s) (hf : ∀ a s', x s = (.ok a, s') → Moves R (f a) s') :
    Moves R (x >>= f) s := by
  rcases hr : x s with ⟨e | a, s'⟩
  · rw [Moves, bind_of_error hr]
    rwa [Moves, hr] at hx
  · rw [Moves, bind_of_ok hr]
    rw [Moves, hr] at hx
    exact trans_of R hx (hf a s' hr)

theorem Moves.ensure_bind [Std.Refl R] {p : Prop} [Decidable p] {e : ε}
    {f : Unit → Action σ ε β} {s : σ} (hf : p → Moves R (f ()) s) :
    Moves R (ensure p e >>= f) s := by
  by_cases h : p
  · rw [Moves, bind_of_ok (ensure_apply_of h e s)]
    exact hf h
  · rw [Moves, bind_of_error (ensure_apply_of_not h e s)]
    exact refl_of R s

/-- A sequence whose first half does not look at the store. -/
theorem Moves.ofExcept_bind [Std.Refl R] {r : Except ε α} {f : α → Action σ ε β} {s : σ}
    (hf : ∀ a, r = .ok a → Moves R (f a) s) : Moves R (ofExcept r >>= f) s := by
  cases r with
  | error e => exact refl_of R s
  | ok a => exact hf a rfl

theorem Moves.okOr_bind [Std.Refl R] {e : ε} {o : Option α} {f : α → Action σ ε β} {s : σ}
    (hf : ∀ a, o = some a → Moves R (f a) s) : Moves R (okOr e o >>= f) s := by
  cases o with
  | none => exact refl_of R s
  | some a => exact hf a rfl

theorem Moves.okOr [Std.Refl R] {e : ε} {o : Option α} {s : σ} :
    Moves R (okOr e o : Action σ ε α) s := by
  cases o <;> exact refl_of R s

theorem Moves.query_bind {g : σ → α} {f : α → Action σ ε β} {s : σ} (hf : Moves R (f (g s)) s) :
    Moves R (query g >>= f) s :=
  hf

/-- A transaction moves the store along a reflexive `R` if it does when it commits. -/
theorem Moves.transaction_of_ok [Std.Refl R] {x : Action σ ε α} {s : σ}
    (hx : ∀ a s', x s = (.ok a, s') → R s s') : Moves R (transaction x) s := by
  rcases hr : x s with ⟨e | a, s'⟩
  · rw [Moves, transaction_of_error hr]
    exact refl_of R s
  · rw [Moves, Action.transaction_of_ok hr]
    exact hx a s' hr

theorem Moves.transaction [Std.Refl R] {x : Action σ ε α} {s : σ} (hx : Moves R x s) :
    Moves R (transaction x) s := by
  refine Moves.transaction_of_ok fun a s' hr => ?_
  rwa [Moves, hr] at hx

/-- A loop moves the store along `R` if every iteration does, from any state
the iterations before it may have left. -/
theorem Moves.forEach [Std.Refl R] [IsTrans σ R] {f : α → Action σ ε β} :
    ∀ (as : List α) (s : σ), (∀ a ∈ as, ∀ s', R s s' → Moves R (f a) s') →
      Moves R (forEach f as) s := by
  intro as
  induction as with
  | nil => intro s _; exact refl_of R s
  | cons a as ih =>
    intro s h
    rw [forEach_cons]
    have ha : Moves R (f a) s := h a (by simp) s (refl_of R s)
    refine Moves.bind ha fun b s' hb => ?_
    have hs : R s s' := by rwa [Moves, hb] at ha
    refine Moves.bind (ih s' fun c hc s'' hs'' => h c (by simp [hc]) s'' (trans_of R hs hs'')) ?_
    intro bs s'' _
    exact refl_of R s''

/-- **A loop that succeeds has succeeded on every turn**, in states between the
first and the last. -/
theorem forEach_eq_ok [Std.Refl R] [IsTrans σ R] {f : α → Action σ ε β} :
    ∀ {as : List α} {bs : List β} {s t : σ}, (∀ a ∈ as, ∀ s', R s s' → Moves R (f a) s') →
      forEach f as s = (.ok bs, t) →
      List.Forall₂ (fun a b => ∃ s1 s2, R s s1 ∧ f a s1 = (.ok b, s2) ∧ R s2 t) as bs := by
  intro as
  induction as with
  | nil =>
    intro bs s t _ h
    obtain rfl := Except.ok.inj (Prod.mk.inj h).1
    exact .nil
  | cons a as ih =>
    intro bs s t hmoves h
    rw [forEach_cons] at h
    obtain ⟨b, s1, hb, h1⟩ := bind_eq_ok h
    obtain ⟨cs, s2, hcs, h2⟩ := bind_eq_ok h1
    obtain ⟨hbs, rfl⟩ := Prod.mk.inj h2
    obtain rfl := Except.ok.inj hbs
    have hfirst : R s s1 := by
      have hmove := hmoves a List.mem_cons_self s (refl_of R s)
      rwa [Moves, hb] at hmove
    have hlater : ∀ c ∈ as, ∀ s', R s1 s' → Moves R (f c) s' :=
      fun c hc s' hs' => hmoves c (List.mem_cons_of_mem _ hc) s' (trans_of R hfirst hs')
    have hrest : R s1 s2 := by
      have hmove := Moves.forEach as s1 hlater
      rwa [Moves, hcs] at hmove
    refine .cons ⟨s, s1, refl_of R s, hb, hrest⟩ ((ih hlater hcs).imp ?_)
    rintro c d ⟨s3, s4, hs3, hrun, hs4⟩
    exact ⟨s3, s4, trans_of R hfirst hs3, hrun, hs4⟩

end Moves

/-! ### What an action can fail with -/

/-- If the action fails, it is with an error that `P` allows. -/
def Throws (P : ε → Prop) (x : Action σ ε α) (s : σ) : Prop := ∀ e, (x s).1 = .error e → P e

section Throws

variable {P : ε → Prop}

theorem Throws.bind {x : Action σ ε α} {f : α → Action σ ε β} {s : σ} (hx : Throws P x s)
    (hf : ∀ a s', x s = (.ok a, s') → Throws P (f a) s') : Throws P (x >>= f) s := by
  intro e he
  rcases hr : x s with ⟨e' | a, s'⟩
  · rw [bind_of_error hr] at he
    obtain rfl := Except.error.inj he
    exact hx e' (by rw [hr])
  · rw [bind_of_ok hr] at he
    exact hf a s' hr e he

theorem Throws.ensure_bind {p : Prop} [Decidable p] {e : ε} {f : Unit → Action σ ε β} {s : σ}
    (he : P e) (hf : p → Throws P (f ()) s) : Throws P (ensure p e >>= f) s := by
  intro e' he'
  by_cases h : p
  · rw [bind_of_ok (ensure_apply_of h e s)] at he'
    exact hf h e' he'
  · rw [bind_of_error (ensure_apply_of_not h e s)] at he'
    exact Except.error.inj he' ▸ he

theorem Throws.okOr {e : ε} {o : Option α} {s : σ} (he : P e) :
    Throws P (okOr e o : Action σ ε α) s := by
  intro e' he'
  cases o with
  | none => exact Except.error.inj he' ▸ he
  | some a => cases he'

theorem Throws.query {g : σ → α} {s : σ} : Throws P (query g) s := by
  intro e he
  cases he

theorem Throws.transaction {x : Action σ ε α} {s : σ} (hx : Throws P x s) :
    Throws P (transaction x) s := by
  intro e he
  rw [transaction_fst] at he
  exact hx e he

end Throws

/-! ### Clean failures -/

/-- If the action fails, the store is as it was. -/
def Clean (x : Action σ ε α) (s : σ) : Prop := ∀ e t, x s = (.error e, t) → t = s

theorem Clean.of_reads {x : Action σ ε α} {s : σ} (h : Moves Eq x s) : Clean x s := by
  intro e t ht
  rw [Moves, ht] at h
  exact h.symm

theorem Clean.transaction (x : Action σ ε α) (s : σ) : Clean (transaction x) s := by
  intro e t h
  rcases hx : x s with ⟨e' | a, s'⟩
  · rw [transaction_of_error hx] at h
    exact (Prod.mk.inj h).2.symm
  · rw [transaction_of_ok hx] at h
    cases h

/-- A second half that cannot fail. -/
theorem Clean.bind_of_ok {x : Action σ ε α} {f : α → Action σ ε β} {s : σ} (hx : Clean x s)
    (hf : ∀ a t, x s = (.ok a, t) → ∃ b, f a t = (.ok b, t)) : Clean (x >>= f) s := by
  intro e t h
  rcases hr : x s with ⟨e' | a, s'⟩
  · rw [bind_of_error hr] at h
    obtain rfl := (Prod.mk.inj h).2
    exact hx e' s' hr
  · obtain ⟨b, hb⟩ := hf a s' hr
    rw [Action.bind_of_ok hr, hb] at h
    cases h

/-- A first half that only reads. -/
theorem Clean.reads_bind {x : Action σ ε α} {f : α → Action σ ε β} {s : σ} (hx : Moves Eq x s)
    (hf : ∀ a, x s = (.ok a, s) → Clean (f a) s) : Clean (x >>= f) s := by
  intro e t h
  rcases hr : x s with ⟨e' | a, s'⟩
  · rw [bind_of_error hr] at h
    obtain rfl := (Prod.mk.inj h).2
    exact Clean.of_reads hx e' s' hr
  · have hsame : s = s' := by
      rw [Moves, hr] at hx
      exact hx
    subst hsame
    rw [Action.bind_of_ok hr] at h
    exact hf a hr e t h

/-! ### Two runs -/

/-- Two runs of one action give the same result and end in related states. -/
def Alike (R : σ → σ → Prop) (x : Action σ ε α) (s t : σ) : Prop :=
  (x s).1 = (x t).1 ∧ R (x s).2 (x t).2

section Alike

variable {R : σ → σ → Prop}

theorem Alike.bind {x : Action σ ε α} {f : α → Action σ ε β} {s t : σ}
    (hx : Alike R x s t)
    (hf : ∀ a s' t', x s = (.ok a, s') → x t = (.ok a, t') → R s' t' → Alike R (f a) s' t') :
    Alike R (x >>= f) s t := by
  obtain ⟨h1, h2⟩ := hx
  rcases hs : x s with ⟨e | a, s'⟩
  · rcases ht : x t with ⟨e' | a', t'⟩
    · rw [hs, ht] at h1 h2
      rw [Alike, bind_of_error hs, bind_of_error ht]
      obtain rfl : e = e' := by simpa using h1
      exact ⟨rfl, h2⟩
    · rw [hs, ht] at h1
      simp at h1
  · rcases ht : x t with ⟨e' | a', t'⟩
    · rw [hs, ht] at h1
      simp at h1
    · rw [hs, ht] at h1 h2
      obtain rfl : a = a' := by simpa using h1
      rw [Alike, bind_of_ok hs, bind_of_ok ht]
      exact hf a s' t' hs ht h2

theorem Alike.transaction {x : Action σ ε α} {s t : σ} (h0 : R s t) (hx : Alike R x s t) :
    Alike R (transaction x) s t := by
  obtain ⟨h1, h2⟩ := hx
  rcases hs : x s with ⟨e | a, s'⟩
  · rcases ht : x t with ⟨e' | a', t'⟩
    · rw [hs, ht] at h1
      rw [Alike, transaction_of_error hs, transaction_of_error ht]
      exact ⟨h1, h0⟩
    · rw [hs, ht] at h1
      simp at h1
  · rcases ht : x t with ⟨e' | a', t'⟩
    · rw [hs, ht] at h1
      simp at h1
    · rw [hs, ht] at h1 h2
      rw [Alike, transaction_of_ok hs, transaction_of_ok ht]
      exact ⟨h1, h2⟩

/-- Two runs of a loop are alike if those of every iteration are, from any
related pair of states. -/
theorem Alike.forEach {f : α → Action σ ε β} :
    ∀ (as : List α) (s t : σ), R s t →
      (∀ a ∈ as, ∀ s' t', R s' t' → Alike R (f a) s' t') → Alike R (forEach f as) s t := by
  intro as
  induction as with
  | nil => intro s t h _; exact ⟨rfl, h⟩
  | cons a as ih =>
    intro s t h hf
    rw [forEach_cons]
    refine Alike.bind (hf a (by simp) s t h) fun b s' t' _ _ h' => ?_
    refine Alike.bind (ih s' t' h' fun c hc => hf c (by simp [hc])) fun bs s'' t'' _ _ h'' => ?_
    exact ⟨rfl, h''⟩

end Alike

end Action

end Sql
