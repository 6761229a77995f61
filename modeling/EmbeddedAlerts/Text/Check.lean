import Mathlib.Data.List.Basic

/-!
# Functions that answer or reject

A reader is a chain of checks in `Except`: each one rejects the input or hands
a value to the next.  `rejectIf` and `okOr` are the two kinds of check, and the
lemmas here say when a chain answers, so that a chain is read off as the
conjunction of what its checks ask for.  `foldlM_agree_iff` is the rule for a
loop that keeps one value and rejects a second one.
-/

namespace Text

variable {ε α β : Type}

/-- Reject the input if the condition holds. -/
def rejectIf (p : Prop) [Decidable p] (e : ε) : Except ε Unit :=
  if p then .error e else .ok ()

/-- `Option::ok_or`. -/
def okOr (o : Option α) (e : ε) : Except ε α :=
  match o with
  | some a => .ok a
  | none => .error e

theorem bind_ok_iff {r : Except ε α} {f : α → Except ε β} {b : β} :
    (r >>= f) = .ok b ↔ ∃ a, r = .ok a ∧ f a = .ok b := by
  cases r with
  | error e =>
    constructor
    · intro h
      cases h
    · rintro ⟨a, ha, -⟩
      cases ha
  | ok a =>
    constructor
    · intro h
      exact ⟨a, rfl, h⟩
    · rintro ⟨a', ha, hf⟩
      obtain rfl := Except.ok.inj ha
      exact hf

theorem map_ok_iff {r : Except ε α} {g : α → β} {b : β} :
    g <$> r = .ok b ↔ ∃ a, r = .ok a ∧ g a = b := by
  cases r with
  | error e =>
    constructor
    · intro h
      cases h
    · rintro ⟨a, ha, -⟩
      cases ha
  | ok a =>
    constructor
    · intro h
      exact ⟨a, rfl, Except.ok.inj h⟩
    · rintro ⟨a', ha, rfl⟩
      obtain rfl := Except.ok.inj ha
      rfl

theorem rejectIf_ok_iff {p : Prop} [Decidable p] {e : ε} {u : Unit} :
    rejectIf p e = .ok u ↔ ¬ p := by
  by_cases hp : p
  · simp [rejectIf, hp]
  · simp [rejectIf, hp]

theorem rejectIf_error_iff {p : Prop} [Decidable p] {e e' : ε} :
    rejectIf p e = .error e' ↔ p ∧ e = e' := by
  by_cases hp : p
  · simp [rejectIf, hp]
  · simp [rejectIf, hp]

/-- A chain that ends in an error. -/
theorem bind_error_iff {r : Except ε α} {f : α → Except ε β} {e : ε} :
    (r >>= f) = .error e ↔ r = .error e ∨ ∃ a, r = .ok a ∧ f a = .error e := by
  cases r with
  | error e' =>
    constructor
    · exact fun h => Or.inl (congrArg Except.error (Except.error.inj h))
    · rintro (h | ⟨a, ha, -⟩)
      · exact congrArg Except.error (Except.error.inj h)
      · cases ha
  | ok a =>
    constructor
    · exact fun h => Or.inr ⟨a, rfl, h⟩
    · rintro (h | ⟨a', ha, h⟩)
      · cases h
      · obtain rfl := Except.ok.inj ha
        exact h

theorem okOr_ok_iff {o : Option α} {e : ε} {a : α} : okOr o e = .ok a ↔ o = some a := by
  cases o with
  | none => simp [okOr]
  | some a' => simp [okOr]

/-- A chain that starts with a rejection. -/
theorem rejectIf_bind {p : Prop} [Decidable p] {e : ε} {f : Unit → Except ε β} {b : β} :
    (rejectIf p e >>= f) = .ok b ↔ ¬ p ∧ f () = .ok b := by
  rw [bind_ok_iff]
  constructor
  · rintro ⟨u, hu, hf⟩
    exact ⟨rejectIf_ok_iff.mp hu, hf⟩
  · rintro ⟨hp, hf⟩
    exact ⟨(), rejectIf_ok_iff.mpr hp, hf⟩

/-- A chain that starts with a value that may be missing. -/
theorem okOr_bind {o : Option α} {e : ε} {f : α → Except ε β} {b : β} :
    (okOr o e >>= f) = .ok b ↔ ∃ a, o = some a ∧ f a = .ok b := by
  rw [bind_ok_iff]
  simp only [okOr_ok_iff]

/-- A chain that starts with `if c then throw e`. -/
theorem ite_throw_ok_iff {γ : Type} {c : Prop} [Decidable c] {e : ε} {k : γ → Except ε β}
    {r : Except ε β} {b : β} :
    (if c then (throw e : Except ε γ) >>= k else r) = .ok b ↔ ¬ c ∧ r = .ok b := by
  by_cases hc : c
  · rw [if_pos hc]
    constructor
    · intro h
      cases h
    · rintro ⟨h, -⟩
      exact absurd hc h
  · rw [if_neg hc]
    exact ⟨fun h => ⟨hc, h⟩, fun h => h.2⟩

theorem mapError_ok_iff {ε' : Type} {r : Except ε α} {f : ε → ε'} {a : α} :
    r.mapError f = .ok a ↔ r = .ok a := by
  cases r with
  | error e =>
    constructor
    · intro h
      cases h
    · intro h
      cases h
  | ok b => exact ⟨fun h => congrArg _ (Except.ok.inj h), fun h => congrArg _ (Except.ok.inj h)⟩

theorem pure_ok_iff {a b : α} : (pure a : Except ε α) = .ok b ↔ a = b :=
  ⟨Except.ok.inj, congrArg Except.ok⟩

/-- A loop whose turns all answer is a plain loop. -/
theorem foldlM_of_ok {f : β → α → Except ε β} {g : β → α → β} :
    ∀ {l : List α} {b : β}, (∀ a ∈ l, ∀ b, f b a = .ok (g b a)) →
      l.foldlM f b = .ok (l.foldl g b) := by
  intro l
  induction l with
  | nil =>
    intro b h
    rfl
  | cons a l ih =>
    intro b h
    rw [List.foldlM_cons, h a List.mem_cons_self b, List.foldl_cons]
    exact ih fun a' ha' => h a' (List.mem_cons_of_mem _ ha')

/-! ### Loops that ask for agreement -/

section Agree

variable {value : α → Option β} {good : β → Prop} {f : Option β → α → Except ε (Option β)}

/-- One turn: an item without a value is skipped, and the value of any other one
is good and is the one found before, if there was one. -/
def AgreeStep (value : α → Option β) (good : β → Prop)
    (f : Option β → α → Except ε (Option β)) : Prop :=
  ∀ found a out, f found a = .ok out ↔
    (value a = none ∧ out = found) ∨
      ∃ v, value a = some v ∧ good v ∧ (∀ w, found = some w → w = v) ∧ out = some v

/-- **The loop answers exactly when all its items agree**, whatever their order
and number. -/
theorem foldlM_agree_iff (hf : AgreeStep value good f) : ∀ {l : List α} {found out : Option β},
    l.foldlM f found = .ok out ↔
      (∀ a ∈ l, ∀ v, value a = some v → good v ∧ out = some v) ∧
      (∀ w, found = some w → out = some w) ∧
      (∀ v, out = some v → found = some v ∨ ∃ a ∈ l, value a = some v) := by
  intro l
  induction l with
  | nil =>
    intro found out
    rw [List.foldlM_nil, pure_ok_iff]
    constructor
    · rintro rfl
      exact ⟨fun a ha => absurd ha List.not_mem_nil, fun w h => h, fun v h => Or.inl h⟩
    · rintro ⟨-, hkeep, hfrom⟩
      refine Option.ext fun v => ⟨hkeep v, fun h => ?_⟩
      rcases hfrom v h with h | ⟨a, ha, -⟩
      · exact h
      · exact absurd ha List.not_mem_nil
  | cons a l ih =>
    intro found out
    rw [List.foldlM_cons, bind_ok_iff]
    simp only [ih]
    constructor
    · rintro ⟨mid, hmid, hall, hkeep, hfrom⟩
      rcases (hf found a mid).mp hmid with ⟨hnone, rfl⟩ | ⟨v, hv, hgood, hsame, rfl⟩
      · refine ⟨fun b hb w hw => ?_, hkeep, fun v h => ?_⟩
        · rcases List.mem_cons.mp hb with rfl | hb
          · rw [hnone] at hw
            cases hw
          · exact hall b hb w hw
        · rcases hfrom v h with h | ⟨b, hb, hw⟩
          · exact Or.inl h
          · exact Or.inr ⟨b, List.mem_cons_of_mem _ hb, hw⟩
      · have hout : out = some v := hkeep v rfl
        refine ⟨fun b hb w hw => ?_, fun w h => ?_, fun w h => ?_⟩
        · rcases List.mem_cons.mp hb with rfl | hb
          · obtain rfl := Option.some.inj (hv.symm.trans hw)
            exact ⟨hgood, hout⟩
          · exact hall b hb w hw
        · rw [hsame w h]
          exact hout
        · obtain rfl := Option.some.inj (hout.symm.trans h)
          exact Or.inr ⟨a, List.mem_cons_self, hv⟩
    · rintro ⟨hall, hkeep, hfrom⟩
      have hrest : ∀ b ∈ l, ∀ v, value b = some v → good v ∧ out = some v :=
        fun b hb => hall b (List.mem_cons_of_mem _ hb)
      cases hv : value a with
      | none =>
        refine ⟨found, (hf found a found).mpr (Or.inl ⟨hv, rfl⟩), hrest, hkeep, fun v h => ?_⟩
        rcases hfrom v h with h | ⟨b, hb, hw⟩
        · exact Or.inl h
        · rcases List.mem_cons.mp hb with rfl | hb
          · rw [hv] at hw
            cases hw
          · exact Or.inr ⟨b, hb, hw⟩
      | some v =>
        obtain ⟨hgood, hout⟩ := hall a List.mem_cons_self v hv
        have hsame : ∀ w, found = some w → w = v := by
          intro w h
          exact Option.some.inj ((hkeep w h).symm.trans hout)
        refine ⟨some v, (hf found a _).mpr (Or.inr ⟨v, hv, hgood, hsame, rfl⟩), hrest,
          fun w h => h ▸ hout, fun w h => ?_⟩
        exact Or.inl (hout.symm.trans h)

end Agree

end Text
