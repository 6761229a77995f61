import Mathlib.Data.List.Basic

/-!
# Machines and their runs

A machine takes an action in a state, and gives an output and the next state.  `final`
is the state after a run and `outputs` are the outputs of the actions that are picked.

* `final_induct`: what every action keeps holds after a run.
* `trace_filter`: actions that change nothing can be left out.
* `Unwinds.outputs_eq`: **unwinding**.  If no action of the others can be told from no
  action at all, and an action of one's own gives the same in any two states that one
  cannot tell apart, then the outputs one gets in a run are those one gets when all the
  other actions are left out.
-/

namespace Machine

variable {σ α ο : Type} {m : σ → α → ο × σ} {s t : σ} {a : α} {as : List α}

/-- The state after a run. -/
def final (m : σ → α → ο × σ) (s : σ) (as : List α) : σ := as.foldl (fun s a => (m s a).2) s

/-- The outputs of the actions that `p` picks. -/
def outputs (m : σ → α → ο × σ) (p : α → Bool) : σ → List α → List ο
  | _, [] => []
  | s, a :: as => if p a = true then (m s a).1 :: outputs m p (m s a).2 as
    else outputs m p (m s a).2 as

/-- `P` holds of every action of a run and the state it meets. -/
def Along (m : σ → α → ο × σ) (P : σ → α → Prop) : σ → List α → Prop
  | _, [] => True
  | s, a :: as => P s a ∧ Along m P (m s a).2 as

@[simp] theorem final_nil : final m s [] = s := rfl

@[simp] theorem final_cons : final m s (a :: as) = final m (m s a).2 as := rfl

theorem outputs_cons_of {p : α → Bool} (h : p a = true) :
    outputs m p s (a :: as) = (m s a).1 :: outputs m p (m s a).2 as := if_pos h

theorem outputs_cons_of_not {p : α → Bool} (h : ¬ p a = true) :
    outputs m p s (a :: as) = outputs m p (m s a).2 as := if_neg h

/-- **What every action keeps holds after a run.** -/
theorem final_induct {I : σ → Prop} (as : List α) : ∀ {s : σ}, I s →
    (∀ s, I s → ∀ a ∈ as, I (m s a).2) → I (final m s as) := by
  induction as with
  | nil => exact fun h _ => h
  | cons a as ih =>
    intro s h hstep
    exact ih (hstep s h a List.mem_cons_self) fun s hs b hb =>
      hstep s hs b (List.mem_cons_of_mem a hb)

/-- What holds of the output of every action that meets the invariant holds of all
outputs of a run. -/
theorem forall_outputs {p : α → Bool} {I : σ → Prop} {Q : ο → Prop} (as : List α) : ∀ {s : σ}, I s →
    (∀ s, I s → ∀ a ∈ as, I (m s a).2 ∧ Q (m s a).1) → ∀ o ∈ outputs m p s as, Q o := by
  induction as with
  | nil => exact fun _ _ o ho => absurd ho List.not_mem_nil
  | cons a as ih =>
    intro s h hstep o ho
    obtain ⟨hnext, hout⟩ := hstep s h a List.mem_cons_self
    have hrest : ∀ o ∈ outputs m p (m s a).2 as, Q o := ih hnext fun s hs b hb =>
      hstep s hs b (List.mem_cons_of_mem a hb)
    by_cases hp : p a = true
    · rw [outputs_cons_of hp, List.mem_cons] at ho
      rcases ho with rfl | ho
      · exact hout
      · exact hrest o ho
    · rw [outputs_cons_of_not hp] at ho
      exact hrest o ho

/-- The actions of a run, each with its output. -/
def trace (m : σ → α → ο × σ) : σ → List α → List (α × ο)
  | _, [] => []
  | s, a :: as => (a, (m s a).1) :: trace m (m s a).2 as

/-- **Actions that change nothing can be left out**: the run ends in the same state, and
the actions that are left have the outputs they had. -/
theorem trace_filter {keep : α × ο → Bool} {I : σ → Prop}
    (hstep : ∀ s a, I s → I (m s a).2 ∧ (keep (a, (m s a).1) = false → (m s a).2 = s))
    (as : List α) : ∀ {s : σ}, I s →
      trace m s (((trace m s as).filter keep).map Prod.fst) = (trace m s as).filter keep ∧
      final m s (((trace m s as).filter keep).map Prod.fst) = final m s as := by
  induction as with
  | nil => exact fun _ => ⟨rfl, rfl⟩
  | cons a as ih =>
    intro s hs
    obtain ⟨hnext, hsame⟩ := hstep s a hs
    obtain ⟨htrace, hfinal⟩ := ih hnext
    have hcons : trace m s (a :: as) = (a, (m s a).1) :: trace m (m s a).2 as := rfl
    cases hkeep : keep (a, (m s a).1) with
    | true =>
      rw [hcons, List.filter_cons_of_pos hkeep, List.map_cons, final_cons, final_cons, hfinal,
        trace, htrace]
      exact ⟨rfl, rfl⟩
    | false =>
      have hneg : ¬ keep (a, (m s a).1) = true := by
        rw [hkeep]
        exact Bool.false_ne_true
      rw [hcons, List.filter_cons_of_neg hneg, final_cons]
      rw [hsame hkeep] at htrace hfinal ⊢
      exact ⟨htrace, hfinal⟩

/-- States that one cannot tell apart by one's own actions, `mine`, as long as `P` holds of
them. -/
structure Unwinds (m : σ → α → ο × σ) (mine : α → Bool) (P : σ → α → Prop)
    (R : σ → σ → Prop) : Prop where
  own : ∀ s t a, mine a = true → R s t → P s a → (m s a).1 = (m t a).1 ∧ R (m s a).2 (m t a).2
  other : ∀ s t a, ¬ mine a = true → R s t → R (m s a).2 t

/-- **The actions of others can be left out.** -/
theorem Unwinds.outputs_eq {mine : α → Bool} {P : σ → α → Prop} {R : σ → σ → Prop}
    (h : Unwinds m mine P R) (as : List α) : ∀ {s t : σ}, R s t → Along m P s as →
      outputs m mine s as = outputs m mine t (as.filter mine) ∧
        R (final m s as) (final m t (as.filter mine)) := by
  induction as with
  | nil => exact fun hR _ => ⟨rfl, hR⟩
  | cons a as ih =>
    intro s t hR halong
    obtain ⟨hP, halong⟩ := halong
    by_cases hmine : mine a = true
    · obtain ⟨hout, hnext⟩ := h.own s t a hmine hR hP
      obtain ⟨houtputs, hfinal⟩ := ih hnext halong
      rw [List.filter_cons_of_pos hmine, outputs_cons_of hmine, outputs_cons_of hmine, hout,
        houtputs, final_cons, final_cons]
      exact ⟨rfl, hfinal⟩
    · rw [List.filter_cons_of_neg hmine, outputs_cons_of_not hmine, final_cons]
      exact ih (h.other s t a hmine hR) halong

end Machine
