import Mathlib.Data.List.Basic

/-!
# The placeholders of a statement

The text of a statement with parameters is a row of literal texts with placeholders
`$1`, `$2`, … between them: a `Template`.  `cut` reads the text back into its template,
by as much of the lexical rules of SQL as this needs: a placeholder is a `$` and all
the digits after it, and there is none inside a quoted string or a word.

`cut_render` says that no two templates of neutral texts have the same text, so that
where a placeholder stands can be read off the text.  `bound` is the value that a
list of values gives to a placeholder.
-/

namespace Sql

/-! ### Templates -/

/-- `$n`. -/
def placeholder (n : ℕ) : List Char := '$' :: n.repr.toList

/-- A text, and placeholders each with the text up to the next one. -/
structure Template where
  head : List Char
  tail : List (ℕ × List Char)
deriving DecidableEq, Repr

def Template.render (t : Template) : List Char :=
  t.head ++ t.tail.flatMap fun p => placeholder p.1 ++ p.2

/-! ### Reading -/

/-- What the reader is in the middle of. -/
inductive Mode where
  | plain
  | word
  | quoted
  | number (n : ℕ)
deriving DecidableEq, Repr

/-- The mode after a character that belongs to no placeholder. -/
def Mode.next (m : Mode) (c : Char) : Mode :=
  if m = .quoted then (if c = '\'' then .plain else .quoted)
  else if c = '\'' then .quoted
  else if c.isAlphanum || c == '_' || (m == .word && c == '$') then .word
  else .plain

/-- The number read so far, with one more digit. -/
def Mode.digit : Mode → Char → Option ℕ
  | .number n, c => if c.isDigit then some (10 * n + (c.toNat - '0'.toNat)) else none
  | _, _ => none

/-- A placeholder begins here. -/
def Mode.opens (m : Mode) (c : Char) (rest : List Char) : Bool :=
  decide (m ≠ .word ∧ m ≠ .quoted) && c == '$' && rest.head?.any Char.isDigit

/-- Put a character in front of the text. -/
def Template.push (c : Char) (t : Template) : Template := ⟨c :: t.head, t.tail⟩

/-- A number is complete, and the text after it begins. -/
def Mode.close : Mode → Template → Template
  | .number n, t => ⟨[], (n, t.head) :: t.tail⟩
  | _, t => t

/-- The template of a text. -/
def cut : Mode → List Char → Template
  | m, [] => m.close ⟨[], []⟩
  | m, c :: rest =>
    match m.digit c with
    | some n => cut (.number n) rest
    | none =>
      m.close (if m.opens c rest then cut (.number 0) rest else (cut (m.next c) rest).push c)

/-- The numbers of the placeholders of a text, in the order in which they stand. -/
def placeholders (text : List Char) : List ℕ := (cut .plain text).tail.map Prod.fst

/-! ### Reading what was rendered -/

/-- Read from this mode the text has no `$`, and it ends outside words and strings. -/
def quiet : Mode → List Char → Bool
  | m, [] => m == .plain
  | m, c :: rest => c != '$' && quiet (m.next c) rest

/-- The text stands between placeholders without touching them. -/
def Neutral (text : List Char) : Prop :=
  quiet .plain text = true ∧ (text.head?.any fun c => !c.isDigit) = true

instance (text : List Char) : Decidable (Neutral text) := inferInstanceAs (Decidable (_ ∧ _))

theorem quiet_append (a b : List Char) : ∀ {m : Mode}, quiet m a = true → quiet .plain b = true →
    quiet m (a ++ b) = true := by
  induction a with
  | nil =>
    intro m ha hb
    obtain rfl : m = .plain := by simpa [quiet] using ha
    exact hb
  | cons c a ih =>
    intro m ha hb
    rw [quiet, Bool.and_eq_true_iff] at ha
    rw [List.cons_append, quiet, ha.1, Bool.true_and]
    exact ih ha.2 hb

theorem Neutral.append {a b : List Char} (ha : Neutral a) (hb : quiet .plain b = true) :
    Neutral (a ++ b) := by
  refine ⟨quiet_append a b ha.1 hb, ?_⟩
  obtain ⟨-, hfirst⟩ := ha
  cases a with
  | nil => cases hfirst
  | cons c a => exact hfirst

-- A literal string is `String.ofList` of its characters.  In this form the kernel does not
-- decode it.
theorem quiet_ofList {m : Mode} {l : List Char} (h : quiet m l = true) :
    quiet m (String.ofList l).toList = true := by
  rw [String.toList_ofList]
  exact h

theorem Neutral.ofList {l : List Char} (h : Neutral l) : Neutral (String.ofList l).toList := by
  rw [String.toList_ofList]
  exact h

theorem Mode.next_ne_number (m : Mode) (c : Char) (n : ℕ) : m.next c ≠ .number n := by
  unfold Mode.next
  split_ifs <;> exact fun h => nomatch h

theorem Mode.plain_ne_number (n : ℕ) : Mode.plain ≠ .number n := fun h => nomatch h

theorem Mode.opens_eq_false {c : Char} (hc : c ≠ '$') (m : Mode) (rest : List Char) :
    m.opens c rest = false := by
  simp [Mode.opens, hc]

/-- One character of text. -/
theorem cut_cons {m : Mode} {c : Char} (hm : ∀ n, m ≠ .number n) (hc : c ≠ '$')
    (rest : List Char) : cut m (c :: rest) = (cut (m.next c) rest).push c := by
  rw [cut, Mode.opens_eq_false hc]
  cases m with
  | number n => exact absurd rfl (hm n)
  | plain => rfl
  | word => rfl
  | quoted => rfl

/-- **A text without placeholders is read through.** -/
theorem cut_append (text rest : List Char) : ∀ {m : Mode}, (∀ n, m ≠ .number n) →
    quiet m text = true →
    cut m (text ++ rest) = ⟨text ++ (cut .plain rest).head, (cut .plain rest).tail⟩ := by
  induction text with
  | nil =>
    intro m _ hquiet
    obtain rfl : m = .plain := by simpa [quiet] using hquiet
    rfl
  | cons c text ih =>
    intro m hm hquiet
    rw [quiet, Bool.and_eq_true_iff, bne_iff_ne] at hquiet
    rw [List.cons_append, cut_cons hm hquiet.1, ih (m.next_ne_number c) hquiet.2]
    rfl

theorem cut_digits (digits rest : List Char) : ∀ {n : ℕ}, (∀ c ∈ digits, c.isDigit) →
    cut (.number n) (digits ++ rest) = cut (.number (Nat.ofDigitChars 10 digits n)) rest := by
  induction digits with
  | nil => intro n _; rfl
  | cons c digits ih =>
    intro n hdigits
    obtain ⟨hc, hrest⟩ := List.forall_mem_cons.mp hdigits
    rw [List.cons_append, cut, Mode.digit, if_pos hc, Nat.ofDigitChars_cons]
    exact ih hrest

/-- **A placeholder is read with its number.** -/
theorem cut_placeholder (n : ℕ) (rest : List Char) :
    cut .plain (placeholder n ++ rest) = cut (.number n) rest := by
  have hdigits : ∀ c ∈ n.repr.toList, c.isDigit := by
    intro c hc
    rw [Nat.toList_repr] at hc
    exact Nat.isDigit_of_mem_toDigits (by decide) (by decide) hc
  have hopens : Mode.plain.opens '$' (n.repr.toList ++ rest) = true := by
    cases hlist : n.repr.toList with
    | nil =>
      rw [Nat.toList_repr] at hlist
      exact absurd hlist Nat.toDigits_ne_nil
    | cons c digits =>
      have hc := hdigits c (by rw [hlist]; exact List.mem_cons_self)
      simpa [Mode.opens] using hc
  rw [placeholder, List.cons_append, cut, hopens]
  change cut (.number 0) (n.repr.toList ++ rest) = _
  rw [cut_digits _ _ hdigits, Nat.toList_repr, Nat.ofDigitChars_ten_toDigits]

/-- The text after a placeholder ends its number. -/
theorem cut_number {text : List Char} (htext : Neutral text) (n : ℕ) (rest : List Char) :
    cut (.number n) (text ++ rest) =
      ⟨[], (n, text ++ (cut .plain rest).head) :: (cut .plain rest).tail⟩ := by
  obtain ⟨hquiet, hfirst⟩ := htext
  cases text with
  | nil => cases hfirst
  | cons c text =>
    have hdigit : Mode.digit (.number n) c = none := by
      rw [Mode.digit, if_neg]
      simpa using hfirst
    rw [quiet, Bool.and_eq_true_iff, bne_iff_ne] at hquiet
    have hnext : (Mode.number n).next c = Mode.plain.next c := rfl
    rw [List.cons_append, cut, hdigit, Mode.opens_eq_false hquiet.1, hnext]
    change Mode.close (.number n) ((cut (Mode.plain.next c) (text ++ rest)).push c) = _
    rw [cut_append text rest (Mode.plain.next_ne_number c) hquiet.2]
    rfl

theorem cut_tail (tail : List (ℕ × List Char)) (h : ∀ p ∈ tail, Neutral p.2) :
    cut .plain (tail.flatMap fun p => placeholder p.1 ++ p.2) = ⟨[], tail⟩ := by
  induction tail with
  | nil => rfl
  | cons p tail ih =>
    obtain ⟨hp, htail⟩ := List.forall_mem_cons.mp h
    rw [List.flatMap_cons, List.append_assoc, cut_placeholder, cut_number hp, ih htail,
      List.append_nil]

/-- Every text of the template is neutral. -/
def Template.Neutral (t : Template) : Prop :=
  Sql.Neutral t.head ∧ ∀ p ∈ t.tail, Sql.Neutral p.2

/-- **A template can be read off its text.** -/
theorem cut_render {t : Template} (h : t.Neutral) : cut .plain t.render = t := by
  rw [Template.render, cut_append _ _ Mode.plain_ne_number h.1.1, cut_tail _ h.2,
    List.append_nil]

theorem Template.render_inj {t u : Template} (ht : t.Neutral) (hu : u.Neutral)
    (h : t.render = u.render) : t = u := by
  rw [← cut_render ht, ← cut_render hu, h]

/-- The placeholders of a rendered text are those of its template. -/
theorem placeholders_render {t : Template} (h : t.Neutral) :
    placeholders t.render = t.tail.map Prod.fst := by
  rw [placeholders, cut_render h]

/-! ### Values -/

/-- The value that a placeholder stands for: `$1` is the first. -/
def bound {α : Type*} (values : List α) (n : ℕ) : Option α :=
  match n with
  | 0 => none
  | k + 1 => values[k]?

variable {α : Type*}

theorem bound_append {values more : List α} {n : ℕ} (h : n ≤ values.length) :
    bound (values ++ more) n = bound values n := by
  cases n with
  | zero => rfl
  | succ k => exact List.getElem?_append_left (by omega)

/-- The values pushed one after another are bound to the numbers that count on. -/
theorem map_bound_range' (values pushed more : List α) :
    (List.range' (values.length + 1) pushed.length).map (bound (values ++ pushed ++ more)) =
      pushed.map some := by
  refine List.ext_getElem? fun i => ?_
  rw [List.getElem?_map, List.getElem?_map]
  by_cases hi : i < pushed.length
  · rw [List.getElem?_range' hi, List.getElem?_eq_getElem hi]
    have hbound : bound (values ++ pushed ++ more) (values.length + 1 + 1 * i) =
        some pushed[i] := by
      rw [bound_append (by rw [List.length_append]; omega),
        show values.length + 1 + 1 * i = (values.length + i) + 1 by omega]
      change (values ++ pushed)[values.length + i]? = _
      rw [List.getElem?_append_right (by omega), Nat.add_sub_cancel_left,
        List.getElem?_eq_getElem hi]
    exact congrArg some hbound
  · rw [List.getElem?_eq_none (by rw [List.length_range']; omega),
      List.getElem?_eq_none (by omega)]
    rfl

end Sql
