import Mathlib.Data.List.DropRight
import Mathlib.Logic.Relation
import EmbeddedAlerts.Text.Split

/-!
# Trimming and collapsing white space

`str::trim` and `str::split_whitespace` as normal forms.  A trimmed text is its
own trimming (`trim_trim`), and padding is what trimming takes away
(`trim_pad`).  The words of a text are nonempty and hold no white space; put
together again with single spaces they are the words of what they make
(`splitWhitespace_intercalate`), and a text whose runs of white space are
changed keeps its words (`splitWhitespace_of_respacing`).
-/

namespace Text

/-! ### Trimming -/

theorem not_white_head_trim (s : List Char) :
    ∀ c ∈ (trim s).head?, isWhitespace c = false := by
  intro c hc
  -- what is left after the end is trimmed starts where the text starts
  obtain ⟨t, ht⟩ : trim s <+: s.dropWhile isWhitespace :=
    List.rdropWhile_prefix isWhitespace (s.dropWhile isWhitespace)
  have hhead : (s.dropWhile isWhitespace).head? = some c := by
    rw [← ht, List.head?_append, Option.mem_def.mp hc]
    rfl
  have hnot := List.head?_dropWhile_not isWhitespace s
  rw [hhead] at hnot
  simpa using hnot

theorem not_white_last_trim (s : List Char) :
    ∀ c ∈ (trim s).getLast?, isWhitespace c = false := by
  intro c hc
  rw [trim, List.getLast?_reverse] at hc
  have hnot := List.head?_dropWhile_not isWhitespace (s.dropWhile isWhitespace).reverse
  rw [Option.mem_def.mp hc] at hnot
  simpa using hnot

theorem trim_trim (s : List Char) : trim (trim s) = trim s :=
  trim_of_ends (not_white_head_trim s) (not_white_last_trim s)

theorem dropWhile_of_white {a s : List Char} (ha : ∀ c ∈ a, isWhitespace c = true) :
    (a ++ s).dropWhile isWhitespace = s.dropWhile isWhitespace := by
  have hempty : a.dropWhile isWhitespace = [] := List.dropWhile_eq_nil_iff.mpr ha
  rw [List.dropWhile_append, hempty, List.isEmpty_nil, if_pos rfl]

/-- **Trimming takes padding away.** -/
theorem trim_pad {a b : List Char} (ha : ∀ c ∈ a, isWhitespace c = true)
    (hb : ∀ c ∈ b, isWhitespace c = true) (s : List Char) : trim (a ++ (s ++ b)) = trim s := by
  have hrev : ∀ c ∈ b.reverse, isWhitespace c = true :=
    fun c hc => hb c (List.mem_reverse.mp hc)
  rw [trim, trim, dropWhile_of_white ha, List.dropWhile_append]
  by_cases hs : (s.dropWhile isWhitespace).isEmpty = true
  · have hnil : b.dropWhile isWhitespace = [] := List.dropWhile_eq_nil_iff.mpr hb
    rw [if_pos hs, hnil, List.isEmpty_iff.mp hs]
  · rw [if_neg hs, List.reverse_append, dropWhile_of_white hrev]

/-! ### Words -/

theorem ne_nil_of_mem_splitWhitespace {s w : List Char} (h : w ∈ splitWhitespace s) : w ≠ [] := by
  rw [splitWhitespace, List.mem_filter] at h
  simpa using h.2

theorem not_white_of_mem_splitWhitespace {s w : List Char} (h : w ∈ splitWhitespace s) :
    ∀ c ∈ w, isWhitespace c = false := by
  rw [splitWhitespace, List.mem_filter] at h
  exact not_of_mem_splitOnP h.1

/-- White space separates: what stands before it and after it are split alone. -/
theorem splitWhitespace_append_cons {c : Char} (hc : isWhitespace c = true) (s t : List Char) :
    splitWhitespace (s ++ c :: t) = splitWhitespace s ++ splitWhitespace t := by
  rw [splitWhitespace, List.splitOnP_append_cons s t hc, List.filter_append]
  rfl

theorem splitWhitespace_nil : splitWhitespace [] = [] := by
  rw [splitWhitespace, List.splitOnP_nil]
  rfl

theorem splitWhitespace_white_append {a : List Char} (ha : ∀ c ∈ a, isWhitespace c = true)
    (s : List Char) : splitWhitespace (a ++ s) = splitWhitespace s := by
  induction a with
  | nil => rfl
  | cons c a ih =>
    have hrest := ih fun d hd => ha d (List.mem_cons_of_mem c hd)
    rw [← hrest]
    exact splitWhitespace_append_cons (ha c List.mem_cons_self) [] (a ++ s)

/-- A run of white space separates, whatever it consists of. -/
theorem splitWhitespace_append_run {a : List Char} (hne : a ≠ [])
    (ha : ∀ c ∈ a, isWhitespace c = true) (s t : List Char) :
    splitWhitespace (s ++ (a ++ t)) = splitWhitespace s ++ splitWhitespace t := by
  obtain ⟨c, a, rfl⟩ := List.exists_cons_of_ne_nil hne
  rw [List.cons_append, splitWhitespace_append_cons (ha c List.mem_cons_self),
    splitWhitespace_white_append fun d hd => ha d (List.mem_cons_of_mem c hd)]

theorem splitWhitespace_word {w : List Char} (hne : w ≠ [])
    (h : ∀ c ∈ w, isWhitespace c = false) : splitWhitespace w = [w] := by
  rw [splitWhitespace, List.splitOnP_eq_singleton h]
  simpa using hne

/-- **The words of a joined text** are the words it was joined from. -/
theorem splitWhitespace_intercalate {ws : List (List Char)}
    (h : ∀ w ∈ ws, w ≠ [] ∧ ∀ c ∈ w, isWhitespace c = false) :
    splitWhitespace ([' '].intercalate ws) = ws := by
  induction ws with
  | nil => exact splitWhitespace_nil
  | cons w ws ih =>
    obtain ⟨hne, hw⟩ := h w List.mem_cons_self
    have hrest := ih fun v hv => h v (List.mem_cons_of_mem w hv)
    cases ws with
    | nil => rw [List.intercalate_singleton, splitWhitespace_word hne hw]
    | cons v ws =>
      rw [List.intercalate_cons_cons, List.append_assoc, List.singleton_append,
        splitWhitespace_append_cons (by decide), splitWhitespace_word hne hw, hrest]
      rfl

/-- The words of a text, joined by single spaces. -/
def collapse (s : List Char) : List Char := [' '].intercalate (splitWhitespace s)

theorem splitWhitespace_collapse (s : List Char) :
    splitWhitespace (collapse s) = splitWhitespace s :=
  splitWhitespace_intercalate fun _ hw =>
    ⟨ne_nil_of_mem_splitWhitespace hw, not_white_of_mem_splitWhitespace hw⟩

theorem collapse_collapse (s : List Char) : collapse (collapse s) = collapse s := by
  rw [collapse, splitWhitespace_collapse]
  rfl

/-! ### Runs of white space -/

/-- One run of white space is changed: between two parts of a text into another
run, at an end of the text into none. -/
inductive Respacing : List Char → List Char → Prop
  | run {a b : List Char} (s t : List Char) (ha : a ≠ []) (hb : b ≠ [])
      (hawhite : ∀ c ∈ a, isWhitespace c = true) (hbwhite : ∀ c ∈ b, isWhitespace c = true) :
      Respacing (s ++ (a ++ t)) (s ++ (b ++ t))
  | lead {a : List Char} (t : List Char) (hawhite : ∀ c ∈ a, isWhitespace c = true) :
      Respacing (a ++ t) t
  | trail {a : List Char} (s : List Char) (hawhite : ∀ c ∈ a, isWhitespace c = true) :
      Respacing (s ++ a) s

/-- **Respacing keeps the words.** -/
theorem splitWhitespace_of_respacing {s t : List Char} (h : Relation.EqvGen Respacing s t) :
    splitWhitespace s = splitWhitespace t := by
  induction h with
  | rel s t hst =>
    cases hst with
    | run s t ha hb hawhite hbwhite =>
      rw [splitWhitespace_append_run ha hawhite, splitWhitespace_append_run hb hbwhite]
    | lead t hawhite => exact splitWhitespace_white_append hawhite t
    | @trail a s hawhite =>
      by_cases ha : a = []
      · rw [ha, List.append_nil]
      · have hrun := splitWhitespace_append_run ha hawhite t []
        rwa [List.append_nil, splitWhitespace_nil, List.append_nil] at hrun
  | refl s => rfl
  | symm s t _ ih => exact ih.symm
  | trans s t u _ _ ih₁ ih₂ => exact ih₁.trans ih₂

end Text
