import EmbeddedAlerts.Text.Encoding
import EmbeddedAlerts.Text.Words

/-!
# Splitting texts

`str::split`, `str::split_once` and `str::split_ascii_whitespace` of the Rust
standard library, on lists of characters.  `List.splitOn` is `str::split` at a
character; `splitOn_eq_iff` says that its pieces are the only ones without the
separator that give the text back.
-/

namespace Text

/-! ### ASCII -/

/-- `u8::is_ascii_whitespace`. -/
def isAsciiWhitespace (c : Char) : Bool :=
  c == ' ' || c == '\t' || c == '\n' || c == '\x0c' || c == '\r'

/-- `str::to_ascii_lowercase`. -/
def asciiLowercase (s : List Char) : List Char := s.map Char.toLower

/-- `str::eq_ignore_ascii_case`. -/
def eqIgnoreAsciiCase (s t : List Char) : Bool := asciiLowercase s == asciiLowercase t

/-- `str::split_ascii_whitespace`. -/
def splitAsciiWhitespace (s : List Char) : List (List Char) :=
  (s.splitOnP isAsciiWhitespace).filter fun w => !w.isEmpty

theorem ne_nil_of_mem_splitAsciiWhitespace {s w : List Char} (h : w ∈ splitAsciiWhitespace s) :
    w ≠ [] := by
  rw [splitAsciiWhitespace, List.mem_filter] at h
  simpa using h.2

/-! ### Pieces -/

/-- No piece holds a separator. -/
theorem not_of_mem_splitOnP {p : Char → Bool} :
    ∀ {s w : List Char}, w ∈ s.splitOnP p → ∀ c ∈ w, p c = false := by
  intro s
  induction s with
  | nil =>
    intro w hw c hc
    rw [List.splitOnP_nil, List.mem_singleton] at hw
    subst hw
    cases hc
  | cons x s ih =>
    intro w hw c hc
    rw [List.splitOnP_cons_eq_if_modifyHead] at hw
    by_cases hx : p x = true
    · rw [if_pos hx, List.mem_cons] at hw
      rcases hw with rfl | hw
      · cases hc
      · exact ih hw c hc
    · rw [if_neg hx] at hw
      obtain ⟨q, qs, hqs⟩ := List.exists_cons_of_ne_nil (List.splitOnP_ne_nil p s)
      have hmem : ∀ v ∈ q :: qs, ∀ d ∈ v, p d = false := fun v hv => ih (hqs ▸ hv)
      rw [hqs, List.modifyHead_cons, List.mem_cons] at hw
      rcases hw with rfl | hw
      · rw [List.mem_cons] at hc
        rcases hc with rfl | hc
        · exact Bool.not_eq_true _ ▸ hx
        · exact hmem q List.mem_cons_self c hc
      · exact hmem w (List.mem_cons_of_mem q hw) c hc

theorem not_mem_of_mem_splitOn {c : Char} {s p : List Char} (h : p ∈ s.splitOn c) : c ∉ p := by
  rw [List.splitOn_eq_splitOnP] at h
  intro hc
  have := not_of_mem_splitOnP h c hc
  simp at this

/-- **The pieces of a text** are the only nonempty list of pieces without the
separator that, put together again, is the text. -/
theorem splitOn_eq_iff {c : Char} {s : List Char} {pieces : List (List Char)} :
    s.splitOn c = pieces ↔
      pieces ≠ [] ∧ (∀ p ∈ pieces, c ∉ p) ∧ [c].intercalate pieces = s := by
  constructor
  · rintro rfl
    exact ⟨List.splitOn_ne_nil c s, fun p hp => not_mem_of_mem_splitOn hp,
      List.intercalate_splitOn c⟩
  · rintro ⟨hne, hfree, rfl⟩
    exact List.splitOn_intercalate c hfree hne

/-- A text of exactly three pieces. -/
theorem splitOn_eq_three_iff {c : Char} {s p q r : List Char} :
    s.splitOn c = [p, q, r] ↔ c ∉ p ∧ c ∉ q ∧ c ∉ r ∧ s = p ++ c :: (q ++ c :: r) := by
  rw [splitOn_eq_iff]
  simp only [List.mem_cons, List.not_mem_nil, or_false, forall_eq_or_imp, forall_eq]
  constructor
  · rintro ⟨-, ⟨hp, hq, hr⟩, rfl⟩
    exact ⟨hp, hq, hr, by simp [List.intercalate, List.intersperse]⟩
  · rintro ⟨hp, hq, hr, rfl⟩
    exact ⟨List.cons_ne_nil _ _, ⟨hp, hq, hr⟩, by simp [List.intercalate, List.intersperse]⟩

/-- `str::split_once`. -/
def splitOnce (c : Char) : List Char → Option (List Char × List Char)
  | [] => none
  | x :: s => if x = c then some ([], s) else (splitOnce c s).map fun p => (x :: p.1, p.2)

/-! ### Bytes -/

theorem utf8_append (s t : List Char) : utf8 (s ++ t) = utf8 s ++ utf8 t :=
  List.flatMap_append

/-- `str::len` counts the bytes of the encoding. -/
theorem utf8_length (s : String) : (utf8 s.toList).length = s.utf8ByteSize := by
  have hsize : (String.ofList s.toList).utf8ByteSize = (utf8 s.toList).length := by
    rw [← String.size_toByteArray, String.toByteArray_ofList, List.utf8Encode,
      List.size_toByteArray, utf8]
  rw [← hsize, String.ofList_toList]

theorem length_le_utf8 (s : List Char) : s.length ≤ (utf8 s).length := by
  induction s with
  | nil => exact Nat.le_refl 0
  | cons c s ih =>
    have hone : 1 ≤ (String.utf8EncodeChar c).length := by
      rw [String.length_utf8EncodeChar]
      exact Char.utf8Size_pos c
    rw [utf8, List.flatMap_cons, List.length_append, List.length_cons]
    rw [utf8] at ih
    omega

theorem utf8_length_le (s : List Char) : (utf8 s).length ≤ 4 * s.length := by
  induction s with
  | nil => rfl
  | cons c s ih =>
    have hfour : (String.utf8EncodeChar c).length ≤ 4 := by
      rw [String.length_utf8EncodeChar]
      exact Char.utf8Size_le_four c
    rw [utf8, List.flatMap_cons, List.length_append, List.length_cons]
    rw [utf8] at ih
    omega

/-- A text has at most as many characters as bytes. -/
theorem length_le_utf8ByteSize (s : String) : s.length ≤ s.utf8ByteSize := by
  rw [← String.length_toList, ← utf8_length]
  exact length_le_utf8 s.toList

end Text
