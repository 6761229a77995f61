import Mathlib.Data.List.Basic
import Mathlib.Tactic.Ring

/-!
# Text encodings that can be read back

Texts are lists of characters here.  Every encoder comes with the statement
that nothing is lost, in the form its users need.

* `hexFixed w n`: the last `w` hexadecimal digits of `n`, lower case;
  `hexFixed_inj` for numbers that fit, and `hexRead` reads them back.
* `jsonArray`: a JSON array of strings with no white space and the standard
  escapes.  A string literal can be told from whatever follows it
  (`jsonString_append_inj`), so the array determines its strings
  (`jsonArray_inj`).
* `utf8`: the bytes of a text; `utf8_inj`.
-/

namespace Text

/-! ### Hexadecimal -/

/-- A hexadecimal digit, lower case. -/
def hexDigit (n : ℕ) : Char :=
  match n with
  | 0 => '0' | 1 => '1' | 2 => '2' | 3 => '3' | 4 => '4' | 5 => '5' | 6 => '6' | 7 => '7'
  | 8 => '8' | 9 => '9' | 10 => 'a' | 11 => 'b' | 12 => 'c' | 13 => 'd' | 14 => 'e' | _ => 'f'

/-- The value of a lower-case hexadecimal digit. -/
def hexValue (c : Char) : ℕ := if '0' ≤ c ∧ c ≤ '9' then c.toNat - 48 else c.toNat - 87

theorem hexValue_hexDigit : ∀ n < 16, hexValue (hexDigit n) = n := by decide

theorem hexDigit_inj {m n : ℕ} (hm : m < 16) (hn : n < 16) (h : hexDigit m = hexDigit n) :
    m = n := by
  rw [← hexValue_hexDigit m hm, ← hexValue_hexDigit n hn, h]

/-- The last `w` hexadecimal digits of a number. -/
def hexFixed : ℕ → ℕ → List Char
  | 0, _ => []
  | w + 1, n => hexFixed w (n / 16) ++ [hexDigit (n % 16)]

@[simp] theorem hexFixed_length (w n : ℕ) : (hexFixed w n).length = w := by
  induction w generalizing n with
  | zero => rfl
  | succ w ih => simp [hexFixed, ih]

theorem hexFixed_inj : ∀ {w m n : ℕ}, m < 16 ^ w → n < 16 ^ w →
    hexFixed w m = hexFixed w n → m = n := by
  intro w
  induction w with
  | zero => intro m n hm hn _; simp at hm hn; omega
  | succ w ih =>
    intro m n hm hn h
    rw [pow_succ] at hm hn
    obtain ⟨hhead, hlast⟩ := List.append_inj h (by simp)
    have hq := ih (by omega) (by omega) hhead
    have hr := hexDigit_inj (by omega) (by omega) (List.cons.inj hlast).1
    omega

/-- Read hexadecimal digits. -/
def hexRead (digits : List Char) : ℕ := digits.foldl (fun n c => 16 * n + hexValue c) 0

theorem hexRead_hexFixed : ∀ {w n : ℕ}, n < 16 ^ w → hexRead (hexFixed w n) = n := by
  intro w
  induction w with
  | zero => intro n hn; simp at hn; simp [hexFixed, hexRead, hn]
  | succ w ih =>
    intro n hn
    rw [pow_succ] at hn
    have hq : hexRead (hexFixed w (n / 16)) = n / 16 := ih (by omega)
    rw [hexRead] at hq
    rw [hexRead, hexFixed, List.foldl_append, hq, List.foldl_cons, List.foldl_nil,
      hexValue_hexDigit _ (by omega)]
    omega

theorem mem_hexFixed {w n : ℕ} {c : Char} (h : c ∈ hexFixed w n) : ∃ d < 16, c = hexDigit d := by
  induction w generalizing n with
  | zero => simp [hexFixed] at h
  | succ w ih =>
    rcases List.mem_append.mp h with h | h
    · exact ih h
    · exact ⟨n % 16, by omega, List.mem_singleton.mp h⟩

/-- `hex::encode`: two digits for each byte. -/
def hexEncode (bytes : List UInt8) : List Char := bytes.flatMap fun b => hexFixed 2 b.toNat

/-- Blocks of one length can be told apart. -/
theorem flatMap_inj_of_length {α β : Type} {f : α → List β} {n : ℕ} (hn : 0 < n)
    (hlength : ∀ x, (f x).length = n) (hf : Function.Injective f) :
    ∀ {a b : List α}, a.flatMap f = b.flatMap f → a = b := by
  intro a
  induction a with
  | nil =>
    intro b h
    cases b with
    | nil => rfl
    | cons y b =>
      have hlen := congrArg List.length h
      rw [List.flatMap_cons, List.length_append, hlength, List.flatMap_nil, List.length_nil] at hlen
      omega
  | cons x a ih =>
    intro b h
    cases b with
    | nil =>
      have hlen := congrArg List.length h
      rw [List.flatMap_cons, List.length_append, hlength, List.flatMap_nil, List.length_nil] at hlen
      omega
    | cons y b =>
      rw [List.flatMap_cons, List.flatMap_cons] at h
      obtain ⟨h1, h2⟩ := List.append_inj h (by rw [hlength, hlength])
      rw [hf h1, ih h2]

theorem hexEncode_inj {a b : List UInt8} (h : hexEncode a = hexEncode b) : a = b := by
  refine flatMap_inj_of_length (f := fun x : UInt8 => hexFixed 2 x.toNat) (n := 2) (by omega)
    (fun x => hexFixed_length 2 x.toNat) ?_ h
  intro x y hxy
  have hnat : x.toNat = y.toNat := hexFixed_inj (by have := x.toNat_lt; omega)
    (by have := y.toNat_lt; omega) hxy
  exact UInt8.toNat_inj.mp hnat

/-! ### JSON strings -/

/-- One character of a JSON string literal. -/
def jsonEscape (c : Char) : List Char :=
  if c = '"' then ['\\', '"']
  else if c = '\\' then ['\\', '\\']
  else if c = '\x08' then ['\\', 'b']
  else if c = '\t' then ['\\', 't']
  else if c = '\n' then ['\\', 'n']
  else if c = '\x0c' then ['\\', 'f']
  else if c = '\r' then ['\\', 'r']
  else if c.toNat < 32 then '\\' :: 'u' :: hexFixed 4 c.toNat
  else [c]

/-- Read one character of a string literal back; the closing quote is not one. -/
def jsonUnescape : List Char → Option (Char × List Char)
  | '\\' :: 'u' :: a :: b :: c :: d :: rest =>
    some (Char.ofNat (((hexValue a * 16 + hexValue b) * 16 + hexValue c) * 16 + hexValue d), rest)
  | '\\' :: '"' :: rest => some ('"', rest)
  | '\\' :: '\\' :: rest => some ('\\', rest)
  | '\\' :: 'b' :: rest => some ('\x08', rest)
  | '\\' :: 't' :: rest => some ('\t', rest)
  | '\\' :: 'n' :: rest => some ('\n', rest)
  | '\\' :: 'f' :: rest => some ('\x0c', rest)
  | '\\' :: 'r' :: rest => some ('\r', rest)
  | '"' :: _ => none
  | c :: rest => some (c, rest)
  | [] => none

theorem jsonUnescape_control (c : Char) (h : c.toNat < 32) (rest : List Char) :
    jsonUnescape ('\\' :: 'u' :: (hexFixed 4 c.toNat ++ rest)) = some (c, rest) := by
  have hv : ∀ n, hexValue (hexDigit (n % 16)) = n % 16 :=
    fun n => hexValue_hexDigit _ (by omega)
  simp only [hexFixed, List.nil_append, List.cons_append, jsonUnescape, hv]
  have he : ((c.toNat / 16 / 16 / 16 % 16 * 16 + c.toNat / 16 / 16 % 16) * 16
      + c.toNat / 16 % 16) * 16 + c.toNat % 16 = c.toNat := by omega
  rw [he, Char.ofNat_toNat]

/-- **A character can be told from what follows it.** -/
theorem jsonUnescape_escape (c : Char) (rest : List Char) :
    jsonUnescape (jsonEscape c ++ rest) = some (c, rest) := by
  unfold jsonEscape
  split_ifs with h1 h2 h3 h4 h5 h6 h7 h8
  · subst h1; rfl
  · subst h2; rfl
  · subst h3; rfl
  · subst h4; rfl
  · subst h5; rfl
  · subst h6; rfl
  · subst h7; rfl
  · rw [List.cons_append, List.cons_append]
    exact jsonUnescape_control c h8 rest
  · rw [List.singleton_append, jsonUnescape.eq_def]
    split <;> simp_all

/-- A JSON string literal. -/
def jsonString (s : List Char) : List Char := '"' :: (s.flatMap jsonEscape ++ ['"'])

theorem jsonBody_append_inj : ∀ {s t r r' : List Char},
    s.flatMap jsonEscape ++ '"' :: r = t.flatMap jsonEscape ++ '"' :: r' → s = t ∧ r = r' := by
  intro s
  induction s with
  | nil =>
    intro t r r' h
    cases t with
    | nil => exact ⟨rfl, by simpa using h⟩
    | cons d t =>
      have := congrArg jsonUnescape h
      rw [List.flatMap_cons, List.append_assoc, jsonUnescape_escape] at this
      simp [jsonUnescape] at this
  | cons c s ih =>
    intro t r r' h
    cases t with
    | nil =>
      have := congrArg jsonUnescape h
      rw [List.flatMap_cons, List.append_assoc, jsonUnescape_escape] at this
      simp [jsonUnescape] at this
    | cons d t =>
      rw [List.flatMap_cons, List.flatMap_cons, List.append_assoc, List.append_assoc] at h
      have hh := congrArg jsonUnescape h
      rw [jsonUnescape_escape, jsonUnescape_escape] at hh
      obtain ⟨rfl, hrest⟩ := Prod.mk.inj (Option.some.inj hh)
      obtain ⟨rfl, rfl⟩ := ih hrest
      exact ⟨rfl, rfl⟩

/-- **A string literal can be told from what follows it.** -/
theorem jsonString_append_inj {s t r r' : List Char}
    (h : jsonString s ++ r = jsonString t ++ r') : s = t ∧ r = r' := by
  simp only [jsonString, List.cons_append, List.append_assoc, List.nil_append] at h
  exact jsonBody_append_inj (List.cons.inj h).2

/-- The elements of a JSON array and the closing bracket. -/
def jsonElements : List (List Char) → List Char
  | [] => [']']
  | [s] => jsonString s ++ [']']
  | s :: t :: rest => jsonString s ++ ',' :: jsonElements (t :: rest)

/-- A JSON array of strings. -/
def jsonArray (strings : List (List Char)) : List Char := '[' :: jsonElements strings

theorem jsonElements_inj : ∀ {a b : List (List Char)}, jsonElements a = jsonElements b → a = b := by
  intro a
  induction a with
  | nil =>
    intro b h
    match b with
    | [] => rfl
    | [s] => simp [jsonElements, jsonString] at h
    | s :: t :: rest => simp [jsonElements, jsonString] at h
  | cons s a ih =>
    intro b h
    match a, b with
    | [], [] => simp [jsonElements, jsonString] at h
    | [], [t] => rw [(jsonString_append_inj h).1]
    | [], t :: t' :: b =>
      have := (jsonString_append_inj h).2
      simp at this
    | s' :: a, [] => simp [jsonElements, jsonString] at h
    | s' :: a, [t] =>
      have := (jsonString_append_inj h).2
      simp at this
    | s' :: a, t :: t' :: b =>
      obtain ⟨rfl, hrest⟩ := jsonString_append_inj h
      rw [ih (List.cons.inj hrest).2]

/-- **The array determines its strings.** -/
theorem jsonArray_inj {a b : List (List Char)} (h : jsonArray a = jsonArray b) : a = b :=
  jsonElements_inj (List.cons.inj h).2

/-! ### Bytes -/

/-- The UTF-8 bytes of a text. -/
def utf8 (s : List Char) : List UInt8 := s.flatMap String.utf8EncodeChar

theorem utf8_inj {s t : List Char} (h : utf8 s = utf8 t) : s = t := by
  have hbytes : s.utf8Encode = t.utf8Encode := by
    rw [List.utf8Encode, List.utf8Encode]
    exact congrArg List.toByteArray h
  have hstr : String.ofList s = String.ofList t := by
    rw [← String.toByteArray_inj, String.toByteArray_ofList, String.toByteArray_ofList, hbytes]
  have := congrArg String.toList hstr
  rwa [String.toList_ofList, String.toList_ofList] at this

end Text
