import EmbeddedAlerts.Text.Encoding

/-!
# Bytes as text and bytes compared

`hexDecode` reads pairs of hexadecimal digits, in either case.  What it reads is what
`hexEncode` writes, up to the case of the letters (`hexDecode_eq_some_iff`).

`fixedTimeEq` compares two arrays without stopping at the first difference: it
collects the differences of all positions in one byte.  For arrays of one length it is
equality (`fixedTimeEq_iff`).
-/

namespace Text

/-! ### Hexadecimal bytes -/

/-- `u8::is_ascii_hexdigit`. -/
def isAsciiHexdigit (b : UInt8) : Bool :=
  (48 ≤ b && b ≤ 57) || (65 ≤ b && b ≤ 70) || (97 ≤ b && b ≤ 102)

/-- `u8::to_ascii_lowercase`. -/
def lowerByte (b : UInt8) : UInt8 := if 65 ≤ b ∧ b ≤ 90 then b + 32 else b

/-- The value of a hexadecimal digit. -/
def hexNibble (b : UInt8) : Option ℕ :=
  if 48 ≤ b ∧ b ≤ 57 then some (b.toNat - 48)
  else if 65 ≤ b ∧ b ≤ 70 then some (b.toNat - 55)
  else if 97 ≤ b ∧ b ≤ 102 then some (b.toNat - 87)
  else none

/-- Pairs of digits. -/
def hexDecode : List UInt8 → Option (List UInt8)
  | [] => some []
  | [_] => none
  | a :: b :: rest => do
    let high ← hexNibble a
    let low ← hexNibble b
    let bytes ← hexDecode rest
    return UInt8.ofNat (16 * high + low) :: bytes

/-- The byte of a digit as `hexEncode` writes it. -/
def digitByte (n : ℕ) : UInt8 := UInt8.ofNat (hexDigit n).toNat

theorem forall_byte {p : UInt8 → Prop} (h : ∀ n < 256, p (UInt8.ofNat n)) (b : UInt8) : p b := by
  rw [← UInt8.ofNat_toNat (x := b)]
  exact h b.toNat b.toNat_lt

theorem hexNibble_isSome (b : UInt8) : (hexNibble b).isSome = isAsciiHexdigit b := by
  revert b
  exact forall_byte (by decide +kernel)

theorem hexNibble_eq_some_iff {b : UInt8} {n : ℕ} :
    hexNibble b = some n ↔ n < 16 ∧ lowerByte b = digitByte n := by
  have hread : ∀ b : UInt8, ∀ n ∈ hexNibble b, n < 16 ∧ lowerByte b = digitByte n :=
    forall_byte (by decide +kernel)
  have hwrite : ∀ b : UInt8, ∀ n < 16, lowerByte b = digitByte n → hexNibble b = some n :=
    forall_byte (by decide +kernel)
  exact ⟨fun h => hread b n h, fun h => hwrite b n h.1 h.2⟩

theorem utf8_hexFixed_two (n : ℕ) :
    utf8 (hexFixed 2 n) = [digitByte (n / 16 % 16), digitByte (n % 16)] := by
  have hdigit : ∀ d < 16, String.utf8EncodeChar (hexDigit d) = [digitByte d] := by decide +kernel
  rw [hexFixed, hexFixed, hexFixed, utf8, List.nil_append, List.singleton_append,
    List.flatMap_cons, List.flatMap_cons, List.flatMap_nil, hdigit _ (by omega),
    hdigit _ (by omega)]
  rfl

theorem utf8_hexEncode_cons (byte : UInt8) (bytes : List UInt8) :
    utf8 (hexEncode (byte :: bytes)) =
      digitByte (byte.toNat / 16) :: digitByte (byte.toNat % 16) :: utf8 (hexEncode bytes) := by
  have hlt := byte.toNat_lt
  rw [hexEncode, List.flatMap_cons, utf8, List.flatMap_append, ← utf8, utf8_hexFixed_two,
    Nat.mod_eq_of_lt (by omega)]
  rfl

/-- **The bytes that are read are the ones written**, in lower case. -/
theorem hexDecode_eq_some_iff (text : List UInt8) : ∀ {bytes : List UInt8},
    hexDecode text = some bytes ↔ text.map lowerByte = utf8 (hexEncode bytes) := by
  induction text using hexDecode.induct with
  | case1 =>
    intro bytes
    cases bytes with
    | nil => exact iff_of_true rfl rfl
    | cons byte bytes =>
      rw [utf8_hexEncode_cons]
      exact iff_of_false (fun h => nomatch h) fun h => nomatch h
  | case2 a =>
    intro bytes
    cases bytes with
    | nil => exact iff_of_false (fun h => nomatch h) fun h => nomatch h
    | cons byte bytes =>
      rw [utf8_hexEncode_cons]
      refine iff_of_false (fun h => nomatch h) fun h => ?_
      have hlength := congrArg List.length h
      simp only [List.map_cons, List.map_nil, List.length_cons, List.length_nil] at hlength
      omega
  | case3 a b rest ih =>
    intro bytes
    simp only [hexDecode, Option.bind_eq_bind, Option.bind_eq_some_iff, hexNibble_eq_some_iff,
      Option.pure_def, Option.some.injEq, List.map_cons]
    constructor
    · rintro ⟨high, ⟨hhigh, ha⟩, low, ⟨hlow, hb⟩, tail, htail, rfl⟩
      have hbyte : (UInt8.ofNat (16 * high + low)).toNat = 16 * high + low :=
        UInt8.toNat_ofNat_of_lt (by change _ < 256; omega)
      have hdiv : (16 * high + low) / 16 = high := by omega
      have hmod : (16 * high + low) % 16 = low := by omega
      rw [utf8_hexEncode_cons, hbyte, hdiv, hmod, ha, hb, ih.mp htail]
    · intro h
      cases bytes with
      | nil => cases h
      | cons byte bytes =>
        have hlt := byte.toNat_lt
        rw [utf8_hexEncode_cons] at h
        obtain ⟨ha, h⟩ := List.cons.inj h
        obtain ⟨hb, h⟩ := List.cons.inj h
        refine ⟨byte.toNat / 16, ⟨by omega, ha⟩, byte.toNat % 16, ⟨by omega, hb⟩, bytes,
          ih.mpr h, ?_⟩
        have hbyte : 16 * (byte.toNat / 16) + byte.toNat % 16 = byte.toNat := by omega
        rw [hbyte, UInt8.ofNat_toNat]

/-- A text of hexadecimal digits, an even number of them, is read. -/
theorem hexDecode_isSome (text : List UInt8) : ∀ {n : ℕ}, text.length = 2 * n →
    text.all isAsciiHexdigit = true → ∃ bytes, hexDecode text = some bytes ∧ bytes.length = n := by
  induction text using hexDecode.induct with
  | case1 =>
    intro n hlength _
    refine ⟨[], rfl, ?_⟩
    simp only [List.length_nil] at hlength ⊢
    omega
  | case2 a =>
    intro n hlength _
    simp only [List.length_cons, List.length_nil] at hlength
    omega
  | case3 a b rest ih =>
    intro n hlength hall
    simp only [List.all_cons, Bool.and_eq_true, ← hexNibble_isSome] at hall
    obtain ⟨ha, hb, hrest⟩ := hall
    obtain ⟨high, ha⟩ := Option.isSome_iff_exists.mp ha
    obtain ⟨low, hb⟩ := Option.isSome_iff_exists.mp hb
    simp only [List.length_cons] at hlength
    obtain ⟨bytes, hbytes, hn⟩ := ih (n := n - 1) (by omega) hrest
    refine ⟨UInt8.ofNat (16 * high + low) :: bytes, ?_, ?_⟩
    · rw [hexDecode, ha, hb, hbytes]
      rfl
    · rw [List.length_cons]
      omega

theorem utf8_hexEncode_length (bytes : List UInt8) :
    (utf8 (hexEncode bytes)).length = 2 * bytes.length := by
  induction bytes with
  | nil => rfl
  | cons byte bytes ih =>
    rw [utf8_hexEncode_cons, List.length_cons, List.length_cons, List.length_cons, ih]
    omega

/-- Only hexadecimal digits are read. -/
theorem all_isAsciiHexdigit_of_decode {text : List UInt8} : ∀ {bytes : List UInt8},
    hexDecode text = some bytes → text.all isAsciiHexdigit = true := by
  induction text using hexDecode.induct with
  | case1 => exact fun _ => rfl
  | case2 a => exact fun h => nomatch h
  | case3 a b rest ih =>
    intro bytes h
    simp only [hexDecode, Option.bind_eq_bind, Option.bind_eq_some_iff] at h
    obtain ⟨high, ha, low, hb, tail, htail, -⟩ := h
    rw [List.all_cons, List.all_cons, ih htail, ← hexNibble_isSome, ← hexNibble_isSome, ha, hb]
    rfl

/-! ### Comparison -/

/-- Every position adds its differing bits. -/
def fixedTimeEq (left right : List UInt8) : Bool :=
  (left.zip right).foldl (fun difference pair => difference ||| (pair.1 ^^^ pair.2)) 0 == 0

theorem foldl_difference_eq_zero_iff (pairs : List (UInt8 × UInt8)) : ∀ {difference : UInt8},
    pairs.foldl (fun difference pair => difference ||| (pair.1 ^^^ pair.2)) difference = 0 ↔
      difference = 0 ∧ ∀ pair ∈ pairs, pair.1 = pair.2 := by
  induction pairs with
  | nil =>
    intro difference
    simp
  | cons pair pairs ih =>
    intro difference
    rw [List.foldl_cons, ih, UInt8.or_eq_zero_iff, UInt8.xor_eq_zero_iff, List.forall_mem_cons,
      and_assoc]

theorem fixedTimeEq_iff {left right : List UInt8} (hlength : left.length = right.length) :
    fixedTimeEq left right = true ↔ left = right := by
  rw [fixedTimeEq, beq_iff_eq, foldl_difference_eq_zero_iff]
  constructor
  · rintro ⟨-, h⟩
    refine List.ext_getElem hlength fun i hi hi' => ?_
    refine h (left[i], right[i]) ?_
    rw [← List.getElem_zip (h := by rw [List.length_zip]; omega)]
    exact List.getElem_mem _
  · rintro rfl
    refine ⟨rfl, fun pair hpair => ?_⟩
    obtain ⟨i, hi, rfl⟩ := List.mem_iff_getElem.mp hpair
    rw [List.getElem_zip]

end Text
