import Mathlib.Data.Set.Function
import EmbeddedAlerts.Sample

/-!
# The key determines the identity

The bytes behind a match key are a JSON array of nine strings.  The array can be
read back (`jsonArray_inj`), and a UUID, a number and a normalization can each be
read back from its text, so the bytes determine the identity
(`Store.canonicalJson_inj`).  A hash without collisions on such bytes gives two
identities the same key only if they are the same.
-/

namespace EmbeddedAlerts

open Text

/-- **The hashed bytes can be read back.** -/
theorem Store.canonicalJson_inj {i j : MatchIdentity}
    (h : Store.canonicalJson i = Store.canonicalJson j) : i = j := by
  have hfields := jsonArray_inj (utf8_inj h)
  simp only [List.cons.injEq, String.toList_inj, and_true] at hfields
  obtain ⟨htenant, hrule, hrev, hpage, hcontent, hmodel, hversion, hdim, hnorm⟩ := hfields
  obtain ⟨⟨model, modelVersion, dimensions, normalization⟩, tenantId, alertRuleId,
    alertRuleRevisionId, pageRevisionId, contentSha256⟩ := i
  obtain ⟨⟨model', modelVersion', dimensions', normalization'⟩, tenantId', alertRuleId',
    alertRuleRevisionId', pageRevisionId', contentSha256'⟩ := j
  obtain rfl := Uuid.chars_inj htenant
  obtain rfl := Uuid.chars_inj hrule
  obtain rfl := Uuid.chars_inj hrev
  obtain rfl := Uuid.chars_inj hpage
  obtain rfl := hcontent
  obtain rfl := hmodel
  obtain rfl := hversion
  have hdigits := congrArg (fun s : String => Nat.ofDigitChars 10 s.toList 0) hdim
  simp only [Nat.toList_repr, Nat.ofDigitChars_ten_toDigits] at hdigits
  obtain rfl := UInt32.toNat_inj.mp hdigits
  obtain rfl := Store.normalizationName_inj hnorm
  rfl

theorem Store.sha256Hex_inj {x : Platform} {s : Set (List UInt8)} (hs : Set.InjOn x.sha256 s)
    {a b : List UInt8} (ha : a ∈ s) (hb : b ∈ s)
    (h : Store.sha256Hex x a = Store.sha256Hex x b) : a = b := by
  have hlist := congrArg String.toList h
  rw [Store.sha256Hex, Store.sha256Hex, String.toList_ofList, String.toList_ofList] at hlist
  exact hs ha hb (hexEncode_inj hlist)

/-- The two copies are one function. -/
theorem ReverseMatch.matchKey_eq (x : Platform) (i : MatchIdentity) :
    ReverseMatch.matchKey x i = Store.matchKey x i := rfl

theorem Store.matchKey_inj {x : Platform} (hx : x.CollisionFree) {i j : MatchIdentity}
    (h : Store.matchKey x i = Store.matchKey x j) : i = j :=
  Store.canonicalJson_inj
    (Store.sha256Hex_inj hx.injOn (Set.mem_univ _) (Set.mem_univ _) h)

/-- **Both paths compute one key, and it names exactly one identity**, whatever
characters the texts contain, if SHA-256 has no collision among the serialized
identities. -/
theorem matchKey_shared_and_injective (x : Platform)
    (hx : Set.InjOn x.sha256 (Set.range Store.canonicalJson)) (i j : MatchIdentity) :
    Store.matchKey x i = ReverseMatch.matchKey x i ∧
      (Store.matchKey x i = Store.matchKey x j ↔ i = j) := by
  refine ⟨rfl, ?_, ?_⟩
  · intro h
    exact Store.canonicalJson_inj
      (Store.sha256Hex_inj hx (Set.mem_range_self i) (Set.mem_range_self j) h)
  · intro h
    rw [h]

theorem matchKey_shared_and_injective_sample :
    Store.matchKey Platform.sample Scenario.identity
        = "803cd52170869d1fbbf527a70fbe0d134e09c18ecfb8150e23f87b404af21f55" ∧
      (Store.matchKey Platform.sample Scenario.identity
          = Store.matchKey Platform.sample { Scenario.identity with model := "m\"," } ↔
        Scenario.identity = { Scenario.identity with model := "m\"," }) :=
  ⟨by decide +kernel, (matchKey_shared_and_injective Platform.sample
    Platform.sample_collisionFree.injOn Scenario.identity _).2⟩

end EmbeddedAlerts
