import EmbeddedAlerts.Identity

/-!
# A platform that meets the assumptions

`Platform.Lawful` and `Platform.CollisionFree` are assumptions about code outside
the repository.  `Platform.sample` meets both, so what is proved from them is not
vacuous.  It is made for one small scenario, a tenant with a source, a rule and a
page.  On the inputs of the scenario it does what the real functions do: the
digests are SHA-256's, the distances are the cosine distances of the vectors, and
the two URLs are read as the `url` crate reads them.  On other inputs it is any
function with the properties assumed.
-/

namespace EmbeddedAlerts

open Text

/-! ### The vectors and the identity of the scenario -/

namespace Scenario

/-- The bits of `1.0`. -/
def one : F32Bits := 0x3f800000

/-- The vector `(1, 0, 0, 0)`. -/
def axis : List F32Bits := [one, 0, 0, 0]

/-- The vector `(1, 1, 1, 1)`, at cosine distance `1 / 2` from `axis`. -/
def diagonal : List F32Bits := [one, one, one, one]

def space : ModelSpace where
  model := "m"
  modelVersion := "1"
  dimensions := 4
  normalization := .none

def contentDigest : ℕ := 0x8ed3f6ad685b959ead7022518e1af76cd816f8e8ec7ccdda1ed4018e8f2223f8

/-- The 32 bytes of a digest. -/
def digestBytes (n : ℕ) : List UInt8 :=
  (List.range 32).map fun i => UInt8.ofNat (n / 256 ^ (31 - i))

def identity : MatchIdentity where
  toModelSpace := space
  tenantId := 1
  alertRuleId := 20
  alertRuleRevisionId := 21
  pageRevisionId := 41
  contentSha256 := String.ofList (hexEncode (digestBytes contentDigest))

/-- What is hashed in the scenario, with the digests. -/
def digests : List (List UInt8 × List UInt8) := [
  (utf8 "alpha".toList, digestBytes contentDigest),
  (Store.canonicalJson identity,
    digestBytes 0x803cd52170869d1fbbf527a70fbe0d134e09c18ecfb8150e23f87b404af21f55),
  (axis.flatMap ReverseMatch.toBeBytes,
    digestBytes 0x72e81985ac023406ebdc147bedc4c1d6349d4ae5bd54260135b0e30129046559),
  (diagonal.flatMap ReverseMatch.toBeBytes,
    digestBytes 0x136183fa400bb4d939c5249b1d2de3fa229610031c95edb8d49f223223e83dfd)]

/-- The digest of a listed text; any other text is its own digest, with a tail
that makes it longer than a digest. -/
def sha256 (bytes : List UInt8) : List UInt8 :=
  match digests.find? fun e => decide (e.1 = bytes) with
  | some e => e.2
  | none => bytes ++ List.replicate 33 0

/-- The same for any list of texts with their digests. -/
def hashBy (table : List (List UInt8 × List UInt8)) (bytes : List UInt8) : List UInt8 :=
  match table.find? fun e => decide (e.1 = bytes) with
  | some e => e.2
  | none => bytes ++ List.replicate 33 0

theorem hashBy_injective {table : List (List UInt8 × List UInt8)}
    (hdistinct : (table.map Prod.snd).Nodup)
    (hlength : ∀ e ∈ table, e.2.length = 32) : Function.Injective (hashBy table) := by
  intro a b h
  unfold hashBy at h
  split at h
  · next e he =>
    have hae : e.1 = a := by simpa using List.find?_some he
    split at h
    · next f hf =>
      have hbf : f.1 = b := by simpa using List.find?_some hf
      rw [← hae, ← hbf]
      exact congrArg Prod.fst (List.inj_on_of_nodup_map hdistinct (List.mem_of_find?_eq_some he)
        (List.mem_of_find?_eq_some hf) h)
    · have hlen := congrArg List.length h
      rw [hlength e (List.mem_of_find?_eq_some he), List.length_append, List.length_replicate]
        at hlen
      omega
  · split at h
    · next f hf =>
      have hlen := congrArg List.length h
      rw [hlength f (List.mem_of_find?_eq_some hf), List.length_append, List.length_replicate]
        at hlen
      omega
    · exact List.append_cancel_right h

theorem sha256_injective : Function.Injective sha256 :=
  hashBy_injective (by decide) (by decide)

def cosineDistance (a b : List F32Bits) : Float8 :=
  if a = b then ((0 : ℚ) : Float8)
  else if (a = axis ∧ b = diagonal) ∨ (a = diagonal ∧ b = axis) then ((1 / 2 : ℚ) : Float8)
  else ((1 : ℚ) : Float8)

/-- The digits of a hyphenated UUID. -/
def uuidParseStr (s : String) : Option Uuid :=
  let digits := s.toList.filter fun c => decide (c ≠ '-')
  if digits.length = 32 then some (Fin.ofNat (2 ^ 128) (hexRead digits)) else none

/-- The number of components is the one declared, and they are not all zero. -/
def validateEmbedding (e : EmbeddingPayload) : Except String Unit :=
  if e.values.length = e.dimensions.toNat
      ∧ e.values.any (fun v => decide (ReverseMatch.canonicalBits v ≠ 0)) = true then .ok ()
  else .error "embedding values must match dimensions and must not be zero"

def validatePage (r : PageIngestRequest) : Except String Unit := do
  validateEmbedding r.embedding
  if 200 ≤ r.httpStatus.toNat ∧ r.httpStatus.toNat ≤ 399 then .ok ()
  else .error "http_status must be between 200 and 399"

def validateSearch (r : EmbeddingSearchRequest) : Except String Unit := do
  validateEmbedding r.embedding
  if 1 ≤ r.limit ∧ r.limit ≤ 100 then .ok ()
  else .error "limit must be between 1 and 100"

def url (path : String) : Url where
  scheme := "https"
  cannotBeABase := false
  username := ""
  password := none
  host := some (.domain "example.com")
  port := none
  path := path
  query := none
  fragment := none

def urlParse (s : String) : Except String Url :=
  if s = "https://example.com/" then .ok (url "/")
  else if s = "https://example.com/a" then .ok (url "/a")
  else .error "relative URL without a base"

def urlToString (u : Url) : String :=
  u.scheme ++ "://" ++ (match u.host with
    | some (.domain name) => name
    | some (.ipv4 address) => address
    | some (.ipv6 address) => address
    | none => "") ++ u.path

end Scenario

/-- A platform on which the scenario runs. -/
def Platform.sample : Platform where
  sha256 := Scenario.sha256
  cosineDistance := Scenario.cosineDistance
  jsonDouble := id
  uuidParseStr := Scenario.uuidParseStr
  validateEmbedding := Scenario.validateEmbedding
  validatePage := Scenario.validatePage
  validateSearch := Scenario.validateSearch
  validateSource := fun _ => .ok ()
  urlParse := Scenario.urlParse
  urlToString := Scenario.urlToString

theorem Platform.sample_collisionFree : Platform.sample.CollisionFree := Scenario.sha256_injective

theorem Scenario.cosineDistance_range (a b : List F32Bits) :
    ∃ q : ℚ, Scenario.cosineDistance a b = (q : Float8) ∧ 0 ≤ q ∧ q ≤ 2 := by
  unfold Scenario.cosineDistance
  split_ifs
  · exact ⟨0, rfl, le_rfl, by norm_num⟩
  · exact ⟨1 / 2, rfl, by norm_num, by norm_num⟩
  · exact ⟨1, rfl, by norm_num, by norm_num⟩

theorem Scenario.uuidParseStr_display (u : Uuid) :
    Scenario.uuidParseStr (Uuid.display u) = some u := by
  have hlt : u.val < 16 ^ 32 := lt_of_lt_of_eq u.isLt (by norm_num)
  rw [Scenario.uuidParseStr, Uuid.display, String.toList_ofList]
  simp only [Uuid.filter_chars, hexFixed_length, if_true, hexRead_hexFixed hlt]
  congr 1
  exact Fin.ext (Nat.mod_eq_of_lt u.isLt)

theorem Scenario.validatePage_ok {r : PageIngestRequest} (h : Scenario.validatePage r = .ok ()) :
    Scenario.validateEmbedding r.embedding = .ok () ∧
      (200 ≤ r.httpStatus.toNat ∧ r.httpStatus.toNat ≤ 399) := by
  obtain ⟨_, h1, h2⟩ := Sql.except_bind_eq_ok h
  split_ifs at h2 with hstatus
  exact ⟨h1, hstatus⟩

theorem Scenario.validateSearch_ok {r : EmbeddingSearchRequest}
    (h : Scenario.validateSearch r = .ok ()) : Scenario.validateEmbedding r.embedding = .ok () := by
  obtain ⟨_, h1, -⟩ := Sql.except_bind_eq_ok h
  exact h1

/-- **The assumptions can be met.** -/
theorem Platform.sample_lawful : Platform.sample.Lawful := by
  refine ⟨?_, fun _ h => h, fun _ h => h, fun _ _ _ _ _ h => h, ?_, ?_, ?_, ?_⟩
  · intro a b _ _ _
    exact Scenario.cosineDistance_range a.values b.values
  · intro r h
    exact (Scenario.validatePage_ok h).1
  · intro r h
    exact (Scenario.validatePage_ok h).2
  · intro r h
    exact Scenario.validateSearch_ok h
  · intro u
    have hparse : Platform.sample.uuidParseStr = Scenario.uuidParseStr := rfl
    rw [hparse]
    exact Scenario.uuidParseStr_display u

/-- The other assumptions do not speak of the digests. -/
theorem Platform.Lawful.withSha256 {x : Platform} (hx : x.Lawful)
    (sha256 : List UInt8 → List UInt8) : { x with sha256 := sha256 : Platform }.Lawful where
  distance := hx.distance
  jsonBounded := hx.jsonBounded
  jsonNonneg := hx.jsonNonneg
  jsonReaches := hx.jsonReaches
  pageEmbedding := hx.pageEmbedding
  pageStatus := hx.pageStatus
  searchEmbedding := hx.searchEmbedding
  parseDisplay := hx.parseDisplay

/-- Nor do those that are left if doubles are read otherwise. -/
theorem Platform.Lawful.withJsonDouble {x : Platform} (hx : x.Lawful) {jsonDouble : ℚ → ℚ}
    (hbounded : ∀ q, |q| ≤ 1 → |jsonDouble q| ≤ 1) (hnonneg : ∀ q, 0 ≤ q → 0 ≤ jsonDouble q)
    (hreaches : ∀ (t : F32) (a b : List F32Bits) (s : ℚ),
      (x.cosineDistance a b).oneMinus = (s : Float8) → t.val ≤ s →
        jsonDouble t.val ≤ jsonDouble s) :
    { x with jsonDouble := jsonDouble : Platform }.Lawful where
  distance := hx.distance
  jsonBounded := hbounded
  jsonNonneg := hnonneg
  jsonReaches := hreaches
  pageEmbedding := hx.pageEmbedding
  pageStatus := hx.pageStatus
  searchEmbedding := hx.searchEmbedding
  parseDisplay := hx.parseDisplay

/-- The platform with the digests of more texts. -/
def Platform.sampleWith (more : List (List UInt8 × List UInt8)) : Platform :=
  { Platform.sample with sha256 := Scenario.hashBy (Scenario.digests ++ more) }

theorem Platform.sampleWith_lawful (more : List (List UInt8 × List UInt8)) :
    (Platform.sampleWith more).Lawful :=
  Platform.sample_lawful.withSha256 _

end EmbeddedAlerts
