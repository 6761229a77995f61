import EmbeddedAlerts.Auth
import EmbeddedAlerts.Sample

/-!
# Which tokens are accepted

`JwtVerifier::verify` is some twenty checks over three decoders.  `Accepts` says
what they amount to: the shape of the token, the protected header, the signature
and the claims, with no order among them and in unbounded integers.

* `splitToken_ok_iff`, `checkProtected_ok_iff`, `checkSignature_ok_iff`,
  `checkClaims_ok_iff`: what each part of `verify` asks for.
* `verify_ok_iff`: **`verify` accepts exactly the tokens of `Accepts`**, with
  exactly the context stated there.
-/

namespace EmbeddedAlerts

namespace Auth

open Text
open Alerts (trimString)

/-- The range of `chrono::Utc::now().timestamp()`. -/
def InClock (now : ℤ) : Prop := -8334601228800 ≤ now ∧ now ≤ 8210266876799

/-! ### Acceptance -/

/-- The three segments of a token. -/
structure Segments (token : String) (first second third : List Char) : Prop where
  size : token.utf8ByteSize ≤ 16384
  noSpace : ∀ ch ∈ token.toList, isAsciiWhitespace ch = false
  joined : token.toList = first ++ '.' :: (second ++ '.' :: third)
  noDots : '.' ∉ first ∧ '.' ∉ second ∧ '.' ∉ third
  nonempty : first ≠ [] ∧ second ≠ [] ∧ third ≠ []

/-- The protected header. -/
structure HeaderAccepted (fields : Object) : Prop where
  alg : fields.get "alg" = some (.string "HS256")
  typ : ∀ typ, fields.get "typ" = some (.string typ) → asciiLowercase typ.toList = "jwt".toList
  crit : fields.get "crit" = none

/-- The value at the end of a path of fields. -/
inductive At : Value → List String → Value → Prop
  | here (value : Value) : At value [] value
  | field {fields : Object} {key : String} {value target : Value} {path : List String}
      (hget : fields.get key = some value) (hrest : At value path target) :
      At (.object fields) (key :: path) target

/-- The texts a role claim lists. -/
inductive RoleTexts : Value → List (List Char) → Prop
  | text (s : String) : RoleTexts (.string s) (s.toList.splitOn ',')
  | array (texts : List String) : RoleTexts (.array (texts.map .string)) (texts.map String.toList)

def ValidRole (role : List Char) : Prop :=
  (utf8 role).length ≤ 80 ∧ ∀ ch ∈ role, isRoleChar ch = true

instance : DecidablePred ValidRole := fun _ => inferInstanceAs (Decidable (_ ∧ _))

/-- The roles in a list of texts: blank texts name none. -/
def roleSet (texts : List (List Char)) : Finset String :=
  (((texts.map roleText).filter fun role => !role.isEmpty).map String.ofList).toFinset

/-- A role claim and the roles it grants. -/
def GrantsRoles (value : Value) (roles : Finset String) : Prop :=
  ∃ texts, RoleTexts value texts ∧ (∀ t ∈ texts, ValidRole (roleText t)) ∧
    roles = roleSet texts ∧ roles ≠ ∅

/-- `aud` is the audience or a list with it. -/
def ForAudience (value : Value) (audience : String) : Prop :=
  value = .string audience ∨ ∃ values, value = .array values ∧ Value.string audience ∈ values

/-- A claim that is an `i64` with a property. -/
def IntegerClaim (value : Value) (p : ℤ → Prop) : Prop := ∃ n, value.asI64 = some n ∧ p n

/-- The claims, and the context they give. -/
structure ClaimsAccepted (x : Platform) (verifier : JwtVerifier) (fields : Object) (now : ℤ)
    (ctx : AuthContext) : Prop where
  iss : fields.get "iss" = some (.string verifier.issuer)
  aud : ∃ aud, fields.get "aud" = some aud ∧ ForAudience aud verifier.audience
  sub : ∃ sub, fields.get "sub" = some (.string sub) ∧ ctx.subject = trimString sub ∧
    1 ≤ ctx.subject.utf8ByteSize ∧ ctx.subject.utf8ByteSize ≤ 256
  exp : ∃ exp, fields.get "exp" = some exp ∧ IntegerClaim exp (now - verifier.leewaySeconds < ·)
  nbf : ∀ nbf, fields.get "nbf" = some nbf → IntegerClaim nbf (· ≤ now + verifier.leewaySeconds)
  iat : ∀ iat, fields.get "iat" = some iat → IntegerClaim iat (· ≤ now + verifier.leewaySeconds)
  tenant : ∃ tenant, At (.object fields) verifier.tenantClaimPath (.string tenant) ∧
    x.uuidParseStr tenant = some ctx.tenantId
  roles : ∃ role, At (.object fields) verifier.roleClaimPath role ∧ GrantsRoles role ctx.roles
  allowed : ∃ role ∈ ctx.roles, role ∈ verifier.allowedRoles
  admin : ctx.tenantAdmin = true ↔ ∃ role ∈ ctx.roles, role ∈ verifier.adminRoles

/-- **The intended tokens**, each with the context it is to give. -/
def Accepts (c : TokenCrates) (x : Platform) (verifier : JwtVerifier) (token : String) (now : ℤ)
    (ctx : AuthContext) : Prop :=
  ∃ first second third, Segments token first second third ∧
    (∃ bytes fields, c.base64Decode first = some bytes ∧ bytes.length ≤ 4096 ∧
      c.fromSlice bytes = some (.object fields) ∧ HeaderAccepted fields) ∧
    (∃ tag, c.base64Decode third = some tag ∧ tag.length = 32 ∧
      tag = c.hmacSha256 verifier.secret (utf8 (first ++ '.' :: second))) ∧
    (∃ bytes fields, c.base64Decode second = some bytes ∧
      c.fromSlice bytes = some (.object fields) ∧ ClaimsAccepted x verifier fields now ctx)

/-! ### Reading values -/

theorem asStr_eq_some {v : Value} {s : String} : v.asStr = some s ↔ v = .string s := by
  cases v <;> simp [Value.asStr]

theorem asObject_eq_some {v : Value} {fields : Object} :
    v.asObject = some fields ↔ v = .object fields := by
  cases v <;> simp [Value.asObject]

/-- A field that is a text. -/
theorem get_asStr {fields : Object} {key s : String} :
    (fields.get key).bind Value.asStr = some s ↔ fields.get key = some (.string s) := by
  rw [Option.bind_eq_some_iff]
  simp only [asStr_eq_some]
  constructor
  · rintro ⟨v, hv, rfl⟩
    exact hv
  · intro h
    exact ⟨_, h, rfl⟩

/-- The second attempt of `integer_claim` never finds what the first did not. -/
theorem integerClaim_ok_iff {v : Value} {n : ℤ} : integerClaim v = .ok n ↔ v.asI64 = some n := by
  rw [integerClaim, okOr_ok_iff]
  have hor : v.asI64.or (v.asU64.bind i64TryFrom) = v.asI64 := by
    cases v with
    | number k =>
      cases k with
      | posInt u => simp [Value.asI64, Value.asU64, i64TryFrom]
      | negInt i => simp [Value.asI64, Value.asU64]
      | float b => simp [Value.asI64, Value.asU64]
    | null => rfl
    | bool b => rfl
    | string s => rfl
    | array vs => rfl
    | object fs => rfl
  rw [hor]

theorem integerClaim_bind {β : Type} {v : Value} {f : ℤ → Except Unit β} {b : β} :
    (integerClaim v >>= f) = .ok b ↔ ∃ n, v.asI64 = some n ∧ f n = .ok b := by
  rw [bind_ok_iff]
  simp only [integerClaim_ok_iff]

theorem claimAtPath_iff : ∀ {path : List String} {v w : Value},
    claimAtPath v path = some w ↔ At v path w := by
  intro path
  induction path with
  | nil =>
    intro v w
    constructor
    · intro h
      obtain rfl : v = w := Option.some.inj h
      exact At.here v
    · intro h
      cases h
      rfl
  | cons key path ih =>
    intro v w
    have hstep : claimAtPath v (key :: path) = (v.get key).bind fun u => claimAtPath u path := rfl
    rw [hstep, Option.bind_eq_some_iff]
    constructor
    · rintro ⟨u, hu, hrest⟩
      cases v with
      | object fields => exact At.field hu (ih.mp hrest)
      | null => cases hu
      | bool b => cases hu
      | number n => cases hu
      | string s => cases hu
      | array vs => cases hu
    · intro h
      cases h with
      | field hget hrest => exact ⟨_, hget, ih.mpr hrest⟩

theorem claimAtPath_asStr {path : List String} {v : Value} {s : String} :
    (claimAtPath v path).bind Value.asStr = some s ↔ At v path (.string s) := by
  rw [Option.bind_eq_some_iff]
  simp only [asStr_eq_some, claimAtPath_iff]
  constructor
  · rintro ⟨w, hat, rfl⟩
    exact hat
  · intro h
    exact ⟨_, h, rfl⟩

theorem audienceMatches_iff {v : Value} {audience : String} :
    audienceMatches v audience = true ↔ ForAudience v audience := by
  cases v with
  | string s => simp [audienceMatches, ForAudience]
  | array vs =>
    simp only [audienceMatches, ForAudience, List.any_eq_true, beq_iff_eq, asStr_eq_some]
    constructor
    · rintro ⟨v, hv, rfl⟩
      exact Or.inr ⟨vs, rfl, hv⟩
    · rintro (h | ⟨values, h, hmem⟩)
      · cases h
      · cases h
        exact ⟨_, hmem, rfl⟩
  | null => simp [audienceMatches, ForAudience]
  | bool b => simp [audienceMatches, ForAudience]
  | number n => simp [audienceMatches, ForAudience]
  | object fs => simp [audienceMatches, ForAudience]

/-! ### Roles -/

theorem roleSet_cons (t : List Char) (texts : List (List Char)) :
    roleSet (t :: texts) = roleSet [t] ∪ roleSet texts := by
  by_cases ht : (roleText t).isEmpty = true
  · simp [roleSet, ht]
  · simp [roleSet, ht]

theorem validRole_iff {role : List Char} :
    ValidRole role ↔ ¬ ((utf8 role).length > 80 ∨ role.all isRoleChar = false) := by
  rw [ValidRole, not_or, not_lt, Bool.not_eq_false, List.all_eq_true]

/-- One turn of the loop adds the role of the text, if the text has one. -/
theorem insertRoleText_ok_iff {roles out : Finset String} {t : List Char} :
    insertRoleText roles t = .ok out ↔ ValidRole (roleText t) ∧ out = roles ∪ roleSet [t] := by
  by_cases hempty : (roleText t).isEmpty = true
  · have hnil : roleText t = [] := List.isEmpty_iff.mp hempty
    have hset : roleSet [t] = ∅ := by simp [roleSet, hnil]
    have hvalid : ValidRole (roleText t) := by
      rw [hnil]
      exact ⟨by decide, fun _ h => absurd h List.not_mem_nil⟩
    rw [hset, Finset.union_empty]
    simp only [insertRoleText, insertRole, hempty, if_true, Except.mapError, Except.ok.injEq]
    exact ⟨fun h => ⟨hvalid, h.symm⟩, fun h => h.2.symm⟩
  · have hset : roleSet [t] = {String.ofList (roleText t)} := by simp [roleSet, hempty]
    rw [hset, validRole_iff]
    by_cases hbad : (utf8 (roleText t)).length > 80 ∨ (roleText t).all isRoleChar = false
    · simp only [insertRoleText, insertRole, hempty, hbad, if_true, if_false, Except.mapError,
        not_true_eq_false, false_and, reduceCtorEq, Bool.false_eq_true]
    · simp only [insertRoleText, insertRole, hempty, hbad, if_false, Except.mapError,
        Except.ok.injEq, not_false_eq_true, true_and, Bool.false_eq_true]
      rw [Finset.union_comm, ← Finset.insert_eq]
      exact eq_comm

/-- The loop over texts. -/
theorem foldlM_insertRoleText_ok_iff : ∀ {texts : List (List Char)} {roles out : Finset String},
    texts.foldlM insertRoleText roles = .ok out ↔
      (∀ t ∈ texts, ValidRole (roleText t)) ∧ out = roles ∪ roleSet texts := by
  intro texts
  induction texts with
  | nil =>
    intro roles out
    rw [List.foldlM_nil, pure_ok_iff]
    have hset : roleSet [] = ∅ := rfl
    rw [hset, Finset.union_empty]
    exact ⟨fun h => ⟨fun _ ht => absurd ht List.not_mem_nil, h.symm⟩, fun h => h.2.symm⟩
  | cons t texts ih =>
    intro roles out
    rw [List.foldlM_cons, bind_ok_iff, roleSet_cons, List.forall_mem_cons]
    simp only [insertRoleText_ok_iff, ih]
    constructor
    · rintro ⟨_, ⟨ht, rfl⟩, hts, rfl⟩
      exact ⟨⟨ht, hts⟩, Finset.union_assoc _ _ _⟩
    · rintro ⟨⟨ht, hts⟩, rfl⟩
      exact ⟨_, ⟨ht, rfl⟩, hts, (Finset.union_assoc _ _ _).symm⟩

/-- The loop over an array is the loop over its texts, and fails if one element
is not a text. -/
theorem foldlM_insertRoleValue_ok_iff : ∀ {values : List Value} {roles out : Finset String},
    values.foldlM insertRoleValue roles = .ok out ↔
      ∃ texts : List String, values = texts.map .string ∧
        (texts.map String.toList).foldlM insertRoleText roles = .ok out := by
  intro values
  induction values with
  | nil =>
    intro roles out
    constructor
    · intro h
      exact ⟨[], rfl, h⟩
    · rintro ⟨texts, htexts, h⟩
      obtain rfl := List.map_eq_nil_iff.mp htexts.symm
      exact h
  | cons v values ih =>
    intro roles out
    rw [List.foldlM_cons, bind_ok_iff]
    simp only [insertRoleValue, okOr_bind, asStr_eq_some, ih]
    constructor
    · rintro ⟨next, ⟨s, rfl, hs⟩, texts, rfl, h⟩
      refine ⟨s :: texts, rfl, ?_⟩
      rw [List.map_cons, List.foldlM_cons, bind_ok_iff]
      exact ⟨next, hs, h⟩
    · rintro ⟨texts, htexts, h⟩
      cases texts with
      | nil => cases htexts
      | cons s texts =>
        obtain ⟨rfl, rfl⟩ := List.cons.inj htexts
        rw [List.map_cons, List.foldlM_cons, bind_ok_iff] at h
        obtain ⟨next, hs, hrest⟩ := h
        exact ⟨next, ⟨s, rfl, hs⟩, texts, rfl, hrest⟩

theorem collectRoles_ok_iff {v : Value} {roles : Finset String} :
    collectRoles v = .ok roles ↔
      ∃ texts, RoleTexts v texts ∧ texts.foldlM insertRoleText ∅ = .ok roles := by
  constructor
  · intro h
    cases v with
    | string s => exact ⟨_, RoleTexts.text s, h⟩
    | array values =>
      obtain ⟨texts, rfl, hfold⟩ := foldlM_insertRoleValue_ok_iff.mp h
      exact ⟨_, RoleTexts.array texts, hfold⟩
    | null => cases h
    | bool b => cases h
    | number n => cases h
    | object fs => cases h
  · rintro ⟨texts, hv, hfold⟩
    cases hv with
    | text s => exact hfold
    | array texts => exact foldlM_insertRoleValue_ok_iff.mpr ⟨texts, rfl, hfold⟩

/-- **`parse_roles` reads exactly the roles a claim grants.** -/
theorem parseRoles_ok_iff {v : Value} {roles : Finset String} :
    parseRoles v = .ok roles ↔ GrantsRoles v roles := by
  simp only [parseRoles, bind_ok_iff, rejectIf_ok_iff, pure_ok_iff, collectRoles_ok_iff,
    foldlM_insertRoleText_ok_iff, Finset.empty_union]
  constructor
  · rintro ⟨out, ⟨texts, hv, hvalid, rfl⟩, -, hne, rfl⟩
    exact ⟨texts, hv, hvalid, rfl, hne⟩
  · rintro ⟨texts, hv, hvalid, rfl, hne⟩
    exact ⟨_, ⟨texts, hv, hvalid, rfl⟩, (), hne, rfl⟩

theorem parseRoles_bind {β : Type} {v : Value} {f : Finset String → Except Unit β} {b : β} :
    (parseRoles v >>= f) = .ok b ↔ ∃ roles, GrantsRoles v roles ∧ f roles = .ok b := by
  rw [bind_ok_iff]
  simp only [parseRoles_ok_iff]

/-! ### The parts of `verify` -/

theorem getElem?_three_iff {α : Type} {l : List α} {a b d : α} :
    (l[0]? = some a ∧ l[1]? = some b ∧ l[2]? = some d ∧ l[3]? = none) ↔ l = [a, b, d] := by
  constructor
  · rintro ⟨h0, h1, h2, h3⟩
    match l with
    | [] | [_] | [_, _] => simp at h0 h1 h2
    | [p, q, r] => simp_all
    | _ :: _ :: _ :: _ :: _ => simp at h3
  · rintro rfl
    exact ⟨rfl, rfl, rfl, rfl⟩

theorem filter_nonempty_eq_some {o : Option (List Char)} {s : List Char} :
    o.filter (fun value => !value.isEmpty) = some s ↔ o = some s ∧ s ≠ [] := by
  rw [Option.filter_eq_some_iff]
  simp

/-- **The segments**: the token is split in one way only. -/
theorem splitToken_ok_iff {token : String} {first second third : List Char} :
    splitToken token = .ok (first, second, third) ↔ Segments token first second third := by
  simp only [splitToken, rejectIf_bind, okOr_bind, pure_ok_iff, filter_nonempty_eq_some,
    Prod.mk.injEq]
  constructor
  · rintro ⟨hbounds, _, ⟨h0, hne0⟩, _, ⟨h1, hne1⟩, _, ⟨h2, hne2⟩, h3, rfl, rfl, rfl⟩
    rw [not_or, not_lt, Bool.not_eq_true, List.any_eq_false] at hbounds
    rw [Bool.not_eq_true, Option.isSome_eq_false_iff, Option.isNone_iff_eq_none] at h3
    obtain ⟨hf, hs, ht, hjoin⟩ :=
      splitOn_eq_three_iff.mp (getElem?_three_iff.mp ⟨h0, h1, h2, h3⟩)
    exact {
      size := hbounds.1
      noSpace := fun ch hch => by simpa using hbounds.2 ch hch
      joined := hjoin
      noDots := ⟨hf, hs, ht⟩
      nonempty := ⟨hne0, hne1, hne2⟩ }
  · intro h
    obtain ⟨h0, h1, h2, h3⟩ := getElem?_three_iff.mpr
      (splitOn_eq_three_iff.mpr ⟨h.noDots.1, h.noDots.2.1, h.noDots.2.2, h.joined⟩)
    refine ⟨?_, first, ⟨h0, h.nonempty.1⟩, second, ⟨h1, h.nonempty.2.1⟩, third,
      ⟨h2, h.nonempty.2.2⟩, ?_, rfl, rfl, rfl⟩
    · rw [not_or, not_lt, Bool.not_eq_true, List.any_eq_false]
      exact ⟨h.size, fun ch hch => by simp [h.noSpace ch hch]⟩
    · rw [h3]
      exact Bool.false_ne_true

/-- **The protected header.** -/
theorem checkProtected_ok_iff {c : TokenCrates} {first : List Char} :
    checkProtected c first = .ok () ↔
      ∃ bytes fields, c.base64Decode first = some bytes ∧ bytes.length ≤ 4096 ∧
        c.fromSlice bytes = some (.object fields) ∧ HeaderAccepted fields := by
  simp only [checkProtected, rejectIf_bind, okOr_bind, rejectIf_ok_iff, asObject_eq_some, ne_eq,
    not_not, get_asStr]
  have htyp : ∀ fields : Object, ¬ ((fields.get "typ").bind Value.asStr).any (fun value =>
      !eqIgnoreAsciiCase value.toList "JWT".toList) = true ↔
      ∀ typ, fields.get "typ" = some (.string typ) →
        asciiLowercase typ.toList = "jwt".toList := by
    intro fields
    have hjwt : asciiLowercase "JWT".toList = "jwt".toList := by decide
    simp only [Option.any_eq_true_iff_get, eqIgnoreAsciiCase, hjwt]
    constructor
    · intro h typ htyp
      have hsome := get_asStr.mpr htyp
      by_contra hne
      refine h ⟨by rw [hsome]; rfl, ?_⟩
      simp only [hsome, Option.get_some]
      simpa using hne
    · rintro h ⟨hsome, hbad⟩
      obtain ⟨typ, htyp⟩ := Option.isSome_iff_exists.mp hsome
      simp only [htyp, Option.get_some] at hbad
      rw [h typ (get_asStr.mp htyp)] at hbad
      simp at hbad
  simp only [htyp, Bool.not_eq_true, Option.isSome_eq_false_iff, Option.isNone_iff_eq_none]
  constructor
  · rintro ⟨bytes, hbytes, hlen, json, hjson, fields, rfl, halg, htyp, hcrit⟩
    exact ⟨bytes, fields, hbytes, not_lt.mp hlen, hjson, halg, htyp, hcrit⟩
  · rintro ⟨bytes, fields, hbytes, hlen, hjson, h⟩
    exact ⟨bytes, hbytes, not_lt.mpr hlen, _, hjson, fields, rfl, h.alg, h.typ, h.crit⟩

/-- **The signature.** -/
theorem checkSignature_ok_iff {c : TokenCrates} {self : JwtVerifier}
    {first second third : List Char} :
    self.checkSignature c first second third = .ok () ↔
      ∃ tag, c.base64Decode third = some tag ∧ tag.length = 32 ∧
        tag = c.hmacSha256 self.secret (utf8 (first ++ '.' :: second)) := by
  simp only [JwtVerifier.checkSignature, rejectIf_bind, okOr_bind, rejectIf_ok_iff, ne_eq, not_not]

theorem notAfter_ok_iff {claim : Option Value} {limit : ℤ} :
    notAfter claim limit = .ok () ↔ ∀ v, claim = some v → IntegerClaim v (· ≤ limit) := by
  cases claim with
  | none => simp [notAfter]
  | some v =>
    simp only [notAfter, integerClaim_bind, rejectIf_ok_iff, not_lt, Option.some.injEq,
      forall_eq', IntegerClaim]

theorem notAfter_bind {β : Type} {claim : Option Value} {limit : ℤ} {f : Unit → Except Unit β}
    {b : β} : (notAfter claim limit >>= f) = .ok b ↔
      (∀ v, claim = some v → IntegerClaim v (· ≤ limit)) ∧ f () = .ok b := by
  rw [bind_ok_iff, ← notAfter_ok_iff]
  constructor
  · rintro ⟨⟨⟩, h, hf⟩
    exact ⟨h, hf⟩
  · rintro ⟨h, hf⟩
    exact ⟨(), h, hf⟩

/-- In the range of the clock nothing saturates. -/
theorem saturating_of_inClock {now leeway : ℤ} (hnow : InClock now)
    (hleeway : 0 ≤ leeway ∧ leeway ≤ 300) :
    saturatingSub now leeway = now - leeway ∧ saturatingAdd now leeway = now + leeway := by
  obtain ⟨hlow, hhigh⟩ := hnow
  have hmin : i64Min = -9223372036854775808 := by norm_num [i64Min]
  have hmax : i64Max = 9223372036854775807 := by norm_num [i64Max]
  constructor
  · rw [saturatingSub, hmin, hmax]
    omega
  · rw [saturatingAdd, hmin, hmax]
    omega

theorem subject_eq_some {fields : Object} {subject : String} :
    (((fields.get "sub").bind Value.asStr).map trimString).filter (fun value =>
      !value.isEmpty && decide (value.utf8ByteSize ≤ 256)) = some subject ↔
      ∃ sub, fields.get "sub" = some (.string sub) ∧ subject = trimString sub ∧
        1 ≤ subject.utf8ByteSize ∧ subject.utf8ByteSize ≤ 256 := by
  have hsize : subject.isEmpty = false ↔ 1 ≤ subject.utf8ByteSize := by
    rw [← Bool.not_eq_true, String.isEmpty_iff_utf8ByteSize_eq_zero]
    omega
  rw [Option.filter_eq_some_iff, Option.map_eq_some_iff, Bool.and_eq_true, Bool.not_eq_true',
    hsize, decide_eq_true_eq]
  simp only [get_asStr]
  constructor
  · rintro ⟨⟨sub, hsub, rfl⟩, hlen⟩
    exact ⟨sub, hsub, rfl, hlen⟩
  · rintro ⟨sub, hsub, rfl, hlen⟩
    exact ⟨⟨sub, hsub, rfl⟩, hlen⟩

/-- **The claims.**  The limit on their bytes is never reached: a token that
long has been rejected before. -/
theorem checkClaims_ok_iff {c : TokenCrates} {x : Platform} {self : JwtVerifier}
    {second : List Char} {now : ℤ} {ctx : AuthContext} (hc : c.Lawful)
    (hlen : (utf8 second).length ≤ maxClaimsBytes) (hnow : InClock now)
    (hleeway : 0 ≤ self.leewaySeconds ∧ self.leewaySeconds ≤ 300) :
    self.checkClaims c x second now = .ok ctx ↔
      ∃ bytes fields, c.base64Decode second = some bytes ∧
        c.fromSlice bytes = some (.object fields) ∧ ClaimsAccepted x self fields now ctx := by
  obtain ⟨hsub, hadd⟩ := saturating_of_inClock hnow hleeway
  simp only [JwtVerifier.checkClaims, rejectIf_bind, okOr_bind, integerClaim_bind, notAfter_bind,
    parseRoles_bind, pure_ok_iff, asObject_eq_some, get_asStr, ne_eq, not_not, Bool.not_eq_false,
    audienceMatches_iff, subject_eq_some, not_le, hsub, hadd, claimAtPath_asStr, claimAtPath_iff,
    Finset.not_disjoint_iff]
  constructor
  · rintro ⟨bytes, hbytes, -, json, hjson, fields, rfl, hiss, aud, haud, hfor, subject, hsubject,
      exp, hexp, e, he, hlt, hnbf, hiat, tenant, hat, tenantId, hid, role, hrole, roles, hroles,
      hallowed, rfl⟩
    exact ⟨bytes, fields, hbytes, hjson, {
      iss := hiss
      aud := ⟨aud, haud, hfor⟩
      sub := hsubject
      exp := ⟨exp, hexp, e, he, hlt⟩
      nbf := hnbf
      iat := hiat
      tenant := ⟨tenant, hat, hid⟩
      roles := ⟨role, hrole, hroles⟩
      allowed := hallowed
      admin := decide_eq_true_iff }⟩
  · rintro ⟨bytes, fields, hbytes, hjson, h⟩
    have hbound : ¬ bytes.length > maxClaimsBytes := by
      have := hc.decodeLength second bytes hbytes
      omega
    obtain ⟨aud, haud, hfor⟩ := h.aud
    obtain ⟨exp, hexp, e, he, hlt⟩ := h.exp
    obtain ⟨tenant, hat, hid⟩ := h.tenant
    obtain ⟨role, hrole, hroles⟩ := h.roles
    have hadmin : decide (∃ role ∈ ctx.roles, role ∈ self.adminRoles) = ctx.tenantAdmin := by
      rw [Bool.eq_iff_iff, decide_eq_true_iff]
      exact h.admin.symm
    refine ⟨bytes, hbytes, hbound, _, hjson, fields, rfl, h.iss, aud, haud, hfor, ctx.subject,
      h.sub, exp, hexp, e, he, hlt, h.nbf, h.iat, tenant, hat, ctx.tenantId, hid, role, hrole,
      ctx.roles, hroles, h.allowed, ?_⟩
    rw [hadmin]

/-! ### The verifier -/

/-- `AuthConfig::jwt` builds a verifier with a leeway of at most five minutes. -/
theorem jwt_verifier {secret : List UInt8} {issuer audience tenantClaim roleClaim : String}
    {allowedRoles adminRoles : Finset String} {leewaySeconds : ℤ} {cookieName : String}
    {config : AuthConfig}
    (h : AuthConfig.jwt secret issuer audience tenantClaim roleClaim allowedRoles adminRoles
      leewaySeconds cookieName = .ok config) :
    ∃ verifier, config.mode = .jwt verifier ∧
      0 ≤ verifier.leewaySeconds ∧ verifier.leewaySeconds ≤ 300 := by
  simp only [AuthConfig.jwt, bind_ok_iff, rejectIf_ok_iff, pure_ok_iff] at h
  obtain ⟨-, -, -, -, -, -, tenantPath, -, rolePath, -, -, -, -, -, -, hleeway, -, -, rfl⟩ := h
  exact ⟨_, rfl, not_not.mp hleeway⟩

theorem jwt_leeway {secret : List UInt8} {issuer audience tenantClaim roleClaim : String}
    {allowedRoles adminRoles : Finset String} {leewaySeconds : ℤ} {cookieName : String}
    {config : AuthConfig} {verifier : JwtVerifier}
    (h : AuthConfig.jwt secret issuer audience tenantClaim roleClaim allowedRoles adminRoles
      leewaySeconds cookieName = .ok config)
    (hmode : config.mode = .jwt verifier) :
    0 ≤ verifier.leewaySeconds ∧ verifier.leewaySeconds ≤ 300 := by
  obtain ⟨verifier', hmode', hleeway⟩ := jwt_verifier h
  obtain rfl := AuthMode.jwt.inj (hmode'.symm.trans hmode)
  exact hleeway

/-- **In production the headers are never trusted**: whatever the variables of
the process, the configuration has a verifier or there is none. -/
theorem fromEnv_production {env : String → Option String} {allowInsecureTenantHeader : Bool}
    {config : AuthConfig}
    (h : AuthConfig.fromEnv env true allowInsecureTenantHeader = .ok config) :
    ∃ verifier, config.mode = .jwt verifier ∧
      0 ≤ verifier.leewaySeconds ∧ verifier.leewaySeconds ≤ 300 := by
  rw [AuthConfig.fromEnv] at h
  split at h
  · simp only [bind_ok_iff] at h
    obtain ⟨issuer, -, audience, -, allowedRoles, -, adminRoles, -, leewaySeconds, -, h⟩ := h
    exact jwt_verifier h
  · cases h

/-- `verify` accepts the tokens of `Accepts`, with a leeway in the range that
`AuthConfig::jwt` asks for. -/
theorem verify_accepts_iff {c : TokenCrates} {x : Platform} {verifier : JwtVerifier}
    {token : String} {now : ℤ} {ctx : AuthContext} (hc : c.Lawful)
    (hleeway : 0 ≤ verifier.leewaySeconds ∧ verifier.leewaySeconds ≤ 300) (hnow : InClock now) :
    verifier.verify c x token now = .ok ctx ↔ Accepts c x verifier token now ctx := by
  have hclaims : ∀ {first second third : List Char}, Segments token first second third →
      (verifier.checkClaims c x second now = .ok ctx ↔
        ∃ bytes fields, c.base64Decode second = some bytes ∧
          c.fromSlice bytes = some (.object fields) ∧
          ClaimsAccepted x verifier fields now ctx) := by
    intro first second third hseg
    refine checkClaims_ok_iff hc ?_ hnow hleeway
    have hsize := hseg.size
    rw [← utf8_length, hseg.joined, utf8_append] at hsize
    have hcons : utf8 ('.' :: (second ++ '.' :: third))
        = String.utf8EncodeChar '.' ++ (utf8 second ++ utf8 ('.' :: third)) := by
      rw [← utf8_append]
      rfl
    rw [hcons] at hsize
    simp only [List.length_append] at hsize
    have hmax : maxClaimsBytes = 65536 := rfl
    omega
  rw [JwtVerifier.verify, bind_ok_iff]
  constructor
  · rintro ⟨⟨first, second, third⟩, hsplit, h⟩
    have hseg := splitToken_ok_iff.mp hsplit
    rw [bind_ok_iff] at h
    obtain ⟨⟨⟩, hprotected, h⟩ := h
    rw [bind_ok_iff] at h
    obtain ⟨⟨⟩, hsignature, h⟩ := h
    exact ⟨first, second, third, hseg, checkProtected_ok_iff.mp hprotected,
      checkSignature_ok_iff.mp hsignature, (hclaims hseg).mp h⟩
  · rintro ⟨first, second, third, hseg, hprotected, hsignature, h⟩
    refine ⟨(first, second, third), splitToken_ok_iff.mpr hseg, ?_⟩
    rw [bind_ok_iff]
    refine ⟨(), checkProtected_ok_iff.mpr hprotected, ?_⟩
    rw [bind_ok_iff]
    exact ⟨(), checkSignature_ok_iff.mpr hsignature, (hclaims hseg).mpr h⟩

/-- **`verify` accepts exactly the intended tokens**, and gives exactly the
context they stand for. -/
theorem verify_ok_iff {c : TokenCrates} (hc : c.Lawful) (x : Platform)
    {secret : List UInt8} {issuer audience tenantClaim roleClaim : String}
    {allowedRoles adminRoles : Finset String} {leewaySeconds : ℤ} {cookieName : String}
    {config : AuthConfig} {verifier : JwtVerifier}
    (hjwt : AuthConfig.jwt secret issuer audience tenantClaim roleClaim allowedRoles adminRoles
      leewaySeconds cookieName = .ok config)
    (hmode : config.mode = .jwt verifier) (token : String) {now : ℤ} (hnow : InClock now)
    (ctx : AuthContext) :
    verifier.verify c x token now = .ok ctx ↔ Accepts c x verifier token now ctx :=
  verify_accepts_iff hc (jwt_leeway hjwt hmode) hnow

/-! ### The token of the tests -/

namespace Token

def secret : List UInt8 := utf8 "0123456789abcdef0123456789abcdef".toList

def headerJson : List UInt8 := utf8 "\x7b\"alg\":\"HS256\",\"typ\":\"JWT\"\x7d".toList

def claimsJson : List UInt8 := utf8 ([
  "\x7b\"app_metadata\":", "\x7b\"tenant_id\":", "\"00000000-0000-0000-", "0000-000000000001\"\x7d,",
  "\"aud\":[\"other\",", "\"eal-api\"],", "\"exp\":2000000000,", "\"iat\":1900000000,",
  "\"iss\":\"https://auth", ".example.test\",", "\"roles\":[\"admin\"],",
  "\"sub\":\"user-123\"\x7d"].flatMap String.toList)

def headerFields : Object := [("alg", .string "HS256"), ("typ", .string "JWT")]

def claimsFields : Object := [
  ("app_metadata", .object [("tenant_id", .string "00000000-0000-0000-0000-000000000001")]),
  ("aud", .array [.string "other", .string "eal-api"]),
  ("exp", .number (.posInt 2000000000)),
  ("iat", .number (.posInt 1900000000)),
  ("iss", .string "https://auth.example.test"),
  ("roles", .array [.string "admin"]),
  ("sub", .string "user-123")]

def tag : List UInt8 :=
  Scenario.digestBytes 0x11b20cf4d423eb812e6beb5eea8ad32b57e788ff8ef1358dda19b62afcdb1f1e

def first : List Char := "eyJhbGciOiJIUzI1NiIsInR5cCI6IkpXVCJ9".toList

def second : List Char := [
  "eyJhcHBfbWV0YWRhdGEiOnsi", "dGVuYW50X2lkIjoiMDAwMDAw", "MDAtMDAwMC0wMDAwLTAwMDAt",
  "MDAwMDAwMDAwMDAxIn0sImF1", "ZCI6WyJvdGhlciIsImVhbC1h", "cGkiXSwiZXhwIjoyMDAwMDAw",
  "MDAwLCJpYXQiOjE5MDAwMDAw", "MDAsImlzcyI6Imh0dHBzOi8v", "YXV0aC5leGFtcGxlLnRlc3Qi",
  "LCJyb2xlcyI6WyJhZG1pbiJd", "LCJzdWIiOiJ1c2VyLTEyMyJ9"].flatMap String.toList

def third : List Char := "EbIM9NQj64Eua-te6orTK1fniP-O8TWN2hm2KvzbHx4".toList

def text : String := String.ofList (first ++ '.' :: (second ++ '.' :: third))

def decoded : List (List Char × List UInt8) :=
  [(first, headerJson), (second, claimsJson), (third, tag)]

/-- The crates on the token of the tests; any other text is rejected, and any
other message has the zero tag. -/
def crates : TokenCrates where
  base64Decode s := decoded.lookup s
  fromSlice bytes := [(headerJson, .object headerFields), (claimsJson, .object claimsFields)].lookup
    bytes
  hmacSha256 key message :=
    if key = secret ∧ message = utf8 (first ++ '.' :: second) then tag else List.replicate 32 0

theorem crates_lawful : crates.Lawful where
  decodeLength s bytes h := by
    obtain ⟨before, after, htable, -⟩ := List.lookup_eq_some_iff.mp h
    have hmem : (s, bytes) ∈ decoded := by
      rw [htable]
      exact List.mem_append_right _ List.mem_cons_self
    have hall : ∀ e ∈ decoded, e.2.length ≤ (utf8 e.1).length := by decide +kernel
    exact hall _ hmem
  hmacLength key message := by
    simp only [crates]
    split
    · decide
    · exact List.length_replicate

def verifier : JwtVerifier where
  secret := secret
  issuer := "https://auth.example.test"
  audience := "eal-api"
  tenantClaimPath := ["app_metadata", "tenant_id"]
  roleClaimPath := ["roles"]
  allowedRoles := {"authenticated", "member", "admin", "owner"}
  adminRoles := {"admin", "owner"}
  leewaySeconds := 0

def config : AuthConfig where
  mode := .jwt verifier
  cookieName := "eal_access_token"

def context : AuthContext where
  tenantId := 1
  subject := "user-123"
  roles := {"admin"}
  tenantAdmin := true

theorem jwt_config : AuthConfig.jwt secret "https://auth.example.test" "eal-api"
    "app_metadata.tenant_id" "roles" {"authenticated", "member", "admin", "owner"}
    {"admin", "owner"} 0 "eal_access_token" = .ok config := by
  decide

theorem decode_first : crates.base64Decode first = some headerJson := by
  simp only [crates, decoded, List.lookup_cons_self]

theorem decode_second : crates.base64Decode second = some claimsJson := by
  have hne : (second == first) = false := by decide
  simp only [crates, decoded, List.lookup_cons, hne, beq_self_eq_true]

theorem decode_third : crates.base64Decode third = some tag := by
  have hfirst : (third == first) = false := by decide
  have hsecond : (third == second) = false := by decide
  simp only [crates, decoded, List.lookup_cons, hfirst, hsecond, beq_self_eq_true]

theorem hmac_text : crates.hmacSha256 secret (utf8 (first ++ '.' :: second)) = tag := by
  simp only [crates, and_self, if_true]

theorem fromSlice_header : crates.fromSlice headerJson = some (.object headerFields) := by
  simp only [crates, List.lookup_cons_self]

theorem fromSlice_claims : crates.fromSlice claimsJson = some (.object claimsFields) := by
  have hne : (claimsJson == headerJson) = false := by decide
  simp only [crates, List.lookup_cons, hne, beq_self_eq_true]

theorem noSpace_ofList {l : List Char} (h : l.any isAsciiWhitespace = false) :
    ∀ ch ∈ (String.ofList l).toList, isAsciiWhitespace ch = false := by
  rw [String.toList_ofList]
  intro ch hch
  exact Bool.eq_false_of_not_eq_true (List.any_eq_false.mp h ch hch)

theorem second_noSpace : ∀ ch ∈ second, isAsciiWhitespace ch = false := by
  refine List.forall_mem_flatMap.mpr ?_
  repeat refine List.forall_mem_cons.mpr ⟨noSpace_ofList (by decide), ?_⟩
  exact List.forall_mem_nil _

theorem text_length : text.toList.length = 345 := by
  have hfirst : first.length = 36 := congrArg List.length String.toList_ofList
  have hsecond : second.length = 264 := by
    refine List.length_flatMap.trans ?_
    simp only [-String.reduceToList, List.map_cons, List.map_nil]
    repeat rw [String.toList_ofList]
    rfl
  have hthird : third.length = 43 := congrArg List.length String.toList_ofList
  rw [text, String.toList_ofList, List.length_append, List.length_cons, List.length_append,
    List.length_cons, hfirst, hsecond, hthird]

theorem text_segments : Segments text first second third where
  size := by
    have hsize := utf8_length_le text.toList
    rw [text_length] at hsize
    rw [← utf8_length]
    omega
  noSpace := by
    rw [text, String.toList_ofList, List.forall_mem_append, List.forall_mem_cons,
      List.forall_mem_append, List.forall_mem_cons]
    exact ⟨noSpace_ofList (by decide), by decide, second_noSpace, by decide,
      noSpace_ofList (by decide)⟩
  joined := String.toList_ofList
  noDots := by decide
  nonempty := by decide

theorem header_accepted : HeaderAccepted headerFields where
  alg := rfl
  typ typ h := by
    obtain rfl : "JWT" = typ := Value.string.inj (Option.some.inj h)
    decide
  crit := rfl

theorem admin_valid : ValidRole (roleText "admin".toList) :=
  ⟨by decide, List.all_eq_true.mp (by decide)⟩

theorem claims_accepted :
    ClaimsAccepted Platform.sample verifier claimsFields 1950000000 context where
  iss := rfl
  aud := ⟨_, rfl, Or.inr ⟨_, rfl, List.mem_cons_of_mem _ List.mem_cons_self⟩⟩
  sub := ⟨"user-123", rfl, by decide, by decide, by decide⟩
  exp := ⟨_, rfl, 2000000000, rfl, by decide⟩
  nbf nbf h := by cases h
  iat iat h := by
    obtain rfl := Option.some.inj h
    exact ⟨1900000000, rfl, by decide⟩
  tenant := ⟨_, At.field rfl (At.field rfl (At.here _)), by decide⟩
  roles := ⟨_, At.field rfl (At.here _), _, RoleTexts.array ["admin"],
    List.forall_mem_singleton.mpr admin_valid, by decide, by decide⟩
  allowed := by decide
  admin := by decide

end Token

/-- The token of the tests is one of the intended tokens, and `verify` gives the
context the test expects. -/
theorem verify_ok_iff_token :
    Accepts Token.crates Platform.sample Token.verifier Token.text 1950000000 Token.context ∧
    Token.verifier.verify Token.crates Platform.sample Token.text 1950000000
      = .ok Token.context := by
  have hclock : InClock 1950000000 := by norm_num [InClock]
  have haccepts :
      Accepts Token.crates Platform.sample Token.verifier Token.text 1950000000 Token.context :=
    ⟨Token.first, Token.second, Token.third, Token.text_segments,
      ⟨_, _, Token.decode_first, by decide, Token.fromSlice_header, Token.header_accepted⟩,
      ⟨_, Token.decode_third, by decide, Token.hmac_text.symm⟩,
      ⟨_, _, Token.decode_second, Token.fromSlice_claims, Token.claims_accepted⟩⟩
  exact ⟨haccepts, (verify_ok_iff Token.crates_lawful Platform.sample Token.jwt_config rfl
    Token.text hclock Token.context).mpr haccepts⟩

end Auth

end EmbeddedAlerts
