import EmbeddedAlerts.Jwt

/-!
# Which credential a request carries

`src/auth_runtime.rs`: `extract_token` takes the token from the `Authorization`
header and from the cookies, `authenticate_at` verifies it, and
`insecure_context` is what the development mode reads instead.  A header value
is any value that may or may not be readable text (`HeaderValue::to_str`).

`Unanimous` says which token a request carries: every place that names one names
the same.

* `cookieToken_ok_iff`: the loop over cookies finds a value exactly when all the
  cookies of the name agree on it.
* `extractToken_unanimous`: **`extract_token` answers with the unanimous token**,
  and neither the order nor the number of cookies matters.
* `authenticateAt_ok_iff`: a request is authenticated exactly when its unanimous
  token is an intended one.
-/

namespace EmbeddedAlerts

namespace Auth

open Text
open Alerts (trimString)

/-- `HeaderMap`: names, in lower case, with their values. -/
abbrev HeaderMap (V : Type) := List (String × V)

/-- `HeaderMap::get_all`. -/
def HeaderMap.getAll {V : Type} (headers : HeaderMap V) (name : String) : List V :=
  headers.filterMap fun entry => if entry.1 = name then some entry.2 else none

/-- `HeaderMap::get`. -/
def HeaderMap.get {V : Type} (headers : HeaderMap V) (name : String) : Option V :=
  (headers.getAll name).head?

section Headers

variable {V : Type} (toStr : V → Option String)

/-! ### Extraction -/

/-- The closure of `extract_token` over the `Authorization` value. -/
def bearerToken (value : V) : Except HttpError (List Char) := do
  let value ← okOr (toStr value) (.unauthorized "invalid Authorization header")
  let parts := splitAsciiWhitespace value.toList
  let scheme := parts[0]?.getD []
  let token := parts[1]?.getD []
  rejectIf (eqIgnoreAsciiCase scheme "Bearer".toList = false ∨ token = [] ∨ parts[2]?.isSome = true)
    (.unauthorized "Authorization must use a single Bearer token")
  return token

/-- One turn of the inner loop of `cookie_token`. -/
def cookiePair (cookieName : String) (found : Option (List Char)) (pair : List Char) :
    Except HttpError (Option (List Char)) :=
  match splitOnce '=' (trim pair) with
  | none => .ok found
  | some (name, value) =>
    if name ≠ cookieName.toList then .ok found
    else if value.isEmpty then .error (.unauthorized "JWT cookie must not be empty")
    else if found.any (fun existing => existing != value) then
      .error (.unauthorized "conflicting JWT cookies were supplied")
    else .ok (some value)

/-- One turn of the outer loop of `cookie_token`. -/
def cookieHeader (cookieName : String) (found : Option (List Char)) (header : V) :
    Except HttpError (Option (List Char)) := do
  let header ← okOr (toStr header) (.unauthorized "invalid Cookie header")
  (header.toList.splitOn ';').foldlM (cookiePair cookieName) found

/-- `cookie_token`. -/
def cookieToken (headers : HeaderMap V) (cookieName : String) :
    Except HttpError (Option (List Char)) :=
  (headers.getAll "cookie").foldlM (cookieHeader toStr cookieName) none

/-- The last step of `extract_token`. -/
def chooseToken : Option (List Char) → Option (List Char) → Except HttpError (List Char)
  | some authorization, some cookie =>
    if authorization ≠ cookie then
      .error (.unauthorized "conflicting JWT credentials were supplied")
    else .ok authorization
  | some token, none => .ok token
  | none, some token => .ok token
  | none, none => .error (.unauthorized "missing bearer token")

/-- `extract_token`. -/
def extractToken (headers : HeaderMap V) (cookieName : String) : Except HttpError (List Char) := do
  let authorizationValues := headers.getAll "authorization"
  rejectIf (authorizationValues.length > 1)
    (.unauthorized "multiple Authorization headers are not allowed")
  let authorization ← authorizationValues.head?.mapM (bearerToken toStr)
  let cookie ← cookieToken toStr headers cookieName
  chooseToken authorization cookie

/-! ### Authentication -/

/-- `tenant_id_from_headers`. -/
def tenantIdFromHeaders (x : Platform) (headers : HeaderMap V) : Except HttpError Uuid := do
  let value ← okOr (headers.get "x-eal-tenant-id")
    (.unauthorized "missing X-Eal-Tenant-Id header")
  let value ← okOr (toStr value) (.unauthorized "invalid X-Eal-Tenant-Id header")
  okOr (x.uuidParseStr value) (.unauthorized "X-Eal-Tenant-Id must be a UUID")

/-- `insecure_context`. -/
def insecureContext (x : Platform) (headers : HeaderMap V) : Except HttpError AuthContext := do
  let tenantId ← tenantIdFromHeaders toStr x headers
  let subject ← okOr (headers.get "x-eal-subject-id")
    (.unauthorized "missing X-Eal-Subject-Id header")
  let subject ← okOr (toStr subject) (.unauthorized "invalid X-Eal-Subject-Id header")
  let subject := trimString subject
  rejectIf (subject.isEmpty ∨ subject.utf8ByteSize > 256)
    (.unauthorized "X-Eal-Subject-Id must contain between 1 and 256 bytes")
  let roles ← okOr (headers.get "x-eal-roles") (.unauthorized "missing X-Eal-Roles header")
  let roles ← okOr (toStr roles) (.unauthorized "invalid X-Eal-Roles header")
  let roles ← (parseRoleSet roles).mapError .unauthorized
  rejectIf (roles = ∅) (.unauthorized "X-Eal-Roles must contain at least one role")
  let tenantAdmin := decide ("admin" ∈ roles) || decide ("owner" ∈ roles)
  return { tenantId, subject, roles, tenantAdmin }

/-- `authenticate_at`. -/
def AuthConfig.authenticateAt (c : TokenCrates) (x : Platform) (self : AuthConfig)
    (headers : HeaderMap V) (now : ℤ) : Except HttpError AuthContext :=
  match self.mode with
  | .jwt verifier => do
    let token ← extractToken toStr headers self.cookieName
    (verifier.verify c x (String.ofList token) now).mapError fun _ =>
      .unauthorized "invalid bearer token"
  | .insecureHeaders => insecureContext toStr x headers

/-! ### Unanimity -/

/-- The pairs of a cookie header: split at the semicolons, and trimmed. -/
def cookiePairsOf (text : String) : List (List Char) := (text.toList.splitOn ';').map trim

/-- The pairs of all readable cookie headers. -/
def cookiePairs (headers : HeaderMap V) : List (List Char) :=
  ((headers.getAll "cookie").filterMap toStr).flatMap cookiePairsOf

/-- The value of a pair with the name; the first `=` ends the name. -/
def cookieValue (cookieName : String) (pair : List Char) : Option (List Char) :=
  match splitOnce '=' pair with
  | none => none
  | some (name, value) => if name = cookieName.toList then some value else none

/-- A header value that is text and names a token, in exactly two words. -/
def Bears (value : V) (t : List Char) : Prop :=
  ∃ text scheme, toStr value = some text ∧ splitAsciiWhitespace text.toList = [scheme, t] ∧
    asciiLowercase scheme = "bearer".toList

/-- **The token all credentials of a request agree on.** -/
structure Unanimous (headers : HeaderMap V) (cookieName : String) (t : List Char) : Prop where
  single : (headers.getAll "authorization").length ≤ 1
  readable : ∀ value ∈ headers.getAll "cookie", (toStr value).isSome = true
  authorization : ∀ value ∈ headers.getAll "authorization", Bears toStr value t
  cookies : ∀ pair ∈ cookiePairs toStr headers, ∀ value,
    cookieValue cookieName pair = some value → value = t ∧ t ≠ []
  present : headers.getAll "authorization" ≠ [] ∨
    ∃ pair ∈ cookiePairs toStr headers, (cookieValue cookieName pair).isSome = true

/-- Two header maps with the same `Authorization` values and the same cookies, in
whatever order, number and headers. -/
structure SameCookies (headers headers' : HeaderMap V) : Prop where
  authorization : headers.getAll "authorization" = headers'.getAll "authorization"
  readable : (∀ value ∈ headers.getAll "cookie", (toStr value).isSome = true) ↔
    ∀ value ∈ headers'.getAll "cookie", (toStr value).isSome = true
  pairs : ∀ pair, pair ∈ cookiePairs toStr headers ↔ pair ∈ cookiePairs toStr headers'

end Headers

/-! ### The loop over cookies -/

section Cookies

variable {V : Type} {toStr : V → Option String} {headers headers' : HeaderMap V}
  {cookieName : String}

theorem cookiePair_agree (cookieName : String) :
    AgreeStep (fun pair => cookieValue cookieName (trim pair)) (· ≠ []) (cookiePair cookieName) := by
  intro found pair out
  simp only [cookiePair, cookieValue]
  rcases splitOnce '=' (trim pair) with _ | ⟨name, value⟩
  · simp [eq_comm]
  · by_cases hname : name = cookieName.toList
    · by_cases hempty : value = []
      · simp [hname, hempty]
      · cases found with
        | none => simp [hname, hempty, @eq_comm _ out]
        | some existing =>
          by_cases hsame : existing = value
          · simp [hname, hempty, hsame, @eq_comm _ out]
          · simp [hname, hempty, hsame]
    · simp [hname, eq_comm]

theorem mem_cookiePairs {pair : List Char} :
    pair ∈ cookiePairs toStr headers ↔
      ∃ value ∈ headers.getAll "cookie", ∃ text, toStr value = some text ∧
        pair ∈ cookiePairsOf text := by
  simp only [cookiePairs, List.mem_flatMap, List.mem_filterMap]
  constructor
  · rintro ⟨text, ⟨value, hvalue, htext⟩, hpair⟩
    exact ⟨value, hvalue, text, htext, hpair⟩
  · rintro ⟨value, hvalue, text, htext, hpair⟩
    exact ⟨text, ⟨value, hvalue, htext⟩, hpair⟩

/-- The nested loop is one loop over all pieces, if every header is readable. -/
theorem foldlM_cookieHeader_ok_iff : ∀ {values : List V} {found out : Option (List Char)},
    values.foldlM (cookieHeader toStr cookieName) found = .ok out ↔
      (∀ value ∈ values, (toStr value).isSome = true) ∧
      ((values.filterMap toStr).flatMap fun text => text.toList.splitOn ';').foldlM
        (cookiePair cookieName) found = .ok out := by
  intro values
  induction values with
  | nil =>
    intro found out
    exact ⟨fun h => ⟨fun v hv => absurd hv List.not_mem_nil, h⟩, fun h => h.2⟩
  | cons value values ih =>
    intro found out
    rw [List.foldlM_cons, bind_ok_iff, List.forall_mem_cons]
    simp only [ih, cookieHeader, okOr_bind]
    constructor
    · rintro ⟨mid, ⟨text, htext, hmid⟩, hreadable, hrest⟩
      refine ⟨⟨by rw [htext]; rfl, hreadable⟩, ?_⟩
      rw [List.filterMap_cons_some htext, List.flatMap_cons, List.foldlM_append, bind_ok_iff]
      exact ⟨mid, hmid, hrest⟩
    · rintro ⟨⟨hsome, hreadable⟩, h⟩
      obtain ⟨text, htext⟩ := Option.isSome_iff_exists.mp hsome
      rw [List.filterMap_cons_some htext, List.flatMap_cons, List.foldlM_append, bind_ok_iff] at h
      obtain ⟨mid, hmid, hrest⟩ := h
      exact ⟨mid, ⟨text, htext, hmid⟩, hreadable, hrest⟩

/-- **`cookie_token` finds the value all cookies of the name agree on.** -/
theorem cookieToken_ok_iff {found : Option (List Char)} :
    cookieToken toStr headers cookieName = .ok found ↔
      (∀ value ∈ headers.getAll "cookie", (toStr value).isSome = true) ∧
      (∀ pair ∈ cookiePairs toStr headers, ∀ value, cookieValue cookieName pair = some value →
        value ≠ [] ∧ found = some value) ∧
      (∀ value, found = some value →
        ∃ pair ∈ cookiePairs toStr headers, cookieValue cookieName pair = some value) := by
  have hpairs : cookiePairs toStr headers = (((headers.getAll "cookie").filterMap toStr).flatMap
      fun text => text.toList.splitOn ';').map trim := List.map_flatMap.symm
  rw [cookieToken, foldlM_cookieHeader_ok_iff, foldlM_agree_iff (cookiePair_agree cookieName),
    hpairs]
  simp only [reduceCtorEq, false_or, false_implies, implies_true, true_and, List.mem_map,
    exists_exists_and_eq_and, forall_exists_index, and_imp, forall_apply_eq_imp_iff₂]

end Cookies

/-! ### The token -/

section Token

variable {V : Type} {toStr : V → Option String} {headers headers' : HeaderMap V}
  {cookieName : String} {t : List Char}

theorem bearerToken_ok_iff {value : V} :
    bearerToken toStr value = .ok t ↔ Bears toStr value t := by
  have hbearer : asciiLowercase "Bearer".toList = "bearer".toList := by decide
  simp only [bearerToken, okOr_bind, rejectIf_bind, pure_ok_iff, Bears, not_or, Bool.not_eq_false,
    Bool.not_eq_true, eqIgnoreAsciiCase, beq_iff_eq, hbearer]
  constructor
  · rintro ⟨text, htext, ⟨hscheme, htoken, hlast⟩, rfl⟩
    rw [Option.isSome_eq_false_iff, Option.isNone_iff_eq_none] at hlast
    -- two words: fewer leave no token, more are rejected
    rcases hparts : splitAsciiWhitespace text.toList with
      _ | ⟨scheme, _ | ⟨token, _ | ⟨third, rest⟩⟩⟩
    · simp [hparts] at htoken
    · simp [hparts] at htoken
    · rw [hparts] at hscheme
      exact ⟨text, scheme, htext, by rw [hparts]; rfl, hscheme⟩
    · simp [hparts] at hlast
  · rintro ⟨text, scheme, htext, hparts, hscheme⟩
    have htoken : t ≠ [] := ne_nil_of_mem_splitAsciiWhitespace (s := text.toList) (by simp [hparts])
    refine ⟨text, htext, ⟨?_, ?_, ?_⟩, ?_⟩
    · rw [hparts]
      exact hscheme
    · rw [hparts]
      exact htoken
    · rw [hparts]
      rfl
    · rw [hparts]
      rfl

theorem chooseToken_ok_iff {authorization cookie : Option (List Char)} :
    chooseToken authorization cookie = .ok t ↔
      (∀ a, authorization = some a → a = t) ∧ (∀ d, cookie = some d → d = t) ∧
      (authorization.isSome = true ∨ cookie.isSome = true) := by
  cases authorization with
  | none =>
    cases cookie with
    | none => simp [chooseToken]
    | some d => simp [chooseToken]
  | some a =>
    cases cookie with
    | none => simp [chooseToken]
    | some d =>
      by_cases h : a = d
      · simp [chooseToken, h]
      · simp only [chooseToken, ne_eq, h, not_false_eq_true, if_true, reduceCtorEq,
          Option.some.injEq, forall_eq', Option.isSome_some, or_true, and_true, false_iff]
        rintro ⟨rfl, rfl⟩
        exact h rfl

theorem cookieToken_agrees_iff {p : Prop} :
    (∃ found, cookieToken toStr headers cookieName = .ok found ∧
      (∀ d, found = some d → d = t) ∧ (p ∨ found.isSome = true)) ↔
    (∀ value ∈ headers.getAll "cookie", (toStr value).isSome = true) ∧
    (∀ pair ∈ cookiePairs toStr headers, ∀ value, cookieValue cookieName pair = some value →
      value = t ∧ t ≠ []) ∧
    (p ∨ ∃ pair ∈ cookiePairs toStr headers, (cookieValue cookieName pair).isSome = true) := by
  simp only [cookieToken_ok_iff]
  constructor
  · rintro ⟨found, ⟨hreadable, hall, hfrom⟩, hsame, hpresent⟩
    refine ⟨hreadable, fun pair hpair value hvalue => ?_, ?_⟩
    · obtain ⟨hne, hfound⟩ := hall pair hpair value hvalue
      obtain rfl := hsame value hfound
      exact ⟨rfl, hne⟩
    · rcases hpresent with hp | hsome
      · exact Or.inl hp
      · obtain ⟨d, hd⟩ := Option.isSome_iff_exists.mp hsome
        obtain ⟨pair, hpair, hvalue⟩ := hfrom d hd
        exact Or.inr ⟨pair, hpair, by rw [hvalue]; rfl⟩
  · rintro ⟨hreadable, hall, hpresent⟩
    by_cases hany : ∃ pair ∈ cookiePairs toStr headers,
        (cookieValue cookieName pair).isSome = true
    · obtain ⟨pair, hpair, hsome⟩ := hany
      obtain ⟨value, hvalue⟩ := Option.isSome_iff_exists.mp hsome
      obtain ⟨rfl, hne⟩ := hall pair hpair value hvalue
      refine ⟨some value, ⟨hreadable, fun pair' hpair' value' hvalue' => ?_, fun w hw => ?_⟩,
        fun d hd => (Option.some.inj hd).symm, Or.inr rfl⟩
      · obtain ⟨rfl, -⟩ := hall pair' hpair' value' hvalue'
        exact ⟨hne, rfl⟩
      · exact ⟨pair, hpair, by rw [hvalue, hw]⟩
    · refine ⟨none, ⟨hreadable, fun pair hpair value hvalue => ?_, fun w hw => nomatch hw⟩,
        (fun d hd => nomatch hd), ?_⟩
      · exact absurd ⟨pair, hpair, by rw [hvalue]; rfl⟩ hany
      · rcases hpresent with hp | hsome
        · exact Or.inl hp
        · exact absurd hsome hany

theorem extractToken_ok_iff :
    extractToken toStr headers cookieName = .ok t ↔ Unanimous toStr headers cookieName t := by
  have hrest : ∀ authorization : Option (List Char),
      ((do let cookie ← cookieToken toStr headers cookieName
           chooseToken authorization cookie) = .ok t ↔
        (∀ a, authorization = some a → a = t) ∧
        (∀ value ∈ headers.getAll "cookie", (toStr value).isSome = true) ∧
        (∀ pair ∈ cookiePairs toStr headers, ∀ value,
          cookieValue cookieName pair = some value → value = t ∧ t ≠ []) ∧
        (authorization.isSome = true ∨
          ∃ pair ∈ cookiePairs toStr headers, (cookieValue cookieName pair).isSome = true)) := by
    intro authorization
    rw [← cookieToken_agrees_iff, bind_ok_iff]
    simp only [chooseToken_ok_iff]
    constructor
    · rintro ⟨found, hfound, ha, hd, hpresent⟩
      exact ⟨ha, found, hfound, hd, hpresent⟩
    · rintro ⟨ha, found, hfound, hd, hpresent⟩
      exact ⟨found, hfound, ha, hd, hpresent⟩
  rw [extractToken, rejectIf_bind]
  match hvalues : headers.getAll "authorization" with
  | [] =>
    simp only [List.length_nil, List.head?_nil, Option.mapM_none, pure_bind]
    rw [hrest]
    constructor
    · rintro ⟨-, -, hreadable, hcookies, hpresent⟩
      exact {
        single := by simp [hvalues]
        readable := hreadable
        authorization := by simp [hvalues]
        cookies := hcookies
        present := by simpa [hvalues] using hpresent }
    · intro h
      have hpresent := h.present
      rw [hvalues] at hpresent
      exact ⟨by omega, (fun a ha => nomatch ha), h.readable, h.cookies,
        Or.inr (hpresent.resolve_left (not_not.mpr rfl))⟩
  | [value] =>
    simp only [List.length_singleton, List.head?_cons, Option.mapM_some]
    rw [bind_ok_iff]
    simp only [map_ok_iff, bearerToken_ok_iff]
    constructor
    · rintro ⟨-, _, ⟨a, hbears, rfl⟩, h⟩
      obtain ⟨ha, hreadable, hcookies, -⟩ := (hrest _).mp h
      obtain rfl := ha a rfl
      exact {
        single := by simp [hvalues]
        readable := hreadable
        authorization := by simpa [hvalues] using hbears
        cookies := hcookies
        present := by simp [hvalues] }
    · intro h
      have hbears := h.authorization value (by simp [hvalues])
      exact ⟨by omega, some t, ⟨t, hbears, rfl⟩, (hrest _).mpr
        ⟨fun a ha => (Option.some.inj ha).symm, h.readable, h.cookies, Or.inl rfl⟩⟩
  | _ :: _ :: values =>
    simp only [List.length_cons]
    constructor
    · rintro ⟨h, -⟩
      omega
    · intro h
      have := h.single
      rw [hvalues] at this
      simp at this

theorem Unanimous.of_sameCookies (h : Unanimous toStr headers cookieName t)
    (hsame : SameCookies toStr headers headers') : Unanimous toStr headers' cookieName t where
  single := hsame.authorization ▸ h.single
  readable := hsame.readable.mp h.readable
  authorization := hsame.authorization ▸ h.authorization
  cookies := fun pair hpair => h.cookies pair ((hsame.pairs pair).mpr hpair)
  present := by
    rcases h.present with hauth | ⟨pair, hpair, hvalue⟩
    · exact Or.inl (hsame.authorization ▸ hauth)
    · exact Or.inr ⟨pair, (hsame.pairs pair).mp hpair, hvalue⟩

theorem SameCookies.symm (h : SameCookies toStr headers headers') :
    SameCookies toStr headers' headers where
  authorization := h.authorization.symm
  readable := h.readable.symm
  pairs := fun pair => (h.pairs pair).symm

/-- Cookie headers may be permuted and repeated. -/
theorem SameCookies.of_headers
    (hauth : headers.getAll "authorization" = headers'.getAll "authorization")
    (hmem : ∀ value, value ∈ headers.getAll "cookie" ↔ value ∈ headers'.getAll "cookie") :
    SameCookies toStr headers headers' where
  authorization := hauth
  readable := by simp only [hmem]
  pairs := fun pair => by simp only [mem_cookiePairs, hmem]

/-- The pairs of each cookie header may be permuted and repeated. -/
theorem SameCookies.of_pairs
    (hauth : headers.getAll "authorization" = headers'.getAll "authorization")
    (hpairs : List.Forall₂ (fun value value' => ∃ text text', toStr value = some text ∧
      toStr value' = some text' ∧ ∀ pair, pair ∈ cookiePairsOf text ↔ pair ∈ cookiePairsOf text')
      (headers.getAll "cookie") (headers'.getAll "cookie")) :
    SameCookies toStr headers headers' := by
  have hall : ∀ {values values' : List V}, List.Forall₂ (fun value value' => ∃ text text',
      toStr value = some text ∧ toStr value' = some text' ∧
      ∀ pair, pair ∈ cookiePairsOf text ↔ pair ∈ cookiePairsOf text') values values' →
      (∀ value ∈ values, (toStr value).isSome = true) ∧
      (∀ value ∈ values', (toStr value).isSome = true) ∧
      ∀ pair, pair ∈ (values.filterMap toStr).flatMap cookiePairsOf ↔
        pair ∈ (values'.filterMap toStr).flatMap cookiePairsOf := by
    intro values values' h
    induction h with
    | nil => simp
    | cons hhead _ ih =>
      obtain ⟨text, text', htext, htext', hmem⟩ := hhead
      obtain ⟨hleft, hright, hrest⟩ := ih
      simp only [List.forall_mem_cons, List.filterMap_cons_some htext,
        List.filterMap_cons_some htext', List.flatMap_cons, List.mem_append, htext, htext',
        Option.isSome_some, true_and]
      refine ⟨hleft, hright, fun pair => ?_⟩
      rw [hmem pair, hrest pair]
  obtain ⟨hleft, hright, hmem⟩ := hall hpairs
  exact { authorization := hauth, readable := ⟨fun _ => hright, fun _ => hleft⟩, pairs := hmem }

end Token

/-- **Credential extraction is unanimous.**  It answers with `t` exactly when all
the credentials of the request are `t`; the order and the number of the cookies
do not matter; and no credential of the request is another one than the answer. -/
theorem extractToken_unanimous {V : Type} (toStr : V → Option String) (headers : HeaderMap V)
    (cookieName : String) :
    (∀ t, extractToken toStr headers cookieName = .ok t ↔ Unanimous toStr headers cookieName t) ∧
    (∀ headers', SameCookies toStr headers headers' → ∀ t,
      extractToken toStr headers cookieName = .ok t ↔
        extractToken toStr headers' cookieName = .ok t) ∧
    (∀ t, extractToken toStr headers cookieName = .ok t → ∀ s,
      ((∃ value ∈ headers.getAll "authorization", Bears toStr value s) ∨
        ∃ pair ∈ cookiePairs toStr headers, cookieValue cookieName pair = some s) → s = t) := by
  refine ⟨fun t => extractToken_ok_iff, fun headers' hsame t => ?_, fun t ht s hs => ?_⟩
  · rw [extractToken_ok_iff, extractToken_ok_iff]
    exact ⟨fun h => h.of_sameCookies hsame, fun h => h.of_sameCookies hsame.symm⟩
  · have h := extractToken_ok_iff.mp ht
    rcases hs with ⟨value, hvalue, text, scheme, htext, hparts, -⟩ | ⟨pair, hpair, hvalue⟩
    · obtain ⟨text', scheme', htext', hparts', -⟩ := h.authorization value hvalue
      obtain rfl := Option.some.inj (htext.symm.trans htext')
      have hwords := hparts.symm.trans hparts'
      simp only [List.cons.injEq, and_true] at hwords
      exact hwords.2
    · exact (h.cookies pair hpair s hvalue).1

namespace Credentials

def headers : HeaderMap String :=
  [("authorization", "bearer a.b.c"), ("cookie", "other=1; eal_access_token=a.b.c"), ("cookie", "x")]

/-- The cookie headers in another order, one of them twice. -/
def rearranged : HeaderMap String :=
  [("cookie", "x"), ("authorization", "bearer a.b.c"),
    ("cookie", "other=1; eal_access_token=a.b.c"), ("cookie", "x")]

/-- The pairs of the first cookie header in another order, one of them twice. -/
def reordered : HeaderMap String :=
  [("authorization", "bearer a.b.c"),
    ("cookie", "eal_access_token=a.b.c; other=1; eal_access_token=a.b.c"), ("cookie", "x")]

def conflicting : HeaderMap String :=
  [("authorization", "bearer a.b.c"), ("cookie", "other=1; eal_access_token=d.e.f")]

theorem mem_turned {α : Type} {a b c : α} : c ∈ [a, b] ↔ c ∈ [b, a, b] := by
  simp only [List.mem_cons, List.not_mem_nil, or_false]
  constructor
  · rintro (h | h)
    · exact Or.inr (Or.inl h)
    · exact Or.inl h
  · rintro (h | h | h)
    · exact Or.inr h
    · exact Or.inl h
    · exact Or.inr h

end Credentials

/-- A request with a header and a cookie that agree, the same with its cookie
headers and with its pairs rearranged, and one with two different credentials. -/
theorem extractToken_unanimous_example :
    extractToken some Credentials.headers "eal_access_token" = .ok "a.b.c".toList ∧
    extractToken some Credentials.rearranged "eal_access_token" = .ok "a.b.c".toList ∧
    extractToken some Credentials.reordered "eal_access_token" = .ok "a.b.c".toList ∧
    Unanimous some Credentials.headers "eal_access_token" "a.b.c".toList ∧
    ¬ ∃ t, Unanimous some Credentials.conflicting "eal_access_token" t := by
  have hrun : extractToken some Credentials.headers "eal_access_token" = .ok "a.b.c".toList := by
    decide
  have hheaders : SameCookies some Credentials.headers Credentials.rearranged := by
    refine SameCookies.of_headers (by decide) fun value => ?_
    have hcookies : Credentials.headers.getAll "cookie"
        = ["other=1; eal_access_token=a.b.c", "x"] := by decide
    have hcookies' : Credentials.rearranged.getAll "cookie"
        = ["x", "other=1; eal_access_token=a.b.c", "x"] := by decide
    rw [hcookies, hcookies']
    exact Credentials.mem_turned
  have hpairs : SameCookies some Credentials.headers Credentials.reordered := by
    have hcookies : Credentials.headers.getAll "cookie"
        = ["other=1; eal_access_token=a.b.c", "x"] := by decide
    have hcookies' : Credentials.reordered.getAll "cookie"
        = ["eal_access_token=a.b.c; other=1; eal_access_token=a.b.c", "x"] := by decide
    refine SameCookies.of_pairs (by decide) ?_
    rw [hcookies, hcookies']
    refine .cons ⟨_, _, rfl, rfl, fun pair => ?_⟩ (.cons ⟨_, _, rfl, rfl, fun pair => Iff.rfl⟩ .nil)
    have hleft : cookiePairsOf "other=1; eal_access_token=a.b.c"
        = ["other=1".toList, "eal_access_token=a.b.c".toList] := by decide
    have hright : cookiePairsOf "eal_access_token=a.b.c; other=1; eal_access_token=a.b.c"
        = ["eal_access_token=a.b.c".toList, "other=1".toList, "eal_access_token=a.b.c".toList] := by
      decide
    rw [hleft, hright]
    exact Credentials.mem_turned
  have hmain := extractToken_unanimous some Credentials.headers "eal_access_token"
  refine ⟨hrun, (hmain.2.1 _ hheaders _).mp hrun, (hmain.2.1 _ hpairs _).mp hrun,
    (hmain.1 _).mp hrun, ?_⟩
  rintro ⟨t, ht⟩
  have hconflict := extractToken_unanimous some Credentials.conflicting "eal_access_token"
  have hok := (hconflict.1 t).mpr ht
  have herror : extractToken some Credentials.conflicting "eal_access_token"
      = .error (.unauthorized "conflicting JWT credentials were supplied") := by decide
  rw [herror] at hok
  cases hok

/-- **A request is authenticated exactly when its unanimous token is an intended
one**, and with the context the token stands for. -/
theorem authenticateAt_ok_iff {V : Type} {toStr : V → Option String} {c : TokenCrates}
    (hc : c.Lawful) (x : Platform) {secret : List UInt8}
    {issuer audience tenantClaim roleClaim : String} {allowedRoles adminRoles : Finset String}
    {leewaySeconds : ℤ} {cookieName : String} {config : AuthConfig} {verifier : JwtVerifier}
    (hjwt : AuthConfig.jwt secret issuer audience tenantClaim roleClaim allowedRoles adminRoles
      leewaySeconds cookieName = .ok config)
    (hmode : config.mode = .jwt verifier) (headers : HeaderMap V) {now : ℤ} (hnow : InClock now)
    (ctx : AuthContext) :
    config.authenticateAt toStr c x headers now = .ok ctx ↔
      ∃ t, Unanimous toStr headers config.cookieName t ∧
        Accepts c x verifier (String.ofList t) now ctx := by
  have hverify : ∀ t : List Char, (verifier.verify c x (String.ofList t) now).mapError (fun _ =>
      HttpError.unauthorized "invalid bearer token") = .ok ctx ↔
        Accepts c x verifier (String.ofList t) now ctx := by
    intro t
    rw [← verify_accepts_iff hc (jwt_leeway hjwt hmode) hnow]
    cases verifier.verify c x (String.ofList t) now with
    | error e => exact ⟨nofun, nofun⟩
    | ok ctx' => exact ⟨fun h => congrArg _ (Except.ok.inj h), fun h => congrArg _ (Except.ok.inj h)⟩
  rw [AuthConfig.authenticateAt, hmode, bind_ok_iff]
  simp only [extractToken_ok_iff, hverify]

end Auth

end EmbeddedAlerts
