import EmbeddedAlerts.Admission
import EmbeddedAlerts.Text.Order
import EmbeddedAlerts.WorkerAuth

/-!
# Browser origins

`src/server_websocket.rs`: `parse_origins` reads the list of browser origins from the
configuration, `configured_origins` chooses the text it reads, and
`authorize_websocket_origin` compares the `Origin` header of a WebSocket request with
the list.

`OriginOf item origin` says what one item of the text stands for.  The list is sorted
and freed of duplicates, so it is the strictly increasing list of the origins that the
items stand for (`parseOrigins_ok_iff`): the order of the items, their number and the
white space around them do not matter.
-/

namespace EmbeddedAlerts

open Sql Text
open Auth (HeaderMap)

/-! ### Header values -/

/-- `HeaderValue`. -/
structure HeaderValue where
  bytes : List UInt8
deriving Repr

theorem HeaderValue.toNat_injective :
    Function.Injective fun v : HeaderValue => v.bytes.map UInt8.toNat := by
  rintro ⟨a⟩ ⟨b⟩ h
  have hinj : Function.Injective UInt8.toNat := fun _ _ => UInt8.toNat_inj.mp
  exact congrArg HeaderValue.mk (List.map_injective_iff.mpr hinj h)

/-- The order of the bytes. -/
instance HeaderValue.linearOrder : LinearOrder HeaderValue :=
  LinearOrder.lift' _ HeaderValue.toNat_injective

/-- `HeaderValue::to_str`: only visible ASCII is text. -/
def HeaderValue.toStr (value : HeaderValue) : Option String :=
  if value.bytes.all (fun b => (32 ≤ b && b < 127) || b == 9) = true then
    some (String.ofList (value.bytes.map fun b => Char.ofNat b.toNat))
  else none

/-- The value of a variable that is set and not blank. -/
def nonblank (env : String → Option String) (name : String) : Option String :=
  (env name).filter fun value => !(Alerts.trimString value).isEmpty

/-! ### The list of origins -/

/-- What `parse_origins` calls of other crates, besides `Url::parse`. -/
structure OriginCrates where
  /-- `Url::origin` and `Origin::ascii_serialization`. -/
  asciiSerialization : Url → String
  /-- `HeaderValue::from_str`. -/
  headerValue : String → Option HeaderValue

/-- A web URL with nothing in it but its origin. -/
structure Url.IsOrigin (u : Url) : Prop where
  web : u.IsWeb
  host : u.host.isSome = true
  username : u.username.isEmpty = true
  password : u.password = none
  path : u.path = "/"
  query : u.query = none
  fragment : u.fragment = none

/-- What is documented of them: a header value has the bytes of its text, and a
serialized origin is read as the URL it was made from. -/
structure OriginCrates.Lawful (o : OriginCrates) (x : Platform) : Prop where
  bytes : ∀ s value, o.headerValue s = some value → value.bytes = utf8 s.toList
  reparse : ∀ raw u, x.urlParse raw = .ok u → u.IsOrigin →
    x.urlParse (o.asciiSerialization u) = .ok u

namespace Origins

variable (x : Platform) (o : OriginCrates)

/-- One turn of the loop of `parse_origins`. -/
def parseOrigin (rawOrigin : String) : Except String HeaderValue := do
  let url ← (x.urlParse rawOrigin).mapError fun _ => "parse CORS origin"
  rejectIf (¬ (url.scheme = "http" ∨ url.scheme = "https")) "CORS origins must use http or https"
  rejectIf (¬ url.host.isSome = true) "CORS origins must contain a host"
  rejectIf (¬ (url.username.isEmpty = true ∧ url.password = none))
    "CORS origins must not contain credentials"
  rejectIf (¬ (url.path = "/" ∧ url.query = none ∧ url.fragment = none))
    "CORS origins must not contain paths, queries, or fragments"
  let origin := o.asciiSerialization url
  rejectIf (origin = "null") "opaque CORS origins are not allowed"
  okOr (o.headerValue origin) "failed to parse header value"

/-- The items of the text. -/
def items (raw : String) : List String :=
  (((raw.toList.splitOn ',').map trim).filter fun item => !item.isEmpty).map String.ofList

/-- `parse_origins`. -/
def parseOrigins (raw : String) : Except String (List HeaderValue) := do
  let origins ← (items raw).mapM (parseOrigin x o)
  let origins := (origins.insertionSort (· ≤ ·)).dedup
  rejectIf (origins.isEmpty = true)
    "CORS_ALLOWED_ORIGINS must contain at least one explicit origin"
  return origins

/-- `configured_origins`. -/
def configuredOrigins (env : String → Option String) (production : Bool) :
    Except String (List HeaderValue) :=
  match nonblank env "CORS_ALLOWED_ORIGINS" with
  | some raw => parseOrigins x o raw
  | none =>
    if production then
      .error "CORS_ALLOWED_ORIGINS must contain explicit browser origins in production"
    else
      parseOrigins x o ("," |>.intercalate
        ["http://localhost:8081", "http://localhost:8082", "http://localhost:8083"])

end Origins

/-- `authorize_websocket_origin`. -/
def authorizeWebsocketOrigin (headers : HeaderMap HeaderValue)
    (allowedOrigins : List HeaderValue) : Except HttpError Unit := do
  let origin ← okOr (headers.get "origin")
    (.forbidden "WebSocket requests require an Origin header")
  rejectIf (¬ allowedOrigins.any (fun allowed => decide (allowed = origin)) = true)
    (.forbidden "WebSocket origin is not in CORS_ALLOWED_ORIGINS")

/-! ### What the list holds -/

namespace Origins

variable {x : Platform} {o : OriginCrates}

/-- An item of the text stands for an origin. -/
def OriginOf (x : Platform) (o : OriginCrates) (item : String) (origin : HeaderValue) : Prop :=
  ∃ u, x.urlParse item = .ok u ∧ u.IsOrigin ∧ o.asciiSerialization u ≠ "null" ∧
    o.headerValue (o.asciiSerialization u) = some origin

theorem parseOrigin_ok_iff {item : String} {origin : HeaderValue} :
    parseOrigin x o item = .ok origin ↔ OriginOf x o item origin := by
  rw [parseOrigin, bind_ok_iff]
  simp only [mapError_ok_iff, rejectIf_bind, okOr_ok_iff, not_not]
  constructor
  · rintro ⟨u, hparse, hweb, hhost, ⟨husername, hpassword⟩, ⟨hpath, hquery, hfragment⟩, hnull,
      horigin⟩
    exact ⟨u, hparse, ⟨hweb, hhost, husername, hpassword, hpath, hquery, hfragment⟩, hnull, horigin⟩
  · rintro ⟨u, hparse, hu, hnull, horigin⟩
    exact ⟨u, hparse, hu.web, hu.host, ⟨hu.username, hu.password⟩,
      ⟨hu.path, hu.query, hu.fragment⟩, hnull, horigin⟩

theorem OriginOf.unique {item : String} {origin origin' : HeaderValue}
    (h : OriginOf x o item origin) (h' : OriginOf x o item origin') : origin = origin' :=
  Except.ok.inj ((parseOrigin_ok_iff.mpr h).symm.trans (parseOrigin_ok_iff.mpr h'))

/-- The origin of an item is its own origin. -/
theorem OriginOf.canonical (ho : o.Lawful x) {item : String} {origin : HeaderValue}
    (h : OriginOf x o item origin) :
    ∃ text : String, origin.bytes = utf8 text.toList ∧ OriginOf x o text origin := by
  obtain ⟨u, hparse, hu, hnull, horigin⟩ := h
  exact ⟨o.asciiSerialization u, ho.bytes _ _ horigin, u, ho.reparse item u hparse hu, hu, hnull,
    horigin⟩

/-- The origins that are read are those of the items. -/
theorem mem_of_read {raw : String} {read : List HeaderValue}
    (hread : (items raw).mapM (parseOrigin x o) = .ok read) (origin : HeaderValue) :
    origin ∈ (read.insertionSort (· ≤ ·)).dedup ↔
      ∃ item ∈ items raw, OriginOf x o item origin := by
  rw [List.mem_dedup, List.mem_insertionSort]
  constructor
  · intro horigin
    obtain ⟨item, hitem, hparse⟩ := exists_of_mem_mapM hread horigin
    exact ⟨item, hitem, parseOrigin_ok_iff.mp hparse⟩
  · rintro ⟨item, hitem, horigin⟩
    obtain ⟨origin', horigin', hparse⟩ := exists_mem_of_mapM hread hitem
    rw [horigin.unique (parseOrigin_ok_iff.mp hparse)]
    exact horigin'

theorem exists_read {raw : String}
    (h : ∀ item ∈ items raw, ∃ origin, OriginOf x o item origin) :
    ∃ read, (items raw).mapM (parseOrigin x o) = .ok read := by
  refine mapM_ok_of_forall fun item hitem => ?_
  obtain ⟨origin, horigin⟩ := h item hitem
  exact ⟨origin, parseOrigin_ok_iff.mpr horigin⟩

/-- **The list is the increasing list of what its items stand for**, and there is one
exactly if every item stands for an origin and there is an item. -/
theorem parseOrigins_ok_iff {raw : String} {origins : List HeaderValue} :
    parseOrigins x o raw = .ok origins ↔
      items raw ≠ [] ∧ (∀ item ∈ items raw, ∃ origin, OriginOf x o item origin) ∧
      origins.Pairwise (· < ·) ∧
      ∀ origin, origin ∈ origins ↔ ∃ item ∈ items raw, OriginOf x o item origin := by
  rw [parseOrigins, bind_ok_iff]
  simp only [rejectIf_bind, pure_ok_iff, List.isEmpty_iff]
  constructor
  · rintro ⟨read, hread, hne, rfl⟩
    obtain ⟨origin, horigin⟩ := List.exists_mem_of_ne_nil _ hne
    obtain ⟨item, hitem, -⟩ := (mem_of_read hread origin).mp horigin
    refine ⟨List.ne_nil_of_mem hitem, fun item hitem => ?_, increasing_dedup read,
      mem_of_read hread⟩
    obtain ⟨origin, -, hparse⟩ := exists_mem_of_mapM hread hitem
    exact ⟨origin, parseOrigin_ok_iff.mp hparse⟩
  · rintro ⟨hne, hall, hincreasing, horigins⟩
    obtain ⟨read, hread⟩ := exists_read hall
    have heq : (read.insertionSort (· ≤ ·)).dedup = origins := by
      refine (increasing_dedup read).eq_of_mem_iff hincreasing fun origin => ?_
      rw [mem_of_read hread, horigins]
    refine ⟨read, hread, ?_, heq⟩
    obtain ⟨item, hitem⟩ := List.exists_mem_of_ne_nil _ hne
    obtain ⟨origin, horigin⟩ := hall item hitem
    exact List.ne_nil_of_mem ((mem_of_read hread origin).mpr ⟨item, hitem, horigin⟩)

theorem exists_parseOrigins {raw : String} (hne : items raw ≠ [])
    (h : ∀ item ∈ items raw, ∃ origin, OriginOf x o item origin) :
    ∃ origins, parseOrigins x o raw = .ok origins := by
  obtain ⟨read, hread⟩ := exists_read h
  exact ⟨_, parseOrigins_ok_iff.mpr ⟨hne, h, increasing_dedup read, mem_of_read hread⟩⟩

end Origins

theorem authorizeWebsocketOrigin_ok_iff {headers : HeaderMap HeaderValue}
    {allowedOrigins : List HeaderValue} :
    authorizeWebsocketOrigin headers allowedOrigins = .ok () ↔
      ∃ origin ∈ allowedOrigins, headers.get "origin" = some origin := by
  rw [authorizeWebsocketOrigin, okOr_bind]
  simp only [rejectIf_ok_iff, not_not, List.any_eq_true, decide_eq_true_eq]
  constructor
  · rintro ⟨origin, horigin, allowed, hallowed, rfl⟩
    exact ⟨allowed, hallowed, horigin⟩
  · rintro ⟨origin, hallowed, horigin⟩
    exact ⟨origin, horigin, origin, hallowed, rfl⟩

/-- **The configured origins are a set.**  The list exists exactly if there is an item
and every item stands for an origin; it is the increasing list of these origins, so it
only depends on which items there are; each of its origins stands for itself; and a
WebSocket request passes exactly if its `Origin` header is what an item stands for. -/
theorem origins_canonical {x : Platform} {o : OriginCrates} (ho : o.Lawful x) (raw : String) :
    (∀ origins, Origins.parseOrigins x o raw = .ok origins ↔
      Origins.items raw ≠ [] ∧
      (∀ item ∈ Origins.items raw, ∃ origin, Origins.OriginOf x o item origin) ∧
      origins.Pairwise (· < ·) ∧
      ∀ origin, origin ∈ origins ↔
        ∃ item ∈ Origins.items raw, Origins.OriginOf x o item origin) ∧
    (∀ raw', (∀ item, item ∈ Origins.items raw ↔ item ∈ Origins.items raw') → ∀ origins,
      Origins.parseOrigins x o raw = .ok origins ↔ Origins.parseOrigins x o raw' = .ok origins) ∧
    (∀ origins, Origins.parseOrigins x o raw = .ok origins →
      (∀ origin ∈ origins, ∃ text : String,
        origin.bytes = utf8 text.toList ∧ Origins.OriginOf x o text origin) ∧
      ∀ headers, authorizeWebsocketOrigin headers origins = .ok () ↔
        ∃ item ∈ Origins.items raw, ∃ origin, Origins.OriginOf x o item origin ∧
          headers.get "origin" = some origin) := by
  refine ⟨fun origins => Origins.parseOrigins_ok_iff, fun raw' hsame origins => ?_,
    fun origins hparse => ?_⟩
  · have hempty : Origins.items raw = [] ↔ Origins.items raw' = [] := by
      simp only [List.eq_nil_iff_forall_not_mem, hsame]
    rw [Origins.parseOrigins_ok_iff, Origins.parseOrigins_ok_iff, ne_eq, hempty]
    simp only [hsame]
  · obtain ⟨-, -, -, hmem⟩ := Origins.parseOrigins_ok_iff.mp hparse
    constructor
    · intro origin horigin
      obtain ⟨item, -, hitem⟩ := (hmem origin).mp horigin
      exact hitem.canonical ho
    · intro headers
      rw [authorizeWebsocketOrigin_ok_iff]
      constructor
      · rintro ⟨origin, horigin, hheader⟩
        obtain ⟨item, hmem', hitem⟩ := (hmem origin).mp horigin
        exact ⟨item, hmem', origin, hitem, hheader⟩
      · rintro ⟨item, hmem', origin, hitem, hheader⟩
        exact ⟨origin, (hmem origin).mpr ⟨item, hmem', hitem⟩, hheader⟩

namespace Browser

def localhost : Url :=
  { Scenario.url "/" with scheme := "http", host := some (.domain "localhost"), port := some 8081 }

/-- What the `url` crate makes of some texts. -/
def urls : List (String × Url) := [
  ("https://example.com", Scenario.url "/"),
  ("https://example.com/", Scenario.url "/"),
  ("https://example.com/a", Scenario.url "/a"),
  ("HTTPS://EXAMPLE.com:443/", Scenario.url "/"),
  ("http://localhost:8081", localhost)]

def platform : Platform :=
  { WorkerAuth.Worker.platform with
    urlParse := fun s => okOr (urls.lookup s) "relative URL without a base" }

/-- The scheme, the host and the port; a stored port is not the default one. -/
def asciiSerialization (u : Url) : String :=
  u.scheme ++ "://" ++ (match u.host with
    | some (.domain name) => name
    | some (.ipv4 address) => address
    | some (.ipv6 address) => "[" ++ address ++ "]"
    | none => "") ++ (match u.port with
    | some port => ":" ++ toString port
    | none => "")

def crates : OriginCrates where
  asciiSerialization := asciiSerialization
  headerValue s :=
    if (utf8 s.toList).all (fun b => (32 ≤ b && b ≠ 127) || b == 9) = true then
      some ⟨utf8 s.toList⟩
    else none

theorem crates_lawful : crates.Lawful platform where
  bytes s value h := by
    simp only [crates] at h
    split_ifs at h
    rw [← Option.some.inj h]
  reparse raw u hparse hu := by
    obtain ⟨before, after, htable, -⟩ := List.lookup_eq_some_iff.mp (okOr_ok_iff.mp hparse)
    have hmem : (raw, u) ∈ urls := by
      rw [htable]
      exact List.mem_append_right _ List.mem_cons_self
    have hall : ∀ e ∈ urls, e.2.path = "/" →
        platform.urlParse (crates.asciiSerialization e.2) = .ok e.2 := by decide +kernel
    exact hall (raw, u) hmem hu.path

def text : String := " http://localhost:8081,,HTTPS://EXAMPLE.com:443/ , https://example.com"

def origins : List HeaderValue :=
  [⟨utf8 "http://localhost:8081".toList⟩, ⟨utf8 "https://example.com".toList⟩]

theorem mem_reversed {α : Type} {a b c d : α} : d ∈ [a, b, c] ↔ d ∈ [c, b, a, c] := by
  simp only [List.mem_cons, List.not_mem_nil, or_false]
  tauto

theorem parse_text : Origins.parseOrigins platform crates text = .ok origins := by decide

end Browser

open Browser in
/-- Two spellings of one origin in a list with an empty item, and a request from it. -/
theorem origins_canonical_spellings :
    Origins.parseOrigins platform crates text = .ok origins ∧
    Origins.parseOrigins platform crates
      "https://example.com,HTTPS://EXAMPLE.com:443/,http://localhost:8081,https://example.com"
      = .ok origins ∧
    authorizeWebsocketOrigin [("origin", ⟨utf8 "https://example.com".toList⟩)] origins = .ok () ∧
    authorizeWebsocketOrigin [("origin", ⟨utf8 "https://example.com.".toList⟩)] origins ≠ .ok () := by
  obtain ⟨-, hsame, hlist⟩ := origins_canonical crates_lawful text
  obtain ⟨-, hrequest⟩ := hlist origins parse_text
  have hitems : Origins.items text
      = ["http://localhost:8081", "HTTPS://EXAMPLE.com:443/", "https://example.com"] := by decide
  have hitems' : Origins.items
      "https://example.com,HTTPS://EXAMPLE.com:443/,http://localhost:8081,https://example.com"
      = ["https://example.com", "HTTPS://EXAMPLE.com:443/", "http://localhost:8081",
        "https://example.com"] := by decide
  refine ⟨parse_text, (hsame _ (fun item => ?_) origins).mp parse_text, ?_, ?_⟩
  · rw [hitems, hitems']
    exact mem_reversed
  · refine (hrequest _).mpr ⟨"https://example.com", ?_, _, ?_, rfl⟩
    · rw [hitems]
      decide
    · exact Origins.parseOrigin_ok_iff.mp (by decide)
  · intro hok
    obtain ⟨origin, horigin, hheader⟩ := authorizeWebsocketOrigin_ok_iff.mp hok
    obtain rfl := Option.some.inj hheader
    exact absurd horigin (by decide)

end EmbeddedAlerts
