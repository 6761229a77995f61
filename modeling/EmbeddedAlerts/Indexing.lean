import EmbeddedAlerts.Platform

/-!
# Admission of URLs

`src/indexing.rs`: which URLs a source policy admits, and the canonical form in
which they are stored.  Parsing and printing are the `url` crate's.
-/

namespace EmbeddedAlerts

namespace Indexing

open Text

def toAsciiLowercase (s : List Char) : List Char := s.map Char.toLower

/-- `str::trim_end_matches`. -/
def trimEndMatches (c : Char) (s : List Char) : List Char :=
  (s.reverse.dropWhile (· == c)).reverse

/-- `normalize_host`. -/
def normalizeHost (host : List Char) : List Char :=
  toAsciiLowercase (trimEndMatches '.' (trim host))

/-- `str::strip_suffix`. -/
def stripSuffix? (s suffix : List Char) : Option (List Char) :=
  if suffix.isSuffixOf s then some (s.take (s.length - suffix.length)) else none

/-- `str::strip_prefix`. -/
def stripPrefix? (s pre : List Char) : Option (List Char) :=
  if pre.isPrefixOf s then some (s.drop pre.length) else none

/-- `host_is_allowed`. -/
def hostIsAllowed (host : List Char) (allowedHosts : List String) (includeSubdomains : Bool) :
    Bool :=
  allowedHosts.any fun allowed =>
    let allowed := normalizeHost allowed.toList
    host == allowed
      || (includeSubdomains
        && (stripSuffix? host allowed).any fun pre =>
          pre.getLast? == some '.' && decide (pre.length > 1))

/-- `path_is_allowed`. -/
def pathIsAllowed (path pathPrefix : List Char) : Bool :=
  if pathPrefix = ['/'] then true
  else
    let pathPrefix := trimEndMatches '/' pathPrefix
    path == pathPrefix
      || (stripPrefix? path pathPrefix).any fun remaining => remaining.head? == some '/'

/-- `canonicalize`. -/
def canonicalize (x : Platform) (rawUrl : String) (allowedHosts : List String)
    (includeSubdomains : Bool) (allowedPathPrefixes : List String) : Except String String := do
  let url ← (x.urlParse rawUrl).mapError fun error => "invalid absolute URL: " ++ error
  if url.scheme ≠ "http" ∧ url.scheme ≠ "https" then
    throw "only http and https URLs may be indexed"
  if url.cannotBeABase then
    throw "URL cannot be used as a crawl base"
  if !url.username.isEmpty || url.password.isSome then
    throw "URL credentials are forbidden for indexed sources"
  let host ← match url.host with
    | some (.domain host) => pure (normalizeHost host.toList)
    | some (.ipv4 _) | some (.ipv6 _) =>
      throw "literal IP addresses are forbidden; configure an exact public domain"
    | none => throw "URL must include a public host"
  if host = "localhost".toList ∨ '.' ∉ host then
    throw "URL must use an exact public DNS host"
  if !hostIsAllowed host allowedHosts includeSubdomains then
    throw ("host " ++ String.ofList host ++ " is outside the source allowlist")
  if !allowedPathPrefixes.any fun p => pathIsAllowed url.path.toList p.toList then
    throw ("path " ++ url.path ++ " is outside the source allowlist")
  let isDefaultPort := (url.scheme == "http" && url.port == some 80)
    || (url.scheme == "https" && url.port == some 443)
  let url := if isDefaultPort then { url with port := none } else url
  return x.urlToString { url with fragment := none }

/-- `canonicalize_source_root`. -/
def canonicalizeSourceRoot (x : Platform) (input : CreateSourcePolicy) : Except String String :=
  canonicalize x input.rootUrl input.allowedHosts input.includeSubdomains input.allowedPathPrefixes

/-- `canonicalize_for_source`. -/
def canonicalizeForSource (x : Platform) (source : SourcePolicy) (rawUrl : String) :
    Except String String :=
  canonicalize x rawUrl source.allowedHosts source.includeSubdomains source.allowedPathPrefixes

end Indexing

end EmbeddedAlerts
