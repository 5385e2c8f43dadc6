import LagForecast.Text.Basic

/-!
Requests and responses, and the content types that name JSON.
-/

set_option autoImplicit false

namespace LagForecast

structure HttpRequest where
  method : String
  target : String
  headers : List (String × String)
  body : List UInt8

structure HttpResponse where
  status : Nat
  headers : List (String × String)
  body : String

namespace HttpRequest

def header? (r : HttpRequest) (name : String) : Option String :=
  (r.headers.find? fun h => Text.sameLetters h.1 name).map Prod.snd

def isScheme (c : Char) : Bool := c.isAlphanum || c ∈ ['+', '-', '.', '~']

/-- The path that a target names: without the address in front, the query and the fragment.  An
address starts with a scheme, which may be empty, in front of `://`. -/
def path (r : HttpRequest) : String :=
  let local? : List Char → Option (List Char)
    | ':' :: '/' :: '/' :: rest => some (rest.dropWhile fun c => c ≠ '/' && c ≠ '?' && c ≠ '#')
    | _ => none
  let cs := r.target.toList
  let cs := (local? (cs.dropWhile isScheme)).getD cs
  let path := cs.takeWhile fun c => c ≠ '?' && c ≠ '#'
  if path = [] then "/" else String.ofList path

end HttpRequest

namespace MediaType

def isToken (c : Char) : Bool :=
  c.isAlphanum || c ∈ ['!', '#', '$', '%', '&', '\'', '*', '+', '-', '.', '^', '_', '\x60', '|', '~']

def isQuoted (c : Char) : Bool := ' ' ≤ c && c.toNat < 127

/-- Where in a parameter a character stands. -/
inductive Place where
  /-- Before or in the name, and whether a character of it was read. -/
  | name (begun : Bool)
  /-- In a value without quotation marks, and whether a character of it was read. -/
  | value (begun : Bool)
  /-- Between quotation marks, and whether a character was read there. -/
  | quoted (begun : Bool)
  /-- After the closing quotation mark. -/
  | closed

/-- Move on by one character of the parameters.  A quoted value has at least one character, which
may be a quotation mark, and ends at the next quotation mark; a backslash is a character like any
other. -/
def Place.step : Place → Char → Option Place
  | .name begun, c =>
    if c = ' ' && !begun then some (.name false)
    else if c = '=' && begun then some (.value false)
    else if isToken c then some (.name true)
    else none
  | .value begun, c =>
    if c = '"' && !begun then some (.quoted false)
    else if c = ';' && begun then some (.name false)
    else if isToken c then some (.value true)
    else none
  | .quoted begun, c =>
    if c = '"' && begun then some .closed
    else if isQuoted c then some (.quoted true)
    else none
  | .closed, c =>
    if c = ';' then some (.name false) else if c = ' ' then some .closed else none

def Place.isEnd : Place → Bool
  | .name begun => !begun
  | .value _ | .closed => true
  | .quoted _ => false

def parameters (cs : List Char) : Bool := (cs.foldlM Place.step (.name false)).any Place.isEnd

def splitSuffix (cs : List Char) : List Char × Option (List Char) :=
  let tail := cs.reverse.takeWhile (· ≠ '+')
  if tail.length + 1 < cs.length then
    (cs.take (cs.length - tail.length - 1), some tail.reverse)
  else (cs, none)

/-- Whether a content type names JSON: `application/json`, or `application` with a subtype whose
suffix is `json`, with any parameters. -/
def isJson (s : String) : Bool :=
  let cs := s.toList.map Char.toLower
  let (kind, rest) := cs.span (· ≠ '/')
  let (subtype, rest) := (rest.drop 1).span (· ≠ ';')
  let (name, suffix) := splitSuffix subtype
  kind = "application".toList && subtype.all isToken && parameters (rest.drop 1) &&
    (name = "json".toList || suffix = some "json".toList)

end MediaType

end LagForecast
