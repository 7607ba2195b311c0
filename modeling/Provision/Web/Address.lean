import Provision.Web.Host
import Provision.Web.Path

/-!
# Addresses

An address on the web has a scheme, perhaps a user with a password, a host, perhaps a port, a
path, and perhaps a query and a fragment.

Reading is lenient.  Tabs, line breaks and blanks at the end are dropped, any number of slashes
of either kind may follow the scheme, and what addresses cannot have is written with percent
signs.  `Address.text` writes the one form that all spellings of an address have in common.
-/

namespace Provision.Web

/-- What is wrong with an address. -/
inductive AddressError
  | host (cause : HostError)
  | port
deriving DecidableEq, Repr

/-- The wording of an error. -/
def AddressError.message : AddressError → String
  | .host .empty => "empty host"
  | .host .noName => "invalid international domain name"
  | .host .noIpv4 => "invalid IPv4 address"
  | .host .noIpv6 => "invalid IPv6 address"
  | .port => "invalid port number"

/-- Who asks, as it is written in an address. -/
structure Credentials where
  user : List Char
  password : Option (List Char)
deriving DecidableEq, Repr

namespace Credentials

/-- No one in particular. -/
def none : Credentials := ⟨[], .none⟩

/-- Reads what stands before the sign `@`.  A password that is empty is none. -/
def ofText (text : List Char) : Credentials :=
  let password := (text.dropWhile (· ≠ ':')).drop 1
  { user := Percent.encode .user (text.takeWhile (· ≠ ':'))
    password := if password = [] then .none else some (Percent.encode .user password) }

/-- Writes credentials, with the sign that separates them from the host. -/
def text (c : Credentials) : List Char :=
  match c.password with
  | some password => c.user ++ ':' :: password ++ ['@']
  | .none => if c.user = [] then [] else c.user ++ ['@']

/-- Whether credentials can be told to a server: the user is a text, and a user or a password
that is a text is given. -/
def canBeTold (c : Credentials) : Bool :=
  let isText (part : List Char) : Bool := (Utf8.decode? (Percent.decode part)).isSome
  isText c.user && (!c.user.isEmpty || c.password.any isText)

end Credentials

/-- An address on the web. -/
structure Address where
  /-- Whether transfers are encrypted. -/
  secure : Bool
  credentials : Credentials
  host : Host
  /-- The port, if it is not the usual one. -/
  port : Option Nat
  path : List Path.Segment
  query : Option (List Char)
  fragment : Option (List Char)
deriving DecidableEq, Repr

namespace Address

/-- The schemes, each with what it says about encryption. -/
def schemes : List (String × Bool) :=
  [("http://", false), ("https://", true)]

/-- The port that is used where none is given. -/
def usualPort (secure : Bool) : Nat :=
  if secure then 443 else 80

/-- Whether a character is left out wherever it stands. -/
def isLeftOut (c : Char) : Bool :=
  c = '\t' || c = '\n' || c = '\r'

/-- What is read of a text: blanks and controls at its end are not. -/
def cleaned (text : List Char) : List Char :=
  (text.reverse.dropWhile fun c => c.toNat ≤ 0x20).reverse.filter fun c => !isLeftOut c

/-- Whether a character is a slash of either kind. -/
def isSlash (c : Char) : Bool :=
  c = '/' || c = '\\'

/-- Whether a character can stand before the path. -/
def isBeforePath (c : Char) : Bool :=
  !isSlash c && c ≠ '?' && c ≠ '#'

/-- Cuts a host from what follows it.  Colons in brackets belong to the host. -/
def splitPort (inBrackets : Bool) : List Char → List Char × List Char
  | [] => ([], [])
  | c :: rest =>
    if c = ':' ∧ ¬ inBrackets then ([], c :: rest)
    else
      let cut := splitPort (if c = '[' then true else if c = ']' then false else inBrackets) rest
      (c :: cut.1, cut.2)

/-- Reads a port behind its colon.  No digits are no port. -/
def portOfText (secure : Bool) (text : List Char) : Except AddressError (Option Nat) :=
  match numberIn? 10 (text.drop 1) with
  | some n =>
    if text.drop 1 = [] ∨ n = usualPort secure then .ok none
    else if n < 65536 then .ok (some n)
    else .error .port
  | none => .error .port

/-- Reads what follows the scheme. -/
def ofRest (secure : Bool) (rest : List Char) : Except AddressError Address := do
  let rest := rest.dropWhile isSlash
  let authority := rest.takeWhile isBeforePath
  let rest := rest.dropWhile isBeforePath
  let (credentials, place) :=
    match Text.splitLast? ['@'] authority with
    | some (user, place) => (Credentials.ofText user, place)
    | none => (Credentials.none, authority)
  let (host, port) := splitPort false place
  let host ← (Host.ofText host).mapError .host
  let port ← portOfText secure port
  let main := rest.takeWhile (· ≠ '#')
  return {
    secure, credentials, host, port
    path := Path.ofText (main.takeWhile (· ≠ '?'))
    query := (main.dropWhile (· ≠ '?')).tail?.map (Percent.encode .query)
    fragment := (rest.dropWhile (· ≠ '#')).tail?.map (Percent.encode .fragment) }

/-- Reads an address.  Gives none where the text does not start with a scheme. -/
def ofString? (text : String) : Option (Except AddressError Address) :=
  schemes.findSome? fun (scheme, secure) =>
    if scheme.toList.isPrefixOf text.toList then
      some (ofRest secure ((cleaned text.toList).dropWhile (· ≠ ':')).tail)
    else none

/-- Writes an address. -/
def text (a : Address) : String :=
  let scheme := if a.secure then "https://" else "http://"
  let port :=
    match a.port with
    | some n => s!":{n}"
    | none => ""
  let marked (mark : Char) : Option (List Char) → List Char
    | some part => mark :: part
    | none => []
  scheme ++ String.ofList a.credentials.text ++ a.host.text ++ port ++
    String.ofList (Path.text a.path ++ marked '?' a.query ++ marked '#' a.fragment)

/-- The address that a request is made to.  Credentials that can be told are told apart from
it. -/
def requested (a : Address) : Address :=
  if a.credentials.canBeTold then { a with credentials := .none } else a

end Address

end Provision.Web
