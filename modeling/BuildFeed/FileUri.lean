-- File URIs, as a URI library writes them. A path becomes an absolute one with the letter of its
-- drive in lower case, and everything outside a small set of characters is percent-encoded. Two
-- slashes at the start of a path name a host. All this is the library's doing and not the session's.
-- What documents rely on is stated of any writer of file URIs, and this one keeps to it.
import BuildFeed.Fault
import BuildFeed.Text.Percent
import BuildFeed.Text.LowerCase

namespace BuildFeed.FileUri

/-! ## Host and path -/

/-- The host that a path names after two slashes, and the path on it. -/
def hostAndPath : List Char → List Char × List Char
  | '/' :: '/' :: rest =>
    match rest.dropWhile (· ≠ '/') with
    | [] => (rest, ['/'])
    | path => (rest.takeWhile (· ≠ '/'), path)
  | path => ([], path)

/-- A path made absolute. -/
def rooted : List Char → List Char
  | '/' :: rest => '/' :: rest
  | path => '/' :: path

/-- A path with the letter of its drive in lower case. -/
def lowerDrive : List Char → List Char
  | '/' :: letter :: ':' :: rest =>
    if letter.isUpper then '/' :: letter.toLower :: ':' :: rest else '/' :: letter :: ':' :: rest
  | path => path

/-- Whether a path starts with two slashes. -/
def startsWithSlashes : List Char → Bool
  | '/' :: '/' :: _ => true
  | _ => false

/-! ## The written form -/

/-- The characters that stand for themselves in a path. -/
def keptInPath (c : Char) : Bool := Text.isUnreserved c || c == '/'

/-- The characters that stand for themselves in a host. -/
def keptInHost (c : Char) : Bool := Text.isUnreserved c || c == '[' || c == ']' || c == ':'

/-- What stands before and after the last colon; nothing if there is no colon. -/
def atLastColon? (cs : List Char) : Option (List Char × List Char) :=
  match cs.reverse.dropWhile (· ≠ ':') with
  | [] => none
  | _ :: before => some (before.reverse, (cs.reverse.takeWhile (· ≠ ':')).reverse)

/-- A user and, after the last colon, a password. -/
def userChars (cs : List Char) : List Char :=
  match atLastColon? cs with
  | none => Text.percentEncode Text.isUnreserved cs
  | some (user, password) =>
    Text.percentEncode Text.isUnreserved user ++ ':' :: Text.percentEncode keptInHost password

/-- A host in lower case. Its end after the last colon is taken for a number and not encoded. -/
def hostChars (cs : List Char) : List Char :=
  let cs := Text.lower cs
  match atLastColon? cs with
  | none => Text.percentEncode keptInHost cs
  | some (host, number) => Text.percentEncode keptInHost host ++ ':' :: number

/-- What stands between the two slashes and the path: up to the first at sign a user. -/
def authorityChars (cs : List Char) : List Char :=
  match cs.dropWhile (· ≠ '@') with
  | [] => hostChars cs
  | _ :: host => userChars (cs.takeWhile (· ≠ '@')) ++ '@' :: hostChars host

/-- A path, percent-encoded. -/
def pathChars (path : List Char) : List Char :=
  Text.percentEncode keptInPath (lowerDrive path)

/-- The URI of a file path. Without a host, a path on it must not start with two slashes. -/
def write (path : String) : Except Fault String :=
  let (host, path) := hostAndPath path.toList
  let path := rooted path
  if host = [] ∧ startsWithSlashes path then .error .slashes
  else .ok (String.ofList ("file://".toList ++ authorityChars host ++ pathChars path))

/-! ## What is relied on -/

/-- What is relied on of a writer of file URIs: which paths it refuses, and how it writes those that
name no host. -/
structure Conforms (write : String → Except Fault String) : Prop where
  refuses : ∀ path e, write path = .error e ↔ e = .slashes ∧ "////".toList <+: path.toList
  writes : ∀ path, startsWithSlashes path.toList = false →
    write path = .ok (String.ofList ("file://".toList ++ pathChars (rooted path.toList)))

end BuildFeed.FileUri
