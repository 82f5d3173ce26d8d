import ClusterJobs.Web.Address
import ClusterJobs.Web.Query

/-!
# Request targets

The target that a client asks a server for, made from what follows the host in an address. Here, other
than in the requests to clusters, characters are percent-encoded, and `.` and `..` are resolved.
-/

namespace ClusterJobs.Web

/-- A byte that is percent-encoded. -/
def percentByte (b : UInt8) : List Char :=
  ['%', hexDigit (b.toNat / 16), hexDigit (b.toNat % 16)]

/-- Percent-encodes controls, characters beyond ASCII, and those that satisfy `special`. -/
def percentEncode (special : Char → Bool) (cs : List Char) : List Char :=
  cs.flatMap fun c =>
    if c.toNat < 0x20 || c.toNat ≥ 0x7F || special c then
      (String.ofList [c]).toUTF8.data.toList.flatMap percentByte
    else [c]

/-- The character has to be encoded in a path. -/
def isSpecialInPath (c : Char) : Bool :=
  " \"#<>?`\x7b\x7d".toList.contains c

/-- The character has to be encoded in a query. -/
def isSpecialInQuery (c : Char) : Bool :=
  " \"#<>'".toList.contains c

/-- The segment names the directory that it stands in. -/
def isHere (segment : List Char) : Bool :=
  let low := segment.map Char.toLower
  low == ".".toList || low == "%2e".toList

/-- The segment names the directory above. -/
def isAbove (segment : List Char) : Bool :=
  let low := segment.map Char.toLower
  [".." , ".%2e", "%2e.", "%2e%2e"].any fun s => low == s.toList

/-- Resolves the segments of a path; `done` holds those before, the last one first. A path that ends
in a directory keeps its last slash. -/
def resolveSegments : List (List Char) → List (List Char) → List (List Char)
  | done, [] => done.reverse
  | done, [last] =>
    if isHere last then ([] :: done).reverse
    else if isAbove last then ([] :: done.tail).reverse
    else (last :: done).reverse
  | done, segment :: rest =>
    if isHere segment then resolveSegments done rest
    else if isAbove segment then resolveSegments done.tail rest
    else resolveSegments (segment :: done) rest

/-- The path of a target, from a path with its first slash. -/
def resolvePath (path : List Char) : List Char :=
  let slashed := path.map fun c => if c == '\\' then '/' else c
  let segments := (Text.splitOnChar (· == '/') slashed).tail
  (resolveSegments [] segments).flatMap fun s => '/' :: percentEncode isSpecialInPath s

/-- The target made from what follows the host; nothing if it continues the host. -/
def requestTarget? (rest : String) : Option String :=
  let cs := (rest.toList.reverse.dropWhile fun c => c.toNat ≤ 0x20).reverse.filter fun c =>
    c != '\t' && c != '\n' && c != '\r'
  let path := cs.takeWhile fun c => !endsPath c
  let query := match cs.dropWhile fun c => !endsPath c with
    | '?' :: q => '?' :: percentEncode isSpecialInQuery (q.takeWhile (· != '#'))
    | _ => []
  match path with
  | [] => some (String.ofList ('/' :: query))
  | c :: _ =>
    if c == '/' || c == '\\' then some (String.ofList (resolvePath path ++ query)) else none

end ClusterJobs.Web
