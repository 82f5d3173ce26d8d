import ClusterJobs.Cluster.Call
import ClusterJobs.Settings
import ClusterJobs.Text.Blank

/-!
# Posting results

The results of a fan-out are posted to the address that the settings name. Without an address they are
only written down.
-/

namespace ClusterJobs

open Json (Value)

/-- What is posted. -/
structure Posting where
  address : String
  contentType : String
  /-- The value of the header `token`. -/
  token : Option String
  body : Value

namespace Callback

/-- The address, if it is not blank. -/
def address? (c : Callback) : Option String :=
  c.address.filter fun a => !Text.isBlankText a

/-- What is posted for some results. -/
def posting? (c : Callback) (results : List ItemResult) : Option Posting :=
  c.address?.map fun a => ⟨a, "application/json", c.token, .arr (results.map ItemResult.toJson)⟩

end Callback

/-! ## Replies -/

/-- The usual words for the codes of a reply. -/
def statusWords : List (Nat × String) := [
  (100, "Continue"), (101, "Switching Protocols"), (102, "Processing"),
  (200, "OK"), (201, "Created"), (202, "Accepted"), (203, "Non Authoritative Information"),
  (204, "No Content"), (205, "Reset Content"), (206, "Partial Content"), (207, "Multi-Status"),
  (208, "Already Reported"), (226, "IM Used"),
  (300, "Multiple Choices"), (301, "Moved Permanently"), (302, "Found"), (303, "See Other"),
  (304, "Not Modified"), (305, "Use Proxy"), (307, "Temporary Redirect"),
  (308, "Permanent Redirect"),
  (400, "Bad Request"), (401, "Unauthorized"), (402, "Payment Required"), (403, "Forbidden"),
  (404, "Not Found"), (405, "Method Not Allowed"), (406, "Not Acceptable"),
  (407, "Proxy Authentication Required"), (408, "Request Timeout"), (409, "Conflict"),
  (410, "Gone"), (411, "Length Required"), (412, "Precondition Failed"),
  (413, "Payload Too Large"), (414, "URI Too Long"), (415, "Unsupported Media Type"),
  (416, "Range Not Satisfiable"), (417, "Expectation Failed"), (418, "I'm a teapot"),
  (421, "Misdirected Request"), (422, "Unprocessable Entity"), (423, "Locked"),
  (424, "Failed Dependency"), (425, "Too Early"), (426, "Upgrade Required"),
  (428, "Precondition Required"),
  (429, "Too Many Requests"), (431, "Request Header Fields Too Large"),
  (451, "Unavailable For Legal Reasons"),
  (500, "Internal Server Error"), (501, "Not Implemented"), (502, "Bad Gateway"),
  (503, "Service Unavailable"), (504, "Gateway Timeout"), (505, "HTTP Version Not Supported"),
  (506, "Variant Also Negotiates"), (507, "Insufficient Storage"), (508, "Loop Detected"),
  (510, "Not Extended"), (511, "Network Authentication Required")]

/-- A code with its words. -/
def statusText (code : Nat) : String :=
  toString code ++ " " ++ (statusWords.lookup code).getD "<unknown status code>"

namespace Posting

/-- The character may stand in the value of a header. -/
def isHeaderChar (c : Char) : Bool :=
  (c.toNat ≥ 0x20 && c.toNat != 0x7F) || c == '\t'

/-- The token may be sent. -/
def isSendable (p : Posting) : Bool :=
  (p.token.getD "").toList.all isHeaderChar

/-- The fault of a posting that cannot be made into a request. -/
def malformed : JobFault := .callback "builder error"

/-- The fault of a posting whose server does not answer. -/
def unanswered (p : Posting) : JobFault :=
  .callback ("error sending request for url (" ++ p.address ++ ")")

/-- The result of a posting that was answered with a code. -/
def conclude (p : Posting) (code : Nat) : Except JobFault Unit :=
  if 200 ≤ code && code < 300 then .ok ()
  else .error (.callback (p.address ++ " answered " ++ statusText code))

end Posting

end ClusterJobs
