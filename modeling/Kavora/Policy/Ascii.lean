import Kavora.Policy.Engine

/-!
# The libraries on ASCII text

`Externals.ascii` is what the linked libraries compute on ASCII inputs, for the JSON documents of a
table and one request: the email expression

`(?i)\b[a-z0-9.!#$%&'*+/=?^_{|}~-]+@[a-z0-9-]+(?:\.[a-z0-9-]+)+\b` (and the grave accent)

as a matcher on characters, lower case letter by letter, and the documents and the digest as given.
-/

namespace Kavora.Policy

open Lib

namespace Email

/-- `\w` on ASCII. -/
def isWord (c : Char) : Bool := c.isAlphanum || c == '_'

/-- A character of a label of a domain. -/
def isDomain (c : Char) : Bool := c.isAlphanum || c == '-'

/-- A character of a local part. -/
def isLocal (c : Char) : Bool :=
  c.isAlphanum || ".!#$%&'*+/=?^_\x60\x7b|\x7d~-".toList.contains c

/-- `\b` between two characters, or at an end of the text. -/
def boundary (before after : Option Char) : Bool :=
  (before.map isWord).getD false != (after.map isWord).getD false

/-- `[a-z0-9-]+(?:\.[a-z0-9-]+)+\b` with the characters of the current label up to `last` read;
`dot` after the first dot. -/
def matchDomain (dot : Bool) (last : Option Char) : List Char → Bool
  | [] => dot && last.isSome && boundary last none
  | c :: l =>
    dot && last.isSome && boundary last (some c) ||
      if isDomain c then matchDomain dot (some c) l
      else c == '.' && last.isSome && matchDomain true none l

/-- The rest of an address after the first character of its local part. -/
def matchLocal : List Char → Bool
  | [] => false
  | c :: l => c == '@' && matchDomain false none l || isLocal c && matchLocal l

/-- The email expression at some position of the text after `before`. -/
def matchFrom (before : Option Char) : List Char → Bool
  | [] => false
  | c :: l => boundary before (some c) && isLocal c && matchLocal l || matchFrom (some c) l

end Email

/-- The libraries on ASCII inputs: the JSON documents of a table, one canonical request and its
digest. -/
def Externals.ascii (documents : List (String × Value)) (canonical : String) (digest : Bytes) :
    Externals where
  fromSlice data := (documents.find? fun document => utf8 document.1 == data).map (·.2)
  emailIsMatch text := Email.matchFrom none text.toList
  toLowercase text := .ofList (text.toList.map Char.toLower)
  toVec _ := utf8 canonical
  sha256 _ := digest

namespace Sample

/-- A chat request whose only message is `hi`, on the wire. -/
def request : ModelRequest Bytes where
  model := "m"
  messages := [{ role := "user", contentJson := utf8 "\"hi\"", name := none }]
  toolsJson := utf8 "[]"
  generationParametersJson := utf8 "\x7b\x7d"

def context : RequestContext where
  requestId := "r"
  tenantId := "t"
  policyVersion := "policy-v1"
  failMode := .closed
  deadlineUnixMillis := 0
  maxRequestBytes := 1024
  maxResponseBytes := 4096
  tokenBudget := 4

/-- The libraries on `request` and on the JSON documents of `events`. -/
def libFor (events : List (String × Value)) : Externals :=
  .ascii ([("\"hi\"", .string "hi"), ("[]", .array []), ("\x7b\x7d", .object [])] ++ events)
    ("\x7b\"model\":\"m\",\"messages\":[\x7b\"role\":\"user\",\"content\":\"hi\",\"name\":null\x7d]," ++
      "\"tools\":[],\"generation_parameters\":\x7b\x7d\x7d")
    [199, 106, 235, 213, 98, 7, 180, 49, 132, 80, 152, 66, 235, 207, 95, 174,
      192, 71, 68, 12, 105, 74, 23, 38, 52, 186, 187, 118, 239, 25, 186, 207]

def lib : Externals := libFor []

end Sample

end Kavora.Policy
