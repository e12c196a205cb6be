import ObmcWebapp.Library.Utf8

/-!
# Requests, responses and the string helpers

The parts of an HTTP request that the program reads, the response it builds, and
the helpers both sides use: splitting at a delimiter, percent-encoding, the
base64 decoder around {lit}`EVP_DecodeBlock`, and the token comparison.
-/

open Library

namespace ObmcWebapp

/-! ## Requests -/

/-- The request methods; {lit}`other` stands for a method that the program has no
case for. -/
inductive RequestMethod
  | error
  | head
  | get
  | post
  | put
  | delete
  | trace
  | options
  | connect
  | other (code : Nat)
deriving DecidableEq

/-- The request environment; {lit}`others` and {lit}`cookies` map names to values. -/
structure Environment where
  pathInfo : List Bytes := []
  requestMethod : RequestMethod := .get
  others : List (Bytes × Bytes) := []
  cookies : List (Bytes × Bytes) := []
  authorization : Bytes := []
  userAgent : Bytes := []
  acceptContentTypes : Bytes := []
  remoteAddress : Bytes := []
deriving DecidableEq

namespace Environment

/-- {lit}`Request::getUriPath`: a slash, then every segment with a slash after it. -/
def getUriPath (env : Environment) : Bytes :=
  bytes "/" ++ env.pathInfo.flatMap fun segment => segment ++ bytes "/"

/-- {lit}`getClientIp` -/
def getClientIp (env : Environment) : Bytes :=
  env.remoteAddress

end Environment

/-! ## Helpers -/

/-- {lit}`splitToVector`: an empty text gives one empty part. -/
def splitToVector (text : Bytes) (delimiter : UInt8) : List Bytes :=
  text.splitOn delimiter

/-- A text has one part more than separators. -/
theorem length_splitOn (text : Bytes) (c : UInt8) :
    (text.splitOn c).length = text.count c + 1 := by
  induction text with
  | nil => rfl
  | cons first rest ih =>
      rw [List.splitOn_cons_eq_if_modifyHead, List.count_cons]
      split
      · simp [ih]
      · simp [ih]

/-- Texts of different size differ; otherwise all bytes are compared. -/
def constantTimeStringCompare (a b : Bytes) : Bool :=
  if a.length ≠ b.length then false else a = b

/-- The comparison finds out whether the texts are equal. -/
theorem constantTimeStringCompare_iff {a b : Bytes} :
    constantTimeStringCompare a b = true ↔ a = b := by
  unfold constantTimeStringCompare
  split
  · next hlength =>
      constructor
      · intro h
        exact absurd h (by simp)
      · rintro rfl
        exact absurd rfl hlength
  · simp

/-- The test of {lit}`isalnum` in the C locale. -/
def isAlnum (c : UInt8) : Bool :=
  (0x30 ≤ c && c ≤ 0x39) || (0x41 ≤ c && c ≤ 0x5A) || (0x61 ≤ c && c ≤ 0x7A)

/-- A digit of an upper-case hexadecimal number. -/
def upperHexDigit (n : Nat) : UInt8 :=
  if n < 10 then UInt8.ofNat (0x30 + n) else UInt8.ofNat (0x37 + n)

/-- A byte as it stands in a URL. -/
def urlEncodeByte (c : UInt8) : Bytes :=
  if isAlnum c || c = 0x2D || c = 0x5F || c = 0x2E || c = 0x7E then
    [c]
  else
    [0x25, upperHexDigit (c.toNat / 16), upperHexDigit (c.toNat % 16)]

/-- {lit}`urlEncode` -/
def urlEncode (value : Bytes) : Bytes :=
  value.flatMap urlEncodeByte

/-- What {lit}`EVP_DecodeBlock` returns and writes for an input. -/
structure DecodedBlock where
  outputLen : Int
  output : Bytes

/-- {lit}`base64Decode` around a given decoder, none where it throws.  The result
is read from the zero-filled buffer as a C string. -/
def base64Decode (evpDecodeBlock : Bytes → DecodedBlock) (input : Bytes) : Option Bytes :=
  let predictedLen := 3 * input.length / 4
  let block := evpDecodeBlock input
  if (predictedLen : Int) ≠ block.outputLen % 2 ^ 64 then
    none
  else
    some (block.output.takeWhile (· ≠ 0))

/-! ## The accepted content types -/

/-- The first of the two known types decides. -/
def firstIsHtml : List Bytes → Bool
  | [] => false
  | encoding :: rest =>
      if encoding = bytes "text/html" then true
      else if encoding = bytes "application/json" then false
      else firstIsHtml rest

/-- {lit}`Request::isBrowserRequest` -/
def Environment.isBrowserRequest (env : Environment) : Bool :=
  firstIsHtml (splitToVector env.acceptContentTypes 0x2C)

/-! ## Exceptions -/

/-- The kinds of exceptions that the program's handlers tell apart. -/
inductive Exception
  /-- {lit}`std::runtime_error`, and its descendants that are not listed on their own. -/
  | runtimeError
  | entityException
  | gqlException
  /-- {lit}`sdbusplus::exception::SdBusError`, a {lit}`std::system_error`. -/
  | sdBusError
  /-- {lit}`std::logic_error`, {lit}`std::invalid_argument` among others. -/
  | logicError
  /-- {lit}`std::out_of_range`, a {lit}`std::logic_error`. -/
  | outOfRange
  | badVariantAccess
  /-- {lit}`type_error` of the JSON library, no descendant of the standard ones. -/
  | jsonTypeError
  /-- {lit}`out_of_range` of the JSON library, no {lit}`std::out_of_range`. -/
  | jsonOutOfRange
  /-- Any other {lit}`std::exception`. -/
  | other
deriving DecidableEq

/-- The exceptions that {lit}`catch (std::runtime_error&)` takes. -/
def Exception.isRuntimeError : Exception → Bool
  | .runtimeError | .entityException | .gqlException | .sdBusError => true
  | _ => false

/-! ## Responses -/

/-- The codes that the program sets. -/
inductive StatusCode
  | ok
  | temporaryRedirect
  | badRequest
  | unauthorized
  | notFound
  | methodNotAllowed
  | internalServerError
deriving DecidableEq

/-- A response; a new one is {lit}`NotFound` and plain text. -/
structure Response where
  status : StatusCode := .notFound
  contentType : Bytes := bytes "text/plain; charset=UTF-8"
  headers : List (Bytes × Bytes) := []
  body : Bytes := []
deriving DecidableEq

namespace Response

/-- {lit}`setStatus` -/
def setStatus (response : Response) (status : StatusCode) : Response :=
  { response with status }

/-- {lit}`setContentType` -/
def setContentType (response : Response) (contentType : Bytes) : Response :=
  { response with contentType }

/-- The type leaves the status. -/
@[simp] theorem status_setContentType (response : Response) (contentType : Bytes) :
    (response.setContentType contentType).status = response.status := rfl

/-- {lit}`setHeader` -/
def setHeader (response : Response) (name value : Bytes) : Response :=
  { response with headers := response.headers ++ [(name, value)] }

/-- {lit}`push` -/
def push (response : Response) (buffer : Bytes) : Response :=
  { response with body := response.body ++ buffer }

/-- The body leaves the status. -/
@[simp] theorem status_push (response : Response) (buffer : Bytes) :
    (response.push buffer).status = response.status := rfl

/-- {lit}`clear` -/
def clear (response : Response) : Response :=
  { response with body := [] }

/-- Clearing leaves the status. -/
@[simp] theorem status_clear (response : Response) : response.clear.status = response.status := rfl

end Response
end ObmcWebapp
