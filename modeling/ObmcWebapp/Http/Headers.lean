import ObmcWebapp.Core
import ObmcWebapp.Library.HttpMessage
import ObmcWebapp.Redfish.DumpInteger

/-!
# HTTP - Status codes and header lines

The codes with their numbers and phrases, the names of the headers that the program sets,
and the texts of a header line and of the status line.

Main results:

- Theorem {lit}`read_headerStatus`: the number and the phrase of every code are read back
  from its status line.
-/

open Library

namespace ObmcWebapp
namespace Http

/-! ## Status codes -/

/-- {lit}`statuses::Code` -/
inductive Code
  | continue'
  | switchingProtocols
  | processing
  | earlyHints
  | ok
  | created
  | accepted
  | nonAuthoritativeInformation
  | noContent
  | resetContent
  | partialContent
  | multiStatus
  | alreadyReported
  | imUsed
  | multipleChoices
  | movedPermanently
  | found
  | seeOther
  | notModified
  | useProxy
  | temporaryRedirect
  | permanentRedirect
  | badRequest
  | unauthorized
  | paymentRequired
  | forbidden
  | notFound
  | methodNotAllowed
  | notAcceptable
  | proxyAuthenticationRequired
  | requestTimeout
  | conflict
  | gone
  | lengthRequired
  | preconditionFailed
  | payloadTooLarge
  | uriTooLong
  | unsupportedMediaType
  | rangeNotSatisfiable
  | expectationFailed
  | imATeapot
  | unprocessableEntity
  | locked
  | failedDependency
  | upgradeRequired
  | preconditionRequired
  | tooManyRequests
  | requestHeaderFieldsTooLarge
  | unavailableForLegalReasons
  | internalServerError
  | notImplemented
  | badGateway
  | serviceUnavailable
  | gatewayTimeout
  | httpVersionNotSupported
  | variantAlsoNegotiates
  | insufficientStorage
  | loopDetected
  | notExtended
  | networkAuthenticationRequired
deriving DecidableEq

namespace Code

/-- The number of a code. -/
def toInt : Code → Nat
  | .continue' => 100
  | .switchingProtocols => 101
  | .processing => 102
  | .earlyHints => 103
  | .ok => 200
  | .created => 201
  | .accepted => 202
  | .nonAuthoritativeInformation => 203
  | .noContent => 204
  | .resetContent => 205
  | .partialContent => 206
  | .multiStatus => 207
  | .alreadyReported => 208
  | .imUsed => 226
  | .multipleChoices => 300
  | .movedPermanently => 301
  | .found => 302
  | .seeOther => 303
  | .notModified => 304
  | .useProxy => 305
  | .temporaryRedirect => 307
  | .permanentRedirect => 308
  | .badRequest => 400
  | .unauthorized => 401
  | .paymentRequired => 402
  | .forbidden => 403
  | .notFound => 404
  | .methodNotAllowed => 405
  | .notAcceptable => 406
  | .proxyAuthenticationRequired => 407
  | .requestTimeout => 408
  | .conflict => 409
  | .gone => 410
  | .lengthRequired => 411
  | .preconditionFailed => 412
  | .payloadTooLarge => 413
  | .uriTooLong => 414
  | .unsupportedMediaType => 415
  | .rangeNotSatisfiable => 416
  | .expectationFailed => 417
  | .imATeapot => 418
  | .unprocessableEntity => 422
  | .locked => 423
  | .failedDependency => 424
  | .upgradeRequired => 426
  | .preconditionRequired => 428
  | .tooManyRequests => 429
  | .requestHeaderFieldsTooLarge => 431
  | .unavailableForLegalReasons => 451
  | .internalServerError => 500
  | .notImplemented => 501
  | .badGateway => 502
  | .serviceUnavailable => 503
  | .gatewayTimeout => 504
  | .httpVersionNotSupported => 505
  | .variantAlsoNegotiates => 506
  | .insufficientStorage => 507
  | .loopDetected => 508
  | .notExtended => 510
  | .networkAuthenticationRequired => 511

/-- {lit}`reasonPhraseDict`, an entry for every code. -/
def reasonPhrase : Code → Bytes
  | .continue' => bytes "Continue"
  | .switchingProtocols => bytes "Switching Protocols"
  | .processing => bytes "Processing"
  | .earlyHints => bytes "Early Hints"
  | .ok => bytes "OK"
  | .created => bytes "Created"
  | .accepted => bytes "Accepted"
  | .nonAuthoritativeInformation => bytes "Non-Authoritative Information"
  | .noContent => bytes "No Content"
  | .resetContent => bytes "Reset Content"
  | .partialContent => bytes "Partial Content"
  | .multiStatus => bytes "Multi-Status"
  | .alreadyReported => bytes "Already Reported"
  | .imUsed => bytes "IM Used"
  | .multipleChoices => bytes "Multiple Choices"
  | .movedPermanently => bytes "Moved Permanently"
  | .found => bytes "Found"
  | .seeOther => bytes "See Other"
  | .notModified => bytes "Not Modified"
  | .useProxy => bytes "Use Proxy"
  | .temporaryRedirect => bytes "Temporary Redirect"
  | .permanentRedirect => bytes "Permanent Redirect"
  | .badRequest => bytes "Bad Request"
  | .unauthorized => bytes "Unauthorized"
  | .paymentRequired => bytes "Payment Required"
  | .forbidden => bytes "Forbidden"
  | .notFound => bytes "Not Found"
  | .methodNotAllowed => bytes "Method Not Allowed"
  | .notAcceptable => bytes "Not Acceptable"
  | .proxyAuthenticationRequired => bytes "Proxy Authentication Required"
  | .requestTimeout => bytes "Request Timeout"
  | .conflict => bytes "Conflict"
  | .gone => bytes "Gone"
  | .lengthRequired => bytes "Length Required"
  | .preconditionFailed => bytes "Precondition Failed"
  | .payloadTooLarge => bytes "Payload Too Large"
  | .uriTooLong => bytes "URI Too Long"
  | .unsupportedMediaType => bytes "Unsupported Media Type"
  | .rangeNotSatisfiable => bytes "Range Not Satisfiable"
  | .expectationFailed => bytes "Expectation Failed"
  | .imATeapot => bytes "I'm a teapot"
  | .unprocessableEntity => bytes "Unprocessable Entity"
  | .locked => bytes "Locked"
  | .failedDependency => bytes "Failed Dependency"
  | .upgradeRequired => bytes "Upgrade Required"
  | .preconditionRequired => bytes "Precondition Required"
  | .tooManyRequests => bytes "Too Many Requests"
  | .requestHeaderFieldsTooLarge => bytes "Request Header Fields Too Large"
  | .unavailableForLegalReasons => bytes "Unavailable For Legal Reasons"
  | .internalServerError => bytes "Internal Server Error"
  | .notImplemented => bytes "Not Implemented"
  | .badGateway => bytes "Bad Gateway"
  | .serviceUnavailable => bytes "Service Unavailable"
  | .gatewayTimeout => bytes "Gateway Time-out"
  | .httpVersionNotSupported => bytes "HTTP Version Not Supported"
  | .variantAlsoNegotiates => bytes "Variant Also Negotiates"
  | .insufficientStorage => bytes "Insufficient Storage"
  | .loopDetected => bytes "Loop Detected"
  | .notExtended => bytes "Not Extended"
  | .networkAuthenticationRequired => bytes "Network Authentication Required"

end Code

/-- The codes of the responses that the program builds. -/
def code : StatusCode → Code
  | .ok => .ok
  | .temporaryRedirect => .temporaryRedirect
  | .badRequest => .badRequest
  | .unauthorized => .unauthorized
  | .notFound => .notFound
  | .methodNotAllowed => .methodNotAllowed
  | .internalServerError => .internalServerError

/-! ## Header lines -/

namespace headers

/-- The version in the status line. -/
def http : Bytes := bytes "HTTP/1.1"
/-- The name of the header with the type of the body. -/
def contentType : Bytes := bytes "Content-Type"
/-- The name of the header with the length of the body. -/
def contentLength : Bytes := bytes "Content-Length"
/-- The name of the header with the time of the reply. -/
def date : Bytes := bytes "Date"
/-- The name of the header with the place of a redirection. -/
def location : Bytes := bytes "Location"
/-- The name of the header that asks for credentials. -/
def wwwAuthenticate : Bytes := bytes "WWW-Authenticate"

end headers

namespace content_types

/-- The type of JSON. -/
def applicationJson : Bytes := bytes "application/json; charset=UTF-8"
/-- The type of plain text. -/
def textPlain : Bytes := bytes "text/plain; charset=UTF-8"
/-- The type of HTML. -/
def textHtml : Bytes := bytes "text/html; charset=UTF-8"

end content_types

/-- A header without the end of its line. -/
def header (name value : Bytes) : Bytes :=
  name ++ bytes ": " ++ value

/-- The status line without its end. -/
def headerStatus (code : Code) : Bytes :=
  headers.http ++ bytes " " ++ Redfish.decimal code.toInt ++ bytes " " ++ code.reasonPhrase

/-! ## Reading them back -/

/-- A digit is read as its number. -/
theorem digitValue_digit {n : Nat} (h : n < 10) :
    Numerals.digitValue (Redfish.digit n) = some n :=
  Numerals.digitValue_digit h

/-- Induction on the number, its last digit first. -/
theorem readNumber_decimal (n : Nat) :
    Numerals.readNumber (Redfish.decimal n) = some n := by
  induction n using Nat.strong_induction_on with
  | _ n ih =>
      by_cases hless : n < 10
      · rw [Redfish.decimal_of_lt hless]
        have hread : Numerals.readNumber ([] ++ [Redfish.digit n]) = some (10 * 0 + n) :=
          Numerals.readNumber_append_digit rfl (digitValue_digit hless)
        simpa using hread
      · rw [Redfish.decimal_of_le (by omega),
          Numerals.readNumber_append_digit (ih (n / 10) (by omega))
            (digitValue_digit (Nat.mod_lt n (by omega)))]
        congr 1
        omega

/-- The digits of a number are on one line. -/
theorem decimal_oneLine (n : Nat) : HttpMessage.OneLine (Redfish.decimal n) := by
  have hdigit : ∀ k : Fin 10, HttpMessage.OneLine [Redfish.digit k] := by decide
  induction n using Nat.strong_induction_on with
  | _ n ih =>
      by_cases hless : n < 10
      · rw [Redfish.decimal_of_lt hless]
        exact hdigit ⟨n, hless⟩
      · rw [Redfish.decimal_of_le (by omega)]
        exact (ih (n / 10) (by omega)).append (hdigit ⟨n % 10, Nat.mod_lt n (by omega)⟩)

/-- The text of a code is on one line. -/
theorem reasonPhrase_oneLine (code : Code) : HttpMessage.OneLine code.reasonPhrase := by
  cases code <;> decide

/-- The status line is one line. -/
theorem headerStatus_oneLine (code : Code) : HttpMessage.OneLine (headerStatus code) := by
  unfold headerStatus
  refine (HttpMessage.OneLine.append ?_ (by decide)).append (reasonPhrase_oneLine code)
  exact HttpMessage.OneLine.append (by decide) (decimal_oneLine _)

/-- Every code has three digits. -/
theorem toInt_threeDigits (code : Code) : 100 ≤ code.toInt ∧ code.toInt < 1000 := by
  cases code <;> decide

/-- The number has three digits, so the reader finds the phrase after them. -/
theorem read_headerStatus (code : Code) :
    HttpMessage.StatusLine.read (headerStatus code) =
      some { version := headers.http, code := code.toInt, phrase := code.reasonPhrase } := by
  obtain ⟨hlow, hhigh⟩ := toInt_threeDigits code
  have hline : headerStatus code = headers.http ++ 0x20 ::
      Redfish.digit (code.toInt / 100) :: Redfish.digit (code.toInt % 100 / 10) ::
        Redfish.digit (code.toInt % 100 % 10) :: 0x20 :: code.reasonPhrase := by
    unfold headerStatus
    rw [Redfish.decimal_of_hundred_le hlow,
      Redfish.decimal_of_lt (n := code.toInt / 100) (by omega)]
    rfl
  rw [hline, HttpMessage.StatusLine.read_text (by decide)
    (digitValue_digit (n := code.toInt / 100) (by omega))
    (digitValue_digit (n := code.toInt % 100 / 10) (by omega))
    (digitValue_digit (n := code.toInt % 100 % 10) (by omega))]
  congr 2
  omega

end Http
end ObmcWebapp
