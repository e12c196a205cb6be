import ObmcWebapp.Core
import ObmcWebapp.Redfish.Dump

/-!
# Redfish - Responses and their error messages

{lit}`RedfishResponse` with its payload, the messages that the router and the nodes
report, and {lit}`flash`, which serialises the payload when the context of a request
is destroyed.

Main results:

- Theorem {lit}`RedfishResponse.flash_isOk_iff`: when a payload can be serialised.
- Theorems {lit}`RedfishResponse.Clean.add`, {lit}`RedfishResponse.Clean.addError`,
  {lit}`RedfishResponse.Clean.propertyError`: what keeps a payload serialisable.
-/

open Library

namespace ObmcWebapp
namespace Redfish

/-- How a step ends that does not return. -/
inductive Failure
  | raised (exception : Exception)
  /-- {lit}`std::terminate` or a failed assertion of the JSON library. -/
  | terminated
  /-- A write past {lit}`stringBuffer`. -/
  | overrun
deriving DecidableEq

/-- {lit}`RedfishResponse` -/
structure RedfishResponse where
  response : Response := {}
  payload : Json := .object []
  prettyOutput : Bool

namespace RedfishResponse

/-- {lit}`setStatus` -/
def setStatus (r : RedfishResponse) (status : StatusCode) : RedfishResponse :=
  { r with response := r.response.setStatus status }

/-- The end of the key of an annotation. -/
def messageAnnotation : Bytes := bytes "@Message.ExtendedInfo"

/-- An array, or an empty one in the place of anything else. -/
def asArray : Option Json → Json
  | some (.array values) => .array values
  | _ => .array []

/-- What {lit}`addError` makes of the old value of the {lit}`error` field, before the
extended info; none where the message lacks a field. -/
def errorObject (old : Option Json) (message : Json) : Option Json :=
  match old with
  | some (.object members) =>
      some (((Json.object members).set (bytes "code") (.string (bytes "Base.1.8.1.GeneralError"))).set
        (bytes "message")
        (.string (bytes ("A general error has occurred. See Resolution for " ++
          "information on how to resolve the error."))))
  | _ => do
      let messageId ← message.member (bytes "MessageId")
      let text ← message.member (bytes "Message")
      some (Json.ofMembers [(bytes "code", messageId), (bytes "message", text)])

/-- {lit}`addError` -/
def addError (r : RedfishResponse) (message : Json) : RedfishResponse :=
  let old := r.payload.member (bytes "error")
  match errorObject old message with
  | none => { r with payload := r.payload.set (bytes "error") (old.getD .null) }
  | some error =>
      let extendedInfo := (asArray (error.member messageAnnotation)).pushBack message
      { r with payload := r.payload.set (bytes "error") (error.set messageAnnotation extendedInfo) }

/-- {lit}`propertyError` -/
def propertyError (r : RedfishResponse) (property : Bytes) (message : Json) : RedfishResponse :=
  let extendedInfo := property ++ messageAnnotation
  { r with
    payload := r.payload.set extendedInfo
      ((asArray (r.payload.member extendedInfo)).pushBack message) }

/-- {lit}`add`; the log line at its start serialises the value, which throws first. -/
def add (r : RedfishResponse) (key : Bytes) (json : Json) : Except Failure RedfishResponse :=
  if json.utf8Valid then
    match json with
    | .array values =>
        match r.payload.member key with
        | some (.array old) =>
            .ok { r with payload := r.payload.set key (.array (old ++ values)) }
        | _ => .ok { r with payload := r.payload.set key (.array values) }
    | value => .ok { r with payload := r.payload.set key value }
  else
    .error (.raised .jsonTypeError)

/-! ## Serialisation -/

/-- The beginning of a page. -/
def htmlHead : Bytes :=
  bytes ("<html>\n<head>\n<title>Redfish API</title>\n" ++
    "<link href=\"/redfish.css\" rel=\"stylesheet\">\n</head>\n<body>\n" ++
    "<div class=\"container\">\n" ++
    "<img src=\"/DMTF_Redfish_logo_2017.svg\" alt=\"redfish\" height=\"406px\" " ++
    "width=\"576px\">\n<div class=\"content\">\n")

/-- The end of a page. -/
def htmlFooter : Bytes :=
  bytes "</div>\n</div>\n</body>\n</html>\n"

/-- {lit}`prettyPrintRedfish` -/
def prettyPrintRedfish (library : JsonLibrary) (r : RedfishResponse) :
    Except Failure RedfishResponse :=
  match dump library [] r.payload with
  | none => .error .overrun
  | some respData =>
      .ok { r with
        response := (((r.response.push htmlHead).push respData).push htmlFooter).setContentType
          (bytes "text/html; charset=UTF-8") }

/-- {lit}`flash` -/
def flash (library : JsonLibrary) (r : RedfishResponse) : Except Failure RedfishResponse :=
  let cleared := { r with response := r.response.clear }
  if r.prettyOutput then
    cleared.prettyPrintRedfish library
  else if r.payload.utf8Valid then
    .ok { cleared with response := cleared.response.push (library.dump r.payload) }
  else
    .error (.raised .jsonTypeError)

/-- {lit}`~RedfishContext` flashes its response; an exception does not leave it. -/
def destroyContext (library : JsonLibrary) (r : RedfishResponse) :
    Except Failure RedfishResponse :=
  match r.flash library with
  | .error (.raised _) => .error .terminated
  | result => result

end RedfishResponse

/-! ## Messages -/

namespace messages

/-- The parts that the messages have in common. -/
def message (messageId : Bytes) (text : Bytes) (messageArgs : List Bytes) (resolution : Bytes) :
    Json :=
  Json.ofMembers
    [(bytes "@odata.type", .string (bytes "#Message.v1_1_1.Message")),
      (bytes "MessageId", .string messageId),
      (bytes "Message", .string text),
      (bytes "MessageArgs", .array (messageArgs.map .string)),
      (bytes "MessageSeverity", .string (bytes "Critical")),
      (bytes "Resolution", .string resolution)]

/-- The text about a method that is not allowed. -/
def methodNotAllowedText (resource : Bytes) : Bytes :=
  bytes "The requested method is not allowed for the resource '" ++ resource ++ bytes "'"

/-- The text about a resource that is not there. -/
def uriNotFoundText (arg1 : Bytes) : Bytes :=
  bytes "The requested resource on the URL " ++ arg1 ++ bytes " was not found."

/-- The message about a method that is not allowed. -/
def methodNotAllowedMessage (resource : Bytes) : Json :=
  message (bytes "Base.1.8.1.MethodNotAllowed") (methodNotAllowedText resource) []
    (bytes "Resubmit the request.  If the problem persists, consider resetting the service.")

/-- The message about a resource that is not there. -/
def uriNotFoundMessage (arg1 : Bytes) : Json :=
  message (bytes "Base.1.8.1.ResourceNotFound") (uriNotFoundText arg1) [arg1]
    (bytes "Provide a valid resource URI and resubmit the request.")

/-- The message about an internal error. -/
def internalErrorMessage : Json :=
  message (bytes "Base.1.8.1.InternalError")
    (bytes "The request failed due to an internal service error.  The service is still operational.")
    [] (bytes "Resubmit the request.  If the problem persists, consider resetting the service.")

/-- {lit}`methodNotAllowed` -/
def methodNotAllowed (env : Environment) (r : RedfishResponse) : RedfishResponse :=
  (r.setStatus .methodNotAllowed).addError (methodNotAllowedMessage env.getUriPath)

/-- {lit}`uriNotFound` -/
def uriNotFound (env : Environment) (r : RedfishResponse) : RedfishResponse :=
  (r.setStatus .notFound).addError (uriNotFoundMessage env.getUriPath)

/-- {lit}`internalError` -/
def internalError (r : RedfishResponse) : RedfishResponse :=
  (r.setStatus .internalServerError).addError internalErrorMessage

/-- The overload for a property. -/
def internalErrorOf (property : Bytes) (r : RedfishResponse) : RedfishResponse :=
  (r.setStatus .internalServerError).propertyError property internalErrorMessage

end messages

/-! ## Payloads that can be serialised -/

namespace RedfishResponse

/-- The texts of a payload that decide whether {lit}`flash` returns. -/
def Presentable (pretty : Bool) (text : Bytes) : Prop :=
  if pretty then FitsBuffer text else Utf8.Valid text

/-- When a response is flushed. -/
theorem flash_isOk_iff (library : JsonLibrary) (r : RedfishResponse) :
    (∃ flashed, r.flash library = .ok flashed) ↔
      r.payload.AllTexts (Presentable r.prettyOutput) := by
  unfold flash
  cases hpretty : r.prettyOutput with
  | true =>
      have hpresentable : Presentable true = FitsBuffer := by
        funext text
        simp [Presentable]
      rw [hpresentable, ← dump_isSome_iff library r.payload []]
      simp only [if_true, prettyPrintRedfish]
      cases dump library [] r.payload with
      | none => simp
      | some respData => simp
  | false =>
      have hpresentable : Presentable false = Utf8.Valid := by
        funext text
        simp [Presentable]
      rw [hpresentable, ← Json.utf8Valid_iff]
      by_cases hvalid : r.payload.utf8Valid = true
      · simp [hvalid]
      · simp [hvalid]

/-- When a context is destroyed. -/
theorem destroyContext_isOk_iff (library : JsonLibrary) (r : RedfishResponse) :
    (∃ flashed, r.destroyContext library = .ok flashed) ↔
      r.payload.AllTexts (Presentable r.prettyOutput) := by
  rw [← flash_isOk_iff library r]
  unfold destroyContext
  cases r.flash library with
  | ok flashed => simp
  | error failure => cases failure <;> simp

/-- Every text of the payload is valid UTF-8, and the payload is an object. -/
structure Clean (r : RedfishResponse) : Prop where
  isObject : r.payload.isObject = true
  valid : r.payload.AllTexts Utf8.Valid

/-- A clean context is destroyed. -/
theorem Clean.destroyContext {r : RedfishResponse} (h : r.Clean) (library : JsonLibrary) :
    ∃ flashed, r.destroyContext library = .ok flashed := by
  apply (destroyContext_isOk_iff library r).mpr
  apply h.valid.mono
  intro text hvalid
  unfold Presentable
  split
  · exact fitsBuffer_of_valid hvalid
  · exact hvalid

/-- A new response is clean. -/
theorem clean_initial (pretty : Bool) : Clean { prettyOutput := pretty } where
  isObject := rfl
  valid := by simp [Json.AllTexts, Json.MembersTexts]

/-- A member with valid texts leaves it clean. -/
theorem Clean.setPayload {r : RedfishResponse} (h : r.Clean) {key : Bytes} {value : Json}
    (hkey : Utf8.Valid key) (hvalue : value.AllTexts Utf8.Valid) :
    Clean { r with payload := r.payload.set key value } where
  isObject := Json.isObject_set h.isObject key value
  valid := Json.allTexts_set h.valid hkey hvalue

/-- The status leaves it clean. -/
theorem Clean.setStatus {r : RedfishResponse} (h : r.Clean) (status : StatusCode) :
    (r.setStatus status).Clean :=
  ⟨h.isObject, h.valid⟩

/-- A member of a clean response has valid texts. -/
theorem Clean.member {r : RedfishResponse} (h : r.Clean) {key : Bytes} {value : Json}
    (hmember : r.payload.member key = some value) : value.AllTexts Utf8.Valid :=
  Json.allTexts_of_member h.valid hmember

/-- Adding leaves it clean. -/
theorem Clean.add {r added : RedfishResponse} (h : r.Clean) {key : Bytes} (hkey : Utf8.Valid key)
    {json : Json} (hadd : r.add key json = .ok added) : added.Clean := by
  unfold RedfishResponse.add at hadd
  split at hadd
  · next hvalid =>
      rw [Json.utf8Valid_iff] at hvalid
      split at hadd
      · next values =>
          split at hadd
          · next old hold =>
              cases hadd
              apply h.setPayload hkey
              apply Json.allTexts_array.mpr
              intro value hmem
              rcases List.mem_append.mp hmem with hold' | hnew
              · exact Json.allTexts_array.mp (h.member hold) value hold'
              · exact Json.allTexts_array.mp hvalid value hnew
          · cases hadd
            exact h.setPayload hkey hvalid
      · cases hadd
        exact h.setPayload hkey hvalid
  · cases hadd

/-- The texts of a list of messages. -/
private theorem allTexts_asArray_pushBack {old : Option Json} {message : Json}
    (hold : ∀ value, old = some value → value.AllTexts Utf8.Valid)
    (hmessage : message.AllTexts Utf8.Valid) :
    ((asArray old).pushBack message).AllTexts Utf8.Valid := by
  have harray : ∃ values, asArray old = .array values ∧
      ∀ value ∈ values, value.AllTexts Utf8.Valid := by
    unfold asArray
    split
    · next values => exact ⟨values, rfl, Json.allTexts_array.mp (hold _ rfl)⟩
    · exact ⟨[], rfl, by simp⟩
  obtain ⟨values, heq, hvalues⟩ := harray
  rw [heq]
  apply Json.allTexts_array.mpr
  intro value hmem
  rcases List.mem_append.mp hmem with hvalue | hnew
  · exact hvalues value hvalue
  · rw [List.mem_singleton.mp hnew]
    exact hmessage

/-- A report about a property leaves it clean. -/
theorem Clean.propertyError {r : RedfishResponse} (h : r.Clean) {property : Bytes}
    (hproperty : Utf8.Valid property) {message : Json} (hmessage : message.AllTexts Utf8.Valid) :
    (r.propertyError property message).Clean := by
  have hannotation : Utf8.Valid messageAnnotation := by decide
  apply h.setPayload (hproperty.append hannotation)
  apply allTexts_asArray_pushBack _ hmessage
  intro value hmember
  exact h.member hmember

/-- The texts of an error. -/
private theorem allTexts_errorObject {old : Option Json} {message error : Json}
    (hold : ∀ value, old = some value → value.AllTexts Utf8.Valid)
    (hmessage : message.AllTexts Utf8.Valid) (herror : errorObject old message = some error) :
    error.AllTexts Utf8.Valid := by
  have hcode : Utf8.Valid (bytes "code") := by decide
  have htext : Utf8.Valid (bytes "message") := by decide
  unfold errorObject at herror
  split at herror
  · next members =>
      cases herror
      apply Json.allTexts_set _ htext
      · rw [Json.AllTexts]
        decide
      · apply Json.allTexts_set (hold _ rfl) hcode
        rw [Json.AllTexts]
        decide
  · obtain ⟨messageId, hid, herror⟩ := Option.bind_eq_some_iff.mp herror
    obtain ⟨text, hmember, herror⟩ := Option.bind_eq_some_iff.mp herror
    cases herror
    have hempty : (Json.object []).AllTexts Utf8.Valid := by
      simp [Json.AllTexts, Json.MembersTexts]
    simp only [Json.ofMembers, List.foldl_cons, List.foldl_nil]
    apply Json.allTexts_set _ htext (Json.allTexts_of_member hmessage hmember)
    exact Json.allTexts_set hempty hcode (Json.allTexts_of_member hmessage hid)

/-- An error leaves it clean. -/
theorem Clean.addError {r : RedfishResponse} (h : r.Clean) {message : Json}
    (hmessage : message.AllTexts Utf8.Valid) : (r.addError message).Clean := by
  have hkey : Utf8.Valid (bytes "error") := by decide
  have hannotation : Utf8.Valid messageAnnotation := by decide
  have hold : ∀ value, r.payload.member (bytes "error") = some value →
      value.AllTexts Utf8.Valid := fun value hmember => h.member hmember
  unfold RedfishResponse.addError
  dsimp only
  split
  · apply h.setPayload hkey
    cases hmember : r.payload.member (bytes "error") with
    | none => simp [Json.AllTexts]
    | some value => exact hold value hmember
  · next error herror =>
      have hvalid := allTexts_errorObject hold hmessage herror
      apply h.setPayload hkey
      apply Json.allTexts_set hvalid hannotation
      apply allTexts_asArray_pushBack _ hmessage
      intro value hmember
      exact Json.allTexts_of_member hvalid hmember

end RedfishResponse

namespace messages

/-- The message has valid texts. -/
theorem internalErrorMessage_valid : internalErrorMessage.AllTexts Utf8.Valid :=
  (Json.utf8Valid_iff _).mp (by decide)

theorem internalError_clean {r : RedfishResponse} (h : r.Clean) : (internalError r).Clean :=
  (h.setStatus _).addError internalErrorMessage_valid

theorem internalErrorOf_clean {r : RedfishResponse} (h : r.Clean) {property : Bytes}
    (hproperty : Utf8.Valid property) : (internalErrorOf property r).Clean :=
  (h.setStatus _).propertyError hproperty internalErrorMessage_valid

/-- The payload of a response whose only content is one error. -/
theorem payload_addError (messageId text : Bytes) (messageArgs : List Bytes) (resolution : Bytes)
    (r : RedfishResponse) (hempty : r.payload = .object []) :
    (r.addError (message messageId text messageArgs resolution)).payload =
      .object [(bytes "error", .object
        [(RedfishResponse.messageAnnotation, .array
            [.object [(bytes "@odata.type", .string (bytes "#Message.v1_1_1.Message")),
              (bytes "Message", .string text),
              (bytes "MessageArgs", .array (messageArgs.map .string)),
              (bytes "MessageId", .string messageId),
              (bytes "MessageSeverity", .string (bytes "Critical")),
              (bytes "Resolution", .string resolution)]]),
          (bytes "code", .string messageId), (bytes "message", .string text)])] := by
  unfold RedfishResponse.addError
  rw [hempty]
  rfl

/-- Of an error's texts only its own text and arguments are not fixed. -/
theorem allTexts_addError_iff {p : Bytes → Prop} (hvalid : ∀ text, Utf8.Valid text → p text)
    {messageId text resolution : Bytes} {messageArgs : List Bytes} {r : RedfishResponse}
    (hempty : r.payload = .object []) (hid : Utf8.Valid messageId)
    (hresolution : Utf8.Valid resolution) :
    (r.addError (message messageId text messageArgs resolution)).payload.AllTexts p ↔
      p text ∧ ∀ arg ∈ messageArgs, p arg := by
  have hargs : Json.AllOfTexts p (messageArgs.map .string) ↔ ∀ arg ∈ messageArgs, p arg := by
    induction messageArgs with
    | nil => simp [Json.AllOfTexts]
    | cons arg rest ih => simp [Json.AllOfTexts, Json.AllTexts, ih]
  have hfixed : ∀ text ∈ [bytes "error", RedfishResponse.messageAnnotation, bytes "@odata.type",
      bytes "#Message.v1_1_1.Message", bytes "Message", bytes "MessageArgs", bytes "MessageId",
      bytes "MessageSeverity", bytes "Critical", bytes "Resolution", bytes "code",
      bytes "message"], p text := by
    intro text hmem
    apply hvalid
    revert text
    decide
  simp only [List.forall_mem_cons] at hfixed
  rw [payload_addError _ _ _ _ _ hempty]
  simp [Json.AllTexts, Json.MembersTexts, Json.AllOfTexts, hargs, hfixed, hvalid _ hid,
    hvalid _ hresolution, and_comm]

end messages
end Redfish
end ObmcWebapp
