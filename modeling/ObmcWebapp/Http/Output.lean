import ObmcWebapp.Http.Date

/-!
# HTTP - What a response sends

The head of a response from its status, its content type and the buffer of its headers, the
output stream, and the headers that the router adds to every response it passes on.

Main results:

- Theorem {lit}`output_eq_render`: the output is the text of a message.
- Theorem {lit}`read_output`: a client reads back the status, the headers and the body of
  a response whose header names and values are clean.
-/

open Library Library.Calendar Library.HttpMessage Library.Numerals

namespace ObmcWebapp
namespace Http

/-! ## The output -/

/-- {lit}`endHeaderLine` -/
def endHeaderLine : Bytes := [0x0D, 0x0A]

/-- {lit}`headerBuffer` after the headers have been set in order. -/
def headerBuffer (response : Response) : Bytes :=
  response.headers.flatMap fun (name, value) => header name value ++ endHeaderLine

/-- {lit}`totalSize` -/
def totalSize (response : Response) : Nat :=
  response.body.length

/-- {lit}`getHead` -/
def getHead (response : Response) : Bytes :=
  headerStatus (code response.status) ++ endHeaderLine ++
    (header headers.contentType response.contentType ++ endHeaderLine) ++
      headerBuffer response ++ endHeaderLine

/-- {lit}`operator<<` -/
def output (response : Response) : Bytes :=
  getHead response ++ response.body

/-- {lit}`Router::setGeneralHeaders` -/
def setGeneralHeaders (localtime : Int → Tm) (time : Int) (response : Response) : Response :=
  (response.setHeader headers.contentLength (Redfish.decimal (totalSize response))).setHeader
    headers.date (getFormattedDate localtime headerDateFormat time)

/-- A header that is set adds its line to the buffer. -/
theorem headerBuffer_setHeader (response : Response) (name value : Bytes) :
    headerBuffer (response.setHeader name value) =
      headerBuffer response ++ (header name value ++ endHeaderLine) := by
  simp [headerBuffer, Response.setHeader]

/-! ## The message -/

/-- What a response says. -/
def message (response : Response) : Message where
  startLine := headerStatus (code response.status)
  fields := (headers.contentType, response.contentType) :: response.headers
  body := response.body

/-- No header can end its line early. -/
structure Sendable (response : Response) : Prop where
  contentType : OneLine response.contentType
  headers : ∀ field ∈ response.headers, Field.WellFormed field

/-- A field under a name that is fixed. -/
theorem named {name value : Bytes} (hname : IsName name)
    (hvalue : OneLine value) : Field.WellFormed (name, value) :=
  ⟨hname.1, hname.2, hvalue⟩

/-- What is put out is the message of the response. -/
theorem output_eq_render (response : Response) : output response = (message response).render := by
  have hfields : renderFields response.headers = headerBuffer response := by
    unfold renderFields headerBuffer
    congr 1
  have htype : renderFields (message response).fields =
      header headers.contentType response.contentType ++ endHeaderLine ++
        headerBuffer response := by
    rw [← hfields]
    rfl
  unfold output getHead Message.render
  rw [htype]
  simp [message, endHeaderLine, crlf]

namespace Sendable

variable {response : Response}

/-- The empty response can be sent. -/
theorem initial : Sendable {} where
  contentType := by decide
  headers := fun _ hmem => absurd hmem List.not_mem_nil

theorem setStatus (h : Sendable response) (status : StatusCode) :
    Sendable (response.setStatus status) :=
  ⟨h.contentType, h.headers⟩

theorem setContentType (h : Sendable response) {contentType : Bytes} (htype : OneLine contentType) :
    Sendable (response.setContentType contentType) :=
  ⟨htype, h.headers⟩

theorem push (h : Sendable response) (buffer : Bytes) : Sendable (response.push buffer) :=
  ⟨h.contentType, h.headers⟩

theorem setHeader (h : Sendable response) {name value : Bytes}
    (hfield : Field.WellFormed (name, value)) : Sendable (response.setHeader name value) where
  contentType := h.contentType
  headers := by
    intro field hmem
    rcases List.mem_append.mp hmem with hold | hnew
    · exact h.headers field hold
    · rw [List.mem_singleton.mp hnew]
      exact hfield

/-- Its message is well formed then. -/
theorem wellFormed (h : Sendable response) : (message response).WellFormed where
  startLine := headerStatus_oneLine _
  fields := by
    intro field hmem
    rcases List.mem_cons.mp hmem with rfl | hmem
    · exact named (by decide) h.contentType
    · exact h.headers field hmem

end Sendable

/-- A client reads the message of the response, and can read the output in no other way. -/
theorem read_output {response : Response} (h : Sendable response) :
    Message.read (output response) = some (message response) := by
  rw [output_eq_render]
  exact read_eq_some_iff.mpr ⟨h.wellFormed, rfl⟩

/-! ## The general headers -/

/-- A numeral is on one line. -/
theorem numeral_oneLine (width n : Nat) : OneLine (numeral width n) := by
  have hdigit : ∀ k : Fin 10, OneLine [digit k] := by decide
  induction width generalizing n with
  | zero => exact fun _ hmem => absurd hmem List.not_mem_nil
  | succ width ih => exact (ih (n / 10)).append (hdigit ⟨n % 10, Nat.mod_lt n (by decide)⟩)

/-- A name of a list is on one line. -/
theorem getD_oneLine {names : List Bytes} (hnames : ∀ name ∈ names, OneLine name) (index : Nat) :
    OneLine (names.getD index []) := by
  rcases Nat.lt_or_ge index names.length with hindex | hindex
  · rw [List.getD_eq_getElem names [] hindex]
    exact hnames _ (List.getElem_mem hindex)
  · rw [List.getD_eq_default names [] hindex]
    exact fun _ hmem => absurd hmem List.not_mem_nil

/-- One of two lines is a line. -/
theorem oneLine_ite {condition : Prop} [Decidable condition] {first second : Bytes}
    (hfirst : OneLine first) (hsecond : OneLine second) :
    OneLine (if condition then first else second) := by
  split
  · exact hfirst
  · exact hsecond

/-- A conversion of a date is on one line. -/
theorem conversion_oneLine (tm : Tm) {c : UInt8} (hc : OneLine [c]) :
    OneLine (conversion tm c) := by
  have hdays := @getD_oneLine dayNames (by decide) tm.tm_wday
  have hmonths := @getD_oneLine monthNames (by decide) tm.tm_mon
  have hdate : OneLine (Redfish.decimal (tm.tm_year + 1900) ++ bytes "-" ++
      numeral 2 (tm.tm_mon + 1) ++ bytes "-" ++ numeral 2 tm.tm_mday) :=
    ((((decimal_oneLine _).append (by decide)).append (numeral_oneLine _ _)).append
      (by decide)).append (numeral_oneLine _ _)
  have htime : OneLine (numeral 2 tm.tm_hour ++ bytes ":" ++ numeral 2 tm.tm_min ++ bytes ":" ++
      numeral 2 tm.tm_sec) :=
    ((((numeral_oneLine _ _).append (by decide)).append (numeral_oneLine _ _)).append
      (by decide)).append (numeral_oneLine _ _)
  have hsign : OneLine (if tm.tm_gmtoff < 0 then bytes "-" else bytes "+") :=
    oneLine_ite (by decide) (by decide)
  have hzone := (hsign.append (numeral_oneLine 2 (tm.tm_gmtoff.natAbs / 60 / 60))).append
    (numeral_oneLine 2 (tm.tm_gmtoff.natAbs / 60 % 60))
  have hother : OneLine [0x25, c] := oneLine_cons.mpr ⟨by decide, hc⟩
  have hnumeral := fun n => numeral_oneLine 2 n
  exact oneLine_ite hdays <| oneLine_ite hmonths <| oneLine_ite (hnumeral _) <|
    oneLine_ite (hnumeral _) <| oneLine_ite (hnumeral _) <| oneLine_ite (hnumeral _) <|
      oneLine_ite (hnumeral _) <| oneLine_ite (decimal_oneLine _) <| oneLine_ite hdate <|
        oneLine_ite htime <| oneLine_ite hzone hother

/-- Whatever the time, no line break comes into a format without one. -/
theorem putTime_oneLine (tm : Tm) {format : Bytes} (hformat : OneLine format) :
    OneLine (putTime tm format) := by
  fun_induction putTime tm format with
  | case1 c rest ih =>
      obtain ⟨-, hformat⟩ := oneLine_cons.mp hformat
      obtain ⟨hc, hrest⟩ := oneLine_cons.mp hformat
      refine (conversion_oneLine tm ?_).append (ih hrest)
      exact oneLine_cons.mpr ⟨hc, fun _ hmem => absurd hmem List.not_mem_nil⟩
  | case2 c rest _ ih =>
      obtain ⟨hc, hrest⟩ := oneLine_cons.mp hformat
      exact oneLine_cons.mpr ⟨hc, ih hrest⟩
  | case3 => exact hformat

/-- The general headers can be sent. -/
theorem Sendable.setGeneralHeaders {response : Response} (h : Sendable response)
    (localtime : Int → Tm) (time : Int) :
    Sendable (Http.setGeneralHeaders localtime time response) := by
  have hlength := h.setHeader (@named headers.contentLength _ (by decide)
    (decimal_oneLine (totalSize response)))
  exact hlength.setHeader (named (by decide) (putTime_oneLine _ (by decide)))

end Http
end ObmcWebapp
