import ObmcWebapp.Json
import ObmcWebapp.Redfish.DumpEscaped

/-!
# Redfish - The HTML page of a payload

{lit}`dump` renders a JSON value as HTML and passes every key and every string
through {lit}`dumpEscaped`, each with a buffer of its own.

Main results:

- Theorem {lit}`dump_isSome_iff`: no buffer is overrun exactly when every text of
  the value fits.
- Theorem {lit}`dump_of_utf8Valid`: values that the JSON library accepts are
  rendered.
-/

open Library

namespace ObmcWebapp
namespace Redfish

/-- What {lit}`nlohmann::json` does on its own: the text of {lit}`dump(2)`, the
shortest text of a float, and the order of values. -/
structure JsonLibrary where
  dump : Json → Bytes
  toChars : UInt64 → Bytes
  less : Json → Json → Bool

/-- {lit}`std::isfinite` on the bits of a double. -/
def isFinite (bits : UInt64) : Bool :=
  (bits >>> 52) &&& 0x7FF != 0x7FF

/-- A number is dumped as the library writes it. -/
def dumpfloat (library : JsonLibrary) (bits : UInt64) : Bytes :=
  if isFinite bits then library.toChars bits else bytes "null"

/-- The members whose texts become links. -/
def linkFields : List Bytes :=
  [bytes "@odata.id", bytes "@odata.context", bytes "Members@odata.nextLink", bytes "Uri"]

/-- A string member with the name of a link is opened as one. -/
def openLink (key : Bytes) (value : Json) (out : Bytes) : Option Bytes :=
  match value.getString with
  | none => some out
  | some text =>
      if key ∈ linkFields then
        (dumpEscaped (out ++ bytes "<a href=\"") text).map (· ++ bytes "\">")
      else
        some out

/-- The value is the address of a link. -/
def inATag (key : Bytes) (value : Json) : Bool :=
  key ∈ linkFields && value.getString.isSome

mutual

/-- {lit}`dump(out, val)`: the new output, none when a buffer was overrun. -/
def dump (library : JsonLibrary) (out : Bytes) : Json → Option Bytes
  | .object [] => some (out ++ bytes "\x7b\x7d")
  | .object (member :: rest) =>
      (dumpMembers library (out ++ bytes "\x7b<div class=tab>") (member :: rest)).map
        (· ++ bytes "</div>\x7d")
  | .array [] => some (out ++ bytes "[]")
  | .array (value :: rest) =>
      (dumpElements library (out ++ bytes "[<div class=tab>") (value :: rest)).map
        (· ++ bytes "</div>]")
  | .string value => (dumpEscaped (out ++ bytes "\"") value).map (· ++ bytes "\"")
  | .boolean value => some (out ++ bytes (if value then "true" else "false"))
  | .numberInteger value => some (out ++ bytes (toString value.toInt))
  | .numberUnsigned value => some (out ++ bytes (toString value.toNat))
  | .numberFloat bits => some (out ++ dumpfloat library bits)
  | .null => some (out ++ bytes "null")

/-- Members are dumped one after the other. -/
def dumpMembers (library : JsonLibrary) (out : Bytes) : List (Bytes × Json) → Option Bytes
  | [] => some out
  | (key, value) :: rest => do
      let out ← dumpEscaped (out ++ bytes "&quot") key
      let out ← openLink key value (out ++ bytes "&quot: ")
      let out ← dump library out value
      let out := if inATag key value then out ++ bytes "</a>" else out
      let out := if rest.isEmpty then out else out ++ bytes ","
      dumpMembers library (out ++ bytes "<br>") rest

/-- Elements are dumped one after the other. -/
def dumpElements (library : JsonLibrary) (out : Bytes) : List Json → Option Bytes
  | [] => some out
  | value :: rest => do
      let out ← dump library out value
      dumpElements library (if rest.isEmpty then out else out ++ bytes ",<br>") rest

end

/-! ## When every buffer suffices -/

/-- A text is dumped if it fits the buffer. -/
theorem dumpEscaped_isSome_iff (out str : Bytes) :
    (dumpEscaped out str).isSome = true ↔ FitsBuffer str := by
  rw [Option.isSome_iff_ne_none, ne_eq, dumpEscaped_overrun_iff, not_not]

/-- A link is opened where its address fits. -/
theorem openLink_isSome {key : Bytes} {value : Json} (out : Bytes)
    (hfits : value.AllTexts FitsBuffer) : (openLink key value out).isSome = true := by
  unfold openLink
  cases value with
  | string text =>
      simp only [Json.getString]
      split
      · rw [Option.isSome_map]
        exact (dumpEscaped_isSome_iff _ _).mpr hfits
      · rfl
  | _ => rfl

/-- Two parts are dumped if each of them is. -/
private theorem bind_isSome_iff {α β : Type*} {first : Option α} {next : α → Option β}
    {p q : Prop} (hfirst : first.isSome = true ↔ p)
    (hnext : ∀ a, first = some a → ((next a).isSome = true ↔ q)) :
    (first.bind next).isSome = true ↔ p ∧ q := by
  cases hresult : first with
  | none =>
      rw [hresult] at hfirst
      simp only [Option.isSome_none, Bool.false_eq_true, false_iff] at hfirst
      simp [hfirst]
  | some a =>
      rw [hresult] at hfirst
      simp only [Option.isSome_some, true_iff] at hfirst
      simp [hfirst, hnext a hresult]

mutual

/-- A value is dumped if all its texts fit the buffer. -/
theorem dump_isSome_iff (library : JsonLibrary) : (json : Json) → (out : Bytes) →
    ((dump library out json).isSome = true ↔ json.AllTexts FitsBuffer)
  | .object [], out => by simp [dump, Json.AllTexts, Json.MembersTexts]
  | .object (member :: rest), out => by
      simpa [dump, Json.AllTexts] using dumpMembers_isSome_iff library (member :: rest) _
  | .array [], out => by simp [dump, Json.AllTexts, Json.AllOfTexts]
  | .array (value :: rest), out => by
      simpa [dump, Json.AllTexts] using dumpElements_isSome_iff library (value :: rest) _
  | .string value, out => by
      simpa [dump, Json.AllTexts] using dumpEscaped_isSome_iff _ value
  | .boolean _, out => by simp [dump, Json.AllTexts]
  | .numberInteger _, out => by simp [dump, Json.AllTexts]
  | .numberUnsigned _, out => by simp [dump, Json.AllTexts]
  | .numberFloat _, out => by simp [dump, Json.AllTexts]
  | .null, out => by simp [dump, Json.AllTexts]

theorem dumpMembers_isSome_iff (library : JsonLibrary) : (members : List (Bytes × Json)) →
    (out : Bytes) →
      ((dumpMembers library out members).isSome = true ↔ Json.MembersTexts FitsBuffer members)
  | [], out => by simp [dumpMembers, Json.MembersTexts]
  | (key, value) :: rest, out => by
      rw [dumpMembers, Json.MembersTexts]
      apply bind_isSome_iff (dumpEscaped_isSome_iff _ key)
      intro out' _
      -- a text that is opened as a link is dumped once more as a value
      by_cases hfits : value.AllTexts FitsBuffer
      · obtain ⟨linked, hlinked⟩ := Option.isSome_iff_exists.mp
          (@openLink_isSome key value (out' ++ bytes "&quot: ") hfits)
        simp only [hlinked, Option.bind_eq_bind, Option.bind_some]
        apply bind_isSome_iff (dump_isSome_iff library value linked)
        intro out'' _
        exact dumpMembers_isSome_iff library rest _
      · constructor
        · intro hsome
          exfalso
          cases hlinked : openLink key value (out' ++ bytes "&quot: ") with
          | none => simp [hlinked] at hsome
          | some linked =>
              have hnone : ¬ (dump library linked value).isSome = true :=
                fun h => hfits ((dump_isSome_iff library value linked).mp h)
              simp only [Option.not_isSome_iff_eq_none] at hnone
              simp [hlinked, hnone] at hsome
        · intro hboth
          exact absurd hboth.1 hfits

theorem dumpElements_isSome_iff (library : JsonLibrary) : (values : List Json) →
    (out : Bytes) →
      ((dumpElements library out values).isSome = true ↔ Json.AllOfTexts FitsBuffer values)
  | [], out => by simp [dumpElements, Json.AllOfTexts]
  | value :: rest, out => by
      rw [dumpElements, Json.AllOfTexts]
      apply bind_isSome_iff (dump_isSome_iff library value out)
      intro out' _
      exact dumpElements_isSome_iff library rest _

end

/-- A value that {lit}`nlohmann::json` serialises is rendered too. -/
theorem dump_of_utf8Valid (library : JsonLibrary) {json : Json} (hvalid : json.utf8Valid = true)
    (out : Bytes) : (dump library out json).isSome = true := by
  apply (dump_isSome_iff library json out).mpr
  exact ((Json.utf8Valid_iff json).mp hvalid).mono fun _ h => fitsBuffer_of_valid h

end Redfish
end ObmcWebapp
