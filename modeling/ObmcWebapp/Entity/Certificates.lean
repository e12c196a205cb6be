import ObmcWebapp.Entity.Histories

/-!
# Entity - The names of a certificate

The issuer and the subject of a certificate are texts of the bus such as
{lit}`C=DE,O=Acme,CN=host`.  {lit}`setCertificateData` splits them and scatters the attributes
over fields, one set of fields for each of the two.  Attributes with several values are
collected in lists and written on every run; the others are written where they occur.

Main results:

- Theorem {lit}`Certificates.getField_supplement`: what a run writes, in terms of the names.
- Theorem {lit}`Certificates.names_current_always_iff`: when the fields belong to the current
  names along a history.
-/

open Library

namespace ObmcWebapp
namespace Entity
namespace Certificates

open InstanceData

/-! ## Fields and attributes -/

/-- The interface of a certificate. -/
def certificateIface : Bytes := bytes "xyz.openbmc_project.Certs.Certificate"

/-- The property with the issuer, and the beginning of its members. -/
def fieldIssuer : Bytes := bytes "Issuer"

/-- The property with the subject, and the beginning of its members. -/
def fieldSubject : Bytes := bytes "Subject"

/-- The key of a domain component. -/
def dc : Bytes := bytes "DC"

/-- The key of another name. -/
def altName : Bytes := bytes "subjectAltName"

/-- The key of a usage. -/
def usage : Bytes := bytes "extendedKeyUsage"

/-- The list of the domain components. -/
def fieldDomainComponents : Bytes := bytes "DomainComponents"

/-- The list of the other names. -/
def fieldAdditionalCommonNames : Bytes := bytes "AdditionalCommonNames"

/-- The list of the usages. -/
def fieldKeyUsage : Bytes := bytes "KeyUsage"

/-- The attributes that have one value. -/
def scalars : List (Bytes × Bytes) :=
  [(bytes "L", bytes "City"), (bytes "CN", bytes "CommonName"), (bytes "C", bytes "Country"),
    (bytes "algorithm", bytes "Algorithm"), (bytes "emailAddress", bytes "Email"),
    (bytes "O", bytes "Organization"), (bytes "OU", bytes "OrganizationalUnit"),
    (bytes "ST", bytes "State")]

/-- The keys of {lit}`listFieldValues`. -/
def listKeys : List Bytes :=
  [dc, altName, usage]

/-- The members for the keys of a name. -/
def dictionary : List (Bytes × Bytes) :=
  scalars ++ [(dc, fieldDomainComponents), (altName, fieldAdditionalCommonNames),
    (usage, fieldKeyUsage)]

/-- {lit}`splitToPair`: what is before the first delimiter and behind it. -/
def splitToPair (text : Bytes) (delimiter : UInt8) : Bytes × Bytes :=
  (text.takeWhile (· ≠ delimiter), (text.dropWhile (· ≠ delimiter)).tail)

/-- {lit}`FormatKeyUsage` of a text. -/
def formatKeyUsage (value : Bytes) : Int32 :=
  let actions : List (Bytes × Int32) :=
    [(bytes "DigitalSignature", 0), (bytes "NonRepudiation", 1), (bytes "KeyEncipherment", 2),
      (bytes "DataEncipherment", 3), (bytes "KeyAgreement", 4), (bytes "KeyCertSign", 5),
      (bytes "CRLSigning", 6), (bytes "EncipherOnly", 7), (bytes "DecipherOnly", 8),
      (bytes "ServerAuthentication", 9), (bytes "ClientAuthentication", 10),
      (bytes "CodeSigning", 11), (bytes "EmailProtection", 12), (bytes "Timestamping", 13),
      (bytes "CSPSigning", 14)]
  (actions.lookup value).getD 10

/-! ## Scattering a name -/

/-- The instance and {lit}`listFieldValues` in the course of the loop. -/
structure Scattered where
  self : InstanceData
  listFieldValues : Bytes → List Bytes

/-- One round of the loop over the entries. -/
def scatterEntry (fieldNamePrefix : Bytes) (s : Scattered) (entry : Bytes) : Scattered :=
  let (key, value) := splitToPair entry 0x3D
  match dictionary.lookup key with
  | none => s
  | some field =>
      if key ∈ listKeys then
        { s with
          listFieldValues := fun other =>
            if other = key then s.listFieldValues other ++ [value] else s.listFieldValues other }
      else { s with self := s.self.supplementOrUpdate (fieldNamePrefix ++ field) (.string value) }

/-- The entries of a name, one after the other. -/
def scatter (fieldNamePrefix : Bytes) (s : Scattered) (entries : List Bytes) : Scattered :=
  entries.foldl (scatterEntry fieldNamePrefix) s

/-- {lit}`setCertificateData`; the lists are written in the order of their keys. -/
def setCertificateData (instance_ : InstanceData) (raw fieldNamePrefix : Bytes) : InstanceData :=
  let entries := splitToVector raw 0x2C
  let s := scatter fieldNamePrefix ⟨instance_, fun _ => []⟩ entries
  ((s.self.supplementOrUpdate (fieldNamePrefix ++ fieldDomainComponents)
      (.strings (s.listFieldValues dc))).supplementOrUpdate
    (fieldNamePrefix ++ fieldKeyUsage)
      (.ints ((s.listFieldValues usage).map formatKeyUsage))).supplementOrUpdate
    (fieldNamePrefix ++ fieldAdditionalCommonNames) (.strings (s.listFieldValues altName))

/-- {lit}`setId` and the {lit}`setPurpose` of a kind of certificates. -/
def setIdAndPurpose (purpose : Int32) (instance_ : InstanceData) : InstanceData :=
  (instance_.supplementOrUpdate (bytes "Id")
    (.string (getNameFromLastSegmentObjectPath instance_.objectPath true))).supplementOrUpdate
      (bytes "Purpose") (.int32 purpose)

/-- What the query adds: identifier and purpose, then both names. -/
def supplementByStaticFields (purpose : Int32) (instance_ : InstanceData) :
    Option Exception × InstanceData :=
  let instance_ := setIdAndPurpose purpose instance_
  match instance_.getStringField fieldIssuer with
  | .error exception => (some exception, instance_)
  | .ok issuer =>
      let instance_ := setCertificateData instance_ issuer fieldIssuer
      match instance_.getStringField fieldSubject with
      | .error exception => (some exception, instance_)
      | .ok subject => (none, setCertificateData instance_ subject [])

/-- {lit}`FormatTime`, given the text of a time. -/
def formatTime (getFormattedDate : UInt64 → Bytes) : Formatter := fun _ value =>
  match value.val with
  | .uint64 time => .ok (.string (getFormattedDate time))
  | _ => .ok (.string (bytes "0000-00-00T00:00:00Z00:00"))

/-- {lit}`CertificateBase::Query` -/
def query (getFormattedDate : UInt64 → Bytes) (purpose : Int32) : EndpointQuery where
  getSearchPropertiesMap :=
    [(certificateIface,
      [⟨bytes "CertificateString", bytes "CertificateString", []⟩, ⟨fieldIssuer, fieldIssuer, []⟩,
        ⟨fieldSubject, fieldSubject, []⟩, ⟨fieldKeyUsage, fieldKeyUsage, []⟩,
        ⟨bytes "ValidNotAfter", bytes "ValidNotAfter", [formatTime getFormattedDate]⟩,
        ⟨bytes "ValidNotBefore", bytes "ValidNotBefore", [formatTime getFormattedDate]⟩])]
  supplementByStaticFields := supplementByStaticFields purpose

/-! ## What a name says -/

/-- The pairs of a name. -/
def attributes (raw : Bytes) : List (Bytes × Bytes) :=
  (splitToVector raw 0x2C).map fun entry => splitToPair entry 0x3D

/-- The last value of an attribute. -/
def lastValue (raw key : Bytes) : Option Bytes :=
  (attributes raw).reverse.lookup key

/-- All values of an attribute. -/
def allValues (raw key : Bytes) : List Bytes :=
  ((attributes raw).filter fun pair => pair.1 = key).map Prod.snd

/-- What a run writes for an attribute. -/
def written (raw key : Bytes) : Option FieldType :=
  if key = usage then some (.ints ((allValues raw key).map formatKeyUsage))
  else if key ∈ listKeys then some (.strings (allValues raw key))
  else (lastValue raw key).map FieldType.string

/-- The prefixes of the fields, with the properties that they come from. -/
def names : List (Bytes × Bytes) :=
  [(fieldIssuer, fieldIssuer), ([], fieldSubject)]

/-- The names are texts. -/
def types : PropertyTypes := fun _ property value =>
  property ∈ [fieldIssuer, fieldSubject] → value.getString.isSome

/-- A name that the certificate has, as its getter gives it. -/
def nameOf (object : WatchedObject types) (property : Bytes) : Bytes :=
  match (object.get certificateIface).lookup property with
  | some value => value.getString.getD fieldValueNotAvailable
  | none => fieldValueNotAvailable

/-- The fields are those of a certificate that was just loaded with the current names. -/
def NamesCurrent (query : EndpointQuery) (s : Following types) : Prop :=
  ∀ name ∈ names, ∀ entry ∈ dictionary, s.self.getField (name.1 ++ entry.2) =
    (query.load s.object).getField (name.1 ++ entry.2)

/-- Every attribute with one value that a name has is also in the name after the signal. -/
def KeepsAttributes (s : Following types) (change : PropertyChange types) : Prop :=
  ∀ name ∈ names, ∀ entry ∈ scalars,
    lastValue (nameOf s.object name.2) entry.1 ≠ none →
      lastValue (nameOf (s.object.changed change) name.2) entry.1 ≠ none

/-! ## The names of fields -/

/-- The fields of a name. -/
def fieldsOf (fieldNamePrefix : Bytes) : List Bytes :=
  dictionary.map fun entry => fieldNamePrefix ++ entry.2

/-- All fields that are written. -/
def supplemented : List Bytes :=
  [bytes "Id", bytes "Purpose"] ++ fieldsOf fieldIssuer ++ fieldsOf []

/-- Each member has the name of its property. -/
def memberNames : List Bytes :=
  [bytes "CertificateString", fieldIssuer, fieldSubject, fieldKeyUsage, bytes "ValidNotAfter",
    bytes "ValidNotBefore"]

/-- The fields that get lists. -/
def listFields : List Bytes :=
  [fieldDomainComponents, fieldKeyUsage, fieldAdditionalCommonNames]

/-- What is to be known about the literals. -/
structure NamesApart : Prop where
  scalars : ∀ entry ∈ scalars, dictionary.lookup entry.1 = some entry.2 ∧ entry.1 ∉ listKeys
  lists : ∀ key ∈ listKeys, (dictionary.lookup key).isSome
  keys : dc ≠ usage ∧ altName ≠ usage
  fields : (dictionary.map Prod.snd).Nodup
  listFields : listFields.Nodup
  scalarFields : ∀ entry ∈ Certificates.scalars, entry.2 ∉ Certificates.listFields
  prefixes : ∀ entry ∈ dictionary,
    (fieldIssuer ++ entry.2 ∉ fieldsOf [] ∧ entry.2 ∉ fieldsOf fieldIssuer) ∧
      fieldIssuer ++ entry.2 ∉ [bytes "Id", bytes "Purpose"] ∧
      entry.2 ∉ [bytes "Id", bytes "Purpose"]
  supplemented : ∀ name ∈ names, name.2 ∉ supplemented
  members : memberNames.Nodup
  metaMembers : ∀ memberName ∈ memberNames, memberName ∉ [metaObjectPath, metaObjectService]
  scalarMembers : ∀ name ∈ names, ∀ entry ∈ Certificates.scalars,
    name.1 ++ entry.2 ∉ memberNames ∧ name.1 ++ entry.2 ≠ metaObjectPath ∧
      name.1 ++ entry.2 ≠ metaObjectService

/-- The names that the setters of a certificate use are apart. -/
theorem names_apart : NamesApart := by
  constructor
  all_goals decide

/-! ## The loop -/

section

variable {fieldNamePrefix raw key field : Bytes} {s : Scattered} {entries : List Bytes}
  {self : InstanceData}

/-- A member belongs to one key. -/
theorem dictionary_keys {entry : Bytes × Bytes} (hentry : entry ∈ dictionary) {key : Bytes}
    (hkey : dictionary.lookup key = some entry.2) : key = entry.1 := by
  obtain ⟨before, later, hdictionary, -⟩ := List.lookup_eq_some_iff.mp hkey
  have hmem : (key, entry.2) ∈ dictionary := by
    rw [hdictionary]
    exact List.mem_append_right before List.mem_cons_self
  exact congrArg Prod.fst (List.inj_on_of_nodup_map (names_apart).fields hmem hentry rfl)

/-- An entry of another attribute leaves the field alone. -/
theorem scatterEntry_other {entry : Bytes × Bytes} (hentry : entry ∈ dictionary) {text : Bytes}
    (hkey : (splitToPair text 0x3D).1 ≠ entry.1) :
    (scatterEntry fieldNamePrefix s text).self.getField (fieldNamePrefix ++ entry.2) =
      s.self.getField (fieldNamePrefix ++ entry.2) := by
  rw [scatterEntry]
  dsimp only
  split
  · rfl
  · next field hlookup =>
      split
      · rfl
      · apply getField_supplementOrUpdate_ne
        intro heq
        obtain rfl : entry.2 = field := List.append_cancel_left heq
        exact hkey (dictionary_keys hentry hlookup)

/-- What an entry writes into a member that is no list. -/
theorem scatterEntry_scalar {entry : Bytes × Bytes} (hentry : entry ∈ scalars) (text : Bytes) :
    (scatterEntry fieldNamePrefix s text).self.getField (fieldNamePrefix ++ entry.2) =
      (([splitToPair text 0x3D].lookup entry.1).map FieldType.string).or
        (s.self.getField (fieldNamePrefix ++ entry.2)) := by
  obtain ⟨hlookup, hscalar⟩ := (names_apart).scalars _ hentry
  obtain ⟨key, value, hpair⟩ : ∃ key value, splitToPair text 0x3D = (key, value) := ⟨_, _, rfl⟩
  by_cases hkey : key = entry.1
  · subst hkey
    simp [scatterEntry, hpair, hlookup, hscalar]
  · have hother : (splitToPair text 0x3D).1 ≠ entry.1 := by rwa [hpair]
    rw [scatterEntry_other (List.mem_append_left _ hentry) hother, hpair]
    simp [Ne.symm hkey]

/-- The last entry of an attribute decides on its field. -/
theorem scatter_scalar {entry : Bytes × Bytes} (hentry : entry ∈ scalars) :
    (scatter fieldNamePrefix s entries).self.getField (fieldNamePrefix ++ entry.2) =
      (((entries.map fun text => splitToPair text 0x3D).reverse.lookup entry.1).map
        FieldType.string).or (s.self.getField (fieldNamePrefix ++ entry.2)) := by
  induction entries generalizing s with
  | nil => rfl
  | cons text rest ih =>
      have hstep : scatter fieldNamePrefix s (text :: rest) =
          scatter fieldNamePrefix (scatterEntry fieldNamePrefix s text) rest := rfl
      rw [hstep, ih, scatterEntry_scalar hentry, ← Option.or_assoc, List.map_cons,
        List.reverse_cons, List.lookup_append]
      cases (rest.map fun text => splitToPair text 0x3D).reverse.lookup entry.1 with
      | none => rfl
      | some value => rfl

/-- The values of an attribute are collected in their order. -/
theorem scatter_list (hkey : key ∈ listKeys) :
    (scatter fieldNamePrefix s entries).listFieldValues key = s.listFieldValues key ++
      ((entries.map fun text => splitToPair text 0x3D).filter fun pair =>
        pair.1 = key).map Prod.snd := by
  induction entries generalizing s with
  | nil => simp [scatter]
  | cons text rest ih =>
      have hstep : scatter fieldNamePrefix s (text :: rest) =
          scatter fieldNamePrefix (scatterEntry fieldNamePrefix s text) rest := rfl
      obtain ⟨other, value, hpair⟩ : ∃ other value, splitToPair text 0x3D = (other, value) :=
        ⟨_, _, rfl⟩
      rw [hstep, ih, List.map_cons, List.filter_cons, hpair]
      by_cases hother : other = key
      · subst hother
        obtain ⟨field, hfield⟩ := Option.isSome_iff_exists.mp ((names_apart).lists other hkey)
        simp [scatterEntry, hpair, hfield, hkey]
      · have hkept : (scatterEntry fieldNamePrefix s text).listFieldValues key =
            s.listFieldValues key := by
          simp only [scatterEntry, hpair]
          split
          · rfl
          · split
            · exact if_neg (Ne.symm hother)
            · rfl
        simp [hkept, hother]

/-- Only the members of the name are written. -/
theorem writes_scatter :
    Writes (fieldsOf fieldNamePrefix) s.self (scatter fieldNamePrefix s entries).self := by
  induction entries generalizing s with
  | nil => exact .refl
  | cons text rest ih =>
      have hentry : Writes (fieldsOf fieldNamePrefix) s.self
          (scatterEntry fieldNamePrefix s text).self := by
        rw [scatterEntry]
        dsimp only
        split
        · exact .refl
        · next field hlookup =>
            split
            · exact .refl
            · obtain ⟨before, later, hdictionary, -⟩ := List.lookup_eq_some_iff.mp hlookup
              apply Writes.supplementOrUpdate
              rw [fieldsOf, hdictionary]
              simp
      exact hentry.trans ih

/-! ## One run -/

/-- What is written for a key that is no list is its last value. -/
theorem written_scalar {entry : Bytes × Bytes} (hentry : entry ∈ scalars) :
    written raw entry.1 = (lastValue raw entry.1).map FieldType.string := by
  have hscalar := ((names_apart).scalars _ hentry).2
  have husage : entry.1 ≠ usage := by
    rintro heq
    exact hscalar (heq ▸ by simp [listKeys])
  rw [written, if_neg husage, if_neg hscalar]

/-- A list is written in any case. -/
theorem written_list (hkey : key ∈ listKeys) : (written raw key).isSome := by
  rw [written]
  split
  · rfl
  · rfl

/-- {lit}`setCertificateData` writes the members of its name alone. -/
theorem writes_setCertificateData :
    Writes (fieldsOf fieldNamePrefix) self (setCertificateData self raw fieldNamePrefix) := by
  have hlist : ∀ field ∈ listFields, fieldNamePrefix ++ field ∈ fieldsOf fieldNamePrefix := by
    intro field hfield
    have hmem : field ∈ dictionary.map Prod.snd := by
      simp only [listFields, List.mem_cons, List.not_mem_nil, or_false] at hfield
      rcases hfield with rfl | rfl | rfl
      all_goals simp [dictionary]
    obtain ⟨entry, hentry, rfl⟩ := List.mem_map.mp hmem
    exact List.mem_map.mpr ⟨entry, hentry, rfl⟩
  have hscatter := @writes_scatter fieldNamePrefix ⟨self, fun _ => []⟩ (splitToVector raw 0x2C)
  exact ((hscatter.trans (.supplementOrUpdate (hlist _ (by simp [listFields])))).trans
    (.supplementOrUpdate (hlist _ (by simp [listFields])))).trans
    (.supplementOrUpdate (hlist _ (by simp [listFields])))

/-- Names stay apart behind a prefix. -/
theorem append_ne {first second : Bytes} (h : first ≠ second) :
    fieldNamePrefix ++ first ≠ fieldNamePrefix ++ second :=
  fun heq => h (List.append_cancel_left heq)

/-- A run writes what the name says, and nothing where an attribute with one value is
missing. -/
theorem getField_setCertificateData {entry : Bytes × Bytes} (hentry : entry ∈ dictionary) :
    (setCertificateData self raw fieldNamePrefix).getField (fieldNamePrefix ++ entry.2) =
      (written raw entry.1).or (self.getField (fieldNamePrefix ++ entry.2)) := by
  have hlists := (names_apart).listFields
  simp only [listFields, List.nodup_cons, List.mem_cons, List.not_mem_nil, or_false,
    not_or] at hlists
  rcases List.mem_append.mp hentry with hscalar | hlist
  · have hfields := (names_apart).scalarFields entry hscalar
    simp only [listFields, List.mem_cons, List.not_mem_nil, or_false, not_or] at hfields
    obtain ⟨hcomponents, husage, hnames⟩ := hfields
    simp only [setCertificateData]
    rw [getField_supplementOrUpdate_ne (append_ne hnames),
      getField_supplementOrUpdate_ne (append_ne husage),
      getField_supplementOrUpdate_ne (append_ne hcomponents), scatter_scalar hscalar,
      written_scalar hscalar]
    rfl
  · simp only [List.mem_cons, List.not_mem_nil, or_false] at hlist
    have hkeys := (names_apart).keys
    have hvalues : ∀ key ∈ listKeys, (scatter fieldNamePrefix ⟨self, fun _ => []⟩
        (splitToVector raw 0x2C)).listFieldValues key = allValues raw key :=
      fun key hkey => (scatter_list hkey).trans (List.nil_append _)
    simp only [listKeys, List.forall_mem_cons] at hvalues
    obtain ⟨hdc, haltName, husage, -⟩ := hvalues
    rcases hlist with rfl | rfl | rfl
    · simp [setCertificateData, hlists, written, hkeys, listKeys, hdc]
    · simp [setCertificateData, written, hkeys, listKeys, haltName]
    · simp [setCertificateData, hlists, written, husage]

/-! ## The supplement -/

variable {purpose : Int32} {texts : Bytes → Bytes}

/-- Identifier and purpose are written alone. -/
theorem writes_setIdAndPurpose :
    Writes [bytes "Id", bytes "Purpose"] self (setIdAndPurpose purpose self) :=
  .trans (.supplementOrUpdate (by simp)) (.supplementOrUpdate (by simp))

/-- The query adds no reflected member. -/
theorem writes_supplement : Writes supplemented self (supplementByStaticFields purpose self).2 := by
  have hid : Writes supplemented self (setIdAndPurpose purpose self) :=
    writes_setIdAndPurpose.mono (by simp [supplemented])
  have hfields : fieldsOf fieldIssuer ⊆ supplemented ∧ fieldsOf [] ⊆ supplemented :=
    ⟨fun field hfield => by simp [supplemented, hfield],
      fun field hfield => by simp [supplemented, hfield]⟩
  unfold supplementByStaticFields
  dsimp only
  split
  · exact hid
  · next issuer _ =>
      have hissuer : Writes supplemented (setIdAndPurpose purpose self)
          (setCertificateData (setIdAndPurpose purpose self) issuer fieldIssuer) :=
        writes_setCertificateData.mono hfields.1
      split
      · exact hid.trans hissuer
      · exact (hid.trans hissuer).trans (writes_setCertificateData.mono hfields.2)

/-- The fields of a name after a run. -/
theorem getField_supplement (htexts : ∀ name ∈ names,
      self.getStringField name.2 = .ok (texts name.2)) {name entry : Bytes × Bytes}
    (hname : name ∈ names) (hentry : entry ∈ dictionary) :
    (supplementByStaticFields purpose self).2.getField (name.1 ++ entry.2) =
      (written (texts name.2) entry.1).or (self.getField (name.1 ++ entry.2)) := by
  have hfirst := @writes_setIdAndPurpose self purpose
  have hsecond := @writes_setCertificateData fieldIssuer (texts fieldIssuer)
    (setIdAndPurpose purpose self)
  have hkept : ∀ name ∈ names, name.2 ∉ [bytes "Id", bytes "Purpose"] ∧
      name.2 ∉ fieldsOf fieldIssuer := by
    intro name hname
    have hsupplemented := (names_apart).supplemented name hname
    simp only [supplemented, List.mem_append, not_or] at hsupplemented
    exact hsupplemented.1
  have hissuer : (setIdAndPurpose purpose self).getStringField fieldIssuer =
      .ok (texts fieldIssuer) :=
    (getStringField_congr
      (hfirst.others _ (hkept (fieldIssuer, fieldIssuer) (by simp [names])).1)).trans
      (htexts (fieldIssuer, fieldIssuer) (by simp [names]))
  obtain ⟨hsubjectId, hsubjectIssuer⟩ := hkept ([], fieldSubject) (by simp [names])
  have hsubject : (setCertificateData (setIdAndPurpose purpose self) (texts fieldIssuer)
      fieldIssuer).getStringField fieldSubject = .ok (texts fieldSubject) :=
    ((getStringField_congr (hsecond.others _ hsubjectIssuer)).trans
      (getStringField_congr (hfirst.others _ hsubjectId))).trans
        (htexts ([], fieldSubject) (by simp [names]))
  obtain ⟨⟨hissuerField, hsubjectField⟩, hissuerPlain, hsubjectPlain⟩ :=
    (names_apart).prefixes entry hentry
  simp only [supplementByStaticFields, hissuer, hsubject]
  simp only [names, List.mem_cons, List.not_mem_nil, or_false] at hname
  rcases hname with rfl | rfl
  · rw [writes_setCertificateData.others _ hissuerField, getField_setCertificateData hentry,
      hfirst.others _ hissuerPlain]
  · rw [getField_setCertificateData hentry, List.nil_append, hsecond.others _ hsubjectField,
      hfirst.others _ hsubjectPlain]

/-! ## The configuration -/

variable {getFormattedDate : UInt64 → Bytes}

/-- A date is always formatted. -/
theorem formatTime_returns (property : Bytes) (value : DbusVariant) :
    ∃ formattedValue, formatTime getFormattedDate property value = .ok formattedValue := by
  unfold formatTime
  split
  · exact ⟨_, rfl⟩
  · exact ⟨_, rfl⟩

/-- A reflected property has the formatter of dates or none. -/
theorem formatters_of_reflection {reflection : Bytes × PropertySetter}
    (hreflection : reflection ∈ (query getFormattedDate purpose).reflections) :
    reflection.2.formatters = [] ∨ reflection.2.formatters = [formatTime getFormattedDate] := by
  have hchains : (query getFormattedDate purpose).reflections.map (fun other =>
      other.2.formatters) = [[], [], [], [], [formatTime getFormattedDate],
        [formatTime getFormattedDate]] := rfl
  have hmem : reflection.2.formatters ∈
      (query getFormattedDate purpose).reflections.map fun other => other.2.formatters :=
    List.mem_map.mpr ⟨reflection, hreflection, rfl⟩
  rw [hchains] at hmem
  simpa using hmem

/-- Each member of the query stands once. -/
theorem query_orderly : (query getFormattedDate purpose).Orderly where
  interfaces := List.nodup_singleton certificateIface
  members := by
    show memberNames.Nodup
    exact (names_apart).members
  properties := by
    show memberNames.Nodup
    exact (names_apart).members
  plain := by
    have hmembers : ∀ memberName ∈ (query getFormattedDate purpose).reflections.map
        (fun reflection => reflection.2.memberName),
          memberName ∉ [metaObjectPath, metaObjectService] := (names_apart).metaMembers
    exact fun reflection hreflection => hmembers _ (List.mem_map_of_mem hreflection)
  supplement := fun _ => ⟨writes_supplement.targetProperties, writes_supplement.objectPath⟩
  formatters := by
    intro property value exception
    apply processFormatters_error
    intro reflection hreflection formatter hformatter property value exception herror
    rcases formatters_of_reflection hreflection with hnone | htime
    · rw [hnone] at hformatter
      exact absurd hformatter List.not_mem_nil
    · rw [htime, List.mem_singleton] at hformatter
      obtain ⟨formattedValue, hok⟩ := @formatTime_returns getFormattedDate property value
      rw [hformatter, hok] at herror
      exact absurd herror (by simp)

/-- The query accepts every value of a certificate. -/
theorem query_accepts : (query getFormattedDate purpose).Accepts types certificateIface := by
  intro setter hsetter value _
  rw [processFormatters_reflection query_orderly hsetter, PropertySetter.ownValue]
  rcases formatters_of_reflection hsetter with hnone | htime
  · rw [hnone]
    exact ⟨value, rfl⟩
  · obtain ⟨formattedValue, hok⟩ := @formatTime_returns getFormattedDate setter.propertyName value
    rw [htime]
    exact ⟨formattedValue, by simp [EndpointQuery.applyFormatters, hok]⟩

/-- A property that is stored as it is, in the member of its name. -/
def nameSetter (property : Bytes) : PropertySetter :=
  ⟨property, property, []⟩

/-- Both names are reflected. -/
theorem name_reflected {name : Bytes × Bytes} (hname : name ∈ names) :
    (certificateIface, nameSetter name.2) ∈ (query getFormattedDate purpose).reflections := by
  simp only [names, List.mem_cons, List.not_mem_nil, or_false] at hname
  rcases hname with rfl | rfl
  · exact List.mem_cons_of_mem _ List.mem_cons_self
  · exact List.mem_cons_of_mem _ (List.mem_cons_of_mem _ List.mem_cons_self)

/-! ## Current names -/

variable {object : WatchedObject types} {history : List (PropertyChange types)}
  {following : Following types} {change : PropertyChange types} {name entry : Bytes × Bytes}

/-- The getter gives the current name. -/
theorem getStringField_name (hname : name ∈ names)
    (hcurrent : self.memberInstances name.2 = (query getFormattedDate purpose).reflectedValue
      (object.get certificateIface) (nameSetter name.2)) :
    self.getStringField name.2 = .ok (nameOf object name.2) := by
  rw [reflectedValue_of_formatters query_orderly (name_reflected hname) rfl] at hcurrent
  have hproperty : name.2 ∈ [fieldIssuer, fieldSubject] := by
    simp only [names, List.mem_cons, List.not_mem_nil, or_false] at hname
    rcases hname with rfl | rfl <;> simp
  rw [getStringField, hcurrent, nameOf]
  cases hlookup : (object.get certificateIface).lookup name.2 with
  | none => simp [nameSetter, hlookup]
  | some value =>
      have htext := (typed_get object certificateIface).of_lookup hlookup hproperty
      obtain ⟨alternative, hnull⟩ := value
      cases alternative with
      | string text => simp [nameSetter, hlookup, DbusVariant.getString]
      | _ => simp [DbusVariant.getString] at htext

/-- The fields of attributes with one value reflect no property. -/
theorem scalar_not_reflected (hname : name ∈ names) (hentry : entry ∈ scalars) :
    (∀ reflection ∈ (query getFormattedDate purpose).reflections,
        reflection.2.memberName ≠ name.1 ++ entry.2) ∧
      name.1 ++ entry.2 ≠ metaObjectPath ∧ name.1 ++ entry.2 ≠ metaObjectService := by
  obtain ⟨hmembers, hplain⟩ := (names_apart).scalarMembers name hname entry hentry
  refine ⟨?_, hplain⟩
  intro reflection hreflection heq
  have hnames : (query getFormattedDate purpose).reflections.map (fun other =>
      other.2.memberName) = memberNames := rfl
  apply hmembers
  rw [← hnames, ← heq]
  exact List.mem_map.mpr ⟨reflection, hreflection, rfl⟩

/-- A list does not show what was there before. -/
theorem or_written_list (hentry : entry ∈ dictionary) (hscalar : entry ∉ scalars)
    (before : Option FieldType) : (written raw entry.1).or before = written raw entry.1 := by
  have hlist : entry.1 ∈ listKeys := by
    have hentryList := (List.mem_append.mp hentry).resolve_left hscalar
    simp only [List.mem_cons, List.not_mem_nil, or_false] at hentryList
    rcases hentryList with rfl | rfl | rfl
    all_goals simp [listKeys]
  obtain ⟨value, hvalue⟩ := Option.isSome_iff_exists.mp
    (@written_list raw entry.1 hlist)
  rw [hvalue, Option.some_or]

/-- The fields of a certificate that was just loaded. -/
theorem load_name (hname : name ∈ names) (hentry : entry ∈ dictionary) :
    ((query getFormattedDate purpose).load object).getField (name.1 ++ entry.2) =
      written (nameOf object name.2) entry.1 := by
  have hload := (@load_eq types (query getFormattedDate purpose) object query_orderly).1
  have htexts : ∀ name ∈ names, ((query getFormattedDate purpose).loaded object).getStringField
      name.2 = .ok (nameOf object name.2) := fun name hname =>
    getStringField_name hname
      (loaded_member query_orderly query_accepts (name_reflected hname))
  have hfield := @getField_supplement _ purpose (nameOf object) htexts name entry hname hentry
  rw [getField, hload]
  refine hfield.trans ?_
  by_cases hscalar : entry ∈ scalars
  · obtain ⟨hreflected, hpath, hservice⟩ :=
      @scalar_not_reflected purpose getFormattedDate name entry hname hscalar
    have hfresh : ((query getFormattedDate purpose).loaded object).getField
        (name.1 ++ entry.2) = none := by
      rw [getField, loaded_other query_orderly hreflected]
      simp [EndpointQuery.constructed, construct, hpath, hservice]
    rw [hfresh, Option.or_none]
  · exact or_written_list hentry hscalar _

/-- What it means for the names to be current. -/
theorem namesCurrent_iff : NamesCurrent (query getFormattedDate purpose) following ↔
    ∀ name ∈ names, ∀ entry ∈ dictionary, following.self.getField (name.1 ++ entry.2) =
      written (nameOf following.object name.2) entry.1 := by
  constructor
  · intro h name hname entry hentry
    rw [h name hname entry hentry, load_name hname hentry]
  · intro h name hname entry hentry
    rw [h name hname entry hentry, load_name hname hentry]

/-! ## Signals -/

/-- The instance follows its object and has the current names. -/
structure Tracks (getFormattedDate : UInt64 → Bytes) (purpose : Int32) (s : Following types) :
    Prop where
  follows : Follows (query getFormattedDate purpose) s
  names : ∀ name ∈ names, s.self.memberInstances name.2 =
    (query getFormattedDate purpose).reflectedValue (s.object.get certificateIface)
      (nameSetter name.2)

theorem tracks_after : Tracks getFormattedDate purpose
    ((query getFormattedDate purpose).after object history) where
  follows := follows_after query_orderly history
  names _ hname := after_member query_orderly query_accepts (name_reflected hname)
    (fun _ => writes_supplement.others _ ((names_apart).supplemented _ hname)) history

/-- A signal writes what the new names say over what was there. -/
theorem Tracks.follow_name (h : Tracks getFormattedDate purpose following)
    (hwatched : following.watches change = true) (hname : name ∈ Certificates.names)
    (hentry : entry ∈ dictionary) :
    ((query getFormattedDate purpose).follow following change).self.getField
        (name.1 ++ entry.2) =
      (written (nameOf (following.object.changed change) name.2) entry.1).or
        (following.self.getField (name.1 ++ entry.2)) := by
  have hinterface : change.interfaceName = certificateIface :=
    List.mem_singleton.mp (h.follows.watches_iff.mp hwatched).1
  have htexts : ∀ name ∈ Certificates.names, ((query getFormattedDate purpose).filled
      change.interfaceName change.changedValues following.self).getStringField name.2 =
        .ok (nameOf (following.object.changed change) name.2) := fun name hname =>
    getStringField_name hname
      (filled_changed query_orderly h.follows query_accepts (name_reflected hname)
        (h.names name hname))
  rw [follow_self_of_accepts query_orderly h.follows (hinterface ▸ query_accepts) hwatched]
  refine (@getField_supplement _ purpose _ htexts name entry hname hentry).trans ?_
  by_cases hscalar : entry ∈ scalars
  · rw [getField, filled_other query_orderly h.follows.watches fun setter hsetter _ =>
      (scalar_not_reflected hname hscalar).1 _ hsetter]
    rfl
  · rw [or_written_list hentry hscalar, or_written_list hentry hscalar]

/-- Signals of other interfaces leave the names alone. -/
theorem Tracks.nameOf_of_not (h : Tracks getFormattedDate purpose following)
    (hwatched : following.watches change = false) (hname : name ∈ Certificates.names) :
    nameOf (following.object.changed change) name.2 = nameOf following.object name.2 := by
  rw [nameOf, nameOf, get_changed_of_not h.follows (name_reflected hname) hwatched]

/-- After a change the names are current if and only if nothing stays of the earlier ones. -/
theorem Tracks.namesCurrent_follow_iff (h : Tracks getFormattedDate purpose following)
    (hcurrent : NamesCurrent (query getFormattedDate purpose) following) :
    NamesCurrent (query getFormattedDate purpose)
        ((query getFormattedDate purpose).follow following change) ↔
      KeepsAttributes following change := by
  rw [namesCurrent_iff] at hcurrent ⊢
  cases hwatched : following.watches change with
  | false =>
      constructor
      · intro _ name hname entry _ hold
        rw [h.nameOf_of_not hwatched hname]
        exact hold
      · intro _ name hname entry hentry
        rw [follow_self_of_not hwatched, EndpointQuery.follow, h.nameOf_of_not hwatched hname]
        exact hcurrent name hname entry hentry
  | true =>
      constructor
      · intro hnew name hname entry hscalar hold hnone
        have hentry : entry ∈ dictionary := List.mem_append_left _ hscalar
        have hfield :=
          (h.follow_name hwatched hname hentry).symm.trans (hnew name hname entry hentry)
        rw [hcurrent name hname entry hentry] at hfield
        simp only [EndpointQuery.follow, written_scalar hscalar, hnone] at hfield
        simp [hold] at hfield
      · intro hkeeps name hname entry hentry
        rw [h.follow_name hwatched hname hentry, hcurrent name hname entry hentry]
        by_cases hscalar : entry ∈ scalars
        · have hkept := hkeeps name hname entry hscalar
          simp only [EndpointQuery.follow, written_scalar hscalar]
          cases hnew : lastValue (nameOf (following.object.changed change) name.2) entry.1 with
          | some value => rfl
          | none =>
              have hold : lastValue (nameOf following.object name.2) entry.1 = none := by
                by_contra hsome
                exact hkept hsome hnew
              rw [hold]
              rfl
        · exact or_written_list hentry hscalar _

/-- The fields belong to the current names along a history exactly where no name loses an
attribute that has one value. -/
theorem names_current_always_iff (getFormattedDate : UInt64 → Bytes) (purpose : Int32)
    (object : WatchedObject types) (history : List (PropertyChange types)) :
    (∀ before rest, history = before ++ rest → NamesCurrent (query getFormattedDate purpose)
        ((query getFormattedDate purpose).after object before)) ↔
      ∀ before change rest, history = before ++ change :: rest →
        KeepsAttributes ((query getFormattedDate purpose).after object before) change := by
  apply after_always_iff
  · intro name hname entry hentry
    rfl
  · intro history hcurrent change
    exact tracks_after.namesCurrent_follow_iff hcurrent

end

/-! ## An issuer without a city -/

/-- The properties of a certificate with an issuer only. -/
def issuedBy (text : Bytes) : DBusPropertiesMap :=
  [(fieldIssuer, .string text)]

/-- The texts have the type of the bus. -/
theorem typed_issuedBy {text interface : Bytes} : Typed types interface (issuedBy text) := by
  intro property hproperty _
  rw [issuedBy, List.mem_singleton] at hproperty
  subst hproperty
  rfl

/-- A certificate with a locality. -/
def berlinCertificate : WatchedObject types where
  serviceName := bytes "xyz.openbmc_project.Certs.Manager.Server.Https"
  objectPath := bytes "/xyz/openbmc_project/certs/server/https/1"
  interfaces := [certificateIface]
  properties := fun _ => issuedBy (bytes "C=DE,L=Berlin,CN=a")
  typed _ := typed_issuedBy

/-- The certificate is replaced by one whose issuer names no city. -/
def issuerChanges : PropertyChange types where
  interfaceName := certificateIface
  changedValues := issuedBy (bytes "C=DE,CN=b")
  typed := typed_issuedBy

/-- The city of the old issuer is reported with the common name of the new one. -/
theorem city_left_over :
    let certificates := query (fun _ => []) 0
    let s := certificates.after berlinCertificate [issuerChanges]
    s.self.getField (bytes "IssuerCommonName") = some (.string (bytes "b")) ∧
      s.self.getField (bytes "IssuerCity") = some (.string (bytes "Berlin")) ∧
      (certificates.load s.object).getField (bytes "IssuerCity") = none := by
  decide

end Certificates
end Entity
end ObmcWebapp
