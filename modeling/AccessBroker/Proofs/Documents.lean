import AccessBroker.Object.Basic
import AccessBroker.Proofs.Time.Timestamps

/-!
# Documents are read back

What is stored as a document is read back as it was: a type with this property is
`AccessBroker.Recoverable`. A value that may be absent is written as null or as itself, so it is
read back where the type has no value that is written as null (`AccessBroker.NeverNull`). Records
are recoverable because their parts are: every field is there under its own name, so none of the
defaults that reading allows for is ever used.

An object is read back if its version fits into 64 bits
(`AccessBroker.Object.decode_encode_object`). That is the one number that is not bounded by its
type.
-/

namespace AccessBroker

open AccessBroker.Text AccessBroker.Time

/-- Types whose values are read back from their documents. -/
class Recoverable (α : Type) [Document α] : Prop where
  decode_encode (value : α) : decode (encode value) = some value

export Recoverable (decode_encode)

/-- Types whose values are never written as null. -/
class NeverNull (α : Type) [Document α] : Prop where
  encode_ne_null (value : α) : encode value ≠ .null

export NeverNull (encode_ne_null)

/-! ### Plain values -/

instance : Recoverable String := ⟨fun _ => rfl⟩

instance : NeverNull String := ⟨fun _ => by rintro ⟨⟩⟩

instance : Recoverable UInt32 where
  decode_encode value := by
    change (Json.wholeBetween 0 UInt32.size (.int value.toNat)).map _ = _
    rw [Json.wholeBetween, if_pos ⟨by omega, by exact_mod_cast value.toNat_lt⟩]
    exact congrArg some UInt32.ofNat_toNat

instance : Recoverable Int32 where
  decode_encode value := by
    have hlow := Int32.minValue_le_toInt value
    change (Json.wholeBetween _ _ (.int value.toInt)).map _ = _
    rw [Json.wholeBetween, if_pos ⟨hlow, Int.lt_add_one_of_le (Int32.toInt_le value)⟩]
    exact congrArg some (Int32.ofInt_toInt value)

instance {α : Type} [Document α] [Recoverable α] [NeverNull α] : Recoverable (Option α) where
  decode_encode
    | none => rfl
    | some value => by
      change (match encode value with
        | .null => some none
        | json => (decode json).map some) = some (some value)
      split
      · next hnull => exact absurd hnull (encode_ne_null value)
      · rw [decode_encode]
        rfl

/-- What was written one by one is read back one by one. -/
theorem mapM_map_of_read_write {m : Type → Type} [Monad m] [LawfulMonad m] {α β : Type}
    {write : α → β} {read : β → m α} {values : List α}
    (h : ∀ value ∈ values, read (write value) = pure value) :
    (values.map write).mapM read = pure values := by
  induction values with
  | nil => rfl
  | cons value rest ih =>
    rw [List.map_cons, List.mapM_cons, h value List.mem_cons_self, pure_bind,
      ih fun other hother => h other (List.mem_cons_of_mem _ hother), pure_bind]

instance {α : Type} [Document α] [Recoverable α] : Recoverable (List α) :=
  ⟨fun _ => mapM_map_of_read_write fun value _ => decode_encode value⟩

instance : Recoverable Instant where
  decode_encode instant := by
    change readTimestamp (String.ofList (timestampChars instant)).toList = some instant
    rw [String.toList_ofList, readTimestamp_timestampChars]

instance : NeverNull Instant := ⟨fun _ => by rintro ⟨⟩⟩

/-- **A set is the set of its members.** -/
theorem ofList_toList (names : NameSet) : NameSet.ofList names.toList = names :=
  NameSet.ext fun _ => NameSet.mem_ofList

instance : Recoverable NameSet where
  decode_encode names := by
    change (decode (encode names.toList) : Option (List String)).map NameSet.ofList = some names
    rw [decode_encode]
    exact congrArg some (ofList_toList names)

/-! ### Choices -/

instance : Recoverable Kind := ⟨fun kind => by cases kind <;> rfl⟩

instance : Recoverable RoleKind := ⟨fun kind => by cases kind <;> rfl⟩

instance : Recoverable SubjectKind := ⟨fun kind => by cases kind <;> rfl⟩

instance : Recoverable MatcherKind := ⟨fun kind => by cases kind <;> rfl⟩

instance : Recoverable RequestState := ⟨fun state => by cases state <;> rfl⟩

instance : Recoverable Decision := ⟨fun decision => by cases decision <;> rfl⟩

instance : Recoverable GrantScope := ⟨fun scope => by cases scope <;> rfl⟩

/-! ### Records -/

/-- After a field has been read, reading goes on with the value that was written. A field of a plain
type is read by computation, so most of these need no mention below. -/
theorem bind_decode_encode {α β : Type} [Document α] [Recoverable α] (value : α)
    (next : α → Option β) : (decode (encode value)).bind next = next value := by
  rw [decode_encode]
  rfl

instance : Recoverable RoleRef where
  decode_encode ref := bind_decode_encode ref.kind _

instance : NeverNull RoleRef := ⟨fun _ => by rintro ⟨⟩⟩

instance : Recoverable PolicyRule where
  decode_encode rule :=
    (bind_decode_encode rule.apiGroups _).trans <|
    (bind_decode_encode rule.resources _).trans <|
    (bind_decode_encode rule.resourceNames _).trans <|
    (bind_decode_encode rule.verbs _).trans <|
    bind_decode_encode rule.nonResourceUrls _

instance : Recoverable Subject where
  decode_encode subject :=
    (bind_decode_encode subject.kind _).trans <| bind_decode_encode subject.space _

instance : Recoverable SubjectMatcher where
  decode_encode sought := bind_decode_encode sought.kind _

instance : Recoverable SubjectPolicy where
  decode_encode policy :=
    (bind_decode_encode policy.requesters _).trans <|
    (bind_decode_encode policy.allowedRoles _).trans <|
    (bind_decode_encode policy.allowedPermissions _).trans <|
    (bind_decode_encode policy.maxDuration _).trans <|
    (bind_decode_encode policy.requiredApprovals _).trans <|
    (bind_decode_encode policy.approvers _).trans <|
    (bind_decode_encode policy.priority _).trans <|
    bind_decode_encode policy.notificationConfig _

instance : Recoverable RequestSpec where
  decode_encode spec :=
    (bind_decode_encode spec.groups _).trans <|
    (bind_decode_encode spec.role _).trans <|
    bind_decode_encode spec.permissions _

instance : Recoverable RequestStatus where
  decode_encode status :=
    (bind_decode_encode status.state _).trans <|
    (bind_decode_encode status.approvalsRequired _).trans <|
    (bind_decode_encode status.approvalsReceived _).trans <|
    bind_decode_encode status.expiresAt _

instance : Recoverable ResponseSpec where
  decode_encode spec := bind_decode_encode spec.response _

instance : Recoverable GrantStatus where
  decode_encode status :=
    (bind_decode_encode status.approvedBy _).trans <|
    (bind_decode_encode status.role _).trans <|
    (bind_decode_encode status.permissions _).trans <|
    (bind_decode_encode status.expiresAt _).trans <|
    bind_decode_encode status.reach _

instance : Recoverable OwnerReference where
  decode_encode owner := bind_decode_encode owner.kind _

/-! ### Objects -/

/-- A version is read back if it has 64 bits. -/
theorem Fields.version_eq {fields : Fields} {name : String} {version : Nat}
    (hfield : Fields.get? fields name = some (.int version)) (h : version < UInt64.size) :
    fields.version name = some version := by
  have hwhole : Json.wholeBetween 0 UInt64.size (.int version) = some (version : Int) := by
    unfold Json.wholeBetween
    exact if_pos ⟨Int.natCast_nonneg version, Int.ofNat_lt.2 h⟩
  rw [Fields.version, hfield, Option.bind_eq_bind, Option.bind_some, hwhole]
  rfl

/-- **Metadata are read back** if the version has 64 bits. -/
theorem Metadata.decode_encode_metadata (data : Metadata) (h : data.version < UInt64.size) :
    decode (encode data) = some data := by
  refine (bind_decode_encode data.space _).trans ?_
  refine (bind_decode_encode data.uid _).trans ?_
  change Option.bind (Fields.version [
    ("name", .str data.name),
    ("namespace", encode data.space),
    ("uid", .str data.uid),
    ("resource_version", .int data.version),
    ("creation_timestamp", encode data.createdAt),
    ("deletion_timestamp", encode data.deletedAt),
    ("finalizers", encode data.finalizers),
    ("owner_references", encode data.owners)] "resource_version") _ = _
  rw [Fields.version_eq rfl h, Option.bind_some]
  refine (bind_decode_encode data.createdAt _).trans ?_
  refine (bind_decode_encode data.deletedAt _).trans ?_
  refine (bind_decode_encode data.finalizers _).trans ?_
  exact bind_decode_encode data.owners _

/-- A body is read back from the fields of an object. -/
theorem decodeBody_encodeBody (kind : Kind) (body : kind.Body) (data : Json) :
    decodeBody kind (("meta", data) :: encodeBody kind body) = some body := by
  cases kind with
  | request =>
    obtain ⟨spec, status⟩ := body
    exact (bind_decode_encode spec _).trans (bind_decode_encode status _)
  | response => exact decode_encode (α := ResponseSpec) body
  | policy =>
    obtain ⟨policies⟩ := body
    exact bind_decode_encode policies _
  | grant => exact decode_encode (α := GrantStatus) body
  | role =>
    obtain ⟨rules⟩ := body
    exact bind_decode_encode rules _
  | binding =>
    obtain ⟨roleRef, subjects⟩ := body
    exact (bind_decode_encode roleRef _).trans (bind_decode_encode subjects _)

/-- **An object is read back** if its version has 64 bits. -/
theorem Object.decode_encode_object {kind : Kind} (object : Object kind)
    (h : object.metadata.version < UInt64.size) : decode (encode object) = some object := by
  have hmeta : Fields.required (α := Metadata)
      (("meta", encode object.metadata) :: encodeBody kind object.body) "meta" =
        some object.metadata := by
    rw [← object.metadata.decode_encode_metadata h]
    cases kind <;> rfl
  change ((Fields.required (("meta", encode object.metadata) :: encodeBody kind object.body)
    "meta").bind fun data : Metadata => _) = some object
  rw [hmeta]
  change (decodeBody kind
    (("meta", encode object.metadata) :: encodeBody kind object.body)).bind _ = some object
  rw [decodeBody_encodeBody]
  rfl

/-! ### Nothing is lost -/

/-- A version that was read has 64 bits. -/
theorem Fields.version_lt {fields : Fields} {name : String} {version : Nat}
    (h : fields.version name = some version) : version < UInt64.size := by
  simp only [Fields.version, Option.bind_eq_bind, Option.bind_eq_some_iff, Option.pure_def,
    Option.some.injEq] at h
  obtain ⟨json, -, whole, hwhole, rfl⟩ := h
  unfold Json.wholeBetween at hwhole
  split at hwhole
  · split at hwhole
    · next hbounds =>
      obtain rfl := Option.some.inj hwhole
      omega
    · cases hwhole
  · cases hwhole

theorem Metadata.version_lt_of_decode {json : Json} {data : Metadata}
    (h : decode json = some data) : data.version < UInt64.size := by
  simp only [decode, Option.bind_eq_bind, Option.bind_eq_some_iff, Option.pure_def,
    Option.some.injEq] at h
  obtain ⟨fields, -, -, -, -, -, -, -, version, hversion, -, -, -, -, -, -, -, -, rfl⟩ := h
  exact Fields.version_lt hversion

theorem Object.version_lt_of_decode {kind : Kind} {json : Json} {object : Object kind}
    (h : decode json = some object) : object.metadata.version < UInt64.size := by
  obtain ⟨fields, -, hfields⟩ := Option.bind_eq_some_iff.1 h
  obtain ⟨data, hmeta, hbody⟩ := Option.bind_eq_some_iff.1 hfields
  obtain ⟨json, -, hdata⟩ := Option.bind_eq_some_iff.1 hmeta
  obtain ⟨body, -, hobject⟩ := Option.bind_eq_some_iff.1 hbody
  obtain rfl := Option.some.inj hobject
  exact Metadata.version_lt_of_decode hdata

/-- **The stored form loses nothing**: an object whose version has 64 bits is read back from its
document as it was. So what any document stands for, however it was written, is read back from its
own document, too. -/
theorem Object.stored_form_lossless (kind : Kind) :
    (∀ object : Object kind, object.metadata.version < UInt64.size →
      decode (encode object) = some object) ∧
    ∀ (json : Json) (object : Object kind), decode json = some object →
      decode (encode object) = some object :=
  ⟨decode_encode_object, fun _ object h => object.decode_encode_object (version_lt_of_decode h)⟩

/-- A grant with the greatest version that expires a nanosecond before the end of the calendar. -/
def farGrant : Grant where
  metadata := { Metadata.ofKey ⟨some "team", "r"⟩ with version := 18446744073709551615 }
  body :=
    { expiresAt := some ⟨lastSecond, 999999998, Instant.last.first_le, Instant.last.le_last,
        by decide, by decide⟩ }

/-- The document of a grant without a status and without the fields that may be missing, with one
that no object has. -/
def sparseDocument : Json := .obj [
  ("note", .null),
  ("meta", .obj [
    ("name", .str "r"),
    ("uid", .str ""),
    ("resource_version", .int 3),
    ("finalizers", .arr []),
    ("owner_references", .arr [])])]

/-- The grant that the document stands for. -/
def sparseGrant : Grant where
  metadata := { name := "r", version := 3 }
  body := {}

theorem farGrant_lossless : farGrant.metadata.version < UInt64.size ∧
    farGrant.body.expiresAt.map Instant.timestamp = some "+262142-12-31T23:59:59.999999998Z" ∧
    decode (encode farGrant) = some farGrant ∧
    decode sparseDocument = some sparseGrant ∧ decode (encode sparseGrant) = some sparseGrant := by
  have hsparse : decode sparseDocument = some sparseGrant := by rfl
  refine ⟨by decide, by decide +kernel, ?_, hsparse, ?_⟩
  · exact (Object.stored_form_lossless .grant).1 farGrant (by decide)
  · exact (Object.stored_form_lossless .grant).2 sparseDocument sparseGrant hsparse

end AccessBroker
