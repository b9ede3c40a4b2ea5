import QueryCraft.AuditLog
import QueryCraft.Decimals

/-! # Session records

The JSON that is stored for a signed-in session and read back on every request.
`parse_session_record` validates it strictly: every field has its type, strings are not
empty, ids are canonical UUIDs, timestamps are finite and not negative, and no other
field is there.  A field that may be absent is not the same as one that is `null`.

Numbers are decimals.  An integer token is accepted where a float is wanted, and a token
with a point or an exponent is not accepted where an integer is wanted.
-/
namespace QueryCraft

/-! ## Field types -/

/-- Half-way between the largest double and the next power of two: from here on a
numeral is read as infinity. -/
def doubleOverflow : Nat := 2 ^ 1024 - 2 ^ 970

/-- `finite_timestamp`. -/
def Decimal.isTimestamp (d : Decimal) : Bool :=
  0 ≤ d.mantissa && d.mantissa.natAbs < doubleOverflow * 10 ^ d.scale

theorem Decimal.isTimestamp_natCast {n scale : Nat} (h : n < doubleOverflow * 10 ^ scale) :
    Decimal.isTimestamp ⟨n, scale⟩ = true := by
  simp [Decimal.isTimestamp, h]

/-- What `time.time()` returns. -/
structure Timestamp where
  value : Decimal
  valid : value.isTimestamp = true

/-- Lower-case hexadecimal digits. -/
def isLowerHex (c : Char) : Bool := c.isDigit || ('a' ≤ c && c ≤ 'f')

/-- The text is a UUID as Python writes it: groups of 8, 4, 4, 4 and 12 digits. -/
def isCanonicalUuid (s : String) : Bool :=
  s.toList.length = 36 && (s.toList.zipIdx.all fun (c, i) =>
    if i = 8 ∨ i = 13 ∨ i = 18 ∨ i = 23 then c = '-' else isLowerHex c)

/-- A `uuid.UUID`, by its text. -/
structure Uuid where
  text : String
  canonical : isCanonicalUuid text = true

theorem Uuid.text_ne_empty (u : Uuid) : u.text ≠ "" := by
  intro h
  have := u.canonical
  rw [h] at this
  cases this

/-- `AuthProvider`. -/
inductive AuthProvider where
  | local | oidc | saml
deriving DecidableEq, Repr

/-- The text of a provider. -/
def AuthProvider.text : AuthProvider → String
  | .local => "local"
  | .oidc => "oidc"
  | .saml => "saml"

namespace Json

/-- `NonEmptyString`. -/
def nonEmptyString? : Json → Option String
  | .str s => if s = "" then none else some s
  | _ => none

/-- `NonEmptyString` with `canonical_uuid`. -/
def canonicalUuid? (j : Json) : Option String := j.nonEmptyString?.filter isCanonicalUuid

/-- A field that may be `null`. -/
def nullable {α : Type} (read : Json → Option α) : Json → Option (Option α)
  | .null => some none
  | j => (read j).map some

/-- `list[NonEmptyString]`. -/
def stringList? : Json → Option (List String)
  | .arr items => items.mapM nonEmptyString?
  | _ => none

/-- `Literal["local", "oidc", "saml"]`. -/
def authProvider? : Json → Option AuthProvider
  | .str "local" => some .local
  | .str "oidc" => some .oidc
  | .str "saml" => some .saml
  | _ => none

/-- `StrictFloat` with `finite_timestamp`. -/
def timestamp? : Json → Option Decimal
  | .int n => some ⟨n, 0⟩ |>.filter (·.isTimestamp)
  | .float m s => some ⟨m, s⟩ |>.filter (·.isTimestamp)
  | _ => none

/-- `StrictInt` with `ge=0`. -/
def generation? : Json → Option Nat
  | .int n => if 0 ≤ n then some n.toNat else none
  | _ => none

end Json

/-! ## The record -/

/-- `SessionRecord`, as it is dumped again: of the fields with a default, those that were
set. -/
structure SessionRecord where
  userId : String
  username : String
  displayName : String
  role : String
  roleId : Option String
  roleName : Option String
  permissions : List String
  authProvider : AuthProvider
  subjectId : String
  email : Option (Option String)
  createdAt : Decimal
  lastActivity : Decimal
  generation : Option (Option Nat)
deriving DecidableEq, Repr

/-- The fields of the model; `extra="forbid"`. -/
def sessionFields : List String :=
  ["user_id", "username", "display_name", "role", "role_id", "role_name", "permissions",
   "auth_provider", "subject_id", "email", "created_at", "last_activity", "generation"]

/-- A field with a default. -/
def optionalField {α : Type} (read : Json → Option α) : Option Json → Option (Option α)
  | none => some none
  | some j => (read j).map some

/-- The fields of a record, validated one by one. -/
def readSessionFields (get : String → Option Json) : Option SessionRecord := do
  let userId ← (get "user_id").bind Json.canonicalUuid?
  let username ← (get "username").bind Json.nonEmptyString?
  let displayName ← (get "display_name").bind Json.nonEmptyString?
  let role ← (get "role").bind Json.nonEmptyString?
  let roleId ← (get "role_id").bind (Json.nullable Json.canonicalUuid?)
  let roleName ← (get "role_name").bind (Json.nullable Json.nonEmptyString?)
  let permissions ← (get "permissions").bind Json.stringList?
  let authProvider ← (get "auth_provider").bind Json.authProvider?
  let subjectId ← (get "subject_id").bind Json.nonEmptyString?
  let email ← optionalField (Json.nullable Json.nonEmptyString?) (get "email")
  let createdAt ← (get "created_at").bind Json.timestamp?
  let lastActivity ← (get "last_activity").bind Json.timestamp?
  let generation ← optionalField (Json.nullable Json.generation?) (get "generation")
  return { userId, username, displayName, role, roleId, roleName, permissions, authProvider,
           subjectId, email, createdAt, lastActivity, generation }

/-- `parse_session_record`; `none` stands for `SessionRecordInvalid`. -/
def parseSessionRecord (session : Json) (indexedUserId : Option String) : Option SessionRecord :=
  match session with
  | .obj fields =>
    if fields.all (fun field => sessionFields.contains field.1) then
      (readSessionFields (fields.lookup ·)).filter fun r => indexedUserId.all (· = r.userId)
    else none
  | _ => none

/-! ## What is accepted -/

/-- Each field is read from its key. -/
structure ReadsAs (get : String → Option Json) (r : SessionRecord) : Prop where
  userId : (get "user_id").bind Json.canonicalUuid? = some r.userId
  username : (get "username").bind Json.nonEmptyString? = some r.username
  displayName : (get "display_name").bind Json.nonEmptyString? = some r.displayName
  role : (get "role").bind Json.nonEmptyString? = some r.role
  roleId : (get "role_id").bind (Json.nullable Json.canonicalUuid?) = some r.roleId
  roleName : (get "role_name").bind (Json.nullable Json.nonEmptyString?) = some r.roleName
  permissions : (get "permissions").bind Json.stringList? = some r.permissions
  authProvider : (get "auth_provider").bind Json.authProvider? = some r.authProvider
  subjectId : (get "subject_id").bind Json.nonEmptyString? = some r.subjectId
  email : optionalField (Json.nullable Json.nonEmptyString?) (get "email") = some r.email
  createdAt : (get "created_at").bind Json.timestamp? = some r.createdAt
  lastActivity : (get "last_activity").bind Json.timestamp? = some r.lastActivity
  generation : optionalField (Json.nullable Json.generation?) (get "generation") =
    some r.generation

theorem readSessionFields_eq_some {get : String → Option Json} {r : SessionRecord} :
    readSessionFields get = some r ↔ ReadsAs get r := by
  constructor
  · intro h
    unfold readSessionFields at h
    obtain ⟨_, h1, h⟩ := Option.bind_eq_some_iff.mp h
    obtain ⟨_, h2, h⟩ := Option.bind_eq_some_iff.mp h
    obtain ⟨_, h3, h⟩ := Option.bind_eq_some_iff.mp h
    obtain ⟨_, h4, h⟩ := Option.bind_eq_some_iff.mp h
    obtain ⟨_, h5, h⟩ := Option.bind_eq_some_iff.mp h
    obtain ⟨_, h6, h⟩ := Option.bind_eq_some_iff.mp h
    obtain ⟨_, h7, h⟩ := Option.bind_eq_some_iff.mp h
    obtain ⟨_, h8, h⟩ := Option.bind_eq_some_iff.mp h
    obtain ⟨_, h9, h⟩ := Option.bind_eq_some_iff.mp h
    obtain ⟨_, h10, h⟩ := Option.bind_eq_some_iff.mp h
    obtain ⟨_, h11, h⟩ := Option.bind_eq_some_iff.mp h
    obtain ⟨_, h12, h⟩ := Option.bind_eq_some_iff.mp h
    obtain ⟨_, h13, h⟩ := Option.bind_eq_some_iff.mp h
    obtain rfl := Option.some.inj h
    exact ⟨h1, h2, h3, h4, h5, h6, h7, h8, h9, h10, h11, h12, h13⟩
  · rintro ⟨h1, h2, h3, h4, h5, h6, h7, h8, h9, h10, h11, h12, h13⟩
    simp only [readSessionFields, h1, h2, h3, h4, h5, h6, h7, h8, h9, h10, h11, h12, h13, bind,
      Option.bind_some, pure]

theorem parseSessionRecord_eq_some {fields : List (String × Json)} {owner : Option String}
    {r : SessionRecord} :
    parseSessionRecord (.obj fields) owner = some r ↔
      (∀ field ∈ fields, field.1 ∈ sessionFields) ∧ ReadsAs (fields.lookup ·) r ∧
        ∀ o ∈ owner, o = r.userId := by
  rw [parseSessionRecord]
  by_cases hfields : fields.all (fun field => sessionFields.contains field.1) = true
  · rw [if_pos hfields, Option.filter_eq_some_iff, readSessionFields_eq_some]
    have hall : ∀ field ∈ fields, field.1 ∈ sessionFields := by simpa using hfields
    rw [and_iff_right hall]
    cases owner <;> simp
  · rw [if_neg hfields]
    refine ⟨fun h => (by cases h), fun h => absurd ?_ hfields⟩
    simpa using h.1

/-- Only objects are accepted. -/
theorem exists_fields_of_parse {session : Json} {owner : Option String} {r : SessionRecord}
    (h : parseSessionRecord session owner = some r) : ∃ fields, session = .obj fields := by
  cases session with
  | obj fields => exact ⟨fields, rfl⟩
  | _ => cases h

namespace Json

@[simp] theorem nonEmptyString?_str {s : String} (h : s ≠ "") : nonEmptyString? (.str s) = some s :=
  if_neg h

theorem nonEmptyString?_eq_some {j : Json} {s : String} :
    j.nonEmptyString? = some s ↔ j = .str s ∧ s ≠ "" := by
  cases j <;> simp [nonEmptyString?]
  grind

theorem canonicalUuid?_eq_some {j : Json} {s : String} :
    j.canonicalUuid? = some s ↔ j = .str s ∧ s ≠ "" ∧ isCanonicalUuid s = true := by
  rw [canonicalUuid?, Option.filter_eq_some_iff, nonEmptyString?_eq_some, and_assoc]

/-- A list of non-empty strings. -/
theorem stringList?_map_str {items : List String} (h : ∀ s ∈ items, s ≠ "") :
    stringList? (.arr (items.map .str)) = some items := by
  rw [stringList?]
  induction items with
  | nil => rfl
  | cons s items ih =>
    obtain ⟨hs, hitems⟩ := List.forall_mem_cons.mp h
    simp [List.mapM_cons, nonEmptyString?_str hs, ih hitems]

theorem stringList?_eq_some {j : Json} {items : List String} :
    j.stringList? = some items ↔ j = .arr (items.map .str) ∧ ∀ s ∈ items, s ≠ "" := by
  constructor
  · intro h
    cases j with
    | arr js =>
      rw [stringList?] at h
      induction js generalizing items with
      | nil =>
        obtain rfl : [] = items := by simpa using h
        simp
      | cons j js ih =>
        rw [List.mapM_cons] at h
        obtain ⟨s, hs, h⟩ := Option.bind_eq_some_iff.mp h
        obtain ⟨rest, hrest, h⟩ := Option.bind_eq_some_iff.mp h
        obtain rfl := Option.some.inj h
        obtain ⟨rfl, hne⟩ := nonEmptyString?_eq_some.mp hs
        obtain ⟨hjs, hall⟩ := ih hrest
        obtain rfl := Json.arr.inj hjs
        exact ⟨rfl, List.forall_mem_cons.mpr ⟨hne, hall⟩⟩
    | _ => cases h
  · rintro ⟨rfl, h⟩
    exact stringList?_map_str h

theorem timestamp?_int {n : Int} (h : Decimal.isTimestamp ⟨n, 0⟩ = true) :
    timestamp? (.int n) = some ⟨n, 0⟩ := by
  simp [timestamp?, h]

theorem timestamp?_float {m : Int} {s : Nat} (h : Decimal.isTimestamp ⟨m, s⟩ = true) :
    timestamp? (.float m s) = some ⟨m, s⟩ := by
  simp [timestamp?, h]

@[simp] theorem authProvider?_text (p : AuthProvider) : authProvider? (.str p.text) = some p := by
  cases p <;> rfl

end Json
end QueryCraft
