import QueryCraft.Lookup
import QueryCraft.SessionRecord

/-! # The refresh of a session record

Every request refreshes its session: a Lua script in Redis decodes the stored JSON,
sets the time of the last activity and counts the generation up, and stores the encoding
of the result.  A refresh may also bring along a record with a changed role.

The record passes through Lua's data model on the way.  A Lua table is a list or a map by
its content, and an empty one is written as an object, so an empty list of permissions
comes back as something that the reader rejects; a `null` is no number that could be
counted up; and numbers are printed with 14 significant digits, so a generation from
10^14 on gets an exponent.  Everything else survives (`refresh_preserves_iff`).

The session index, which the script maintains as well, is left out here.
-/
namespace QueryCraft

/-! ## `cjson` -/

/-- The Lua values that decoding produces; `null` is `cjson.null`.  A table with entries
1 to n is a list, any other one a map. -/
inductive LuaValue where
  | null
  | bool (b : Bool)
  | number (d : Decimal)
  | str (s : String)
  | list (items : List LuaValue)
  | table (fields : List (String × LuaValue))

mutual

/-- `cjson.decode`. -/
def cjsonDecode : Json → LuaValue
  | .null => .null
  | .bool b => .bool b
  | .int n => .number ⟨n, 0⟩
  | .float m s => .number ⟨m, s⟩
  | .str s => .str s
  -- an empty table has no entries that could make it a list
  | .arr [] => .table []
  | .arr (item :: items) => .list (cjsonDecode item :: decodeItems items)
  | .obj fields => .table (decodeFields fields)

def decodeItems : List Json → List LuaValue
  | [] => []
  | item :: items => cjsonDecode item :: decodeItems items

def decodeFields : List (String × Json) → List (String × LuaValue)
  | [] => []
  | (key, value) :: fields => (key, cjsonDecode value) :: decodeFields fields

end

/-- The precision with which `cjson` prints numbers. -/
def cjsonPrecision : Nat := 14

/-- A number rounded to the printed digits. -/
def Decimal.rounded (d : Decimal) : Decimal :=
  ⟨d.mantissa.sign * roundSignificant cjsonPrecision d.mantissa.natAbs, d.scale⟩

/-- The number is printed without a point and without an exponent. -/
def Decimal.printsAsInteger (d : Decimal) : Bool :=
  d.rounded.mantissa.natAbs % 10 ^ d.scale = 0 &&
    d.rounded.mantissa.natAbs / 10 ^ d.scale < 10 ^ cjsonPrecision

/-- `%.14g`. -/
def Decimal.print (d : Decimal) : Json :=
  if d.printsAsInteger then .int (d.rounded.mantissa / (10 ^ d.scale : Nat))
  else .float d.rounded.mantissa d.scale

mutual

/-- `cjson.encode`. -/
def cjsonEncode : LuaValue → Json
  | .null => .null
  | .bool b => .bool b
  | .number d => d.print
  | .str s => .str s
  | .list items => .arr (encodeItems items)
  | .table fields => .obj (encodeFields fields)

def encodeItems : List LuaValue → List Json
  | [] => []
  | item :: items => cjsonEncode item :: encodeItems items

def encodeFields : List (String × LuaValue) → List (String × Json)
  | [] => []
  | (key, value) :: fields => (key, cjsonEncode value) :: encodeFields fields

end

/-! ## The script -/

namespace LuaValue

/-- `value[key]`; `none` is `nil`. -/
def get? (key : String) : LuaValue → Option LuaValue
  | .table fields => fields.lookup key
  | _ => none

/-- `value[key] = v`; `nil` removes the entry. -/
def assign (key : String) (v : Option LuaValue) : LuaValue → LuaValue
  | .table fields => .table (assignKey fields key v)
  | value => value

/-- `type(value) == 'string'`, with the string. -/
def string? : LuaValue → Option String
  | .str s => some s
  | _ => none

/-- `tonumber(value or '0')`; the conversion of strings is left out, since no session has
a string in the fields that are converted. -/
def toNumber : Option LuaValue → Option Decimal
  | none => some ⟨0, 0⟩
  | some (.number d) => some d
  | some _ => none

end LuaValue

/-- One more. -/
def Decimal.succ (d : Decimal) : Decimal := ⟨d.mantissa + (10 ^ d.scale : Nat), d.scale⟩

/-- `now - last > seconds`. -/
def Decimal.olderThan (now last : Decimal) (seconds : Nat) : Bool :=
  seconds * 10 ^ (now.scale + last.scale) <
    now.mantissa * (10 ^ last.scale : Nat) - last.mantissa * (10 ^ now.scale : Nat)

/-- Whether the caller expects a particular record and finds it. -/
inductive ExpectedSession where
  | notGiven | equal | different
deriving DecidableEq, Repr

/-- What the script replies. -/
inductive RefreshReply where
  | error (message : String)
  /-- Another record than the expected one is stored. -/
  | concurrentReplacement
  /-- The session was idle for too long and is deleted. -/
  | expired
  | refreshed (session : Json)

/-- The decoded record with its replacement; `none` if they belong to different users. -/
def applyReplacement (expected : ExpectedSession) (decoded : LuaValue) :
    Option Json → Option LuaValue
  | none => some decoded
  | some json =>
    let replacement := cjsonDecode json
    let user := (decoded.get? "user_id").bind (·.string?)
    if user.isSome ∧ (replacement.get? "user_id").bind (·.string?) ≠ user then none
    else if expected = .equal then some replacement
    else some (((decoded.assign "role_id" (replacement.get? "role_id")).assign "role_name"
      (replacement.get? "role_name")).assign "permissions" (replacement.get? "permissions"))

/-- `_REFRESH_INDEXED_SESSION_LUA` on a stored session, with the owner that is stored for
it. -/
def refreshIndexedSession (raw : Json) (owner : Option String) (expected : ExpectedSession)
    (replacement : Option Json) (now : Decimal) (ttlSeconds : Nat) : RefreshReply :=
  if ttlSeconds = 0 then .error "invalid-session-ttl"
  else if expected = .different then .concurrentReplacement
  else
    match applyReplacement expected (cjsonDecode raw) replacement with
    | none => .error "session-user-mismatch"
    | some decoded =>
      if owner.isSome ∧ (decoded.get? "user_id").bind (·.string?) ≠ owner then
        .error "session-user-mismatch"
      else
        match LuaValue.toNumber (decoded.get? "last_activity") with
        | none => .error "attempt to perform arithmetic on a nil value"
        | some lastActivity =>
          if now.olderThan lastActivity ttlSeconds then .expired
          else
            match LuaValue.toNumber (decoded.get? "generation") with
            | none => .error "attempt to perform arithmetic on a nil value"
            | some generation =>
              .refreshed (cjsonEncode ((decoded.assign "last_activity" (some (.number now))).assign
                "generation" (some (.number generation.succ))))

/-! ## Numbers -/

/-- `e` is `d` rounded to the printed digits. -/
def Decimal.RoundsTo (d e : Decimal) : Prop :=
  e.mantissa * (10 ^ d.scale : Nat) = d.rounded.mantissa * (10 ^ e.scale : Nat)

theorem roundSignificant_lt_overflow {n scale : Nat} (h : n < doubleOverflow * 10 ^ scale) :
    roundSignificant cjsonPrecision n < doubleOverflow * 10 ^ scale := by
  have hpow : ∀ a, 10 ^ (a + scale) = 10 ^ a * 10 ^ scale := fun a => Nat.pow_add ..
  have hpos : 0 < 10 ^ scale := Nat.pow_pos (by decide)
  have hplace : 308 + scale + 1 - cjsonPrecision = 295 + scale := by
    rw [cjsonPrecision]
    omega
  refine roundSignificant_lt (e := 308 + scale) (c := 17976931348623) (by decide) ?_ ?_ ?_ ?_ h
  · rw [hpow]
    exact Nat.mul_lt_mul_of_pos_right (by decide +kernel) hpos
  · rw [show 308 + scale + 1 = 309 + scale by omega, hpow]
    exact Nat.mul_le_mul_right _ (by decide +kernel)
  · rw [hplace, hpow, ← Nat.mul_assoc]
    exact Nat.mul_lt_mul_of_pos_right (by decide +kernel) hpos
  · rw [hplace, hpow, ← Nat.mul_assoc, ← Nat.mul_assoc]
    exact Nat.mul_le_mul_right _ (by decide +kernel)

/-- The mantissa of a rounded number that is not negative. -/
theorem Decimal.rounded_mantissa {d : Decimal} (h : 0 ≤ d.mantissa) :
    d.rounded.mantissa = (roundSignificant cjsonPrecision d.mantissa.natAbs : Nat) := by
  rcases Int.lt_or_eq_of_le h with hpos | hzero
  · simp [Decimal.rounded, Int.sign_eq_one_of_pos hpos]
  · simp [Decimal.rounded, ← hzero, roundSignificant_of_lt (n := 0) (k := cjsonPrecision)
      (by decide) (by decide)]

/-- A printed timestamp is read back rounded. -/
theorem Decimal.timestamp?_print {d : Decimal} (h : d.isTimestamp = true) :
    ∃ e, Json.timestamp? d.print = some e ∧ d.RoundsTo e := by
  simp only [Decimal.isTimestamp, Bool.and_eq_true, decide_eq_true_eq] at h
  have hm := Decimal.rounded_mantissa h.1
  have hlt := roundSignificant_lt_overflow h.2
  have hpos : 0 < 10 ^ d.scale := Nat.pow_pos (by decide)
  generalize roundSignificant cjsonPrecision d.mantissa.natAbs = v at hm hlt
  rw [Decimal.print]
  split
  · rename_i hint
    simp only [Decimal.printsAsInteger, hm, Int.natAbs_natCast, Bool.and_eq_true,
      decide_eq_true_eq] at hint
    refine ⟨⟨d.rounded.mantissa / (10 ^ d.scale : Nat), 0⟩, ?_, ?_⟩
    · have hdiv : v / 10 ^ d.scale < doubleOverflow := Nat.div_lt_of_lt_mul (by
        rw [Nat.mul_comm]
        exact hlt)
      rw [hm, ← Int.natCast_ediv]
      exact Json.timestamp?_int (Decimal.isTimestamp_natCast (by simpa using hdiv))
    · show d.rounded.mantissa / (10 ^ d.scale : Nat) * (10 ^ d.scale : Nat) = _
      rw [hm, ← Int.natCast_ediv, ← Int.natCast_mul,
        Nat.div_mul_cancel (Nat.dvd_of_mod_eq_zero hint.1)]
      simp
  · refine ⟨⟨d.rounded.mantissa, d.scale⟩, Json.timestamp?_float ?_, rfl⟩
    rw [hm]
    exact Decimal.isTimestamp_natCast hlt

/-- A printed count is read back as long as it has no exponent. -/
theorem Decimal.generation?_print (n : Nat) :
    Json.generation? (Decimal.print ⟨n, 0⟩) = if n < 10 ^ cjsonPrecision then some n else none := by
  have hm : (Decimal.rounded ⟨n, 0⟩).mantissa = (roundSignificant cjsonPrecision n : Nat) :=
    Decimal.rounded_mantissa (Int.natCast_nonneg n)
  by_cases h : n < 10 ^ cjsonPrecision
  · rw [roundSignificant_of_lt (by decide) h] at hm
    have hint : Decimal.printsAsInteger ⟨n, 0⟩ = true := by
      simp [Decimal.printsAsInteger, hm, h, Nat.mod_one]
    simp [Decimal.print, hint, hm, Json.generation?, h]
  · have hle := le_roundSignificant (k := cjsonPrecision) (by decide) (Nat.le_refl _) (not_lt.mp h)
    have hint : Decimal.printsAsInteger ⟨n, 0⟩ = false := by
      simp [Decimal.printsAsInteger, hm, hle]
    simp [Decimal.print, hint, Json.generation?, h]

/-! ## Round trips -/

theorem decodeFields_eq_map (fields : List (String × Json)) :
    decodeFields fields = fields.map fun f => (f.1, cjsonDecode f.2) := by
  induction fields with
  | nil => rfl
  | cons f fields ih =>
    obtain ⟨key, value⟩ := f
    rw [decodeFields, ih]
    rfl

theorem encodeFields_eq_map : ∀ fields : List (String × LuaValue),
    encodeFields fields = fields.map fun f => (f.1, cjsonEncode f.2)
  | [] => rfl
  | (key, value) :: fields => by rw [encodeFields, encodeFields_eq_map fields]; rfl

/-- Through Lua and back. -/
def throughLua (j : Json) : Json := cjsonEncode (cjsonDecode j)

/-- A number stays a number. -/
theorem Decimal.print_cases (d : Decimal) :
    (∃ n, d.print = .int n) ∨ ∃ m s, d.print = .float m s := by
  rw [Decimal.print]
  split
  · exact .inl ⟨_, rfl⟩
  · exact .inr ⟨_, _, rfl⟩

/-- A printed number is no `null`. -/
theorem Decimal.nullable_print {α : Type} (read : Json → Option α) (d : Decimal) :
    Json.nullable read d.print = (read d.print).map some := by
  rcases d.print_cases with ⟨n, h⟩ | ⟨m, s, h⟩
  · rw [h]
    rfl
  · rw [h]
    rfl

/-- What does not look at the inside of numbers, lists and objects reads the same. -/
theorem read_throughLua {α : Type} {read : Json → Option α}
    (hint : ∀ n, read (.int n) = none) (hfloat : ∀ m s, read (.float m s) = none)
    (harr : ∀ items, read (.arr items) = none) (hobj : ∀ fields, read (.obj fields) = none)
    (j : Json) : read (throughLua j) = read j := by
  have hnumber : ∀ d : Decimal, read d.print = none := fun d => by
    rcases d.print_cases with ⟨n, h⟩ | ⟨m, s, h⟩
    · rw [h, hint]
    · rw [h, hfloat]
  cases j with
  | null => rfl
  | bool b => rfl
  | int n => exact (hnumber _).trans (hint n).symm
  | float m s => exact (hnumber _).trans (hfloat m s).symm
  | str s => rfl
  | arr items =>
    cases items with
    | nil => exact (hobj _).trans (harr _).symm
    | cons item items => exact (harr _).trans (harr _).symm
  | obj fields => exact (hobj _).trans (hobj _).symm

theorem nonEmptyString?_throughLua (j : Json) :
    (throughLua j).nonEmptyString? = j.nonEmptyString? :=
  read_throughLua (fun _ => rfl) (fun _ _ => rfl) (fun _ => rfl) (fun _ => rfl) j

theorem canonicalUuid?_throughLua (j : Json) :
    (throughLua j).canonicalUuid? = j.canonicalUuid? := by
  rw [Json.canonicalUuid?, Json.canonicalUuid?, nonEmptyString?_throughLua]

theorem authProvider?_throughLua (j : Json) :
    (throughLua j).authProvider? = j.authProvider? :=
  read_throughLua (fun _ => rfl) (fun _ _ => rfl) (fun _ => rfl) (fun _ => rfl) j

theorem nullable_throughLua {α : Type} {read : Json → Option α}
    (hint : ∀ n, read (.int n) = none) (hfloat : ∀ m s, read (.float m s) = none)
    (harr : ∀ items, read (.arr items) = none) (hobj : ∀ fields, read (.obj fields) = none)
    (j : Json) : (throughLua j).nullable read = j.nullable read := by
  refine read_throughLua (fun n => ?_) (fun m s => ?_) (fun items => ?_) (fun fields => ?_) j
  · exact congrArg (Option.map some) (hint n)
  · exact congrArg (Option.map some) (hfloat m s)
  · exact congrArg (Option.map some) (harr items)
  · exact congrArg (Option.map some) (hobj fields)

theorem decodeItems_map_str : ∀ items : List String,
    encodeItems (decodeItems (items.map .str)) = items.map .str
  | [] => rfl
  | s :: items => by
    rw [List.map_cons, decodeItems, encodeItems, decodeItems_map_str items]
    rfl

/-- A list of permissions survives unless it is empty. -/
theorem stringList?_throughLua {j : Json} {items : List String}
    (h : j.stringList? = some items) :
    (throughLua j).stringList? = if items = [] then none else some items := by
  obtain ⟨rfl, hne⟩ := Json.stringList?_eq_some.mp h
  cases items with
  | nil => rfl
  | cons s items =>
    have hsame : throughLua (.arr ((s :: items).map .str)) = .arr ((s :: items).map .str) := by
      rw [throughLua, List.map_cons, cjsonDecode, cjsonEncode, encodeItems, decodeItems_map_str]
      rfl
    rw [hsame, if_neg (List.cons_ne_nil _ _)]
    exact h

theorem timestamp?_throughLua {j : Json} {d : Decimal} (h : j.timestamp? = some d) :
    ∃ e, (throughLua j).timestamp? = some e ∧ d.RoundsTo e := by
  cases j with
  | int n =>
    rw [Json.timestamp?, Option.filter_eq_some_iff] at h
    obtain rfl := Option.some.inj h.1
    exact Decimal.timestamp?_print h.2
  | float m s =>
    rw [Json.timestamp?, Option.filter_eq_some_iff] at h
    obtain rfl := Option.some.inj h.1
    exact Decimal.timestamp?_print h.2
  | _ => cases h

theorem cjsonDecode_of_timestamp? {j : Json} {d : Decimal} (h : j.timestamp? = some d) :
    cjsonDecode j = .number d := by
  cases j with
  | int n =>
    rw [Json.timestamp?, Option.filter_eq_some_iff] at h
    obtain rfl := Option.some.inj h.1
    rfl
  | float m s =>
    rw [Json.timestamp?, Option.filter_eq_some_iff] at h
    obtain rfl := Option.some.inj h.1
    rfl
  | _ => cases h

/-! ## Records in Lua -/

/-- The table holds the fields of a record. -/
structure HoldsRecord (fields : List (String × LuaValue)) (get : String → Option Json)
    (r : SessionRecord) : Prop where
  keys : ∀ field ∈ fields, field.1 ∈ sessionFields
  lookup : ∀ key, fields.lookup key = (get key).map cjsonDecode
  reads : ReadsAs get r

theorem holdsRecord_of_parse {session : Json} {owner : Option String} {r : SessionRecord}
    (h : parseSessionRecord session owner = some r) :
    ∃ fields get, cjsonDecode session = .table fields ∧ HoldsRecord fields get r := by
  obtain ⟨fields, rfl⟩ := exists_fields_of_parse h
  obtain ⟨hkeys, hreads, -⟩ := parseSessionRecord_eq_some.mp h
  refine ⟨decodeFields fields, (fields.lookup ·), rfl, ?_, fun key => ?_, hreads⟩
  · rw [decodeFields_eq_map]
    intro field hfield
    obtain ⟨f, hf, rfl⟩ := List.mem_map.mp hfield
    exact hkeys f hf
  · rw [decodeFields_eq_map, lookup_mapValues]

variable {fields : List (String × LuaValue)} {get : String → Option Json} {r eff : SessionRecord}
  {owner : Option String}

theorem HoldsRecord.userId (h : HoldsRecord fields get r) :
    ((LuaValue.table fields).get? "user_id").bind (·.string?) = some r.userId := by
  obtain ⟨j, hj, hread⟩ := Option.bind_eq_some_iff.mp h.reads.userId
  obtain ⟨rfl, -⟩ := Json.canonicalUuid?_eq_some.mp hread
  rw [LuaValue.get?, h.lookup, hj]
  rfl

theorem HoldsRecord.lastActivity (h : HoldsRecord fields get r) :
    LuaValue.toNumber ((LuaValue.table fields).get? "last_activity") = some r.lastActivity := by
  obtain ⟨j, hj, hread⟩ := Option.bind_eq_some_iff.mp h.reads.lastActivity
  rw [LuaValue.get?, h.lookup, hj, Option.map_some, cjsonDecode_of_timestamp? hread]
  rfl

/-- The generation, 0 if there is none. -/
def SessionRecord.generationCount (r : SessionRecord) : Nat := r.generation.join.getD 0

/-- The generation is counted up unless it is `null`. -/
theorem HoldsRecord.generation (h : HoldsRecord fields get r) :
    (LuaValue.toNumber ((LuaValue.table fields).get? "generation")).map Decimal.succ =
      if r.generation = some none then none
      else some ⟨(r.generationCount + 1 : Nat), 0⟩ := by
  have hread := h.reads.generation
  rw [LuaValue.get?, h.lookup]
  cases hget : get "generation" with
  | none =>
    rw [hget] at hread
    obtain hnone : none = r.generation := Option.some.inj hread
    simp [← hnone, SessionRecord.generationCount, LuaValue.toNumber, Decimal.succ]
  | some j =>
    rw [hget] at hread
    obtain ⟨g, hg, hgen⟩ := Option.map_eq_some_iff.mp hread
    cases j with
    | null =>
      obtain rfl := Option.some.inj hg
      simp [← hgen, cjsonDecode, LuaValue.toNumber]
    | int n =>
      obtain ⟨m, hm, rfl⟩ := Option.map_eq_some_iff.mp hg
      rw [Json.generation?] at hm
      split at hm
      · rename_i hn
        obtain rfl := Option.some.inj hm
        simp [← hgen, cjsonDecode, LuaValue.toNumber, Decimal.succ, SessionRecord.generationCount,
          Int.toNat_of_nonneg hn]
      · cases hm
    | _ => cases hg

/-- The replacement is a record of the same user that differs in the role only. -/
def Replaces (r eff : SessionRecord) : Option Json → Prop
  | none => eff = r
  | some json => parseSessionRecord json (some r.userId) = some eff ∧
    eff = { r with roleId := eff.roleId, roleName := eff.roleName, permissions := eff.permissions }

theorem Replaces.userId {replacement : Option Json} (h : Replaces r eff replacement) :
    eff.userId = r.userId := by
  cases replacement with
  | none => rw [show eff = r from h]
  | some json => rw [h.2]

theorem Replaces.generation {replacement : Option Json} (h : Replaces r eff replacement) :
    eff.generation = r.generation := by
  cases replacement with
  | none => rw [show eff = r from h]
  | some json => rw [h.2]

/-- Three fields taken from another record. -/
theorem HoldsRecord.assignRole {fields' : List (String × LuaValue)}
    {get' : String → Option Json} (h : HoldsRecord fields get r)
    (h' : HoldsRecord fields' get' eff)
    (heff : eff = { r with
      roleId := eff.roleId, roleName := eff.roleName, permissions := eff.permissions }) :
    HoldsRecord (assignKey (assignKey (assignKey fields "role_id" (fields'.lookup "role_id"))
      "role_name" (fields'.lookup "role_name")) "permissions" (fields'.lookup "permissions"))
      (fun key => if key ∈ ["role_id", "role_name", "permissions"] then get' key else get key)
      eff := by
  have hkeep : ∀ {α : Type} (f : SessionRecord → α), f { r with
      roleId := eff.roleId, roleName := eff.roleName, permissions := eff.permissions } = f r →
      f eff = f r := fun f hf => (congrArg f heff).trans hf
  have hfrom : ∀ key, key ∉ ["role_id", "role_name", "permissions"] →
      (if key ∈ ["role_id", "role_name", "permissions"] then get' key else get key) = get key :=
    fun key hkey => if_neg hkey
  refine ⟨fun field hfield => ?_, fun key => ?_, ?_⟩
  · rcases key_mem_of_mem_assignKey hfield with hkey | ⟨field, hfield, hkey⟩
    · rw [hkey]
      decide
    rw [← hkey]
    rcases key_mem_of_mem_assignKey hfield with hkey | ⟨field, hfield, hkey⟩
    · rw [hkey]
      decide
    rw [← hkey]
    rcases key_mem_of_mem_assignKey hfield with hkey | ⟨field, hfield, hkey⟩
    · rw [hkey]
      decide
    rw [← hkey]
    exact h.keys field hfield
  · rw [lookup_assignKey, lookup_assignKey, lookup_assignKey, h'.lookup, h'.lookup, h'.lookup,
      h.lookup]
    by_cases h1 : key = "permissions"
    · simp [h1]
    by_cases h2 : key = "role_name"
    · simp [h2]
    by_cases h3 : key = "role_id"
    · simp [h3]
    simp [h1, h2, h3]
  · refine ⟨?_, ?_, ?_, ?_, h'.reads.roleId, h'.reads.roleName, h'.reads.permissions, ?_, ?_, ?_,
      ?_, ?_, ?_⟩
    · rw [hfrom _ (by decide), hkeep (·.userId) rfl]
      exact h.reads.userId
    · rw [hfrom _ (by decide), hkeep (·.username) rfl]
      exact h.reads.username
    · rw [hfrom _ (by decide), hkeep (·.displayName) rfl]
      exact h.reads.displayName
    · rw [hfrom _ (by decide), hkeep (·.role) rfl]
      exact h.reads.role
    · rw [hfrom _ (by decide), hkeep (·.authProvider) rfl]
      exact h.reads.authProvider
    · rw [hfrom _ (by decide), hkeep (·.subjectId) rfl]
      exact h.reads.subjectId
    · rw [hfrom _ (by decide), hkeep (·.email) rfl]
      exact h.reads.email
    · rw [hfrom _ (by decide), hkeep (·.createdAt) rfl]
      exact h.reads.createdAt
    · rw [hfrom _ (by decide), hkeep (·.lastActivity) rfl]
      exact h.reads.lastActivity
    · rw [hfrom _ (by decide), hkeep (·.generation) rfl]
      exact h.reads.generation

/-- The record that is refreshed. -/
theorem applyReplacement_holds {raw : Json} {replacement : Option Json}
    (expected : ExpectedSession) (hraw : parseSessionRecord raw owner = some r)
    (hrep : Replaces r eff replacement) :
    ∃ fields get, applyReplacement expected (cjsonDecode raw) replacement =
      some (.table fields) ∧ HoldsRecord fields get eff := by
  obtain ⟨fields, get, hdecode, hold⟩ := holdsRecord_of_parse hraw
  rw [hdecode]
  cases replacement with
  | none =>
    obtain rfl : eff = r := hrep
    exact ⟨fields, get, rfl, hold⟩
  | some json =>
    obtain ⟨hparse, heff⟩ := hrep
    obtain ⟨fields', get', hdecode', hold'⟩ := holdsRecord_of_parse hparse
    have hsame : eff.userId = r.userId := by rw [heff]
    rw [applyReplacement, hdecode', hold.userId, hold'.userId, hsame]
    simp only [ne_eq, not_true_eq_false, and_false, if_false]
    by_cases hequal : expected = .equal
    · rw [if_pos hequal]
      exact ⟨fields', get', rfl, hold'⟩
    · rw [if_neg hequal]
      exact ⟨_, _, rfl, hold.assignRole hold' heff⟩

/-! ## The refreshed record -/

/-- The record after a refresh: the rest is as before. -/
structure RefreshedTo (now : Decimal) (r r' : SessionRecord) : Prop where
  createdAt : r.createdAt.RoundsTo r'.createdAt
  lastActivity : now.RoundsTo r'.lastActivity
  generation : r'.generation = some (some (r.generationCount + 1))
  rest : r' = { r with
    createdAt := r'.createdAt, lastActivity := r'.lastActivity, generation := r'.generation }

/-- The table with the new values, encoded. -/
def refreshedFields (fields : List (String × LuaValue)) (now generation : Decimal) :
    List (String × Json) :=
  encodeFields (assignKey (assignKey fields "last_activity" (some (.number now))) "generation"
    (some (.number generation)))

theorem lookup_refreshedFields (h : HoldsRecord fields get r) (now generation : Decimal)
    (key : String) :
    (refreshedFields fields now generation).lookup key =
      if key = "generation" then some generation.print
      else if key = "last_activity" then some now.print
      else (get key).map throughLua := by
  rw [refreshedFields, encodeFields_eq_map, lookup_mapValues, lookup_assignKey, lookup_assignKey,
    h.lookup]
  by_cases h1 : key = "generation"
  · rw [if_pos h1, if_pos h1]
    rfl
  by_cases h2 : key = "last_activity"
  · rw [if_neg h1, if_pos h2, if_neg h1, if_pos h2]
    rfl
  rw [if_neg h1, if_neg h2, if_neg h1, if_neg h2, Option.map_map]
  rfl

theorem keys_refreshedFields (h : HoldsRecord fields get r) (now generation : Decimal) :
    ∀ field ∈ refreshedFields fields now generation, field.1 ∈ sessionFields := by
  intro field hfield
  rw [refreshedFields, encodeFields_eq_map] at hfield
  obtain ⟨f, hf, rfl⟩ := List.mem_map.mp hfield
  rcases key_mem_of_mem_assignKey hf with hkey | ⟨f', hf', hkey⟩
  · simp only [hkey]
    decide
  rcases key_mem_of_mem_assignKey hf' with hkey' | ⟨f'', hf'', hkey'⟩
  · simp only [← hkey, hkey']
    decide
  · simp only [← hkey, ← hkey']
    exact h.keys f'' hf''

/-- A field that neither the script nor Lua changes. -/
theorem bind_refreshedFields {α : Type} {read : Json → Option α} {key : String}
    (h : HoldsRecord fields get r) (now generation : Decimal)
    (hread : ∀ j, read (throughLua j) = read j) (h1 : key ≠ "generation")
    (h2 : key ≠ "last_activity") :
    ((refreshedFields fields now generation).lookup key).bind read = (get key).bind read := by
  rw [lookup_refreshedFields h, if_neg h1, if_neg h2]
  cases get key with
  | none => rfl
  | some j => exact hread j

theorem nullableString_throughLua (j : Json) :
    (throughLua j).nullable Json.nonEmptyString? = j.nullable Json.nonEmptyString? :=
  nullable_throughLua (fun _ => rfl) (fun _ _ => rfl) (fun _ => rfl) (fun _ => rfl) j

theorem nullableUuid_throughLua (j : Json) :
    (throughLua j).nullable Json.canonicalUuid? = j.nullable Json.canonicalUuid? :=
  nullable_throughLua (fun _ => rfl) (fun _ _ => rfl) (fun _ => rfl) (fun _ => rfl) j

/-- The refreshed record is read back. -/
theorem reads_refreshedFields (h : HoldsRecord fields get r) (now : Timestamp)
    (hpermissions : r.permissions ≠ []) (hgeneration : r.generationCount + 1 < 10 ^ cjsonPrecision) :
    ∃ r', ReadsAs ((refreshedFields fields now.value ⟨(r.generationCount + 1 : Nat), 0⟩).lookup ·)
      r' ∧ RefreshedTo now.value r r' := by
  obtain ⟨jcreated, hjcreated, hcreated⟩ := Option.bind_eq_some_iff.mp h.reads.createdAt
  obtain ⟨createdAt, hcreated', hround⟩ := timestamp?_throughLua hcreated
  obtain ⟨lastActivity, hlast, hroundLast⟩ := Decimal.timestamp?_print now.valid
  obtain ⟨jperm, hjperm, hperm⟩ := Option.bind_eq_some_iff.mp h.reads.permissions
  refine ⟨{ r with
    createdAt := createdAt
    lastActivity := lastActivity
    generation := some (some (r.generationCount + 1)) }, ⟨?_, ?_, ?_, ?_, ?_, ?_, ?_, ?_, ?_, ?_, ?_,
      ?_, ?_⟩, hround, hroundLast, rfl, rfl⟩
  · rw [bind_refreshedFields h _ _ canonicalUuid?_throughLua (by decide) (by decide)]
    exact h.reads.userId
  · rw [bind_refreshedFields h _ _ nonEmptyString?_throughLua (by decide) (by decide)]
    exact h.reads.username
  · rw [bind_refreshedFields h _ _ nonEmptyString?_throughLua (by decide) (by decide)]
    exact h.reads.displayName
  · rw [bind_refreshedFields h _ _ nonEmptyString?_throughLua (by decide) (by decide)]
    exact h.reads.role
  · rw [bind_refreshedFields h _ _ nullableUuid_throughLua (by decide) (by decide)]
    exact h.reads.roleId
  · rw [bind_refreshedFields h _ _ nullableString_throughLua (by decide) (by decide)]
    exact h.reads.roleName
  · rw [lookup_refreshedFields h, if_neg (by decide), if_neg (by decide), hjperm]
    exact (stringList?_throughLua hperm).trans (if_neg hpermissions)
  · rw [bind_refreshedFields h _ _ authProvider?_throughLua (by decide) (by decide)]
    exact h.reads.authProvider
  · rw [bind_refreshedFields h _ _ nonEmptyString?_throughLua (by decide) (by decide)]
    exact h.reads.subjectId
  · rw [lookup_refreshedFields h, if_neg (by decide), if_neg (by decide)]
    have hemail := h.reads.email
    cases hget : get "email" with
    | none =>
      rw [hget] at hemail
      exact hemail
    | some j =>
      rw [hget] at hemail
      exact (congrArg (Option.map some) (nullableString_throughLua j)).trans hemail
  · rw [lookup_refreshedFields h, if_neg (by decide), if_neg (by decide), hjcreated]
    exact hcreated'
  · rw [lookup_refreshedFields h, if_neg (by decide), if_pos rfl]
    exact hlast
  · rw [lookup_refreshedFields h, if_pos rfl]
    rw [optionalField, Decimal.nullable_print, Decimal.generation?_print, if_pos hgeneration]
    rfl

/-- What is read back has permissions and a generation without an exponent. -/
theorem of_reads_refreshedFields (h : HoldsRecord fields get r) {now : Decimal} {n : Nat}
    {r' : SessionRecord} (hr : ReadsAs ((refreshedFields fields now ⟨n, 0⟩).lookup ·) r') :
    r.permissions ≠ [] ∧ n < 10 ^ cjsonPrecision := by
  constructor
  · intro hnil
    obtain ⟨jperm, hjperm, hperm⟩ := Option.bind_eq_some_iff.mp h.reads.permissions
    have hread := hr.permissions
    rw [lookup_refreshedFields h, if_neg (by decide), if_neg (by decide), hjperm] at hread
    have hnone := (stringList?_throughLua hperm).trans (if_pos hnil)
    rw [Option.map_some, Option.bind_some, hnone] at hread
    cases hread
  · have hread := hr.generation
    rw [lookup_refreshedFields h, if_pos rfl, optionalField, Decimal.nullable_print,
      Decimal.generation?_print] at hread
    by_contra hge
    rw [if_neg hge] at hread
    cases hread

/-- The reply of a refresh that does not find the session idle for too long. -/
theorem refreshIndexedSession_eq {raw : Json} {expected : ExpectedSession}
    {replacement : Option Json} {now : Decimal} {ttlSeconds : Nat}
    (hraw : parseSessionRecord raw owner = some r) (hrep : Replaces r eff replacement)
    (hexpected : expected ≠ .different) (httl : 0 < ttlSeconds)
    (hlive : refreshIndexedSession raw owner expected replacement now ttlSeconds ≠ .expired) :
    ∃ fields get, HoldsRecord fields get eff ∧
      refreshIndexedSession raw owner expected replacement now ttlSeconds =
        if eff.generation = some none then .error "attempt to perform arithmetic on a nil value"
        else .refreshed (.obj (refreshedFields fields now ⟨(eff.generationCount + 1 : Nat), 0⟩)) := by
  obtain ⟨fields, get, happly, hold⟩ := applyReplacement_holds expected hraw hrep
  refine ⟨fields, get, hold, ?_⟩
  have howner : ¬(owner.isSome ∧ some eff.userId ≠ owner) := by
    obtain ⟨rawFields, rfl⟩ := exists_fields_of_parse hraw
    have hindexed := (parseSessionRecord_eq_some.mp hraw).2.2
    rintro ⟨hsome, hne⟩
    obtain ⟨o, rfl⟩ := Option.isSome_iff_exists.mp hsome
    exact hne (by rw [hrep.userId, hindexed o rfl])
  have hgeneration := hold.generation
  unfold refreshIndexedSession at hlive ⊢
  rw [if_neg httl.ne', if_neg hexpected, happly] at hlive ⊢
  simp only [hold.userId, if_neg howner, hold.lastActivity] at hlive ⊢
  split at hlive
  · exact absurd rfl hlive
  · rename_i hold'
    rw [if_neg hold']
    split at hgeneration
    · rename_i hnull
      rw [Option.map_eq_none_iff.mp hgeneration, if_pos hnull]
    · rename_i hnull
      obtain ⟨g, hg, hsucc⟩ := Option.map_eq_some_iff.mp hgeneration
      rw [hg, if_neg hnull, ← hsucc]
      rfl

/-- A refresh: its time, whether the caller expects the record that is stored, and the
replacement that the caller makes of the record it has read. -/
structure RefreshStep where
  now : Timestamp
  expected : ExpectedSession
  replacement : SessionRecord → Option Json

/-- The caller finds the record it expects, and replaces a record with permissions by another
one with permissions. -/
def RefreshStep.Fits (step : RefreshStep) : Prop :=
  step.expected ≠ .different ∧ ∀ r, ∃ eff, Replaces r eff (step.replacement r) ∧
    (r.permissions ≠ [] → eff.permissions ≠ [])

/-- One refresh after the other, as the middleware makes them. -/
def refreshAll (owner : Option String) (ttlSeconds : Nat) :
    List RefreshStep → Json → RefreshReply
  | [], raw => .refreshed raw
  | step :: steps, raw =>
    match refreshIndexedSession raw owner step.expected
      ((parseSessionRecord raw owner).bind step.replacement) step.now.value ttlSeconds with
    | .refreshed session => refreshAll owner ttlSeconds steps session
    | reply => reply

/-- The record is written back with its fields. -/
def Preserved (owner : Option String) (now : Decimal) (eff : SessionRecord) (reply : RefreshReply) :
    Prop :=
  ∃ session r', reply = .refreshed session ∧ parseSessionRecord session owner = some r' ∧
    RefreshedTo now eff r'

/-- A refresh keeps a record with permissions and a generation that can be counted up. -/
theorem refresh_preserved {raw : Json} {expected : ExpectedSession} {replacement : Option Json}
    {now : Timestamp} {ttlSeconds : Nat} (hraw : parseSessionRecord raw owner = some r)
    (hrep : Replaces r eff replacement) (hexpected : expected ≠ .different)
    (httl : 0 < ttlSeconds)
    (hlive : refreshIndexedSession raw owner expected replacement now.value ttlSeconds ≠ .expired)
    (hpermissions : eff.permissions ≠ []) (hnull : eff.generation ≠ some none)
    (hgeneration : eff.generationCount + 1 < 10 ^ cjsonPrecision) :
    Preserved owner now.value eff
      (refreshIndexedSession raw owner expected replacement now.value ttlSeconds) := by
  obtain ⟨fields, get, hold, hreply⟩ := refreshIndexedSession_eq hraw hrep hexpected httl hlive
  obtain ⟨r', hreads, hrefreshed⟩ := reads_refreshedFields hold now hpermissions hgeneration
  refine ⟨_, r', hreply.trans (if_neg hnull), ?_, hrefreshed⟩
  refine parseSessionRecord_eq_some.mpr ⟨keys_refreshedFields hold _ _, hreads, fun o ho => ?_⟩
  obtain ⟨rawFields, rfl⟩ := exists_fields_of_parse hraw
  have huser : r'.userId = eff.userId := by rw [hrefreshed.rest]
  rw [huser, hrep.userId]
  exact (parseSessionRecord_eq_some.mp hraw).2.2 o ho

/-- Any number of refreshes keeps it. -/
theorem refreshAll_accepted {ttlSeconds : Nat} (httl : 0 < ttlSeconds) (steps : List RefreshStep)
    (hsteps : ∀ step ∈ steps, step.Fits) {raw : Json} (hraw : parseSessionRecord raw owner = some r)
    (hpermissions : r.permissions ≠ []) (hnull : r.generation ≠ some none)
    (hgeneration : r.generationCount + steps.length < 10 ^ cjsonPrecision)
    (hlive : refreshAll owner ttlSeconds steps raw ≠ .expired) :
    ∃ session r', refreshAll owner ttlSeconds steps raw = .refreshed session ∧
      parseSessionRecord session owner = some r' := by
  induction steps generalizing raw r with
  | nil => exact ⟨raw, r, rfl, hraw⟩
  | cons step steps ih =>
    obtain ⟨⟨hexpected, hfits⟩, hsteps⟩ := List.forall_mem_cons.mp hsteps
    obtain ⟨eff, hrep, heff⟩ := hfits r
    rw [List.length_cons] at hgeneration
    rw [refreshAll, hraw, Option.bind_some] at hlive ⊢
    have hfirst : refreshIndexedSession raw owner step.expected (step.replacement r) step.now.value
        ttlSeconds ≠ .expired := by
      intro hexpired
      rw [hexpired] at hlive
      exact hlive rfl
    have hcountEff : eff.generationCount = r.generationCount := by
      rw [SessionRecord.generationCount, hrep.generation, SessionRecord.generationCount]
    obtain ⟨session, r', hreply, hparse, hrefreshed⟩ := refresh_preserved hraw hrep hexpected httl
      hfirst (heff hpermissions) (hrep.generation ▸ hnull) (by omega)
    rw [hreply] at hlive ⊢
    have hcount : r'.generationCount = r.generationCount + 1 := by
      rw [SessionRecord.generationCount, hrefreshed.generation, ← hcountEff]
      rfl
    refine ih hsteps hparse ?_ ?_ (by omega) hlive
    · rw [hrefreshed.rest]
      exact heff hpermissions
    · rw [hrefreshed.generation]
      simp

/-- **A refresh keeps an accepted record if and only if it has permissions, its
generation is not `null` and stays below 10^14**; and so does any number of them. -/
theorem refresh_preserves_iff {raw : Json} {owner : Option String} {r : SessionRecord}
    (hraw : parseSessionRecord raw owner = some r) {ttlSeconds : Nat} (httl : 0 < ttlSeconds) :
    (∀ (replacement : Option Json) (eff : SessionRecord) (expected : ExpectedSession)
      (now : Timestamp), Replaces r eff replacement → expected ≠ .different →
      refreshIndexedSession raw owner expected replacement now.value ttlSeconds ≠ .expired →
      (Preserved owner now.value eff
          (refreshIndexedSession raw owner expected replacement now.value ttlSeconds) ↔
        eff.permissions ≠ [] ∧ eff.generation ≠ some none ∧
          eff.generationCount + 1 < 10 ^ cjsonPrecision)) ∧
    (∀ steps : List RefreshStep, (∀ step ∈ steps, step.Fits) → r.permissions ≠ [] →
      r.generation ≠ some none → r.generationCount + steps.length < 10 ^ cjsonPrecision →
      refreshAll owner ttlSeconds steps raw ≠ .expired →
      ∃ session r', refreshAll owner ttlSeconds steps raw = .refreshed session ∧
        parseSessionRecord session owner = some r') := by
  refine ⟨fun replacement eff expected now hrep hexpected hlive => ⟨?_, ?_⟩,
    fun steps hsteps hp hn hg => refreshAll_accepted httl steps hsteps hraw hp hn hg⟩
  · rintro ⟨session, r', hreply, hparse, -⟩
    obtain ⟨fields, get, hold, heq⟩ := refreshIndexedSession_eq hraw hrep hexpected httl hlive
    rw [heq] at hreply
    split at hreply
    · cases hreply
    · rename_i hnull
      obtain rfl := RefreshReply.refreshed.inj hreply
      obtain ⟨hp, hg⟩ := of_reads_refreshedFields hold (parseSessionRecord_eq_some.mp hparse).2.1
      exact ⟨hp, hnull, hg⟩
  · rintro ⟨hp, hn, hg⟩
    exact refresh_preserved hraw hrep hexpected httl hlive hp hn hg

/-- A record of a user without a role. -/
def storedSession (permissions : List String) : Json :=
  .obj [("user_id", .str "00000000-0000-4000-8000-00000000000a"), ("username", .str "admin"),
    ("display_name", .str "Admin"), ("role", .str "admin"), ("role_id", .null),
    ("role_name", .null), ("permissions", .arr (permissions.map .str)),
    ("auth_provider", .str "local"), ("subject_id", .str "admin"), ("created_at", .float 15 1),
    ("last_activity", .float 15 1)]

/-- What is read from it. -/
def storedRecord (permissions : List String) : SessionRecord :=
  ⟨"00000000-0000-4000-8000-00000000000a", "admin", "Admin", "admin", none, none, permissions,
    .local, "admin", none, ⟨15, 1⟩, ⟨15, 1⟩, none⟩

/-- Two seconds past the epoch. -/
def refreshTime : Timestamp := ⟨⟨20, 1⟩, by decide +kernel⟩

theorem refresh_preserves_permissions :
    parseSessionRecord (storedSession ["query.submit"]) none =
        some (storedRecord ["query.submit"]) ∧
      Preserved none refreshTime.value (storedRecord ["query.submit"])
        (refreshIndexedSession (storedSession ["query.submit"]) none .equal none
          refreshTime.value 3600) := by
  have hparse : parseSessionRecord (storedSession ["query.submit"]) none =
      some (storedRecord ["query.submit"]) := by decide +kernel
  obtain ⟨session, hreply⟩ : ∃ session, refreshIndexedSession (storedSession ["query.submit"]) none
      .equal none refreshTime.value 3600 = .refreshed session := ⟨_, rfl⟩
  have hlive : refreshIndexedSession (storedSession ["query.submit"]) none .equal none
      refreshTime.value 3600 ≠ .expired := by
    rw [hreply]
    exact nofun
  exact ⟨hparse, ((refresh_preserves_iff hparse (by decide)).1 none _ .equal refreshTime rfl
    (by decide) hlive).mpr ⟨by decide, by decide, by decide⟩⟩

/-- **A refresh turns a record without permissions into one that is not accepted.** -/
theorem refresh_corrupts_empty_permissions :
    parseSessionRecord (storedSession []) none = some (storedRecord []) ∧
    ∃ session,
      refreshIndexedSession (storedSession []) none .equal none refreshTime.value 3600 =
        .refreshed session ∧
      parseSessionRecord session none = none := by
  refine ⟨by decide +kernel, _, rfl, ?_⟩
  decide +kernel

end QueryCraft
