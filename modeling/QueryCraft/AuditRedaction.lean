import QueryCraft.AuditLog
import QueryCraft.AuditPatterns

/-! # Audit redaction

`redact_audit_value` goes through a JSON value.  What stands under a sensitive key becomes the
token `[REDACTED]`, and so does a string that is sensitive itself.

What is left is clean: redacting it again changes nothing, and values that differ only in what is
redacted become the same (`redaction_sound_iff`).  All of this presupposes that the strings can be
inspected; a decimal character reference with more than 4300 digits makes the redaction raise.
-/
namespace QueryCraft

/-! ## Values -/

namespace Json

section Everywhere
variable (secret : String → Bool) (leaf : String → Prop) (under : Json → Prop)

mutual

/-- Every string outside secret keys satisfies `leaf`, and what stands under them `under`. -/
def Everywhere : Json → Prop
  | .str s => leaf s
  | .arr items => EveryItem items
  | .obj fields => EveryField fields
  | _ => True

def EveryItem : List Json → Prop
  | [] => True
  | v :: vs => Everywhere v ∧ EveryItem vs

def EveryField : List (String × Json) → Prop
  | [] => True
  | (key, v) :: fields => (if secret key then under v else Everywhere v) ∧ EveryField fields

end

end Everywhere

section Alike
variable (secret : String → Bool) (leaf : String → String → Prop)

mutual

/-- The values have the same lists, keys and scalars outside secret keys, and strings that are
related by `leaf`. -/
def Alike : Json → Json → Prop
  | .null, .null => True
  | .bool a, .bool b => a = b
  | .int m, .int n => m = n
  | .float m s, .float n t => m = n ∧ s = t
  | .str s, .str t => leaf s t
  | .arr xs, .arr ys => AlikeItems xs ys
  | .obj fs, .obj gs => AlikeFields fs gs
  | _, _ => False

def AlikeItems : List Json → List Json → Prop
  | [], [] => True
  | v :: vs, w :: ws => Alike v w ∧ AlikeItems vs ws
  | _, _ => False

def AlikeFields : List (String × Json) → List (String × Json) → Prop
  | [], [] => True
  | (key, v) :: fs, (key', w) :: gs =>
    key = key' ∧ (secret key = false → Alike v w) ∧ AlikeFields fs gs
  | _, _ => False

end

end Alike

end Json

/-! ## Redaction -/

/-- `_SENSITIVE_TOKENS`. -/
def sensitiveTokens : List String :=
  ["password", "secret", "token", "apikey", "credential", "certificate", "privatekey",
    "assertion", "samlresponse", "authorization", "encryptionkey", "bearer", "jwt", "nonce",
    "state", "code", "accesstoken", "idtoken", "refreshtoken"]

/-- `_NON_SECRET_NORMALIZED`. -/
def nonSecretNormalized : List String :=
  ["errorcode", "statuscode", "postcode", "zipcode", "hashcode"]

/-- `needle in text`. -/
def containsText (needle text : List Char) : Bool := text.tails.any (needle.isPrefixOf ·)

namespace TextTables
variable (tables : TextTables)

/-- `_is_sensitive_key`. -/
def isSensitiveKey (key : String) : Bool :=
  let normalized := (tables.lower key).toList.filter fun c => c ≠ '_' && c ≠ '-'
  if nonSecretNormalized.any (·.toList == normalized) then false
  else sensitiveTokens.any fun token => containsText token.toList normalized

mutual

/-- `redact_audit_value`; `none` where `html.unescape` raises. -/
def redactAuditValue : Json → Option Json
  | .obj fields => (redactFields fields).map .obj
  | .arr items => (redactItems items).map .arr
  | .str s => (tables.isSensitiveString s).map fun sensitive =>
    if sensitive then .str redacted else .str s
  | v => some v

def redactItems : List Json → Option (List Json)
  | [] => some []
  | v :: vs => (redactAuditValue v).bind fun w => (redactItems vs).map (w :: ·)

def redactFields : List (String × Json) → Option (List (String × Json))
  | [] => some []
  | (key, v) :: fields =>
    (if tables.isSensitiveKey key then some (.str redacted) else redactAuditValue v).bind fun w =>
      (redactFields fields).map ((key, w) :: ·)

end

/-- The strings that the redaction looks at can be inspected. -/
def CanInspect : Json → Prop :=
  Json.Everywhere tables.isSensitiveKey (fun s => tables.isInspectable s.toList = true)
    fun _ => True

/-- No string is sensitive, and only the token stands under sensitive keys. -/
def Clean : Json → Prop :=
  Json.Everywhere tables.isSensitiveKey (fun s => tables.isSensitiveString s = some false)
    fun v => v = .str redacted

/-- The keys, the lengths of lists and the scalars other than strings are the same outside
sensitive keys. -/
def SameShape : Json → Json → Prop := Json.Alike tables.isSensitiveKey fun _ _ => True

/-- The strings are the same, or both are sensitive. -/
def IndistinctStrings (s t : String) : Prop :=
  s = t ∨ (tables.isSensitiveString s = some true ∧ tables.isSensitiveString t = some true)

/-- The values differ only under sensitive keys, and in strings that are sensitive in both. -/
def Indistinct : Json → Json → Prop :=
  Json.Alike tables.isSensitiveKey tables.IndistinctStrings

/-! ### What is redacted is clean -/

mutual

/-- The redaction returns exactly when the strings can be inspected. -/
theorem isSome_redactAuditValue : ∀ v : Json,
    (tables.redactAuditValue v).isSome = true ↔ tables.CanInspect v
  | .null | .bool _ | .int _ | .float _ _ => by
    simp [redactAuditValue, CanInspect, Json.Everywhere]
  | .str s => by
    rw [redactAuditValue, Option.isSome_map, isSome_isSensitiveString, CanInspect,
      Json.Everywhere]
  | .arr items => by
    rw [redactAuditValue, Option.isSome_map, isSome_redactItems, CanInspect, Json.Everywhere]
  | .obj fields => by
    rw [redactAuditValue, Option.isSome_map, isSome_redactFields, CanInspect, Json.Everywhere]

theorem isSome_redactItems : ∀ items : List Json, (tables.redactItems items).isSome = true ↔
    Json.EveryItem tables.isSensitiveKey (fun s => tables.isInspectable s.toList = true)
      (fun _ => True) items
  | [] => by simp [redactItems, Json.EveryItem]
  | v :: vs => by
    have hv := isSome_redactAuditValue v
    rw [redactItems, Json.EveryItem, ← isSome_redactItems vs]
    cases hval : tables.redactAuditValue v with
    | none => simp_all [CanInspect]
    | some w => simp_all [CanInspect]

theorem isSome_redactFields : ∀ fields : List (String × Json),
    (tables.redactFields fields).isSome = true ↔
    Json.EveryField tables.isSensitiveKey (fun s => tables.isInspectable s.toList = true)
      (fun _ => True) fields
  | [] => by simp [redactFields, Json.EveryField]
  | (key, v) :: fields => by
    have hv := isSome_redactAuditValue v
    rw [redactFields, Json.EveryField, ← isSome_redactFields fields]
    by_cases hkey : tables.isSensitiveKey key = true
    · simp [hkey]
    · cases hval : tables.redactAuditValue v with
      | none => simp_all [CanInspect]
      | some w => simp_all [CanInspect]

end

mutual

/-- A clean value is left as it is. -/
theorem redactAuditValue_of_clean : ∀ v : Json, tables.Clean v →
    tables.redactAuditValue v = some v
  | .null, _ | .bool _, _ | .int _, _ | .float _ _, _ => rfl
  | .str s, h => by
    rw [Clean, Json.Everywhere] at h
    rw [redactAuditValue, h]
    rfl
  | .arr items, h => by
    rw [Clean, Json.Everywhere] at h
    rw [redactAuditValue, redactItems_of_clean items h]
    rfl
  | .obj fields, h => by
    rw [Clean, Json.Everywhere] at h
    rw [redactAuditValue, redactFields_of_clean fields h]
    rfl

theorem redactItems_of_clean : ∀ items : List Json,
    Json.EveryItem tables.isSensitiveKey (fun s => tables.isSensitiveString s = some false)
      (fun v => v = .str redacted) items → tables.redactItems items = some items
  | [], _ => rfl
  | v :: vs, h => by
    rw [Json.EveryItem] at h
    rw [redactItems, redactAuditValue_of_clean v h.1, redactItems_of_clean vs h.2]
    rfl

theorem redactFields_of_clean : ∀ fields : List (String × Json),
    Json.EveryField tables.isSensitiveKey (fun s => tables.isSensitiveString s = some false)
      (fun v => v = .str redacted) fields → tables.redactFields fields = some fields
  | [], _ => rfl
  | (key, v) :: fields, h => by
    rw [Json.EveryField] at h
    obtain ⟨hv, hrest⟩ := h
    rw [redactFields, redactFields_of_clean fields hrest]
    by_cases hkey : tables.isSensitiveKey key = true
    · rw [if_pos hkey] at hv ⊢
      rw [hv]
      rfl
    · rw [if_neg hkey] at hv ⊢
      rw [redactAuditValue_of_clean v hv]
      rfl

end

/-- A string after its inspection. -/
theorem isSensitiveString_redactString {s : String} {sensitive : Bool}
    (h : tables.isSensitiveString s = some sensitive) :
    tables.isSensitiveString (if sensitive then redacted else s) = some false := by
  cases sensitive with
  | true => exact tables.isSensitiveString_redacted
  | false => exact h

mutual

/-- What was redacted is clean and has the shape of the value. -/
theorem redactAuditValue_spec : ∀ (v : Json) {w : Json}, tables.redactAuditValue v = some w →
    tables.SameShape v w ∧ tables.Clean w
  | .null, _, h | .bool _, _, h | .int _, _, h | .float _ _, _, h => by
    obtain rfl := Option.some.inj h
    simp [SameShape, Clean, Json.Alike, Json.Everywhere]
  | .str s, w, h => by
    rw [redactAuditValue, Option.map_eq_some_iff] at h
    obtain ⟨sensitive, hs, rfl⟩ := h
    rw [← apply_ite Json.str, SameShape, Json.Alike, Clean, Json.Everywhere]
    exact ⟨trivial, tables.isSensitiveString_redactString hs⟩
  | .arr items, w, h => by
    rw [redactAuditValue, Option.map_eq_some_iff] at h
    obtain ⟨ws, hws, rfl⟩ := h
    rw [SameShape, Json.Alike, Clean, Json.Everywhere]
    exact redactItems_spec items hws
  | .obj fields, w, h => by
    rw [redactAuditValue, Option.map_eq_some_iff] at h
    obtain ⟨gs, hgs, rfl⟩ := h
    rw [SameShape, Json.Alike, Clean, Json.Everywhere]
    exact redactFields_spec fields hgs

theorem redactItems_spec : ∀ (vs : List Json) {ws : List Json}, tables.redactItems vs = some ws →
    Json.AlikeItems tables.isSensitiveKey (fun _ _ => True) vs ws ∧
    Json.EveryItem tables.isSensitiveKey (fun s => tables.isSensitiveString s = some false)
      (fun v => v = .str redacted) ws
  | [], _, h => by
    obtain rfl := Option.some.inj h
    simp [Json.AlikeItems, Json.EveryItem]
  | v :: vs, ws, h => by
    rw [redactItems, Option.bind_eq_some_iff] at h
    obtain ⟨w, hw, hmap⟩ := h
    obtain ⟨ws, hws, rfl⟩ := Option.map_eq_some_iff.mp hmap
    obtain ⟨hshape, hclean⟩ := redactAuditValue_spec v hw
    obtain ⟨hshapes, hcleans⟩ := redactItems_spec vs hws
    rw [Json.AlikeItems, Json.EveryItem]
    exact ⟨⟨hshape, hshapes⟩, hclean, hcleans⟩

theorem redactFields_spec : ∀ (fs : List (String × Json)) {gs : List (String × Json)},
    tables.redactFields fs = some gs →
    Json.AlikeFields tables.isSensitiveKey (fun _ _ => True) fs gs ∧
    Json.EveryField tables.isSensitiveKey (fun s => tables.isSensitiveString s = some false)
      (fun v => v = .str redacted) gs
  | [], _, h => by
    obtain rfl := Option.some.inj h
    simp [Json.AlikeFields, Json.EveryField]
  | (key, v) :: fs, gs, h => by
    rw [redactFields, Option.bind_eq_some_iff] at h
    obtain ⟨w, hw, hmap⟩ := h
    obtain ⟨gs, hgs, rfl⟩ := Option.map_eq_some_iff.mp hmap
    obtain ⟨hshapes, hcleans⟩ := redactFields_spec fs hgs
    rw [Json.AlikeFields, Json.EveryField]
    by_cases hkey : tables.isSensitiveKey key = true
    · rw [if_pos hkey] at hw ⊢
      exact ⟨⟨rfl, by simp [hkey], hshapes⟩, (Option.some.inj hw).symm, hcleans⟩
    · rw [if_neg hkey] at hw ⊢
      obtain ⟨hshape, hclean⟩ := redactAuditValue_spec v hw
      exact ⟨⟨rfl, fun _ => hshape, hshapes⟩, hclean, hcleans⟩

end

mutual

/-- Values that differ only in what is redacted become the same. -/
theorem redactAuditValue_congr : ∀ {v w : Json}, tables.Indistinct v w →
    tables.redactAuditValue v = tables.redactAuditValue w
  | .null, w, h | .bool _, w, h | .int _, w, h | .float _ _, w, h => by
    cases w <;> simp_all [Indistinct, Json.Alike]
  | .str s, w, h => by
    cases w with
    | str t =>
      rw [Indistinct, Json.Alike] at h
      rcases h with rfl | ⟨hs, ht⟩
      · rfl
      · rw [redactAuditValue, redactAuditValue, hs, ht]
        rfl
    | _ => simp [Indistinct, Json.Alike] at h
  | .arr vs, w, h => by
    cases w with
    | arr ws =>
      rw [Indistinct, Json.Alike] at h
      rw [redactAuditValue, redactAuditValue, redactItems_congr h]
    | _ => simp [Indistinct, Json.Alike] at h
  | .obj fs, w, h => by
    cases w with
    | obj gs =>
      rw [Indistinct, Json.Alike] at h
      rw [redactAuditValue, redactAuditValue, redactFields_congr h]
    | _ => simp [Indistinct, Json.Alike] at h

theorem redactItems_congr : ∀ {vs ws : List Json},
    Json.AlikeItems tables.isSensitiveKey tables.IndistinctStrings vs ws →
    tables.redactItems vs = tables.redactItems ws
  | [], ws, h => by
    cases ws with
    | nil => rfl
    | cons w ws => simp [Json.AlikeItems] at h
  | v :: vs, ws, h => by
    cases ws with
    | nil => simp [Json.AlikeItems] at h
    | cons w ws =>
      rw [Json.AlikeItems] at h
      rw [redactItems, redactItems, redactAuditValue_congr h.1, redactItems_congr h.2]

theorem redactFields_congr : ∀ {fs gs : List (String × Json)},
    Json.AlikeFields tables.isSensitiveKey tables.IndistinctStrings fs gs →
    tables.redactFields fs = tables.redactFields gs
  | [], gs, h => by
    cases gs with
    | nil => rfl
    | cons g gs => simp [Json.AlikeFields] at h
  | (key, v) :: fs, gs, h => by
    cases gs with
    | nil => simp [Json.AlikeFields] at h
    | cons g gs =>
      rw [Json.AlikeFields] at h
      obtain ⟨rfl, hv, hrest⟩ := h
      rw [redactFields, redactFields, redactFields_congr hrest]
      by_cases hkey : tables.isSensitiveKey g.1 = true
      · rw [if_pos hkey, if_pos hkey]
      · rw [if_neg hkey, if_neg hkey, redactAuditValue_congr (hv (by simpa using hkey))]

end

/-- What was redacted is left as it is. -/
theorem redactAuditValue_idem {v w : Json} (h : tables.redactAuditValue v = some w) :
    tables.redactAuditValue w = some w :=
  tables.redactAuditValue_of_clean w (tables.redactAuditValue_spec v h).2

end TextTables

/-! ## Entries -/

/-- The attributes of an audit entry that are shown, of a row as of what a search returned. -/
structure VisibleEntry where
  sequenceNumber : Int
  timestamp : DateTime
  actorIdentity : Option String
  actionType : String
  resourceType : Option String
  resourceId : Option String
  outcome : String
  context : Option Json

/-- A value of an entry's dictionary: a JSON value or a `datetime`. -/
inductive EntryValue where
  | json (v : Json)
  | datetime (t : DateTime)

/-- A string or `None`. -/
def optionalText (s : Option String) : EntryValue := .json ((s.map Json.str).getD .null)

/-- The dictionary that `redact_audit_entry` builds. -/
def VisibleEntry.values (e : VisibleEntry) : List (String × EntryValue) :=
  [("sequence_number", .json (.int e.sequenceNumber)),
   ("timestamp", .datetime e.timestamp),
   ("actor_identity", optionalText e.actorIdentity),
   ("action_type", .json (.str e.actionType)),
   ("resource_type", optionalText e.resourceType),
   ("resource_id", optionalText e.resourceId),
   ("outcome", .json (.str e.outcome)),
   ("context", .json (e.context.getD (.obj [])))]

namespace TextTables
variable (tables : TextTables)

/-- `redact_audit_value` for a value of an entry. -/
def redactEntryValue : EntryValue → Option EntryValue
  | .json v => (tables.redactAuditValue v).map .json
  | .datetime t => some (.datetime t)

/-- A key with its value, redacted. -/
def redactEntryField (field : String × EntryValue) : Option (String × EntryValue) :=
  (if tables.isSensitiveKey field.1 then some (.json (.str redacted))
    else tables.redactEntryValue field.2).map fun w => (field.1, w)

/-- `redact_audit_entry`. -/
def redactAuditEntry (e : VisibleEntry) : Option (List (String × EntryValue)) :=
  e.values.mapM tables.redactEntryField

/-- An entry whose context was redacted when it was written is shown as if it had not been. -/
theorem redactAuditEntry_redacted {v w : Json} (h : tables.redactAuditValue v = some w)
    (e : VisibleEntry) :
    tables.redactAuditEntry { e with context := some w } =
      tables.redactAuditEntry { e with context := some v } := by
  have hvalue : tables.redactEntryValue (.json w) = tables.redactEntryValue (.json v) := by
    rw [redactEntryValue, redactEntryValue, tables.redactAuditValue_idem h, h]
  have hfield : tables.redactEntryField ("context", .json w) =
      tables.redactEntryField ("context", .json v) := by
    rw [redactEntryField, redactEntryField, hvalue]
  simp only [redactAuditEntry, VisibleEntry.values, List.mapM_cons, List.mapM_nil,
    Option.getD_some, hfield]

/-- The redaction of a value: it returns, what it returns is left as it is by the next redaction
and does not depend on what was redacted, and so it makes no difference to what is shown of an
entry whether the context was redacted before. -/
def RedactsSoundly (v : Json) : Prop :=
  ∃ w, tables.redactAuditValue v = some w ∧ tables.redactAuditValue w = some w ∧
    tables.SameShape v w ∧ tables.Clean w ∧
    (∀ v', tables.Indistinct v v' → tables.redactAuditValue v' = some w) ∧
    ∀ e : VisibleEntry, tables.redactAuditEntry { e with context := some w } =
      tables.redactAuditEntry { e with context := some v }

/-- The redaction is sound for a value exactly when its strings can be inspected. -/
theorem redaction_sound_iff (v : Json) : tables.RedactsSoundly v ↔ tables.CanInspect v := by
  rw [← isSome_redactAuditValue]
  constructor
  · rintro ⟨w, hw, -⟩
    rw [hw]
    rfl
  · intro hsome
    obtain ⟨w, hw⟩ := Option.isSome_iff_exists.mp hsome
    obtain ⟨hshape, hclean⟩ := tables.redactAuditValue_spec v hw
    refine ⟨w, hw, tables.redactAuditValue_idem hw, hshape, hclean, ?_,
      tables.redactAuditEntry_redacted hw⟩
    intro v' hv'
    rw [← tables.redactAuditValue_congr hv', hw]

end TextTables

/-- The tables of ASCII. -/
def asciiTables : TextTables where
  isAlnum := Char.isAlphanum
  lower := lowerAscii
  html5 := fun _ => none
  isAlnum_ascii := fun _ => rfl
  lower_ascii := fun _ => rfl

/-- A decimal character reference with `n` digits. -/
def decimalReference (n : Nat) : String := String.ofList ('&' :: '#' :: List.replicate n '1')

theorem unescapes_decimalReference {n : Nat} (hn : intMaxStrDigits < n)
    (hlen : n + 2 ≤ maxDecodeLength) :
    TextTables.unescapes (decimalReference n).toList = false := by
  have hdigits : (List.replicate n '1').takeWhile isDigit = List.replicate n '1' := by
    rw [List.takeWhile_replicate]
    rfl
  have hlong : hasLongReference ('&' :: '#' :: List.replicate n '1') = true := by
    simp [hasLongReference, startsLongReference, hdigits, hn]
  rw [decimalReference, String.toList_ofList]
  simp only [TextTables.unescapes, hlong, List.length_cons, List.length_replicate, Bool.not_true,
    Bool.or_false, decide_eq_false_iff_not, not_lt]
  exact hlen

/-- A context with a reference of 4301 digits cannot be redacted. -/
theorem long_reference_not_redacted :
    ¬ asciiTables.RedactsSoundly (.obj [("note", .str (decimalReference 4301))]) := by
  rintro ⟨w, hw, -⟩
  have hinspect : asciiTables.CanInspect (.obj [("note", .str (decimalReference 4301))]) := by
    rw [← TextTables.isSome_redactAuditValue, hw]
    rfl
  have hkey : asciiTables.isSensitiveKey "note" = false := by decide +kernel
  have hraises := unescapes_decimalReference (n := 4301) (by decide) (by decide)
  simp [TextTables.CanInspect, Json.Everywhere, Json.EveryField, hkey, TextTables.isInspectable,
    hraises] at hinspect

end QueryCraft
