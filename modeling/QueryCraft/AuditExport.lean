import QueryCraft.AuditRedaction
import QueryCraft.Csv
import QueryCraft.Decimals

/-! # CSV export of audit entries

`AuditExportService.export_csv` writes five metadata lines, which start with `#`, and then a CSV
document with a header and one row per entry.  Every text is redacted first; a cell that a
spreadsheet would take for a formula gets a tab in front, and the ends of lines in metadata are
spelled out.  The last metadata line is the SHA-256 digest of the document without its last line
end.

`export_csv_sound_iff` says that the file reads back this way, whatever the entries hold, as long
as their strings can be inspected for redaction.
-/
namespace QueryCraft

/-! ## Texts -/

/-- The digits of a number, with zeros in front. -/
def zeroPadded (width n : Nat) : List Char :=
  List.replicate (width - (Nat.toDigits 10 n).length) '0' ++ Nat.toDigits 10 n

/-- `str` of a `datetime` in UTC. -/
def strDateTime (t : DateTime) : List Char :=
  let second := t.microsecond / 1000000
  let fraction := t.microsecond % 1000000
  zeroPadded 4 t.year ++ '-' :: zeroPadded 2 t.month ++ '-' :: zeroPadded 2 t.day ++
    ' ' :: zeroPadded 2 (second / 3600) ++ ':' :: zeroPadded 2 (second / 60 % 60) ++
    ':' :: zeroPadded 2 (second % 60) ++
    (if fraction = 0 then [] else '.' :: zeroPadded 6 fraction) ++ "+00:00".toList

/-- What the export takes from Python and its libraries: besides the text tables the `repr` of
floats, lists and dictionaries, the writer of the module `csv`, and the hexadecimal SHA-256
digest. -/
structure ExportTables extends TextTables where
  repr : Json → List Char
  writer : Csv.Writer
  sha256 : ByteArray → List Char
  sha256_hex : ∀ bytes, ∀ c ∈ sha256 bytes, isHexDigit c = true

namespace ExportTables
variable (x : ExportTables)

/-- `str` of a JSON value. -/
def strValue : Json → List Char
  | .null => "None".toList
  | .bool b => if b then "True".toList else "False".toList
  | .int n => (toString n).toList
  | .str s => s.toList
  | v => x.repr v

/-- `str` of a value of an entry. -/
def str : EntryValue → List Char
  | .json v => x.strValue v
  | .datetime t => strDateTime t

/-- `str(value) if value is not None else ""`. -/
def strOrEmpty : EntryValue → List Char
  | .json .null => []
  | v => x.str v

mutual

/-- `json.dumps` with `sort_keys`. -/
def dumps : Json → List Char
  | .null => "null".toList
  | .bool b => if b then "true".toList else "false".toList
  | .int n => (toString n).toList
  | .float m s => x.repr (.float m s)
  | .str s => JsonText.dumpsString s.toList
  | .arr items => '[' :: List.intercalate ", ".toList (dumpsItems items) ++ [']']
  | .obj fields =>
    '{' :: List.intercalate ", ".toList
      (((dumpsFields fields).mergeSort fun f g => f.1 ≤ g.1).map fun f =>
        JsonText.dumpsString f.1.toList ++ ": ".toList ++ f.2) ++ ['}']

def dumpsItems : List Json → List (List Char)
  | [] => []
  | v :: vs => dumps v :: dumpsItems vs

def dumpsFields : List (String × Json) → List (String × List Char)
  | [] => []
  | (key, v) :: fields => (key, dumps v) :: dumpsFields fields

end

/-- `json.dumps` of a value of an entry; a `datetime` is refused. -/
def dumpsEntry : EntryValue → Option (List Char)
  | .json v => some (x.dumps v)
  | .datetime _ => none

end ExportTables

/-! ## Cells -/

/-- The characters that `_safe_csv_cell` skips. -/
def isSkipped (c : Char) : Bool := isSpace c || c == '\ufeff' || c.toNat ≤ 31 || c.toNat == 127

/-- `_FORMULA_PREFIXES`. -/
def formulaPrefixes : List Char := ['=', '+', '-', '@', '|']

/-- After what is skipped, the text starts like a formula. -/
def startsFormula (value : List Char) : Bool :=
  (value.dropWhile isSkipped).head?.any formulaPrefixes.contains

/-- `_safe_csv_cell`. -/
def safeCsvCell (value : List Char) : List Char :=
  if startsFormula value then '\t' :: value else value

/-- The two replacements of `_safe_csv_metadata_value`. -/
def oneLine (value : List Char) : List Char :=
  value.flatMap fun c => if c = '\r' then ['\\', 'r'] else if c = '\n' then ['\\', 'n'] else [c]

/-- `_CSV_COLUMNS`. -/
def csvColumns : List String :=
  ["sequence_number", "timestamp", "actor_identity", "action_type", "resource_type",
    "resource_id", "outcome", "context"]

namespace ExportTables
variable (x : ExportTables)

/-- The dictionary `raw_values`; `none` stands for a missing key. -/
def rawValues (redactedEntry : List (String × EntryValue)) :
    Option (List (String × List Char)) := do
  let sequenceNumber ← redactedEntry.lookup "sequence_number"
  let timestamp ← redactedEntry.lookup "timestamp"
  let actorIdentity ← redactedEntry.lookup "actor_identity"
  let actionType ← redactedEntry.lookup "action_type"
  let resourceType ← redactedEntry.lookup "resource_type"
  let resourceId ← redactedEntry.lookup "resource_id"
  let outcome ← redactedEntry.lookup "outcome"
  let context ← redactedEntry.lookup "context"
  let contextText ← x.dumpsEntry context
  some
    [("sequence_number", x.str sequenceNumber),
     ("timestamp", x.str timestamp),
     ("actor_identity", x.strOrEmpty actorIdentity),
     ("action_type", x.str actionType),
     ("resource_type", x.strOrEmpty resourceType),
     ("resource_id", x.strOrEmpty resourceId),
     ("outcome", x.str outcome),
     ("context", contextText)]

/-- `_entry_to_csv_row`. -/
def entryToCsvRow (redactedEntry : List (String × EntryValue)) : Option (List (List Char)) :=
  (x.rawValues redactedEntry).bind fun raw =>
    csvColumns.mapM fun col => (raw.lookup col).map safeCsvCell

/-- `_safe_csv_metadata_value`. -/
def safeCsvMetadataValue (value : Json) : Option (List Char) :=
  (x.redactAuditValue value).map fun w => oneLine (safeCsvCell (x.strValue w))

end ExportTables

/-! ## The file -/

/-- `EXPORT_LIMIT`. -/
def exportLimit : Nat := 50000

/-- The metadata of an export. -/
structure ExportMetadata where
  exportActor : Json
  exportTimestamp : Json
  filterSummary : Json
  recordCount : Json

/-- What `export_csv` raises: `ExportLimitExceededError`, or an error of the redaction. -/
inductive ExportError where
  | limitExceeded (count : Nat)
  | valueError
deriving DecidableEq, Repr

/-- A metadata line. -/
def metaLine (key : String) (value : List Char) : List Char :=
  "# ".toList ++ key.toList ++ " = ".toList ++ value

/-- `text.removesuffix("\n")`. -/
def removeLineEnd (text : List Char) : List Char :=
  if text.getLast? = some '\n' then text.dropLast else text

/-- `text.encode("utf-8")`. -/
def encodeUtf8 (text : List Char) : ByteArray := (String.ofList text).toUTF8

namespace ExportTables
variable (x : ExportTables)

/-- The column header and the rows. -/
def dataPayload (entries : List VisibleEntry) : Option (List Char) :=
  (entries.mapM fun e => (x.redactAuditEntry e).bind x.entryToCsvRow).map fun rows =>
    x.writer.write (csvColumns.map String.toList :: rows)

/-- The metadata lines for a document. -/
def metaLines (metadata : ExportMetadata) (payload : List Char) : Option (List (List Char)) := do
  let exportActor ← x.safeCsvMetadataValue metadata.exportActor
  let exportTimestamp ← x.safeCsvMetadataValue metadata.exportTimestamp
  let filterSummary ← x.safeCsvMetadataValue metadata.filterSummary
  let recordCount ← x.safeCsvMetadataValue metadata.recordCount
  some
    [metaLine "export_actor" exportActor,
     metaLine "export_timestamp" exportTimestamp,
     metaLine "filter_summary" filterSummary,
     metaLine "record_count" recordCount,
     metaLine "checksum" (x.sha256 (encodeUtf8 (removeLineEnd payload)))]

/-- The text of the file. -/
def exportText (entries : List VisibleEntry) (metadata : ExportMetadata) : Option (List Char) :=
  (x.dataPayload entries).bind fun payload =>
    (x.metaLines metadata payload).map fun lines =>
      List.intercalate ['\n'] lines ++ ['\n'] ++ payload

/-- `AuditExportService.export_csv`. -/
def exportCsv (entries : List VisibleEntry) (metadata : ExportMetadata) :
    Except ExportError ByteArray :=
  if exportLimit < entries.length then .error (.limitExceeded entries.length)
  else
    match x.exportText entries metadata with
    | some text => .ok (encodeUtf8 text)
    | none => .error .valueError

end ExportTables

/-! ## Reading the file -/

/-- The lines at the start of a text that begin with `#`, and the rest. -/
def commentLines (text : List Char) : List (List Char) × List Char :=
  match text with
  | '#' :: rest =>
    let more := commentLines ((rest.dropWhile (· ≠ '\n')).drop 1)
    (('#' :: rest.takeWhile (· ≠ '\n')) :: more.1, more.2)
  | text => ([], text)
termination_by text.length
decreasing_by
  have := (List.dropWhile_sublist (l := rest) (· ≠ '\n')).length_le
  simp only [List.length_drop, List.length_cons]
  omega

/-- The cell is the text, which does not start like a formula, or the text with a tab in
front. -/
def Guarded (text cell : List Char) : Prop :=
  (cell = text ∧ startsFormula cell = false) ∨ cell = '\t' :: text

theorem commentLines_cons {line : List Char} (h : '\n' ∉ line) (rest : List Char) :
    commentLines ('#' :: line ++ '\n' :: rest) =
      (('#' :: line) :: (commentLines rest).1, (commentLines rest).2) := by
  have hline : ∀ c ∈ line, decide (c ≠ '\n') = true := by
    intro c hc
    simp only [decide_eq_true_eq]
    rintro rfl
    exact h hc
  have htake : (line ++ '\n' :: rest).takeWhile (· ≠ '\n') = line := by
    rw [List.takeWhile_append_of_pos hline]
    simp
  have hdrop : ((line ++ '\n' :: rest).dropWhile (· ≠ '\n')).drop 1 = rest := by
    rw [List.dropWhile_append_of_pos hline]
    simp
  rw [List.cons_append, commentLines, htake, hdrop]

theorem commentLines_of_ne {c : Char} (h : c ≠ '#') (rest : List Char) :
    commentLines (c :: rest) = ([], c :: rest) := by
  rw [commentLines]
  rintro rest' heq
  exact h (List.cons.inj heq).1

/-! ### Cells and lines -/

theorem guarded_safeCsvCell (text : List Char) : Guarded text (safeCsvCell text) := by
  rw [safeCsvCell]
  split
  next => exact .inr rfl
  next h => exact .inl ⟨rfl, by simpa using h⟩

/-- Spelling out the ends of lines makes no formula. -/
theorem startsFormula_oneLine {text : List Char} (h : startsFormula text = false) :
    startsFormula (oneLine text) = false := by
  induction text with
  | nil => rfl
  | cons c cs ih =>
    by_cases hcr : c = '\r'
    · subst hcr
      simp only [oneLine, List.flatMap_cons, if_true, List.cons_append]
      rfl
    · by_cases hlf : c = '\n'
      · subst hlf
        simp only [oneLine, List.flatMap_cons, if_true, if_neg hcr, List.cons_append]
        rfl
      · have hcons : oneLine (c :: cs) = c :: oneLine cs := by
          simp [oneLine, hcr, hlf]
        rw [hcons]
        by_cases hskip : isSkipped c = true
        · rw [startsFormula, List.dropWhile_cons_of_pos hskip] at h ⊢
          exact ih h
        · rw [startsFormula, List.dropWhile_cons_of_neg hskip] at h ⊢
          exact h

theorem guarded_oneLine (text : List Char) :
    Guarded (oneLine text) (oneLine (safeCsvCell text)) := by
  rcases guarded_safeCsvCell text with ⟨heq, hformula⟩ | heq
  · rw [heq] at hformula ⊢
    exact .inl ⟨rfl, startsFormula_oneLine hformula⟩
  · rw [heq]
    exact .inr rfl

theorem mem_oneLine {text : List Char} {c : Char} (h : c ∈ oneLine text) : c ≠ '\r' ∧ c ≠ '\n' := by
  obtain ⟨d, -, hc⟩ := List.mem_flatMap.mp h
  split at hc
  next => rcases List.mem_pair.mp hc with rfl | rfl <;> decide
  next hcr =>
    split at hc
    next => rcases List.mem_pair.mp hc with rfl | rfl <;> decide
    next hlf =>
      obtain rfl := List.mem_singleton.mp hc
      exact ⟨hcr, hlf⟩

/-- Lines that begin with `#` before something that does not. -/
theorem commentLines_append {lines : List (List Char)}
    (h : ∀ line ∈ lines, ∃ l, line = '#' :: l ∧ '\n' ∉ l) {rest : List Char}
    (hrest : commentLines rest = ([], rest)) :
    commentLines (lines.flatMap (· ++ ['\n']) ++ rest) = (lines, rest) := by
  induction lines with
  | nil => exact hrest
  | cons line lines ih =>
    obtain ⟨l, rfl, hl⟩ := h line List.mem_cons_self
    have hlines := ih fun line' hline' => h line' (List.mem_cons_of_mem _ hline')
    rw [List.flatMap_cons, List.append_assoc, List.append_assoc, List.singleton_append,
      commentLines_cons hl, hlines]

theorem intercalate_append (sep line : List Char) (lines : List (List Char)) :
    List.intercalate sep (line :: lines) ++ sep = (line :: lines).flatMap (· ++ sep) := by
  induction lines generalizing line with
  | nil => simp
  | cons next lines ih =>
    rw [List.intercalate_cons_cons, List.append_assoc, List.append_assoc, ih next,
      List.flatMap_cons]
    simp

theorem removeLineEnd_append (body : List Char) : removeLineEnd (body ++ ['\n']) = body := by
  simp [removeLineEnd]

/-! ### Entries -/

theorem lower_csvColumns (tables : TextTables) :
    ∀ key ∈ csvColumns, tables.lower key = lowerAscii key := by
  have hascii : csvColumns.all (fun key => key.toList.all fun c => c.toNat < 128) = true := by
    decide
  intro key hkey
  refine tables.lower_ascii fun c hc => ?_
  simpa using List.all_eq_true.mp (List.all_eq_true.mp hascii key hkey) c hc

/-- The columns are shown. -/
theorem isSensitiveKey_csvColumns (tables : TextTables) :
    ∀ key ∈ csvColumns, tables.isSensitiveKey key = false := by
  have hplain : csvColumns.all (fun key => !asciiTables.isSensitiveKey key) = true := by
    decide +kernel
  intro key hkey
  have heq : tables.isSensitiveKey key = asciiTables.isSensitiveKey key := by
    rw [TextTables.isSensitiveKey, lower_csvColumns tables key hkey]
    rfl
  rw [heq]
  simpa using List.all_eq_true.mp hplain key hkey

/-- The JSON values of an entry can be inspected. -/
def TextTables.CanInspectEntry (tables : TextTables) (e : VisibleEntry) : Prop :=
  ∀ field ∈ e.values, ∀ v, field.2 = .json v → tables.CanInspect v

theorem values_csvColumns (e : VisibleEntry) : e.values.map Prod.fst = csvColumns := rfl

/-- An entry can be redacted when its values can be inspected. -/
theorem isSome_redactAuditEntry (tables : TextTables) (e : VisibleEntry) :
    (tables.redactAuditEntry e).isSome = true ↔ tables.CanInspectEntry e := by
  rw [TextTables.redactAuditEntry, isSome_mapM, List.all_eq_true, TextTables.CanInspectEntry]
  refine forall₂_congr fun field hfield => ?_
  have hkey : tables.isSensitiveKey field.1 = false := by
    refine isSensitiveKey_csvColumns tables field.1 ?_
    rw [← values_csvColumns e]
    exact List.mem_map_of_mem hfield
  rw [TextTables.redactEntryField, hkey]
  obtain ⟨key, value⟩ := field
  cases value with
  | json v =>
    simp [TextTables.redactEntryValue, tables.isSome_redactAuditValue]
  | datetime t => simp [TextTables.redactEntryValue]

namespace ExportTables
variable (x : ExportTables)

/-- The texts of the fields of an entry after redaction, in the order of the columns. -/
def fieldTexts (e : VisibleEntry) : Option (List (List Char)) :=
  ((x.redactAuditEntry e).bind x.rawValues).map (·.map Prod.snd)

/-- The dictionary has a text for each column. -/
theorem rawValues_eq_some {fields : List (String × EntryValue)} {raw : List (String × List Char)}
    (h : x.rawValues fields = some raw) : ∃ a b c d e f g k, raw =
      [("sequence_number", a), ("timestamp", b), ("actor_identity", c), ("action_type", d),
        ("resource_type", e), ("resource_id", f), ("outcome", g), ("context", k)] := by
  rw [rawValues] at h
  simp only [Option.bind_eq_bind, Option.bind_eq_some_iff] at h
  obtain ⟨_, _, _, _, _, _, _, _, _, _, _, _, _, _, _, _, _, _, hraw⟩ := h
  obtain rfl := Option.some.inj hraw
  exact ⟨_, _, _, _, _, _, _, _, rfl⟩

/-- A row has the texts of the fields, guarded. -/
theorem entryToCsvRow_redacted (e : VisibleEntry) :
    (x.redactAuditEntry e).bind x.entryToCsvRow =
      (x.fieldTexts e).map fun texts => texts.map safeCsvCell := by
  rw [fieldTexts]
  cases h : x.redactAuditEntry e with
  | none => rfl
  | some fields =>
    rw [Option.bind_some, Option.bind_some, entryToCsvRow]
    cases hraw : x.rawValues fields with
    | none => rfl
    | some raw =>
      obtain ⟨_, _, _, _, _, _, _, _, rfl⟩ := x.rawValues_eq_some hraw
      rfl

theorem fieldTexts_ne_nil {e : VisibleEntry} {texts : List (List Char)}
    (h : x.fieldTexts e = some texts) : texts ≠ [] := by
  obtain ⟨raw, hraw, rfl⟩ := Option.map_eq_some_iff.mp h
  obtain ⟨fields, -, hraw⟩ := Option.bind_eq_some_iff.mp hraw
  obtain ⟨_, _, _, _, _, _, _, _, rfl⟩ := x.rawValues_eq_some hraw
  exact List.cons_ne_nil _ _

/-- A field that was redacted keeps its key, and a JSON value stays one. -/
theorem redactEntryField_eq_some {tables : TextTables} {key : String} {value : EntryValue}
    {field : String × EntryValue} (h : tables.redactEntryField (key, value) = some field) :
    ∃ w, field = (key, w) ∧ ∀ v, value = .json v → ∃ v', w = .json v' := by
  obtain ⟨w, hw, rfl⟩ := Option.map_eq_some_iff.mp h
  refine ⟨w, rfl, ?_⟩
  rintro v rfl
  split at hw
  next => exact ⟨_, (Option.some.inj hw).symm⟩
  next =>
    obtain ⟨v', -, rfl⟩ := Option.map_eq_some_iff.mp hw
    exact ⟨v', rfl⟩

/-- The texts exist when the entry can be redacted. -/
theorem isSome_fieldTexts (e : VisibleEntry) :
    (x.fieldTexts e).isSome = true ↔ x.CanInspectEntry e := by
  rw [← isSome_redactAuditEntry, fieldTexts, Option.isSome_map]
  cases h : x.redactAuditEntry e with
  | none => simp
  | some fields =>
    have hfields := forall₂_of_mapM h
    simp only [VisibleEntry.values, List.forall₂_cons_left_iff, List.forall₂_nil_left_iff]
      at hfields
    obtain ⟨_, _, h1, ⟨_, _, h2, ⟨_, _, h3, ⟨_, _, h4, ⟨_, _, h5, ⟨_, _, h6, ⟨_, _, h7,
      ⟨_, _, h8, rfl, rfl⟩, rfl⟩, rfl⟩, rfl⟩, rfl⟩, rfl⟩, rfl⟩, rfl⟩ := hfields
    obtain ⟨w1, rfl, -⟩ := redactEntryField_eq_some h1
    obtain ⟨w2, rfl, -⟩ := redactEntryField_eq_some h2
    obtain ⟨w3, rfl, -⟩ := redactEntryField_eq_some h3
    obtain ⟨w4, rfl, -⟩ := redactEntryField_eq_some h4
    obtain ⟨w5, rfl, -⟩ := redactEntryField_eq_some h5
    obtain ⟨w6, rfl, -⟩ := redactEntryField_eq_some h6
    obtain ⟨w7, rfl, -⟩ := redactEntryField_eq_some h7
    obtain ⟨w8, rfl, hjson⟩ := redactEntryField_eq_some h8
    obtain ⟨v, rfl⟩ := hjson _ rfl
    rfl

/-- Metadata is written when it can be inspected. -/
theorem isSome_safeCsvMetadataValue (value : Json) :
    (x.safeCsvMetadataValue value).isSome = true ↔ x.CanInspect value := by
  rw [safeCsvMetadataValue, Option.isSome_map, x.isSome_redactAuditValue]

/-- The document holds the texts of the fields, guarded. -/
theorem dataPayload_eq (entries : List VisibleEntry) :
    x.dataPayload entries = (entries.mapM x.fieldTexts).map fun texts =>
      x.writer.write (csvColumns.map String.toList :: texts.map (·.map safeCsvCell)) := by
  rw [dataPayload, funext x.entryToCsvRow_redacted, mapM_map, Option.map_map]
  rfl

end ExportTables

/-- The metadata in the order of its lines. -/
def ExportMetadata.values (metadata : ExportMetadata) : List Json :=
  [metadata.exportActor, metadata.exportTimestamp, metadata.filterSummary, metadata.recordCount]

/-- The names of the metadata lines before the checksum. -/
def metadataKeys : List String :=
  ["export_actor", "export_timestamp", "filter_summary", "record_count"]

namespace ExportTables
variable (x : ExportTables)

/-- The metadata lines, from the values that were written. -/
theorem metaLines_eq (metadata : ExportMetadata) (payload : List Char) :
    x.metaLines metadata payload =
      (metadata.values.mapM x.safeCsvMetadataValue).map fun values =>
        List.zipWith metaLine metadataKeys values ++
          [metaLine "checksum" (x.sha256 (encodeUtf8 (removeLineEnd payload)))] := by
  simp only [metaLines, ExportMetadata.values, mapM_cons_eq]
  cases x.safeCsvMetadataValue metadata.exportActor with
  | none => rfl
  | some actor =>
    cases x.safeCsvMetadataValue metadata.exportTimestamp with
    | none => rfl
    | some timestamp =>
      cases x.safeCsvMetadataValue metadata.filterSummary with
      | none => rfl
      | some summary => cases x.safeCsvMetadataValue metadata.recordCount <;> rfl

/-- The export gives a file of five metadata lines and a document.  The metadata lines are on a
line each, with guarded values, and state the digest of the document without its last line end;
the document reads back as the header and a row of guarded texts for each entry. -/
def ExportsSoundly (entries : List VisibleEntry) (metadata : ExportMetadata) : Prop :=
  ∃ text lines body values texts rows,
    x.exportCsv entries metadata = .ok (encodeUtf8 text) ∧
    commentLines text = (lines, body ++ ['\n']) ∧
    lines.length = 5 ∧
    lines = List.zipWith metaLine metadataKeys values ++
      [metaLine "checksum" (x.sha256 (encodeUtf8 body))] ∧
    (∀ line ∈ lines, '\r' ∉ line ∧ '\n' ∉ line) ∧
    List.Forall₂ (fun v value => ∃ w, x.redactAuditValue v = some w ∧
      Guarded (oneLine (x.strValue w)) value) metadata.values values ∧
    entries.mapM x.fieldTexts = some texts ∧
    Csv.read (body ++ ['\n']) = some (csvColumns.map String.toList :: rows) ∧
    List.Forall₂ (List.Forall₂ Guarded) texts rows

/-- A metadata line starts with `#` and is one line. -/
theorem metaLine_spec {key : String} {value : List Char}
    (hkey : ∀ c ∈ key.toList, c ≠ '\r' ∧ c ≠ '\n') (hvalue : ∀ c ∈ value, c ≠ '\r' ∧ c ≠ '\n') :
    (∃ l, metaLine key value = '#' :: l ∧ '\n' ∉ l) ∧ '\r' ∉ metaLine key value ∧
      '\n' ∉ metaLine key value := by
  have hline : ∀ c ∈ metaLine key value, c ≠ '\r' ∧ c ≠ '\n' := by
    intro c hc
    rw [metaLine, List.mem_append, List.mem_append, List.mem_append] at hc
    rcases hc with ((hc | hc) | hc) | hc
    · rcases List.mem_pair.mp hc with rfl | rfl <;> decide
    · exact hkey c hc
    · have hsep : c ∈ [' ', '=', ' '] := hc
      simp only [List.mem_cons, List.not_mem_nil, or_false] at hsep
      rcases hsep with rfl | rfl | rfl <;> decide
    · exact hvalue c hc
  refine ⟨⟨_, rfl, fun hmem => (hline _ (List.mem_cons_of_mem _ hmem)).2 rfl⟩, ?_, ?_⟩
  · exact fun hmem => (hline _ hmem).1 rfl
  · exact fun hmem => (hline _ hmem).2 rfl

theorem metadataKeys_line : ∀ key ∈ "checksum" :: metadataKeys,
    ∀ c ∈ key.toList, c ≠ '\r' ∧ c ≠ '\n' := by
  have hall : ("checksum" :: metadataKeys).all
      (fun key => key.toList.all fun c => c ≠ '\r' ∧ c ≠ '\n') = true := by decide
  intro key hkey c hc
  simpa using List.all_eq_true.mp (List.all_eq_true.mp hall key hkey) c hc

/-- The values of metadata lines are on one line. -/
theorem safeCsvMetadataValue_line {v : Json} {value : List Char}
    (h : x.safeCsvMetadataValue v = some value) : ∀ c ∈ value, c ≠ '\r' ∧ c ≠ '\n' := by
  obtain ⟨w, -, rfl⟩ := Option.map_eq_some_iff.mp h
  exact fun c hc => mem_oneLine hc

theorem sha256_line (bytes : ByteArray) : ∀ c ∈ x.sha256 bytes, c ≠ '\r' ∧ c ≠ '\n' := by
  intro c hc
  have hhex := x.sha256_hex bytes c hc
  constructor
  · rintro rfl
    exact absurd hhex (by decide)
  · rintro rfl
    exact absurd hhex (by decide)

/-- Every line of the metadata. -/
theorem metaLines_spec {metadata : ExportMetadata} {values : List (List Char)}
    (h : metadata.values.mapM x.safeCsvMetadataValue = some values) (bytes : ByteArray) :
    (List.zipWith metaLine metadataKeys values ++
      [metaLine "checksum" (x.sha256 bytes)]).length = 5 ∧
    ∀ line ∈ List.zipWith metaLine metadataKeys values ++
        [metaLine "checksum" (x.sha256 bytes)],
      (∃ l, line = '#' :: l ∧ '\n' ∉ l) ∧ '\r' ∉ line ∧ '\n' ∉ line := by
  have hvalues := forall₂_of_mapM h
  simp only [ExportMetadata.values, List.forall₂_cons_left_iff, List.forall₂_nil_left_iff]
    at hvalues
  obtain ⟨actor, _, hactor, ⟨timestamp, _, htimestamp, ⟨summary, _, hsummary,
    ⟨count, _, hcount, rfl, rfl⟩, rfl⟩, rfl⟩, rfl⟩ := hvalues
  refine ⟨rfl, ?_⟩
  have hkeys := metadataKeys_line
  simp only [metadataKeys, List.forall_mem_cons] at hkeys
  obtain ⟨kchecksum, kactor, ktimestamp, ksummary, kcount, -⟩ := hkeys
  simp only [metadataKeys, List.zipWith_cons_cons, List.zipWith_nil_left, List.cons_append,
    List.nil_append, List.forall_mem_cons, List.not_mem_nil, false_implies, implies_true, and_true]
  exact ⟨metaLine_spec kactor (x.safeCsvMetadataValue_line hactor),
    metaLine_spec ktimestamp (x.safeCsvMetadataValue_line htimestamp),
    metaLine_spec ksummary (x.safeCsvMetadataValue_line hsummary),
    metaLine_spec kcount (x.safeCsvMetadataValue_line hcount),
    metaLine_spec kchecksum (x.sha256_line bytes)⟩

/-- A document starts with the header, which is not a comment. -/
theorem commentLines_write (rows : List (List (List Char))) :
    commentLines (x.writer.write (csvColumns.map String.toList :: rows)) =
      ([], x.writer.write (csvColumns.map String.toList :: rows)) := by
  have hstart : ∃ c rest, x.writer.write (csvColumns.map String.toList :: rows) = c :: rest ∧
      c ≠ '#' := by
    rw [Csv.Writer.write, List.flatMap_cons, csvColumns, List.map_cons, Csv.Writer.writeRow,
      Csv.Writer.writeCell]
    split
    next => exact ⟨'"', _, rfl, by decide⟩
    next => exact ⟨'s', _, rfl, by decide⟩
  obtain ⟨c, rest, heq, hc⟩ := hstart
  rw [heq, commentLines_of_ne hc]

/-- The text of the file, from what was written. -/
theorem exportText_eq {entries : List VisibleEntry} {metadata : ExportMetadata}
    {texts : List (List (List Char))} {values : List (List Char)} {body : List Char}
    (htexts : entries.mapM x.fieldTexts = some texts)
    (hvalues : metadata.values.mapM x.safeCsvMetadataValue = some values)
    (hbody : x.writer.write (csvColumns.map String.toList :: texts.map (·.map safeCsvCell)) =
      body ++ ['\n']) :
    x.exportText entries metadata = some ((List.zipWith metaLine metadataKeys values ++
      [metaLine "checksum" (x.sha256 (encodeUtf8 body))]).flatMap (· ++ ['\n']) ++
        (body ++ ['\n'])) := by
  rw [exportText, dataPayload_eq, htexts, Option.map_some, Option.bind_some, metaLines_eq, hvalues,
    hbody, removeLineEnd_append, Option.map_some, Option.map_some]
  -- a line before the others, so that the separators become line ends
  obtain ⟨line, lines, hlines⟩ : ∃ line lines, List.zipWith metaLine metadataKeys values ++
      [metaLine "checksum" (x.sha256 (encodeUtf8 body))] = line :: lines :=
    List.exists_cons_of_ne_nil (by simp)
  rw [hlines, intercalate_append]

theorem exists_of_forall₂ {α β : Type} {R : α → β → Prop} {as : List α} {bs : List β}
    (h : List.Forall₂ R as bs) : ∀ a ∈ as, ∃ b, R a b := by
  induction h with
  | nil => simp
  | cons hab _ ih => exact List.forall_mem_cons.mpr ⟨⟨_, hab⟩, ih⟩

theorem canInspectEntry_of_mapM {entries : List VisibleEntry}
    {texts : List (List (List Char))} (h : entries.mapM x.fieldTexts = some texts) :
    ∀ e ∈ entries, x.CanInspectEntry e := by
  intro e he
  obtain ⟨text, htext⟩ := exists_of_forall₂ (forall₂_of_mapM h) e he
  rw [← x.isSome_fieldTexts, htext]
  rfl

/-- An export of at most 50000 entries is sound exactly when the strings of the entries and of the
metadata can be inspected for redaction. -/
theorem export_csv_sound_iff {entries : List VisibleEntry} {metadata : ExportMetadata}
    (hlimit : entries.length ≤ exportLimit) :
    x.ExportsSoundly entries metadata ↔
      (∀ e ∈ entries, x.CanInspectEntry e) ∧ ∀ v ∈ metadata.values, x.CanInspect v := by
  constructor
  · rintro ⟨text, lines, body, values, texts, rows, -, -, -, -, -, hmeta, htexts, -, -⟩
    constructor
    · exact x.canInspectEntry_of_mapM htexts
    · intro v hv
      obtain ⟨value, w, hw, -⟩ := exists_of_forall₂ hmeta v hv
      rw [← x.isSome_redactAuditValue, hw]
      rfl
  · rintro ⟨hentries, hmeta⟩
    have htexts : (entries.mapM x.fieldTexts).isSome = true := by
      rw [isSome_mapM, List.all_eq_true]
      exact fun e he => (x.isSome_fieldTexts e).mpr (hentries e he)
    have hvalues : (metadata.values.mapM x.safeCsvMetadataValue).isSome = true := by
      rw [isSome_mapM, List.all_eq_true]
      exact fun v hv => (x.isSome_safeCsvMetadataValue v).mpr (hmeta v hv)
    obtain ⟨texts, htexts⟩ := Option.isSome_iff_exists.mp htexts
    obtain ⟨values, hvalues⟩ := Option.isSome_iff_exists.mp hvalues
    obtain ⟨body, hbody⟩ := Csv.write_eq_append x.writer
      (List.cons_ne_nil (csvColumns.map String.toList) (texts.map (·.map safeCsvCell)))
    obtain ⟨hlength, hlines⟩ := x.metaLines_spec hvalues (encodeUtf8 body)
    have hdocument : commentLines (body ++ ['\n']) = ([], body ++ ['\n']) := by
      rw [← hbody, commentLines_write]
    refine ⟨_, _, body, values, texts, texts.map (·.map safeCsvCell), ?_,
      commentLines_append (fun line hline => (hlines line hline).1) hdocument, hlength, rfl,
      fun line hline => (hlines line hline).2, ?_, htexts, ?_, ?_⟩
    · rw [exportCsv, if_neg (Nat.not_lt.mpr hlimit), x.exportText_eq htexts hvalues hbody]
    · refine (forall₂_of_mapM hvalues).imp fun v value hvalue => ?_
      obtain ⟨w, hw, rfl⟩ := Option.map_eq_some_iff.mp hvalue
      exact ⟨w, hw, guarded_oneLine _⟩
    · rw [← hbody]
      refine Csv.read_write x.writer ?_
      rw [List.forall_mem_cons, List.forall_mem_map]
      refine ⟨by decide, fun cells hcells => ?_⟩
      obtain ⟨e, he⟩ := exists_of_forall₂ (forall₂_of_mapM htexts).flip cells hcells
      simpa using x.fieldTexts_ne_nil he
    · rw [List.forall₂_map_right_iff, List.forall₂_same]
      intro cells _
      rw [List.forall₂_map_right_iff, List.forall₂_same]
      exact fun cell _ => guarded_safeCsvCell cell

end ExportTables

theorem sampleDigest_hex : ∀ c ∈
    "0c06fc88a20d4820aa598538ccf1adf051e6f27c5838ca5d5cbda8466e4f4f5a".toList,
    isHexDigit c = true :=
  List.all_eq_true.mp (by decide)

/-- Tables for ASCII texts without containers, a writer that quotes where it must, and the digest
of the document of the entry below. -/
def sampleTables : ExportTables where
  toTextTables := asciiTables
  repr := fun _ => []
  writer := { quotes := fun cell => cell.any Csv.isSpecial
              quotesSpecial := fun hc hspecial => List.any_eq_true.mpr ⟨_, hc, hspecial⟩ }
  sha256 := fun _ => "0c06fc88a20d4820aa598538ccf1adf051e6f27c5838ca5d5cbda8466e4f4f5a".toList
  sha256_hex := fun _ => sampleDigest_hex

/-- An entry without a resource, at 3:04:05 on 6 May 2031. -/
def sampleEntry : VisibleEntry where
  sequenceNumber := 7
  timestamp := ⟨2031, 5, 6, 11045000000, by decide, by decide, by decide, by decide⟩
  actorIdentity := some "ops"
  actionType := "audit.export"
  resourceType := none
  resourceId := none
  outcome := "success"
  context := some (.obj [])

/-- The metadata of an export of one entry. -/
def sampleMetadata : ExportMetadata where
  exportActor := .str "ops"
  exportTimestamp := .str "2031-05-06T04:00:00+00:00"
  filterSummary := .null
  recordCount := .int 1

theorem canInspect_sampleEntry : sampleTables.CanInspectEntry sampleEntry := by
  have hactor : sampleTables.isInspectable "ops".toList = true := by decide +kernel
  have haction : sampleTables.isInspectable "audit.export".toList = true := by decide +kernel
  have houtcome : sampleTables.isInspectable "success".toList = true := by decide +kernel
  intro field hfield v hv
  simp only [VisibleEntry.values, sampleEntry, optionalText, Option.map_some, Option.map_none,
    Option.getD_some, Option.getD_none, List.mem_cons, List.not_mem_nil, or_false] at hfield
  rcases hfield with rfl | rfl | rfl | rfl | rfl | rfl | rfl | rfl <;> cases hv <;>
    simp only [TextTables.CanInspect, Json.Everywhere, Json.EveryField, hactor, haction, houtcome]

theorem canInspect_sampleMetadata : ∀ v ∈ sampleMetadata.values, sampleTables.CanInspect v := by
  have hactor : sampleTables.isInspectable "ops".toList = true := by decide +kernel
  have htimestamp : sampleTables.isInspectable "2031-05-06T04:00:00+00:00".toList = true := by
    decide +kernel
  intro v hv
  simp only [ExportMetadata.values, sampleMetadata, List.mem_cons, List.not_mem_nil, or_false]
    at hv
  rcases hv with rfl | rfl | rfl | rfl <;>
    simp only [TextTables.CanInspect, Json.Everywhere, hactor, htimestamp]

/-- The export of the entry. -/
theorem export_csv_sound_sample : [sampleEntry].length ≤ exportLimit ∧
    sampleTables.ExportsSoundly [sampleEntry] sampleMetadata := by
  have hlimit : [sampleEntry].length ≤ exportLimit := by decide
  have hentries : ∀ e ∈ [sampleEntry], sampleTables.CanInspectEntry e :=
    List.forall_mem_singleton.mpr canInspect_sampleEntry
  exact ⟨hlimit, (sampleTables.export_csv_sound_iff hlimit).mpr
    ⟨hentries, canInspect_sampleMetadata⟩⟩

/-- An entry whose actor is a decimal character reference with 4301 digits cannot be exported. -/
theorem long_reference_not_exported : ¬ sampleTables.ExportsSoundly
    [{ sampleEntry with actorIdentity := some (decimalReference 4301) }] sampleMetadata := by
  rintro ⟨text, lines, body, values, texts, rows, -, -, -, -, -, -, htexts, -, -⟩
  have hentry := sampleTables.canInspectEntry_of_mapM htexts _ List.mem_cons_self
  have hactor : sampleTables.CanInspect (.str (decimalReference 4301)) :=
    hentry ("actor_identity", .json (.str (decimalReference 4301)))
      (by simp [VisibleEntry.values, optionalText]) _ rfl
  have hraises := unescapes_decimalReference (n := 4301) (by decide) (by decide)
  simp [TextTables.CanInspect, Json.Everywhere, TextTables.isInspectable, hraises] at hactor

end QueryCraft
