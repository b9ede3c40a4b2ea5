import Mathlib.Data.List.Basic

/-! # CSV documents

A writer puts a cell between double quotes or not, and doubles the quotes inside.  Which cells it
quotes is left open; it must quote those with a comma, a double quote or the end of a line in
them (`quotesSpecial`).  The reader follows RFC 4180, except that LF, CR LF and CR all end a
record; it refuses a quote inside a cell that did not start with one.

What is written is read back (`read_write`).
-/
namespace QueryCraft.Csv

/-- A cell. -/
abbrev Cell := List Char

/-! ## Writing -/

/-- The characters that a cell without quotes cannot hold. -/
def isSpecial (c : Char) : Bool := c == ',' || c == '"' || c == '\r' || c == '\n'

/-- A writer: which cells it puts between quotes. -/
structure Writer where
  quotes : Cell → Bool
  quotesSpecial : ∀ {cell : Cell} {c : Char}, c ∈ cell → isSpecial c = true → quotes cell = true

/-- A character between quotes. -/
def doubled (c : Char) : List Char := if c = '"' then ['"', '"'] else [c]

namespace Writer
variable (writer : Writer)

def writeCell (cell : Cell) : List Char :=
  if writer.quotes cell then '"' :: cell.flatMap doubled ++ ['"'] else cell

/-- The cells after the first of a row, and the end of the line. -/
def writeCells : List Cell → List Char
  | [] => ['\n']
  | cell :: cells => ',' :: writer.writeCell cell ++ writeCells cells

/-- `writer.writerow`. -/
def writeRow : List Cell → List Char
  | [] => ['\n']
  | cell :: cells => writer.writeCell cell ++ writer.writeCells cells

/-- The rows, one after the other. -/
def write (rows : List (List Cell)) : List Char := rows.flatMap writer.writeRow

end Writer

/-! ## Reading -/

/-- Where the reader is: at the start of a record, there after CR, at the start of another cell,
in a cell without quotes, between quotes, or after a quote that may be the closing one. -/
inductive Mode where
  | record | afterCr | cell | plain | quoted | closing
deriving DecidableEq, Repr

/-- What has been read. -/
structure Reader where
  mode : Mode := .record
  cell : Cell := []
  row : List Cell := []
  rows : List (List Cell) := []
deriving DecidableEq, Repr

namespace Reader
variable (r : Reader)

/-- The cell ends at a comma. -/
def endCell : Reader := { r with mode := .cell, cell := [], row := r.row ++ [r.cell] }

/-- The record ends. -/
def endRecord (mode : Mode) : Reader :=
  { mode := mode, cell := [], row := [], rows := r.rows ++ [r.row ++ [r.cell]] }

/-- The character ends the cell, if it can. -/
def separate (c : Char) : Option Reader :=
  if c = ',' then some r.endCell
  else if c = '\n' then some (r.endRecord .record)
  else if c = '\r' then some (r.endRecord .afterCr)
  else none

/-- A character of a cell without quotes. -/
def stepPlain (c : Char) : Option Reader :=
  if c = '"' then none
  else some ((r.separate c).getD { r with mode := .plain, cell := r.cell ++ [c] })

/-- The next character. -/
def step (c : Char) : Option Reader :=
  match r.mode with
  | .record | .cell => if c = '"' then some { r with mode := .quoted } else r.stepPlain c
  | .afterCr =>
    if c = '\n' then some { r with mode := .record }
    else if c = '"' then some { r with mode := .quoted }
    else r.stepPlain c
  | .plain => r.stepPlain c
  | .quoted =>
    some (if c = '"' then { r with mode := .closing } else { r with cell := r.cell ++ [c] })
  | .closing =>
    if c = '"' then some { r with mode := .quoted, cell := r.cell ++ [c] } else r.separate c

/-- The rows at the end of the text. -/
def finish : Option (List (List Cell)) :=
  match r.mode with
  | .record | .afterCr => some r.rows
  | .quoted => none
  | _ => some (r.rows ++ [r.row ++ [r.cell]])

/-- The reader after a text. -/
def run (cs : List Char) : Option Reader := cs.foldlM step r

end Reader

/-- The rows of a document. -/
def read (text : List Char) : Option (List (List Cell)) := (Reader.run {} text).bind Reader.finish

/-! ## Round trip -/

namespace Reader
variable {r : Reader}

theorem run_cons (r : Reader) (c : Char) (cs : List Char) :
    r.run (c :: cs) = (r.step c).bind (·.run cs) := by
  rw [run, List.foldlM_cons]
  rfl

theorem run_append (r : Reader) (xs ys : List Char) :
    r.run (xs ++ ys) = (r.run xs).bind (·.run ys) := by
  rw [run, List.foldlM_append]
  rfl

theorem stepPlain_of_not_special {c : Char} (h : isSpecial c = false) :
    r.stepPlain c = some { r with mode := .plain, cell := r.cell ++ [c] } := by
  simp only [isSpecial, Bool.or_eq_false_iff, beq_eq_false_iff_ne] at h
  obtain ⟨⟨⟨hcomma, hquote⟩, hcr⟩, hlf⟩ := h
  simp [stepPlain, separate, hcomma, hquote, hcr, hlf]

/-- A cell without quotes. -/
theorem run_plain {cs : List Char} (h : ∀ c ∈ cs, isSpecial c = false)
    (hmode : r.mode = .plain) : r.run cs = some { r with cell := r.cell ++ cs } := by
  induction cs generalizing r with
  | nil => simp [run]
  | cons c cs ih =>
    have hstep : r.step c = some { r with mode := .plain, cell := r.cell ++ [c] } := by
      rw [step, hmode]
      exact stepPlain_of_not_special (h c List.mem_cons_self)
    rw [run_cons, hstep, Option.bind_some, ih (fun d hd => h d (List.mem_cons_of_mem _ hd)) rfl]
    simp [hmode]

/-- What stands between quotes. -/
theorem run_doubled (cs : List Char) (hmode : r.mode = .quoted) :
    r.run (cs.flatMap doubled) = some { r with cell := r.cell ++ cs } := by
  induction cs generalizing r with
  | nil => simp [run]
  | cons c cs ih =>
    have hchar : r.run (doubled c) = some { r with cell := r.cell ++ [c] } := by
      by_cases hc : c = '"'
      · simp [doubled, hc, step, hmode, run]
      · simp [doubled, hc, step, hmode, run]
    have hrest : Reader.run { r with cell := r.cell ++ [c] } (cs.flatMap doubled) =
        some { r with cell := r.cell ++ [c] ++ cs } := ih hmode
    rw [List.flatMap_cons, run_append, hchar, Option.bind_some, hrest, List.append_assoc,
      List.singleton_append]

/-- The characters that end a cell of a document that was written. -/
theorem step_separator {c : Char} (hc : c = ',' ∨ c = '\n')
    (hmode : r.mode = .record ∨ r.mode = .cell ∨ r.mode = .plain ∨ r.mode = .closing) :
    r.step c = r.separate c := by
  rcases hc with rfl | rfl
  · rcases hmode with hmode | hmode | hmode | hmode <;>
      simp [step, hmode, stepPlain, separate]
  · rcases hmode with hmode | hmode | hmode | hmode <;>
      simp [step, hmode, stepPlain, separate]

variable (writer : Writer)

/-- A cell that was written is read up to the separator after it. -/
theorem run_writeCell (hmode : r.mode = .record ∨ r.mode = .cell) (hcell : r.cell = [])
    (cell : Cell) {c : Char} (hc : c = ',' ∨ c = '\n') (rest : List Char) :
    r.run (writer.writeCell cell ++ c :: rest) =
      (Reader.separate { r with cell := cell } c).bind (·.run rest) := by
  have hsep : ∀ mode : Mode,
      (mode = .record ∨ mode = .cell ∨ mode = .plain ∨ mode = .closing) →
      Reader.run { r with mode := mode, cell := cell } (c :: rest) =
        (Reader.separate { r with cell := cell } c).bind (·.run rest) := by
    intro mode hmode
    rw [run_cons, step_separator hc hmode]
    rfl
  rw [Writer.writeCell]
  split
  next hquotes =>
    have hopen : r.step '"' = some { r with mode := .quoted } := by
      rcases hmode with hmode | hmode <;> simp [step, hmode]
    have hbody : Reader.run { r with mode := .quoted } (cell.flatMap doubled) =
        some { r with mode := .quoted, cell := cell } := by
      rw [run_doubled cell rfl]
      simp [hcell]
    rw [List.cons_append, List.cons_append, List.append_assoc, List.singleton_append, run_cons,
      hopen, Option.bind_some, run_append, hbody, Option.bind_some, run_cons]
    exact hsep .closing (by simp)
  next hquotes =>
    have hplain : ∀ d ∈ cell, isSpecial d = false := by
      intro d hd
      by_contra hspecial
      exact hquotes (writer.quotesSpecial hd (by simpa using hspecial))
    cases cell with
    | nil =>
      obtain ⟨mode, cell, row, rows⟩ := r
      obtain rfl : cell = [] := hcell
      refine hsep mode ?_
      rcases hmode with hmode | hmode <;> simp [show mode = _ from hmode]
    | cons d ds =>
      have hfirst : r.step d = some { r with mode := .plain, cell := [d] } := by
        have hd : d ≠ '"' := by
          rintro rfl
          exact absurd (hplain _ List.mem_cons_self) (by decide)
        have hstep := stepPlain_of_not_special (r := r) (hplain d List.mem_cons_self)
        rcases hmode with hmode | hmode <;> simp [step, hmode, hd, hstep, hcell]
      have hrest : Reader.run { r with mode := .plain, cell := [d] } ds =
          some { r with mode := .plain, cell := d :: ds } :=
        run_plain (fun e he => hplain e (List.mem_cons_of_mem _ he)) rfl
      rw [List.cons_append, run_cons, hfirst, Option.bind_some, run_append, hrest,
        Option.bind_some]
      exact hsep .plain (by simp)

/-- The cells of a row, read from its first one on. -/
theorem run_writeCells (hmode : r.mode = .record ∨ r.mode = .cell) (hcell : r.cell = [])
    (cell : Cell) (cells : List Cell) (rest : List Char) :
    r.run (writer.writeCell cell ++ writer.writeCells cells ++ rest) =
      Reader.run { rows := r.rows ++ [r.row ++ cell :: cells] } rest := by
  induction cells generalizing r cell with
  | nil =>
    rw [Writer.writeCells, List.append_assoc, List.singleton_append,
      run_writeCell writer hmode hcell cell (.inr rfl)]
    simp [separate, endRecord]
  | cons d ds ih =>
    rw [Writer.writeCells, List.append_assoc, List.cons_append, List.cons_append,
      run_writeCell writer hmode hcell cell (.inl rfl)]
    simp only [separate, if_true, Option.bind_some]
    rw [ih (.inr rfl) rfl d]
    simp [endCell]

/-- The rows of a document that was written. -/
theorem run_write {rows : List (List Cell)} (h : ∀ row ∈ rows, row ≠ [])
    (before : List (List Cell)) :
    Reader.run { rows := before } (writer.write rows) = some { rows := before ++ rows } := by
  induction rows generalizing before with
  | nil => simp [Writer.write, run]
  | cons row rows ih =>
    rw [Writer.write, List.flatMap_cons]
    cases row with
    | nil => exact absurd rfl (h [] List.mem_cons_self)
    | cons cell cells =>
      rw [Writer.writeRow, run_writeCells writer (.inl rfl) rfl]
      have hrest := ih (fun row hrow => h row (List.mem_cons_of_mem _ hrow))
        (before ++ [cell :: cells])
      rw [List.append_assoc] at hrest
      exact hrest

end Reader

/-- A document that was written ends with the end of a line. -/
theorem write_eq_append (writer : Writer) {rows : List (List Cell)} (h : rows ≠ []) :
    ∃ body, writer.write rows = body ++ ['\n'] := by
  have hcells : ∀ cells, ∃ body, writer.writeCells cells = body ++ ['\n'] := by
    intro cells
    induction cells with
    | nil => exact ⟨[], rfl⟩
    | cons cell cells ih =>
      obtain ⟨body, hbody⟩ := ih
      exact ⟨',' :: writer.writeCell cell ++ body, by simp [Writer.writeCells, hbody]⟩
  have hrow : ∀ row, ∃ body, writer.writeRow row = body ++ ['\n'] := by
    intro row
    cases row with
    | nil => exact ⟨[], rfl⟩
    | cons cell cells =>
      obtain ⟨body, hbody⟩ := hcells cells
      exact ⟨writer.writeCell cell ++ body, by simp [Writer.writeRow, hbody]⟩
  obtain ⟨body, hbody⟩ := hrow (rows.getLast h)
  refine ⟨writer.write rows.dropLast ++ body, ?_⟩
  rw [Writer.write, Writer.write, List.append_assoc, ← hbody]
  conv_lhs => rw [← List.dropLast_append_getLast h]
  simp

/-- What is written is read back. -/
theorem read_write (writer : Writer) {rows : List (List Cell)} (h : ∀ row ∈ rows, row ≠ []) :
    read (writer.write rows) = some rows := by
  rw [read, Reader.run_write writer h []]
  rfl

end QueryCraft.Csv
