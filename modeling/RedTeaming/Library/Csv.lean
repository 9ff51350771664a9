import Mathlib.Data.List.Basic

/-!
# `RedTeaming.Library.Csv`: the records of a CSV text

The format is that of RFC 4180, over all characters. `writeRow` is the writer of Python's `csv`
module in its default dialect, which quotes a field only when it must. `parse` is a reader for the
grammar, as a machine that takes one character at a time. A line break at the end of the text does
not begin another record.

`run_writeRow` says what the machine does over one written record, and `parse_written` that the
records are read back.

Nothing here names a program.
-/

set_option autoImplicit false

namespace RedTeaming.Library.Csv

/-- A text is the list of its characters. -/
abbrev Text := List Char

/-- `DQUOTE`. -/
def quotechar : Char := Char.ofNat 0x22

/-- `COMMA`. -/
def delimiter : Char := Char.ofNat 0x2C

/-- `CR`. -/
def carriage : Char := Char.ofNat 0x0D

/-- `LF`. -/
def linefeed : Char := Char.ofNat 0x0A

/-- A character that a field without quotes cannot have. -/
def special (c : Char) : Bool :=
  c == delimiter || c == quotechar || c == carriage || c == linefeed

/-! ### The writer -/

/-- A quote inside of quotes is written twice. -/
def double (c : Char) : Text := if c = quotechar then [c, c] else [c]

/-- One field, in quotes when a character of it is special. -/
def writeField (field : Text) : Text :=
  if field.any special then quotechar :: (field.flatMap double ++ [quotechar]) else field

/-- One record. A single field that is empty is written in quotes, so that the line is not
empty. -/
def writeRow (fields : List Text) : Text :=
  let record := [delimiter].intercalate (fields.map writeField)
  (if fields.isEmpty = false ∧ record = [] then [quotechar, quotechar] else record) ++
    [carriage, linefeed]

/-! ### The reader -/

/-- Where the reader is. -/
inductive Mode
  /-- At the start of a record. -/
  | line
  /-- At the start of a further field. -/
  | start
  /-- In a field without quotes. -/
  | bare
  /-- Inside of quotes. -/
  | quoted
  /-- After a quote that closes the field, unless one more follows. -/
  | closed
  /-- After a `CR` outside of quotes. -/
  | broken
deriving DecidableEq, Repr

/-- What has been read: whole records, whole fields of the record, and the characters of the
field. -/
structure Reader where
  mode : Mode := .line
  field : Text := []
  fields : List Text := []
  records : List (List Text) := []

/-- One more character of the field. -/
def Reader.add (r : Reader) (c : Char) (mode : Mode) : Reader :=
  { r with mode := mode, field := r.field ++ [c] }

/-- The field ends. -/
def Reader.endField (r : Reader) : Reader :=
  { r with mode := .start, field := [], fields := r.fields ++ [r.field] }

/-- The field and the record end. -/
def Reader.endRecord (r : Reader) : Reader :=
  { records := r.records ++ [r.fields ++ [r.field]] }

/-- A comma or a `CR` ends the field, and any other character is judged by the mode. -/
def ending (r : Reader) (c : Char) (other : Option Reader) : Option Reader :=
  if c = delimiter then some r.endField
  else if c = carriage then some { r with mode := .broken }
  else other

/-- One character. -/
def step (r : Reader) (c : Char) : Option Reader :=
  match r.mode with
  | .line | .start =>
    if c = quotechar then some { r with mode := .quoted }
    else ending r c (if c = linefeed then none else some (r.add c .bare))
  | .bare => ending r c (if special c then none else some (r.add c .bare))
  | .quoted => if c = quotechar then some { r with mode := .closed } else some (r.add c .quoted)
  | .closed => if c = quotechar then some (r.add c .quoted) else ending r c none
  | .broken => if c = linefeed then some r.endRecord else none

/-- A text. -/
def run (r : Reader) (text : Text) : Option Reader := text.foldlM step r

/-- The end of the text. -/
def finish (r : Reader) : Option (List (List Text)) :=
  match r.mode with
  | .line => some r.records
  | .start | .bare | .closed => some r.endRecord.records
  | .quoted | .broken => none

/-- The records of a text, or `none` when the grammar does not have the text. -/
def parse (text : Text) : Option (List (List Text)) := (run {} text).bind finish

/-! ### A written record is read back -/

section
variable {r : Reader} {field : Text} {fields : List Text} {c : Char}

/-- The modes in which a field may end. -/
def Ends : Mode → Prop
  | .quoted | .broken => False
  | _ => True

theorem run_append (r : Reader) (text rest : Text) :
    run r (text ++ rest) = (run r text).bind (run · rest) := by
  rw [run, List.foldlM_append]
  rfl

theorem run_cons (r : Reader) (c : Char) (text : Text) :
    run r (c :: text) = (step r c).bind (run · text) := by
  rw [run, List.foldlM_cons]
  rfl

@[simp] theorem run_nil (r : Reader) : run r [] = some r := rfl

/-- A comma after a field. -/
theorem step_delimiter (h : Ends r.mode) : step r delimiter = some r.endField := by
  -- In each mode that ends a field, the comma is no quote and no character of the field.
  cases hmode : r.mode with
  | quoted | broken => exact absurd h (by simp [hmode, Ends])
  | line | start | bare | closed => simp [step, hmode, ending, delimiter, quotechar]

/-- A line break after a field. -/
theorem run_lineBreak (h : Ends r.mode) : run r [carriage, linefeed] = some r.endRecord := by
  have hcr : step r carriage = some { r with mode := .broken } := by
    cases hmode : r.mode with
    | quoted | broken => exact absurd h (by simp [hmode, Ends])
    | line | start | bare | closed =>
      simp [step, hmode, ending, delimiter, quotechar, carriage]
  rw [run_cons, hcr]
  rfl

/-- Inside of quotes, the doubled field is read as the field. -/
theorem run_doubled (field : Text) (h : r.mode = .quoted) :
    run r (field.flatMap double) = some { r with field := r.field ++ field } := by
  induction field generalizing r with
  | nil => simp
  | cons c field ih =>
    -- A quote comes back from its double: the first closes the field, and the second opens it
    -- again.
    have hchar : run r (double c) = some (r.add c .quoted) := by
      by_cases hc : c = quotechar
      · simp [double, hc, run_cons, step, h, Reader.add]
      · simp [double, hc, run_cons, step, h]
    rw [List.flatMap_cons, run_append, hchar]
    show run (r.add c .quoted) (field.flatMap double) = _
    rw [ih rfl]
    simp [Reader.add, h]

/-- Without quotes, a field that needs none is read as it is. -/
theorem run_bare (hfield : field.any special = false) (h : r.mode = .bare) :
    run r field = some { r with field := r.field ++ field } := by
  induction field generalizing r with
  | nil => simp
  | cons c field ih =>
    rw [List.any_cons, Bool.or_eq_false_iff] at hfield
    -- A character that is not special stays in the field.
    have hchar : step r c = some (r.add c .bare) := by
      have hc := hfield.1
      simp only [special, Bool.or_eq_false_iff, beq_eq_false_iff_ne] at hc
      simp [step, h, ending, hc, hfield.1]
    rw [run_cons, hchar]
    show run (r.add c .bare) field = _
    rw [ih hfield.2 rfl]
    simp [Reader.add, h]

/-- A written field is read, and the reader can end it. -/
theorem run_writeField (field : Text) (h : r.mode = .line ∨ r.mode = .start)
    (hempty : r.field = []) :
    ∃ mode, Ends mode ∧ run r (writeField field) =
      some { r with mode := mode, field := field } := by
  rw [writeField]
  split
  · -- The first quote opens the field, and the last one closes it.
    refine ⟨.closed, trivial, ?_⟩
    have hopen : step r quotechar = some { r with mode := .quoted } := by
      rcases h with h | h <;> simp [step, h]
    rw [run_cons, hopen]
    show run { r with mode := .quoted } (field.flatMap double ++ [quotechar]) = _
    rw [run_append, run_doubled field rfl]
    simp [run_cons, step, hempty]
  · rename_i hfield
    rw [Bool.not_eq_true] at hfield
    cases field with
    | nil =>
      refine ⟨r.mode, ?_, ?_⟩
      · rcases h with h | h <;> simp [h, Ends]
      · rw [run_nil, ← hempty]
    | cons c field =>
      refine ⟨.bare, trivial, ?_⟩
      rw [List.any_cons, Bool.or_eq_false_iff] at hfield
      -- The first character leaves the start of the field, and the others follow without quotes.
      have hchar : step r c = some (r.add c .bare) := by
        have hc := hfield.1
        simp only [special, Bool.or_eq_false_iff, beq_eq_false_iff_ne] at hc
        rcases h with h | h <;> simp [step, h, ending, hc]
      rw [run_cons, hchar]
      show run (r.add c .bare) field = _
      rw [run_bare hfield.2 rfl]
      simp [Reader.add, hempty]

/-- The fields of a record, up to the end of the last one. -/
theorem run_fields (hne : fields ≠ []) (h : r.mode = .line ∨ r.mode = .start)
    (hempty : r.field = []) :
    ∃ r', run r ([delimiter].intercalate (fields.map writeField)) = some r' ∧ Ends r'.mode ∧
      r'.records = r.records ∧ r'.fields ++ [r'.field] = r.fields ++ fields := by
  induction fields generalizing r with
  | nil => exact absurd rfl hne
  | cons field fields ih =>
    obtain ⟨mode, hmode, hrun⟩ := run_writeField field h hempty
    cases fields with
    | nil =>
      refine ⟨{ r with mode := mode, field := field }, ?_, hmode, rfl, rfl⟩
      rw [List.map_cons, List.map_nil, List.intercalate_singleton, hrun]
    | cons next fields =>
      -- The comma ends the field, and the other fields are read from the start of the next one.
      have hnext :=
        ih (r := { r with mode := .start, field := [], fields := r.fields ++ [field] })
        (List.cons_ne_nil next fields) (.inr rfl) rfl
      obtain ⟨r', hrest, hends, hrecords, hfields⟩ := hnext
      refine ⟨r', ?_, hends, hrecords, ?_⟩
      · rw [List.map_cons, List.map_cons, List.intercalate_cons_cons, ← List.map_cons,
          List.append_assoc, run_append, hrun]
        show run { r with mode := mode, field := field } ([delimiter] ++ _) = _
        rw [List.singleton_append, run_cons, step_delimiter hmode]
        exact hrest
      · rw [hfields, List.append_assoc, List.singleton_append]

/-- A written record is one record of the text. -/
theorem run_writeRow (hne : fields ≠ []) (records : List (List Text)) :
    run { records := records } (writeRow fields) = some { records := records ++ [fields] } := by
  rw [writeRow]
  split
  · rename_i hquotes
    -- Only a single empty field leaves the record empty.
    have hsingle : fields = [[]] := by
      obtain ⟨-, hrecord⟩ := hquotes
      cases fields with
      | nil => exact absurd rfl hne
      | cons field rest =>
        cases rest with
        | nil =>
          rw [List.map_cons, List.map_nil, List.intercalate_singleton, writeField] at hrecord
          split at hrecord
          · exact absurd hrecord (List.cons_ne_nil _ _)
          · rw [hrecord]
        | cons next rest =>
          rw [List.map_cons, List.map_cons, List.intercalate_cons_cons] at hrecord
          simp at hrecord
    rw [hsingle]
    rfl
  · obtain ⟨r', hrun, hends, hrecords, hfields⟩ :=
      -- The line break ends the last field and the record.
      run_fields (r := { records := records }) hne (.inl rfl) rfl
    rw [run_append, hrun]
    show run r' [carriage, linefeed] = _
    rw [run_lineBreak hends, Reader.endRecord, hrecords, hfields]
    rfl

end

/-- The written records are read back. Each of them has a field. -/
theorem parse_written {rows : List (List Text)} (h : ∀ row ∈ rows, row ≠ []) :
    parse (rows.map writeRow).flatten = some rows := by
  have hrun (records : List (List Text)) :
      run { records := records } (rows.map writeRow).flatten =
        some { records := records ++ rows } := by
    -- The reader is at the start of a record again after each of them.
    induction rows generalizing records with
    | nil => simp
    | cons row rows ih =>
      rw [List.map_cons, List.flatten_cons, run_append, run_writeRow (h row List.mem_cons_self)]
      show run { records := records ++ [row] } (rows.map writeRow).flatten = _
      rw [ih (fun other hother => h other (List.mem_cons_of_mem row hother)), List.append_assoc,
        List.singleton_append]
  rw [parse, hrun]
  rfl

end RedTeaming.Library.Csv
