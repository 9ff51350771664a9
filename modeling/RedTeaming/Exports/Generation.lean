import RedTeaming.Evaluations.Rows
import RedTeaming.Exports.Jobs
import RedTeaming.Exports.Templates

/-!
# `RedTeaming.Exports.Generation`: the streamed export

`stream_export` of `core/exports/generation.py`. It yields the file chunk by chunk while the rows
are fetched. The rows come evaluation by evaluation and page by page, and the state of the loop is
the `first` flag with what was yielded so far. A loop that raises is `none`.

The fetcher of a template and the resolver of the licenses read the database, and are parameters.
What a fetcher yields for a scope is any list of pages.

`stream_export_whole` compares the stream with the rendering in one piece, and reads both files
back. `csv_cells_inert` says that no cell of the CSV file that comes from strings is a formula.
-/

set_option autoImplicit false

namespace RedTeaming.Exports.Generation

open RedTeaming.Auth
open RedTeaming.Evaluations
open RedTeaming.Exports.Rendering
open RedTeaming.Exports.Templates
open RedTeaming.Library

/-! ### Scopes and exports -/

/-- `ExportFilters`. -/
structure ExportFilters where
  createdFrom : Option DateTime := none
  createdTo : Option DateTime := none
  status : Option String := none
  scenarioId : Option UUID := none
  taskId : Option UUID := none
  userId : Option UUID := none

/-- `ExportScope`. -/
structure ExportScope where
  evaluationId : UUID
  caller : SessionUser
  evaluation : Option Evaluation := none
  fullGroupAccess : Bool := false
  effectiveLicense : Option DataLicense := none
  filters : ExportFilters := {}

/-- `CsvExport`. The fetcher yields pages of rows. -/
structure CsvExport (T : Type) where
  key : String
  columns : List (Column T)
  fetch : ExportScope → List (List T)
  needsEffectiveLicense : Bool := false

/-- The export of a template, with its fetcher. -/
def exportOf (t : Template) (fetch : ExportScope → List (List t.Row)) : CsvExport t.Row where
  key := t.key
  columns := t.columns
  fetch := fetch
  needsEffectiveLicense := t.needsEffectiveLicense

/-- `_UTF8_BOM`. -/
def utf8Bom : Char := Char.ofNat 0xFEFF

/-- The flag of the loop, and the chunks that were yielded. -/
structure Stream where
  first : Bool := true
  chunks : List Text := []

section
variable {T : Type} (str : PyValue → Text)
  (resolveEffectiveLicenses : List UUID → Dict UUID DataLicense)
  (csvExport : CsvExport T) (caller : SessionUser) (evaluations : List Evaluation)
  (filters : ExportFilters)

/-- The scope of one evaluation. The licenses are resolved once for all evaluations. -/
def scopeOf (evaluation : Evaluation) : ExportScope :=
  let licenses :=
    if csvExport.needsEffectiveLicense
      then resolveEffectiveLicenses (evaluations.map (·.id)) else .empty
  { evaluationId := evaluation.id
    caller := caller
    evaluation := some evaluation
    fullGroupAccess := true
    effectiveLicense := licenses.get? evaluation.id
    filters := filters }

/-- `async for row in _iter_export_rows(...)` with its body: evaluation by evaluation, and page by
page. -/
def forExportRows {S : Type} (body : S → T → Option S) (init : S) : Option S :=
  evaluations.foldlM
    (fun s evaluation =>
      (csvExport.fetch
        (scopeOf resolveEffectiveLicenses csvExport caller evaluations filters evaluation)).foldlM
          (fun s page => page.foldlM body s) s)
    init

/-- The body of the loop for JSON. -/
def yieldJson (columns : List (Column T)) (s : Stream) (row : T) : Option Stream := do
  let text ← jsonRow columns row
  some { first := false, chunks := s.chunks ++ [if s.first then text else ',' :: text] }

/-- The body of the loop for CSV. -/
def yieldCsv (columns : List (Column T)) (s : Stream) (row : T) : Option Stream := do
  let line ← formatCsvRow str columns row
  some { s with chunks := s.chunks ++ [line] }

/-- `stream_export`: the chunks. -/
def streamExport (format : ExportFormat) : Option (List Text) :=
  match format with
  | .json => do
    let s ← forExportRows resolveEffectiveLicenses csvExport caller evaluations filters
      (yieldJson csvExport.columns) { chunks := ["[".toList] }
    some (s.chunks ++ ["]".toList])
  | .csv => do
    let s ← forExportRows resolveEffectiveLicenses csvExport caller evaluations filters
      (yieldCsv str csvExport.columns) { chunks := [utf8Bom :: csvHeader csvExport.columns] }
    some s.chunks

/-- All rows of an export, one after the other. -/
def exportRows : List T :=
  evaluations.flatMap fun evaluation =>
    (csvExport.fetch
      (scopeOf resolveEffectiveLicenses csvExport caller evaluations filters evaluation)).flatten

/-! ### The stream is the whole rendering -/

/-- A loop over pages is a loop over their rows. -/
theorem foldlM_flatten {S : Type} (body : S → T → Option S) (pages : List (List T)) (init : S) :
    pages.foldlM (fun s page => page.foldlM body s) init = pages.flatten.foldlM body init := by
  induction pages generalizing init with
  | nil => rfl
  | cons page pages ih =>
    rw [List.foldlM_cons, List.flatten_cons, List.foldlM_append]
    exact congrArg (Option.bind (page.foldlM body init)) (funext ih)

/-- The loop of the export is a loop over all its rows. -/
theorem forExportRows_eq {S : Type} (body : S → T → Option S) (init : S) :
    forExportRows resolveEffectiveLicenses csvExport caller evaluations filters body init =
      (exportRows resolveEffectiveLicenses csvExport caller evaluations filters).foldlM
      body init := by
  rw [forExportRows, exportRows, List.flatMap_def, ← foldlM_flatten, List.foldlM_map]
  exact congrArg (fun step => evaluations.foldlM step init)
    (funext fun s => funext fun evaluation => foldlM_flatten body _ s)

variable {str}

/-- What the loop for CSV yields are the lines of the rows. -/
theorem foldlM_yieldCsv (columns : List (Column T)) (rows : List T) (s : Stream) :
    rows.foldlM (yieldCsv str columns) s =
      (rows.mapM (formatCsvRow str columns)).map fun lines =>
      { s with chunks := s.chunks ++ lines } := by
  induction rows generalizing s with
  | nil => simp
  | cons row rows ih =>
    rw [List.foldlM_cons, List.mapM_cons, yieldCsv]
    -- A row that fails ends both loops.
    cases formatCsvRow str columns row with
    | none => rfl
    | some line =>
      show rows.foldlM (yieldCsv str columns) { s with chunks := s.chunks ++ [line] } = _
      rw [ih]
      cases rows.mapM (formatCsvRow str columns) with
      | none => rfl
      | some lines => simp

/-- What the loop for JSON yields are the chunks between the brackets. -/
theorem foldlM_yieldJson (columns : List (Column T)) (rows : List T) (s : Stream) :
    rows.foldlM (yieldJson columns) s =
      (jsonChunks columns s.first rows).map fun chunks =>
        { first := s.first && rows.isEmpty, chunks := s.chunks ++ chunks } := by
  induction rows generalizing s with
  | nil => simp [jsonChunks]
  | cons row rows ih =>
    rw [List.foldlM_cons, jsonChunks, yieldJson]
    cases jsonRow columns row with
    | none => rfl
    | some text =>
      show rows.foldlM (yieldJson columns)
        { first := false, chunks := s.chunks ++ [if s.first then text else ',' :: text] } = _
      -- After a row the flag is down, whatever it was before.
      rw [ih]
      cases jsonChunks columns false rows with
      | none => simp
      | some chunks => simp

variable (str)

/-- The CSV stream is the byte-order mark and then the CSV of all rows, or it fails as that
does. -/
theorem streamExport_csv :
    (streamExport str resolveEffectiveLicenses csvExport caller evaluations filters .csv).map
        List.flatten =
      (toCsv str csvExport.columns
        (exportRows resolveEffectiveLicenses csvExport caller evaluations filters)).map
          (utf8Bom :: ·) := by
  rw [streamExport, forExportRows_eq, foldlM_yieldCsv, toCsv]
  -- What the chunks hold together does not show where they were cut.
  cases (exportRows resolveEffectiveLicenses csvExport caller evaluations filters).mapM
    (formatCsvRow str csvExport.columns) with
  | none => rfl
  | some lines => simp

/-- The JSON stream is the JSON of all rows, or it fails as that does. -/
theorem streamExport_json :
    (streamExport str resolveEffectiveLicenses csvExport caller evaluations filters .json).map
        List.flatten =
      toJson csvExport.columns
        (exportRows resolveEffectiveLicenses csvExport caller evaluations filters) := by
  rw [streamExport, forExportRows_eq, foldlM_yieldJson, toJson]
  cases jsonChunks _ _ _ with
  | none => rfl
  | some chunks => simp

end

/-! ### What the templates write -/

section
variable {T : Type} {str : PyValue → Text} {columns : List (Column T)}

/-- A cell comes from strings when the value of its column is a string, a list, or a `dict`. -/
def StringDerived : PyValue → Prop
  | .str _ | .list _ | .dict _ => True
  | _ => False

/-- What a reader of the file finds in a cell. -/
structure CellOk (str : PyValue → Text) (row : T) (column : Column T) (text : Text) : Prop where
  /-- It is the formatted value. -/
  formatted : cell str row column = some text
  /-- It is no formula, when it comes from strings. -/
  inert : StringDerived (column.value row) → ¬ Live text
  /-- It is the string itself, when the string is no formula. -/
  unneutralised : ∀ s, column.formatter = none → column.value row = .str s → ¬ Live s.toList →
    text = s.toList

/-- `json.dumps` of a list or a `dict` begins with a bracket. -/
theorem not_live_dumps {style : JsonStyle} {v : PyValue} {text : Text} (hv : ¬ Scalar v)
    (h : dumps style v = some text) : ¬ Live text := by
  cases v with
  | list items =>
    rw [dumps, Option.map_eq_some_iff] at h
    obtain ⟨texts, -, rfl⟩ := h
    exact not_live_cons (by decide) (by decide) _
  | dict entries =>
    rw [dumps, Option.map_eq_some_iff] at h
    obtain ⟨texts, -, rfl⟩ := h
    exact not_live_cons (by decide) (by decide) _
  | _ => exact absurd trivial hv

/-- A column of one of the two kinds writes a cell that is in order. -/
theorem exists_cell {column : Column T} (h : Plain column ∨ Encoded column) (row : T) :
    ∃ text, CellOk str row column text := by
  rcases h with ⟨hformatter, hscalar⟩ | ⟨hformatter, hvalue⟩
  · refine ⟨formatCell str (column.value row), ?_, ?_, ?_⟩
    · rw [cell, hformatter]
    · -- A scalar that comes from strings is a string, and the default formatter guards it.
      intro hstring
      have hrow := hscalar row
      cases hv : column.value row with
      | str s => exact not_live_neutralize s.toList
      | list | dict =>
        rw [hv] at hrow
        exact absurd hrow id
      | _ =>
        rw [hv] at hstring
        exact absurd hstring id
    · intro s _ hv hlive
      rw [hv]
      exact (neutralizeFormula_spec s.toList).2 hlive
  · -- A list or a `dict` is dumped by its own formatter, and begins with a bracket.
    obtain ⟨hcontainer, hnative⟩ := hvalue row
    obtain ⟨text, htext⟩ : ∃ text, dumps spaced (column.value row) = some text :=
      exists_dumps _ (.inr hnative)
    refine ⟨text, ?_, fun _ => not_live_dumps hcontainer htext, ?_⟩
    · rw [cell, hformatter]
      exact htext
    · intro s hnone
      rw [hformatter] at hnone
      cases hnone

/-- The record of a row has one cell for each column, and each of them is in order. -/
theorem exists_record (h : ∀ column ∈ columns, Plain column ∨ Encoded column) (row : T) :
    ∃ record, columns.mapM (cell str row) = some record ∧
      List.Forall₂ (CellOk str row) columns record := by
  refine exists_mapM fun column hcolumn => ?_
  obtain ⟨text, hok⟩ : ∃ text, CellOk str row column text := exists_cell (h column hcolumn) row
  exact ⟨text, hok.formatted, hok⟩

/-- The CSV of the rows is read back as the header and one record for each row. -/
theorem exists_toCsv (str : PyValue → Text) (hne : columns ≠ [])
    (h : ∀ column ∈ columns, Plain column ∨ Encoded column) (rows : List T) :
    ∃ csv records, toCsv str columns rows = some csv ∧
      Csv.parse csv = some ((columns.map fun column => column.header.toList) :: records) ∧
      List.Forall₂ (fun row record => columns.mapM (cell str row) = some record ∧
        List.Forall₂ (CellOk str row) columns record) rows records := by
  -- No record is empty, since there are columns.
  have hrows : ∃ records, rows.mapM (formatCsvRow str columns) = some (records.map Csv.writeRow) ∧
      (∀ record ∈ records, record ≠ []) ∧
      List.Forall₂ (fun row record => columns.mapM (cell str row) = some record ∧
        List.Forall₂ (CellOk str row) columns record) rows records := by
    induction rows with
    | nil => exact ⟨[], rfl, fun _ hmem => absurd hmem List.not_mem_nil, .nil⟩
    | cons row rows ih =>
      obtain ⟨records, hrecords, hfields, hall⟩ := ih
      obtain ⟨record, hrecord, hok⟩ : ∃ record, columns.mapM (cell str row) = some record ∧
          List.Forall₂ (CellOk str row) columns record := exists_record h row
      refine ⟨record :: records, ?_, ?_, .cons ⟨hrecord, hok⟩ hall⟩
      · rw [List.mapM_cons, formatCsvRow, hrecord, hrecords]
        rfl
      · rw [List.forall_mem_cons]
        refine ⟨?_, hfields⟩
        intro hnil
        rw [hnil, List.forall₂_nil_right_iff] at hok
        exact hne hok
  obtain ⟨records, hrecords, hfields, hall⟩ := hrows
  refine ⟨csvHeader columns ++ (records.map Csv.writeRow).flatten, records, ?_, ?_, hall⟩
  · rw [toCsv, hrecords]
    rfl
  · -- The header is a record like the others.
    have hall : ∀ record ∈ (columns.map fun column => column.header.toList) :: records,
        record ≠ [] := by
      rw [List.forall_mem_cons]
      exact ⟨by simpa using hne, hfields⟩
    exact Csv.parse_written hall

/-- The entries of a `dict` are converted one by one. -/
theorem toJsonEntries_eq (entries : List (String × PyValue)) :
    toJsonEntries entries = entries.map fun entry => (entry.1, entry.2.toJson) := by
  induction entries with
  | nil => rfl
  | cons entry entries ih => rw [toJsonEntries, ih, List.map_cons]

/-- The object of a row, with distinct headers as its keys. -/
theorem exists_jsonRow (hnodup : (columns.map fun column => column.header).Nodup) (row : T) :
    ∃ text, jsonRow columns row = some text ∧ JsonText.Reads text
      (.obj (columns.map fun column => (column.header, (column.value row).toJson))) := by
  have hkeys :
      ((columns.map fun column => (column.header, column.value row)).map Prod.fst).Nodup := by
    rw [List.map_map]
    exact hnodup
  -- With distinct headers, no value takes the place of another.
  have hentries : (Dict.empty.update
      (columns.map fun column => (column.header, column.value row))).entries =
        columns.map fun column => (column.header, column.value row) := by
    rw [Dict.entries_update_of_nodup hkeys (fun _ _ => List.not_mem_nil)]
    rfl
  obtain ⟨text, htext⟩ : ∃ text, dumps compact
      (.dict (columns.map fun column => (column.header, column.value row))) = some text :=
    exists_dumps _ (.inl rfl)
  refine ⟨text, ?_, ?_⟩
  · rw [jsonRow, hentries]
    exact htext
  · have hread := reads_dumps compact_valid _ htext
    rw [PyValue.toJson, toJsonEntries_eq, List.map_map] at hread
    exact hread

/-- In a join, each part after the first one comes after its separator. -/
theorem intercalate_cons (c : Char) (text : Text) (texts : List Text) :
    [c].intercalate (text :: texts) = text ++ texts.flatMap (c :: ·) := by
  induction texts generalizing text with
  | nil => simp
  | cons next texts ih =>
    rw [List.intercalate_cons_cons, ih, List.flatMap_cons, List.append_assoc]
    rfl

/-- The chunks between the brackets, from the texts of the rows. -/
theorem exists_jsonChunks {rows : List T} {texts : List Text}
    (h : List.Forall₂ (fun row text => jsonRow columns row = some text) rows texts)
    (first : Bool) :
    ∃ chunks, jsonChunks columns first rows = some chunks ∧
      chunks.flatten = if first then [','].intercalate texts else texts.flatMap (',' :: ·) := by
  induction h generalizing first with
  | nil => exact ⟨[], rfl, by cases first <;> rfl⟩
  | @cons row text rows texts hrow _ ih =>
    obtain ⟨chunks, hchunks, hflat⟩ := ih false
    refine ⟨(if first then text else ',' :: text) :: chunks, ?_, ?_⟩
    · rw [jsonChunks, hrow, hchunks]
      rfl
    · rw [List.flatten_cons, hflat]
      -- The comma of a later chunk is the separator before its row.
      cases first with
      | false => rfl
      | true => exact (intercalate_cons ',' text texts).symm

/-- The JSON of the rows is read back as one object for each row. -/
theorem exists_toJson (hnodup : (columns.map fun column => column.header).Nodup) (rows : List T) :
    ∃ json, toJson columns rows = some json ∧
      JsonText.parse json = some (.arr (rows.map fun row =>
        .obj (columns.map fun column => (column.header, (column.value row).toJson)))) := by
  obtain ⟨texts, -, htexts⟩ : ∃ texts, rows.mapM (jsonRow columns) = some texts ∧
      List.Forall₂ (fun row text => jsonRow columns row = some text) rows texts := by
    refine exists_mapM fun row _ => ?_
    obtain ⟨text, htext, -⟩ := exists_jsonRow hnodup row
    exact ⟨text, htext, htext⟩
  obtain ⟨chunks, hchunks, hflat⟩ := exists_jsonChunks htexts true
  refine ⟨JsonText.writeArray [','] texts, ?_, ?_⟩
  · rw [toJson, hchunks, Option.map_some, hflat, if_pos rfl]
    rfl
  · -- Each text is read as the object of its row.
    have hreads : List.Forall₂ JsonText.Reads texts (rows.map fun row =>
        .obj (columns.map fun column => (column.header, (column.value row).toJson))) := by
      rw [List.forall₂_map_right_iff]
      refine List.Forall₂.flip (htexts.imp ?_)
      intro row text hrow
      obtain ⟨text', htext', hread⟩ := exists_jsonRow hnodup row
      rw [hrow, Option.some.injEq] at htext'
      rw [htext']
      exact hread
    have hcomma : JsonText.Separates ',' [','] := compact_valid.1
    exact JsonText.parse_of_reads (JsonText.reads_array hcomma hreads)

end

/-- Every template has a column. -/
theorem columns_ne_nil (t : Template) : t.columns ≠ [] := by
  cases t <;> exact List.cons_ne_nil _ _

/-- No header is a formula. -/
theorem not_live_header (t : Template) : ∀ column ∈ t.columns, ¬ Live column.header.toList := by
  have hall : (t.columns.all fun column => !decide (Live column.header.toList)) = true := by
    cases t <;> decide
  intro column hcolumn
  simpa using List.all_eq_true.mp hall column hcolumn

section
variable (str : PyValue → Text) (t : Template) (fetch : ExportScope → List (List t.Row))
  (resolveEffectiveLicenses : List UUID → Dict UUID DataLicense) (caller : SessionUser)
  (evaluations : List Evaluation) (filters : ExportFilters)

/-- For every template, and for every list of evaluations with any pages of rows, the text of the
stream is the rendering of all rows in one piece. The CSV file is read as the header and one
record of the formatted cells for each row, and the JSON file as an array of one object for each
row, whose keys are the headers. -/
theorem stream_export_whole :
    (∃ chunks csv records,
      streamExport str resolveEffectiveLicenses (exportOf t fetch) caller evaluations
        filters .csv = some chunks ∧
      toCsv str t.columns
        (exportRows resolveEffectiveLicenses (exportOf t fetch) caller evaluations filters) =
        some csv ∧ chunks.flatten = utf8Bom :: csv ∧
      Csv.parse csv = some ((t.columns.map fun column => column.header.toList) :: records) ∧
      List.Forall₂ (fun row record => t.columns.mapM (cell str row) = some record)
        (exportRows resolveEffectiveLicenses (exportOf t fetch) caller evaluations filters)
        records) ∧
    ∃ chunks json,
      streamExport str resolveEffectiveLicenses (exportOf t fetch) caller evaluations
        filters .json = some chunks ∧
      toJson t.columns
        (exportRows resolveEffectiveLicenses (exportOf t fetch) caller evaluations filters) =
        some json ∧ chunks.flatten = json ∧
      JsonText.parse json = some (.arr
        ((exportRows resolveEffectiveLicenses (exportOf t fetch) caller evaluations filters).map
          fun row =>
          .obj (t.columns.map fun column => (column.header, (column.value row).toJson)))) := by
  -- The rows that the pages hold together.
  generalize hrows : exportRows resolveEffectiveLicenses (exportOf t fetch) caller evaluations
    filters = rows
  constructor
  · obtain ⟨csv, records, hcsv, hparse, hall⟩ :=
      exists_toCsv str (columns_ne_nil t) (column_kinds t) rows
    have hstream :
        (streamExport str resolveEffectiveLicenses (exportOf t fetch) caller evaluations filters
        .csv).map List.flatten = (toCsv str t.columns rows).map (utf8Bom :: ·) := by
      rw [← hrows]
      exact streamExport_csv str resolveEffectiveLicenses (exportOf t fetch) caller
        evaluations filters
    rw [hcsv, Option.map_some, Option.map_eq_some_iff] at hstream
    obtain ⟨chunks, hchunks, hflat⟩ := hstream
    exact ⟨chunks, csv, records, hchunks, hcsv, hflat, hparse, hall.imp fun _ _ h => h.1⟩
  · obtain ⟨json, hjson, hparse⟩ := exists_toJson (headers_nodup t) rows
    have hstream :
        (streamExport str resolveEffectiveLicenses (exportOf t fetch) caller evaluations filters
        .json).map List.flatten = toJson t.columns rows := by
      rw [← hrows]
      exact streamExport_json str resolveEffectiveLicenses (exportOf t fetch) caller
        evaluations filters
    rw [hjson, Option.map_eq_some_iff] at hstream
    obtain ⟨chunks, hchunks, hflat⟩ := hstream
    exact ⟨chunks, json, hchunks, hjson, hflat, hparse⟩

/-- For every template and all rows, the CSV file is read back with one cell for each column in
the header and in every record. No cell that comes from strings is a formula, and each cell is its
formatted value, which is the string itself when the guard had nothing to do. -/
theorem csv_cells_inert :
    ∃ chunks csv records,
      streamExport str resolveEffectiveLicenses (exportOf t fetch) caller evaluations
        filters .csv = some chunks ∧
      chunks.flatten = utf8Bom :: csv ∧
      Csv.parse csv = some ((t.columns.map fun column => column.header.toList) :: records) ∧
      (∀ column ∈ t.columns, ¬ Live column.header.toList) ∧
      List.Forall₂ (fun row record => record.length = t.columns.length ∧
          List.Forall₂ (CellOk str row) t.columns record)
        (exportRows resolveEffectiveLicenses (exportOf t fetch) caller evaluations filters)
        records := by
  generalize hrows : exportRows resolveEffectiveLicenses (exportOf t fetch) caller evaluations
    filters = rows
  obtain ⟨csv, records, hcsv, hparse, hall⟩ :=
    exists_toCsv str (columns_ne_nil t) (column_kinds t) rows
  have hstream :
      (streamExport str resolveEffectiveLicenses (exportOf t fetch) caller evaluations filters
      .csv).map List.flatten = (toCsv str t.columns rows).map (utf8Bom :: ·) := by
    rw [← hrows]
    exact streamExport_csv str resolveEffectiveLicenses (exportOf t fetch) caller
      evaluations filters
  rw [hcsv, Option.map_some, Option.map_eq_some_iff] at hstream
  obtain ⟨chunks, hchunks, hflat⟩ := hstream
  exact ⟨chunks, csv, records, hchunks, hflat, hparse, not_live_header t,
    hall.imp fun _ _ h => ⟨h.2.length_eq.symm, h.2⟩⟩

end

end RedTeaming.Exports.Generation
