import CoinManage.Json.Text
import CoinManage.Lib.Csv
import CoinManage.Sweeps.InMemory

/-!
# The export of the audit logs

`GET /audit-logs/export` sends the logs as a text of quoted cells, the names of the columns first.

* `Record.of_cells`, `File.of_rows`   quoted and joined, the cells are a text of the grammar;
* `csv_decodes`                       the text decodes to the header and the cells of every log.
-/

set_option linter.unusedSectionVars false

namespace SystemRoutes

/-- `value.replaceAll(searchValue, replaceValue)` -/
def replaceAll (value : String) (searchValue : Char) (replaceValue : String) : String :=
  String.ofList (value.toList.flatMap fun c => if c = searchValue then replaceValue.toList else [c])

def escapeCsvCell (value : String) : String :=
  "\"" ++ replaceAll value Csv.quoteMark "\"\"" ++ "\""

def header : List String :=
  ["auditId", "entityType", "entityId", "action", "actorType", "actorId", "createdAt", "metadata"]

/-- `JSON.stringify(log.metadata)` -/
def metadataText (metadata : List (String × String)) : String :=
  String.ofList (Json.text (.object (metadata.map fun field => (field.1, .string field.2))))

def row (log : AuditLog) : List String :=
  [log.auditId, log.entityType, log.entityId, log.action, log.actorType, log.actorId, log.createdAt,
    metadataText log.metadata]

def csvText (rows : List (List String)) : String :=
  "\n".intercalate (rows.map fun cells => ",".intercalate (cells.map escapeCsvCell))

def buildAuditLogsCsv (logs : List AuditLog) : String := csvText (header :: logs.map row)

/-- the rows a text has -/
def decodeCsv (text : String) : Option (List (List String)) :=
  (Csv.decode text.toList).map fun rows => rows.map fun cells => cells.map String.ofList

/-! ## cells, records and the text -/

theorem toList_escapeCsvCell (value : String) : (escapeCsvCell value).toList = Csv.quote value.toList := by
  simp only [escapeCsvCell, replaceAll, String.toList_append, String.toList_ofList]
  rfl

theorem Field.of_cell (value : String) : Csv.Field value.toList (escapeCsvCell value).toList := by
  rw [toList_escapeCsvCell]
  exact .quoted _

theorem Record.of_cells {cells : List String} (hne : cells ≠ []) :
    Csv.Record (cells.map String.toList) (",".intercalate (cells.map escapeCsvCell)).toList := by
  induction cells with
  | nil => exact absurd rfl hne
  | cons cell cells ih =>
    by_cases hcells : cells = []
    · subst hcells
      rw [List.map_singleton, List.map_singleton, String.intercalate_singleton]
      exact .last (Field.of_cell cell)
    · have hmap : cells.map escapeCsvCell ≠ [] := by simpa using hcells
      rw [List.map_cons, List.map_cons, String.intercalate_cons_of_ne_nil hmap, String.toList_append,
        String.toList_append, List.append_assoc]
      exact .cons (Field.of_cell cell) (ih hcells)

theorem record_ne_nil {cells : List String} (hne : cells ≠ []) :
    (",".intercalate (cells.map escapeCsvCell)).toList ≠ [] := by
  intro htext
  have hrecord := Record.of_cells hne
  rw [htext] at hrecord
  obtain ⟨cell, others, hcells⟩ := List.exists_cons_of_ne_nil hne
  subst hcells
  cases others with
  | nil =>
    rw [List.map_singleton, String.intercalate_singleton, toList_escapeCsvCell] at htext
    cases htext
  | cons next others =>
    rw [List.map_cons, String.intercalate_cons_of_ne_nil (by simp), String.toList_append,
      String.toList_append, toList_escapeCsvCell] at htext
    cases htext

theorem File.of_rows {rows : List (List String)} (hne : rows ≠ []) (hcells : ∀ cells ∈ rows, cells ≠ []) :
    Csv.File (rows.map fun cells => cells.map String.toList) (csvText rows).toList := by
  induction rows with
  | nil => exact absurd rfl hne
  | cons cells rows ih =>
    have hhead : cells ≠ [] := hcells cells List.mem_cons_self
    have hrest : ∀ others ∈ rows, others ≠ [] := fun others h => hcells others (List.mem_cons_of_mem _ h)
    by_cases hrows : rows = []
    · subst hrows
      rw [csvText, List.map_singleton, List.map_singleton, String.intercalate_singleton]
      exact .last (Record.of_cells hhead) (record_ne_nil hhead)
    · rw [csvText, List.map_cons, List.map_cons, String.intercalate_cons_of_ne_nil (by simpa using hrows),
        String.toList_append, String.toList_append, List.append_assoc]
      exact .cons (Record.of_cells hhead) (ih hrows hrest)

theorem decode_csvText {rows : List (List String)} (hne : rows ≠ []) (hcells : ∀ cells ∈ rows, cells ≠ []) :
    decodeCsv (csvText rows) = some rows := by
  have hfile : Csv.decode (csvText rows).toList = some (rows.map fun cells => cells.map String.toList) :=
    Csv.decode_iff.mpr (File.of_rows hne hcells)
  rw [decodeCsv, hfile, Option.map_some, List.map_map]
  have hcell : ∀ cells : List String, (cells.map String.toList).map String.ofList = cells := by
    intro cells
    rw [List.map_map]
    exact (List.map_congr_left fun c _ => String.ofList_toList).trans (List.map_id cells)
  exact congrArg some ((List.map_congr_left fun cells _ => hcell cells).trans (List.map_id rows))

/-- the exported text decodes to the names of the columns and then, log by log, to its cells -/
theorem csv_decodes (logs : List AuditLog) : decodeCsv (buildAuditLogsCsv logs) = some (header :: logs.map row) := by
  apply decode_csvText (List.cons_ne_nil _ _)
  intro cells h
  rcases List.mem_cons.mp h with rfl | h
  · exact List.cons_ne_nil _ _
  · obtain ⟨log, _, rfl⟩ := List.mem_map.mp h
    exact List.cons_ne_nil _ _

end SystemRoutes
