import Northwind.FakeForce.IngestRows

/-!
# The entries of `catalog.json`

`parseObject` checks one entry and resolves its sources.  The checks stand in
the order of `DatasetCatalog._parse_object`, and every option is checked in
the same way for both modes.

The footers of Parquet files and the first rows of CSV files are parameters.
-/

namespace Northwind
namespace FakeForce

/-- A computation goes on only from a result. -/
theorem except_bind_eq_ok_iff
    {ε α β : Type} (x : Except ε α) (f : α → Except ε β) (b : β) :
    x >>= f = .ok b ↔ ∃ a, x = .ok a ∧ f a = .ok b := by
  cases x with
  | error e =>
      constructor
      · intro h
        cases h
      · rintro ⟨a, h, _⟩
        cases h
  | ok a =>
      constructor
      · intro h
        exact ⟨a, rfl, h⟩
      · rintro ⟨a', h, hf⟩
        cases h
        exact hf

/-- A decoded JSON value; the names of an object are distinct. -/
inductive Json where
  | null
  | boolean (b : Bool)
  | number (literal : String)
  | string (s : String)
  | array (items : List Json)
  | object (members : List (String × Json))

/-- The `CatalogError`s of an entry; the last three raise something else. -/
inductive EntryError where
  | notAnObject
  | objectName (name : Json)
  | noSources (name : String)
  | schemaMapping (name : String)
  | schemaFieldName (name : String)
  | schemaType (name : String) (type : Json)
  | sourcePath (name : String)
  | noFile (name : String) (source : String)
  | source (error : CatalogError)
  | idField (name : String)
  | softDeleteField (name : String)
  | mode (name : String)
  | deltaPatterns (name : String)
  | versionField (name : String)
  | compatibilityAliases (name : String)
  | deltasWithoutVersion (name : String)
  | deltasOverCsv (name : String)
  | csvHeader (path : Path)
  | idFieldAbsent (name field : String)
  | softDeleteFieldAbsent (name field : String)
  | aliasSourceAbsent (name field : String)
  | versionFieldAbsent (name field : String)
  | unacceptablePattern (pattern : String)
  | unhashableMode
  | unreadable (path : Path)

/-- The texts of the errors, over `repr` and `str` of a path. -/
def EntryError.message (repr : Json → String) (str : Path → String) : EntryError → String
  | notAnObject => "catalog object entries must be objects"
  | objectName name => "invalid object name: " ++ repr name
  | noSources name => name ++ ": sources must be a non-empty list"
  | schemaMapping name => name ++ ": schema must be a non-empty field/type mapping"
  | schemaFieldName name => name ++ ": schema field names must be non-empty strings"
  | schemaType name type => name ++ ": unsupported schema type " ++ repr type ++
      "; use one of boolean, date, integer, number, string, timestamp"
  | sourcePath name => name ++ ": source paths must be strings"
  | noFile name configured => name ++ ": source does not match a file: " ++ configured
  | source (.unsupportedSourceFormat candidate) =>
      "unsupported source format: " ++ str candidate
  | idField name => name ++ ": id_field must be a non-empty string"
  | softDeleteField name => name ++ ": soft_delete_field must be a string or null"
  | mode name => name ++ ": mode must be read_only or mutable"
  | deltaPatterns name => name ++ ": delta_patterns must be a list of strings"
  | versionField name => name ++ ": version_field must be a non-empty string"
  | compatibilityAliases name =>
      name ++ ": compatibility_aliases must map field names to source fields"
  | deltasWithoutVersion name => name ++ ": delta_patterns require version_field"
  | deltasOverCsv name => name ++ ": Parquet delta patterns require Parquet base sources"
  | csvHeader path => "CSV source has no valid header: " ++ str path
  | idFieldAbsent name field =>
      name ++ ": id field " ++ repr (.string field) ++ " is absent from source schema"
  | softDeleteFieldAbsent name field =>
      name ++ ": soft-delete field " ++ repr (.string field) ++ " is absent from source schema"
  | aliasSourceAbsent name field => name ++ ": compatibility alias source " ++
      repr (.string field) ++ " is absent from source schema"
  | versionFieldAbsent name field =>
      name ++ ": version field " ++ repr (.string field) ++ " is absent from source schema"
  | unacceptablePattern pattern => "Unacceptable pattern: " ++ repr (.string pattern)
  | unhashableMode => "unhashable type"
  | unreadable path => str path

/-- `DatasetSpec.mode` -/
inductive ObjectMode where
  | readOnly
  | «mutable»
deriving DecidableEq

/-- An accepted entry: its specification with mode and schema. -/
structure CatalogObject where
  spec : DatasetSpec
  mode : ObjectMode
  schema : List Field

/-- What `_read_schema` reads of a file. -/
structure SchemaReader where
  /-- `pq.ParquetFile(path).schema_arrow` -/
  footer : Path → Option (List Field)
  /-- `next(csv.reader(stream), None)`; the outer option is an unreadable file. -/
  header : Path → Option (Option (List String))

/-- `_OBJECT_NAME.fullmatch` -/
def isObjectName (name : String) : Bool :=
  match name.toList with
  | [] => false
  | c :: rest => c.isAlpha && rest.all (fun d => d.isAlphanum || d = '_')

/-- `_DECLARED_FIELD_TYPES` -/
def declaredFieldTypes : List (String × FieldType) :=
  [("string", .other), ("boolean", .boolean), ("integer", .integer),
    ("number", .floating), ("date", .date), ("timestamp", .timestamp)]

/-- The parts of a glob pattern. -/
def patternParts (pattern : String) : List String :=
  ((pattern.toList.splitOn '/').map String.ofList).filter
    (fun part => part ≠ "" ∧ part ≠ ".")

def isText : Json → Bool
  | .string s => s ≠ ""
  | _ => false

def jsonText : Json → Option String
  | .string s => some s
  | _ => none

/-- `DatasetCatalog._declared_schema` -/
def declaredSchema (name : String) : Option Json → Except EntryError (Option (List Field))
  | none => .ok none
  | some .null => .ok none
  | some (.object (member :: members)) => do
      let fields ← (member :: members).mapM (fun entry => do
        if entry.1 = "" then
          throw (EntryError.schemaFieldName name)
        match (jsonText entry.2).bind (fun type => declaredFieldTypes.lookup type) with
        | some type => return (⟨entry.1, type⟩ : Field)
        | none => throw (EntryError.schemaType name entry.2))
      return some fields
  | some _ => .error (.schemaMapping name)

/-- The files of one configured source. -/
def configuredFiles (name : String) (declared : Bool) (roots : List Path) (disk : Disk) :
    Json → Except EntryError (List Path)
  | .string source => do
      let parts := patternParts source
      if parts = [] ∨ source.toList.head? = some '/' then
        throw (EntryError.unacceptablePattern source)
      let found ← (expandSource disk parts roots).mapError EntryError.source
      if found = [] ∧ declared = false then
        throw (EntryError.noFile name source)
      return found
  | _ => .error (.sourcePath name)

/-- `DatasetCatalog._read_schema` -/
def readSchema (reader : SchemaReader) (path : Path) : Except EntryError (List Field) :=
  if endsWith path.name ".parquet" then
    match reader.footer path with
    | some fields => .ok fields
    | none => .error (.unreadable path)
  else
    match reader.header path with
    | none => .error (.unreadable path)
    | some none => .error (.csvHeader path)
    | some (some names) =>
        if names = [] ∨ "" ∈ names then .error (.csvHeader path)
        else .ok (names.map (fun column => ⟨column, .other⟩))

/-- `id_field`, a non-empty string. -/
def readIdField (name : String) : Option Json → Except EntryError String
  | none => .ok "Id"
  | some (.string s) => if s = "" then .error (.idField name) else .ok s
  | some _ => .error (.idField name)

/-- `soft_delete_field`, a string or null. -/
def readSoftDeleteField (name : String) : Option Json → Except EntryError (Option String)
  | none => .ok (some "IsDeleted")
  | some (.string s) => .ok (some s)
  | some .null => .ok none
  | some _ => .error (.softDeleteField name)

/-- `mode`, a member of a set of strings. -/
def readMode (name : String) : Option Json → Except EntryError ObjectMode
  | none => .ok .readOnly
  | some (.string s) =>
      if s = "read_only" then .ok .readOnly
      else if s = "mutable" then .ok .mutable
      else .error (.mode name)
  | some (.array _) => .error .unhashableMode
  | some (.object _) => .error .unhashableMode
  | some _ => .error (.mode name)

/-- `delta_patterns`, a list of strings. -/
def readDeltaPatterns (name : String) : Option Json → Except EntryError (List String)
  | none => .ok []
  | some (.array items) =>
      match items.mapM jsonText with
      | some patterns => .ok patterns
      | none => .error (.deltaPatterns name)
  | some _ => .error (.deltaPatterns name)

/-- `version_field`, a non-empty string or null. -/
def readVersionField (name : String) : Option Json → Except EntryError (Option String)
  | none => .ok none
  | some .null => .ok none
  | some (.string s) => if s = "" then .error (.versionField name) else .ok (some s)
  | some _ => .error (.versionField name)

/-- `compatibility_aliases`, pairs of an alias and its source. -/
def readAliases (name : String) : Option Json → Except EntryError (List (String × String))
  | none => .ok []
  | some (.object members) =>
      match members.mapM (fun entry =>
          if entry.1 ≠ "" ∧ isText entry.2 = true then
            (jsonText entry.2).map (fun source => (entry.1, source))
          else none) with
      | some aliases => .ok aliases
      | none => .error (.compatibilityAliases name)
  | some _ => .error (.compatibilityAliases name)

/-- The aliases that are not themselves stored columns. -/
def effectiveAliases (names : List String) (aliases : List (String × String)) :
    List (String × String) :=
  aliases.filter (fun pair => pair.1 ∉ names)

/-- A stored column is no effective alias. -/
theorem lookup_effectiveAliases
    (names : List String) (aliases : List (String × String)) {column : String}
    (h : column ∈ names) :
    (effectiveAliases names aliases).lookup column = none := by
  unfold effectiveAliases
  induction aliases with
  | nil => rfl
  | cons pair aliases ih =>
      rw [List.filter_cons]
      split
      · rename_i hfresh
        have hne : (column == pair.1) = false := by
          rw [beq_eq_false_iff_ne]
          rintro rfl
          exact of_decide_eq_true hfresh h
        rw [List.lookup_cons, hne]
        exact ih
      · exact ih

/-- The schema with the effective aliases appended, typed as their sources. -/
def aliasedSchema (schema : List Field) (aliases : List (String × String)) : List Field :=
  schema ++ aliases.map (fun pair =>
    ⟨pair.1, ((schema.find? (fun field => field.name = pair.2)).map Field.type).getD .other⟩)

/-- `DatasetCatalog._parse_object` -/
def parseObject (reader : SchemaReader) (roots : List Path) (disk : Disk) :
    Json → Except EntryError CatalogObject
  | .object entry => do
      let nameEntry := (entry.lookup "name").getD .null
      let name ← match nameEntry with
        | .string s => if isObjectName s then pure s else throw (.objectName nameEntry)
        | _ => throw (.objectName nameEntry)
      let configured ← match entry.lookup "sources" with
        | some (.array (first :: rest)) => pure (first :: rest)
        | _ => throw (.noSources name)
      let declared ← declaredSchema name (entry.lookup "schema")
      let found ← configured.mapM (configuredFiles name declared.isSome roots disk)
      let sources := found.flatten
      let idField ← readIdField name (entry.lookup "id_field")
      let softDeleteField ← readSoftDeleteField name (entry.lookup "soft_delete_field")
      let mode ← readMode name (entry.lookup "mode")
      let deltaPatterns ← readDeltaPatterns name (entry.lookup "delta_patterns")
      let versionField ← readVersionField name (entry.lookup "version_field")
      let configuredAliases ← readAliases name (entry.lookup "compatibility_aliases")
      if deltaPatterns ≠ [] ∧ versionField = none then
        throw (.deltasWithoutVersion name)
      if deltaPatterns ≠ [] ∧ ¬ sources.all (fun path => endsWith path.name ".parquet") then
        throw (.deltasOverCsv name)
      -- Without a file every configured source raised, unless a schema is declared.
      let schema ← match sources with
        | path :: _ => readSchema reader path
        | [] => pure (declared.getD [])
      let names := schema.map Field.name
      if hid : idField ∈ names then
        match softDeleteField with
        | some field =>
            if field ∉ names then
              throw (.softDeleteFieldAbsent name field)
        | none => pure ()
        match configuredAliases.find? (fun pair => pair.2 ∉ names) with
        | some pair => throw (.aliasSourceAbsent name pair.2)
        | none => pure ()
        let aliases := effectiveAliases names configuredAliases
        let full := aliasedSchema schema aliases
        match versionField with
        | some field =>
            if field ∉ full.map Field.name then
              throw (.versionFieldAbsent name field)
        | none => pure ()
        return {
          spec := {
            objectName := name
            sources := sources
            idField := idField
            softDeleteField := softDeleteField
            dataRoots := roots
            deltaPatterns := deltaPatterns.map patternParts
            versionField := versionField
            compatibilityAliases := aliases
            idStored := lookup_effectiveAliases names configuredAliases hid }
          mode := mode
          schema := full }
      else
        throw (.idFieldAbsent name idField)
  | _ => .error .notAnObject

end FakeForce
end Northwind
