import Mathlib.Data.List.Induction
import Mathlib.Data.List.Nodup
import Mathlib.Data.List.Perm.Basic
import Mathlib.Data.List.Sort
import Northwind.Sources.Numbers
import Northwind.Sources.Rows

/-!
# Schema migrations

A checkout has a directory of numbered scripts.  A call reads the whole chain of
scripts, compares it with the ledger of the database and runs what is pending,
in the transaction of its caller: an error takes everything back.

A script acts on the whole database, the ledger included; it may fail.  The
checksum of a script is a parameter.

Every sequence of calls, from whatever checkouts whose scripts leave the ledger
alone, leaves the ledger with the scripts that were run, numbered from 1 and each
of them run once: `ledger_of_runs`.
-/

namespace Northwind
namespace Generator

/-! ## Checkouts -/

/-- A file of a migration directory; without a text where it cannot be read. -/
structure MigrationFile where
  name : String
  text : Option String

/-- A migration directory, where it is there. -/
structure Checkout where
  directory : String
  files : Option (List MigrationFile)

structure Migration (κ : Type) where
  version : Nat
  filename : String
  checksum : κ
  sql : String

inductive MigrationError where
  | directoryMissing (directory : String)
  | invalidFilename (filename : String)
  | duplicateVersion (version : Nat)
  | unreadable (filename : String)
  | noMigrations (directory : String)
  | notContiguous (versions : List Nat)
  | absentFromCheckout (version : Nat)
  | mismatch (version : Nat)
  | ledgerGap (versions : List Nat)
  | scriptFailed (version : Nat)
  | ledgerDropped (version : Nat)
  | uniqueViolation (version : Nat)
deriving DecidableEq

def MigrationError.message (system : String) : MigrationError → String
  | .directoryMissing directory =>
      "migration directory is missing for " ++ system ++ ": " ++ directory
  | .invalidFilename filename =>
      "invalid migration filename for " ++ system ++ ": " ++ filename
  | .duplicateVersion version =>
      "duplicate migration version " ++ toString version ++ " for " ++ system
  | .unreadable filename => "cannot read " ++ filename
  | .noMigrations directory => "no migrations found for " ++ system ++ ": " ++ directory
  | .notContiguous versions =>
      "migration versions for " ++ system ++ " must be contiguous from 1; found " ++
        toString versions
  | .absentFromCheckout version =>
      system ++ " has applied migration " ++ toString version ++
        " that is absent from this checkout"
  | .mismatch version =>
      system ++ " migration " ++ toString version ++
        " does not match its recorded filename or checksum; " ++
        "create a new migration instead of editing an applied one"
  | .ledgerGap versions =>
      system ++ " migration ledger has a gap: " ++ toString versions
  | .scriptFailed version => "script " ++ toString version ++ " failed"
  | .ledgerDropped _ => "relation simulation.schema_migrations does not exist"
  | .uniqueViolation _ => "duplicate key value violates unique constraint"

/-- `[a-z][a-z0-9_]*` -/
def isMigrationName : List Char → Bool
  | [] => false
  | c :: cs => c.isLower && cs.all (fun c => c.isLower || c.isDigit || c = '_')

/-- The number of a file name, where it matches `_FILENAME`. -/
def versionOf (filename : String) : Option Nat :=
  let digits := filename.toList.takeWhile Char.isDigit
  match filename.toList.dropWhile Char.isDigit with
  | '_' :: tail =>
      if !digits.isEmpty && ".sql".toList.isSuffixOf tail &&
          isMigrationName (tail.take (tail.length - 4)) then
        some (Nat.ofDigitChars 10 digits 0)
      else none
  | _ => none

/-- `sorted(directory.glob("*.sql"))` -/
def scriptFiles (files : List MigrationFile) : List MigrationFile :=
  (files.filter (fun file => endsWith file.name ".sql")).insertionSort
    (fun file file' => file.name ≤ file'.name)

section

variable {κ : Type} (sha256 : String → κ)

/-- The loop of `discover_migrations` -/
def readMigrations (seenVersions : List Nat) :
    List MigrationFile → Except MigrationError (List (Migration κ))
  | [] => .ok []
  | file :: files =>
      match versionOf file.name with
      | none => .error (.invalidFilename file.name)
      | some version =>
          if version ∈ seenVersions then .error (.duplicateVersion version)
          else
            match file.text with
            | none => .error (.unreadable file.name)
            | some sql =>
                match readMigrations (version :: seenVersions) files with
                | .error e => .error e
                | .ok rest => .ok (⟨version, file.name, sha256 sql, sql⟩ :: rest)

/-- `discover_migrations` -/
def discoverMigrations (checkout : Checkout) : Except MigrationError (List (Migration κ)) :=
  match checkout.files with
  | none => .error (.directoryMissing checkout.directory)
  | some files =>
      match readMigrations sha256 [] (scriptFiles files) with
      | .error e => .error e
      | .ok migrations =>
          let versions := migrations.map Migration.version
          if migrations.isEmpty then .error (.noMigrations checkout.directory)
          else if versions ≠ List.range' 1 (versions.getLastD 0) then
            .error (.notContiguous versions)
          else .ok migrations

end

/-! ## Databases -/

/-- A row of `simulation.schema_migrations` -/
structure LedgerRow (κ : Type) where
  version : Nat
  filename : String
  checksum : κ
deriving DecidableEq

def Migration.row {κ : Type} (migration : Migration κ) : LedgerRow κ :=
  ⟨migration.version, migration.filename, migration.checksum⟩

/-- The ledger, where its table is there, and everything else. -/
structure Database (κ σ : Type) where
  ledger : Option (List (LedgerRow κ))
  schema : σ

def Database.rows {κ σ : Type} (db : Database κ σ) : List (LedgerRow κ) :=
  db.ledger.getD []

/-- The insert into the ledger. -/
def Database.record {κ σ : Type} (db : Database κ σ) (row : LedgerRow κ) : Database κ σ :=
  { db with ledger := some (db.rows ++ [row]) }

section

variable {κ σ : Type} (sha256 : String → κ)
variable (execute : String → Database κ σ → Option (Database κ σ))

/-- `_prepare_ledger` -/
def prepareLedger (db : Database κ σ) : Database κ σ :=
  { db with ledger := some db.rows }

/-- `available.get(version)`: of two scripts of one version the later one -/
def available (migrations : List (Migration κ)) (version : Nat) : Option (Migration κ) :=
  migrations.reverse.find? (fun migration => migration.version = version)

variable [DecidableEq κ]

/-- The loop of `_validate_applied` -/
def matchApplied (migrations : List (Migration κ)) :
    List (LedgerRow κ) → Except MigrationError (List Nat)
  | [] => .ok []
  | row :: rows =>
      match available migrations row.version with
      | none => .error (.absentFromCheckout row.version)
      | some migration =>
          if migration.filename ≠ row.filename ∨ migration.checksum ≠ row.checksum then
            .error (.mismatch row.version)
          else
            match matchApplied migrations rows with
            | .error e => .error e
            | .ok applied => .ok (row.version :: applied)

/-- `_validate_applied` -/
def validateApplied (migrations : List (Migration κ)) (rows : List (LedgerRow κ)) :
    Except MigrationError (List Nat) :=
  match matchApplied migrations rows with
  | .error e => .error e
  | .ok applied =>
      let expected := List.range' 1 (applied.foldr max 0)
      if applied ⊆ expected ∧ expected ⊆ applied then .ok applied
      else .error (.ledgerGap (applied.insertionSort (· ≤ ·)))

/-- A pending script and its row of the ledger. -/
def applyScript (db : Database κ σ) (migration : Migration κ) :
    Except MigrationError (Database κ σ) :=
  match execute migration.sql db with
  | none => .error (.scriptFailed migration.version)
  | some changed =>
      match changed.ledger with
      | none => .error (.ledgerDropped migration.version)
      | some rows =>
          if rows.any (fun row =>
              row.version = migration.version || row.filename = migration.filename) then
            .error (.uniqueViolation migration.version)
          else .ok (changed.record migration.row)

def applyScripts (db : Database κ σ) :
    List (Migration κ) → Except MigrationError (Database κ σ)
  | [] => .ok db
  | migration :: pending =>
      match applyScript execute db migration with
      | .error e => .error e
      | .ok db' => applyScripts db' pending

/-- `apply_migrations`: the database that the caller commits, and the scripts
that were run. -/
def applyMigrations (checkout : Checkout) (db : Database κ σ) :
    Except MigrationError (Database κ σ × List (Migration κ)) :=
  match discoverMigrations sha256 checkout with
  | .error e => .error e
  | .ok migrations =>
      let prepared := prepareLedger db
      match validateApplied migrations
          (prepared.rows.insertionSort (fun row row' => row.version ≤ row'.version)) with
      | .error e => .error e
      | .ok applied =>
          let pending := migrations.filter (fun migration => migration.version ∉ applied)
          match applyScripts execute prepared pending with
          | .error e => .error e
          | .ok db' => .ok (db', pending)

/-- A call of a caller that commits what returns and rolls back what raises: the
database after it, and the scripts that were run and committed. -/
def call (checkout : Checkout) (db : Database κ σ) : Database κ σ × List (Migration κ) :=
  match applyMigrations sha256 execute checkout db with
  | .error _ => (db, [])
  | .ok done => done

/-- A sequence of calls: the database after it and every script that was run and
committed, in the order in which they ran. -/
def calls : List Checkout → Database κ σ → Database κ σ × List (Migration κ)
  | [], db => (db, [])
  | checkout :: checkouts, db =>
      let first := call sha256 execute checkout db
      let rest := calls checkouts first.1
      (rest.1, first.2 ++ rest.2)

end

/-! ## Chains -/

section Chains

variable {κ σ : Type} {sha256 : String → κ} {checkout : Checkout}
variable {chain : List (Migration κ)}

/-- A script of the chain and the file it was read from. -/
structure IsScriptOf (sha256 : String → κ) (file : MigrationFile) (migration : Migration κ) :
    Prop where
  version : versionOf file.name = some migration.version
  filename : migration.filename = file.name
  text : file.text = some migration.sql
  checksum : migration.checksum = sha256 migration.sql

theorem readMigrations_spec {seenVersions : List Nat} {files : List MigrationFile}
    (h : readMigrations sha256 seenVersions files = .ok chain) :
    List.Forall₂ (IsScriptOf sha256) files chain := by
  induction files generalizing seenVersions chain with
  | nil =>
      cases h
      exact .nil
  | cons file files ih =>
      rw [readMigrations] at h
      split at h
      · cases h
      · rename_i version hversion
        split at h
        · cases h
        · split at h
          · cases h
          · rename_i sql htext
            split at h
            · cases h
            · rename_i rest hrest
              cases h
              exact .cons ⟨hversion, rfl, htext, rfl⟩ (ih hrest)

theorem scripts_of_files {files : List MigrationFile}
    (h : List.Forall₂ (IsScriptOf sha256) files chain) :
    (∀ file, file ∈ files → ∃ migration, migration ∈ chain ∧ IsScriptOf sha256 file migration) ∧
      (∀ migration, migration ∈ chain → ∃ file, file ∈ files ∧ IsScriptOf sha256 file migration) ∧
        files.map (fun file => versionOf file.name) =
          chain.map (fun migration => some migration.version) := by
  induction h with
  | nil => exact ⟨fun _ hmem => (nomatch hmem), fun _ hmem => (nomatch hmem), rfl⟩
  | @cons file migration files chain hscript _ ih =>
      obtain ⟨hfiles, hchain, hversions⟩ := ih
      refine ⟨fun other hother => ?_, fun other hother => ?_, ?_⟩
      · obtain rfl | hother := List.mem_cons.mp hother
        · exact ⟨migration, List.mem_cons_self, hscript⟩
        · obtain ⟨found, hfound, h⟩ := hfiles other hother
          exact ⟨found, List.mem_cons_of_mem _ hfound, h⟩
      · obtain rfl | hother := List.mem_cons.mp hother
        · exact ⟨file, List.mem_cons_self, hscript⟩
        · obtain ⟨found, hfound, h⟩ := hchain other hother
          exact ⟨found, List.mem_cons_of_mem _ hfound, h⟩
      · rw [List.map_cons, List.map_cons, hscript.version, hversions]

/-- A chain that is read is numbered from 1, without a gap. -/
theorem discoverMigrations_spec (h : discoverMigrations sha256 checkout = .ok chain) :
    ∃ files, checkout.files = some files ∧
      List.Forall₂ (IsScriptOf sha256) (scriptFiles files) chain ∧
        chain.map Migration.version = List.range' 1 chain.length := by
  rw [discoverMigrations] at h
  split at h
  · cases h
  · rename_i files hfiles
    split at h
    · cases h
    · rename_i migrations hread
      simp only at h
      split at h
      · cases h
      · split at h
        · cases h
        · rename_i hversions
          cases h
          refine ⟨files, hfiles, readMigrations_spec hread, ?_⟩
          have heq := not_not.mp hversions
          have hlength := congrArg List.length heq
          rw [List.length_map, List.length_range'] at hlength
          rw [heq, ← hlength]

theorem mem_scriptFiles {files : List MigrationFile} {file : MigrationFile} :
    file ∈ scriptFiles files ↔ file ∈ files ∧ endsWith file.name ".sql" = true := by
  rw [scriptFiles, List.mem_insertionSort, List.mem_filter]

/-- A row of the ledger and the script it is a row of. -/
theorem mem_of_available {version : Nat} {migration : Migration κ}
    (h : available chain version = some migration) :
    migration ∈ chain ∧ migration.version = version := by
  refine ⟨List.mem_reverse.mp (List.mem_of_find?_eq_some h), ?_⟩
  simpa using List.find?_some h

section Applied

variable [DecidableEq κ]

theorem matchApplied_spec {rows : List (LedgerRow κ)} {applied : List Nat}
    (h : matchApplied chain rows = .ok applied) :
    applied = rows.map LedgerRow.version ∧
      ∀ row, row ∈ rows → ∃ migration, migration ∈ chain ∧ migration.row = row := by
  induction rows generalizing applied with
  | nil =>
      cases h
      exact ⟨rfl, fun row hrow => nomatch hrow⟩
  | cons row rows ih =>
      rw [matchApplied] at h
      split at h
      · cases h
      · rename_i migration havailable
        split at h
        · cases h
        · rename_i hsame
          split at h
          · cases h
          · rename_i rest hrest
            cases h
            obtain ⟨hversions, hmem⟩ := ih hrest
            obtain ⟨hmigration, hversion⟩ := mem_of_available havailable
            obtain ⟨hfilename, hchecksum⟩ := not_or.mp hsame
            refine ⟨by rw [hversions, List.map_cons], fun other hother => ?_⟩
            obtain rfl | hother := List.mem_cons.mp hother
            · refine ⟨migration, hmigration, ?_⟩
              rw [Migration.row, hversion, not_not.mp hfilename, not_not.mp hchecksum]
            · exact hmem other hother

theorem validateApplied_spec {rows : List (LedgerRow κ)} {applied : List Nat}
    (h : validateApplied chain rows = .ok applied) :
    applied = rows.map LedgerRow.version ∧
      (∀ row, row ∈ rows → ∃ migration, migration ∈ chain ∧ migration.row = row) ∧
        List.range' 1 (applied.foldr max 0) ⊆ applied := by
  rw [validateApplied] at h
  split at h
  · cases h
  · rename_i applied' hmatch
    simp only at h
    split at h
    · rename_i hexpected
      cases h
      exact ⟨(matchApplied_spec hmatch).1, (matchApplied_spec hmatch).2, hexpected.2⟩
    · cases h

end Applied

/-- Rows numbered from 1 that belong to a chain are its first rows, and the rest
of the chain is pending. -/
theorem chain_split {rows : List (LedgerRow κ)}
    (hchain : chain.map Migration.version = List.range' 1 chain.length)
    (hrows : rows.map LedgerRow.version = List.range' 1 rows.length)
    (hmem : ∀ row, row ∈ rows → ∃ migration, migration ∈ chain ∧ migration.row = row) :
    rows = (chain.take rows.length).map Migration.row ∧
      chain.filter (fun migration => migration.version ∉ rows.map LedgerRow.version) =
        chain.drop rows.length := by
  have hversion : ∀ i (hi : i < chain.length), (chain[i]).version = 1 + i := by
    intro i hi
    have hget := congrArg (fun versions => versions[i]?) hchain
    simpa [hi] using hget
  have hrow : ∀ i (hi : i < rows.length), (rows[i]).version = 1 + i := by
    intro i hi
    have hget := congrArg (fun versions => versions[i]?) hrows
    simpa [hi] using hget
  have hsame : ∀ i (hi : i < rows.length), ∃ hi' : i < chain.length,
      rows[i] = (chain[i]).row := by
    intro i hi
    obtain ⟨migration, hmigration, heq⟩ := hmem _ (List.getElem_mem hi)
    obtain ⟨j, hj, rfl⟩ := List.getElem_of_mem hmigration
    have hnumber := congrArg LedgerRow.version heq
    rw [hrow i hi] at hnumber
    change (chain[j]).version = 1 + i at hnumber
    obtain rfl : j = i := by
      rw [hversion j hj] at hnumber
      omega
    exact ⟨hj, heq.symm⟩
  have hlength : rows.length ≤ chain.length := by
    rcases Nat.eq_zero_or_pos rows.length with hzero | hpos
    · omega
    · obtain ⟨hlast, _⟩ := hsame (rows.length - 1) (by omega)
      omega
  constructor
  · refine List.ext_getElem (by simp [hlength]) fun i hi _ => ?_
    obtain ⟨_, heq⟩ := hsame i hi
    simpa using heq
  · rw [hrows]
    conv_lhs => rw [← List.take_append_drop rows.length chain]
    rw [List.filter_append]
    have htake : (chain.take rows.length).filter
        (fun migration => migration.version ∉ List.range' 1 rows.length) = [] := by
      rw [List.filter_eq_nil_iff]
      intro migration hmigration
      obtain ⟨i, hi, rfl⟩ := List.getElem_of_mem hmigration
      rw [List.length_take] at hi
      simp only [List.getElem_take, hversion i (by omega), decide_eq_true_iff, List.mem_range'_1]
      omega
    have hdrop : (chain.drop rows.length).filter
        (fun migration => migration.version ∉ List.range' 1 rows.length) =
          chain.drop rows.length := by
      rw [List.filter_eq_self]
      intro migration hmigration
      obtain ⟨i, hi, rfl⟩ := List.getElem_of_mem hmigration
      rw [List.length_drop] at hi
      simp only [List.getElem_drop, hversion (rows.length + i) (by omega), decide_eq_true_iff,
        List.mem_range'_1]
      omega
    rw [htake, hdrop, List.nil_append]

end Chains

/-! ## Calls -/

section Calls

variable {κ σ : Type} {sha256 : String → κ}
variable {execute : String → Database κ σ → Option (Database κ σ)}
variable {checkout : Checkout} {db db' : Database κ σ} {pending ran : List (Migration κ)}

/-- No script of the checkout changes the ledger. -/
def LeavesLedger (execute : String → Database κ σ → Option (Database κ σ))
    (checkout : Checkout) : Prop :=
  ∀ files file sql, checkout.files = some files → file ∈ files → file.text = some sql →
    ∀ db db', execute sql db = some db' → db'.ledger = db.ledger

/-- Scripts one after another, each with its row of the ledger. -/
def runScripts (execute : String → Database κ σ → Option (Database κ σ)) :
    List (Migration κ) → Database κ σ → Option (Database κ σ)
  | [], db => some db
  | migration :: pending, db =>
      (execute migration.sql db).bind fun changed =>
        runScripts execute pending (changed.record migration.row)

theorem runScripts_append (first second : List (Migration κ)) (db : Database κ σ) :
    runScripts execute (first ++ second) db =
      (runScripts execute first db).bind (runScripts execute second) := by
  induction first generalizing db with
  | nil => rfl
  | cons migration first ih =>
      rw [List.cons_append, runScripts, runScripts, Option.bind_assoc]
      exact congrArg _ (funext fun changed => ih (changed.record migration.row))

/-- A script that goes through is run and recorded. -/
theorem applyScript_spec {migration : Migration κ}
    (h : applyScript execute db migration = .ok db') :
    ∃ changed, execute migration.sql db = some changed ∧
      db' = changed.record migration.row := by
  rw [applyScript] at h
  split at h
  · cases h
  · rename_i changed hchanged
    split at h
    · cases h
    · split at h
      · cases h
      · cases h
        exact ⟨changed, hchanged, rfl⟩

theorem applyScripts_spec (h : applyScripts execute db pending = .ok db') :
    runScripts execute pending db = some db' := by
  induction pending generalizing db with
  | nil =>
      cases h
      rfl
  | cons migration pending ih =>
      rw [applyScripts] at h
      split at h
      · cases h
      · rename_i first hfirst
        obtain ⟨changed, hchanged, rfl⟩ := applyScript_spec hfirst
        rw [runScripts, hchanged]
        exact ih h

/-- Scripts that leave the ledger alone add their own rows to it and no others. -/
theorem ledger_runScripts
    (hleaves : ∀ migration ∈ pending, ∀ db db', execute migration.sql db = some db' →
      db'.ledger = db.ledger)
    (h : runScripts execute pending (prepareLedger db) = some db') :
    db'.ledger = some (db.rows ++ pending.map Migration.row) := by
  have hprepared : (prepareLedger db).ledger = some db.rows := rfl
  generalize prepareLedger db = prepared at h hprepared
  generalize db.rows = rows at hprepared
  induction pending generalizing prepared rows with
  | nil =>
      cases h
      rw [hprepared, List.map_nil, List.append_nil]
  | cons migration pending ih =>
      obtain ⟨changed, hchanged, hrest⟩ := Option.bind_eq_some_iff.mp h
      have hsame := hleaves migration List.mem_cons_self _ _ hchanged
      have hrecorded : (changed.record migration.row).ledger =
          some (rows ++ [migration.row]) := by
        rw [Database.record, Database.rows, hsame, hprepared, Option.getD_some]
      have htail := ih (fun other hother => hleaves other (List.mem_cons_of_mem _ hother)) _ hrest
        _ hrecorded
      rw [htail, List.append_assoc, List.map_cons, List.singleton_append]

/-- The scripts that were run on a database are numbered from 1, and the ledger
has them. -/
structure Recorded (sha256 : String → κ)
    (execute : String → Database κ σ → Option (Database κ σ)) (start : Database κ σ)
    (ran : List (Migration κ)) (db : Database κ σ) : Prop where
  rows : db.rows = ran.map Migration.row
  versions : ran.map Migration.version = List.range' 1 ran.length
  checksums : ∀ migration, migration ∈ ran → migration.checksum = sha256 migration.sql
  run : runScripts execute ran (prepareLedger start) = some (prepareLedger db)

variable {start : Database κ σ}

theorem Recorded.rows_versions (h : Recorded sha256 execute start ran db) :
    db.rows.map LedgerRow.version = List.range' 1 db.rows.length := by
  rw [h.rows, List.map_map, List.length_map, ← h.versions]
  rfl

/-- A checkout whose chain is not a chain, or not one that goes on from the ledger. -/
inductive Disagreement (sha256 : String → κ) (checkout : Checkout)
    (rows : List (LedgerRow κ)) : Prop
  | missing (h : checkout.files = none)
  | misnumbered {files : List MigrationFile} {file : MigrationFile}
      (hfiles : checkout.files = some files) (hfile : file ∈ scriptFiles files)
      (h : versionOf file.name = none)
  | duplicate {files : List MigrationFile} (hfiles : checkout.files = some files)
      (h : ¬ ((scriptFiles files).map (fun file => versionOf file.name)).Nodup)
  | gap {files : List MigrationFile} {file : MigrationFile} {version number : Nat}
      (hfiles : checkout.files = some files) (hfile : file ∈ scriptFiles files)
      (hversion : versionOf file.name = some version) (hnumber : number ∈ List.range' 1 version)
      (h : ∀ file, file ∈ scriptFiles files → versionOf file.name ≠ some number)
  | changed {files : List MigrationFile} {row : LedgerRow κ}
      (hfiles : checkout.files = some files) (hrow : row ∈ rows)
      (h : ∀ file, file ∈ scriptFiles files → file.name = row.filename →
        versionOf file.name = some row.version → file.text.map sha256 ≠ some row.checksum)
  | ledgerGap {row : LedgerRow κ} {number : Nat} (hrow : row ∈ rows)
      (hnumber : number ∈ List.range' 1 row.version)
      (h : ∀ row, row ∈ rows → row.version ≠ number)

/-- A chain that is read and goes on from the ledger disagrees in nothing. -/
theorem not_disagreement {chain : List (Migration κ)} {rows : List (LedgerRow κ)}
    (hchain : discoverMigrations sha256 checkout = .ok chain)
    (hmem : ∀ row, row ∈ rows → ∃ migration, migration ∈ chain ∧ migration.row = row)
    (hexpected : List.range' 1 ((rows.map LedgerRow.version).foldr max 0) ⊆
      rows.map LedgerRow.version) :
    ¬ Disagreement sha256 checkout rows := by
  obtain ⟨files, hfiles, hscripts, hversions⟩ := discoverMigrations_spec hchain
  obtain ⟨hof, hfrom, hnumbers⟩ := scripts_of_files hscripts
  have hread : ∀ {files'}, checkout.files = some files' → files' = files := fun h =>
    Option.some.inj (h.symm.trans hfiles)
  intro h
  cases h with
  | missing h => exact nomatch h.symm.trans hfiles
  | misnumbered hfiles' hfile h =>
      obtain rfl := hread hfiles'
      obtain ⟨migration, _, hscript⟩ := hof _ hfile
      exact nomatch h.symm.trans hscript.version
  | duplicate hfiles' h =>
      obtain rfl := hread hfiles'
      refine h ?_
      have hmap : chain.map (fun migration => some migration.version) =
          (chain.map Migration.version).map some := by
        rw [List.map_map]
        rfl
      rw [hnumbers, hmap, hversions]
      exact (List.nodup_range' 1).map (Option.some_injective Nat)
  | @gap _ _ _ number hfiles' hfile hversion hnumber h =>
      obtain rfl := hread hfiles'
      obtain ⟨migration, hmigration, hscript⟩ := hof _ hfile
      have hlast := List.mem_map_of_mem (f := Migration.version) hmigration
      rw [hscript.version] at hversion
      rw [hversions, Option.some.inj hversion, List.mem_range'_1] at hlast
      rw [List.mem_range'_1] at hnumber
      have hthere : number ∈ chain.map Migration.version := by
        rw [hversions]
        exact List.mem_range'_1.mpr ⟨hnumber.1, by omega⟩
      obtain ⟨other, hother, hversion'⟩ := List.mem_map.mp hthere
      obtain ⟨file', hfile', hscript'⟩ := hfrom other hother
      exact h file' hfile' (hscript'.version.trans (congrArg some hversion'))
  | changed hfiles' hrow h =>
      obtain rfl := hread hfiles'
      obtain ⟨migration, hmigration, rfl⟩ := hmem _ hrow
      obtain ⟨file, hfile, hscript⟩ := hfrom migration hmigration
      refine h file hfile hscript.filename.symm hscript.version ?_
      rw [hscript.text, Option.map_some, ← hscript.checksum]
      rfl
  | ledgerGap hrow hnumber h =>
      rw [List.mem_range'_1] at hnumber
      have hle := le_foldr_max (List.mem_map_of_mem (f := LedgerRow.version) hrow)
      have hthere := hexpected (List.mem_range'_1.mpr ⟨hnumber.1, by omega⟩)
      obtain ⟨other, hother, hversion⟩ := List.mem_map.mp hthere
      exact h other hother hversion

variable [DecidableEq κ]

/-- What the comparison with the rows of a ledger, in the order of their
versions, says of the rows. -/
theorem validateApplied_rows {chain : List (Migration κ)} {rows : List (LedgerRow κ)}
    {applied : List Nat}
    (h : validateApplied chain
      (rows.insertionSort (fun row row' => row.version ≤ row'.version)) = .ok applied) :
    (∀ version, version ∈ applied ↔ version ∈ rows.map LedgerRow.version) ∧
      (∀ row, row ∈ rows → ∃ migration, migration ∈ chain ∧ migration.row = row) ∧
      List.range' 1 ((rows.map LedgerRow.version).foldr max 0) ⊆
        rows.map LedgerRow.version := by
  obtain ⟨rfl, hmem, hexpected⟩ := validateApplied_spec h
  have hperm := List.perm_insertionSort
    (fun row row' : LedgerRow κ => row.version ≤ row'.version) rows
  have hversions := hperm.map LedgerRow.version
  refine ⟨fun version => hversions.mem_iff, fun row hrow => hmem row (hperm.mem_iff.mpr hrow),
    fun version hversion => hversions.mem_iff.mp (hexpected ?_)⟩
  rwa [hversions.foldr_op_eq]

/-- What a call that returns has checked and done. -/
theorem applyMigrations_spec
    (h : applyMigrations sha256 execute checkout db = .ok (db', pending)) :
    ∃ chain, discoverMigrations sha256 checkout = .ok chain ∧
      (∀ row, row ∈ db.rows → ∃ migration, migration ∈ chain ∧ migration.row = row) ∧
      pending =
        chain.filter (fun migration => migration.version ∉ db.rows.map LedgerRow.version) ∧
      runScripts execute pending (prepareLedger db) = some db' := by
  rw [applyMigrations] at h
  split at h
  · cases h
  · rename_i chain hchain
    simp only at h
    split at h
    · cases h
    · rename_i applied hvalid
      obtain ⟨happlied, hmem, _⟩ := validateApplied_rows hvalid
      split at h
      · cases h
      · rename_i done hdone
        cases h
        refine ⟨chain, hchain, hmem, List.filter_congr fun migration _ => ?_,
          applyScripts_spec hdone⟩
        rw [decide_eq_decide, happlied]
        rfl

/-- A call that returns runs the rest of its chain and leaves the whole of it. -/
theorem Recorded.returns (hrecorded : Recorded sha256 execute start ran db)
    (hleaves : LeavesLedger execute checkout)
    (h : applyMigrations sha256 execute checkout db = .ok (db', pending)) :
    Recorded sha256 execute start (ran ++ pending) db' ∧
      ∃ chain, discoverMigrations sha256 checkout = .ok chain ∧
        db'.rows = chain.map Migration.row := by
  obtain ⟨chain, hchain, hmem, hpending, hrun⟩ := applyMigrations_spec h
  obtain ⟨files, hfiles, hscripts, hversions⟩ := discoverMigrations_spec hchain
  obtain ⟨hfirst, hrest⟩ := chain_split hversions hrecorded.rows_versions hmem
  -- what is pending comes from files of the checkout
  have hfrom : ∀ migration ∈ pending, ∃ file ∈ files, IsScriptOf sha256 file migration := by
    intro migration hmigration
    rw [hpending] at hmigration
    obtain ⟨file, hfile, hscript⟩ :=
      (scripts_of_files hscripts).2.1 _ (List.mem_filter.mp hmigration).1
    exact ⟨file, (mem_scriptFiles.mp hfile).1, hscript⟩
  have hledger : db'.ledger = some (db.rows ++ pending.map Migration.row) := by
    refine ledger_runScripts (fun migration hmigration => ?_) hrun
    obtain ⟨file, hfile, hscript⟩ := hfrom migration hmigration
    exact hleaves files file migration.sql hfiles hfile hscript.text
  have hrows : db'.rows = db.rows ++ pending.map Migration.row := by
    rw [Database.rows, hledger, Option.getD_some]
  have hwhole : db'.rows = chain.map Migration.row := by
    calc db'.rows
        = (chain.take db.rows.length).map Migration.row ++
            (chain.drop db.rows.length).map Migration.row := by
          rw [hrows, hpending, hrest, ← hfirst]
      _ = chain.map Migration.row := by rw [← List.map_append, List.take_append_drop]
  have hran : db'.rows = (ran ++ pending).map Migration.row := by
    rw [hrows, hrecorded.rows, List.map_append]
  have hchained : (ran ++ pending).map Migration.row = chain.map Migration.row :=
    hran.symm.trans hwhole
  refine ⟨⟨hran, ?_, ?_, ?_⟩, chain, hchain, hwhole⟩
  · have hnumbers := congrArg (List.map LedgerRow.version) hchained
    have hlength := congrArg List.length hchained
    rw [List.length_map, List.length_map] at hlength
    rw [List.map_map, List.map_map] at hnumbers
    rw [hlength, ← hversions]
    exact hnumbers
  · intro migration hmigration
    obtain hold | hnew := List.mem_append.mp hmigration
    · exact hrecorded.checksums migration hold
    · obtain ⟨_, _, hscript⟩ := hfrom migration hnew
      exact hscript.checksum
  · have hprepared : prepareLedger db' = db' := by
      rw [prepareLedger, Database.rows, hledger, Option.getD_some, ← hledger]
    rw [runScripts_append, hrecorded.run, Option.bind_some, hrun, hprepared]

/-- A call of a checkout that disagrees with the ledger is rejected before any
script runs. -/
theorem rejected_of_disagreement (h : Disagreement sha256 checkout db.rows) :
    ∃ e, ∀ execute : String → Database κ σ → Option (Database κ σ),
      applyMigrations sha256 execute checkout db = .error e := by
  simp only [applyMigrations]
  cases hchain : discoverMigrations sha256 checkout with
  | error e => exact ⟨e, fun _ => rfl⟩
  | ok chain =>
      simp only
      cases hvalid : validateApplied chain ((prepareLedger db).rows.insertionSort
          (fun row row' => row.version ≤ row'.version)) with
      | error e => exact ⟨e, fun _ => rfl⟩
      | ok applied =>
          obtain ⟨_, hmem, hexpected⟩ := validateApplied_rows hvalid
          exact absurd h (not_disagreement hchain hmem hexpected)

/-- The scripts of every sequence of calls are recorded. -/
theorem recorded_calls {checkouts : List Checkout}
    (hleaves : ∀ checkout ∈ checkouts, LeavesLedger execute checkout)
    (hrecorded : Recorded sha256 execute start ran db) :
    Recorded sha256 execute start (ran ++ (calls sha256 execute checkouts db).2)
      (calls sha256 execute checkouts db).1 := by
  induction checkouts generalizing db ran with
  | nil => simpa [calls] using hrecorded
  | cons checkout checkouts ih =>
      have hfirst : Recorded sha256 execute start
          (ran ++ (call sha256 execute checkout db).2) (call sha256 execute checkout db).1 := by
        rw [call]
        split
        · simpa using hrecorded
        · rename_i done hdone
          exact (hrecorded.returns (hleaves checkout List.mem_cons_self) hdone).1
      rw [calls]
      simpa [List.append_assoc] using
        ih (fun other hother => hleaves other (List.mem_cons_of_mem _ hother)) hfirst

/-- After every sequence of calls whose scripts leave the ledger alone, the ledger
has exactly the scripts that were run, numbered from 1, each of them run once and in
this order.  A call that returns leaves the whole chain of its checkout; a checkout
that disagrees with the ledger is rejected, whatever its scripts do, and changes
nothing. -/
theorem ledger_of_runs (hstart : db.rows = []) {checkouts : List Checkout}
    (hleaves : ∀ checkout ∈ checkouts, LeavesLedger execute checkout) :
    Recorded sha256 execute db (calls sha256 execute checkouts db).2
        (calls sha256 execute checkouts db).1 ∧
      ∀ checkout,
        (LeavesLedger execute checkout → ∀ db' pending,
          applyMigrations sha256 execute checkout (calls sha256 execute checkouts db).1 =
              .ok (db', pending) →
            call sha256 execute checkout (calls sha256 execute checkouts db).1 =
              (db', pending) ∧
            ∃ files chain, checkout.files = some files ∧
              List.Forall₂ (IsScriptOf sha256) (scriptFiles files) chain ∧
              db'.rows = chain.map Migration.row) ∧
        (Disagreement sha256 checkout (calls sha256 execute checkouts db).1.rows →
          (∃ e, ∀ execute' : String → Database κ σ → Option (Database κ σ),
            applyMigrations sha256 execute' checkout (calls sha256 execute checkouts db).1 =
              .error e) ∧
          call sha256 execute checkout (calls sha256 execute checkouts db).1 =
            ((calls sha256 execute checkouts db).1, [])) := by
  have hempty : Recorded sha256 execute db [] db :=
    ⟨hstart, rfl, fun _ hmem => absurd hmem List.not_mem_nil, rfl⟩
  have hrecorded := recorded_calls hleaves hempty
  rw [List.nil_append] at hrecorded
  refine ⟨hrecorded, fun checkout => ⟨fun hleaves db' pending hreturns => ?_,
    fun hdisagree => ?_⟩⟩
  · obtain ⟨_, chain, hchain, hrows⟩ := hrecorded.returns hleaves hreturns
    obtain ⟨files, hfiles, hscripts, _⟩ := discoverMigrations_spec hchain
    exact ⟨by rw [call, hreturns], files, chain, hfiles, hscripts, hrows⟩
  · obtain ⟨e, herror⟩ := rejected_of_disagreement (σ := σ) hdisagree
    exact ⟨⟨e, herror⟩, by rw [call, herror execute]⟩

/-- A script that writes a row of the ledger. -/
def insertRow : String :=
  "INSERT INTO simulation.schema_migrations VALUES (2, $$002_b.sql$$, $$B$$)"

/-- Scripts that record their text. -/
def runText (sql : String) (db : Database String (List String)) :
    Option (Database String (List String)) :=
  some
    { ledger := if sql = insertRow then some (db.rows ++ [⟨2, "002_b.sql", "B"⟩]) else db.ledger
      schema := db.schema ++ [sql] }

/-- Two checkouts, the second one with one script more. -/
def twoCheckouts : List Checkout :=
  [⟨"ops", some [⟨"001_a.sql", some "A"⟩]⟩,
    ⟨"ops", some [⟨"002_b.sql", some "B"⟩, ⟨"001_a.sql", some "A"⟩]⟩]

theorem leavesLedger_twoCheckouts : ∀ checkout ∈ twoCheckouts, LeavesLedger runText checkout := by
  have hkeeps : ∀ sql, sql ≠ insertRow → ∀ db db', runText sql db = some db' →
      db'.ledger = db.ledger := by
    intro sql hsql db db' h
    rw [runText, Option.some.injEq, if_neg hsql] at h
    rw [← h]
  intro checkout hcheckout files file sql hfiles hfile htext
  refine hkeeps sql ?_
  rcases List.mem_pair.mp hcheckout with rfl | rfl
  · cases hfiles
    rw [List.mem_singleton.mp hfile, Option.some.injEq] at htext
    rw [← htext]
    decide
  · cases hfiles
    rcases List.mem_pair.mp hfile with rfl | rfl
    · cases htext
      decide
    · cases htext
      decide

theorem ledger_of_runs_two_checkouts :
    let done := calls (fun sql => sql) runText twoCheckouts ⟨none, []⟩
    done.1.rows = [⟨1, "001_a.sql", "A"⟩, ⟨2, "002_b.sql", "B"⟩] ∧ done.1.schema = ["A", "B"] ∧
      Recorded (fun sql => sql) runText ⟨none, []⟩ done.2 done.1 := by
  have hstart : (⟨none, []⟩ : Database String (List String)).rows = [] := rfl
  exact ⟨by decide +kernel, by decide +kernel,
    (ledger_of_runs hstart leavesLedger_twoCheckouts).1⟩

/-- A script that inserts into the ledger itself: one script is run, and the ledger
has two. -/
theorem ledger_written_by_script :
    ¬ Recorded (fun sql => sql) runText ⟨none, []⟩
      (calls (fun sql => sql) runText [⟨"ops", some [⟨"001_a.sql", some insertRow⟩]⟩]
        ⟨none, []⟩).2
      (calls (fun sql => sql) runText [⟨"ops", some [⟨"001_a.sql", some insertRow⟩]⟩]
        ⟨none, []⟩).1 := by
  intro h
  exact absurd (congrArg List.length h.rows) (by decide +kernel)

end Calls

end Generator
end Northwind
