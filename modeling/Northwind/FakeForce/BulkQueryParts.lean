import Northwind.FakeForce.BulkJobs
import Northwind.FakeForce.Catalog
import Northwind.Library.CrashPrefixes
import Northwind.Library.Windows
import Northwind.Sources.Numbers
import Mathlib.Data.List.Infix

/-!
# Parts, manifest and checkpoints of a bulk query job

An execution loads the manifest, unlinks the part files it does not name, skips
as many rows as the manifest counts and writes the rest in parts.  Each part is
three writes: its file, the manifest that names it, the checkpoint.

An execution is the list of its writes.  A crash leaves a prefix of them, and
the job is executed again from there, any number of times and with any part
size.  `parts_protocol_of_rounds` says what holds in every state on the way and
what the finished job holds.

A part file is its header and its rows; what the worker records of its bytes is
a parameter.  Files are written through a temporary one and `os.replace`.
-/

namespace Northwind
namespace FakeForce

open CrashPrefixes Windows

/-- A CSV part: the header and the rows. -/
structure PartFile (ρ : Type) where
  columns : List String
  rows : List ρ

/-- An entry of `manifest.json`. -/
structure ManifestPart where
  part : Nat
  path : String
  startRecord : Nat
  endRecord : Nat
  recordCount : Nat
  byteSize : Nat
  checksum : String
deriving DecidableEq

/-- What a job keeps across restarts: its row in the database, its checkpoints
and its output directory. -/
structure QueryJob (ρ : Type) where
  state : BulkJobState
  checkpoints : List Checkpoint
  files : AList (fun _ : String => PartFile ρ)
  manifest : Option (List ManifestPart)

inductive BulkQueryError where
  | notReady
  | missingPart (name : String)
  | checkpointWithoutPart
deriving DecidableEq

def BulkQueryError.message (jobId : String) : BulkQueryError → String
  | .notReady => "job " ++ jobId ++ " is not ready to run"
  | .missingPart name => "committed bulk result part is missing: " ++ name
  | .checkpointWithoutPart => "bulk query checkpoint has no committed result part"

structure BulkQueryResult where
  recordsProcessed : Nat
  partsWritten : Nat
deriving DecidableEq

/-- What the parts of one query have in common. -/
structure BulkQuery (ρ : Type) where
  columns : List String
  outputDirectory : String
  byteSize : PartFile ρ → Nat
  checksum : PartFile ρ → String

/-- `f"part-{part_number:05d}.csv"` -/
def partName (partNumber : Nat) : String :=
  "part-" ++ String.ofList (List.leftpad 5 '0' (Nat.toDigits 10 partNumber)) ++ ".csv"

/-- A name `output_directory.glob("part-*.csv")` yields. -/
def isPartFile (name : String) : Bool :=
  segmentMatches "part-*.csv" name

/-! ## Writes -/

inductive QueryWrite (ρ : Type) where
  | transition (next : BulkJobState)
  | unlinkPart (name : String)
  | replacePart (name : String) (file : PartFile ρ)
  | replaceManifest (parts : List ManifestPart)
  | insertCheckpoint (recordsProcessed bytesWritten : Nat) (artifactPath : String)

namespace QueryJob

variable {ρ : Type}

/-- The job after one write. -/
def write (j : QueryJob ρ) : QueryWrite ρ → QueryJob ρ
  | .transition next =>
      match validateTransition j.state next with
      | .ok () => { j with state := next }
      | .error _ => j
  | .unlinkPart name => { j with files := j.files.erase name }
  | .replacePart name file => { j with files := j.files.insert name file }
  | .replaceManifest parts => { j with manifest := some parts }
  | .insertCheckpoint recordsProcessed bytesWritten artifactPath =>
      { j with
        checkpoints :=
          addJobCheckpoint j.checkpoints recordsProcessed bytesWritten artifactPath 0 none }

/-- The parts of the manifest; no manifest names none. -/
def parts (j : QueryJob ρ) : List ManifestPart :=
  j.manifest.getD []

end QueryJob

/-- `sum(int(part["record_count"]) for part in manifest_parts)` -/
def recordTotal (parts : List ManifestPart) : Nat :=
  (parts.map ManifestPart.recordCount).sum

section Execution

variable {ρ : Type} (Q : BulkQuery ρ) (partRecords : Nat)

/-- `_load_manifest` -/
def loadManifest (j : QueryJob ρ) : Except BulkQueryError (List ManifestPart) :=
  match j.parts.find? (fun part => !(j.files.lookup part.path).isSome) with
  | some part => .error (.missingPart part.path)
  | none => .ok j.parts

/-- `_discard_uncommitted_parts` -/
def discardUncommittedParts (j : QueryJob ρ) (parts : List ManifestPart) :
    List (QueryWrite ρ) :=
  (j.files.keys.filter
    (fun name => isPartFile name && !(parts.map ManifestPart.path).contains name)).map
      .unlinkPart

/-- The variables of the loop in `_stream`, with the writes made so far. -/
structure Scan (ρ : Type) where
  skipped : Nat
  partRows : List ρ
  recordsProcessed : Nat
  partNumber : Nat
  writtenParts : Nat
  manifestParts : List ManifestPart
  writes : List (QueryWrite ρ)

/-- The entry `_write_part` returns. -/
def manifestPart (partNumber startRecord : Nat) (rows : List ρ) : ManifestPart where
  part := partNumber
  path := partName partNumber
  startRecord := startRecord
  endRecord := startRecord + rows.length - 1
  recordCount := rows.length
  byteSize := Q.byteSize ⟨Q.columns, rows⟩
  checksum := Q.checksum ⟨Q.columns, rows⟩

/-- `_write_part` and `_commit_part` with the rows collected so far. -/
def writeAndCommitPart (s : Scan ρ) : Scan ρ :=
  let part := manifestPart Q s.partNumber s.recordsProcessed s.partRows
  let recordsProcessed := s.recordsProcessed + s.partRows.length
  let manifestParts := s.manifestParts ++ [part]
  { s with
    partRows := []
    recordsProcessed := recordsProcessed
    partNumber := s.partNumber + 1
    writtenParts := s.writtenParts + 1
    manifestParts := manifestParts
    writes := s.writes ++
      [.replacePart part.path ⟨Q.columns, s.partRows⟩,
        .replaceManifest manifestParts,
        .insertCheckpoint recordsProcessed part.byteSize
          (Q.outputDirectory ++ "/" ++ part.path)] }

/-- One turn of the loop. -/
def scanRow (resumeRecords : Nat) (s : Scan ρ) (row : ρ) : Scan ρ :=
  if s.skipped < resumeRecords then { s with skipped := s.skipped + 1 }
  else
    let collected := { s with partRows := s.partRows ++ [row] }
    if collected.partRows.length ≥ partRecords then writeAndCommitPart Q collected
    else collected

def Scan.start (parts : List ManifestPart) : Scan ρ where
  skipped := 0
  partRows := []
  recordsProcessed := recordTotal parts
  partNumber := nextNumber (parts.map ManifestPart.part)
  writtenParts := 0
  manifestParts := parts
  writes := []

/-- The loop over all rows and the last, shorter part. -/
def scanRows (parts : List ManifestPart) (rows : List ρ) : Scan ρ :=
  let scanned := rows.foldl (scanRow Q partRecords (recordTotal parts)) (Scan.start parts)
  if scanned.partRows = [] then scanned else writeAndCommitPart Q scanned

/-- `_stream`, on the rows the query returns: the writes and the result. -/
def stream (rows : List ρ) (j : QueryJob ρ) :
    List (QueryWrite ρ) × Except BulkQueryError BulkQueryResult :=
  match loadManifest j with
  | .error e => ([], .error e)
  | .ok parts =>
      let discards := discardUncommittedParts j parts
      if latestJobCheckpointRecords j.checkpoints > recordTotal parts then
        (discards, .error .checkpointWithoutPart)
      else
        let scanned := scanRows Q partRecords parts rows
        (discards ++ scanned.writes, .ok ⟨scanned.recordsProcessed, scanned.writtenParts⟩)

/-- The first transition of `run`. -/
def openingWrites (j : QueryJob ρ) : List (QueryWrite ρ) :=
  if j.state = .uploadComplete then [.transition .inProgress] else []

def readyToRun (j : QueryJob ρ) : Prop :=
  j.state = .uploadComplete ∨ j.state = .inProgress

instance (j : QueryJob ρ) : Decidable (readyToRun j) := by
  unfold readyToRun
  infer_instance

/-- `BulkQueryWorker.run`: the writes and the result. -/
def run (rows : List ρ) (j : QueryJob ρ) :
    List (QueryWrite ρ) × Except BulkQueryError BulkQueryResult :=
  if readyToRun j then
    let streamed := stream Q partRecords rows j
    match streamed.2 with
    | .error e => (openingWrites j ++ streamed.1 ++ [.transition .failed], .error e)
    | .ok result => (openingWrites j ++ streamed.1 ++ [.transition .jobComplete], .ok result)
  else ([], .error .notReady)

/-- `run` when an exception reaches it after `k` writes of `_stream`. -/
def runRaising (rows : List ρ) (k : Nat) (j : QueryJob ρ) : List (QueryWrite ρ) :=
  if readyToRun j then
    openingWrites j ++ (stream Q partRecords rows j).1.take k ++ [.transition .failed]
  else []

end Execution

/-! ## Part names -/

theorem toList_partName (n : Nat) :
    (partName n).toList =
      "part-".toList ++ List.leftpad 5 '0' (Nat.toDigits 10 n) ++ ".csv".toList := by
  have hdigits : (String.ofList (List.leftpad 5 '0' (Nat.toDigits 10 n))).toList =
      List.leftpad 5 '0' (Nat.toDigits 10 n) :=
    String.toList_ofList
  rw [partName, String.toList_append, String.toList_append, hdigits]

theorem partName_injective : Function.Injective partName := by
  intro m n h
  have hlist := congrArg String.toList h
  rw [toList_partName, toList_partName] at hlist
  exact leftpad_toDigits_injective 5
    (List.append_cancel_left (List.append_cancel_right hlist))

theorem itemsMatch_star_append
    {items : List SegmentItem} {rest : List Char} (h : itemsMatch items rest = true)
    (skipped : List Char) :
    itemsMatch (.star :: items) (skipped ++ rest) = true := by
  rw [itemsMatch, List.any_eq_true]
  exact ⟨rest, (List.mem_tails _ _).mpr (List.suffix_append skipped rest), h⟩

theorem itemsMatch_literals_append
    {items : List SegmentItem} {rest : List Char} (cs : List Char)
    (h : itemsMatch items rest = true) :
    itemsMatch (cs.map .literal ++ items) (cs ++ rest) = true := by
  induction cs with
  | nil => exact h
  | cons c cs ih =>
      rw [List.map_cons, List.cons_append, List.cons_append, itemsMatch, ih, Bool.and_true,
        beq_self_eq_true]

theorem itemsMatch_literals (cs : List Char) :
    itemsMatch (cs.map .literal) cs = true := by
  have h : itemsMatch (cs.map .literal ++ []) (cs ++ []) = true :=
    itemsMatch_literals_append cs rfl
  rwa [List.append_nil, List.append_nil] at h

/-- The glob finds every part the worker writes. -/
theorem isPartFile_partName (n : Nat) : isPartFile (partName n) = true := by
  have hitems : segmentItems "part-*.csv".length "part-*.csv".toList =
      "part-".toList.map .literal ++ .star :: ".csv".toList.map .literal := by
    decide
  have hsuffix := itemsMatch_star_append (itemsMatch_literals ".csv".toList)
    (List.leftpad 5 '0' (Nat.toDigits 10 n))
  unfold isPartFile segmentMatches
  rw [hitems, toList_partName, List.append_assoc]
  exact itemsMatch_literals_append "part-".toList hsuffix

/-! ## What the manifest stands for -/

section Committed

variable {ρ : Type} (Q : BulkQuery ρ) (rows : List ρ)

/-- Entries numbered from `number` hold the rows from `start` on, and their files
are there. -/
def PartsFrom (files : AList (fun _ : String => PartFile ρ)) :
    Nat → Nat → List ManifestPart → Prop
  | _, _, [] => True
  | number, start, part :: parts =>
      part = manifestPart Q number start (window rows start part.recordCount) ∧
      1 ≤ part.recordCount ∧
      files.lookup part.path = some ⟨Q.columns, window rows start part.recordCount⟩ ∧
      PartsFrom files (number + 1) (start + part.recordCount) parts

/-- The manifest stands for a prefix of the rows and no checkpoint is ahead of it. -/
structure Committed (j : QueryJob ρ) : Prop where
  parts : PartsFrom Q rows j.files 0 0 j.parts
  checkpoints : latestJobCheckpointRecords j.checkpoints ≤ recordTotal j.parts

/-- Every part file is one the manifest names. -/
def OnlyCommittedFiles (j : QueryJob ρ) : Prop :=
  ∀ name, (j.files.lookup name).isSome = true → isPartFile name = true →
    name ∈ j.parts.map ManifestPart.path

variable {Q rows} {files files' : AList (fun _ : String => PartFile ρ)}
variable {number start : Nat} {parts : List ManifestPart}

@[simp] theorem recordTotal_nil : recordTotal [] = 0 :=
  rfl

@[simp] theorem recordTotal_cons (part : ManifestPart) (parts : List ManifestPart) :
    recordTotal (part :: parts) = part.recordCount + recordTotal parts := by
  simp [recordTotal]

theorem recordTotal_append (parts parts' : List ManifestPart) :
    recordTotal (parts ++ parts') = recordTotal parts + recordTotal parts' := by
  simp [recordTotal]

namespace PartsFrom

/-- Only the files the entries name matter. -/
theorem congr
    (h : PartsFrom Q rows files number start parts)
    (hsame : ∀ part ∈ parts, files'.lookup part.path = files.lookup part.path) :
    PartsFrom Q rows files' number start parts := by
  induction parts generalizing number start with
  | nil => trivial
  | cons part parts ih =>
      obtain ⟨hpart, hcount, hfile, hrest⟩ := h
      refine ⟨hpart, hcount, ?_, ih hrest ?_⟩
      · rw [hsame part List.mem_cons_self]
        exact hfile
      · intro other hother
        exact hsame other (List.mem_cons_of_mem _ hother)

theorem numbers (h : PartsFrom Q rows files number start parts) :
    parts.map ManifestPart.part = List.range' number parts.length := by
  induction parts generalizing number start with
  | nil => rfl
  | cons part parts ih =>
      obtain ⟨hpart, _, _, hrest⟩ := h
      have hnumber : part.part = number := by
        rw [hpart]
        rfl
      rw [List.map_cons, List.length_cons, List.range'_succ, ih hrest, hnumber]

theorem paths (h : PartsFrom Q rows files number start parts) :
    parts.map ManifestPart.path = (List.range' number parts.length).map partName := by
  induction parts generalizing number start with
  | nil => rfl
  | cons part parts ih =>
      obtain ⟨hpart, _, _, hrest⟩ := h
      have hpath : part.path = partName number := by
        rw [hpart]
        rfl
      rw [List.map_cons, List.length_cons, List.range'_succ, List.map_cons, ih hrest, hpath]

/-- The entries together cover a stretch that lies within the rows. -/
theorem total_le
    (h : PartsFrom Q rows files number start parts) (hstart : start ≤ rows.length) :
    start + recordTotal parts ≤ rows.length := by
  induction parts generalizing number start with
  | nil => simpa using hstart
  | cons part parts ih =>
      obtain ⟨hpart, _, _, hrest⟩ := h
      have hlength : part.recordCount = (window rows start part.recordCount).length := by
        conv_lhs => rw [hpart]
        rfl
      rw [length_window] at hlength
      have hnext := ih hrest (by omega)
      rw [recordTotal_cons]
      omega

/-- The next entry stands right behind the last one. -/
theorem append
    (h : PartsFrom Q rows files number start parts) {content : List ρ}
    (hcontent : content = window rows (start + recordTotal parts) content.length)
    (hcount : 1 ≤ content.length)
    (hfile : files.lookup (partName (number + parts.length)) = some ⟨Q.columns, content⟩) :
    PartsFrom Q rows files number start
      (parts ++ [manifestPart Q (number + parts.length) (start + recordTotal parts) content]) := by
  induction parts generalizing number start with
  | nil =>
      rw [recordTotal_nil, Nat.add_zero] at hcontent ⊢
      refine ⟨?_, hcount, ?_, trivial⟩
      · simp only [List.length_nil, Nat.add_zero, manifestPart, ← hcontent]
      · simp only [manifestPart, ← hcontent]
        exact hfile
  | cons part parts ih =>
      obtain ⟨hpart, hpartCount, hpartFile, hrest⟩ := h
      rw [recordTotal_cons, ← Nat.add_assoc] at hcontent ⊢
      have hnumber : number + (part :: parts).length = number + 1 + parts.length := by
        rw [List.length_cons]
        omega
      rw [hnumber] at hfile ⊢
      exact ⟨hpart, hpartCount, hpartFile, ih hrest hcontent hfile⟩

/-- The contents of the files, one after the other. -/
theorem contents
    (h : PartsFrom Q rows files number start parts) :
    parts.flatMap (fun part => ((files.lookup part.path).map PartFile.rows).getD []) =
      window rows start (recordTotal parts) := by
  induction parts generalizing number start with
  | nil => simp [window]
  | cons part parts ih =>
      obtain ⟨_, _, hfile, hrest⟩ := h
      rw [List.flatMap_cons, ih hrest, hfile, recordTotal_cons]
      simp only [Option.map_some, Option.getD_some, window]
      rw [← List.drop_drop, List.take_add]

end PartsFrom

/-! ## One write -/

section Writes

variable {j : QueryJob ρ}

theorem write_transition (j : QueryJob ρ) (next : BulkJobState) :
    j.write (.transition next) =
      if next ∈ allowedTransitions j.state then { j with state := next } else j := by
  by_cases hallowed : next ∈ allowedTransitions j.state <;>
    simp [QueryJob.write, validateTransition, hallowed]

theorem Committed.transition
    (h : Committed Q rows j) (next : BulkJobState) :
    Committed Q rows (j.write (.transition next)) := by
  rw [write_transition]
  split
  · exact ⟨h.parts, h.checkpoints⟩
  · exact h

theorem Committed.unlinkPart
    (h : Committed Q rows j) {name : String}
    (hname : name ∉ j.parts.map ManifestPart.path) :
    Committed Q rows (j.write (.unlinkPart name)) := by
  refine ⟨h.parts.congr ?_, h.checkpoints⟩
  intro part hpart
  have hne : part.path ≠ name := by
    intro heq
    exact hname (heq ▸ List.mem_map_of_mem hpart)
  exact AList.lookup_erase_ne hne

/-- A file under a number that is not yet committed. -/
theorem Committed.replacePart
    (h : Committed Q rows j) (file : PartFile ρ) :
    Committed Q rows (j.write (.replacePart (partName j.parts.length) file)) := by
  refine ⟨h.parts.congr ?_, h.checkpoints⟩
  intro part hpart
  have hmem : part.path ∈ (List.range' 0 j.parts.length).map partName := by
    rw [← h.parts.paths]
    exact List.mem_map_of_mem hpart
  obtain ⟨i, hi, hpath⟩ := List.mem_map.mp hmem
  have hne : part.path ≠ partName j.parts.length := by
    rw [← hpath]
    intro heq
    have hnumber := partName_injective heq
    have hlt := (List.mem_range'_1.mp hi).2
    omega
  exact AList.lookup_insert_ne hne

theorem Committed.replaceManifest
    (h : Committed Q rows j) {content : List ρ}
    (hcontent : content = window rows (recordTotal j.parts) content.length)
    (hcount : 1 ≤ content.length)
    (hfile : j.files.lookup (partName j.parts.length) = some ⟨Q.columns, content⟩) :
    Committed Q rows (j.write (.replaceManifest
      (j.parts ++ [manifestPart Q j.parts.length (recordTotal j.parts) content]))) := by
  have hparts := h.parts.append
    (by rw [Nat.zero_add]; exact hcontent) hcount (by rw [Nat.zero_add]; exact hfile)
  rw [Nat.zero_add, Nat.zero_add] at hparts
  refine ⟨hparts, ?_⟩
  have htotal := recordTotal_append j.parts
    [manifestPart Q j.parts.length (recordTotal j.parts) content]
  have hle := h.checkpoints
  change latestJobCheckpointRecords j.checkpoints ≤ recordTotal (j.parts ++ _)
  omega

theorem Committed.insertCheckpoint
    (h : Committed Q rows j) {recordsProcessed : Nat} (bytesWritten : Nat)
    (artifactPath : String) (hle : recordsProcessed ≤ recordTotal j.parts) :
    Committed Q rows
      (j.write (.insertCheckpoint recordsProcessed bytesWritten artifactPath)) := by
  refine ⟨h.parts, ?_⟩
  have hbefore := h.checkpoints
  have hlatest := latestJobCheckpointRecords_add j.checkpoints recordsProcessed bytesWritten
    artifactPath 0 none
  change latestJobCheckpointRecords (addJobCheckpoint j.checkpoints recordsProcessed
    bytesWritten artifactPath 0 none) ≤ recordTotal j.parts
  omega

/-- The job is committed and in a given state. -/
def CommittedIn (Q : BulkQuery ρ) (rows : List ρ) (state : BulkJobState)
    (j : QueryJob ρ) : Prop :=
  Committed Q rows j ∧ j.state = state

/-- The three writes of a part. -/
def partWrites (Q : BulkQuery ρ) (parts : List ManifestPart) (content : List ρ) :
    List (QueryWrite ρ) :=
  let part := manifestPart Q parts.length (recordTotal parts) content
  [.replacePart part.path ⟨Q.columns, content⟩,
    .replaceManifest (parts ++ [part]),
    .insertCheckpoint (recordTotal parts + content.length) part.byteSize
      (Q.outputDirectory ++ "/" ++ part.path)]

/-- The job stays committed between the three writes of the next part. -/
theorem Committed.throughout_partWrites
    (h : Committed Q rows j) {content : List ρ}
    (hcontent : content = window rows (recordTotal j.parts) content.length)
    (hcount : 1 ≤ content.length) :
    Throughout QueryJob.write (CommittedIn Q rows j.state) j
      (partWrites Q j.parts content) := by
  have hwritten := h.replacePart ⟨Q.columns, content⟩
  have hlisted := hwritten.replaceManifest hcontent hcount
    (by simp only [QueryJob.write]; exact AList.lookup_insert _)
  have htotal : recordTotal (j.parts ++
      [manifestPart Q j.parts.length (recordTotal j.parts) content]) =
        recordTotal j.parts + content.length := by
    simp [recordTotal_append, manifestPart]
  have hchecked := hlisted.insertCheckpoint
    (Q.byteSize ⟨Q.columns, content⟩)
    (Q.outputDirectory ++ "/" ++ partName j.parts.length) (le_of_eq htotal.symm)
  exact ⟨⟨h, rfl⟩, ⟨hwritten, rfl⟩, ⟨hlisted, rfl⟩, ⟨hchecked, rfl⟩⟩

theorem parts_after_partWrites (parts : List ManifestPart) (content : List ρ) :
    (after QueryJob.write j (partWrites Q parts content)).parts =
      parts ++ [manifestPart Q parts.length (recordTotal parts) content] :=
  rfl

/-- The next part file is committed together with its entry. -/
theorem OnlyCommittedFiles.partWrites
    (h : OnlyCommittedFiles j) (content : List ρ) :
    OnlyCommittedFiles (after QueryJob.write j (partWrites Q j.parts content)) := by
  intro name hfile hname
  rw [parts_after_partWrites, List.map_append, List.mem_append]
  by_cases heq : name = partName j.parts.length
  · right
    rw [heq]
    exact List.mem_singleton.mpr rfl
  · left
    apply h name _ hname
    have hlookup : (after QueryJob.write j (FakeForce.partWrites Q j.parts content)).files.lookup
        name = j.files.lookup name :=
      AList.lookup_insert_ne heq
    rw [← hlookup]
    exact hfile

end Writes

/-! ## The loop over the rows -/

section Loop

variable {j : QueryJob ρ} {partRecords resumeRecords : Nat} {consumed : List ρ}

/-- Where the loop stands after the rows `consumed`, from the job `j`. -/
structure ScanHolds (Q : BulkQuery ρ) (rows : List ρ) (j : QueryJob ρ)
    (resumeRecords : Nat) (consumed : List ρ) (s : Scan ρ) : Prop where
  throughout : Throughout QueryJob.write (CommittedIn Q rows j.state) j s.writes
  parts : (after QueryJob.write j s.writes).parts = s.manifestParts
  onlyCommitted : OnlyCommittedFiles (after QueryJob.write j s.writes)
  number : s.partNumber = s.manifestParts.length
  processed : s.recordsProcessed = recordTotal s.manifestParts
  skipped : s.skipped = min resumeRecords consumed.length
  partRows : s.partRows = consumed.drop s.recordsProcessed
  resumed : resumeRecords ≤ s.recordsProcessed
  collected : s.recordsProcessed ≤ max resumeRecords consumed.length

theorem scanHolds_start
    (h : Committed Q rows j) (hfiles : OnlyCommittedFiles j) :
    ScanHolds Q rows j (recordTotal j.parts) [] (Scan.start j.parts) := by
  have hnumber : nextNumber (j.parts.map ManifestPart.part) = j.parts.length := by
    rw [h.parts.numbers, ← List.range_eq_range', nextNumber_range]
  exact {
    throughout := ⟨h, rfl⟩
    parts := rfl
    onlyCommitted := hfiles
    number := hnumber
    processed := rfl
    skipped := by simp [Scan.start]
    partRows := by simp [Scan.start]
    resumed := le_rfl
    collected := by simp [Scan.start] }

/-- Writing the collected rows as the next part. -/
theorem ScanHolds.writeAndCommitPart
    {s : Scan ρ} {rest : List ρ}
    (h : ScanHolds Q rows j resumeRecords consumed s) (hrows : rows = consumed ++ rest)
    (hne : s.partRows ≠ []) :
    ScanHolds Q rows j resumeRecords consumed (writeAndCommitPart Q s) := by
  obtain ⟨hthroughout, hparts, hfiles, hnumber, hprocessed, hskipped, hpartRows, hresumed,
    hcollected⟩ := h
  have hlength : s.partRows.length = consumed.length - s.recordsProcessed := by
    rw [hpartRows, List.length_drop]
  have hpositive : 1 ≤ s.partRows.length := List.length_pos_iff.mpr hne
  have hcontent : s.partRows = window rows (recordTotal s.manifestParts) s.partRows.length := by
    rw [hlength, ← hprocessed, hrows, window, List.drop_append_of_le_length (by omega),
      List.take_append_of_le_length (by rw [List.length_drop]), List.take_of_length_le
        (by rw [List.length_drop]), hpartRows]
  obtain ⟨hcommitted, hstate⟩ := hthroughout.last
  have hnext := hcommitted.throughout_partWrites (by rw [hparts]; exact hcontent) hpositive
  have honly := hfiles.partWrites (Q := Q) s.partRows
  rw [hstate] at hnext
  rw [hparts] at hnext honly
  have hwrites : (FakeForce.writeAndCommitPart Q s).writes =
      s.writes ++ partWrites Q s.manifestParts s.partRows := by
    simp only [FakeForce.writeAndCommitPart, partWrites, hnumber, hprocessed]
  have hmanifest : (FakeForce.writeAndCommitPart Q s).manifestParts =
      s.manifestParts ++
        [manifestPart Q s.manifestParts.length (recordTotal s.manifestParts) s.partRows] := by
    simp only [FakeForce.writeAndCommitPart, hnumber, hprocessed]
  have hcount : (FakeForce.writeAndCommitPart Q s).recordsProcessed =
      s.recordsProcessed + s.partRows.length :=
    rfl
  exact {
    throughout := by
      rw [hwrites]
      exact hthroughout.append hnext
    parts := by
      rw [hwrites, after_append, parts_after_partWrites, hmanifest]
    onlyCommitted := by
      rw [hwrites, after_append]
      exact honly
    number := by
      rw [hmanifest, List.length_append, List.length_singleton]
      simp only [FakeForce.writeAndCommitPart, hnumber]
    processed := by
      rw [hcount, hmanifest, recordTotal_append, hprocessed]
      simp [manifestPart]
    skipped := hskipped
    partRows := by
      rw [hcount, hlength, List.drop_of_length_le (by omega)]
      rfl
    resumed := by omega
    collected := by omega }

/-- One more row. -/
theorem ScanHolds.scanRow
    {s : Scan ρ} {row : ρ} {rest : List ρ}
    (h : ScanHolds Q rows j resumeRecords consumed s)
    (hrows : rows = consumed ++ row :: rest) :
    ScanHolds Q rows j resumeRecords (consumed ++ [row])
      (scanRow Q partRecords resumeRecords s row) := by
  have hrows' : rows = (consumed ++ [row]) ++ rest := by
    rw [hrows, List.append_assoc, List.singleton_append]
  have hskipped := h.skipped
  have hpartRows := h.partRows
  have hresumed := h.resumed
  have hcollected := h.collected
  have hlength : (consumed ++ [row]).length = consumed.length + 1 := by simp
  by_cases hskip : s.skipped < resumeRecords
  · have hbound : consumed.length < resumeRecords := by omega
    rw [FakeForce.scanRow, if_pos hskip]
    refine { h with skipped := ?_, partRows := ?_, collected := ?_ }
    · simp only [hlength, hskipped]
      omega
    · simp only
      rw [hpartRows, List.drop_of_length_le (by omega), List.drop_of_length_le (by omega)]
    · simp only [hlength]
      omega
  · have hbound : resumeRecords ≤ consumed.length := by omega
    have hnext : ScanHolds Q rows j resumeRecords (consumed ++ [row])
        { s with partRows := s.partRows ++ [row] } := by
      refine { h with skipped := ?_, partRows := ?_, collected := ?_ }
      · simp only [hlength, hskipped]
        omega
      · simp only
        rw [hpartRows, List.drop_append_of_le_length (by omega)]
      · simp only [hlength]
        omega
    rw [FakeForce.scanRow, if_neg hskip]
    simp only
    split
    · exact hnext.writeAndCommitPart hrows' (by simp)
    · exact hnext

theorem scanHolds_foldl
    {s : Scan ρ} {rest : List ρ}
    (h : ScanHolds Q rows j resumeRecords consumed s) (hrows : rows = consumed ++ rest) :
    ScanHolds Q rows j resumeRecords rows (rest.foldl (scanRow Q partRecords resumeRecords) s) := by
  induction rest generalizing consumed s with
  | nil =>
      rw [List.append_nil] at hrows
      rw [hrows]
      exact hrows ▸ h
  | cons row rest ih =>
      have hnext : ScanHolds Q rows j resumeRecords (consumed ++ [row])
          (FakeForce.scanRow Q partRecords resumeRecords s row) :=
        h.scanRow hrows
      exact ih hnext (by rw [hrows, List.append_assoc, List.singleton_append])

/-- All rows are written and no other part file is left. -/
structure Finished (Q : BulkQuery ρ) (rows : List ρ) (j : QueryJob ρ) : Prop where
  total : recordTotal j.parts = rows.length
  onlyCommitted : OnlyCommittedFiles j

/-- After the last, shorter part every row has been written. -/
theorem scanHolds_scanRows
    (h : Committed Q rows j) (hfiles : OnlyCommittedFiles j) (partRecords : Nat) :
    ScanHolds Q rows j (recordTotal j.parts) rows (scanRows Q partRecords j.parts rows) ∧
      (scanRows Q partRecords j.parts rows).recordsProcessed = rows.length := by
  have hloop : ScanHolds Q rows j (recordTotal j.parts) rows
      (rows.foldl (scanRow Q partRecords (recordTotal j.parts)) (Scan.start j.parts)) :=
    scanHolds_foldl (scanHolds_start h hfiles) (List.nil_append rows).symm
  have hpartRows := hloop.partRows
  have hprocessed := hloop.processed
  have hwithin := hloop.throughout.last.1.parts.total_le (Nat.zero_le _)
  rw [hloop.parts] at hwithin
  unfold scanRows
  by_cases hempty : (rows.foldl (scanRow Q partRecords (recordTotal j.parts))
      (Scan.start j.parts)).partRows = []
  · simp only [hempty, if_true]
    rw [hempty, eq_comm, List.drop_eq_nil_iff] at hpartRows
    exact ⟨hloop, by omega⟩
  · simp only [hempty, if_false]
    refine ⟨hloop.writeAndCommitPart (List.append_nil rows).symm hempty, ?_⟩
    have hlength := congrArg List.length hpartRows
    rw [List.length_drop] at hlength
    simp only [FakeForce.writeAndCommitPart, hlength]
    omega

end Loop

/-! ## One execution -/

section Executions

variable {j : QueryJob ρ}

theorem PartsFrom.exists_file
    (h : PartsFrom Q rows files number start parts) :
    ∀ part ∈ parts, (files.lookup part.path).isSome = true := by
  induction parts generalizing number start with
  | nil => simp
  | cons part parts ih =>
      obtain ⟨_, _, hfile, hrest⟩ := h
      intro other hother
      rcases List.mem_cons.mp hother with rfl | hmem
      · rw [hfile]
        rfl
      · exact ih hrest other hmem

theorem Committed.loadManifest (h : Committed Q rows j) :
    loadManifest j = .ok j.parts := by
  have hnone : j.parts.find? (fun part => !(j.files.lookup part.path).isSome) = none := by
    rw [List.find?_eq_none]
    intro part hpart
    simp [h.parts.exists_file part hpart]
  rw [FakeForce.loadManifest, hnone]

theorem lookup_after_unlinks (j : QueryJob ρ) (names : List String) (name : String) :
    (after QueryJob.write j (names.map .unlinkPart)).files.lookup name =
      if name ∈ names then none else j.files.lookup name := by
  induction names generalizing j with
  | nil => rfl
  | cons other names ih =>
      rw [List.map_cons, after_cons, ih]
      by_cases hmem : name ∈ names
      · simp [hmem]
      · by_cases heq : name = other
        · subst heq
          simp only [hmem, if_false, List.mem_cons_self, if_true]
          exact AList.lookup_erase _ _
        · simp only [hmem, if_false, List.mem_cons, heq, or_self]
          exact AList.lookup_erase_ne heq

/-- Unlinking what the manifest does not name keeps the job committed, and
leaves only the files it names. -/
theorem Committed.throughout_discards (h : Committed Q rows j) :
    Throughout QueryJob.write (CommittedIn Q rows j.state) j
        (discardUncommittedParts j j.parts) ∧
      (after QueryJob.write j (discardUncommittedParts j j.parts)).parts = j.parts ∧
      OnlyCommittedFiles (after QueryJob.write j (discardUncommittedParts j j.parts)) := by
  have hthroughout : Throughout QueryJob.write
      (fun j' => CommittedIn Q rows j.state j' ∧ j'.parts = j.parts) j
        (discardUncommittedParts j j.parts) := by
    refine Throughout.of_each ⟨⟨h, rfl⟩, rfl⟩ ?_
    rintro j' write hmem ⟨⟨hcommitted, hstate⟩, hparts⟩
    obtain ⟨name, hname, rfl⟩ := List.mem_map.mp hmem
    have huncommitted := (List.mem_filter.mp hname).2
    simp only [Bool.and_eq_true, Bool.not_eq_true', List.contains_eq_mem,
      decide_eq_false_iff_not] at huncommitted
    refine ⟨⟨hcommitted.unlinkPart ?_, hstate⟩, hparts⟩
    rw [hparts]
    exact huncommitted.2
  refine ⟨hthroughout.mono (fun _ hj => hj.1), hthroughout.last.2, ?_⟩
  intro name hfile hname
  rw [hthroughout.last.2]
  by_contra hnot
  rw [discardUncommittedParts, lookup_after_unlinks] at hfile
  split at hfile
  · cases hfile
  · rename_i hkept
    apply hkept
    rw [List.mem_filter]
    refine ⟨?_, ?_⟩
    · rw [← AList.mem_keys, ← AList.lookup_isSome]
      exact hfile
    · simp [hname, hnot]

/-- An execution of a committed job does not fail, keeps it committed at every
write and finishes it. -/
theorem Committed.stream (h : Committed Q rows j) (partRecords : Nat) :
    (∃ partsWritten,
      (stream Q partRecords rows j).2 = .ok ⟨rows.length, partsWritten⟩) ∧
    Throughout QueryJob.write (CommittedIn Q rows j.state) j
      (stream Q partRecords rows j).1 ∧
    Finished Q rows (after QueryJob.write j (stream Q partRecords rows j).1) := by
  obtain ⟨hdiscards, hparts, hfiles⟩ := h.throughout_discards
  obtain ⟨hcommitted, hstate⟩ := hdiscards.last
  obtain ⟨hscan, hprocessed⟩ := scanHolds_scanRows hcommitted hfiles partRecords
  have hguard : ¬ latestJobCheckpointRecords j.checkpoints > recordTotal j.parts :=
    Nat.not_lt.mpr h.checkpoints
  have hstream : FakeForce.stream Q partRecords rows j =
      (discardUncommittedParts j j.parts ++ (scanRows Q partRecords j.parts rows).writes,
        .ok ⟨(scanRows Q partRecords j.parts rows).recordsProcessed,
          (scanRows Q partRecords j.parts rows).writtenParts⟩) := by
    simp only [FakeForce.stream, h.loadManifest, hguard, if_false]
  rw [hparts] at hscan hprocessed
  have hthroughout := hscan.throughout
  rw [hstate] at hthroughout
  refine ⟨⟨(scanRows Q partRecords j.parts rows).writtenParts, ?_⟩, ?_, ?_⟩
  · rw [hstream, hprocessed]
  · rw [hstream]
    exact hdiscards.append hthroughout
  · rw [hstream]
    simp only [after_append]
    refine ⟨?_, hscan.onlyCommitted⟩
    rw [hscan.parts, ← hscan.processed, hprocessed]

/-- What holds of a job in every state. -/
structure JobInvariant (Q : BulkQuery ρ) (rows : List ρ) (j : QueryJob ρ) : Prop where
  committed : Committed Q rows j
  finished : j.state = .jobComplete → Finished Q rows j

/-- A committed job that is not completed. -/
def Unfinished (Q : BulkQuery ρ) (rows : List ρ) (j : QueryJob ρ) : Prop :=
  Committed Q rows j ∧ j.state ≠ .jobComplete

theorem Unfinished.invariant (h : Unfinished Q rows j) : JobInvariant Q rows j :=
  ⟨h.1, fun hcomplete => absurd hcomplete h.2⟩

theorem CommittedIn.unfinished (h : CommittedIn Q rows .inProgress j) :
    Unfinished Q rows j := by
  obtain ⟨hcommitted, hstate⟩ := h
  refine ⟨hcommitted, ?_⟩
  rw [hstate]
  decide

theorem Committed.unfinished (h : Committed Q rows j) (hready : readyToRun j) :
    Unfinished Q rows j := by
  refine ⟨h, ?_⟩
  rcases hready with hstate | hstate <;>
    · rw [hstate]
      decide

/-- The opening transition leaves the job in progress. -/
theorem after_openingWrites (hready : readyToRun j) :
    after QueryJob.write j (openingWrites j) = { j with state := .inProgress } := by
  unfold openingWrites
  rcases hready with hstate | hstate
  · rw [if_pos hstate, after_cons, after_nil, write_transition, hstate]
    rfl
  · rw [if_neg (by rw [hstate]; decide), after_nil, ← hstate]

theorem Committed.throughout_opening (h : Committed Q rows j) (hready : readyToRun j) :
    Throughout QueryJob.write (Unfinished Q rows) j (openingWrites j) := by
  have hafter := after_openingWrites hready
  have hopened : CommittedIn Q rows .inProgress { j with state := .inProgress } :=
    ⟨⟨h.parts, h.checkpoints⟩, rfl⟩
  by_cases hstate : j.state = .uploadComplete
  · rw [openingWrites, if_pos hstate, after_cons, after_nil] at hafter
    rw [openingWrites, if_pos hstate]
    refine ⟨h.unfinished hready, ?_⟩
    rw [hafter]
    exact hopened.unfinished
  · rw [openingWrites, if_neg hstate]
    exact h.unfinished hready

/-- The writes of one execution, in progress. -/
theorem Committed.throughout_stream
    (h : Committed Q rows j) (partRecords : Nat) :
    Throughout QueryJob.write (CommittedIn Q rows .inProgress) { j with state := .inProgress }
        (FakeForce.stream Q partRecords rows j).1 ∧
      Finished Q rows (after QueryJob.write { j with state := .inProgress }
        (FakeForce.stream Q partRecords rows j).1) := by
  have hcommitted : Committed Q rows { j with state := .inProgress } :=
    ⟨h.parts, h.checkpoints⟩
  obtain ⟨_, hthroughout, hfinished⟩ := hcommitted.stream partRecords
  exact ⟨hthroughout, hfinished⟩

theorem JobInvariant.throughout_run
    (h : JobInvariant Q rows j) (partRecords : Nat) :
    Throughout QueryJob.write (JobInvariant Q rows) j (run Q partRecords rows j).1 := by
  unfold run
  by_cases hready : readyToRun j
  · obtain ⟨⟨partsWritten, hresult⟩, _, _⟩ := h.committed.stream partRecords
    obtain ⟨hthroughout, hfinished⟩ := h.committed.throughout_stream partRecords
    obtain ⟨hcommitted, hstate⟩ := hthroughout.last
    simp only [hready, if_true, hresult]
    have hopened := (h.committed.throughout_opening hready).append
      (by rw [after_openingWrites hready]
          exact hthroughout.mono (fun _ hj => hj.unfinished))
    refine (hopened.mono (fun _ hj => hj.invariant)).append ⟨hopened.last.invariant, ?_⟩
    rw [after_append, after_openingWrites hready]
    refine ⟨hcommitted.transition .jobComplete, fun _ => ?_⟩
    rw [write_transition, hstate]
    exact ⟨hfinished.total, hfinished.onlyCommitted⟩
  · simp only [hready, if_false]
    exact h

/-- An exception never completes the job. -/
theorem Committed.throughout_runRaising
    (h : Committed Q rows j) (hready : readyToRun j) (partRecords k : Nat) :
    Throughout QueryJob.write (Unfinished Q rows) j (runRaising Q partRecords rows k j) := by
  obtain ⟨hthroughout, _⟩ := h.throughout_stream partRecords
  have hstart := hthroughout.take k
  obtain ⟨hcommitted, hstate⟩ := hstart.last
  have hopened := (h.throughout_opening hready).append
    (by rw [after_openingWrites hready]
        exact hstart.mono (fun _ hj => hj.unfinished))
  unfold runRaising
  simp only [hready, if_true]
  refine hopened.append ⟨hopened.last, ?_⟩
  rw [after_append, after_openingWrites hready]
  refine ⟨hcommitted.transition .failed, ?_⟩
  rw [write_transition, hstate]
  intro hcomplete
  cases hcomplete

end Executions

end Committed

/-! ## Rounds -/

/-- One execution: with a part size, and to its end or up to an exception. -/
inductive Execution where
  | completes (partRecords : Nat)
  | raises (partRecords k : Nat)

def executionWrites {ρ : Type} (Q : BulkQuery ρ) (rows : List ρ) :
    Execution → QueryJob ρ → List (QueryWrite ρ)
  | .completes partRecords, j => (run Q partRecords rows j).1
  | .raises partRecords k, j => runRaising Q partRecords rows k j

theorem executionWrites_of_not_ready
    {ρ : Type} {Q : BulkQuery ρ} {rows : List ρ} {j : QueryJob ρ}
    (hready : ¬ readyToRun j) (execution : Execution) :
    executionWrites Q rows execution j = [] := by
  cases execution <;> simp only [executionWrites, run, runRaising, hready, if_false]

/-- Every execution keeps the invariant at every write. -/
theorem JobInvariant.throughout_execution
    {ρ : Type} {Q : BulkQuery ρ} {rows : List ρ} {j : QueryJob ρ}
    (h : JobInvariant Q rows j) (execution : Execution) :
    Throughout QueryJob.write (JobInvariant Q rows) j (executionWrites Q rows execution j) := by
  by_cases hready : readyToRun j
  · cases execution with
    | completes partRecords => exact h.throughout_run partRecords
    | raises partRecords k =>
        exact (h.committed.throughout_runRaising hready partRecords k).mono
          (fun _ hj => hj.invariant)
  · rw [executionWrites_of_not_ready hready]
    exact h

/-- A job as it is created; its output directory may hold anything. -/
structure QueryJob.Created {ρ : Type} (j : QueryJob ρ) : Prop where
  state : j.state = .uploadComplete
  noCheckpoint : j.checkpoints = []
  noManifest : j.manifest = none

/-- What the parts, the manifest and the checkpoints of a job are to each other
and to the rows of its query. -/
structure PartsProtocol {ρ : Type} (Q : BulkQuery ρ) (rows : List ρ) (j : QueryJob ρ) :
    Prop where
  /-- No checkpoint is ahead of the manifest. -/
  checkpoints : latestJobCheckpointRecords j.checkpoints ≤ recordTotal j.parts
  /-- Every part is there, with the rows its entry records. -/
  files : ∀ part ∈ j.parts, 1 ≤ part.recordCount ∧
    j.files.lookup part.path =
      some ⟨Q.columns, window rows part.startRecord part.recordCount⟩
  /-- Parts are numbered from zero. -/
  numbers : j.parts.map ManifestPart.part = List.range j.parts.length
  /-- The record ranges stand one behind the other. -/
  ranges : ∀ before part rest, j.parts = before ++ part :: rest →
    part.startRecord = recordTotal before ∧
      part.endRecord + 1 = part.startRecord + part.recordCount
  /-- The next execution neither misses a part nor finds a checkpoint without one. -/
  executes : readyToRun j → ∀ partRecords, ∃ partsWritten,
    (run Q partRecords rows j).2 = .ok ⟨rows.length, partsWritten⟩ ∧
      (after QueryJob.write j (run Q partRecords rows j).1).state = .jobComplete
  /-- The parts of a completed job are the rows, and nothing else is left. -/
  completed : j.state = .jobComplete →
    j.parts.flatMap (fun part => ((j.files.lookup part.path).map PartFile.rows).getD []) = rows ∧
    (∀ name, (j.files.lookup name).isSome = true → isPartFile name = true →
      name ∈ j.parts.map ManifestPart.path) ∧
    ∀ n, (j.files.lookup (partName n)).isSome = true ↔ n < j.parts.length

section Rounds

variable {ρ : Type} {Q : BulkQuery ρ} {rows : List ρ} {j : QueryJob ρ}

theorem QueryJob.Created.invariant (h : j.Created) : JobInvariant Q rows j := by
  have hparts : j.parts = [] := by
    rw [QueryJob.parts, h.noManifest]
    rfl
  refine ⟨⟨?_, ?_⟩, ?_⟩
  · rw [hparts]
    trivial
  · rw [hparts, h.noCheckpoint]
    exact le_rfl
  · intro hcomplete
    rw [h.state] at hcomplete
    cases hcomplete

/-- Entries in front of one another. -/
theorem PartsFrom.ranges
    {files : AList (fun _ : String => PartFile ρ)} {number start : Nat}
    {before rest : List ManifestPart} {part : ManifestPart}
    (h : PartsFrom Q rows files number start (before ++ part :: rest)) :
    part.startRecord = start + recordTotal before ∧
      part.endRecord + 1 = part.startRecord + part.recordCount ∧
      1 ≤ part.recordCount ∧
      files.lookup part.path =
        some ⟨Q.columns, window rows part.startRecord part.recordCount⟩ := by
  induction before generalizing number start with
  | nil =>
      obtain ⟨hpart, hcount, hfile, _⟩ := h
      have hstart : part.startRecord = start := by
        rw [hpart]
        rfl
      have hend : part.endRecord = start + part.recordCount - 1 := by
        rw [hpart]
        rfl
      refine ⟨by simpa using hstart, by omega, hcount, ?_⟩
      rw [hstart]
      exact hfile
  | cons other before ih =>
      obtain ⟨_, _, _, hrest⟩ := h
      obtain ⟨hstart, hlast⟩ := ih hrest
      refine ⟨?_, hlast⟩
      rw [recordTotal_cons]
      omega

/-- A finished job holds exactly the parts its manifest names. -/
theorem Finished.partFile_iff
    (h : Finished Q rows j) (hcommitted : Committed Q rows j) (n : Nat) :
    (j.files.lookup (partName n)).isSome = true ↔ n < j.parts.length := by
  have hpaths := hcommitted.parts.paths
  constructor
  · intro hfile
    have hmem := h.onlyCommitted _ hfile (isPartFile_partName n)
    rw [hpaths] at hmem
    obtain ⟨i, hi, hname⟩ := List.mem_map.mp hmem
    have hlt := (List.mem_range'_1.mp hi).2
    rw [partName_injective hname] at hlt
    omega
  · intro hlt
    have hmem : partName n ∈ j.parts.map ManifestPart.path := by
      rw [hpaths]
      exact List.mem_map_of_mem (List.mem_range'_1.mpr (by omega))
    obtain ⟨part, hpart, hpath⟩ := List.mem_map.mp hmem
    rw [← hpath]
    exact hcommitted.parts.exists_file part hpart

theorem JobInvariant.protocol (h : JobInvariant Q rows j) : PartsProtocol Q rows j := by
  have hcommitted := h.committed
  refine ⟨hcommitted.checkpoints, ?_, ?_, ?_, ?_, ?_⟩
  · intro part hpart
    obtain ⟨before, rest, hsplit⟩ := List.append_of_mem hpart
    have hparts := hcommitted.parts
    rw [hsplit] at hparts
    exact hparts.ranges.2.2
  · rw [hcommitted.parts.numbers, List.range_eq_range']
  · intro before part rest hsplit
    have hparts := hcommitted.parts
    rw [hsplit] at hparts
    obtain ⟨hstart, hend, _⟩ := hparts.ranges
    exact ⟨by omega, hend⟩
  · intro hready partRecords
    obtain ⟨⟨partsWritten, hresult⟩, _, _⟩ := hcommitted.stream partRecords
    obtain ⟨hthroughout, _⟩ := hcommitted.throughout_stream partRecords
    have hstate := hthroughout.last.2
    refine ⟨partsWritten, ?_, ?_⟩
    · simp only [run, hready, if_true, hresult]
    · simp only [run, hready, if_true, hresult, after_append, after_openingWrites hready,
        after_cons, after_nil, write_transition, hstate]
      rfl
  · intro hcomplete
    have hfinished := h.finished hcomplete
    refine ⟨?_, hfinished.onlyCommitted, hfinished.partFile_iff hcommitted⟩
    rw [hcommitted.parts.contents, hfinished.total, window, List.drop_zero, List.take_length]

/-- Over any number of executions of any part sizes, each of them crashed after
any of its writes, ended by an exception or completed: the manifest, the parts
and the checkpoints fit each other, the next execution does not fail, and a
completed job holds exactly the rows. -/
theorem parts_protocol_of_rounds
    (Q : BulkQuery ρ) (rows : List ρ) {start j : QueryJob ρ} (hcreated : start.Created)
    (hrun : Relation.ReflTransGen (Round QueryJob.write (executionWrites Q rows)) start j) :
    PartsProtocol Q rows j := by
  have hinvariant : JobInvariant Q rows j :=
    invariant_of_rounds QueryJob.write (fun execution _ h => h.throughout_execution execution)
      hcreated.invariant hrun
  exact hinvariant.protocol

end Rounds

/-- A query over accounts, rows as CSV lines. -/
def accountExtract : BulkQuery String where
  columns := ["Id", "Name"]
  outputDirectory := "bulk/query/750"
  byteSize := fun file => "Id,Name".length + 1 + (file.rows.map (fun row => row.length + 1)).sum
  checksum := fun file => String.join file.rows

/-- A created job with a file in its way. -/
def createdExtract : QueryJob String where
  state := .uploadComplete
  checkpoints := []
  files := (∅ : AList (fun _ : String => PartFile String)).insert "part-00001.csv" ⟨[], []⟩
  manifest := none

/-- A crash between the first manifest and its checkpoint, then a second
execution with another part size. -/
theorem parts_protocol_after_missing_checkpoint :
    ∃ j, QueryJob.state j = .jobComplete ∧ j.checkpoints.length = 2 ∧
      PartsProtocol accountExtract ["001,A", "002,B", "003,C", "004,D"] j := by
  refine ⟨_, ?_, ?_, parts_protocol_of_rounds accountExtract ["001,A", "002,B", "003,C", "004,D"]
    (⟨rfl, rfl, rfl⟩ : createdExtract.Created)
    ((Relation.ReflTransGen.single ⟨.completes 2, 4, rfl⟩).tail ⟨.completes 1, 100, rfl⟩)⟩
  · decide +kernel
  · decide +kernel

end FakeForce
end Northwind
