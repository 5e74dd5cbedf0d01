import Northwind.FakeForce.QueryPlans
import Northwind.Sources.Integers
import Mathlib.Logic.Function.Basic

/-!
# Paging through a query by its locators

The first page of a query comes from the query itself.  When it is not the last
one, the ids of the whole result list are written to an index on disk, a cursor
is stored, and the page names the next one by the cursor's locator and an
offset.  Later pages take a range of ids from the index and join it back to the
source by id.

`pages_complete_iff` puts the three modules together: following the locators ends,
and gives the result list once and in order, as far as `int` reads the offsets.
Any decimal digits pass `str.isdecimal`; more than 4300 of them raise a
`ValueError` that nothing catches.
-/

namespace Northwind
namespace FakeForce

open Windows

/-! ## Locators -/

/-- `str.rpartition(sep)`: the text before and after the last separator. -/
def rpartition (sep : Char) (cs : List Char) : Option (List Char × List Char) :=
  match cs.reverse.dropWhile (· ≠ sep) with
  | [] => none
  | _ :: before => some (before.reverse, (cs.reverse.takeWhile (· ≠ sep)).reverse)

/-- The locator id and the text of the offset that `query_more` reads from its path. -/
def parseLocator (locator : String) : Option (String × String) :=
  match rpartition '-' locator.toList with
  | none => none
  | some (locatorId, offsetText) =>
      if isDecimal offsetText then some (String.ofList locatorId, String.ofList offsetText)
      else none

/-- A locator of a cursor, with the digits of its offset. -/
def locatorOf (locatorId : String) (digits : List Char) : String :=
  String.ofList (locatorId.toList ++ '-' :: digits)

/-- `f"{locator}-{offset}"` -/
def locatorText (locatorId : String) (offset : Nat) : String :=
  locatorOf locatorId (Nat.toDigits 10 offset)

theorem rpartition_append
    (sep : Char) (before after : List Char) (h : sep ∉ after) :
    rpartition sep (before ++ sep :: after) = some (before, after) := by
  have hafter : ∀ c ∈ after.reverse, decide (c ≠ sep) = true := by
    intro c hc
    have hne : c ≠ sep := fun heq => h (heq ▸ List.mem_reverse.mp hc)
    simpa using hne
  have hreverse : (before ++ sep :: after).reverse =
      after.reverse ++ sep :: before.reverse := by
    simp
  unfold rpartition
  rw [hreverse, List.dropWhile_append_of_pos hafter, List.takeWhile_append_of_pos hafter]
  simp

/-- A locator of decimal digits splits into its cursor and its digits. -/
theorem parseLocator_locatorOf (locatorId : String) {digits : List Char}
    (hdecimal : isDecimal digits = true) :
    parseLocator (locatorOf locatorId digits) = some (locatorId, String.ofList digits) := by
  have hsep : '-' ∉ digits := by
    intro hmem
    simp only [isDecimal, Bool.and_eq_true, List.all_eq_true] at hdecimal
    exact absurd (hdecimal.2 '-' hmem) (by decide)
  unfold parseLocator locatorOf
  rw [String.toList_ofList, rpartition_append '-' _ _ hsep]
  simp only [hdecimal, if_true, String.ofList_toList]

theorem isDecimal_toDigits (offset : Nat) : isDecimal (Nat.toDigits 10 offset) = true :=
  isDecimal_of_isDigit Nat.toDigits_ne_nil
    (fun _ hc => Nat.isDigit_of_mem_toDigits (by decide) (by decide) hc)

/-! ## The index on disk -/

/-- One row of a cursor index. -/
structure IndexEntry where
  sequenceNumber : Nat
  recordId : Option Value
deriving DecidableEq

/-- `CursorArtifactStore.write_index` -/
def writeIndex (plan : QueryPlan) (results : List Row) : List IndexEntry :=
  results.zipIdx.map (fun x => ⟨x.2, plan.recordId x.1⟩)

/-- `CursorArtifactStore.read_page_ids` -/
def readPageIds (index : List IndexEntry) (offset size : Nat) : List (Option Value) :=
  let page := index.filter
    (fun e => offset ≤ e.sequenceNumber ∧ e.sequenceNumber < offset + size)
  (page.insertionSort (fun a b => a.sequenceNumber ≤ b.sequenceNumber)).map
    IndexEntry.recordId

/-- A page of the index holds the ids of the same window of the result list. -/
theorem readPageIds_writeIndex
    (plan : QueryPlan) (results : List Row) (offset size : Nat) :
    readPageIds (writeIndex plan results) offset size =
      (window results offset size).map plan.recordId := by
  have hfilter : (writeIndex plan results).filter
      (fun e => offset ≤ e.sequenceNumber ∧ e.sequenceNumber < offset + size) =
        (results.zipIdx.filter (fun x => offset ≤ x.2 ∧ x.2 < offset + size)).map
          (fun x => ⟨x.2, plan.recordId x.1⟩) := by
    unfold writeIndex
    rw [List.filter_map]
    rfl
  have hnumbers : (results.zipIdx.map Prod.snd).Pairwise (· < ·) := by
    rw [List.zipIdx_map_snd]
    exact List.pairwise_lt_range'
  have hsorted : ((writeIndex plan results).filter
      (fun e => offset ≤ e.sequenceNumber ∧ e.sequenceNumber < offset + size)).Pairwise
        (fun a b => a.sequenceNumber ≤ b.sequenceNumber) := by
    apply List.Pairwise.filter
    unfold writeIndex
    rw [List.pairwise_map]
    rw [List.pairwise_map] at hnumbers
    exact hnumbers.imp (fun hlt => Nat.le_of_lt hlt)
  unfold readPageIds
  simp only
  rw [hsorted.insertionSort_eq, hfilter, List.map_map, ← map_fst_filter_zipIdx, List.map_map]
  rfl

/-! ## Requests -/

/-- The cursor row `create_cursor` stores. -/
structure StoredCursor where
  plan : QueryPlan
  datasetSnapshotId : String
  batchSize : Nat
  pageOffset : Nat
  totalSize : Nat
  resultArtifact : String

/-- The open cursors and the index files. -/
structure CursorState where
  cursors : String → Option StoredCursor
  artifacts : String → Option (List IndexEntry)

/-- A response body of `_page` and `query_more`. -/
structure PageBody where
  totalSize : Nat
  done : Bool
  records : List Record
  nextRecordsUrl : Option String

structure ApiError where
  status : Nat
  errorCode : String
  message : String
deriving DecidableEq

def invalidQueryLocator : ApiError :=
  ⟨400, "INVALID_QUERY_LOCATOR", "invalid query locator"⟩

/-- The plain response to an exception that no handler takes. -/
def internalServerError : ApiError :=
  ⟨500, "", "Internal Server Error"⟩

/-- `/services/data/{API_VERSION}/query/{locator}` -/
def recordsUrl (locatorId : String) (offset : Nat) : String :=
  "/services/data/" ++ apiVersion ++ "/query/" ++ locatorText locatorId offset

structure QueryPage where
  totalSize : Nat
  records : List Record

/-- `_execute_page_with_cursor_index`: the page, and the index if it is needed. -/
def executePageWithCursorIndex (E : QueryEngine) (rows : List Row) (plan : QueryPlan)
    (pageSize pageOffset : Nat) : QueryPage × Option (List IndexEntry) :=
  let results := plan.results E rows
  let page : QueryPage :=
    ⟨results.length, (window results pageOffset pageSize).map plan.record⟩
  if pageOffset + page.records.length ≥ page.totalSize then (page, none)
  else (page, some (writeIndex plan results))

/-- The path of a cursor's index. -/
def artifactPath (locatorId : String) : String :=
  locatorId ++ ".parquet"

/-- The body of a page; a page that is not the last names the next one. -/
def pageBody (locatorId : String) (totalSize pageOffset : Nat) (records : List Record) :
    PageBody :=
  let done := decide (pageOffset + records.length ≥ totalSize)
  { totalSize := totalSize
    done := done
    records := records
    nextRecordsUrl :=
      if done then none else some (recordsUrl locatorId (pageOffset + records.length)) }

/-- `_page`, on one state of the source: the body, and the cursor state after. -/
def page (E : QueryEngine) (rows : List Row) (snapshotId : String) (plan : QueryPlan)
    (pageOffset size : Nat) (locatorId : String) (s : CursorState) : PageBody × CursorState :=
  let executed := executePageWithCursorIndex E rows plan size pageOffset
  let body := pageBody locatorId executed.1.totalSize pageOffset executed.1.records
  match executed.2 with
  | none => (body, s)
  | some index =>
      (body,
        { cursors := Function.update s.cursors locatorId (some
            { plan := plan
              datasetSnapshotId := snapshotId
              batchSize := size
              pageOffset := 0
              totalSize := executed.1.totalSize
              resultArtifact := artifactPath locatorId })
          artifacts := Function.update s.artifacts (artifactPath locatorId) (some index) })

/-- `_execute_records_by_ids`: a later row of an id replaces an earlier one, as
in the dictionary the source builds. -/
def executeRecordsByIds (E : QueryEngine) (rows : List Row) (plan : QueryPlan)
    (recordIds : List (Option Value)) : List Record :=
  let matching := E.order plan.orderBy
    (rows.filter (fun r => plan.keeps r && (plan.recordId r).isSome &&
      recordIds.contains (plan.recordId r)))
  recordIds.filterMap (fun id =>
    (matching.reverse.find? (fun r => plan.recordId r = id)).map plan.record)

/-- `query_more` on one state of the source. -/
def queryMore (E : QueryEngine) (rows : List Row) (snapshotId : String) (s : CursorState)
    (locator : String) : Except ApiError PageBody :=
  match parseLocator locator with
  | none => .error invalidQueryLocator
  | some (locatorId, offsetText) =>
      match s.cursors locatorId with
      | none => .error invalidQueryLocator
      | some cur =>
          match s.artifacts cur.resultArtifact with
          | none => .error invalidQueryLocator
          | some index =>
              if cur.datasetSnapshotId ≠ snapshotId then .error invalidQueryLocator
              else match readInt offsetText with
                | none => .error internalServerError
                | some pageOffset =>
                    if pageOffset < 0 ∨ pageOffset ≥ cur.totalSize then
                      .error invalidQueryLocator
                    else
                      let records := executeRecordsByIds E rows cur.plan
                        (readPageIds index pageOffset.toNat cur.batchSize)
                      .ok (pageBody locatorId cur.totalSize pageOffset.toNat records)

/-- Strip the route of the next page; `none` when the URL is another route. -/
def locatorOfUrl (url : String) : Option String :=
  let route := ("/services/data/" ++ apiVersion ++ "/query/").toList
  if route.isPrefixOf url.toList then some (String.ofList (url.toList.drop route.length))
  else none

/-- A client that requests `nextRecordsUrl` until a page has none; `none` when
a request fails or the budget is used up. -/
def followPages (serve : String → Except ApiError PageBody) :
    Nat → PageBody → Option (List PageBody)
  | budget, body =>
      match body.nextRecordsUrl, budget with
      | none, _ => some [body]
      | some _, 0 => none
      | some url, budget + 1 =>
          match (locatorOfUrl url).map serve with
          | some (.ok next) => (followPages serve budget next).map (fun rest => body :: rest)
          | _ => none

/-! ## A page of the result list -/

theorem locatorOfUrl_recordsUrl (locatorId : String) (offset : Nat) :
    locatorOfUrl (recordsUrl locatorId offset) = some (locatorText locatorId offset) := by
  have hlist : (recordsUrl locatorId offset).toList =
      ("/services/data/" ++ apiVersion ++ "/query/").toList ++
        (locatorText locatorId offset).toList := by
    unfold recordsUrl
    rw [String.toList_append]
  have hstart : ("/services/data/" ++ apiVersion ++ "/query/").toList.isPrefixOf
      (recordsUrl locatorId offset).toList = true := by
    rw [hlist, List.isPrefixOf_iff_prefix]
    exact List.prefix_append _ _
  unfold locatorOfUrl
  simp only [hstart, if_true]
  rw [hlist, List.drop_left, String.ofList_toList]

section Pages

variable (E : QueryEngine) (plan : QueryPlan) (rows : List Row)
variable (snapshotId locatorId : String) (size : Nat) (s : CursorState)

/-- The body that serves the window of the result list at `offset`. -/
def windowBody (offset : Nat) : PageBody :=
  pageBody locatorId (plan.results E rows).length offset
    ((window (plan.results E rows) offset size).map plan.record)

/-- The state after the first page of a result that does not fit into it. -/
def stateWithCursor : CursorState where
  cursors := Function.update s.cursors locatorId (some
    { plan := plan
      datasetSnapshotId := snapshotId
      batchSize := size
      pageOffset := 0
      totalSize := (plan.results E rows).length
      resultArtifact := artifactPath locatorId })
  artifacts := Function.update s.artifacts (artifactPath locatorId)
    (some (writeIndex plan (plan.results E rows)))

/-- The first page is the window at offset zero; a cursor is stored exactly when
the result does not fit into it. -/
theorem page_eq :
    page E rows snapshotId plan 0 size locatorId s =
      (windowBody E plan rows locatorId size 0,
        if (plan.results E rows).length ≤ size then s
        else stateWithCursor E plan rows snapshotId locatorId size s) := by
  have hlength : ((window (plan.results E rows) 0 size).map plan.record).length =
      min size (plan.results E rows).length := by
    rw [List.length_map, length_window, Nat.sub_zero]
  unfold page executePageWithCursorIndex
  simp only [hlength, Nat.zero_add, ge_iff_le]
  by_cases hfits : (plan.results E rows).length ≤ size
  · have hall : (plan.results E rows).length ≤ min size (plan.results E rows).length := by
      omega
    simp only [hfits, hall, if_true]
    rfl
  · have hmore : ¬ (plan.results E rows).length ≤ min size (plan.results E rows).length := by
      omega
    simp only [hfits, hmore, if_false]
    rfl

variable {E plan rows}

/-- Joining the ids of a window back to the source gives the window's records. -/
theorem executeRecordsByIds_window
    (hone : (rows.map plan.recordId).Nodup)
    (hids : ∀ r ∈ rows, (plan.recordId r).isSome = true)
    (offset : Nat) :
    executeRecordsByIds E rows plan
        ((window (plan.results E rows) offset size).map plan.recordId) =
      (window (plan.results E rows) offset size).map plan.record := by
  have hmem : ∀ r ∈ window (plan.results E rows) offset size, r ∈ rows ∧ plan.keeps r = true :=
    fun r hr => QueryPlan.mem_results (mem_of_mem_window hr)
  generalize window (plan.results E rows) offset size = page at hmem
  unfold executeRecordsByIds
  simp only [List.filterMap_map]
  have hfind : ∀ r ∈ page,
      ((E.order plan.orderBy (rows.filter (fun r => plan.keeps r &&
        (plan.recordId r).isSome && (page.map plan.recordId).contains (plan.recordId r)))).reverse.find?
          (fun r' => plan.recordId r' = plan.recordId r)) = some r := by
    intro r hr
    obtain ⟨hrows, hkeeps⟩ := hmem r hr
    have hmatching : r ∈ (E.order plan.orderBy (rows.filter (fun r => plan.keeps r &&
        (plan.recordId r).isSome &&
          (page.map plan.recordId).contains (plan.recordId r)))).reverse := by
      rw [List.mem_reverse, (E.order_perm _ _).mem_iff, List.mem_filter]
      refine ⟨hrows, ?_⟩
      simp only [hkeeps, hids r hrows, Bool.true_and, List.contains_iff_mem]
      exact List.mem_map_of_mem hr
    obtain ⟨found, hfound⟩ := Option.isSome_iff_exists.mp
      (List.find?_isSome.mpr ⟨r, hmatching, by simp⟩ :
        ((E.order plan.orderBy (rows.filter (fun r => plan.keeps r &&
          (plan.recordId r).isSome &&
            (page.map plan.recordId).contains (plan.recordId r)))).reverse.find?
              (fun r' => plan.recordId r' = plan.recordId r)).isSome = true)
    have hid : plan.recordId found = plan.recordId r := by
      simpa using List.find?_some hfound
    have hfoundRows : found ∈ rows := by
      have hmem' := List.mem_of_find?_eq_some hfound
      rw [List.mem_reverse, (E.order_perm _ _).mem_iff, List.mem_filter] at hmem'
      exact hmem'.1
    rw [hfound, List.inj_on_of_nodup_map hone hfoundRows hrows hid]
  calc
    page.filterMap (fun r => Option.map plan.record
        ((E.order plan.orderBy (rows.filter (fun r => plan.keeps r &&
          (plan.recordId r).isSome &&
            (page.map plan.recordId).contains (plan.recordId r)))).reverse.find?
              (fun r' => plan.recordId r' = plan.recordId r)))
      = page.filterMap (fun r => some (plan.record r)) :=
        List.filterMap_congr (fun r hr => by rw [hfind r hr, Option.map_some])
    _ = page.map plan.record := by
        rw [List.filterMap_eq_map']

/-- A window that reaches the end is done and names no next page. -/
theorem windowBody_last
    {offset : Nat} (h : (plan.results E rows).length ≤ offset + size) :
    (windowBody E plan rows locatorId size offset).done = true ∧
      (windowBody E plan rows locatorId size offset).nextRecordsUrl = none := by
  have hdone : offset + ((window (plan.results E rows) offset size).map plan.record).length ≥
      (plan.results E rows).length := by
    rw [List.length_map, length_window]
    omega
  unfold windowBody pageBody
  simp only [hdone, decide_true, if_true, and_self]

/-- A window that does not reach the end names the page right after it. -/
theorem windowBody_more
    {offset : Nat} (h : offset + size < (plan.results E rows).length) :
    (windowBody E plan rows locatorId size offset).done = false ∧
      (windowBody E plan rows locatorId size offset).nextRecordsUrl =
        some (recordsUrl locatorId (offset + size)) := by
  have hlength : ((window (plan.results E rows) offset size).map plan.record).length = size := by
    rw [List.length_map, length_window]
    omega
  have hmore : ¬ offset + size ≥ (plan.results E rows).length := by omega
  unfold windowBody pageBody
  simp only [hlength, hmore, decide_false, Bool.false_eq_true, if_false, and_self]

theorem windowBody_done_iff (offset : Nat) :
    (windowBody E plan rows locatorId size offset).done = true ↔
      (plan.results E rows).length ≤ offset + size := by
  constructor
  · intro hdone
    by_contra hnot
    rw [(windowBody_more locatorId size (Nat.lt_of_not_le hnot)).1] at hdone
    cases hdone
  · intro hlast
    exact (windowBody_last locatorId size hlast).1

/-- A locator of the cursor with an offset below the total serves its window, unless
its digits are too many. -/
theorem queryMore_stateWithCursor
    (hone : (rows.map plan.recordId).Nodup)
    (hids : ∀ r ∈ rows, (plan.recordId r).isSome = true)
    {digits : List Char} (hdecimal : isDecimal digits = true)
    (hoffset : ofDecimals digits < (plan.results E rows).length) :
    queryMore E rows snapshotId
        (stateWithCursor E plan rows snapshotId locatorId size s)
        (locatorOf locatorId digits) =
      if intMaxStrDigits < digits.length then .error internalServerError
      else .ok (windowBody E plan rows locatorId size (ofDecimals digits)) := by
  unfold queryMore
  rw [parseLocator_locatorOf locatorId hdecimal]
  simp only [stateWithCursor, Function.update_self, ne_eq, not_true_eq_false, if_false,
    readInt_of_isDecimal hdecimal]
  by_cases hlong : intMaxStrDigits < digits.length
  · simp only [hlong, if_true]
  · have hinside : ¬ ((ofDecimals digits : Int) < 0 ∨
        (ofDecimals digits : Int) ≥ (plan.results E rows).length) := by
      omega
    simp only [hlong, if_false, hinside, Int.toNat_natCast]
    rw [readPageIds_writeIndex, executeRecordsByIds_window size hone hids]
    rfl

/-- The page that a body names next. -/
theorem queryMore_locatorText
    (hone : (rows.map plan.recordId).Nodup)
    (hids : ∀ r ∈ rows, (plan.recordId r).isSome = true)
    {offset : Nat} (hoffset : offset < (plan.results E rows).length) :
    queryMore E rows snapshotId
        (stateWithCursor E plan rows snapshotId locatorId size s)
        (locatorText locatorId offset) =
      if intMaxStrDigits < (Nat.toDigits 10 offset).length then .error internalServerError
      else .ok (windowBody E plan rows locatorId size offset) := by
  rw [locatorText, queryMore_stateWithCursor snapshotId locatorId size s hone hids
    (isDecimal_toDigits offset) (by rwa [ofDecimals_toDigits]), ofDecimals_toDigits]

/-- Where there is a later page, the next one is not empty. -/
theorem next_lt_of_later {offset k total : Nat} (h : offset + (k + 1) * size < total) :
    offset + size < total := by
  have hpage : size ≤ (k + 1) * size := Nat.le_mul_of_pos_left size (Nat.succ_pos k)
  omega

/-- At the last window there is nothing to follow. -/
theorem followPages_last (serve : String → Except ApiError PageBody) (budget : Nat)
    {offset : Nat} (hlast : (plan.results E rows).length ≤ offset + size) :
    ∃ pages,
      followPages serve budget (windowBody E plan rows locatorId size offset) = some pages ∧
      pages.flatMap PageBody.records =
        ((plan.results E rows).drop offset).map plan.record ∧
      ∀ body ∈ pages, body.totalSize = (plan.results E rows).length := by
  obtain ⟨_, hnext⟩ := windowBody_last locatorId size hlast
  refine ⟨[windowBody E plan rows locatorId size offset], ?_, ?_, ?_⟩
  · unfold followPages
    rw [hnext]
  · rw [List.flatMap_singleton, ← window_eq_drop hlast]
    rfl
  · rw [List.forall_mem_singleton]
    rfl

/-- Following the locators from any window gives the rest of the result list, if the
offsets on the way can be read. -/
theorem followPages_windowBody
    (hone : (rows.map plan.recordId).Nodup)
    (hids : ∀ r ∈ rows, (plan.recordId r).isSome = true)
    (hsize : 1 ≤ size) (budget offset : Nat)
    (hbudget : (plan.results E rows).length ≤ offset + budget)
    (hshort : ∀ k, offset + (k + 1) * size < (plan.results E rows).length →
      (Nat.toDigits 10 (offset + (k + 1) * size)).length ≤ intMaxStrDigits) :
    ∃ pages,
      followPages (queryMore E rows snapshotId
          (stateWithCursor E plan rows snapshotId locatorId size s)) budget
        (windowBody E plan rows locatorId size offset) = some pages ∧
      pages.flatMap PageBody.records =
        ((plan.results E rows).drop offset).map plan.record ∧
      ∀ body ∈ pages, body.totalSize = (plan.results E rows).length := by
  induction budget generalizing offset with
  | zero =>
      have hlast : (plan.results E rows).length ≤ offset + size := by omega
      exact followPages_last locatorId size _ 0 hlast
  | succ budget ih =>
      by_cases hlast : (plan.results E rows).length ≤ offset + size
      · exact followPages_last locatorId size _ (budget + 1) hlast
      · have hmore : offset + size < (plan.results E rows).length := by omega
        obtain ⟨_, hnext⟩ := windowBody_more locatorId size hmore
        have hserved := queryMore_locatorText snapshotId locatorId size s hone hids hmore
        have hread := hshort 0 (by simpa using hmore)
        rw [Nat.zero_add, Nat.one_mul] at hread
        rw [if_neg (Nat.not_lt.mpr hread)] at hserved
        have hrest : ∀ k, offset + size + (k + 1) * size = offset + (k + 1 + 1) * size := by
          intro k
          rw [Nat.add_mul (k + 1) 1 size]
          omega
        obtain ⟨pages, hpages, hrecords, htotals⟩ := ih (offset + size) (by omega)
          (fun k hk => by
            rw [hrest] at hk ⊢
            exact hshort (k + 1) hk)
        refine ⟨windowBody E plan rows locatorId size offset :: pages, ?_, ?_, ?_⟩
        · unfold followPages
          rw [hnext]
          simp only [locatorOfUrl_recordsUrl, Option.map_some, hserved, hpages]
        · rw [List.flatMap_cons, hrecords,
            ← window_append_drop (plan.results E rows) offset size, List.map_append]
          rfl
        · rw [List.forall_mem_cons]
          exact ⟨rfl, htotals⟩

/-- A client that gets to the end has had every offset on its way read. -/
theorem readable_of_followPages
    (hone : (rows.map plan.recordId).Nodup)
    (hids : ∀ r ∈ rows, (plan.recordId r).isSome = true)
    {budget offset : Nat} {pages : List PageBody}
    (hpages : followPages (queryMore E rows snapshotId
        (stateWithCursor E plan rows snapshotId locatorId size s)) budget
      (windowBody E plan rows locatorId size offset) = some pages)
    (k : Nat) (hk : offset + (k + 1) * size < (plan.results E rows).length) :
    (Nat.toDigits 10 (offset + (k + 1) * size)).length ≤ intMaxStrDigits := by
  induction budget generalizing offset pages k with
  | zero =>
      have hmore := next_lt_of_later size hk
      obtain ⟨_, hnext⟩ := windowBody_more locatorId size hmore
      unfold followPages at hpages
      rw [hnext] at hpages
      cases hpages
  | succ budget ih =>
      have hmore := next_lt_of_later size hk
      obtain ⟨_, hnext⟩ := windowBody_more locatorId size hmore
      have hserved := queryMore_locatorText snapshotId locatorId size s hone hids hmore
      unfold followPages at hpages
      rw [hnext] at hpages
      simp only [locatorOfUrl_recordsUrl, Option.map_some, hserved] at hpages
      by_cases hlong : intMaxStrDigits < (Nat.toDigits 10 (offset + size)).length
      · simp only [hlong, if_true] at hpages
        cases hpages
      · simp only [hlong, if_false, Option.map_eq_some_iff] at hpages
        obtain ⟨rest, hrest, _⟩ := hpages
        cases k with
        | zero =>
            rw [Nat.zero_add, Nat.one_mul]
            exact Nat.le_of_not_lt hlong
        | succ k =>
            have hshift : offset + (k + 1 + 1) * size = offset + size + (k + 1) * size := by
              rw [Nat.add_mul (k + 1) 1 size]
              omega
            rw [hshift] at hk ⊢
            exact ih hrest k hk

end Pages

/-- The client reaches the end, and the records of its pages are the result list,
once and in order, under one total. -/
def PagesComplete (E : QueryEngine) (plan : QueryPlan) (rows : List Row)
    (snapshotId locatorId : String) (size : Nat) (s : CursorState) : Prop :=
  ∃ pages,
    followPages
      (queryMore E rows snapshotId (page E rows snapshotId plan 0 size locatorId s).2)
      (plan.results E rows).length
      (page E rows snapshotId plan 0 size locatorId s).1 = some pages ∧
    pages.flatMap PageBody.records = (plan.results E rows).map plan.record ∧
    ∀ body ∈ pages, body.totalSize = (plan.results E rows).length

/-- A locator is answered with the window of the result list at its offset. -/
def ServesWindow (E : QueryEngine) (plan : QueryPlan) (rows : List Row)
    (snapshotId locatorId : String) (size : Nat) (s : CursorState)
    (locator : String) (offset : Nat) : Prop :=
  ∃ body,
    queryMore E rows snapshotId (page E rows snapshotId plan 0 size locatorId s).2
      locator = .ok body ∧
    body.totalSize = (plan.results E rows).length ∧
    body.records = (window (plan.results E rows) offset size).map plan.record ∧
    (body.done = true ↔ (plan.results E rows).length ≤ offset + size)

/-- Paging is complete as far as the offsets can be read: over a source with unique
ids, following the locators from the first page ends after at most as many requests
as there are rows exactly if the offset of every later page has few enough digits,
and a locator of the cursor serves the window at its offset exactly if its digits are
few enough. -/
theorem pages_complete_iff
    (E : QueryEngine) (plan : QueryPlan) (rows : List Row)
    (hone : (rows.map plan.recordId).Nodup)
    (hids : ∀ r ∈ rows, (plan.recordId r).isSome = true)
    (snapshotId locatorId : String) (size : Nat) (hsize : 1 ≤ size) (s : CursorState) :
    (PagesComplete E plan rows snapshotId locatorId size s ↔
      ∀ k, (k + 1) * size < (plan.results E rows).length →
        (Nat.toDigits 10 ((k + 1) * size)).length ≤ intMaxStrDigits) ∧
    (size < (plan.results E rows).length →
      ∀ digits, isDecimal digits = true → ofDecimals digits < (plan.results E rows).length →
        (ServesWindow E plan rows snapshotId locatorId size s (locatorOf locatorId digits)
            (ofDecimals digits) ↔
          digits.length ≤ intMaxStrDigits)) := by
  unfold PagesComplete ServesWindow
  rw [page_eq]
  by_cases hfits : (plan.results E rows).length ≤ size
  · simp only [hfits, if_true]
    have hlast : (plan.results E rows).length ≤ 0 + size := by omega
    refine ⟨⟨?_, ?_⟩, ?_⟩
    · intro _ k hk
      rw [← Nat.zero_add ((k + 1) * size)] at hk
      have hmore := next_lt_of_later size hk
      omega
    · intro _
      exact followPages_last locatorId size _ _ hlast
    · intro hmore
      omega
  · simp only [hfits, if_false]
    refine ⟨⟨?_, ?_⟩, ?_⟩
    · rintro ⟨pages, hpages, _⟩ k hk
      have hread := readable_of_followPages snapshotId locatorId size s hone hids hpages k
        (by rwa [Nat.zero_add])
      rwa [Nat.zero_add] at hread
    · intro hshort
      exact followPages_windowBody snapshotId locatorId size s hone hids hsize
        (plan.results E rows).length 0 (by omega) (fun k hk => by
          rw [Nat.zero_add] at hk ⊢
          exact hshort k hk)
    · intro _ digits hdecimal hoffset
      rw [queryMore_stateWithCursor snapshotId locatorId size s hone hids hdecimal hoffset]
      by_cases hlong : intMaxStrDigits < digits.length
      · rw [if_pos hlong]
        refine ⟨?_, fun hshort => absurd hlong (Nat.not_lt.mpr hshort)⟩
        rintro ⟨_, hserved, _⟩
        cases hserved
      · rw [if_neg hlong]
        exact ⟨fun _ => Nat.le_of_not_lt hlong,
          fun _ => ⟨_, rfl, rfl, rfl, windowBody_done_iff locatorId size (ofDecimals digits)⟩⟩

/-! ## Five rows in pages of two -/

def accountRecord (id name : String) : Record where
  type := "Account"
  url := "/services/data/v60.0/sobjects/Account/" ++ id
  fields := [("Id", some (.text id)), ("Name", some (.text name))]

theorem results_accountQuery :
    (accountQuery.results .stable accountRows).map accountQuery.record =
      [accountRecord "001a" "Acme", accountRecord "001d" "Acme", accountRecord "001f" "Baker",
        accountRecord "001e" "Crown", accountRecord "001c" "Delta"] := by
  decide

theorem length_results_accountQuery : (accountQuery.results .stable accountRows).length = 5 := by
  simpa using congrArg List.length results_accountQuery

/-- The three pages hold the five records, and a locator with an Arabic-Indic three
serves the last two. -/
theorem pages_complete_iff_five_rows :
    (∃ pages,
      followPages
        (queryMore .stable accountRows "snapshot"
          (page .stable accountRows "snapshot" accountQuery 0 2 "0011223344556677"
            ⟨fun _ => none, fun _ => none⟩).2)
        5
        (page .stable accountRows "snapshot" accountQuery 0 2 "0011223344556677"
          ⟨fun _ => none, fun _ => none⟩).1 = some pages ∧
      pages.flatMap PageBody.records =
        [accountRecord "001a" "Acme", accountRecord "001d" "Acme", accountRecord "001f" "Baker",
          accountRecord "001e" "Crown", accountRecord "001c" "Delta"]) ∧
    ∃ body,
      queryMore .stable accountRows "snapshot"
        (page .stable accountRows "snapshot" accountQuery 0 2 "0011223344556677"
          ⟨fun _ => none, fun _ => none⟩).2
        "0011223344556677-\u0663" = .ok body ∧
      body.records = [accountRecord "001e" "Crown", accountRecord "001c" "Delta"] ∧
      body.done = true := by
  obtain ⟨hpages, hserves⟩ := pages_complete_iff .stable accountQuery accountRows (by decide)
    (by decide) "snapshot" "0011223344556677" 2 (by decide) ⟨fun _ => none, fun _ => none⟩
  rw [length_results_accountQuery] at hpages hserves
  constructor
  · obtain ⟨pages, hfollow, hrecords, _⟩ := hpages.mpr (by
      rintro (_ | _ | k) hk
      · decide
      · decide
      · omega)
    rw [length_results_accountQuery] at hfollow
    exact ⟨pages, hfollow, hrecords.trans results_accountQuery⟩
  · obtain ⟨body, hbody, _, hrecords, hdone⟩ :=
      (hserves (by decide) ['\u0663'] (by decide) (by decide)).mpr (by decide)
    refine ⟨body, hbody, hrecords.trans (by decide), hdone.mpr (by decide)⟩

/-- Four thousand three hundred and one zeros name the first row, and are answered
with an error. -/
theorem zeros_not_served :
    (isDecimal (List.replicate 4301 '0') = true ∧ ofDecimals (List.replicate 4301 '0') = 0) ∧
    ¬ ServesWindow .stable accountQuery accountRows "snapshot" "0011223344556677" 2
      ⟨fun _ => none, fun _ => none⟩
      (locatorOf "0011223344556677" (List.replicate 4301 '0')) 0 := by
  have hzeros : isDecimal (List.replicate 4301 '0') = true := by
    simp only [isDecimal, List.all_replicate]
    decide
  have hvalue : ofDecimals (List.replicate 4301 '0') = 0 := ofDecimals_replicate_zero 4301
  refine ⟨⟨hzeros, hvalue⟩, ?_⟩
  rintro ⟨body, hbody, _⟩
  rw [page_eq, if_neg (by rw [length_results_accountQuery]; decide),
    queryMore_stateWithCursor "snapshot" "0011223344556677" 2 _ (by decide) (by decide) hzeros
      (by rw [hvalue, length_results_accountQuery]; decide),
    if_pos (by rw [List.length_replicate]; decide)] at hbody
  cases hbody

end FakeForce
end Northwind
