import Northwind.FakeForce.CursorPages
import Northwind.FakeForce.Snapshots
import Mathlib.Logic.Relation

/-!
# Requests next to publications: which snapshot a cursor is pinned to

A first page is served in three steps: the index is built and the page read,
then `CATALOG.snapshot_id` is read, then the cursor is stored.  A later page is
served in four: the cursor is loaded, its snapshot id is compared, the artifact
is checked, and the source is opened and read.  Publications and compactions of
the source may come between any two steps of any number of requests.

`pinned_of_run`: when no change of the snapshot id falls between the index and
the snapshot id of a first page, nor between the comparison and the read of a
later one, every cursor carries the id of the snapshot its index came from and
every page it serves comes from that snapshot.

Each phase remembers the tree it read, which the code does not: the property is
about those trees.  A locator is never drawn twice.
-/

namespace Northwind
namespace FakeForce

open Windows

/-- Where one request stands, with the tree it has read. -/
inductive RequestPhase where
  | idle
  | pageStarted (plan : QueryPlan) (size : Nat) (locatorId : String)
  | indexed (plan : QueryPlan) (size : Nat) (locatorId : String) (page : QueryPage)
      (source : Disk)
  | identified (plan : QueryPlan) (size : Nat) (locatorId : String) (page : QueryPage)
      (source : Disk) (snapshotId : String)
  | firstPage (body : PageBody) (source : Disk) (cursor : Option String)
  | moreStarted (locator : String)
  | loaded (locatorId offsetText : String) (cur : StoredCursor)
  | compared (locatorId offsetText : String) (cur : StoredCursor)
  | checked (locatorId : String) (offset : Nat) (cur : StoredCursor)
  | morePage (locatorId : String) (offset : Nat) (cur : StoredCursor) (body : PageBody)
      (source : Disk)
  | refused (error : ApiError)

structure ServerState where
  disk : Disk
  store : CursorState
  /-- The tree the index of a locator was built from. -/
  builtFrom : String → Option Disk
  requests : Nat → RequestPhase

def ServerState.setRequest (s : ServerState) (id : Nat) (phase : RequestPhase) : ServerState :=
  { s with requests := Function.update s.requests id phase }

inductive ServerAction where
  /-- A partition is published or an object compacted. -/
  | change (spec : DatasetSpec) (op : TreeOp)
  | request (id : Nat)

/-- One step of the source or of a request. -/
inductive ServerStep (service : Service) : ServerState → ServerAction → ServerState → Prop
  | change {s : ServerState} (spec : DatasetSpec) (op : TreeOp) :
      ServerStep service s (.change spec op)
        { s with disk := op.run spec service.ranking s.disk }
  | startPage {s : ServerState} (id : Nat) (plan : QueryPlan) (size : Nat) (locatorId : String)
      (idle : s.requests id = .idle) :
      ServerStep service s (.request id) (s.setRequest id (.pageStarted plan size locatorId))
  /-- The result fits into the page: no index and no cursor. -/
  | buildAll {s : ServerState} {id : Nat} {plan : QueryPlan} {size : Nat} {locatorId : String}
      {rows : List Row} {page : QueryPage}
      (started : s.requests id = .pageStarted plan size locatorId)
      (read : service.objectRows plan s.disk = some rows)
      (executed : executePageWithCursorIndex service.queries rows plan size 0 = (page, none)) :
      ServerStep service s (.request id)
        (s.setRequest id
          (.firstPage (pageBody locatorId page.totalSize 0 page.records) s.disk none))
  /-- The locator is random: no index was written under it before. -/
  | buildIndex {s : ServerState} {id : Nat} {plan : QueryPlan} {size : Nat}
      {locatorId : String} {rows : List Row} {page : QueryPage} {index : List IndexEntry}
      (started : s.requests id = .pageStarted plan size locatorId)
      (fresh : s.builtFrom locatorId = none)
      (read : service.objectRows plan s.disk = some rows)
      (executed : executePageWithCursorIndex service.queries rows plan size 0 =
        (page, some index)) :
      ServerStep service s (.request id)
        { s.setRequest id (.indexed plan size locatorId page s.disk) with
          store := { s.store with
            artifacts := Function.update s.store.artifacts (artifactPath locatorId)
              (some index) }
          builtFrom := Function.update s.builtFrom locatorId (some s.disk) }
  | readSnapshotId {s : ServerState} {id : Nat} {plan : QueryPlan} {size : Nat}
      {locatorId : String} {page : QueryPage} {source : Disk} {snapshotId : String}
      (indexed : s.requests id = .indexed plan size locatorId page source)
      (snapshot : service.snapshotId s.disk = .ok snapshotId) :
      ServerStep service s (.request id)
        (s.setRequest id (.identified plan size locatorId page source snapshotId))
  /-- The locator is the primary key of the cursors. -/
  | createCursor {s : ServerState} {id : Nat} {plan : QueryPlan} {size : Nat}
      {locatorId : String} {page : QueryPage} {source : Disk} {snapshotId : String}
      (identified : s.requests id = .identified plan size locatorId page source snapshotId)
      (unused : s.store.cursors locatorId = none) :
      ServerStep service s (.request id)
        { s.setRequest id (.firstPage (pageBody locatorId page.totalSize 0 page.records)
            source (some locatorId)) with
          store := { s.store with
            cursors := Function.update s.store.cursors locatorId (some
              { plan := plan
                datasetSnapshotId := snapshotId
                batchSize := size
                pageOffset := 0
                totalSize := page.totalSize
                resultArtifact := artifactPath locatorId }) } }
  | startMore {s : ServerState} (id : Nat) (locator : String)
      (idle : s.requests id = .idle) :
      ServerStep service s (.request id) (s.setRequest id (.moreStarted locator))
  | loadCursor {s : ServerState} {id : Nat} {locator locatorId offsetText : String}
      {cur : StoredCursor}
      (started : s.requests id = .moreStarted locator)
      (parsed : parseLocator locator = some (locatorId, offsetText))
      (found : s.store.cursors locatorId = some cur) :
      ServerStep service s (.request id) (s.setRequest id (.loaded locatorId offsetText cur))
  | compareSnapshots {s : ServerState} {id : Nat} {locatorId offsetText : String}
      {cur : StoredCursor}
      (loaded : s.requests id = .loaded locatorId offsetText cur)
      (same : service.snapshotId s.disk = .ok cur.datasetSnapshotId) :
      ServerStep service s (.request id) (s.setRequest id (.compared locatorId offsetText cur))
  | checkArtifact {s : ServerState} {id : Nat} {locatorId offsetText : String} {offset : Nat}
      {cur : StoredCursor}
      (compared : s.requests id = .compared locatorId offsetText cur)
      (present : (s.store.artifacts cur.resultArtifact).isSome = true)
      (read : readInt offsetText = some (offset : Int))
      (inside : offset < cur.totalSize) :
      ServerStep service s (.request id) (s.setRequest id (.checked locatorId offset cur))
  | readPage {s : ServerState} {id : Nat} {locatorId : String} {offset : Nat}
      {cur : StoredCursor} {rows : List Row} {index : List IndexEntry}
      (checked : s.requests id = .checked locatorId offset cur)
      (read : service.objectRows cur.plan s.disk = some rows)
      (artifact : s.store.artifacts cur.resultArtifact = some index) :
      ServerStep service s (.request id)
        (s.setRequest id (.morePage locatorId offset cur
          (pageBody locatorId cur.totalSize offset
            (executeRecordsByIds service.queries rows cur.plan
              (readPageIds index offset cur.batchSize))) s.disk))
  /-- An unknown locator, another snapshot, a missing artifact, an offset past
  the end. -/
  | refuseLocator {s : ServerState} {id : Nat} {locator : String}
      (started : s.requests id = .moreStarted locator)
      (unknown : parseLocator locator = none ∨
        ∃ locatorId offsetText, parseLocator locator = some (locatorId, offsetText) ∧
          s.store.cursors locatorId = none) :
      ServerStep service s (.request id) (s.setRequest id (.refused invalidQueryLocator))
  | refuseSnapshot {s : ServerState} {id : Nat} {locatorId offsetText : String}
      {cur : StoredCursor}
      (loaded : s.requests id = .loaded locatorId offsetText cur)
      {current : String} (snapshot : service.snapshotId s.disk = .ok current)
      (moved : current ≠ cur.datasetSnapshotId) :
      ServerStep service s (.request id) (s.setRequest id (.refused invalidQueryLocator))
  | refuseArtifact {s : ServerState} {id : Nat} {locatorId offsetText : String}
      {cur : StoredCursor}
      (compared : s.requests id = .compared locatorId offsetText cur)
      (bad : s.store.artifacts cur.resultArtifact = none ∨
        ∃ offset, readInt offsetText = some offset ∧ (offset < 0 ∨ cur.totalSize ≤ offset)) :
      ServerStep service s (.request id) (s.setRequest id (.refused invalidQueryLocator))
  /-- More digits than `int` reads. -/
  | failOffset {s : ServerState} {id : Nat} {locatorId offsetText : String}
      {cur : StoredCursor}
      (compared : s.requests id = .compared locatorId offsetText cur)
      (present : (s.store.artifacts cur.resultArtifact).isSome = true)
      (unread : readInt offsetText = none) :
      ServerStep service s (.request id) (s.setRequest id (.refused internalServerError))

/-- A request that has read the source on one side of its snapshot id only. -/
def RequestPhase.inWindow : RequestPhase → Prop
  | .indexed .. => True
  | .compared .. => True
  | .checked .. => True
  | _ => False

/-- While a request is in its window, no change moves the snapshot id. -/
def MeetsPinningCondition (service : Service) (s : ServerState) : ServerAction → Prop
  | .change spec op =>
      (∃ id, (s.requests id).inWindow) →
        service.snapshotId (op.run spec service.ranking s.disk) = service.snapshotId s.disk
  | .request _ => True

/-- What was built for a locator: the tree read and the index kept on disk. -/
def IndexBuilt (service : Service) (s : ServerState) (locatorId : String) (plan : QueryPlan)
    (totalSize : Nat) (source : Disk) (rows : List Row) : Prop :=
  s.builtFrom locatorId = some source ∧
  service.objectRows plan source = some rows ∧
  totalSize = (plan.results service.queries rows).length ∧
  s.store.artifacts (artifactPath locatorId) =
    some (writeIndex plan (plan.results service.queries rows))

/-- A stored cursor carries the id of the snapshot its index was built from. -/
def CursorPinned (service : Service) (s : ServerState) (locatorId : String)
    (cur : StoredCursor) : Prop :=
  cur.resultArtifact = artifactPath locatorId ∧
  ∃ source rows,
    IndexBuilt service s locatorId cur.plan cur.totalSize source rows ∧
    service.snapshotId source = .ok cur.datasetSnapshotId

/-- The first page of a cursor is the window at offset zero over the tree its
index was built from. -/
def FirstPagePinned (service : Service) (s : ServerState) (locatorId : String)
    (body : PageBody) (source : Disk) : Prop :=
  ∃ cur rows,
    s.store.cursors locatorId = some cur ∧
    IndexBuilt service s locatorId cur.plan cur.totalSize source rows ∧
    body = windowBody service.queries cur.plan rows locatorId cur.batchSize 0

/-- A page served through a locator was computed from the snapshot of its
cursor: it joins a window of the index back to a tree with the cursor's id, and
with the same rows unless the hash function collides. -/
def PagePinned (service : Service) (s : ServerState) (locatorId : String) (offset : Nat)
    (cur : StoredCursor) (body : PageBody) (source : Disk) : Prop :=
  s.store.cursors locatorId = some cur ∧
  service.snapshotId source = .ok cur.datasetSnapshotId ∧
  ∃ built builtRows rows,
    IndexBuilt service s locatorId cur.plan cur.totalSize built builtRows ∧
    service.objectRows cur.plan source = some rows ∧
    (Function.Injective service.digest → rows = builtRows) ∧
    body = pageBody locatorId cur.totalSize offset
      (executeRecordsByIds service.queries rows cur.plan
        ((window (cur.plan.results service.queries builtRows) offset cur.batchSize).map
          cur.plan.recordId))

/-- Every cursor and every page of a cursor is pinned. -/
structure Pinned (service : Service) (s : ServerState) : Prop where
  cursors : ∀ locatorId cur, s.store.cursors locatorId = some cur →
    CursorPinned service s locatorId cur
  firstPages : ∀ id body source locatorId,
    s.requests id = .firstPage body source (some locatorId) →
      FirstPagePinned service s locatorId body source
  morePages : ∀ id locatorId offset cur body source,
    s.requests id = .morePage locatorId offset cur body source →
      PagePinned service s locatorId offset cur body source

/-! ## What no step takes back -/

/-- Locators keep their tree and their index, and cursors stay. -/
structure Grows (s s' : ServerState) : Prop where
  builtFrom : ∀ locatorId source, s.builtFrom locatorId = some source →
    s'.builtFrom locatorId = some source ∧
      s'.store.artifacts (artifactPath locatorId) = s.store.artifacts (artifactPath locatorId)
  cursors : ∀ locatorId cur, s.store.cursors locatorId = some cur →
    s'.store.cursors locatorId = some cur

theorem Grows.of_store_eq
    {s s' : ServerState} (hstore : s'.store = s.store) (hbuilt : s'.builtFrom = s.builtFrom) :
    Grows s s' := by
  refine ⟨?_, ?_⟩
  · intro locatorId source h
    rw [hbuilt, hstore]
    exact ⟨h, rfl⟩
  · intro locatorId cur h
    rw [hstore]
    exact h

theorem artifactPath_injective : Function.Injective artifactPath := by
  intro a b h
  have hlist := congrArg String.toList h
  simp only [artifactPath, String.toList_append] at hlist
  exact String.toList_injective (List.append_cancel_right hlist)

theorem ServerStep.grows
    {service : Service} {s s' : ServerState} {a : ServerAction}
    (h : ServerStep service s a s') : Grows s s' := by
  cases h with
  | @buildIndex id plan size locatorId rows page index started fresh read executed =>
      refine ⟨?_, fun _ _ h => h⟩
      intro other source hbuilt
      have hne : other ≠ locatorId := by
        intro heq
        rw [heq, fresh] at hbuilt
        cases hbuilt
      have hpath : artifactPath other ≠ artifactPath locatorId :=
        fun heq => hne (artifactPath_injective heq)
      exact ⟨by simpa only [Function.update_of_ne hne] using hbuilt,
        Function.update_of_ne hpath _ _⟩
  | @createCursor id plan size locatorId page source snapshotId identified unused =>
      refine ⟨fun _ _ h => ⟨h, rfl⟩, ?_⟩
      intro other cur hcur
      have hne : other ≠ locatorId := by
        intro heq
        rw [heq, unused] at hcur
        cases hcur
      simpa only [Function.update_of_ne hne] using hcur
  | _ => exact Grows.of_store_eq rfl rfl

theorem ServerStep.follows
    {service : Service} {s s' : ServerState} {a : ServerAction}
    (h : ServerStep service s a s') : Disk.Follows s.disk s'.disk := by
  cases h with
  | change spec op => exact op.follows spec service.ranking s.disk
  | _ => exact Disk.Follows.refl s.disk

section Kept

variable {service : Service} {s s' : ServerState} {locatorId : String}

theorem IndexBuilt.grow
    {plan : QueryPlan} {totalSize : Nat} {source : Disk} {rows : List Row}
    (h : IndexBuilt service s locatorId plan totalSize source rows) (hgrows : Grows s s') :
    IndexBuilt service s' locatorId plan totalSize source rows := by
  obtain ⟨hbuilt, hrows, htotal, hartifact⟩ := h
  obtain ⟨hbuilt', hsame⟩ := hgrows.builtFrom locatorId source hbuilt
  exact ⟨hbuilt', hrows, htotal, hsame.trans hartifact⟩

theorem CursorPinned.grow
    {cur : StoredCursor}
    (h : CursorPinned service s locatorId cur) (hgrows : Grows s s') :
    CursorPinned service s' locatorId cur := by
  obtain ⟨hpath, source, rows, hindex, hsnapshot⟩ := h
  exact ⟨hpath, source, rows, hindex.grow hgrows, hsnapshot⟩

theorem FirstPagePinned.grow
    {body : PageBody} {source : Disk}
    (h : FirstPagePinned service s locatorId body source) (hgrows : Grows s s') :
    FirstPagePinned service s' locatorId body source := by
  obtain ⟨cur, rows, hcur, hindex, hbody⟩ := h
  exact ⟨cur, rows, hgrows.cursors locatorId cur hcur, hindex.grow hgrows, hbody⟩

theorem PagePinned.grow
    {offset : Nat} {cur : StoredCursor} {body : PageBody} {source : Disk}
    (h : PagePinned service s locatorId offset cur body source) (hgrows : Grows s s') :
    PagePinned service s' locatorId offset cur body source := by
  obtain ⟨hcur, hsnapshot, built, builtRows, rows, hindex, hrows, hsame, hbody⟩ := h
  exact ⟨hgrows.cursors locatorId cur hcur, hsnapshot, built, builtRows, rows,
    hindex.grow hgrows, hrows, hsame, hbody⟩

end Kept

/-! ## The invariant of a run -/

/-- What holds of a request at each phase. -/
def RequestHolds (service : Service) (s : ServerState) : RequestPhase → Prop
  | .indexed plan size locatorId page source =>
      (∃ rows, IndexBuilt service s locatorId plan page.totalSize source rows ∧
        page.records = (window (plan.results service.queries rows) 0 size).map plan.record) ∧
      service.snapshotId s.disk = service.snapshotId source
  | .identified plan size locatorId page source snapshotId =>
      (∃ rows, IndexBuilt service s locatorId plan page.totalSize source rows ∧
        page.records = (window (plan.results service.queries rows) 0 size).map plan.record) ∧
      service.snapshotId source = .ok snapshotId
  | .firstPage body source (some locatorId) => FirstPagePinned service s locatorId body source
  | .loaded locatorId _ cur => s.store.cursors locatorId = some cur
  | .compared locatorId _ cur =>
      s.store.cursors locatorId = some cur ∧
      service.snapshotId s.disk = .ok cur.datasetSnapshotId
  | .checked locatorId _ cur =>
      s.store.cursors locatorId = some cur ∧
      service.snapshotId s.disk = .ok cur.datasetSnapshotId
  | .morePage locatorId offset cur body source =>
      PagePinned service s locatorId offset cur body source
  | _ => True

structure PinningInvariant (service : Service) (s : ServerState) : Prop where
  stamped : s.disk.Stamped
  trees : ∀ locatorId source, s.builtFrom locatorId = some source →
    source.Stamped ∧ Disk.Follows source s.disk
  cursors : ∀ locatorId cur, s.store.cursors locatorId = some cur →
    CursorPinned service s locatorId cur
  requests : ∀ id, RequestHolds service s (s.requests id)

/-- A request keeps what holds of it while others run, as long as the snapshot
id stays where it is in the request's window. -/
theorem RequestHolds.grow
    {service : Service} {s s' : ServerState} {phase : RequestPhase}
    (h : RequestHolds service s phase) (hgrows : Grows s s')
    (hsnapshot : phase.inWindow → service.snapshotId s'.disk = service.snapshotId s.disk) :
    RequestHolds service s' phase := by
  cases phase with
  | indexed plan size locatorId page source =>
      obtain ⟨⟨rows, hindex, hrecords⟩, hsame⟩ := h
      exact ⟨⟨rows, hindex.grow hgrows, hrecords⟩, (hsnapshot trivial).trans hsame⟩
  | identified plan size locatorId page source snapshotId =>
      obtain ⟨⟨rows, hindex, hrecords⟩, hid⟩ := h
      exact ⟨⟨rows, hindex.grow hgrows, hrecords⟩, hid⟩
  | firstPage body source cursor =>
      cases cursor with
      | none => trivial
      | some locatorId => exact FirstPagePinned.grow h hgrows
  | loaded locatorId offsetText cur => exact hgrows.cursors locatorId cur h
  | compared locatorId offsetText cur =>
      obtain ⟨hcur, hid⟩ := h
      exact ⟨hgrows.cursors locatorId cur hcur, (hsnapshot trivial).trans hid⟩
  | checked locatorId offset cur =>
      obtain ⟨hcur, hid⟩ := h
      exact ⟨hgrows.cursors locatorId cur hcur, (hsnapshot trivial).trans hid⟩
  | morePage locatorId offset cur body source => exact PagePinned.grow h hgrows
  | idle => trivial
  | pageStarted => trivial
  | moreStarted => trivial
  | refused => trivial

/-- A page that needs an index is the window at its offset, and its index lists
the whole result. -/
theorem executePageWithCursorIndex_some
    {E : QueryEngine} {rows : List Row} {plan : QueryPlan} {size offset : Nat}
    {page : QueryPage} {index : List IndexEntry}
    (h : executePageWithCursorIndex E rows plan size offset = (page, some index)) :
    page.totalSize = (plan.results E rows).length ∧
      page.records = (window (plan.results E rows) offset size).map plan.record ∧
      index = writeIndex plan (plan.results E rows) := by
  unfold executePageWithCursorIndex at h
  simp only at h
  split at h
  · cases h
  · cases h
    exact ⟨rfl, rfl, rfl⟩

section Step

variable {service : Service} {s s' : ServerState} {a : ServerAction}

/-- A tree is remembered for a locator when its index is built from it. -/
theorem ServerStep.tree_cases
    (hstep : ServerStep service s a s') {locatorId : String} {source : Disk}
    (h : s'.builtFrom locatorId = some source) :
    s.builtFrom locatorId = some source ∨ source = s.disk := by
  cases hstep with
  | @buildIndex id plan size built rows page index started fresh read executed =>
      by_cases heq : locatorId = built
      · subst heq
        simp only [Function.update_self] at h
        exact Or.inr (Option.some.inj h).symm
      · simp only [Function.update_of_ne heq] at h
        exact Or.inl h
  | _ => exact Or.inl h

/-- A new cursor belongs to a request that has read its snapshot id. -/
theorem ServerStep.cursor_cases
    (hstep : ServerStep service s a s') {locatorId : String} {cur : StoredCursor}
    (h : s'.store.cursors locatorId = some cur) :
    s.store.cursors locatorId = some cur ∨
      ∃ id page source,
        s.requests id = .identified cur.plan cur.batchSize locatorId page source
          cur.datasetSnapshotId ∧
        cur.totalSize = page.totalSize ∧ cur.resultArtifact = artifactPath locatorId := by
  cases hstep with
  | @createCursor id plan size created page source snapshotId identified unused =>
      by_cases heq : locatorId = created
      · subst heq
        simp only [Function.update_self] at h
        cases h
        exact Or.inr ⟨id, page, source, identified, rfl, rfl⟩
      · simp only [Function.update_of_ne heq] at h
        exact Or.inl h
  | _ => exact Or.inl h

/-- A step moves one request, or changes the tree and none. -/
theorem ServerStep.request_cases (hstep : ServerStep service s a s') :
    (∃ spec op, a = .change spec op ∧ s'.requests = s.requests ∧
      s'.disk = op.run spec service.ranking s.disk) ∨
    ∃ id phase, a = .request id ∧ s'.disk = s.disk ∧
      s'.requests = Function.update s.requests id phase := by
  cases hstep with
  | change spec op => exact Or.inl ⟨spec, op, rfl, rfl, rfl⟩
  | _ => exact Or.inr ⟨_, _, rfl, rfl, rfl⟩

/-- The request that takes a step reaches a phase that holds. -/
theorem PinningInvariant.request_step
    (h : PinningInvariant service s) {id : Nat}
    (hstep : ServerStep service s (.request id) s') :
    RequestHolds service s' (s'.requests id) := by
  have hgrows := hstep.grows
  have hbefore := h.requests id
  cases hstep with
  | startPage id plan size locatorId idle =>
      simp only [ServerState.setRequest, Function.update_self]
      trivial
  | @buildAll id plan size locatorId rows page started read executed =>
      simp only [ServerState.setRequest, Function.update_self]
      trivial
  | @buildIndex id plan size locatorId rows page index started fresh read executed =>
      obtain ⟨htotal, hrecords, rfl⟩ := executePageWithCursorIndex_some executed
      simp only [ServerState.setRequest, Function.update_self]
      refine ⟨⟨rows, ⟨?_, read, htotal, ?_⟩, hrecords⟩, rfl⟩
      · exact Function.update_self _ _ _
      · exact Function.update_self _ _ _
  | @readSnapshotId id plan size locatorId page source snapshotId indexed snapshot =>
      rw [indexed] at hbefore
      obtain ⟨⟨rows, hindex, hrecords⟩, hsame⟩ := hbefore
      simp only [ServerState.setRequest, Function.update_self]
      exact ⟨⟨rows, hindex.grow hgrows, hrecords⟩, hsame.symm.trans snapshot⟩
  | @createCursor id plan size locatorId page source snapshotId identified unused =>
      rw [identified] at hbefore
      obtain ⟨⟨rows, hindex, hrecords⟩, hid⟩ := hbefore
      have hindex' := hindex.grow hgrows
      simp only [ServerState.setRequest, Function.update_self]
      refine ⟨_, rows, Function.update_self _ _ _, hindex', ?_⟩
      obtain ⟨_, _, htotal, _⟩ := hindex
      simp only [windowBody, hrecords, htotal]
  | startMore id locator idle =>
      simp only [ServerState.setRequest, Function.update_self]
      trivial
  | @loadCursor id locator locatorId offsetText cur started parsed found =>
      simp only [ServerState.setRequest, Function.update_self]
      exact found
  | @compareSnapshots id locatorId offsetText cur loaded same =>
      rw [loaded] at hbefore
      simp only [ServerState.setRequest, Function.update_self]
      exact ⟨hbefore, same⟩
  | @checkArtifact id locatorId offsetText offset cur compared present read inside =>
      rw [compared] at hbefore
      simp only [ServerState.setRequest, Function.update_self]
      exact hbefore
  | @readPage id locatorId offset cur rows index checked read artifact =>
      rw [checked] at hbefore
      obtain ⟨hcur, hid⟩ := hbefore
      obtain ⟨hpath, built, builtRows, hindex, hbuiltId⟩ := h.cursors locatorId cur hcur
      have hindex' := hindex
      obtain ⟨hbuilt, hbuiltRows, _, hartifact⟩ := hindex'
      obtain ⟨hstamped, hfollows⟩ := h.trees locatorId built hbuilt
      simp only [ServerState.setRequest, Function.update_self]
      refine ⟨hcur, hid, built, builtRows, rows, hindex, read, ?_, ?_⟩
      · intro hinjective
        have hsame := Service.objectRows_eq_of_snapshotId hinjective hbuiltId hid hfollows
          hstamped cur.plan
        rw [read, hbuiltRows] at hsame
        exact Option.some.inj hsame
      · rw [hpath, hartifact] at artifact
        rw [← Option.some.inj artifact, readPageIds_writeIndex]
  | @refuseLocator id locator started unknown =>
      simp only [ServerState.setRequest, Function.update_self]
      trivial
  | @refuseSnapshot id locatorId offsetText cur loaded current snapshot moved =>
      simp only [ServerState.setRequest, Function.update_self]
      trivial
  | @refuseArtifact id locatorId offsetText cur compared bad =>
      simp only [ServerState.setRequest, Function.update_self]
      trivial
  | @failOffset id locatorId offsetText cur compared present unread =>
      simp only [ServerState.setRequest, Function.update_self]
      trivial

/-- One step that meets the condition keeps the invariant. -/
theorem PinningInvariant.step
    (h : PinningInvariant service s) (hstep : ServerStep service s a s')
    (hmeets : MeetsPinningCondition service s a) :
    PinningInvariant service s' := by
  have hgrows := hstep.grows
  have hfollows := hstep.follows
  refine ⟨hfollows.stamped h.stamped, ?_, ?_, ?_⟩
  · intro locatorId source hbuilt
    rcases hstep.tree_cases hbuilt with hold | hnew
    · obtain ⟨hstamped, hsource⟩ := h.trees locatorId source hold
      exact ⟨hstamped, hsource.trans hfollows⟩
    · rw [hnew]
      exact ⟨h.stamped, hfollows⟩
  · intro locatorId cur hcur
    rcases hstep.cursor_cases hcur with hold | ⟨id, page, source, hphase, htotal, hpath⟩
    · exact (h.cursors locatorId cur hold).grow hgrows
    · have hrequest := h.requests id
      rw [hphase] at hrequest
      obtain ⟨⟨rows, hindex, _⟩, hid⟩ := hrequest
      rw [← htotal] at hindex
      exact ⟨hpath, source, rows, hindex.grow hgrows, hid⟩
  · intro other
    rcases hstep.request_cases with ⟨spec, op, rfl, hrequests, hdisk⟩ |
        ⟨id, phase, rfl, hdisk, hrequests⟩
    · rw [hrequests]
      refine (h.requests other).grow hgrows ?_
      intro hwindow
      rw [hdisk]
      exact hmeets ⟨other, hwindow⟩
    · by_cases heq : other = id
      · rw [heq]
        exact h.request_step hstep
      · rw [hrequests, Function.update_of_ne heq]
        exact (h.requests other).grow hgrows (fun _ => by rw [hdisk])

end Step

/-! ## Runs -/

/-- No cursor yet, no request under way, no file from the future. -/
structure ServerState.Fresh (s : ServerState) : Prop where
  noCursor : ∀ locatorId, s.store.cursors locatorId = none
  noTree : ∀ locatorId, s.builtFrom locatorId = none
  idle : ∀ id, s.requests id = .idle
  stamped : s.disk.Stamped

/-- A step that meets the condition. -/
def PinningStep (service : Service) (s s' : ServerState) : Prop :=
  ∃ a, ServerStep service s a s' ∧ MeetsPinningCondition service s a

theorem PinningInvariant.of_run
    {service : Service} {start s : ServerState} (hfresh : start.Fresh)
    (hrun : Relation.ReflTransGen (PinningStep service) start s) :
    PinningInvariant service s := by
  induction hrun with
  | refl =>
      refine ⟨hfresh.stamped, ?_, ?_, ?_⟩
      · intro locatorId source hbuilt
        rw [hfresh.noTree locatorId] at hbuilt
        cases hbuilt
      · intro locatorId cur hcur
        rw [hfresh.noCursor locatorId] at hcur
        cases hcur
      · intro id
        rw [hfresh.idle id]
        trivial
  | tail _ hlast ih =>
      obtain ⟨a, hstep, hmeets⟩ := hlast
      exact ih.step hstep hmeets

/-- In every run whose changes leave the snapshot id alone while a request is
between its index and its snapshot id, or between its comparison and its read,
every cursor and every page served through one is pinned. -/
theorem pinned_of_run
    (service : Service) {start s : ServerState} (hfresh : start.Fresh)
    (hrun : Relation.ReflTransGen (PinningStep service) start s) :
    Pinned service s := by
  have h := PinningInvariant.of_run hfresh hrun
  refine ⟨h.cursors, ?_, ?_⟩
  · intro id body source locatorId hphase
    have hrequest := h.requests id
    rw [hphase] at hrequest
    exact hrequest
  · intro id locatorId offset cur body source hphase
    have hrequest := h.requests id
    rw [hphase] at hrequest
    exact hrequest

/-! ## A publication behind a first page -/

/-- A step of any run. -/
def AnyServerStep (service : Service) (s s' : ServerState) : Prop :=
  ∃ a, ServerStep service s a s'

/-- The requests before any cursor, over one tree. -/
def ServerState.start (disk : Disk) : ServerState :=
  ⟨disk, ⟨fun _ => none, fun _ => none⟩, fun _ => none, fun _ => .idle⟩

theorem ServerState.fresh_start {disk : Disk} (h : disk.Stamped) :
    (ServerState.start disk).Fresh :=
  ⟨fun _ => rfl, fun _ => rfl, fun _ => rfl, h⟩

/-- A query whose result does not fit into the page reaches its index. -/
theorem indexed_run
    (service : Service) (disk : Disk) (plan : QueryPlan) (size : Nat) (locatorId : String)
    {rows : List Row} (hrows : service.objectRows plan disk = some rows)
    (hmore : size < (plan.results service.queries rows).length) :
    ∃ s page, Relation.ReflTransGen (PinningStep service) (.start disk) s ∧
      s.requests 0 = .indexed plan size locatorId page disk ∧
      (∀ id, id ≠ 0 → s.requests id = .idle) ∧ s.disk = disk ∧
      s.builtFrom locatorId = some disk ∧ s.store.cursors locatorId = none := by
  have hexecuted : executePageWithCursorIndex service.queries rows plan size 0 =
      (⟨(plan.results service.queries rows).length,
        (window (plan.results service.queries rows) 0 size).map plan.record⟩,
        some (writeIndex plan (plan.results service.queries rows))) := by
    have hlength : ¬ 0 + ((window (plan.results service.queries rows) 0 size).map
        plan.record).length ≥ (plan.results service.queries rows).length := by
      rw [List.length_map, length_window]
      omega
    simp only [executePageWithCursorIndex, hlength, if_false]
  refine ⟨_, ⟨(plan.results service.queries rows).length,
      (window (plan.results service.queries rows) 0 size).map plan.record⟩,
    Relation.ReflTransGen.head ⟨_, .startPage 0 plan size locatorId rfl, trivial⟩
      (Relation.ReflTransGen.single
        ⟨_, .buildIndex (Function.update_self _ _ _) rfl hrows hexecuted, trivial⟩),
    ?_, ?_, rfl, ?_, rfl⟩
  · simp only [ServerState.setRequest, Function.update_self]
    rfl
  swap
  · simp only [Function.update_self]
    rfl
  intro id hid
  simp only [ServerState.setRequest, ServerState.start, Function.update_of_ne hid]

/-- A request with an index stores a cursor with the snapshot id of the tree it
finds. -/
theorem cursor_run
    (service : Service) {s : ServerState} {id : Nat} {plan : QueryPlan} {size : Nat}
    {locatorId : String} {page : QueryPage} {source : Disk} {snapshotId : String}
    (hindexed : s.requests id = .indexed plan size locatorId page source)
    (hunused : s.store.cursors locatorId = none)
    (hsnapshot : service.snapshotId s.disk = .ok snapshotId) :
    ∃ s' cur, Relation.ReflTransGen (PinningStep service) s s' ∧
      s'.disk = s.disk ∧ s'.builtFrom = s.builtFrom ∧
      s'.store.cursors locatorId = some cur ∧ cur.datasetSnapshotId = snapshotId ∧
      ∀ other, (s'.requests other).inWindow → other ≠ id ∧ (s.requests other).inWindow := by
  refine ⟨_, _, Relation.ReflTransGen.head
    ⟨_, .readSnapshotId hindexed hsnapshot, trivial⟩
    (Relation.ReflTransGen.single
      ⟨_, .createCursor (Function.update_self _ _ _) hunused, trivial⟩),
    rfl, rfl, Function.update_self _ _ _, rfl, ?_⟩
  intro other hwindow
  by_cases heq : other = id
  · subst heq
    simp only [ServerState.setRequest, Function.update_self] at hwindow
    exact hwindow.elim
  · simp only [ServerState.setRequest, Function.update_of_ne heq] at hwindow
    exact ⟨heq, hwindow⟩

/-- The publication of the next day. -/
def nextDay : TreeOp :=
  .publish (opportunityPartition "2026-07-25")
    [opportunityRow "006a" "Negotiation" "2026-07-25T08:00:00Z"]

theorem exists_rows_twoOpportunities :
    ∃ rows, opportunityService.objectRows opportunityQuery twoOpportunities = some rows ∧
      1 < (opportunityQuery.results .stable rows).length := by
  have hlength : (opportunityService.objectRows opportunityQuery twoOpportunities).map
      (fun rows => (opportunityQuery.results .stable rows).length) = some 2 := by
    decide +kernel
  obtain ⟨rows, hrows, htwo⟩ := Option.map_eq_some_iff.mp hlength
  exact ⟨rows, hrows, by omega⟩

theorem stamped_seededDisk (seed : List Row) : (seededDisk seed).Stamped := by
  have hempty : (⟨∅, ∅, 0⟩ : Disk).Stamped := by
    intro path f hlookup
    cases hlookup
  exact ((Disk.follows_mkdirs _ _).trans
    ((Disk.follows_mkdirs _ _).trans (Disk.follows_replace _ _ _))).stamped hempty

theorem snapshotId_twoOpportunities :
    opportunityService.snapshotId twoOpportunities =
      .ok "/app/seed/crm_opportunities.parquet@4" := by
  decide +kernel

/-- A publication after the cursor is stored: the cursor stays pinned to the
snapshot before it. -/
theorem pinned_of_later_publication :
    ∃ s, (∃ cur, s.store.cursors "0011223344556677" = some cur) ∧
      s.disk = nextDay.run deployedOpportunity firstInScanEngine twoOpportunities ∧
      Pinned opportunityService s := by
  obtain ⟨rows, hrows, hmore⟩ := exists_rows_twoOpportunities
  obtain ⟨s, page, hrun, hindexed, hidle, hdisk, _, hunused⟩ :=
    indexed_run opportunityService twoOpportunities opportunityQuery 1 "0011223344556677"
      hrows hmore
  obtain ⟨s', cur, hrun', hdisk', _, hcur, _, hwindow⟩ :=
    cursor_run opportunityService hindexed hunused
      (by rw [hdisk]; exact snapshotId_twoOpportunities)
  have hchange : PinningStep opportunityService s'
      { s' with disk := nextDay.run deployedOpportunity firstInScanEngine s'.disk } := by
    refine ⟨_, .change deployedOpportunity nextDay, ?_⟩
    rintro ⟨other, hother⟩
    obtain ⟨hne, hin⟩ := hwindow other hother
    rw [hidle other hne] at hin
    exact hin.elim
  refine ⟨{ s' with disk := nextDay.run deployedOpportunity firstInScanEngine s'.disk },
    ⟨cur, hcur⟩, ?_, pinned_of_run opportunityService
    (ServerState.fresh_start (stamped_seededDisk _)) ((hrun.trans hrun').tail hchange)⟩
  simp only [hdisk', hdisk]

/-- A publication between the index and the snapshot id: the cursor carries the
id of a snapshot its index did not come from. -/
theorem cursor_of_another_snapshot :
    ¬ ∀ (service : Service) (start s : ServerState), start.Fresh →
      Relation.ReflTransGen (AnyServerStep service) start s → Pinned service s := by
  intro hall
  obtain ⟨rows, hrows, hmore⟩ := exists_rows_twoOpportunities
  obtain ⟨s, page, hrun, hindexed, _, hdisk, hbuilt, hunused⟩ :=
    indexed_run opportunityService twoOpportunities opportunityQuery 1 "0011223344556677"
      hrows hmore
  have hlater : opportunityService.snapshotId
      (nextDay.run deployedOpportunity firstInScanEngine s.disk) =
        .ok ("/app/seed/crm_opportunities.parquet@4/app/state/simulation/crm/opportunities" ++
          "/business_date=2026-07-25/delta.parquet@9") := by
    rw [hdisk]
    decide +kernel
  obtain ⟨s', cur, hrun', _, hbuilt', hcur, hid, _⟩ :=
    cursor_run opportunityService (s := { s with
      disk := nextDay.run deployedOpportunity firstInScanEngine s.disk })
      hindexed hunused hlater
  have hany : ∀ s s', PinningStep opportunityService s s' → AnyServerStep opportunityService s s' :=
    fun s s' hstep => hstep.imp (fun _ h => h.1)
  have hwhole := ((Relation.ReflTransGen.mono hany _ _ hrun).tail
    ⟨_, .change deployedOpportunity nextDay⟩).trans (Relation.ReflTransGen.mono hany _ _ hrun')
  have hpinned := hall opportunityService _ s'
    (ServerState.fresh_start (stamped_seededDisk _)) hwhole
  obtain ⟨_, source, _, ⟨hsource, _⟩, hsnapshot⟩ := hpinned.cursors _ cur hcur
  have hdisks : source = twoOpportunities := by
    rw [hbuilt'] at hsource
    exact (Option.some.inj (hbuilt.symm.trans hsource)).symm
  rw [hdisks, hid, snapshotId_twoOpportunities] at hsnapshot
  revert hsnapshot
  decide

end FakeForce
end Northwind
