import Northwind.FakeForce.CursorArtifacts

/-!
# Runs of the server that writes cursor indexes

Every step of a request touches the rows and files of its own locator only, and
a start-up removes nothing that is live at its end.  From these two facts come
the invariant of a run and what it takes from no live cursor.
-/

namespace Northwind
namespace FakeForce

open CrashPrograms CrashPrograms.Program

/-! ## What holds of a request and of the whole -/

/-- What the store holds of a request. -/
def IndexRequest.Holds (store : CursorStore) : IndexRequest → Prop
  | .idle => True
  | .writing locatorId cursor _ stage =>
      cursor.resultArtifact = artifactPath locatorId ∧
      (∀ row ∈ store.rows, row.locatorId ≠ locatorId) ∧
      (∀ entries, stage = .copied entries → (locatorId, some entries) ∈ store.temporaries) ∧
      ∀ entries, stage = .published entries →
        (artifactPath locatorId, some entries) ∈ store.indexes
  | .answered row entries =>
      row ∈ store.rows ∧ (row.cursor.resultArtifact, some entries) ∈ store.indexes
  | .ended _ => True

/-- A file or a row is named by the locator of a request. -/
def CursorServer.Draws (s : CursorServer) (locatorId : String) : Prop :=
  ∃ id, (s.requests id).locator = some locatorId

structure CursorInvariant (s : CursorServer) : Prop where
  wellFormed : s.store.WellFormed
  complete : ∀ file ∈ s.store.indexes, file.2.isSome = true
  live : ∀ row ∈ s.store.rows, s.now < row.expiresAt →
    ∃ entries, (row.cursor.resultArtifact, some entries) ∈ s.store.indexes
  locators : ∀ id id' locatorId, (s.requests id).locator = some locatorId →
    (s.requests id').locator = some locatorId → id = id'
  requests : ∀ id, (s.requests id).Holds s.store
  stopped : s.serving = false → ∀ id, s.requests id = .idle
  indexes : s.serving = true → ∀ file ∈ s.store.indexes,
    (∃ row ∈ s.store.rows, row.cursor.resultArtifact = file.1) ∨
      ∃ locatorId, s.Draws locatorId ∧ artifactPath locatorId = file.1
  temporaries : s.serving = true → ∀ file ∈ s.store.temporaries, s.Draws file.1

/-- No row that is live in the second state, nor its index, has been lost. -/
structure CursorServer.Kept (s s' : CursorServer) : Prop where
  now : s.now ≤ s'.now
  rows : ∀ row ∈ s.store.rows, s'.now < row.expiresAt → row ∈ s'.store.rows
  indexes : ∀ row ∈ s.store.rows, s'.now < row.expiresAt → ∀ file ∈ s.store.indexes,
    file.1 = row.cursor.resultArtifact → file ∈ s'.store.indexes

theorem CursorServer.Kept.refl (s : CursorServer) : s.Kept s where
  now := Nat.le_refl _
  rows _ hrow _ := hrow
  indexes _ _ _ _ hfile _ := hfile

theorem CursorServer.Kept.trans
    {s t u : CursorServer} (hst : s.Kept t) (htu : t.Kept u) : s.Kept u where
  now := Nat.le_trans hst.now htu.now
  rows row hrow hlive :=
    htu.rows row (hst.rows row hrow (Nat.lt_of_le_of_lt htu.now hlive)) hlive
  indexes row hrow hlive file hfile hname :=
    have hlive' := Nat.lt_of_le_of_lt htu.now hlive
    htu.indexes row (hst.rows row hrow hlive') hlive file
      (hst.indexes row hrow hlive' file hfile hname) hname

theorem CursorServer.requests_setRequest (s : CursorServer) (id : Nat) (request : IndexRequest) :
    (s.setRequest id request).requests id = request :=
  Function.update_self ..

/-! ## A step of one request -/

section RequestStep

variable {s : CursorServer} {id : Nat} {locatorId : String} {store : CursorStore}

/-- What holds of a request is not touched under another locator. -/
theorem IndexRequest.Holds.touches
    {request : IndexRequest} (h : request.Holds s.store) (hs : s.store.WellFormed)
    (htouches : s.store.TouchesOnly locatorId store)
    (hother : request.locator ≠ some locatorId) : request.Holds store := by
  cases request with
  | idle => trivial
  | ended => trivial
  | writing other cursor waiting stage =>
      have hne : other ≠ locatorId := fun heq => hother (congrArg some heq)
      have hpath : artifactPath other ≠ artifactPath locatorId :=
        fun heq => hne (artifactPath_injective heq)
      obtain ⟨hartifact, hrows, hcopied, hpublished⟩ := h
      refine ⟨hartifact, ?_, ?_, ?_⟩
      · intro row hrow heq
        have hrow' := (htouches.rows row (by rwa [heq])).mp hrow
        exact hrows row hrow' heq
      · exact fun entries hstage => (htouches.temporaries _ hne).mpr (hcopied entries hstage)
      · exact fun entries hstage => (htouches.indexes _ hpath).mpr (hpublished entries hstage)
  | answered row entries =>
      have hne : row.locatorId ≠ locatorId := fun heq => hother (congrArg some heq)
      obtain ⟨hrow, hindex⟩ := h
      have hpath : row.cursor.resultArtifact ≠ artifactPath locatorId := by
        rw [hs.artifacts row hrow]
        exact fun heq => hne (artifactPath_injective heq)
      exact ⟨(htouches.rows row hne).mpr hrow, (htouches.indexes _ hpath).mpr hindex⟩

theorem CursorServer.draws_setRequest
    {request : IndexRequest} {other : String} (hrequest : request.locator = some locatorId)
    (hlocator : (s.requests id).locator = some locatorId) (h : s.Draws other) :
    ((s.setStore store).setRequest id request).Draws other := by
  obtain ⟨id', hid'⟩ := h
  refine ⟨id', ?_⟩
  by_cases heq : id' = id
  · rw [heq, hlocator] at hid'
    simp only [CursorServer.setRequest, heq, Function.update_self, hrequest, hid']
  · simpa only [CursorServer.setRequest, CursorServer.setStore, Function.update_of_ne heq]
      using hid'

/-- The step of a request that has drawn a locator and stored no row for it. -/
theorem CursorInvariant.requestStep
    (hs : CursorInvariant s) {request : IndexRequest}
    (hlocator : (s.requests id).locator = some locatorId)
    (hrequest : request.locator = some locatorId)
    (hnew : ∀ row ∈ s.store.rows, row.locatorId ≠ locatorId)
    (hstore : store.WellFormed) (htouches : s.store.TouchesOnly locatorId store)
    (hholds : request.Holds store)
    (hcomplete : ∀ file ∈ store.indexes, file.1 = artifactPath locatorId →
      file.2.isSome = true)
    (hlive : ∀ row ∈ store.rows, row.locatorId = locatorId →
      ∃ entries, (row.cursor.resultArtifact, some entries) ∈ store.indexes) :
    CursorInvariant ((s.setStore store).setRequest id request) ∧
      s.Kept ((s.setStore store).setRequest id request) := by
  have hserving : s.serving = true := by
    cases h : s.serving with
    | true => rfl
    | false =>
        rw [hs.stopped h id] at hlocator
        cases hlocator
  have hpath : ∀ row ∈ s.store.rows, row.cursor.resultArtifact ≠ artifactPath locatorId := by
    intro row hrow heq
    rw [hs.wellFormed.artifacts row hrow] at heq
    exact hnew row hrow (artifactPath_injective heq)
  have hself : ((s.setStore store).setRequest id request).requests id = request :=
    CursorServer.requests_setRequest ..
  have hothers : ∀ id', id' ≠ id →
      ((s.setStore store).setRequest id request).requests id' = s.requests id' :=
    fun id' hne => Function.update_of_ne hne ..
  have hdraws : ((s.setStore store).setRequest id request).Draws locatorId :=
    ⟨id, by rw [hself, hrequest]⟩
  have hlocators : ∀ id', (((s.setStore store).setRequest id request).requests id').locator =
      (s.requests id').locator := by
    intro id'
    by_cases heq : id' = id
    · rw [heq, hself, hrequest, hlocator]
    · rw [hothers id' heq]
  constructor
  · constructor
    · exact hstore
    · intro file hfile
      by_cases hname : file.1 = artifactPath locatorId
      · exact hcomplete file hfile hname
      · exact hs.complete file ((htouches.indexes file hname).mp hfile)
    · intro row hrow hnow
      by_cases heq : row.locatorId = locatorId
      · exact hlive row hrow heq
      · have hrow' := (htouches.rows row heq).mp hrow
        obtain ⟨entries, hindex⟩ := hs.live row hrow' hnow
        exact ⟨entries, (htouches.indexes _ (hpath row hrow')).mpr hindex⟩
    · intro id₁ id₂ other h₁ h₂
      rw [hlocators] at h₁ h₂
      exact hs.locators id₁ id₂ other h₁ h₂
    · intro id'
      by_cases heq : id' = id
      · rw [heq, hself]
        exact hholds
      · rw [hothers id' heq]
        refine (hs.requests id').touches hs.wellFormed htouches ?_
        intro hsame
        exact heq (hs.locators id' id locatorId hsame hlocator)
    · intro hfalse
      exact Bool.noConfusion (hserving.symm.trans hfalse)
    · intro _ file hfile
      by_cases hname : file.1 = artifactPath locatorId
      · exact .inr ⟨locatorId, hdraws, hname.symm⟩
      · obtain ⟨row, hrow, heq⟩ | ⟨other, hother, heq⟩ :=
          hs.indexes hserving file ((htouches.indexes file hname).mp hfile)
        · exact .inl ⟨row, (htouches.rows row (hnew row hrow)).mpr hrow, heq⟩
        · exact .inr ⟨other, s.draws_setRequest hrequest hlocator hother, heq⟩
    · intro _ file hfile
      by_cases hname : file.1 = locatorId
      · rw [hname]
        exact hdraws
      · exact s.draws_setRequest hrequest hlocator
          (hs.temporaries hserving file ((htouches.temporaries file hname).mp hfile))
  · constructor
    · exact Nat.le_refl _
    · exact fun row hrow _ => (htouches.rows row (hnew row hrow)).mpr hrow
    · intro row hrow _ file hfile hname
      refine (htouches.indexes file ?_).mpr hfile
      rw [hname]
      exact hpath row hrow

end RequestStep

/-! ## The steps -/

namespace CursorInvariant

variable {s : CursorServer}

theorem wait (hs : CursorInvariant s) (time : Nat) :
    CursorInvariant { s with now := s.now + time } :=
  { hs with
    live := fun row hrow hlive =>
      hs.live row hrow (Nat.lt_of_le_of_lt (Nat.le_add_right _ _) hlive)
    requests := hs.requests
    indexes := hs.indexes
    temporaries := hs.temporaries }

theorem call (hs : CursorInvariant s) {id : Nat} {locatorId : String} {cursor : StoredCursor}
    (hserving : s.serving = true) (hidle : s.requests id = .idle) (hfresh : s.Fresh locatorId)
    (hartifact : cursor.resultArtifact = artifactPath locatorId) :
    CursorInvariant (s.setRequest id (.writing locatorId cursor true .called)) := by
  obtain ⟨hrows, hindexes, htemporaries, hrequests⟩ := hfresh
  let s' := s.setRequest id (.writing locatorId cursor true .called)
  have hself : s'.requests id = .writing locatorId cursor true .called :=
    CursorServer.requests_setRequest ..
  have hothers : ∀ id', id' ≠ id → s'.requests id' = s.requests id' :=
    fun id' hne => Function.update_of_ne hne ..
  have hdraws : ∀ other, s.Draws other → s'.Draws other := by
    rintro other ⟨id', hid'⟩
    have hne : id' ≠ id := by
      rintro rfl
      rw [hidle] at hid'
      cases hid'
    exact ⟨id', by rwa [hothers id' hne]⟩
  exact
    { hs with
      locators := by
        intro id₁ id₂ other h₁ h₂
        by_cases heq₁ : id₁ = id <;> by_cases heq₂ : id₂ = id
        · rw [heq₁, heq₂]
        · rw [heq₁, hself] at h₁
          rw [hothers id₂ heq₂, ← h₁] at h₂
          exact absurd h₂ (hrequests id₂)
        · rw [heq₂, hself] at h₂
          rw [hothers id₁ heq₁, ← h₂] at h₁
          exact absurd h₁ (hrequests id₁)
        · rw [hothers id₁ heq₁] at h₁
          rw [hothers id₂ heq₂] at h₂
          exact hs.locators id₁ id₂ other h₁ h₂
      requests := by
        intro id'
        by_cases heq : id' = id
        · rw [heq, hself]
          refine ⟨hartifact, hrows, ?_, ?_⟩
          · intro _ h
            cases h
          · intro _ h
            cases h
        · rw [hothers id' heq]
          exact hs.requests id'
      stopped := fun hfalse => Bool.noConfusion (hserving.symm.trans hfalse)
      indexes := by
        intro _ file hfile
        obtain h | ⟨other, hother, heq⟩ := hs.indexes hserving file hfile
        · exact .inl h
        · exact .inr ⟨other, hdraws other hother, heq⟩
      temporaries := fun _ file hfile => hdraws _ (hs.temporaries hserving file hfile) }

/-- What holds of the whole while a request writes, for its next step. -/
theorem of_writing (hs : CursorInvariant s) {id : Nat} {locatorId : String}
    {cursor : StoredCursor} {waiting : Bool} {stage : WriteStage}
    (hwriting : s.requests id = .writing locatorId cursor waiting stage) :
    (s.requests id).locator = some locatorId ∧
      IndexRequest.Holds s.store (.writing locatorId cursor waiting stage) := by
  refine ⟨by rw [hwriting, IndexRequest.locator], ?_⟩
  rw [← hwriting]
  exact hs.requests id

/-- A step of a worker that stores no row. -/
theorem workerStep (hs : CursorInvariant s) {id : Nat} {locatorId : String}
    {cursor : StoredCursor} {waiting : Bool} {stage : WriteStage} {request : IndexRequest}
    {store : CursorStore}
    (hwriting : s.requests id = .writing locatorId cursor waiting stage)
    (hrequest : request.locator = some locatorId)
    (hrows : store.rows = s.store.rows) (hstore : store.WellFormed)
    (htouches : s.store.TouchesOnly locatorId store) (hholds : request.Holds store)
    (hcomplete : ∀ file ∈ store.indexes, file.1 = artifactPath locatorId →
      file.2.isSome = true) :
    CursorInvariant ((s.setStore store).setRequest id request) ∧
      s.Kept ((s.setStore store).setRequest id request) := by
  obtain ⟨hlocator, hhere⟩ := hs.of_writing hwriting
  refine hs.requestStep hlocator hrequest hhere.2.1 hstore htouches hholds hcomplete ?_
  intro row hrow heq
  rw [hrows] at hrow
  exact absurd heq (hhere.2.1 row hrow)

theorem answer (hs : CursorInvariant s) {id : Nat} {locatorId : String} {cursor : StoredCursor}
    {entries : List IndexEntry} {store : CursorStore}
    (hpublished : s.requests id = .writing locatorId cursor true (.published entries))
    (hstored : s.store.createCursor (s.rowOf locatorId cursor) = some store) :
    CursorInvariant ((s.setStore store).setRequest id
        (.answered (s.rowOf locatorId cursor) entries)) ∧
      s.Kept ((s.setStore store).setRequest id
        (.answered (s.rowOf locatorId cursor) entries)) := by
  obtain ⟨hlocator, hartifact, hnew, _, hindex⟩ := hs.of_writing hpublished
  obtain ⟨_, rfl⟩ := CursorStore.createCursor_eq hstored
  have hindex' : ((s.rowOf locatorId cursor).cursor.resultArtifact, some entries) ∈
      s.store.indexes := by
    have hpath : (s.rowOf locatorId cursor).cursor.resultArtifact = artifactPath locatorId :=
      hartifact
    rw [hpath]
    exact hindex entries rfl
  have hmem : ∀ row, row ∈ s.store.rows ++ [s.rowOf locatorId cursor] →
      row ∈ s.store.rows ∨ row = s.rowOf locatorId cursor := by
    intro row hrow
    rwa [List.mem_append, List.mem_singleton] at hrow
  refine hs.requestStep hlocator rfl hnew ?_ ?_ ⟨?_, hindex'⟩ ?_ ?_
  · refine
      { hs.wellFormed with
        locators := ?_
        artifacts := ?_
        opened := ?_ }
    · rw [List.map_append, List.map_singleton, List.nodup_append]
      refine ⟨hs.wellFormed.locators, List.nodup_singleton _, ?_⟩
      intro other hother other' hother' heq
      obtain ⟨row, hrow, rfl⟩ := List.mem_map.mp hother
      rw [List.mem_singleton.mp hother'] at heq
      exact hnew row hrow heq
    · intro row hrow
      obtain h | rfl := hmem row hrow
      · exact hs.wellFormed.artifacts row h
      · exact hartifact
    · intro row hrow
      obtain h | rfl := hmem row hrow
      · exact hs.wellFormed.opened row h
      · rfl
  · refine ⟨?_, fun _ _ => Iff.rfl, fun _ _ => Iff.rfl⟩
    intro row hne
    constructor
    · intro hrow
      obtain h | rfl := hmem row hrow
      · exact h
      · exact absurd rfl hne
    · exact fun h => List.mem_append_left _ h
  · exact List.mem_append_right _ (List.mem_singleton_self _)
  · exact fun file hfile _ => hs.complete file hfile
  · intro row hrow heq
    obtain h | rfl := hmem row hrow
    · exact absurd heq (hnew row h)
    · exact ⟨entries, hindex'⟩

/-- Nobody is served by the process any more. -/
theorem crash (hs : CursorInvariant s) :
    CursorInvariant { s with serving := false, requests := fun _ => .idle } :=
  { hs with
    locators := fun _ _ _ h _ => by cases h
    requests := fun _ => trivial
    stopped := fun _ _ => rfl
    indexes := fun h => by cases h
    temporaries := fun h => by cases h }

/-- What a start-up keeps, wherever it is killed. -/
theorem cleaned (hs : CursorInvariant s) (hstopped : s.serving = false) {readAt : Nat}
    {store : CursorStore} (hread : s.now ≤ readAt) (hcleaned : s.store.Cleaned readAt store) :
    CursorInvariant { s with now := readAt, store := store } ∧
      s.Kept { s with now := readAt, store := store } := by
  have hlive : ∀ row ∈ store.rows, readAt < row.expiresAt →
      ∃ entries, (row.cursor.resultArtifact, some entries) ∈ store.indexes := by
    intro row hrow hlive
    have hrow' := hcleaned.rows.subset hrow
    obtain ⟨entries, hindex⟩ := hs.live row hrow' (Nat.lt_of_le_of_lt hread hlive)
    exact ⟨entries, hcleaned.liveIndexes row hrow' hlive _ hindex rfl⟩
  have hidle : ∀ id, s.requests id = .idle := hs.stopped hstopped
  refine ⟨?_, hread, hcleaned.liveRows, hcleaned.liveIndexes⟩
  exact
    { wellFormed := hcleaned.wellFormed hs.wellFormed
      complete := fun file hfile => hs.complete file (hcleaned.indexes.subset hfile)
      live := hlive
      locators := hs.locators
      requests := fun id => by
        show (s.requests id).Holds store
        rw [hidle id]
        trivial
      stopped := hs.stopped
      indexes := fun h => Bool.noConfusion (h.symm.trans hstopped)
      temporaries := fun h => Bool.noConfusion (h.symm.trans hstopped) }

/-- A start-up that comes to its end serves again. -/
theorem recovered (hs : CursorInvariant s) {deletedAt readAt : Nat} {store : CursorStore}
    (hread : s.now ≤ readAt) (hrecovered : Recovered deletedAt readAt s.store store) :
    CursorInvariant
      { now := readAt, store := store, serving := true, requests := fun _ => .idle } := by
  have hcleaned := (hs.crash.cleaned rfl hread hrecovered.cleaned).1
  exact
    { wellFormed := hcleaned.wellFormed
      complete := hcleaned.complete
      live := hcleaned.live
      locators := fun _ _ _ h _ => by cases h
      requests := fun _ => trivial
      stopped := fun h => by cases h
      indexes := by
        intro _ file hfile
        obtain ⟨row, hrow, _, hpath⟩ :=
          CursorStore.mem_activeCursorArtifacts.mp (hrecovered.indexes file hfile)
        exact .inl ⟨row, hrow, hpath⟩
      temporaries := by
        intro _ file hfile
        have hnone : file ∈ ([] : List (String × Option (List IndexEntry))) :=
          hrecovered.temporaries ▸ hfile
        cases hnone }

/-- Every step keeps the invariant and takes nothing from a live cursor. -/
theorem step (hs : CursorInvariant s) {s' : CursorServer} (h : CursorStep s s') :
    CursorInvariant s' ∧ s.Kept s' := by
  cases h with
  | wait time =>
      refine ⟨hs.wait time, Nat.le_add_right _ _, fun _ h _ => h, fun _ _ _ _ h _ => h⟩
  | call locatorId cursor serving idle fresh artifact =>
      refine ⟨hs.call serving idle fresh artifact, Nat.le_refl _, fun _ h _ => h,
        fun _ _ _ _ h _ => h⟩
  | @create id locatorId cursor waiting called =>
      obtain ⟨_, hartifact, hrows, _⟩ := hs.of_writing called
      refine hs.workerStep called rfl rfl hs.wellFormed.writeTemporary
        CursorStore.touchesOnly_writeTemporary ⟨hartifact, hrows, ?_, ?_⟩
        (fun file hfile _ => hs.complete file hfile)
      · intro _ h
        cases h
      · intro _ h
        cases h
  | @clear id locatorId cursor waiting created =>
      obtain ⟨_, hartifact, hrows, _⟩ := hs.of_writing created
      refine hs.workerStep created rfl rfl hs.wellFormed.unlinkTemporary
        CursorStore.touchesOnly_unlinkTemporary ⟨hartifact, hrows, ?_, ?_⟩
        (fun file hfile _ => hs.complete file hfile)
      · intro _ h
        cases h
      · intro _ h
        cases h
  | @copy id locatorId cursor waiting cleared =>
      obtain ⟨_, hartifact, hrows, _⟩ := hs.of_writing cleared
      refine hs.workerStep cleared rfl rfl hs.wellFormed.writeTemporary
        CursorStore.touchesOnly_writeTemporary ⟨hartifact, hrows, ?_, ?_⟩
        (fun file hfile _ => hs.complete file hfile)
      · intro _ h
        cases h
      · intro _ h
        cases h
  | @finish id locatorId cursor waiting entries copying =>
      obtain ⟨_, hartifact, hrows, _⟩ := hs.of_writing copying
      refine hs.workerStep copying rfl rfl hs.wellFormed.writeTemporary
        CursorStore.touchesOnly_writeTemporary ⟨hartifact, hrows, ?_, ?_⟩
        (fun file hfile _ => hs.complete file hfile)
      · rintro _ ⟨⟩
        exact List.mem_cons_self
      · intro _ h
        cases h
  | @publish id locatorId cursor waiting entries content copied temporary =>
      obtain ⟨_, hartifact, hrows, hcopied, _⟩ := hs.of_writing copied
      -- What is moved is what the query wrote to its end.
      have hcontent : content = some entries := by
        have heq := CursorStore.eq_of_mem_of_name hs.wellFormed.temporaries temporary
          (hcopied entries rfl) rfl
        exact congrArg Prod.snd heq
      subst hcontent
      refine hs.workerStep copied rfl rfl hs.wellFormed.publishTempFile
        CursorStore.touchesOnly_publishTempFile ⟨hartifact, hrows, ?_, ?_⟩ ?_
      · intro _ h
        cases h
      · rintro _ ⟨⟩
        exact List.mem_cons_self
      · intro file hfile hname
        obtain rfl | h := List.mem_cons.mp hfile
        · rfl
        · exact absurd hname (CursorStore.mem_filter_name.mp h).2
  | @timeOut id locatorId cursor stage waits =>
      obtain ⟨_, hhere⟩ := hs.of_writing waits
      exact hs.workerStep waits rfl rfl hs.wellFormed
        (CursorStore.TouchesOnly.refl _ _) hhere (fun file hfile _ => hs.complete file hfile)
  | @fail id locatorId cursor waiting stage writing unpublished =>
      exact hs.workerStep writing rfl rfl hs.wellFormed.unlinkTemporary
        CursorStore.touchesOnly_unlinkTemporary trivial
        (fun file hfile _ => hs.complete file hfile)
  | @failClear id locatorId cursor waiting created =>
      exact hs.workerStep created rfl rfl hs.wellFormed
        (CursorStore.TouchesOnly.refl _ _) trivial (fun file hfile _ => hs.complete file hfile)
  | answer published stored => exact hs.answer published stored
  | @abandon id locatorId cursor waiting entries published =>
      exact hs.workerStep published rfl rfl hs.wellFormed
        (CursorStore.TouchesOnly.refl _ _) trivial (fun file hfile _ => hs.complete file hfile)
  | crash => exact ⟨hs.crash, Nat.le_refl _, fun _ h _ => h, fun _ _ _ _ h _ => h⟩
  | @interrupted selectedAt deletedAt readAt store stopped selected deleted wasRead leaves =>
      have hmeets : (recoverCursorArtifacts selectedAt deletedAt readAt).Meets
          (s.store.Cleaned readAt) (fun _ => s.store.Cleaned readAt)
          (fun _ => s.store.Cleaned readAt) s.store :=
        (meets_recoverCursorArtifacts hs.wellFormed deleted wasRead).mono
          (fun _ h => h) (fun _ _ h => h.cleaned) (fun _ _ h => h.elim)
      exact hs.cleaned stopped (selected.trans (deleted.trans wasRead)) (hmeets.leaves leaves)
  | @restart selectedAt deletedAt readAt stopped selected deleted wasRead =>
      obtain ⟨_, _, hrecovered⟩ :=
        (meets_recoverCursorArtifacts hs.wellFormed deleted wasRead).ok
      have hread := selected.trans (deleted.trans wasRead)
      exact ⟨hs.recovered hread hrecovered, hread, hrecovered.cleaned.liveRows,
        hrecovered.cleaned.liveIndexes⟩

theorem start : CursorInvariant CursorServer.start where
  wellFormed :=
    { locators := List.nodup_nil
      artifacts := fun _ h => absurd h List.not_mem_nil
      opened := fun _ h => absurd h List.not_mem_nil
      paths := List.nodup_nil
      temporaries := List.nodup_nil }
  complete _ h := absurd h List.not_mem_nil
  live _ h := absurd h List.not_mem_nil
  locators _ _ _ h _ := by cases h
  requests _ := trivial
  stopped _ _ := rfl
  indexes h := by cases h
  temporaries h := by cases h

/-- The invariant holds along a run, and the run takes nothing from a live cursor. -/
theorem run (hs : CursorInvariant s) {s' : CursorServer}
    (hrun : Relation.ReflTransGen CursorStep s s') : CursorInvariant s' ∧ s.Kept s' := by
  induction hrun with
  | refl => exact ⟨hs, CursorServer.Kept.refl s⟩
  | tail _ hstep ih =>
      obtain ⟨hinvariant, hkept⟩ := ih
      obtain ⟨hinvariant', hkept'⟩ := hinvariant.step hstep
      exact ⟨hinvariant', hkept.trans hkept'⟩

end CursorInvariant

/-! ## What a client and an operator may rely on -/

/-- A locator that `_page` has handed out is served for two days, with the very
index the request's worker wrote, across whatever follows: other requests, errors,
crashes and start-ups killed anywhere. -/
theorem cursor_kept
    {s s' : CursorServer} {id : Nat} {locatorId : String} {cursor : StoredCursor}
    {entries : List IndexEntry} {store : CursorStore}
    (hrun : Relation.ReflTransGen CursorStep CursorServer.start s)
    (hpublished : s.requests id = .writing locatorId cursor true (.published entries))
    (hstored : s.store.createCursor (s.rowOf locatorId cursor) = some store)
    (hafter : Relation.ReflTransGen CursorStep
      ((s.setStore store).setRequest id (.answered (s.rowOf locatorId cursor) entries)) s')
    (hlive : s'.now < s.now + cursorLifetime) :
    s'.store.getCursor s'.now locatorId = some cursor ∧
      s'.store.readIndex cursor.resultArtifact = some entries := by
  have hs := (CursorInvariant.start.run hrun).1
  have hanswered := (hs.answer hpublished hstored).1
  obtain ⟨hs', hkept⟩ := hanswered.run hafter
  have hholds := hanswered.requests id
  rw [CursorServer.requests_setRequest] at hholds
  obtain ⟨hrow, hindex⟩ := hholds
  constructor
  · exact CursorStore.getCursor_eq_some hs'.wellFormed (hkept.rows _ hrow hlive) hlive
  · exact CursorStore.readIndex_eq_some hs'.wellFormed
      (hkept.indexes _ hrow hlive _ hindex rfl)

/-- A server's first request, up to its published index. -/
theorem published_run
    (locatorId : String) (cursor : StoredCursor) (entries : List IndexEntry)
    (hartifact : cursor.resultArtifact = artifactPath locatorId) :
    ∃ s, Relation.ReflTransGen CursorStep CursorServer.start s ∧
      s.requests 0 = .writing locatorId cursor true (.published entries) ∧
      s.store.rows = [] ∧ s.now = 0 := by
  have hfresh : CursorServer.Fresh
      { now := 0, store := ⟨[], [], []⟩, serving := true, requests := fun _ => .idle }
      locatorId := by
    refine ⟨fun _ h => ?_, fun _ h => ?_, fun _ h => ?_, fun _ h => ?_⟩ <;> cases h
  have hserving := Relation.ReflTransGen.single (CursorStep.restart
    (s := CursorServer.start) rfl (Nat.le_refl 0) (Nat.le_refl 0) (Nat.le_refl 0))
  have hcalled := hserving.tail
    (@CursorStep.call _ 0 locatorId cursor rfl rfl hfresh hartifact)
  have hcreated := hcalled.tail
    (@CursorStep.create _ 0 locatorId cursor true (CursorServer.requests_setRequest ..))
  have hcleared := hcreated.tail
    (@CursorStep.clear _ 0 locatorId cursor true (CursorServer.requests_setRequest ..))
  have hcopying := hcleared.tail
    (@CursorStep.copy _ 0 locatorId cursor true (CursorServer.requests_setRequest ..))
  have hcopied := hcopying.tail
    (@CursorStep.finish _ 0 locatorId cursor true entries (CursorServer.requests_setRequest ..))
  have hpublished := hcopied.tail
    (@CursorStep.publish _ 0 locatorId cursor true entries (some entries)
      (CursorServer.requests_setRequest ..) List.mem_cons_self)
  exact ⟨_, hpublished, CursorServer.requests_setRequest .., rfl, rfl⟩

/-- The cursor of a first page of one row out of two. -/
def opportunityCursor : StoredCursor where
  plan := opportunityQuery
  datasetSnapshotId := "/app/seed/crm_opportunities.parquet@4"
  batchSize := 1
  pageOffset := 0
  totalSize := 2
  resultArtifact := "0011223344556677.parquet"

def opportunityIndex : List IndexEntry :=
  [⟨0, some (.text "006a")⟩, ⟨1, some (.text "006b")⟩]

/-- A day later, after a crash and a start-up, the index of a first page is
still served. -/
theorem cursor_kept_restarted :
    ∃ s : CursorServer, s.serving = true ∧ s.now = 24 * 60 * 60 ∧
      s.store.getCursor s.now "0011223344556677" = some opportunityCursor ∧
      s.store.readIndex "0011223344556677.parquet" = some opportunityIndex := by
  obtain ⟨s, hrun, hpublished, hrows, hnow⟩ :=
    published_run "0011223344556677" opportunityCursor opportunityIndex rfl
  obtain ⟨store, hstored⟩ : ∃ store,
      s.store.createCursor (s.rowOf "0011223344556677" opportunityCursor) = some store := by
    simp [CursorStore.createCursor, hrows]
  have hcrash := Relation.ReflTransGen.single
    (CursorStep.crash (s := (s.setStore store).setRequest 0
      (.answered (s.rowOf "0011223344556677" opportunityCursor) opportunityIndex)))
  have hday : s.now ≤ 24 * 60 * 60 := by
    rw [hnow]
    exact Nat.zero_le _
  have hrestart := hcrash.tail
    (CursorStep.restart rfl hday (Nat.le_refl _) (Nat.le_refl _))
  have hlive : 24 * 60 * 60 < s.now + cursorLifetime := by
    rw [hnow, cursorLifetime]
    omega
  obtain ⟨hcursor, hindex⟩ := cursor_kept hrun hpublished hstored hrestart hlive
  exact ⟨_, rfl, rfl, hcursor, hindex⟩

/-- No file of the directory is half written or unaccounted for. -/
structure FilesAccounted (s : CursorServer) : Prop where
  complete : ∀ file ∈ s.store.indexes, file.2.isSome = true
  live : ∀ row ∈ s.store.rows, row.isOpen s.now = true →
    (s.store.readIndex row.cursor.resultArtifact).isSome = true
  indexes : s.serving = true → ∀ file ∈ s.store.indexes,
    (∃ row ∈ s.store.rows, row.cursor.resultArtifact = file.1) ∨
      ∃ locatorId, s.Draws locatorId ∧ artifactPath locatorId = file.1
  temporaries : s.serving = true → ∀ file ∈ s.store.temporaries, s.Draws file.1

/-- What a start-up leaves: the rows that had not expired, exactly the indexes
of the open cursors, as many as it counts, and no temporary file. -/
structure LeavesOpenCursors (deletedAt readAt : Nat) (store store' : CursorStore) : Prop where
  rows : ∀ row, row ∈ store'.rows ↔ row ∈ store.rows ∧ deletedAt < row.expiresAt
  indexes : ∀ path, (store'.readIndex path).isSome = true ↔
    path ∈ store'.activeCursorArtifacts readAt
  count : store'.indexes.length = store'.countOpenCursors readAt
  temporaries : store'.temporaries = []

theorem Recovered.leavesOpenCursors
    {s : CursorServer} (hs : CursorInvariant s) {deletedAt readAt : Nat} {store : CursorStore}
    (hread : s.now ≤ readAt) (h : Recovered deletedAt readAt s.store store) :
    LeavesOpenCursors deletedAt readAt s.store store := by
  have hs' := hs.recovered hread h
  have hwell : store.WellFormed := hs'.wellFormed
  have hactive : ∀ path, path ∈ store.activeCursorArtifacts readAt ↔
      path ∈ store.indexes.map Prod.fst := by
    intro path
    constructor
    · intro hpath
      obtain ⟨row, hrow, hopen, rfl⟩ := CursorStore.mem_activeCursorArtifacts.mp hpath
      obtain ⟨entries, hindex⟩ :=
        hs'.live row hrow ((CursorStore.isOpen_iff hwell hrow).mp hopen)
      exact List.mem_map.mpr ⟨_, hindex, rfl⟩
    · intro hpath
      obtain ⟨file, hfile, rfl⟩ := List.mem_map.mp hpath
      exact h.indexes file hfile
  refine ⟨?_, ?_, ?_, h.temporaries⟩
  · intro row
    rw [h.rows, List.mem_filter]
    simp only [Bool.not_eq_true', decide_eq_false_iff_not, Nat.not_le]
  · intro path
    rw [hactive path]
    constructor
    · intro hsome
      obtain ⟨entries, hentries⟩ := Option.isSome_iff_exists.mp hsome
      obtain ⟨file, hfind, _⟩ := Option.bind_eq_some_iff.mp hentries
      have hname := List.find?_some hfind
      exact List.mem_map.mpr ⟨file, List.mem_of_find?_eq_some hfind, beq_iff_eq.mp hname⟩
    · intro hmem
      obtain ⟨⟨name, content⟩, hfile, rfl⟩ := List.mem_map.mp hmem
      obtain ⟨entries, rfl⟩ := Option.isSome_iff_exists.mp (hs'.complete _ hfile)
      rw [CursorStore.readIndex_eq_some hwell hfile]
      rfl
  · have hnodup : (store.activeCursorArtifacts readAt).Nodup := by
      have hrows : store.rows.Nodup := List.Nodup.of_map _ hwell.locators
      refine List.Nodup.map_on ?_ (hrows.filter _)
      intro row hrow row' hrow' heq
      exact hwell.eq_of_artifact (List.mem_filter.mp hrow).1 (List.mem_filter.mp hrow').1 heq
    have hperm := (List.perm_ext_iff_of_nodup hnodup hwell.paths).mpr hactive
    have hlength := hperm.length_eq
    rw [List.length_map, CursorStore.activeCursorArtifacts, List.length_map] at hlength
    exact hlength.symm

/-- Every file of the directory belongs to a cursor or to a request of the running
process, and a start-up, whatever was interrupted before it, leaves exactly the
indexes of the open cursors. -/
theorem accounted_of_run
    {s : CursorServer} (hrun : Relation.ReflTransGen CursorStep CursorServer.start s) :
    FilesAccounted s ∧
      ∀ selectedAt deletedAt readAt, s.now ≤ selectedAt → selectedAt ≤ deletedAt →
        deletedAt ≤ readAt → LeavesOpenCursors deletedAt readAt s.store
          (recoverCursorArtifacts selectedAt deletedAt readAt s.store).final := by
  have hs := (CursorInvariant.start.run hrun).1
  constructor
  · refine ⟨hs.complete, ?_, hs.indexes, hs.temporaries⟩
    intro row hrow hopen
    obtain ⟨entries, hindex⟩ :=
      hs.live row hrow ((CursorStore.isOpen_iff hs.wellFormed hrow).mp hopen)
    rw [CursorStore.readIndex_eq_some hs.wellFormed hindex]
    rfl
  · intro selectedAt deletedAt readAt hselected hdeleted hread
    obtain ⟨_, _, hrecovered⟩ :=
      (meets_recoverCursorArtifacts hs.wellFormed hdeleted hread).ok
    exact hrecovered.leavesOpenCursors hs (hselected.trans (hdeleted.trans hread))

/-- A crash between the index and its cursor: the start-up removes the file. -/
theorem accounted_of_run_orphan :
    ∃ s : CursorServer, s.serving = false ∧
      s.store.readIndex "0011223344556677.parquet" = some opportunityIndex ∧
      FilesAccounted s ∧
      (recoverCursorArtifacts 60 60 60 s.store).final.indexes = [] := by
  obtain ⟨s, hrun, hpublished, hrows, hnow⟩ :=
    published_run "0011223344556677" opportunityCursor opportunityIndex rfl
  have hs := (CursorInvariant.start.run hrun).1
  have hindex := CursorStore.readIndex_eq_some hs.wellFormed
    ((hs.of_writing hpublished).2.2.2.2 opportunityIndex rfl)
  obtain ⟨haccounted, hstartUp⟩ := accounted_of_run (hrun.tail CursorStep.crash)
  have hleaves := hstartUp 60 60 60
    (by
      show s.now ≤ 60
      omega)
    (Nat.le_refl _) (Nat.le_refl _)
  refine ⟨{ s with serving := false, requests := fun _ => .idle }, rfl, hindex, haccounted, ?_⟩
  have hnone : (recoverCursorArtifacts 60 60 60 s.store).final.rows = [] := by
    refine List.eq_nil_iff_forall_not_mem.mpr fun row hrow => ?_
    have hmem := ((hleaves.rows row).mp hrow).1
    change row ∈ s.store.rows at hmem
    rw [hrows] at hmem
    cases hmem
  have hcount := hleaves.count
  rw [CursorStore.countOpenCursors, hnone] at hcount
  exact List.eq_nil_of_length_eq_zero hcount

end FakeForce
end Northwind
