import Northwind.Library.Semaphores
import Northwind.Sources.Rows
import Mathlib.Data.Finset.Card
import Mathlib.Logic.Function.Basic
import Mathlib.Logic.Relation

/-!
# Admission of requests: one semaphore for each kind of work

Every request is classified by its path and runs inside a slot of its kind.
Requests come, are cancelled and end in any order; what one of them does between
two waits of the event loop is one step.  The semaphores are those of the event
loop: a request that was woken and then cancelled holds its unit until it runs.
Every step keeps `AdmissionInvariant`, one kind at a time.
-/

namespace Northwind
namespace FakeForce

open Semaphores

inductive OperationKind where
  | lightweight
  | query
  | bulkQuery
  | bulkIngest
deriving DecidableEq

/-- `path.startswith(start)` -/
def startsWith (path start : String) : Bool :=
  start.toList.isPrefixOf path.toList

/-- `classify_operation` -/
def classifyOperation (path apiVersion : String) : OperationKind :=
  let queryPrefix := "/services/data/" ++ apiVersion ++ "/query"
  if startsWith path ("/services/data/" ++ apiVersion ++ "/jobs/query") then .bulkQuery
  else if startsWith path ("/services/data/" ++ apiVersion ++ "/jobs/ingest") then .bulkIngest
  else if startsWith path queryPrefix || endsWith path "/deleted" then .query
  else .lightweight

/-! ## The controller and its requests -/

/-- The worker counts of `AdmissionController.__init__`. -/
structure AdmissionSettings where
  lightweightWorkers : Nat
  queryWorkers : Nat
  bulkWorkers : Nat

/-- The initial value of each semaphore; the two bulk kinds do not share one. -/
def AdmissionSettings.workers (settings : AdmissionSettings) : OperationKind → Nat
  | .lightweight => settings.lightweightWorkers
  | .query => settings.queryWorkers
  | .bulkQuery => settings.bulkWorkers
  | .bulkIngest => settings.bulkWorkers

/-- Where a request stands. -/
inductive SlotPhase where
  | unseen
  | waiting (kind : OperationKind)
  | inSlot (kind : OperationKind)
  | gone
deriving DecidableEq

structure AdmissionController where
  semaphores : OperationKind → Semaphore Nat
  active : OperationKind → Nat
  queued : OperationKind → Nat
  requests : Nat → SlotPhase

namespace AdmissionController

def start (settings : AdmissionSettings) : AdmissionController where
  semaphores kind := ⟨settings.workers kind, []⟩
  active _ := 0
  queued _ := 0
  requests _ := .unseen

def setSemaphore (s : AdmissionController) (kind : OperationKind) (semaphore : Semaphore Nat) :
    AdmissionController :=
  { s with semaphores := Function.update s.semaphores kind semaphore }

def setActive (s : AdmissionController) (kind : OperationKind) (count : Nat) :
    AdmissionController :=
  { s with active := Function.update s.active kind count }

def setQueued (s : AdmissionController) (kind : OperationKind) (count : Nat) :
    AdmissionController :=
  { s with queued := Function.update s.queued kind count }

def setRequest (s : AdmissionController) (id : Nat) (phase : SlotPhase) :
    AdmissionController :=
  { s with requests := Function.update s.requests id phase }

section Fields

variable (s : AdmissionController) (id : Nat) (kind : OperationKind) (phase : SlotPhase)
variable (semaphore : Semaphore Nat) (count : Nat)

@[simp] theorem requests_setRequest : (s.setRequest id phase).requests id = phase :=
  Function.update_self ..

@[simp] theorem semaphores_setRequest : (s.setRequest id phase).semaphores = s.semaphores :=
  rfl

@[simp] theorem active_setRequest : (s.setRequest id phase).active = s.active :=
  rfl

@[simp] theorem queued_setRequest : (s.setRequest id phase).queued = s.queued :=
  rfl

@[simp] theorem semaphores_setSemaphore :
    (s.setSemaphore kind semaphore).semaphores kind = semaphore :=
  Function.update_self ..

@[simp] theorem active_setSemaphore : (s.setSemaphore kind semaphore).active = s.active :=
  rfl

@[simp] theorem queued_setSemaphore : (s.setSemaphore kind semaphore).queued = s.queued :=
  rfl

@[simp] theorem semaphores_setActive : (s.setActive kind count).semaphores = s.semaphores :=
  rfl

@[simp] theorem active_setActive : (s.setActive kind count).active kind = count :=
  Function.update_self ..

@[simp] theorem semaphores_setQueued : (s.setQueued kind count).semaphores = s.semaphores :=
  rfl

@[simp] theorem active_setQueued : (s.setQueued kind count).active = s.active :=
  rfl

@[simp] theorem queued_setQueued : (s.setQueued kind count).queued kind = count :=
  Function.update_self ..

end Fields

/-- `slot` from the end of `acquire` to the body of the request. -/
def acquired (s : AdmissionController) (id : Nat) (kind : OperationKind) :
    AdmissionController :=
  ((s.setQueued kind (s.queued kind - 1)).setActive kind (s.active kind + 1)).setRequest id
    (.inSlot kind)

/-- `slot` from its start to the first wait. -/
def enter (s : AdmissionController) (id : Nat) (kind : OperationKind) : AdmissionController :=
  let counted := s.setQueued kind (s.queued kind + 1)
  if (s.semaphores kind).locked then
    (counted.setSemaphore kind ((s.semaphores kind).queueUp id)).setRequest id (.waiting kind)
  else (counted.setSemaphore kind (s.semaphores kind).take).acquired id kind

/-- A request that was woken runs on. -/
def resume (s : AdmissionController) (id : Nat) (kind : OperationKind) : AdmissionController :=
  (s.setSemaphore kind ((s.semaphores kind).proceed id)).acquired id kind

/-- A waiting request is cancelled; it hears of it when it runs. -/
def cancelWaiting (s : AdmissionController) (id : Nat) (kind : OperationKind) :
    AdmissionController :=
  s.setSemaphore kind ((s.semaphores kind).cancel id)

/-- A cancelled request leaves `acquire`, and with it `slot`. -/
def unwind (s : AdmissionController) (id : Nat) (kind : OperationKind)
    (semaphore : Semaphore Nat) : AdmissionController :=
  ((s.setSemaphore kind semaphore).setQueued kind (s.queued kind - 1)).setRequest id .gone

/-- A request leaves its slot, with an answer, an error or a cancellation. -/
def leave (s : AdmissionController) (id : Nat) (kind : OperationKind) : AdmissionController :=
  ((s.setActive kind (s.active kind - 1)).setSemaphore kind
    (s.semaphores kind).release).setRequest id .gone

end AdmissionController

/-- What the requests that are there do when they run. -/
inductive AdmissionMove : AdmissionController → AdmissionController → Prop
  | resume {s : AdmissionController} {id : Nat} {kind : OperationKind}
      (woken : (id, .woken) ∈ (s.semaphores kind).waiters) : AdmissionMove s (s.resume id kind)
  | unwind {s : AdmissionController} {id : Nat} {kind : OperationKind}
      (cancelled : (id, .cancelled) ∈ (s.semaphores kind).waiters) :
      AdmissionMove s (s.unwind id kind ((s.semaphores kind).leave id))
  | passOn {s : AdmissionController} {id : Nat} {kind : OperationKind}
      (passing : (id, .passing) ∈ (s.semaphores kind).waiters) :
      AdmissionMove s (s.unwind id kind ((s.semaphores kind).passOn id))
  | leave {s : AdmissionController} {id : Nat} {kind : OperationKind}
      (inSlot : s.requests id = .inSlot kind) : AdmissionMove s (s.leave id kind)

inductive AdmissionStep (apiVersion : String) : AdmissionController → AdmissionController → Prop
  | enter {s : AdmissionController} {id : Nat} (path : String)
      (unseen : s.requests id = .unseen) :
      AdmissionStep apiVersion s (s.enter id (classifyOperation path apiVersion))
  | cancelWaiting {s : AdmissionController} {id : Nat} {kind : OperationKind}
      (waiting : s.requests id = .waiting kind) :
      AdmissionStep apiVersion s (s.cancelWaiting id kind)
  | move {s s' : AdmissionController} (move : AdmissionMove s s') : AdmissionStep apiVersion s s'

/-! ## The invariant -/

/-- So many requests are in a slot of the kind. -/
def SlotCount (s : AdmissionController) (kind : OperationKind) (count : Nat) : Prop :=
  ∃ ids : Finset Nat, ids.card = count ∧ ∀ id, id ∈ ids ↔ s.requests id = .inSlot kind

/-- The requests that wait for a slot of the kind. -/
def WaitsAs (s : AdmissionController) (kind : OperationKind) (tasks : List Nat) : Prop :=
  ∀ id, s.requests id = .waiting kind ↔ id ∈ tasks

/-- What holds of one kind. -/
structure KindInvariant (settings : AdmissionSettings) (s : AdmissionController)
    (kind : OperationKind) : Prop where
  sound : Sound (settings.workers kind) (s.active kind) (s.semaphores kind)
  queued : s.queued kind = (s.semaphores kind).waiters.length
  waiting : WaitsAs s kind ((s.semaphores kind).waiters.map Prod.fst)
  inSlot : SlotCount s kind (s.active kind)

def AdmissionInvariant (settings : AdmissionSettings) (s : AdmissionController) : Prop :=
  ∀ kind, KindInvariant settings s kind

/-- A phase that is not of the kind. -/
def SlotPhase.IsElsewhere (phase : SlotPhase) (kind : OperationKind) : Prop :=
  phase ≠ .waiting kind ∧ phase ≠ .inSlot kind

/-- What a step of one request of one kind leaves alone. -/
structure ChangesOnly (kind : OperationKind) (id : Nat) (s s' : AdmissionController) : Prop where
  semaphores : ∀ other, other ≠ kind → s'.semaphores other = s.semaphores other
  active : ∀ other, other ≠ kind → s'.active other = s.active other
  queued : ∀ other, other ≠ kind → s'.queued other = s.queued other
  requests : ∀ id', id' ≠ id → s'.requests id' = s.requests id'
  before : ∀ other, other ≠ kind → (s.requests id).IsElsewhere other
  after : ∀ other, other ≠ kind → (s'.requests id).IsElsewhere other

section Steps

variable {settings : AdmissionSettings} {s s' : AdmissionController} {kind : OperationKind}
variable {id count : Nat} {tasks : List Nat}

theorem SlotPhase.isElsewhere_waiting {other : OperationKind} (hne : other ≠ kind) :
    (SlotPhase.waiting kind).IsElsewhere other := by
  constructor
  · intro h
    exact hne (SlotPhase.waiting.inj h).symm
  · intro h
    cases h

theorem SlotPhase.isElsewhere_inSlot {other : OperationKind} (hne : other ≠ kind) :
    (SlotPhase.inSlot kind).IsElsewhere other := by
  constructor
  · intro h
    cases h
  · intro h
    exact hne (SlotPhase.inSlot.inj h).symm

theorem SlotPhase.isElsewhere_unseen (other : OperationKind) :
    SlotPhase.unseen.IsElsewhere other := by
  constructor <;> intro h <;> cases h

theorem SlotPhase.isElsewhere_gone (other : OperationKind) :
    SlotPhase.gone.IsElsewhere other := by
  constructor <;> intro h <;> cases h

theorem SlotCount.insert (h : SlotCount s kind count)
    (hrequests : ∀ id', id' ≠ id → s'.requests id' = s.requests id')
    (hbefore : s.requests id ≠ .inSlot kind) (hafter : s'.requests id = .inSlot kind) :
    SlotCount s' kind (count + 1) := by
  obtain ⟨ids, hcard, hids⟩ := h
  have hnew : id ∉ ids := fun hmem => hbefore ((hids id).mp hmem)
  refine ⟨ids.cons id hnew, ?_, ?_⟩
  · rw [Finset.card_cons, hcard]
  · intro id'
    rw [Finset.mem_cons]
    by_cases heq : id' = id
    · rw [heq]
      exact ⟨fun _ => hafter, fun _ => .inl rfl⟩
    · rw [hrequests id' heq, ← hids id']
      exact ⟨fun h => h.resolve_left heq, .inr⟩

theorem SlotCount.erase (h : SlotCount s kind count)
    (hrequests : ∀ id', id' ≠ id → s'.requests id' = s.requests id')
    (hbefore : s.requests id = .inSlot kind) (hafter : s'.requests id ≠ .inSlot kind) :
    0 < count ∧ SlotCount s' kind (count - 1) := by
  obtain ⟨ids, hcard, hids⟩ := h
  have hmem : id ∈ ids := (hids id).mpr hbefore
  refine ⟨hcard ▸ Finset.card_pos.mpr ⟨id, hmem⟩, ids.erase id, ?_, ?_⟩
  · rw [Finset.card_erase_of_mem hmem, hcard]
  · intro id'
    rw [Finset.mem_erase]
    by_cases heq : id' = id
    · rw [heq]
      exact ⟨fun h => absurd rfl h.1, fun h => absurd h hafter⟩
    · rw [hrequests id' heq, ← hids id']
      exact ⟨fun h => h.2, fun h => ⟨heq, h⟩⟩

theorem SlotCount.keep (h : SlotCount s kind count)
    (hrequests : ∀ id', id' ≠ id → s'.requests id' = s.requests id')
    (hbefore : s.requests id ≠ .inSlot kind) (hafter : s'.requests id ≠ .inSlot kind) :
    SlotCount s' kind count := by
  obtain ⟨ids, hcard, hids⟩ := h
  refine ⟨ids, hcard, ?_⟩
  intro id'
  rw [hids id']
  by_cases heq : id' = id
  · rw [heq]
    exact ⟨fun h => absurd h hbefore, fun h => absurd h hafter⟩
  · rw [hrequests id' heq]

theorem WaitsAs.keep (h : WaitsAs s kind tasks)
    (hrequests : ∀ id', id' ≠ id → s'.requests id' = s.requests id')
    (hbefore : s.requests id ≠ .waiting kind) (hafter : s'.requests id ≠ .waiting kind) :
    WaitsAs s' kind tasks := by
  intro id'
  rw [← h id']
  by_cases heq : id' = id
  · rw [heq]
    exact ⟨fun h => absurd h hafter, fun h => absurd h hbefore⟩
  · rw [hrequests id' heq]

theorem WaitsAs.add (h : WaitsAs s kind tasks)
    (hrequests : ∀ id', id' ≠ id → s'.requests id' = s.requests id')
    (hafter : s'.requests id = .waiting kind) : WaitsAs s' kind (tasks ++ [id]) := by
  intro id'
  rw [List.mem_append, List.mem_singleton, ← h id']
  by_cases heq : id' = id
  · rw [heq]
    exact ⟨fun _ => .inr rfl, fun _ => hafter⟩
  · rw [hrequests id' heq]
    exact ⟨.inl, fun h => h.resolve_right heq⟩

theorem WaitsAs.drop (h : WaitsAs s kind tasks)
    (hrequests : ∀ id', id' ≠ id → s'.requests id' = s.requests id')
    (hafter : s'.requests id ≠ .waiting kind) :
    WaitsAs s' kind (tasks.filter (fun id' => decide (id' ≠ id))) := by
  intro id'
  rw [List.mem_filter, decide_eq_true_iff, ← h id']
  by_cases heq : id' = id
  · rw [heq]
    exact ⟨fun h => absurd h hafter, fun h => absurd rfl h.2⟩
  · rw [hrequests id' heq]
    exact ⟨fun h => ⟨h, heq⟩, fun h => h.1⟩

/-- The other kinds do not feel the step. -/
theorem ChangesOnly.invariant (hs : AdmissionInvariant settings s)
    (hchanges : ChangesOnly kind id s s') (hkind : KindInvariant settings s' kind) :
    AdmissionInvariant settings s' := by
  intro other
  by_cases hne : other = kind
  · rw [hne]
    exact hkind
  · have h := hs other
    obtain ⟨hbefore, hbefore'⟩ := hchanges.before other hne
    obtain ⟨hafter, hafter'⟩ := hchanges.after other hne
    refine ⟨?_, ?_, ?_, ?_⟩
    · rw [hchanges.semaphores other hne, hchanges.active other hne]
      exact h.sound
    · rw [hchanges.semaphores other hne, hchanges.queued other hne]
      exact h.queued
    · rw [hchanges.semaphores other hne]
      exact h.waiting.keep hchanges.requests hbefore hafter
    · rw [hchanges.active other hne]
      exact h.inSlot.keep hchanges.requests hbefore' hafter'

/-! ## The steps of one request -/

/-- What is done to the semaphore and the counters of one kind. -/
structure SameElsewhere (kind : OperationKind) (s t : AdmissionController) : Prop where
  semaphores : ∀ other, other ≠ kind → t.semaphores other = s.semaphores other
  active : ∀ other, other ≠ kind → t.active other = s.active other
  queued : ∀ other, other ≠ kind → t.queued other = s.queued other
  requests : t.requests = s.requests

theorem SameElsewhere.changesOnly {phase : SlotPhase} (h : SameElsewhere kind s s')
    (hbefore : ∀ other, other ≠ kind → (s.requests id).IsElsewhere other)
    (hafter : ∀ other, other ≠ kind → phase.IsElsewhere other) :
    ChangesOnly kind id s (s'.setRequest id phase) where
  semaphores := h.semaphores
  active := h.active
  queued := h.queued
  requests id' hne := by
    show Function.update s'.requests id phase id' = s.requests id'
    rw [Function.update_of_ne hne, h.requests]
  before := hbefore
  after other hne := by
    show (Function.update s'.requests id phase id).IsElsewhere other
    rw [Function.update_self]
    exact hafter other hne

theorem SameElsewhere.setSemaphore (h : SameElsewhere kind s s') (semaphore : Semaphore Nat) :
    SameElsewhere kind s (s'.setSemaphore kind semaphore) :=
  { h with
    semaphores := fun other hne =>
      (Function.update_of_ne hne _ _).trans (h.semaphores other hne) }

theorem SameElsewhere.setActive (h : SameElsewhere kind s s') (count : Nat) :
    SameElsewhere kind s (s'.setActive kind count) :=
  { h with
    active := fun other hne => (Function.update_of_ne hne _ _).trans (h.active other hne) }

theorem SameElsewhere.setQueued (h : SameElsewhere kind s s') (count : Nat) :
    SameElsewhere kind s (s'.setQueued kind count) :=
  { h with
    queued := fun other hne => (Function.update_of_ne hne _ _).trans (h.queued other hne) }

theorem SameElsewhere.refl (kind : OperationKind) (s : AdmissionController) :
    SameElsewhere kind s s :=
  ⟨fun _ _ => rfl, fun _ _ => rfl, fun _ _ => rfl, rfl⟩

/-- A request gets into its slot. -/
theorem acquired_invariant (hs : AdmissionInvariant settings s)
    (hsame : SameElsewhere kind s s') (hactive : s'.active kind = s.active kind)
    (hbefore : ∀ other, other ≠ kind → (s.requests id).IsElsewhere other)
    (hslot : s.requests id ≠ .inSlot kind)
    (hsound : Sound (settings.workers kind) (s.active kind + 1) (s'.semaphores kind))
    (hqueued : s'.queued kind = (s'.semaphores kind).waiters.length + 1)
    (hwaiting : ∀ id', id' ∈ (s'.semaphores kind).waiters.map Prod.fst ↔
      id' ≠ id ∧ s.requests id' = .waiting kind) :
    AdmissionInvariant settings (s'.acquired id kind) := by
  have hsame' := (hsame.setQueued (s'.queued kind - 1)).setActive (s'.active kind + 1)
  have hchanges : ChangesOnly kind id s (s'.acquired id kind) :=
    hsame'.changesOnly hbefore fun _ hne => SlotPhase.isElsewhere_inSlot hne
  have hself : (s'.acquired id kind).requests id = .inSlot kind := Function.update_self ..
  have hactive' : (s'.acquired id kind).active kind = s.active kind + 1 := by
    rw [← hactive]
    exact Function.update_self ..
  have hqueued' : (s'.acquired id kind).queued kind = s'.queued kind - 1 :=
    Function.update_self ..
  refine hchanges.invariant hs ⟨?_, ?_, ?_, ?_⟩
  · show Sound _ ((s'.acquired id kind).active kind) _
    rw [hactive']
    exact hsound
  · show (s'.acquired id kind).queued kind = _
    rw [hqueued', hqueued]
    rfl
  · intro id'
    show (s'.acquired id kind).requests id' = _ ↔ id' ∈ (s'.semaphores kind).waiters.map Prod.fst
    rw [hwaiting id']
    by_cases heq : id' = id
    · rw [heq, hself]
      constructor
      · intro h
        cases h
      · exact fun h => absurd rfl h.1
    · rw [hchanges.requests id' heq]
      exact ⟨fun h => ⟨heq, h⟩, fun h => h.2⟩
  · show SlotCount _ kind ((s'.acquired id kind).active kind)
    rw [hactive']
    exact (hs kind).inSlot.insert hchanges.requests hslot hself

theorem mem_map_filter_ne {waiters : List (Nat × WaitState)} {id id' : Nat} :
    id' ∈ (waiters.filter (fun w => decide (w.1 ≠ id))).map Prod.fst ↔
      id' ≠ id ∧ id' ∈ waiters.map Prod.fst := by
  simp only [List.mem_map, List.mem_filter, decide_eq_true_iff]
  constructor
  · rintro ⟨w, ⟨hw, hne⟩, rfl⟩
    exact ⟨hne, w, hw, rfl⟩
  · rintro ⟨hne, w, hw, rfl⟩
    exact ⟨w, ⟨hw, hne⟩, rfl⟩

/-- One waiting task fewer, where one of them leaves. -/
theorem length_filter_ne {waiters : List (Nat × WaitState)}
    (htasks : (waiters.map Prod.fst).Nodup) {state : WaitState} (hid : (id, state) ∈ waiters) :
    waiters.length = (waiters.filter (fun w => decide (w.1 ≠ id))).length + 1 := by
  have hmap : (waiters.filter (fun w => decide (w.1 ≠ id))).map Prod.fst =
      (waiters.map Prod.fst).filter (fun id' => decide (id' ≠ id)) := by
    rw [List.filter_map]
    rfl
  have herase : (waiters.map Prod.fst).filter (fun id' => decide (id' ≠ id)) =
      (waiters.map Prod.fst).erase id := by
    rw [htasks.erase_eq_filter id]
    refine List.filter_congr fun id' _ => ?_
    rw [bne, decide_not]
    rfl
  have hmem : id ∈ waiters.map Prod.fst := List.mem_map_of_mem hid
  have hlength := congrArg List.length (hmap.trans herase)
  rw [List.length_map, List.length_erase_of_mem hmem, List.length_map] at hlength
  have hpos : 0 < waiters.length := List.length_pos_of_mem hid
  omega

theorem enter_invariant (hs : AdmissionInvariant settings s) (hunseen : s.requests id = .unseen)
    (kind : OperationKind) : AdmissionInvariant settings (s.enter id kind) := by
  have hkind := hs kind
  have hbefore : ∀ other, other ≠ kind → (s.requests id).IsElsewhere other := by
    intro other _
    rw [hunseen]
    exact SlotPhase.isElsewhere_unseen other
  have hslot : s.requests id ≠ .inSlot kind := by
    rw [hunseen]
    exact (SlotPhase.isElsewhere_unseen kind).2
  have hnew : id ∉ (s.semaphores kind).waiters.map Prod.fst := by
    rw [← hkind.waiting id, hunseen]
    exact (SlotPhase.isElsewhere_unseen kind).1
  have hsame := (SameElsewhere.refl kind s).setQueued (s.queued kind + 1)
  unfold AdmissionController.enter
  simp only
  cases hlocked : (s.semaphores kind).locked with
  | true =>
      rw [if_pos rfl]
      have hchanges := (hsame.setSemaphore ((s.semaphores kind).queueUp id)).changesOnly
        hbefore fun _ hne => SlotPhase.isElsewhere_waiting hne
      refine hchanges.invariant hs ⟨?_, ?_, ?_, ?_⟩
      · simp only [AdmissionController.semaphores_setRequest,
          AdmissionController.semaphores_setSemaphore]
        exact hkind.sound.queueUp hlocked hnew
      · simp only [AdmissionController.semaphores_setRequest,
          AdmissionController.semaphores_setSemaphore, AdmissionController.queued_setRequest,
          AdmissionController.queued_setSemaphore, AdmissionController.queued_setQueued]
        rw [hkind.queued, Semaphore.queueUp, List.length_append]
        rfl
      · simp only [AdmissionController.semaphores_setRequest,
          AdmissionController.semaphores_setSemaphore]
        rw [Semaphore.queueUp, List.map_append]
        exact hkind.waiting.add hchanges.requests (AdmissionController.requests_setRequest ..)
      · refine hkind.inSlot.keep hchanges.requests hslot ?_
        rw [AdmissionController.requests_setRequest]
        intro h
        cases h
  | false =>
      rw [if_neg Bool.false_ne_true]
      refine acquired_invariant hs (hsame.setSemaphore _) rfl hbefore hslot ?_ ?_ ?_
      · rw [AdmissionController.semaphores_setSemaphore]
        exact hkind.sound.take hlocked
      · rw [AdmissionController.semaphores_setSemaphore, AdmissionController.queued_setSemaphore,
          AdmissionController.queued_setQueued, Semaphore.take, hkind.queued]
      · intro id'
        rw [AdmissionController.semaphores_setSemaphore, Semaphore.take, ← hkind.waiting id']
        constructor
        · intro h
          refine ⟨?_, h⟩
          rintro rfl
          rw [hunseen] at h
          cases h
        · exact fun h => h.2

theorem resume_invariant (hs : AdmissionInvariant settings s)
    (hwoken : (id, WaitState.woken) ∈ (s.semaphores kind).waiters) :
    AdmissionInvariant settings (s.resume id kind) := by
  have hkind := hs kind
  have hwaiting : s.requests id = .waiting kind :=
    (hkind.waiting id).mpr (List.mem_map_of_mem hwoken)
  have hself : (s.setSemaphore kind ((s.semaphores kind).proceed id)).semaphores kind =
      (s.semaphores kind).proceed id := Function.update_self ..
  refine acquired_invariant hs ((SameElsewhere.refl kind s).setSemaphore _) rfl ?_ ?_ ?_ ?_ ?_
  · intro other hne
    rw [hwaiting]
    exact SlotPhase.isElsewhere_waiting hne
  · rw [hwaiting]
    intro h
    cases h
  · rw [hself]
    exact hkind.sound.proceed hwoken
  · show s.queued kind = _
    have htasks : ((s.semaphores kind).proceed id).waiters.map Prod.fst =
        ((s.semaphores kind).waiters.filter (fun w => decide (w.1 ≠ id))).map Prod.fst :=
      Semaphore.map_fst_proceed
    have hlength := congrArg List.length htasks
    rw [List.length_map, List.length_map] at hlength
    rw [hself, hkind.queued, length_filter_ne hkind.sound.tasks hwoken, hlength]
  · intro id'
    rw [hself, Semaphore.map_fst_proceed, Semaphore.leave, mem_map_filter_ne, hkind.waiting id']

theorem unwind_invariant (hs : AdmissionInvariant settings s) {state : WaitState}
    {semaphore : Semaphore Nat} (hid : (id, state) ∈ (s.semaphores kind).waiters)
    (hsound : Sound (settings.workers kind) (s.active kind) semaphore)
    (htasks : semaphore.waiters.map Prod.fst =
      ((s.semaphores kind).waiters.filter (fun w => decide (w.1 ≠ id))).map Prod.fst) :
    AdmissionInvariant settings (s.unwind id kind semaphore) := by
  have hkind := hs kind
  have hwaiting : s.requests id = .waiting kind :=
    (hkind.waiting id).mpr (List.mem_map_of_mem hid)
  have hsame := ((SameElsewhere.refl kind s).setSemaphore semaphore).setQueued
    (s.queued kind - 1)
  have hchanges : ChangesOnly kind id s (s.unwind id kind semaphore) := by
    refine hsame.changesOnly ?_ fun other _ => SlotPhase.isElsewhere_gone other
    intro other hne
    rw [hwaiting]
    exact SlotPhase.isElsewhere_waiting hne
  have hself : (s.unwind id kind semaphore).semaphores kind = semaphore :=
    Function.update_self ..
  have hqueued : (s.unwind id kind semaphore).queued kind = s.queued kind - 1 :=
    Function.update_self ..
  have hgone : (s.unwind id kind semaphore).requests id = .gone :=
    AdmissionController.requests_setRequest ..
  have hgone' : SlotPhase.gone.IsElsewhere kind := SlotPhase.isElsewhere_gone kind
  refine hchanges.invariant hs ⟨?_, ?_, ?_, ?_⟩
  · rw [hself]
    exact hsound
  · have hlength := congrArg List.length htasks
    rw [List.length_map, List.length_map] at hlength
    rw [hself, hqueued, hkind.queued, length_filter_ne hkind.sound.tasks hid, hlength]
    rfl
  · rw [hself, htasks]
    intro id'
    rw [mem_map_filter_ne, ← hkind.waiting id']
    by_cases heq : id' = id
    · rw [heq, hgone]
      exact ⟨fun h => absurd h hgone'.1, fun h => absurd rfl h.1⟩
    · rw [hchanges.requests id' heq]
      exact ⟨fun h => ⟨heq, h⟩, fun h => h.2⟩
  · show SlotCount _ kind (s.active kind)
    refine hkind.inSlot.keep hchanges.requests ?_ ?_
    · rw [hwaiting]
      intro h
      cases h
    · rw [hgone]
      exact hgone'.2

theorem leave_invariant (hs : AdmissionInvariant settings s)
    (hslot : s.requests id = .inSlot kind) : AdmissionInvariant settings (s.leave id kind) := by
  have hkind := hs kind
  have hsame := ((SameElsewhere.refl kind s).setActive (s.active kind - 1)).setSemaphore
    (s.semaphores kind).release
  have hchanges : ChangesOnly kind id s (s.leave id kind) := by
    refine hsame.changesOnly ?_ fun other _ => SlotPhase.isElsewhere_gone other
    intro other hne
    rw [hslot]
    exact SlotPhase.isElsewhere_inSlot hne
  have hself : (s.leave id kind).semaphores kind = (s.semaphores kind).release :=
    Function.update_self ..
  have hactive : (s.leave id kind).active kind = s.active kind - 1 := Function.update_self ..
  have hgone : (s.leave id kind).requests id = .gone :=
    AdmissionController.requests_setRequest ..
  have hgone' : SlotPhase.gone.IsElsewhere kind := SlotPhase.isElsewhere_gone kind
  have herased := hkind.inSlot.erase hchanges.requests hslot (by rw [hgone]; exact hgone'.2)
  have hlength := congrArg List.length (Semaphore.map_fst_release (s.semaphores kind))
  rw [List.length_map, List.length_map] at hlength
  refine hchanges.invariant hs ⟨?_, ?_, ?_, ?_⟩
  · rw [hself, hactive]
    refine Sound.release ?_
    rw [Nat.sub_add_cancel herased.1]
    exact hkind.sound
  · rw [hself, hlength]
    exact hkind.queued
  · rw [hself, Semaphore.map_fst_release]
    refine hkind.waiting.keep hchanges.requests ?_ ?_
    · rw [hslot]
      intro h
      cases h
    · rw [hgone]
      exact hgone'.1
  · rw [hactive]
    exact herased.2

theorem cancelWaiting_invariant (hs : AdmissionInvariant settings s) (id : Nat)
    (kind : OperationKind) : AdmissionInvariant settings (s.cancelWaiting id kind) := by
  intro other
  have hother := hs other
  by_cases hne : other = kind
  · subst hne
    have hself : (s.cancelWaiting id other).semaphores other =
        (s.semaphores other).cancel id := Function.update_self ..
    have htasks : ((s.semaphores other).cancel id).waiters.map Prod.fst =
        (s.semaphores other).waiters.map Prod.fst := Semaphore.map_fst_cancel
    have hlength := congrArg List.length htasks
    rw [List.length_map, List.length_map] at hlength
    refine ⟨?_, ?_, ?_, hother.inSlot⟩
    · rw [hself]
      exact hother.sound.cancel id
    · rw [hself, hlength]
      exact hother.queued
    · rw [hself, htasks]
      exact hother.waiting
  · have hsame : (s.cancelWaiting id kind).semaphores other = s.semaphores other :=
      Function.update_of_ne hne ..
    refine ⟨?_, ?_, ?_, hother.inSlot⟩
    · rw [hsame]
      exact hother.sound
    · rw [hsame]
      exact hother.queued
    · rw [hsame]
      exact hother.waiting

theorem AdmissionMove.invariant (hs : AdmissionInvariant settings s) (h : AdmissionMove s s') :
    AdmissionInvariant settings s' := by
  cases h with
  | resume woken => exact resume_invariant hs woken
  | @unwind id kind cancelled =>
      exact unwind_invariant hs cancelled ((hs kind).sound.leave cancelled) rfl
  | @passOn id kind passing =>
      exact unwind_invariant hs passing ((hs kind).sound.passOn passing)
        (Semaphore.map_fst_release _)
  | leave inSlot => exact leave_invariant hs inSlot

theorem AdmissionStep.invariant {apiVersion : String} (hs : AdmissionInvariant settings s)
    (h : AdmissionStep apiVersion s s') : AdmissionInvariant settings s' := by
  cases h with
  | enter path unseen => exact enter_invariant hs unseen _
  | @cancelWaiting id kind _ => exact cancelWaiting_invariant hs id kind
  | move move => exact move.invariant hs

theorem AdmissionInvariant.start (settings : AdmissionSettings) :
    AdmissionInvariant settings (.start settings) := by
  intro kind
  refine ⟨Sound.full _, rfl, ?_, ∅, rfl, ?_⟩
  · intro id
    constructor
    · intro h
      cases h
    · exact fun h => absurd h List.not_mem_nil
  · intro id
    constructor
    · exact fun h => absurd h (Finset.notMem_empty id)
    · intro h
      cases h

theorem AdmissionInvariant.run {apiVersion : String} (hs : AdmissionInvariant settings s)
    (hrun : Relation.ReflTransGen (AdmissionStep apiVersion) s s') :
    AdmissionInvariant settings s' := by
  induction hrun with
  | refl => exact hs
  | tail _ hstep ih => exact hstep.invariant ih

end Steps

end FakeForce
end Northwind
