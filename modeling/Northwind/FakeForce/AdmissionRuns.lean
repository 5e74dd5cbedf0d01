import Northwind.FakeForce.Admission

/-!
# What the requests of a server may rely on: bounds, progress and order

`admission_of_run`: the two counters of a kind say how many requests are in a
slot and how many wait, no more than the configured workers run, and no unit is
lost.  `admission_drains`: without new requests everything comes to its end.
`never_overtaken`: the requests of a kind are admitted in the order they came.
-/

namespace Northwind
namespace FakeForce

open Semaphores

/-! ## What the counters say -/

/-- So many requests wait for a slot of the kind. -/
def WaitCount (s : AdmissionController) (kind : OperationKind) (count : Nat) : Prop :=
  ∃ ids : Finset Nat, ids.card = count ∧ ∀ id, id ∈ ids ↔ s.requests id = .waiting kind

/-- `AdmissionController.snapshot` -/
def AdmissionController.snapshot (s : AdmissionController) :
    (OperationKind → Nat) × (OperationKind → Nat) :=
  (s.active, s.queued)

theorem KindInvariant.waitCount
    {settings : AdmissionSettings} {s : AdmissionController} {kind : OperationKind}
    (h : KindInvariant settings s kind) : WaitCount s kind (s.queued kind) := by
  refine ⟨((s.semaphores kind).waiters.map Prod.fst).toFinset, ?_, ?_⟩
  · rw [List.toFinset_card_of_nodup h.sound.tasks, List.length_map, h.queued]
  · intro id
    rw [List.mem_toFinset, h.waiting id]

/-- In every reachable state and for every kind: the snapshot counts the requests
in a slot and the requests that wait, at most as many run as there are workers,
free units, units on their way to a woken request and requests in a slot add up
to the workers, and a request sleeps only while no unit is free or a woken
request is about to hand it on. -/
theorem admission_of_run
    {settings : AdmissionSettings} {apiVersion : String} {s : AdmissionController}
    (hrun : Relation.ReflTransGen (AdmissionStep apiVersion) (.start settings) s)
    (kind : OperationKind) :
    SlotCount s kind (s.snapshot.1 kind) ∧ WaitCount s kind (s.snapshot.2 kind) ∧
      s.active kind ≤ settings.workers kind ∧
      (s.semaphores kind).value + handed (s.semaphores kind).waiters + s.active kind =
        settings.workers kind ∧
      (Sleeps (s.semaphores kind).waiters →
        (s.semaphores kind).value = 0 ∨ 0 < handed (s.semaphores kind).waiters) := by
  have h := (AdmissionInvariant.start settings).run hrun kind
  exact ⟨h.inSlot, h.waitCount, h.sound.inUse_le, h.sound.conserved, h.sound.idle⟩

/-! ## Without new requests everything ends -/

namespace AdmissionController

/-- The moves of the requests of a kind that are there. -/
def kindBacklog (s : AdmissionController) (kind : OperationKind) : Nat :=
  2 * s.queued kind + s.active kind

def backlog (s : AdmissionController) : Nat :=
  s.kindBacklog .lightweight + s.kindBacklog .query + s.kindBacklog .bulkQuery +
    s.kindBacklog .bulkIngest

theorem backlog_lt
    {s s' : AdmissionController} (kind : OperationKind)
    (hkind : s'.kindBacklog kind < s.kindBacklog kind)
    (hother : ∀ other, other ≠ kind → s'.kindBacklog other = s.kindBacklog other) :
    s'.backlog < s.backlog := by
  have hle : ∀ other, s'.kindBacklog other ≤ s.kindBacklog other := by
    intro other
    by_cases hne : other = kind
    · rw [hne]
      exact Nat.le_of_lt hkind
    · exact Nat.le_of_eq (hother other hne)
  have h₁ := hle .lightweight
  have h₂ := hle .query
  have h₃ := hle .bulkQuery
  have h₄ := hle .bulkIngest
  unfold backlog
  cases kind <;> omega

end AdmissionController

theorem SameElsewhere.kindBacklog
    {kind other : OperationKind} {s t : AdmissionController} (h : SameElsewhere kind s t)
    (hne : other ≠ kind) : t.kindBacklog other = s.kindBacklog other := by
  unfold AdmissionController.kindBacklog
  rw [h.queued other hne, h.active other hne]

theorem AdmissionMove.backlog_lt
    {settings : AdmissionSettings} {s s' : AdmissionController}
    (hs : AdmissionInvariant settings s) (h : AdmissionMove s s') : s'.backlog < s.backlog := by
  have hqueued : ∀ kind w, w ∈ (s.semaphores kind).waiters → 0 < s.queued kind := by
    intro kind w hw
    rw [(hs kind).queued]
    exact List.length_pos_of_mem hw
  cases h with
  | @resume id kind woken =>
      have hpos := hqueued kind _ woken
      have hsame := (((SameElsewhere.refl kind s).setSemaphore
        ((s.semaphores kind).proceed id)).setQueued (s.queued kind - 1)).setActive
          (s.active kind + 1)
      refine AdmissionController.backlog_lt kind ?_ fun other hne => hsame.kindBacklog hne
      have hcounts : (s.resume id kind).kindBacklog kind =
          2 * (s.queued kind - 1) + (s.active kind + 1) := by
        simp [AdmissionController.kindBacklog, AdmissionController.resume,
          AdmissionController.acquired, AdmissionController.setActive,
          AdmissionController.setRequest, AdmissionController.setQueued,
          AdmissionController.setSemaphore]
      rw [hcounts, AdmissionController.kindBacklog]
      omega
  | @unwind id kind cancelled =>
      have hpos := hqueued kind _ cancelled
      have hsame := ((SameElsewhere.refl kind s).setSemaphore
        ((s.semaphores kind).leave id)).setQueued (s.queued kind - 1)
      refine AdmissionController.backlog_lt kind ?_ fun other hne => hsame.kindBacklog hne
      show 2 * Function.update s.queued kind (s.queued kind - 1) kind + s.active kind <
        s.kindBacklog kind
      rw [Function.update_self, AdmissionController.kindBacklog]
      omega
  | @passOn id kind passing =>
      have hpos := hqueued kind _ passing
      have hsame := ((SameElsewhere.refl kind s).setSemaphore
        ((s.semaphores kind).passOn id)).setQueued (s.queued kind - 1)
      refine AdmissionController.backlog_lt kind ?_ fun other hne => hsame.kindBacklog hne
      show 2 * Function.update s.queued kind (s.queued kind - 1) kind + s.active kind <
        s.kindBacklog kind
      rw [Function.update_self, AdmissionController.kindBacklog]
      omega
  | @leave id kind inSlot =>
      obtain ⟨ids, hcard, hids⟩ := (hs kind).inSlot
      have hpos : 0 < s.active kind :=
        hcard ▸ Finset.card_pos.mpr ⟨id, (hids id).mpr inSlot⟩
      have hsame := ((SameElsewhere.refl kind s).setActive (s.active kind - 1)).setSemaphore
        (s.semaphores kind).release
      refine AdmissionController.backlog_lt kind ?_ fun other hne => hsame.kindBacklog hne
      show 2 * s.queued kind + Function.update s.active kind (s.active kind - 1) kind <
        s.kindBacklog kind
      rw [Function.update_self, AdmissionController.kindBacklog]
      omega

/-- A state in which no request can move: everybody has gone and every unit is back. -/
theorem KindInvariant.drained
    {settings : AdmissionSettings} {s : AdmissionController} {kind : OperationKind}
    (h : KindInvariant settings s kind) (hworkers : 0 < settings.workers kind)
    (hstuck : ∀ s', ¬ AdmissionMove s s') :
    (s.semaphores kind).waiters = [] ∧ s.active kind = 0 := by
  have hactive : s.active kind = 0 := by
    by_contra hne
    obtain ⟨ids, hcard, hids⟩ := h.inSlot
    have hpos : 0 < ids.card := by omega
    obtain ⟨id, hid⟩ := Finset.card_pos.mp hpos
    exact hstuck _ (.leave ((hids id).mp hid))
  have hasleep : ∀ w ∈ (s.semaphores kind).waiters, w.2 = .asleep := by
    rintro ⟨id, state⟩ hw
    cases state with
    | asleep => rfl
    | woken => exact absurd (.resume hw) (hstuck _)
    | cancelled => exact absurd (.unwind hw) (hstuck _)
    | passing => exact absurd (.passOn hw) (hstuck _)
  have hhanded : handed (s.semaphores kind).waiters = 0 := by
    refine List.countP_eq_zero.mpr fun w hw => ?_
    rw [hasleep w hw]
    exact Bool.false_ne_true
  refine ⟨?_, hactive⟩
  by_contra hne
  obtain ⟨w, hw⟩ := List.exists_mem_of_ne_nil _ hne
  have hbusy := h.sound.busy_of_sleeps hworkers ⟨w, hw, hasleep w hw⟩
  omega

/-- While no new request comes, the requests that are there make at most `backlog`
moves, and when none of them can move, none waits or is in a slot: each one that
queued up has been admitted or cancelled, and all units are back. -/
theorem admission_drains
    {settings : AdmissionSettings} {apiVersion : String} {s : AdmissionController}
    (hworkers : ∀ kind, 0 < settings.workers kind)
    (hrun : Relation.ReflTransGen (AdmissionStep apiVersion) (.start settings) s) :
    (∀ states : List AdmissionController, List.IsChain AdmissionMove (s :: states) →
      states.length ≤ s.backlog) ∧
    ∀ t, Relation.ReflTransGen AdmissionMove s t → (∀ u, ¬ AdmissionMove t u) →
      (∀ id, t.requests id = .unseen ∨ t.requests id = .gone) ∧
        ∀ kind, t.semaphores kind = ⟨settings.workers kind, []⟩ := by
  have hs := (AdmissionInvariant.start settings).run hrun
  constructor
  · intro states hchain
    clear hrun
    induction states generalizing s with
    | nil => exact Nat.zero_le _
    | cons next states ih =>
        rw [List.isChain_cons_cons] at hchain
        have hless := hchain.1.backlog_lt hs
        have hrest := ih (hchain.1.invariant hs) hchain.2
        rw [List.length_cons]
        omega
  · intro t hto hstuck
    have hsteps : Relation.ReflTransGen (AdmissionStep apiVersion) s t :=
      hto.lift id fun _ _ hmove => .move hmove
    have ht := hs.run hsteps
    have hdrained := fun kind => (ht kind).drained (hworkers kind) hstuck
    constructor
    · intro id
      cases hphase : t.requests id with
      | unseen => exact .inl rfl
      | gone => exact .inr rfl
      | waiting kind =>
          have hmem := ((ht kind).waiting id).mp hphase
          rw [(hdrained kind).1] at hmem
          cases hmem
      | inSlot kind =>
          exact absurd (.leave hphase) (hstuck _)
    · intro kind
      have hconserved := (ht kind).sound.conserved
      obtain ⟨hwaiters, hactive⟩ := hdrained kind
      rw [hwaiters, hactive] at hconserved
      cases hsemaphore : t.semaphores kind with
      | mk value waiters =>
          rw [hsemaphore] at hconserved hwaiters
          simp only at hwaiters hconserved
          have hvalue : value = settings.workers kind := hconserved
          rw [hwaiters, hvalue]

/-! ## Nobody is overtaken -/

section Overtaking

variable {settings : AdmissionSettings} {apiVersion : String} {s s' : AdmissionController}
variable {kind : OperationKind} {a b : Nat}

/-- The request sleeps in the queue of the kind. -/
def AdmissionController.SleepsIn (s : AdmissionController) (kind : OperationKind) (a : Nat) :
    Prop :=
  (a, WaitState.asleep) ∈ (s.semaphores kind).waiters

/-- `b` has not got past `a` into a slot: where it waits, it waits behind it. -/
def Behind (s : AdmissionController) (kind : OperationKind) (a b : Nat) : Prop :=
  s.requests b ≠ .inSlot kind ∧
    (s.requests b = .waiting kind →
      [a, b].Sublist ((s.semaphores kind).waiters.map Prod.fst))

theorem semaphores_update {semaphore : Semaphore Nat} {other : OperationKind}
    (hs : s'.semaphores = Function.update s.semaphores other semaphore) (kind : OperationKind) :
    s'.semaphores kind = if kind = other then semaphore else s.semaphores kind := by
  rw [hs, Function.update_apply]

/-- A step in one kind puts nobody to sleep that its semaphore does not. -/
theorem sleepsIn_of_update {semaphore : Semaphore Nat} {other : OperationKind}
    (hs : s'.semaphores = Function.update s.semaphores other semaphore)
    (hback : (a, WaitState.asleep) ∈ semaphore.waiters →
      (a, WaitState.asleep) ∈ (s.semaphores other).waiters)
    (hasleep : s'.SleepsIn kind a) : s.SleepsIn kind a := by
  unfold AdmissionController.SleepsIn at hasleep ⊢
  rw [semaphores_update hs] at hasleep
  split at hasleep
  · rename_i heq
    rw [heq]
    exact hback hasleep
  · exact hasleep

/-- What `enter` does to the queues and to the request. -/
theorem AdmissionController.enter_cases (s : AdmissionController) (id : Nat)
    (kind : OperationKind) :
    ((s.semaphores kind).locked = true ∧
      (s.enter id kind).semaphores =
        Function.update s.semaphores kind ((s.semaphores kind).queueUp id) ∧
      (s.enter id kind).requests = Function.update s.requests id (.waiting kind)) ∨
    ((s.semaphores kind).locked = false ∧
      (s.enter id kind).semaphores =
        Function.update s.semaphores kind (s.semaphores kind).take ∧
      (s.enter id kind).requests = Function.update s.requests id (.inSlot kind)) := by
  unfold AdmissionController.enter
  simp only
  cases (s.semaphores kind).locked with
  | true => exact .inl ⟨rfl, rfl, rfl⟩
  | false => exact .inr ⟨rfl, rfl, rfl⟩

/-- A request that sleeps has slept since it queued up. -/
theorem AdmissionStep.sleptIn (h : AdmissionStep apiVersion s s')
    (hseen : s.requests a ≠ .unseen) (hasleep : s'.SleepsIn kind a) : s.SleepsIn kind a := by
  cases h with
  | @enter id path unseen =>
      obtain ⟨_, hsemaphores, _⟩ | ⟨_, hsemaphores, _⟩ :=
        s.enter_cases id (classifyOperation path apiVersion)
      · refine sleepsIn_of_update hsemaphores (fun hmem => ?_) hasleep
        obtain hmem | hmem := List.mem_append.mp hmem
        · exact hmem
        · have heq : a = id := congrArg Prod.fst (List.mem_singleton.mp hmem)
          rw [heq] at hseen
          exact absurd unseen hseen
      · exact sleepsIn_of_update hsemaphores (fun hmem => hmem) hasleep
  | @cancelWaiting id other waiting =>
      exact sleepsIn_of_update rfl Semaphore.asleep_of_mem_cancel hasleep
  | move move =>
      cases move with
      | resume woken => exact sleepsIn_of_update rfl Semaphore.asleep_of_mem_proceed hasleep
      | unwind cancelled => exact sleepsIn_of_update rfl Semaphore.asleep_of_mem_leave hasleep
      | passOn passing => exact sleepsIn_of_update rfl Semaphore.asleep_of_mem_passOn hasleep
      | leave inSlot => exact sleepsIn_of_update rfl Semaphore.asleep_of_mem_release hasleep

/-- Two requests stay in order when a third one leaves the queue. -/
theorem Behind.removed {id : Nat} {other : OperationKind} {t : AdmissionController}
    {semaphore : Semaphore Nat} (h : Behind s kind a b) (hb : b ≠ id)
    (hs : t.semaphores = Function.update s.semaphores other semaphore)
    (htasks : semaphore.waiters.map Prod.fst =
      ((s.semaphores other).waiters.filter (fun w => decide (w.1 ≠ id))).map Prod.fst)
    (hrequests : t.requests b = s.requests b) (hasleep : t.SleepsIn kind a) :
    Behind t kind a b := by
  unfold AdmissionController.SleepsIn at hasleep
  refine ⟨by rw [hrequests]; exact h.1, ?_⟩
  intro hwaiting
  rw [hrequests] at hwaiting
  have hsub := h.2 hwaiting
  rw [semaphores_update hs] at hasleep ⊢
  split
  · rename_i heq
    subst heq
    rw [if_pos rfl] at hasleep
    have hmem : a ∈ semaphore.waiters.map Prod.fst := List.mem_map_of_mem hasleep
    rw [htasks, mem_map_filter_ne] at hmem
    have hkept := hsub.filter (fun id' => decide (id' ≠ id))
    have hpair : [a, b].filter (fun id' => decide (id' ≠ id)) = [a, b] := by
      simp [hmem.1, hb]
    rw [hpair] at hkept
    rw [htasks]
    rw [List.filter_map] at hkept
    exact hkept
  · exact hsub

theorem AdmissionStep.behind (hs : AdmissionInvariant settings s)
    (h : AdmissionStep apiVersion s s') (hasleep : s.SleepsIn kind a)
    (hasleep' : s'.SleepsIn kind a) (hbehind : Behind s kind a b) : Behind s' kind a b := by
  have hmem : a ∈ (s.semaphores kind).waiters.map Prod.fst := List.mem_map_of_mem hasleep
  -- A request that has gone is neither in the queue nor in a slot.
  have hgone : ∀ t : AdmissionController, t.requests b = .gone → Behind t kind a b := by
    intro t ht
    refine ⟨?_, ?_⟩ <;> rw [ht] <;> intro h <;> cases h
  cases h with
  | @enter id path unseen =>
      have hlocked : (s.semaphores kind).locked = true := by
        rw [Semaphore.locked, Bool.or_eq_true, List.any_eq_true]
        exact .inr ⟨_, hasleep, rfl⟩
      obtain ⟨_, hsemaphores, hrequests⟩ | ⟨hfree, hsemaphores, hrequests⟩ :=
        s.enter_cases id (classifyOperation path apiVersion)
      · by_cases hb : b = id
        · subst hb
          refine ⟨?_, ?_⟩ <;> rw [hrequests, Function.update_self] <;> intro h
          · cases h
          · have hkind := SlotPhase.waiting.inj h
            rw [semaphores_update hsemaphores, if_pos hkind.symm, Semaphore.queueUp,
              List.map_append, hkind]
            exact (List.singleton_sublist.mpr hmem).append (List.Sublist.refl [b])
        · refine ⟨?_, ?_⟩ <;> rw [hrequests, Function.update_of_ne hb]
          · exact hbehind.1
          · intro hwaiting
            refine (hbehind.2 hwaiting).trans ?_
            rw [semaphores_update hsemaphores]
            split
            · rename_i heq
              rw [← heq, Semaphore.queueUp, List.map_append]
              exact List.sublist_append_left _ _
            · exact List.Sublist.refl _
      · by_cases hb : b = id
        · subst hb
          refine ⟨?_, ?_⟩ <;> rw [hrequests, Function.update_self] <;> intro h
          · rw [SlotPhase.inSlot.inj h, hlocked] at hfree
            cases hfree
          · cases h
        · refine ⟨?_, ?_⟩ <;> rw [hrequests, Function.update_of_ne hb]
          · exact hbehind.1
          · intro hwaiting
            refine (hbehind.2 hwaiting).trans ?_
            rw [semaphores_update hsemaphores]
            split
            · rename_i heq
              rw [← heq]
              exact List.Sublist.refl _
            · exact List.Sublist.refl _
  | @cancelWaiting id other waiting =>
      refine ⟨hbehind.1, fun hwaiting => ?_⟩
      rw [semaphores_update rfl]
      split
      · rename_i heq
        rw [← heq, Semaphore.map_fst_cancel]
        exact hbehind.2 hwaiting
      · exact hbehind.2 hwaiting
  | move move =>
      cases move with
      | @resume id other woken =>
          by_cases hb : b = id
          · subst hb
            have hphase : (s.resume b other).requests b = .inSlot other :=
              AdmissionController.requests_setRequest ..
            have hne : other ≠ kind := by
              rintro rfl
              have hwaiting : s.requests b = .waiting other :=
                ((hs other).waiting b).mpr (List.mem_map_of_mem woken)
              have hholds := (hs other).sound.not_holds_of_behind (hbehind.2 hwaiting)
                hasleep woken
              cases hholds
            refine ⟨?_, ?_⟩ <;> rw [hphase] <;> intro h
            · exact hne (SlotPhase.inSlot.inj h)
            · cases h
          · exact hbehind.removed hb rfl Semaphore.map_fst_proceed
              (Function.update_of_ne hb ..) hasleep'
      | @unwind id other cancelled =>
          by_cases hb : b = id
          · subst hb
            exact hgone _ (AdmissionController.requests_setRequest ..)
          · exact hbehind.removed hb rfl rfl (Function.update_of_ne hb ..) hasleep'
      | @passOn id other passing =>
          by_cases hb : b = id
          · subst hb
            exact hgone _ (AdmissionController.requests_setRequest ..)
          · exact hbehind.removed hb rfl (Semaphore.map_fst_release _)
              (Function.update_of_ne hb ..) hasleep'
      | @leave id other inSlot =>
          by_cases hb : b = id
          · subst hb
            exact hgone _ (AdmissionController.requests_setRequest ..)
          · have hsame : (s.leave id other).requests b = s.requests b :=
              Function.update_of_ne hb ..
            refine ⟨by rw [hsame]; exact hbehind.1, ?_⟩
            rw [hsame]
            intro hwaiting
            show List.Sublist _ (((AdmissionController.setSemaphore _ _ _).semaphores
              kind).waiters.map Prod.fst)
            rw [semaphores_update rfl]
            split
            · rename_i heq
              rw [Semaphore.map_fst_release, ← heq]
              exact hbehind.2 hwaiting
            · exact hbehind.2 hwaiting

/-- A request that has come stays known. -/
theorem AdmissionStep.seen (h : AdmissionStep apiVersion s s') (hseen : s.requests a ≠ .unseen) :
    s'.requests a ≠ .unseen := by
  have hupdate : ∀ (id : Nat) (phase : SlotPhase), phase ≠ .unseen →
      Function.update s.requests id phase a ≠ .unseen := by
    intro id phase hphase
    rw [Function.update_apply]
    split
    · exact hphase
    · exact hseen
  have hslot : ∀ kind, SlotPhase.inSlot kind ≠ .unseen := fun _ h => by cases h
  have hgone : SlotPhase.gone ≠ .unseen := fun h => by cases h
  cases h with
  | @enter id path unseen =>
      obtain ⟨_, _, hrequests⟩ | ⟨_, _, hrequests⟩ :=
        s.enter_cases id (classifyOperation path apiVersion)
      · rw [hrequests]
        exact hupdate id _ fun h => by cases h
      · rw [hrequests]
        exact hupdate id _ (hslot _)
  | cancelWaiting _ => exact hseen
  | move move =>
      cases move with
      | resume _ => exact hupdate _ _ (hslot _)
      | unwind _ => exact hupdate _ _ hgone
      | passOn _ => exact hupdate _ _ hgone
      | leave _ => exact hupdate _ _ hgone

end Overtaking

/-- Slots are given in the order of arrival: as long as a request sleeps in the
queue of its kind, none that came later has got into a slot of that kind,
whatever other requests did and whoever was cancelled. -/
theorem never_overtaken
    {settings : AdmissionSettings} {apiVersion : String} {s t s' : AdmissionController}
    {kind : OperationKind} {a b : Nat}
    (hrun : Relation.ReflTransGen (AdmissionStep apiVersion) (.start settings) s)
    (ha : s.requests a = .waiting kind) (hb : s.requests b = .unseen)
    (hto : Relation.ReflTransGen (AdmissionStep apiVersion) s t)
    (hon : Relation.ReflTransGen (AdmissionStep apiVersion) t s')
    (hasleep : s'.SleepsIn kind a) : t.requests b ≠ .inSlot kind := by
  have hs := (AdmissionInvariant.start settings).run hrun
  have hforward : t.requests a ≠ .unseen ∧ (t.SleepsIn kind a → Behind t kind a b) := by
    clear hon
    induction hto with
    | refl =>
        refine ⟨?_, fun _ => ⟨?_, ?_⟩⟩
        · rw [ha]
          intro h
          cases h
        · rw [hb]
          intro h
          cases h
        · rw [hb]
          intro h
          cases h
    | tail hto hstep ih =>
        obtain ⟨hseen, hbehind⟩ := ih
        refine ⟨hstep.seen hseen, fun hsleeps => ?_⟩
        have hslept := hstep.sleptIn hseen hsleeps
        exact hstep.behind (hs.run hto) hslept hsleeps (hbehind hslept)
  have hbackward : t.SleepsIn kind a := by
    have hback : t.requests a ≠ .unseen → t.SleepsIn kind a := by
      clear hforward hto
      induction hon using Relation.ReflTransGen.head_induction_on with
      | refl => exact fun _ => hasleep
      | head hstep _ ih => exact fun hseen => hstep.sleptIn hseen (ih (hstep.seen hseen))
    exact hback hforward.1
  exact (hforward.2 hbackward).1

/-! ## One worker -/

/-- One worker of each kind. -/
def oneWorker : AdmissionSettings :=
  ⟨1, 1, 1⟩

/-- A request for a query, as a path. -/
def queryPath : String :=
  "/services/data/v60.0/query"

/-- Two queries come: the first one gets the slot and the second one waits. -/
theorem twoQueries_run :
    ∃ s, Relation.ReflTransGen (AdmissionStep "v60.0") (.start oneWorker) s ∧
      s.requests 0 = .inSlot .query ∧ s.requests 1 = .waiting .query ∧
      s.requests 2 = .unseen ∧ s.SleepsIn .query 1 := by
  have hkind : classifyOperation queryPath "v60.0" = .query := by decide +kernel
  have hfirst := Relation.ReflTransGen.single
    (@AdmissionStep.enter "v60.0" (.start oneWorker) 0 queryPath rfl)
  have hsecond := hfirst.tail (@AdmissionStep.enter "v60.0" _ 1 queryPath
    (by rw [hkind]; rfl))
  rw [hkind] at hsecond
  exact ⟨_, hsecond, rfl, rfl, rfl, List.mem_cons_self⟩

theorem admission_of_run_twoQueries :
    ∃ s : AdmissionController, s.requests 0 = .inSlot .query ∧
      s.requests 1 = .waiting .query ∧ s.active .query ≤ 1 ∧
      ((s.semaphores .query).value = 0 ∨ 0 < handed (s.semaphores .query).waiters) := by
  obtain ⟨s, hrun, hfirst, hsecond, _, hasleep⟩ := twoQueries_run
  obtain ⟨_, _, hbound, _, hidle⟩ := admission_of_run hrun .query
  exact ⟨s, hfirst, hsecond, hbound, hidle ⟨_, hasleep, rfl⟩⟩

theorem admission_drains_twoQueries :
    ∃ s : AdmissionController, s.requests 0 = .inSlot .query ∧
      s.requests 1 = .waiting .query ∧
      ∀ t, Relation.ReflTransGen AdmissionMove s t → (∀ u, ¬ AdmissionMove t u) →
        t.semaphores .query = ⟨1, []⟩ := by
  obtain ⟨s, hrun, hfirst, hsecond, _, _⟩ := twoQueries_run
  have hworkers : ∀ kind, 0 < oneWorker.workers kind := by
    intro kind
    cases kind <;> exact Nat.one_pos
  refine ⟨s, hfirst, hsecond, fun t hto hstuck => ?_⟩
  exact ((admission_drains hworkers hrun).2 t hto hstuck).2 .query

/-- A third query comes while the second one sleeps. -/
theorem never_overtaken_twoQueries :
    ∃ t : AdmissionController, t.SleepsIn .query 1 ∧ t.requests 2 ≠ .unseen ∧
      t.requests 2 ≠ .inSlot .query := by
  obtain ⟨s, hrun, _, hsecond, hthird, hasleep⟩ := twoQueries_run
  have hkind : classifyOperation queryPath "v60.0" = .query := by decide +kernel
  have hstep := @AdmissionStep.enter "v60.0" s 2 queryPath hthird
  rw [hkind] at hstep
  obtain ⟨_, hsemaphores, hrequests⟩ | ⟨hfree, _, _⟩ := s.enter_cases 2 .query
  · have hsleeps : (s.enter 2 .query).SleepsIn .query 1 := by
      unfold AdmissionController.SleepsIn
      rw [hsemaphores, Function.update_self]
      exact List.mem_append_left _ hasleep
    refine ⟨_, hsleeps, ?_, never_overtaken hrun hsecond hthird
      (Relation.ReflTransGen.single hstep) Relation.ReflTransGen.refl hsleeps⟩
    rw [hrequests, Function.update_self]
    intro h
    cases h
  · have hlocked : (s.semaphores .query).locked = true := by
      rw [Semaphore.locked, Bool.or_eq_true, List.any_eq_true]
      exact .inr ⟨_, hasleep, rfl⟩
    rw [hlocked] at hfree
    cases hfree

end FakeForce
end Northwind
