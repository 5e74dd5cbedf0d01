import Mathlib.Data.List.Basic
import Mathlib.Data.List.Nodup

/-!
# A counting semaphore with its queue of waiting tasks

A task that finds the semaphore taken queues up and sleeps.  A release wakes the
first task that still sleeps and hands it the unit before it runs; a task that
is cancelled after it was woken passes the unit on when it runs.  This is the
semaphore of a single-threaded event loop: every operation runs to its end
before another one starts.  It is `asyncio.Semaphore` as Python 3.11 and 3.12 have
it, where every wake-up is of one task.

`Sound` is what the operations keep: units are neither lost nor made, no task
is woken before one that came earlier, and nobody sleeps while a unit lies idle,
unless a woken task is about to hand it on.
-/

namespace Northwind
namespace Semaphores

universe u

/-- What has become of a waiting task since it queued up. -/
inductive WaitState where
  | asleep
  | woken
  /-- Cancelled in its sleep. -/
  | cancelled
  /-- Cancelled after it was woken: it still holds the unit. -/
  | passing
deriving DecidableEq

/-- The waiting task has been handed a unit. -/
def WaitState.holds : WaitState → Bool
  | .woken | .passing => true
  | .asleep | .cancelled => false

/-- What a cancellation makes of a waiting task. -/
def WaitState.cancel : WaitState → WaitState
  | .asleep | .cancelled => .cancelled
  | .woken | .passing => .passing

structure Semaphore (κ : Type u) where
  value : Nat
  waiters : List (κ × WaitState)

/-- The first sleeping task is woken. -/
def wakeFirst {κ : Type u} : List (κ × WaitState) → Option (List (κ × WaitState))
  | [] => none
  | w :: rest =>
      if w.2 = .asleep then some ((w.1, .woken) :: rest)
      else (wakeFirst rest).map (fun rest' => w :: rest')

/-- The units that are handed to waiting tasks. -/
def handed {κ : Type u} (waiters : List (κ × WaitState)) : Nat :=
  waiters.countP (fun w => w.2.holds)

namespace Semaphore

variable {κ : Type u} [DecidableEq κ]

/-- It cannot be acquired at once: a task that comes now may not overtake. -/
def locked (s : Semaphore κ) : Bool :=
  s.value == 0 || s.waiters.any (fun w => w.2 != .cancelled)

def take (s : Semaphore κ) : Semaphore κ :=
  { s with value := s.value - 1 }

def queueUp (s : Semaphore κ) (k : κ) : Semaphore κ :=
  { s with waiters := s.waiters ++ [(k, .asleep)] }

/-- A unit goes to the first task that sleeps, if there is one. -/
def wakeNext (s : Semaphore κ) : Semaphore κ :=
  match wakeFirst s.waiters with
  | none => s
  | some waiters => ⟨s.value - 1, waiters⟩

def release (s : Semaphore κ) : Semaphore κ :=
  wakeNext { s with value := s.value + 1 }

def cancel (s : Semaphore κ) (k : κ) : Semaphore κ :=
  { s with
    waiters := s.waiters.map (fun w => if w.1 = k then (w.1, w.2.cancel) else w) }

/-- A task leaves the queue, as one cancelled in its sleep does when it runs. -/
def leave (s : Semaphore κ) (k : κ) : Semaphore κ :=
  { s with waiters := s.waiters.filter (fun w => decide (w.1 ≠ k)) }

/-- A woken task runs: it leaves the queue and wakes the next while units are left. -/
def proceed (s : Semaphore κ) (k : κ) : Semaphore κ :=
  if 0 < s.value then (s.leave k).wakeNext else s.leave k

/-- A task cancelled after it was woken runs: its unit goes back first. -/
def passOn (s : Semaphore κ) (k : κ) : Semaphore κ :=
  (s.leave k).release

end Semaphore

/-! ## Waking -/

section Waking

variable {κ : Type u} {waiters waiters' : List (κ × WaitState)}

/-- Who is woken: the first that sleeps. -/
theorem wakeFirst_eq_some (h : wakeFirst waiters = some waiters') :
    ∃ front k back, waiters = front ++ (k, .asleep) :: back ∧
      waiters' = front ++ (k, .woken) :: back ∧ ∀ w ∈ front, w.2 ≠ .asleep := by
  induction waiters generalizing waiters' with
  | nil => cases h
  | cons w rest ih =>
      rw [wakeFirst] at h
      split at h
      · rename_i hasleep
        obtain ⟨k, state⟩ := w
        cases hasleep
        exact ⟨[], k, rest, rfl, (Option.some.inj h).symm, fun _ hw => absurd hw List.not_mem_nil⟩
      · rename_i hasleep
        obtain ⟨rest', hrest, rfl⟩ := Option.map_eq_some_iff.mp h
        obtain ⟨front, k, back, hfront, hback, hnone⟩ := ih hrest
        refine ⟨w :: front, k, back, ?_, ?_, ?_⟩
        · rw [hfront, List.cons_append]
        · rw [hback, List.cons_append]
        · intro w' hw'
          obtain rfl | hw' := List.mem_cons.mp hw'
          · exact hasleep
          · exact hnone w' hw'

theorem wakeFirst_eq_none (h : wakeFirst waiters = none) : ∀ w ∈ waiters, w.2 ≠ .asleep := by
  induction waiters with
  | nil => exact fun _ hw => absurd hw List.not_mem_nil
  | cons w rest ih =>
      rw [wakeFirst] at h
      split at h
      · cases h
      · rename_i hasleep
        intro w' hw'
        obtain rfl | hw' := List.mem_cons.mp hw'
        · exact hasleep
        · exact ih (Option.map_eq_none_iff.mp h) w' hw'

/-- No task sleeps in front of one that has been handed a unit. -/
def Ordered (waiters : List (κ × WaitState)) : Prop :=
  waiters.Pairwise (fun w w' => w.2 = .asleep → w'.2.holds = false)

theorem handed_wakeFirst (h : wakeFirst waiters = some waiters') :
    handed waiters' = handed waiters + 1 := by
  obtain ⟨front, k, back, rfl, rfl, _⟩ := wakeFirst_eq_some h
  simp only [handed, List.countP_append, List.countP_cons, WaitState.holds]
  simp only [if_true, Bool.false_eq_true, if_false]
  omega

theorem map_fst_wakeFirst (h : wakeFirst waiters = some waiters') :
    waiters'.map Prod.fst = waiters.map Prod.fst := by
  obtain ⟨front, k, back, rfl, rfl, _⟩ := wakeFirst_eq_some h
  simp only [List.map_append, List.map_cons]

theorem Ordered.wakeFirst (ho : Ordered waiters) (h : wakeFirst waiters = some waiters') :
    Ordered waiters' := by
  obtain ⟨front, k, back, rfl, rfl, hfront⟩ := wakeFirst_eq_some h
  unfold Ordered at ho ⊢
  rw [List.pairwise_append, List.pairwise_cons] at ho ⊢
  obtain ⟨hfirst, ⟨hk, hback⟩, hcross⟩ := ho
  have hwoken : ∀ w' ∈ back, (k, WaitState.woken).2 = .asleep → w'.2.holds = false := by
    intro _ _ h
    cases h
  refine ⟨hfirst, ⟨hwoken, hback⟩, ?_⟩
  intro w hw w' hw' hasleep
  exact absurd hasleep (hfront w hw)

/-- Nobody falls asleep in a wake-up. -/
theorem asleep_of_mem_wakeFirst (h : wakeFirst waiters = some waiters') {k : κ}
    (hk : (k, WaitState.asleep) ∈ waiters') : (k, WaitState.asleep) ∈ waiters := by
  obtain ⟨front, k', back, rfl, rfl, _⟩ := wakeFirst_eq_some h
  rw [List.mem_append, List.mem_cons] at hk
  obtain hk | hk | hk := hk
  · exact List.mem_append_left _ hk
  · cases hk
  · exact List.mem_append_right _ (List.mem_cons_of_mem _ hk)

end Waking

/-! ## What the operations do to the queue -/

theorem WaitState.holds_cancel (state : WaitState) : state.cancel.holds = state.holds := by
  cases state <;> rfl

namespace Semaphore

variable {κ : Type u} {s : Semaphore κ}

theorem map_fst_wakeNext (s : Semaphore κ) :
    s.wakeNext.waiters.map Prod.fst = s.waiters.map Prod.fst := by
  unfold Semaphore.wakeNext
  cases hwake : wakeFirst s.waiters with
  | none => rfl
  | some waiters => exact map_fst_wakeFirst hwake

/-- Nobody falls asleep again. -/
theorem asleep_of_mem_wakeNext {k : κ} (h : (k, WaitState.asleep) ∈ s.wakeNext.waiters) :
    (k, WaitState.asleep) ∈ s.waiters := by
  unfold Semaphore.wakeNext at h
  cases hwake : wakeFirst s.waiters with
  | none =>
      rw [hwake] at h
      exact h
  | some waiters =>
      rw [hwake] at h
      exact asleep_of_mem_wakeFirst hwake h

theorem map_fst_release (s : Semaphore κ) :
    s.release.waiters.map Prod.fst = s.waiters.map Prod.fst :=
  map_fst_wakeNext _

theorem asleep_of_mem_release {k : κ} (h : (k, WaitState.asleep) ∈ s.release.waiters) :
    (k, WaitState.asleep) ∈ s.waiters :=
  asleep_of_mem_wakeNext (s := ⟨s.value + 1, s.waiters⟩) h

variable [DecidableEq κ] {k : κ}

theorem handed_cancel :
    handed (s.cancel k).waiters = handed s.waiters := by
  unfold handed Semaphore.cancel
  rw [List.countP_map]
  refine List.countP_congr fun w _ => ?_
  simp only [Function.comp_apply]
  split
  · rw [WaitState.holds_cancel]
  · rfl

theorem map_fst_cancel : (s.cancel k).waiters.map Prod.fst = s.waiters.map Prod.fst := by
  unfold Semaphore.cancel
  rw [List.map_map]
  refine List.map_congr_left fun w _ => ?_
  simp only [Function.comp_apply]
  split <;> rfl

theorem asleep_of_mem_cancel {k' : κ} (h : (k', WaitState.asleep) ∈ (s.cancel k).waiters) :
    (k', WaitState.asleep) ∈ s.waiters := by
  obtain ⟨w, hw, heq⟩ := List.mem_map.mp h
  split at heq
  · have hstate := congrArg Prod.snd heq
    cases hw2 : w.2 with
    | asleep | woken | cancelled | passing =>
        simp only [hw2] at hstate
        cases hstate
  · rw [heq] at hw
    exact hw

theorem map_fst_proceed :
    (s.proceed k).waiters.map Prod.fst = (s.leave k).waiters.map Prod.fst := by
  unfold Semaphore.proceed
  split
  · exact map_fst_wakeNext _
  · rfl

theorem asleep_of_mem_leave {k' : κ} (h : (k', WaitState.asleep) ∈ (s.leave k).waiters) :
    (k', WaitState.asleep) ∈ s.waiters :=
  List.mem_of_mem_filter h

theorem asleep_of_mem_proceed {k' : κ} (h : (k', WaitState.asleep) ∈ (s.proceed k).waiters) :
    (k', WaitState.asleep) ∈ s.waiters := by
  unfold Semaphore.proceed at h
  split at h
  · exact asleep_of_mem_leave (asleep_of_mem_wakeNext h)
  · exact asleep_of_mem_leave h

theorem asleep_of_mem_passOn {k' : κ} (h : (k', WaitState.asleep) ∈ (s.passOn k).waiters) :
    (k', WaitState.asleep) ∈ s.waiters :=
  asleep_of_mem_leave (asleep_of_mem_release h)

end Semaphore

/-! ## Soundness -/

/-- Somebody sleeps. -/
def Sleeps {κ : Type u} (waiters : List (κ × WaitState)) : Prop :=
  ∃ w ∈ waiters, w.2 = .asleep

/-- What holds of a semaphore of `capacity` units, `inUse` of which are held by
tasks that run. -/
structure Sound {κ : Type u} (capacity inUse : Nat) (s : Semaphore κ) : Prop where
  conserved : s.value + handed s.waiters + inUse = capacity
  tasks : (s.waiters.map Prod.fst).Nodup
  ordered : Ordered s.waiters
  idle : Sleeps s.waiters → s.value = 0 ∨ 0 < handed s.waiters

section Sound

variable {κ : Type u} {s : Semaphore κ} {capacity inUse : Nat}

/-- What a wake-up with a unit left keeps, and what it brings about: where somebody
sleeps there is afterwards a task that has been handed a unit. -/
theorem sound_wakeNext (hvalue : 0 < s.value)
    (hconserved : s.value + handed s.waiters + inUse = capacity)
    (htasks : (s.waiters.map Prod.fst).Nodup) (hordered : Ordered s.waiters) :
    Sound capacity inUse s.wakeNext := by
  unfold Semaphore.wakeNext
  cases hwake : wakeFirst s.waiters with
  | none =>
      refine ⟨hconserved, htasks, hordered, ?_⟩
      rintro ⟨w, hw, hasleep⟩
      exact absurd hasleep (wakeFirst_eq_none hwake w hw)
  | some waiters =>
      have hhanded := handed_wakeFirst hwake
      refine ⟨?_, ?_, hordered.wakeFirst hwake, ?_⟩
      · show s.value - 1 + handed waiters + inUse = capacity
        omega
      · show (waiters.map Prod.fst).Nodup
        rw [map_fst_wakeFirst hwake]
        exact htasks
      · intro _
        exact .inr (by rw [hhanded]; exact Nat.succ_pos _)

end Sound

namespace Sound

variable {κ : Type u} {capacity inUse : Nat} {s : Semaphore κ} {k : κ}

theorem full (capacity : Nat) : Sound capacity 0 (⟨capacity, []⟩ : Semaphore κ) where
  conserved := rfl
  tasks := List.nodup_nil
  ordered := List.Pairwise.nil
  idle := fun ⟨_, hw, _⟩ => absurd hw List.not_mem_nil

/-- More units are never out than there are. -/
theorem inUse_le (h : Sound capacity inUse s) : inUse ≤ capacity := by
  have hconserved := h.conserved
  omega

/-- Whoever sleeps has somebody in front who is going to run: no deadlock. -/
theorem busy_of_sleeps (h : Sound capacity inUse s) (hcapacity : 0 < capacity)
    (hsleeps : Sleeps s.waiters) : 0 < inUse + handed s.waiters := by
  have hconserved := h.conserved
  obtain hzero | hhanded := h.idle hsleeps
  · omega
  · omega

theorem take (h : Sound capacity inUse s) (hfree : s.locked = false) :
    Sound capacity (inUse + 1) s.take := by
  rw [Semaphore.locked, Bool.or_eq_false_iff, beq_eq_false_iff_ne, List.any_eq_false] at hfree
  obtain ⟨hvalue, hnobody⟩ := hfree
  have hconserved := h.conserved
  refine ⟨?_, h.tasks, h.ordered, ?_⟩
  · show s.value - 1 + handed s.waiters + (inUse + 1) = capacity
    omega
  · rintro ⟨w, hw, hasleep⟩
    refine absurd ?_ (hnobody w hw)
    rw [hasleep]
    rfl

theorem queueUp (h : Sound capacity inUse s) (hlocked : s.locked = true)
    (hnew : k ∉ s.waiters.map Prod.fst) : Sound capacity inUse (s.queueUp k) := by
  have hhanded : handed (s.waiters ++ [(k, WaitState.asleep)]) = handed s.waiters := by
    simp [handed, WaitState.holds]
  refine ⟨?_, ?_, ?_, ?_⟩
  · show s.value + handed (s.waiters ++ [(k, WaitState.asleep)]) + inUse = capacity
    rw [hhanded]
    exact h.conserved
  · show ((s.waiters ++ [(k, WaitState.asleep)]).map Prod.fst).Nodup
    rw [List.map_append, List.nodup_append]
    refine ⟨h.tasks, List.nodup_singleton _, ?_⟩
    intro k₁ hk₁ k₂ hk₂ heq
    rw [heq, List.mem_singleton.mp hk₂] at hk₁
    exact hnew hk₁
  · refine List.pairwise_append.mpr ⟨h.ordered, List.pairwise_singleton _ _, ?_⟩
    intro w _ w' hw' _
    rw [List.mem_singleton.mp hw']
    rfl
  · intro _
    show s.value = 0 ∨ 0 < handed (s.waiters ++ [(k, WaitState.asleep)])
    rw [hhanded]
    rw [Semaphore.locked, Bool.or_eq_true, beq_iff_eq, List.any_eq_true] at hlocked
    obtain hzero | ⟨w, hw, hstate⟩ := hlocked
    · exact .inl hzero
    · by_cases hholds : w.2.holds = true
      · exact .inr (List.countP_pos_iff.mpr ⟨w, hw, hholds⟩)
      · refine h.idle ⟨w, hw, ?_⟩
        cases hw2 : w.2 with
        | asleep => rfl
        | woken => exact absurd (by rw [hw2]; rfl) hholds
        | cancelled => exact absurd hstate (by rw [hw2]; decide)
        | passing => exact absurd (by rw [hw2]; rfl) hholds

theorem release (h : Sound capacity (inUse + 1) s) : Sound capacity inUse s.release := by
  have hconserved := h.conserved
  refine sound_wakeNext (s := ⟨s.value + 1, s.waiters⟩) (Nat.succ_pos _) ?_ h.tasks h.ordered
  show s.value + 1 + handed s.waiters + inUse = capacity
  omega

section Leaving

variable [DecidableEq κ]

theorem cancel (h : Sound capacity inUse s) (k : κ) : Sound capacity inUse (s.cancel k) := by
  have hcancelled : ∀ w : κ × WaitState, (if w.1 = k then (w.1, w.2.cancel) else w).2 = .asleep →
      w.2 = .asleep := by
    intro w hasleep
    split at hasleep
    · cases hstate : w.2 with
      | asleep => rfl
      | woken | cancelled | passing =>
          rw [hstate] at hasleep
          cases hasleep
    · exact hasleep
  have hholds : ∀ w : κ × WaitState,
      (if w.1 = k then (w.1, w.2.cancel) else w).2.holds = w.2.holds := by
    intro w
    split
    · exact WaitState.holds_cancel w.2
    · rfl
  refine ⟨?_, ?_, ?_, ?_⟩
  · rw [Semaphore.handed_cancel]
    exact h.conserved
  · rw [Semaphore.map_fst_cancel]
    exact h.tasks
  · refine List.pairwise_map.mpr (h.ordered.imp ?_)
    intro w w' hww' hasleep
    rw [hholds w']
    exact hww' (hcancelled w hasleep)
  · rintro ⟨w, hw, hasleep⟩
    obtain ⟨w', hw', rfl⟩ := List.mem_map.mp hw
    rw [Semaphore.handed_cancel]
    exact h.idle ⟨w', hw', hcancelled w' hasleep⟩

/-- The units handed out, without those of a task that leaves. -/
theorem handed_filter_ne {waiters : List (κ × WaitState)}
    (htasks : (waiters.map Prod.fst).Nodup) {state : WaitState} (hk : (k, state) ∈ waiters) :
    handed (waiters.filter (fun w => decide (w.1 ≠ k))) + (if state.holds then 1 else 0) =
      handed waiters := by
  obtain ⟨front, back, rfl⟩ := List.append_of_mem hk
  rw [List.map_append, List.map_cons, List.nodup_append, List.nodup_cons] at htasks
  obtain ⟨_, ⟨hback, _⟩, hcross⟩ := htasks
  have hfront' : front.filter (fun w => decide (w.1 ≠ k)) = front := by
    refine List.filter_eq_self.mpr fun w hw => decide_eq_true ?_
    exact hcross w.1 (List.mem_map_of_mem hw) k List.mem_cons_self
  have hback' : back.filter (fun w => decide (w.1 ≠ k)) = back := by
    refine List.filter_eq_self.mpr fun w hw => decide_eq_true ?_
    rintro rfl
    exact hback (List.mem_map.mpr ⟨w, hw, rfl⟩)
  rw [List.filter_append, List.filter_cons, hfront', hback']
  simp only [handed, List.countP_append, List.countP_cons, ne_eq, not_true_eq_false,
    decide_false, Bool.false_eq_true, if_false]
  omega

theorem nodup_filter_ne {waiters : List (κ × WaitState)}
    (htasks : (waiters.map Prod.fst).Nodup) (k : κ) :
    ((waiters.filter (fun w => decide (w.1 ≠ k))).map Prod.fst).Nodup :=
  (List.filter_sublist.map Prod.fst).nodup htasks

theorem sleeps_of_leave {k : κ} (h : Sleeps (s.leave k).waiters) : Sleeps s.waiters := by
  obtain ⟨w, hw, hasleep⟩ := h
  exact ⟨w, List.mem_of_mem_filter hw, hasleep⟩

/-- A woken task runs, and holds its unit from now on. -/
theorem proceed (h : Sound capacity inUse s) (hk : (k, WaitState.woken) ∈ s.waiters) :
    Sound capacity (inUse + 1) (s.proceed k) := by
  have hconserved := h.conserved
  have hhanded : handed (s.leave k).waiters + 1 = handed s.waiters := handed_filter_ne h.tasks hk
  have hleft : (s.leave k).value + handed (s.leave k).waiters + (inUse + 1) = capacity := by
    show s.value + handed (s.leave k).waiters + (inUse + 1) = capacity
    omega
  unfold Semaphore.proceed
  split
  · rename_i hvalue
    exact sound_wakeNext hvalue hleft (nodup_filter_ne h.tasks k) (h.ordered.filter _)
  · rename_i hvalue
    exact ⟨hleft, nodup_filter_ne h.tasks k, h.ordered.filter _,
      fun _ => .inl (Nat.eq_zero_of_not_pos hvalue)⟩

/-- A task cancelled in its sleep leaves, and wakes nobody: whoever had to wake the
tasks behind it still has to. -/
theorem leave (h : Sound capacity inUse s) (hk : (k, WaitState.cancelled) ∈ s.waiters) :
    Sound capacity inUse (s.leave k) := by
  have hhanded : handed (s.leave k).waiters = handed s.waiters := handed_filter_ne h.tasks hk
  refine ⟨?_, nodup_filter_ne h.tasks k, h.ordered.filter _, fun hsleeps => ?_⟩
  · rw [hhanded]
    exact h.conserved
  · rw [hhanded]
    exact h.idle (sleeps_of_leave hsleeps)

/-- A task cancelled after it was woken gives its unit back. -/
theorem passOn (h : Sound capacity inUse s) (hk : (k, WaitState.passing) ∈ s.waiters) :
    Sound capacity inUse (s.passOn k) := by
  have hconserved := h.conserved
  have hhanded : handed (s.leave k).waiters + 1 = handed s.waiters := handed_filter_ne h.tasks hk
  refine sound_wakeNext (s := ⟨s.value + 1, (s.leave k).waiters⟩) (Nat.succ_pos _) ?_
    (nodup_filter_ne h.tasks k) (h.ordered.filter _)
  show s.value + 1 + handed (s.leave k).waiters + inUse = capacity
  omega

end Leaving

/-- Of two waiting tasks the later one is not handed a unit while the earlier
one sleeps. -/
theorem not_holds_of_behind (h : Sound capacity inUse s) {a b : κ} {state : WaitState}
    (hab : [a, b].Sublist (s.waiters.map Prod.fst)) (ha : (a, WaitState.asleep) ∈ s.waiters)
    (hb : (b, state) ∈ s.waiters) : state.holds = false := by
  obtain ⟨front, back, hsplit⟩ := List.append_of_mem ha
  have htasks := h.tasks
  have hordered := h.ordered
  rw [hsplit] at hab htasks hordered hb
  rw [List.map_append, List.map_cons] at hab htasks
  have hne : a ≠ b := by
    have hnodup := hab.nodup htasks
    rw [List.nodup_cons, List.mem_singleton] at hnodup
    exact hnodup.1
  rw [List.nodup_append, List.nodup_cons] at htasks
  obtain ⟨_, ⟨_, _⟩, hcross⟩ := htasks
  have hafront : a ∉ front.map Prod.fst :=
    fun hmem => hcross a hmem a List.mem_cons_self rfl
  -- `b` cannot stand in front: the sublist starts with `a`.
  rw [List.mem_append, List.mem_cons] at hb
  obtain hb | hb | hb := hb
  · have hbfront : b ∈ front.map Prod.fst := List.mem_map_of_mem hb
    have hsub := List.sublist_append_iff.mp hab
    obtain ⟨l₁, l₂, hl, hl₁, hl₂⟩ := hsub
    cases l₁ with
    | nil =>
        rw [List.nil_append] at hl
        rw [← hl] at hl₂
        have hmem : b ∈ a :: back.map Prod.fst :=
          hl₂.subset (List.mem_cons_of_mem a (List.mem_singleton_self b))
        exact absurd rfl (hcross b hbfront b hmem)
    | cons x l₁ =>
        rw [List.cons_append, List.cons.injEq] at hl
        have hmem : a ∈ front.map Prod.fst := hl₁.subset (hl.1 ▸ List.mem_cons_self)
        exact absurd hmem hafront
  · exact absurd (congrArg Prod.fst hb).symm hne
  · exact (List.pairwise_cons.mp (List.pairwise_append.mp hordered).2.1).1 _ hb rfl

end Sound

end Semaphores
end Northwind
