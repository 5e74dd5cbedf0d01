import Mathlib.Logic.Relation

/-!
# Writes with a crash anywhere between them

A program reads the state, decides its writes and performs them one by one.  A
crash leaves the state after some prefix of the writes, and the next round
starts from there.

`Throughout` says that a property holds before, between and after the writes;
a property that every program keeps throughout is kept by any number of rounds.
-/

namespace Northwind
namespace CrashPrefixes

universe u v w

variable {σ : Type u} {ω : Type v} (apply : σ → ω → σ)

/-- The state after the writes. -/
def after (s : σ) (writes : List ω) : σ :=
  writes.foldl apply s

@[simp] theorem after_nil (s : σ) : after apply s [] = s :=
  rfl

@[simp] theorem after_cons (s : σ) (write : ω) (writes : List ω) :
    after apply s (write :: writes) = after apply (apply s write) writes :=
  rfl

theorem after_append (s : σ) (writes writes' : List ω) :
    after apply s (writes ++ writes') = after apply (after apply s writes) writes' :=
  List.foldl_append

/-- `P` holds before, between and after the writes. -/
def Throughout (P : σ → Prop) : σ → List ω → Prop
  | s, [] => P s
  | s, write :: writes => P s ∧ Throughout P (apply s write) writes

namespace Throughout

variable {apply} {P Q : σ → Prop} {s : σ} {writes writes' : List ω}

theorem first (h : Throughout apply P s writes) : P s := by
  cases writes with
  | nil => exact h
  | cons write writes => exact h.1

theorem last (h : Throughout apply P s writes) : P (after apply s writes) := by
  induction writes generalizing s with
  | nil => exact h
  | cons write writes ih => exact ih h.2

theorem append
    (h : Throughout apply P s writes)
    (h' : Throughout apply P (after apply s writes) writes') :
    Throughout apply P s (writes ++ writes') := by
  induction writes generalizing s with
  | nil => exact h'
  | cons write writes ih => exact ⟨h.1, ih h.2 h'⟩

theorem take (h : Throughout apply P s writes) (k : Nat) :
    Throughout apply P s (writes.take k) := by
  induction writes generalizing s k with
  | nil =>
      rw [List.take_nil]
      exact h
  | cons write writes ih =>
      cases k with
      | zero => exact h.1
      | succ k => exact ⟨h.1, ih h.2 k⟩

/-- A crash after `k` writes leaves a state with the property. -/
theorem crash (h : Throughout apply P s writes) (k : Nat) :
    P (after apply s (writes.take k)) :=
  (h.take k).last

theorem mono (h : Throughout apply P s writes) (hPQ : ∀ s, P s → Q s) :
    Throughout apply Q s writes := by
  induction writes generalizing s with
  | nil => exact hPQ s h
  | cons write writes ih => exact ⟨hPQ s h.1, ih h.2⟩

/-- Writes that each keep the property keep it throughout. -/
theorem of_each
    (hs : P s) (heach : ∀ s write, write ∈ writes → P s → P (apply s write)) :
    Throughout apply P s writes := by
  induction writes generalizing s with
  | nil => exact hs
  | cons write writes ih =>
      refine ⟨hs, ih (heach s write List.mem_cons_self hs) ?_⟩
      intro s' write' hmem
      exact heach s' write' (List.mem_cons_of_mem _ hmem)

end Throughout

/-- One round: a program runs and crashes after some of its writes, or after
all of them. -/
def Round {ι : Type w} (program : ι → σ → List ω) (s s' : σ) : Prop :=
  ∃ choice k, s' = after apply s ((program choice s).take k)

/-- What every program keeps throughout holds after any number of rounds. -/
theorem invariant_of_rounds
    {ι : Type w} {program : ι → σ → List ω} {P : σ → Prop} {start s : σ}
    (hprogram : ∀ choice s, P s → Throughout apply P s (program choice s))
    (hstart : P start)
    (hrun : Relation.ReflTransGen (Round apply program) start s) :
    P s := by
  induction hrun with
  | refl => exact hstart
  | tail _ hround ih =>
      obtain ⟨choice, k, rfl⟩ := hround
      exact (hprogram choice _ ih).crash k

end CrashPrefixes
end Northwind
