import Mathlib.Data.List.Basic
import Mathlib.Logic.Relation

/-!
# Programs over a store, with a crash between any two writes

A program reads the store, writes to it and ends with a value or an error.  Its
run keeps the state before every write, so that a crash is the loss of the
writes from one of them on; an error is an ending, and takes no write back.

`Meets` is the weakest precondition: it asks one thing of the states between
the writes, one of every ending with a value and one of every ending with an
error.  It is exact for every construct, so that a program is run by rewriting.
-/

namespace Northwind
namespace CrashPrograms

universe u v w

/-- What a program does: the states before its writes, the state at its end
and how it ends. -/
structure Run (σ : Type u) (ε : Type v) (α : Type w) where
  before : List σ
  final : σ
  result : Except ε α

/-- The states a run passes through, the last one included. -/
def Run.states {σ : Type u} {ε : Type v} {α : Type w} (run : Run σ ε α) : List σ :=
  run.before ++ [run.final]

def Program (σ : Type u) (ε : Type v) (α : Type w) :=
  σ → Run σ ε α

namespace Program

variable {σ : Type u} {ε : Type v} {α β γ : Type w}

protected def pure (a : α) : Program σ ε α :=
  fun s => ⟨[], s, .ok a⟩

/-- The second program starts from the state the first one leaves; an error
ends both. -/
protected def bind (p : Program σ ε α) (f : α → Program σ ε β) : Program σ ε β :=
  fun s =>
    match (p s).result with
    | .error e => ⟨(p s).before, (p s).final, .error e⟩
    | .ok a =>
        let rest := f a (p s).final
        ⟨(p s).before ++ rest.before, rest.final, rest.result⟩

instance : Monad (Program σ ε) where
  pure := Program.pure
  bind := Program.bind

def read {σ : Type w} {ε : Type v} : Program σ ε σ :=
  fun s => ⟨[], s, .ok s⟩

def raise (e : ε) : Program σ ε α :=
  fun s => ⟨[], s, .error e⟩

/-- One write, on its own. -/
def write (change : σ → σ) : Program σ ε PUnit :=
  fun s => ⟨[s], change s, .ok ⟨⟩⟩

def forEach {ι : Type w} (body : ι → Program σ ε PUnit.{w + 1}) :
    List ι → Program σ ε PUnit.{w + 1}
  | [] => pure ⟨⟩
  | x :: xs => do
      body x
      forEach body xs

/-- A loop that adds up what its passes answer. -/
def sumEach {ι : Type w} {σ : Type u} {ε : Type v} (body : ι → Program σ ε Nat) :
    List ι → Program σ ε Nat
  | [] => pure 0
  | x :: xs => do
      let count ← body x
      let rest ← sumEach body xs
      pure (count + rest)

/-- One write of everything, or none of it where an error ends the program. -/
def transaction (p : Program σ ε α) : Program σ ε α :=
  fun s =>
    match (p s).result with
    | .error e => ⟨[], s, .error e⟩
    | .ok a => ⟨[s], (p s).final, .ok a⟩

/-- A program on a part of a larger store. -/
def onPart {τ : Type u} {ε' : Type v} (part : τ → σ) (replace : σ → τ → τ) (wrap : ε → ε')
    (p : Program σ ε α) : Program τ ε' α :=
  fun t =>
    let run := p (part t)
    ⟨run.before.map (fun s => replace s t), replace run.final t,
      match run.result with
      | .error e => .error (wrap e)
      | .ok a => .ok a⟩

/-- The state after `k` writes, where the program makes that many. -/
def Stops (p : Program σ ε α) (s : σ) (k : Nat) (s' : σ) : Prop :=
  (p s).states[k]? = some s'

/-- A crash, or the end of the program, leaves `s'`. -/
def Leaves (p : Program σ ε α) (s s' : σ) : Prop :=
  ∃ k, p.Stops s k s'

/-- The weakest precondition: `I` holds between the writes, `Q` of an ending
with a value and `E` of an ending with an error. -/
def Meets (p : Program σ ε α) (I : σ → Prop) (Q : α → σ → Prop) (E : ε → σ → Prop)
    (s : σ) : Prop :=
  (∀ t, t ∈ (p s).before → I t) ∧
    match (p s).result with
    | .ok a => Q a (p s).final
    | .error e => E e (p s).final

end Program

namespace Program

variable {σ : Type u} {ε : Type v} {α β : Type w}

/-! ## Runs -/

theorem run_pure (a : α) (s : σ) : (pure a : Program σ ε α) s = ⟨[], s, .ok a⟩ :=
  rfl

theorem run_read {σ : Type w} (s : σ) : (read : Program σ ε σ) s = ⟨[], s, .ok s⟩ :=
  rfl

theorem run_write (change : σ → σ) (s : σ) :
    (write change : Program σ ε PUnit.{w + 1}) s = ⟨[s], change s, .ok ⟨⟩⟩ :=
  rfl

theorem run_bind_ok
    {p : Program σ ε α} {f : α → Program σ ε β} {s t : σ} {a : α} {before : List σ}
    (h : p s = ⟨before, t, .ok a⟩) :
    (p >>= f) s = ⟨before ++ (f a t).before, (f a t).final, (f a t).result⟩ := by
  change Program.bind p f s = _
  simp only [Program.bind, h]

/-! ## Preconditions -/

variable {I I' : σ → Prop} {Q Q' : α → σ → Prop} {E E' : ε → σ → Prop} {s s' : σ}

@[simp] theorem meets_pure (a : α) :
    (pure a : Program σ ε α).Meets I Q E s ↔ Q a s := by
  change (∀ t, t ∈ ([] : List σ) → I t) ∧ Q a s ↔ Q a s
  simp

@[simp] theorem meets_raise (e : ε) :
    (raise e : Program σ ε α).Meets I Q E s ↔ E e s := by
  simp [Meets, raise]

@[simp] theorem meets_read
    {σ : Type w} {I : σ → Prop} {Q : σ → σ → Prop} {E : ε → σ → Prop} {s : σ} :
    (read : Program σ ε σ).Meets I Q E s ↔ Q s s := by
  simp [Meets, read]

@[simp] theorem meets_write
    {Q : PUnit.{w + 1} → σ → Prop} (change : σ → σ) :
    (write change : Program σ ε PUnit.{w + 1}).Meets I Q E s ↔
      I s ∧ Q ⟨⟩ (change s) := by
  simp [Meets, write]

@[simp] theorem meets_bind
    {R : β → σ → Prop} (p : Program σ ε α) (f : α → Program σ ε β) :
    (p >>= f).Meets I R E s ↔ p.Meets I (fun a => (f a).Meets I R E) E s := by
  change (Program.bind p f).Meets I R E s ↔ _
  cases hresult : (p s).result with
  | error e => simp [Meets, Program.bind, hresult]
  | ok a =>
      simp only [Meets, Program.bind, hresult, List.mem_append]
      constructor
      · rintro ⟨hbefore, hend⟩
        exact ⟨fun t ht => hbefore t (.inl ht), fun t ht => hbefore t (.inr ht), hend⟩
      · rintro ⟨hfirst, hrest, hend⟩
        exact ⟨fun t ht => ht.elim (hfirst t) (hrest t), hend⟩

@[simp] theorem meets_ite
    {c : Prop} [Decidable c] (p q : Program σ ε α) :
    (if c then p else q).Meets I Q E s ↔
      (c → p.Meets I Q E s) ∧ (¬ c → q.Meets I Q E s) := by
  split <;> simp_all

/-- Between its statements a transaction is not seen. -/
@[simp] theorem meets_transaction (p : Program σ ε α) :
    (transaction p).Meets I Q E s ↔
      p.Meets (fun _ => True) (fun a t => I s ∧ Q a t) (fun e _ => E e s) s := by
  cases hresult : (p s).result with
  | error e => simp [Meets, transaction, hresult]
  | ok a => simp [Meets, transaction, hresult]

@[simp] theorem meets_onPart
    {τ : Type u} {ε' : Type v} {part : τ → σ} {replace : σ → τ → τ} {wrap : ε → ε'}
    {J : τ → Prop} {R : α → τ → Prop} {F : ε' → τ → Prop} {t : τ} (p : Program σ ε α) :
    (onPart part replace wrap p).Meets J R F t ↔
      p.Meets (fun s => J (replace s t)) (fun a s => R a (replace s t))
        (fun e s => F (wrap e) (replace s t)) (part t) := by
  cases hresult : (p (part t)).result with
  | error e => simp [Meets, onPart, hresult]
  | ok a => simp [Meets, onPart, hresult]

theorem Meets.mono
    {p : Program σ ε α} (h : p.Meets I Q E s)
    (hI : ∀ t, I t → I' t) (hQ : ∀ a t, Q a t → Q' a t) (hE : ∀ e t, E e t → E' e t) :
    p.Meets I' Q' E' s := by
  refine ⟨fun t ht => hI t (h.1 t ht), ?_⟩
  have hend := h.2
  cases hresult : (p s).result with
  | ok a =>
      rw [hresult] at hend
      exact hQ a _ hend
  | error e =>
      rw [hresult] at hend
      exact hE e _ hend

theorem Meets.and
    {p : Program σ ε α} (h : p.Meets I Q E s) (h' : p.Meets I' Q' E' s) :
    p.Meets (fun t => I t ∧ I' t) (fun a t => Q a t ∧ Q' a t) (fun e t => E e t ∧ E' e t) s := by
  refine ⟨fun t ht => ⟨h.1 t ht, h'.1 t ht⟩, ?_⟩
  have hend := h.2
  have hend' := h'.2
  cases hresult : (p s).result with
  | ok a =>
      rw [hresult] at hend hend'
      exact ⟨hend, hend'⟩
  | error e =>
      rw [hresult] at hend hend'
      exact ⟨hend, hend'⟩

/-- What an error says, it says for every parameter. -/
theorem Meets.forall_error
    {κ : Type*} [Nonempty κ] {p : Program σ ε α} {E : κ → ε → σ → Prop}
    (h : ∀ k, p.Meets I Q (E k) s) :
    p.Meets I Q (fun e t => ∀ k, E k e t) s := by
  obtain ⟨k⟩ := ‹Nonempty κ›
  refine ⟨(h k).1, ?_⟩
  cases hresult : (p s).result with
  | ok a =>
      have hend := (h k).2
      rw [hresult] at hend
      exact hend
  | error e =>
      intro k'
      have hend := (h k').2
      rw [hresult] at hend
      exact hend

/-- A program after another: the second one starts from what the first one's
postcondition says. -/
theorem Meets.bind
    {R : β → σ → Prop} {p : Program σ ε α} {f : α → Program σ ε β}
    (h : p.Meets I Q E s) (hf : ∀ a t, Q a t → (f a).Meets I R E t) :
    (p >>= f).Meets I R E s :=
  (meets_bind p f).mpr (h.mono (fun _ h => h) hf (fun _ _ h => h))

theorem Meets.last
    {P : σ → Prop} {p : Program σ ε α} (h : p.Meets I (fun _ => P) (fun _ => P) s) :
    P (p s).final := by
  have hend := h.2
  cases hresult : (p s).result with
  | ok a =>
      rw [hresult] at hend
      exact hend
  | error e =>
      rw [hresult] at hend
      exact hend

/-- What holds of every state the program passes through holds after a crash. -/
theorem Meets.leaves
    {p : Program σ ε α} (h : p.Meets I (fun _ => I) (fun _ => I) s)
    (hleaves : p.Leaves s s') :
    I s' := by
  obtain ⟨k, hk⟩ := hleaves
  have hmem : s' ∈ (p s).states := List.mem_of_getElem? hk
  rw [Run.states, List.mem_append, List.mem_singleton] at hmem
  obtain hbefore | rfl := hmem
  · exact h.1 s' hbefore
  · exact h.last

/-- The program may be left where it ends. -/
theorem leaves_final (p : Program σ ε α) (s : σ) : p.Leaves s (p s).final := by
  refine ⟨(p s).before.length, ?_⟩
  simp [Stops, Run.states]

/-- Every state the program passes through is one it leaves. -/
theorem meets_leaves (p : Program σ ε α) (s : σ) :
    p.Meets (p.Leaves s) (fun _ => p.Leaves s) (fun _ => p.Leaves s) s := by
  have hmem : ∀ t, t ∈ (p s).states → p.Leaves s t := by
    intro t ht
    obtain ⟨k, hk⟩ := List.getElem?_of_mem ht
    exact ⟨k, hk⟩
  refine ⟨fun t ht => hmem t (List.mem_append_left _ ht), ?_⟩
  cases (p s).result with
  | ok a => exact leaves_final p s
  | error e => exact leaves_final p s

/-- How a program ends. -/
theorem meets_result (p : Program σ ε α) (s : σ) :
    p.Meets (fun _ => True) (fun a t => (p s).result = .ok a ∧ (p s).final = t)
      (fun e t => (p s).result = .error e ∧ (p s).final = t) s := by
  refine ⟨fun _ _ => trivial, ?_⟩
  cases hresult : (p s).result with
  | ok a => exact ⟨rfl, rfl⟩
  | error e => exact ⟨rfl, rfl⟩

theorem Meets.of_ok
    {p : Program σ ε α} {a : α} (h : p.Meets I Q E s) (hok : (p s).result = .ok a) :
    Q a (p s).final := by
  have hend := h.2
  rw [hok] at hend
  exact hend

/-- A program that always ends with a value and meets its postcondition. -/
theorem Meets.ok
    {p : Program σ ε α} (h : p.Meets I Q (fun _ _ => False) s) :
    ∃ a, (p s).result = .ok a ∧ Q a (p s).final := by
  have hend := h.2
  cases hresult : (p s).result with
  | error e =>
      rw [hresult] at hend
      exact hend.elim
  | ok a =>
      rw [hresult] at hend
      exact ⟨a, rfl, hend⟩

/-- The loop rule: an invariant of what is still to do. -/
theorem meets_forEach
    {ι : Type w} {body : ι → Program σ ε PUnit.{w + 1}} (Inv : List ι → σ → Prop)
    (hbody : ∀ x xs t, Inv (x :: xs) t → (body x).Meets I (fun _ => Inv xs) E t)
    (xs : List ι) (hs : Inv xs s) :
    (forEach body xs).Meets I (fun _ => Inv []) E s := by
  induction xs generalizing s with
  | nil => exact (meets_pure _).mpr hs
  | cons x xs ih =>
      exact (hbody x xs s hs).bind fun _ _ ht => ih ht

theorem meets_sumEach
    {ι : Type w} {σ : Type u} {ε : Type v} {I : σ → Prop} {E : ε → σ → Prop}
    {body : ι → Program σ ε Nat} (Inv : List ι → σ → Prop)
    (hbody : ∀ x xs t, Inv (x :: xs) t → (body x).Meets I (fun _ => Inv xs) E t)
    (xs : List ι) {s : σ} (hs : Inv xs s) :
    (sumEach body xs).Meets I (fun _ => Inv []) E s := by
  induction xs generalizing s with
  | nil => exact (meets_pure _).mpr hs
  | cons x xs ih =>
      refine (hbody x xs s hs).bind fun _ _ ht => ?_
      exact (ih ht).bind fun _ _ hu => (meets_pure _).mpr hu

/-- A loop over things that are done once: a pass finds its thing done, or does
it by a step.  Every thing is done in the end, and what the steps keep, `R`,
rules out the errors outside `F`. -/
theorem meets_sumEach_once
    {ι : Type w} {σ : Type u} {ε : Type v} {I : σ → Prop} {F : ε → Prop}
    {body : ι → Program σ ε Nat} {isDone : ι → σ → Prop} {Step : ι → σ → σ → Prop}
    {R : σ → Prop} {xs : List ι}
    (hbody : ∀ x t, (body x).Meets I (fun _ t' => (isDone x t ∧ t' = t) ∨ Step x t t')
      (fun e _ => x ∈ xs → R t → F e) t)
    (hdone : ∀ x t t', Step x t t' → isDone x t')
    (hkeep : ∀ x y t t', Step x t t' → isDone y t → isDone y t')
    (hready : ∀ x, x ∈ xs → ∀ t t', R t → Step x t t' → R t') (s : σ) :
    (sumEach body xs).Meets I
      (fun _ t => Relation.ReflTransGen (fun t t' => ∃ x, x ∈ xs ∧ Step x t t') s t ∧
        ∀ x, x ∈ xs → isDone x t)
      (fun e _ => R s → F e) s := by
  let Inv : List ι → σ → Prop := fun rest t =>
    Relation.ReflTransGen (fun t t' => ∃ x, x ∈ xs ∧ Step x t t') s t ∧ rest ⊆ xs ∧
      (∀ x, x ∈ xs → x ∈ rest ∨ isDone x t) ∧ (R s → R t)
  have hpass : ∀ x rest t, Inv (x :: rest) t →
      (body x).Meets I (fun _ => Inv rest) (fun e _ => R s → F e) t := by
    rintro x rest t ⟨hsteps, hrest, hall, hkept⟩
    have hx : x ∈ xs := hrest List.mem_cons_self
    have hrest' : rest ⊆ xs := fun _ hy => hrest (List.mem_cons_of_mem x hy)
    refine (hbody x t).mono (fun _ h => h) ?_ (fun e _ herror hs => herror hx (hkept hs))
    rintro _ t' (⟨hisDone, rfl⟩ | hstep)
    · refine ⟨hsteps, hrest', fun y hy => (hall y hy).elim (fun hmem => ?_) .inr, hkept⟩
      obtain rfl | hmem := List.mem_cons.mp hmem
      · exact .inr hisDone
      · exact .inl hmem
    · refine ⟨hsteps.tail ⟨x, hx, hstep⟩, hrest', fun y hy => ?_,
        fun hs => hready x hx t t' (hkept hs) hstep⟩
      obtain hmem | hisDone := hall y hy
      · obtain rfl | hmem := List.mem_cons.mp hmem
        · exact .inr (hdone y t t' hstep)
        · exact .inl hmem
      · exact .inr (hkeep x y t t' hstep hisDone)
  have hstart : Inv xs s :=
    ⟨Relation.ReflTransGen.refl, List.Subset.refl xs, fun _ hx => .inl hx, fun hs => hs⟩
  refine (meets_sumEach Inv hpass xs hstart).mono (fun _ h => h) ?_ (fun _ _ h => h)
  rintro _ t ⟨hsteps, _, hall, _⟩
  exact ⟨hsteps, fun x hx => (hall x hx).resolve_left List.not_mem_nil⟩

/-! ## Invariants -/

/-- `P` holds of every state the program passes through where it holds of the
first one, an error's included. -/
def Keeps (P : σ → Prop) (p : Program σ ε α) : Prop :=
  ∀ s, P s → p.Meets P (fun _ => P) (fun _ => P) s

variable {P : σ → Prop}

theorem keeps_pure (a : α) : (pure a : Program σ ε α).Keeps P :=
  fun _ hs => (meets_pure a).mpr hs

theorem keeps_raise (e : ε) : (raise e : Program σ ε α).Keeps P :=
  fun _ hs => (meets_raise e).mpr hs

theorem keeps_write {change : σ → σ} (h : ∀ s, P s → P (change s)) :
    (write change : Program σ ε PUnit.{w + 1}).Keeps P :=
  fun s hs => (meets_write change).mpr ⟨hs, h s hs⟩

theorem Keeps.bind {p : Program σ ε α} {f : α → Program σ ε β} (hp : p.Keeps P)
    (hf : ∀ a, (f a).Keeps P) : (p >>= f).Keeps P :=
  fun s hs => (hp s hs).bind fun a t ht => hf a t ht

/-- A program that reads the store first may depend on what holds of it. -/
theorem keeps_read_bind {σ : Type w} {P : σ → Prop} {f : σ → Program σ ε β}
    (hf : ∀ s, P s → (f s).Meets P (fun _ => P) (fun _ => P) s) : (read >>= f).Keeps P :=
  fun s hs => (meets_bind read f).mpr (meets_read.mpr (hf s hs))

theorem keeps_ite {c : Prop} [Decidable c] {p q : Program σ ε α} (hp : p.Keeps P)
    (hq : q.Keeps P) : (if c then p else q).Keeps P :=
  fun s hs => (meets_ite p q).mpr ⟨fun _ => hp s hs, fun _ => hq s hs⟩

theorem keeps_sumEach {ι : Type w} {σ : Type u} {ε : Type v} {P : σ → Prop}
    {body : ι → Program σ ε Nat} (hbody : ∀ x, (body x).Keeps P) (xs : List ι) :
    (sumEach body xs).Keeps P :=
  fun _ hs => meets_sumEach (fun _ => P) (fun x _ t ht => hbody x t ht) xs hs

/-! ## Programs as runs of steps -/

/-- From a state with `K` the program passes through states that steps lead to;
it ends with a value and `L`, or with an error and `F`. -/
def BySteps (Step : σ → σ → Prop) (F : ε → σ → Prop) (K : σ → Prop) (p : Program σ ε α)
    (L : α → σ → Prop) : Prop :=
  ∀ s, K s → p.Meets (Relation.ReflTransGen Step s)
    (fun a t => Relation.ReflTransGen Step s t ∧ L a t)
    (fun e t => Relation.ReflTransGen Step s t ∧ F e t) s

section BySteps

variable {Step : σ → σ → Prop} {F : ε → σ → Prop} {K : σ → Prop} {L : α → σ → Prop}

theorem bySteps_pure {a : α} (h : ∀ s, K s → L a s) :
    BySteps Step F K (pure a : Program σ ε α) L :=
  fun s hs => (meets_pure a).mpr ⟨Relation.ReflTransGen.refl, h s hs⟩

theorem bySteps_raise {e : ε} (h : ∀ s, K s → F e s) :
    BySteps Step F K (raise e : Program σ ε α) L :=
  fun s hs => (meets_raise e).mpr ⟨Relation.ReflTransGen.refl, h s hs⟩

theorem bySteps_read {σ : Type w} {Step : σ → σ → Prop} {F : ε → σ → Prop} {K : σ → Prop}
    {L : σ → σ → Prop} (h : ∀ s, K s → L s s) :
    BySteps Step F K (read : Program σ ε σ) L :=
  fun s hs => meets_read.mpr ⟨Relation.ReflTransGen.refl, h s hs⟩

/-- The steps of the second program follow those of the first one. -/
theorem BySteps.bind
    {p : Program σ ε α} {f : α → Program σ ε β} {M : β → σ → Prop}
    (hp : BySteps Step F K p L) (hf : ∀ a, BySteps Step F (L a) (f a) M) :
    BySteps Step F K (p >>= f) M := by
  intro s hs
  refine (hp s hs).mono (fun _ h => h) (fun _ _ h => h) (fun _ _ h => h) |>.bind ?_
  rintro a t ⟨hst, ht⟩
  exact (hf a t ht).mono (fun _ h => hst.trans h) (fun _ _ h => ⟨hst.trans h.1, h.2⟩)
    (fun _ _ h => ⟨hst.trans h.1, h.2⟩)

theorem BySteps.mono
    {K' : σ → Prop} {L' : α → σ → Prop} {p : Program σ ε α} (h : BySteps Step F K p L)
    (hK : ∀ s, K' s → K s) (hL : ∀ a s, L a s → L' a s) : BySteps Step F K' p L' :=
  fun s hs => (h s (hK s hs)).mono (fun _ h => h) (fun a t h => ⟨h.1, hL a t h.2⟩)
    (fun _ _ h => h)

theorem bySteps_ite {c : Prop} [Decidable c] {p q : Program σ ε α}
    (hp : c → BySteps Step F K p L) (hq : ¬ c → BySteps Step F K q L) :
    BySteps Step F K (if c then p else q) L :=
  fun s hs => (meets_ite p q).mpr ⟨fun h => hp h s hs, fun h => hq h s hs⟩

/-- Where it stops, steps have led. -/
theorem BySteps.leaves
    {p : Program σ ε α} {s t : σ} (h : BySteps Step F K p L) (hs : K s) (hleaves : p.Leaves s t) :
    Relation.ReflTransGen Step s t :=
  ((h s hs).mono (fun _ h => h) (fun _ _ h => h.1) (fun _ _ h => h.1)).leaves hleaves

end BySteps

end Program

end CrashPrograms
end Northwind
