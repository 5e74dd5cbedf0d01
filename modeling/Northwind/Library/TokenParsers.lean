import Mathlib.Data.List.Basic

/-!
# Predictive parsers over token lists

A parser takes tokens off the front of a list, and decides by the next token
alone.  `Reads` says what a parser reads exactly: the token lists of each value
(`Forms`), the next tokens it leaves alone (`Follow`), and the beginnings after
which the next token is examined for a fault of its own (`Due`).

Such a fault is told apart from the refusals of the grammar: `Faulty` tokens
are part of the language, but reading one ends in `fault`.

Results used by the developments on top:

* `Reads.bind`, `Reads.branch`, `Reads.manyAfter`: one rule for each way to put
  parsers together;
* `Reads.accepts_iff`: a parser that reads to the end accepts exactly the forms
  of its grammar, unless a faulty token is due;
* `Reads.fault_of_not_clean`: and then it ends in the fault.
-/

namespace Northwind
namespace TokenParsers

variable {τ ε α β : Type}

/-- A parser over the tokens that are left. -/
abbrev Parser (τ ε : Type) := StateT (List τ) (Except ε)

/-- Read one token. -/
def takeToken (read : τ → Except ε α) (atEnd : ε) : Parser τ ε α
  | [] => .error atEnd
  | t :: ts => (read t).map (fun a => (a, ts))

/-- Take the next token if the test says so. -/
def accept (test : τ → Bool) : Parser τ ε Bool
  | [] => .ok (false, [])
  | t :: ts => if test t then .ok (true, ts) else .ok (false, t :: ts)

/-- `while accept: read one more`; the fuel is the number of tokens left. -/
def manyAfterFuel (opens : τ → Bool) (p : Parser τ ε α) : Nat → Parser τ ε (List α)
  | 0 => pure []
  | fuel + 1 => do
      if ← accept opens then
        let a ← p
        let as ← manyAfterFuel opens p fuel
        return a :: as
      else return []

def manyAfter (opens : τ → Bool) (p : Parser τ ε α) : Parser τ ε (List α) :=
  fun ts => manyAfterFuel opens p ts.length ts

/-- Nothing is left. -/
def endOfInput (unexpected : τ → ε) : Parser τ ε Unit
  | [] => .ok ((), [])
  | t :: _ => .error (unexpected t)

/-- No faulty token stands where one is due. -/
def Clean (Faulty : τ → Prop) (Due : List τ → Prop) (us : List τ) : Prop :=
  ∀ before t after, us = before ++ t :: after → Due before → ¬ Faulty t

/-- What a parser reads. -/
structure Reads (fault : ε) (Faulty : τ → Prop) (p : Parser τ ε α)
    (Forms : List τ → α → Prop) (Follow : Option τ → Prop) (Due : List τ → Prop) : Prop where
  sound : ∀ {ts a rest}, p.run ts = .ok (a, rest) → ∃ us, ts = us ++ rest ∧ Forms us a
  complete : ∀ {us a rest}, Forms us a → Follow rest.head? → Clean Faulty Due us →
    p.run (us ++ rest) = .ok (a, rest)
  fault_iff : ∀ {ts}, p.run ts = .error fault ↔
    ∃ before t after, ts = before ++ t :: after ∧ Due before ∧ Faulty t

/-! ## The forms of compound parsers -/

/-- One form after another. -/
def Sequence (First : List τ → α → Prop) (Second : α → List τ → β → Prop)
    (us : List τ) (b : β) : Prop :=
  ∃ before a after, us = before ++ after ∧ First before a ∧ Second a after b

/-- A token is due in the first part, or in the second after a whole first. -/
def SequenceDue (First : List τ → α → Prop) (Due : List τ → Prop)
    (DueSecond : α → List τ → Prop) (us : List τ) : Prop :=
  Due us ∨ ∃ before a after, us = before ++ after ∧ First before a ∧ DueSecond a after

/-- A form behind an opening token. -/
def Opened (opens : τ → Bool) (Forms : List τ → α → Prop) (us : List τ) (a : α) : Prop :=
  ∃ t after, us = t :: after ∧ opens t = true ∧ Forms after a

def OpenedDue (opens : τ → Bool) (Due : List τ → Prop) (us : List τ) : Prop :=
  ∃ t after, us = t :: after ∧ opens t = true ∧ Due after

/-- Any number of forms, each behind an opening token. -/
inductive Many (opens : τ → Bool) (Forms : List τ → α → Prop) : List τ → List α → Prop
  | nil : Many opens Forms [] []
  | cons {t : τ} {us vs : List τ} {a : α} {as : List α} (ht : opens t = true)
      (ha : Forms us a) (has : Many opens Forms vs as) :
      Many opens Forms (t :: us ++ vs) (a :: as)

inductive ManyDue (opens : τ → Bool) (Forms : List τ → α → Prop) (Due : List τ → Prop) :
    List τ → Prop
  | head {t : τ} {us : List τ} (ht : opens t = true) (h : Due us) :
      ManyDue opens Forms Due (t :: us)
  | tail {t : τ} {us vs : List τ} {a : α} (ht : opens t = true) (ha : Forms us a)
      (h : ManyDue opens Forms Due vs) : ManyDue opens Forms Due (t :: us ++ vs)

section Rules

variable {fault : ε} {Faulty : τ → Prop}

theorem Clean.left {Due : List τ → Prop} {us vs : List τ}
    (h : Clean Faulty Due (us ++ vs)) : Clean Faulty Due us := by
  rintro before t after rfl hdue
  exact h before t (after ++ vs) (by simp) hdue

/-- A clean sequence is clean in its second part. -/
theorem Clean.right
    {First : List τ → α → Prop} {Due : List τ → Prop} {DueSecond : α → List τ → Prop}
    {us vs : List τ} {a : α} (h : Clean Faulty (SequenceDue First Due DueSecond) (us ++ vs))
    (hfirst : First us a) : Clean Faulty (DueSecond a) vs := by
  rintro before t after rfl hdue
  exact h (us ++ before) t after (by simp) (Or.inr ⟨us, a, before, rfl, hfirst, hdue⟩)

theorem Clean.mono {Due Due' : List τ → Prop} {us : List τ}
    (h : Clean Faulty Due us) (hsub : ∀ us, Due' us → Due us) : Clean Faulty Due' us :=
  fun before t after hsplit hdue => h before t after hsplit (hsub before hdue)

/-- The same forms under other names, and a smaller follow set. -/
theorem Reads.congr
    {p : Parser τ ε α} {Forms Forms' : List τ → α → Prop} {Follow Follow' : Option τ → Prop}
    {Due Due' : List τ → Prop} (h : Reads fault Faulty p Forms Follow Due)
    (hforms : ∀ us a, Forms' us a ↔ Forms us a) (hfollow : ∀ o, Follow' o → Follow o)
    (hdue : ∀ us, Due' us ↔ Due us) : Reads fault Faulty p Forms' Follow' Due' := by
  refine ⟨?_, ?_, ?_⟩
  · intro ts a rest hrun
    obtain ⟨us, hts, hus⟩ := h.sound hrun
    exact ⟨us, hts, (hforms us a).mpr hus⟩
  · intro us a rest hus hrest hclean
    exact h.complete ((hforms us a).mp hus) (hfollow _ hrest)
      (hclean.mono (fun us => (hdue us).mpr))
  · intro ts
    rw [h.fault_iff]
    simp only [hdue]

theorem Reads.pure (a : α) (Follow : Option τ → Prop) :
    Reads fault Faulty (pure a : Parser τ ε α) (fun us b => us = [] ∧ b = a)
      Follow (fun _ => False) := by
  refine ⟨?_, ?_, ?_⟩
  · intro ts b rest h
    cases h
    exact ⟨[], rfl, rfl, rfl⟩
  · rintro us b rest ⟨rfl, rfl⟩ _ _
    rfl
  · intro ts
    constructor
    · intro h
      cases h
    · rintro ⟨_, _, _, _, hfalse, _⟩
      exact hfalse.elim

/-- A check of what has been read. -/
theorem Reads.check
    (x : Except ε α) (hx : x ≠ .error fault) :
    Reads fault Faulty (StateT.lift x : Parser τ ε α) (fun us a => us = [] ∧ x = .ok a)
      (fun _ => True) (fun _ => False) := by
  refine ⟨?_, ?_, ?_⟩
  · intro ts a rest h
    cases x with
    | error e => cases h
    | ok a' =>
        cases h
        exact ⟨[], rfl, rfl, rfl⟩
  · rintro us a rest ⟨rfl, rfl⟩ _ _
    rfl
  · intro ts
    constructor
    · intro h
      cases x with
      | error e =>
          cases h
          exact absurd rfl hx
      | ok a => cases h
    · rintro ⟨_, _, _, _, hfalse, _⟩
      exact hfalse.elim

/-- A token of the grammar that is never faulty. -/
theorem Reads.takeToken
    {read : τ → Except ε α} {atEnd : ε}
    (hread : ∀ t, read t ≠ .error fault) (hend : atEnd ≠ fault) :
    Reads fault Faulty (takeToken read atEnd) (fun us a => ∃ t, us = [t] ∧ read t = .ok a)
      (fun _ => True) (fun _ => False) := by
  refine ⟨?_, ?_, ?_⟩
  · intro ts a rest h
    cases ts with
    | nil => cases h
    | cons t ts =>
        change (read t).map _ = _ at h
        cases hr : read t with
        | error e =>
            rw [hr] at h
            cases h
        | ok b =>
            rw [hr] at h
            cases h
            exact ⟨[t], rfl, t, rfl, hr⟩
  · rintro us a rest ⟨t, rfl, hr⟩ _ _
    change (read t).map _ = _
    rw [hr]
    rfl
  · intro ts
    constructor
    · intro h
      cases ts with
      | nil =>
          cases h
          exact absurd rfl hend
      | cons t ts =>
          change (read t).map _ = _ at h
          cases hr : read t with
          | error e =>
              rw [hr] at h
              cases h
              exact absurd hr (hread t)
          | ok b =>
              rw [hr] at h
              cases h
    · rintro ⟨_, _, _, _, hfalse, _⟩
      exact hfalse.elim

/-- A token that may be faulty is due at once. -/
theorem Reads.takeFaulty
    {read : τ → Except ε α} {atEnd : ε} {Spells : τ → α → Prop}
    (hsound : ∀ {t a}, read t = .ok a → Spells t a)
    (hcomplete : ∀ {t a}, Spells t a → ¬ Faulty t → read t = .ok a)
    (hfault : ∀ t, read t = .error fault ↔ Faulty t) (hend : atEnd ≠ fault) :
    Reads fault Faulty (TokenParsers.takeToken read atEnd)
      (fun us a => ∃ t, us = [t] ∧ Spells t a) (fun _ => True) (fun us => us = []) := by
  refine ⟨?_, ?_, ?_⟩
  · intro ts a rest h
    cases ts with
    | nil => cases h
    | cons t ts =>
        change (read t).map _ = _ at h
        cases hr : read t with
        | error e =>
            rw [hr] at h
            cases h
        | ok b =>
            rw [hr] at h
            cases h
            exact ⟨[t], rfl, t, rfl, hsound hr⟩
  · rintro us a rest ⟨t, rfl, hspells⟩ _ hclean
    change (read t).map _ = _
    rw [hcomplete hspells (hclean [] t [] rfl rfl)]
    rfl
  · intro ts
    cases ts with
    | nil =>
        constructor
        · intro h
          cases h
          exact absurd rfl hend
        · rintro ⟨before, t, after, hsplit, _⟩
          simp at hsplit
    | cons t ts =>
        constructor
        · intro h
          change (read t).map _ = _ at h
          cases hr : read t with
          | error e =>
              rw [hr] at h
              cases h
              exact ⟨[], t, ts, rfl, rfl, (hfault t).mp hr⟩
          | ok b =>
              rw [hr] at h
              cases h
        · rintro ⟨before, t', after, hsplit, rfl, hfaulty⟩
          cases hsplit
          change (read t).map _ = _
          rw [(hfault t).mpr hfaulty]
          rfl

/-- One parser after another. -/
theorem Reads.bind
    {p : Parser τ ε α} {q : α → Parser τ ε β}
    {First : List τ → α → Prop} {Second : α → List τ → β → Prop}
    {Follow Follow' : Option τ → Prop} {Due : List τ → Prop} {DueSecond : α → List τ → Prop}
    (hp : Reads fault Faulty p First Follow Due)
    (hq : ∀ a, Reads fault Faulty (q a) (Second a) Follow' (DueSecond a))
    (hfollow : ∀ {a us b rest}, Second a us b → Follow' (List.head? rest) →
      Follow (us ++ rest).head?)
    (hdue : ∀ {a us t}, DueSecond a us → Faulty t → Follow (us ++ [t]).head?) :
    Reads fault Faulty (p >>= q) (Sequence First Second) Follow'
      (SequenceDue First Due DueSecond) := by
  have hbind : ∀ ts, (p >>= q).run ts = (p.run ts >>= fun r => (q r.1).run r.2) :=
    fun _ => rfl
  refine ⟨?_, ?_, ?_⟩
  · intro ts b rest h
    rw [hbind] at h
    cases hrun : p.run ts with
    | error e =>
        rw [hrun] at h
        cases h
    | ok r =>
        obtain ⟨a, between⟩ := r
        rw [hrun] at h
        obtain ⟨us, rfl, hfirst⟩ := hp.sound hrun
        obtain ⟨vs, rfl, hsecond⟩ := (hq a).sound h
        exact ⟨us ++ vs, by simp, us, a, vs, rfl, hfirst, hsecond⟩
  · rintro us b rest ⟨before, a, after, rfl, hfirst, hsecond⟩ hrest hclean
    have hclean' : Clean Faulty Due before := (hclean.mono (fun _ => Or.inl)).left
    rw [hbind, List.append_assoc,
      hp.complete hfirst (hfollow hsecond hrest) hclean']
    exact (hq a).complete hsecond hrest (hclean.right hfirst)
  · intro ts
    rw [hbind]
    constructor
    · intro h
      cases hrun : p.run ts with
      | error e =>
          rw [hrun] at h
          cases h
          obtain ⟨before, t, after, hsplit, hdue', hfaulty⟩ := hp.fault_iff.mp hrun
          exact ⟨before, t, after, hsplit, Or.inl hdue', hfaulty⟩
      | ok r =>
          obtain ⟨a, between⟩ := r
          rw [hrun] at h
          obtain ⟨us, rfl, hfirst⟩ := hp.sound hrun
          obtain ⟨before, t, after, rfl, hdue', hfaulty⟩ := (hq a).fault_iff.mp h
          exact ⟨us ++ before, t, after, by simp,
            Or.inr ⟨us, a, before, rfl, hfirst, hdue'⟩, hfaulty⟩
    · rintro ⟨before, t, after, rfl, hdue', hfaulty⟩
      rcases hdue' with hfirst | ⟨us, a, vs, rfl, hfirst, hsecond⟩
      · rw [hp.fault_iff.mpr ⟨before, t, after, rfl, hfirst, hfaulty⟩]
        rfl
      · by_cases hclean : Clean Faulty Due us
        · have hhead : Follow ((vs ++ t :: after).head?) := by
            have h := hdue hsecond hfaulty
            cases vs <;> exact h
          rw [List.append_assoc, hp.complete hfirst hhead hclean]
          exact (hq a).fault_iff.mpr ⟨vs, t, after, rfl, hsecond, hfaulty⟩
        · -- A faulty token inside the first part is met before this one.
          unfold Clean at hclean
          push Not at hclean
          obtain ⟨before, t', after', rfl, hdue', hfaulty'⟩ := hclean
          rw [hp.fault_iff.mpr ⟨before, t', after' ++ (vs ++ t :: after), by simp,
            hdue', hfaulty'⟩]
          rfl

/-- A value computed from what has been read. -/
theorem Reads.map
    {p : Parser τ ε α} {Forms : List τ → α → Prop} {Follow : Option τ → Prop}
    {Due : List τ → Prop} (hp : Reads fault Faulty p Forms Follow Due) (f : α → β) :
    Reads fault Faulty (p >>= fun a => Pure.pure (f a))
      (fun us b => ∃ a, Forms us a ∧ b = f a) Follow Due := by
  refine (hp.bind (fun a => Reads.pure (f a) Follow) ?_ ?_).congr ?_ (fun _ h => h) ?_
  · rintro a us b rest ⟨rfl, _⟩ hrest
    exact hrest
  · intro a us t hfalse
    exact hfalse.elim
  · intro us b
    constructor
    · rintro ⟨a, hforms, rfl⟩
      exact ⟨us, a, [], by simp, hforms, rfl, rfl⟩
    · rintro ⟨before, a, after, rfl, hforms, rfl, rfl⟩
      rw [List.append_nil]
      exact ⟨a, hforms, rfl⟩
  · intro us
    constructor
    · intro hdue
      exact Or.inl hdue
    · rintro (hdue | ⟨_, _, _, _, _, hfalse⟩)
      · exact hdue
      · exact hfalse.elim

theorem Reads.endOfInput
    {unexpected : τ → ε} (hne : ∀ t, unexpected t ≠ fault) :
    Reads fault Faulty (endOfInput unexpected) (fun us _ => us = []) (fun o => o = none)
      (fun _ => False) := by
  refine ⟨?_, ?_, ?_⟩
  · intro ts a rest h
    cases ts with
    | nil =>
        cases h
        exact ⟨[], rfl, rfl⟩
    | cons t ts => cases h
  · rintro us a rest rfl hrest _
    cases rest with
    | nil => rfl
    | cons t rest => cases hrest
  · intro ts
    constructor
    · intro h
      cases ts with
      | nil => cases h
      | cons t ts =>
          injection h with h
          exact absurd h (hne t)
    · rintro ⟨_, _, _, _, hfalse, _⟩
      exact hfalse.elim

/-- A parser that leaves nothing. -/
def Ends (p : Parser τ ε α) : Prop :=
  ∀ {ts a rest}, p.run ts = .ok (a, rest) → rest = []

theorem Ends.bind {p : Parser τ ε α} {q : α → Parser τ ε β} (hq : ∀ a, Ends (q a)) :
    Ends (p >>= q) := by
  intro ts b rest h
  change (p.run ts >>= fun r => (q r.1).run r.2) = _ at h
  cases hrun : p.run ts with
  | error e =>
      rw [hrun] at h
      cases h
  | ok r =>
      rw [hrun] at h
      exact hq r.1 h

theorem Ends.endOfInput (unexpected : τ → ε) (b : β) :
    Ends (TokenParsers.endOfInput unexpected >>= fun _ => Pure.pure b) := by
  intro ts b' rest h
  cases ts with
  | nil =>
      cases h
      rfl
  | cons t ts => cases h

section Choices

variable {opens : τ → Bool} {p q : Parser τ ε α}

theorem run_branch_of_opens {t : τ} {ts : List τ} (h : opens t = true) :
    (do if ← accept opens then p else q : Parser τ ε α).run (t :: ts) = p.run ts := by
  change ((accept opens).run (t :: ts) >>= fun r => (if r.1 then p else q).run r.2) = _
  have haccept : (accept opens : Parser τ ε Bool).run (t :: ts) = .ok (true, ts) := if_pos h
  rw [haccept]
  rfl

theorem run_branch_of_not_opens {ts : List τ} (h : ∀ t ∈ ts.head?, opens t = false) :
    (do if ← accept opens then p else q : Parser τ ε α).run ts = q.run ts := by
  change ((accept opens).run ts >>= fun r => (if r.1 then p else q).run r.2) = _
  have haccept : (accept opens : Parser τ ε Bool).run ts = .ok (false, ts) := by
    cases ts with
    | nil => rfl
    | cons t ts =>
        have hopens := h t rfl
        exact if_neg (by simp [hopens])
  rw [haccept]
  rfl

/-- Either the next token opens the first part, or the second part is read. -/
theorem opens_head_cases (opens : τ → Bool) (ts : List τ) :
    (∃ t rest, ts = t :: rest ∧ opens t = true) ∨ ∀ t ∈ ts.head?, opens t = false := by
  cases ts with
  | nil =>
      right
      intro t ht
      cases ht
  | cons t rest =>
      cases hopens : opens t with
      | true => exact Or.inl ⟨t, rest, rfl, hopens⟩
      | false =>
          right
          intro t' ht'
          cases ht'
          exact hopens

/-- A part behind an opening token, or another one in its place. -/
theorem Reads.branch
    {Forms Forms' : List τ → α → Prop} {Follow Follow' FollowBoth : Option τ → Prop}
    {Due Due' : List τ → Prop}
    (hp : Reads fault Faulty p Forms Follow Due)
    (hq : Reads fault Faulty q Forms' Follow' Due')
    (hfollow : ∀ o, FollowBoth o → Follow o ∧ Follow' o)
    (hother : ∀ {us a rest}, Forms' us a → FollowBoth (List.head? rest) →
      ∀ t ∈ (us ++ rest).head?, opens t = false)
    (hdue : ∀ {us t}, Due' us → Faulty t → ∀ t' ∈ (us ++ [t]).head?, opens t' = false) :
    Reads fault Faulty (do if ← accept opens then p else q)
      (fun us a => Opened opens Forms us a ∨ Forms' us a) FollowBoth
      (fun us => OpenedDue opens Due us ∨ Due' us) := by
  refine ⟨?_, ?_, ?_⟩
  · intro ts a rest h
    rcases opens_head_cases opens ts with ⟨t, ts', rfl, hopens⟩ | hclosed
    · rw [run_branch_of_opens hopens] at h
      obtain ⟨us, rfl, hus⟩ := hp.sound h
      exact ⟨t :: us, rfl, Or.inl ⟨t, us, rfl, hopens, hus⟩⟩
    · rw [run_branch_of_not_opens hclosed] at h
      obtain ⟨us, hts, hus⟩ := hq.sound h
      exact ⟨us, hts, Or.inr hus⟩
  · rintro us a rest (⟨t, us, rfl, hopens, hus⟩ | hus) hrest hclean
    · rw [List.cons_append, run_branch_of_opens hopens]
      apply hp.complete hus (hfollow _ hrest).1
      rintro before t' after rfl hbefore
      exact hclean (t :: before) t' after rfl (Or.inl ⟨t, before, rfl, hopens, hbefore⟩)
    · rw [run_branch_of_not_opens (hother hus hrest)]
      exact hq.complete hus (hfollow _ hrest).2 (hclean.mono (fun _ => Or.inr))
  · intro ts
    constructor
    · intro h
      rcases opens_head_cases opens ts with ⟨t, ts', rfl, hopens⟩ | hclosed
      · rw [run_branch_of_opens hopens] at h
        obtain ⟨before, t', after, rfl, hbefore, hfaulty⟩ := hp.fault_iff.mp h
        exact ⟨t :: before, t', after, rfl, Or.inl ⟨t, before, rfl, hopens, hbefore⟩, hfaulty⟩
      · rw [run_branch_of_not_opens hclosed] at h
        obtain ⟨before, t', after, hts, hbefore, hfaulty⟩ := hq.fault_iff.mp h
        exact ⟨before, t', after, hts, Or.inr hbefore, hfaulty⟩
    · rintro ⟨before, t', after, rfl, ⟨t, us, rfl, hopens, hus⟩ | hus, hfaulty⟩
      · rw [List.cons_append, run_branch_of_opens hopens]
        exact hp.fault_iff.mpr ⟨us, t', after, rfl, hus, hfaulty⟩
      · have hclosed : ∀ t ∈ (before ++ t' :: after).head?, opens t = false := by
          have h := hdue hus hfaulty
          cases before <;> exact h
        rw [run_branch_of_not_opens hclosed]
        exact hq.fault_iff.mpr ⟨before, t', after, rfl, hus, hfaulty⟩

/-! ### Loops -/

theorem not_manyDue {Forms : List τ → α → Prop} {us : List τ} :
    ¬ ManyDue opens Forms (fun _ => False) us := by
  intro h
  induction h with
  | head _ h => exact h
  | tail _ _ _ ih => exact ih

theorem run_manyAfterFuel_of_opens
    {fuel : Nat} {t : τ} {ts : List τ} (h : opens t = true) :
    (manyAfterFuel opens p (fuel + 1)).run (t :: ts) =
      (p >>= fun a => manyAfterFuel opens p fuel >>= fun as =>
        (Pure.pure (a :: as) : Parser τ ε (List α))).run ts :=
  run_branch_of_opens h

theorem run_manyAfterFuel_of_not_opens
    {fuel : Nat} {ts : List τ} (h : ∀ t ∈ ts.head?, opens t = false) :
    (manyAfterFuel opens p fuel).run ts = .ok ([], ts) := by
  cases fuel with
  | zero => rfl
  | succ fuel => exact run_branch_of_not_opens h

/-- What one turn of the loop runs. -/
theorem run_turn {fuel : Nat} {ts : List τ} :
    (p >>= fun a => manyAfterFuel opens p fuel >>= fun as =>
      (Pure.pure (a :: as) : Parser τ ε (List α))).run ts =
    (p.run ts >>= fun r => ((manyAfterFuel opens p fuel).run r.2 >>= fun r' =>
      .ok (r.1 :: r'.1, r'.2))) :=
  rfl

variable {Forms : List τ → α → Prop} {Follow : Option τ → Prop} {Due : List τ → Prop}

theorem manyAfterFuel_sound
    (hp : Reads fault Faulty p Forms Follow Due) {fuel : Nat} {ts rest : List τ} {as : List α}
    (h : (manyAfterFuel opens p fuel).run ts = .ok (as, rest)) :
    ∃ us, ts = us ++ rest ∧ Many opens Forms us as := by
  induction fuel generalizing ts as with
  | zero =>
      cases h
      exact ⟨[], rfl, Many.nil⟩
  | succ fuel ih =>
      rcases opens_head_cases opens ts with ⟨t, ts', rfl, hopens⟩ | hclosed
      · rw [run_manyAfterFuel_of_opens hopens, run_turn] at h
        cases hrun : p.run ts' with
        | error e =>
            rw [hrun] at h
            cases h
        | ok r =>
            obtain ⟨a, between⟩ := r
            rw [hrun] at h
            change ((manyAfterFuel opens p fuel).run between >>= fun r' =>
              Except.ok (a :: r'.1, r'.2)) = _ at h
            cases hloop : (manyAfterFuel opens p fuel).run between with
            | error e =>
                rw [hloop] at h
                cases h
            | ok r' =>
                obtain ⟨as', rest'⟩ := r'
                rw [hloop] at h
                cases h
                obtain ⟨us, rfl, hus⟩ := hp.sound hrun
                obtain ⟨vs, rfl, hvs⟩ := ih hloop
                exact ⟨t :: us ++ vs, by simp, Many.cons hopens hus hvs⟩
      · rw [run_manyAfterFuel_of_not_opens hclosed] at h
        cases h
        exact ⟨[], rfl, Many.nil⟩

/-- The first token of some forms is an opening one. -/
theorem Many.head_opens {us : List τ} {as : List α} (h : Many opens Forms us as) :
    us = [] ∨ ∃ t rest, us = t :: rest ∧ opens t = true := by
  cases h with
  | nil => exact Or.inl rfl
  | cons ht _ _ => exact Or.inr ⟨_, _, rfl, ht⟩

theorem ManyDue.head_opens {us : List τ} (h : ManyDue opens Forms Due us) :
    ∃ t rest, us = t :: rest ∧ opens t = true := by
  cases h with
  | head ht _ => exact ⟨_, _, rfl, ht⟩
  | tail ht _ _ => exact ⟨_, _, rfl, ht⟩

theorem manyAfterFuel_complete
    (hp : Reads fault Faulty p Forms Follow Due)
    (hopens : ∀ t, opens t = true → Follow (some t))
    {fuel : Nat} {us rest : List τ} {as : List α} (h : Many opens Forms us as)
    (hfuel : us.length ≤ fuel) (hrest : Follow rest.head?)
    (hclosed : ∀ t ∈ rest.head?, opens t = false)
    (hclean : Clean Faulty (ManyDue opens Forms Due) us) :
    (manyAfterFuel opens p fuel).run (us ++ rest) = .ok (as, rest) := by
  induction h generalizing fuel with
  | nil => exact run_manyAfterFuel_of_not_opens hclosed
  | @cons t us vs a as ht ha has ih =>
      cases fuel with
      | zero => simp at hfuel
      | succ fuel =>
          have hhead : Follow ((vs ++ rest).head?) := by
            rcases has.head_opens with rfl | ⟨t', rest', rfl, ht'⟩
            · exact hrest
            · exact hopens t' ht'
          have hcleanUs : Clean Faulty Due us := by
            rintro before t' after rfl hbefore
            exact hclean (t :: before) t' (after ++ vs) (by simp) (ManyDue.head ht hbefore)
          have hcleanVs : Clean Faulty (ManyDue opens Forms Due) vs := by
            rintro before t' after rfl hbefore
            exact hclean (t :: us ++ before) t' after (by simp) (ManyDue.tail ht ha hbefore)
          have hfuel' : vs.length ≤ fuel := by
            simp only [List.length_append, List.length_cons] at hfuel
            omega
          have hrun := hp.complete ha hhead hcleanUs
          rw [List.append_assoc, List.cons_append, run_manyAfterFuel_of_opens ht, run_turn, hrun]
          change ((manyAfterFuel opens p fuel).run (vs ++ rest) >>= fun r' =>
            Except.ok (a :: r'.1, r'.2)) = _
          rw [ih hfuel' hcleanVs]
          rfl

theorem manyAfterFuel_fault_of_eq
    (hp : Reads fault Faulty p Forms Follow Due) {fuel : Nat} {ts : List τ}
    (h : (manyAfterFuel opens p fuel).run ts = .error fault) :
    ∃ before t after, ts = before ++ t :: after ∧ ManyDue opens Forms Due before ∧
      Faulty t := by
  induction fuel generalizing ts with
  | zero => cases h
  | succ fuel ih =>
      rcases opens_head_cases opens ts with ⟨t, ts', rfl, hopens⟩ | hclosed
      · rw [run_manyAfterFuel_of_opens hopens, run_turn] at h
        cases hrun : p.run ts' with
        | error e =>
            rw [hrun] at h
            cases h
            obtain ⟨before, t', after, rfl, hbefore, hfaulty⟩ := hp.fault_iff.mp hrun
            exact ⟨t :: before, t', after, rfl, ManyDue.head hopens hbefore, hfaulty⟩
        | ok r =>
            obtain ⟨a, between⟩ := r
            rw [hrun] at h
            change ((manyAfterFuel opens p fuel).run between >>= fun r' =>
              Except.ok (a :: r'.1, r'.2)) = _ at h
            cases hloop : (manyAfterFuel opens p fuel).run between with
            | error e =>
                rw [hloop] at h
                cases h
                obtain ⟨us, rfl, hus⟩ := hp.sound hrun
                obtain ⟨before, t', after, rfl, hbefore, hfaulty⟩ := ih hloop
                exact ⟨t :: us ++ before, t', after, by simp,
                  ManyDue.tail hopens hus hbefore, hfaulty⟩
            | ok r' =>
                rw [hloop] at h
                cases h
      · rw [run_manyAfterFuel_of_not_opens hclosed] at h
        cases h

theorem manyAfterFuel_eq_fault
    (hp : Reads fault Faulty p Forms Follow Due)
    (hopens : ∀ t, opens t = true → Follow (some t))
    {fuel : Nat} {before after : List τ} {t : τ} (h : ManyDue opens Forms Due before)
    (hfaulty : Faulty t) (hfuel : before.length ≤ fuel) :
    (manyAfterFuel opens p fuel).run (before ++ t :: after) = .error fault := by
  induction h generalizing fuel with
  | @head t' us ht hus =>
      cases fuel with
      | zero => simp at hfuel
      | succ fuel =>
          rw [List.cons_append, run_manyAfterFuel_of_opens ht, run_turn,
            hp.fault_iff.mpr ⟨us, t, after, rfl, hus, hfaulty⟩]
          rfl
  | @tail t' us vs a ht ha hvs ih =>
      cases fuel with
      | zero => simp at hfuel
      | succ fuel =>
          have hfuel' : vs.length ≤ fuel := by
            simp only [List.length_append, List.length_cons] at hfuel
            omega
          rw [List.append_assoc, List.cons_append, run_manyAfterFuel_of_opens ht, run_turn]
          by_cases hclean : Clean Faulty Due us
          · have hhead : Follow ((vs ++ t :: after).head?) := by
              obtain ⟨t'', rest, rfl, ht''⟩ := hvs.head_opens
              exact hopens t'' ht''
            rw [hp.complete ha hhead hclean]
            change ((manyAfterFuel opens p fuel).run (vs ++ t :: after) >>= fun r' =>
              Except.ok (a :: r'.1, r'.2)) = _
            rw [ih hfuel']
            rfl
          · unfold Clean at hclean
            push Not at hclean
            obtain ⟨start, bad, stop, rfl, hstart, hbad⟩ := hclean
            rw [hp.fault_iff.mpr ⟨start, bad, stop ++ (vs ++ t :: after), by simp,
              hstart, hbad⟩]
            rfl

/-- A loop over opening tokens reads the forms behind them. -/
theorem Reads.manyAfter
    {FollowMany : Option τ → Prop}
    (hp : Reads fault Faulty p Forms Follow Due)
    (hopens : ∀ t, opens t = true → Follow (some t))
    (hfollow : ∀ o, FollowMany o → Follow o ∧ ∀ t ∈ o, opens t = false) :
    Reads fault Faulty (manyAfter opens p) (Many opens Forms) FollowMany
      (ManyDue opens Forms Due) := by
  refine ⟨?_, ?_, ?_⟩
  · intro ts as rest h
    exact manyAfterFuel_sound hp h
  · intro us as rest h hrest hclean
    exact manyAfterFuel_complete hp hopens h (by simp) (hfollow _ hrest).1
      (hfollow _ hrest).2 hclean
  · intro ts
    constructor
    · intro h
      exact manyAfterFuel_fault_of_eq hp h
    · rintro ⟨before, t, after, rfl, hbefore, hfaulty⟩
      exact manyAfterFuel_eq_fault hp hopens hbefore hfaulty (by simp)

end Choices

/-! ### Parsers of whole inputs -/

section Whole

variable {p : Parser τ ε α} {Forms : List τ → α → Prop} {Follow : Option τ → Prop}
  {Due : List τ → Prop}

theorem Reads.accepts_iff
    (hp : Reads fault Faulty p Forms Follow Due) (hends : Ends p) (hfollow : Follow none)
    {ts : List τ} (hclean : Clean Faulty Due ts) (a : α) :
    (p.run ts).map Prod.fst = .ok a ↔ Forms ts a := by
  constructor
  · intro h
    cases hrun : p.run ts with
    | error e =>
        rw [hrun] at h
        cases h
    | ok r =>
        obtain ⟨a', rest⟩ := r
        rw [hrun] at h
        cases h
        obtain ⟨us, rfl, hus⟩ := hp.sound hrun
        rw [hends hrun, List.append_nil]
        exact hus
  · intro h
    have hrun : p.run (ts ++ []) = .ok (a, []) := hp.complete h hfollow hclean
    rw [List.append_nil] at hrun
    rw [hrun]
    rfl

theorem Reads.fault_of_not_clean
    (hp : Reads fault Faulty p Forms Follow Due) {ts : List τ}
    (h : ¬ Clean Faulty Due ts) : p.run ts = .error fault := by
  unfold Clean at h
  push Not at h
  obtain ⟨before, t, after, hsplit, hdue, hfaulty⟩ := h
  exact hp.fault_iff.mpr ⟨before, t, after, hsplit, hdue, hfaulty⟩

/-- Without a faulty token due there is no fault. -/
theorem Reads.ne_fault
    (hp : Reads fault Faulty p Forms Follow Due) {ts : List τ}
    (hclean : Clean Faulty Due ts) : p.run ts ≠ .error fault := by
  intro h
  obtain ⟨before, t, after, hsplit, hdue, hfaulty⟩ := hp.fault_iff.mp h
  exact hclean before t after hsplit hdue hfaulty

end Whole

end Rules

end TokenParsers
end Northwind
