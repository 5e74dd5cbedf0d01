import Mathlib.Data.List.Basic
import Mathlib.Data.List.Induction

/-!
# A log of the versions of one contract

A thing is observed again and again: at each observation it has a contract, or
it is not there.  The log writes down every contract that it has not seen
before and retires the ones before it.

The log shows the observed contract as its only current one as long as nothing
that has a contract goes away and no contract comes back after another one.
This is exact: the first observation that breaks the rule is not shown.
-/

namespace Northwind
namespace VersionLog

universe u v

variable {κ : Type u}

/-- A version and whether it is retired. -/
structure Version (κ : Type u) where
  contract : κ
  retired : Bool

section Log

variable [DecidableEq κ]

/-- A contract that is in the log changes nothing; a new one retires the others. -/
def observe (log : List (Version κ)) : Option κ → List (Version κ)
  | none => log
  | some c =>
      if c ∈ log.map Version.contract then log
      else log.map (fun version => { version with retired := true }) ++ [⟨c, false⟩]

def observeAll (log : List (Version κ)) (observed : List (Option κ)) : List (Version κ) :=
  observed.foldl observe log

end Log

/-- The contracts that are not retired. -/
def current (log : List (Version κ)) : List κ :=
  (log.filter (fun version => !version.retired)).map Version.contract

/-- The observation the log shows: the last one. -/
def latest (observed : List (Option κ)) : Option κ :=
  observed.getLast?.join

/-- What the log has to show of an observation after others: a contract that was
there is still there, and one that comes back is the one that was there. -/
def Follows (before : List (Option κ)) (o : Option κ) : Prop :=
  (o = none → latest before = none) ∧
    ∀ c, o = some c → some c ∈ before → latest before = some c

/-- Every observation follows those before it. -/
def Straight (observed : List (Option κ)) : Prop :=
  ∀ before o after, observed = before ++ o :: after → Follows before o

theorem latest_concat (observed : List (Option κ)) (o : Option κ) :
    latest (observed ++ [o]) = o := by
  simp [latest]

theorem straight_concat {observed : List (Option κ)} {o : Option κ} :
    Straight (observed ++ [o]) ↔ Straight observed ∧ Follows observed o := by
  constructor
  · intro h
    refine ⟨fun before o' after heq => h before o' (after ++ [o]) ?_, h observed o [] rfl⟩
    rw [heq, List.append_assoc]
    rfl
  · rintro ⟨hstraight, hfollows⟩ before o' after heq
    induction after using List.reverseRecOn with
    | nil =>
        obtain ⟨rfl, ho⟩ := List.append_inj' heq rfl
        cases ho
        exact hfollows
    | append_singleton after last _ =>
        rw [← List.cons_append, ← List.append_assoc] at heq
        exact hstraight before o' after (List.append_inj' heq rfl).1

theorem straight_of_append {observed after : List (Option κ)} (h : Straight (observed ++ after)) :
    Straight observed := by
  intro before o rest heq
  refine h before o (rest ++ after) ?_
  rw [heq, List.append_assoc]
  rfl

/-- A faithful name of the contracts changes nothing. -/
theorem straight_map_iff {κ' : Type v} {f : κ → κ'} (hf : Function.Injective f)
    (observed : List (Option κ)) :
    Straight (observed.map (Option.map f)) ↔ Straight observed := by
  have hlatest : ∀ before : List (Option κ),
      latest (before.map (Option.map f)) = (latest before).map f := by
    intro before
    rw [latest, latest, List.getLast?_map]
    cases before.getLast? with
    | none => rfl
    | some o => rfl
  have hfollows : ∀ before o, Follows (before.map (Option.map f)) (o.map f) ↔
      Follows before o := by
    intro before o
    have hmem : ∀ c, some (f c) ∈ before.map (Option.map f) ↔ some c ∈ before := fun c =>
      List.mem_map_of_injective (Option.map_injective hf) (a := some c)
    rw [Follows, Follows, hlatest]
    cases o with
    | none => simp
    | some c =>
        simp only [Option.map_some, Option.some.injEq, forall_eq', hmem]
        cases latest before <;> simp [hf.eq_iff]
  induction observed using List.reverseRecOn with
  | nil =>
      rw [List.map_nil]
      exact iff_of_true (fun _ _ _ h => absurd h (by simp)) (fun _ _ _ h => absurd h (by simp))
  | append_singleton observed o ih =>
      rw [List.map_append, List.map_singleton, straight_concat, straight_concat]
      exact and_congr ih (hfollows observed o)

variable [DecidableEq κ]

theorem observeAll_concat (log : List (Version κ)) (observed : List (Option κ)) (o : Option κ) :
    observeAll log (observed ++ [o]) = observe (observeAll log observed) o := by
  rw [observeAll, List.foldl_append]
  rfl

/-- The log keeps every contract that was observed, and no other one. -/
theorem mem_contracts_observeAll {observed : List (Option κ)} {c : κ} :
    c ∈ (observeAll [] observed).map Version.contract ↔ some c ∈ observed := by
  induction observed using List.reverseRecOn with
  | nil => simp [observeAll]
  | append_singleton observed o ih =>
      rw [observeAll_concat, List.mem_append, ← ih, List.mem_singleton]
      cases o with
      | none => simp [observe]
      | some c' =>
          by_cases hmem : c' ∈ (observeAll [] observed).map Version.contract
          · rw [observe, if_pos hmem]
            refine ⟨.inl, fun h => h.elim id fun heq => ?_⟩
            cases heq
            exact hmem
          · rw [observe, if_neg hmem, List.map_append, List.map_map, List.mem_append]
            have hsame : Version.contract ∘ (fun version : Version κ =>
                { version with retired := true }) = Version.contract := rfl
            rw [hsame]
            simp

/-- One observation: the log shows it exactly if it follows. -/
theorem current_observe_iff
    {before : List (Option κ)} (h : current (observeAll [] before) = (latest before).toList)
    (o : Option κ) :
    current (observeAll [] (before ++ [o])) = o.toList ↔ Follows before o := by
  rw [observeAll_concat]
  cases o with
  | none =>
      rw [observe, h, Follows]
      cases latest before <;> simp
  | some c =>
      by_cases hmem : c ∈ (observeAll [] before).map Version.contract
      · rw [observe, if_pos hmem, h, Follows]
        have hbefore : some c ∈ before := mem_contracts_observeAll.mp hmem
        cases hlatest : latest before with
        | none => simpa using hbefore
        | some c' =>
            constructor
            · intro heq
              have hc : c' = c := by simpa using heq
              refine ⟨fun hnone => (nomatch hnone), fun c'' hc'' _ => ?_⟩
              rw [hc, hc'']
            · rintro ⟨_, hback⟩
              rw [hback c rfl hbefore]
      · have hbefore : some c ∉ before := fun hc => hmem (mem_contracts_observeAll.mpr hc)
        refine iff_of_true ?_ ⟨fun hnone => (nomatch hnone), fun c' hc' hc => ?_⟩
        · rw [observe, if_neg hmem]
          simp [current, List.filter_map]
        · cases hc'
          exact absurd hc hbefore

/-- The log shows every observation exactly if they are straight. -/
theorem current_eq_latest_iff (observed : List (Option κ)) :
    (∀ before after, observed = before ++ after →
        current (observeAll [] before) = (latest before).toList) ↔
      Straight observed := by
  induction observed using List.reverseRecOn with
  | nil =>
      refine iff_of_true (fun before after heq => ?_) (fun before o after heq => ?_)
      · obtain ⟨rfl, _⟩ := List.append_eq_nil_iff.mp heq.symm
        rfl
      · cases (List.append_eq_nil_iff.mp heq.symm).2
  | append_singleton observed o ih =>
      rw [straight_concat, ← ih]
      constructor
      · intro h
        have hall : ∀ before after, observed = before ++ after →
            current (observeAll [] before) = (latest before).toList := by
          intro before after heq
          refine h before (after ++ [o]) ?_
          rw [heq, List.append_assoc]
        refine ⟨hall, (current_observe_iff (hall observed [] (by simp)) o).mp ?_⟩
        rw [h (observed ++ [o]) [] (by simp), latest_concat]
      · rintro ⟨hall, hfollows⟩ before after heq
        induction after using List.reverseRecOn with
        | nil =>
            rw [List.append_nil] at heq
            subst heq
            rw [latest_concat]
            exact (current_observe_iff (hall observed [] (by simp)) o).mpr hfollows
        | append_singleton after last _ =>
            rw [← List.append_assoc] at heq
            exact hall before after (List.append_inj' heq rfl).1

end VersionLog
end Northwind
