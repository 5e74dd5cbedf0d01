import Northwind.Simulator.CrmPlanner
import Northwind.Sources.Floats

/-!
# How many opportunities stall

The share of a rate is rounded, and one opportunity stalls at least.  So the
opportunities that move on are the majority exactly where three are planned.
-/

namespace Northwind
namespace Simulator

/-- The rates of `SimulationPolicy` that the CRM planner reads, as its
constructor accepts them. -/
structure CrmPolicy where
  annualGrowthRate : ℚ
  stalledOpportunity : ℚ
  growth : 0 < annualGrowthRate ∧ annualGrowthRate ≤ 1
  rate : 0 ≤ stalledOpportunity ∧ stalledOpportunity ≤ binary64 (1 / 20)

namespace CrmPolicy

variable (policy : CrmPolicy)

/-- `SimulationPolicy.proportional_daily_volume` -/
def proportionalDailyVolume (currentPopulation : Nat) : Nat :=
  max 1
    (roundHalfEven
      (binary64 (binary64 (binary64 currentPopulation * policy.annualGrowthRate) / 365))).toNat

/-- `round(len(selected) * anomalies.stalled_opportunity)` -/
def stalledOpportunities (selected : Nat) : Nat :=
  (roundHalfEven (binary64 (binary64 selected * policy.stalledOpportunity))).toNat

end CrmPolicy

/-- `random.Random.sample`: that many of the rows, at different places. -/
structure RandomSample where
  sample : List Row → Nat → List Row
  subperm : ∀ rows n, (sample rows n).Subperm rows
  length : ∀ rows n, n ≤ rows.length → (sample rows n).length = n

def CrmPolicy.planner (policy : CrmPolicy) (random : RandomSample)
    (digest : String → String → String → Payload → String) : CrmDailyPlanner where
  proportionalDailyVolume := policy.proportionalDailyVolume
  stalledOpportunities := policy.stalledOpportunities
  sample := random.sample
  sample_subperm := random.subperm
  digest := digest

/-- The planned events of a type. -/
def countOf (eventType : String) (events : List SourceEvent) : Nat :=
  events.countP (fun event => event.eventType = eventType)

variable {policy : CrmPolicy}

/-- Of three or more opportunities less than half stall. -/
theorem stalledOpportunities_lt {n : Nat} (hn : 3 ≤ n) :
    2 * max 1 (policy.stalledOpportunities n) < n := by
  have hcast : (3 : ℚ) ≤ n := by exact_mod_cast hn
  have hrate : policy.stalledOpportunity ≤ 3 / 50 := by
    have hle : binary64 (1 / 20) ≤ _ := binary64_le (by norm_num)
    linarith [policy.rate.2]
  have hn64 : binary64 n ≤ n * (101 / 100) := by
    have hle : binary64 n ≤ _ := binary64_le (by positivity)
    linarith
  have hproduct : binary64 n * policy.stalledOpportunity ≤ n * (7 / 100) := by
    calc binary64 n * policy.stalledOpportunity
        ≤ n * (101 / 100) * (3 / 50) :=
          mul_le_mul hn64 hrate policy.rate.1 (by positivity)
      _ ≤ n * (7 / 100) := by linarith
  have hnonneg : 0 ≤ binary64 n * policy.stalledOpportunity :=
    mul_nonneg (binary64_nonneg (by positivity)) policy.rate.1
  have hshare : (roundHalfEven (binary64 (binary64 n * policy.stalledOpportunity)) : ℚ) ≤
      n * (8 / 100) + 51 / 100 := by
    have hround := roundHalfEven_le (binary64 (binary64 n * policy.stalledOpportunity))
    have hle := binary64_le hnonneg
    linarith
  have hstalled : (policy.stalledOpportunities n : ℚ) ≤ n * (8 / 100) + 51 / 100 := by
    have hint := roundHalfEven_nonneg (binary64_nonneg hnonneg)
    have hcast' : ((policy.stalledOpportunities n : ℤ) : ℚ) =
        roundHalfEven (binary64 (binary64 n * policy.stalledOpportunity)) := by
      rw [CrmPolicy.stalledOpportunities, Int.toNat_of_nonneg hint]
    have : ((policy.stalledOpportunities n : ℤ) : ℚ) = policy.stalledOpportunities n := by
      push_cast
      rfl
    linarith
  rcases le_total (policy.stalledOpportunities n) 1 with hle | hle
  · rw [max_eq_left hle]
    omega
  · rw [max_eq_right hle]
    have hlt : (2 * policy.stalledOpportunities n : ℚ) < n := by linarith
    exact_mod_cast hlt

/-- The first rows of a list with distinct ids are those with one of their ids. -/
theorem countP_take {ρ : Type} {id : ρ → String} {rows : List ρ} (h : (rows.map id).Nodup)
    (k : Nat) :
    rows.countP (fun r => id r ∈ (rows.take k).map id) = min k rows.length := by
  have hsplit : (rows.take k).map id ++ (rows.drop k).map id = rows.map id := by
    rw [← List.map_append, List.take_append_drop]
  have hdisjoint := (List.nodup_append.mp (hsplit ▸ h)).2.2
  have htake : (rows.take k).countP (fun r => id r ∈ (rows.take k).map id) =
      (rows.take k).length := by
    rw [List.countP_eq_length]
    intro r hr
    exact decide_eq_true (List.mem_map_of_mem hr)
  have hdrop : (rows.drop k).countP (fun r => id r ∈ (rows.take k).map id) = 0 := by
    rw [List.countP_eq_zero]
    intro r hr hmem
    exact hdisjoint _ (of_decide_eq_true hmem) _ (List.mem_map_of_mem hr) rfl
  calc rows.countP (fun r => id r ∈ (rows.take k).map id)
      = (rows.take k).countP (fun r => id r ∈ (rows.take k).map id) +
          (rows.drop k).countP (fun r => id r ∈ (rows.take k).map id) := by
        rw [← List.countP_append, List.take_append_drop]
    _ = min k rows.length := by rw [htake, hdrop, List.length_take, Nat.add_zero]

section Stages

variable {random : RandomSample} {digest : String → String → String → Payload → String}
variable {runDate : String} {opportunities : List Row} {population : Option Nat}

theorem changed_ne_stalled : "opportunity_stage_changed" ≠ "opportunity_stalled" := by
  decide

variable (policy random digest runDate population) in
/-- How many opportunities a day stalls and how many it moves on. -/
theorem countOf_stageEvents
    (hids : ((opportunities.filter isOpen).map (fun r => cellText (r "Id"))).Nodup)
    (hopen : opportunities.filter isOpen ≠ []) :
    let volume := policy.proportionalDailyVolume
      (population.getD (opportunities.filter isOpen).length)
    let selected := min volume (opportunities.filter isOpen).length
    let stalled := min selected (max 1 (policy.stalledOpportunities selected))
    let events := (policy.planner random digest).stageEvents runDate opportunities population
    countOf "opportunity_stalled" events = stalled ∧
      countOf "opportunity_stage_changed" events = selected - stalled := by
  intro volume selected stalled events
  have hvolume : max 1 volume = volume := max_eq_right (Nat.le_max_left 1 _)
  let rows := random.sample (opportunities.filter isOpen) selected
  have hlength : rows.length = selected := random.length _ _ (Nat.min_le_right _ _)
  have hrows : (rows.map (fun r => cellText (r "Id"))).Nodup := by
    obtain ⟨other, hperm, hsub⟩ := random.subperm (opportunities.filter isOpen) selected
    exact (hperm.map _).nodup_iff.mp (hids.sublist (hsub.map _))
  have hevents : events = rows.map (fun r =>
      if cellText (r "Id") ∈ (rows.take stalled).map (fun r => cellText (r "Id")) then
        (policy.planner random digest).stalledEvent runDate r
      else (policy.planner random digest).stageChangedEvent runDate r) := by
    have hempty : (opportunities.filter isOpen).isEmpty = false := by
      simpa using hopen
    have hcount : max 1 ((policy.planner random digest).proportionalDailyVolume
        (population.getD (opportunities.filter isOpen).length)) = volume := hvolume
    have hsample : (policy.planner random digest).sample (opportunities.filter isOpen)
        (min volume (opportunities.filter isOpen).length) = rows := rfl
    have hshare : (policy.planner random digest).stalledOpportunities selected =
        policy.stalledOpportunities selected := rfl
    simp only [events, CrmDailyPlanner.stageEvents, hempty, Bool.false_eq_true, if_false, hcount,
      hsample, hlength, hshare]
    rfl
  have hstalled : rows.countP (fun r =>
      cellText (r "Id") ∈ (rows.take stalled).map (fun r => cellText (r "Id"))) = stalled := by
    rw [countP_take hrows, hlength]
    exact min_eq_left (Nat.min_le_left _ _)
  have hchanged := rows.length_eq_countP_add_countP (fun r =>
    decide (cellText (r "Id") ∈ (rows.take stalled).map (fun r => cellText (r "Id"))))
  rw [hstalled, hlength] at hchanged
  rw [hevents, countOf, countOf, List.countP_map, List.countP_map]
  constructor
  · refine Eq.trans (List.countP_congr fun r _ => ?_) hstalled
    simp only [Function.comp_apply, decide_eq_true_iff]
    split
    · exact iff_of_true rfl ‹_›
    · exact iff_of_false changed_ne_stalled ‹_›
  · refine Eq.trans (List.countP_congr fun r _ => ?_) (Nat.eq_sub_of_add_eq' hchanged.symm)
    simp only [Function.comp_apply, decide_eq_true_iff]
    split
    · exact iff_of_false changed_ne_stalled.symm (not_not.mpr ‹_›)
    · exact iff_of_true rfl ‹_›

/-- Strictly fewer opportunities stall than move on, for every policy, date and
snapshot, exactly if three are planned: the open opportunities are three at
least, and so is the daily volume of their population. -/
theorem stalled_lt_changed_iff
    (hids : ((opportunities.filter isOpen).map (fun r => cellText (r "Id"))).Nodup) :
    countOf "opportunity_stalled"
          ((policy.planner random digest).stageEvents runDate opportunities population) <
        countOf "opportunity_stage_changed"
          ((policy.planner random digest).stageEvents runDate opportunities population) ↔
      3 ≤ (opportunities.filter isOpen).length ∧
        3 ≤ policy.proportionalDailyVolume
          (population.getD (opportunities.filter isOpen).length) := by
  by_cases hopen : opportunities.filter isOpen = []
  · have hevents : (policy.planner random digest).stageEvents runDate opportunities population =
        [] := by
      simp [CrmDailyPlanner.stageEvents, hopen]
    rw [hevents, hopen]
    simp [countOf]
  · obtain ⟨hstalled, hchanged⟩ :=
      countOf_stageEvents policy random digest runDate population hids hopen
    rw [hstalled, hchanged]
    have hvolume : 1 ≤ policy.proportionalDailyVolume
        (population.getD (opportunities.filter isOpen).length) := Nat.le_max_left 1 _
    have hlength : 1 ≤ (opportunities.filter isOpen).length := List.length_pos_of_ne_nil hopen
    generalize policy.proportionalDailyVolume
      (population.getD (opportunities.filter isOpen).length) = volume at hvolume ⊢
    generalize (opportunities.filter isOpen).length = length at hlength ⊢
    rw [← Nat.le_min, Nat.min_comm length]
    constructor
    · intro hlt
      omega
    · intro hthree
      have hlt : 2 * max 1 (policy.stalledOpportunities (min volume length)) < _ :=
        stalledOpportunities_lt hthree
      omega

/-- The first rows, a policy without stalls of its own and opportunities in the
first stage. -/
def firstRows : RandomSample where
  sample rows n := rows.take n
  subperm := take_subperm
  length _ _ h := List.length_take_of_le h

def noStalls : CrmPolicy where
  annualGrowthRate := 1
  stalledOpportunity := 0
  growth := by norm_num
  rate := ⟨le_refl 0, binary64_nonneg (by norm_num)⟩

def prospect (id : String) : Row := fun field =>
  if field = "Id" then some (.text id)
  else if field = "StageName" then some (.text "Prospecting")
  else none

/-- The daily volume of two thousand open opportunities is three at least. -/
theorem three_le_noStalls_volume {population : Nat} (h : 2000 ≤ population) :
    3 ≤ noStalls.proportionalDailyVolume population := by
  have hcast : (2000 : ℚ) ≤ population := by exact_mod_cast h
  have hpopulation := le_binary64 (x := (population : ℚ)) (by positivity)
  have hgrown := le_binary64 (x := binary64 population * 1) (by linarith)
  have hdaily := le_binary64 (x := binary64 (binary64 population * 1) / 365) (by linarith)
  have hrounded := le_roundHalfEven (binary64 (binary64 (binary64 population * 1) / 365))
  have hthree : (3 : ℚ) ≤
      roundHalfEven (binary64 (binary64 (binary64 population * 1) / 365)) := by
    linarith
  have hint : (3 : ℤ) ≤ roundHalfEven (binary64 (binary64 (binary64 population * 1) / 365)) := by
    exact_mod_cast hthree
  exact le_max_of_le_right (Int.toNat_le_toNat hint)

theorem stalled_lt_changed_iff_three_prospects :
    countOf "opportunity_stalled"
        ((noStalls.planner firstRows (fun _ _ _ _ => "")).stageEvents "2026-07-25"
          [prospect "1", prospect "2", prospect "3"] (some 2000)) <
      countOf "opportunity_stage_changed"
        ((noStalls.planner firstRows (fun _ _ _ _ => "")).stageEvents "2026-07-25"
          [prospect "1", prospect "2", prospect "3"] (some 2000)) := by
  have hopen : [prospect "1", prospect "2", prospect "3"].filter isOpen =
      [prospect "1", prospect "2", prospect "3"] := rfl
  refine (stalled_lt_changed_iff ?_).mpr ⟨?_, three_le_noStalls_volume (le_refl 2000)⟩
  · rw [hopen]
    decide
  · rw [hopen]
    decide

/-- The one open opportunity of a population stalls every day. -/
theorem one_prospect_stalls :
    ¬ (countOf "opportunity_stalled"
        ((noStalls.planner firstRows (fun _ _ _ _ => "")).stageEvents "2026-07-25"
          [prospect "1"] (some 1)) <
      countOf "opportunity_stage_changed"
        ((noStalls.planner firstRows (fun _ _ _ _ => "")).stageEvents "2026-07-25"
          [prospect "1"] (some 1))) := by
  have hopen : [prospect "1"].filter isOpen = [prospect "1"] := rfl
  obtain ⟨hstalled, hchanged⟩ := countOf_stageEvents noStalls firstRows (fun _ _ _ _ => "")
    "2026-07-25" (some 1) (hopen ▸ List.nodup_singleton _) (hopen ▸ List.cons_ne_nil _ _)
  rw [hstalled, hchanged, hopen]
  simp only [List.length_singleton]
  omega

end Stages

end Simulator
end Northwind
