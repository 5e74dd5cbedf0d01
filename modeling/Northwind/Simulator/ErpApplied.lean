import Mathlib.Logic.Relation
import Northwind.Simulator.ErpPostings

/-!
# What applying a posting changes

A posting adds its own row to the ledger and its marker, and nothing else; it
raises no doubling error where its id and its document number are free.
-/

namespace Northwind
namespace Simulator

open CrashPrograms CrashPrograms.Program ErpEventApplier

/-- The row of a posting. -/
def RevenuePostingCreated.row (posting : RevenuePostingCreated) : RevenuePostingRow where
  postingId := posting.postingId
  documentNumber := posting.documentNumber
  companyCode := posting.companyCode
  orderRef := some posting.orderRef
  postingDate := posting.postingDate
  documentCurrency := posting.documentCurrency
  amountDoc := posting.amountDoc
  companyCurrency := posting.companyCurrency

def ErpError.isDoubling : ErpError → Bool
  | .postingIdCollision _ | .uniqueViolation _ => true
  | _ => false

/-- The posting id and the document number are not in use. -/
def FreshPosting (db : ErpDatabase) (posting : RevenuePostingCreated) : Prop :=
  ∀ row, row ∈ db.revenuePostings → row.postingId ≠ posting.postingId ∧
    ¬ (row.companyCode = posting.companyCode ∧ row.documentNumber = posting.documentNumber)

/-- The ledger after a posting: with its row, which may have been there. -/
def Posted (posting : RevenuePostingCreated) (db db' : ErpDatabase) : Prop :=
  (db' = db ∧ ∃ row, row ∈ db.revenuePostings ∧ row.postingId = posting.postingId ∧
      row.orderRef = some posting.orderRef) ∨
    (FreshPosting db posting ∧
      db' = { db with revenuePostings := db.revenuePostings ++ [posting.row] })

variable {db : ErpDatabase}

theorem insertPosting_spec (posting : RevenuePostingCreated) (db : ErpDatabase) :
    (insertPosting posting.row).Meets (fun _ => True) (fun _ db' => Posted posting db db')
      (fun e _ => FreshPosting db posting → e.isDoubling = false) db := by
  simp only [insertPosting, meets_bind, meets_read, meets_ite, meets_raise, meets_write,
    true_and]
  refine ⟨fun hclash hfresh => ?_, fun hfree => .inr ⟨fun row hmem => ?_, rfl⟩⟩
  · obtain ⟨row, hmem, hrow⟩ := List.any_eq_true.mp hclash
    obtain ⟨hid, hdocument⟩ := hfresh row hmem
    obtain heq | heq : row.postingId = posting.postingId ∨
        (row.companyCode = posting.companyCode ∧
          row.documentNumber = posting.documentNumber) := by
      simp only [Bool.or_eq_true, Bool.and_eq_true, decide_eq_true_iff] at hrow
      exact hrow
    · exact absurd heq hid
    · exact absurd heq hdocument
  · have hclash : ¬ (row.postingId = posting.postingId ∨
        (row.companyCode = posting.companyCode ∧
          row.documentNumber = posting.documentNumber)) := by
      refine fun hclash => hfree (List.any_eq_true.mpr ⟨row, hmem, ?_⟩)
      simp only [Bool.or_eq_true, Bool.and_eq_true, decide_eq_true_iff]
      exact hclash
    exact not_or.mp hclash

theorem insertNewPosting_spec (posting : RevenuePostingCreated) (db : ErpDatabase) :
    (insertNewPosting posting db).Meets (fun _ => True) (fun _ db' => Posted posting db db')
      (fun e _ => FreshPosting db posting → e.isDoubling = false) db := by
  rw [insertNewPosting]
  cases currencyOf db posting.companyCode with
  | none => exact (meets_raise _).mpr fun _ => rfl
  | some currency =>
      simp only [meets_ite, meets_raise]
      refine ⟨fun _ _ => rfl, fun _ => ⟨fun _ _ => rfl, fun _ => ?_⟩⟩
      cases (currenciesToConvert posting.documentCurrency posting.companyCurrency).find?
          (fun currency => !hasUsdRate db currency posting.postingDate) with
      | some currency => exact (meets_raise _).mpr fun _ => rfl
      | none => exact insertPosting_spec posting db

theorem applyPosting_spec (posting : RevenuePostingCreated) (db : ErpDatabase) :
    (applyPosting posting).Meets (fun _ => True) (fun _ db' => Posted posting db db')
      (fun e _ => FreshPosting db posting → e.isDoubling = false) db := by
  rw [applyPosting, meets_bind, meets_read]
  cases hfind : db.revenuePostings.find? (fun row => row.postingId = posting.postingId) with
  | some existing =>
      have hmem := List.mem_of_find?_eq_some hfind
      have hid : existing.postingId = posting.postingId := by
        simpa using List.find?_some hfind
      simp only [meets_ite, meets_raise, meets_pure]
      exact ⟨fun _ hfresh => absurd hid (hfresh existing hmem).1,
        fun href => .inl ⟨rfl, existing, hmem, hid, not_not.mp href⟩⟩
  | none => exact insertNewPosting_spec posting db

/-! ## Transactions -/

/-- One posting event applied and marked. -/
def ErpMarkStep (event : BusinessEvent) (db db' : ErpDatabase) : Prop :=
  event.eventId ∉ db.appliedEvents ∧
    ∃ posting applied, event.body = .revenuePostingCreated posting ∧
      Posted posting db applied ∧
        db' = { applied with appliedEvents := db.appliedEvents ++ [event.eventId] }

def ErpAppliedBy (events : List BusinessEvent) : ErpDatabase → ErpDatabase → Prop :=
  Relation.ReflTransGen (fun db db' => ∃ event, event ∈ events ∧ ErpMarkStep event db db')

/-- The unmarked postings of a list bring free keys, each its own. -/
structure ErpReady (events : List BusinessEvent) (db : ErpDatabase) : Prop where
  fresh : ∀ event, event ∈ events → ∀ posting, event.body = .revenuePostingCreated posting →
    event.eventId ∉ db.appliedEvents → FreshPosting db posting
  distinct : ∀ event, event ∈ events → ∀ event', event' ∈ events →
    ∀ posting, event.body = .revenuePostingCreated posting →
    ∀ posting', event'.body = .revenuePostingCreated posting' →
    event.eventId ∉ db.appliedEvents → event'.eventId ∉ db.appliedEvents →
      (posting.postingId = posting'.postingId ∨
        (posting.companyCode = posting'.companyCode ∧
          posting.documentNumber = posting'.documentNumber)) →
        event.eventId = event'.eventId

theorem ErpMarkStep.appliedEvents
    {event : BusinessEvent} {db' : ErpDatabase} (h : ErpMarkStep event db db') :
    db'.appliedEvents = db.appliedEvents ++ [event.eventId] := by
  obtain ⟨_, posting, applied, _, _, rfl⟩ := h
  rfl

/-- No marker is lost. -/
theorem ErpAppliedBy.marks_subset {events : List BusinessEvent} {db' : ErpDatabase}
    (h : ErpAppliedBy events db db') : db.appliedEvents ⊆ db'.appliedEvents := by
  induction h with
  | refl => exact List.Subset.refl _
  | tail _ hstep ih =>
      obtain ⟨event, _, hstep⟩ := hstep
      rw [hstep.appliedEvents]
      exact List.Subset.trans ih (List.subset_append_left _ _)

/-- A new marker is of an event of the list. -/
theorem ErpAppliedBy.mem_marks {events : List BusinessEvent} {db' : ErpDatabase} {id : String}
    (h : ErpAppliedBy events db db') (hid : id ∈ db'.appliedEvents) :
    id ∈ db.appliedEvents ∨ ∃ event, event ∈ events ∧ event.eventId = id := by
  induction h with
  | refl => exact .inl hid
  | tail _ hstep ih =>
      obtain ⟨event, hevent, hstep⟩ := hstep
      rw [hstep.appliedEvents] at hid
      rcases List.mem_append.mp hid with hold | hnew
      · exact ih hold
      · exact .inr ⟨event, hevent, (List.mem_singleton.mp hnew).symm⟩

theorem ErpReady.markStep
    {events : List BusinessEvent} {event : BusinessEvent} {db' : ErpDatabase}
    (hready : ErpReady events db) (hmem : event ∈ events) (h : ErpMarkStep event db db') :
    ErpReady events db' := by
  obtain ⟨hunmarked, posting, applied, hbody, hposted, rfl⟩ := h
  have hold : ∀ {other : BusinessEvent}, other.eventId ∉ db.appliedEvents ++ [event.eventId] →
      other.eventId ∉ db.appliedEvents ∧ other.eventId ≠ event.eventId := by
    intro other hother
    simpa using hother
  refine ⟨fun other hother posting' hbody' hother' row hrow => ?_,
    fun other hother other' hmem' p hp p' hp' h₁ h₂ hclash => ?_⟩
  · obtain ⟨hunmarked', hne⟩ := hold hother'
    have hfresh := hready.fresh other hother posting' hbody' hunmarked'
    obtain ⟨rfl, _⟩ | ⟨_, rfl⟩ := hposted
    · exact hfresh row hrow
    · obtain hrow | hrow := List.mem_append.mp hrow
      · exact hfresh row hrow
      · obtain rfl := List.mem_singleton.mp hrow
        have hdistinct := hready.distinct event hmem other hother posting hbody posting' hbody'
          hunmarked hunmarked'
        exact ⟨fun heq => hne (hdistinct (.inl heq)).symm,
          fun heq => hne (hdistinct (.inr heq)).symm⟩
  · exact hready.distinct other hother other' hmem' p hp p' hp' (hold h₁).1 (hold h₂).1 hclash

theorem erpApplyOnce_spec (event : BusinessEvent) (db : ErpDatabase) :
    (applyOnce event).Meets (fun _ => True)
      (fun _ db' => (event.eventId ∈ db.appliedEvents ∧ db' = db) ∨ ErpMarkStep event db db')
      (fun e _ => (∀ posting, event.body = .revenuePostingCreated posting →
        event.eventId ∉ db.appliedEvents → FreshPosting db posting) → e.isDoubling = false)
      db := by
  rw [applyOnce]
  cases hbody : event.body with
  | revenuePostingCreated posting =>
      simp only [applyUnmarked, meets_ite, meets_raise, meets_bind, meets_read, meets_pure]
      refine ⟨fun _ _ => rfl, fun _ => ⟨fun hmem => .inl ⟨hmem, trivial⟩, fun hunmarked => ?_⟩⟩
      refine (applyPosting_spec posting db).mono (fun _ h => h) ?_ ?_
      · rintro _ applied hposted
        have hmarks : applied.appliedEvents = db.appliedEvents := by
          obtain ⟨rfl, _⟩ | ⟨_, rfl⟩ := hposted
          · rfl
          · rfl
        simp only [insertAppliedEvent, meets_bind, meets_read, meets_ite, meets_raise,
          meets_write, meets_pure, true_and]
        refine ⟨fun hmem => absurd (hmarks ▸ hmem) hunmarked, fun _ => .inr ⟨hunmarked, posting,
          applied, hbody, hposted, ?_⟩⟩
        rw [hmarks]
      · exact fun e _ herror hfresh => herror (hfresh posting rfl hunmarked)
  | _ => exact (meets_raise _).mpr fun _ => rfl

/-- A transaction marks every posting of its list; it raises no doubling error
where the unmarked ones bring free keys, each its own. -/
theorem erpApply_spec (events : List BusinessEvent) (db : ErpDatabase) :
    (ErpEventApplier.apply events).Meets (fun _ => True)
      (fun _ db' => ErpAppliedBy events db db' ∧
        ∀ event, event ∈ events → event.eventId ∈ db'.appliedEvents)
      (fun e _ => ErpReady events db → e.isDoubling = false) db := by
  refine meets_sumEach_once (F := fun e : ErpError => e.isDoubling = false) ?_ ?_ ?_ ?_ db
  · refine fun event t => (erpApplyOnce_spec event t).mono (fun _ h => h) (fun _ _ h => h) ?_
    exact fun e _ herror hmem hready => herror (hready.fresh event hmem)
  · intro event t t' hstep
    rw [hstep.appliedEvents]
    exact List.mem_append_right _ (List.mem_singleton_self _)
  · intro event other t t' hstep hmarked
    rw [hstep.appliedEvents]
    exact List.mem_append_left _ hmarked
  · exact fun event hmem t t' hready hstep => hready.markStep hmem hstep

end Simulator
end Northwind
