import Northwind.Simulator.CrmMajority
import Northwind.Simulator.CrmSnapshot
import Northwind.Sources.Integers

/-!
# The CRM plan of a day

`read` samples the current rows and takes the number after the largest suffix of
an id.  `plan` makes accounts and opportunities with the ids of the next numbers,
then the stage events of the sampled opportunities.

Parameters are: what DuckDB makes of the reader's statements, the outcomes of the
random generator, `int` and the date arithmetic.
-/

namespace Northwind
namespace Simulator

open FakeForce

/-! ## New ids -/

/-- The first characters of the ids of an object. -/
def CrmObject.idStem : CrmObject → String
  | .accounts => "001"
  | .opportunities => "006"

/-- `f"001{sequence:015d}"` and `f"006{sequence:015d}"` -/
def newId (object : CrmObject) (sequence : Int) : String :=
  object.idStem ++ zeroPaddedInt 15 sequence

/-- `text[k:]` -/
def dropChars (k : Nat) (text : String) : String :=
  String.ofList (text.toList.drop k)

theorem newId_injective (object : CrmObject) : Function.Injective (newId object) :=
  (append_left_injective object.idStem).comp (zeroPaddedInt_injective 15)

@[simp] theorem dropChars_newId (object : CrmObject) (sequence : Int) :
    dropChars 3 (newId object sequence) = zeroPaddedInt 15 sequence := by
  have hstem : object.idStem.toList.length = 3 := by
    cases object <;> rfl
  rw [dropChars, newId, String.toList_append, ← hstem, List.drop_left, String.ofList_toList]

/-! ## The snapshot -/

/-- One more than the largest `BIGINT`. -/
def bigintBound : Int :=
  2 ^ 63

/-- What DuckDB makes of the reader's statements. -/
structure SnapshotEngine where
  rank : RankEngine
  /-- `ORDER BY hash("Id", ?)` -/
  hashOrder : Int → List Row → List Row
  hashOrder_perm : ∀ seed rows, (hashOrder seed rows).Perm rows
  /-- `SELECT DISTINCT`, in any order -/
  distinct : List Value → List Value
  distinct_perm : ∀ values, (distinct values).Perm values.dedup
  /-- `try_cast(… AS BIGINT)` -/
  tryCastBigint : String → Option Int
  tryCast_range : ∀ text n, tryCastBigint text = some n → -bigintBound ≤ n ∧ n < bigintBound
  tryCast_digits : ∀ n, -bigintBound ≤ n → n < bigintBound →
    tryCastBigint (zeroPaddedInt 15 n) = some n

namespace SnapshotEngine

variable (engine : SnapshotEngine)

/-- `try_cast(substr("Id", 4) AS BIGINT)` -/
def suffixNumber (r : Row) : Option Int :=
  match r "Id" with
  | some (.text id) => engine.tryCastBigint (dropChars 3 id)
  | _ => none

/-- `coalesce(max(…), 0)` -/
def largestSuffix (rows : List Row) : Int :=
  ((rows.filterMap engine.suffixNumber).max?).getD 0

/-- `coalesce(max(…), 0) + 1`, an error past the largest `BIGINT`. -/
def nextId (rows : List Row) : Option Int :=
  if engine.largestSuffix rows + 1 < bigintBound then some (engine.largestSuffix rows + 1)
  else none

end SnapshotEngine

structure CrmSnapshot where
  accounts : List Row
  opportunities : List Row
  accountPopulation : Option Nat
  openOpportunityPopulation : Option Nat
  accountNextSequence : Option Int
  opportunityNextSequence : Option Int
  ownerIds : List Value

/-- The sampled rows of an object. -/
def CrmSnapshot.rowsOf (snapshot : CrmSnapshot) : CrmObject → List Row
  | .accounts => snapshot.accounts
  | .opportunities => snapshot.opportunities

def CrmSnapshot.nextSequence (snapshot : CrmSnapshot) : CrmObject → Option Int
  | .accounts => snapshot.accountNextSequence
  | .opportunities => snapshot.opportunityNextSequence

/-- The columns that the reader's statements name. -/
def namedColumns : CrmObject → List String
  | .accounts => ["Id", "OwnerId"]
  | .opportunities => ["Id", "AccountId", "OwnerId", "StageName"]

/-- A row of a statement that selects some columns. -/
def Row.select (columns : List String) (r : Row) : Row :=
  fun column => if column ∈ columns then r column else none

namespace CrmSnapshotReader

variable (reader : CrmSnapshotReader)

/-- `CrmSnapshotReader.read`; `none` where DuckDB raises an error. -/
def read (policy : CrmPolicy) (engine : SnapshotEngine) (schema : CrmObject → List String)
    (disk : Disk) (source : CrmObject → Path) (seed : Int) : Option CrmSnapshot :=
  if ∀ object ∈ [CrmObject.accounts, .opportunities], ∀ column ∈ namedColumns object,
      column ∈ schema object then do
    let accountRows ← reader.relation engine.rank disk (source .accounts) .accounts
    let opportunityRows ← reader.relation engine.rank disk (source .opportunities) .opportunities
    let accountNext ← engine.nextId accountRows
    let opportunityNext ← engine.nextId opportunityRows
    let openRows := opportunityRows.filter isOpen
    let accountSample := min accountRows.length
      (max 100 (policy.proportionalDailyVolume accountRows.length * 2))
    let transitionSample := min openRows.length (policy.proportionalDailyVolume openRows.length)
    some {
      accounts := ((engine.hashOrder seed accountRows).take accountSample).map
        (Row.select (namedColumns .accounts))
      opportunities := ((engine.hashOrder seed openRows).take transitionSample).map
        (Row.select (namedColumns .opportunities))
      accountPopulation := some accountRows.length
      openOpportunityPopulation := some openRows.length
      accountNextSequence := some accountNext
      opportunityNextSequence := some opportunityNext
      ownerIds := (engine.distinct (accountRows.filterMap (fun r => r "OwnerId"))).take 1024 }
  else none

end CrmSnapshotReader

/-! ### What the snapshot holds -/

namespace SnapshotEngine

variable {engine : SnapshotEngine} {rows : List Row}

theorem suffixNumber_newId (engine : SnapshotEngine) {object : CrmObject} {n : Int} {r : Row}
    (hid : r "Id" = some (.text (newId object n))) (hlower : -bigintBound ≤ n)
    (hupper : n < bigintBound) : engine.suffixNumber r = some n := by
  rw [suffixNumber, hid]
  simp only [dropChars_newId]
  exact engine.tryCast_digits n hlower hupper

theorem suffixNumber_range {r : Row} {n : Int} (h : engine.suffixNumber r = some n) :
    -bigintBound ≤ n ∧ n < bigintBound := by
  unfold suffixNumber at h
  split at h
  · exact engine.tryCast_range _ _ h
  · cases h

theorem le_largestSuffix {r : Row} {n : Int} (hr : r ∈ rows)
    (hn : engine.suffixNumber r = some n) : n ≤ engine.largestSuffix rows := by
  have hmem : n ∈ rows.filterMap engine.suffixNumber := List.mem_filterMap.mpr ⟨r, hr, hn⟩
  obtain ⟨m, hm⟩ := Option.isSome_iff_exists.mp (List.isSome_max?_of_mem hmem)
  rw [largestSuffix, hm, Option.getD_some]
  exact (List.max?_eq_some_iff.mp hm).2 n hmem

theorem le_largestSuffix_bound (engine : SnapshotEngine) (rows : List Row) :
    -bigintBound ≤ engine.largestSuffix rows := by
  rw [largestSuffix]
  cases hm : (rows.filterMap engine.suffixNumber).max? with
  | none => simp [bigintBound]
  | some m =>
      obtain ⟨r, _, hr⟩ := List.mem_filterMap.mp (List.max?_mem hm)
      exact (suffixNumber_range hr).1

end SnapshotEngine

/-- Where the parts of a snapshot come from. -/
theorem CrmSnapshotReader.exists_rows_of_read {reader : CrmSnapshotReader} {policy : CrmPolicy}
    {engine : SnapshotEngine} {schema : CrmObject → List String} {disk : Disk}
    {source : CrmObject → Path} {seed : Int} {snapshot : CrmSnapshot}
    (h : reader.read policy engine schema disk source seed = some snapshot) :
    (∀ object, ∀ column ∈ namedColumns object, column ∈ schema object) ∧
    ∃ rows : CrmObject → List Row,
      (∀ object,
        reader.relation engine.rank disk (source object) object = some (rows object) ∧
        snapshot.nextSequence object = some (engine.largestSuffix (rows object) + 1)) ∧
      ∃ size, snapshot.opportunities =
        ((engine.hashOrder seed ((rows .opportunities).filter isOpen)).take size).map
          (Row.select (namedColumns .opportunities)) := by
  rw [read] at h
  split at h
  · rename_i hcolumns
    simp only [Option.bind_eq_bind, Option.bind_eq_some_iff, Option.some.injEq] at h
    obtain ⟨accountRows, haccounts, opportunityRows, hopportunities, accountNext, haccountNext,
      opportunityNext, hopportunityNext, rfl⟩ := h
    have hnext : ∀ rows next, engine.nextId rows = some next →
        next = engine.largestSuffix rows + 1 := by
      intro rows next hnext
      rw [SnapshotEngine.nextId] at hnext
      split at hnext
      · exact (Option.some.inj hnext).symm
      · cases hnext
    let rows : CrmObject → List Row := fun object => match object with
      | .accounts => accountRows
      | .opportunities => opportunityRows
    refine ⟨?_, rows, ?_, _, rfl⟩
    · intro object
      cases object with
      | accounts => exact hcolumns .accounts (by simp)
      | opportunities => exact hcolumns .opportunities (by simp)
    · intro object
      cases object with
      | accounts => exact ⟨haccounts, congrArg some (hnext _ _ haccountNext)⟩
      | opportunities => exact ⟨hopportunities, congrArg some (hnext _ _ hopportunityNext)⟩
  · cases h

/-! ## The plan -/

/-- The outcomes of the random generator for each new account and opportunity, one
number for each call, and the built-in functions of the planner. -/
structure PlanInputs where
  account : Nat → Nat → Nat
  opportunity : Nat → Nat → Nat
  /-- `int` of a text; `none` is a `ValueError`. -/
  int : String → Option Int
  /-- `(date + timedelta(days)).isoformat()`; `none` past the last date. -/
  daysLater : String → Nat → Option String

/-- `rng.choice`; an empty list is an `IndexError`. -/
def choice {α : Type} (values : List α) (draw : Nat) : Option α :=
  values[draw % values.length]?

/-- `rng.randrange` -/
def randrange (start stop draw : Nat) : Nat :=
  start + draw % (stop - start)

/-- `INDUSTRIES` -/
def industries : List String :=
  ["Technology", "Healthcare", "Manufacturing", "Financial Services"]

/-- `COUNTRIES` -/
def countries : List String :=
  ["United States", "Canada", "Germany", "United Kingdom", "Japan"]

def accountTypes : List String :=
  ["Customer - Direct", "Customer - Channel", "Partner"]

def leadSources : List String :=
  ["Web", "Partner", "Referral", "Marketing Campaign"]

/-- `max(1, round(account_count * 1.8))` -/
def opportunityCount (accountCount : Nat) : Nat :=
  max 1 (roundHalfEven (binary64 (binary64 accountCount * binary64 (9 / 5)))).toNat

namespace CrmDailyPlanner

variable (planner : CrmDailyPlanner)

/-- `CrmDailyPlanner._next_sequence` -/
def nextSequence (int : String → Option Int) (rows : List Row) (stem : String) : Option Int := do
  let ids := (rows.map (fun r => cellText (r "Id"))).filter (fun id => startsWith id stem)
  let sequences ← ids.mapM (fun id => int (dropChars stem.toList.length id))
  some (sequences.max?.getD 0 + 1)

/-- `snapshot.account_next_sequence or self._next_sequence(snapshot.accounts, …)`:
`0` counts as absent. -/
def firstSequence (int : String → Option Int) (snapshot : CrmSnapshot) (object : CrmObject) :
    Option Int :=
  match snapshot.nextSequence object with
  | some n =>
      if n ≠ 0 then some n else nextSequence int (snapshot.rowsOf object) object.idStem
  | none => nextSequence int (snapshot.rowsOf object) object.idStem

/-- `CrmDailyPlanner._owner_ids` -/
def ownerIds (snapshot : CrmSnapshot) : List Value :=
  if snapshot.ownerIds ≠ [] then snapshot.ownerIds
  else
    let owned := (snapshot.accounts ++ snapshot.opportunities).filter
      (fun r => truthy (r "OwnerId"))
    let owners := (owned.map (fun r => cellText (r "OwnerId"))).dedup.insertionSort (· ≤ ·)
    if owners ≠ [] then owners.map Value.text else [.text "REP-0001"]

/-- The entries that every new record has. -/
def createdPayload (runDate : String) (owner : Value) : Payload :=
  [("OwnerId", some owner), ("CreatedById", some owner), ("LastModifiedById", some owner),
    ("CreatedDate", some (.text (timestamp runDate))),
    ("LastModifiedDate", some (.text (timestamp runDate))),
    ("SystemModstamp", some (.text (timestamp runDate))), ("IsDeleted", some (.flag false))]

def accountCreated (runDate : String) (owners : List Value) (sequence : Int) (draw : Nat → Nat) :
    Option SourceEvent := do
  let owner ← choice owners (draw 0)
  let industry ← choice industries (draw 1)
  let type ← choice accountTypes (draw 2)
  let country ← choice countries (draw 3)
  let payload : Payload :=
    [("Id", some (.text (newId .accounts sequence))),
      ("Name", some (.text ("Daily Systems " ++ zeroPaddedInt 6 sequence))),
      ("AccountNumber", some (.text ("ACC-" ++ zeroPaddedInt 6 sequence))),
      ("Industry", some (.text industry)), ("Type", some (.text type)),
      ("BillingCountry", some (.text country)),
      ("AnnualRevenue", some (.number (randrange 500 50000 (draw 4) * 1000 : Nat))),
      ("NumberOfEmployees", some (.number (randrange 10 5000 (draw 5) : Nat)))]
  some (planner.create runDate "account_created" (newId .accounts sequence)
    (payload ++ createdPayload runDate owner))

def opportunityCreated (inputs : PlanInputs) (runDate : String) (accountIds : List String)
    (owners : List Value) (sequence : Int) (draw : Nat → Nat) : Option SourceEvent := do
  let accountId ← choice accountIds (draw 0)
  let owner ← choice owners (draw 1)
  let closeDate ← inputs.daysLater runDate (randrange 30 121 (draw 3))
  let leadSource ← choice leadSources (draw 4)
  let payload : Payload :=
    [("Id", some (.text (newId .opportunities sequence))), ("AccountId", some (.text accountId)),
      ("Name", some (.text ("Daily opportunity " ++ zeroPaddedInt 6 sequence))),
      ("StageName", some (.text "Prospecting")),
      ("Amount", some (.number (randrange 10 2000 (draw 2) * 1000 : Nat))),
      ("CurrencyIsoCode", some (.text "USD")), ("CloseDate", some (.text closeDate)),
      ("Probability", some (.number 10)), ("LeadSource", some (.text leadSource)),
      ("CampaignId", none), ("DiscountPercent", some (.number 0)), ("LossReason", none),
      ("SalesCycleDays", some (.number 0))]
  some (planner.create runDate "opportunity_created" (newId .opportunities sequence)
    (payload ++ createdPayload runDate owner))

/-- How many accounts the day creates. -/
def accountCount (snapshot : CrmSnapshot) : Nat :=
  planner.proportionalDailyVolume (snapshot.accountPopulation.getD snapshot.accounts.length)

/-- How many records of an object the day creates. -/
def createdCount (snapshot : CrmSnapshot) : CrmObject → Nat
  | .accounts => planner.accountCount snapshot
  | .opportunities => opportunityCount (planner.accountCount snapshot)

/-- The records of the next numbers, one after the other. -/
def newRecords (create : Int → (Nat → Nat) → Option SourceEvent) (draws : Nat → Nat → Nat)
    (first : Int) (count : Nat) : Option (List SourceEvent) :=
  (List.range count).mapM (fun index : Nat => create (first + index) (draws index))

/-- `CrmDailyPlanner.plan`; `none` where it raises an error. -/
def plan (inputs : PlanInputs) (runDate : String) (snapshot : CrmSnapshot) :
    Option (List SourceEvent) := do
  let nextAccount ← firstSequence inputs.int snapshot .accounts
  let nextOpportunity ← firstSequence inputs.int snapshot .opportunities
  let owners := ownerIds snapshot
  let accounts ← newRecords (planner.accountCreated runDate owners) inputs.account nextAccount
    (planner.createdCount snapshot .accounts)
  let accountIds := accounts.map SourceEvent.entityId ++
    snapshot.accounts.map (fun r => cellText (r "Id"))
  let opportunities ← newRecords
    (planner.opportunityCreated inputs runDate accountIds owners) inputs.opportunity
    nextOpportunity (planner.createdCount snapshot .opportunities)
  some (accounts ++ opportunities ++
    planner.stageEvents runDate snapshot.opportunities snapshot.openOpportunityPopulation)

/-! ### New records -/

/-- The creation of the record of an object with the id of a number. -/
structure IsNew (object : CrmObject) (sequence : Int) (event : SourceEvent) : Prop where
  entityId : event.entityId = newId object sequence
  tagged : tagEvent event = .ok (object, event)
  isCreate : event.isCreate = true
  id : event.payload.lookup "Id" = some (some (.text event.entityId))

variable {planner}

theorem isNew_accountCreated {runDate : String} {owners : List Value} {sequence : Int}
    {draw : Nat → Nat} {event : SourceEvent}
    (h : planner.accountCreated runDate owners sequence draw = some event) :
    IsNew .accounts sequence event := by
  simp only [accountCreated, Option.bind_eq_bind, Option.bind_eq_some_iff, Option.some.injEq] at h
  obtain ⟨owner, _, industry, _, type, _, country, _, rfl⟩ := h
  have htag : startsWith "account_created" "account_" = true := by
    decide +kernel
  refine ⟨rfl, ?_, (by decide +kernel : endsWith "account_created" "_created" = true), rfl⟩
  simp [tagEvent, objectFor, create, htag]

theorem isNew_opportunityCreated {inputs : PlanInputs} {runDate : String}
    {accountIds : List String} {owners : List Value} {sequence : Int} {draw : Nat → Nat}
    {event : SourceEvent}
    (h : planner.opportunityCreated inputs runDate accountIds owners sequence draw = some event) :
    IsNew .opportunities sequence event := by
  simp only [opportunityCreated, Option.bind_eq_bind, Option.bind_eq_some_iff,
    Option.some.injEq] at h
  obtain ⟨accountId, _, owner, _, closeDate, _, leadSource, _, rfl⟩ := h
  have haccount : startsWith "opportunity_created" "account_" = false := by
    decide +kernel
  have hopportunity : startsWith "opportunity_created" "opportunity_" = true := by
    decide +kernel
  refine ⟨rfl, ?_, (by decide +kernel : endsWith "opportunity_created" "_created" = true), rfl⟩
  simp [tagEvent, objectFor, create, haccount, hopportunity]

/-- A list maps to values exactly when every element does. -/
theorem mapM_eq_some_iff {α β : Type} (f : α → Option β) (xs : List α) (ys : List β) :
    xs.mapM f = some ys ↔ List.Forall₂ (fun x y => f x = some y) xs ys := by
  induction xs generalizing ys with
  | nil =>
      rw [List.mapM_nil, List.forall₂_nil_left_iff]
      exact ⟨fun h => (Option.some.inj h).symm, fun h => by rw [h]; rfl⟩
  | cons x xs ih =>
      simp only [List.mapM_cons, Option.bind_eq_bind, Option.bind_eq_some_iff,
        List.forall₂_cons_left_iff, ih]
      constructor
      · rintro ⟨y, hy, rest, hrest, h⟩
        exact ⟨y, rest, hy, hrest, (Option.some.inj h).symm⟩
      · rintro ⟨y, rest, hy, hrest, rfl⟩
        exact ⟨y, hy, rest, hrest, rfl⟩

theorem exists_left_of_forall₂ {α β : Type} {R : α → β → Prop} {xs : List α} {ys : List β}
    (h : List.Forall₂ R xs ys) {y : β} (hy : y ∈ ys) : ∃ x ∈ xs, R x y := by
  induction h with
  | nil => cases hy
  | @cons x y' xs ys hx _ ih =>
      rcases List.mem_cons.mp hy with rfl | hy
      · exact ⟨x, List.mem_cons_self, hx⟩
      · obtain ⟨x', hx', hR⟩ := ih hy
        exact ⟨x', List.mem_cons_of_mem _ hx', hR⟩

theorem exists_right_of_forall₂ {α β : Type} {R : α → β → Prop} {xs : List α} {ys : List β}
    (h : List.Forall₂ R xs ys) {x : α} (hx : x ∈ xs) : ∃ y ∈ ys, R x y :=
  exists_left_of_forall₂ h.flip hx

/-- The new records have the ids of the next numbers. -/
theorem forall₂_isNew {object : CrmObject} {make : Int → (Nat → Nat) → Option SourceEvent}
    (hmake : ∀ n draw event, make n draw = some event → IsNew object n event)
    {draws : Nat → Nat → Nat} {first : Int} {count : Nat} {events : List SourceEvent}
    (h : newRecords make draws first count = some events) :
    List.Forall₂ (fun (index : Nat) event => IsNew object (first + index) event)
      (List.range count) events :=
  ((mapM_eq_some_iff _ _ _).mp h).imp (fun _ _ hevent => hmake _ _ _ hevent)

/-! ### When a plan is made -/

theorem exists_choice {α : Type} {values : List α} (h : values ≠ []) (draw : Nat) :
    ∃ value, choice values draw = some value := by
  have hlength : draw % values.length < values.length :=
    Nat.mod_lt _ (List.length_pos_of_ne_nil h)
  exact ⟨_, List.getElem?_eq_getElem hlength⟩

theorem ownerIds_ne_nil (snapshot : CrmSnapshot) : ownerIds snapshot ≠ [] := by
  rw [ownerIds]
  split
  · assumption
  · simp only
    split
    · rename_i howners
      exact fun hnil => howners (List.map_eq_nil_iff.mp hnil)
    · exact List.cons_ne_nil _ _

theorem exists_newRecords {make : Int → (Nat → Nat) → Option SourceEvent}
    (hmake : ∀ n draw, ∃ event, make n draw = some event) (draws : Nat → Nat → Nat) (first : Int)
    (count : Nat) : ∃ events, newRecords make draws first count = some events := by
  choose event hevent using hmake
  refine ⟨(List.range count).map (fun index : Nat => event (first + index) (draws index)), ?_⟩
  rw [newRecords, mapM_eq_some_iff, List.forall₂_map_right_iff, List.forall₂_same]
  exact fun _ _ => hevent _ _

/-- A plan fails on an unreadable id or a date past the last one only. -/
theorem exists_plan {inputs : PlanInputs} {runDate : String} {snapshot : CrmSnapshot}
    (hfirst : ∀ object, ∃ n, firstSequence inputs.int snapshot object = some n)
    (hdates : ∀ days, ∃ text, inputs.daysLater runDate days = some text)
    (hcount : 0 < planner.accountCount snapshot) :
    ∃ events, planner.plan inputs runDate snapshot = some events := by
  obtain ⟨nextAccount, hnextAccount⟩ := hfirst .accounts
  obtain ⟨nextOpportunity, hnextOpportunity⟩ := hfirst .opportunities
  have howners := ownerIds_ne_nil snapshot
  have hindustries : industries ≠ [] := List.cons_ne_nil _ _
  have htypes : accountTypes ≠ [] := List.cons_ne_nil _ _
  have hcountries : countries ≠ [] := List.cons_ne_nil _ _
  have hsources : leadSources ≠ [] := List.cons_ne_nil _ _
  obtain ⟨accounts, haccounts⟩ : ∃ accounts, newRecords
      (planner.accountCreated runDate (ownerIds snapshot)) inputs.account nextAccount
      (planner.createdCount snapshot .accounts) = some accounts := by
    apply exists_newRecords
    intro sequence draw
    obtain ⟨owner, howner⟩ := exists_choice howners (draw 0)
    obtain ⟨industry, hindustry⟩ := exists_choice hindustries (draw 1)
    obtain ⟨type, htype⟩ := exists_choice htypes (draw 2)
    obtain ⟨country, hcountry⟩ := exists_choice hcountries (draw 3)
    rw [← Option.isSome_iff_exists]
    simp [accountCreated, howner, hindustry, htype, hcountry]
  let accountIds := accounts.map SourceEvent.entityId ++
    snapshot.accounts.map (fun r => cellText (r "Id"))
  have hids : accountIds ≠ [] := by
    have hlength := ((mapM_eq_some_iff _ _ _).mp haccounts).length_eq
    rw [List.length_range] at hlength
    intro hnil
    have hempty := (List.append_eq_nil_iff.mp hnil).1
    rw [List.map_eq_nil_iff.mp hempty] at hlength
    exact absurd hlength (Nat.ne_of_gt hcount)
  obtain ⟨opportunities, hopportunities⟩ : ∃ opportunities, newRecords
      (planner.opportunityCreated inputs runDate accountIds (ownerIds snapshot)) inputs.opportunity
      nextOpportunity (planner.createdCount snapshot .opportunities) = some opportunities := by
    apply exists_newRecords
    intro sequence draw
    obtain ⟨account, haccount⟩ := exists_choice hids (draw 0)
    obtain ⟨owner, howner⟩ := exists_choice howners (draw 1)
    obtain ⟨closeDate, hcloseDate⟩ := hdates (randrange 30 121 (draw 3))
    obtain ⟨source, hsource⟩ := exists_choice hsources (draw 4)
    rw [← Option.isSome_iff_exists]
    simp [opportunityCreated, haccount, howner, hcloseDate, hsource]
  rw [← Option.isSome_iff_exists]
  simp [plan, hnextAccount, hnextOpportunity, haccounts, hopportunities, accountIds]

/-! ### Stage events -/

/-- An event of an opportunity that is there. -/
structure IsStageEvent (r : Row) (event : SourceEvent) : Prop where
  entityId : event.entityId = cellText (r "Id")
  tagged : tagEvent event = .ok (.opportunities, event)
  isCreate : event.isCreate = false
  id : event.payload.lookup "Id" = none

theorem isStageEvent_stalledEvent (planner : CrmDailyPlanner) (runDate : String) (r : Row) :
    IsStageEvent r (planner.stalledEvent runDate r) := by
  have haccount : startsWith "opportunity_stalled" "account_" = false := by
    decide +kernel
  have hopportunity : startsWith "opportunity_stalled" "opportunity_" = true := by
    decide +kernel
  refine ⟨rfl, ?_, (by decide +kernel : endsWith "opportunity_stalled" "_created" = false), rfl⟩
  simp [tagEvent, objectFor, stalledEvent, create, haccount, hopportunity]

theorem isStageEvent_stageChangedEvent (planner : CrmDailyPlanner) (runDate : String) (r : Row) :
    IsStageEvent r (planner.stageChangedEvent runDate r) := by
  have haccount : startsWith "opportunity_stage_changed" "account_" = false := by
    decide +kernel
  have hopportunity : startsWith "opportunity_stage_changed" "opportunity_" = true := by
    decide +kernel
  refine ⟨rfl, ?_,
    (by decide +kernel : endsWith "opportunity_stage_changed" "_created" = false), ?_⟩
  · simp [tagEvent, objectFor, stageChangedEvent, create, haccount, hopportunity]
  · simp only [stageChangedEvent, create, stagePayload, List.lookup_append,
      Option.or_eq_none_iff]
    refine ⟨⟨rfl, ?_⟩, ?_⟩
    · split <;> rfl
    · split <;> rfl

/-- The stage events are those of open rows, each for one row. -/
theorem exists_selected (planner : CrmDailyPlanner) (runDate : String) (opportunities : List Row)
    (population : Option Nat) :
    ∃ selected : List Row, selected.Subperm (opportunities.filter isOpen) ∧
      List.Forall₂ IsStageEvent selected
        (planner.stageEvents runDate opportunities population) := by
  let openRows := opportunities.filter isOpen
  let volume := max 1 (planner.proportionalDailyVolume (population.getD openRows.length))
  simp only [stageEvents]
  split
  · exact ⟨[], List.nil_subperm, List.Forall₂.nil⟩
  · refine ⟨planner.sample openRows (min volume openRows.length),
      planner.sample_subperm _ _, ?_⟩
    rw [List.forall₂_map_right_iff, List.forall₂_same]
    intro r _
    split
    · exact isStageEvent_stalledEvent planner runDate r
    · exact isStageEvent_stageChangedEvent planner runDate r

/-- The parts of a plan. -/
theorem exists_parts_of_plan {inputs : PlanInputs} {runDate : String} {snapshot : CrmSnapshot}
    {events : List SourceEvent} (h : planner.plan inputs runDate snapshot = some events) :
    ∃ (first : CrmObject → Int) (created : CrmObject → List SourceEvent),
      (∀ object, firstSequence inputs.int snapshot object = some (first object) ∧
        List.Forall₂ (fun (index : Nat) event => IsNew object (first object + index) event)
          (List.range (planner.createdCount snapshot object)) (created object)) ∧
      events = created .accounts ++ created .opportunities ++
        planner.stageEvents runDate snapshot.opportunities snapshot.openOpportunityPopulation := by
  simp only [plan, Option.bind_eq_bind, Option.bind_eq_some_iff, Option.some.injEq] at h
  obtain ⟨nextAccount, haccount, nextOpportunity, hopportunity, accounts, haccounts,
    opportunities, hopportunities, rfl⟩ := h
  let first : CrmObject → Int := fun object => match object with
    | .accounts => nextAccount
    | .opportunities => nextOpportunity
  let created : CrmObject → List SourceEvent := fun object => match object with
    | .accounts => accounts
    | .opportunities => opportunities
  refine ⟨first, created, ?_, rfl⟩
  intro object
  cases object with
  | accounts =>
      exact ⟨haccount, forall₂_isNew (fun _ _ _ hevent => isNew_accountCreated hevent) haccounts⟩
  | opportunities =>
      exact ⟨hopportunity,
        forall₂_isNew (fun _ _ _ hevent => isNew_opportunityCreated hevent) hopportunities⟩

/-! ### History events -/

/-- The events of a plan, by what makes them. -/
theorem mem_plan_cases {inputs : PlanInputs} {runDate : String} {snapshot : CrmSnapshot}
    {events : List SourceEvent} (h : planner.plan inputs runDate snapshot = some events)
    {event : SourceEvent} (hevent : event ∈ events) :
    (∃ owners sequence draw,
        planner.accountCreated runDate owners sequence draw = some event) ∨
      (∃ accountIds owners sequence draw,
        planner.opportunityCreated inputs runDate accountIds owners sequence draw = some event) ∨
      event ∈ planner.stageEvents runDate snapshot.opportunities
        snapshot.openOpportunityPopulation := by
  simp only [plan, Option.bind_eq_bind, Option.bind_eq_some_iff, Option.some.injEq] at h
  obtain ⟨_, _, _, _, accounts, haccounts, opportunities, hopportunities, rfl⟩ := h
  rcases List.mem_append.mp hevent with hcreated | hstaged
  · rcases List.mem_append.mp hcreated with hevent | hevent
    · obtain ⟨_, _, hmade⟩ :=
        exists_left_of_forall₂ ((mapM_eq_some_iff _ _ _).mp haccounts) hevent
      exact Or.inl ⟨_, _, _, hmade⟩
    · obtain ⟨_, _, hmade⟩ :=
        exists_left_of_forall₂ ((mapM_eq_some_iff _ _ _).mp hopportunities) hevent
      exact Or.inr (Or.inl ⟨_, _, _, _, hmade⟩)
  · exact Or.inr (Or.inr hstaged)

/-- The id of a planned event is the digest of the event. -/
theorem eventId_of_mem_plan {inputs : PlanInputs} {runDate : String} {snapshot : CrmSnapshot}
    {events : List SourceEvent} (h : planner.plan inputs runDate snapshot = some events)
    {event : SourceEvent} (hevent : event ∈ events) :
    event.eventId = planner.digest runDate event.eventType event.entityId event.payload := by
  rcases mem_plan_cases h hevent with ⟨_, _, _, hmade⟩ | ⟨_, _, _, _, hmade⟩ | hstaged
  · simp only [accountCreated, Option.bind_eq_bind, Option.bind_eq_some_iff,
      Option.some.injEq] at hmade
    obtain ⟨_, _, _, _, _, _, _, _, rfl⟩ := hmade
    rfl
  · simp only [opportunityCreated, Option.bind_eq_bind, Option.bind_eq_some_iff,
      Option.some.injEq] at hmade
    obtain ⟨_, _, _, _, _, _, _, _, rfl⟩ := hmade
    rfl
  · simp only [stageEvents] at hstaged
    split at hstaged
    · cases hstaged
    · obtain ⟨r, _, rfl⟩ := List.mem_map.mp hstaged
      split <;> rfl

/-- An event of the stage history, with the entries that its row is made of. -/
structure WritesHistory (runDate : String) (event : SourceEvent) : Prop where
  sourceSystem : event.sourceSystem = "crm"
  stage : ∃ stage, event.payload.lookup "StageName" = some (some (.text stage))
  modified : event.payload.lookup "LastModifiedDate" = some (some (.text (timestamp runDate)))
  modstamp : event.payload.lookup "SystemModstamp" = some (some (.text (timestamp runDate)))

theorem writesHistory_of_mem_plan {inputs : PlanInputs} {runDate : String}
    {snapshot : CrmSnapshot} {events : List SourceEvent}
    (h : planner.plan inputs runDate snapshot = some events)
    {event : SourceEvent} (hevent : event ∈ events) (hin : event.inHistory = true) :
    WritesHistory runDate event := by
  rcases mem_plan_cases h hevent with ⟨_, _, _, hmade⟩ | ⟨_, _, _, _, hmade⟩ | hstaged
  · simp only [accountCreated, Option.bind_eq_bind, Option.bind_eq_some_iff,
      Option.some.injEq] at hmade
    obtain ⟨_, _, _, _, _, _, _, _, rfl⟩ := hmade
    simp [SourceEvent.inHistory, create] at hin
  · simp only [opportunityCreated, Option.bind_eq_bind, Option.bind_eq_some_iff,
      Option.some.injEq] at hmade
    obtain ⟨_, _, _, _, _, _, _, _, rfl⟩ := hmade
    exact ⟨rfl, ⟨_, rfl⟩, rfl, rfl⟩
  · simp only [stageEvents] at hstaged
    split at hstaged
    · cases hstaged
    · obtain ⟨r, _, rfl⟩ := List.mem_map.mp hstaged
      split at hin
      · simp [SourceEvent.inHistory, stalledEvent, create] at hin
      · rename_i hmoves
        rw [if_neg hmoves]
        exact ⟨rfl, ⟨_, rfl⟩, rfl, rfl⟩

/-- Every plan creates an opportunity. -/
theorem exists_created_of_plan {inputs : PlanInputs} {runDate : String} {snapshot : CrmSnapshot}
    {events : List SourceEvent} (h : planner.plan inputs runDate snapshot = some events) :
    ∃ event ∈ events, event.inHistory = true := by
  simp only [plan, Option.bind_eq_bind, Option.bind_eq_some_iff, Option.some.injEq] at h
  obtain ⟨_, _, _, _, accounts, _, opportunities, hopportunities, rfl⟩ := h
  have hpositive : 0 ∈ List.range (planner.createdCount snapshot .opportunities) :=
    List.mem_range.mpr (Nat.le_max_left 1 _)
  obtain ⟨event, hevent, hmade⟩ :=
    exists_right_of_forall₂ ((mapM_eq_some_iff _ _ _).mp hopportunities) hpositive
  refine ⟨event, List.mem_append_left _ (List.mem_append_right _ hevent), ?_⟩
  simp only [opportunityCreated, Option.bind_eq_bind, Option.bind_eq_some_iff,
    Option.some.injEq] at hmade
  obtain ⟨_, _, _, _, _, _, _, _, rfl⟩ := hmade
  rfl

end CrmDailyPlanner

end Simulator
end Northwind
