import Northwind.Sources.Rows

/-!
# CRM events

The business events the CRM planner hands to the publisher, and how they are
grouped by the object they change.  A payload is the list of its entries; a
missing key and an entry without a value are different things.
-/

namespace Northwind
namespace Simulator

/-- A payload: every key with its value, which may be `None`. -/
abbrev Payload := List (String × Option Value)

/-- One event, with the fields the publisher reads. -/
structure SourceEvent where
  eventId : String
  sourceSystem : String
  eventType : String
  entityId : String
  payload : Payload

/-- The objects with a base source. -/
inductive CrmObject where
  | accounts
  | opportunities
deriving DecidableEq

def CrmObject.name : CrmObject → String
  | .accounts => "accounts"
  | .opportunities => "opportunities"

inductive CrmDeltaError where
  | notCrm
  | unsupportedEventType (eventType : String)
  | differentEventSet
  | duplicateRecord
  | alreadyExists (entityId : String)
  | unknownRecord (entityId : String)
  | missingBase (object : CrmObject)
deriving DecidableEq

def CrmDeltaError.message : CrmDeltaError → String
  | .notCrm => "CRM publisher accepts only CRM events"
  | .unsupportedEventType eventType => "unsupported CRM event type: " ++ eventType
  | .differentEventSet => "a different CRM event set was already published for this date"
  | .duplicateRecord => "only one CRM event per record and date may be published"
  | .alreadyExists entityId => "CRM record already exists: " ++ entityId
  | .unknownRecord entityId => "CRM event refers to an unknown record: " ++ entityId
  | .missingBase object => object.name

/-- `str.startswith` -/
def startsWith (s stem : String) : Bool :=
  stem.toList.isPrefixOf s.toList

/-- `CrmDeltaPublisher._object_for` -/
def objectFor (event : SourceEvent) : Except CrmDeltaError CrmObject :=
  if startsWith event.eventType "account_" then .ok .accounts
  else if startsWith event.eventType "opportunity_" then .ok .opportunities
  else .error (.unsupportedEventType event.eventType)

/-- `event.event_type.endswith("_created")` -/
def SourceEvent.isCreate (event : SourceEvent) : Bool :=
  endsWith event.eventType "_created"

/-- An event that leaves a row in the stage history. -/
def SourceEvent.inHistory (event : SourceEvent) : Bool :=
  event.eventType = "opportunity_created" || event.eventType = "opportunity_stage_changed"

/-! ## Groups -/

/-- One event with its object; the first event that has none is an error. -/
def tagEvent (event : SourceEvent) : Except CrmDeltaError (CrmObject × SourceEvent) :=
  if event.sourceSystem ≠ "crm" then .error .notCrm
  else
    match objectFor event with
    | .error e => .error e
    | .ok object => .ok (object, event)

/-- The events of one object, in their order. -/
def groupOf (tagged : List (CrmObject × SourceEvent)) (object : CrmObject) :
    List SourceEvent :=
  (tagged.filter (fun x => x.1 = object)).map Prod.snd

/-- The keys of the grouped dictionary, in the order of their first event. -/
def groupOrder (tagged : List (CrmObject × SourceEvent)) : List CrmObject :=
  (tagged.map Prod.fst).reverse.dedup.reverse

theorem nodup_groupOrder (tagged : List (CrmObject × SourceEvent)) :
    (groupOrder tagged).Nodup := by
  rw [groupOrder, List.nodup_reverse]
  exact List.nodup_dedup _

theorem groupOf_ne_nil_iff
    (tagged : List (CrmObject × SourceEvent)) (object : CrmObject) :
    groupOf tagged object ≠ [] ↔ object ∈ groupOrder tagged := by
  rw [groupOrder, List.mem_reverse, List.mem_dedup, List.mem_reverse, List.mem_map]
  constructor
  · intro hne
    obtain ⟨event, hevent⟩ := List.exists_mem_of_ne_nil _ hne
    obtain ⟨x, hx, _⟩ := List.mem_map.mp hevent
    obtain ⟨hmem, hobject⟩ := List.mem_filter.mp hx
    exact ⟨x, hmem, by simpa using hobject⟩
  · rintro ⟨x, hmem, hobject⟩
    apply List.ne_nil_of_mem
    exact List.mem_map_of_mem (List.mem_filter.mpr ⟨hmem, by simpa using hobject⟩)

end Simulator
end Northwind
