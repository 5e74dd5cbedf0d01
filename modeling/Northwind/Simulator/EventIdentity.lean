import Northwind.Library.JsonText
import Northwind.Sources.Integers
import Mathlib.Data.List.Sort

/-!
# The identity of an event

`SourceEvent.create` hashes the date, the source, the type, the entity and the
canonical JSON of the payload, joined with `|`.  The entity and the payload are not
escaped against the separator.

`events_identified`: the text gives back all five, so that events of one id, and
the events that `ON CONFLICT DO NOTHING` drops, agree in them.  The day an event is
available on and its anomaly are not part of the text.

SHA-256 and the texts of floating-point numbers are parameters.
-/

namespace Northwind
namespace Simulator
namespace EventIdentity

open JsonText

/-! ## Events -/

/-- `datetime.date` -/
structure CalendarDate where
  year : Nat
  month : Nat
  day : Nat
deriving DecidableEq

/-- `date.isoformat` -/
def CalendarDate.isoformat (date : CalendarDate) : String :=
  zeroPadded 4 date.year ++ "-" ++ zeroPadded 2 date.month ++ "-" ++ zeroPadded 2 date.day

/-- A dictionary of scalars, with its entries in some order. -/
structure JsonPayload (φ : Type) where
  entries : List (Member φ)
  distinct : (entries.map Prod.fst).Nodup

/-- The arguments of `SourceEvent.create`. -/
structure EventArguments (φ : Type) where
  businessDate : CalendarDate
  sourceSystem : String
  eventType : String
  entityId : String
  payload : JsonPayload φ
  availableOn : Option CalendarDate
  anomalyType : Option String

/-- `SourceEvent` -/
structure IdentifiedEvent (φ : Type) where
  eventId : String
  businessDate : CalendarDate
  sourceSystem : String
  eventType : String
  entityId : String
  payload : JsonPayload φ
  availableOn : CalendarDate
  anomalyType : Option String

section Creation

variable {φ : Type} (floats : FloatText φ) (hexdigest : String → String)

/-- `json.dumps(payload, sort_keys=True, separators=(",", ":"))` -/
def JsonPayload.stablePayload (payload : JsonPayload φ) : String :=
  String.ofList (objectText floats
    (payload.entries.insertionSort (fun member member' => member.1 ≤ member'.1)))

/-- The text that `SourceEvent.create` hashes. -/
def EventArguments.identityText (event : EventArguments φ) : String :=
  event.businessDate.isoformat ++ "|" ++ event.sourceSystem ++ "|" ++ event.eventType ++ "|" ++
    event.entityId ++ "|" ++ event.payload.stablePayload floats

/-- `SourceEvent.create` -/
def create (event : EventArguments φ) : IdentifiedEvent φ where
  eventId := hexdigest (event.identityText floats)
  businessDate := event.businessDate
  sourceSystem := event.sourceSystem
  eventType := event.eventType
  entityId := event.entityId
  payload := event.payload
  availableOn := event.availableOn.getD event.businessDate
  anomalyType := event.anomalyType

end Creation

/-! ## Recording -/

section Recording

variable {φ : Type}

/-- `INSERT … ON CONFLICT (event_id) DO NOTHING` -/
def insertEvent (table : List (IdentifiedEvent φ)) (event : IdentifiedEvent φ) :
    List (IdentifiedEvent φ) :=
  if event.eventId ∈ table.map IdentifiedEvent.eventId then table else table ++ [event]

/-- `record_events`: the table it leaves, and the error it raises at an event of a
source run that is not claimed. -/
def recordEvents (claimed : CalendarDate → String → Bool) :
    List (IdentifiedEvent φ) → List (IdentifiedEvent φ) →
      List (IdentifiedEvent φ) × Option String
  | [], table => (table, none)
  | event :: events, table =>
      if claimed event.businessDate event.sourceSystem then
        recordEvents claimed events (insertEvent table event)
      else (table, some "events may be recorded only for a claimed source run")

end Recording

/-! ## The identity of an event -/

section Identity

variable {φ : Type}

/-- No separator in the source and in the type. -/
structure EventArguments.Plain (event : EventArguments φ) : Prop where
  sourceSystem : '|' ∉ event.sourceSystem.toList
  eventType : '|' ∉ event.eventType.toList

/-- Date, source, type, entity and payload are equal; payloads are equal as
dictionaries, whatever the order of their entries. -/
structure SameIdentity (event event' : IdentifiedEvent φ) : Prop where
  businessDate : event.businessDate = event'.businessDate
  sourceSystem : event.sourceSystem = event'.sourceSystem
  eventType : event.eventType = event'.eventType
  entityId : event.entityId = event'.entityId
  payload : event.payload.entries.Perm event'.payload.entries

/-- `event == event'` -/
structure SameEvent (event event' : IdentifiedEvent φ) : Prop extends
    SameIdentity event event' where
  eventId : event.eventId = event'.eventId
  availableOn : event.availableOn = event'.availableOn
  anomalyType : event.anomalyType = event'.anomalyType

/-- A text without a separator ends at the first one. -/
theorem append_separator_inj {s t u v : List Char} (hs : '|' ∉ s) (ht : '|' ∉ t)
    (h : s ++ '|' :: u = t ++ '|' :: v) : s = t ∧ u = v := by
  obtain ⟨hst, huv⟩ := Texts.append_inj_of_all (p := (· ≠ '|'))
    (fun x hx => decide_eq_true (ne_of_mem_of_not_mem hx hs))
    (fun x hx => decide_eq_true (ne_of_mem_of_not_mem hx ht)) rfl rfl h
  exact ⟨hst, List.tail_eq_of_cons_eq huv⟩

theorem isDigit_of_mem_zeroPaddedText {width n : Nat} {c : Char}
    (h : c ∈ (zeroPadded width n).toList) : c.isDigit = true := by
  rw [zeroPadded, String.toList_ofList] at h
  exact isDigit_of_mem_zeroPadded h

theorem toList_isoformat (date : CalendarDate) :
    date.isoformat.toList = (zeroPadded 4 date.year).toList ++
      '-' :: ((zeroPadded 2 date.month).toList ++ '-' :: (zeroPadded 2 date.day).toList) := by
  simp [CalendarDate.isoformat]

theorem separator_not_mem_isoformat (date : CalendarDate) : '|' ∉ date.isoformat.toList := by
  have hdigits : ∀ {width n : Nat}, '|' ∉ (zeroPadded width n).toList := fun h =>
    absurd (isDigit_of_mem_zeroPaddedText h) (by decide)
  rw [toList_isoformat]
  simp [hdigits]

theorem isoformat_injective : Function.Injective CalendarDate.isoformat := by
  intro date date' h
  have hlist := congrArg String.toList h
  rw [toList_isoformat, toList_isoformat] at hlist
  obtain ⟨hyear, hrest⟩ := Texts.append_inj_of_all (fun _ hc => isDigit_of_mem_zeroPaddedText hc)
    (fun _ hc => isDigit_of_mem_zeroPaddedText hc) rfl rfl hlist
  obtain ⟨hmonth, hrest'⟩ := Texts.append_inj_of_all (fun _ hc => isDigit_of_mem_zeroPaddedText hc)
    (fun _ hc => isDigit_of_mem_zeroPaddedText hc) rfl rfl (List.tail_eq_of_cons_eq hrest)
  have hday := List.tail_eq_of_cons_eq hrest'
  have hfields : date.year = date'.year ∧ date.month = date'.month ∧ date.day = date'.day :=
    ⟨zeroPadded_injective 4 (String.toList_injective hyear),
      zeroPadded_injective 2 (String.toList_injective hmonth),
      zeroPadded_injective 2 (String.toList_injective hday)⟩
  cases date
  cases date'
  simpa using hfields

variable {floats : FloatText φ}

theorem toList_identityText (event : EventArguments φ) :
    (event.identityText floats).toList = event.businessDate.isoformat.toList ++
      '|' :: (event.sourceSystem.toList ++ '|' :: (event.eventType.toList ++
        '|' :: (event.entityId.toList ++ '|' :: (event.payload.stablePayload floats).toList))) := by
  simp [EventArguments.identityText]

/-- The hashed text gives back what it is made of. -/
theorem identityText_inj {event event' : EventArguments φ} (hplain : event.Plain)
    (hplain' : event'.Plain) (h : event.identityText floats = event'.identityText floats) :
    event.businessDate = event'.businessDate ∧ event.sourceSystem = event'.sourceSystem ∧
      event.eventType = event'.eventType ∧ event.entityId = event'.entityId ∧
      event.payload.entries.Perm event'.payload.entries := by
  have hlist := congrArg String.toList h
  rw [toList_identityText, toList_identityText] at hlist
  obtain ⟨hdate, hrest⟩ := append_separator_inj (separator_not_mem_isoformat _)
    (separator_not_mem_isoformat _) hlist
  obtain ⟨hsource, hrest⟩ := append_separator_inj hplain.sourceSystem hplain'.sourceSystem hrest
  obtain ⟨htype, hrest⟩ := append_separator_inj hplain.eventType hplain'.eventType hrest
  rw [JsonPayload.stablePayload, JsonPayload.stablePayload, String.toList_ofList,
    String.toList_ofList] at hrest
  obtain ⟨hentity, hentries⟩ := separator_inj (by decide) hrest
  refine ⟨isoformat_injective (String.toList_injective hdate), String.toList_injective hsource,
    String.toList_injective htype, String.toList_injective hentity, ?_⟩
  have hsorted := List.perm_insertionSort (fun member member' : Member φ => member.1 ≤ member'.1)
    event.payload.entries
  rw [hentries] at hsorted
  exact hsorted.symm.trans (List.perm_insertionSort _ _)

/-- Events of one id agree in what the id is made of. -/
theorem sameIdentity_of_eventId {hexdigest : String → String}
    (hsha256 : Function.Injective hexdigest) {event event' : EventArguments φ}
    (hplain : event.Plain) (hplain' : event'.Plain)
    (h : (create floats hexdigest event).eventId = (create floats hexdigest event').eventId) :
    SameIdentity (create floats hexdigest event) (create floats hexdigest event') := by
  obtain ⟨hdate, hsource, htype, hentity, hpayload⟩ :=
    identityText_inj hplain hplain' (hsha256 h)
  exact ⟨hdate, hsource, htype, hentity, hpayload⟩

/-! ## Recorded events -/

/-- The tables of created events: each `INSERT` commits on its own. -/
inductive Recorded (floats : FloatText φ) (hexdigest : String → String) :
    List (IdentifiedEvent φ) → Prop
  | empty : Recorded floats hexdigest []
  | insert {table : List (IdentifiedEvent φ)} {event : EventArguments φ}
      (htable : Recorded floats hexdigest table) (hplain : event.Plain) :
      Recorded floats hexdigest (insertEvent table (create floats hexdigest event))

variable {hexdigest : String → String} {table : List (IdentifiedEvent φ)}

theorem mem_insertEvent {event stored : IdentifiedEvent φ} (h : stored ∈ insertEvent table event) :
    stored ∈ table ∨ stored = event := by
  rw [insertEvent] at h
  split at h
  · exact Or.inl h
  · exact (List.mem_append.mp h).imp_right List.mem_singleton.mp

theorem Recorded.exists_create (h : Recorded floats hexdigest table) :
    ∀ stored ∈ table, ∃ event : EventArguments φ, event.Plain ∧
      stored = create floats hexdigest event := by
  induction h with
  | empty => exact fun stored hmem => nomatch hmem
  | @insert table event _ hplain ih =>
      intro stored hmem
      rcases mem_insertEvent hmem with hold | rfl
      · exact ih stored hold
      · exact ⟨event, hplain, rfl⟩

/-- A call of `record_events`, also one that is cut off after some inserts. -/
theorem Recorded.recordEvents (h : Recorded floats hexdigest table)
    (claimed : CalendarDate → String → Bool) {events : List (EventArguments φ)}
    (hplain : ∀ event ∈ events, event.Plain) :
    Recorded floats hexdigest
      (EventIdentity.recordEvents claimed (events.map (create floats hexdigest)) table).1 := by
  induction events generalizing table with
  | nil => exact h
  | cons event events ih =>
      rw [List.map_cons, EventIdentity.recordEvents]
      split
      · exact ih (h.insert (hplain event List.mem_cons_self))
          (fun event' hmem => hplain event' (List.mem_cons_of_mem _ hmem))
      · exact h

theorem mem_insertEvent_of_mem {event stored : IdentifiedEvent φ} (h : stored ∈ table) :
    stored ∈ insertEvent table event := by
  rw [insertEvent]
  split
  · exact h
  · exact List.mem_append_left _ h

/-- Inserted or dropped, an event has a row that agrees with it. -/
theorem exists_sameIdentity_insertEvent (hsha256 : Function.Injective hexdigest)
    (h : Recorded floats hexdigest table) {event : EventArguments φ} (hplain : event.Plain) :
    ∃ stored ∈ insertEvent table (create floats hexdigest event),
      stored.eventId = (create floats hexdigest event).eventId ∧
        SameIdentity stored (create floats hexdigest event) := by
  by_cases hknown : (create floats hexdigest event).eventId ∈ table.map IdentifiedEvent.eventId
  · obtain ⟨stored, hmem, hid⟩ := List.mem_map.mp hknown
    obtain ⟨event', hplain', rfl⟩ := h.exists_create stored hmem
    exact ⟨_, mem_insertEvent_of_mem hmem, hid,
      sameIdentity_of_eventId hsha256 hplain' hplain hid⟩
  · refine ⟨create floats hexdigest event, ?_, rfl, ⟨rfl, rfl, rfl, rfl, List.Perm.refl _⟩⟩
    rw [insertEvent, if_neg hknown]
    exact List.mem_append_right _ (List.mem_singleton_self _)

/-- Events that are not refused have rows that agree with them. -/
theorem recordEvents_keeps (hsha256 : Function.Injective hexdigest)
    (h : Recorded floats hexdigest table) (claimed : CalendarDate → String → Bool)
    {events : List (EventArguments φ)} (hplain : ∀ event ∈ events, event.Plain)
    (hended : (recordEvents claimed (events.map (create floats hexdigest)) table).2 = none) :
    ∀ event ∈ events,
      ∃ stored ∈ (recordEvents claimed (events.map (create floats hexdigest)) table).1,
        stored.eventId = (create floats hexdigest event).eventId ∧
          SameIdentity stored (create floats hexdigest event) := by
  have hkept : ∀ (events : List (IdentifiedEvent φ)) (table : List (IdentifiedEvent φ)),
      ∀ stored ∈ table, stored ∈ (recordEvents claimed events table).1 := by
    intro events
    induction events with
    | nil => exact fun table stored hmem => hmem
    | cons event events ih =>
        intro table stored hmem
        rw [recordEvents]
        split
        · exact ih _ stored (mem_insertEvent_of_mem hmem)
        · exact hmem
  induction events generalizing table with
  | nil => exact fun event hmem => nomatch hmem
  | cons event events ih =>
      rw [List.map_cons, recordEvents] at hended ⊢
      split at hended
      · rename_i hclaimed
        rw [if_pos hclaimed]
        have hevent := hplain event List.mem_cons_self
        have hrest : ∀ event ∈ events, event.Plain := fun event' hmem =>
          hplain event' (List.mem_cons_of_mem _ hmem)
        intro event' hmem
        rcases List.mem_cons.mp hmem with rfl | hmem
        · obtain ⟨stored, hstored, hsame⟩ := exists_sameIdentity_insertEvent hsha256 h hevent
          exact ⟨stored, hkept _ _ stored hstored, hsame⟩
        · exact ih (h.insert hevent) hrest hended event' hmem
      · cases hended

/-- The hashed text gives back date, source, type, entity and payload; events of one
id agree in them, and so do a row of the table and an event that it makes the
`INSERT` drop; after a call every event has a row that agrees with it. -/
theorem events_identified (hsha256 : Function.Injective hexdigest) :
    (∀ event event' : EventArguments φ, event.Plain → event'.Plain →
        event.identityText floats = event'.identityText floats →
        event.businessDate = event'.businessDate ∧ event.sourceSystem = event'.sourceSystem ∧
          event.eventType = event'.eventType ∧ event.entityId = event'.entityId ∧
          event.payload.entries.Perm event'.payload.entries) ∧
      (∀ event event' : EventArguments φ, event.Plain → event'.Plain →
        (create floats hexdigest event).eventId = (create floats hexdigest event').eventId →
        SameIdentity (create floats hexdigest event) (create floats hexdigest event')) ∧
      ∀ table, Recorded floats hexdigest table →
        (∀ event : EventArguments φ, event.Plain → ∀ stored ∈ table,
          stored.eventId = (create floats hexdigest event).eventId →
          SameIdentity stored (create floats hexdigest event)) ∧
        ∀ (claimed : CalendarDate → String → Bool) (events : List (EventArguments φ)),
          (∀ event ∈ events, event.Plain) →
          (recordEvents claimed (events.map (create floats hexdigest)) table).2 = none →
          ∀ event ∈ events,
            ∃ stored ∈ (recordEvents claimed (events.map (create floats hexdigest)) table).1,
              stored.eventId = (create floats hexdigest event).eventId ∧
                SameIdentity stored (create floats hexdigest event) := by
  refine ⟨fun _ _ hplain hplain' h => identityText_inj hplain hplain' h,
    fun _ _ hplain hplain' h => sameIdentity_of_eventId hsha256 hplain hplain' h, ?_⟩
  intro table htable
  refine ⟨?_, fun claimed events hplain hended =>
    recordEvents_keeps hsha256 htable claimed hplain hended⟩
  intro event hplain stored hmem hid
  obtain ⟨event', hplain', rfl⟩ := htable.exists_create stored hmem
  exact sameIdentity_of_eventId hsha256 hplain' hplain hid

end Identity

/-! ## One event with and without an anomaly -/

/-- The numbers with a half: `0.5`, `1.5`, … -/
def halves : FloatText Nat where
  text n := Nat.toDigits 10 n ++ ['.', '5']
  injective := by
    intro m n h
    have hnumber := congrArg (fun cs => Nat.ofDigitChars 10 cs 0) (List.append_cancel_right h)
    simpa only [Nat.ofDigitChars_ten_toDigits] using hnumber
  numeric := by
    intro n c hc
    rcases List.mem_append.mp hc with hdigit | hend
    · rw [isNumberChar, Nat.isDigit_of_mem_toDigits (by decide) (by decide) hdigit, Bool.true_or]
    · rcases List.mem_pair.mp hend with rfl | rfl <;> decide
  ne_int := by
    intro n m h
    have hpoint : '.' ∈ (toString m).toList := by
      rw [← h]
      exact List.mem_append_right _ List.mem_cons_self
    rcases Texts.isDigit_or_minus_of_mem_int hpoint with hdigit | hminus
    · exact absurd hdigit (by decide)
    · exact absurd hminus (by decide)

/-- An event whose entity and payload hold separators and quotes. -/
def separatedEvent (anomalyType : Option String) : EventArguments Nat where
  businessDate := ⟨2026, 7, 25⟩
  sourceSystem := "ops"
  eventType := "shipment_created"
  entityId := "7|\x7b\"a\":1\x7d"
  payload :=
    { entries := [("note", .text "|\x7b\",\":null\x7d"), ("hours", .float 1)]
      distinct := by decide }
  availableOn := none
  anomalyType := anomalyType

theorem plain_separatedEvent (anomalyType : Option String) :
    (separatedEvent anomalyType).Plain := by
  have hsource : '|' ∉ "ops".toList := by
    decide
  have htype : '|' ∉ "shipment_created".toList := by
    decide
  exact ⟨hsource, htype⟩

/-- The same event, with the entries of its payload the other way round. -/
def turnedEvent : EventArguments Nat :=
  { separatedEvent none with
    payload :=
      { entries := [("hours", .float 1), ("note", .text "|\x7b\",\":null\x7d")]
        distinct := by decide } }

theorem events_identified_turned :
    (separatedEvent none).identityText halves =
        "2026-07-25|ops|shipment_created|7|\x7b\"a\":1\x7d|" ++
          "\x7b\"hours\":1.5,\"note\":\"|\x7b\\\",\\\":null\x7d\"\x7d" ∧
      SameIdentity (create halves id (separatedEvent none)) (create halves id turnedEvent) := by
  have hplain : turnedEvent.Plain :=
    ⟨(plain_separatedEvent none).sourceSystem, (plain_separatedEvent none).eventType⟩
  have hid : (create halves id (separatedEvent none)).eventId =
      (create halves id turnedEvent).eventId := by
    decide +kernel
  exact ⟨by decide +kernel, (events_identified Function.injective_id).2.1 _ _
    (plain_separatedEvent none) hplain hid⟩

/-- Events of one id are the same event. -/
def DistinctEventsDiffer : Prop :=
  ∀ (φ : Type) (floats : FloatText φ) (hexdigest : String → String),
    Function.Injective hexdigest → ∀ event event' : EventArguments φ,
      event.Plain → event'.Plain →
      (create floats hexdigest event).eventId = (create floats hexdigest event').eventId →
      SameEvent (create floats hexdigest event) (create floats hexdigest event')

/-- The anomaly of an event is not part of its id. -/
theorem stalled_event_shares_id : ¬ DistinctEventsDiffer := by
  intro hall
  have hsame := hall Nat halves id Function.injective_id (separatedEvent none)
    (separatedEvent (some "stalled_shipment")) (plain_separatedEvent none)
    (plain_separatedEvent (some "stalled_shipment")) rfl
  exact nomatch hsame.anomalyType

end EventIdentity
end Simulator
end Northwind
